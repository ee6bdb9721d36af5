import TestAssembly.Content.Record
import TestAssembly.Pool.Eligibility

/-!
# Pool sizing

How long an adaptive segment can be is bounded by its greatest length, by the eligible operational
items in strands that have an adaptive cut, and by the minimums of these strands that the pool
cannot cover. Strands without a cut, and items of strands the segment does not know, do not count;
such items stay in the pool.
-/

namespace TestAssembly

/-- **Coverage** of the strands by a pool. -/
structure Coverage where
  /-- The operational items in strands with an adaptive cut. -/
  strandCount : UInt32
  /-- What is missing to the minimums of these strands. -/
  shortfall : UInt32
  deriving DecidableEq, Repr, Inhabited

/-- The number of operational items of a strand. -/
def operationalCount (pool : List Item) (strand : String) : UInt32 :=
  countOf (pool.countP fun item => !item.fieldTest && item.strand == strand)

/-- The strands with an adaptive cut that some item of the pool names, each once. -/
def countedStrands (segment : Segment) (pool : List Item) : List Strand :=
  (pool.map (·.strand)).eraseDups.filterMap fun name =>
    (segment.strand? name).filter (·.adaptiveCut.isSome)

/-- **Strand coverage** of a pool. -/
def strandCoverage (segment : Segment) (pool : List Item) : Coverage :=
  let strands := countedStrands segment pool
  { strandCount := sumSat (strands.map fun s => operationalCount pool s.name)
    shortfall :=
      sumSat (strands.map fun s => subSat s.minItems (operationalCount pool s.name)) }

/-- **Achievable length.** When the greatest length less the shortfall is below the count of
items, it is the length, unless nothing is left of it, in which case the greatest length stands;
otherwise the count is the length. -/
def achievableLength (maxItems : UInt32) (coverage : Coverage) : UInt32 :=
  let rest := (maxItems.toNat : Int) - coverage.shortfall.toNat
  if rest < coverage.strandCount.toNat then
    if 0 < rest then countOf rest.toNat else maxItems
  else coverage.strandCount

/-- No more than the greatest length is achievable. -/
theorem achievableLength_le (maxItems : UInt32) (coverage : Coverage) :
    achievableLength maxItems coverage ≤ maxItems := by
  rw [UInt32.le_iff_toNat_le, achievableLength]
  split
  · split
    · rw [toNat_countOf]
      omega
    · exact Nat.le_refl _
  · omega

/-- **Sized pool** of an adaptive segment. -/
structure SegmentPool where
  length : UInt32
  poolCount : UInt32
  items : List Item
  deriving DecidableEq, Repr, Inhabited

/-- The names of the items of a pool. -/
def SegmentPool.itemIds (pool : SegmentPool) : NameSet :=
  NameSet.ofNames (pool.items.map (·.id))

/-- The pool of a segment for an examinee who takes it in a language. -/
def segmentPool (accommodations : List Accommodation) (constraints : List Constraint)
    (segment : Segment) (languageProperty language : String) : SegmentPool :=
  let items :=
    eligibleItems accommodations constraints none (segment.itemsIn languageProperty language)
  let coverage := strandCoverage segment items
  { length := achievableLength segment.maxItems coverage
    poolCount := coverage.strandCount
    items }

end TestAssembly
