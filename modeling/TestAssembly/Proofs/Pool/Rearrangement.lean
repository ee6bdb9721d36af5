import Mathlib.Algebra.BigOperators.Group.Finset.Basic
import TestAssembly.Proofs.Pool.Shortfall

/-!
# Coverage in any order

A strand is found through the items that name it, the first one that does, and those after it pass
it by. So the order of the items could matter, but it does not: what is missing is summed up over
the set of names, each name once (`toNat_shortfall_eq_sum`), and what counts is counted item by
item. Both say nothing of an order, so that coverage is the same for any rearrangement of a pool
(`strandCoverage_perm`), and the length and the count of a sized pool are the same for any
rearrangement of the segment's items (`segmentPool_perm`). Only the list of the pool's items itself
keeps the order in which they come.
-/

namespace TestAssembly

variable {segment : Segment} {pool other : List Item}

/-! ### Sums over names -/

/-- **What is missing under a name**: the lack of the first strand of that name, if it has an
adaptive cut. -/
def Segment.lackUnder (segment : Segment) (pool : List Item) (name : String) : Nat :=
  ((segment.strand? name).filter (·.adaptiveCut.isSome)).elim 0 (·.lack pool)

/-- Elements without an image add nothing to a sum of images. -/
theorem sum_map_filterMap {α β : Type} (f : α → Option β) (g : β → Nat) (elements : List α) :
    ((elements.filterMap f).map g).sum = (elements.map fun a => (f a).elim 0 g).sum := by
  induction elements with
  | nil => rfl
  | cons a rest ih =>
    rw [List.map_cons, List.sum_cons, ← ih]
    cases hf : f a with
    | none => rw [List.filterMap_cons_none hf, Option.elim_none, Nat.zero_add]
    | some b => rw [List.filterMap_cons_some hf, List.map_cons, List.sum_cons, Option.elim_some]

/-- **The shortfall** goes over the names of the strands that some item of the pool names, each of
them once. -/
theorem toNat_shortfall_eq_sum (segment : Segment) (pool : List Item) :
    (strandCoverage segment pool).shortfall.toNat =
      min (∑ name ∈ (pool.map (·.strand)).toFinset, segment.lackUnder pool name) maxCount := by
  have hnames : (pool.map (·.strand)).toFinset = (pool.map (·.strand)).eraseDups.toFinset := by
    ext name
    rw [List.mem_toFinset, List.mem_toFinset, List.mem_eraseDups]
  rw [toNat_shortfall_countedStrands, countedStrands, sum_map_filterMap, hnames,
    List.sum_toFinset _ (nodup_eraseDups _)]
  rfl

/-! ### Rearrangements -/

/-- A strand lacks the same in any order of the items. -/
theorem Strand.lack_perm (strand : Strand) (h : other.Perm pool) :
    strand.lack other = strand.lack pool := by
  rw [lack, lack, h.countP_eq]

/-- **Coverage** is the same in any order of the items. -/
theorem strandCoverage_perm (segment : Segment) (h : other.Perm pool) :
    strandCoverage segment other = strandCoverage segment pool := by
  have hcount : (strandCoverage segment other).strandCount =
      (strandCoverage segment pool).strandCount := by
    rw [← UInt32.toNat_inj, toNat_strandCount, toNat_strandCount, h.countP_eq]
  have hshortfall : (strandCoverage segment other).shortfall =
      (strandCoverage segment pool).shortfall := by
    have hlacks : segment.lackUnder other = segment.lackUnder pool := by
      funext name
      rw [Segment.lackUnder, Segment.lackUnder, funext fun strand => Strand.lack_perm strand h]
    rw [← UInt32.toNat_inj, toNat_shortfall_eq_sum, toNat_shortfall_eq_sum, hlacks,
      List.toFinset_eq_of_perm _ _ (h.map _)]
  exact congrArg₂ Coverage.mk hcount hshortfall

/-- **The length and the count** of a sized pool are the same in any order of the segment's
items. -/
theorem segmentPool_perm (accommodations : List Accommodation) (constraints : List Constraint)
    (segment : Segment) (languageProperty language : String) {items : List Item}
    (h : items.Perm segment.items) :
    let sized := segmentPool accommodations constraints segment languageProperty language
    let rearranged :=
      segmentPool accommodations constraints { segment with items } languageProperty language
    rearranged.length = sized.length ∧ rearranged.poolCount = sized.poolCount ∧
      rearranged.items.Perm sized.items := by
  intro sized rearranged
  have hitems : rearranged.items.Perm sized.items := (h.filter _).filter _
  have hcoverage : strandCoverage { segment with items } rearranged.items =
      strandCoverage segment sized.items := strandCoverage_perm segment hitems
  exact ⟨congrArg (achievableLength segment.maxItems) hcoverage,
    congrArg Coverage.strandCount hcoverage, hitems⟩

/-! ### Both in one -/

/-- A segment with a strand that has a cut, one that has none, and one configured twice, the first
time with a cut. -/
def mixedStrandsSegment : Segment :=
  Fixture.buildSegment "SEG" .adaptive
    [.maxItems 9, .strand "Reading" 4 (some 0.5), .strand "Geometry" 7 none,
      .strand "Algebra" 3 (some 0.25), .strand "Algebra" 8 none,
      .items ([("Reading", false), ("Geometry", false), ("Unknown", false), ("Algebra", true),
        ("Reading", false), ("Algebra", true), ("Reading", true)].map fun (strand, fieldTest) =>
          Fixture.buildItem "i"
            (if fieldTest then [.strand strand, .fieldTest] else [.strand strand]))]

end TestAssembly
