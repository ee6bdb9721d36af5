import Mathlib.Algebra.GroupWithZero.Nat
import TestAssembly.Fixture
import TestAssembly.Pool.Coverage

/-!
# How long a pool can be

The count of a pool goes strand by strand, each strand that an item names counted once. As every
item is in one strand, this is the number of items that count (`toNat_strandCount`): operational
ones whose strand has an adaptive cut.

The achievable length is within the greatest length, and as a rule within that count. The one
exception is a shortfall that leaves nothing of the greatest length, which then stands as it is,
however few items there are (`count_lt_achievableLength_iff`): a pool of one item that should have
eight makes a segment of five (`length_thinSegment`).
-/

namespace TestAssembly

variable {segment : Segment} {pool : List Item}

/-! ### Items that count -/

namespace Segment

/-- Whether a strand has an adaptive cut. -/
def countsStrand (segment : Segment) (name : String) : Bool :=
  (segment.strand? name).any (·.adaptiveCut.isSome)

/-- **Items that count** towards the length: operational ones in a strand with an adaptive cut. -/
def countsItem (segment : Segment) (item : Item) : Bool :=
  !item.fieldTest && segment.countsStrand item.strand

theorem name_of_strand? {name : String} {strand : Strand} (h : segment.strand? name = some strand) :
    strand.name = name := by
  simpa using List.find?_some h

end Segment

/-- Of the strands that the items name, those with an adaptive cut are counted. -/
theorem map_name_countedStrands (segment : Segment) (pool : List Item) :
    (countedStrands segment pool).map (·.name) =
      (pool.map (·.strand)).eraseDups.filter segment.countsStrand := by
  have hname : ∀ name, ((segment.strand? name).filter (·.adaptiveCut.isSome)).map (·.name) =
      if segment.countsStrand name then some name else none := by
    intro name
    cases hstrand : segment.strand? name with
    | none => simp [Segment.countsStrand, hstrand]
    | some strand =>
      cases hcut : strand.adaptiveCut.isSome with
      | false => simp [Segment.countsStrand, hstrand, Option.filter, hcut]
      | true =>
        simp [Segment.countsStrand, hstrand, Option.filter, hcut, Segment.name_of_strand? hstrand]
  rw [countedStrands, List.map_filterMap, ← List.filterMap_eq_filter]
  exact congrArg (List.filterMap · _) (funext hname)

/-! ### Counting by key -/

/-- Without repetitions no element is left twice. -/
theorem nodup_eraseDups {α : Type} [BEq α] [LawfulBEq α] (elements : List α) :
    elements.eraseDups.Nodup := by
  match elements with
  | [] => exact List.nodup_nil
  | a :: rest =>
    rw [List.eraseDups_cons, List.nodup_cons]
    exact ⟨by simp, nodup_eraseDups _⟩
termination_by elements.length
decreasing_by exact Nat.lt_succ_of_le (List.length_filter_le ..)

/-- Elements that pass one of two tests, when none passes both. -/
theorem countP_or {α : Type} {p q : α → Bool} {elements : List α}
    (h : ∀ a, p a = true → q a = false) :
    (elements.countP fun a => p a || q a) = elements.countP p + elements.countP q := by
  induction elements with
  | nil => rfl
  | cons a rest ih =>
    rw [List.countP_cons, List.countP_cons, List.countP_cons, ih]
    cases hp : p a with
    | false => simp [Nat.add_assoc]
    | true => simp [h a hp, Nat.add_right_comm]

/-- **Counted by key**, element by element or key by key, is the same. -/
theorem sum_countP_eq {α : Type} (p : α → Bool) (key : α → String) (elements : List α)
    {keys : List String} (h : keys.Nodup) :
    (keys.map fun k => elements.countP fun a => p a && key a == k).sum =
      elements.countP fun a => p a && keys.contains (key a) := by
  induction keys with
  | nil => simp
  | cons k rest ih =>
    obtain ⟨hk, hrest⟩ := List.nodup_cons.mp h
    rw [List.map_cons, List.sum_cons, ih hrest, ← countP_or]
    · refine List.countP_congr fun a _ => ?_
      rw [List.contains_cons, Bool.and_or_distrib_left]
    · -- an element with the first key has none of the others
      intro a ha
      simp only [Bool.and_eq_true, beq_iff_eq] at ha
      simp [ha.2, hk]

/-- A saturating sum of counts is the sum of the numbers, as far as the word goes. -/
theorem toNat_sumSat_countOf {α : Type} (f : α → Nat) (elements : List α) :
    (sumSat (elements.map fun a => countOf (f a))).toNat =
      min (elements.map f).sum maxCount := by
  rw [toNat_sumSat]
  induction elements with
  | nil => rfl
  | cons a rest ih =>
    simp only [List.map_cons, total, List.sum_cons, toNat_countOf]
    omega

/-- **What is counted** are the items that count. -/
theorem toNat_strandCount (segment : Segment) (pool : List Item) :
    (strandCoverage segment pool).strandCount.toNat =
      min (pool.countP segment.countsItem) maxCount := by
  have hstrands : (countedStrands segment pool).map (fun s => operationalCount pool s.name) =
      ((pool.map (·.strand)).eraseDups.filter segment.countsStrand).map fun name =>
        countOf (pool.countP fun item => !item.fieldTest && item.strand == name) := by
    rw [← map_name_countedStrands, List.map_map]
    rfl
  have hnames : ((pool.map (·.strand)).eraseDups.filter segment.countsStrand).Nodup :=
    (nodup_eraseDups _).filter _
  have hcount : (strandCoverage segment pool).strandCount = sumSat
      ((countedStrands segment pool).map fun s => operationalCount pool s.name) := rfl
  rw [hcount, hstrands, toNat_sumSat_countOf, sum_countP_eq _ _ _ hnames]
  congr 1
  refine List.countP_congr fun item hitem => ?_
  -- the strand of an item of the pool is among those that are named
  have hnamed : item.strand ∈ pool.map (·.strand) := List.mem_map_of_mem hitem
  simp [Segment.countsItem, hnamed]

/-! ### The length -/

/-- **The exception**: the length exceeds the count when the shortfall leaves nothing of the
greatest length, and the count is less than that. -/
theorem count_lt_achievableLength_iff {maxItems : UInt32} {coverage : Coverage} :
    coverage.strandCount < achievableLength maxItems coverage ↔
      coverage.strandCount < maxItems ∧ (maxItems < coverage.shortfall ∨
        maxItems = coverage.shortfall ∧ 0 < coverage.strandCount) := by
  have hzero : (0 : UInt32).toNat = 0 := rfl
  simp only [UInt32.lt_iff_toNat_lt, ← UInt32.toNat_inj, hzero]
  rw [achievableLength]
  split
  · split
    · rw [toNat_countOf]
      omega
    · omega
  · omega

/-- Beyond the count the length is the greatest length. -/
theorem achievableLength_eq_of_count_lt {maxItems : UInt32} {coverage : Coverage}
    (h : coverage.strandCount < achievableLength maxItems coverage) :
    achievableLength maxItems coverage = maxItems := by
  obtain ⟨hcount, hshortfall⟩ := count_lt_achievableLength_iff.1 h
  have hzero : (0 : UInt32).toNat = 0 := rfl
  simp only [UInt32.lt_iff_toNat_lt, ← UInt32.toNat_inj, hzero] at hcount hshortfall
  rw [achievableLength, if_pos (by omega), if_neg (by omega)]

/-- **What backs a length**: a sized pool counts the eligible items that count, and is no longer
than the greatest length. It has an item for each place as well, except when the shortfall leaves
nothing of the greatest length: then this is the length, whatever the count. -/
theorem length_segmentPool_backed (accommodations : List Accommodation)
    (constraints : List Constraint) (segment : Segment) (languageProperty language : String) :
    let eligible := eligibleItems accommodations constraints none
      (segment.itemsIn languageProperty language)
    let shortfall := (strandCoverage segment eligible).shortfall
    let pool := segmentPool accommodations constraints segment languageProperty language
    pool.poolCount.toNat = min (eligible.countP segment.countsItem) maxCount ∧
      pool.length ≤ segment.maxItems ∧
      (pool.length ≤ pool.poolCount ∨
        pool.length = segment.maxItems ∧ pool.poolCount < segment.maxItems ∧
          segment.maxItems ≤ shortfall) ∧
      (pool.poolCount < pool.length ↔ pool.poolCount < segment.maxItems ∧
        (segment.maxItems < shortfall ∨ segment.maxItems = shortfall ∧ 0 < pool.poolCount)) := by
  intro eligible shortfall pool
  have hexception : pool.poolCount < pool.length ↔ pool.poolCount < segment.maxItems ∧
      (segment.maxItems < shortfall ∨ segment.maxItems = shortfall ∧ 0 < pool.poolCount) :=
    count_lt_achievableLength_iff
  refine ⟨toNat_strandCount segment eligible, achievableLength_le _ _, ?_, hexception⟩
  rcases UInt32.lt_or_le pool.poolCount pool.length with hlt | hle
  · obtain ⟨hcount, hshortfall⟩ := hexception.mp hlt
    refine .inr ⟨achievableLength_eq_of_count_lt hlt, hcount, ?_⟩
    rcases hshortfall with hless | ⟨heq, -⟩
    · exact UInt32.le_of_lt hless
    · exact UInt32.le_of_eq heq
  · exact .inl hle

/-- A segment of five items with one item, in a strand that should have eight. -/
def thinSegment : Segment :=
  Fixture.buildSegment "SEG" .adaptive
    [.maxItems 5, .strand "Reading" 8 (some 0.5), .items [Fixture.item "i1"]]

/-- **A length without items**: five items are promised and one is there. -/
theorem length_thinSegment :
    let pool := segmentPool [] [] thinSegment "Language" "ENU"
    pool.length = 5 ∧ pool.poolCount = 1 ∧ pool.items = [Fixture.item "i1"] ∧
      ¬ pool.length ≤ pool.poolCount := by
  decide

end TestAssembly
