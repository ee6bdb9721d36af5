import Mathlib.Algebra.BigOperators.Group.List.Basic
import Mathlib.Data.List.Nodup
import TestAssembly.Proofs.Pool.Length

/-!
# Which minimums a shortfall takes in

A strand with an adaptive cut lacks what its operational items leave of its minimum. The strands are
found through the items, though, so that the shortfall takes in a strand only if some item of the
pool names it (`toNat_shortfall`), a field-test item as well as an operational one. Hence two
differences from the sum over all the strands that have a cut, `Segment.lack`:

* a strand without any item lacks its whole minimum, and is passed over;
* a strand with field-test items alone lacks its whole minimum, and is taken in because of them,
  though they do not count.

Up to the greatest count these are the only ones (`shortfall_accounts`).
-/

namespace TestAssembly

variable {segment : Segment} {pool : List Item} {strand : Strand}

/-! ### What a strand lacks -/

/-- What the operational items of a pool leave of a strand's minimum. -/
def Strand.lack (strand : Strand) (pool : List Item) : Nat :=
  strand.minItems.toNat - pool.countP fun item => !item.fieldTest && item.strand == strand.name

/-- Whether some item of a pool names the strand. -/
def Strand.isNamedIn (strand : Strand) (pool : List Item) : Bool :=
  pool.any (·.strand == strand.name)

/-- The operational items of a pool. -/
def operationalItems (pool : List Item) : List Item := pool.filter (!·.fieldTest)

namespace Segment

/-- The strands with an adaptive cut. -/
def cutStrands (segment : Segment) : List Strand :=
  segment.strands.filter (·.adaptiveCut.isSome)

/-- Of these, the ones that some item of a pool names. -/
def namedStrands (segment : Segment) (pool : List Item) : List Strand :=
  segment.cutStrands.filter (·.isNamedIn pool)

/-- **Lack** of a pool: what is missing to the minimums of all the strands with an adaptive cut. -/
def lack (segment : Segment) (pool : List Item) : Nat :=
  (segment.cutStrands.map (·.lack pool)).sum

end Segment

namespace Strand

theorem isNamedIn_iff :
    strand.isNamedIn pool = true ↔ ∃ item ∈ pool, item.strand = strand.name := by
  simp [isNamedIn]

/-- A saturated count leaves the same of a minimum, since no minimum is greater. -/
theorem toNat_subSat_operationalCount (strand : Strand) (pool : List Item) :
    (subSat strand.minItems (operationalCount pool strand.name)).toNat = strand.lack pool := by
  have hword := toNat_le_maxCount strand.minItems
  rw [toNat_subSat, operationalCount, toNat_countOf, lack]
  omega

/-- Field-test items make up for nothing. -/
theorem lack_operationalItems (strand : Strand) (pool : List Item) :
    strand.lack (operationalItems pool) = strand.lack pool := by
  rw [lack, lack, operationalItems, List.countP_filter]
  congr 2
  funext item
  cases item.fieldTest <;> simp

/-- A strand without operational items lacks its minimum, so nothing if that is zero. -/
theorem lack_eq_zero_iff (h : strand.isNamedIn (operationalItems pool) = false) :
    strand.lack pool = 0 ↔ strand.minItems = 0 := by
  have hnone : pool.countP (fun item => !item.fieldTest && item.strand == strand.name) = 0 := by
    simpa [isNamedIn, operationalItems, List.countP_eq_zero] using h
  rw [lack, hnone, Nat.sub_zero, ← UInt32.toNat_inj, UInt32.toNat_zero]

/-- What names a strand operationally names it. -/
theorem isNamedIn_of_operationalItems (h : strand.isNamedIn (operationalItems pool) = true) :
    strand.isNamedIn pool = true := by
  obtain ⟨item, hitem, hname⟩ := isNamedIn_iff.1 h
  exact isNamedIn_iff.2 ⟨item, List.mem_of_mem_filter hitem, hname⟩

end Strand

/-! ### Which strands are counted -/

/-- Strands of distinct names are found by them. -/
theorem Segment.strand?_name (hnames : (segment.strands.map (·.name)).Nodup)
    (hstrand : strand ∈ segment.strands) : segment.strand? strand.name = some strand := by
  cases hfound : segment.strand? strand.name with
  | none => simpa using List.find?_eq_none.mp hfound strand hstrand
  | some other =>
    have hother : other ∈ segment.strands := List.mem_of_find?_eq_some hfound
    rw [List.inj_on_of_nodup_map hnames hother hstrand (Segment.name_of_strand? hfound)]

theorem mem_countedStrands (hnames : (segment.strands.map (·.name)).Nodup) :
    strand ∈ countedStrands segment pool ↔ strand ∈ segment.namedStrands pool := by
  simp only [countedStrands, List.mem_filterMap, List.mem_eraseDups, List.mem_map,
    Option.filter_eq_some_iff, Segment.namedStrands, Segment.cutStrands, List.mem_filter,
    Strand.isNamedIn_iff]
  constructor
  · rintro ⟨_, ⟨item, hitem, rfl⟩, hfound, hcut⟩
    exact ⟨⟨List.mem_of_find?_eq_some hfound, hcut⟩,
      item, hitem, (Segment.name_of_strand? hfound).symm⟩
  · rintro ⟨⟨hstrand, hcut⟩, item, hitem, hname⟩
    exact ⟨strand.name, ⟨item, hitem, hname⟩, Segment.strand?_name hnames hstrand, hcut⟩

/-- The strands counted are those with a cut that some item names, each of them once. -/
theorem countedStrands_perm (hnames : (segment.strands.map (·.name)).Nodup) (pool : List Item) :
    (countedStrands segment pool).Perm (segment.namedStrands pool) := by
  refine (List.perm_ext_iff_of_nodup ?_ ?_).mpr fun strand => mem_countedStrands hnames
  · refine List.Nodup.of_map (·.name) ?_
    rw [map_name_countedStrands]
    exact (nodup_eraseDups _).filter _
  · exact ((List.Nodup.of_map _ hnames).filter _).filter _

/-- What is missing to the strands counted is summed up, as far as the word goes. -/
theorem toNat_shortfall_countedStrands (segment : Segment) (pool : List Item) :
    (strandCoverage segment pool).shortfall.toNat =
      min ((countedStrands segment pool).map (·.lack pool)).sum maxCount := by
  rw [← funext (Strand.toNat_subSat_operationalCount · pool)]
  simp only [toNat_subSat]
  exact toNat_sumSat_countOf
    (fun s : Strand => s.minItems.toNat - (operationalCount pool s.name).toNat) _

/-- **The shortfall** is what is missing to the strands that some item names. -/
theorem toNat_shortfall (hnames : (segment.strands.map (·.name)).Nodup) (pool : List Item) :
    (strandCoverage segment pool).shortfall.toNat =
      min ((segment.namedStrands pool).map (·.lack pool)).sum maxCount := by
  rw [toNat_shortfall_countedStrands, ((countedStrands_perm hnames pool).map _).sum_nat]

/-! ### What is passed over -/

/-- A sum splits into the summands that pass a test and the others. -/
theorem sum_filter_add {α : Type} (p : α → Bool) (f : α → Nat) (elements : List α) :
    ((elements.filter p).map f).sum + ((elements.filter fun a => !p a).map f).sum =
      (elements.map f).sum := by
  simpa using List.sum_map_filter_add_sum_map_filter_not (p · = true) f elements

/-- Leaving out summands keeps a bounded sum exactly when they are zero, or the rest reaches the
bound. -/
theorem min_sum_filter_eq_iff {α : Type} (p : α → Bool) (f : α → Nat) (elements : List α)
    (bound : Nat) :
    min ((elements.filter p).map f).sum bound = min (elements.map f).sum bound ↔
      (∀ a ∈ elements, p a = false → f a = 0) ∨ bound ≤ ((elements.filter p).map f).sum := by
  have hsplit := sum_filter_add p f elements
  have hzero : ((elements.filter fun a => !p a).map f).sum = 0 ↔
      ∀ a ∈ elements, p a = false → f a = 0 := by
    rw [List.sum_eq_zero_iff_forall_eq_nat, List.forall_mem_map]
    simp only [List.mem_filter, Bool.not_eq_true', and_imp]
  rw [← hzero]
  omega

/-- **Passing over strands** that no operational item names keeps the sum of what is lacking, up to
the greatest count, exactly when they have no minimums. -/
theorem min_sum_lack_eq_iff {strands : List Strand} {taken : Strand → Bool}
    (h : ∀ strand, taken strand = false → strand.isNamedIn (operationalItems pool) = false) :
    min ((strands.filter taken).map (·.lack pool)).sum maxCount =
        min (strands.map (·.lack pool)).sum maxCount ↔
      (∀ strand ∈ strands, taken strand = false → strand.minItems = 0) ∨
        maxCount ≤ ((strands.filter taken).map (·.lack pool)).sum := by
  refine (min_sum_filter_eq_iff taken _ strands maxCount).trans (or_congr_left ?_)
  exact forall₂_congr fun strand _ => forall_congr' fun hnot => Strand.lack_eq_zero_iff (h _ hnot)

namespace Segment

/-- What operational items name is among what all items name. -/
theorem namedStrands_operationalItems (segment : Segment) (pool : List Item) :
    segment.namedStrands (operationalItems pool) =
      (segment.namedStrands pool).filter (·.isNamedIn (operationalItems pool)) := by
  rw [namedStrands, namedStrands, List.filter_filter]
  refine List.filter_congr fun strand _ => Bool.eq_iff_iff.mpr ?_
  rw [Bool.and_eq_true]
  exact ⟨fun h => ⟨h, Strand.isNamedIn_of_operationalItems h⟩, And.left⟩

end Segment

/-- **Account of the shortfall.** With distinct names of strands, it is what the operational items
leave of the minimums of the strands with a cut that some item names, saturated. So it never exceeds
the lack of the pool, and equals it exactly when no strand with a minimum is passed over for want of
items, up to the greatest count. Without the field-test items it is the same exactly when no strand
with a minimum is taken in because of them alone, again up to the greatest count. -/
theorem shortfall_accounts (hnames : (segment.strands.map (·.name)).Nodup) (pool : List Item) :
    let shortfall := (strandCoverage segment pool).shortfall
    let operational := operationalItems pool
    let takenIn (items : List Item) := ((segment.namedStrands items).map (·.lack pool)).sum
    shortfall.toNat = min (takenIn pool) maxCount ∧
      shortfall.toNat ≤ min (segment.lack pool) maxCount ∧
      (shortfall.toNat = min (segment.lack pool) maxCount ↔
        (∀ strand ∈ segment.cutStrands, strand.isNamedIn pool = false → strand.minItems = 0) ∨
          maxCount ≤ takenIn pool) ∧
      ((strandCoverage segment operational).shortfall = shortfall ↔
        (∀ strand ∈ segment.namedStrands pool,
          strand.isNamedIn operational = false → strand.minItems = 0) ∨
          maxCount ≤ takenIn operational) := by
  intro shortfall operational takenIn
  have hshortfall : shortfall.toNat = min (takenIn pool) maxCount := toNat_shortfall hnames pool
  refine ⟨hshortfall, ?_, ?_, ?_⟩
  · have hsplit : takenIn pool + _ = segment.lack pool :=
      sum_filter_add (·.isNamedIn pool) (·.lack pool) segment.cutStrands
    omega
  · rw [hshortfall]
    refine min_sum_lack_eq_iff fun strand hnot => Bool.eq_false_iff.mpr fun hnamed => ?_
    rw [Strand.isNamedIn_of_operationalItems hnamed] at hnot
    cases hnot
  · have hoperational : (strandCoverage segment operational).shortfall.toNat =
        min (takenIn operational) maxCount := by
      rw [toNat_shortfall hnames, funext (Strand.lack_operationalItems · pool)]
    rw [← UInt32.toNat_inj, hoperational, hshortfall]
    simp only [takenIn, operational, Segment.namedStrands_operationalItems]
    exact min_sum_lack_eq_iff fun strand hnot => hnot

/-- A segment of four items for reading, which should have three for algebra as well. -/
def patchySegment : Segment :=
  Fixture.buildSegment "SEG" .adaptive
    [.maxItems 5, .strand "Reading" 1 (some 0.5), .strand "Algebra" 3 (some 0.5),
      .items (["i1", "i2", "i3", "i4"].map Fixture.item)]

/-- Its items, and one for algebra in field test. -/
def patchyItems : List Item :=
  patchySegment.items ++ [Fixture.buildItem "i5" [.strand "Algebra", .fieldTest]]

/-- **A minimum passed over**: three items for algebra are missing and nothing says so, which makes
the segment four items long in place of two. An item in field test brings the shortfall out. -/
theorem shortfall_patchySegment :
    let shortfall (items : List Item) := (strandCoverage patchySegment items).shortfall
    (patchySegment.strands.map (·.name)).Nodup ∧ patchyItems.length < countBound ∧
      patchySegment.lack patchySegment.items = 3 ∧ shortfall patchySegment.items = 0 ∧
      operationalItems patchyItems = patchySegment.items ∧
      patchySegment.lack patchyItems = 3 ∧ shortfall patchyItems = 3 ∧
      (segmentPool [] [] patchySegment "Language" "ENU").length = 4 ∧
      achievableLength patchySegment.maxItems ⟨4, 3⟩ = 2 := by
  decide

/-- With the item in field test every strand is named, so that the shortfall is the lack of the
pool; without it, algebra is passed over. -/
theorem shortfall_accounts_patchyItems :
    let shortfall (items : List Item) := (strandCoverage patchySegment items).shortfall
    (patchySegment.strands.map (·.name)).Nodup ∧
      (shortfall patchyItems).toNat = min (patchySegment.lack patchyItems) maxCount ∧
      shortfall (operationalItems patchyItems) ≠ shortfall patchyItems := by
  have hnames : (patchySegment.strands.map (·.name)).Nodup := by decide
  obtain ⟨-, -, hlack, hoperational⟩ := shortfall_accounts hnames patchyItems
  refine ⟨hnames, hlack.mpr (.inl ?_), fun h => ?_⟩
  · decide
  · exact absurd (hoperational.mp h) (by decide)

end TestAssembly
