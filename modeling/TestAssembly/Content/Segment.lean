import TestAssembly.Content.Item
import TestAssembly.Saturating
import TestAssembly.Window

/-!
# Segments and assessments

A segment is one sub-test of an assessment. Its items come either from one of its pre-built forms
or, adaptively, from the pool of its items; strands are content categories with coverage
requirements, and the field-test fields say where and how many unscored items may be seeded.

Look-ups by key or name give the first match. Segments are delivered by ascending position, those
of one position in the order of the assessment.
-/

namespace TestAssembly

/-- How the items of a segment are chosen. -/
inductive Algorithm where
  /-- Items come from a pre-built form. -/
  | fixedForm
  /-- Items are drawn from a pool while the attempt runs. -/
  | adaptive
  deriving DecidableEq, Repr, Inhabited

/-- **Strand**: a content category. Strands without an adaptive cut do not count when a pool is
sized. -/
structure Strand where
  name : String
  minItems : UInt32
  maxItems : UInt32
  adaptiveCut : Option Float := none
  deriving Inhabited

/-- **Form**: a pre-built list of items in one language, for one cohort. -/
structure Form where
  key : String
  id : String
  language : String
  cohort : String
  itemIds : List String := []
  deriving DecidableEq, Repr, Inhabited

/-- **Segment** of an assessment. Field-test positions range from the start position, included, to
the end position, excluded. -/
structure Segment where
  key : String
  id : String
  position : UInt32
  algorithm : Algorithm
  minItems : UInt32 := 0
  maxItems : UInt32
  fieldTestStart : UInt32 := 0
  fieldTestEnd : UInt32 := 0
  fieldTestMinItems : UInt32 := 0
  fieldTestMaxItems : UInt32 := 0
  fieldTestWindow : Window := .unbounded
  items : List Item := []
  strands : List Strand := []
  forms : List Form := []
  deriving Inhabited

/-- **Assessment** with its segments and item rules. In a segmented assessment each segment's own
field-test window counts as well. -/
structure Assessment where
  key : String
  id : String
  segmented : Bool := false
  fieldTestWindow : Window := .unbounded
  segments : List Segment := []
  constraints : List Constraint := []
  deriving Inhabited

/-- The number of items of a form. -/
def Form.itemCount (form : Form) : UInt32 := countOf form.itemIds.length

namespace Segment

/-- Whether the segment takes its items from a form. -/
def isFixedForm (segment : Segment) : Bool := segment.algorithm == .fixedForm

/-- The items in a language, named by the given property. -/
def itemsIn (segment : Segment) (languageProperty language : String) : List Item :=
  segment.items.filter (·.hasProperty languageProperty language)

/-- The forms in a language. -/
def formsIn (segment : Segment) (language : String) : List Form :=
  segment.forms.filter (·.language == language)

/-- The first strand of a name. -/
def strand? (segment : Segment) (name : String) : Option Strand :=
  segment.strands.find? (·.name == name)

/-- The first form in a language that belongs to a cohort. -/
def formOfCohort? (segment : Segment) (language cohort : String) : Option Form :=
  (segment.formsIn language).find? (·.cohort == cohort)

theorem mem_itemsIn {segment : Segment} {languageProperty language : String} {item : Item} :
    item ∈ segment.itemsIn languageProperty language ↔
      item ∈ segment.items ∧ item.hasProperty languageProperty language = true :=
  List.mem_filter

theorem mem_formsIn {segment : Segment} {language : String} {form : Form} :
    form ∈ segment.formsIn language ↔ form ∈ segment.forms ∧ form.language = language := by
  simp [formsIn]

end Segment

namespace Assessment

/-- The first segment of a key. -/
def segment? (assessment : Assessment) (key : String) : Option Segment :=
  assessment.segments.find? (·.key == key)

/-- **Segments in order of delivery.** -/
def inOrder (assessment : Assessment) : List Segment :=
  assessment.segments.mergeSort fun a b => a.position ≤ b.position

/-- Ordering by position loses and adds no segment. -/
theorem inOrder_perm (assessment : Assessment) :
    assessment.inOrder.Perm assessment.segments :=
  List.mergeSort_perm _ _

private theorem position_le_trans (a b c : Segment) (hab : decide (a.position ≤ b.position) = true)
    (hbc : decide (b.position ≤ c.position) = true) : decide (a.position ≤ c.position) = true := by
  simp only [decide_eq_true_eq] at *
  exact UInt32.le_trans hab hbc

private theorem position_le_total (a b : Segment) :
    (decide (a.position ≤ b.position) || decide (b.position ≤ a.position)) = true := by
  simpa using UInt32.le_total a.position b.position

/-- Positions ascend along the order of delivery. -/
theorem pairwise_inOrder (assessment : Assessment) :
    assessment.inOrder.Pairwise fun a b => a.position ≤ b.position :=
  (List.pairwise_mergeSort position_le_trans position_le_total assessment.segments).imp
    of_decide_eq_true

/-- Segments of one position keep the order of the assessment. -/
theorem filter_position_inOrder (assessment : Assessment) (position : UInt32) :
    assessment.inOrder.filter (·.position == position) =
      assessment.segments.filter (·.position == position) := by
  have hlevel : (assessment.segments.filter (·.position == position)).Pairwise
      fun a b => decide (a.position ≤ b.position) = true := by
    refine List.pairwise_filter.mpr (List.pairwise_of_forall fun a b ha hb => ?_)
    simp_all
  have hsorted : (assessment.segments.filter (·.position == position)).Sublist
      assessment.inOrder :=
    List.sublist_mergeSort position_le_trans position_le_total hlevel List.filter_sublist
  have hsub := hsorted.filter (·.position == position)
  rw [List.filter_filter] at hsub
  simp only [Bool.and_self] at hsub
  have hlength := (assessment.inOrder_perm.filter (·.position == position)).length_eq
  exact (hsub.eq_of_length hlength.symm).symm

/-- Segments that are in order already stay as they are. -/
theorem inOrder_of_pairwise {assessment : Assessment}
    (h : assessment.segments.Pairwise fun a b => a.position ≤ b.position) :
    assessment.inOrder = assessment.segments :=
  List.mergeSort_of_pairwise (h.imp decide_eq_true)

/-- **Order of delivery**: all segments by ascending position, those of one position as the
assessment has them. -/
structure IsDelivery (assessment : Assessment) (order : List Segment) : Prop where
  perm : order.Perm assessment.segments
  ascending : order.Pairwise fun a b => a.position ≤ b.position
  stable : ∀ position, order.filter (·.position == position) =
    assessment.segments.filter (·.position == position)

theorem isDelivery_inOrder (assessment : Assessment) : assessment.IsDelivery assessment.inOrder :=
  ⟨assessment.inOrder_perm, assessment.pairwise_inOrder, assessment.filter_position_inOrder⟩

end Assessment

end TestAssembly
