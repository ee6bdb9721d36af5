import Mathlib.Data.List.Basic
import TestAssembly.Fixture
import TestAssembly.Pool.Eligibility

/-!
# What eligibility depends on

An item is eligible by a rule about itself, the accommodations and the constraints
(`IsEligible`): the other items do not come into it. The rule asks of accommodations and constraints
which there are, not in what order or how often, and compares tools and property names up to ASCII
case. So inputs that have the same members up to case admit the same items
(`eligibleItems_congr`).

More rules pull in opposite directions. An exclusive constraint can only shut items out
(`IsEligible.of_exclusive`). An inclusive one can only let items in, once another inclusive one is
in force (`IsEligible.of_inclusive`); the first of them shuts out every item that does not carry its
property. An accommodation that no constraint is tied to changes nothing
(`eligibleItems_of_not_appliesTo`).
-/

namespace TestAssembly

open Text

/-! ### Comparing rules -/

/-- **The same accommodation**: the same tool up to case, and the same code. -/
def Accommodation.SameAs (a b : Accommodation) : Prop :=
  sameUpToCase a.tool b.tool = true ∧ a.code = b.code

instance (a b : Accommodation) : Decidable (a.SameAs b) := inferInstanceAs (Decidable (_ ∧ _))

/-- **The same constraint**: the same tool and property up to case, and all else the same. -/
structure Constraint.SameAs (c d : Constraint) : Prop where
  tool : sameUpToCase c.tool d.tool = true
  code : c.code = d.code
  property : sameUpToCase c.property d.property = true
  value : c.value = d.value
  inclusive : c.inclusive = d.inclusive

instance (c d : Constraint) : Decidable (c.SameAs d) :=
  decidable_of_iff
    (sameUpToCase c.tool d.tool = true ∧ c.code = d.code ∧
      sameUpToCase c.property d.property = true ∧ c.value = d.value ∧ c.inclusive = d.inclusive)
    ⟨fun ⟨tool, code, property, value, inclusive⟩ => ⟨tool, code, property, value, inclusive⟩,
      fun h => ⟨h.tool, h.code, h.property, h.value, h.inclusive⟩⟩

/-- **The same members**: lists that are equal up to order and repetition, where elements compare by
a relation. -/
structure SameMembers {α : Type} (same : α → α → Prop) (elements others : List α) : Prop where
  left : ∀ a ∈ elements, ∃ b ∈ others, same a b
  right : ∀ b ∈ others, ∃ a ∈ elements, same a b

namespace SameMembers

variable {α : Type} {same : α → α → Prop} {elements others : List α}

instance [DecidableRel same] : Decidable (SameMembers same elements others) :=
  decidable_of_iff
    ((∀ a ∈ elements, ∃ b ∈ others, same a b) ∧ ∀ b ∈ others, ∃ a ∈ elements, same a b)
    ⟨fun ⟨left, right⟩ => ⟨left, right⟩, fun h => ⟨h.left, h.right⟩⟩

/-- Either list has the members of the other. -/
theorem symm (hsymm : ∀ a b, same a b → same b a) (h : SameMembers same elements others) :
    SameMembers same others elements where
  left b hb := by
    obtain ⟨a, ha, hab⟩ := h.right b hb
    exact ⟨a, ha, hsymm a b hab⟩
  right a ha := by
    obtain ⟨b, hb, hab⟩ := h.left a ha
    exact ⟨b, hb, hsymm a b hab⟩

end SameMembers

theorem Accommodation.SameAs.symm {a b : Accommodation} (h : a.SameAs b) : b.SameAs a :=
  ⟨sameUpToCase_comm a.tool b.tool ▸ h.1, h.2.symm⟩

/-- Texts that agree up to case agree with the same texts. -/
theorem sameUpToCase_congr {s t u v : String} (h : sameUpToCase s t = true)
    (h' : sameUpToCase u v = true) : sameUpToCase s u = sameUpToCase t v := by
  rw [Bool.eq_iff_iff, sameUpToCase_iff, sameUpToCase_iff, sameUpToCase_iff.1 h,
    sameUpToCase_iff.1 h']

namespace Constraint

variable {c d : Constraint}

theorem SameAs.symm (h : c.SameAs d) : d.SameAs c where
  tool := sameUpToCase_comm c.tool d.tool ▸ h.tool
  code := h.code.symm
  property := sameUpToCase_comm c.property d.property ▸ h.property
  value := h.value.symm
  inclusive := h.inclusive.symm

/-- The same constraint is tied to the same accommodation. -/
theorem SameAs.appliesTo_eq (h : c.SameAs d) {a b : Accommodation} (hsame : a.SameAs b) :
    c.appliesTo a = d.appliesTo b := by
  rw [appliesTo, appliesTo, sameUpToCase_congr h.tool hsame.1, h.code, hsame.2]

/-- The same constraint is carried by the same items. -/
theorem SameAs.isCarriedBy_eq (h : c.SameAs d) (item : Item) :
    c.isCarriedBy item = d.isCarriedBy item := by
  have hname : ∀ name : String, sameUpToCase name c.property = sameUpToCase name d.property :=
    fun name => sameUpToCase_congr (sameUpToCase_refl name) h.property
  simp only [isCarriedBy, Item.hasProperty, hname, h.value]

/-- **In force**: whether a constraint is tied to one of the accommodations. -/
def IsInForce (c : Constraint) (accommodations : List Accommodation) : Prop :=
  ∃ a ∈ accommodations, c.appliesTo a = true

instance (c : Constraint) (accommodations : List Accommodation) :
    Decidable (c.IsInForce accommodations) :=
  inferInstanceAs (Decidable (∃ a ∈ accommodations, _))

/-- The same constraint is in force under the same accommodations. -/
theorem SameAs.isInForce_iff (h : c.SameAs d) {accommodations others : List Accommodation}
    (hsame : SameMembers Accommodation.SameAs accommodations others) :
    c.IsInForce accommodations ↔ d.IsInForce others := by
  constructor
  · rintro ⟨a, ha, happlies⟩
    obtain ⟨b, hb, hab⟩ := hsame.left a ha
    exact ⟨b, hb, h.appliesTo_eq hab ▸ happlies⟩
  · rintro ⟨b, hb, happlies⟩
    obtain ⟨a, ha, hab⟩ := hsame.right b hb
    exact ⟨a, ha, (h.appliesTo_eq hab).symm ▸ happlies⟩

end Constraint

/-! ### The rule -/

/-- **Eligible item**: one of the kind asked for, which carries the property of an inclusive
constraint in force, if there is one, and of no exclusive one. -/
structure IsEligible (accommodations : List Accommodation) (constraints : List Constraint)
    (fieldTest : Option Bool) (item : Item) : Prop where
  kind : ∀ wanted ∈ fieldTest, item.fieldTest = wanted
  included : (∃ c ∈ constraints, c.inclusive = true ∧ c.IsInForce accommodations) →
    ∃ c ∈ constraints, c.inclusive = true ∧ c.IsInForce accommodations ∧
      c.isCarriedBy item = true
  not_excluded : ∀ c ∈ constraints, c.inclusive = false → c.IsInForce accommodations →
    c.isCarriedBy item = false

section Rule

variable {accommodations others : List Accommodation} {constraints rules : List Constraint}
  {fieldTest : Option Bool} {item : Item}

/-- What is eligible is of the kind asked for and admitted. -/
theorem isEligible_iff : IsEligible accommodations constraints fieldTest item ↔
    (∀ wanted ∈ fieldTest, item.fieldTest = wanted) ∧
      admits accommodations constraints item = true := by
  rw [admits_iff]
  constructor
  · rintro ⟨hkind, hincluded, hexcluded⟩
    refine ⟨hkind, ?_, fun c hc hexclusive => ?_⟩
    · by_cases hrule : ∃ c ∈ constraints, c.inclusive = true ∧ c.IsInForce accommodations
      · obtain ⟨c, hc, hinclusive, hforce, hcarried⟩ := hincluded hrule
        exact .inr ⟨c, mem_inForce.2 ⟨hc, hforce⟩, hinclusive, hcarried⟩
      · refine .inl fun c hc => Bool.eq_false_iff.mpr fun hinclusive => hrule ?_
        obtain ⟨hmem, hforce⟩ := mem_inForce.1 hc
        exact ⟨c, hmem, hinclusive, hforce⟩
    · obtain ⟨hmem, hforce⟩ := mem_inForce.1 hc
      exact hexcluded c hmem hexclusive hforce
  · rintro ⟨hkind, hincluded, hexcluded⟩
    refine ⟨hkind, ?_, fun c hc hexclusive hforce =>
      hexcluded c (mem_inForce.2 ⟨hc, hforce⟩) hexclusive⟩
    rintro ⟨c, hc, hinclusive, hforce⟩
    rcases hincluded with hnone | ⟨d, hd, hother, hcarried⟩
    · have hexclusive := hnone c (mem_inForce.2 ⟨hc, hforce⟩)
      rw [hinclusive] at hexclusive
      cases hexclusive
    · obtain ⟨hmem, hinForce⟩ := mem_inForce.1 hd
      exact ⟨d, hmem, hother, hinForce, hcarried⟩

/-- **The same rules** make the same items eligible. -/
theorem IsEligible.of_sameMembers (h : IsEligible accommodations constraints fieldTest item)
    (haccommodations : SameMembers Accommodation.SameAs accommodations others)
    (hconstraints : SameMembers Constraint.SameAs constraints rules) :
    IsEligible others rules fieldTest item := by
  refine ⟨h.kind, ?_, fun d hd hexclusive hforce => ?_⟩
  · rintro ⟨d, hd, hinclusive, hforce⟩
    obtain ⟨c, hc, hsame⟩ := hconstraints.right d hd
    have hinForce := (hsame.isInForce_iff haccommodations).mpr hforce
    -- what includes the item on one side is matched by what includes it on the other
    obtain ⟨found, hfound, hincludes, hfoundForce, hcarried⟩ :=
      h.included ⟨c, hc, hsame.inclusive.trans hinclusive, hinForce⟩
    obtain ⟨other, hother, halike⟩ := hconstraints.left found hfound
    exact ⟨other, hother, halike.inclusive.symm.trans hincludes,
      (halike.isInForce_iff haccommodations).mp hfoundForce,
      (halike.isCarriedBy_eq item).symm.trans hcarried⟩
  · obtain ⟨c, hc, hsame⟩ := hconstraints.right d hd
    rw [← hsame.isCarriedBy_eq item]
    exact h.not_excluded c hc (hsame.inclusive.trans hexclusive)
      ((hsame.isInForce_iff haccommodations).mpr hforce)

section Added

variable {before after : List Constraint} {c d : Constraint}

/-- What is among the constraints with one more is that one or was there. -/
theorem mem_added : d ∈ before ++ c :: after ↔ d = c ∨ d ∈ before ++ after :=
  List.perm_middle.mem_iff.trans List.mem_cons

/-- Without an exclusive constraint no fewer items are eligible. -/
theorem IsEligible.of_exclusive (hexclusive : c.inclusive = false)
    (h : IsEligible accommodations (before ++ c :: after) fieldTest item) :
    IsEligible accommodations (before ++ after) fieldTest item := by
  refine ⟨h.kind, ?_, fun d hd => h.not_excluded d (mem_added.2 (.inr hd))⟩
  rintro ⟨d, hd, hinclusive, hforce⟩
  obtain ⟨found, hfound, hincludes, hcarried⟩ :=
    h.included ⟨d, mem_added.2 (.inr hd), hinclusive, hforce⟩
  rcases mem_added.1 hfound with rfl | hfound
  · rw [hexclusive] at hincludes
    cases hincludes
  · exact ⟨found, hfound, hincludes, hcarried⟩

/-- With an inclusive constraint beside one in force no fewer items are eligible. -/
theorem IsEligible.of_inclusive (hinclusive : c.inclusive = true)
    (hforce : ∃ d ∈ before ++ after, d.inclusive = true ∧ d.IsInForce accommodations)
    (h : IsEligible accommodations (before ++ after) fieldTest item) :
    IsEligible accommodations (before ++ c :: after) fieldTest item := by
  refine ⟨h.kind, fun _ => ?_, fun d hd hexclusive => ?_⟩
  · obtain ⟨found, hfound, hincludes⟩ := h.included hforce
    exact ⟨found, mem_added.2 (.inr hfound), hincludes⟩
  · rcases mem_added.1 hd with rfl | hd
    · rw [hinclusive] at hexclusive
      cases hexclusive
    · exact h.not_excluded d hd hexclusive

end Added

end Rule

/-! ### The items -/

section Items

variable {accommodations others : List Accommodation} {constraints rules : List Constraint}
  {fieldTest : Option Bool}

/-- **Item by item**: the eligible items are those of the list that the rule keeps. -/
theorem exists_eligibleItems_eq_filter (accommodations : List Accommodation)
    (constraints : List Constraint) (fieldTest : Option Bool) :
    ∃ keep : Item → Bool,
      (∀ item, keep item = true ↔ IsEligible accommodations constraints fieldTest item) ∧
      ∀ items, eligibleItems accommodations constraints fieldTest items = items.filter keep := by
  refine ⟨fun item => fieldTest.all (item.fieldTest == ·) && admits accommodations constraints item,
    fun item => ?_, fun _ => rfl⟩
  rw [isEligible_iff]
  cases fieldTest <;> simp

/-- What makes fewer items eligible leaves more out. -/
theorem eligibleItems_sublist (items : List Item)
    (h : ∀ item, IsEligible accommodations constraints fieldTest item →
      IsEligible others rules fieldTest item) :
    (eligibleItems accommodations constraints fieldTest items).Sublist
      (eligibleItems others rules fieldTest items) := by
  obtain ⟨keep, hkeep, hitems⟩ :=
    exists_eligibleItems_eq_filter accommodations constraints fieldTest
  obtain ⟨keepOther, hkeepOther, hothers⟩ := exists_eligibleItems_eq_filter others rules fieldTest
  rw [hitems, hothers]
  exact List.monotone_filter_right items fun item hkept =>
    (hkeepOther item).mpr (h item ((hkeep item).mp hkept))

/-- **The same rules** leave the same items. -/
theorem eligibleItems_congr (fieldTest : Option Bool) (items : List Item)
    (haccommodations : SameMembers Accommodation.SameAs accommodations others)
    (hconstraints : SameMembers Constraint.SameAs constraints rules) :
    eligibleItems others rules fieldTest items =
      eligibleItems accommodations constraints fieldTest items := by
  have hothers := haccommodations.symm fun _ _ => Accommodation.SameAs.symm
  have hrules := hconstraints.symm fun _ _ => Constraint.SameAs.symm
  exact List.Sublist.antisymm
    (eligibleItems_sublist items fun _ h => h.of_sameMembers hothers hrules)
    (eligibleItems_sublist items fun _ h => h.of_sameMembers haccommodations hconstraints)

/-- **An accommodation without constraints** changes nothing. -/
theorem eligibleItems_of_not_appliesTo (fieldTest : Option Bool) (items : List Item)
    {before after : List Accommodation} {a : Accommodation}
    (h : ∀ c ∈ constraints, c.appliesTo a = false) :
    eligibleItems (before ++ a :: after) constraints fieldTest items =
      eligibleItems (before ++ after) constraints fieldTest items := by
  have hinForce : inForce (before ++ a :: after) constraints =
      inForce (before ++ after) constraints := by
    refine List.filter_congr fun c hc => ?_
    rw [List.any_append, List.any_cons, h c hc, Bool.false_or, ← List.any_append]
  simp only [eligibleItems, admits, hinForce]

/-- Items of one kind are those of all that are eligible. -/
theorem eligibleItems_some (accommodations : List Accommodation) (constraints : List Constraint)
    (wanted : Bool) (items : List Item) :
    eligibleItems accommodations constraints (some wanted) items =
      (eligibleItems accommodations constraints none items).filter (·.fieldTest == wanted) := by
  rw [eligibleItems, eligibleItems, List.filter_filter]
  simp only [Option.all_some, Option.all_none, Bool.true_and]

/-- **With and without field test**: the items of either kind make up the items of both. -/
theorem eligibleItems_perm_append (accommodations : List Accommodation)
    (constraints : List Constraint) (items : List Item) :
    (eligibleItems accommodations constraints (some true) items ++
      eligibleItems accommodations constraints (some false) items).Perm
        (eligibleItems accommodations constraints none items) := by
  have hfalse : (fun item : Item => item.fieldTest == false) =
      fun item => !(item.fieldTest == true) := by
    funext item
    cases item.fieldTest <;> rfl
  rw [eligibleItems_some, eligibleItems_some, hfalse]
  exact List.filter_append_perm _ _

/-- **Eligibility goes by the rules.** Accommodations and constraints that are the same up to order,
repetition and case leave the same items. Which items stay is said item by item by the rule, and
they stay in their order. An accommodation that no constraint is tied to changes nothing; one
exclusive constraint more adds no item, and one inclusive constraint more removes none if another
one is in force. Without a kind asked for, the items are those of the one kind and of the other. -/
theorem eligibleItems_by_rules (accommodations : List Accommodation)
    (constraints : List Constraint) (fieldTest : Option Bool) (items : List Item) :
    (∀ others rules, SameMembers Accommodation.SameAs accommodations others →
      SameMembers Constraint.SameAs constraints rules →
        eligibleItems others rules fieldTest items =
          eligibleItems accommodations constraints fieldTest items) ∧
    (∃ keep : Item → Bool,
      (∀ item, keep item = true ↔ IsEligible accommodations constraints fieldTest item) ∧
      ∀ list, eligibleItems accommodations constraints fieldTest list = list.filter keep) ∧
    (∀ before a after, accommodations = before ++ a :: after →
      (∀ c ∈ constraints, c.appliesTo a = false) →
        eligibleItems accommodations constraints fieldTest items =
          eligibleItems (before ++ after) constraints fieldTest items) ∧
    (∀ before c after, constraints = before ++ c :: after → c.inclusive = false →
      (eligibleItems accommodations constraints fieldTest items).Sublist
        (eligibleItems accommodations (before ++ after) fieldTest items)) ∧
    (∀ before c after, constraints = before ++ c :: after → c.inclusive = true →
      (∃ d ∈ before ++ after, d.inclusive = true ∧ d.IsInForce accommodations) →
        (eligibleItems accommodations (before ++ after) fieldTest items).Sublist
          (eligibleItems accommodations constraints fieldTest items)) ∧
    (eligibleItems accommodations constraints (some true) items ++
      eligibleItems accommodations constraints (some false) items).Perm
        (eligibleItems accommodations constraints none items) := by
  refine ⟨fun others rules => eligibleItems_congr fieldTest items,
    exists_eligibleItems_eq_filter accommodations constraints fieldTest, ?_, ?_, ?_,
    eligibleItems_perm_append accommodations constraints items⟩
  · rintro before a after rfl hnone
    exact eligibleItems_of_not_appliesTo fieldTest items hnone
  · rintro before c after rfl hexclusive
    exact eligibleItems_sublist items fun _ h => h.of_exclusive hexclusive
  · rintro before c after rfl hinclusive hforce
    exact eligibleItems_sublist items fun _ h => h.of_inclusive hinclusive hforce

end Items

/-! ### One exam in two languages -/

/-- Speech output is wanted, and items are asked for in English or in Spanish. -/
def bilingualAccommodations : List Accommodation :=
  [⟨"Language", "ENU"⟩, ⟨"tts", "TDS_TTS0"⟩, ⟨"Language", "ESN"⟩, ⟨"Calculator", "TDS_Calc0"⟩]

/-- The languages as inclusive constraints, and an exclusive one for items with their own sound. -/
def bilingualConstraints : List Constraint :=
  [Fixture.languageConstraint "ENU",
    { tool := "TTS", code := "TDS_TTS0", property := "audio", value := "Required"
      inclusive := false },
    Fixture.languageConstraint "ESN"]

/-- Items in English, one of them with sound, in Spanish and in French. -/
def bilingualItems : List Item :=
  [Fixture.buildItem "plain" [],
    Fixture.buildItem "sound" [.property "Audio" "Required"],
    Fixture.buildItem "spanish" [.language "ESN", .fieldTest],
    Fixture.buildItem "french" [.language "FRA"]]

/-- The same rules in another order and other letters leave the same two items. The calculator, to
which nothing is tied, changes nothing; the constraint on sound shuts an item out, and the second
language lets one in. -/
theorem eligibleItems_by_rules_bilingual :
    let others : List Accommodation :=
      [⟨"CALCULATOR", "TDS_Calc0"⟩, ⟨"TTS", "TDS_TTS0"⟩, ⟨"language", "ESN"⟩,
        ⟨"LANGUAGE", "ENU"⟩, ⟨"Tts", "TDS_TTS0"⟩]
    let rules := bilingualConstraints.reverse ++ bilingualConstraints
    let eligible (accommodations : List Accommodation) (constraints : List Constraint) :=
      eligibleItems accommodations constraints none bilingualItems
    let expected := eligible bilingualAccommodations bilingualConstraints
    expected.map (·.id) = ["plain", "spanish"] ∧
      SameMembers Accommodation.SameAs bilingualAccommodations others ∧
      SameMembers Constraint.SameAs bilingualConstraints rules ∧
      eligible others rules = expected ∧
      (∀ c ∈ bilingualConstraints, c.appliesTo ⟨"Calculator", "TDS_Calc0"⟩ = false) ∧
      eligible (bilingualAccommodations.take 3) bilingualConstraints = expected ∧
      expected.Sublist (eligible bilingualAccommodations
        [Fixture.languageConstraint "ENU", Fixture.languageConstraint "ESN"]) ∧
      (eligible bilingualAccommodations (bilingualConstraints.take 2)).Sublist expected := by
  intro others rules eligible expected
  have hothers : SameMembers Accommodation.SameAs bilingualAccommodations others := by
    decide
  have hrules : SameMembers Constraint.SameAs bilingualConstraints rules := by decide
  have huntied : ∀ c ∈ bilingualConstraints,
      c.appliesTo ⟨"Calculator", "TDS_Calc0"⟩ = false := by decide
  have hforce : ∃ d ∈ bilingualConstraints.take 2 ++ [],
      d.inclusive = true ∧ d.IsInForce bilingualAccommodations := by decide
  obtain ⟨hsame, -, haccommodation, hexclusive, hinclusive, -⟩ :=
    eligibleItems_by_rules bilingualAccommodations bilingualConstraints none bilingualItems
  refine ⟨by decide, hothers, hrules, hsame others rules hothers hrules, huntied,
    ?_, ?_, ?_⟩
  · exact (haccommodation (bilingualAccommodations.take 3) _ [] rfl huntied).symm
  · exact hexclusive [Fixture.languageConstraint "ENU"] _ _ rfl rfl
  · exact hinclusive (bilingualConstraints.take 2) _ [] rfl rfl hforce

end TestAssembly
