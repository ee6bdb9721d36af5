import TestAssembly.Content.Item

/-!
# Eligible items

Only the constraints tied to one of the examinee's accommodations are in force. An item is admitted
when it carries the property of at least one inclusive constraint in force, if there are any, and
of no exclusive one (`admits_iff`). Eligibility is decided item by item and keeps the order.
-/

namespace TestAssembly

/-- **Constraints in force** under the given accommodations. -/
def inForce (accommodations : List Accommodation) (constraints : List Constraint) :
    List Constraint :=
  constraints.filter fun c => accommodations.any c.appliesTo

/-- Whether an item is admitted under the given accommodations and constraints. -/
def admits (accommodations : List Accommodation) (constraints : List Constraint) (item : Item) :
    Bool :=
  let rules := inForce accommodations constraints
  let inclusive := rules.filter (·.inclusive)
  let exclusive := rules.filter (!·.inclusive)
  (inclusive.isEmpty || inclusive.any (·.isCarriedBy item))
    && !exclusive.any (·.isCarriedBy item)

/-- **Eligible items**: those that are admitted and, if asked for, are field-test items or are
none. -/
def eligibleItems (accommodations : List Accommodation) (constraints : List Constraint)
    (fieldTest : Option Bool) (items : List Item) : List Item :=
  items.filter fun item =>
    fieldTest.all (item.fieldTest == ·) && admits accommodations constraints item

theorem mem_inForce {accommodations : List Accommodation} {constraints : List Constraint}
    {c : Constraint} :
    c ∈ inForce accommodations constraints ↔
      c ∈ constraints ∧ ∃ a ∈ accommodations, c.appliesTo a = true := by
  simp [inForce]

/-- The rule of admission, constraint by constraint. -/
theorem admits_iff {accommodations : List Accommodation} {constraints : List Constraint}
    {item : Item} :
    admits accommodations constraints item = true ↔
      ((∀ c ∈ inForce accommodations constraints, c.inclusive = false) ∨
        ∃ c ∈ inForce accommodations constraints,
          c.inclusive = true ∧ c.isCarriedBy item = true) ∧
      ∀ c ∈ inForce accommodations constraints,
        c.inclusive = false → c.isCarriedBy item = false := by
  simp [admits, List.filter_eq_nil_iff]

theorem mem_eligibleItems {accommodations : List Accommodation} {constraints : List Constraint}
    {fieldTest : Option Bool} {items : List Item} {item : Item} :
    item ∈ eligibleItems accommodations constraints fieldTest items ↔
      item ∈ items ∧ (∀ wanted ∈ fieldTest, item.fieldTest = wanted) ∧
        admits accommodations constraints item = true := by
  cases fieldTest <;> simp [eligibleItems]

end TestAssembly
