import TestAssembly.Text.AsciiCase

/-!
# Items and item rules

An item is one question. Items that are delivered together share a group. Accommodations are tools
approved for one examinee; a constraint ties an accommodation to an item property, which the item
must carry (inclusive) or must not carry (exclusive) once the constraint applies.

Names of properties and tools compare up to ASCII case, their values and codes exactly.
-/

namespace TestAssembly

open Text

/-- A named value attached to an item, such as its language. -/
structure Property where
  name : String
  value : String
  deriving DecidableEq, Repr, Inhabited

/-- **Item**: one question of the content catalog. -/
structure Item where
  id : String
  groupId : String
  groupKey : String
  blockId : String
  strand : String
  fieldTest : Bool := false
  properties : List Property := []
  deriving DecidableEq, Repr, Inhabited

/-- **Accommodation** approved for an examinee: a kind of tool and its code. -/
structure Accommodation where
  tool : String
  code : String
  deriving DecidableEq, Repr, Inhabited

/-- **Constraint**: what items an accommodation asks for or rules out. -/
structure Constraint where
  tool : String
  code : String
  property : String
  value : String
  inclusive : Bool
  deriving DecidableEq, Repr, Inhabited

namespace Item

/-- Whether the item carries a property with the given value. -/
def hasProperty (item : Item) (name value : String) : Bool :=
  item.properties.any fun p => sameUpToCase p.name name && p.value == value

theorem hasProperty_iff {item : Item} {name value : String} :
    item.hasProperty name value = true ↔
      ∃ p ∈ item.properties, sameUpToCase p.name name = true ∧ p.value = value := by
  simp [hasProperty]

end Item

namespace Constraint

/-- Whether the constraint takes effect for an accommodation. -/
def appliesTo (c : Constraint) (a : Accommodation) : Bool :=
  sameUpToCase c.tool a.tool && c.code == a.code

/-- Whether an item carries the property that the constraint names. -/
def isCarriedBy (c : Constraint) (item : Item) : Bool := item.hasProperty c.property c.value

theorem appliesTo_iff {c : Constraint} {a : Accommodation} :
    c.appliesTo a = true ↔ sameUpToCase c.tool a.tool = true ∧ c.code = a.code := by
  simp [appliesTo]

end Constraint

end TestAssembly
