import TestAssembly.Content.Record

/-!
# Placement of field-test groups

The field-test range of a segment is divided into as many intervals as the segment takes field-test
items. Groups are placed in the order in which they come: each uses as many intervals as it has
items in the segment, and stands at a random offset within the intervals before its last one. A
group without items in the segment, or one that would exceed the budget, is passed over. When the
range is too short for intervals, groups stand back to back, one position an item.
-/

namespace TestAssembly

/-- **Source of randomness**: the value of each draw, counted from zero, below a bound. -/
structure RandomSource where
  draw : Nat → UInt32 → UInt32

instance : Inhabited RandomSource := ⟨⟨fun _ _ => 0⟩⟩

namespace RandomSource

/-- The draws of a script, in order and over again, each reduced to its bound. An empty script
draws zeros. -/
def script (draws : List UInt32) : RandomSource where
  draw n bound := (draws[n % draws.length]?).getD 0 % max bound 1

end RandomSource

namespace Segment

/-- **Interval size**: the width of one field-test interval, zero when there are none. -/
def intervalSize (segment : Segment) : UInt32 :=
  subSat segment.fieldTestEnd segment.fieldTestStart / segment.fieldTestMaxItems

/-- The number of items of the segment with a group key. -/
def groupSize (segment : Segment) (groupKey : String) : UInt32 :=
  countOf (segment.items.countP (·.groupKey == groupKey))

end Segment

/-- **Placement**: the groups placed, the field-test items there are then, and the draws taken
from the source so far. -/
structure Placement where
  groups : List FieldTestGroup
  itemCount : UInt32
  drawsTaken : Nat
  deriving DecidableEq, Repr, Inhabited

/-- What stays the same while groups are placed in a segment. -/
structure PlacementRule where
  segment : Segment
  language : String
  random : RandomSource
  drawBound : UInt32

namespace PlacementRule

/-- The width within which a group of a size is offset: nothing to choose when it is zero. -/
def span (rule : PlacementRule) (size : UInt32) : UInt32 :=
  if size = 1 then 1 else mulSat rule.segment.intervalSize (size - 1)

/-- The positions that a group of a size uses up. -/
def advance (rule : PlacementRule) (size : UInt32) : UInt32 :=
  if rule.segment.intervalSize = 0 then size else mulSat size rule.segment.intervalSize

/-- Whether a group of a size fits the budget beside the items there are. -/
def fits (rule : PlacementRule) (total size : UInt32) : Bool :=
  size != 0 && total < rule.segment.fieldTestMaxItems
    && addSat total size ≤ rule.segment.fieldTestMaxItems

/-- Place groups from a position on, with so many items placed and draws taken before. -/
def placeFrom (rule : PlacementRule) :
    (position total : UInt32) → (draws : Nat) → List FieldTestGroup → Placement
  | _, total, draws, [] => ⟨[], total, draws⟩
  | position, total, draws, group :: rest =>
    let size := rule.segment.groupSize group.groupKey
    if rule.fits total size then
      let span := rule.span size
      let offset := if span = 0 then 0 else rule.random.draw draws rule.drawBound % span
      let after := rule.placeFrom (addSat position (rule.advance size)) (total + size)
        (if span = 0 then draws else draws + 1) rest
      let placed :=
        { group with
          itemCount := size
          languageCode := some rule.language
          position := some (addSat position offset) }
      { after with groups := placed :: after.groups }
    else rule.placeFrom position total draws rest

/-- **Placement of candidate groups** in the field-test range, beside the items that earlier passes
assigned. -/
def place (rule : PlacementRule) (previouslyAssigned : UInt32) (draws : Nat)
    (candidates : List FieldTestGroup) : Placement :=
  rule.placeFrom rule.segment.fieldTestStart previouslyAssigned draws candidates

end PlacementRule

end TestAssembly
