import TestAssembly.Content.Record

/-!
# Fixtures

Small content for trying out the assembly: items and segments built up from defaults, placeholder
forms, one standard assessment and one standard exam. Items are in the language `ENU` unless they
say otherwise, under the property of the default configuration.
-/

namespace TestAssembly.Fixture

/-- The language of fixtures. -/
def language : String := "ENU"

/-- The property that names it. -/
def languageProperty : String := "Language"

/-! ### Items -/

/-- **Operational item** that is a group of its own. -/
def item (id : String) : Item :=
  { id
    groupId := "g-" ++ id
    groupKey := "G-g-" ++ id
    blockId := "A"
    strand := "Reading"
    properties := [⟨languageProperty, language⟩] }

/-- One step in building an item. -/
inductive ItemStep where
  | language (language : String)
  | property (name value : String)
  | group (groupId : String)
  | block (blockId : String)
  | strand (strand : String)
  | fieldTest

/-- An item after one more step. A language replaces the former one; a group also names the key. -/
def ItemStep.apply (item : Item) : ItemStep → Item
  | .language l =>
    { item with
      properties :=
        item.properties.filter (fun p => !Text.sameUpToCase p.name languageProperty)
          ++ [⟨languageProperty, l⟩] }
  | .property name value => { item with properties := item.properties ++ [⟨name, value⟩] }
  | .group groupId => { item with groupId, groupKey := "G-" ++ groupId }
  | .block blockId => { item with blockId }
  | .strand name => { item with strand := name }
  | .fieldTest => { item with fieldTest := true }

/-- An item built in steps. -/
def buildItem (id : String) (steps : List ItemStep) : Item := steps.foldl ItemStep.apply (item id)

/-! ### Segments -/

/-- **Segment without content** of at most ten items. -/
def segment (key : String) (algorithm : Algorithm) : Segment :=
  { key, algorithm, id := key, position := 1, maxItems := 10 }

/-- One step in building a segment. -/
inductive SegmentStep where
  | position (position : UInt32)
  | minItems (count : UInt32)
  | maxItems (count : UInt32)
  | fieldTestRange (start stop : UInt32)
  | fieldTestItems (least greatest : UInt32)
  | fieldTestWindow (window : Window)
  | strand (name : String) (minItems : UInt32) (adaptiveCut : Option Float)
  | items (items : List Item)
  | form (form : Form)

/-- A segment after one more step. A strand may have as many items as the segment had then, at
least as many as it needs. -/
def SegmentStep.apply (segment : Segment) : SegmentStep → Segment
  | .position n => { segment with position := n }
  | .minItems n => { segment with minItems := n }
  | .maxItems n => { segment with maxItems := n }
  | .fieldTestRange start stop => { segment with fieldTestStart := start, fieldTestEnd := stop }
  | .fieldTestItems least greatest =>
    { segment with fieldTestMinItems := least, fieldTestMaxItems := greatest }
  | .fieldTestWindow window => { segment with fieldTestWindow := window }
  | .strand name least cut =>
    let added : Strand := ⟨name, least, max least segment.maxItems, cut⟩
    { segment with strands := segment.strands ++ [added] }
  | .items added => { segment with items := segment.items ++ added }
  | .form added => { segment with forms := segment.forms ++ [added] }

/-- A segment built in steps. -/
def buildSegment (key : String) (algorithm : Algorithm) (steps : List SegmentStep) : Segment :=
  steps.foldl SegmentStep.apply (segment key algorithm)

/-! ### Forms, exams, assessments -/

/-- A form of placeholder items. -/
def form (key language cohort : String) (count : Nat) : Form :=
  { key, language, cohort, id := key
    itemIds := (List.range count).map fun n => key ++ "-item" ++ toString n }

/-- An attempt at the standard assessment in production. -/
def exam (id : String) : Exam :=
  { id
    sessionId := "session-1"
    clientName := "SBAC"
    assessmentKey := "ASMT-1"
    languageCode := language
    environment := "PRODUCTION" }

/-- The standard assessment with the given segments. -/
def assessment (segments : List Segment) : Assessment :=
  { key := "ASMT-1", id := "ASMT-1", segmented := true, segments }

/-- The constraint that an accommodation for a language asks for items in it. -/
def languageConstraint (language : String) : Constraint :=
  { tool := languageProperty
    code := language
    property := languageProperty
    value := language
    inclusive := true }

end TestAssembly.Fixture
