import TestAssembly.Content.Record
import TestAssembly.FieldTest.Ledger
import TestAssembly.Pool.Eligibility

/-!
# Selection of field-test groups

The candidate items of an exam in a segment are its eligible field-test items in the language of
the exam, less those of groups that earlier passes assigned. They are offered to the ledger by
group key, and each group that it hands out becomes a candidate group with the number of its
candidate items and the group and block of the first of them. Without candidate items the ledger is
not asked.
-/

namespace TestAssembly

/-- **Request** for field-test groups in a segment. -/
structure SelectionRequest where
  exam : Exam
  constraints : List Constraint
  segment : Segment
  accommodations : List Accommodation
  /-- Groups that earlier passes assigned to the exam. -/
  assignedGroupIds : List String
  languageProperty : String
  /-- The number of items wanted. -/
  wanted : UInt32

namespace SelectionRequest

/-- **Candidate items** of a request, in the order of the segment. -/
def candidateItems (r : SelectionRequest) : List Item :=
  (eligibleItems r.accommodations r.constraints (some true)
    (r.segment.itemsIn r.languageProperty r.exam.languageCode)).filter
      fun item => !r.assignedGroupIds.contains item.groupId

/-- The candidate items with a group key. -/
def itemsOfGroup (r : SelectionRequest) (groupKey : String) : List Item :=
  r.candidateItems.filter (·.groupKey == groupKey)

/-- What is offered to the ledger: the group keys with their item counts. -/
def offer (r : SelectionRequest) : NameMap UInt32 :=
  NameMap.ofList <|
    r.candidateItems.map fun item => (item.groupKey, countOf (r.itemsOfGroup item.groupKey).length)

/-- The candidate group of a group key, if it has candidate items. -/
def candidateGroup? (r : SelectionRequest) (groupKey : String) : Option FieldTestGroup :=
  let items := r.itemsOfGroup groupKey
  items.head?.map fun first =>
    { examId := r.exam.id
      sessionId := r.exam.sessionId
      segmentKey := r.segment.key
      segmentId := r.segment.id
      groupKey := first.groupKey
      groupId := first.groupId
      blockId := first.blockId
      itemCount := countOf items.length }

/-- **Selection**: the groups that the ledger hands out, in its order. -/
def select (r : SelectionRequest) (ledger : Ledger) : List FieldTestGroup × Ledger :=
  if r.candidateItems.isEmpty then ([], ledger)
  else
    let (groups, ledger) := ledger.claim r.segment.key r.offer r.wanted
    (groups.filterMap r.candidateGroup?, ledger)

/-- Without candidate items nothing is selected and the ledger stays as it was. -/
theorem select_of_candidateItems_eq_nil {r : SelectionRequest} (ledger : Ledger)
    (h : r.candidateItems = []) : r.select ledger = ([], ledger) := by
  simp [select, h]

end SelectionRequest

end TestAssembly
