import TestAssembly.Proofs.Assembly.Draft

/-!
# What a manifest accounts for

A manifest lists records and groups apart. When segments differ in their keys the groups of a record
can be told by their segment key (`Manifest.groupsIn`), and they are those that were made with it
(`exists_made_groupsIn`). So what is known of a segment once it is made carries over to the manifest
alone: every record is accounted for by its segment, the history of the exam and its own groups
(`forall₂_isAccounted`), and nothing is listed beside the records (`manifest_accounts`).
-/

namespace TestAssembly

variable {env : Environment} {exam : Exam} {assessment : Assessment}
  {accommodations : List Accommodation} {made : List AssembledSegment}

/-! ### Groups by segment -/

/-- **The groups of a segment** in a manifest. -/
def Manifest.groupsIn (manifest : Manifest) (segmentKey : String) : List FieldTestGroup :=
  manifest.fieldTestGroups.filter (·.segmentKey == segmentKey)

/-- Elements differ from one whose key they do not have. -/
theorem key_ne_of_mem {α β : Type} {key : α → β} {a b : α} {elements : List α}
    (h : key a ∉ elements.map key) (hb : b ∈ elements) : key a ≠ key b :=
  fun heq => h (heq ▸ List.mem_map_of_mem hb)

/-- Of elements that differ in their keys one is picked by its key. -/
theorem flatMap_key_eq {α β : Type} {key : α → String} {f : α → List β} {elements : List α}
    (hkeys : (elements.map key).Nodup) {a : α} (ha : a ∈ elements) :
    elements.flatMap (fun b => if key b = key a then f b else []) = f a := by
  induction elements with
  | nil => simp at ha
  | cons b rest ih =>
    rw [List.map_cons, List.nodup_cons] at hkeys
    rw [List.flatMap_cons]
    rcases List.mem_cons.mp ha with rfl | ha
    · have hothers : rest.flatMap (fun c => if key c = key a then f c else []) = [] := by
        exact List.flatMap_eq_nil_iff.mpr fun c hc => if_neg (key_ne_of_mem hkeys.1 hc).symm
      rw [if_pos rfl, hothers, List.append_nil]
    · rw [if_neg (key_ne_of_mem hkeys.1 ha), List.nil_append, ih hkeys.2 ha]

/-- When segments differ in their keys and every group is filed under its segment, the groups of a
segment are those that were made with it. -/
theorem groupsIn_manifestOf (exam : Exam) (hkeys : (made.map (·.record.segmentKey)).Nodup)
    (hfiled : ∀ a ∈ made, ∀ group ∈ a.groups, group.segmentKey = a.record.segmentKey)
    {a : AssembledSegment} (ha : a ∈ made) :
    (manifestOf exam made).groupsIn a.record.segmentKey = a.groups := by
  have hsort : ∀ b ∈ made, b.groups.filter (·.segmentKey == a.record.segmentKey) =
      if b.record.segmentKey = a.record.segmentKey then b.groups else [] := by
    intro b hb
    split
    · rename_i heq
      exact List.filter_eq_self.mpr fun group hgroup => by simp [hfiled b hb group hgroup, heq]
    · rename_i hne
      exact List.filter_eq_nil_iff.mpr fun group hgroup => by simp [hfiled b hb group hgroup, hne]
  rw [Manifest.groupsIn, manifestOf, List.filter_flatMap, List.flatMap_congr hsort]
  exact flatMap_key_eq hkeys ha

/-- What is made of segments that differ in their keys is found again in the manifest, segment by
segment. -/
theorem forall₂_groupsIn
    (hmade : List.Forall₂ (IsMade env exam assessment accommodations) assessment.inOrder made)
    (hkeys : (assessment.segments.map (·.key)).Nodup) :
    List.Forall₂ (fun segment a => segment ∈ assessment.segments ∧
      IsMade env exam assessment accommodations segment a ∧
      (manifestOf exam made).groupsIn a.record.segmentKey = a.groups) assessment.inOrder made := by
  have hsame : List.Forall₂ (· = ·) (assessment.inOrder.map (·.key))
      (made.map (·.record.segmentKey)) := by
    rw [List.forall₂_map_left_iff, List.forall₂_map_right_iff]
    exact hmade.imp fun _ _ h => h.isRecordFor.segmentKey.symm
  have hdistinct : (made.map (·.record.segmentKey)).Nodup := by
    rw [List.forall₂_eq_eq_eq] at hsame
    rw [← hsame, (assessment.inOrder_perm.map _).nodup_iff]
    exact hkeys
  -- keys tell the groups apart, since each is filed under the segment it was made with
  have hfiled : ∀ a ∈ made, ∀ group ∈ a.groups, group.segmentKey = a.record.segmentKey := by
    intro a ha group hgroup
    obtain ⟨segment, -, h⟩ := exists_left_of_mem hmade ha
    rw [h.segmentKey_of_mem_groups hgroup, h.isRecordFor.segmentKey]
  refine (forall₂_mem hmade).imp ?_
  rintro segment a ⟨hsegment, ha, h⟩
  exact ⟨assessment.inOrder_perm.mem_iff.mp hsegment, h,
    groupsIn_manifestOf exam hdistinct hfiled ha⟩

/-! ### Record by record -/

/-- **What a record accounts for** in a manifest: it is the record of its segment and within its
limits; it counts no field-test item or all there are, those that the history of the exam has and
those of the groups placed; and these groups are groups of field-test items in its pool. -/
structure IsAccounted (env : Environment) (exam : Exam) (manifest : Manifest) (segment : Segment)
    (record : ExamSegment) : Prop extends IsRecordFor exam segment record where
  examItemCount_le : record.examItemCount ≤ segment.maxItems
  fixedForm : segment.isFixedForm = true →
    record.fieldTestItemCount = 0 ∧ manifest.groupsIn record.segmentKey = []
  fieldTest : (record.fieldTestItemCount = 0 ∧ manifest.groupsIn record.segmentKey = []) ∨
    ∃ history, env.history exam.id segment.key = .ok history ∧
      record.fieldTestItemCount.toNat = total (history.map (·.itemCount)) +
        total ((manifest.groupsIn record.segmentKey).map (·.itemCount)) ∧
      (manifest.groupsIn record.segmentKey ≠ [] →
        record.fieldTestItemCount.toNat ≤ segment.fieldTestMaxItems.toNat)
  groupKey : ∀ group ∈ manifest.groupsIn record.segmentKey,
    ∃ item ∈ segment.items, item.fieldTest = true ∧ item.groupKey = group.groupKey ∧
      item.id ∈ record.itemPool.keys

section Pass

variable {state : AssemblyState} {manifest : Manifest}
  (hpass : (assemble env exam assessment state).1 = .ok manifest)
  (hkeys : (assessment.segments.map (·.key)).Nodup)

include hpass hkeys

/-- A manifest holds, segment by segment, what was made of the segments. -/
theorem exists_made_groupsIn :
    ∃ accommodations made, manifest = manifestOf exam made ∧
      List.Forall₂ (fun segment a => segment ∈ assessment.segments ∧
        IsMade env exam assessment accommodations segment a ∧
        manifest.groupsIn a.record.segmentKey = a.groups) assessment.inOrder made := by
  obtain ⟨accommodations, made, -, hmade, rfl⟩ := exists_made_of_assemble_ok hpass
  exact ⟨accommodations, made, rfl, forall₂_groupsIn hmade hkeys⟩

/-- The groups of a manifest stand segment by segment, in the order of the records. -/
theorem fieldTestGroups_eq_flatMap_groupsIn :
    manifest.fieldTestGroups = manifest.segments.flatMap (manifest.groupsIn ·.segmentKey) := by
  obtain ⟨accommodations, made, hmanifest, hmade⟩ := exists_made_groupsIn hpass hkeys
  have hsegments : manifest.segments = made.map (·.record) := by rw [hmanifest, manifestOf]
  have hgroups : ∀ a ∈ made, a.groups = manifest.groupsIn a.record.segmentKey := by
    intro a ha
    obtain ⟨segment, -, -, -, h⟩ := exists_left_of_mem hmade ha
    exact h.symm
  calc
    manifest.fieldTestGroups = made.flatMap (·.groups) := by rw [hmanifest, manifestOf]
    _ = made.flatMap (manifest.groupsIn ·.record.segmentKey) := List.flatMap_congr hgroups
    _ = manifest.segments.flatMap (manifest.groupsIn ·.segmentKey) := by
      rw [hsegments, List.flatMap_map]

variable
  (hmax : ∀ segment ∈ assessment.segments, segment.fieldTestMaxItems.toNat < maxCount)
  (hhistory : ∀ segment ∈ assessment.segments, ∀ history,
    env.history exam.id segment.key = .ok history →
      total (history.map (·.itemCount)) < countBound)

include hmax hhistory

/-- **Every record is accounted for**, one per segment in order of delivery. -/
theorem forall₂_isAccounted :
    List.Forall₂ (IsAccounted env exam manifest) assessment.inOrder manifest.segments := by
  obtain ⟨accommodations, made, hmanifest, hmade⟩ := exists_made_groupsIn hpass hkeys
  have hsegments : manifest.segments = made.map (·.record) := by rw [hmanifest, manifestOf]
  rw [hsegments, List.forall₂_map_right_iff]
  refine hmade.imp ?_
  rintro segment a ⟨hsegment, h, hgroups⟩
  exact {
    toIsRecordFor := h.isRecordFor
    examItemCount_le := h.examItemCount_le
    fixedForm := fun hfixed => hgroups ▸ h.of_isFixedForm hfixed
    fieldTest := hgroups ▸ h.fieldTestItemCount_eq (hmax segment hsegment)
      (hhistory segment hsegment)
    groupKey := fun group hgroup => h.exists_item_of_mem_groups (hgroups ▸ hgroup) }

end Pass

/-- **What a manifest accounts for**, when segments differ in their keys and counts stay below the
greatest word: one record per segment in order of delivery, the groups segment by segment, and the
items of all records together. -/
theorem manifest_accounts {env : Environment} {exam : Exam} {assessment : Assessment}
    {state : AssemblyState} {manifest : Manifest}
    (hpass : (assemble env exam assessment state).1 = .ok manifest)
    (hkeys : (assessment.segments.map (·.key)).Nodup)
    (hmax : ∀ segment ∈ assessment.segments, segment.fieldTestMaxItems.toNat < maxCount)
    (hhistory : ∀ segment ∈ assessment.segments, ∀ history,
      env.history exam.id segment.key = .ok history →
        total (history.map (·.itemCount)) < countBound) :
    assessment.IsDelivery assessment.inOrder ∧
    List.Forall₂ (IsAccounted env exam manifest) assessment.inOrder manifest.segments ∧
    manifest.fieldTestGroups = manifest.segments.flatMap (manifest.groupsIn ·.segmentKey) ∧
    manifest.totalItems.toNat =
      min (total (manifest.segments.map (·.examItemCount)) +
        total (manifest.segments.map (·.fieldTestItemCount))) maxCount := by
  refine ⟨assessment.isDelivery_inOrder, forall₂_isAccounted hpass hkeys hmax hhistory,
    fieldTestGroups_eq_flatMap_groupsIn hpass hkeys, ?_⟩
  obtain ⟨accommodations, made, -, -, rfl⟩ := exists_made_of_assemble_ok hpass
  rw [toNat_totalItems_manifestOf]
  simp [manifestOf, Function.comp_def]

/-- An assessment of one segment, with two field-test items that share a group key and are in groups
of their own. -/
def sharedKeyAssessment : Assessment :=
  Fixture.assessment
    [Fixture.buildSegment "SEG" .adaptive
      [.maxItems 1, .fieldTestRange 1 9, .fieldTestItems 1 4, .strand "Reading" 0 (some 0.5),
        .items [Fixture.item "i1", Fixture.buildItem "i2" [.group "g2", .fieldTest],
          { Fixture.buildItem "i3" [.group "g3", .fieldTest] with groupKey := "G-g2" }]]]

/-- A site that assigned the first of these groups to an exam. -/
def returningSite : Site :=
  (Site.opened default default default).record
    [{ examId := "EX", sessionId := "session-1", segmentKey := "SEG", segmentId := "SEG",
       groupKey := "G-g2", groupId := "g2", blockId := "A", itemCount := 2 }]

/-- **A second pass** of an exam: the items of the first one are counted as well. -/
theorem manifest_accounts_returningSite :
    ∃ manifest, (assemble returningSite.environment (Fixture.exam "EX") sharedKeyAssessment
        .initial).1 = .ok manifest ∧
      manifest.totalItems = 5 ∧ manifest.fieldTestGroups.map (·.groupId) = ["g3"] ∧
      List.Forall₂ (IsAccounted returningSite.environment (Fixture.exam "EX") manifest)
        sharedKeyAssessment.inOrder manifest.segments := by
  have hmade : (assemble returningSite.environment (Fixture.exam "EX") sharedKeyAssessment
      .initial).1.toOption.map (fun m => (m.totalItems, m.fieldTestGroups.map (·.groupId))) =
        some (5, ["g3"]) := by
    decide +kernel
  cases hpass : (assemble returningSite.environment (Fixture.exam "EX") sharedKeyAssessment
      .initial).1 with
  | error e => simp [hpass, Except.toOption] at hmade
  | ok manifest =>
    simp only [hpass, Except.toOption, Option.map_some, Option.some.injEq, Prod.mk.injEq] at hmade
    refine ⟨manifest, rfl, hmade.1, hmade.2, (manifest_accounts hpass ?_ ?_ ?_).2.1⟩
    · decide
    · decide
    · intro segment hsegment history hhistory
      obtain rfl := List.mem_singleton.mp hsegment
      obtain rfl := Except.ok.inj hhistory
      decide

end TestAssembly
