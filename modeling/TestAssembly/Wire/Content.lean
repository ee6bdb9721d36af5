import TestAssembly.Content.Segment
import TestAssembly.Json.Codec
import TestAssembly.Time.Timestamp

/-!
# Wire format of the content

The JSON of items, segments and assessments. Fields with a natural default may be left out:
operational items, absent properties, zero counts, unbounded windows, empty lists.
-/

namespace TestAssembly.Wire

open Time Fields

/-- Instants as timestamps. -/
def instant : Codec Instant := .text Instant.text Instant.ofText?

/-- Windows by their bounds. -/
def window : Codec Window :=
  .record (optional "start" instant <| optional "end" instant .done)
    (fun w => (w.start?, w.stop?, ()))
    (fun (start, stop, ()) => Window.ofBounds start stop)

/-- The names of the algorithms. -/
def algorithm : Codec Algorithm :=
  .choice
    (fun
      | .fixedForm => "fixed_form"
      | .adaptive => "adaptive")
    (fun
      | "fixed_form" => some .fixedForm
      | "adaptive" => some .adaptive
      | _ => none)

/-- Item properties. -/
def property : Codec Property :=
  .record (required "name" .string <| required "value" .string .done)
    (fun p => (p.name, p.value, ()))
    (fun (name, value, ()) => ⟨name, value⟩)

/-- Items. -/
def item : Codec Item :=
  .record
    (required "id" .string <| required "group_id" .string <| required "group_key" .string <|
      required "block_id" .string <| required "strand" .string <|
      defaulted "field_test" .bool false <| defaulted "properties" property.list [] .done)
    (fun i => (i.id, i.groupId, i.groupKey, i.blockId, i.strand, i.fieldTest, i.properties, ()))
    (fun (id, groupId, groupKey, blockId, strand, fieldTest, properties, ()) =>
      ⟨id, groupId, groupKey, blockId, strand, fieldTest, properties⟩)

/-- Constraints. -/
def constraint : Codec Constraint :=
  .record
    (required "tool_type" .string <| required "tool_value" .string <|
      required "property_name" .string <| required "property_value" .string <|
      required "inclusive" .bool .done)
    (fun c => (c.tool, c.code, c.property, c.value, c.inclusive, ()))
    (fun (tool, code, property, value, inclusive, ()) => ⟨tool, code, property, value, inclusive⟩)

/-- Accommodations. -/
def accommodation : Codec Accommodation :=
  .record (required "type" .string <| required "code" .string .done)
    (fun a => (a.tool, a.code, ()))
    (fun (tool, code, ()) => ⟨tool, code⟩)

/-- Strands. -/
def strand : Codec Strand :=
  .record
    (required "name" .string <| required "min_items" .count <| required "max_items" .count <|
      optional "adaptive_cut" .real .done)
    (fun s => (s.name, s.minItems, s.maxItems, s.adaptiveCut, ()))
    (fun (name, minItems, maxItems, adaptiveCut, ()) => ⟨name, minItems, maxItems, adaptiveCut⟩)

/-- Forms. -/
def form : Codec Form :=
  .record
    (required "key" .string <| required "id" .string <| required "language" .string <|
      required "cohort" .string <| defaulted "item_ids" Codec.string.list [] .done)
    (fun f => (f.key, f.id, f.language, f.cohort, f.itemIds, ()))
    (fun (key, id, language, cohort, itemIds, ()) => ⟨key, id, language, cohort, itemIds⟩)

/-- Segments. -/
def segment : Codec Segment :=
  .record
    (required "key" .string <| required "id" .string <| required "position" .count <|
      required "algorithm" algorithm <| defaulted "min_items" .count 0 <|
      required "max_items" .count <| defaulted "field_test_start_position" .count 0 <|
      defaulted "field_test_end_position" .count 0 <| defaulted "field_test_min_items" .count 0 <|
      defaulted "field_test_max_items" .count 0 <|
      defaulted "field_test_window" window .unbounded <| defaulted "items" item.list [] <|
      defaulted "strands" strand.list [] <| defaulted "forms" form.list [] .done)
    (fun s => (s.key, s.id, s.position, s.algorithm, s.minItems, s.maxItems, s.fieldTestStart,
      s.fieldTestEnd, s.fieldTestMinItems, s.fieldTestMaxItems, s.fieldTestWindow, s.items,
      s.strands, s.forms, ()))
    (fun (key, id, position, algorithm, minItems, maxItems, fieldTestStart, fieldTestEnd,
        fieldTestMinItems, fieldTestMaxItems, fieldTestWindow, items, strands, forms, ()) =>
      ⟨key, id, position, algorithm, minItems, maxItems, fieldTestStart, fieldTestEnd,
        fieldTestMinItems, fieldTestMaxItems, fieldTestWindow, items, strands, forms⟩)

/-- Assessments. -/
def assessment : Codec Assessment :=
  .record
    (required "key" .string <| required "id" .string <| defaulted "segmented" .bool false <|
      defaulted "field_test_window" window .unbounded <| defaulted "segments" segment.list [] <|
      defaulted "item_constraints" constraint.list [] .done)
    (fun a => (a.key, a.id, a.segmented, a.fieldTestWindow, a.segments, a.constraints, ()))
    (fun (key, id, segmented, fieldTestWindow, segments, constraints, ()) =>
      ⟨key, id, segmented, fieldTestWindow, segments, constraints⟩)

end TestAssembly.Wire
