import TestAssembly.Config.Basic
import TestAssembly.Json.Codec

/-!
# Wire format of the configuration

The JSON of a configuration. Every section and every setting may be left out.
-/

namespace TestAssembly.Wire

open Fields

/-- Settings of field-test seeding. -/
def fieldTestConfig : Codec FieldTestConfig :=
  let standard : FieldTestConfig := {}
  .record
    (defaulted "enabled" .bool standard.enabled <|
      defaulted "simulation_environments" Codec.string.list standard.simulationEnvironments <|
      defaulted "position_draw_bound" .count standard.positionDrawBound .done)
    (fun c => (c.enabled, c.simulationEnvironments, c.positionDrawBound, ()))
    (fun (enabled, simulationEnvironments, positionDrawBound, ()) =>
      ⟨enabled, simulationEnvironments, positionDrawBound⟩)

/-- Settings of form rotation. -/
def rotationConfig : Codec RotationConfig :=
  let standard : RotationConfig := {}
  .record (defaulted "rotation_idle_secs" .word standard.idleSeconds .done)
    (fun c => (c.idleSeconds, ()))
    (fun (idleSeconds, ()) => ⟨idleSeconds⟩)

/-- Settings of item pools. -/
def itemConfig : Codec ItemConfig :=
  let standard : ItemConfig := {}
  .record (defaulted "language_property" .string standard.languageProperty .done)
    (fun c => (c.languageProperty, ()))
    (fun (languageProperty, ()) => ⟨languageProperty⟩)

/-- Configurations. -/
def config : Codec Config :=
  .record
    (defaulted "field_test" fieldTestConfig {} <| defaulted "forms" rotationConfig {} <|
      defaulted "items" itemConfig {} .done)
    (fun c => (c.fieldTest, c.rotation, c.items, ()))
    (fun (fieldTest, rotation, items, ()) => ⟨fieldTest, rotation, items⟩)

end TestAssembly.Wire
