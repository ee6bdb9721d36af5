import TestAssembly.Catalog
import TestAssembly.Wire.Record

/-!
# Wire format of catalog files

The JSON of a catalog file. Each of its parts may be left out.
-/

namespace TestAssembly.Wire

open Fields

/-- Catalog files. -/
def catalogFile : Codec CatalogFile :=
  .record
    (defaulted "clients" assessment.list.map .empty <|
      defaulted "accommodations" accommodation.list.map .empty <|
      defaulted "field_test_history" fieldTestGroup.list [] .done)
    (fun c => (c.clients, c.accommodations, c.history, ()))
    (fun (clients, accommodations, history, ()) => ⟨clients, accommodations, history⟩)

end TestAssembly.Wire
