import TestAssembly.Assembly.Site
import TestAssembly.NameMap

/-!
# Catalog files

Everything that a site needs to assemble exams, as it is kept in one file: the assessments of each
client, the approved accommodations of each exam, and the history of field-test groups.
-/

namespace TestAssembly

/-- **Catalog file.** -/
structure CatalogFile where
  clients : NameMap (List Assessment) := .empty
  accommodations : NameMap (List Accommodation) := .empty
  history : List FieldTestGroup := []

instance : Inhabited CatalogFile := ⟨{}⟩

/-- A site with the content of a catalog file; of two assessments of a client with one key the
later one counts. -/
def Site.load (site : Site) (file : CatalogFile) : Site :=
  let site := file.clients.entries.foldl
    (fun site (client, assessments) => assessments.foldl (·.insert client) site) site
  let site := file.accommodations.entries.foldl
    (fun site (exam, approved) => approved.foldl (·.approve exam) site) site
  site.record file.history

end TestAssembly
