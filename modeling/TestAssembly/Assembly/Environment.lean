import TestAssembly.Config.Basic
import TestAssembly.Content.Record
import TestAssembly.FieldTest.Placement

/-!
# The environment of a pass

A pass assembles one attempt. All that it learns from outside is its environment: configuration,
time, randomness, and the services around it, each of which may fail. A service that stores records
either takes them or refuses; what it takes is kept in a store.
-/

namespace TestAssembly

open Time

/-- The services around the assembly. -/
inductive Service where
  | accommodations
  | catalog
  | history
  | saveSegments
  | saveGroups
  deriving DecidableEq, Repr

/-- The name under which failures of a service are reported. -/
def Service.name : Service → String
  | accommodations => "accommodations"
  | catalog => "catalog"
  | history => "history"
  | saveSegments => "save_segments"
  | saveGroups => "save_groups"

/-- **Outage**: a service that failed, and what it said. -/
structure Outage where
  service : Service
  message : String
  deriving DecidableEq, Repr

/-- The error that an outage causes. -/
def Outage.error (outage : Outage) : AssemblyError :=
  .collaborator outage.service.name outage.message

/-- **Environment** of a pass. -/
structure Environment where
  config : Config
  now : Instant
  random : RandomSource
  /-- The accommodations approved for an exam. -/
  accommodations : String → Except Outage (List Accommodation)
  /-- The assessment of a client with a key. -/
  assessment? : String → String → Except Outage (Option Assessment)
  /-- The groups assigned to an exam in a segment. -/
  history : String → String → Except Outage (List FieldTestGroup)
  /-- Why segment records are refused, if they are. -/
  segmentRefusal : Option Outage
  /-- Why field-test groups are refused, if they are. -/
  groupRefusal : Option Outage

/-- **Store** of all records that were taken, in order. -/
structure Store where
  segments : List ExamSegment
  groups : List FieldTestGroup
  deriving DecidableEq

namespace Store

/-- The store before any record. -/
def empty : Store := ⟨[], []⟩

instance : Inhabited Store := ⟨empty⟩

/-- Add segment records. -/
def addSegments (store : Store) (records : List ExamSegment) : Store :=
  { store with segments := store.segments ++ records }

/-- Add field-test groups. -/
def addGroups (store : Store) (groups : List FieldTestGroup) : Store :=
  { store with groups := store.groups ++ groups }

/-- Whether nothing was stored. -/
def isEmpty (store : Store) : Bool := store.segments.isEmpty && store.groups.isEmpty

end Store

end TestAssembly
