import TestAssembly.Assembly.Environment

/-!
# A site in memory

A site keeps content, approved accommodations and history in memory, and knows which of its
services are out. It is the environment of passes at its present time.
-/

namespace TestAssembly

open Time

/-- **Site**: the services around the assembly, in memory. -/
structure Site where
  config : Config
  now : Instant
  random : RandomSource
  /-- Clients with their assessments, the newest first. -/
  catalog : List (String × Assessment)
  /-- Exams with their accommodations, in the order of approval. -/
  approvals : List (String × Accommodation)
  /-- The field-test groups assigned so far. -/
  history : List FieldTestGroup
  /-- The services that are out, with what they say. -/
  outages : List (Service × String)

namespace Site

/-- A site without content. -/
def opened (config : Config) (now : Instant) (random : RandomSource) : Site :=
  ⟨config, now, random, [], [], [], []⟩

/-! ### Changes -/

/-- Put an assessment into the catalog of a client, in place of one with the same key. -/
def insert (site : Site) (client : String) (assessment : Assessment) : Site :=
  { site with catalog := (client, assessment) :: site.catalog }

/-- Approve an accommodation for an exam. -/
def approve (site : Site) (exam : String) (accommodation : Accommodation) : Site :=
  { site with approvals := site.approvals ++ [(exam, accommodation)] }

/-- Add groups to the history. -/
def record (site : Site) (groups : List FieldTestGroup) : Site :=
  { site with history := site.history ++ groups }

/-! ### Look-ups -/

/-- The assessment of a client with a key. -/
def assessment? (site : Site) (client key : String) : Option Assessment :=
  (site.catalog.find? fun e => e.1 == client && e.2.key == key).map Prod.snd

/-- The accommodations of an exam. -/
def accommodations (site : Site) (exam : String) : List Accommodation :=
  (site.approvals.filter (·.1 == exam)).map Prod.snd

/-- The groups assigned to an exam in a segment. -/
def assigned (site : Site) (exam segment : String) : List FieldTestGroup :=
  site.history.filter fun g => g.examId == exam && g.segmentKey == segment

/-- Why a service is out, if it is. -/
def outage? (site : Site) (service : Service) : Option Outage :=
  (site.outages.find? (·.1 == service)).map fun o => ⟨service, o.2⟩

/-- The answer of a service, or its outage. -/
def answer {α : Type} (site : Site) (service : Service) (value : α) : Except Outage α :=
  match site.outage? service with
  | some outage => .error outage
  | none => .ok value

/-- **Environment** of passes at the site. -/
def environment (site : Site) : Environment where
  config := site.config
  now := site.now
  random := site.random
  accommodations exam := site.answer .accommodations (site.accommodations exam)
  assessment? client key := site.answer .catalog (site.assessment? client key)
  history exam segment := site.answer .history (site.assigned exam segment)
  segmentRefusal := site.outage? .saveSegments
  groupRefusal := site.outage? .saveGroups

/-- A service answers when it is not out. -/
theorem answer_eq_ok_iff {α : Type} {site : Site} {service : Service} {value found : α} :
    site.answer service value = .ok found ↔ site.outage? service = none ∧ value = found := by
  unfold answer
  cases site.outage? service <;> simp

end Site

end TestAssembly
