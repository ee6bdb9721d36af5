import TestAssembly.Json.Basic

/-!
# Errors

The causes for which assembling an attempt, reading its inputs or loading a configuration fails.
Each cause has a stable code, a category and a message. Only failures of collaborators and of the
file system may clear up on a retry (`isRetryable_iff`).
-/

namespace TestAssembly

/-- **Cause of a failure.** -/
inductive AssemblyError where
  /-- Every segment of the attempt resolved to zero items. -/
  | noContent (exam : String)
  /-- The catalog of the client has no such assessment. -/
  | assessmentNotFound (client assessment : String)
  /-- A fixed-form segment has no form in the language of the exam. -/
  | noForm (segment language : String)
  /-- A fixed-form segment has no form of the cohort that an earlier segment fixed. -/
  | noCohortForm (segment language cohort : String)
  /-- A configuration is unreadable or has an invalid value, in one field if it is named. -/
  | config (message : String) (field : Option String)
  /-- A service around the assembly failed. -/
  | collaborator (service message : String)
  /-- The file system failed. -/
  | io (message : String)
  /-- A JSON text could not be decoded. -/
  | json (fault : JsonFault)
  deriving DecidableEq, Repr, Inhabited

namespace AssemblyError

/-- The stable code of a cause. -/
def code : AssemblyError → String
  | noContent .. => "E001"
  | assessmentNotFound .. => "E002"
  | noForm .. => "E010"
  | noCohortForm .. => "E011"
  | config .. => "E020"
  | collaborator .. => "E030"
  | io .. => "E031"
  | json .. => "E032"

/-- The category of a cause. -/
def category : AssemblyError → String
  | noContent .. | assessmentNotFound .. => "Content"
  | noForm .. | noCohortForm .. => "Form"
  | config .. => "Config"
  | collaborator .. => "Collaborator"
  | io .. => "I/O"
  | json .. => "JSON"

/-- Whether the failure may clear up when the attempt is repeated. -/
def isRetryable : AssemblyError → Bool
  | collaborator .. | io .. => true
  | _ => false

/-- **Message** of a cause. -/
def message : AssemblyError → String
  | noContent exam => "No content available for exam " ++ exam
      ++ ": every segment resolved to zero items"
  | assessmentNotFound client assessment =>
      "Assessment " ++ assessment ++ " not found for client " ++ client
  | noForm segment language =>
      "No form found for segment " ++ segment ++ " in language " ++ language
  | noCohortForm segment language cohort =>
      "No form for segment " ++ segment ++ " in language " ++ language
        ++ " matches cohort " ++ cohort
  | config message _ => "Configuration error: " ++ message
  | collaborator service message => service ++ " failed: " ++ message
  | io message => message
  | json fault => fault.message

/-- Exactly the failures of collaborators and of the file system are retryable. -/
theorem isRetryable_iff {e : AssemblyError} :
    e.isRetryable = true ↔ e.category = "Collaborator" ∨ e.category = "I/O" := by
  cases e <;> simp [isRetryable, category]

end AssemblyError

end TestAssembly
