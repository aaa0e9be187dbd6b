import ContentSchema.Files.Error
import ContentSchema.Json.Fault

/-! # Reports

A report is the outcome of a step together with the warnings met on the way, also on the way to a
failure.
-/

namespace ContentSchema

open Json

inductive Warning where
  | unknownTarget (contentType field target : String)
  | unsupportedKind (contentType field kind : String)
  | danglingReference (name : String)
  | notANode (id : String) (fault : Fault)
  deriving DecidableEq

inductive Failure where
  | unsupportedKind (contentType field kind : String)
  /-- Content types that lead from the first one back to it. -/
  | dependencyCycle (first : String) (later : List String)
  /-- A content type that would be inlined into itself, and those inlined around it. -/
  | inliningCycle (name : String) (around : List String)
  | missingBuiltin (name : String)
  | malformedUnion (branches : Nat)
  | notANode (id : String) (fault : Fault)
  | repeatedId (id : String)
  | notSchemas
  | invalidModel (fault : Fault)
  | invalidDocument (fault : Fault)
  | invalidOptions (path : String) (fault : Fault)
  | unreadableInput (path : String) (error : FileError)
  | unreadableOptions (path : String) (error : FileError)
  | file (error : FileError)
  deriving DecidableEq

def nodeFault (id : String) (fault : Fault) : String :=
  s!"schema '{id}' is not a validator node: " ++ fault.message

def unreadable (path : String) (error : FileError) : String :=
  s!"failed to read '{path}': " ++ error.message

def chain (ids : List String) : String := String.intercalate " -> " ids

def Warning.message : Warning → String
  | unknownTarget contentType field target =>
    s!"field '{contentType}.{field}' links to unknown content type '{target}'; " ++
      "ignoring that target"
  | unsupportedKind contentType field kind =>
    s!"field '{contentType}.{field}' has unsupported type '{kind}'; emitting z.unknown()"
  | danglingReference name =>
    s!"reference to unknown content type '{name}'; emitting z.unknown()"
  | notANode id fault => nodeFault id fault ++ "; emitting z.unknown()"

def Failure.message : Failure → String
  | unsupportedKind contentType field kind =>
    "unsupported field type error: " ++
      s!"field '{contentType}.{field}' has unsupported type '{kind}'"
  | dependencyCycle first later =>
    s!"circular dependency error: content type '{first}' depends on itself: " ++
      chain (first :: later ++ [first])
  | inliningCycle name around =>
    s!"circular dependency error: content type '{name}' cannot be inlined in flat mode: " ++
      chain (around ++ [name])
  | missingBuiltin name =>
    s!"missing builtin schema error: no builtin schema registered as '{name}'"
  | malformedUnion branches =>
    s!"malformed union error: union requires at least two branches, found {branches}"
  | notANode id fault => "non-schema node error: " ++ nodeFault id fault
  | repeatedId id => s!"input error: duplicate content type id '{id}'"
  | notSchemas => "input error: IR document must be an object of schemas"
  | invalidModel fault => "input error: invalid content model export: " ++ fault.message
  | invalidDocument fault => "input error: invalid IR document: " ++ fault.message
  | invalidOptions path fault => s!"config error: invalid config '{path}': " ++ fault.message
  | unreadableInput path error => "input error: " ++ unreadable path error
  | unreadableOptions path error => "config error: " ++ unreadable path error
  | file error => "io error: " ++ error.message

structure Report (α : Type) where
  warnings : List Warning
  outcome : Except Failure α

namespace Report

variable {α β : Type}

def ok (a : α) : Report α := ⟨[], .ok a⟩

def fail (failure : Failure) : Report α := ⟨[], .error failure⟩

def warn (warning : Warning) : Report Unit := ⟨[warning], .ok ()⟩

/-- The second step is taken only where the first succeeds. -/
def andThen (first : Report α) (next : α → Report β) : Report β :=
  match first.outcome with
  | .error failure => ⟨first.warnings, .error failure⟩
  | .ok a =>
    let second := next a
    ⟨first.warnings ++ second.warnings, second.outcome⟩

instance : Monad Report where
  pure := ok
  bind := andThen

instance : LawfulMonad Report :=
  .mk' Report
    (fun r => by rcases r with ⟨w, _ | a⟩ <;> simp [Functor.map, andThen, ok])
    (fun a f => by simp [bind, pure, andThen, ok])
    (fun r f g => by
      rcases r with ⟨w, _ | a⟩
      · rfl
      · rcases hf : f a with ⟨w', _ | b⟩ <;> simp [bind, andThen, hf])

@[simp] theorem outcome_pure (a : α) : (pure a : Report α).outcome = .ok a := rfl

@[simp] theorem warnings_pure (a : α) : (pure a : Report α).warnings = [] := rfl

@[simp] theorem outcome_fail (f : Failure) : (fail f : Report α).outcome = .error f := rfl

theorem outcome_bind (first : Report α) (next : α → Report β) :
    (first >>= next).outcome = first.outcome.bind fun a => (next a).outcome := by
  rcases first with ⟨w, _ | a⟩ <;> rfl

theorem outcome_bind_eq_ok {first : Report α} {next : α → Report β} {b : β} :
    (first >>= next).outcome = .ok b ↔
      ∃ a, first.outcome = .ok a ∧ (next a).outcome = .ok b := by
  rcases first with ⟨w, _ | a⟩ <;> simp [outcome_bind, Except.bind]

theorem warnings_bind_of_ok {first : Report α} {next : α → Report β} {a : α}
    (h : first.outcome = .ok a) :
    (first >>= next).warnings = first.warnings ++ (next a).warnings := by
  rcases first with ⟨w, _ | _⟩ <;> cases h
  rfl

theorem map_eq (f : α → β) (report : Report α) :
    f <$> report = ⟨report.warnings, report.outcome.map f⟩ := by
  rcases report with ⟨w, _ | a⟩ <;> simp [Functor.map, andThen, ok, Except.map]

@[simp] theorem outcome_map (f : α → β) (report : Report α) :
    (f <$> report).outcome = report.outcome.map f := by
  rw [map_eq]

theorem outcome_map_eq_ok {f : α → β} {report : Report α} {b : β} :
    (f <$> report).outcome = .ok b ↔ ∃ a, report.outcome = .ok a ∧ f a = b := by
  rcases report with ⟨w, _ | a⟩ <;> simp [map_eq, Except.map]

@[simp] theorem warnings_map (f : α → β) (report : Report α) :
    (f <$> report).warnings = report.warnings := by
  rw [map_eq]

def messages (report : Report α) : List String := report.warnings.map (·.message)

end Report

end ContentSchema
