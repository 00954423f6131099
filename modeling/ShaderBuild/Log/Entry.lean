import ShaderBuild.Failure

/-!
# Log Entries

What an operation reports while it works. Reporting never changes a result, so
a computation that reports is a value together with the entries made on the
way to it.

Errors are the only entries that say where in the program they were made;
everything else is located by its source alone.

## Main definitions

* `Severity`: How much an entry matters.
* `Entry`: One report.
* `Logged`: A value and the entries made on the way to it.
* `Logged.fail`: A failure, reported once.
* `Logged.refuse`: A resource that cannot be used, reported once.

## Theorems

* `value_bind`, `entries_bind`: Running one computation after another passes
  on the value and joins the entries.
-/

namespace ShaderBuild

/-- How much an entry matters. -/
inductive Severity where
  | trace
  | debug
  | info
  | warn
  | error
  deriving DecidableEq, Repr

namespace Severity

/-- The place of a severity in ascending order. -/
def rank : Severity → Nat
  | .trace => 0
  | .debug => 1
  | .info => 2
  | .warn => 3
  | .error => 4

/-- Whether an entry of severity `s` is kept when the least severity asked for
    is `least`. -/
def meets (s least : Severity) : Bool :=
  least.rank ≤ s.rank

end Severity

/-- One report. `located` says whether it carries the place it was made at. -/
structure Entry where
  severity : Severity
  source : String
  message : String
  located : Bool
  deriving DecidableEq, Repr

namespace Entry

/-- A report without a place. -/
def plain (severity : Severity) (source message : String) : Entry :=
  ⟨severity, source, message, false⟩

/-- A report with the place it was made at. -/
def placed (severity : Severity) (source message : String) : Entry :=
  ⟨severity, source, message, true⟩

/-- The report an operation makes: errors carry their place, nothing else does. -/
def report (severity : Severity) (source message : String) : Entry :=
  if severity = .error then placed severity source message else plain severity source message

/-- The report of a failure. -/
def ofFailure (source : String) (f : Failure) : Entry :=
  report .error source f.message

end Entry

/-- A value and the entries made on the way to it, oldest first. -/
structure Logged (α : Type) where
  value : α
  entries : List Entry
  deriving Repr

namespace Logged

variable {α β : Type}

instance : Monad Logged where
  pure a := ⟨a, []⟩
  bind x f := ⟨(f x.value).value, x.entries ++ (f x.value).entries⟩

@[simp] theorem value_pure (a : α) : (pure a : Logged α).value = a := rfl

@[simp] theorem entries_pure (a : α) : (pure a : Logged α).entries = [] := rfl

@[simp] theorem value_bind (x : Logged α) (f : α → Logged β) :
    (x >>= f).value = (f x.value).value := rfl

@[simp] theorem entries_bind (x : Logged α) (f : α → Logged β) :
    (x >>= f).entries = x.entries ++ (f x.value).entries := rfl

/-- Make one entry. -/
def note (e : Entry) : Logged Unit :=
  ⟨(), [e]⟩

@[simp] theorem entries_note (e : Entry) : (note e).entries = [e] := rfl

/-- A failure, reported once. -/
def fail (source : String) (f : Failure) : Logged (Except Failure α) :=
  ⟨.error f, [Entry.ofFailure source f]⟩

/-- A resource that cannot be used, reported by its message alone. -/
def refuse (source message : String) : Logged (Except Failure α) :=
  ⟨.error (.invalidResource message), [Entry.report .error source message]⟩

end Logged

end ShaderBuild
