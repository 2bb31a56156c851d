import Phrasebook.Error
/-!
# Runs that write

A run of a command writes texts to the output as it goes, and stops at the first
failure. What it had written until then stays written.
-/

namespace Phrasebook.Command

/-- Why a command failed: an error of the library, or what failed around it. -/
inductive Failure
  | error (e : Error)
  | configuration (path : Path) (e : Error)
  | tables (e : Error)
  | input (path : Path) (fault : ReadFault)
  | document (path : Path) (fault : Json.Fault)
deriving DecidableEq, Repr

/-- The text shown for a failure. -/
def Failure.message : Failure → String
  | .error e => e.message
  | .configuration path _ => "Failed to load configuration from " ++ path.text
  | .tables _ => "Failed to load string tables"
  | .input path _ => "Failed to read " ++ path.text
  | .document path _ => path.text ++ " is not valid JSON"

/-- What came of a run, and what it wrote on the way. -/
structure Running (α : Type) where
  outcome : Except Failure α
  /-- The texts written, in order. -/
  written : List String

namespace Running

variable {α β : Type}

/-- A run that writes nothing. -/
def ofExcept (outcome : Except Failure α) : Running α := ⟨outcome, []⟩

/-- Goes on after success. -/
def andThen (x : Running α) (f : α → Running β) : Running β :=
  match x.outcome with
  | .error failure => ⟨.error failure, x.written⟩
  | .ok a => ⟨(f a).outcome, x.written ++ (f a).written⟩

instance : Monad Running where
  pure a := ofExcept (.ok a)
  bind := andThen

/-- Goes on with a result of the library. -/
def ofResult (result : Except Error α) : Running α := ofExcept (result.mapError .error)

/-- Writes a text and ends the line. -/
def printLine (text : String) : Running Unit := ⟨.ok (), [text ++ "\n"]⟩

/-- Writes each text on a line of its own. -/
def printLines : List String → Running Unit
  | [] => pure ()
  | text :: rest => do
    printLine text
    printLines rest

/-- All that was written. -/
def output (x : Running α) : String := String.join x.written

@[simp]
theorem written_pure (a : α) : (pure a : Running α).written = [] := rfl

@[simp]
theorem written_ofExcept (outcome : Except Failure α) : (ofExcept outcome).written = [] := rfl

@[simp]
theorem written_ofResult (result : Except Error α) : (ofResult result).written = [] := rfl

/-- A run that goes on has written what both parts write. -/
theorem written_bind_of_ok {x : Running α} {f : α → Running β} {a : α}
    (h : x.outcome = .ok a) : (x >>= f).written = x.written ++ (f a).written := by
  cases x with
  | mk outcome written =>
    simp only at h
    subst h
    rfl

/-- A run that stops has written what its first part writes. -/
theorem written_bind_of_error {x : Running α} {f : α → Running β} {failure : Failure}
    (h : x.outcome = .error failure) : (x >>= f).written = x.written := by
  cases x with
  | mk outcome written =>
    simp only at h
    subst h
    rfl

/-- A run that goes on ends as its second part does. -/
theorem outcome_bind_of_ok {x : Running α} {f : α → Running β} {a : α}
    (h : x.outcome = .ok a) : (x >>= f).outcome = (f a).outcome := by
  cases x with
  | mk outcome written =>
    simp only at h
    subst h
    rfl

/-- A run that goes on succeeds where both parts do. -/
theorem outcome_bind_eq_ok_iff {x : Running α} {f : α → Running β} {b : β} :
    (x >>= f).outcome = .ok b ↔ ∃ a, x.outcome = .ok a ∧ (f a).outcome = .ok b := by
  cases x with
  | mk outcome written => cases outcome <;> simp [bind, andThen]

/-- Going on with a result that is there is going on with its value. -/
theorem ofExcept_ok_bind (a : α) (f : α → Running β) : ofExcept (.ok a) >>= f = f a := rfl

/-- To write lines never fails. -/
theorem outcome_printLines (texts : List String) : (printLines texts).outcome = .ok () := by
  induction texts with
  | nil => rfl
  | cons text rest ih => exact outcome_bind_eq_ok_iff.mpr ⟨(), rfl, ih⟩

end Running

end Phrasebook.Command
