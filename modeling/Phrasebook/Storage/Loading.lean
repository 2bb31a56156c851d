import Phrasebook.Error
/-!
# Loading

Work on a storage that stops at the first error, with the questions that it put
to the storage on the way.
-/

namespace Phrasebook

/-- What came of some work, and what was asked of the storage meanwhile. -/
structure Loading (α : Type) where
  outcome : Except Error α
  /-- The questions, in order. -/
  accesses : List Access

namespace Loading

variable {α β : Type}

/-- Work that asks nothing. -/
def done (a : α) : Loading α := ⟨.ok a, []⟩

/-- Work that fails. -/
def fail (e : Error) : Loading α := ⟨.error e, []⟩

/-- Goes on after success. -/
def andThen (x : Loading α) (f : α → Loading β) : Loading β :=
  match x.outcome with
  | .error e => ⟨.error e, x.accesses⟩
  | .ok a => ⟨(f a).outcome, x.accesses ++ (f a).accesses⟩

instance : Monad Loading where
  pure := done
  bind := andThen

/-- Reads a file; whether a fault is an error is for the reader to say. -/
def read (storage : Storage) (path : Path) : Loading (Except ReadFault String) :=
  ⟨.ok (storage.read path), [.read path]⟩

/-- Lists the files below a directory. -/
def walk (storage : Storage) (directory : Path) : Loading (List Path) :=
  ⟨.ok (storage.enumerate directory), [.walk directory]⟩

@[simp]
theorem outcome_pure (a : α) : (pure a : Loading α).outcome = .ok a := rfl

@[simp]
theorem outcome_fail (e : Error) : (fail e : Loading α).outcome = .error e := rfl

@[simp]
theorem outcome_bind (x : Loading α) (f : α → Loading β) :
    (x >>= f).outcome = x.outcome >>= fun a => (f a).outcome := by
  cases x with
  | mk outcome accesses => cases outcome <;> rfl

theorem outcome_bind_of_ok {x : Loading α} {a : α} (h : x.outcome = .ok a) (f : α → Loading β) :
    (x >>= f).outcome = (f a).outcome := by
  rw [outcome_bind, h]
  rfl

theorem outcome_bind_of_error {x : Loading α} {e : Error} (h : x.outcome = .error e)
    (f : α → Loading β) : (x >>= f).outcome = .error e := by
  rw [outcome_bind, h]
  rfl

/-- After success only the result decides how the work goes on. -/
theorem bind_congr_of_ok {x : Loading α} {a : α} (h : x.outcome = .ok a) {f g : α → Loading β}
    (hfg : f a = g a) : x >>= f = x >>= g := by
  obtain ⟨outcome, accesses⟩ := x
  obtain rfl : outcome = .ok a := h
  change andThen _ f = andThen _ g
  simp only [andThen, hfg]

@[simp]
theorem outcome_read (storage : Storage) (path : Path) :
    (read storage path).outcome = .ok (storage.read path) := rfl

@[simp]
theorem outcome_walk (storage : Storage) (directory : Path) :
    (walk storage directory).outcome = .ok (storage.enumerate directory) := rfl

end Loading

end Phrasebook
