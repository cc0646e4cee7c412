import ProtonDrive.Session.Steps

/-!
# The state of a session, and its lock

The tasks of a session share its state, an `RwLock`: it is read when no task holds the lock, and replaced
by the task that does.
-/

set_option linter.unusedVariables false

namespace ProtonDrive
open Encoding Effects Api Paths

/-- the state, and the task that holds the write lock -/
structure Cell (ι : Type) where
  st : SessionState
  holder : Option ι

/-- the calls that neither look at the state nor at its lock -/
def leavesCell : SessionCall → Bool
  | .readState => false
  | .acquire => false
  | .replace _ => false
  | .release => false
  | _ => true

inductive Locks {ι : Type} : Cell ι → ι × Event sessionHost → Cell ι → Prop
  | reads {c : Cell ι} (i) (h : c.holder = none) : Locks c (i, ⟨.readState, c.st⟩) c
  | acquires {c : Cell ι} (i) (h : c.holder = none) :
      Locks c (i, ⟨.acquire, c.st⟩) { c with holder := some i }
  | replaces {c : Cell ι} {i} (st) (h : c.holder = some i) :
      Locks c (i, ⟨.replace st, ()⟩) { c with st }
  | releases {c : Cell ι} {i} (h : c.holder = some i) :
      Locks c (i, ⟨.release, ()⟩) { c with holder := none }
  | other (c : Cell ι) (i) {e} (h : leavesCell e.call = true) : Locks c (i, e) c

section
variable {ι : Type} {c c' : Cell ι} {i : ι} {st : SessionState} {e : Event sessionHost}

theorem Locks.readState_inv (h : Locks c (i, ⟨.readState, st⟩) c') :
    c' = c ∧ c.st = st ∧ c.holder = none := by
  cases h with
  | reads _ hfree => exact ⟨rfl, rfl, hfree⟩
  | other _ h => cases h

theorem Locks.acquire_inv (h : Locks c (i, ⟨.acquire, st⟩) c') :
    c' = { c with holder := some i } ∧ c.st = st ∧ c.holder = none := by
  cases h with
  | acquires _ hfree => exact ⟨rfl, rfl, hfree⟩
  | other _ h => cases h

theorem Locks.replace_inv (h : Locks c (i, ⟨.replace st, ()⟩) c') :
    c' = { c with st } ∧ c.holder = some i := by
  cases h with
  | replaces _ hheld => exact ⟨rfl, hheld⟩
  | other _ h => cases h

theorem Locks.release_inv (h : Locks c (i, ⟨.release, ()⟩) c') :
    c' = { c with holder := none } ∧ c.holder = some i := by
  cases h with
  | releases hheld => exact ⟨rfl, hheld⟩
  | other _ h => cases h

theorem Locks.other_inv (h : Locks c (i, e) c') (he : leavesCell e.call = true) : c' = c := by
  cases h with
  | other => rfl
  | _ => cases he

/-- only `replace` changes the state -/
theorem Locks.st_eq (h : Locks c (i, e) c') : c'.st = c.st ∨ ∃ st, e = ⟨.replace st, ()⟩ := by
  cases h with
  | replaces st => exact .inr ⟨st, rfl⟩
  | _ => exact .inl rfl

end

end ProtonDrive
