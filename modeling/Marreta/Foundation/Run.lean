import Mathlib

namespace Foundation

/-! Computations over a state that survives failure.

`Run σ φ α` reads and changes a state of type `σ` and returns either a value or
a fault; the state reached is kept in both cases.  A fault of a program model is
a `Stop`: an error the program can catch, a panic of its host, or a bound on the
recursion depth that was too small. -/

inductive Stop (ε π : Type) where
  | error (error : ε)
  | panic (cause : π)
  | exhausted
deriving DecidableEq

def Run (σ φ α : Type) : Type := σ → Except φ α × σ

namespace Run

variable {σ φ ε π α β : Type}

protected def pure (value : α) : Run σ φ α :=
  fun state => (.ok value, state)

protected def bind (first : Run σ φ α) (next : α → Run σ φ β) : Run σ φ β :=
  fun state =>
    match first state with
    | (.ok value, state) => next value state
    | (.error fault, state) => (.error fault, state)

instance : Monad (Run σ φ) where
  pure := Run.pure
  bind := Run.bind

def raise (fault : φ) : Run σ φ α :=
  fun state => (.error fault, state)

def get : Run σ φ σ :=
  fun state => (.ok state, state)

/-- Read a part of the state. -/
def reads (part : σ → α) : Run σ φ α :=
  fun state => (.ok (part state), state)

def modify (change : σ → σ) : Run σ φ Unit :=
  fun state => (.ok (), change state)

def ofExcept : Except φ α → Run σ φ α
  | .ok value => Run.pure value
  | .error fault => raise fault

/-- Turn a catchable error into a value.  Other faults pass. -/
def attempt (body : Run σ (Stop ε π) α) : Run σ (Stop ε π) (Except ε α) :=
  fun state =>
    match body state with
    | (.ok value, state) => (.ok (.ok value), state)
    | (.error (.error error), state) => (.ok (.error error), state)
    | (.error (.panic cause), state) => (.error (.panic cause), state)
    | (.error .exhausted, state) => (.error .exhausted, state)

@[simp] theorem pure_run (value : α) (state : σ) :
    (pure value : Run σ φ α) state = (.ok value, state) := rfl

@[simp] theorem bind_run (first : Run σ φ α) (next : α → Run σ φ β)
    (state : σ) :
    (first >>= next) state =
      match first state with
      | (.ok value, state) => next value state
      | (.error fault, state) => (.error fault, state) := rfl

@[simp] theorem raise_run (fault : φ) (state : σ) :
    (raise fault : Run σ φ α) state = (.error fault, state) := rfl

@[simp] theorem get_run (state : σ) :
    (get : Run σ φ σ) state = (.ok state, state) := rfl

@[simp] theorem reads_run (part : σ → α) (state : σ) :
    (reads part : Run σ φ α) state = (.ok (part state), state) := rfl

@[simp] theorem modify_run (change : σ → σ) (state : σ) :
    (modify change : Run σ φ Unit) state = (.ok (), change state) := rfl

theorem map_id_run (body : Run σ φ α) : id <$> body = body := by
  funext state
  simp only [Functor.map, Run.bind]
  rcases body state with ⟨_ | _, _⟩ <;> rfl

theorem bind_assoc_run (body : Run σ φ α) (next : α → Run σ φ β) (last : β → Run σ φ γ) :
    body >>= next >>= last = body >>= fun value => next value >>= last := by
  funext state
  simp only [bind_run]
  rcases body state with ⟨_ | _, _⟩ <;> rfl

instance : LawfulMonad (Run σ φ) :=
  LawfulMonad.mk' _ map_id_run (fun _ _ => rfl) bind_assoc_run

/-! ## Relations between the ends of a run

A relation relates the state before a run, how the run ended (`none` when it
returned, the fault otherwise) and the state after it. -/

def ending : Except φ α → Option φ
  | .ok _ => none
  | .error fault => some fault

@[simp] theorem ending_ok (value : α) :
    ending (.ok value : Except φ α) = none := rfl

@[simp] theorem ending_error (fault : φ) :
    ending (.error fault : Except φ α) = some fault := rfl

def Satisfies (relation : σ → Option φ → σ → Prop) (body : Run σ φ α) : Prop :=
  ∀ state, relation state (ending (body state).1) (body state).2

/-- What a relation needs for sequencing: an idle run is related to itself, runs
compose after a return, and the faults in `raised` may be raised anywhere. -/
structure Sequential (relation : σ → Option φ → σ → Prop) (raised : φ → Prop) :
    Prop where
  idle : ∀ state, relation state none state
  seq : ∀ {before between after ending}, relation before none between →
    relation between ending after → relation before ending after
  stop : ∀ {fault} state, raised fault → relation state (some fault) state

namespace Satisfies

variable {relation : σ → Option φ → σ → Prop} {raised : φ → Prop}

theorem pure (sequential : Sequential relation raised) (value : α) :
    Satisfies relation (Pure.pure value : Run σ φ α) :=
  sequential.idle

theorem bind (sequential : Sequential relation raised) {first : Run σ φ α}
    {next : α → Run σ φ β} (head : Satisfies relation first)
    (tail : ∀ value, Satisfies relation (next value)) :
    Satisfies relation (first >>= next) := by
  intro state
  have firstHolds := head state
  rw [bind_run]
  rcases run : first state with ⟨result, between⟩
  rw [run] at firstHolds
  cases result with
  | ok value => exact sequential.seq firstHolds (tail value between)
  | error fault => exact firstHolds

theorem reads (sequential : Sequential relation raised) (part : σ → α) :
    Satisfies relation (Run.reads part : Run σ φ α) :=
  sequential.idle

/-- A loop whose every turn keeps the relation keeps it. -/
theorem mapM (sequential : Sequential relation raised) {values : List α}
    {turn : α → Run σ φ β} (each : ∀ value ∈ values, Satisfies relation (turn value)) :
    Satisfies relation (values.mapM turn) := by
  induction values with
  | nil => exact pure sequential []
  | cons value rest induction =>
      rw [List.mapM_cons]
      refine bind sequential (each value (by simp)) fun first => ?_
      exact bind sequential (induction fun value member => each value (by simp [member]))
        fun results => pure sequential _

end Satisfies

/-! ## Runs that only read -/

/-- The run leaves the state as it is. -/
def Idle (body : Run σ φ α) : Prop :=
  ∀ state, (body state).2 = state

namespace Idle

theorem pure (value : α) : Idle (Pure.pure value : Run σ φ α) :=
  fun _ => rfl

theorem reads (part : σ → α) : Idle (Run.reads part : Run σ φ α) :=
  fun _ => rfl

theorem bind {first : Run σ φ α} {next : α → Run σ φ β} (head : Idle first)
    (tail : ∀ value, Idle (next value)) : Idle (first >>= next) := by
  intro state
  have firstIdle := head state
  rw [bind_run]
  rcases run : first state with ⟨result, between⟩
  rw [run] at firstIdle
  obtain rfl : between = state := firstIdle
  cases result with
  | ok value => exact tail value between
  | error fault => rfl

/-- A run that only reads, followed by one that keeps a relation. -/
theorem satisfies_bind {relation : σ → Option φ → σ → Prop}
    (stops : ∀ state fault, relation state (some fault) state)
    {first : Run σ φ α} {next : α → Run σ φ β} (head : Idle first)
    (tail : ∀ value, Satisfies relation (next value)) :
    Satisfies relation (first >>= next) := by
  intro state
  have firstIdle := head state
  rw [bind_run]
  rcases run : first state with ⟨result, between⟩
  rw [run] at firstIdle
  obtain rfl : between = state := firstIdle
  cases result with
  | ok value => exact tail value between
  | error fault => exact stops between fault

end Idle

/-! ## Catching errors -/

section Catching

variable {relation : σ → Option (Stop ε π) → σ → Prop}

/-- Forgetting an error: a run that raised one is related as if it had
returned. -/
def Forgets (relation : σ → Option (Stop ε π) → σ → Prop) : Prop :=
  ∀ {before error after}, relation before (some (.error error)) after →
    relation before none after

theorem Satisfies.attempt (forgets : Forgets relation)
    {body : Run σ (Stop ε π) α} (holds : Satisfies relation body) :
    Satisfies relation (Run.attempt body) := by
  intro state
  have bodyHolds := holds state
  simp only [Run.attempt]
  rcases run : body state with ⟨result, after⟩
  rw [run] at bodyHolds
  rcases result with (error | cause | _) | value
  · exact forgets bodyHolds
  all_goals exact bodyHolds

end Catching
end Run
end Foundation
