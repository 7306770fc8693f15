import Mathlib

namespace Foundation

/-! Clients of a server that handles one command at a time.

The connection may fail at every command: before the command arrives, or after it took
effect.  In both cases the client stops, as it does when the server refuses a command. -/

/-- The commands a client sends, each after the answer to the one before. -/
inductive Session (κ ρ α : Type) where
  | done (result : α)
  | send (command : κ) (next : ρ → Session κ ρ α)

namespace Session

/-- What becomes of a command that is sent. -/
inductive Delivery where
  | answered
  /-- The command takes effect and its answer gets lost. -/
  | unanswered
  | lost
deriving DecidableEq

inductive Outcome (α : Type) where
  | returned (result : α)
  | refused
  | interrupted
deriving DecidableEq

section Runs

variable {σ κ ρ α : Type}

/-- A server refuses a command without effect, or accepts it with an answer. -/
abbrev Server (σ κ ρ : Type) := κ → σ → Option (σ × ρ)

variable (server : Server σ κ ρ) (delivery : Nat → Delivery)

/-- The state that a session leaves, from the command with the given number on. -/
def run : Session κ ρ α → Nat → σ → σ × Outcome α
  | .done result, _, state => (state, .returned result)
  | .send command next, turn, state =>
      match delivery turn with
      | .lost => (state, .interrupted)
      | .unanswered =>
          match server command state with
          | some (after, _) => (after, .interrupted)
          | none => (state, .interrupted)
      | .answered =>
          match server command state with
          | some (after, reply) => run (next reply) (turn + 1) after
          | none => (state, .refused)

/-- Commands sent one after the other, whatever is answered. -/
def sendAll (commands : List κ) (result : α) : Session κ ρ α :=
  match commands with
  | [] => .done result
  | command :: rest => .send command fun _ => sendAll rest result

/-- A command arrives and is accepted, after all the commands before it were accepted and
answered. -/
inductive Executed (command : κ) : Nat → σ → List κ → Prop
  | first {turn : Nat} {state after : σ} {reply : ρ} {rest : List κ}
      (arrives : delivery turn ≠ .lost) (accepted : server command state = some (after, reply)) :
      Executed command turn state (command :: rest)
  | later {turn : Nat} {state after : σ} {reply : ρ} {before : κ} {rest : List κ}
      (answered : delivery turn = .answered) (accepted : server before state = some (after, reply))
      (executed : Executed command (turn + 1) after rest) :
      Executed command turn state (before :: rest)

/-- All commands are accepted and answered. -/
def AllAnswered : Nat → σ → List κ → Prop
  | _, _, [] => True
  | turn, state, command :: rest =>
      delivery turn = .answered ∧
        ∃ after reply, server command state = some (after, reply) ∧
          AllAnswered (turn + 1) after rest

variable {server delivery}

theorem not_executed_nil {command : κ} {turn : Nat} {state : σ} :
    ¬ Executed server delivery command turn state [] := by
  intro executed
  cases executed

theorem not_executed_of_lost {command : κ} {turn : Nat} {state : σ} {sent : List κ}
    (lost : delivery turn = .lost) : ¬ Executed server delivery command turn state sent := by
  intro executed
  cases executed with
  | first arrives accepted => exact arrives lost
  | later answered accepted executed =>
      rw [lost] at answered
      cases answered

theorem not_executed_of_refused {command before : κ} {turn : Nat} {state : σ} {sent : List κ}
    (refused : server before state = none) :
    ¬ Executed server delivery command turn state (before :: sent) := by
  intro executed
  cases executed with
  | first arrives accepted =>
      rw [refused] at accepted
      cases accepted
  | later answered accepted executed =>
      rw [refused] at accepted
      cases accepted

theorem executed_cons {command before : κ} {turn : Nat} {state after : σ} {reply : ρ}
    {sent : List κ} (accepted : server before state = some (after, reply)) :
    Executed server delivery command turn state (before :: sent) ↔
      command = before ∧ delivery turn ≠ .lost ∨
        delivery turn = .answered ∧ Executed server delivery command (turn + 1) after sent := by
  constructor
  · intro executed
    cases executed with
    | first arrives handled => exact .inl ⟨rfl, arrives⟩
    | later answered handled executed =>
        rw [accepted] at handled
        obtain ⟨rfl, rfl⟩ := Prod.mk.inj (Option.some.inj handled)
        exact .inr ⟨answered, executed⟩
  · rintro (⟨rfl, arrives⟩ | ⟨answered, executed⟩)
    · exact .first arrives accepted
    · exact .later answered accepted executed

theorem allAnswered_cons {command : κ} {turn : Nat} {state after : σ} {reply : ρ}
    {sent : List κ} (accepted : server command state = some (after, reply)) :
    AllAnswered server delivery turn state (command :: sent) ↔
      delivery turn = .answered ∧ AllAnswered server delivery (turn + 1) after sent := by
  rw [AllAnswered]
  apply and_congr_right
  intro answered
  constructor
  · rintro ⟨other, answer, handled, rest⟩
    rw [accepted] at handled
    obtain ⟨rfl, rfl⟩ := Prod.mk.inj (Option.some.inj handled)
    exact rest
  · exact fun rest => ⟨after, reply, accepted, rest⟩

theorem run_send (command : κ) (next : ρ → Session κ ρ α) (turn : Nat) (state : σ) :
    run server delivery (.send command next) turn state =
      match delivery turn with
      | .lost => (state, .interrupted)
      | .unanswered =>
          match server command state with
          | some (after, _) => (after, .interrupted)
          | none => (state, .interrupted)
      | .answered =>
          match server command state with
          | some (after, reply) => run server delivery (next reply) (turn + 1) after
          | none => (state, .refused) := by
  rw [run]

theorem run_lost {command : κ} {next : ρ → Session κ ρ α} {turn : Nat} {state : σ}
    (lost : delivery turn = .lost) :
    run server delivery (.send command next) turn state = (state, .interrupted) := by
  rw [run_send, lost]

/-- A command without effect leaves the state. -/
theorem run_refused {command : κ} {next : ρ → Session κ ρ α} {turn : Nat} {state : σ}
    (refused : server command state = none) :
    (run server delivery (.send command next) turn state).1 = state ∧
      ∀ result, (run server delivery (.send command next) turn state).2 ≠ .returned result := by
  rw [run_send]
  cases delivery turn <;> simp [refused]

theorem run_unanswered {command : κ} {next : ρ → Session κ ρ α} {turn : Nat} {state after : σ}
    {reply : ρ} (unanswered : delivery turn = .unanswered)
    (handled : server command state = some (after, reply)) :
    run server delivery (.send command next) turn state = (after, .interrupted) := by
  rw [run_send, unanswered]
  simp only [handled]

theorem run_answered {command : κ} {next : ρ → Session κ ρ α} {turn : Nat} {state after : σ}
    {reply : ρ} (answered : delivery turn = .answered)
    (handled : server command state = some (after, reply)) :
    run server delivery (.send command next) turn state =
      run server delivery (next reply) (turn + 1) after := by
  rw [run_send, answered]
  simp only [handled]

end Runs

end Session

end Foundation
