import Mathlib

namespace Foundation

/-! Postconditions of computations that return a value or an error. -/

variable {ε α β : Type}

/-- A returned value satisfies `returned` and an error satisfies `failed`. -/
def Ensures (returned : α → Prop) (failed : ε → Prop) : Except ε α → Prop
  | .ok value => returned value
  | .error error => failed error

namespace Ensures

variable {returned : α → Prop} {next : β → Prop} {failed : ε → Prop}

@[simp] theorem ok_iff (value : α) :
    Ensures returned failed (.ok value) ↔ returned value := Iff.rfl

@[simp] theorem error_iff (error : ε) :
    Ensures returned failed (.error error) ↔ failed error := Iff.rfl

theorem bind {first : Except ε α} {rest : α → Except ε β}
    (head : Ensures returned failed first)
    (tail : ∀ value, returned value → Ensures next failed (rest value)) :
    Ensures next failed (first >>= rest) := by
  cases first with
  | ok value => exact tail value head
  | error error => exact head

/-- A loop whose every turn ensures a postcondition ensures it of each value. -/
theorem mapM {values : List β} {turn : β → Except ε α}
    (each : ∀ value ∈ values, Ensures returned failed (turn value)) :
    Ensures (fun results => ∀ result ∈ results, returned result) failed
      (values.mapM turn) := by
  induction values with
  | nil => simp [Ensures, pure, Except.pure]
  | cons head tail induction =>
      rw [List.mapM_cons]
      refine bind (each head (by simp)) fun first firstHolds => ?_
      refine bind (induction fun value member => each value (by simp [member]))
        fun rest restHolds => ?_
      show ∀ result ∈ first :: rest, returned result
      intro result member
      rcases List.mem_cons.mp member with equal | member
      · exact equal ▸ firstHolds
      · exact restHolds result member

end Ensures

/-! ## Success -/

theorem bind_eq_ok {first : Except ε α} {rest : α → Except ε β} {value : β} :
    (first >>= rest) = .ok value ↔ ∃ inner, first = .ok inner ∧ rest inner = .ok value := by
  cases first with
  | ok inner => simp [Bind.bind, Except.bind]
  | error error => simp [Bind.bind, Except.bind]

/-- A loop whose turns return the values of a function maps it. -/
theorem eq_map_of_mapM {turn : α → Except ε β} {value : α → β} {values : List α}
    {results : List β} (each : ∀ input result, turn input = .ok result → result = value input)
    (runs : values.mapM turn = .ok results) : results = values.map value := by
  induction values generalizing results with
  | nil => exact (Except.ok.inj runs).symm
  | cons input values induction =>
      rw [List.mapM_cons, bind_eq_ok] at runs
      obtain ⟨first, here, runs⟩ := runs
      obtain ⟨later, rest, same⟩ := (bind_eq_ok).mp runs
      obtain rfl := Except.ok.inj same
      rw [List.map_cons, each input first here, induction rest]

theorem mapM_of_ok {turn : α → Except ε β} {value : α → β} {values : List α}
    (each : ∀ input ∈ values, turn input = .ok (value input)) :
    values.mapM turn = .ok (values.map value) := by
  induction values with
  | nil => rfl
  | cons input values induction =>
      have rest := induction fun other member => each other (List.mem_cons_of_mem _ member)
      rw [List.mapM_cons, each input List.mem_cons_self, rest]
      rfl

/-- Every turn of a loop that returns has returned one of the results. -/
theorem result_of_mapM {turn : α → Except ε β} {values : List α} {results : List β}
    (runs : values.mapM turn = .ok results) {input : α} (member : input ∈ values) :
    ∃ result ∈ results, turn input = .ok result := by
  induction values generalizing results with
  | nil => cases member
  | cons first values induction =>
      rw [List.mapM_cons, bind_eq_ok] at runs
      obtain ⟨result, here, runs⟩ := runs
      obtain ⟨later, rest, same⟩ := (bind_eq_ok).mp runs
      obtain rfl := Except.ok.inj same
      cases member with
      | head => exact ⟨result, List.mem_cons_self, here⟩
      | tail _ member =>
          obtain ⟨other, inside, returned⟩ := induction rest member
          exact ⟨other, List.mem_cons_of_mem _ inside, returned⟩

theorem ok_of_mapM {turn : α → Except ε β} {values : List α} {results : List β}
    (runs : values.mapM turn = .ok results) {input : α} (member : input ∈ values) :
    ∃ result, turn input = .ok result := by
  obtain ⟨result, -, returned⟩ := result_of_mapM runs member
  exact ⟨result, returned⟩

theorem turn_of_mapM {turn : α → Except ε β} {values : List α} {results : List β}
    (runs : values.mapM turn = .ok results) {result : β} (member : result ∈ results) :
    ∃ input ∈ values, turn input = .ok result := by
  induction values generalizing results with
  | nil =>
      obtain rfl := Except.ok.inj runs
      cases member
  | cons first values induction =>
      rw [List.mapM_cons, bind_eq_ok] at runs
      obtain ⟨head, here, runs⟩ := runs
      obtain ⟨later, rest, same⟩ := (bind_eq_ok).mp runs
      obtain rfl := Except.ok.inj same
      cases member with
      | head => exact ⟨first, List.mem_cons_self, here⟩
      | tail _ member =>
          obtain ⟨input, inside, returned⟩ := induction rest member
          exact ⟨input, List.mem_cons_of_mem _ inside, returned⟩

/-- A computation that returned a value. -/
def Returns (result : Except ε α) : Prop :=
  ∃ value, result = .ok value

theorem returns_of_toOption {result : Except ε α} (some : result.toOption.isSome = true) :
    Returns result := by
  cases result with
  | ok value => exact ⟨value, rfl⟩
  | error error => cases some

theorem returns_of_isOk {result : Except ε α} (ok : result.isOk = true) : Returns result := by
  cases result with
  | ok value => exact ⟨value, rfl⟩
  | error error => cases ok

theorem eq_ok_of_toOption {result : Except ε α} {value : α}
    (found : result.toOption = some value) : result = .ok value := by
  cases result with
  | ok other => rw [Option.some.inj found]
  | error error => cases found

theorem bind_eq_error {first : Except ε α} {rest : α → Except ε β} {error : ε} :
    (first >>= rest) = .error error ↔
      first = .error error ∨ ∃ value, first = .ok value ∧ rest value = .error error := by
  cases first <;> simp [Bind.bind, Except.bind]

theorem returns_bind {first : Except ε α} {rest : α → Except ε β} :
    Returns (first >>= rest) ↔ ∃ value, first = .ok value ∧ Returns (rest value) := by
  cases first with
  | ok value => simp [Bind.bind, Except.bind]
  | error error => simp [Returns, Bind.bind, Except.bind]

theorem turn_of_foldlM {step : β → α → Except ε β} {values : List α} {start stop : β}
    (runs : values.foldlM step start = .ok stop) {value : α} (member : value ∈ values) :
    ∃ before after, step before value = .ok after := by
  induction values generalizing start with
  | nil => cases member
  | cons first values induction =>
      rw [List.foldlM_cons] at runs
      obtain ⟨next, here, runs⟩ := bind_eq_ok.mp runs
      cases member with
      | head => exact ⟨start, next, here⟩
      | tail _ member => exact induction runs member

/-- A loop that fails has a turn that fails. -/
theorem foldlM_eq_error {step : β → α → Except ε β} {values : List α} {start : β}
    {error : ε} (fails : values.foldlM step start = .error error) :
    ∃ value ∈ values, ∃ before, step before value = .error error := by
  induction values generalizing start with
  | nil => cases fails
  | cons value values ih =>
      rw [List.foldlM_cons] at fails
      cases first : step start value with
      | error other =>
          rw [first] at fails
          obtain rfl := Except.error.inj fails
          exact ⟨value, List.mem_cons_self, start, first⟩
      | ok next =>
          rw [first] at fails
          obtain ⟨later, member, before, fails⟩ := ih fails
          exact ⟨later, List.mem_cons_of_mem _ member, before, fails⟩

end Foundation
