import Marreta.Syntax.Parser

namespace Marreta

/-! What the parser lets a file export: tasks, schemas and variables, so neither routes nor
exports. -/

namespace Parser

section Yields

variable {α β : Type}

/-- Every value that the parser returns has the property. -/
def Yields (holds : α → Prop) (parser : Parser α) : Prop :=
  ∀ state value after, parser state = .ok (value, after) → holds value

namespace Yields

variable {holds : α → Prop} {later : β → Prop}

theorem bind {first : Parser α} {next : α → Parser β} (head : Yields holds first)
    (rest : ∀ value, holds value → Yields later (next value)) : Yields later (first >>= next) := by
  intro state value after runs
  change (first state >>= fun pair => next pair.1 pair.2) = _ at runs
  cases starts : first state with
  | error error =>
      rw [starts] at runs
      cases runs
  | ok pair =>
      rw [starts] at runs
      exact rest pair.1 (head state pair.1 pair.2 starts) pair.2 value after runs

/-- What is returned at the end counts. -/
theorem last {first : Parser α} {next : α → Parser β}
    (rest : ∀ value, Yields later (next value)) : Yields later (first >>= next) :=
  bind (fun _ _ _ _ => trivial : Yields (fun _ => True) first) fun value _ => rest value

theorem pure {value : α} (known : holds value) : Yields holds (Pure.pure value) := by
  intro state other after runs
  cases runs
  exact known

theorem raise {error : MarretaError} : Yields holds (raise error : Parser α) := by
  intro state other after runs
  cases runs

theorem collectWhile {continues : Parser Bool} {item : Parser α} (each : Yields holds item)
    (fuel : Nat) :
    Yields (fun values => ∀ value ∈ values, holds value) (collectWhile continues item fuel) := by
  induction fuel with
  | zero =>
      intro state values after runs
      cases runs
  | succ fuel ih =>
      rw [Parser.collectWhile]
      refine last fun goesOn => ?_
      split
      · refine bind each fun head first => bind ih fun tail others => pure ?_
        exact List.forall_mem_cons.mpr ⟨first, others⟩
      · exact pure fun value member => absurd member List.not_mem_nil

theorem many {continues : Parser Bool} {item : Parser α} (each : Yields holds item) :
    Yields (fun values => ∀ value ∈ values, holds value) (many continues item) :=
  last fun fuel => collectWhile each fuel

end Yields
end Yields

/-- A statement that is neither a route nor an export. -/
def isExportable : Statement → Bool
  | .export _ | .route .. => false
  | _ => true

/-- An export, if it is one, of an exportable statement. -/
def exportsExportable : Statement → Bool
  | .export statement => isExportable statement
  | _ => true

section Statements

variable (self : Productions)

theorem yields_parseTaskDef : Yields (isExportable · = true) (parseTaskDef self) := by
  unfold parseTaskDef
  repeat' first
    | exact Yields.pure rfl
    | refine Yields.last fun _ => ?_

theorem yields_parseSchema : Yields (isExportable · = true) (parseSchema self) := by
  unfold parseSchema
  repeat' first
    | exact Yields.pure rfl
    | refine Yields.last fun _ => ?_

theorem yields_parseAssignment : Yields (isExportable · = true) (parseAssignment self) := by
  unfold parseAssignment
  repeat' first
    | exact Yields.pure rfl
    | refine Yields.last fun _ => ?_
    | split

theorem yields_export {inner : Parser Statement} (known : Yields (isExportable · = true) inner) :
    Yields (exportsExportable · = true) (do
      let statement ← inner
      return .export statement) := by
  refine Yields.bind known fun statement exportable => Yields.pure ?_
  exact exportable

theorem yields_parseExport : Yields (exportsExportable · = true) (parseExport self) := by
  unfold parseExport
  refine Yields.last fun token => Yields.last fun _ => Yields.last fun next => ?_
  split
  · exact yields_export (yields_parseTaskDef self)
  · exact yields_export (yields_parseSchema self)
  · refine Yields.last fun reserved => Yields.last fun peeked => ?_
    repeat' first
      | exact yields_export (yields_parseAssignment self)
      | exact Yields.raise
      | split

/-- The other statements are no exports. -/
theorem yields_parseStatement : Yields (exportsExportable · = true) (parseStatement self) := by
  unfold parseStatement
  refine Yields.last fun kind => ?_
  split
  case h_9 => exact yields_parseExport self
  all_goals
    repeat' first
      | exact Yields.raise
      | exact Yields.pure rfl
      | refine Yields.last fun _ => ?_
      | split
      | dsimp only

theorem yields_parseProgram (depth : Nat) :
    Yields (fun program => ∀ statement ∈ program, exportsExportable statement = true)
      (parseProgram (productions depth)) := by
  refine Yields.last fun _ => Yields.many ?_
  cases depth with
  | zero =>
      intro state statement after runs
      cases runs
  | succ depth =>
      refine Yields.bind (yields_parseStatement (productions depth)) fun statement known => ?_
      exact Yields.last fun _ => Yields.pure known

end Statements

end Parser

/-- No file exports a route. -/
theorem exportsExportable_of_parseSource {source : List Char} {program : Program}
    (parses : parseSource source = .ok program) :
    ∀ statement ∈ program, Parser.exportsExportable statement = true := by
  rw [parseSource] at parses
  cases lexed : tokenize source with
  | error error =>
      rw [lexed] at parses
      cases parses
  | ok tokens =>
      rw [lexed] at parses
      change parse tokens = .ok program at parses
      rw [parse] at parses
      cases runs : Parser.parseProgram (Parser.productions (parseDepth tokens)) (.new tokens) with
      | error error =>
          rw [runs] at parses
          cases parses
      | ok pair =>
          rw [runs] at parses
          obtain rfl := Except.ok.inj parses
          exact Parser.yields_parseProgram _ _ pair.1 pair.2 runs

end Marreta
