import Marreta.Runtime.NativeQuery

namespace Marreta

open Foundation

/-! What the interpreter recurses into.

An expression or a statement is run by recursion into its constituents: its direct
parts, their parts, and the code inside its strings. -/

/-! ## Parts -/

def Argument.part (argument : Argument) : Call :=
  .expression argument.value

def MatchArm.parts : MatchArm → List Call
  | .mk (.literal pattern) value => [.expression pattern, .expression value]
  | .mk .fallback value => [.expression value]

def TaskBody.parts : TaskBody → List Call
  | .inline value => [.expression value]
  | .block statements result => statements.map .statement ++ [.expression result]

def RescueHandler.parts : RescueHandler → List Call
  | .inline value => [.expression value]
  | .block statements => statements.map .statement

def optionalPart (value : Option Expression) : List Call :=
  value.toList.map .expression

def MapStatement.parts : MapStatement → List Call
  | .statement value => [.statement value]
  | .keep value condition => .expression value :: optionalPart condition
  | .skip condition => [.expression condition]

def PipelineStage.parts : PipelineStage → List Call
  | .expression value => [.expression value]
  | .map _ body => body.flatMap MapStatement.parts
  | .reduce initial _ _ body => .expression initial :: body.parts
  | .rescue handler => handler.parts

def Expression.parts : Expression → List Call
  | .integer _ | .float _ | .stringLiteral _ | .boolean _ | .null | .identifier _
  | .taskCall _ => []
  | .list items => items.map .expression
  | .mapLiteral pairs | .schemaConstructor _ pairs => pairs.map fun pair => .expression pair.2
  | .binaryOp left _ right => [.expression left, .expression right]
  | .unaryOp _ operand => [.expression operand]
  | .propertyAccess object _ => [.expression object]
  | .methodCall object _ arguments => .expression object :: arguments.map Argument.part
  | .httpClientResponseSchema call _ => [.expression call]
  | .functionCall _ arguments => arguments.map Argument.part
  | .matchOn subject arms => .expression subject :: arms.flatMap MatchArm.parts
  | .ifElse condition thenBranch elseBranch =>
      .expression condition :: thenBranch.parts ++ elseBranch.toList.flatMap TaskBody.parts
  | .subscript object key => [.expression object, .expression key]
  | .pipeline input stages => .expression input :: stages.flatMap PipelineStage.parts
  | .broadcast input targets => .expression input :: targets.map .expression
  | .rescue expr handler => [.expression expr, .expression handler]
  | .queuePush target _ payload | .topicPublish target _ payload =>
      .expression target :: optionalPart payload

/-- Declarations have no parts that run where they stand. -/
def Statement.parts : Statement → List Call
  | .assignment _ value _ _ => [.expression value]
  | .conditionalAssignment _ value condition _ _ => [.expression condition, .expression value]
  | .require condition _ _ _ _ | .reject condition _ _ _ _ => [.expression condition]
  | .while condition body _ _ => .expression condition :: body.map .statement
  | .expressionStatement expression _ _ => [.expression expression]
  | .reply statusCode _ body _ extraHeaders _ _ =>
      .expression statusCode :: .expression body :: optionalPart extraHeaders
  | .fail _ message _ _ => [.expression message]
  | .raise message condition _ _ => .expression message :: optionalPart condition
  | .export statement => [.statement statement]
  | .transaction body _ _ => body.map .statement
  | .nack _ condition _ _ => optionalPart condition
  | .taskDef .. | .route .. | .schema .. | .authProvider .. | .onQueue .. | .onTopic ..
  | .scenario .. => []

def Call.parts : Call → List Call
  | .expression value => value.parts
  | .statement value => value.parts

/-- A set of calls with the parts of its members. -/
structure Hereditary (allowed : Call → Prop) : Prop where
  parts : ∀ call, allowed call → ∀ part ∈ call.parts, allowed part

/-- The expression that a text is read as is allowed. -/
def AllowsCode (allowed : Call → Prop) (source : List Char) : Prop :=
  ∀ value, sourceExpression source = .ok (some value) → allowed (.expression value)

/-! ## Actions -/

namespace Action

/-- Every call that the action can make is allowed, in each of its branches.  Bodies of
tasks are not looked into: they are written elsewhere. -/
def Makes (allowed : Call → Prop) : {α : Type} → Action α → Prop
  | _, .bind first next => Makes allowed first ∧ ∀ value, Makes allowed (next value)
  | _, .attempt body | _, .branch body | _, .element _ body | _, .rescue _ _ body
  | _, .isolated body | _, .spawned body | _, .transaction body => Makes allowed body
  | _, .call target => allowed target
  | _, _ => True

/-- A read that sees neither what has been logged nor which transaction is open. -/
def Blind {α : Type} (part : Interpreter → α) : Prop :=
  ∀ state activeTx log, part { state with activeTx, log } = part state

/-- The line that `print` writes. -/
def printedLine (host : Host) (arguments : List Value) : String :=
  String.intercalate " " (arguments.map host.library.display)

/-- Lines that may be written.  What `print` writes is among them. -/
structure Lines (host : Host) where
  contains : String → Prop
  print (arguments : List Value) : contains (printedLine host arguments)

namespace Lines

def any (host : Host) : Lines host where
  contains _ := True
  print _ := trivial

def printed (host : Host) : Lines host where
  contains line := ∃ arguments, line = printedLine host arguments
  print arguments := ⟨arguments, rfl⟩

end Lines

/-- What is asked for is no line, or one that may be written. -/
def Unlogged {host : Host} (lines : Lines host) : Request → Prop
  | .writeLine line => lines.contains line
  | _ => True

/-- The action makes allowed calls, reads blindly and writes none but the lines.  Bodies of tasks
are held to the same, whatever they call. -/
def Built {host : Host} (lines : Lines host) : (Call → Prop) → {α : Type} → Action α → Prop
  | allowed, _, .bind first next =>
      Built lines allowed first ∧ ∀ value, Built lines allowed (next value)
  | allowed, _, .attempt body | allowed, _, .branch body | allowed, _, .element _ body
  | allowed, _, .rescue _ _ body | allowed, _, .isolated body | allowed, _, .spawned body
  | allowed, _, .transaction body => Built lines allowed body
  | _, _, .task _ body | _, _, .fork _ _ _ body => Built lines (fun _ => True) body
  | _, _, .reads part => Blind part
  | _, _, .ask request => Unlogged lines request
  | allowed, _, .call target => allowed target
  | _, _, _ => True

theorem Built.makes {host : Host} {lines : Lines host} {allowed : Call → Prop} {α : Type}
    {action : Action α} (built : action.Built lines allowed) : action.Makes allowed := by
  induction action with
  | bind first next firstMakes nextMakes =>
      exact ⟨firstMakes built.1, fun value => nextMakes value (built.2 value)⟩
  | attempt body bodyMakes => exact bodyMakes built
  | branch body bodyMakes => exact bodyMakes built
  | element bindings body bodyMakes => exact bodyMakes built
  | rescue frames error body bodyMakes => exact bodyMakes built
  | isolated body bodyMakes => exact bodyMakes built
  | spawned body bodyMakes => exact bodyMakes built
  | transaction body bodyMakes => exact bodyMakes built
  | call target => exact built
  | _ => trivial

/-- The run of the action from a state makes the call, outside of tasks, where the
interpreter is in a given state. -/
def Executes (host : Host) (calls : Call → Run Interpreter Fault Value) :
    {α : Type} → Action α → Interpreter → Call → Interpreter → Prop
  | _, .bind first next, state, made, reached =>
      Executes host calls first state made reached ∨
        ∃ value after, run host calls first state = (.ok value, after) ∧
          Executes host calls (next value) after made reached
  | _, .attempt body, state, made, reached | _, .branch body, state, made, reached =>
      Executes host calls body state made reached
  | _, .element bindings body, state, made, reached =>
      Executes host calls body (state.enterScope bindings) made reached
  | _, .rescue frames error body, state, made, reached =>
      Executes host calls body (state.enterRescue frames error) made reached
  | _, .isolated body, state, made, reached | _, .spawned body, state, made, reached =>
      state.insideTransaction = false ∧ Executes host calls body state.enterBranch made reached
  | _, .transaction body, state, made, reached =>
      state.insideTransaction = false ∧ host.hasDb = true ∧
        (∃ opened, host.begin state.log = .ok opened) ∧
        Executes host calls body state.enterTransaction made reached
  | _, .call target, state, made, reached => made = target ∧ reached = state
  | _, _, _, _, _ => False

theorem allowed_of_makes {allowed : Call → Prop} {host : Host}
    {calls : Call → Run Interpreter Fault Value} {α : Type} {action : Action α}
    (makes : action.Makes allowed) {state reached : Interpreter} {made : Call}
    (executes : action.Executes host calls state made reached) : allowed made := by
  induction action generalizing state with
  | bind first next firstAllowed nextAllowed =>
      rw [Makes] at makes
      rw [Executes] at executes
      rcases executes with executes | ⟨value, after, -, executes⟩
      · exact firstAllowed makes.1 executes
      · exact nextAllowed value (makes.2 value) executes
  | attempt body bodyAllowed => exact bodyAllowed makes executes
  | branch body bodyAllowed => exact bodyAllowed makes executes
  | element bindings body bodyAllowed => exact bodyAllowed makes executes
  | rescue frames error body bodyAllowed => exact bodyAllowed makes executes
  | isolated body bodyAllowed => exact bodyAllowed makes executes.2
  | spawned body bodyAllowed => exact bodyAllowed makes executes.2
  | transaction body bodyAllowed => exact bodyAllowed makes executes.2.2.2
  | call target =>
      obtain ⟨rfl, -⟩ := executes
      exact makes
  | pure value => cases executes
  | raise error => cases executes
  | abort cause => cases executes
  | stop signal => cases executes
  | reads part => cases executes
  | moveTo line column => cases executes
  | assign name value => cases executes
  | define name value => cases executes
  | ask request => cases executes
  | db op => cases executes
  | task entry body => cases executes
  | fork owner base entry body => cases executes

theorem allowed_of_executes {allowed : Call → Prop} {host : Host}
    {calls : Call → Run Interpreter Fault Value} {α : Type} {action : Action α}
    (built : action.Built (Lines.any host) allowed) {state reached : Interpreter} {made : Call}
    (executes : action.Executes host calls state made reached) : allowed made :=
  allowed_of_makes built.makes executes

/-! ### What is read -/

@[simp, grind .] theorem blind_env : Blind Interpreter.env :=
  fun _ _ _ => rfl

@[simp] theorem blind_variable (name : String) :
    Blind fun state => state.env.get name :=
  fun _ _ _ => rfl

@[simp, grind .] theorem blind_currentModule : Blind Interpreter.currentModule :=
  fun _ _ _ => rfl

@[simp, grind .] theorem blind_callDepth : Blind Interpreter.callDepth :=
  fun _ _ _ => rfl

@[simp, grind .] theorem blind_frames : Blind (·.traceFrames.length) :=
  fun _ _ _ => rfl

@[simp, grind .] theorem blind_insideTransaction : Blind Interpreter.insideTransaction :=
  fun _ _ _ => rfl

theorem blind_position : Blind Interpreter.position :=
  fun _ _ _ => rfl

@[simp, grind .] theorem unlogged_any {host : Host} (request : Request) :
    Unlogged (Lines.any host) request := by
  cases request <;> trivial

section Built

attribute [simp, grind =] Unlogged

variable {host : Host} {lines : Lines host} {allowed : Call → Prop} {α β : Type}

@[simp, grind =] theorem built_bind (first : Action α) (next : α → Action β) :
    Built lines allowed (first >>= next) ↔
      Built lines allowed first ∧ ∀ value, Built lines allowed (next value) := Iff.rfl

@[simp, grind =] theorem built_return (value : α) :
    Built lines allowed (Pure.pure value : Action α) ↔ True := Iff.rfl

@[simp, grind =] theorem built_pure (value : α) :
    Built lines allowed (.pure value : Action α) ↔ True := Iff.rfl

@[simp, grind =] theorem built_raise (error : MarretaError) :
    Built lines allowed (.raise error : Action α) ↔ True := Iff.rfl

@[simp, grind =] theorem built_abort (cause : Abort) :
    Built lines allowed (.abort cause : Action α) ↔ True := Iff.rfl

@[simp, grind =] theorem built_stop (signal : StopSignal) :
    Built lines allowed (.stop signal : Action α) ↔ True := Iff.rfl

@[simp, grind =] theorem built_reads (part : Interpreter → α) :
    Built lines allowed (.reads part) ↔ Blind part := Iff.rfl

@[simp, grind =] theorem built_ask (request : Request) :
    Built lines allowed (.ask request) ↔ Unlogged lines request := Iff.rfl

@[simp, grind =] theorem built_db (op : DbOp) : Built lines allowed (.db op) ↔ True := Iff.rfl

@[simp, grind =] theorem built_attempt (body : Action α) :
    Built lines allowed (.attempt body) ↔ Built lines allowed body := Iff.rfl

@[simp, grind =] theorem built_task (entry : TaskEntry) (body : Action α) :
    Built lines allowed (.task entry body) ↔ Built lines (fun _ => True) body := Iff.rfl

@[simp, grind =] theorem built_fork (owner : String) (base : Option Environment)
    (entry : TaskEntry) (body : Action α) :
    Built lines allowed (.fork owner base entry body) ↔ Built lines (fun _ => True) body := Iff.rfl

@[simp, grind =] theorem built_eval (value : Expression) :
    Built lines allowed (eval value) ↔ allowed (.expression value) := Iff.rfl

@[simp, grind =] theorem built_exec (value : Statement) :
    Built lines allowed (exec value) ↔ allowed (.statement value) := Iff.rfl

@[simp, grind .] theorem built_position : Built lines allowed position :=
  blind_position

@[simp, grind .] theorem built_typeError (message : String) :
    Built lines allowed (typeError message : Action α) :=
  ⟨built_position, fun _ => trivial⟩

@[simp, grind .] theorem built_runtimeError (message : String) :
    Built lines allowed (runtimeError message : Action α) :=
  ⟨built_position, fun _ => trivial⟩

@[simp, grind .] theorem built_wrongArity (taskName : String) (expected got : Nat) :
    Built lines allowed (wrongArity taskName expected got : Action α) :=
  ⟨built_position, fun _ => trivial⟩

@[simp, grind .] theorem built_propertyNotFound (objectType property : String) :
    Built lines allowed (propertyNotFound objectType property : Action α) :=
  ⟨built_position, fun _ => trivial⟩

@[simp, grind .] theorem built_orTypeError (message : String) (value : Option α) :
    Built lines allowed (orTypeError message value) := by
  unfold orTypeError
  grind

@[simp, grind .] theorem built_ofExcept (value : Except MarretaError α) :
    Built lines allowed (ofExcept value) := by
  unfold ofExcept
  grind

@[simp, grind .] theorem built_ofLibrary (value : Except LibraryFault α) :
    Built lines allowed (ofLibrary value) := by
  unfold ofLibrary
  grind

/-! ### Loops -/

theorem built_mapM {values : List α} {turn : α → Action β}
    (each : ∀ value ∈ values, Built lines allowed (turn value)) :
    Built lines allowed (values.mapM turn) := by
  have loop : ∀ results, Built lines allowed (List.mapM.loop turn values results) := by
    induction values with
    | nil => exact fun _ => trivial
    | cons value rest induction =>
        intro results
        constructor
        · exact each value List.mem_cons_self
        · intro result
          exact induction (fun other member => each other (List.mem_cons_of_mem _ member)) _
  exact loop []

theorem built_foldlM {values : List α} {turn : β → α → Action β}
    (each : ∀ value ∈ values, ∀ before, Built lines allowed (turn before value)) (start : β) :
    Built lines allowed (values.foldlM turn start) := by
  induction values generalizing start with
  | nil => trivial
  | cons value rest induction =>
      constructor
      · exact each value List.mem_cons_self start
      · exact induction fun other member => each other (List.mem_cons_of_mem _ member)

theorem built_forM {values : List α} {turn : α → Action Unit}
    (each : ∀ value ∈ values, Built lines allowed (turn value)) :
    Built lines allowed (values.forM turn) := by
  induction values with
  | nil => trivial
  | cons value rest induction =>
      constructor
      · exact each value List.mem_cons_self
      · intro _
        exact induction fun other member => each other (List.mem_cons_of_mem _ member)

theorem built_block {statements : List Statement}
    (each : ∀ statement ∈ statements, allowed (.statement statement)) :
    Built lines allowed (block statements) := by
  apply built_forM
  intro statement member
  exact ⟨each statement member, fun _ => trivial⟩

end Built

end Action

/-! ## Arguments, tasks and strings -/

section Functions

open Marreta.Action

variable {host : Host} {lines : Lines host} {allowed : Call → Prop}

variable (lines) in
theorem built_evaluateArgs {arguments : List Argument}
    (each : ∀ argument ∈ arguments, allowed argument.part) :
    Built lines allowed (evaluateArgs arguments) :=
  built_mapM each

variable (lines) in
theorem built_collectNamedAndPositional {arguments : List Argument}
    (each : ∀ argument ∈ arguments, allowed argument.part) (injected : Option Value) :
    Built lines allowed (collectNamedAndPositional arguments injected) := by
  apply built_foldlM
  intro argument member collected
  constructor
  · exact each argument member
  · intro value
    cases argument with
    | positional _ => trivial
    | named _ _ => trivial

@[simp, grind .] theorem built_ensureNoNamedArgs (named : List (String × Value))
    (method : String) : Built lines allowed (ensureNoNamedArgs named method) := by
  unfold ensureNoNamedArgs
  grind

variable (lines) in
theorem built_extractNamedStringArg {arguments : List Argument}
    (each : ∀ argument ∈ arguments, allowed argument.part) (key : String) :
    Built lines allowed (extractNamedStringArg arguments key) := by
  unfold extractNamedStringArg
  split
  · trivial
  · rename_i argument found
    constructor
    · exact each argument (List.mem_of_find?_eq_some found)
    · intro value
      grind

@[simp, grind .] theorem built_coerceArgument (task : TaskValue) (schemas : Schemas)
    (param : ParamDef) (argument : Value) :
    Built lines allowed (coerceArgument host task schemas param argument) := by
  unfold coerceArgument
  grind

@[simp, grind .] theorem built_coerceArguments (task : TaskValue) (schemas : Schemas)
    (arguments : List (ParamDef × Value)) :
    Built lines allowed (coerceArguments host task schemas arguments) := by
  induction arguments with
  | nil => trivial
  | cons first rest induction =>
      unfold coerceArguments
      grind

theorem built_runBody {body : TaskBody} (each : ∀ part ∈ body.parts, allowed part) :
    Built lines allowed (runBody body) := by
  cases body with
  | inline value => exact each _ (List.mem_singleton_self _)
  | block statements result =>
      constructor
      · apply built_block
        intro statement member
        exact each _ (List.mem_append_left _ (List.mem_map_of_mem member))
      · intro _
        exact each _ (List.mem_append_right _ (List.mem_singleton_self _))

@[simp, grind .] theorem built_taskBody (body : TaskBody) :
    Built lines (fun _ => True) (runBody body) :=
  built_runBody fun _ _ => trivial

@[simp, grind .] theorem built_callTaskValue (callee : Value) (arguments : List Value)
    (callName : String) : Built lines allowed (callTaskValue host callee arguments callName) := by
  unfold callTaskValue
  split
  · split
    · exact built_wrongArity _ _ _
    · refine ⟨blind_currentModule, fun currentModule => ⟨built_coerceArguments _ _ _, ?_⟩⟩
      refine fun bindings => ⟨blind_callDepth, fun callDepth => ?_⟩
      dsimp only
      split
      · exact built_runtimeError _
      · split
        · exact built_taskBody _
        · exact built_taskBody _
  · exact ⟨built_position, fun _ => trivial⟩

@[simp, grind .] theorem built_print (arguments : List Value) :
    Built lines allowed (print host arguments) := by
  refine ⟨lines.print arguments, fun written => ?_⟩
  cases written with
  | ok done => trivial
  | error message => trivial

@[simp, grind .] theorem built_builtinDecimal (arguments : List Value) :
    Built lines allowed (builtinDecimal host arguments) := by
  unfold builtinDecimal
  grind

@[simp, grind .] theorem built_builtinLen (arguments : List Value) :
    Built lines allowed (builtinLen arguments) := by
  unfold builtinLen
  grind

@[simp, grind .] theorem built_builtinRange (arguments : List Value) :
    Built lines allowed (builtinRange arguments) := by
  unfold builtinRange
  grind

@[simp, grind .] theorem built_builtinType (arguments : List Value) :
    Built lines allowed (builtinType arguments) := by
  unfold builtinType
  grind

theorem built_builtinFunction {name : String} {arguments : List Value} {result : Action Value}
    (builtin : builtinFunction host name arguments = some result) : Built lines allowed result := by
  unfold builtinFunction at builtin
  split at builtin
  · obtain rfl := Option.some.inj builtin
    trivial
  · obtain rfl := Option.some.inj builtin
    exact built_print arguments
  · obtain rfl := Option.some.inj builtin
    exact built_builtinType arguments
  · obtain rfl := Option.some.inj builtin
    exact built_builtinDecimal arguments
  · obtain rfl := Option.some.inj builtin
    exact built_builtinLen arguments
  · obtain rfl := Option.some.inj builtin
    exact built_builtinRange arguments
  · cases builtin

@[simp, grind .] theorem built_callFunction (name : String) (arguments : List Value) :
    Built lines allowed (callFunction host name arguments) := by
  unfold callFunction
  split
  · rename_i result builtin
    exact built_builtinFunction builtin
  · refine ⟨blind_variable name, fun found => ?_⟩
    cases found with
    | none => exact ⟨built_position, fun _ => trivial⟩
    | some callee => exact built_callTaskValue callee arguments name

theorem built_evaluateSourceExpression {source : List Char} (allows : AllowsCode allowed source) :
    Built lines allowed (evaluateSourceExpression source) := by
  unfold evaluateSourceExpression
  dsimp only
  split
  · rename_i value parsed
    exact allows value parsed
  · exact built_typeError _
  · exact built_typeError _
  · trivial
  · trivial

theorem trim_mem_holes {parts : List TemplatePart} {source : List Char}
    (member : .code source ∈ parts) : Text.trim source ∈ holes parts := by
  induction parts with
  | nil => cases member
  | cons part rest induction =>
      cases part with
      | char char =>
          cases member with
          | tail _ member => exact induction member
      | code other =>
          cases member with
          | head => exact List.mem_cons_self
          | tail _ member => exact List.mem_cons_of_mem _ (induction member)

theorem built_interpolateString {text : String}
    (allows : ∀ hole ∈ templateHoles text, AllowsCode allowed hole) :
    Built lines allowed (interpolateString host text) := by
  unfold interpolateString
  split
  · constructor
    · apply built_mapM
      intro part member
      cases part with
      | char char => trivial
      | code source =>
          constructor
          · exact built_evaluateSourceExpression (allows _ (trim_mem_holes member))
          · intro value
            cases value with
            | ok value => trivial
            | error error => trivial
    · exact fun _ => trivial
  · trivial

theorem built_extractNativeQueryParams {template : String}
    (allows : ∀ hole ∈ templateHoles template, AllowsCode allowed hole) :
    Built lines allowed (extractNativeQueryParams template) := by
  rw [extractNativeQueryParams_eq]
  split
  · apply built_foldlM
    intro part member before
    cases part with
    | char char => trivial
    | code source =>
        constructor
        · exact built_evaluateSourceExpression (allows _ (trim_mem_holes member))
        · exact fun _ => trivial
  · trivial

end Functions
end Marreta
