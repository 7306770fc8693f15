import Marreta.Runtime.Nacks
import Marreta.Server.InputSchemas

namespace Marreta

open Foundation

/-! Consumers and the broker.

The loop of the driver reads a delivery from the broker, hands it over to the consumer
and waits for the answer, which it writes on the channel the delivery came from.  The
consumer checks the payload, runs the handler and leaves its answer in the slot of the
delivery.  A slot that is dropped without an answer counts as a rejection. -/

inductive Answer where
  | ack
  | nack (requeue : Bool)
deriving DecidableEq

/-- One run of the handler: the engine around it and the depth of its recursion. -/
structure Execution where
  host : Host
  depth : Nat

/-- What becomes of a delivery in the consumer. -/
inductive HandlerEnd where
  | answered (answer : Answer)
  /-- The thread of the consumer unwinds. -/
  | panicked
  /-- The handler is still running. -/
  | unfinished
deriving DecidableEq

namespace HandlerEnd

def ofResult : Except Fault Unit → HandlerEnd
  | .ok _ => .answered .ack
  | .error (.error (.nackSignal requeue)) => .answered (.nack requeue)
  | .error (.error _) => .answered (.nack false)
  | .error (.panic _) => .panicked
  | .error .exhausted => .unfinished

end HandlerEnd

section Consumer

variable (server : ServerContext) (runtime : ProjectRuntime) (consumer : ConsumerDefinition)
  (queueName : String)

/-- The turn of the consumer's loop for one delivery. -/
def handleDelivery (execution : Execution) (delivery : Delivery) : HandlerEnd :=
  match startConsumer server runtime consumer queueName delivery with
  | .error _ => .answered (.nack false)
  | .ok start =>
      .ofResult (runAction execution.host execution.depth (Action.block consumer.body) start).1

/-! ## The two loops -/

inductive DriverState where
  | reading
  | waiting (number : Nat)
  | stopped
deriving DecidableEq

inductive ConsumerState where
  | idle
  | handling (number : Nat)
  | unwinding
  | gone
deriving DecidableEq

/-- The slot of the delivery the driver waits for. -/
inductive Slot where
  | pending
  | decided (answer : Answer) (execution : Execution)
  | dropped (execution : Option Execution)

/-- An answer on the wire, with the run of the handler that it comes from. -/
structure WireAnswer where
  number : Nat
  answer : Answer
  execution : Option Execution

structure Exchange where
  /-- The deliveries read from the broker. -/
  taken : List Delivery
  wire : List WireAnswer
  driver : DriverState
  slot : Slot
  /-- The deliveries on their way to the consumer. -/
  buffer : List Nat
  consumer : ConsumerState

namespace Exchange

def start : Exchange :=
  { taken := [], wire := [], driver := .reading, slot := .pending, buffer := [], consumer := .idle }

/-- A delivery is read and handed over. -/
def read (exchange : Exchange) (delivery : Delivery) : Exchange :=
  { exchange with
    taken := exchange.taken ++ [delivery]
    driver := .waiting exchange.taken.length
    slot := .pending
    buffer := exchange.buffer ++ [exchange.taken.length] }

/-- A delivery is read and there is no consumer any more. -/
def refuse (exchange : Exchange) (delivery : Delivery) : Exchange :=
  { exchange with
    taken := exchange.taken ++ [delivery]
    wire := exchange.wire ++
      [{ number := exchange.taken.length, answer := .nack true, execution := none }]
    driver := .stopped }

def answer (exchange : Exchange) (number : Nat) (answer : Answer) (execution : Option Execution) :
    Exchange :=
  { exchange with
    wire := exchange.wire ++ [{ number, answer, execution }]
    driver := .reading }

/-- The receiver goes, with what is on its way. -/
def leave (exchange : Exchange) : Exchange :=
  { exchange with
    consumer := .gone
    slot := if exchange.buffer = [] then exchange.slot else .dropped none
    buffer := [] }

end Exchange

/-- The steps of the two loops, in any order.  `allowed` restricts the runs of the
handler. -/
inductive Exchange.Step (allowed : Execution → Delivery → Prop) : Exchange → Exchange → Prop where
  | read {exchange : Exchange} (delivery : Delivery) (reading : exchange.driver = .reading)
      (receiver : exchange.consumer ≠ .gone) : Step allowed exchange (exchange.read delivery)
  | refuse {exchange : Exchange} (delivery : Delivery) (reading : exchange.driver = .reading)
      (gone : exchange.consumer = .gone) : Step allowed exchange (exchange.refuse delivery)
  | close {exchange : Exchange} (reading : exchange.driver = .reading) :
      Step allowed exchange { exchange with driver := .stopped }
  | receive {exchange : Exchange} {number : Nat} {rest : List Nat} (idle : exchange.consumer = .idle)
      (next : exchange.buffer = number :: rest) :
      Step allowed exchange { exchange with consumer := .handling number, buffer := rest }
  | decide {exchange : Exchange} {number : Nat} {delivery : Delivery} (execution : Execution)
      {answer : Answer} (handling : exchange.consumer = .handling number)
      (found : exchange.taken[number]? = some delivery) (admitted : allowed execution delivery)
      (ends : handleDelivery server runtime consumer queueName execution delivery =
        .answered answer) :
      Step allowed exchange
        { exchange with consumer := .idle, slot := .decided answer execution }
  | panic {exchange : Exchange} {number : Nat} {delivery : Delivery} (execution : Execution)
      (handling : exchange.consumer = .handling number)
      (found : exchange.taken[number]? = some delivery) (admitted : allowed execution delivery)
      (ends : handleDelivery server runtime consumer queueName execution delivery = .panicked) :
      Step allowed exchange
        { exchange with consumer := .unwinding, slot := .dropped (some execution) }
  | leave {exchange : Exchange}
      (free : exchange.consumer = .idle ∨ exchange.consumer = .unwinding) :
      Step allowed exchange exchange.leave
  | answer {exchange : Exchange} {number : Nat} {answer : Answer} {execution : Execution}
      (waiting : exchange.driver = .waiting number)
      (decided : exchange.slot = .decided answer execution) :
      Step allowed exchange (exchange.answer number answer (some execution))
  | giveUp {exchange : Exchange} {number : Nat} {execution : Option Execution}
      (waiting : exchange.driver = .waiting number) (dropped : exchange.slot = .dropped execution) :
      Step allowed exchange (exchange.answer number (.nack false) execution)

/-! ## What the answers should be -/

/-- The payload has the schema that the consumer declares. -/
def PassesSchema (delivery : Delivery) : Prop :=
  ∀ name, consumer.schema = some name → ∃ schema value,
    runtime.resolveSchema consumer.moduleId name = some schema ∧
      coercePayload server.formats delivery.payload schema
        (runtime.visibleSchemasFor consumer.moduleId) = .ok value

/-- The handler runs to its end without an error. -/
def RunsToEnd (execution : Execution) (delivery : Delivery) : Prop :=
  ∃ start, startConsumer server runtime consumer queueName delivery = .ok start ∧
    (runAction execution.host execution.depth (Action.block consumer.body) start).1 = .ok ()

/-- The handler executes a `nack`, or a `nack requeue`. -/
def HandlerNacks (execution : Execution) (delivery : Delivery) (requeue : Bool) : Prop :=
  ∃ start, startConsumer server runtime consumer queueName delivery = .ok start ∧
    (Action.block consumer.body).Nacks execution.host execution.depth requeue start

/-- Nothing in the handler keeps a `nack` for itself. -/
def HandlerPasses (execution : Execution) (delivery : Delivery) : Prop :=
  ∀ start, startConsumer server runtime consumer queueName delivery = .ok start →
    (Action.block consumer.body).PassesNacks execution.host execution.depth start

/-- The answer to one delivery. -/
structure RightAnswer (exchange : Exchange) (delivery : Delivery) (entry : WireAnswer) : Prop where
  acked : entry.answer = .ack ↔ ∃ execution, entry.execution = some execution ∧
    PassesSchema server runtime consumer delivery ∧
    RunsToEnd server runtime consumer queueName execution delivery ∧
    ∀ requeue, ¬ HandlerNacks server runtime consumer queueName execution delivery requeue
  rejected : ∀ execution, entry.execution = some execution → ∀ requeue,
    HandlerNacks server runtime consumer queueName execution delivery requeue →
      entry.answer = .nack requeue
  requeued : entry.answer = .nack true →
    (∃ execution, entry.execution = some execution ∧
      HandlerNacks server runtime consumer queueName execution delivery true) ∨
    exchange.consumer = .gone ∧ exchange.driver = .stopped ∧
      entry.number + 1 = exchange.taken.length

/-- Every delivery read so far has one answer, the right one; only the delivery that
the driver waits for has none yet, and it gets one when the handler ends. -/
structure Acknowledged (exchange : Exchange) : Prop where
  once : exchange.wire.map (·.number) = List.range exchange.wire.length
  all : exchange.taken.length = exchange.wire.length ∧
      (∀ number, exchange.driver ≠ .waiting number) ∨
    exchange.taken.length = exchange.wire.length + 1 ∧
      exchange.driver = .waiting exchange.wire.length
  answers : ∀ entry ∈ exchange.wire, ∃ delivery, exchange.taken[entry.number]? = some delivery ∧
    RightAnswer server runtime consumer queueName exchange delivery entry
  progress : ∀ number, exchange.driver = .waiting number →
    exchange.consumer = .handling number ∨
      ∃ next, Exchange.Step server runtime consumer queueName (fun _ _ => True) exchange next

end Consumer

/-! ## One delivery -/

section Decisions

variable {server : ServerContext} {runtime : ProjectRuntime} {consumer : ConsumerDefinition}
  {queueName : String}

/-- An answer that fits what the handler did with the delivery. -/
structure RightDecision (server : ServerContext) (runtime : ProjectRuntime)
    (consumer : ConsumerDefinition) (queueName : String) (delivery : Delivery) (answer : Answer)
    (handled : Option Execution) : Prop where
  acked : answer = .ack ↔ ∃ execution, handled = some execution ∧
    PassesSchema server runtime consumer delivery ∧
    RunsToEnd server runtime consumer queueName execution delivery ∧
    ∀ requeue, ¬ HandlerNacks server runtime consumer queueName execution delivery requeue
  rejected : ∀ execution, handled = some execution → ∀ requeue,
    HandlerNacks server runtime consumer queueName execution delivery requeue →
      answer = .nack requeue
  requeued : answer = .nack true → ∃ execution, handled = some execution ∧
    HandlerNacks server runtime consumer queueName execution delivery true

/-- A handler that starts has a payload of the declared schema, if that is known. -/
theorem passesSchema_of_start {delivery : Delivery} {start : Interpreter}
    (known : ∀ name, consumer.schema = some name →
      (runtime.resolveSchema consumer.moduleId name).isSome = true)
    (starts : startConsumer server runtime consumer queueName delivery = .ok start) :
    PassesSchema server runtime consumer delivery := by
  intro name declared
  rw [startConsumer, bind_eq_ok] at starts
  obtain ⟨payload, delivered, -⟩ := starts
  obtain ⟨schema, resolved⟩ := Option.isSome_iff_exists.mp (known name declared)
  rw [deliveredValue, declared, Option.bind_some, resolved] at delivered
  exact ⟨schema, payload, resolved, mapError_eq_ok.mp delivered⟩

/-- A delivery that is refused before the handler starts. -/
theorem rightDecision_of_unstarted {delivery : Delivery} {handled : Option Execution}
    (unstarted : ∀ execution, handled = some execution → ∀ start,
      startConsumer server runtime consumer queueName delivery ≠ .ok start) :
    RightDecision server runtime consumer queueName delivery (.nack false) handled where
  acked := by
    constructor
    · intro same
      cases same
    · rintro ⟨execution, same, -, ⟨start, starts, -⟩, -⟩
      exact absurd starts (unstarted execution same start)
  rejected execution same requeue := by
    rintro ⟨start, starts, -⟩
    exact absurd starts (unstarted execution same start)
  requeued := by
    intro same
    cases same

section Started

variable {execution : Execution} {delivery : Delivery} {start : Interpreter}
  (passes : HandlerPasses server runtime consumer queueName execution delivery)
  (starts : startConsumer server runtime consumer queueName delivery = .ok start)

include passes starts

/-- What the handler executed is how it ended. -/
theorem handlerNacks_iff {requeue : Bool} :
    HandlerNacks server runtime consumer queueName execution delivery requeue ↔
      (runAction execution.host execution.depth (Action.block consumer.body) start).1 =
        .error (.error (.nackSignal requeue)) := by
  constructor
  · rintro ⟨other, same, nacks⟩
    obtain rfl := Except.ok.inj (starts.symm.trans same)
    exact Action.rejects_of_nacks (passes start starts) nacks
  · intro rejects
    exact ⟨start, starts, Action.nacks_of_rejects rejects⟩

omit passes in
theorem runsToEnd_iff :
    RunsToEnd server runtime consumer queueName execution delivery ↔
      (runAction execution.host execution.depth (Action.block consumer.body) start).1 = .ok () := by
  constructor
  · rintro ⟨other, same, ends⟩
    obtain rfl := Except.ok.inj (starts.symm.trans same)
    exact ends
  · exact fun ends => ⟨start, starts, ends⟩

/-- The answer after the handler ended. -/
theorem rightDecision_of_answered {answer : Answer}
    (known : ∀ name, consumer.schema = some name →
      (runtime.resolveSchema consumer.moduleId name).isSome = true)
    (ends : HandlerEnd.ofResult
      (runAction execution.host execution.depth (Action.block consumer.body) start).1 =
        .answered answer) :
    RightDecision server runtime consumer queueName delivery answer (some execution) := by
  have nacks {requeue : Bool} := @handlerNacks_iff _ _ _ _ _ _ _ passes starts requeue
  have toEnd := @runsToEnd_iff _ _ _ _ execution _ _ starts
  have schema := passesSchema_of_start known starts
  generalize (runAction execution.host execution.depth (Action.block consumer.body) start).1 =
    result at ends nacks toEnd
  constructor
  · simp only [Option.some.injEq, exists_eq_left', nacks, toEnd]
    constructor
    · rintro rfl
      obtain rfl : result = .ok () := by
        rcases result with (error | cause | _) | ⟨⟩
        · cases error <;> cases ends
        · cases ends
        · cases ends
        · rfl
      exact ⟨schema, rfl, fun requeue same => by cases same⟩
    · rintro ⟨-, rfl, -⟩
      exact (HandlerEnd.answered.inj ends).symm
  · rintro _ ⟨⟩ requeue executed
    rw [nacks.mp executed] at ends
    exact (HandlerEnd.answered.inj ends).symm
  · rintro rfl
    refine ⟨execution, rfl, nacks.mpr ?_⟩
    rcases result with (error | cause | _) | ⟨⟩
    · cases error <;> cases ends
      rfl
    · cases ends
    · cases ends
    · cases ends

/-- The slot of a delivery whose handler panicked. -/
theorem rightDecision_of_panicked
    (ends : HandlerEnd.ofResult
      (runAction execution.host execution.depth (Action.block consumer.body) start).1 =
        .panicked) :
    RightDecision server runtime consumer queueName delivery (.nack false) (some execution) := by
  have nacks {requeue : Bool} := @handlerNacks_iff _ _ _ _ _ _ _ passes starts requeue
  have toEnd := @runsToEnd_iff _ _ _ _ execution _ _ starts
  generalize (runAction execution.host execution.depth (Action.block consumer.body) start).1 =
    result at ends nacks toEnd
  constructor
  · simp only [Option.some.injEq, exists_eq_left', toEnd, reduceCtorEq, false_iff]
    rintro ⟨-, rfl, -⟩
    cases ends
  · rintro _ ⟨⟩ requeue executed
    rw [nacks.mp executed] at ends
    cases ends
  · intro same
    cases same

end Started

/-- The turn of the consumer's loop leaves the right answer. -/
theorem rightDecision_of_handle {execution : Execution} {delivery : Delivery} {answer : Answer}
    (known : ∀ name, consumer.schema = some name →
      (runtime.resolveSchema consumer.moduleId name).isSome = true)
    (passes : HandlerPasses server runtime consumer queueName execution delivery)
    (ends : handleDelivery server runtime consumer queueName execution delivery =
      .answered answer) :
    RightDecision server runtime consumer queueName delivery answer (some execution) := by
  unfold handleDelivery at ends
  split at ends
  · rename_i refused
    obtain rfl := HandlerEnd.answered.inj ends
    apply rightDecision_of_unstarted
    intro _ _ start starts
    rw [refused] at starts
    cases starts
  · rename_i start starts
    exact rightDecision_of_answered passes starts known ends

theorem rightDecision_of_panic {execution : Execution} {delivery : Delivery}
    (passes : HandlerPasses server runtime consumer queueName execution delivery)
    (ends : handleDelivery server runtime consumer queueName execution delivery = .panicked) :
    RightDecision server runtime consumer queueName delivery (.nack false) (some execution) := by
  unfold handleDelivery at ends
  split at ends
  · cases ends
  · rename_i start starts
    exact rightDecision_of_panicked passes starts ends

end Decisions

/-! ## Whole runs -/

section Runs

variable (server : ServerContext) (runtime : ProjectRuntime) (consumer : ConsumerDefinition)
  (queueName : String)

namespace Exchange

/-- Where the delivery is that the driver waits for. -/
inductive InFlight (exchange : Exchange) (number : Nat) (delivery : Delivery) : Prop where
  | buffered (slot : exchange.slot = .pending) (buffer : exchange.buffer = [number])
      (free : exchange.consumer = .idle ∨ exchange.consumer = .unwinding)
  | handled (slot : exchange.slot = .pending) (buffer : exchange.buffer = [])
      (handling : exchange.consumer = .handling number)
  | decided (answer : Answer) (execution : Execution)
      (slot : exchange.slot = .decided answer execution) (buffer : exchange.buffer = [])
      (free : ∀ other, exchange.consumer ≠ .handling other)
      (right : RightDecision server runtime consumer queueName delivery answer (some execution))
  | dropped (handled : Option Execution) (slot : exchange.slot = .dropped handled)
      (buffer : exchange.buffer = []) (free : ∀ other, exchange.consumer ≠ .handling other)
      (right : RightDecision server runtime consumer queueName delivery (.nack false) handled)

/-- Nothing is on its way, or the last delivery is. -/
inductive Placed (exchange : Exchange) : Prop where
  | settled (answered : exchange.taken.length = exchange.wire.length)
      (driver : ∀ number, exchange.driver ≠ .waiting number) (buffer : exchange.buffer = [])
      (free : ∀ other, exchange.consumer ≠ .handling other)
  | waiting {answered : List Delivery} {delivery : Delivery}
      (taken : exchange.taken = answered ++ [delivery])
      (length : answered.length = exchange.wire.length)
      (driver : exchange.driver = .waiting exchange.wire.length)
      (flight : InFlight server runtime consumer queueName exchange exchange.wire.length delivery)

/-- What holds after every step. -/
structure Sound (exchange : Exchange) : Prop where
  once : exchange.wire.map (·.number) = List.range exchange.wire.length
  answers : ∀ entry ∈ exchange.wire, ∃ delivery, exchange.taken[entry.number]? = some delivery ∧
    RightAnswer server runtime consumer queueName exchange delivery entry
  placed : Placed server runtime consumer queueName exchange

end Exchange

end Runs

namespace Exchange

section Preservation

variable {server : ServerContext} {runtime : ProjectRuntime} {consumer : ConsumerDefinition}
  {queueName : String} {allowed : Execution → Delivery → Prop} {exchange next : Exchange}

theorem sound_start : Sound server runtime consumer queueName start where
  once := rfl
  answers := by
    intro entry member
    cases member
  placed := .settled rfl nofun rfl nofun

/-- A driver that stopped because the consumer had gone makes no step. -/
theorem Step.not_final (step : Step server runtime consumer queueName allowed exchange next) :
    ¬ (exchange.consumer = .gone ∧ exchange.driver = .stopped) := by
  rintro ⟨gone, stopped⟩
  cases step with
  | read delivery reading receiver => exact receiver gone
  | refuse delivery reading _ => exact nomatch reading.symm.trans stopped
  | close reading => exact nomatch reading.symm.trans stopped
  | receive idle _ => exact nomatch idle.symm.trans gone
  | decide execution handling _ _ _ => exact nomatch handling.symm.trans gone
  | panic execution handling _ _ _ => exact nomatch handling.symm.trans gone
  | leave free =>
      rcases free with idle | unwinding
      · exact nomatch idle.symm.trans gone
      · exact nomatch unwinding.symm.trans gone
  | answer waiting _ => exact nomatch waiting.symm.trans stopped
  | giveUp waiting _ => exact nomatch waiting.symm.trans stopped

/-- Answers stay right. -/
theorem Step.rightAnswer (step : Step server runtime consumer queueName allowed exchange next)
    {delivery : Delivery} {entry : WireAnswer}
    (right : RightAnswer server runtime consumer queueName exchange delivery entry) :
    RightAnswer server runtime consumer queueName next delivery entry where
  acked := right.acked
  rejected := right.rejected
  requeued requeue := by
    rcases right.requeued requeue with executed | ⟨gone, stopped, -⟩
    · exact .inl executed
    · exact absurd ⟨gone, stopped⟩ step.not_final

/-- A step reads at most one delivery. -/
theorem Step.taken_cases (step : Step server runtime consumer queueName allowed exchange next) :
    ∃ more, next.taken = exchange.taken ++ more := by
  cases step with
  | read delivery _ _ => exact ⟨[delivery], rfl⟩
  | refuse delivery _ _ => exact ⟨[delivery], rfl⟩
  | _ => exact ⟨[], (List.append_nil _).symm⟩

/-- Answers to earlier deliveries, after a step. -/
theorem Sound.earlier (sound : Sound server runtime consumer queueName exchange)
    (step : Step server runtime consumer queueName allowed exchange next) {entry : WireAnswer}
    (member : entry ∈ exchange.wire) :
    ∃ delivery, next.taken[entry.number]? = some delivery ∧
      RightAnswer server runtime consumer queueName next delivery entry := by
  obtain ⟨delivery, found, right⟩ := sound.answers entry member
  obtain ⟨more, grown⟩ := step.taken_cases
  refine ⟨delivery, ?_, step.rightAnswer right⟩
  obtain ⟨inside, -⟩ := List.getElem?_eq_some_iff.mp found
  rw [grown, List.getElem?_append_left inside]
  exact found

theorem RightDecision.rightAnswer {delivery : Delivery} {entry : WireAnswer}
    (right : RightDecision server runtime consumer queueName delivery entry.answer
      entry.execution) :
    RightAnswer server runtime consumer queueName exchange delivery entry where
  acked := right.acked
  rejected := right.rejected
  requeued requeue := .inl (right.requeued requeue)

/-- One more answer on the wire. -/
theorem once_snoc {wire : List WireAnswer} {entry : WireAnswer}
    (once : wire.map (·.number) = List.range wire.length) (number : entry.number = wire.length) :
    (wire ++ [entry]).map (·.number) = List.range (wire ++ [entry]).length := by
  rw [List.map_append, once, List.length_append, List.length_singleton, List.range_succ,
    List.map_singleton, number]

/-- The driver writes the answer that is in the slot. -/
theorem Sound.answer {number : Nat} {decision : Answer} {handled : Option Execution}
    (sound : Sound server runtime consumer queueName exchange)
    (step : Step server runtime consumer queueName allowed exchange
      (exchange.answer number decision handled)) {answered : List Delivery}
    {delivery : Delivery} (taken : exchange.taken = answered ++ [delivery])
    (length : answered.length = exchange.wire.length) (same : number = exchange.wire.length)
    (buffer : exchange.buffer = []) (free : ∀ other, exchange.consumer ≠ .handling other)
    (right : RightDecision server runtime consumer queueName delivery decision handled) :
    Sound server runtime consumer queueName (exchange.answer number decision handled) where
  once := once_snoc sound.once same
  answers := by
    intro entry member
    rcases List.mem_append.mp member with member | single
    · exact sound.earlier step member
    · obtain rfl := List.mem_singleton.mp single
      refine ⟨delivery, ?_, RightDecision.rightAnswer right⟩
      change exchange.taken[number]? = some delivery
      rw [taken, same, ← length]
      simp
  placed := by
    refine .settled ?_ nofun buffer free
    change exchange.taken.length = (exchange.wire ++ [_]).length
    rw [taken, List.length_append, List.length_append, length]
    rfl

theorem Placed.settled_of_reading (placed : Placed server runtime consumer queueName exchange)
    (reading : exchange.driver = .reading) :
    exchange.taken.length = exchange.wire.length ∧ exchange.buffer = [] ∧
      ∀ other, exchange.consumer ≠ .handling other := by
  cases placed with
  | settled answered driver buffer free => exact ⟨answered, buffer, free⟩
  | waiting taken length driver flight => exact nomatch reading.symm.trans driver

/-- The delivery that a busy consumer handles. -/
theorem Placed.handled (placed : Placed server runtime consumer queueName exchange) {number : Nat}
    (handling : exchange.consumer = .handling number) {delivery : Delivery}
    (found : exchange.taken[number]? = some delivery) :
    ∃ answered, exchange.taken = answered ++ [delivery] ∧
      answered.length = exchange.wire.length ∧
      exchange.driver = .waiting exchange.wire.length ∧ exchange.buffer = [] := by
  cases placed with
  | settled answered driver buffer free => exact absurd handling (free number)
  | @waiting answered last taken length driver flight =>
      cases flight with
      | buffered slot buffer free =>
          rcases free with idle | unwinding
          · exact nomatch idle.symm.trans handling
          · exact nomatch unwinding.symm.trans handling
      | handled slot buffer busy =>
          have same := ConsumerState.handling.inj (busy.symm.trans handling)
          rw [taken, ← same, ← length] at found
          simp only [List.getElem?_concat_length, Option.some.injEq] at found
          exact ⟨answered, by rw [taken, found], length, driver, buffer⟩
      | decided answer execution slot buffer free right => exact absurd handling (free number)
      | dropped handled slot buffer free right => exact absurd handling (free number)

/-- A receiver that goes drops what is on its way. -/
theorem Placed.leave (placed : Placed server runtime consumer queueName exchange)
    (free : exchange.consumer = .idle ∨ exchange.consumer = .unwinding) :
    Placed server runtime consumer queueName exchange.leave := by
  cases placed with
  | settled answered driver buffer busy => exact .settled answered driver rfl nofun
  | waiting taken length driver flight =>
      refine .waiting taken length driver ?_
      cases flight with
      | buffered slot buffer _ =>
          refine .dropped none ?_ rfl nofun (rightDecision_of_unstarted fun _ none => nomatch none)
          rw [Exchange.leave, if_neg (by rw [buffer]; exact List.cons_ne_nil _ _)]
      | handled slot buffer handling =>
          rcases free with idle | unwinding
          · exact nomatch idle.symm.trans handling
          · exact nomatch unwinding.symm.trans handling
      | decided answer execution slot buffer _ right =>
          refine .decided answer execution ?_ rfl nofun right
          rw [Exchange.leave, if_pos buffer]
          exact slot
      | dropped handled slot buffer _ right =>
          refine .dropped handled ?_ rfl nofun right
          rw [Exchange.leave, if_pos buffer]
          exact slot

/-- Each step keeps the invariant. -/
theorem Sound.step (sound : Sound server runtime consumer queueName exchange)
    (known : ∀ name, consumer.schema = some name →
      (runtime.resolveSchema consumer.moduleId name).isSome = true)
    (step : Step server runtime consumer queueName
      (HandlerPasses server runtime consumer queueName) exchange next) :
    Sound server runtime consumer queueName next := by
  have earlier : ∀ entry ∈ exchange.wire, _ := fun entry member => sound.earlier step member
  cases step with
  | read delivery reading receiver =>
      obtain ⟨answered, buffer, free⟩ := sound.placed.settled_of_reading reading
      refine ⟨sound.once, earlier, .waiting rfl answered ?_ (.buffered rfl ?_ ?_)⟩
      · rw [Exchange.read, answered]
      · rw [Exchange.read, buffer, answered]
        rfl
      · change exchange.consumer = _ ∨ exchange.consumer = _
        cases state : exchange.consumer with
        | idle => exact .inl rfl
        | unwinding => exact .inr rfl
        | handling other => exact absurd state (free other)
        | gone => exact absurd state receiver
  | refuse delivery reading gone =>
      obtain ⟨answered, buffer, free⟩ := sound.placed.settled_of_reading reading
      refine ⟨once_snoc sound.once answered, ?_, .settled ?_ nofun buffer free⟩
      · intro entry member
        rcases List.mem_append.mp member with member | single
        · exact earlier entry member
        · obtain rfl := List.mem_singleton.mp single
          refine ⟨delivery, List.getElem?_concat_length, ?_, (fun _ none => nomatch none),
            fun _ => .inr ?_⟩
          · constructor
            · intro same
              cases same
            · rintro ⟨execution, same, -⟩
              cases same
          · refine ⟨gone, rfl, ?_⟩
            simp [Exchange.refuse]
      · change (exchange.taken ++ _).length = (exchange.wire ++ _).length
        rw [List.length_append, List.length_append, answered]
        rfl
  | close reading =>
      obtain ⟨answered, buffer, free⟩ := sound.placed.settled_of_reading reading
      exact ⟨sound.once, earlier, .settled answered nofun buffer free⟩
  | receive idle head =>
      refine ⟨sound.once, earlier, ?_⟩
      cases sound.placed with
      | settled answered driver buffer free => exact nomatch buffer.symm.trans head
      | waiting taken length driver flight =>
          refine .waiting taken length driver ?_
          cases flight with
          | buffered slot buffer free =>
              obtain ⟨same, empty⟩ := List.cons.inj (buffer.symm.trans head)
              exact .handled slot empty.symm (congrArg ConsumerState.handling same.symm)
          | handled slot buffer busy => exact nomatch idle.symm.trans busy
          | decided answer execution slot buffer free right => exact nomatch buffer.symm.trans head
          | dropped handled slot buffer free right => exact nomatch buffer.symm.trans head
  | decide execution handling found admitted ends =>
      obtain ⟨answered, taken, length, driver, buffer⟩ := sound.placed.handled handling found
      refine ⟨sound.once, earlier, .waiting taken length driver ?_⟩
      exact .decided _ execution rfl buffer nofun (rightDecision_of_handle known admitted ends)
  | panic execution handling found admitted ends =>
      obtain ⟨answered, taken, length, driver, buffer⟩ := sound.placed.handled handling found
      refine ⟨sound.once, earlier, .waiting taken length driver ?_⟩
      exact .dropped (some execution) rfl buffer nofun (rightDecision_of_panic admitted ends)
  | leave free => exact ⟨sound.once, earlier, sound.placed.leave free⟩
  | answer waiting decided =>
      have step := @Step.answer server runtime consumer queueName
        (HandlerPasses server runtime consumer queueName) _ _ _ _ waiting decided
      cases sound.placed with
      | settled answered driver buffer free => exact absurd waiting (driver _)
      | waiting taken length driver flight =>
          have same := DriverState.waiting.inj (waiting.symm.trans driver)
          cases flight with
          | buffered slot buffer free => exact nomatch slot.symm.trans decided
          | handled slot buffer handling => exact nomatch slot.symm.trans decided
          | decided answer execution slot buffer free right =>
              obtain ⟨rfl, rfl⟩ := Slot.decided.inj (slot.symm.trans decided)
              exact sound.answer step taken length same buffer free right
          | dropped handled slot buffer free right => exact nomatch slot.symm.trans decided
  | giveUp waiting dropped =>
      have step := @Step.giveUp server runtime consumer queueName
        (HandlerPasses server runtime consumer queueName) _ _ _ waiting dropped
      cases sound.placed with
      | settled answered driver buffer free => exact absurd waiting (driver _)
      | waiting taken length driver flight =>
          have same := DriverState.waiting.inj (waiting.symm.trans driver)
          cases flight with
          | buffered slot buffer free => exact nomatch slot.symm.trans dropped
          | handled slot buffer handling => exact nomatch slot.symm.trans dropped
          | decided answer execution slot buffer free right => exact nomatch slot.symm.trans dropped
          | dropped handled slot buffer free right =>
              obtain rfl := Slot.dropped.inj (slot.symm.trans dropped)
              exact sound.answer step taken length same buffer free right

theorem Sound.acknowledged (sound : Sound server runtime consumer queueName exchange) :
    Acknowledged server runtime consumer queueName exchange where
  once := sound.once
  all := by
    cases sound.placed with
    | settled answered driver buffer free => exact .inl ⟨answered, driver⟩
    | waiting taken length driver flight =>
        refine .inr ⟨?_, driver⟩
        rw [taken, List.length_append, length]
        rfl
  answers := sound.answers
  progress := by
    intro number waiting
    cases sound.placed with
    | settled answered driver buffer free => exact absurd waiting (driver number)
    | waiting taken length driver flight =>
        have same := DriverState.waiting.inj (waiting.symm.trans driver)
        cases flight with
        | buffered slot buffer free =>
            rcases free with idle | unwinding
            · exact .inr ⟨_, .receive idle buffer⟩
            · exact .inr ⟨_, .leave (.inr unwinding)⟩
        | handled slot buffer handling => exact .inl (same ▸ handling)
        | decided answer execution slot buffer free right => exact .inr ⟨_, .answer waiting slot⟩
        | dropped handled slot buffer free right => exact .inr ⟨_, .giveUp waiting slot⟩

end Preservation

end Exchange

/-- In every order of the steps, every delivery gets one answer, and the one its handler
stands for, as long as the schema is known and no handler keeps a `nack` for itself. -/
theorem acknowledged_of_passes {server : ServerContext} {runtime : ProjectRuntime}
    {consumer : ConsumerDefinition} {queueName : String} {exchange : Exchange}
    (known : ∀ name, consumer.schema = some name →
      (runtime.resolveSchema consumer.moduleId name).isSome = true)
    (reaches : Relation.ReflTransGen (Exchange.Step server runtime consumer queueName
      (HandlerPasses server runtime consumer queueName)) .start exchange) :
    Acknowledged server runtime consumer queueName exchange := by
  have sound : Exchange.Sound server runtime consumer queueName exchange := by
    induction reaches with
    | refl => exact Exchange.sound_start
    | tail _ step ih => exact ih.step known step
  exact sound.acknowledged

/-! ## Two consumers -/

def jobsProject (body : String) : ProjectFiles where
  files := []
  entrypoint := namedEntrypoint
    ("task decline()\n    nack\n\non queue \"jobs\" take job\n    " ++ body ++ "\n")
  distinct := List.nodup_singleton _

def jobDelivery : Delivery where
  payload := .null
  routingKey := ""

/-- The engine for the handlers of a project. -/
def jobExecution (loaded : LoadedProject) : Execution where
  host := { emptyHost with hasDb := false, project := some loaded.runtime }
  depth := 20

/-- What the consumer of a project makes of the delivery. -/
structure JobRun where
  schema : Option String
  ending : HandlerEnd
  raised : List Bool
  quiet : Bool
deriving DecidableEq

def jobRun (loaded : LoadedProject) : Option JobRun := do
  let consumer ← loaded.consumers.head?
  let start ← (startConsumer orderServer loaded.runtime consumer "jobs" jobDelivery).toOption
  let execution := jobExecution loaded
  let action := Action.block consumer.body
  return {
    schema := consumer.schema
    ending := handleDelivery orderServer loaded.runtime consumer "jobs" execution jobDelivery
    raised := action.raised execution.host (perform execution.host 20)
      (raisedRun execution.host 20) start
    quiet := action.quiet execution.host (perform execution.host 20)
      (quietRun execution.host 20) start }

theorem exists_jobRun {project : ProjectFiles} {schema : Option String} {ending : HandlerEnd}
    {raised : List Bool} {quiet : Bool}
    (evaluates : (loadProject plainContext project).toOption.bind jobRun =
      some { schema, ending, raised, quiet }) :
    ∃ loaded, loadProject plainContext project = .ok loaded ∧ ∃ consumer ∈ loaded.consumers,
      consumer.schema = schema ∧
      handleDelivery orderServer loaded.runtime consumer "jobs" (jobExecution loaded) jobDelivery =
        ending ∧
      ∃ start, startConsumer orderServer loaded.runtime consumer "jobs" jobDelivery = .ok start ∧
        (∀ requeue ∈ raised, (Action.block consumer.body).Nacks (jobExecution loaded).host 20
          requeue start) ∧
        (quiet = true → (Action.block consumer.body).PassesNacks (jobExecution loaded).host 20
          start) := by
  cases result : loadProject plainContext project with
  | error fault => simp [result, Except.toOption] at evaluates
  | ok loaded =>
      simp only [result, Except.toOption, Option.bind_some, jobRun, Option.bind_eq_bind,
        Option.bind_eq_some_iff, Option.pure_def, Option.some.injEq, JobRun.mk.injEq] at evaluates
      obtain ⟨consumer, first, start, starts, rfl, ends, raises, still⟩ := evaluates
      refine ⟨loaded, rfl, consumer, List.mem_of_mem_head? first, rfl, ends, start,
        eq_ok_of_toOption starts, fun requeue member => ?_, fun holds => ?_⟩
      · rw [← raises] at member
        exact Action.nacks_of_mem_raised member
      · rw [← still] at holds
        exact Action.passesNacks_of_quiet holds

/-- One delivery, read, handled and answered. -/
def answeredJob (execution : Execution) (answer : Answer) : Exchange where
  taken := [jobDelivery]
  wire := [{ number := 0, answer, execution := some execution }]
  driver := .reading
  slot := .decided answer execution
  buffer := []
  consumer := .idle

theorem answeredJob_reached {runtime : ProjectRuntime} {consumer : ConsumerDefinition}
    {allowed : Execution → Delivery → Prop} {execution : Execution} {answer : Answer}
    (admitted : allowed execution jobDelivery)
    (ends : handleDelivery orderServer runtime consumer "jobs" execution jobDelivery =
      .answered answer) :
    Relation.ReflTransGen (Exchange.Step orderServer runtime consumer "jobs" allowed) .start
      (answeredJob execution answer) := by
  apply Relation.ReflTransGen.head (.read jobDelivery rfl nofun)
  apply Relation.ReflTransGen.head (.receive rfl rfl)
  apply Relation.ReflTransGen.head (.decide execution rfl rfl admitted ends)
  exact .single (.answer rfl rfl)

theorem requeuedJob_acknowledged :
    ∃ loaded, loadProject plainContext (jobsProject "nack requeue") = .ok loaded ∧
      ∃ consumer ∈ loaded.consumers, ∃ exchange,
        exchange.wire.map (·.answer) = [.nack true] ∧
          Acknowledged orderServer loaded.runtime consumer "jobs" exchange := by
  obtain ⟨loaded, loads, consumer, member, schema, ends, start, starts, -, passes⟩ :=
    @exists_jobRun (jobsProject "nack requeue") none (.answered (.nack true)) [true] true
      (by decide +kernel)
  have admitted : HandlerPasses orderServer loaded.runtime consumer "jobs" (jobExecution loaded)
      jobDelivery := by
    intro other same
    obtain rfl := Except.ok.inj (starts.symm.trans same)
    exact passes rfl
  refine ⟨loaded, loads, consumer, member, answeredJob (jobExecution loaded) (.nack true), rfl, ?_⟩
  apply acknowledged_of_passes
  · intro name declared
    rw [schema] at declared
    cases declared
  · exact answeredJob_reached admitted ends

/-- A `nack` below a rescue, and an `ack` on the wire. -/
theorem rescuedNack_acked :
    ∃ loaded, loadProject plainContext (jobsProject "outcome = decline() rescue null") =
        .ok loaded ∧
      ∃ consumer ∈ loaded.consumers, ∃ exchange,
        Relation.ReflTransGen (Exchange.Step orderServer loaded.runtime consumer "jobs"
          fun _ _ => True) .start exchange ∧
        exchange.wire.map (·.answer) = [.ack] ∧
        ¬ Acknowledged orderServer loaded.runtime consumer "jobs" exchange := by
  obtain ⟨loaded, loads, consumer, member, -, ends, start, starts, nacks, -⟩ :=
    @exists_jobRun (jobsProject "outcome = decline() rescue null") none (.answered .ack) [false]
      false (by decide +kernel)
  refine ⟨loaded, loads, consumer, member, answeredJob (jobExecution loaded) .ack,
    answeredJob_reached trivial ends, rfl, fun acknowledged => ?_⟩
  obtain ⟨delivery, found, right⟩ := acknowledged.answers _ List.mem_cons_self
  obtain rfl := Option.some.inj found
  have rejected := right.rejected _ rfl false ⟨start, starts, nacks false List.mem_cons_self⟩
  cases rejected

end Marreta
