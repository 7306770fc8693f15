import Marreta.Runtime.Stops

namespace Marreta

open Foundation

/-! The fields that a reply, a queue push and a topic publication send under a
schema. -/

/-- An expression that returns a value. -/
def Evaluates (host : Host) (depth : Nat) (expression : Expression) (state : Interpreter)
    (value : Value) (after : Interpreter) : Prop :=
  runAction host depth (Action.eval expression) state = (.ok value, after)

/-- The payload of a producer: its own expression, or the input of the pipeline. -/
def Supplies (host : Host) (depth : Nat) (payload : Option Expression) (input : Option Value)
    (state : Interpreter) (value : Value) (after : Interpreter) : Prop :=
  match payload with
  | some expression => Evaluates host depth expression state value after
  | none => input = some value ∧ after = state

/-- The names of the entries of a record that was filtered by what a lookup found. -/
def namesSent (found : Option SchemaDefinition) (value : Value) (entries : ValueMap) :
    List String :=
  match found with
  | some schema => if value.isMap then schema.outline entries else Table.keys entries
  | none => Table.keys entries

/-- The declared part of a record is sent exactly when the names are the declared
ones. -/
theorem recordEntries_serializeWith {value : Value} {entries : ValueMap}
    (record : value.recordEntries = some entries) (found : Option SchemaDefinition)
    (schema : SchemaDefinition) :
    (serializeWith value found).recordEntries = some (schema.declared entries) ↔
      namesSent found value entries = schema.outline entries := by
  have unfiltered : value.recordEntries = some (schema.declared entries) ↔
      Table.keys entries = schema.outline entries := by
    rw [record, Option.some_inj]
    exact schema.eq_declared_iff entries
  cases found with
  | none => exact unfiltered
  | some other =>
      cases kind : value.isMap with
      | false =>
          rw [serializeWith, serialize_of_not_map kind, namesSent, kind]
          exact unfiltered
      | true =>
          cases value with
          | map own =>
              obtain rfl : own = entries := Option.some.inj record
              rw [serializeWith, serialize_map, namesSent, kind, if_pos rfl,
                ← schema.declared_eq_iff other]
              exact Option.some_inj
          | _ => cases kind

variable {host : Host} {depth : Nat}

/-- What follows an action that returned runs where it left off. -/
theorem runAction_bind {α β : Type} {first : Action α} {next : α → Action β}
    {state after : Interpreter} {value : α}
    (returned : runAction host depth first state = (.ok value, after)) :
    runAction host depth (first >>= next) state = runAction host depth (next value) after := by
  unfold runAction at returned ⊢
  rw [Action.run_bind, Run.bind_run, returned]

theorem run_executeReply {status body : Expression} {headers : Option Expression}
    {start atBody atHeaders after : Interpreter} {code : Int64} {value : Value}
    {fields : List (String × String)}
    (numbered : Evaluates host depth status start (.integer code) atBody)
    (evaluated : Evaluates host depth body atBody value atHeaders)
    (collected : runAction host depth (replyHeaders host headers) atHeaders =
      (.ok fields, after)) (contentType : ReplyContentType) (responseSchema : Option String) :
    let schema := responseSchema.bind (resolveSchema host atHeaders.currentModule)
    let sent := replyBody host contentType (serializeWith value schema)
    let signal := StopSignal.reply code.toUInt64.toUInt16 sent.1 sent.2 fields
    runAction host depth (executeReply host status contentType body responseSchema headers)
        start =
      (.error (.error signal.error), after.record (.stopped signal)) := by
  intro schema sent signal
  have module : runAction host depth (.reads (·.currentModule)) atHeaders =
      (.ok atHeaders.currentModule, atHeaders) := rfl
  rw [executeReply, runAction_bind numbered, runAction_bind evaluated, runAction_bind module,
    runAction_bind collected]
  rfl

/-- The value is the payload of the message; a trace context only adds metadata. -/
theorem run_deliver (producer : Producer) (queue : String) (value : Value)
    (state : Interpreter) :
    ∃ message, message.payload = value ∧
      (runAction host depth (deliver host producer queue value) state).2.log.head? =
        some (.asked (producer.request queue message)) := by
  have packed : ∃ message after, runAction host depth (queueMessage host value) state =
      (.ok message, after) ∧ message.payload = value := by
    unfold queueMessage
    cases host.traceContext with
    | none => exact ⟨_, _, rfl, rfl⟩
    | some context => exact ⟨_, _, rfl, rfl⟩
  obtain ⟨message, after, packed, carried⟩ := packed
  have asked : runAction host depth (Action.ask (producer.request queue message)) after =
      (.ok (host.answer after.log (producer.request queue message)),
        after.record (.asked (producer.request queue message))) := rfl
  refine ⟨message, carried, ?_⟩
  rw [deliver, runAction_bind packed, runAction_bind asked]
  -- What the broker answers comes after the message was sent.
  cases producer.reply queue message
    (host.answer after.log (producer.request queue message)) <;> rfl

theorem run_produce (producer : Producer) {target : Expression}
    {payload : Option Expression} {input : Option Value} {start atPayload atSend : Interpreter}
    {queue : String} {value : Value} (connected : host.hasQueue = true)
    (targeted : Evaluates host depth target start (.string queue) atPayload)
    (supplied : Supplies host depth payload input atPayload value atSend) (name : String) :
    runAction host depth (produce host producer target (some name) payload input) start =
      runAction host depth
        (deliver host producer queue (serializeWith value (injectedSchema host name))) atSend := by
  rw [produce, connected, Bool.not_true, if_neg Bool.false_ne_true, runAction_bind targeted]
  cases payload with
  | some expression => rw [runAction_bind supplied, Option.bind_some]
  | none =>
      obtain ⟨rfl, rfl⟩ := supplied
      have given : runAction host depth (Action.orTypeError (producer.operation ++
          ": no payload provided and not inside a pipeline") (some value)) atSend =
        (.ok value, atSend) := rfl
      rw [runAction_bind given, Option.bind_some]

/-! ## What is sent -/

/-- A reply filters maps by the schema, and sends other records as they are; a producer
filters maps by the schema it looks up, if it finds one.  So the declared part of a
record is sent exactly when the names that are left are the declared ones. -/
theorem sendsDeclared_iff (host : Host) (depth : Nat) (name : String)
    (schema : SchemaDefinition) (value : Value) (entries : ValueMap)
    (record : value.recordEntries = some entries) :
    (∀ (status body : Expression) (contentType : ReplyContentType)
        (headers : Option Expression) (start atBody atHeaders after : Interpreter)
        (code : Int64) (fields : List (String × String)),
      Evaluates host depth status start (.integer code) atBody →
      Evaluates host depth body atBody value atHeaders →
      resolveSchema host atHeaders.currentModule name = some schema →
      runAction host depth (replyHeaders host headers) atHeaders = (.ok fields, after) →
      let sent := serialize value schema
      let signal := StopSignal.reply code.toUInt64.toUInt16
        (replyBody host contentType sent).1 (replyBody host contentType sent).2 fields
      runAction host depth
          (executeReply host status contentType body (some name) headers) start =
        (.error (.error signal.error), after.record (.stopped signal)) ∧
      (sent.recordEntries = some (schema.declared entries) ↔
        value.isMap = true ∨ Table.keys entries = schema.outline entries)) ∧
    (∀ (producer : Producer) (target : Expression) (payload : Option Expression)
        (input : Option Value) (start atPayload atSend : Interpreter) (queue : String),
      host.hasQueue = true →
      Evaluates host depth target start (.string queue) atPayload →
      Supplies host depth payload input atPayload value atSend →
      resolveSchema host atSend.currentModule name = some schema →
      ∃ message,
        (runAction host depth (produce host producer target (some name) payload input)
          start).2.log.head? = some (.asked (producer.request queue message)) ∧
        (message.payload.recordEntries = some (schema.declared entries) ↔
          namesSent (injectedSchema host name) value entries = schema.outline entries)) := by
  constructor
  · intro status body contentType headers start atBody atHeaders after code fields numbered
      evaluated visible collected sent signal
    have stopped := run_executeReply numbered evaluated collected contentType (some name)
    rw [Option.bind_some, visible] at stopped
    refine ⟨stopped, (recordEntries_serializeWith record (some schema) schema).trans ?_⟩
    unfold namesSent
    cases value.isMap <;> simp
  · intro producer target payload input start atPayload atSend queue connected targeted
      supplied _
    obtain ⟨message, carried, sent⟩ := @run_deliver host depth producer queue
      (serializeWith value (injectedSchema host name)) atSend
    refine ⟨message, ?_, ?_⟩
    · rw [run_produce producer connected targeted supplied, sent]
    · rw [carried]
      exact recordEntries_serializeWith record _ schema

/-- A schema that publishes the `id` of a user. -/
def publicSchema : SchemaDefinition where
  dbTable := none
  fields := [⟨"id", .integerType, false⟩]

def publicHost : Host :=
  { emptyHost with hasQueue := true, schemas := some [("public", publicSchema)] }

def userEntries : ValueMap :=
  [("id", .integer 1), ("password", .string "secret")]

/-- A handler whose variable `user` holds a value. -/
def startWith (user : Value) : Interpreter :=
  Interpreter.new (Environment.new.set "user" user) none

/-- A map is filtered by a reply and by a push. -/
theorem sendsDeclared_userMap :
    (serialize (.map userEntries) publicSchema).recordEntries =
      some (publicSchema.declared userEntries) ∧
    ∃ message,
      (runAction publicHost 2 (produce publicHost queueProducer (.stringLiteral "users")
        (some "public") (some (.identifier "user")) none)
        (startWith (.map userEntries))).2.log.head? = some (.asked (.push "users" message)) ∧
      message.payload.recordEntries = some (publicSchema.declared userEntries) := by
  have declared := sendsDeclared_iff publicHost 2 "public" publicSchema (.map userEntries)
    userEntries rfl
  have replied := declared.1 (.integer 200) (.identifier "user") .json none
    (startWith (.map userEntries)) _ _ _ 200 [] rfl rfl rfl rfl
  obtain ⟨message, sent, filtered⟩ := declared.2 queueProducer (.stringLiteral "users")
    (some (.identifier "user")) none (startWith (.map userEntries)) _ _ "users" rfl rfl rfl rfl
  exact ⟨replied.2.mpr (.inl rfl), message, sent, filtered.mpr rfl⟩

/-- A row of a relational table is sent as it is, with a field that the schema does not
declare. -/
theorem userRow_not_filtered :
    let row := Value.relationalRecord "User" userEntries
    resolveSchema publicHost none "public" = some publicSchema ∧
    (∃ headers after, runAction publicHost 2 (executeReply publicHost (.integer 200) .json
        (.identifier "user") (some "public") none) (startWith row) =
      (.error (.error (.httpResponse 200 (replyBody publicHost .json
        (serialize row publicSchema)).1 "application/json" headers false)), after)) ∧
    (serialize row publicSchema).recordEntries = some userEntries ∧
    "password" ∈ Table.keys userEntries ∧
    publicSchema.declared userEntries = [("id", .integer 1)] :=
  ⟨rfl, ⟨_, _, rfl⟩, rfl, by decide, rfl⟩

end Marreta
