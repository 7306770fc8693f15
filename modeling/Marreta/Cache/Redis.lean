import Marreta.Foundation.Session
import Marreta.Runtime.Namespaces
import Marreta.Runtime.Operators

namespace Marreta

open Foundation Session

/-! Writes to the cache: the commands that counters and bulk writes send to Redis, and what
is left there when the connection fails in between. -/

namespace Cache

/-! ## The server -/

/-- A value with the seconds it was last given to live. -/
structure Entry where
  value : String
  expiry : Option Int64
deriving DecidableEq

abbrev Store := String → Option Entry

def Store.put (store : Store) (key : String) (entry : Entry) : Store :=
  fun name => if name = key then some entry else store name

@[simp] theorem Store.put_same (store : Store) (key : String) (entry : Entry) :
    store.put key entry key = some entry :=
  if_pos rfl

theorem Store.put_other {store : Store} {key name : String} {entry : Entry}
    (other : name ≠ key) : store.put key entry name = store name :=
  if_neg other

def spelledNumber : List Char → Int
  | '-' :: digits => -(Nat.ofDigitChars 10 digits 0 : Int)
  | digits => Nat.ofDigitChars 10 digits 0

/-- The 64-bit number that a text spells in decimal, without sign or zeros in front. -/
def readCounter (text : String) : Option Int :=
  let number := spelledNumber text.toList
  if toString number = text ∧ -2 ^ 63 ≤ number ∧ number < 2 ^ 63 then some number else none

/-- The number under a key.  A key without a value counts from zero. -/
def Store.count? (store : Store) (key : String) : Option Int :=
  match store key with
  | none => some 0
  | some entry => readCounter entry.value

inductive Command where
  | incrBy (key : String) (amount : Int64)
  | expire (key : String) (seconds : Int64)
  | mset (pairs : List (String × String))

/-- The keys that a command gives values. -/
def Command.keys : Command → List String
  | .incrBy key _ => [key]
  | .expire _ _ => []
  | .mset pairs => pairs.map (·.1)

/-- A key with the life it is given.  Seconds that are not positive end it. -/
def Store.expire (store : Store) (key : String) (seconds : Int64) : Store :=
  match store key with
  | none => store
  | some entry =>
      if 0 < seconds then store.put key { entry with expiry := some seconds }
      else fun name => if name = key then none else store name

def Store.putAll (store : Store) (pairs : List (String × String)) : Store :=
  pairs.foldl (fun store pair => store.put pair.1 ⟨pair.2, none⟩) store

/-- What the documentation of Redis says about the commands it accepts, on the part of its
state that `view` shows.  It may refuse any command, and then nothing is changed. -/
structure Redis {σ : Type} (server : Server σ Command Int64) (view : σ → Store) : Prop where
  /-- A key that counts is given the sum, in the 64-bit range, and keeps its life. -/
  incrBy : ∀ {key : String} {amount reply : Int64} {state after : σ},
    server (.incrBy key amount) state = some (after, reply) →
      ∃ count, (view state).count? key = some count ∧
        (-2 ^ 63 ≤ count + amount.toInt ∧ count + amount.toInt < 2 ^ 63) ∧
        view after = (view state).put key
          ⟨toString (count + amount.toInt), (view state key).bind (·.expiry)⟩ ∧
        reply = .ofInt (count + amount.toInt)
  expire : ∀ {key : String} {seconds reply : Int64} {state after : σ},
    server (.expire key seconds) state = some (after, reply) →
      view after = (view state).expire key seconds
  /-- The keys are given their values without a life. -/
  mset : ∀ {pairs : List (String × String)} {reply : Int64} {state after : σ},
    server (.mset pairs) state = some (after, reply) → view after = (view state).putAll pairs

/-! ## The driver -/

abbrev Call := Session Command Int64 Value

section Driver

variable (profile : BuildProfile) (library : Library) (keyPrefix : String)

def prefixed (key : String) : String :=
  if keyPrefix = "" then key else keyPrefix ++ key

/-- The life of each key, as a command of its own. -/
def expirations (ttl : Option Nat) (keys : List String) : List Command :=
  ttl.elim [] fun ttl => keys.map fun key => .expire key (Int64.ofNat ttl)

def incr (key : String) (amount : Int64) (ttl : Option Nat) : Call :=
  let pkey := prefixed keyPrefix key
  .send (.incrBy pkey amount) fun value => sendAll (expirations ttl [pkey]) (.integer value)

/-- The negative of the least number stops the thread in a debug build. -/
def decr (key : String) (amount : Int64) (ttl : Option Nat) : Except LibraryFault Call :=
  if amount = Int64.minValue ∧ profile = .debug then .error .panic
  else .ok (incr keyPrefix key (-amount) ttl)

/-- The entries come in the order of a hash map. -/
def setMany (entries : List (String × Value)) (ttl : Option Nat) : Call :=
  if entries = [] then .done .null
  else
    let pairs := entries.map fun entry =>
      (prefixed keyPrefix entry.1, library.valueToJsonString entry.2)
    .send (.mset pairs) fun _ => sendAll (expirations ttl (pairs.map (·.1))) .null

/-- The calls with a life. -/
inductive TimedCall (ttl : Nat) : Call → Prop
  | incr (key : String) (amount : Int64) : TimedCall ttl (incr keyPrefix key amount (some ttl))
  | decr (key : String) (amount : Int64) (call : Call)
      (runs : decr profile keyPrefix key amount (some ttl) = .ok call) : TimedCall ttl call
  | setMany (entries : List (String × Value)) :
      TimedCall ttl (setMany library keyPrefix entries (some ttl))

end Driver

/-! ## What the commands leave -/

theorem put_isSome {store : Store} {key name : String} {entry : Entry}
    (known : name = key ∨ (store name).isSome = true) :
    (store.put key entry name).isSome = true := by
  by_cases same : name = key
  · rw [same, Store.put_same]
    rfl
  · rw [Store.put_other same]
    exact known.resolve_left same

theorem mset_isSome (pairs : List (String × String)) (store : Store) (name : String)
    (known : name ∈ pairs.map (·.1) ∨ (store name).isSome = true) :
    (store.putAll pairs name).isSome = true := by
  rw [Store.putAll]
  induction pairs generalizing store with
  | nil => exact known.resolve_left List.not_mem_nil
  | cons pair pairs induction =>
      apply induction
      rw [List.map_cons, List.mem_cons] at known
      rcases known with (first | later) | before
      · exact .inr (put_isSome (.inl first))
      · exact .inl later
      · exact .inr (put_isSome (.inr before))

section Expirations

variable {σ : Type} {server : Server σ Command Int64} {view : σ → Store}

/-- A key that a command gives a value has one. -/
theorem isSome_of_accepted (redis : Redis server view) {write : Command} {state after : σ}
    {reply : Int64} (accepted : server write state = some (after, reply)) :
    ∀ key ∈ write.keys, (view after key).isSome = true := by
  intro key member
  cases write with
  | incrBy name amount =>
      obtain rfl := List.mem_singleton.mp member
      obtain ⟨count, -, -, stored, -⟩ := redis.incrBy accepted
      rw [stored, Store.put_same]
      rfl
  | expire name seconds => cases member
  | mset pairs =>
      rw [redis.mset accepted]
      exact mset_isSome pairs (view state) key (.inl member)

variable {α : Type} {seconds : Int64} {delivery : Nat → Delivery} {result : α}

theorem view_expire (redis : Redis server view) (positive : 0 < seconds) {state after : σ}
    {key : String} {entry : Entry} {reply : Int64} (known : view state key = some entry)
    (accepted : server (.expire key seconds) state = some (after, reply)) :
    view after = (view state).put key { entry with expiry := some seconds } := by
  rw [redis.expire accepted, Store.expire, known]
  exact if_pos positive

/-- An entry that lives for the given time. -/
def living (seconds : Int64) (entry : Entry) : Entry :=
  { entry with expiry := some seconds }

def expireAll (seconds : Int64) (keys : List String) (result : α) : Session Command Int64 α :=
  sendAll (keys.map fun key => .expire key seconds) result

/-- The life of a key is set, when the commands for the given keys are sent. -/
abbrev Expired (server : Server σ Command Int64) (delivery : Nat → Delivery)
    (seconds : Int64) (key : String) (turn : Nat) (state : σ) (keys : List String) : Prop :=
  Executed server delivery (.expire key seconds) turn state
    (keys.map fun key => .expire key seconds)

/-- The keys whose command is executed live for the given time, the others as before. -/
theorem run_expireAll (redis : Redis server view) (positive : 0 < seconds) (keys : List String)
    {turn : Nat} {state : σ} (present : ∀ key ∈ keys, (view state key).isSome = true)
    (key : String) :
    (Expired server delivery seconds key turn state keys →
      view (run server delivery (expireAll seconds keys result) turn state).1 key =
        (view state key).map (living seconds)) ∧
    (¬ Expired server delivery seconds key turn state keys →
      view (run server delivery (expireAll seconds keys result) turn state).1 key =
        view state key) := by
  induction keys generalizing turn state with
  | nil => exact ⟨fun executed => absurd executed not_executed_nil, fun _ => rfl⟩
  | cons first keys induction =>
      rw [List.forall_mem_cons] at present
      obtain ⟨entry, known⟩ := Option.isSome_iff_exists.mp present.1
      rw [expireAll, Expired, List.map_cons, sendAll]
      by_cases lost : delivery turn = .lost
      · rw [run_lost lost]
        exact ⟨fun executed => absurd executed (not_executed_of_lost lost), fun _ => rfl⟩
      cases handled : server (.expire first seconds) state with
      | none =>
          rw [(run_refused handled).1]
          exact ⟨fun executed => absurd executed (not_executed_of_refused handled), fun _ => rfl⟩
      | some pair =>
          obtain ⟨after, reply⟩ := pair
          have stored := view_expire redis positive known handled
          rw [executed_cons handled, Command.expire.injEq]
          cases arrives : delivery turn with
          | lost => exact absurd arrives lost
          | unanswered =>
              rw [run_unanswered arrives handled, stored]
              by_cases same : key = first
              · subst same
                simp [known, living]
              · simp [same, Store.put_other same]
          | answered =>
              rw [run_answered arrives handled]
              have still : ∀ key ∈ keys, (view after key).isSome = true := by
                intro key member
                rw [stored]
                exact put_isSome (.inr (present.2 key member))
              obtain ⟨executed, otherwise⟩ := induction still
              rw [expireAll] at executed otherwise
              by_cases later : Expired server delivery seconds key (turn + 1) after keys
              · rw [executed later, stored]
                by_cases same : key = first
                · subst same
                  simp [known, living]
                · simp [later, Store.put_other same]
              · rw [otherwise later, stored]
                by_cases same : key = first
                · subst same
                  simp [known, living]
                · simp [later, same, Store.put_other same]

end Expirations

/-! ## Writes with a life -/

section Writes

variable {σ : Type} {server : Server σ Command Int64} {view : σ → Store} {seconds : Int64}
  {delivery : Nat → Delivery}

/-- A key is as before, or lives for the given time. -/
def Kept (seconds : Int64) (before after : Store) (key : String) : Prop :=
  after key = before key ∨ ∃ entry, after key = some entry ∧ entry.expiry = some seconds

/-- If the write takes effect, so does the command that ends the life of each key that the
write alone does not leave as it should be. -/
def Timely (server : Server σ Command Int64) (view : σ → Store) (seconds : Int64)
    (delivery : Nat → Delivery) (state : σ) (write : Command) : Prop :=
  delivery 0 ≠ .lost → ∀ after reply, server write state = some (after, reply) →
    ∀ key ∈ write.keys,
      delivery 0 = .answered ∧ Expired server delivery seconds key 1 after write.keys ∨
        Kept seconds (view state) (view after) key

theorem kept_iff_timely {α : Type} {result : Int64 → α} (redis : Redis server view)
    (positive : 0 < seconds) (state : σ) (write : Command) :
    (∀ key ∈ write.keys, Kept seconds (view state) (view (run server delivery
      (.send write fun reply => expireAll seconds write.keys (result reply)) 0 state).1) key) ↔
      Timely server view seconds delivery state write := by
  by_cases lost : delivery 0 = .lost
  · rw [run_lost lost]
    exact iff_of_true (fun key member => .inl rfl) fun arrives => absurd lost arrives
  cases handled : server write state with
  | none =>
      rw [(run_refused handled).1]
      refine iff_of_true (fun key member => .inl rfl) ?_
      intro arrives after reply other
      rw [handled] at other
      cases other
  | some pair =>
      obtain ⟨after, reply⟩ := pair
      have present := isSome_of_accepted redis handled
      have unfold : Timely server view seconds delivery state write ↔
          ∀ key ∈ write.keys,
            delivery 0 = .answered ∧ Expired server delivery seconds key 1 after write.keys ∨
              Kept seconds (view state) (view after) key := by
        constructor
        · exact fun timely => timely lost after reply handled
        · intro timely arrives other answer same
          rw [handled] at same
          obtain ⟨rfl, rfl⟩ := Prod.mk.inj (Option.some.inj same)
          exact timely
      rw [unfold]
      apply forall₂_congr
      intro key member
      cases arrives : delivery 0 with
      | lost => exact absurd arrives lost
      | unanswered =>
          rw [run_unanswered arrives handled]
          simp
      | answered =>
          rw [run_answered arrives handled]
          obtain ⟨executed, otherwise⟩ := @run_expireAll σ server view α seconds delivery
            (result reply) redis positive write.keys 1 after present key
          by_cases reached : Expired server delivery seconds key 1 after write.keys
          · obtain ⟨entry, known⟩ := Option.isSome_iff_exists.mp (present key member)
            refine iff_of_true (.inr ⟨living seconds entry, ?_, rfl⟩) (.inl ⟨rfl, reached⟩)
            rw [executed reached, known]
            rfl
          · rw [Kept, otherwise reached]
            exact (or_iff_right fun timely => reached timely.2).symm

end Writes

/-! ## Calls with a life -/

section Calls

variable {profile : BuildProfile} {library : Library} {keyPrefix : String}

/-- The keys that a call gives values. -/
def written : Call → List String
  | .done _ => []
  | .send write _ => write.keys

/-- A call that writes and then gives all its keys a life. -/
inductive WritesFor (seconds : Int64) : Call → Prop
  | empty (result : Value) : WritesFor seconds (.done result)
  | write (write : Command) (result : Int64 → Value) :
      WritesFor seconds (.send write fun reply => expireAll seconds write.keys (result reply))

/-- The call is timely, if it writes at all. -/
def TimelyCall {σ : Type} (server : Server σ Command Int64) (view : σ → Store)
    (seconds : Int64) (delivery : Nat → Delivery) (state : σ) : Call → Prop
  | .done _ => True
  | .send write _ => Timely server view seconds delivery state write

theorem kept_iff_timelyCall {σ : Type} {server : Server σ Command Int64} {view : σ → Store}
    {seconds : Int64} {delivery : Nat → Delivery} (redis : Redis server view) (state : σ)
    {call : Call} (positive : 0 < seconds) (writes : WritesFor seconds call) :
    (∀ key ∈ written call, Kept seconds (view state)
      (view (run server delivery call 0 state).1) key) ↔
        TimelyCall server view seconds delivery state call := by
  cases writes with
  | empty result =>
      refine iff_of_true (fun key member => ?_) trivial
      cases member
  | write write result => exact kept_iff_timely redis positive state write

theorem writesFor_incr (key : String) (amount : Int64) (ttl : Nat) :
    WritesFor (Int64.ofNat ttl) (incr keyPrefix key amount (some ttl)) :=
  .write (.incrBy (prefixed keyPrefix key) amount) .integer

theorem writesFor_setMany (entries : List (String × Value)) (ttl : Nat) :
    WritesFor (Int64.ofNat ttl) (setMany library keyPrefix entries (some ttl)) := by
  rw [setMany]
  split
  · exact .empty .null
  · exact .write (.mset _) fun _ => .null

theorem writesFor_timed {ttl : Nat} {call : Call}
    (timed : TimedCall profile library keyPrefix ttl call) : WritesFor (Int64.ofNat ttl) call := by
  cases timed with
  | incr key amount => exact writesFor_incr key amount ttl
  | decr key amount call runs =>
      rw [decr] at runs
      split at runs
      · cases runs
      · obtain rfl := Except.ok.inj runs
        exact writesFor_incr key (-amount) ttl
  | setMany entries => exact writesFor_setMany entries ttl

/-- A life that was asked for by name counts seconds from one on. -/
theorem pos_of_resolveExplicitTtl {host : Host} {named : List (String × Value)} {ttl : Nat}
    (asked : resolveExplicitTtl host named = some ttl) : 0 < Int64.ofNat ttl := by
  obtain ⟨before, ⟨name, value⟩, after, -, found, -⟩ := List.findSome?_eq_some_iff.mp asked
  dsimp only at found
  split at found
  · obtain ⟨seconds, -, positive⟩ := Option.bind_eq_some_iff.mp found
    split at positive
    · rename_i larger
      obtain rfl := Option.some.inj positive
      have least : 0 ≤ seconds := Int64.le_iff_toInt_le.mpr (Int.le_of_lt
        (Int64.lt_iff_toInt_lt.mp larger))
      rwa [Int64.ofNat_toNatClampNeg seconds least]
    · cases positive
  · cases found

end Calls

/-! ## Counters -/

section Counters

variable {σ : Type} {server : Server σ Command Int64} {view : σ → Store}
  {delivery : Nat → Delivery} {keyPrefix : String}

theorem spelledNumber_toString (number : Int) :
    spelledNumber (toString number).toList = number := by
  rw [Int.toString_eq_repr, Int.repr_eq_if]
  split
  · rename_i positive
    rw [Nat.toList_repr]
    have spelled : spelledNumber (Nat.toDigits 10 number.toNat) =
        Nat.ofDigitChars 10 (Nat.toDigits 10 number.toNat) 0 := by
      have plain : '-' ∉ Nat.toDigits 10 number.toNat := fun member =>
        absurd (Nat.isDigit_of_mem_toDigits (by decide) (by decide) member) (by decide)
      cases known : Nat.toDigits 10 number.toNat with
      | nil => rfl
      | cons first rest =>
          rw [spelledNumber]
          rintro digits same
          rw [known, (List.cons.inj same).1] at plain
          exact plain List.mem_cons_self
    rw [spelled, Nat.ofDigitChars_ten_toDigits]
    omega
  · have front : ("-" ++ (-number).toNat.repr).toList = '-' :: Nat.toDigits 10 (-number).toNat := by
      rw [String.toList_append, Nat.toList_repr]
      rfl
    rw [front, spelledNumber, Nat.ofDigitChars_ten_toDigits]
    omega

theorem readCounter_toString {number : Int} (lower : -2 ^ 63 ≤ number) (upper : number < 2 ^ 63) :
    readCounter (toString number) = some number := by
  rw [readCounter, spelledNumber_toString]
  exact if_pos ⟨rfl, lower, upper⟩

theorem count?_put {store : Store} {key : String} {number : Int} {expiry : Option Int64}
    (lower : -2 ^ 63 ≤ number) (upper : number < 2 ^ 63) :
    (store.put key ⟨toString number, expiry⟩).count? key = some number := by
  rw [Store.count?, Store.put_same]
  exact readCounter_toString lower upper

/-- A command has no effect when it does not arrive or is refused. -/
def NoEffect (server : Server σ Command Int64) (delivery : Nat → Delivery) (state : σ)
    (write : Command) : Prop :=
  delivery 0 = .lost ∨ server write state = none

/-- The commands of a counter. -/
def counting (key : String) (amount : Int64) (ttl : Option Nat) : List Command :=
  .incrBy key amount :: expirations ttl [key]

/-- What comes after the number is stored changes no number. -/
theorem count?_run_expirations (redis : Redis server view) {ttl : Option Nat}
    (positive : ∀ seconds ∈ ttl, 0 < Int64.ofNat seconds) {state : σ} {key : String}
    (known : (view state key).isSome = true) (result : Value) :
    (view (run server delivery (sendAll (expirations ttl [key]) result) 1 state).1).count? key =
      (view state).count? key := by
  cases ttl with
  | none => rfl
  | some ttl =>
      have present : ∀ name ∈ [key], (view state name).isSome = true := by
        intro name member
        rwa [List.mem_singleton.mp member]
      change (view (run _ _ (expireAll (Int64.ofNat ttl) [key] result) 1 state).1).count? key = _
      obtain ⟨executed, otherwise⟩ := @run_expireAll σ server view Value (Int64.ofNat ttl) delivery
        result redis (positive ttl rfl) [key] 1 state present key
      rw [Store.count?, Store.count?]
      by_cases reached : Expired server delivery (Int64.ofNat ttl) key 1 state [key]
      · obtain ⟨entry, found⟩ := Option.isSome_iff_exists.mp known
        rw [executed reached, found]
        rfl
      · rw [otherwise reached]

/-- The number is returned when the life, if one is asked for, is answered too. -/
theorem outcome_expirations {ttl : Option Nat} {state : σ} {key : String} {result other : Value} :
    (run server delivery (sendAll (expirations ttl [key]) result) 1 state).2 =
      .returned other ↔
        AllAnswered server delivery 1 state (expirations ttl [key]) ∧ other = result := by
  cases ttl with
  | none =>
      constructor
      · intro same
        exact ⟨trivial, (Outcome.returned.inj same).symm⟩
      · rintro ⟨-, rfl⟩
        rfl
  | some ttl =>
      change (run server delivery
        (.send (Command.expire key (Int64.ofNat ttl)) fun _ => .done result) 1 state).2 = _ ↔
          AllAnswered server delivery 1 state [.expire key (Int64.ofNat ttl)] ∧ _
      cases handled : server (.expire key (Int64.ofNat ttl)) state with
      | none =>
          refine iff_of_false ((run_refused handled).2 other) ?_
          rintro ⟨⟨-, after, reply, accepted, -⟩, -⟩
          rw [handled] at accepted
          cases accepted
      | some pair =>
          obtain ⟨after, reply⟩ := pair
          rw [allAnswered_cons handled]
          cases arrives : delivery 1 with
          | lost =>
              rw [run_lost arrives]
              simp
          | unanswered =>
              rw [run_unanswered arrives handled]
              simp
          | answered =>
              rw [run_answered arrives handled]
              simp [run, AllAnswered, eq_comm]

/-- What a counter is after a call, and what the call returns. -/
theorem incr_cases (redis : Redis server view) {ttl : Option Nat}
    (positive : ∀ seconds ∈ ttl, 0 < Int64.ofNat seconds) (state : σ) (key : String)
    (amount : Int64) :
    let pkey := prefixed keyPrefix key
    let left := run server delivery (incr keyPrefix key amount ttl) 0 state
    (NoEffect server delivery state (.incrBy pkey amount) ∧
      (view left.1).count? pkey = (view state).count? pkey ∧ ∀ value, left.2 ≠ .returned value) ∨
    ¬ NoEffect server delivery state (.incrBy pkey amount) ∧
      ∃ count, (view state).count? pkey = some count ∧
        (view left.1).count? pkey = some (count + amount.toInt) ∧
        ∀ value, left.2 = .returned value ↔
          AllAnswered server delivery 0 state (counting pkey amount ttl) ∧
            value = .integer (.ofInt (count + amount.toInt)) := by
  intro pkey left
  by_cases lost : delivery 0 = .lost
  · refine .inl ⟨.inl lost, ?_⟩
    have stops : left = (state, .interrupted) := run_lost lost
    rw [stops]
    refine ⟨rfl, fun value same => ?_⟩
    cases same
  cases handled : server (.incrBy pkey amount) state with
  | none =>
      refine .inl ⟨.inr handled, ?_⟩
      simp only [left, incr]
      rw [(run_refused handled).1]
      exact ⟨rfl, (run_refused handled).2⟩
  | some pair =>
      obtain ⟨after, reply⟩ := pair
      have effect : ¬ NoEffect server delivery state (.incrBy pkey amount) := by
        rintro (missing | refused)
        · exact lost missing
        · rw [handled] at refused
          cases refused
      have present := isSome_of_accepted redis handled pkey List.mem_cons_self
      obtain ⟨count, counted, range, put, replied⟩ := redis.incrBy handled
      have stored : (view after).count? pkey = some (count + amount.toInt) := by
        rw [put]
        exact count?_put range.1 range.2
      refine .inr ⟨effect, count, counted, ?_⟩
      rw [counting, allAnswered_cons handled]
      simp only [left, incr]
      cases arrives : delivery 0 with
      | lost => exact absurd arrives lost
      | unanswered =>
          rw [run_unanswered arrives handled]
          refine ⟨stored, fun value => iff_of_false (fun same => ?_) ?_⟩
          · cases same
          · rintro ⟨⟨answered, -⟩, -⟩
            cases answered
      | answered =>
          rw [run_answered arrives handled, count?_run_expirations redis positive present, replied]
          refine ⟨stored, fun value => ?_⟩
          rw [outcome_expirations]
          exact and_congr_left fun _ => (and_iff_right rfl).symm

/-- The number is smaller by the amount, and returned; or an error left it alone. -/
def Subtracted (amount : Int64) (key : String) (before after : Store) : Outcome Value → Prop
  | .returned value => ∃ count, before.count? key = some count ∧
      after.count? key = some (count - amount.toInt) ∧
        value = .integer (.ofInt (count - amount.toInt))
  | .refused | .interrupted => after.count? key = before.count? key

/-- What a call does to a counter that is asked to sink.  A panic is neither a number nor an
error. -/
def Sinks (server : Server σ Command Int64) (view : σ → Store) (delivery : Nat → Delivery)
    (state : σ) (key : String) (amount : Int64) : Except LibraryFault Call → Prop
  | .error _ => False
  | .ok call =>
      let left := run server delivery call 0 state
      Subtracted amount key (view state) (view left.1) left.2

/-- The calls that count down exactly: no least amount, and nothing lost after the number
is stored. -/
def Exact (server : Server σ Command Int64) (delivery : Nat → Delivery)
    (profile : BuildProfile) (state : σ) (key : String) (amount : Int64) (ttl : Option Nat) :
    Prop :=
  if amount = Int64.minValue then
    profile = .release ∧ NoEffect server delivery state (.incrBy key amount)
  else
    NoEffect server delivery state (.incrBy key (-amount)) ∨ amount = 0 ∨
      AllAnswered server delivery 0 state (counting key (-amount) ttl)

theorem toInt_neg {amount : Int64} (larger : amount ≠ Int64.minValue) :
    (-amount).toInt = -amount.toInt := by
  have lower := amount.le_toInt
  have upper := amount.toInt_lt
  have other : amount.toInt ≠ -2 ^ 63 := fun same => larger (Int64.toInt_inj.mp same)
  rw [Int64.toInt_neg]
  apply Int.bmod_eq_of_le
  · omega
  · omega

theorem subtracted_of_failed {amount : Int64} {key : String} {before after : Store}
    {outcome : Outcome Value} (failed : ∀ value, outcome ≠ .returned value) :
    Subtracted amount key before after outcome ↔ after.count? key = before.count? key := by
  cases outcome with
  | returned value => exact absurd rfl (failed value)
  | refused => rfl
  | interrupted => rfl

theorem sinks_incr_iff (redis : Redis server view) {ttl : Option Nat}
    (positive : ∀ seconds ∈ ttl, 0 < Int64.ofNat seconds) (state : σ) (key : String)
    (step amount : Int64) :
    Sinks server view delivery state (prefixed keyPrefix key) amount
        (.ok (incr keyPrefix key step ttl)) ↔
      NoEffect server delivery state (.incrBy (prefixed keyPrefix key) step) ∨
        AllAnswered server delivery 0 state (counting (prefixed keyPrefix key) step ttl) ∧
            step.toInt = -amount.toInt ∨
          ¬ AllAnswered server delivery 0 state (counting (prefixed keyPrefix key) step ttl) ∧
            step.toInt = 0 := by
  change Subtracted amount _ (view state) _ _ ↔ _
  rcases @incr_cases σ server view delivery keyPrefix redis ttl positive state key step with
    ⟨silent, same, failed⟩ | ⟨effect, count, counted, stored, returns⟩
  · rw [subtracted_of_failed failed]
    exact iff_of_true same (.inl silent)
  · by_cases complete : AllAnswered server delivery 0 state
        (counting (prefixed keyPrefix key) step ttl)
    · rw [(returns _).mpr ⟨complete, rfl⟩, Subtracted]
      constructor
      · rintro ⟨other, known, sunk, -⟩
        rw [counted] at known
        rw [stored] at sunk
        obtain rfl := Option.some.inj known
        have total := Option.some.inj sunk
        exact .inr (.inl ⟨complete, by omega⟩)
      · rintro (silent | ⟨-, opposite⟩ | ⟨incomplete, -⟩)
        · exact absurd silent effect
        · have total : count + step.toInt = count - amount.toInt := by omega
          rw [total] at stored ⊢
          exact ⟨count, counted, stored, rfl⟩
        · exact absurd complete incomplete
    · have failed : ∀ value, (run server delivery (incr keyPrefix key step ttl) 0
          state).2 ≠ .returned value := fun value same => complete ((returns value).mp same).1
      rw [subtracted_of_failed failed, stored, counted, Option.some.injEq]
      constructor
      · intro same
        exact .inr (.inr ⟨complete, by omega⟩)
      · rintro (silent | ⟨whole, -⟩ | ⟨-, zero⟩)
        · exact absurd silent effect
        · exact absurd whole complete
        · omega

theorem sinks_iff_exact (redis : Redis server view) {profile : BuildProfile} {ttl : Option Nat}
    (positive : ∀ seconds ∈ ttl, 0 < Int64.ofNat seconds) (state : σ) (key : String)
    (amount : Int64) :
    Sinks server view delivery state (prefixed keyPrefix key) amount
        (decr profile keyPrefix key amount ttl) ↔
      Exact server delivery profile state (prefixed keyPrefix key) amount ttl := by
  rw [decr, Exact]
  by_cases least : amount = Int64.minValue
  · rw [if_pos least]
    cases profile with
    | debug =>
        rw [if_pos ⟨least, rfl⟩]
        refine iff_of_false id ?_
        rintro ⟨other, -⟩
        cases other
    | release =>
        have wraps : -Int64.minValue = Int64.minValue := by decide
        have size : Int64.minValue.toInt = -2 ^ 63 := by decide
        have checked : ¬ (amount = Int64.minValue ∧ BuildProfile.release = .debug) := by
          rintro ⟨-, other⟩
          cases other
        rw [if_neg checked, sinks_incr_iff redis positive, least, wraps, size]
        simp
  · have zero : (-amount).toInt = 0 ↔ amount = 0 := by
      rw [toInt_neg least, ← Int64.toInt_inj]
      change _ ↔ amount.toInt = 0
      omega
    rw [if_neg least, if_neg fun both => least both.1, sinks_incr_iff redis positive, zero]
    simp only [toInt_neg least, and_true]
    tauto

end Counters

/-! ## Host -/

/-- A call with a life leaves each key it writes with that life, or as it was, exactly when it is
timely.  A counter sinks by the amount, or stays and an error says so, exactly on the exact
calls. -/
theorem cacheWrites_iff {σ : Type} {server : Server σ Command Int64} {view : σ → Store}
    (redis : Redis server view) {host : Host} {profile : BuildProfile} {keyPrefix : String}
    {named : List (String × Value)} {ttl : Nat} {call : Call}
    (asked : resolveExplicitTtl host named = some ttl)
    (timed : TimedCall profile host.library keyPrefix ttl call)
    (delivery : Nat → Delivery) (state : σ) (options : List (String × Value)) (key : String)
    (amount : Int64) :
    ((∀ key ∈ written call,
        Kept (Int64.ofNat ttl) (view state) (view (run server delivery call 0 state).1) key) ↔
      TimelyCall server view (Int64.ofNat ttl) delivery state call) ∧
    (Sinks server view delivery state (prefixed keyPrefix key) amount
        (decr profile keyPrefix key amount (resolveExplicitTtl host options)) ↔
      Exact server delivery profile state (prefixed keyPrefix key) amount
        (resolveExplicitTtl host options)) := by
  constructor
  · exact kept_iff_timelyCall redis state (pos_of_resolveExplicitTtl asked) (writesFor_timed timed)
  · apply sinks_iff_exact redis
    intro seconds found
    exact pos_of_resolveExplicitTtl (Option.mem_def.mp found)

/-- A server that refuses a counter that is no number or leaves the range, and a life longer
than its clock. -/
def handle (longest : Int64) : Server Store Command Int64
  | .incrBy key amount, store =>
      match store.count? key with
      | none => none
      | some count =>
          let total := count + amount.toInt
          if -2 ^ 63 ≤ total ∧ total < 2 ^ 63 then
            some (store.put key ⟨toString total, (store key).bind (·.expiry)⟩, .ofInt total)
          else none
  | .expire key seconds, store =>
      if longest < seconds then none
      else some (store.expire key seconds, if (store key).isSome then 1 else 0)
  | .mset pairs, store => some (store.putAll pairs, 0)

theorem redis_handle (longest : Int64) : Redis (handle longest) id where
  incrBy := by
    intro key amount reply store after accepted
    simp only [handle] at accepted
    split at accepted
    · cases accepted
    · rename_i count counted
      split at accepted
      · rename_i range
        obtain ⟨rfl, rfl⟩ := Prod.mk.inj (Option.some.inj accepted)
        exact ⟨count, counted, range, rfl, rfl⟩
      · cases accepted
  expire := by
    intro key seconds reply store after accepted
    simp only [handle] at accepted
    split at accepted
    · cases accepted
    · exact ((Prod.mk.inj (Option.some.inj accepted)).1).symm
  mset := by
    intro pairs reply store after accepted
    exact ((Prod.mk.inj (Option.some.inj accepted)).1).symm

def noKeys : Store := fun _ => none

def allArrive : Nat → Delivery := fun _ => .answered

theorem cacheWrites_iff_minute :
    Kept 60 noKeys (run (handle 1000) allArrive (incr "" "logins" 1 (some 60)) 0 noKeys).1
      "logins" ∧
    Sinks (handle 1000) id allArrive noKeys "logins" 2 (decr .debug "" "logins" 2 none) := by
  obtain ⟨life, sinks⟩ := @cacheWrites_iff Store (handle 1000) id (redis_handle 1000) emptyHost
    .debug "" [("ttl", .integer 60)] 60 (incr "" "logins" 1 (some 60)) rfl (.incr "logins" 1)
    allArrive noKeys [] "logins" 2
  have arrives : allArrive 1 ≠ .lost := by decide
  constructor
  · have timely : TimelyCall (handle 1000) id 60 allArrive noKeys
        (incr "" "logins" 1 (some 60)) := by
      intro sent after reply write key member
      obtain rfl := List.mem_singleton.mp member
      have expires : handle 1000 (.expire "logins" 60) after =
          some (Store.expire after "logins" 60, if (after "logins").isSome then 1 else 0) := by
        rw [handle]
        exact if_neg (by decide)
      exact .inl ⟨rfl, .first arrives expires⟩
    exact life.mpr timely "logins" List.mem_cons_self
  · have counted : noKeys.count? "logins" = some 0 := rfl
    have accepted : handle 1000 (.incrBy "logins" (-2)) noKeys =
        some (noKeys.put "logins" ⟨toString (0 + (-2 : Int64).toInt), none⟩,
          .ofInt (0 + (-2 : Int64).toInt)) := by
      simp only [handle, counted]
      exact if_pos (by decide)
    have counts : Exact (handle 1000) allArrive .debug noKeys "logins" 2 none := by
      rw [Exact, if_neg (by decide)]
      exact .inr (.inr ((allAnswered_cons accepted).mpr ⟨rfl, trivial⟩))
    exact sinks.mpr counts

/-- The number is stored and the command that ends its life is lost. -/
def cutShort : Nat → Delivery
  | 0 => .answered
  | _ => .lost

def inStock : Store :=
  noKeys.put "stock" ⟨"5", none⟩

/-- A counter that should last a minute stays for ever.  The least amount stops the thread, or
in a release build counts the wrong way. -/
theorem cacheWrites_lost :
    (∃ named ttl, resolveExplicitTtl emptyHost named = some ttl ∧
      ∃ call, TimedCall .release emptyHost.library "" ttl call ∧ ∃ key ∈ written call,
        ¬ Kept (Int64.ofNat ttl) noKeys (run (handle 1000) cutShort call 0 noKeys).1 key) ∧
    (¬ Sinks (handle 1000) id allArrive noKeys "stock" Int64.minValue
      (decr .debug "" "stock" Int64.minValue none)) ∧
    ¬ Sinks (handle 1000) id allArrive inStock "stock" Int64.minValue
      (decr .release "" "stock" Int64.minValue none) := by
  refine ⟨⟨[("ttl", .integer 60)], 60, rfl, incr "" "logins" 1 (some 60), .incr "logins" 1,
    "logins", List.mem_cons_self, ?_⟩, id, ?_⟩
  · have left : (run (handle 1000) cutShort (incr "" "logins" 1 (some 60)) 0 noKeys).1
        "logins" = some ⟨toString (1 : Int), none⟩ := rfl
    rintro (same | ⟨entry, found, lives⟩)
    · rw [left] at same
      cases same
    · rw [left] at found
      obtain rfl := Option.some.inj found
      cases lives
  · have counted : inStock.count? "stock" = some 5 := by
      rw [Store.count?, inStock, Store.put_same]
      exact @readCounter_toString 5 (by decide) (by decide)
    intro sinks
    have positive : ∀ seconds ∈ (none : Option Nat), 0 < Int64.ofNat seconds := by
      intro seconds member
      cases member
    have sinksExactly := (@sinks_iff_exact Store (handle 1000) id allArrive "" (redis_handle 1000)
      .release none positive inStock "stock" Int64.minValue).mp sinks
    rw [Exact, if_pos rfl] at sinksExactly
    rcases sinksExactly.2 with lost | refused
    · cases lost
    · simp only [handle, prefixed, if_true, counted] at refused
      rw [if_pos (by decide)] at refused
      cases refused

end Cache

end Marreta
