import Marreta.Runtime.TimeNamespace
import Marreta.Schema.Soundness

namespace Marreta

open Foundation

/-! Intervals of instants, dates or times.

A program gets an interval from `time.interval`, or from a schema with a field of that type.
Neither looks at the order of the two ends. -/

namespace TimeNamespace

open Operators (typeError)

section Functions

variable (position : Position)

def temporalValueFromRuntimeValue (value : Value) : Except LibraryFault TemporalValue :=
  match temporal? value with
  | some temporal => .ok temporal
  | none =>
      typeError position
        ("expected temporal value (instant, date, or time), got " ++ value.typeName)

def ensureSameTemporalKind (left right : TemporalValue) : Except LibraryFault Unit :=
  if Validator.sameTemporalKind left right then .ok ()
  else typeError position "temporal values must share the same type"

def intervalContains (start stop value : TemporalValue) : Except LibraryFault Bool :=
  match start, stop, value with
  | .instant start, .instant stop, .instant value => .ok (value ≥ start ∧ value ≤ stop)
  | .date start, .date stop, .date value => .ok (value ≥ start ∧ value ≤ stop)
  | .time start, .time stop, .time value => .ok (value ≥ start ∧ value ≤ stop)
  | _, _, _ =>
      typeError position "time.contains() requires interval and value of the same temporal type"

def intervalsOverlap (leftStart leftStop rightStart rightStop : TemporalValue) :
    Except LibraryFault Bool :=
  match leftStart, leftStop, rightStart, rightStop with
  | .instant leftStart, .instant leftStop, .instant rightStart, .instant rightStop =>
      .ok (leftStart ≤ rightStop ∧ rightStart ≤ leftStop)
  | .date leftStart, .date leftStop, .date rightStart, .date rightStop =>
      .ok (leftStart ≤ rightStop ∧ rightStart ≤ leftStop)
  | .time leftStart, .time leftStop, .time rightStart, .time rightStop =>
      .ok (leftStart ≤ rightStop ∧ rightStart ≤ leftStop)
  | _, _, _, _ =>
      typeError position "time.overlaps() requires intervals with matching temporal types"

def dispatchInterval (arguments : List Value) : Except LibraryFault Value :=
  match arguments with
  | start :: stop :: _ => do
      let start ← temporalValueFromRuntimeValue position start
      let stop ← temporalValueFromRuntimeValue position stop
      ensureSameTemporalKind position start stop
      return .interval start stop
  | _ => typeError position "time.interval() requires start and end"

def dispatchContains (arguments : List Value) : Except LibraryFault Value :=
  match arguments with
  | .interval start stop :: value :: _ => do
      let value ← temporalValueFromRuntimeValue position value
      ensureSameTemporalKind position start value
      return .boolean (← intervalContains position start stop value)
  | .interval _ _ :: _ | [] => typeError position "time.contains() requires interval and value"
  | other :: _ =>
      typeError position
        ("time.contains() requires Interval as first argument, got " ++ other.typeName)

def dispatchOverlaps (arguments : List Value) : Except LibraryFault Value :=
  match arguments with
  | .interval leftStart leftStop :: .interval rightStart rightStop :: _ => do
      ensureSameTemporalKind position leftStart rightStart
      return .boolean (← intervalsOverlap position leftStart leftStop rightStart rightStop)
  | .interval _ _ :: other :: _ =>
      typeError position
        ("time.overlaps() requires Interval as second argument, got " ++ other.typeName)
  | .interval _ _ :: _ | [] => typeError position "time.overlaps() requires two intervals"
  | other :: _ =>
      typeError position
        ("time.overlaps() requires Interval as first argument, got " ++ other.typeName)

def dispatchIntervals (library : Library) (method : String) (arguments : List Value) :
    Except LibraryFault Value :=
  if method = "interval" then dispatchInterval position arguments
  else if method = "contains" then dispatchContains position arguments
  else if method = "overlaps" then dispatchOverlaps position arguments
  else library.time position method arguments

end Functions
end TimeNamespace

/-- The library with these functions. -/
def Library.withIntervals (library : Library) : Library :=
  { library with time := fun position => TimeNamespace.dispatchIntervals position library }

/-! ## Values in order -/

inductive TemporalKind where
  | instant | date | time
deriving DecidableEq

namespace TemporalValue

/-- Where the value stands among those of its kind. -/
def amount : TemporalValue → Int
  | .instant nanoseconds => nanoseconds
  | .date days => days
  | .time nanoseconds => nanoseconds

def toValue : TemporalValue → Value
  | .instant nanoseconds => .instant nanoseconds
  | .date days => .date days
  | .time nanoseconds => .time nanoseconds

def kind : TemporalValue → TemporalKind
  | .instant _ => .instant
  | .date _ => .date
  | .time _ => .time

theorem sameTemporalKind_iff {left right : TemporalValue} :
    Validator.sameTemporalKind left right = true ↔ left.kind = right.kind := by
  cases left <;> cases right <;> simp [Validator.sameTemporalKind, kind]

theorem temporal?_toValue (temporal : TemporalValue) :
    TimeNamespace.temporal? temporal.toValue = some temporal := by
  cases temporal <;> rfl

end TemporalValue

namespace TimeNamespace

open Operators (typeError)

variable {position : Position}

theorem ensureSameTemporalKind_ok {left right : TemporalValue} (alike : left.kind = right.kind) :
    ensureSameTemporalKind position left right = .ok () :=
  if_pos ((TemporalValue.sameTemporalKind_iff).mpr alike)

theorem ensureSameTemporalKind_error {left right : TemporalValue}
    (differ : left.kind ≠ right.kind) :
    ensureSameTemporalKind position left right =
      typeError position "temporal values must share the same type" :=
  if_neg fun same => differ ((TemporalValue.sameTemporalKind_iff).mp same)

theorem temporalValueFromRuntimeValue_ok {value : Value} {temporal : TemporalValue}
    (known : temporal? value = some temporal) :
    temporalValueFromRuntimeValue position value = .ok temporal := by
  rw [temporalValueFromRuntimeValue, known]

theorem temporalValueFromRuntimeValue_error {value : Value} (unknown : temporal? value = none) :
    ∃ fault, temporalValueFromRuntimeValue position value = .error fault := by
  rw [temporalValueFromRuntimeValue, unknown]
  exact ⟨_, rfl⟩

theorem intervalContains_eq {start stop value : TemporalValue} (ends : start.kind = stop.kind)
    (inside : start.kind = value.kind) :
    intervalContains position start stop value =
      .ok (decide (start.amount ≤ value.amount ∧ value.amount ≤ stop.amount)) := by
  cases start <;> cases stop <;> cases value <;>
    first | rfl | simp_all [TemporalValue.kind, intervalContains, TemporalValue.amount]

theorem intervalsOverlap_eq {leftStart leftStop rightStart rightStop : TemporalValue}
    (left : leftStart.kind = leftStop.kind) (right : rightStart.kind = rightStop.kind)
    (same : leftStart.kind = rightStart.kind) :
    intervalsOverlap position leftStart leftStop rightStart rightStop =
      .ok (decide (leftStart.amount ≤ rightStop.amount ∧ rightStart.amount ≤ leftStop.amount)) := by
  cases leftStart <;> cases leftStop <;> cases rightStart <;> cases rightStop <;>
    first | rfl | simp_all [TemporalValue.kind, intervalsOverlap, TemporalValue.amount]

/-! ## Contained values and overlaps -/

def IsTrue (result : Except LibraryFault Value) : Prop :=
  result = .ok (.boolean true)

section Laws

variable {library : Library} {start stop : TemporalValue}

/-- A value is contained if it has the kind of the interval and stands between its ends. -/
theorem contains_iff (ends : start.kind = stop.kind) (value : Value) :
    IsTrue (library.withIntervals.time position "contains" [.interval start stop, value]) ↔
      ∃ temporal, temporal? value = some temporal ∧ start.kind = temporal.kind ∧
        start.amount ≤ temporal.amount ∧ temporal.amount ≤ stop.amount := by
  change IsTrue (temporalValueFromRuntimeValue position value >>= fun value => do
    ensureSameTemporalKind position start value
    return .boolean (← intervalContains position start stop value)) ↔ _
  cases known : temporal? value with
  | none =>
      obtain ⟨fault, fails⟩ := @temporalValueFromRuntimeValue_error position _ known
      rw [fails]
      exact iff_of_false nofun nofun
  | some temporal =>
      rw [temporalValueFromRuntimeValue_ok known]
      change IsTrue (ensureSameTemporalKind position start temporal >>= fun _ => do
        return .boolean (← intervalContains position start stop temporal)) ↔ _
      by_cases alike : start.kind = temporal.kind
      · rw [ensureSameTemporalKind_ok alike]
        change IsTrue (intervalContains position start stop temporal >>= fun holds =>
          return .boolean holds) ↔ _
        rw [intervalContains_eq ends alike]
        simp [IsTrue, alike, bind, Except.bind, pure, Except.pure]
      · rw [ensureSameTemporalKind_error alike]
        simp [IsTrue, alike, bind, Except.bind, typeError]

theorem overlaps_iff {otherStart otherStop : TemporalValue} (ends : start.kind = stop.kind)
    (others : otherStart.kind = otherStop.kind) :
    IsTrue (library.withIntervals.time position "overlaps"
        [.interval start stop, .interval otherStart otherStop]) ↔
      start.kind = otherStart.kind ∧ start.amount ≤ otherStop.amount ∧
        otherStart.amount ≤ stop.amount := by
  change IsTrue (ensureSameTemporalKind position start otherStart >>= fun _ => do
    return .boolean (← intervalsOverlap position start stop otherStart otherStop)) ↔ _
  by_cases alike : start.kind = otherStart.kind
  · rw [ensureSameTemporalKind_ok alike]
    change IsTrue (intervalsOverlap position start stop otherStart otherStop >>= fun holds =>
      return .boolean holds) ↔ _
    rw [intervalsOverlap_eq ends others alike]
    simp [IsTrue, alike, bind, Except.bind, pure, Except.pure]
  · rw [ensureSameTemporalKind_error alike]
    simp [IsTrue, alike, bind, Except.bind, typeError]

/-- The order of two intervals does not matter, also where they are of different kinds. -/
theorem overlaps_comm {otherStart otherStop : TemporalValue} (ends : start.kind = stop.kind)
    (others : otherStart.kind = otherStop.kind) :
    library.withIntervals.time position "overlaps"
        [.interval start stop, .interval otherStart otherStop] =
      library.withIntervals.time position "overlaps"
        [.interval otherStart otherStop, .interval start stop] := by
  change (ensureSameTemporalKind position start otherStart >>= fun _ => do
      return Value.boolean (← intervalsOverlap position start stop otherStart otherStop)) =
    (ensureSameTemporalKind position otherStart start >>= fun _ => do
      return Value.boolean (← intervalsOverlap position otherStart otherStop start stop))
  by_cases alike : start.kind = otherStart.kind
  · have same : decide (start.amount ≤ otherStop.amount ∧ otherStart.amount ≤ stop.amount) =
        decide (otherStart.amount ≤ stop.amount ∧ start.amount ≤ otherStop.amount) :=
      decide_eq_decide.mpr and_comm
    rw [ensureSameTemporalKind_ok alike, ensureSameTemporalKind_ok alike.symm,
      intervalsOverlap_eq ends others alike, intervalsOverlap_eq others ends alike.symm, same]
  · rw [ensureSameTemporalKind_error alike, ensureSameTemporalKind_error (Ne.symm alike)]
    rfl

end Laws

/-! ## Where intervals come from -/

/-- A call of `time.interval`, or a map for a field of a schema.  A field that is given an
interval keeps it. -/
inductive Source where
  | call (arguments : List Value)
  | field (entries : ValueMap) (path : String)

namespace Source

variable (library : Library) (formats : ValueFormats) (position : Position)

def build : Source → Except LibraryFault Value
  | .call arguments => library.withIntervals.time position "interval" arguments
  | .field entries path => Validator.coerceInterval formats (.map entries) path

/-- The ends that are given. -/
def ends : Source → Option (TemporalValue × TemporalValue)
  | .call (start :: stop :: _) => do return (← temporal? start, ← temporal? stop)
  | .call _ => none
  | .field entries _ => do
      return (← (ValueMap.get? entries "start").bind (temporalOf formats),
        ← (ValueMap.get? entries "end").bind (temporalOf formats))

/-- The ends are of one kind, the end before the start. -/
def Reversed (source : Source) : Prop :=
  ∃ start stop, source.ends formats = some (start, stop) ∧ start.kind = stop.kind ∧
    stop.amount < start.amount

variable {library formats position}

theorem build_call_iff {arguments : List Value} {value : Value} :
    build library formats position (.call arguments) = .ok value ↔
      ∃ start stop, (Source.call arguments).ends formats = some (start, stop) ∧
        start.kind = stop.kind ∧ value = .interval start stop := by
  change dispatchInterval position arguments = .ok value ↔ _
  match arguments with
  | [] => exact iff_of_false nofun nofun
  | [_] => exact iff_of_false nofun nofun
  | first :: last :: rest =>
      change (temporalValueFromRuntimeValue position first >>= fun start => do
        let stop ← temporalValueFromRuntimeValue position last
        ensureSameTemporalKind position start stop
        return Value.interval start stop) = .ok value ↔ _
      rw [ends]
      cases knownStart : temporal? first with
      | none =>
          obtain ⟨fault, fails⟩ := @temporalValueFromRuntimeValue_error position _ knownStart
          rw [fails]
          exact iff_of_false nofun nofun
      | some start =>
          rw [temporalValueFromRuntimeValue_ok knownStart]
          change (temporalValueFromRuntimeValue position last >>= fun stop => do
            ensureSameTemporalKind position start stop
            return Value.interval start stop) = .ok value ↔ _
          cases knownStop : temporal? last with
          | none =>
              obtain ⟨fault, fails⟩ := @temporalValueFromRuntimeValue_error position _ knownStop
              rw [fails]
              exact iff_of_false nofun nofun
          | some stop =>
              rw [temporalValueFromRuntimeValue_ok knownStop]
              change (ensureSameTemporalKind position start stop >>= fun _ =>
                return Value.interval start stop) = .ok value ↔ _
              by_cases alike : start.kind = stop.kind
              · rw [ensureSameTemporalKind_ok alike]
                simp [bind, Except.bind, pure, Except.pure, alike, eq_comm]
              · rw [ensureSameTemporalKind_error alike]
                simp [bind, Except.bind, typeError, alike]

theorem build_field_iff {entries : ValueMap} {path : String} {value : Value} :
    build library formats position (.field entries path) = .ok value ↔
      ∃ start stop, (Source.field entries path).ends formats = some (start, stop) ∧
        start.kind = stop.kind ∧ value = .interval start stop := by
  rw [build, Validator.coerceInterval, Validator.intervalEnd, Validator.intervalEnd, ends]
  cases foundStart : ValueMap.get? entries "start" with
  | none => simp [bind, Except.bind, Validator.error422]
  | some first =>
      cases foundStop : ValueMap.get? entries "end" with
      | none => simp [bind, Except.bind, Validator.error422]
      | some last =>
          simp only [bind, Except.bind]
          rcases @Validator.coerceTemporalComponent_eq formats first (path ++ ".start") with
            ⟨start, known, read⟩ | ⟨unknown, fault, -, read⟩
          · rcases @Validator.coerceTemporalComponent_eq formats last (path ++ ".end") with
              ⟨stop, knownStop, readStop⟩ | ⟨unknown, fault, -, readStop⟩
            · by_cases alike : start.kind = stop.kind
              · simp only [read, readStop, Option.bind_some, known, knownStop,
                  if_pos ((TemporalValue.sameTemporalKind_iff).mpr alike)]
                constructor
                · intro same
                  cases same
                  exact ⟨start, stop, rfl, alike, rfl⟩
                · rintro ⟨_, _, same, -, rfl⟩
                  cases same
                  rfl
              · simp [read, readStop, known, knownStop, alike, TemporalValue.sameTemporalKind_iff,
                  Validator.error422]
            · simp [read, readStop, unknown]
          · simp [read, unknown]

/-- An interval is made of two ends of one kind. -/
theorem build_iff (source : Source) {value : Value} :
    build library formats position source = .ok value ↔
      ∃ start stop, source.ends formats = some (start, stop) ∧ start.kind = stop.kind ∧
        value = .interval start stop := by
  cases source with
  | call arguments => exact build_call_iff
  | field entries path => exact build_field_iff

end Source

/-! ## The laws -/

section Lawful

variable (library : Library) (position : Position)

/-- What holds of two intervals. -/
structure IntervalLaws (start stop otherStart otherStop : TemporalValue) : Prop where
  contains_start : IsTrue (library.withIntervals.time position "contains"
    [.interval start stop, start.toValue])
  contains_stop : IsTrue (library.withIntervals.time position "contains"
    [.interval start stop, stop.toValue])
  convex : ∀ first last between : TemporalValue,
    IsTrue (library.withIntervals.time position "contains" [.interval start stop, first.toValue]) →
    IsTrue (library.withIntervals.time position "contains" [.interval start stop, last.toValue]) →
    between.kind = first.kind → first.amount ≤ between.amount → between.amount ≤ last.amount →
    IsTrue (library.withIntervals.time position "contains" [.interval start stop, between.toValue])
  overlaps_comm : library.withIntervals.time position "overlaps"
      [.interval start stop, .interval otherStart otherStop] =
    library.withIntervals.time position "overlaps"
      [.interval otherStart otherStop, .interval start stop]
  overlaps_iff : IsTrue (library.withIntervals.time position "overlaps"
      [.interval start stop, .interval otherStart otherStop]) ↔
    ∃ value, IsTrue (library.withIntervals.time position "contains"
        [.interval start stop, value]) ∧
      IsTrue (library.withIntervals.time position "contains"
        [.interval otherStart otherStop, value])

/-- The intervals from two sources are in order and obey the laws. -/
structure Lawful (formats : ValueFormats) (left right : Source) : Prop where
  left_ordered : ∀ value, left.build library formats position = .ok value →
    ∃ start stop, value = .interval start stop ∧ start.kind = stop.kind ∧
      start.amount ≤ stop.amount
  right_ordered : ∀ value, right.build library formats position = .ok value →
    ∃ start stop, value = .interval start stop ∧ start.kind = stop.kind ∧
      start.amount ≤ stop.amount
  laws : ∀ start stop otherStart otherStop,
    left.build library formats position = .ok (.interval start stop) →
    right.build library formats position = .ok (.interval otherStart otherStop) →
    IntervalLaws library position start stop otherStart otherStop

variable {library position} {start stop otherStart otherStop : TemporalValue}

/-- Two intervals in order have a value in common if each starts before the other ends. -/
theorem exists_common_iff (ordered : start.amount ≤ stop.amount)
    (otherOrdered : otherStart.amount ≤ otherStop.amount) :
    (start.kind = otherStart.kind ∧ start.amount ≤ otherStop.amount ∧
        otherStart.amount ≤ stop.amount) ↔
      ∃ value, (∃ temporal, temporal? value = some temporal ∧ start.kind = temporal.kind ∧
          start.amount ≤ temporal.amount ∧ temporal.amount ≤ stop.amount) ∧
        ∃ temporal, temporal? value = some temporal ∧ otherStart.kind = temporal.kind ∧
          otherStart.amount ≤ temporal.amount ∧ temporal.amount ≤ otherStop.amount := by
  constructor
  · intro ⟨alike, first, second⟩
    -- The later one of the two starts is in both.
    rcases Int.le_total start.amount otherStart.amount with later | later
    · exact ⟨otherStart.toValue, ⟨otherStart, otherStart.temporal?_toValue, alike, later, second⟩,
        otherStart, otherStart.temporal?_toValue, rfl, Int.le_refl _, otherOrdered⟩
    · exact ⟨start.toValue, ⟨start, start.temporal?_toValue, rfl, Int.le_refl _, ordered⟩,
        start, start.temporal?_toValue, alike.symm, later, first⟩
  · rintro ⟨value, ⟨temporal, known, alike, above, below⟩, other, same, alike', above', below'⟩
    obtain rfl := Option.some.inj (known.symm.trans same)
    exact ⟨alike.trans alike'.symm, by omega, by omega⟩

theorem intervalLaws (ends : start.kind = stop.kind) (others : otherStart.kind = otherStop.kind)
    (ordered : start.amount ≤ stop.amount) (otherOrdered : otherStart.amount ≤ otherStop.amount) :
    IntervalLaws library position start stop otherStart otherStop := by
  constructor
  · exact (contains_iff ends _).mpr
      ⟨start, start.temporal?_toValue, rfl, Int.le_refl _, ordered⟩
  · exact (contains_iff ends _).mpr
      ⟨stop, stop.temporal?_toValue, ends, ordered, Int.le_refl _⟩
  · intro first last between containsFirst containsLast alike above below
    obtain ⟨temporal, known, kind, low, -⟩ := (contains_iff ends _).mp containsFirst
    obtain ⟨other, knownLast, -, -, high⟩ := (contains_iff ends _).mp containsLast
    obtain rfl := Option.some.inj (first.temporal?_toValue.symm.trans known)
    obtain rfl := Option.some.inj (last.temporal?_toValue.symm.trans knownLast)
    apply (contains_iff ends _).mpr
    exact ⟨between, between.temporal?_toValue, kind.trans alike.symm, by omega, by omega⟩
  · exact overlaps_comm ends others
  · rw [overlaps_iff ends others, exists_common_iff ordered otherOrdered]
    simp only [contains_iff ends, contains_iff others]

/-- Intervals are in order, and obey the laws, exactly where no end is before its start. -/
theorem interval_lawful_iff (library : Library) (formats : ValueFormats) (position : Position)
    (left right : Source) :
    Lawful library position formats left right ↔
      ¬ left.Reversed formats ∧ ¬ right.Reversed formats := by
  have forward (source : Source) (ordered : ∀ value,
      source.build library formats position = .ok value →
        ∃ start stop, value = .interval start stop ∧ start.kind = stop.kind ∧
          start.amount ≤ stop.amount) : ¬ source.Reversed formats := by
    intro ⟨start, stop, given, alike, before⟩
    obtain ⟨_, _, same, -, after⟩ :=
      ordered _ (source.build_iff.mpr ⟨start, stop, given, alike, rfl⟩)
    cases same
    omega
  have backward (source : Source) (unreversed : ¬ source.Reversed formats) : ∀ value,
      source.build library formats position = .ok value →
        ∃ start stop, value = .interval start stop ∧ start.kind = stop.kind ∧
          start.amount ≤ stop.amount := by
    intro value built
    obtain ⟨start, stop, given, alike, rfl⟩ := source.build_iff.mp built
    refine ⟨start, stop, rfl, alike, ?_⟩
    by_contra before
    exact unreversed ⟨start, stop, given, alike, by omega⟩
  constructor
  · exact fun lawful => ⟨forward left lawful.left_ordered, forward right lawful.right_ordered⟩
  · intro ⟨leftFine, rightFine⟩
    refine ⟨backward left leftFine, backward right rightFine, ?_⟩
    intro start stop otherStart otherStop builtLeft builtRight
    obtain ⟨_, _, same, alike, ordered⟩ := backward left leftFine _ builtLeft
    cases same
    obtain ⟨_, _, same, others, otherOrdered⟩ := backward right rightFine _ builtRight
    cases same
    exact intervalLaws alike others ordered otherOrdered

/-- From the second day to the first. -/
def reversedDays : Source :=
  .call [.date 2, .date 1]

/-- The interval is made, and does not contain its own start. -/
theorem interval_not_lawful :
    ¬ Lawful scalarLibrary ⟨1, 1⟩ bareFormats reversedDays reversedDays := by
  intro lawful
  obtain ⟨start, stop, same, -, ordered⟩ :=
    lawful.left_ordered (.interval (.date 2) (.date 1)) rfl
  cases same
  exact absurd ordered (by decide)

end Lawful

end TimeNamespace
end Marreta
