import Marreta.Runtime.Operators
import Marreta.Runtime.TimeMasks
import Mathlib

namespace Marreta

/-! Local dates and times.

A timezone tells the offset of every instant and finds the instants of a local time.  Nothing is
assumed about when the offset changes.  Leap seconds are left out. -/

/-- The answer of `from_local_datetime`. -/
inductive LocalResult where
  | none
  | single (instant : Int)
  | ambiguous (earliest latest : Int)
deriving DecidableEq

/-- An answer fits the set of the instants that have the local time. -/
inductive LocalResult.Fits (instants : Set Int) : LocalResult → Prop
  | none (empty : instants = ∅) : Fits instants .none
  | single {instant : Int} (only : instants = {instant}) : Fits instants (.single instant)
  | ambiguous {earliest latest : Int} (different : earliest < latest)
      (least : IsLeast instants earliest) (greatest : IsGreatest instants latest) :
      Fits instants (.ambiguous earliest latest)

/-- The offset of an instant counts seconds, an instant and a local time nanoseconds. -/
structure Zone where
  name : String
  offset : Int → Int
  fromLocal : Int → LocalResult
  fits (naive : Int) :
    (fromLocal naive).Fits {instant | instant + offset instant * 1000000000 = naive}

namespace Zone

variable (zone : Zone)

def localAt (instant : Int) : Int :=
  instant + zone.offset instant * 1000000000

/-- The local date of an instant. -/
def dateAt (instant : Int) : Int :=
  zone.localAt instant / 86400000000000

/-- The local time of an instant. -/
def timeAt (instant : Int) : Nat :=
  (zone.localAt instant % 86400000000000).toNat

end Zone

/-- A date with a time of it. -/
def andTime (days : Int) (nanoseconds : Nat) : Int :=
  days * 86400000000000 + nanoseconds

namespace TimeNamespace

open Operators (typeError)

/-- Digits behind the second: none, or three, six or nine of them. -/
def fractionText (nanoseconds : Nat) : List Char :=
  let digits (width number : Nat) : List Char :=
    let shown := Nat.toDigits 10 number
    '.' :: (List.replicate (width - shown.length) '0' ++ shown)
  if nanoseconds = 0 then []
  else if nanoseconds % 1000000 = 0 then digits 3 (nanoseconds / 1000000)
  else if nanoseconds % 1000 = 0 then digits 6 (nanoseconds / 1000)
  else digits 9 nanoseconds

/-- How the calendar library shows a local time. -/
def naiveText (naive : Int) : List Char :=
  let date := civilDate (naive / 86400000000000)
  let nanoseconds := (naive % 86400000000000).toNat
  yearText date.year ++ '-' :: twoDigits date.month ++ '-' :: twoDigits date.day ++
    ' ' :: twoDigits (nanoseconds / 3600000000000) ++
    ':' :: twoDigits (nanoseconds / 60000000000 % 60) ++
    ':' :: twoDigits (nanoseconds / 1000000000 % 60) ++
    fractionText (nanoseconds % 1000000000)

section

variable (zone : Zone) (position : Position)

def localDateTimeToUtc (naive : Int) (preferLatest : Bool) : Except LibraryFault Int :=
  match zone.fromLocal naive with
  | .single instant => .ok instant
  | .ambiguous earliest latest => .ok (if preferLatest then latest else earliest)
  | .none =>
      typeError position ("could not resolve local datetime '" ++
        String.ofList (naiveText naive) ++ "' in timezone '" ++ zone.name ++ "'")

def numDaysFromMonday (days : Int) : Int :=
  (days + 3) % 7

def accessInstantProperty (instant : Int) (property : String) : Except LibraryFault Value :=
  let date := civilDate (zone.dateAt instant)
  let time := zone.timeAt instant
  match property with
  | "year" => .ok (.integer (.ofInt date.year))
  | "month" => .ok (.integer (.ofNat date.month))
  | "day" => .ok (.integer (.ofNat date.day))
  | "hour" => .ok (.integer (.ofNat (time / 3600000000000)))
  | "minute" => .ok (.integer (.ofNat (time / 60000000000 % 60)))
  | "second" => .ok (.integer (.ofNat (time / 1000000000 % 60)))
  | "weekday" => .ok (.integer (.ofInt (numDaysFromMonday (zone.dateAt instant))))
  | "unix" => .ok (.integer (.ofInt (instant / 1000000000)))
  | "date" => .ok (.date (zone.dateAt instant))
  | "time" => .ok (.time time)
  | _ =>
      .error (.error (.propertyNotFound "Instant" property position.line position.column))

def accessDateProperty (days : Int) (property : String) : Except LibraryFault Value := do
  let date := civilDate days
  match property with
  | "year" => .ok (.integer (.ofInt date.year))
  | "month" => .ok (.integer (.ofNat date.month))
  | "day" => .ok (.integer (.ofNat date.day))
  | "weekday" => .ok (.integer (.ofInt (numDaysFromMonday days)))
  | "start_of_day" =>
      return .instant (← localDateTimeToUtc zone position (andTime days 0) false)
  | "end_of_day" =>
      return .instant (← localDateTimeToUtc zone position (andTime days 86399999000000) true)
  | _ => .error (.error (.propertyNotFound "Date" property position.line position.column))

def timeMethod (nanoseconds : Nat) (method : String) (arguments : List Value) :
    Except LibraryFault Value := do
  match method with
  | "on" =>
      match arguments with
      | .date days :: _ =>
          return .instant (← localDateTimeToUtc zone position (andTime days nanoseconds) false)
      | other :: _ => typeError position ("time.on() requires Date, got " ++ other.typeName)
      | [] => typeError position "time.on() requires a date argument"
  | _ => .error (.error (.propertyNotFound "Time" method position.line position.column))

/-- Methods that every value has are not of the time. -/
def everyValueMethods : List String :=
  ["to_integer", "to_float", "to_boolean", "to_string"]

end

end TimeNamespace

open TimeNamespace

/-- The library with the local dates and times of a zone. -/
def Library.withZone (library : Library) (zone : Zone) : Library :=
  { library with
    temporalProperty := fun position value property =>
      match value with
      | .instant instant => accessInstantProperty zone position instant property
      | .date days => accessDateProperty zone position days property
      | other => library.temporalProperty position other property
    callMethod := fun position value method arguments =>
      match value with
      | .time nanoseconds =>
          if method ∈ everyValueMethods then library.callMethod position value method arguments
          else timeMethod zone position nanoseconds method arguments
      | other => library.callMethod position other method arguments
    localDate := zone.dateAt }

namespace Zone

section

variable (library : Library) (zone : Zone) (position : Position)

/-! ## The boundaries of a date -/

/-- The instants whose `date` is the date. -/
def instantsOf (days : Int) : Set Int :=
  {instant | (library.withZone zone).temporalProperty position (.instant instant) "date" =
    .ok (.date days)}

/-- The ones among them that are whole milliseconds. -/
def millisecondsOf (days : Int) : Set Int :=
  {instant | instant ∈ zone.instantsOf library position days ∧ (1000000 : Int) ∣ instant}

/-- The properties of a date return its earliest instant and its last whole millisecond. -/
structure DayBoundaries (days : Int) : Prop where
  start : ∃ instant,
    (library.withZone zone).temporalProperty position (.date days) "start_of_day" =
      .ok (.instant instant) ∧
    IsLeast (zone.instantsOf library position days) instant
  stop : ∃ instant,
    (library.withZone zone).temporalProperty position (.date days) "end_of_day" =
      .ok (.instant instant) ∧
    IsGreatest (zone.millisecondsOf library position days) instant

/-- An instant has a date and a time. -/
def HasDateTime (days : Int) (nanoseconds : Nat) (instant : Int) : Prop :=
  instant ∈ zone.instantsOf library position days ∧
    (library.withZone zone).temporalProperty position (.instant instant) "time" =
      .ok (.time nanoseconds)

/-- A time on a date is an instant with both, whenever there is one. -/
def KeepsOn (days : Int) (nanoseconds : Nat) : Prop :=
  (∃ instant, zone.HasDateTime library position days nanoseconds instant) →
    ∃ instant,
      (library.withZone zone).callMethod position (.time nanoseconds) "on" [.date days] =
        .ok (.instant instant) ∧
      zone.HasDateTime library position days nanoseconds instant

/-- What a zone owes to a date that some instant has. -/
structure DateLaw (days : Int) : Prop where
  boundaries : (zone.instantsOf library position days).Nonempty →
    zone.DayBoundaries library position days
  on (nanoseconds : Nat) : zone.KeepsOn library position days nanoseconds

end

/-- No offset change cuts off the first or the last millisecond of a date: the clock reads
midnight at its first instant and 23:59:59.999 at its last whole millisecond. -/
structure WholeDay (zone : Zone) (days : Int) : Prop where
  start : ∃ instant, IsLeast {other | zone.dateAt other = days} instant ∧
    zone.timeAt instant = 0
  stop : ∃ instant,
    IsGreatest {other | zone.dateAt other = days ∧ (1000000 : Int) ∣ other} instant ∧
    zone.timeAt instant = 86399999000000

section

variable {library : Library} {zone : Zone} {position : Position} {days instant naive : Int}
  {nanoseconds : Nat}

theorem mem_instantsOf :
    instant ∈ zone.instantsOf library position days ↔ zone.dateAt instant = days := by
  change (.ok (.date (zone.dateAt instant)) : Except LibraryFault Value) = .ok (.date days) ↔ _
  simp only [Except.ok.injEq, Value.date.injEq]

theorem instantsOf_eq :
    zone.instantsOf library position days = {other | zone.dateAt other = days} := by
  ext other
  apply mem_instantsOf

theorem millisecondsOf_eq :
    zone.millisecondsOf library position days =
      {other | zone.dateAt other = days ∧ (1000000 : Int) ∣ other} := by
  ext other
  apply and_congr_left
  intro whole
  apply mem_instantsOf

/-- A date and a time of it make up the local time. -/
theorem localAt_eq_andTime (inDay : nanoseconds < 86400000000000) :
    zone.localAt instant = andTime days nanoseconds ↔
      zone.dateAt instant = days ∧ zone.timeAt instant = nanoseconds := by
  unfold dateAt timeAt andTime
  omega

theorem timeAt_lt : zone.timeAt instant < 86400000000000 := by
  unfold timeAt
  omega

theorem hasDateTime_iff :
    zone.HasDateTime library position days nanoseconds instant ↔
      zone.localAt instant = andTime days nanoseconds ∧ nanoseconds < 86400000000000 := by
  have time : (library.withZone zone).temporalProperty position (.instant instant) "time" =
      .ok (.time nanoseconds) ↔ zone.timeAt instant = nanoseconds := by
    change (.ok (.time (zone.timeAt instant)) : Except LibraryFault Value) =
      .ok (.time nanoseconds) ↔ _
    simp only [Except.ok.injEq, Value.time.injEq]
  unfold HasDateTime
  rw [mem_instantsOf, time]
  constructor
  · intro same
    have inDay : nanoseconds < 86400000000000 := same.2 ▸ timeAt_lt
    exact ⟨(localAt_eq_andTime inDay).mpr same, inDay⟩
  · intro same
    exact (localAt_eq_andTime same.2).mp same.1

/-! ## Resolution of local times -/

theorem localDateTimeToUtc_earliest :
    localDateTimeToUtc zone position naive false = .ok instant ↔
      IsLeast {other | zone.localAt other = naive} instant := by
  have fits := zone.fits naive
  change LocalResult.Fits {other | zone.localAt other = naive} (zone.fromLocal naive) at fits
  unfold localDateTimeToUtc
  generalize zone.fromLocal naive = answer at fits
  cases fits with
  | none empty =>
      rw [empty]
      constructor
      · intro resolved
        cases resolved
      · intro least
        exact least.1.elim
  | single only =>
      rw [only, Except.ok.injEq]
      constructor
      · intro same
        exact same ▸ isLeast_singleton
      · intro least
        exact least.1.symm
  | ambiguous different least greatest =>
      rw [Except.ok.injEq]
      constructor
      · intro same
        exact same ▸ least
      · intro other
        exact least.unique other

theorem localDateTimeToUtc_latest :
    localDateTimeToUtc zone position naive true = .ok instant ↔
      IsGreatest {other | zone.localAt other = naive} instant := by
  have fits := zone.fits naive
  change LocalResult.Fits {other | zone.localAt other = naive} (zone.fromLocal naive) at fits
  unfold localDateTimeToUtc
  generalize zone.fromLocal naive = answer at fits
  cases fits with
  | none empty =>
      rw [empty]
      constructor
      · intro resolved
        cases resolved
      · intro greatest
        exact greatest.1.elim
  | single only =>
      rw [only, Except.ok.injEq]
      constructor
      · intro same
        exact same ▸ isGreatest_singleton
      · intro greatest
        exact greatest.1.symm
  | ambiguous different least greatest =>
      rw [Except.ok.injEq]
      constructor
      · intro same
        exact same ▸ greatest
      · intro other
        exact greatest.unique other

/-- An instant that is computed is returned as a value. -/
theorem instant_bind (result : Except LibraryFault Int) :
    (result >>= fun found => (pure (.instant found) : Except LibraryFault Value)) =
      .ok (.instant instant) ↔ result = .ok instant := by
  cases result with
  | error fault => simp [bind, Except.bind]
  | ok found => simp [bind, Except.bind, pure, Except.pure]

theorem startOfDay_iff :
    (library.withZone zone).temporalProperty position (.date days) "start_of_day" =
        .ok (.instant instant) ↔
      IsLeast {other | zone.localAt other = andTime days 0} instant :=
  (instant_bind _).trans localDateTimeToUtc_earliest

theorem endOfDay_iff :
    (library.withZone zone).temporalProperty position (.date days) "end_of_day" =
        .ok (.instant instant) ↔
      IsGreatest {other | zone.localAt other = andTime days 86399999000000} instant :=
  (instant_bind _).trans localDateTimeToUtc_latest

theorem on_iff :
    (library.withZone zone).callMethod position (.time nanoseconds) "on" [.date days] =
        .ok (.instant instant) ↔
      IsLeast {other | zone.localAt other = andTime days nanoseconds} instant :=
  (instant_bind _).trans localDateTimeToUtc_earliest

/-- A local time that some instant has is resolved. -/
theorem exists_isLeast (has : zone.localAt instant = naive) :
    ∃ earliest, IsLeast {other | zone.localAt other = naive} earliest := by
  have fits := zone.fits naive
  change LocalResult.Fits {other | zone.localAt other = naive} (zone.fromLocal naive) at fits
  have member : instant ∈ {other | zone.localAt other = naive} := has
  generalize zone.fromLocal naive = answer at fits
  cases fits with
  | none empty =>
      rw [empty] at member
      exact member.elim
  | single only =>
      rw [only]
      exact ⟨_, isLeast_singleton⟩
  | ambiguous different least greatest => exact ⟨_, least⟩

theorem keepsOn : zone.KeepsOn library position days nanoseconds := by
  intro occurs
  obtain ⟨instant, has⟩ := occurs
  have ⟨same, inDay⟩ := (hasDateTime_iff).mp has
  have ⟨earliest, least⟩ := exists_isLeast same
  exact ⟨earliest, (on_iff).mpr least, (hasDateTime_iff).mpr ⟨least.1, inDay⟩⟩

/-! ## Whole days -/

/-- The first instant is the one that is resolved exactly when the clock reads midnight there. -/
theorem startOfDay_isLeast :
    (IsLeast {other | zone.localAt other = andTime days 0} instant ∧
        IsLeast {other | zone.dateAt other = days} instant) ↔
      IsLeast {other | zone.dateAt other = days} instant ∧ zone.timeAt instant = 0 := by
  have midnight (other : Int) := @localAt_eq_andTime zone days other 0 (by omega)
  constructor
  · intro both
    exact ⟨both.2, ((midnight instant).mp both.1.1).2⟩
  · intro whole
    refine ⟨⟨(midnight instant).mpr ⟨whole.1.1, whole.2⟩, ?_⟩, whole.1⟩
    intro other reads
    exact whole.1.2 ((midnight other).mp reads).1

/-- Offsets count whole seconds, so that a clock reads a whole millisecond at one. -/
theorem dvd_of_endOfDay (reads : zone.localAt instant = andTime days 86399999000000) :
    (1000000 : Int) ∣ instant := by
  unfold localAt andTime at reads
  omega

theorem endOfDay_isGreatest :
    (IsGreatest {other | zone.localAt other = andTime days 86399999000000} instant ∧
        IsGreatest {other | zone.dateAt other = days ∧ (1000000 : Int) ∣ other} instant) ↔
      IsGreatest {other | zone.dateAt other = days ∧ (1000000 : Int) ∣ other} instant ∧
        zone.timeAt instant = 86399999000000 := by
  have last (other : Int) := @localAt_eq_andTime zone days other 86399999000000 (by omega)
  constructor
  · intro both
    exact ⟨both.2, ((last instant).mp both.1.1).2⟩
  · intro whole
    refine ⟨⟨(last instant).mpr ⟨whole.1.1.1, whole.2⟩, ?_⟩, whole.1⟩
    intro other reads
    exact whole.1.2 ⟨((last other).mp reads).1, dvd_of_endOfDay reads⟩

theorem dayBoundaries_iff :
    zone.DayBoundaries library position days ↔ zone.WholeDay days := by
  constructor
  · intro law
    constructor
    · have ⟨instant, resolved, least⟩ := law.start
      rw [instantsOf_eq] at least
      exact ⟨instant, (startOfDay_isLeast).mp ⟨(startOfDay_iff).mp resolved, least⟩⟩
    · have ⟨instant, resolved, greatest⟩ := law.stop
      rw [millisecondsOf_eq] at greatest
      exact ⟨instant, (endOfDay_isGreatest).mp ⟨(endOfDay_iff).mp resolved, greatest⟩⟩
  · intro whole
    constructor
    · have ⟨instant, reads⟩ := whole.start
      have ⟨resolved, least⟩ := (startOfDay_isLeast).mpr reads
      exact ⟨instant, (startOfDay_iff).mpr resolved, instantsOf_eq ▸ least⟩
    · have ⟨instant, reads⟩ := whole.stop
      have ⟨resolved, greatest⟩ := (endOfDay_isGreatest).mpr reads
      exact ⟨instant, (endOfDay_iff).mpr resolved, millisecondsOf_eq ▸ greatest⟩

end

/-- A zone owes all this to a date exactly when no offset change cuts the date off. -/
theorem dateLaw_iff (library : Library) (zone : Zone) (position : Position) (days : Int) :
    zone.DateLaw library position days ↔
      ((∃ instant, zone.dateAt instant = days) → zone.WholeDay days) := by
  have occurs : (zone.instantsOf library position days).Nonempty ↔
      ∃ instant, zone.dateAt instant = days := by
    rw [instantsOf_eq]
    rfl
  constructor
  · intro law some
    exact dayBoundaries_iff.mp (law.boundaries (occurs.mpr some))
  · intro whole
    constructor
    · intro some
      exact dayBoundaries_iff.mpr (whole (occurs.mp some))
    · intro nanoseconds
      apply keepsOn

/-! ## Midnight that is skipped -/

/-- A zone whose offset changes once, forward. -/
def forward (name : String) (change before after : Int) (ahead : before ≤ after) : Zone where
  name := name
  offset instant := if instant < change then before else after
  fromLocal naive :=
    if naive - before * 1000000000 < change then .single (naive - before * 1000000000)
    else if change ≤ naive - after * 1000000000 then .single (naive - after * 1000000000)
    else .none
  fits naive := by
    have mem (instant : Int) :
        instant + (if instant < change then before else after) * 1000000000 = naive ↔
          (instant < change ∧ instant = naive - before * 1000000000) ∨
          (change ≤ instant ∧ instant = naive - after * 1000000000) := by
      split <;> omega
    split
    · apply LocalResult.Fits.single
      ext instant
      simp only [Set.mem_ofPred_eq, mem, Set.mem_singleton_iff]
      omega
    · split
      · apply LocalResult.Fits.single
        ext instant
        simp only [Set.mem_ofPred_eq, mem, Set.mem_singleton_iff]
        omega
      · apply LocalResult.Fits.none
        ext instant
        simp only [Set.mem_ofPred_eq, mem, Set.mem_empty_iff_false, iff_false]
        omega

/-- In the night to the 4th of November 2018, the clock went from midnight to one. -/
def saoPaulo : Zone :=
  forward "America/Sao_Paulo" 1541300400000000000 (-10800) (-7200) (by omega)

theorem dateLaw_not_saoPaulo :
    (scalarLibrary.withZone saoPaulo).temporalProperty ⟨1, 1⟩ (.date 17839) "start_of_day" =
        .error (.error (.typeError
          ("could not resolve local datetime '2018-11-04 00:00:00' in timezone " ++
            "'America/Sao_Paulo'") 1 1)) ∧
      saoPaulo.dateAt 1541300400000000000 = 17839 ∧
      ¬ saoPaulo.DateLaw scalarLibrary ⟨1, 1⟩ 17839 := by
  have refused : (scalarLibrary.withZone saoPaulo).temporalProperty ⟨1, 1⟩ (.date 17839)
      "start_of_day" = .error (.error (.typeError
        ("could not resolve local datetime '2018-11-04 00:00:00' in timezone " ++
          "'America/Sao_Paulo'") 1 1)) := by
    rfl
  have occurs : saoPaulo.dateAt 1541300400000000000 = 17839 := by decide
  refine ⟨refused, occurs, ?_⟩
  intro law
  have ⟨instant, resolved, least⟩ :=
    (law.boundaries ⟨1541300400000000000, mem_instantsOf.mpr occurs⟩).start
  rw [refused] at resolved
  cases resolved

end Zone

end Marreta
