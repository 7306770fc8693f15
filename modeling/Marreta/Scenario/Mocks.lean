import Marreta.Foundation.FirstMaximum
import Marreta.Runtime.Equality
import Mathlib

namespace Marreta.Scenario

open Foundation

/-! The mocks of a scenario.

A scenario declares which calls of the outside world it answers.  Each call of the route is
answered by the most specific declaration that matches it, and every declaration has to be
used. -/

structure GivenKey where
  nameSpace : String
  resource : Option String
  method : String
deriving DecidableEq

namespace GivenKey

def label (key : GivenKey) : String :=
  match key.resource with
  | some resource => key.nameSpace ++ "." ++ resource ++ "." ++ key.method
  | none => key.nameSpace ++ "." ++ key.method

end GivenKey

/-! ## Matchers -/

inductive ValueMatcher where
  | anything
  | exact (expected : Value)
  | map (expected : List (String × ValueMatcher))
  | list (expected : List ValueMatcher)

namespace ValueMatcher

mutual
def matchesValue : ValueMatcher → Value → Bool
  | .anything, _ => true
  | .exact expected, actual => expected.equals actual
  | .map expected, .map actual => entriesMatch expected actual
  | .list expected, .list actual =>
      expected.length = actual.length && itemsMatch expected actual
  | _, _ => false

/-- Entries that are not expected are left alone. -/
def entriesMatch : List (String × ValueMatcher) → ValueMap → Bool
  | [], _ => true
  | (key, matcher) :: expected, actual =>
      (match ValueMap.get? actual key with
        | some value => matchesValue matcher value
        | none => false) && entriesMatch expected actual

def itemsMatch : List ValueMatcher → List Value → Bool
  | matcher :: expected, value :: actual => matchesValue matcher value && itemsMatch expected actual
  | _, _ => true
end

mutual
def specificity : ValueMatcher → Nat
  | .anything => 0
  | .exact _ => 4
  | .map expected => 2 + entriesSpecificity expected
  | .list expected => 2 + itemsSpecificity expected

def entriesSpecificity : List (String × ValueMatcher) → Nat
  | [] => 0
  | (_, matcher) :: expected => specificity matcher + entriesSpecificity expected

def itemsSpecificity : List ValueMatcher → Nat
  | [] => 0
  | matcher :: expected => specificity matcher + itemsSpecificity expected
end

section Describe

variable (display : Value → String)

mutual
def describe : ValueMatcher → String
  | .anything => "anything"
  | .exact expected => display expected
  | .map expected =>
      "\x7b " ++ ", ".intercalate ((describeEntries expected).insertionSort (· ≤ ·)) ++ " \x7d"
  | .list expected => "[" ++ ", ".intercalate (describeItems expected) ++ "]"

def describeEntries : List (String × ValueMatcher) → List String
  | [] => []
  | (key, matcher) :: expected => (key ++ ": " ++ describe matcher) :: describeEntries expected

def describeItems : List ValueMatcher → List String
  | [] => []
  | matcher :: expected => describe matcher :: describeItems expected
end

end Describe

end ValueMatcher

/-! ## Declarations and calls -/

/-- A declared call and its answer. -/
structure Given where
  key : GivenKey
  args : List ValueMatcher
  returns : Value

/-- A declaration, and whether a call was answered by it. -/
structure GivenCall extends Given where
  matched : Bool

structure ScenarioCall where
  key : GivenKey
  args : List Value

namespace Given

def describe (display : Value → String) (given : Given) : String :=
  given.key.label ++ "(" ++ ", ".intercalate (given.args.map (ValueMatcher.describe display)) ++ ")"

def specificity (given : Given) : Nat :=
  (given.args.map ValueMatcher.specificity).sum

/-- The specificity of a declaration that matches the call. -/
def score (call : ScenarioCall) (given : Given) : Option Nat :=
  if given.key ≠ call.key then none
  else if given.args.length ≠ call.args.length then none
  else if (given.args.zip call.args).all fun (matcher, actual) => matcher.matchesValue actual then
    some given.specificity
  else none

end Given

def register (calls : List GivenCall) (given : Given) : List GivenCall :=
  calls ++ [{ toGiven := given, matched := false }]

def registerGivens (givens : List Given) : List GivenCall :=
  givens.foldl register []

section Runs

variable (display : Value → String)

def unconfigured (call : ScenarioCall) : String :=
  "unconfigured call: " ++ call.key.label ++ "(" ++ ", ".intercalate (call.args.map display) ++ ")"

/-- The answer to a call, and the declarations after it. -/
def take (calls : List GivenCall) (call : ScenarioCall) : Except String Value × List GivenCall :=
  match FirstMaximum.scan (fun given : GivenCall => given.toGiven.score call) calls with
  | none => (.error (unconfigured display call), calls)
  | some (index, _) =>
      match calls[index]? with
      | some given => (.ok given.returns, calls.set index { given with matched := true })
      | none => (.error "scenario mock registry index disappeared", calls)

def assertAllConsumed (calls : List GivenCall) : Except String Unit :=
  let unused := (calls.filter fun given => !given.matched).map fun given =>
    given.toGiven.describe display
  if unused.isEmpty then .ok ()
  else
    .error ("unused given: " ++ ", ".intercalate unused ++
      "\n    The scenario declared this external call, but the route did not execute it.")

/-- The answers to a sequence of calls, and the declarations after them. -/
def answer (calls : List GivenCall) :
    List ScenarioCall → List (Except String Value) × List GivenCall
  | [] => ([], calls)
  | call :: rest =>
      let (reply, taken) := take display calls call
      let (replies, final) := answer taken rest
      (reply :: replies, final)

def replies (givens : List Given) (calls : List ScenarioCall) : List (Except String Value) :=
  (answer display (registerGivens givens) calls).1

def stateAfter (givens : List Given) (calls : List ScenarioCall) : List GivenCall :=
  (answer display (registerGivens givens) calls).2

end Runs

/-! ## Which declaration answers -/

namespace Given

/-- Same key, same number of arguments, and every argument is matched. -/
def Applies (given : Given) (call : ScenarioCall) : Prop :=
  given.key = call.key ∧
    List.Forall₂ (fun matcher actual => ValueMatcher.matchesValue matcher actual) given.args
      call.args

theorem score_eq_some_iff {given : Given} {call : ScenarioCall} {value : Nat} :
    given.score call = some value ↔ given.Applies call ∧ given.specificity = value := by
  rw [score, Applies, List.forall₂_iff_zip]
  split_ifs with key length arguments
  · simp [key]
  · simp [length]
  · have all : ∀ {matcher : ValueMatcher} {actual : Value},
        (matcher, actual) ∈ given.args.zip call.args → matcher.matchesValue actual :=
      fun member => List.all_eq_true.mp arguments _ member
    simp only [ne_eq, not_not] at key length
    simp only [Option.some_inj, key, length, true_and]
    exact ⟨fun same => ⟨all, same⟩, fun known => known.2⟩
  · simp only [false_iff, not_and]
    intro applies
    exact absurd (List.all_eq_true.mpr fun pair member => applies.2.2 member) arguments

theorem score_eq_none_iff {given : Given} {call : ScenarioCall} :
    given.score call = none ↔ ¬given.Applies call := by
  rw [Option.eq_none_iff_forall_ne_some]
  constructor
  · intro none applies
    exact none _ ((score_eq_some_iff).mpr ⟨applies, rfl⟩)
  · intro refused value scored
    exact refused ((score_eq_some_iff).mp scored).1

end Given

/-- The declaration at a position is the first of the most specific that match the call. -/
structure Selects (givens : List Given) (call : ScenarioCall) (index : Nat) (given : Given) :
    Prop where
  declared : givens[index]? = some given
  applies : given.Applies call
  maximal : ∀ other ∈ givens, other.Applies call → other.specificity ≤ given.specificity
  first : ∀ (earlier : Nat) (other : Given), givens[earlier]? = some other → earlier < index →
    other.Applies call → other.specificity < given.specificity

theorem scoreAt_eq_some_iff {givens : List Given} {call : ScenarioCall} {index value : Nat} :
    FirstMaximum.scoreAt (Given.score call) givens index = some value ↔
      ∃ given, givens[index]? = some given ∧ given.Applies call ∧ given.specificity = value := by
  rw [FirstMaximum.scoreAt, Option.bind_eq_some_iff]
  simp only [Given.score_eq_some_iff]

theorem selects_iff_scan {givens : List Given} {call : ScenarioCall} {index : Nat}
    {given : Given} :
    Selects givens call index given ↔
      givens[index]? = some given ∧
        FirstMaximum.scan (Given.score call) givens = some (index, given.specificity) := by
  rw [FirstMaximum.scan_eq_some_iff]
  constructor
  · intro selects
    refine ⟨selects.declared, (scoreAt_eq_some_iff).mpr
      ⟨given, selects.declared, selects.applies, rfl⟩, ?_, ?_⟩
    · intro other rival scored
      obtain ⟨candidate, found, applies, rfl⟩ := (scoreAt_eq_some_iff).mp scored
      exact selects.maximal candidate (List.mem_of_getElem? found) applies
    · intro other rival scored before
      obtain ⟨candidate, found, applies, rfl⟩ := (scoreAt_eq_some_iff).mp scored
      exact selects.first other candidate found before applies
  · rintro ⟨declared, maximum⟩
    obtain ⟨same, found, applies, -⟩ := (scoreAt_eq_some_iff).mp maximum.scored
    obtain rfl : given = same := Option.some.inj (declared.symm.trans found)
    refine ⟨declared, applies, ?_, ?_⟩
    · intro other member otherApplies
      obtain ⟨position, bound, rfl⟩ := List.getElem_of_mem member
      exact maximum.maximal position _ ((scoreAt_eq_some_iff).mpr
        ⟨_, List.getElem?_eq_getElem bound, otherApplies, rfl⟩)
    · intro earlier other otherFound before otherApplies
      exact maximum.first earlier _ ((scoreAt_eq_some_iff).mpr
        ⟨other, otherFound, otherApplies, rfl⟩) before

theorem exists_selects {givens : List Given} {call : ScenarioCall} {given : Given}
    (member : given ∈ givens) (applies : given.Applies call) :
    ∃ index chosen, Selects givens call index chosen := by
  cases result : FirstMaximum.scan (Given.score call) givens with
  | none =>
      have refused := FirstMaximum.scan_eq_none_iff.mp result given member
      exact absurd applies ((Given.score_eq_none_iff).mp refused)
  | some best =>
      have maximum := FirstMaximum.scan_eq_some_iff.mp result
      obtain ⟨chosen, found, -, same⟩ := (scoreAt_eq_some_iff).mp maximum.scored
      exact ⟨best.1, chosen, (selects_iff_scan).mpr ⟨found, by rw [result, same]⟩⟩

theorem Selects.unique {givens : List Given} {call : ScenarioCall} {index other : Nat}
    {given rival : Given} (selects : Selects givens call index given)
    (another : Selects givens call other rival) : index = other := by
  have first := ((selects_iff_scan).mp selects).2
  have second := ((selects_iff_scan).mp another).2
  exact congrArg Prod.fst (Option.some.inj (first.symm.trans second))

/-! ## One call -/

section Steps

variable (display : Value → String)

/-- The declarations without the marks. -/
def declarations (calls : List GivenCall) : List Given :=
  calls.map GivenCall.toGiven

theorem declarations_registerGivens (givens : List Given) :
    registerGivens givens =
      givens.map fun given => { toGiven := given, matched := false } := by
  have general : ∀ calls : List GivenCall,
      givens.foldl register calls =
        calls ++ givens.map fun given => { toGiven := given, matched := false } := by
    induction givens with
    | nil => exact fun calls => (List.append_nil _).symm
    | cons given rest ih =>
        intro calls
        rw [List.foldl_cons, ih, register, List.append_assoc]
        rfl
  exact general []

theorem scan_declarations (calls : List GivenCall) (call : ScenarioCall) :
    FirstMaximum.scan (fun given : GivenCall => given.toGiven.score call) calls =
      FirstMaximum.scan (Given.score call) (declarations calls) :=
  FirstMaximum.scan_map GivenCall.toGiven calls

theorem take_of_selects {calls : List GivenCall} {call : ScenarioCall} {index : Nat}
    {given : Given} (selects : Selects (declarations calls) call index given) :
    take display calls call =
      (.ok given.returns, calls.set index { toGiven := given, matched := true }) := by
  have declared := selects.declared
  rw [declarations, List.getElem?_map, Option.map_eq_some_iff] at declared
  obtain ⟨chosen, found, rfl⟩ := declared
  rw [take, scan_declarations, ((selects_iff_scan).mp selects).2]
  simp only [found]

theorem take_of_refused {calls : List GivenCall} {call : ScenarioCall}
    (refused : ∀ given ∈ declarations calls, ¬given.Applies call) :
    take display calls call = (.error (unconfigured display call), calls) := by
  have none : FirstMaximum.scan (Given.score call) (declarations calls) = none :=
    FirstMaximum.scan_eq_none_iff.mpr fun given member =>
      (Given.score_eq_none_iff).mpr (refused given member)
  rw [take, scan_declarations, none]

/-- A call is answered by the declaration that it selects, or by none. -/
theorem take_cases (calls : List GivenCall) (call : ScenarioCall) :
    (∃ index given, Selects (declarations calls) call index given) ∨
      ∀ given ∈ declarations calls, ¬given.Applies call := by
  by_cases applies : ∃ given ∈ declarations calls, given.Applies call
  · obtain ⟨given, member, holds⟩ := applies
    exact .inl (exists_selects member holds)
  · exact .inr fun given member holds => applies ⟨given, member, holds⟩

theorem declarations_set {calls : List GivenCall} {index : Nat} {given : Given}
    (declared : (declarations calls)[index]? = some given) :
    declarations (calls.set index { toGiven := given, matched := true }) = declarations calls := by
  obtain ⟨bound, rfl⟩ := List.getElem?_eq_some_iff.mp declared
  rw [declarations, List.map_set]
  exact List.set_getElem_self bound

/-- No call adds, removes or changes a declaration. -/
theorem declarations_take (calls : List GivenCall) (call : ScenarioCall) :
    declarations (take display calls call).2 = declarations calls := by
  rcases take_cases calls call with ⟨index, given, selects⟩ | refused
  · rw [take_of_selects display selects]
    exact declarations_set selects.declared
  · rw [take_of_refused display refused]

def matchedAt (calls : List GivenCall) (index : Nat) : Bool :=
  calls[index]?.any GivenCall.matched

/-- A call marks the declaration it selects and no other. -/
theorem matchedAt_take (calls : List GivenCall) (call : ScenarioCall) (index : Nat) :
    matchedAt (take display calls call).2 index ↔
      matchedAt calls index ∨ ∃ given, Selects (declarations calls) call index given := by
  rcases take_cases calls call with ⟨chosen, given, selects⟩ | refused
  · rw [take_of_selects display selects]
    have bound : chosen < calls.length := by
      have inside := (List.getElem?_eq_some_iff.mp selects.declared).1
      rwa [declarations, List.length_map] at inside
    rw [matchedAt, List.getElem?_set]
    by_cases here : chosen = index
    · subst here
      rw [if_pos rfl, if_pos bound]
      exact iff_of_true rfl (.inr ⟨given, selects⟩)
    · rw [if_neg here]
      constructor
      · exact .inl
      · rintro (marked | ⟨rival, another⟩)
        · exact marked
        · exact absurd (selects.unique another) here
  · rw [take_of_refused display refused]
    constructor
    · exact .inl
    · rintro (marked | ⟨given, selects⟩)
      · exact marked
      · exact absurd selects.applies (refused given (List.mem_of_getElem? selects.declared))

/-! ## Many calls -/

theorem declarations_answer (calls : List GivenCall) (run : List ScenarioCall) :
    declarations (answer display calls run).2 = declarations calls := by
  induction run generalizing calls with
  | nil => rfl
  | cons call run ih =>
      rw [answer]
      exact (ih _).trans (declarations_take display calls call)

theorem matchedAt_answer (calls : List GivenCall) (run : List ScenarioCall) (index : Nat) :
    matchedAt (answer display calls run).2 index ↔
      matchedAt calls index ∨
        ∃ call ∈ run, ∃ given, Selects (declarations calls) call index given := by
  induction run generalizing calls with
  | nil => simp [answer]
  | cons call run ih =>
      rw [answer]
      change matchedAt (answer display (take display calls call).2 run).2 index ↔ _
      rw [ih, matchedAt_take, declarations_take, or_assoc]
      simp

theorem declarations_registered (givens : List Given) :
    declarations (registerGivens givens) = givens := by
  rw [declarations_registerGivens, declarations, List.map_map]
  exact List.map_id givens

theorem declarations_stateAfter (givens : List Given) (run : List ScenarioCall) :
    declarations (stateAfter display givens run) = givens := by
  rw [stateAfter, declarations_answer, declarations_registered]

theorem matchedAt_registered (givens : List Given) (index : Nat) :
    matchedAt (registerGivens givens) index = false := by
  rw [declarations_registerGivens, matchedAt, List.getElem?_map]
  cases givens[index]? <;> rfl

theorem assertAllConsumed_eq_ok_iff (calls : List GivenCall) :
    assertAllConsumed display calls = .ok () ↔ ∀ index < calls.length, matchedAt calls index := by
  have unused : ((calls.filter fun given => !given.matched).map fun given =>
      given.toGiven.describe display).isEmpty ↔ ∀ given ∈ calls, given.matched := by
    simp [List.filter_eq_nil_iff]
  rw [assertAllConsumed]
  split
  case isTrue empty =>
      have all := unused.mp empty
      refine iff_of_true rfl ?_
      intro index bound
      rw [matchedAt, List.getElem?_eq_getElem bound]
      exact all _ (List.getElem_mem bound)
  case isFalse some =>
      refine iff_of_false (by simp) ?_
      intro all
      apply some
      apply unused.mpr
      intro given member
      obtain ⟨index, bound, rfl⟩ := List.getElem_of_mem member
      have marked := all index bound
      rwa [matchedAt, List.getElem?_eq_getElem bound] at marked

/-- A declaration at the end that does not match the call is not chosen. -/
theorem selects_append {givens : List Given} {extra : Given} {call : ScenarioCall}
    (apart : ¬extra.Applies call) {index : Nat} {given : Given}
    (selects : Selects givens call index given) :
    Selects (givens ++ [extra]) call index given := by
  obtain ⟨declared, best⟩ := (selects_iff_scan).mp selects
  apply (selects_iff_scan).mpr
  rw [FirstMaximum.scan_append_none ((Given.score_eq_none_iff).mpr apart)]
  refine ⟨?_, best⟩
  rw [List.getElem?_append_left (List.getElem?_eq_some_iff.mp declared).1]
  exact declared

theorem reply_append {calls others : List GivenCall} {extra : Given} {call : ScenarioCall}
    (shape : declarations others = declarations calls ++ [extra]) (apart : ¬extra.Applies call) :
    (take display others call).1 = (take display calls call).1 := by
  rcases take_cases calls call with ⟨index, given, selects⟩ | refused
  · have more := selects_append apart selects
    rw [← shape] at more
    rw [take_of_selects display selects, take_of_selects display more]
  · rw [take_of_refused display refused, take_of_refused display]
    intro given member
    rw [shape] at member
    rcases List.mem_append.mp member with member | member
    · exact refused given member
    · rwa [List.mem_singleton.mp member]

theorem answers_append {calls others : List GivenCall} {extra : Given}
    (shape : declarations others = declarations calls ++ [extra]) {run : List ScenarioCall}
    (apart : ∀ call ∈ run, ¬extra.Applies call) :
    (answer display others run).1 = (answer display calls run).1 := by
  induction run generalizing calls others with
  | nil => rfl
  | cons call run ih =>
      have head := reply_append display shape (apart call List.mem_cons_self)
      have tail : (answer display (take display others call).2 run).1 =
          (answer display (take display calls call).2 run).1 := by
        apply ih
        · rw [declarations_take, declarations_take, shape]
        · exact fun later member => apart later (List.mem_cons_of_mem _ member)
      simp only [answer, head, tail]

end Steps

/-- What the mocks promise for a list of declarations and a sequence of calls. -/
structure MockLaws (display : Value → String) (givens : List Given) (calls : List ScenarioCall) :
    Prop where
  kept : ∀ before after, calls = before ++ after →
    declarations (stateAfter display givens before) = givens
  succeeds : ∀ before call after, calls = before ++ call :: after →
    ((take display (stateAfter display givens before) call).1.isOk ↔
      ∃ given ∈ givens, given.Applies call)
  selected : ∀ before call after index given, calls = before ++ call :: after →
    Selects givens call index given →
      take display (stateAfter display givens before) call =
        (.ok given.returns,
          (stateAfter display givens before).set index { toGiven := given, matched := true })
  refused : ∀ before call after, calls = before ++ call :: after →
    (∀ given ∈ givens, ¬given.Applies call) →
      (take display (stateAfter display givens before) call).2 = stateAfter display givens before
  consumed : assertAllConsumed display (stateAfter display givens calls) = .ok () ↔
    ∀ index < givens.length, ∃ call ∈ calls, ∃ given, Selects givens call index given
  appended : ∀ extra : Given, (∀ call ∈ calls, ¬extra.Applies call) →
    replies display (givens ++ [extra]) calls = replies display givens calls

theorem mocks_select_first_most_specific (display : Value → String) (givens : List Given)
    (calls : List ScenarioCall) : MockLaws display givens calls := by
  have same := declarations_stateAfter display givens
  constructor
  case kept => exact fun before _ _ => same before
  case succeeds =>
    intro before call _ _
    rcases take_cases (stateAfter display givens before) call with
      ⟨index, given, selects⟩ | refused
    · rw [take_of_selects display selects]
      rw [same] at selects
      exact iff_of_true rfl ⟨given, List.mem_of_getElem? selects.declared, selects.applies⟩
    · rw [take_of_refused display refused]
      rw [same] at refused
      exact iff_of_false (by simp [Except.isOk, Except.toBool])
        fun ⟨given, member, applies⟩ => refused given member applies
  case selected =>
    intro before call _ index given _ selects
    exact take_of_selects display (by rwa [same])
  case refused =>
    intro before call _ _ refused
    rw [take_of_refused display (by rwa [same])]
  case consumed =>
    rw [assertAllConsumed_eq_ok_iff]
    have length : (stateAfter display givens calls).length = givens.length := by
      conv_rhs => rw [← same calls]
      rw [declarations, List.length_map]
    rw [length]
    apply forall₂_congr
    intro index _
    rw [stateAfter, matchedAt_answer, matchedAt_registered, declarations_registered]
    simp
  case appended =>
    intro extra apart
    apply answers_append display _ apart
    rw [declarations_registered, declarations_registered]

end Marreta.Scenario
