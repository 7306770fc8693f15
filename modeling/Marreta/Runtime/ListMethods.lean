import Marreta.Foundation.Binary64Sums
import Marreta.Foundation.StableSorting
import Marreta.Runtime.Operators
import Mathlib

namespace Marreta

open Foundation

/-! The list methods `sort` and `sum`.

Both compute with doubles: `sort` ranks values by a type of its own and compares
integers as doubles, `sum` adds doubles and turns the total into an integer. -/

namespace Value

/-! ## Sorting -/

def typeOrder : Value → Nat
  | .integer _ => 0
  | .float _ => 1
  | .string _ => 2
  | .boolean _ => 3
  | _ => 4

def toFloat? : Value → Option Binary64
  | .integer value => some (Binary64.ofInt64 value)
  | .float value => some value
  | _ => none

/-- Values of one type are compared, unless they are of a type without an order. -/
def sortOrder (left right : Value) : Ordering :=
  if left.typeOrder ≠ right.typeOrder then compare left.typeOrder right.typeOrder
  else
    match left, right with
    | .integer _, _ | .float _, _ =>
        (Binary64.partialCompare (left.toFloat?.getD ⟨0⟩) (right.toFloat?.getD ⟨0⟩)).getD .eq
    | .string left, .string right => compare left right
    | .boolean left, .boolean right => compare left right
    | _, _ => .eq

/-- The sort is stable. -/
def sort (items : List Value) : List Value :=
  items.mergeSort fun left right => (sortOrder left right).isLE

/-! ## Sums -/

def sumFrom (position : Position) :
    Binary64 → Bool → List Value → Except LibraryFault Value
  | total, sawFloat, [] => .ok (if sawFloat then .float total else .integer total.toInt64)
  | total, sawFloat, .integer value :: items =>
      sumFrom position (total.add (Binary64.ofInt64 value)) sawFloat items
  | total, _, .float value :: items => sumFrom position (total.add value) true items
  | _, _, other :: _ =>
      .error (.error (.typeError ("sum() requires a numeric list, got " ++ other.typeName)
        position.line position.column))

def sum (position : Position) (items : List Value) : Except LibraryFault Value :=
  match items with
  | [] => .ok (.integer 0)
  | items => sumFrom position ⟨0⟩ false items

end Value

/-! ## The order of the operators -/

/-- An element of a list that is sorted. -/
inductive Element where
  | integer (value : Int64)
  | decimal (value : Decimal)
  | string (text : String)
  | boolean (value : Bool)

namespace Element

def toValue : Element → Value
  | .integer value => .integer value
  | .decimal value => .decimal value
  | .string text => .string text
  | .boolean value => .boolean value

theorem toValue_injective : Function.Injective toValue := by
  intro one other same
  cases one <;> cases other <;> cases same <;> rfl

end Element

/-- Decimals are compared as the numbers they are. -/
def NumberKit.ComparesNumbers (kit : NumberKit) : Prop :=
  ∀ left right, kit.decimalCompare left right = compare left.toRat right.toRat

section Operator

variable (profile : BuildProfile) (kit : NumberKit) (library : Library) (position : Position)

def lessEqual (left right : Value) : Except LibraryFault Value :=
  Operators.applyBinaryOp profile kit library position .lessEqual left right

def Comparable (left right : Value) : Prop :=
  ∃ holds, lessEqual profile kit library position left right = .ok (.boolean holds)

/-- `left <= right` is true. -/
def atMost (left right : Value) : Bool :=
  match lessEqual profile kit library position left right with
  | .ok (.boolean holds) => holds
  | _ => false

/-- A permutation in which elements comparable by `<=` stand in that order, and elements
that are at most each other keep the order they had. -/
structure SortsByOperator (items sorted : List Value) : Prop where
  permutes : sorted.Perm items
  ordered : sorted.Pairwise fun left right =>
    Comparable profile kit library position left right →
      atMost profile kit library position left right = true
  stable : ∀ value ∈ items,
    sorted.filter (tied (atMost profile kit library position) value) =
      items.filter (tied (atMost profile kit library position) value)

end Operator

/-! ## What the sort gets right -/

/-- The order of two elements of a list, where they may be compared. -/
def InPlace : Element → Element → Prop
  | .integer one, .integer other =>
      other < one → (Binary64.ofInt64 one).units ≠ (Binary64.ofInt64 other).units
  | .decimal one, .decimal other => one.toRat ≤ other.toRat
  | .integer one, .decimal other => (one.toInt : Rat) ≤ other.toRat
  | .decimal one, .integer other => (other.toInt : Rat) < one.toRat
  | _, _ => True

/-- A double holds the total at every step, and an integer does. -/
def HeldFrom : Int → List Int64 → Prop
  | _, [] => True
  | total, number :: numbers =>
      Binary64.IsHeld number.toInt ∧ Binary64.IsHeld (total + number.toInt) ∧
        (-2 ^ 63 ≤ total + number.toInt ∧ total + number.toInt < 2 ^ 63) ∧
        HeldFrom (total + number.toInt) numbers

theorem isLE_compare {α : Type} [LinearOrder α] (one other : α) :
    (compare one other).isLE = decide (one ≤ other) := by
  rw [Bool.eq_iff_iff, decide_eq_true_iff, Ordering.isLE_iff_ne_gt]
  exact compare_le_iff_le

namespace Element

/-! ## The order of the sort -/

/-- The type first, then the number or the text. -/
def rank : Element → Nat ×ₗ (Int ×ₗ String)
  | .integer value => toLex (0, toLex ((Binary64.ofInt64 value).units, ""))
  | .string text => toLex (2, toLex (0, text))
  | .boolean value => toLex (3, toLex (if value then 1 else 0, ""))
  | .decimal _ => toLex (4, toLex (0, ""))

theorem extended_ofInt64 (value : Int64) :
    (Binary64.ofInt64 value).extended = (Binary64.ofInt64 value).units := by
  have finite := Binary64.hasMagnitude_ofInt64 value
  rw [Binary64.extended, Binary64.magnitude?_of_finite finite]

theorem sortOrder_integers (one other : Int64) :
    Value.sortOrder (.integer one) (.integer other) =
      compare (Binary64.ofInt64 one).units (Binary64.ofInt64 other).units := by
  have notNan (value : Int64) : (Binary64.ofInt64 value).isNan = false :=
    Binary64.isNan_of_finite (Binary64.hasMagnitude_ofInt64 value)
  change (Binary64.partialCompare (Binary64.ofInt64 one) (Binary64.ofInt64 other)).getD .eq = _
  rw [Binary64.partialCompare, notNan, notNan, extended_ofInt64, extended_ofInt64]
  rfl

theorem rank_fst (element : Element) : (ofLex element.rank).1 = element.toValue.typeOrder := by
  cases element <;> rfl

theorem sortOrder_isLE (one other : Element) :
    (Value.sortOrder one.toValue other.toValue).isLE = decide (one.rank ≤ other.rank) := by
  by_cases types : one.toValue.typeOrder = other.toValue.typeOrder
  · cases one with
    | integer one =>
        cases other with
        | integer other =>
            rw [toValue, toValue, sortOrder_integers, isLE_compare, decide_eq_decide,
              le_iff_lt_or_eq]
            simp [rank, Prod.Lex.toLex_le_toLex]
        | _ => cases types
    | decimal one =>
        cases other with
        | decimal other => simp [rank, toValue, Value.sortOrder, Value.typeOrder]
        | _ => cases types
    | string one =>
        cases other with
        | string other =>
            change (compare one other).isLE = _
            rw [isLE_compare, decide_eq_decide]
            simp [rank, Prod.Lex.toLex_le_toLex]
        | _ => cases types
    | boolean one =>
        cases other with
        | boolean other =>
            revert one other
            decide
        | _ => cases types
  · have ranks : (ofLex one.rank).1 ≠ (ofLex other.rank).1 := by
      rw [rank_fst, rank_fst]
      exact types
    unfold Value.sortOrder
    rw [if_pos types, isLE_compare, decide_eq_decide, Prod.Lex.le_iff, ← rank_fst, ← rank_fst]
    constructor
    · exact fun most => .inl (lt_of_le_of_ne most ranks)
    · intro most
      rcases most with less | same
      · exact le_of_lt less
      · exact absurd same.1 ranks

theorem sort_map (elements : List Element) :
    Value.sort (elements.map toValue) =
      (elements.mergeSort fun one other =>
        (Value.sortOrder one.toValue other.toValue).isLE).map toValue :=
  (List.map_mergeSort (f := toValue) fun _ _ _ _ => rfl).symm

/-! ## The order of the operators -/

/-- The number that an element stands for. -/
def number? : Element → Option Rat
  | .integer value => some value.toInt
  | .decimal value => some value.toRat
  | _ => none

section Operator

variable {profile : BuildProfile} {kit : NumberKit} {library : Library} {position : Position}
variable (numeric : kit.ComparesNumbers)

include numeric

/-- Numbers are compared with numbers and texts with texts. -/
theorem atMost_iff (one other : Element) :
    atMost profile kit library position one.toValue other.toValue = true ↔
      (∃ first ∈ one.number?, ∃ second ∈ other.number?, first ≤ second) ∨
        ∃ first second, one = .string first ∧ other = .string second ∧ first ≤ second := by
  cases one <;> cases other
  case integer.integer one other =>
    change (compare one.toInt other.toInt).isLE = true ↔ _
    rw [isLE_compare]
    simp [number?]
  case integer.decimal one other =>
    change (kit.decimalCompare (.ofInteger one) other).isLE = true ↔ _
    rw [numeric, isLE_compare, Operators.toRat_ofInteger]
    simp [number?]
  case decimal.integer one other =>
    change (kit.decimalCompare one (.ofInteger other)).isLE = true ↔ _
    rw [numeric, isLE_compare, Operators.toRat_ofInteger]
    simp [number?]
  case decimal.decimal one other =>
    change (kit.decimalCompare one other).isLE = true ↔ _
    rw [numeric, isLE_compare]
    simp [number?]
  case string.string one other =>
    change (compare one other).isLE = true ↔ _
    rw [isLE_compare]
    simp [number?]
  all_goals simp [number?, toValue, atMost, lessEqual, Operators.applyBinaryOp,
    Operators.opCompare, Operators.typeError]

theorem atMost_trans (one two three : Element)
    (first : atMost profile kit library position one.toValue two.toValue = true)
    (second : atMost profile kit library position two.toValue three.toValue = true) :
    atMost profile kit library position one.toValue three.toValue = true := by
  rw [atMost_iff numeric] at first second ⊢
  rcases first with ⟨low, lowIs, middle, middleIs, below⟩ | ⟨low, middle, rfl, rfl, below⟩
  · rcases second with ⟨again, againIs, high, highIs, above⟩ | ⟨text, high, rfl, rfl, above⟩
    · obtain rfl := Option.some.inj (middleIs.symm.trans againIs)
      exact .inl ⟨low, lowIs, high, highIs, le_trans below above⟩
    · cases middleIs
  · rcases second with ⟨again, againIs, high, highIs, above⟩ | ⟨text, high, same, rfl, above⟩
    · cases againIs
    · cases same
      exact .inr ⟨low, high, rfl, rfl, le_trans below above⟩

/-- Elements are comparable when one is at most the other. -/
theorem comparable_iff (one other : Element) :
    Comparable profile kit library position one.toValue other.toValue ↔
      atMost profile kit library position one.toValue other.toValue = true ∨
        atMost profile kit library position other.toValue one.toValue = true := by
  rw [atMost_iff numeric, atMost_iff numeric]
  cases one <;> cases other
  case integer.integer one other =>
    refine iff_of_true ⟨_, rfl⟩ ?_
    simp [number?, le_total]
  case integer.decimal one other =>
    refine iff_of_true ⟨_, rfl⟩ ?_
    simp [number?, le_total]
  case decimal.integer one other =>
    refine iff_of_true ⟨_, rfl⟩ ?_
    simp [number?, le_total]
  case decimal.decimal one other =>
    refine iff_of_true ⟨_, rfl⟩ ?_
    simp [number?, le_total]
  case string.string one other =>
    refine iff_of_true ⟨_, rfl⟩ ?_
    simp [number?, le_total]
  all_goals simp [number?, toValue, Comparable, lessEqual, Operators.applyBinaryOp,
    Operators.opCompare, Operators.typeError]

/-- The sort and the operator agree on two elements exactly when they are in place. -/
theorem agree_iff_inPlace (one other : Element) :
    (atMost profile kit library position one.toValue other.toValue = true ∨
        atMost profile kit library position other.toValue one.toValue = true →
      ((Value.sortOrder one.toValue other.toValue).isLE = true ↔
        atMost profile kit library position one.toValue other.toValue = true)) ↔
      InPlace one other := by
  rw [atMost_iff numeric, atMost_iff numeric]
  cases one <;> cases other
  case integer.integer one other =>
    have mono {small large : Int64} (ordered : small.toInt ≤ large.toInt) :=
      Binary64.units_ofInt64_mono ordered
    rw [toValue, toValue, sortOrder_integers, isLE_compare, decide_eq_true_iff]
    simp only [number?, Option.mem_def, Option.some.injEq, exists_eq_left', Int.cast_le,
      reduceCtorEq, false_and, exists_false, or_false, InPlace, le_total, forall_const,
      Int64.lt_iff_toInt_lt, and_self]
    constructor
    · intro same less equal
      exact absurd (same.mp (le_of_eq equal)) (not_le.mpr less)
    · intro apart
      constructor
      · intro rounded
        by_contra greater
        have less := not_le.mp greater
        exact apart less (le_antisymm rounded (mono (le_of_lt less)))
      · exact mono
  case integer.decimal one other =>
    have order : Value.sortOrder (.integer one) (.decimal other) = .lt := rfl
    rw [toValue, toValue, order]
    simp [number?, InPlace, le_total]
  case decimal.integer one other =>
    have order : Value.sortOrder (.decimal one) (.integer other) = .gt := rfl
    rw [toValue, toValue, order]
    simp [number?, InPlace, le_total]
  case decimal.decimal one other =>
    simp [number?, InPlace, toValue, Value.sortOrder, Value.typeOrder, le_total]
  case string.string one other =>
    have order : Value.sortOrder (.string one) (.string other) = compare one other := rfl
    rw [toValue, toValue, order, isLE_compare]
    simp [number?, InPlace]
  all_goals simp [number?, InPlace]

/-! ## Sorted lists -/

/-- A list is sorted by the operator exactly when its elements are in place in pairs. -/
theorem sortsByOperator_iff (elements : List Element) :
    SortsByOperator profile kit library position (elements.map toValue)
        (Value.sort (elements.map toValue)) ↔
      elements.Pairwise InPlace := by
  let most (one other : Element) := atMost profile kit library position one.toValue other.toValue
  let sorts (one other : Element) := (Value.sortOrder one.toValue other.toValue).isLE
  have trans (one two three : Element) (first : sorts one two = true)
      (second : sorts two three = true) : sorts one three = true := by
    simp only [sorts, sortOrder_isLE, decide_eq_true_eq] at first second ⊢
    exact le_trans first second
  have total (one two : Element) : (sorts one two || sorts two one) = true := by
    simp only [sorts, sortOrder_isLE, Bool.or_eq_true, decide_eq_true_eq]
    exact le_total _ _
  have filtered (items : List Element) (element : Element) :
      (items.map toValue).filter (tied (atMost profile kit library position) element.toValue) =
        (items.filter (tied most element)).map toValue := by
    rw [List.filter_map]
    rfl
  have same : SortsByOperator profile kit library position (elements.map toValue)
        (Value.sort (elements.map toValue)) ↔
      SortsStably most elements (elements.mergeSort sorts) := by
    rw [sort_map]
    constructor
    · intro sorted
      refine ⟨(List.map_perm_map_iff toValue_injective).mp sorted.permutes, ?_, ?_⟩
      · refine (List.pairwise_map.mp sorted.ordered).imp fun {one other} ordered related => ?_
        exact ordered ((comparable_iff numeric one other).mpr related)
      · intro element member
        have stable := sorted.stable element.toValue (List.mem_map_of_mem member)
        rw [filtered, filtered] at stable
        exact toValue_injective.list_map stable
    · intro sorted
      refine ⟨sorted.permutes.map toValue, ?_, ?_⟩
      · refine List.pairwise_map.mpr (sorted.ordered.imp fun {one other} ordered related => ?_)
        exact ordered ((comparable_iff numeric one other).mp related)
      · intro value member
        obtain ⟨element, inside, rfl⟩ := List.mem_map.mp member
        rw [filtered, filtered, sorted.stable element inside]
  have transitive (one two three : Element) (first : most one two = true)
      (second : most two three = true) : most one three = true :=
    atMost_trans numeric one two three first second
  rw [same, sortsStably_mergeSort_iff trans total transitive]
  have agree (one other : Element) :
      (most one other = true ∨ most other one = true → sorts one other = most one other) ↔
        InPlace one other := by
    rw [← agree_iff_inPlace numeric one other]
    exact imp_congr_right fun _ => Bool.eq_iff_iff
  exact List.Pairwise.iff agree

end Operator

end Element

/-! ## Exact sums -/

section Sums

variable (profile : BuildProfile) (kit : NumberKit) (library : Library) (position : Position)

/-- The fold of `+` over integers. -/
def foldAdd (total : Value) (numbers : List Int64) : Except LibraryFault Value :=
  numbers.foldlM (fun total number =>
    Operators.applyBinaryOp profile kit library position .add total (.integer number)) total

theorem sumFrom_eq_foldAdd {numbers : List Int64} {total : Binary64} {exact : Int}
    (holds : Binary64.Holds total exact) (lower : -2 ^ 63 ≤ exact) (upper : exact < 2 ^ 63)
    (held : HeldFrom exact numbers) :
    Value.sumFrom position total false (numbers.map Value.integer) =
      foldAdd profile kit library position (.integer (.ofInt exact)) numbers := by
  induction numbers generalizing total exact with
  | nil =>
      have result : total.toInt64 = .ofInt exact := by
        rw [← holds.toInt64 lower upper, Int64.ofInt_toInt]
      rw [List.map_nil, Value.sumFrom, result]
      rfl
  | cons number numbers induction =>
      obtain ⟨numberHeld, sumHeld, ⟨sumLower, sumUpper⟩, rest⟩ := held
      have next := holds.add (Binary64.holds_ofInt64 numberHeld) sumHeld (by omega)
      have step : Operators.applyBinaryOp profile kit library position .add
          (.integer (.ofInt exact)) (.integer number) =
            .ok (.integer (.ofInt (exact + number.toInt))) := by
        change Operators.integerResult profile ((Int64.ofInt exact).toInt + number.toInt) = _
        rw [Operators.toInt_ofInt_of_fits ⟨lower, upper⟩]
        unfold Operators.integerResult
        rw [if_pos ⟨sumLower, sumUpper⟩]
      rw [List.map_cons, Value.sumFrom, induction next sumLower sumUpper rest, foldAdd, foldAdd,
        List.foldlM_cons, step]
      rfl

theorem sum_eq_foldAdd {numbers : List Int64} (held : HeldFrom 0 numbers) :
    Value.sum position (numbers.map Value.integer) =
      foldAdd profile kit library position (.integer 0) numbers := by
  cases numbers with
  | nil => rfl
  | cons number numbers =>
      have zero : Int64.ofInt 0 = 0 := rfl
      have folded := sumFrom_eq_foldAdd profile kit library position (Binary64.holds_zero false)
        (by omega) (by omega) held
      rw [zero] at folded
      exact folded

end Sums

/-! ## Both methods -/

/-- A list is sorted by the operator `<=` exactly when its elements are in place in pairs,
and the sum of integers is the fold of `+` where a double holds the total at every step. -/
theorem listMethods_agree (profile : BuildProfile) (kit : NumberKit) (library : Library)
    (position : Position) (numeric : kit.ComparesNumbers) :
    (∀ elements : List Element,
      SortsByOperator profile kit library position (elements.map Element.toValue)
          (Value.sort (elements.map Element.toValue)) ↔
        elements.Pairwise InPlace) ∧
      ∀ numbers, HeldFrom 0 numbers →
        Value.sum position (numbers.map Value.integer) =
          foldAdd profile kit library position (.integer 0) numbers :=
  ⟨Element.sortsByOperator_iff numeric,
    fun _ held => sum_eq_foldAdd profile kit library position held⟩

/-- Decimals compared as numbers, and doubles; the other operations play no part here. -/
def comparingKit : NumberKit :=
  { Operators.overflowingKit with
    decimalCompare := fun left right => compare left.toRat right.toRat
    floatOfInteger := Binary64.ofInt64
    floatAdd := Binary64.add
    floatCompare := Binary64.partialCompare }

/-- The numbers of the two runs below. -/
theorem mixedNumbers_apart :
    (Binary64.ofInt64 3).units ≠ (Binary64.ofInt64 1).units ∧
      ((1 : Int64).toInt : Rat) < ((2 : Int64).toInt : Rat) ∧
      ((Binary64.add ⟨0⟩ (Binary64.ofInt64 9007199254740992)).add
        (Binary64.ofInt64 1)).toInt64 = 9007199254740992 := by
  decide +kernel

/-- Integers between texts are sorted, and added. -/
theorem listMethods_agree_mixed :
    SortsByOperator .release comparingKit scalarLibrary ⟨1, 1⟩
        ([.integer 3, .string "b", .integer 1].map Element.toValue)
        (Value.sort ([.integer 3, .string "b", .integer 1].map Element.toValue)) ∧
      Value.sum ⟨1, 1⟩ ([3, 1].map Value.integer) =
        foldAdd .release comparingKit scalarLibrary ⟨1, 1⟩ (.integer 0) [3, 1] := by
  have agree := listMethods_agree .release comparingKit scalarLibrary ⟨1, 1⟩ fun _ _ => rfl
  have apart := mixedNumbers_apart.1
  constructor
  · apply (agree.1 _).mpr
    simp [InPlace, apart]
  · apply agree.2
    exact ⟨⟨3, 0, by decide, rfl⟩, ⟨3, 0, by decide, rfl⟩, by decide,
      ⟨1, 0, by decide, rfl⟩, ⟨4, 0, by decide, rfl⟩, by decide, trivial⟩

/-- Two decimals in descending order stay so, and an integer above 2 ^ 53 is lost in a
sum. -/
theorem listMethods_disagree :
    ¬ SortsByOperator .release comparingKit scalarLibrary ⟨1, 1⟩
        ([.decimal (.ofInteger 2), .decimal (.ofInteger 1)].map Element.toValue)
        (Value.sort ([.decimal (.ofInteger 2), .decimal (.ofInteger 1)].map Element.toValue)) ∧
      Value.sum ⟨1, 1⟩ ([9007199254740992, 1].map Value.integer) =
        .ok (.integer 9007199254740992) ∧
      foldAdd .release comparingKit scalarLibrary ⟨1, 1⟩ (.integer 0) [9007199254740992, 1] =
        .ok (.integer 9007199254740993) := by
  refine ⟨?_, ?_, rfl⟩
  · have numeric : comparingKit.ComparesNumbers := fun _ _ => rfl
    rw [Element.sortsByOperator_iff numeric]
    simp only [List.pairwise_pair, InPlace, Operators.toRat_ofInteger]
    exact Rat.not_le.mpr mixedNumbers_apart.2.1
  · have total := mixedNumbers_apart.2.2
    exact congrArg
      (fun total => (Except.ok (Value.integer total) : Except LibraryFault Value)) total

end Marreta
