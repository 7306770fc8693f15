import Marreta.Runtime.Value

namespace Marreta

/-! JSON documents, and the values they are read as. -/

/-- Numbers without a fraction are kept exactly when they fit 64 bits. -/
inductive JsonNumber where
  | posInt (value : UInt64)
  | negInt (value : Int64)
  | float (value : Binary64)
deriving DecidableEq

/-- A document.  The names of an object are distinct. -/
inductive Json where
  | null
  | bool (value : Bool)
  | number (value : JsonNumber)
  | string (value : String)
  | array (items : List Json)
  | object (entries : List (String × Json))

namespace JsonNumber

def asInt64 : JsonNumber → Option Int64
  | .posInt value => if value.toNat < 2 ^ 63 then some value.toInt64 else none
  | .negInt value => some value
  | .float _ => none

def asFloat : JsonNumber → Binary64
  | .posInt value => Binary64.ofRatio value.toNat 1
  | .negInt value => (Binary64.ofRatio value.toInt.natAbs 1).withSign true
  | .float value => value

def toValue (number : JsonNumber) : Value :=
  match number.asInt64 with
  | some value => .integer value
  | none => .float number.asFloat

end JsonNumber

namespace Json

def asString? : Json → Option String
  | .string text => some text
  | _ => none

mutual
def toValue : Json → Value
  | .null => .null
  | .bool value => .boolean value
  | .number value => value.toValue
  | .string text => .string text
  | .array items => .list (itemsToValues items)
  | .object entries => .map (entriesToValues entries)

def itemsToValues : List Json → List Value
  | [] => []
  | item :: items => item.toValue :: itemsToValues items

def entriesToValues : List (String × Json) → ValueMap
  | [] => []
  | (name, json) :: entries => (name, json.toValue) :: entriesToValues entries
end

theorem itemsToValues_eq (items : List Json) : itemsToValues items = items.map toValue := by
  induction items with
  | nil => rfl
  | cons item items induction => rw [itemsToValues, induction, List.map_cons]

theorem entriesToValues_eq (entries : List (String × Json)) :
    entriesToValues entries = entries.map fun entry => (entry.1, entry.2.toValue) := by
  induction entries with
  | nil => rfl
  | cons entry entries induction => rw [entriesToValues, induction, List.map_cons]

end Json
end Marreta
