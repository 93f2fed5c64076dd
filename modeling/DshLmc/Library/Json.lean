import Mathlib.Data.List.Lemmas

/-!
# JSON values

A value is a tree of arrays and objects over numbers, texts and truth values. The reals are a
parameter, together with the little that reading a value as another kind computes on them. A reading
fails where the value cannot be converted.
-/

namespace DshLmc

inductive Json (R : Type) where
  | null
  | int (value : Int)
  | real (value : R)
  | string (value : String)
  | bool (value : Bool)
  | array (items : List (Json R))
  | object (members : List (String × Json R))

namespace Json

variable {R : Type}

/-- What the conversions between kinds compute on reals. -/
structure Reals (R : Type) where
  ofInt : Int → R
  truncate : R → Option Int
  isZero : R → Bool
  text : R → String

/-- The members of an object, in no order. A key has one value. -/
abbrev Members (R : Type) := List (String × Json R)

namespace Members

def get? (members : Members R) (key : String) : Option (Json R) := members.lookup key

def set (key : String) (value : Json R) (members : Members R) : Members R :=
  (key, value) :: members.filter fun member => decide (member.1 ≠ key)

/-- `members[key].append(item)`. A key without a value gets an array. -/
def append (key : String) (members : Members R) (item : Json R) : Members R :=
  match members.get? key with
  | some (.array items) => members.set key (.array (items ++ [item]))
  | _ => members.set key (.array [item])

@[simp]
theorem get?_nil (key : String) : get? ([] : Members R) key = none := rfl

@[simp]
theorem get?_cons (key key' : String) (value : Json R) (members : Members R) :
    get? ((key, value) :: members) key' = if key' = key then some value else members.get? key' := by
  unfold get?
  split
  case isTrue h => rw [h, List.lookup_cons_self]
  case isFalse h => rw [List.lookup_cons, beq_false_of_ne h]

@[simp]
theorem get?_set (key key' : String) (value : Json R) (members : Members R) :
    (members.set key value).get? key' = if key' = key then some value else members.get? key' := by
  rw [set, get?_cons]
  split
  case isTrue => rfl
  case isFalse hne =>
      induction members with
      | nil => rfl
      | cons member rest ih =>
          obtain ⟨key'', value'⟩ := member
          by_cases hkey : key'' = key
          · rw [List.filter_cons_of_neg (by simpa using hkey), ih, get?_cons,
              if_neg fun h => hne (h.trans hkey)]
          · rw [List.filter_cons_of_pos (by simpa using hkey), get?_cons, get?_cons, ih]

theorem get?_append_of_ne {key key' : String} (hne : key' ≠ key) (members : Members R)
    (item : Json R) : (members.append key item).get? key' = members.get? key' := by
  unfold append
  split <;> rw [get?_set, if_neg hne]

theorem get?_foldl_append_of_ne {key key' : String} (hne : key' ≠ key) (items : List (Json R))
    (members : Members R) :
    (items.foldl (append key) members).get? key' = members.get? key' := by
  induction items generalizing members with
  | nil => rfl
  | cons item rest ih => exact (ih _).trans (get?_append_of_ne hne members item)

theorem get?_foldl_append_array {key : String} (items : List (Json R)) {members : Members R}
    {before : List (Json R)} (hbefore : members.get? key = some (.array before)) :
    (items.foldl (append key) members).get? key = some (.array (before ++ items)) := by
  induction items generalizing members before with
  | nil => simpa using hbefore
  | cons item rest ih =>
      have hitem : (members.append key item).get? key = some (.array (before ++ [item])) := by
        simp [append, hbefore]
      simpa using ih hitem

/-- Appending to a key without a value: no item, no member. -/
theorem get?_foldl_append {key : String} (items : List (Json R)) {members : Members R}
    (hnone : members.get? key = none) :
    (items.foldl (append key) members).get? key
      = if items = [] then none else some (.array items) := by
  cases items with
  | nil => exact hnone
  | cons item rest =>
      have hitem : (members.append key item).get? key = some (.array [item]) := by
        simp [append, hnone]
      simpa using get?_foldl_append_array rest hitem

end Members

/-- No value, or an array or an object with nothing in it. -/
def isEmpty : Json R → Bool
  | .null => true
  | .array items => items.isEmpty
  | .object members => members.isEmpty
  | _ => false

def isBool : Json R → Bool
  | .bool _ => true
  | _ => false

def isString : Json R → Bool
  | .string _ => true
  | _ => false

def isNumeric : Json R → Bool
  | .int _ => true
  | .real _ => true
  | _ => false

variable (A : Reals R)

def asString : Json R → Option String
  | .null => some ""
  | .int value => some (toString value)
  | .real value => some (A.text value)
  | .string value => some value
  | .bool value => some (if value then "true" else "false")
  | _ => none

/-- Integers are of the size they are read at. -/
def asInt : Json R → Option Int
  | .null => some 0
  | .int value => some value
  | .real value => A.truncate value
  | .bool value => some (if value then 1 else 0)
  | _ => none

/-- A negative value is not converted. -/
def asUInt (j : Json R) : Option Nat :=
  (j.asInt A).bind fun value => if 0 ≤ value then some value.toNat else none

@[simp]
theorem asUInt_natCast (n : Nat) : (Json.int n).asUInt A = some n := by
  simp [asUInt, asInt]

def asReal : Json R → Option R
  | .null => some (A.ofInt 0)
  | .int value => some (A.ofInt value)
  | .real value => some value
  | .bool value => some (A.ofInt (if value then 1 else 0))
  | _ => none

def asBool : Json R → Option Bool
  | .null => some false
  | .int value => some (decide (value ≠ 0))
  | .real value => some (!A.isZero value)
  | .bool value => some value
  | _ => none

end Json

end DshLmc
