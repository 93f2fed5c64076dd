import DshLmc.Utils.Tango

/-!
# Maps of sets

`MapSet` maps a key to a set of values, and `BiMapSet` maps a key to a `MapSet`. The sets have
values of different C++ types and the maps forget which: the caller names the type again and the
code casts without a check. A cast to the wrong type reads memory as something it is not, so what it
reads is a parameter.
-/

namespace DshLmc

open Tango

/-- `==` of two floats given by their bits: no NaN equals anything, and the zeros are equal. -/
def floatEq (x y : UInt32) : Bool :=
  let isNan (z : UInt32) : Bool := (z &&& 0x7fffffff) > 0x7f800000
  !isNan x && !isNan y && (x == y || ((x ||| y) &&& 0x7fffffff) == 0)

/-- `==` of two doubles given by their bits. -/
def doubleEq (x y : UInt64) : Bool :=
  let isNan (z : UInt64) : Bool := (z &&& 0x7fffffffffffffff) > 0x7ff0000000000000
  !isNan x && !isNan y && (x == y || ((x ||| y) &&& 0x7fffffffffffffff) == 0)

/-- `==` of the C++ types. -/
def Tango.ElementType.eq : (T : ElementType) → T.Carrier → T.Carrier → Bool
  | .state, (x : UInt32), y => x == y
  | .float, (x : UInt32), y => floatEq x y
  | .double, (x : UInt64), y => doubleEq x y
  | .long, (x : Int32), y => x == y
  | .short, (x : Int16), y => x == y
  | .string, (x : String), y => x == y
  | .boolean, (x : Bool), y => x == y

/-- An `AbstractSetPtr`: the values and the type they have. -/
structure AbstractSet where
  T : ElementType
  m_vec : List T.Carrier

/-- What `static_pointer_cast<Set<T>>` reads of a set that has another type. -/
abbrev Misread := (T : ElementType) → AbstractSet → List T.Carrier

variable (misread : Misread)

/-- `static_pointer_cast<Set<T>>`. -/
def AbstractSet.cast (T : ElementType) (set : AbstractSet) : List T.Carrier :=
  if h : set.T = T then h ▸ set.m_vec else misread T set

def hasValueInSet {T : ElementType} (m_vec : List T.Carrier) (value : T.Carrier) : Bool :=
  m_vec.any fun item => T.eq item value

@[simp]
theorem AbstractSet.cast_self (T : ElementType) (values : List T.Carrier) :
    (AbstractSet.mk T values).cast misread T = values := by
  simp [AbstractSet.cast]

variable {τ κ : Type} [Ord τ] [Std.TransOrd τ] [Ord κ] [Std.TransOrd κ]

abbrev MapSet (κ : Type) [Ord κ] := Std.ExtTreeMap κ AbstractSet

namespace MapSet

/-- `MapSet::Add`. `map.insert` leaves the entry of a key that is there. -/
def add (map : MapSet κ) (key : κ) (values : AbstractSet) : MapSet κ := map.insertIfNew key values

def hasAllowedValueInSet (map : MapSet κ) (T : ElementType) (key : κ) (value : T.Carrier) : Bool :=
  match map[key]? with
  | none => true
  | some set => hasValueInSet (set.cast misread T) value

variable [Std.LawfulEqOrd κ] [DecidableEq κ]

theorem getElem?_add (map : MapSet κ) (key key' : κ) (values : AbstractSet) :
    (map.add key values)[key']?
      = (map[key']?).or (if key = key' then some values else none) := by
  rw [add, Std.ExtTreeMap.getElem?_insertIfNew]
  by_cases hkey : key = key'
  · subst hkey
    cases hitem : map[key]? with
    | none =>
        have hnew : key ∉ map := by simpa using hitem
        simp [hnew]
    | some set =>
        have hold : key ∈ map := Std.ExtTreeMap.mem_iff_isSome_getElem?.mpr (by simp [hitem])
        simp [hold]
  · simp [hkey]

end MapSet

abbrev BiMapSet (τ κ : Type) [Ord τ] [Ord κ] := Std.ExtTreeMap τ (MapSet κ)

namespace BiMapSet

def get2ndKeyList (map : BiMapSet τ κ) (key : τ) : Option (List κ) := (map[key]?).map (·.keys)

def add (map : BiMapSet τ κ) (key : τ) (key2 : κ) (values : AbstractSet) : BiMapSet τ κ :=
  match map[key]? with
  | some item => map.insert key (item.add key2 values)
  | none => map.insertIfNew key ((∅ : MapSet κ).add key2 values)

def hasAllowedValueInSet (map : BiMapSet τ κ) (T : ElementType) (key : τ) (key2 : κ)
    (value : T.Carrier) : Bool :=
  match map[key]? with
  | none => true
  | some mapItem => mapItem.hasAllowedValueInSet misread T key2 value

def find? (map : BiMapSet τ κ) (key : τ) (key2 : κ) : Option AbstractSet :=
  (map[key]?).bind (·[key2]?)

@[simp]
theorem find?_empty (key : τ) (key2 : κ) : (∅ : BiMapSet τ κ).find? key key2 = none := by
  simp [find?]

theorem hasAllowedValueInSet_of_find? {map : BiMapSet τ κ} {key : τ} {key2 : κ}
    {set : AbstractSet} (h : map.find? key key2 = some set) (T : ElementType) (value : T.Carrier) :
    map.hasAllowedValueInSet misread T key key2 value
      = hasValueInSet (set.cast misread T) value := by
  obtain ⟨item, hitem, hset⟩ := Option.bind_eq_some_iff.mp h
  simp [hasAllowedValueInSet, MapSet.hasAllowedValueInSet, hitem, hset]

variable [Std.LawfulEqOrd τ] [Std.LawfulEqOrd κ]

omit [Std.LawfulEqOrd τ] in
theorem mem_keys_iff {map : BiMapSet τ κ} {key : τ} {keys : List κ}
    (hkeys : map.get2ndKeyList key = some keys) (key2 : κ) :
    key2 ∈ keys ↔ ∃ set, map.find? key key2 = some set := by
  obtain ⟨item, hitem, rfl⟩ := Option.map_eq_some_iff.mp hkeys
  rw [Std.ExtTreeMap.mem_keys, Std.ExtTreeMap.mem_iff_isSome_getElem?, Option.isSome_iff_exists]
  simp [find?, hitem]

variable [DecidableEq τ] [DecidableEq κ]

/-- **The earliest entry of a pair stays.** -/
theorem find?_add (map : BiMapSet τ κ) (key : τ) (key2 : κ) (values : AbstractSet) (key' : τ)
    (key2' : κ) :
    (map.add key key2 values).find? key' key2'
      = (map.find? key' key2').or (if key = key' ∧ key2 = key2' then some values else none) := by
  by_cases hkey : key = key'
  · subst hkey
    cases h : map[key]? with
    | none =>
        have hnew : key ∉ map := by simpa using h
        simp only [add, h, find?, Std.ExtTreeMap.getElem?_insertIfNew, hnew]
        simp [MapSet.getElem?_add]
    | some item => simp [add, h, find?, MapSet.getElem?_add]
  · cases h : map[key]? with
    | none => simp [add, h, find?, hkey, Std.ExtTreeMap.getElem?_insertIfNew]
    | some item => simp [add, h, find?, hkey, Std.ExtTreeMap.getElem?_insert]

end BiMapSet

end DshLmc
