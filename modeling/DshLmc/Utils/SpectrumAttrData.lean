import Mathlib.Data.UInt
import DshLmc.Utils.AttrData

/-!
# Spectra as texts

`SpectrumAttrData<T>` writes its elements into one text. The type of a short attribute is that of an
enumeration too, and for it there is an overridden printer, which writes labels.
-/

namespace DshLmc

open Tango

/-- An attribute of format `SPECTRUM`, with what its printers read and `set_data` writes. -/
structure SpectrumAttrData (T : Type) where
  m_data : List T
  m_data_type : Int
  m_labels : List (List Char) := []
  m_data_quality : AttrQuality := .valid
  m_timestamp : TimeVal := ⟨0, 0⟩
  m_is_value_set : Bool := false

namespace SpectrumAttrData

variable {T : Type}

/-- The three `set_data`: a vector, a buffer that may be null, and what a client extracted, if that
did not throw. -/
inductive SetDataCall (T : Type) where
  | vector (v : List T) (quality : AttrQuality)
  | buffer (buffer : Option (List T)) (quality : AttrQuality)
  | device (value : Option (List T)) (quality : AttrQuality) (date : TimeVal)

def write (d : SpectrumAttrData T) (value : List T) (quality : AttrQuality) (timestamp : TimeVal) :
    SpectrumAttrData T :=
  { d with
    m_data := value
    m_data_quality := quality
    m_timestamp := timestamp
    m_is_value_set := true }

def setData (d : SpectrumAttrData T) (now : TimeVal) : SetDataCall T → Int × SpectrumAttrData T
  | .vector v quality => (0, d.write v quality now)
  | .buffer none _ => (-1, d)
  | .buffer (some buffer) quality =>
      if buffer.length ≤ 0 then (-1, d) else (0, d.write buffer quality now)
  | .device none _ _ => (-1, d)
  | .device (some value) quality date => (0, d.write value quality date)

/-- A vector of any length gets into an attribute. -/
@[simp]
theorem m_data_setData_vector (d : SpectrumAttrData T) (now : TimeVal) (v : List T)
    (quality : AttrQuality) : (d.setData now (.vector v quality)).2.m_data = v := rfl

/-- Why a loop over the elements does not come to its end: an access out of range, an index that
wraps round before it reaches the bound, or an enum value without a label. -/
inductive Stop where
  | out_of_range
  | endless
  | no_label
deriving DecidableEq

def separator : List Char := ", ".toList

/-- `m_data.size()-1`, which is unsigned. -/
def lastIndex (size : Nat) : Nat := if size = 0 then 18446744073709551615 else size - 1

/-- `n` rounds of the loop from `i` on. -/
def streamLoop (put : Nat → Except Stop (List Char)) :
    Nat → Nat → List Char → Except Stop (List Char)
  | 0, _, ss => .ok ss
  | n + 1, i, ss =>
      match put i with
      | .ok item => streamLoop put n (i + 1) (ss ++ item ++ separator)
      | .error stop => .error stop

/-- The loop to `m_data.size()-1`, and the last element. The index is an `unsigned int`. -/
def stream (put : Nat → Except Stop (List Char)) (size : Nat) : Except Stop (List Char) :=
  match streamLoop put (min (lastIndex size) 4294967296) 0 [] with
  | .error stop => .error stop
  | .ok ss =>
      if 4294967295 < lastIndex size then .error .endless
      else (put (lastIndex size)).map fun item => ss ++ item

/-- `m_data[i]`, put into the stream. -/
def element (put : T → Except Stop (List Char)) (m_data : List T) (i : Nat) :
    Except Stop (List Char) :=
  m_data[i]?.elim (.error .out_of_range) put

/-- `get_data_str_i`, where `print` is what `operator<<` writes. -/
def getDataStr_i (print : T → List Char) (d : SpectrumAttrData T) : Except Stop (List Char) :=
  stream (element (fun item => .ok (print item)) d.m_data) d.m_data.length

/-- `get_data_str`, with what it returns. -/
def getDataStr (print : T → List Char) (d : SpectrumAttrData T) : Except Stop (Int × List Char) :=
  (getDataStr_i print d).map fun data_str => (0, data_str)

/-- What `operator<<` writes for a short. -/
def printShort (value : Int16) : List Char :=
  if value.toInt < 0 then '-' :: Nat.toDigits 10 value.toInt.natAbs
  else Nat.toDigits 10 value.toInt.natAbs

/-- The label of an enum value, after the check of its range. -/
def putLabel (m_labels : List (List Char)) (value : Int16) : Except Stop (List Char) :=
  if value < 0 ∨ value ≥ Int16.ofNat m_labels.length then .error .no_label
  else m_labels[value.toInt.toNat]?.elim (.error .out_of_range) .ok

/-- `get_data_str` of `SpectrumAttrData<Tango::DevEnum>`. The text is assigned what `get_data_str_i`
returns, the number 0, which as a character is the null character. -/
def getDataStrEnum (d : SpectrumAttrData Int16) : Except Stop (Int × List Char) :=
  match getDataStr_i printShort d with
  | .error stop => .error stop
  | .ok _ =>
      let data_str := ['\x00']
      if d.m_data_type = devShort then .ok (0, data_str)
      else if d.m_labels = [] then .ok (-1, data_str)
      else
        match stream (element (putLabel d.m_labels) d.m_data) d.m_data.length with
        | .ok ss => .ok (0, ss)
        | .error .no_label => .ok (-1, data_str)
        | .error stop => .error stop

end SpectrumAttrData

end DshLmc
