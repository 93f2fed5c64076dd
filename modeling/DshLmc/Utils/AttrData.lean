import DshLmc.Utils.Tango

/-!
# Attribute data

`ScalarAttrData<T>` and `SpectrumAttrData<T>` hold the current value of an attribute with its
quality factor, its timestamp and the safe value. The type `T` is chosen when the object is made.
-/

namespace DshLmc

open Tango

inductive AttrQuality where
  | valid
  | invalid
  | alarm
  | changing
  | warning
deriving DecidableEq

structure TimeVal where
  tv_sec : Int32
  tv_usec : Int32
deriving DecidableEq

/-- What a client receives of an attribute: `Tango::DeviceAttribute`. -/
structure DeviceAttribute where
  value : CorbaAny
  quality : AttrQuality
  date : TimeVal

inductive Data (T : ElementType) where
  | scalar (value : T.Carrier)
  | spectrum (values : List T.Carrier)

namespace Data

variable {T : ElementType}

def toValue : Data T → Value
  | .scalar value => .scalar T value
  | .spectrum values => .spectrum T values

def format : Data T → Int
  | .scalar _ => Tango.scalar
  | .spectrum _ => Tango.spectrum

/-- `(*da)>>value`, into a variable of the format of `data`. -/
def extract (any : CorbaAny) : Data T → Option (Data T)
  | .scalar _ => (any.extractScalar T).map .scalar
  | .spectrum _ => (any.extractSpectrum T).map .spectrum

/-- Every element becomes the safe value. -/
def fill (safe : T.Carrier) : Data T → Data T
  | .scalar _ => .scalar safe
  | .spectrum values => .spectrum (values.map fun _ => safe)

theorem toValue_of_extract_eq_some {any : CorbaAny} {data new : Data T}
    (h : data.extract any = some new) : any = some new.toValue := by
  cases data with
  | scalar value =>
      obtain ⟨x, hx, rfl⟩ := Option.map_eq_some_iff.mp h
      exact CorbaAny.extractScalar_eq_some_iff.mp hx
  | spectrum values =>
      obtain ⟨xs, hxs, rfl⟩ := Option.map_eq_some_iff.mp h
      exact CorbaAny.extractSpectrum_eq_some_iff.mp hxs

theorem extract_of_extract_eq_some {any : CorbaAny} {data new : Data T}
    (h : data.extract any = some new) : new.extract any = some new := by
  cases data with
  | scalar value =>
      obtain ⟨x, hx, rfl⟩ := Option.map_eq_some_iff.mp h
      exact Option.map_eq_some_iff.mpr ⟨x, hx, rfl⟩
  | spectrum values =>
      obtain ⟨xs, hxs, rfl⟩ := Option.map_eq_some_iff.mp h
      exact Option.map_eq_some_iff.mpr ⟨xs, hxs, rfl⟩

@[simp]
theorem format_fill (safe : T.Carrier) (data : Data T) : (data.fill safe).format = data.format := by
  cases data <;> rfl

@[simp]
theorem fill_fill (safe safe' : T.Carrier) (data : Data T) :
    (data.fill safe').fill safe = data.fill safe := by
  cases data with
  | scalar value => rfl
  | spectrum values => simp [fill]

end Data

structure AttrData where
  T : ElementType
  m_data : Data T
  m_safe_data : T.Carrier
  m_data_quality : AttrQuality
  m_timestamp : TimeVal
  m_is_value_set : Bool

namespace AttrData

/-- `set_data(Tango::DeviceAttribute*)`, when the extraction does not throw. -/
def setData (data : AttrData) (da : DeviceAttribute) : Option AttrData :=
  (data.m_data.extract da.value).map fun value =>
    { data with
      m_data := value
      m_data_quality := da.quality
      m_timestamp := da.date
      m_is_value_set := true }

/-- The data have the value, the quality factor and the timestamp of what a client received. -/
def Carries (data : AttrData) (da : DeviceAttribute) : Prop :=
  da.value = some data.m_data.toValue ∧ data.m_data_quality = da.quality
    ∧ data.m_timestamp = da.date

theorem carries_of_setData {data new : AttrData} {da : DeviceAttribute}
    (h : data.setData da = some new) : new.Carries da := by
  obtain ⟨value, hvalue, rfl⟩ := Option.map_eq_some_iff.mp h
  exact ⟨Data.toValue_of_extract_eq_some hvalue, rfl, rfl⟩

theorem setData_setData {data new : AttrData} {da : DeviceAttribute}
    (h : data.setData da = some new) : new.setData da = some new := by
  obtain ⟨value, hvalue, rfl⟩ := Option.map_eq_some_iff.mp h
  rw [setData]
  simp [Data.extract_of_extract_eq_some hvalue]

/-- `set_data_to_safe`. Of the two overloads one leaves the quality factor alone. -/
def setDataToSafe (data : AttrData) (quality : Option AttrQuality) (now : TimeVal) : AttrData :=
  { data with
    m_data := data.m_data.fill data.m_safe_data
    m_data_quality := quality.getD data.m_data_quality
    m_timestamp := now
    m_is_value_set := true }

@[simp]
theorem setDataToSafe_setDataToSafe (data : AttrData) (quality : Option AttrQuality)
    (now : TimeVal) :
    (data.setDataToSafe quality now).setDataToSafe quality now
      = data.setDataToSafe quality now := by
  cases quality <;> simp [setDataToSafe]

end AttrData

end DshLmc
