import DshLmc.Utils.TaskJson

/-!
# What survives the JSON of a task

`EncodeToJson` and `ParseFromJson` are followed member by member. The identifier, the name, the
priority, the status and the clock of a task always come back. Its times come back with their flags
only when both are there, since the encoder writes a missing time as an empty text and the decoder
asks whether there is a text. Its argument comes back without its type, as a float when it is a
double, and not at all when it is an empty array.
-/

namespace DshLmc

open Tango TangoUtils TaskUtils

variable {F : FloatFormat} {toISO8601Ms : Time → String} {instant : String → Option Time}
  {uninitialised : Int} {t : Task}

/-! ### Elements and values -/

/-- The C++ type the decoder gives an element. -/
def Tango.ElementType.readAs : ElementType → ElementType
  | .double => .float
  | T => T

/-- The element the decoder reads. -/
def Tango.ElementType.reading (F : FloatFormat) : (T : ElementType) → T.Carrier → T.readAs.Carrier
  | .double, (item : UInt64) => F.toFloat item
  | .state, item => item
  | .float, item => item
  | .long, item => item
  | .short, item => item
  | .string, item => item
  | .boolean, item => item

theorem readElement_toJson (T : ElementType) (item : T.Carrier) :
    readElement F T.readAs (T.toJson F item) = .ok (T.reading F item) := by
  cases T with
  | state =>
      have hread : asElement F .state (ElementType.state.toJson F item) = some item := by
        simp only [asElement, ElementType.toJson, Json.asUInt_natCast]
        exact congrArg some (UInt32.ofNat_toNat (x := item))
      exact congrArg converted hread
  | float => exact congrArg Except.ok (F.toFloat_toDouble item)
  | double => rfl
  | long => exact congrArg Except.ok (Int32.ofInt_toInt item)
  | short => exact congrArg Except.ok (Int16.ofInt_toInt item)
  | string => rfl
  | boolean => rfl

theorem mapM_readElement_toJson (T : ElementType) (items : List T.Carrier) :
    (items.map (T.toJson F)).mapM (readElement F T.readAs) = .ok (items.map (T.reading F)) := by
  induction items with
  | nil => rfl
  | cons item rest ih =>
      rw [List.map_cons, List.mapM_cons, readElement_toJson, ih]
      rfl

namespace Tango.Value

/-- The members the encoder adds for a value. -/
def addTo (F : FloatFormat) (root : Json.Members UInt64) : Value → Json.Members UInt64
  | .scalar T item => root.set "value" (T.toJson F item)
  | .spectrum T items => (items.map (T.toJson F)).foldl (Json.Members.append "value") root

def toJson (F : FloatFormat) : Value → Json UInt64
  | .scalar T item => T.toJson F item
  | .spectrum T items => .array (items.map (T.toJson F))

def reading (F : FloatFormat) : Value → Value
  | .scalar T item => .scalar T.readAs (T.reading F item)
  | .spectrum T items => .spectrum T.readAs (items.map (T.reading F))

variable {v : Value} {root : Json.Members UInt64}

theorem get?_addTo (hnone : root.get? "value" = none) (hfull : ¬ v.IsEmptySpectrum) :
    (v.addTo F root).get? "value" = some (v.toJson F) := by
  cases v with
  | scalar T item => simp [addTo, toJson]
  | spectrum T items =>
      have hitems : items.map (T.toJson F) ≠ [] := by simpa [IsEmptySpectrum] using hfull
      rw [addTo, Json.Members.get?_foldl_append _ hnone, if_neg hitems]
      rfl

theorem get?_addTo_of_empty (hnone : root.get? "value" = none) (hempty : v.IsEmptySpectrum) :
    (v.addTo F root).get? "value" = none := by
  cases v with
  | scalar T item => exact hempty.elim
  | spectrum T items =>
      obtain rfl : items = [] := hempty
      exact hnone

theorem get?_addTo_of_ne {key : String} (hne : key ≠ "value") :
    (v.addTo F root).get? key = root.get? key := by
  cases v with
  | scalar T item => rw [addTo, Json.Members.get?_set, if_neg hne]
  | spectrum T items => exact Json.Members.get?_foldl_append_of_ne hne _ root

theorem reading_eq_self_iff : v.reading F = v ↔ v.elementType ≠ .double := by
  have hmap (T : ElementType) (hT : T ≠ .double) (items : List T.Carrier) :
      Value.spectrum T.readAs (items.map (T.reading F)) = .spectrum T items := by
    cases T with
    | double => exact absurd rfl hT
    | _ => exact congrArg _ (List.map_id items)
  constructor
  · rintro hself hdouble
    have hreadAs := congrArg elementType hself
    cases v <;> cases hdouble <;> cases hreadAs
  · intro hdouble
    cases v with
    | scalar T item =>
        cases T with
        | double => exact absurd rfl hdouble
        | _ => rfl
    | spectrum T items => exact hmap T hdouble items

end Tango.Value

theorem createDataFromJson_of_readElement {T : ElementType} {j : Json UInt64} {item : T.Carrier}
    (hread : readElement F T j = .ok item) (dataType : Int) :
    createDataFromJson F T uninitialised j dataType
      = .ok (.scalar uninitialised T dataType item) := by
  have helement : isElement T j = true := by
    by_contra hnot
    rw [readElement, if_neg hnot] at hread
    cases hread
  cases j with
  | null => cases T <;> cases helement
  | array items => cases T <;> cases helement
  | object members => cases T <;> cases helement
  | _ =>
      simp only [createDataFromJson, Json.isEmpty, hread]
      rfl

theorem createDataFromJson_toJson {v : Value} (hfull : ¬ v.IsEmptySpectrum) (dataType : Int) :
    createDataFromJson F v.elementType.readAs uninitialised (v.toJson F) dataType
      = .ok { type := uninitialised, format := v.format, value := v.reading F } := by
  cases v with
  | scalar T item => exact createDataFromJson_of_readElement (readElement_toJson T item) dataType
  | spectrum T items =>
      have hitems : (items.map (T.toJson F)).isEmpty = false := by
        simpa [Value.IsEmptySpectrum] using hfull
      have hread := mapM_readElement_toJson (F := F) T items
      simp only [createDataFromJson, Value.toJson, Value.elementType, Json.isEmpty, hitems, hread]
      rfl

/-- Both switches know the same types, and the decoder takes doubles for floats. -/
theorem dataFromJson_eq {T : ElementType} {dataType : Int} (hT : converterType dataType = some T)
    (root : Json UInt64) :
    dataFromJson F uninitialised root dataType
      = createDataFromJson F T.readAs uninitialised root dataType := by
  unfold converterType at hT
  split_ifs at hT with h₁ h₂ h₃ h₄ h₅ h₆ h₇ h₈ <;> cases hT
  all_goals subst dataType; rfl

theorem corbaAnyToJsonObj_eq_some_iff {root root' : Json.Members UInt64} {any : CorbaAny}
    {dataType dataFormat : Int} :
    corbaAnyToJsonObj F root any dataType dataFormat = some root'
      ↔ ∃ v, any = some v ∧ converterType dataType = some v.elementType ∧ dataFormat = v.format
        ∧ root' = v.addTo F root := by
  unfold corbaAnyToJsonObj
  constructor
  · intro h
    split_ifs at h with hscalar hspectrum
    · obtain ⟨T, hT, h⟩ := Option.bind_eq_some_iff.mp h
      obtain ⟨item, hitem, rfl⟩ := Option.map_eq_some_iff.mp h
      rw [CorbaAny.extractScalar_eq_some_iff] at hitem
      exact ⟨.scalar T item, hitem, hT, hscalar, rfl⟩
    · obtain ⟨T, hT, h⟩ := Option.bind_eq_some_iff.mp h
      obtain ⟨items, hitems, rfl⟩ := Option.map_eq_some_iff.mp h
      rw [CorbaAny.extractSpectrum_eq_some_iff] at hitems
      exact ⟨.spectrum T items, hitems, hT, hspectrum, rfl⟩
  · rintro ⟨v, rfl, hT, rfl, rfl⟩
    cases v with
    | scalar T item =>
        simp only [Value.format, if_true, hT]
        simp [convertScalarToJson, CorbaAny.extractScalar, Value.elementType, Value.addTo]
    | spectrum T items =>
        have hne : Tango.spectrum ≠ Tango.scalar := by decide
        simp only [Value.format, if_neg hne, if_true, hT]
        simp [convertSpectrumToJson, CorbaAny.extractSpectrum, Value.elementType, Value.addTo]

/-- The type and the format of the argument, before its value. -/
def Task.arginMembers (t : Task) : Json.Members UInt64 :=
  Json.Members.set "type" (.int t.arginType) [] |>.set "format" (.int t.arginFormat)

def Task.arginJson (F : FloatFormat) (toISO8601Ms : Time → String) (v : Value) (t : Task) :
    Json.Members UInt64 :=
  (t.jsonMembers toISO8601Ms).set "arg" (.object (v.addTo F t.arginMembers))

theorem get?_value_arginMembers : t.arginMembers.get? "value" = none := by
  simp [Task.arginMembers]

/-- The encoder succeeds on an argument that is what its type and format say. -/
theorem encodeToJson_eq_some_iff (hargin : t.hasArgin = true) {root : Json UInt64} :
    t.encodeToJson F toISO8601Ms = some root
      ↔ ∃ v, t.cmdArgin = some v ∧ converterType t.arginType = some v.elementType
        ∧ t.arginFormat = v.format ∧ root = .object (t.arginJson F toISO8601Ms v) := by
  simp only [Task.encodeToJson, hargin, if_true, Option.map_eq_some_iff]
  constructor
  · rintro ⟨argObj, hargObj, rfl⟩
    obtain ⟨v, hany, hT, hformat, rfl⟩ := corbaAnyToJsonObj_eq_some_iff.mp hargObj
    exact ⟨v, hany, hT, hformat, rfl⟩
  · rintro ⟨v, hany, hT, hformat, rfl⟩
    exact ⟨_, corbaAnyToJsonObj_eq_some_iff.mpr ⟨v, hany, hT, hformat, rfl⟩, rfl⟩

/-- What `ParseFromJson` has read when it comes to the argument. -/
def Task.writtenTo (toISO8601Ms : Time → String) (taskData : TaskData) (t : Task) : TaskData :=
  { taskData with
    id := t.id
    name := t.cmdName
    priority := t.priority
    status := t.status.code
    isUTC := t.useUTC
    creationTime := toISO8601Ms t.creationTime
    hasActivationTime := true
    activationTime := if t.hasActivationTime then toISO8601Ms t.activationTime else ""
    hasExpirationTime := true
    expirationTime := if t.hasExpirationTime then toISO8601Ms t.expirationTime else "" }

theorem parseFromJson_eq (taskData : TaskData) {root : Json.Members UInt64}
    (hroot : ∀ key, key ≠ "arg" → root.get? key = (t.jsonMembers toISO8601Ms).get? key) :
    parseFromJson F uninitialised taskData (.object root)
      = parseDataFieldFromJson F uninitialised (t.writtenTo toISO8601Ms taskData) root := by
  simp only [parseFromJson, requiredMember, timeMember, hroot "id" (by decide),
    hroot "name" (by decide), hroot "priority" (by decide), hroot "status" (by decide),
    hroot "is_utc" (by decide), hroot "creation_time" (by decide),
    hroot "activation_time" (by decide), hroot "expiration_time" (by decide)]
  simp only [Task.jsonMembers, Json.Members.get?_set, Json.Members.get?_nil]
  rfl

theorem parseFromJson_of_noArgin (taskData : TaskData) :
    parseFromJson F uninitialised taskData (.object (t.jsonMembers toISO8601Ms))
      = .ok { t.writtenTo toISO8601Ms taskData with hasData := false, data := none } := by
  have hnone : (t.jsonMembers toISO8601Ms).get? "arg" = none := by simp [Task.jsonMembers]
  rw [parseFromJson_eq taskData fun _ _ => rfl, parseDataFieldFromJson, hnone]
  rfl

theorem parseDataFieldFromJson_eq (taskData : TaskData) {root arg : Json.Members UInt64}
    {dataType : Int} {format : Json UInt64} (harg : root.get? "arg" = some (.object arg))
    (htype : arg.get? "type" = some (.int dataType)) (hformat : arg.get? "format" = some format) :
    parseDataFieldFromJson F uninitialised taskData root
      = ((arg.get? "value").elim (.error .code) fun value =>
          dataFromJson F uninitialised value dataType).map fun data =>
          { taskData with hasData := true, data := some data } := by
  have hempty : (Json.object arg).isEmpty = false := by
    cases arg with
    | nil => cases htype
    | cons member rest => rfl
  simp only [parseDataFieldFromJson, harg, Option.getD_some, hempty, requiredMember, htype, hformat]
  cases arg.get? "value" with
  | none => rfl
  | some value =>
      simp only [Bool.false_eq_true, if_false, Option.elim_some, Json.asInt, converted, pure,
        Except.pure, bind, Except.bind]
      cases dataFromJson F uninitialised value dataType <;> rfl

theorem parseFromJson_argin_eq (taskData : TaskData) {v : Value}
    (hT : converterType t.arginType = some v.elementType) :
    parseFromJson F uninitialised taskData (.object (t.arginJson F toISO8601Ms v))
      = (((v.addTo F t.arginMembers).get? "value").elim (.error .code) fun value =>
          createDataFromJson F v.elementType.readAs uninitialised value t.arginType).map fun data =>
          { t.writtenTo toISO8601Ms taskData with hasData := true, data := some data } := by
  have hothers (key : String) (hkey : key ≠ "arg") :
      (t.arginJson F toISO8601Ms v).get? key = (t.jsonMembers toISO8601Ms).get? key := by
    rw [Task.arginJson, Json.Members.get?_set, if_neg hkey]
  have htype : (v.addTo F t.arginMembers).get? "type" = some (.int t.arginType) := by
    rw [Value.get?_addTo_of_ne (by decide)]
    simp [Task.arginMembers]
  have hformat : (v.addTo F t.arginMembers).get? "format" = some (.int t.arginFormat) := by
    rw [Value.get?_addTo_of_ne (by decide)]
    simp [Task.arginMembers]
  have harg : (t.arginJson F toISO8601Ms v).get? "arg"
      = some (.object (v.addTo F t.arginMembers)) := by
    rw [Task.arginJson, Json.Members.get?_set, if_pos rfl]
  rw [parseFromJson_eq taskData hothers, parseDataFieldFromJson_eq _ harg htype hformat]
  cases (v.addTo F t.arginMembers).get? "value" with
  | none => rfl
  | some value => rw [Option.elim_some, Option.elim_some, dataFromJson_eq hT]

theorem parseFromJson_of_argin (taskData : TaskData) {v : Value}
    (hT : converterType t.arginType = some v.elementType) (hfull : ¬ v.IsEmptySpectrum) :
    parseFromJson F uninitialised taskData (.object (t.arginJson F toISO8601Ms v))
      = .ok { t.writtenTo toISO8601Ms taskData with
          hasData := true
          data := some
            { type := uninitialised, format := v.format, value := v.reading F } } := by
  rw [parseFromJson_argin_eq taskData hT, Value.get?_addTo get?_value_arginMembers hfull,
    Option.elim_some, createDataFromJson_toJson hfull]
  rfl

theorem parseFromJson_of_emptyArgin (taskData : TaskData) {v : Value}
    (hT : converterType t.arginType = some v.elementType) (hempty : v.IsEmptySpectrum) :
    parseFromJson F uninitialised taskData (.object (t.arginJson F toISO8601Ms v))
      = .error .code := by
  rw [parseFromJson_argin_eq taskData hT, Value.get?_addTo_of_empty get?_value_arginMembers hempty]
  rfl

/-- The data say what the task says. A text denotes an instant. -/
structure TaskData.Matches (instant : String → Option Time) (d : TaskData) (t : Task) : Prop where
  id : d.id = t.id
  name : d.name = t.cmdName
  priority : d.priority = t.priority
  status : d.status = t.status.code
  isUTC : d.isUTC = t.useUTC
  hasActivationTime : d.hasActivationTime = t.hasActivationTime
  activationTime : t.hasActivationTime = true → instant d.activationTime = some t.activationTime
  hasExpirationTime : d.hasExpirationTime = t.hasExpirationTime
  expirationTime : t.hasExpirationTime = true → instant d.expirationTime = some t.expirationTime
  hasData : d.hasData = t.hasArgin
  data : t.hasArgin = true → ∃ data, d.data = some data ∧ data.type = t.arginType
    ∧ data.format = t.arginFormat ∧ some data.value = t.cmdArgin

/-- The task is encoded, and its JSON is decoded to what it says. -/
def Task.RoundTrips (F : FloatFormat) (toISO8601Ms : Time → String)
    (instant : String → Option Time) (uninitialised : Int) (t : Task) : Prop :=
  ∃ root d, t.encodeToJson F toISO8601Ms = some root
    ∧ parseFromJson F uninitialised TaskData.create root = .ok d ∧ d.Matches instant t

/-- An argument that is what its type and format say, neither a double nor an empty array, and
whose type is in memory where the data are created. -/
def Task.ArginSurvives (uninitialised : Int) (t : Task) : Prop :=
  ∃ v, t.cmdArgin = some v ∧ converterType t.arginType = some v.elementType
    ∧ t.arginFormat = v.format ∧ v.elementType ≠ .double ∧ ¬ v.IsEmptySpectrum
    ∧ uninitialised = t.arginType

theorem matches_writtenTo_iff {d : TaskData} {hasData : Bool} {data : Option DataValue} :
    TaskData.Matches instant
        { t.writtenTo toISO8601Ms d with hasData := hasData, data := data } t
      ↔ (t.hasActivationTime = true
          ∧ instant (toISO8601Ms t.activationTime) = some t.activationTime)
        ∧ (t.hasExpirationTime = true
          ∧ instant (toISO8601Ms t.expirationTime) = some t.expirationTime)
        ∧ hasData = t.hasArgin
        ∧ (t.hasArgin = true → ∃ value, data = some value ∧ value.type = t.arginType
          ∧ value.format = t.arginFormat ∧ some value.value = t.cmdArgin) := by
  constructor
  · intro h
    have hactivation : t.hasActivationTime = true := h.hasActivationTime.symm
    have hexpiration : t.hasExpirationTime = true := h.hasExpirationTime.symm
    refine ⟨⟨hactivation, ?_⟩, ⟨hexpiration, ?_⟩, h.hasData, h.data⟩
    · simpa [Task.writtenTo, hactivation] using h.activationTime hactivation
    · simpa [Task.writtenTo, hexpiration] using h.expirationTime hexpiration
  · rintro ⟨⟨hactivation, hinstant⟩, ⟨hexpiration, hinstant'⟩, hhasData, hdata⟩
    refine ⟨rfl, rfl, rfl, rfl, rfl, hactivation.symm, fun _ => ?_, hexpiration.symm, fun _ => ?_,
      hhasData, hdata⟩
    · simpa [Task.writtenTo, hactivation] using hinstant
    · simpa [Task.writtenTo, hexpiration] using hinstant'

/-- **What survives.** A task comes back precisely when it has both its times, their texts denote
them, and its argument, if any, survives. -/
theorem roundTrips_iff :
    t.RoundTrips F toISO8601Ms instant uninitialised
      ↔ (t.hasActivationTime = true
          ∧ instant (toISO8601Ms t.activationTime) = some t.activationTime)
        ∧ (t.hasExpirationTime = true
          ∧ instant (toISO8601Ms t.expirationTime) = some t.expirationTime)
        ∧ (t.hasArgin = true → t.ArginSurvives uninitialised) := by
  cases hargin : t.hasArgin with
  | false =>
      have hencode : t.encodeToJson F toISO8601Ms = some (.object (t.jsonMembers toISO8601Ms)) := by
        simp [Task.encodeToJson, hargin]
      constructor
      · rintro ⟨root, d, hroot, hd, hmatches⟩
        obtain rfl := Option.some.inj (hencode.symm.trans hroot)
        obtain rfl := Except.ok.inj ((parseFromJson_of_noArgin _).symm.trans hd)
        obtain ⟨hactivation, hexpiration, -⟩ := matches_writtenTo_iff.mp hmatches
        exact ⟨hactivation, hexpiration, fun h => Bool.noConfusion h⟩
      · rintro ⟨hactivation, hexpiration, -⟩
        refine ⟨_, _, hencode, parseFromJson_of_noArgin _, matches_writtenTo_iff.mpr ?_⟩
        exact ⟨hactivation, hexpiration, hargin.symm, fun h => absurd (hargin.symm.trans h) (by simp)⟩
  | true =>
      constructor
      · rintro ⟨root, d, hroot, hd, hmatches⟩
        obtain ⟨v, hany, hT, hformat, rfl⟩ := (encodeToJson_eq_some_iff hargin).mp hroot
        by_cases hempty : v.IsEmptySpectrum
        · cases (parseFromJson_of_emptyArgin _ hT hempty).symm.trans hd
        obtain rfl := Except.ok.inj ((parseFromJson_of_argin _ hT hempty).symm.trans hd)
        obtain ⟨hactivation, hexpiration, -, hdata⟩ := matches_writtenTo_iff.mp hmatches
        obtain ⟨data, hsome, htype, -, hvalue⟩ := hdata hargin
        obtain rfl := Option.some.inj hsome
        have hreading : v.reading F = v := Option.some.inj (hvalue.trans hany)
        exact ⟨hactivation, hexpiration, fun _ =>
          ⟨v, hany, hT, hformat, Value.reading_eq_self_iff.mp hreading, hempty, htype⟩⟩
      · rintro ⟨hactivation, hexpiration, hsurvives⟩
        obtain ⟨v, hany, hT, hformat, hdouble, hfull, htype⟩ := hsurvives rfl
        have hencode : t.encodeToJson F toISO8601Ms
            = some (.object (t.arginJson F toISO8601Ms v)) :=
          (encodeToJson_eq_some_iff hargin).mpr ⟨v, hany, hT, hformat, rfl⟩
        have hreading : v.reading F = v := Value.reading_eq_self_iff.mpr hdouble
        refine ⟨_, _, hencode, parseFromJson_of_argin _ hT hfull, matches_writtenTo_iff.mpr ?_⟩
        exact ⟨hactivation, hexpiration, hargin.symm, fun _ =>
          ⟨_, rfl, htype, hformat.symm, (congrArg some hreading).trans hany.symm⟩⟩

/-- Floats kept in doubles by their bits, for tasks without reals. -/
def FloatFormat.bits : FloatFormat where
  ofInt n := UInt64.ofInt n
  truncate _ := none
  isZero x := x == 0
  text _ := ""
  toDouble x := x.toUInt64
  toFloat x := x.toUInt32
  toFloat_toDouble x := UInt32.toUInt32_toUInt64 x

/-- A task with both its times and a short, in a memory that holds the type already. -/
example :
    (((Task.create Clock.origin "0" "slew" 1 false).setActivationTime Clock.origin 0).2.setTaskArgin
        (some (.scalar .short (3 : Int16))) devShort Tango.scalar).RoundTrips FloatFormat.bits
      (fun time => if time = 0 then "1970-01-01T00:00:00.000" else "1970-01-01T00:00:30.000")
      (fun text => if text = "1970-01-01T00:00:00.000" then some 0 else some 30000000)
      devShort :=
  ⟨_, _, rfl, rfl, rfl, rfl, rfl, rfl, rfl, rfl, fun _ => rfl, rfl, fun _ => rfl, rfl,
    fun _ => ⟨_, rfl, rfl, rfl, rfl⟩⟩

/-- A task as its constructor leaves it comes back with an activation time it does not have. -/
theorem not_roundTrips_slew :
    ¬ (Task.create Clock.origin "0" "slew" 1 false).RoundTrips FloatFormat.bits
      (fun time => if time = 0 then "1970-01-01T00:00:00.000" else "1970-01-01T00:00:30.000")
      (fun text => if text = "1970-01-01T00:00:00.000" then some 0 else some 30000000) 0 := by
  rintro ⟨root, d, hroot, hd, hmatches⟩
  obtain rfl := Option.some.inj hroot
  obtain rfl := Except.ok.inj ((parseFromJson_of_noArgin _).symm.trans hd)
  exact Bool.noConfusion hmatches.hasActivationTime

end DshLmc
