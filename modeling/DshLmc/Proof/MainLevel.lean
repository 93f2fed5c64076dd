import DshLmc.Core.Loggers
import DshLmc.Library.Run

/-!
# When the main level covers the targets

`SetMainLoggerLevel` makes the main level the highest level of the enabled targets. The writers call
it only when a level is written that is above the levels of both other targets, enabled or not.
-/

namespace DshLmc

namespace Loggers

/-- The main logger drops no message that an enabled target takes. -/
def Covers (s : Loggers) : Prop :=
  ∀ t, (s.attrs t).loggerEnabled = true → (s.attrs t).loggingLevel ≤ s.level

/-- What covering looks at. -/
def levels (s : Loggers) : (LogTarget → Bool × Int) × Int :=
  (fun t => ((s.attrs t).loggerEnabled, (s.attrs t).loggingLevel), s.level)

theorem covers_congr {s s' : Loggers} (h : s'.levels = s.levels) : s'.Covers ↔ s.Covers := by
  obtain ⟨hattrs, hlevel⟩ := Prod.mk.inj h
  refine forall_congr' fun t => ?_
  obtain ⟨henabled, ht⟩ := Prod.mk.inj (congrFun hattrs t)
  rw [henabled, ht, hlevel]

/-- The condition on a write: the level of a target that is enabled, or that an enabled target gets,
is not above the main level, unless the main level is computed again. -/
def KeepsMainLevel (s : Loggers) : LoggerWrite → Prop
  | .loggingLevel t w_val => (s.attrs t).loggerEnabled = true →
      (∃ other ≠ t, w_val ≤ (s.attrs other).loggingLevel) → w_val ≤ s.level
  | .loggerEnabled t w_val => w_val = true → (s.attrs t).loggingLevel ≤ s.level
  | .loggingTarget _ _ => True

variable (sys : LogSystem) (s : Loggers) (t : LogTarget)

theorem levels_setAttrs {change : LogTargetAttrs → LogTargetAttrs}
    (henabled : (change (s.attrs t)).loggerEnabled = (s.attrs t).loggerEnabled)
    (hlevel : (change (s.attrs t)).loggingLevel = (s.attrs t).loggingLevel) :
    (s.setAttrs t change).levels = s.levels := by
  rw [levels, levels]
  refine Prod.ext (funext fun other => ?_) rfl
  by_cases hother : other = t
  · simp [setAttrs, hother, henabled, hlevel]
  · simp [setAttrs, hother]

@[simp]
theorem levels_setStatus (status : LoggerStatus) : (s.setStatus t status).levels = s.levels :=
  s.levels_setAttrs t rfl rfl

@[simp]
theorem levels_setAppenderLogLevel (appender_name : List Char) (log_level : Int) :
    (s.setAppenderLogLevel sys appender_name log_level).1.levels = s.levels := by
  rw [setAppenderLogLevel]
  split <;> rfl

@[simp]
theorem levels_initDeviceLogger (setLogLevels : Bool) :
    (s.initDeviceLogger sys t setLogLevels).1.levels = s.levels := by
  rw [initDeviceLogger]
  split
  · rfl
  · split
    · rfl
    · split
      · exact levels_setAppenderLogLevel ..
      · rfl

@[simp]
theorem levels_initStorageLogger : (s.initStorageLogger sys).1.levels = s.levels := by
  rw [initStorageLogger]
  split
  · rfl
  · split <;> rfl

@[simp]
theorem levels_initLogger (setLogLevels : Bool) :
    (s.initLogger sys t setLogLevels).1.levels = s.levels := by
  cases t with
  | central => exact levels_initDeviceLogger ..
  | element => exact levels_initDeviceLogger ..
  | storage => exact levels_initStorageLogger ..

@[simp]
theorem levels_initLoggerIfEnabled (setLogLevels : Bool) (result : Loggers × Int) :
    (initLoggerIfEnabled sys t setLogLevels result).1.levels = result.1.levels := by
  have hinit := levels_initLogger sys result.1 t setLogLevels
  rw [initLoggerIfEnabled]
  split
  · generalize result.1.initLogger sys t setLogLevels = after at hinit
    obtain ⟨s', returned⟩ := after
    cases returned <;> simpa using hinit
  · rfl

@[simp]
theorem levels_enabledWith (result : Loggers × Bool) :
    (enabledWith t result).1.levels = result.1.levels := by
  obtain ⟨s', returned⟩ := result
  cases returned <;> exact levels_setStatus ..

@[simp]
theorem levels_enableLogger : (s.enableLogger sys t).1.levels = s.levels := by
  cases t with
  | central =>
      rw [enableLogger, enableCentralLogger]
      split
      · rfl
      · simp [initCentralLogger]
  | element =>
      rw [enableLogger, enableElementLogger]
      split
      · rfl
      · simp [initElementLogger]
  | storage => simp [enableLogger, enableStorageLogger]

@[simp]
theorem levels_disableDeviceLogger : (s.disableDeviceLogger sys t).1.levels = s.levels := by
  rw [disableDeviceLogger]
  split
  · rfl
  · split
    · rfl
    · exact levels_setStatus ..

@[simp]
theorem levels_disableLogger : (s.disableLogger sys t).1.levels = s.levels := by
  cases t with
  | central => exact levels_disableDeviceLogger ..
  | element => exact levels_disableDeviceLogger ..
  | storage => exact levels_setStatus ..

theorem covers_of_setMainLoggerLevel {s s' : Loggers} (h : s.setMainLoggerLevel = some s') :
    s'.Covers := by
  rw [setMainLoggerLevel] at h
  split at h
  case isFalse => contradiction
  case isTrue =>
    obtain rfl := Option.some.inj h
    intro t henabled
    have hlevel : s.enabledLevel t = (s.attrs t).loggingLevel := if_pos henabled
    dsimp only
    rw [← hlevel]
    cases t <;> omega

/-- Once the loggers are initialized the main level covers the targets. -/
theorem covers_of_initLoggers {s s' : Loggers} {status : Int}
    (h : s.initLoggers sys true = (s', some status)) : s'.Covers := by
  rw [initLoggers] at h
  split at h
  · simp at h
  · rw [if_pos rfl] at h
    cases hmain : s.setMainLoggerLevel with
    | none => simp [hmain] at h
    | some s₁ =>
        rw [hmain] at h
        obtain ⟨rfl, _⟩ := Prod.mk.inj h
        refine (covers_congr ?_).mpr (covers_of_setMainLoggerLevel hmain)
        simp

variable {sys s t}

theorem covers_setLevel_iff (h : s.Covers) (w_val : Int) :
    (s.setAttrs t fun attrs => { attrs with loggingLevel := w_val }).Covers
      ↔ ((s.attrs t).loggerEnabled = true → w_val ≤ s.level) := by
  constructor
  · intro hcovers henabled
    simpa [setAttrs, henabled] using hcovers t
  · intro hlevel other henabled
    by_cases hother : other = t
    · subst hother
      simpa [setAttrs] using hlevel (by simpa [setAttrs] using henabled)
    · simpa [setAttrs, hother] using h other (by simpa [setAttrs, hother] using henabled)

theorem covers_writeLoggingLevel_iff (h : s.Covers) {other other' : LogTarget}
    (hothers : ∀ o, o ≠ t ↔ o = other ∨ o = other') {setLevel : Loggers → Loggers × Bool}
    (hset : ∀ s, (setLevel s).1.levels = s.levels) {w_val : Int}
    (hreturned : (s.writeLoggingLevel sys t other other' setLevel w_val).2 = true) :
    (s.writeLoggingLevel sys t other other' setLevel w_val).1.Covers
      ↔ s.KeepsMainLevel (.loggingLevel t w_val) := by
  have hlevel : (s.setAttrs t fun attrs => { attrs with loggingLevel := w_val }).Covers
      ↔ ((s.attrs t).loggerEnabled = true → w_val ≤ s.level) := covers_setLevel_iff h w_val
  have hother : other ≠ t := (hothers other).mpr (Or.inl rfl)
  have hother' : other' ≠ t := (hothers other').mpr (Or.inr rfl)
  have hexists : (∃ o ≠ t, w_val ≤ (s.attrs o).loggingLevel)
      ↔ w_val ≤ max (s.attrs other).loggingLevel (s.attrs other').loggingLevel := by
    simp only [hothers, exists_eq_or_imp, exists_eq_left]
    omega
  have hlevels : (s.setAttrs t fun attrs => { attrs with loggingLevel := w_val }).attrs other
        = s.attrs other
      ∧ (s.setAttrs t fun attrs => { attrs with loggingLevel := w_val }).attrs other'
        = s.attrs other'
      ∧ ((s.setAttrs t fun attrs => { attrs with loggingLevel := w_val }).attrs t).loggerEnabled
        = (s.attrs t).loggerEnabled := by
    simp [setAttrs, hother, hother']
  rw [KeepsMainLevel, hexists]
  rw [writeLoggingLevel] at hreturned ⊢
  generalize (s.setAttrs t fun attrs => { attrs with loggingLevel := w_val }) = s₁ at *
  obtain ⟨hattrs, hattrs', henabled⟩ := hlevels
  simp only [hattrs, hattrs', henabled] at hreturned ⊢
  cases hflag : (s.attrs t).loggerEnabled with
  | false => simpa [hflag] using hlevel
  | true =>
      rw [hflag] at hreturned
      simp only [if_true] at hreturned ⊢
      by_cases habove : w_val > max (s.attrs other).loggingLevel (s.attrs other').loggingLevel
      · rw [if_pos habove] at hreturned ⊢
        obtain ⟨status, hstatus⟩ := Option.isSome_iff_exists.mp hreturned
        have hinit : s₁.initLoggers sys true = ((s₁.initLoggers sys true).1, some status) :=
          Prod.ext rfl hstatus
        exact iff_of_true (covers_of_initLoggers sys hinit) fun _ hle => by omega
      · have hbelow := Int.not_lt.mp habove
        rw [if_neg habove, covers_congr (hset s₁), hlevel]
        simp [hflag, hbelow]

theorem covers_setEnabled_iff (h : s.Covers) (w_val : Bool) :
    (s.setAttrs t fun attrs => { attrs with loggerEnabled := w_val }).Covers
      ↔ (w_val = true → (s.attrs t).loggingLevel ≤ s.level) := by
  constructor
  · intro hcovers henabled
    simpa [setAttrs, henabled] using hcovers t
  · intro hlevel other henabled
    by_cases hother : other = t
    · subst hother
      simpa [setAttrs] using hlevel (by simpa [setAttrs] using henabled)
    · simpa [setAttrs, hother] using h other (by simpa [setAttrs, hother] using henabled)

theorem covers_writeLoggerEnabled_iff (h : s.Covers) {w_val : Bool}
    (hreturned : (s.writeLoggerEnabled sys t w_val).2 = true) :
    (s.writeLoggerEnabled sys t w_val).1.Covers
      ↔ s.KeepsMainLevel (.loggerEnabled t w_val) := by
  rw [writeLoggerEnabled] at hreturned ⊢
  have hlevels : (if w_val then s.enableLogger sys t else s.disableLogger sys t).1.levels
      = s.levels := by
    split <;> simp
  generalize (if w_val then s.enableLogger sys t else s.disableLogger sys t) = result at *
  obtain ⟨s', returned⟩ := result
  cases returned with
  | false => simp at hreturned
  | true =>
      have hcovers : s'.Covers := (covers_congr hlevels).mpr h
      obtain ⟨hattrs, hlevel⟩ := Prod.mk.inj hlevels
      obtain ⟨_, ht⟩ := Prod.mk.inj (congrFun hattrs t)
      refine (covers_setEnabled_iff hcovers w_val).trans ?_
      rw [ht, hlevel, KeepsMainLevel]

theorem levels_writeLoggingTarget (w_val : String) :
    (s.writeLoggingTarget sys t w_val).1.levels = s.levels := by
  have hdisable := levels_disableLogger sys s t
  rw [writeLoggingTarget]
  split
  · generalize s.disableLogger sys t = result at hdisable
    obtain ⟨s', returned⟩ := result
    cases returned with
    | false => exact hdisable
    | true =>
        dsimp only
        rw [levels_enableLogger]
        refine (s'.levels_setAttrs t ?_ ?_).trans hdisable <;> rfl
  · dsimp only
    apply levels_setAttrs <;> rfl

/-- A write that succeeds keeps the main level above the targets exactly when it meets the
condition. -/
theorem covers_write_iff (h : s.Covers) {w : LoggerWrite}
    (hreturned : (s.write sys w).2 = true) :
    (s.write sys w).1.Covers ↔ s.KeepsMainLevel w := by
  cases w with
  | loggingLevel t w_val =>
      cases t with
      | central =>
          refine covers_writeLoggingLevel_iff h (fun o => ?_) (fun s => ?_) hreturned
          · cases o <;> simp
          · exact levels_setAppenderLogLevel ..
      | element =>
          refine covers_writeLoggingLevel_iff h (fun o => ?_) (fun s => ?_) hreturned
          · cases o <;> simp
          · exact levels_setAppenderLogLevel ..
      | storage =>
          refine covers_writeLoggingLevel_iff h (fun o => ?_) (fun s => ?_) hreturned
          · cases o <;> simp
          · split <;> rfl
  | loggerEnabled t w_val =>
      cases t <;> exact covers_writeLoggerEnabled_iff h hreturned
  | loggingTarget t w_val =>
      refine iff_of_true ((covers_congr ?_).mpr h) trivial
      cases t <;> exact levels_writeLoggingTarget w_val

def step (s : Loggers) (i : LogSystem × LoggerWrite) : Loggers := (s.write i.1 i.2).1

/-- **When the main level covers the targets.** After the loggers are initialized, in a run of
writes that all succeed, it does in every state exactly when all the writes meet the condition. -/
theorem covers_iff_keepsMainLevel (before : Loggers) (pars : LogTarget → LogTargetPars)
    (sys : LogSystem) {started : Loggers} {status : Int}
    (hinit : (before.initLoggerPars pars).initLoggers sys true = (started, some status))
    (history : List (LogSystem × LoggerWrite))
    (hreturned : Along step (fun s i => (s.write i.1 i.2).2 = true) started history) :
    (∀ past, past <+: history → (run step started past).Covers)
      ↔ Along step (fun s i => s.KeepsMainLevel i.2) started history := by
  refine forall_prefix_iff_along (fun _ h => h) ?_ ?_ (covers_of_initLoggers sys hinit) hreturned
  · exact fun _ _ h hi hkeeps => (covers_write_iff h hi).mpr hkeeps
  · exact fun _ _ h hi hkeeps => mt (covers_write_iff h hi).mp hkeeps

def debugPars : LogTarget → LogTargetPars :=
  fun _ => ⟨⟨none, false⟩, ⟨none, "mid/logger/0"⟩, ⟨none, Tango.logDebug⟩⟩

def consumersOnline : LogSystem := ⟨true, true, fun _ => true, fun _ => true, 0, true⟩

def beforeInit : Loggers := ⟨fun _ => ⟨false, 0, "", .unknown⟩, 0, fun _ => none, none⟩

def debugStarted : Loggers :=
  ((beforeInit.initLoggerPars debugPars).initLoggers consumersOnline true).1

theorem covers_iff_keepsMainLevel_infoStarted :
    (∀ past, past <+: [(consumersOnline, .loggingLevel .element Tango.logInfo),
        (consumersOnline, .loggerEnabled .element true)] → (run step debugStarted past).Covers)
      ↔ Along step (fun s i => s.KeepsMainLevel i.2) debugStarted
        [(consumersOnline, .loggingLevel .element Tango.logInfo),
          (consumersOnline, .loggerEnabled .element true)] :=
  covers_iff_keepsMainLevel beforeInit debugPars consumersOnline
    (rfl : (beforeInit.initLoggerPars debugPars).initLoggers consumersOnline true
      = (debugStarted, some 0)) _ ⟨by decide +kernel, by decide +kernel, trivial⟩

/-- The element logger is enabled, and the main logger drops the debug messages. -/
theorem not_covers_elementLoggerEnabled :
    ((beforeInit.initLoggerPars debugPars).initLoggers consumersOnline true).2 = some 0
      ∧ (debugStarted.write consumersOnline (.loggerEnabled .element true)).2 = true
      ∧ ¬ (debugStarted.write consumersOnline (.loggerEnabled .element true)).1.Covers := by
  refine ⟨by decide +kernel, by decide +kernel, ?_⟩
  intro hcovers
  exact absurd (hcovers .element (by decide +kernel)) (by decide +kernel)

end Loggers

end DshLmc
