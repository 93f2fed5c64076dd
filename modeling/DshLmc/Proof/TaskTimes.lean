import DshLmc.Library.Run
import DshLmc.Utils.Task

/-!
# The time setters of a task

A setter writes the activation or the expiration time and arms a timeout for it. The two can come
apart. An instant that has passed arms nothing and leaves the timeout that is there, a timeout counts
whole milliseconds of a difference of doubles, and some setters write before they look at their
arguments.
-/

namespace DshLmc

/-- A call of a setter of times. `SetActivationTimeDelay` reads the clock twice. -/
inductive TimeCall where
  | setActivationTime (tStart : Time)
  | setActivationTimeDelay (later : Clock) (delayTime : Int)
  | setExpirationTime (tStop : Time)
  | setMaxDuration (duration timeRefMode : Int) (external : Time)
  | setTimeDelayAndDuration (delayTime duration timeRefMode : Int) (external : Time)

def TimeCall.apply (now : Clock) (t : Task) : TimeCall → Int × Task
  | .setActivationTime tStart => t.setActivationTime now tStart
  | .setActivationTimeDelay later delayTime => t.setActivationTimeDelay now later delayTime
  | .setExpirationTime tStop => t.setExpirationTime now tStop
  | .setMaxDuration duration timeRefMode external => t.setMaxDuration now duration timeRefMode external
  | .setTimeDelayAndDuration delayTime duration timeRefMode external =>
      t.setTimeDelayAndDuration now delayTime duration timeRefMode external

namespace Task

variable {now later : Clock} {t : Task} {target : Time} {old : Option Timeout}

/-- The timeout that is there after an instant was set. -/
def armed (now : Clock) (t : Task) (target : Time) (old : Option Timeout) : Option Timeout :=
  initTimeout now (TangoUtils.computeYatTimeoutMSec now target t.useUTC) old

def activateAt (now : Clock) (target : Time) (t : Task) : Task :=
  { t with
    activationTime := target
    activationTimeout := t.armed now target t.activationTimeout
    hasActivationTime := true }

def expireAt (now : Clock) (target : Time) (t : Task) : Task :=
  { t with
    expirationTime := target
    expirationTimeout := t.armed now target t.expirationTimeout
    hasExpirationTime := true }

theorem setActivationTime_eq (now : Clock) (tStart : Time) (t : Task) :
    t.setActivationTime now tStart
      = if tStart < now.current t.useUTC then (-1, t)
        else (0, (t.activateAt now tStart).expireAt now (tStart.addMSec t.defaultMaxDuration)) := by
  rfl

theorem setExpirationTime_eq (now : Clock) (tStop : Time) (t : Task) :
    t.setExpirationTime now tStop
      = if tStop < now.current t.useUTC ∨ t.hasActivationTime = true ∧ tStop ≤ t.activationTime
        then (-1, t) else (0, t.expireAt now tStop) := by
  simp only [setExpirationTime, Bool.and_eq_true, decide_eq_true_eq]
  by_cases hpast : tStop < now.current t.useUTC
  · simp [hpast]
  · simp only [hpast, if_false, false_or]
    rfl

theorem setMaxDuration_eq (now : Clock) (duration timeRefMode : Int) (external : Time) (t : Task) :
    t.setMaxDuration now duration timeRefMode external
      = if duration < 0 then (-1, t)
        else
          match if t.hasActivationTime then some t.activationTime
              else t.timeRef now timeRefMode external with
          | none => (-1, { t with maxDuration := duration })
          | some reference =>
              (0, { t with maxDuration := duration }.expireAt now (reference.addMSec duration)) := by
  rfl

theorem setTimeDelayAndDuration_eq (now : Clock) (delayTime duration timeRefMode : Int)
    (external : Time) (t : Task) :
    t.setTimeDelayAndDuration now delayTime duration timeRefMode external
      = if delayTime < 0 ∨ duration < 0 then (-1, t)
        else
          match t.timeRef now timeRefMode external with
          | none => (-1, t)
          | some reference =>
              (0, { t.activateAt now (reference.addMSec delayTime) with
                maxDuration := duration }.expireAt now
                  ((reference.addMSec delayTime).addMSec duration)) := by
  rfl

end Task

namespace TimeCall

variable {now : Clock} {t : Task} {c : TimeCall}

/-- The instants a call that returns 0 is to leave, its durations being milliseconds. An activation
time moves the expiration along, with the duration that was set before. -/
def Meets (now : Clock) (t : Task) (c : TimeCall) (t' : Task) : Prop :=
  match c with
  | setActivationTime tStart =>
      t'.activationTime = tStart ∧ t'.expirationTime = tStart + t.maxDuration * 1000
  | setActivationTimeDelay _ delayTime =>
      t'.activationTime = now.current t.useUTC + delayTime * 1000
        ∧ t'.expirationTime = now.current t.useUTC + delayTime * 1000 + t.maxDuration * 1000
  | setExpirationTime tStop => t'.expirationTime = tStop
  | setMaxDuration duration timeRefMode external =>
      ∃ reference ∈ if t.hasActivationTime then some t.activationTime
          else t.timeRef now timeRefMode external,
        t'.maxDuration = duration ∧ t'.expirationTime = reference + duration * 1000
  | setTimeDelayAndDuration delayTime duration timeRefMode external =>
      ∃ reference ∈ t.timeRef now timeRefMode external,
        t'.activationTime = reference + delayTime * 1000 ∧ t'.maxDuration = duration
          ∧ t'.expirationTime = reference + delayTime * 1000 + duration * 1000

/-- A call that returns 0 leaves the requested instants, and one that returns -1 leaves the times as
they were. -/
structure ExactAndAtomic (now : Clock) (t : Task) (c : TimeCall) : Prop where
  exact : (c.apply now t).1 = 0 → c.Meets now t (c.apply now t).2
  atomic : (c.apply now t).1 = -1 → (c.apply now t).2.activationTime = t.activationTime
    ∧ (c.apply now t).2.expirationTime = t.expirationTime
    ∧ (c.apply now t).2.maxDuration = t.maxDuration

/-- A duration in milliseconds that is a number of seconds. -/
def WholeSeconds (duration : Int) : Prop := duration.tdiv 1000 * 1000 = duration

/-- The duration that is counted from an activation time is the default one, in whole seconds. -/
def KeepsDuration (t : Task) : Prop := t.defaultMaxDuration.tdiv 1000 * 1000 = t.maxDuration

/-- What a call has to meet: its durations are whole seconds, it does not lose a duration that was
set, and when it is refused late it has written nothing new. -/
def Fits (now : Clock) (t : Task) : TimeCall → Prop
  | setActivationTime tStart => now.current t.useUTC ≤ tStart → KeepsDuration t
  | setActivationTimeDelay later delayTime =>
      0 ≤ delayTime →
        let tStart := (now.current t.useUTC).addMSec delayTime
        if tStart < later.current t.useUTC then t.activationTime = tStart
        else WholeSeconds delayTime ∧ KeepsDuration t
  | setExpirationTime _ => True
  | setMaxDuration duration timeRefMode _ =>
      0 ≤ duration →
        if t.hasActivationTime = true ∨ timeRefMode ∈ [0, 1, 2] then WholeSeconds duration
        else t.maxDuration = duration
  | setTimeDelayAndDuration delayTime duration timeRefMode _ =>
      0 ≤ delayTime → 0 ≤ duration → timeRefMode ∈ [0, 1, 2] →
        WholeSeconds delayTime ∧ WholeSeconds duration

theorem addMSec_eq_iff (reference : Time) (duration milliseconds : Int) :
    reference.addMSec duration = reference + milliseconds * 1000
      ↔ duration.tdiv 1000 * 1000 = milliseconds := by
  have hcancel : reference.addMSec duration = reference + milliseconds * 1000
      ↔ duration.tdiv 1000 * 1000000 = milliseconds * 1000 := Int.add_right_inj reference
  rw [hcancel]
  omega

theorem timeRef_eq_none_iff {timeRefMode : Int} {external : Time} :
    t.timeRef now timeRefMode external = none ↔ timeRefMode ∉ [0, 1, 2] := by
  unfold Task.timeRef
  split_ifs <;> simp_all

theorem exactAndAtomic_of_refused (h : c.apply now t = (-1, t)) : c.ExactAndAtomic now t where
  exact hzero := by
    rw [h] at hzero
    cases hzero
  atomic _ := by
    rw [h]
    exact ⟨rfl, rfl, rfl⟩

theorem exactAndAtomic_iff_of_accepted {t' : Task} (h : c.apply now t = (0, t')) :
    c.ExactAndAtomic now t ↔ c.Meets now t t' := by
  constructor
  · intro hexact
    have hmeets := hexact.exact (by rw [h])
    rwa [h] at hmeets
  · intro hmeets
    refine ⟨fun _ => ?_, fun hfailed => ?_⟩
    · rwa [h]
    · rw [h] at hfailed
      cases hfailed

theorem exactAndAtomic_iff_of_failed {t' : Task} (h : c.apply now t = (-1, t')) :
    c.ExactAndAtomic now t ↔ t'.activationTime = t.activationTime
      ∧ t'.expirationTime = t.expirationTime ∧ t'.maxDuration = t.maxDuration := by
  constructor
  · intro hexact
    have hatomic := hexact.atomic (by rw [h])
    rwa [h] at hatomic
  · intro hatomic
    refine ⟨fun hzero => ?_, fun _ => ?_⟩
    · rw [h] at hzero
      cases hzero
    · rwa [h]

/-- **When a setter is exact and atomic.** -/
theorem exactAndAtomic_iff_fits (now : Clock) (t : Task) (c : TimeCall) :
    c.ExactAndAtomic now t ↔ c.Fits now t := by
  cases c with
  | setActivationTime tStart =>
      by_cases hpast : tStart < now.current t.useUTC
      · refine iff_of_true (exactAndAtomic_of_refused ?_) fun h => absurd h (not_le.mpr hpast)
        rw [apply, Task.setActivationTime_eq, if_pos hpast]
      · have happly : (setActivationTime tStart).apply now t = _ :=
          (Task.setActivationTime_eq now tStart t).trans (if_neg hpast)
        rw [exactAndAtomic_iff_of_accepted happly]
        refine Iff.trans ?_ (imp_iff_right (not_lt.mp hpast)).symm
        exact (and_iff_right rfl).trans (addMSec_eq_iff _ _ _)
  | setActivationTimeDelay later delayTime =>
      by_cases hneg : delayTime < 0
      · refine iff_of_true (exactAndAtomic_of_refused ?_) fun h => absurd h (not_le.mpr hneg)
        rw [apply, Task.setActivationTimeDelay, if_pos hneg]
      refine Iff.trans ?_ (imp_iff_right (not_lt.mp hneg)).symm
      dsimp only
      have happly : (setActivationTimeDelay later delayTime).apply now t = _ :=
        (if_neg hneg).trans (Task.setActivationTime_eq later _ _)
      split
      case isTrue hlate =>
        rw [exactAndAtomic_iff_of_failed (happly.trans (if_pos hlate))]
        exact (and_iff_left ⟨rfl, rfl⟩).trans eq_comm
      case isFalse hahead =>
        rw [exactAndAtomic_iff_of_accepted (happly.trans (if_neg hahead))]
        refine (and_congr_left' (addMSec_eq_iff _ _ _)).trans (and_congr_right fun hseconds => ?_)
        have hstart : (now.current t.useUTC).addMSec delayTime
            = now.current t.useUTC + delayTime * 1000 := (addMSec_eq_iff _ _ _).mpr hseconds
        rw [← hstart]
        exact addMSec_eq_iff _ _ _
  | setExpirationTime tStop =>
      refine iff_of_true ?_ trivial
      by_cases hrefused : tStop < now.current t.useUTC
          ∨ t.hasActivationTime = true ∧ tStop ≤ t.activationTime
      · refine exactAndAtomic_of_refused ?_
        rw [apply, Task.setExpirationTime_eq, if_pos hrefused]
      · have happly : (setExpirationTime tStop).apply now t = _ :=
          (Task.setExpirationTime_eq now tStop t).trans (if_neg hrefused)
        exact (exactAndAtomic_iff_of_accepted happly).mpr rfl
  | setMaxDuration duration timeRefMode external =>
      by_cases hneg : duration < 0
      · refine iff_of_true (exactAndAtomic_of_refused ?_) fun h => absurd h (not_le.mpr hneg)
        rw [apply, Task.setMaxDuration_eq, if_pos hneg]
      refine Iff.trans ?_ (imp_iff_right (not_lt.mp hneg)).symm
      have happly : (setMaxDuration duration timeRefMode external).apply now t = _ :=
        (Task.setMaxDuration_eq now duration timeRefMode external t).trans (if_neg hneg)
      cases hreference : if t.hasActivationTime then some t.activationTime
          else t.timeRef now timeRefMode external with
      | none =>
          have hinvalid : ¬ (t.hasActivationTime = true ∨ timeRefMode ∈ [0, 1, 2]) := by
            split at hreference
            case isTrue => cases hreference
            case isFalse hactive =>
              exact not_or.mpr ⟨hactive, timeRef_eq_none_iff.mp hreference⟩
          rw [hreference] at happly
          rw [exactAndAtomic_iff_of_failed happly, if_neg hinvalid]
          exact (and_iff_right rfl).trans ((and_iff_right rfl).trans eq_comm)
      | some reference =>
          have hvalid : t.hasActivationTime = true ∨ timeRefMode ∈ [0, 1, 2] := by
            by_contra hnot
            obtain ⟨hactive, hmode⟩ := not_or.mp hnot
            rw [if_neg hactive, timeRef_eq_none_iff.mpr hmode] at hreference
            cases hreference
          rw [hreference] at happly
          rw [exactAndAtomic_iff_of_accepted happly, if_pos hvalid]
          simp only [Meets, hreference, Option.mem_some_iff, exists_eq_left']
          exact (and_iff_right rfl).trans (addMSec_eq_iff _ _ _)
  | setTimeDelayAndDuration delayTime duration timeRefMode external =>
      by_cases hneg : delayTime < 0 ∨ duration < 0
      · refine iff_of_true (exactAndAtomic_of_refused ?_) fun hdelay hduration => ?_
        · rw [apply, Task.setTimeDelayAndDuration_eq, if_pos hneg]
        · omega
      obtain ⟨hdelay, hduration⟩ := not_or.mp hneg
      refine Iff.trans ?_ (imp_iff_right (not_lt.mp hdelay)).symm
      refine Iff.trans ?_ (imp_iff_right (not_lt.mp hduration)).symm
      have happly : (setTimeDelayAndDuration delayTime duration timeRefMode external).apply now t = _ :=
        (Task.setTimeDelayAndDuration_eq now delayTime duration timeRefMode external t).trans
          (if_neg hneg)
      cases hreference : t.timeRef now timeRefMode external with
      | none =>
          rw [hreference] at happly
          exact iff_of_true (exactAndAtomic_of_refused happly) fun hmode =>
            absurd hmode (timeRef_eq_none_iff.mp hreference)
      | some reference =>
          have hmode : timeRefMode ∈ [0, 1, 2] := by
            by_contra hmode
            rw [timeRef_eq_none_iff.mpr hmode] at hreference
            cases hreference
          rw [hreference] at happly
          rw [exactAndAtomic_iff_of_accepted happly]
          refine Iff.trans ?_ (imp_iff_right hmode).symm
          simp only [Meets, hreference, Option.mem_some_iff, exists_eq_left']
          refine (and_congr_left' (addMSec_eq_iff _ _ _)).trans (and_congr_right fun hseconds => ?_)
          have hstart : reference.addMSec delayTime = reference + delayTime * 1000 :=
            (addMSec_eq_iff _ _ _).mpr hseconds
          rw [← hstart]
          exact (and_iff_right rfl).trans (addMSec_eq_iff _ _ _)

def fiveSeconds : Task :=
  ((Task.create Clock.origin "t-1" "Slew" 0 true).setMaxDuration Clock.origin 5000 0 0).2

theorem not_exactAndAtomic_fiveSeconds :
    ¬ (setActivationTime 10000000).ExactAndAtomic Clock.origin fiveSeconds := by
  intro h
  have hexpiration := (h.exact (by decide +kernel)).2
  exact absurd hexpiration (by decide +kernel)

end TimeCall

/-! ### Timeouts that go off in time -/

namespace Task

variable {now later : Clock} {t : Task} {target : Time} {old : Option Timeout}

/-- The conditions on the clock say what the instants of the task say. -/
structure Timely (now : Clock) (t : Task) : Prop where
  activation : t.isActivationReached now = true
    ↔ t.hasActivationTime = false ∨ t.activationTime ≤ now.current t.useUTC
  expiration : t.isExpirationReached now = true ↔ t.expirationTime ≤ now.current t.useUTC

/-- A clock that has not gone back and still shows the same distance from UTC. -/
def Follows (useUTC : Bool) (now later : Clock) : Prop :=
  now.utc ≤ later.utc
    ∧ (useUTC = true ∨ later.localTime - later.utc = now.localTime - now.utc)

instance (useUTC : Bool) (now later : Clock) : Decidable (Follows useUTC now later) :=
  inferInstanceAs (Decidable (_ ∧ _))

theorem Follows.refl (useUTC : Bool) (now : Clock) : Follows useUTC now now := ⟨le_rfl, .inr rfl⟩

theorem Follows.trans {useUTC : Bool} {latest : Clock} (h : Follows useUTC now later)
    (h' : Follows useUTC later latest) : Follows useUTC now latest :=
  ⟨h.1.trans h'.1, h.2.elim .inl fun hlocal => h'.2.imp_right fun hlocal' => hlocal'.trans hlocal⟩

theorem Follows.current {useUTC : Bool} (h : Follows useUTC now later) :
    later.current useUTC - later.utc = now.current useUTC - now.utc := by
  cases useUTC with
  | true => simp [Clock.current]
  | false => simpa [Clock.current] using h.2

/-- Whether a timeout has gone off. Where there is none it is as `absent` says. -/
def hasFired (absent : Bool) (timeout : Option Timeout) (now : Clock) : Bool :=
  match timeout with
  | none => absent
  | some timeout => timeout.enabled && timeout.expired now

theorem isActivationReached_eq (now : Clock) (t : Task) :
    t.isActivationReached now = hasFired true t.activationTimeout now := by
  unfold isActivationReached hasFired
  cases t.activationTimeout <;> rfl

theorem isExpirationReached_eq (now : Clock) (t : Task) :
    t.isExpirationReached now = hasFired false t.expirationTimeout now := by
  unfold isExpirationReached hasFired
  cases t.expirationTimeout <;> rfl

/-- The timeout goes off at an instant, seen from now on. -/
def FiresAt (absent useUTC : Bool) (now : Clock) (timeout : Option Timeout) (target : Time) : Prop :=
  ∀ later, Follows useUTC now later →
    (hasFired absent timeout later = true ↔ target ≤ later.current useUTC)

/-- An instant that doubles put ahead of the clock is the milliseconds ahead that the timeout counts.
One that has passed has been reached, and for one between these the timeout that is there goes off at
it. -/
def Settles (absent useUTC : Bool) (now : Clock) (target : Time) (old : Option Timeout) : Prop :=
  let timeout := TangoUtils.computeYatTimeoutMSec now target useUTC
  if 0 < timeout then target - now.current useUTC = truncate timeout * 1000
  else if target ≤ now.current useUTC then hasFired absent old now = true
  else ∃ timeout ∈ old, timeout.enabled = true
    ∧ timeout.start + timeout.delay * 1000 = now.utc + (target - now.current useUTC)

theorem hasFired_of_follows {absent useUTC : Bool} {timeout : Option Timeout}
    (h : Follows useUTC now later) (hfired : hasFired absent timeout now = true) :
    hasFired absent timeout later = true := by
  cases timeout with
  | none => exact hfired
  | some timeout =>
      simp only [hasFired, Timeout.expired, Bool.and_eq_true, decide_eq_true_eq] at hfired ⊢
      exact ⟨hfired.1, hfired.2.trans h.1⟩

def laterBy (now : Clock) (d : Int) : Clock := ⟨now.utc + d, now.localTime + d⟩

theorem follows_laterBy {useUTC : Bool} {d : Int} (h : 0 ≤ d) : Follows useUTC now (laterBy now d) :=
  ⟨Int.le_add_of_nonneg_right h, .inr (Int.add_sub_add_right _ _ _)⟩

theorem current_laterBy (useUTC : Bool) (now : Clock) (d : Int) :
    (laterBy now d).current useUTC = now.current useUTC + d := by
  cases useUTC <;> rfl

theorem hasFired_some_iff {absent : Bool} {timeout : Timeout} :
    hasFired absent (some timeout) now = true
      ↔ timeout.enabled = true ∧ timeout.start + timeout.delay * 1000 ≤ now.utc := by
  rw [hasFired, Bool.and_eq_true, Timeout.expired, decide_eq_true_eq]

/-- For an instant ahead the timeout has to go off when the clock shows it. -/
theorem firesAt_some_iff {absent useUTC : Bool} {timeout : Timeout}
    (hahead : now.current useUTC < target) :
    FiresAt absent useUTC now (some timeout) target
      ↔ timeout.enabled = true
        ∧ timeout.start + timeout.delay * 1000 = now.utc + (target - now.current useUTC) := by
  constructor
  · intro h
    have hreached : ∀ d, 0 ≤ d → (hasFired absent (some timeout) (laterBy now d) = true
        ↔ target ≤ now.current useUTC + d) := by
      intro d hd
      rw [← current_laterBy]
      exact h _ (follows_laterBy hd)
    have hat := (hreached _ (sub_nonneg.mpr hahead.le)).mpr (add_sub_cancel _ _).ge
    obtain ⟨henabled, hle⟩ := hasFired_some_iff.mp hat
    refine ⟨henabled, le_antisymm hle (not_lt.mp fun hearly => ?_)⟩
    -- the clock at which the timeout goes off
    have hfirst : timeout.start + timeout.delay * 1000
        ≤ now.utc + max 0 (timeout.start + timeout.delay * 1000 - now.utc) := by
      unfold Time at *
      omega
    have hshown := (hreached _ (le_max_left _ _)).mp (hasFired_some_iff.mpr ⟨henabled, hfirst⟩)
    unfold Time at *
    omega
  · rintro ⟨henabled, hat⟩ later hlater
    have hcurrent := hlater.current
    rw [hasFired_some_iff, and_iff_right henabled, hat]
    unfold Time at *
    omega

theorem not_firesAt_none {absent useUTC : Bool} (hahead : now.current useUTC < target) :
    ¬ FiresAt absent useUTC now none target := by
  intro h
  have hnow := h now (.refl _ now)
  have hthen := h _ (follows_laterBy (sub_nonneg.mpr hahead.le))
  rw [current_laterBy, add_sub_cancel] at hthen
  exact absurd (hnow.mp (hthen.mpr le_rfl)) (not_le.mpr hahead)

/-- **When the timeout that is left by a setter goes off at its instant.** -/
theorem firesAt_armed_iff (absent : Bool) (now : Clock) (t : Task) (target : Time)
    (old : Option Timeout) :
    FiresAt absent t.useUTC now (t.armed now target old) target
      ↔ Settles absent t.useUTC now target old := by
  by_cases hpos : 0 < TangoUtils.computeYatTimeoutMSec now target t.useUTC
  · have hahead : now.current t.useUTC < target :=
      not_le.mp fun hpassed => absurd hpos (not_lt.mpr (getYatTimeDiffMSec_nonpos hpassed))
    simp only [armed, initTimeout, Settles, if_neg (not_le.mpr hpos), if_pos hpos]
    rw [firesAt_some_iff hahead, and_iff_right rfl, add_right_inj]
    exact eq_comm
  · simp only [armed, initTimeout, Settles, if_pos (not_lt.mp hpos), if_neg hpos]
    by_cases hpassed : target ≤ now.current t.useUTC
    · rw [if_pos hpassed]
      constructor
      · intro h
        exact (h now (.refl _ now)).mpr hpassed
      · intro hfired later hlater
        have hcurrent := hlater.current
        have hle := hlater.1
        refine iff_of_true (hasFired_of_follows hlater hfired) ?_
        unfold Time at *
        omega
    · rw [if_neg hpassed]
      cases old with
      | none => exact iff_of_false (not_firesAt_none (not_le.mp hpassed)) (by simp)
      | some timeout =>
          rw [firesAt_some_iff (not_le.mp hpassed)]
          simp

theorem settles_seconds {absent useUTC : Bool} {a b : ℤ} (ha : |a| < 2 ^ 32) (hb : |b| < 2 ^ 32)
    (hlt : a < b) (hnow : now.current useUTC = a * 1000000) (htarget : target = b * 1000000) :
    Settles absent useUTC now target old := by
  have htimeout : TangoUtils.computeYatTimeoutMSec now target useUTC = (((b - a) * 1000 : ℤ) : ℚ) := by
    rw [TangoUtils.computeYatTimeoutMSec, hnow, htarget, getYatTimeDiffMSec_seconds ha hb]
  have hpos : (0 : ℚ) < (((b - a) * 1000 : ℤ) : ℚ) := by
    exact_mod_cast mul_pos (sub_pos.mpr hlt) (by decide)
  simp only [Settles, htimeout, if_pos hpos, truncate, if_pos hpos.le, Int.floor_intCast]
  rw [hnow, htarget]
  ring

/-- From now on the conditions on the clock say what the instants of the task say. -/
def AlwaysTimely (now : Clock) (t : Task) : Prop :=
  ∀ later, Follows t.useUTC now later → Timely later t

/-- No timeout is armed for an activation time that the task does not have. -/
def Unarmed (t : Task) : Prop := t.hasActivationTime = false → t.activationTimeout = none

def ActivatesInTime (now : Clock) (t : Task) : Prop :=
  t.hasActivationTime = true → FiresAt true t.useUTC now t.activationTimeout t.activationTime

def ExpiresInTime (now : Clock) (t : Task) : Prop :=
  FiresAt false t.useUTC now t.expirationTimeout t.expirationTime

theorem alwaysTimely_iff (h : t.Unarmed) :
    t.AlwaysTimely now ↔ t.ActivatesInTime now ∧ t.ExpiresInTime now := by
  constructor
  · intro htimely
    constructor
    · intro hactive later hlater
      have hactivation := (htimely later hlater).activation
      rw [isActivationReached_eq, hactive] at hactivation
      simpa using hactivation
    · intro later hlater
      have hexpiration := (htimely later hlater).expiration
      rwa [isExpirationReached_eq] at hexpiration
  · rintro ⟨hactivates, hexpires⟩ later hlater
    constructor
    · rw [isActivationReached_eq]
      cases hactive : t.hasActivationTime with
      | false => exact iff_of_true (by rw [h hactive, hasFired]) (.inl rfl)
      | true =>
          rw [hactivates hactive later hlater]
          simp
    · rw [isExpirationReached_eq]
      exact hexpires later hlater

theorem AlwaysTimely.mono (h : t.AlwaysTimely now) (hlater : Follows t.useUTC now later) :
    t.AlwaysTimely later :=
  fun _ hlatest => h _ (hlater.trans hlatest)

theorem expiresInTime_expireAt (now : Clock) (t : Task) (stop : Time) :
    (t.expireAt now stop).ExpiresInTime now
      ↔ Settles false t.useUTC now stop t.expirationTimeout :=
  firesAt_armed_iff ..

theorem inTime_activateAt_expireAt (now : Clock) (t : Task) (start stop : Time) (duration : Int) :
    ({ t.activateAt now start with maxDuration := duration }.expireAt now stop).ActivatesInTime now
        ∧ ({ t.activateAt now start with maxDuration := duration }.expireAt now stop).ExpiresInTime now
      ↔ Settles true t.useUTC now start t.activationTimeout
        ∧ Settles false t.useUTC now stop t.expirationTimeout :=
  and_congr ((imp_iff_right rfl).trans (firesAt_armed_iff ..)) (expiresInTime_expireAt ..)

theorem activatesInTime_of_passed (hpassed : target < now.current t.useUTC) :
    { t with activationTime := target }.ActivatesInTime now
      ↔ (t.hasActivationTime = true → t.isActivationReached now = true) := by
  refine forall_congr' fun _ => ?_
  have hnone := getYatTimeDiffMSec_nonpos hpassed.le
  have harmed : t.armed now target t.activationTimeout = t.activationTimeout := if_pos hnone
  have hsettles : Settles true t.useUTC now target t.activationTimeout
      ↔ t.isActivationReached now = true := by
    rw [isActivationReached_eq]
    exact iff_of_eq ((if_neg (not_lt.mpr hnone)).trans (if_pos hpassed.le))
  exact (harmed ▸ firesAt_armed_iff true now t target t.activationTimeout).trans hsettles

end Task

/-! ### Runs of the setters -/

namespace TimeCall

variable {now : Clock} {t : Task} {c : TimeCall}

def clockAfter (now : Clock) : TimeCall → Clock
  | setActivationTimeDelay later _ => later
  | _ => now

/-- A call that sets an instant sets one that is the counted milliseconds ahead, or finds a timeout that
goes off at it. -/
def InTime (now : Clock) (t : Task) : TimeCall → Prop
  | setActivationTime tStart =>
      now.current t.useUTC ≤ tStart →
        Task.Settles true t.useUTC now tStart t.activationTimeout
          ∧ Task.Settles false t.useUTC now (tStart.addMSec t.defaultMaxDuration) t.expirationTimeout
  | setActivationTimeDelay later delayTime =>
      0 ≤ delayTime →
        let tStart := (now.current t.useUTC).addMSec delayTime
        if tStart < later.current t.useUTC then
          t.hasActivationTime = true → t.isActivationReached later = true
        else
          Task.Settles true t.useUTC later tStart t.activationTimeout
            ∧ Task.Settles false t.useUTC later (tStart.addMSec t.defaultMaxDuration)
                t.expirationTimeout
  | setExpirationTime tStop =>
      now.current t.useUTC ≤ tStop → (t.hasActivationTime = true → t.activationTime < tStop) →
        Task.Settles false t.useUTC now tStop t.expirationTimeout
  | setMaxDuration duration timeRefMode external =>
      0 ≤ duration →
        ∀ reference ∈ if t.hasActivationTime then some t.activationTime
            else t.timeRef now timeRefMode external,
          Task.Settles false t.useUTC now (reference.addMSec duration) t.expirationTimeout
  | setTimeDelayAndDuration delayTime duration timeRefMode external =>
      0 ≤ delayTime → 0 ≤ duration → ∀ reference ∈ t.timeRef now timeRefMode external,
        Task.Settles true t.useUTC now (reference.addMSec delayTime) t.activationTimeout
          ∧ Task.Settles false t.useUTC now ((reference.addMSec delayTime).addMSec duration)
              t.expirationTimeout

/-- What a call can do to a task, also where it fails. -/
inductive Effect (t : Task) : Task → Prop
  | keep : Effect t t
  | aim (tStart : Time) : Effect t { t with activationTime := tStart }
  | last (duration : Int) : Effect t { t with maxDuration := duration }
  | expire (clock : Clock) (tStop : Time) (duration : Int) :
      Effect t ({ t with maxDuration := duration }.expireAt clock tStop)
  | activate (clock : Clock) (tStart tStop : Time) (duration : Int) :
      Effect t ({ t.activateAt clock tStart with maxDuration := duration }.expireAt clock tStop)

theorem effect_apply (c : TimeCall) (now : Clock) (t : Task) : Effect t (c.apply now t).2 := by
  cases c with
  | setActivationTime tStart =>
      rw [apply, Task.setActivationTime_eq]
      split
      · exact .keep
      · exact .activate now tStart _ t.maxDuration
  | setActivationTimeDelay later delayTime =>
      rw [apply, Task.setActivationTimeDelay, Task.setActivationTime_eq]
      split
      · exact .keep
      split
      · exact .aim _
      · exact .activate later _ _ t.maxDuration
  | setExpirationTime tStop =>
      rw [apply, Task.setExpirationTime_eq]
      split
      · exact .keep
      · exact .expire now tStop t.maxDuration
  | setMaxDuration duration timeRefMode external =>
      rw [apply, Task.setMaxDuration_eq]
      split
      · exact .keep
      split
      · exact .last duration
      · exact .expire now _ duration
  | setTimeDelayAndDuration delayTime duration timeRefMode external =>
      rw [apply, Task.setTimeDelayAndDuration_eq]
      split
      · exact .keep
      split
      · exact .keep
      · exact .activate now _ _ duration

theorem Effect.unarmed {t' : Task} (heffect : Effect t t') (h : t.Unarmed) : t'.Unarmed := by
  cases heffect with
  | keep | aim | last | expire => exact h
  | activate clock tStart tStop =>
      intro hfree
      cases hfree

theorem unarmed_apply (h : t.Unarmed) : (c.apply now t).2.Unarmed := (effect_apply c now t).unarmed h

/-- **When a call keeps the conditions in time.** -/
theorem alwaysTimely_apply_iff (hunarmed : t.Unarmed) (h : t.AlwaysTimely now)
    (hafter : Task.Follows t.useUTC now (c.clockAfter now)) :
    (c.apply now t).2.AlwaysTimely (c.clockAfter now) ↔ c.InTime now t := by
  rw [Task.alwaysTimely_iff (unarmed_apply hunarmed)]
  have hlater := (Task.alwaysTimely_iff hunarmed).mp (h.mono hafter)
  have hbefore := (Task.alwaysTimely_iff hunarmed).mp h
  cases c with
  | setActivationTime tStart =>
      rw [apply, Task.setActivationTime_eq]
      split
      case isTrue hpast =>
        exact iff_of_true hbefore fun hahead => absurd hahead (not_le.mpr hpast)
      case isFalse hahead =>
        refine Iff.trans ?_ (imp_iff_right (not_lt.mp hahead)).symm
        exact Task.inTime_activateAt_expireAt now t tStart _ t.maxDuration
  | setActivationTimeDelay later delayTime =>
      rw [apply, Task.setActivationTimeDelay]
      split
      case isTrue hneg =>
        exact iff_of_true hlater fun hdelay => absurd hdelay (not_le.mpr hneg)
      case isFalse hdelay =>
        refine Iff.trans ?_ (imp_iff_right (not_lt.mp hdelay)).symm
        dsimp only
        rw [Task.setActivationTime_eq]
        split
        case isTrue hpassed =>
          exact (and_iff_left hlater.2).trans (Task.activatesInTime_of_passed hpassed)
        case isFalse hahead =>
          exact Task.inTime_activateAt_expireAt later t _ _ t.maxDuration
  | setExpirationTime tStop =>
      rw [apply, Task.setExpirationTime_eq]
      split
      case isTrue hrefused =>
        refine iff_of_true hbefore fun hahead hafterStart => ?_
        rcases hrefused with hpast | ⟨hactive, hstart⟩
        · exact absurd hahead (not_le.mpr hpast)
        · exact absurd (hafterStart hactive) (not_lt.mpr hstart)
      case isFalse haccepted =>
        obtain ⟨hahead, hafterStart⟩ := not_or.mp haccepted
        refine Iff.trans ?_ (imp_iff_right (not_lt.mp hahead)).symm
        refine Iff.trans ?_ (imp_iff_right fun hactive => ?_).symm
        · exact (and_iff_right hbefore.1).trans (Task.expiresInTime_expireAt ..)
        · exact not_le.mp fun hstart => hafterStart ⟨hactive, hstart⟩
  | setMaxDuration duration timeRefMode external =>
      rw [apply, Task.setMaxDuration_eq]
      split
      case isTrue hneg =>
        exact iff_of_true hbefore fun hduration => absurd hduration (not_le.mpr hneg)
      case isFalse hduration =>
        refine Iff.trans ?_ (imp_iff_right (not_lt.mp hduration)).symm
        split
        case h_1 hnone =>
          refine iff_of_true hbefore fun reference href => ?_
          rw [hnone] at href
          cases href
        case h_2 reference hsome =>
          simp only [hsome, Option.mem_some_iff, forall_eq']
          exact (and_iff_right hbefore.1).trans (Task.expiresInTime_expireAt ..)
  | setTimeDelayAndDuration delayTime duration timeRefMode external =>
      rw [apply, Task.setTimeDelayAndDuration_eq]
      split
      case isTrue hneg =>
        refine iff_of_true hbefore fun hdelay hduration => ?_
        rcases hneg with hneg | hneg
        · exact absurd hdelay (not_le.mpr hneg)
        · exact absurd hduration (not_le.mpr hneg)
      case isFalse hvalid =>
        obtain ⟨hdelay, hduration⟩ := not_or.mp hvalid
        refine Iff.trans ?_ (imp_iff_right (not_lt.mp hdelay)).symm
        refine Iff.trans ?_ (imp_iff_right (not_lt.mp hduration)).symm
        split
        case h_1 hnone =>
          refine iff_of_true hbefore fun reference href => ?_
          rw [hnone] at href
          cases href
        case h_2 reference hsome =>
          simp only [hsome, Option.mem_some_iff, forall_eq']
          exact Task.inTime_activateAt_expireAt now t _ _ duration

end TimeCall

structure TimedTask where
  clock : Clock
  task : Task

/-- Time goes by, or a setter is called. -/
inductive TimeEvent where
  | tick (later : Clock)
  | call (c : TimeCall)

namespace TimedTask

def step (s : TimedTask) : TimeEvent → TimedTask
  | .tick later => { s with clock := later }
  | .call c => { clock := c.clockAfter s.clock, task := (c.apply s.clock s.task).2 }

def start (now : Clock) (uuid name : String) (priorityLevel : Int) (useUTCTime : Bool) : TimedTask where
  clock := now
  task := Task.create now uuid name priorityLevel useUTCTime

/-- The clock does not go back. -/
def Advances (s : TimedTask) : TimeEvent → Prop
  | .tick later => Task.Follows s.task.useUTC s.clock later
  | .call c => Task.Follows s.task.useUTC s.clock (c.clockAfter s.clock)

def CallsInTime (s : TimedTask) : TimeEvent → Prop
  | .tick _ => True
  | .call c => c.InTime s.clock s.task

theorem alwaysTimely_step_iff {s : TimedTask} {e : TimeEvent} (hunarmed : s.task.Unarmed)
    (h : s.task.AlwaysTimely s.clock) (hadvances : s.Advances e) :
    (s.step e).task.AlwaysTimely (s.step e).clock ↔ s.CallsInTime e := by
  cases e with
  | tick later => exact iff_of_true (h.mono hadvances) trivial
  | call c => exact TimeCall.alwaysTimely_apply_iff hunarmed h hadvances

theorem unarmed_step {s : TimedTask} (e : TimeEvent) (h : s.task.Unarmed) :
    (s.step e).task.Unarmed := by
  cases e with
  | tick later => exact h
  | call c => exact TimeCall.unarmed_apply h

end TimedTask

namespace Task

theorem create_eq (now : Clock) (uuid name : String) (priorityLevel : Int) (useUTCTime : Bool) :
    create now uuid name priorityLevel useUTCTime
      = { create now uuid name priorityLevel useUTCTime with expirationTimeout := none }.expireAt now
          ((now.current useUTCTime).addMSec 30000) := by
  rfl

theorem unarmed_create (now : Clock) (uuid name : String) (priorityLevel : Int) (useUTCTime : Bool) :
    (create now uuid name priorityLevel useUTCTime).Unarmed := by
  intro _
  rfl

/-- The thirty seconds of a new task are set exactly. -/
def CreatedInTime (now : Clock) (useUTCTime : Bool) : Prop :=
  Settles false useUTCTime now ((now.current useUTCTime).addMSec 30000) none

theorem alwaysTimely_create_iff (now : Clock) (uuid name : String) (priorityLevel : Int)
    (useUTCTime : Bool) :
    (create now uuid name priorityLevel useUTCTime).AlwaysTimely now ↔ CreatedInTime now useUTCTime := by
  have hactivates : (create now uuid name priorityLevel useUTCTime).ActivatesInTime now := by
    intro hactive
    cases hactive
  rw [alwaysTimely_iff (unarmed_create now uuid name priorityLevel useUTCTime),
    and_iff_right hactivates, create_eq, expiresInTime_expireAt]
  rfl

end Task

namespace TimedTask

/-- What a run keeps. -/
def KeepsTime (s : TimedTask) : Prop := s.task.Unarmed ∧ s.task.AlwaysTimely s.clock

def slew : TimedTask := start Clock.origin "t-1" "Slew" 0 true

def oneSecond : Clock := { utc := 1000000, localTime := 1000000 }

def setAhead : List TimeEvent := [.call (.setActivationTime 10000000), .tick oneSecond]

def movedBack : List TimeEvent :=
  [.call (.setActivationTime 10000000), .tick oneSecond, .call (.setTimeDelayAndDuration 0 60000 1 0)]

end TimedTask

end DshLmc
