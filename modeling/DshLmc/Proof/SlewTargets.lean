import DshLmc.Emulators.TrackingThread
import Mathlib.Algebra.Order.Archimedean.Basic
import Mathlib.Data.Nat.Count
import Mathlib.Order.Interval.Set.UnorderedInterval
import Mathlib.Tactic.Linarith
import Mathlib.Tactic.Ring

/-!
# Where a slew ends

An axis advances by a constant step towards its target and is set to the target by the step that
would pass it. So after `j` iterations an axis that is not there yet has `j` steps less to go, and the
farther axis bounds the number of iterations.
-/

namespace DshLmc

def signedStep (posStep dist : Rat) : Rat := if dist < 0 then -posStep else posStep

/-- Where an axis is after `j` iterations, and whether it counts as reached. -/
inductive AxisAt (reso posStep start stop : Rat) (j : Nat) : Rat → Bool → Prop
  | near (h : |stop - start| ≤ reso) : AxisAt reso posStep start stop j start true
  | arrived (h : reso < |stop - start|) : AxisAt reso posStep start stop j stop true
  | moving (h : reso < |stop - start|) (hshort : j * posStep < |stop - start|) :
      AxisAt reso posStep start stop j (start + j * signedStep posStep (stop - start)) false

namespace AxisAt

variable {reso posStep start stop current : Rat} {j : Nat} {reached : Bool}

theorem init (hreso : 0 ≤ reso) :
    AxisAt reso posStep start stop 0 start (decide (|stop - start| ≤ reso)) := by
  by_cases hnear : |stop - start| ≤ reso
  · rw [decide_eq_true hnear]
    exact near hnear
  · rw [decide_eq_false hnear]
    have hfar := not_le.mp hnear
    have hshort : ((0 : ℕ) : Rat) * posStep < |stop - start| := by
      rw [Nat.cast_zero, zero_mul]
      exact hreso.trans_lt hfar
    have hmoving := moving hfar hshort
    rwa [Nat.cast_zero, zero_mul, add_zero] at hmoving

/-- An axis that is not reached has all its steps behind it, and not passed the target. -/
theorem short (h : AxisAt reso posStep start stop j current false) :
    j * posStep < |stop - start| := by
  cases h with
  | moving _ hshort => exact hshort

theorem eq_start_of_near (h : AxisAt reso posStep start stop j current reached)
    (hnear : |stop - start| ≤ reso) : current = start := by
  cases h with
  | near _ => rfl
  | arrived hfar => exact absurd hnear (not_le.mpr hfar)
  | moving hfar _ => exact absurd hnear (not_le.mpr hfar)

theorem eq_stop_or_near (h : AxisAt reso posStep start stop j current true) :
    current = stop ∨ |stop - start| ≤ reso := by
  cases h with
  | near hnear => exact Or.inr hnear
  | arrived _ => exact Or.inl rfl

theorem step_moving (hpos : 0 < posStep)
    (hcurrent : current = start + j * signedStep posStep (stop - start)) :
    Slewing.axisStep (signedStep posStep (stop - start)) stop current false = (stop, true)
      ∨ (j + 1 : Nat) * posStep < |stop - start|
        ∧ start + (j + 1 : Nat) * signedStep posStep (stop - start) ∈ Set.uIcc current stop
        ∧ Slewing.axisStep (signedStep posStep (stop - start)) stop current false
          = (start + (j + 1 : Nat) * signedStep posStep (stop - start), false) := by
  have hnext : current + signedStep posStep (stop - start)
      = start + (j + 1 : Nat) * signedStep posStep (stop - start) := by
    rw [hcurrent]
    push_cast
    ring
  have hstep : Slewing.axisStep (signedStep posStep (stop - start)) stop current false
      = if (signedStep posStep (stop - start) > 0
            ∧ current + signedStep posStep (stop - start) - stop ≥ 0)
          ∨ (signedStep posStep (stop - start) < 0
            ∧ current + signedStep posStep (stop - start) - stop ≤ 0)
        then (stop, true) else (current + signedStep posStep (stop - start), false) := rfl
  by_cases hreached : (signedStep posStep (stop - start) > 0
        ∧ current + signedStep posStep (stop - start) - stop ≥ 0)
      ∨ (signedStep posStep (stop - start) < 0
        ∧ current + signedStep posStep (stop - start) - stop ≤ 0)
  · exact Or.inl (hstep.trans (if_pos hreached))
  refine Or.inr ⟨?_, ?_, by rw [hstep, if_neg hreached, hnext]⟩
  · rw [hnext] at hreached
    push Not at hreached
    obtain ⟨hup, hdown⟩ := hreached
    by_cases hneg : stop - start < 0
    · rw [signedStep, if_pos hneg] at hdown
      have hleft := hdown (neg_lt_zero.mpr hpos)
      rw [abs_of_neg hneg]
      linarith
    · rw [signedStep, if_neg hneg] at hup
      have hleft := hup hpos
      rw [abs_of_nonneg (not_lt.mp hneg)]
      linarith
  · rw [← hnext, Set.mem_uIcc]
    push Not at hreached
    obtain ⟨hup, hdown⟩ := hreached
    by_cases hneg : stop - start < 0
    · rw [signedStep, if_pos hneg] at hdown ⊢
      have hleft := hdown (neg_lt_zero.mpr hpos)
      exact Or.inr ⟨by linarith, by linarith⟩
    · rw [signedStep, if_neg hneg] at hup ⊢
      have hleft := hup hpos
      exact Or.inl ⟨by linarith, by linarith⟩

/-- What one iteration does to an axis: it stays between where it was and the target. -/
theorem step (hpos : 0 < posStep) (h : AxisAt reso posStep start stop j current reached) :
    AxisAt reso posStep start stop (j + 1)
        (Slewing.axisStep (signedStep posStep (stop - start)) stop current reached).1
        (Slewing.axisStep (signedStep posStep (stop - start)) stop current reached).2
      ∧ (Slewing.axisStep (signedStep posStep (stop - start)) stop current reached).1
        ∈ Set.uIcc current stop := by
  cases h with
  | near hnear => exact ⟨near hnear, Set.left_mem_uIcc⟩
  | arrived hfar => exact ⟨arrived hfar, Set.left_mem_uIcc⟩
  | moving hfar _ =>
      obtain hstop | ⟨hleft, hbetween, hnext⟩ := step_moving hpos rfl
      · rw [hstop]
        exact ⟨arrived hfar, Set.right_mem_uIcc⟩
      · rw [hnext]
        exact ⟨moving hfar hleft, hbetween⟩

end AxisAt

namespace TrackingThread

variable (props : TrackingProperties) (p : PointingData) (startAz startEl : Rat)

def reso : Rat := props.pointingResolution / 3600

def posStep : Rat := props.slewRate * (props.slewTimeStep / 1000)

def stepsLeft : Nat := ⌈max |p.az - startAz| |p.el - startEl| / posStep props⌉₊

/-- The variables of `Slew` after `j` iterations. -/
structure SlewAt (j : Nat) (w : Slewing) : Prop where
  azPosStep : w.azPosStep = signedStep (posStep props) (p.az - startAz)
  elPosStep : w.elPosStep = signedStep (posStep props) (p.el - startEl)
  az : AxisAt (reso props) (posStep props) startAz p.az j w.currentAz w.azReached
  el : AxisAt (reso props) (posStep props) startEl p.el j w.currentEl w.elReached

variable {props p startAz startEl} {j : Nat} {w : Slewing} {s : TrackingThread}

theorem slewAt_init (hreso : 0 ≤ reso props) :
    SlewAt props p startAz startEl 0 (Slewing.init props p startAz startEl) :=
  ⟨rfl, rfl, AxisAt.init hreso, AxisAt.init hreso⟩

theorem SlewAt.advance (hpos : 0 < posStep props) (h : SlewAt props p startAz startEl j w) :
    SlewAt props p startAz startEl (j + 1) (w.advance p)
      ∧ (w.advance p).currentAz ∈ Set.uIcc w.currentAz p.az
      ∧ (w.advance p).currentEl ∈ Set.uIcc w.currentEl p.el := by
  obtain ⟨hazAt, haz⟩ := h.az.step hpos
  obtain ⟨helAt, hel⟩ := h.el.step hpos
  rw [← h.azPosStep] at hazAt haz
  rw [← h.elPosStep] at helAt hel
  exact ⟨⟨h.azPosStep, h.elPosStep, hazAt, helAt⟩, haz, hel⟩

theorem SlewAt.lt_stepsLeft (hpos : 0 < posStep props) (h : SlewAt props p startAz startEl j w)
    (hreached : w.reached = false) : j < stepsLeft props p startAz startEl := by
  rw [stepsLeft, Nat.lt_ceil, lt_div_iff₀ hpos]
  obtain haz | hel := Bool.and_eq_false_iff.mp hreached
  · have hat := h.az
    rw [haz] at hat
    exact hat.short.trans_le (le_max_left _ _)
  · have hat := h.el
    rw [hel] at hat
    exact hat.short.trans_le (le_max_right _ _)

/-! ### The thread in `Slew` -/

def entersBody (s : TrackingThread) : Bool :=
  match s.pc with
  | .slew _ (.loop w) => !w.reached
  | _ => false

variable (props p startAz startEl)

/-- What the positions of the dish are at a program point of the iteration `j`. -/
def Positions (j : Nat) (s : TrackingThread) : SlewPoint → Prop
  | .enabledCheck | .started | .getAz =>
      j = 0 ∧ s.attrs.antennaAzPosition = startAz ∧ s.attrs.antennaElPosition = startEl
  | .getEl az =>
      j = 0 ∧ az = startAz ∧ s.attrs.antennaAzPosition = startAz
        ∧ s.attrs.antennaElPosition = startEl
  | .setPointState w | .setTargetLock w =>
      j = 0 ∧ SlewAt props p startAz startEl 0 w ∧ s.attrs.antennaAzPosition = w.currentAz
        ∧ s.attrs.antennaElPosition = w.currentEl
  | .loop w | .wait w | .stopCheck w =>
      SlewAt props p startAz startEl j w ∧ s.attrs.antennaAzPosition = w.currentAz
        ∧ s.attrs.antennaElPosition = w.currentEl
  | .setAz w =>
      SlewAt props p startAz startEl j w ∧ w.currentAz ∈ Set.uIcc s.attrs.antennaAzPosition p.az
        ∧ w.currentEl ∈ Set.uIcc s.attrs.antennaElPosition p.el
  | .setEl w =>
      SlewAt props p startAz startEl j w ∧ s.attrs.antennaAzPosition = w.currentAz
        ∧ w.currentEl ∈ Set.uIcc s.attrs.antennaElPosition p.el

/-- An axis that starts within the resolution is where it started. -/
structure StaysNear (s : TrackingThread) : Prop where
  az : |p.az - startAz| ≤ reso props → s.attrs.antennaAzPosition = startAz
  el : |p.el - startEl| ≤ reso props → s.attrs.antennaElPosition = startEl

/-- The thread at a program point of an undisturbed slew. -/
structure Slews (j : Nat) (s : TrackingThread) (pt : SlewPoint) : Prop where
  pc : s.pc = .slew p pt
  enabled : s.trackingEnabled = true
  notStopped : s.stopThread = false
  iterations : j ≤ stepsLeft props p startAz startEl
  positions : Positions props p startAz startEl j s pt
  near : StaysNear props p startAz startEl s

structure Slewed (j : Nat) (s : TrackingThread) : Prop where
  pc : s.pc = .setTrackCoords p .smear
  iterations : j ≤ stepsLeft props p startAz startEl
  az : s.attrs.antennaAzPosition = p.az ∨ |p.az - startAz| ≤ reso props
  el : s.attrs.antennaElPosition = p.el ∨ |p.el - startEl| ≤ reso props
  near : StaysNear props p startAz startEl s

/-- The number of steps of the thread that are left at most. -/
def turnsLeft (j : Nat) : SlewPoint → Nat
  | .enabledCheck => 5 * (stepsLeft props p startAz startEl - j) + 8
  | .started => 5 * (stepsLeft props p startAz startEl - j) + 7
  | .getAz => 5 * (stepsLeft props p startAz startEl - j) + 6
  | .getEl _ => 5 * (stepsLeft props p startAz startEl - j) + 5
  | .setPointState _ => 5 * (stepsLeft props p startAz startEl - j) + 4
  | .setTargetLock _ => 5 * (stepsLeft props p startAz startEl - j) + 3
  | .setAz _ => 5 * (stepsLeft props p startAz startEl - j) + 5
  | .setEl _ => 5 * (stepsLeft props p startAz startEl - j) + 4
  | .wait _ => 5 * (stepsLeft props p startAz startEl - j) + 3
  | .stopCheck _ => 5 * (stepsLeft props p startAz startEl - j) + 2
  | .loop _ => 5 * (stepsLeft props p startAz startEl - j) + 1

/-- What a step of an undisturbed slew comes to: it waits, it goes on, or it returns. -/
def Advances (e : Turn) (j : Nat) (s s' : TrackingThread) (pt : SlewPoint) : Prop :=
  (e.timedOut = false ∧ s.entersBody = false ∧ s' = s)
    ∨ (∃ pt', Slews props p startAz startEl (j + s.entersBody.toNat) s' pt'
        ∧ turnsLeft props p startAz startEl (j + s.entersBody.toNat) pt'
          < turnsLeft props p startAz startEl j pt)
    ∨ s.entersBody = false ∧ Slewed props p startAz startEl j s'

variable {props p startAz startEl} {s' : TrackingThread} {pt pt' : SlewPoint} {e : Turn}

theorem Slews.goOn (h : Slews props p startAz startEl j s pt) (hpc : s'.pc = .slew p pt')
    (haz : s'.attrs.antennaAzPosition = s.attrs.antennaAzPosition)
    (hel : s'.attrs.antennaElPosition = s.attrs.antennaElPosition)
    (henabled : s'.trackingEnabled = s.trackingEnabled) (hstop : s'.stopThread = s.stopThread)
    (hpositions : Positions props p startAz startEl j s' pt') :
    Slews props p startAz startEl j s' pt' where
  pc := hpc
  enabled := henabled.trans h.enabled
  notStopped := hstop.trans h.notStopped
  iterations := h.iterations
  positions := hpositions
  near := ⟨fun hnear => haz.trans (h.near.az hnear), fun hnear => hel.trans (h.near.el hnear)⟩

theorem attrs_setStatusIfStow (status : ProgressStatus) :
    (s.setStatusIfStow p status).attrs = s.attrs
      ∧ (s.setStatusIfStow p status).trackingEnabled = s.trackingEnabled
      ∧ (s.setStatusIfStow p status).stopThread = s.stopThread := by
  rw [setStatusIfStow]
  split <;> exact ⟨rfl, rfl, rfl⟩

theorem advances_of_goOn (hbody : s.entersBody = false)
    (hslews : Slews props p startAz startEl j s' pt')
    (hturns : turnsLeft props p startAz startEl j pt' < turnsLeft props p startAz startEl j pt) :
    Advances props p startAz startEl e j s s' pt := by
  refine Or.inr (Or.inl ⟨pt', ?_, ?_⟩)
  · rwa [hbody]
  · rwa [hbody]

theorem Slews.step_before (hcalls : e.callSucceeds = true)
    (h : Slews props p startAz startEl j s pt)
    (hpt : pt = .enabledCheck ∨ pt = .started ∨ pt = .getAz) :
    Advances props p startAz startEl e j s (s.threadStep props e) pt
      ∧ (s.threadStep props e).attrs = s.attrs := by
  have hpc := h.pc
  have hpositions := h.positions
  obtain rfl | rfl | rfl := hpt
  · have hstep : s.threadStep props e = s.moveTo (.slew p .started) := by
      rw [threadStep, hpc]
      exact congrArg s.moveTo (if_pos h.enabled)
    have hbody : s.entersBody = false := by rw [entersBody, hpc]
    rw [hstep]
    refine ⟨advances_of_goOn hbody (h.goOn rfl rfl rfl rfl rfl hpositions) ?_, rfl⟩
    exact Nat.lt_succ_self _
  · have hstep : s.threadStep props e = (s.setStatusIfStow p .RUNNING).moveTo (.slew p .getAz) := by
      rw [threadStep, hpc]
      rfl
    have hbody : s.entersBody = false := by rw [entersBody, hpc]
    obtain ⟨hattrs, henabled, hstop⟩ := attrs_setStatusIfStow (s := s) (p := p) .RUNNING
    have hafter : (s.threadStep props e).attrs = s.attrs := by
      rw [hstep]
      exact hattrs
    rw [hstep] at hafter ⊢
    refine ⟨advances_of_goOn hbody (h.goOn rfl (congrArg _ hafter) (congrArg _ hafter) henabled
      hstop ?_) (Nat.lt_succ_self _), hafter⟩
    rw [Positions, hafter]
    exact hpositions
  · have hstep : s.threadStep props e = s.moveTo (.slew p (.getEl s.attrs.antennaAzPosition)) := by
      rw [threadStep, hpc]
      exact if_pos hcalls
    have hbody : s.entersBody = false := by rw [entersBody, hpc]
    rw [hstep]
    refine ⟨advances_of_goOn hbody (h.goOn rfl rfl rfl rfl rfl ?_) (Nat.lt_succ_self _), rfl⟩
    exact ⟨hpositions.1, hpositions.2.1, hpositions.2⟩

theorem Slews.step_set (hcalls : e.callSucceeds = true)
    (h : Slews props p startAz startEl j s pt) {w : Slewing}
    (hpt : pt = .setPointState w ∨ pt = .setTargetLock w) :
    Advances props p startAz startEl e j s (s.threadStep props e) pt
      ∧ (s.threadStep props e).attrs.antennaAzPosition = s.attrs.antennaAzPosition
      ∧ (s.threadStep props e).attrs.antennaElPosition = s.attrs.antennaElPosition := by
  have hpc := h.pc
  have hpositions := h.positions
  obtain rfl | rfl := hpt
  · have hstep : s.threadStep props e
        = { s with attrs := s.attrs.write (.pointingState "SLEW"), pc := .slew p (.setTargetLock w) } := by
      rw [threadStep, hpc]
      exact if_pos hcalls
    have hbody : s.entersBody = false := by rw [entersBody, hpc]
    rw [hstep]
    refine ⟨advances_of_goOn hbody (h.goOn rfl rfl rfl rfl rfl hpositions) ?_, rfl, rfl⟩
    exact Nat.lt_succ_self _
  · have hstep : s.threadStep props e
        = { s with attrs := s.attrs.write (.targetLock false), pc := .slew p (.loop w) } := by
      rw [threadStep, hpc]
      exact if_pos hcalls
    have hbody : s.entersBody = false := by rw [entersBody, hpc]
    obtain ⟨rfl, hslewAt, hat⟩ := hpositions
    rw [hstep]
    refine ⟨advances_of_goOn hbody (h.goOn rfl rfl rfl rfl rfl ⟨hslewAt, hat⟩) ?_, rfl, rfl⟩
    simp only [turnsLeft]
    omega

theorem Slews.step_getEl (hcalls : e.callSucceeds = true) (hreso : 0 ≤ reso props) {az : Rat}
    (h : Slews props p startAz startEl j s (.getEl az)) :
    Advances props p startAz startEl e j s (s.threadStep props e) (.getEl az)
      ∧ (s.threadStep props e).attrs = s.attrs := by
  obtain ⟨rfl, haz, hazAt, helAt⟩ := h.positions
  have hpc := h.pc
  have hbody : s.entersBody = false := by rw [entersBody, hpc]
  have hinit : SlewAt props p startAz startEl 0 (Slewing.init props p startAz startEl) :=
    slewAt_init hreso
  have hstep : s.threadStep props e = s.moveTo
      (if (Slewing.init props p startAz startEl).reached then .setTrackCoords p .smear
        else .slew p (.setPointState (Slewing.init props p startAz startEl))) := by
    rw [threadStep, hpc]
    change (if e.callSucceeds then _ else _) = _
    rw [if_pos hcalls, haz, helAt]
  rw [hstep]
  cases hreached : (Slewing.init props p startAz startEl).reached with
  | true =>
      obtain ⟨hazReached, helReached⟩ := Bool.and_eq_true_iff.mp hreached
      refine ⟨Or.inr (Or.inr ⟨hbody, rfl, h.iterations, ?_, ?_, ⟨h.near.az, h.near.el⟩⟩), rfl⟩
      · exact Or.inr (of_decide_eq_true hazReached)
      · exact Or.inr (of_decide_eq_true helReached)
  | false =>
      refine ⟨advances_of_goOn hbody (h.goOn rfl rfl rfl rfl rfl ⟨rfl, hinit, hazAt, helAt⟩) ?_, rfl⟩
      exact Nat.lt_succ_self _

theorem Slews.step_loop (hpos : 0 < posStep props) {w : Slewing}
    (h : Slews props p startAz startEl j s (.loop w)) :
    Advances props p startAz startEl e j s (s.threadStep props e) (.loop w)
      ∧ (s.threadStep props e).attrs = s.attrs := by
  obtain ⟨hslewAt, hazAt, helAt⟩ := h.positions
  have hpc := h.pc
  have hstep : s.threadStep props e = s.moveTo (if w.reached then .setTrackCoords p .smear
      else .slew p (.setAz (w.advance p))) := by
    rw [threadStep, hpc]
    rfl
  rw [hstep]
  cases hreached : w.reached with
  | true =>
      have hbody : s.entersBody = false := by
        rw [entersBody, hpc]
        exact congrArg not hreached
      obtain ⟨hazReached, helReached⟩ := Bool.and_eq_true_iff.mp hreached
      have haz := hslewAt.az
      have hel := hslewAt.el
      rw [hazReached, ← hazAt] at haz
      rw [helReached, ← helAt] at hel
      refine ⟨Or.inr (Or.inr ⟨hbody, rfl, h.iterations, ?_, ?_, ⟨h.near.az, h.near.el⟩⟩), rfl⟩
      · exact haz.eq_stop_or_near
      · exact hel.eq_stop_or_near
  | false =>
      have hbody : s.entersBody = true := by
        rw [entersBody, hpc]
        exact congrArg not hreached
      have hlt := hslewAt.lt_stepsLeft hpos hreached
      obtain ⟨hnext, haz, hel⟩ := hslewAt.advance hpos
      refine ⟨Or.inr (Or.inl ⟨.setAz (w.advance p), ?_, ?_⟩), rfl⟩
      · rw [hbody]
        rw [← hazAt] at haz
        rw [← helAt] at hel
        exact ⟨rfl, h.enabled, h.notStopped, hlt, ⟨hnext, haz, hel⟩,
          ⟨h.near.az, h.near.el⟩⟩
      · rw [hbody, Bool.toNat_true]
        simp only [turnsLeft]
        omega

theorem Slews.step_setAz (hcalls : e.callSucceeds = true) {w : Slewing}
    (h : Slews props p startAz startEl j s (.setAz w)) :
    Advances props p startAz startEl e j s (s.threadStep props e) (.setAz w)
      ∧ (s.threadStep props e).attrs.antennaAzPosition ∈ Set.uIcc s.attrs.antennaAzPosition p.az
      ∧ (s.threadStep props e).attrs.antennaElPosition = s.attrs.antennaElPosition := by
  obtain ⟨hslewAt, haz, hel⟩ := h.positions
  have hpc := h.pc
  have hbody : s.entersBody = false := by rw [entersBody, hpc]
  have hstep : s.threadStep props e
      = { s with attrs := s.attrs.write (.antennaAzPosition w.currentAz), pc := .slew p (.setEl w) } := by
    rw [threadStep, hpc]
    exact if_pos hcalls
  rw [hstep]
  have hslews : Slews props p startAz startEl j
      { s with attrs := s.attrs.write (.antennaAzPosition w.currentAz), pc := .slew p (.setEl w) }
      (.setEl w) :=
    ⟨rfl, h.enabled, h.notStopped, h.iterations, ⟨hslewAt, rfl, hel⟩,
      fun hnear => hslewAt.az.eq_start_of_near hnear, h.near.el⟩
  exact ⟨advances_of_goOn hbody hslews (Nat.lt_succ_self _), haz, rfl⟩

theorem Slews.step_setEl (hcalls : e.callSucceeds = true) {w : Slewing}
    (h : Slews props p startAz startEl j s (.setEl w)) :
    Advances props p startAz startEl e j s (s.threadStep props e) (.setEl w)
      ∧ (s.threadStep props e).attrs.antennaAzPosition = s.attrs.antennaAzPosition
      ∧ (s.threadStep props e).attrs.antennaElPosition
        ∈ Set.uIcc s.attrs.antennaElPosition p.el := by
  obtain ⟨hslewAt, haz, hel⟩ := h.positions
  have hpc := h.pc
  have hbody : s.entersBody = false := by rw [entersBody, hpc]
  have hstep : s.threadStep props e
      = { s with
          achievedPointing := (doubleUnixMSec e.now, w.currentAz, w.currentEl)
          attrs := s.attrs.write (.antennaElPosition w.currentEl)
          pc := .slew p (.wait w) } := by
    rw [threadStep, hpc]
    change TrackingThread.setAttr _ _ _ _ _ = _
    rw [setAttr, if_pos hcalls, if_pos hcalls]
  rw [hstep]
  have hslews : Slews props p startAz startEl j
      { s with
        achievedPointing := (doubleUnixMSec e.now, w.currentAz, w.currentEl)
        attrs := s.attrs.write (.antennaElPosition w.currentEl)
        pc := .slew p (.wait w) }
      (.wait w) :=
    ⟨rfl, h.enabled, h.notStopped, h.iterations, ⟨hslewAt, haz, rfl⟩, h.near.az,
      fun hnear => hslewAt.el.eq_start_of_near hnear⟩
  exact ⟨advances_of_goOn hbody hslews (Nat.lt_succ_self _), rfl, hel⟩

theorem Slews.step_wait {w : Slewing} (h : Slews props p startAz startEl j s pt)
    (hpt : pt = .wait w ∨ pt = .stopCheck w) :
    Advances props p startAz startEl e j s (s.threadStep props e) pt
      ∧ (s.threadStep props e).attrs = s.attrs := by
  have hpc := h.pc
  have hpositions := h.positions
  have hrunning : (s.stopThread || !s.trackingEnabled) = false := by
    rw [h.notStopped, h.enabled]
    rfl
  obtain rfl | rfl := hpt
  · have hbody : s.entersBody = false := by rw [entersBody, hpc]
    have hstep : s.threadStep props e
        = if e.timedOut then s.moveTo (.slew p (.stopCheck w)) else s := by
      rw [threadStep, hpc]
      change (if s.stopThread || !s.trackingEnabled || e.timedOut then _ else _) = _
      rw [hrunning, Bool.false_or]
    rw [hstep]
    cases htimed : e.timedOut with
    | false => exact ⟨Or.inl ⟨htimed, hbody, rfl⟩, rfl⟩
    | true =>
        refine ⟨advances_of_goOn hbody (h.goOn rfl rfl rfl rfl rfl hpositions) ?_, rfl⟩
        exact Nat.lt_succ_self _
  · have hbody : s.entersBody = false := by rw [entersBody, hpc]
    have hstep : s.threadStep props e = s.moveTo (.slew p (.loop w)) := by
      rw [threadStep, hpc]
      change (if s.stopThread || !s.trackingEnabled then _ else _) = _
      rw [hrunning]
      rfl
    rw [hstep]
    refine ⟨advances_of_goOn hbody (h.goOn rfl rfl rfl rfl rfl hpositions) ?_, rfl⟩
    exact Nat.lt_succ_self _

/-- **One step of an undisturbed slew.** -/
theorem Slews.step (hpos : 0 < posStep props) (hreso : 0 ≤ reso props)
    (hcalls : e.callSucceeds = true) (h : Slews props p startAz startEl j s pt) :
    Advances props p startAz startEl e j s (s.threadStep props e) pt
      ∧ (s.threadStep props e).attrs.antennaAzPosition ∈ Set.uIcc s.attrs.antennaAzPosition p.az
      ∧ (s.threadStep props e).attrs.antennaElPosition
        ∈ Set.uIcc s.attrs.antennaElPosition p.el := by
  have hstill : Advances props p startAz startEl e j s (s.threadStep props e) pt
        ∧ (s.threadStep props e).attrs = s.attrs →
      Advances props p startAz startEl e j s (s.threadStep props e) pt
        ∧ (s.threadStep props e).attrs.antennaAzPosition ∈ Set.uIcc s.attrs.antennaAzPosition p.az
        ∧ (s.threadStep props e).attrs.antennaElPosition
          ∈ Set.uIcc s.attrs.antennaElPosition p.el := by
    rintro ⟨hadvances, hattrs⟩
    rw [hattrs]
    exact ⟨hadvances, Set.left_mem_uIcc, Set.left_mem_uIcc⟩
  cases pt with
  | enabledCheck => exact hstill (h.step_before hcalls (Or.inl rfl))
  | started => exact hstill (h.step_before hcalls (Or.inr (Or.inl rfl)))
  | getAz => exact hstill (h.step_before hcalls (Or.inr (Or.inr rfl)))
  | getEl az => exact hstill (h.step_getEl hcalls hreso)
  | setPointState w =>
      obtain ⟨hadvances, haz, hel⟩ := h.step_set hcalls (Or.inl rfl)
      rw [haz, hel]
      exact ⟨hadvances, Set.left_mem_uIcc, Set.left_mem_uIcc⟩
  | setTargetLock w =>
      obtain ⟨hadvances, haz, hel⟩ := h.step_set hcalls (Or.inr rfl)
      rw [haz, hel]
      exact ⟨hadvances, Set.left_mem_uIcc, Set.left_mem_uIcc⟩
  | loop w => exact hstill (h.step_loop hpos)
  | setAz w =>
      obtain ⟨hadvances, haz, hel⟩ := h.step_setAz hcalls
      rw [hel]
      exact ⟨hadvances, haz, Set.left_mem_uIcc⟩
  | setEl w =>
      obtain ⟨hadvances, haz, hel⟩ := h.step_setEl hcalls
      rw [haz]
      exact ⟨hadvances, Set.left_mem_uIcc, hel⟩
  | wait w => exact hstill (h.step_wait (Or.inl rfl))
  | stopCheck w => exact hstill (h.step_wait (Or.inr rfl))

def stateAt (props : TrackingProperties) (turns : Nat → Turn) (s : TrackingThread) :
    Nat → TrackingThread
  | 0 => s
  | n + 1 => (stateAt props turns s n).threadStep props (turns n)

def iterations (props : TrackingProperties) (turns : Nat → Turn) (s : TrackingThread) (n : Nat) :
    Nat :=
  Nat.count (fun m => (stateAt props turns s m).entersBody = true) n

/-- **A slew that reaches its target.** It returns 0 at the turn `n`, within the number of iterations
that the farther axis needs. Each axis only moves towards the target, and it ends there unless it
started within the resolution and was never moved. -/
structure ReachesTarget (props : TrackingProperties) (p : PointingData) (turns : Nat → Turn)
    (s : TrackingThread) (n : Nat) : Prop where
  returned : (stateAt props turns s n).pc = .setTrackCoords p .smear
  slewing : ∀ m < n, ∃ pt, (stateAt props turns s m).pc = .slew p pt
  bounded : iterations props turns s n
    ≤ ⌈max |p.az - s.attrs.antennaAzPosition| |p.el - s.attrs.antennaElPosition|
        / (props.slewRate * props.slewTimeStep / 1000)⌉₊
  towardsAz : ∀ m m', m ≤ m' → m' ≤ n → (stateAt props turns s m').attrs.antennaAzPosition
    ∈ Set.uIcc (stateAt props turns s m).attrs.antennaAzPosition p.az
  towardsEl : ∀ m m', m ≤ m' → m' ≤ n → (stateAt props turns s m').attrs.antennaElPosition
    ∈ Set.uIcc (stateAt props turns s m).attrs.antennaElPosition p.el
  az : (stateAt props turns s n).attrs.antennaAzPosition = p.az
    ∨ |p.az - s.attrs.antennaAzPosition| ≤ props.pointingResolution / 3600
      ∧ ∀ m ≤ n, (stateAt props turns s m).attrs.antennaAzPosition = s.attrs.antennaAzPosition
  el : (stateAt props turns s n).attrs.antennaElPosition = p.el
    ∨ |p.el - s.attrs.antennaElPosition| ≤ props.pointingResolution / 3600
      ∧ ∀ m ≤ n, (stateAt props turns s m).attrs.antennaElPosition = s.attrs.antennaElPosition

section Run

variable {turns : Nat → Turn}

theorem iterations_succ (n : Nat) :
    iterations props turns s (n + 1)
      = iterations props turns s n + (stateAt props turns s n).entersBody.toNat := by
  rw [iterations, iterations, Nat.count_succ]
  cases (stateAt props turns s n).entersBody <;> rfl

/-- The slew goes on from a turn until it returns. -/
def ReturnsFrom (props : TrackingProperties) (p : PointingData) (startAz startEl : Rat)
    (turns : Nat → Turn) (s : TrackingThread) (first : Nat) : Prop :=
  ∃ n, first ≤ n
    ∧ Slewed props p startAz startEl (iterations props turns s n) (stateAt props turns s n)
    ∧ ∀ m, first ≤ m → m < n → ∃ pt,
        Slews props p startAz startEl (iterations props turns s m) (stateAt props turns s m) pt

theorem ReturnsFrom.of_succ {first : Nat}
    (hslews : Slews props p startAz startEl (iterations props turns s first)
      (stateAt props turns s first) pt)
    (h : ReturnsFrom props p startAz startEl turns s (first + 1)) :
    ReturnsFrom props p startAz startEl turns s first := by
  obtain ⟨n, hle, hslewed, hbefore⟩ := h
  refine ⟨n, (Nat.le_succ first).trans hle, hslewed, fun m hfirst hm => ?_⟩
  obtain rfl | hlt := hfirst.eq_or_lt
  · exact ⟨pt, hslews⟩
  · exact hbefore m hlt hm

/-- By the steps that are left, and among states with as many by the time until the wait ends. -/
theorem returnsFrom (hpos : 0 < posStep props) (hreso : 0 ≤ reso props)
    (hcalls : ∀ n, (turns n).callSucceeds = true)
    (hwaits : ∀ n, ∃ m, n ≤ m ∧ (turns m).timedOut = true) (left : Nat) :
    ∀ later first pt, (turns (first + later)).timedOut = true →
      Slews props p startAz startEl (iterations props turns s first)
        (stateAt props turns s first) pt →
      turnsLeft props p startAz startEl (iterations props turns s first) pt = left →
      ReturnsFrom props p startAz startEl turns s first := by
  induction left using Nat.strong_induction_on with
  | _ left ih =>
      have hmoves : ∀ first pt,
          Slews props p startAz startEl (iterations props turns s first)
            (stateAt props turns s first) pt →
          turnsLeft props p startAz startEl (iterations props turns s first) pt = left →
          ¬ ((turns first).timedOut = false ∧ (stateAt props turns s first).entersBody = false
            ∧ stateAt props turns s (first + 1) = stateAt props turns s first) →
          ReturnsFrom props p startAz startEl turns s first := by
        intro first pt hslews hleft hmove
        obtain hstill | ⟨pt', hnext, hlt⟩ | ⟨hbody, hslewed⟩ :=
          (hslews.step hpos hreso (hcalls first)).1
        · exact absurd hstill hmove
        · obtain ⟨m, hm, hmTimed⟩ := hwaits (first + 1)
          rw [← iterations_succ] at hnext hlt
          refine .of_succ hslews (ih _ (hleft ▸ hlt) (m - (first + 1)) (first + 1) pt' ?_ hnext rfl)
          rwa [Nat.add_sub_cancel' hm]
        · refine ⟨first + 1, Nat.le_succ first, ?_, fun m hfirst hm => ?_⟩
          · rw [iterations_succ, hbody]
            exact hslewed
          · obtain rfl := Nat.le_antisymm (Nat.lt_succ_iff.mp hm) hfirst
            exact ⟨pt, hslews⟩
      intro later
      induction later with
      | zero =>
          intro first pt htimed hslews hleft
          refine hmoves first pt hslews hleft fun hstill => ?_
          rw [Nat.add_zero, hstill.1] at htimed
          cases htimed
      | succ later ihLater =>
          intro first pt htimed hslews hleft
          by_cases hstill : (turns first).timedOut = false
              ∧ (stateAt props turns s first).entersBody = false
              ∧ stateAt props turns s (first + 1) = stateAt props turns s first
          · have hcount : iterations props turns s (first + 1) = iterations props turns s first := by
              rw [iterations_succ, hstill.2.1]
              rfl
            refine .of_succ hslews (ihLater (first + 1) pt ?_ ?_ ?_)
            · rwa [Nat.add_right_comm, Nat.add_assoc]
            · rwa [hstill.2.2, hcount]
            · rwa [hcount]
          · exact hmoves first pt hslews hleft hstill

theorem mem_uIcc_of_steps {position : Nat → Rat} {target : Rat} {n : Nat}
    (hstep : ∀ m < n, position (m + 1) ∈ Set.uIcc (position m) target) :
    ∀ m m', m ≤ m' → m' ≤ n → position m' ∈ Set.uIcc (position m) target := by
  intro m m' hle
  induction m', hle using Nat.le_induction with
  | base => exact fun _ => Set.left_mem_uIcc
  | succ m' _ ih =>
      intro hm'
      have hbetween := ih (Nat.le_of_succ_le hm')
      exact Set.uIcc_subset_uIcc_right hbetween (hstep m' hm')

variable (props p s turns)

/-- **A slew reaches its target and never overshoots.** The calls for attributes succeed, no one stops
the thread or disables tracking, and every wait ends. -/
theorem exists_reachesTarget (hpc : s.pc = .slew p .enabledCheck) (henabled : s.trackingEnabled = true)
    (hstop : s.stopThread = false) (hrate : 0 < props.slewRate) (hstep : 0 < props.slewTimeStep)
    (hreso : 0 ≤ props.pointingResolution) (hcalls : ∀ n, (turns n).callSucceeds = true)
    (hwaits : ∀ n, ∃ m, n ≤ m ∧ (turns m).timedOut = true) :
    ∃ n, ReachesTarget props p turns s n := by
  have hpos : 0 < posStep props := mul_pos hrate (div_pos hstep (by norm_num))
  have hreso' : 0 ≤ reso props := div_nonneg hreso (by norm_num)
  have hstart : Slews props p s.attrs.antennaAzPosition s.attrs.antennaElPosition
      (iterations props turns s 0) (stateAt props turns s 0) .enabledCheck :=
    ⟨hpc, henabled, hstop, Nat.zero_le _, ⟨rfl, rfl, rfl⟩, fun _ => rfl, fun _ => rfl⟩
  obtain ⟨later, -, htimed⟩ := hwaits 0
  obtain ⟨n, -, hslewed, hbefore⟩ :=
    returnsFrom hpos hreso' hcalls hwaits _ later 0 _ (by rwa [Nat.zero_add]) hstart rfl
  have hslews := fun m (hm : m < n) => hbefore m (Nat.zero_le m) hm
  have hnear : ∀ m ≤ n, StaysNear props p s.attrs.antennaAzPosition s.attrs.antennaElPosition
      (stateAt props turns s m) := by
    intro m hm
    obtain rfl | hlt := hm.eq_or_lt
    · exact hslewed.near
    · obtain ⟨pt, hpt⟩ := hslews m hlt
      exact hpt.near
  refine ⟨n, hslewed.pc, fun m hm => ?_, ?_, ?_, ?_, ?_, ?_⟩
  · obtain ⟨pt, hpt⟩ := hslews m hm
    exact ⟨pt, hpt.pc⟩
  · rw [mul_div_assoc]
    exact hslewed.iterations
  · refine mem_uIcc_of_steps fun m hm => ?_
    obtain ⟨pt, hpt⟩ := hslews m hm
    exact (hpt.step hpos hreso' (hcalls m)).2.1
  · refine mem_uIcc_of_steps fun m hm => ?_
    obtain ⟨pt, hpt⟩ := hslews m hm
    exact (hpt.step hpos hreso' (hcalls m)).2.2
  · exact hslewed.az.imp_right fun h => ⟨h, fun m hm => (hnear m hm).az h⟩
  · exact hslewed.el.imp_right fun h => ⟨h, fun m hm => (hnear m hm).el h⟩

end Run

def aboutToSlew : TrackingThread where
  schedule := {}
  attrs :=
    { antennaAzPosition := 0
      antennaElPosition := 45
      targetLock := false
      brakeState := fun _ => false
      servoState := fun _ => true
      powerState := "FULL-POWER"
      pointingState := "READY"
      operatingMode := "POINT"
      indexerPosition := 0 }
  trackingEnabled := true
  pc := .slew (.new 10 30 5000 .eTRACK_PROGRAM) .enabledCheck

theorem exists_reachesTarget_aboutToSlew :
    ∃ n, ReachesTarget ⟨3, 100, 1, false, 0, 90⟩ (.new 10 30 5000 .eTRACK_PROGRAM)
      (fun _ => { timedOut := true }) aboutToSlew n :=
  exists_reachesTarget ⟨3, 100, 1, false, 0, 90⟩ _ aboutToSlew (fun _ => { timedOut := true }) rfl rfl
    rfl (by norm_num) (by norm_num) (by norm_num) (fun _ => rfl) fun n => ⟨n, le_rfl, rfl⟩

end TrackingThread

end DshLmc
