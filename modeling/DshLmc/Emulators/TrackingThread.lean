import DshLmc.Emulators.DishAttributes
import DshLmc.Emulators.PointingSchedule

/-!
# The tracking thread

`Run` pops a pointing, slews to it in small steps and sets the coordinates that are reached. Other
threads enable and disable tracking, change the schedule and the attributes, and stop the thread.
They do so between any two of its steps. Such a step is a read of a flag, a wake-up from a wait, a
pop, or one call for an attribute.

`stow` makes four calls from the command thread, between which the tracking thread may run.
-/

namespace DshLmc

structure TrackingProperties where
  slewRate : Rat
  slewTimeStep : Rat
  pointingResolution : Rat
  smearPointingCoords : Bool
  stowAzimuthPos : Rat
  stowElevationPos : Rat

structure Slewing where
  azPosStep : Rat
  elPosStep : Rat
  currentAz : Rat
  currentEl : Rat
  azReached : Bool
  elReached : Bool
deriving DecidableEq

namespace Slewing

def init (props : TrackingProperties) (p : PointingData) (startAz startEl : Rat) : Slewing :=
  let dAz := p.az - startAz
  let dEl := p.el - startEl
  let reso := props.pointingResolution / 3600
  let posStep := props.slewRate * (props.slewTimeStep / 1000)
  { azPosStep := if dAz < 0 then -posStep else posStep
    elPosStep := if dEl < 0 then -posStep else posStep
    currentAz := startAz
    currentEl := startEl
    azReached := |dAz| ≤ reso
    elReached := |dEl| ≤ reso }

def reached (w : Slewing) : Bool := w.azReached && w.elReached

/-- The step of an axis, to its position and whether it is reached. -/
def axisStep (posStep stop current : Rat) (reached : Bool) : Rat × Bool :=
  if reached then (current, true)
  else
    let next := current + posStep
    if (posStep > 0 ∧ next - stop ≥ 0) ∨ (posStep < 0 ∧ next - stop ≤ 0) then (stop, true)
    else (next, false)

/-- The beginning of an iteration. -/
def advance (w : Slewing) (p : PointingData) : Slewing :=
  let az := axisStep w.azPosStep p.az w.currentAz w.azReached
  let el := axisStep w.elPosStep p.el w.currentEl w.elReached
  { w with
    currentAz := az.1
    azReached := az.2
    currentEl := el.1
    elReached := el.2 }

end Slewing

/-- In `Run` and `PopTrackCoordsFromQueue`, with no pointing at hand. -/
inductive RunPoint where
  | loop
  | wait
  | stopCheck
  | enabledCheck
  | popEnabledCheck
  | pop
  | popWait
  | ended
deriving DecidableEq

inductive SlewPoint where
  | enabledCheck
  | started
  | getAz
  | getEl (startAz : Rat)
  | setPointState (w : Slewing)
  | setTargetLock (w : Slewing)
  | loop (w : Slewing)
  | setAz (w : Slewing)
  | setEl (w : Slewing)
  | wait (w : Slewing)
  | stopCheck (w : Slewing)
deriving DecidableEq

inductive TrackPoint where
  | smear
  | setPointState
  | setTargetLock
  | setAz
  | setEl
  | queueCheck
  | setReady
  | disableTracking
  | stow (calls : List DishCall)

inductive TrackingPoint where
  | run (pt : RunPoint)
  | slew (pdata : PointingData) (pt : SlewPoint)
  | setTrackCoords (pdata : PointingData) (pt : TrackPoint)

/-- No iteration has a pointing at hand. -/
def TrackingPoint.inRun : TrackingPoint → Bool
  | .run _ => true
  | .slew _ _ => false
  | .setTrackCoords _ _ => false

/-- The command thread, in `stow`. -/
inductive StowPoint where
  | outside
  | disabled
  | flushed
  | pushed
deriving DecidableEq

/-- The thread, the device and the schedule. The last fields are history: the pops so far, the last
pointing that was popped, whether a call for an attribute has failed since, the number of pops when
`stowProgress` was written, and their number when `stow` disabled tracking. -/
structure TrackingThread where
  schedule : PointingSchedule
  attrs : DishAttrs
  achievedPointing : Rat × Rat × Rat := (0, 0, 0)
  stowProgress : ProgressStatus := .INIT
  stopThread : Bool := false
  trackingEnabled : Bool := false
  pc : TrackingPoint := .run .loop
  stow : StowPoint := .outside
  pops : Nat := 0
  popped : Option PointingData := none
  callFailed : Bool := false
  stowWritten : Nat := 0
  stowPops : Option Nat := none

/-- What the thread finds in a step: whether the call that it makes succeeds, the clock, the instant
that `yat::Time` makes of seconds, whether its wait has timed out, and the numbers that
`SmearPointing` generates. -/
structure Turn where
  callSucceeds : Bool := true
  now : Time := 0
  set_double_unix : Rat → Time := cutToMicroseconds
  timedOut : Bool := false
  rand_az : Rat := 0
  rand_el : Rat := 0

namespace TrackingThread

def moveTo (s : TrackingThread) (pc : TrackingPoint) : TrackingThread := { s with pc := pc }

def setStowStatus (s : TrackingThread) (status : ProgressStatus) : TrackingThread :=
  { s with stowProgress := status, stowWritten := s.pops }

/-- A status that `Slew` sets for a stow only. -/
def setStatusIfStow (s : TrackingThread) (pdata : PointingData) (status : ProgressStatus) :
    TrackingThread :=
  if pdata.pntType = .eSTOW then s.setStowStatus status else s

/-- A call failed, and the iteration of `Run` ends. -/
def failed (s : TrackingThread) : TrackingThread :=
  { s with callFailed := true, pc := .run .loop }

def setAttr (s : TrackingThread) (e : Turn) (w : AttrWrite) (next : TrackingPoint)
    (onFailure : TrackingThread → TrackingThread) : TrackingThread :=
  if e.callSucceeds then { s with attrs := s.attrs.write w, pc := next } else onFailure s.failed

def runStep (s : TrackingThread) (e : Turn) : RunPoint → TrackingThread
  | .loop => s.moveTo (.run (if s.stopThread then .ended else .wait))
  | .wait =>
      if s.stopThread || (s.schedule.hasEntriesInQueue && s.trackingEnabled) then
        s.moveTo (.run .stopCheck)
      else s
  | .stopCheck => s.moveTo (.run (if s.stopThread then .ended else .enabledCheck))
  | .enabledCheck => s.moveTo (.run (if s.trackingEnabled then .popEnabledCheck else .loop))
  | .popEnabledCheck => s.moveTo (.run (if s.trackingEnabled then .pop else .loop))
  | .pop =>
      match s.schedule.pop e.set_double_unix e.now with
      | (schedule, some pdata, _) =>
          { s with
            schedule := schedule
            pc := .slew pdata .enabledCheck
            pops := s.pops + 1
            popped := some pdata
            callFailed := false }
      | (schedule, none, status) =>
          { s with schedule := schedule, pc := .run (if status = 1 then .popWait else .loop) }
  | .popWait =>
      if s.stopThread || !s.trackingEnabled || e.timedOut then s.moveTo (.run .loop) else s
  | .ended => s

def slewStep (props : TrackingProperties) (s : TrackingThread) (e : Turn) (pdata : PointingData) :
    SlewPoint → TrackingThread
  | .enabledCheck => s.moveTo (if s.trackingEnabled then .slew pdata .started else .run .loop)
  | .started => (s.setStatusIfStow pdata .RUNNING).moveTo (.slew pdata .getAz)
  | .getAz =>
      if e.callSucceeds then s.moveTo (.slew pdata (.getEl s.attrs.antennaAzPosition))
      else s.failed.setStatusIfStow pdata .FAILED
  | .getEl startAz =>
      if e.callSucceeds then
        let w := Slewing.init props pdata startAz s.attrs.antennaElPosition
        s.moveTo (if w.reached then .setTrackCoords pdata .smear else .slew pdata (.setPointState w))
      else s.failed.setStatusIfStow pdata .FAILED
  | .setPointState w =>
      s.setAttr e (.pointingState "SLEW") (.slew pdata (.setTargetLock w))
        fun s => s.setStatusIfStow pdata .FAILED
  | .setTargetLock w =>
      s.setAttr e (.targetLock false) (.slew pdata (.loop w))
        fun s => s.setStatusIfStow pdata .FAILED
  | .loop w =>
      s.moveTo (if w.reached then .setTrackCoords pdata .smear
        else .slew pdata (.setAz (w.advance pdata)))
  | .setAz w =>
      s.setAttr e (.antennaAzPosition w.currentAz) (.slew pdata (.setEl w))
        fun s => s.setStatusIfStow pdata .FAILED
  | .setEl w =>
      { s with achievedPointing := if e.callSucceeds then (doubleUnixMSec e.now, w.currentAz, w.currentEl)
                else s.achievedPointing }.setAttr e (.antennaElPosition w.currentEl)
        (.slew pdata (.wait w)) fun s => s.setStatusIfStow pdata .FAILED
  | .wait w =>
      if s.stopThread || !s.trackingEnabled || e.timedOut then s.moveTo (.slew pdata (.stopCheck w))
      else s
  | .stopCheck w =>
      if s.stopThread || !s.trackingEnabled then
        (s.moveTo (.run .loop)).setStatusIfStow pdata .CANCELED
      else s.moveTo (.slew pdata (.loop w))

/-- The calls that end a stow, from the target lock to the mode. -/
def stowCalls : List DishCall :=
  .set (.targetLock false)
    :: DishAxis.all.map (fun axis => .set (.brakeState axis true))
    ++ DishAxis.all.map (fun axis => .set (.servoState axis false))
    ++ [.getPowerState fun label => if label = "FULL-POWER" then some "LOW-POWER" else none,
      .set (.pointingState "NONE"), .set (.operatingMode "STOW")]

/-- After the coordinates are set. -/
def afterReady (pdata : PointingData) : TrackingPoint :=
  if pdata.pntType = .eSTOW then .setTrackCoords pdata .disableTracking else .run .loop

/-- Nothing reports a failure before `disableTracking`. -/
def setTrackCoordsStep (props : TrackingProperties) (s : TrackingThread) (e : Turn)
    (pdata : PointingData) : TrackPoint → TrackingThread
  | .smear =>
      if pdata.pntType = .eSTOW then s.moveTo (.setTrackCoords pdata .setAz)
      else if props.smearPointingCoords then
        s.moveTo (.setTrackCoords
          { pdata with az := pdata.az + e.rand_az, el := pdata.el + e.rand_el } .setPointState)
      else s.moveTo (.setTrackCoords pdata .setPointState)
  | .setPointState =>
      s.setAttr e (.pointingState "TRACK") (.setTrackCoords pdata .setTargetLock) id
  | .setTargetLock => s.setAttr e (.targetLock true) (.setTrackCoords pdata .setAz) id
  | .setAz => s.setAttr e (.antennaAzPosition pdata.az) (.setTrackCoords pdata .setEl) id
  | .setEl =>
      { s with achievedPointing := if e.callSucceeds then (doubleUnixMSec e.now, pdata.az, pdata.el)
                else s.achievedPointing }.setAttr e (.antennaElPosition pdata.el)
        (.setTrackCoords pdata .queueCheck) id
  | .queueCheck =>
      s.moveTo (if s.schedule.isQueueEmpty then .setTrackCoords pdata .setReady
        else afterReady pdata)
  | .setReady => s.setAttr e (.pointingState "READY") (afterReady pdata) id
  | .disableTracking =>
      { s with trackingEnabled := false }.moveTo (.setTrackCoords pdata (.stow stowCalls))
  | .stow [] => (s.setStowStatus .COMPLETED).moveTo (.run .loop)
  | .stow (c :: rest) =>
      match c.answer s.attrs e.callSucceeds with
      | some (attrs, more) =>
          { s with attrs := attrs, pc := .setTrackCoords pdata (.stow (more ++ rest)) }
      | none => s.failed.setStowStatus .FAILED

def threadStep (props : TrackingProperties) (s : TrackingThread) (e : Turn) : TrackingThread :=
  match s.pc with
  | .run pt => s.runStep e pt
  | .slew pdata pt => slewStep props s e pdata pt
  | .setTrackCoords pdata pt => setTrackCoordsStep props s e pdata pt

/-- The thread before `Start`, with any schedule, attributes and status. -/
def initial (schedule : PointingSchedule) (attrs : DishAttrs) (stowProgress : ProgressStatus) :
    TrackingThread where
  schedule := schedule
  attrs := attrs
  stowProgress := stowProgress

def enableTracking (s : TrackingThread) : TrackingThread := { s with trackingEnabled := true }

def disableTracking (s : TrackingThread) : TrackingThread := { s with trackingEnabled := false }

/-- A step of the command thread in `stow`, from where it schedules the pointing. -/
def stowStep (props : TrackingProperties) (s : TrackingThread) : TrackingThread :=
  match s.stow with
  | .outside => { s.disableTracking with stow := .disabled, stowPops := some s.pops }
  | .disabled => { s with schedule := s.schedule.flushQueue, stow := .flushed }
  | .flushed =>
      match s.schedule.push (some (.new props.stowAzimuthPos props.stowElevationPos (-1) .eSTOW)) with
      | (schedule, status) =>
          if status < 0 then
            { s with schedule := schedule, stow := .outside }.setStowStatus .ABORTED
          else { s with schedule := schedule, stow := .pushed }
  | .pushed => { s.enableTracking with stow := .outside }

end TrackingThread

inductive TrackingInput where
  | thread (e : Turn)
  | stow
  | enableTracking
  | disableTracking
  | stop
  | flushQueue
  | push (data : PointingData)
  | pushAll (data : List PointingData)
  | setAttrs (attrs : DishAttrs)

namespace TrackingThread

def step (props : TrackingProperties) (s : TrackingThread) : TrackingInput → TrackingThread
  | .thread e => s.threadStep props e
  | .stow => s.stowStep props
  | .enableTracking => s.enableTracking
  | .disableTracking => s.disableTracking
  | .stop => { s with stopThread := true }
  | .flushQueue => { s with schedule := s.schedule.flushQueue }
  | .push data => { s with schedule := (s.schedule.push (some data)).1 }
  | .pushAll data => { s with schedule := (s.schedule.pushAll data).1 }
  | .setAttrs attrs => { s with attrs := attrs }

end TrackingThread

end DshLmc
