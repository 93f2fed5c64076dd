import DshLmc.Core.ConfigureTask
import DshLmc.Emulators.PointingSchedule

/-!
# Writing `desiredPointing`

A write gives a time and coordinates, or polynomials of the time since. The device expands a
polynomial into points, corrects them by the pointing model and pushes them on the schedule, then
sets what a read of the attribute returns. The correction is a parameter. Times are milliseconds.
-/

namespace DshLmc

/-- The exceptions of `write_desiredPointing`, all with the reason `WRITE_DESIRED_POINTING_FAILED`. -/
inductive DesiredPointingError where
  | modeNotRead
  | modeForbidden (operatingMode : Int)
  | tooFewEntries (n : Nat)
  | evenEntries (n : Nat)
  | timePassed (t0 now : Rat)
  | notCorrected
  | singleNotAdded
  | pol1NotAdded
  | pol2NotAdded
  | invalidArguments
deriving DecidableEq

namespace DesiredPointingError

def reason : String := "WRITE_DESIRED_POINTING_FAILED"

/-- The description of the exception. How a `double` is printed is a parameter. -/
def desc (print : Rat → String) : DesiredPointingError → String
  | .modeNotRead => "Failed to get attr operatingMode value!"
  | .modeForbidden operatingMode =>
      "Setting pointing coordinates in mode " ++ toString operatingMode
        ++ " is forbidden (hint: set DS point mode)!"
  | .tooFewEntries n =>
      "Invalid number of entries given (n=" ++ toString n ++ "), at least 3 required!"
  | .evenEntries n =>
      "Invalid number of entries given (n=" ++ toString n
        ++ "), an odd number of entries is required!"
  | .timePassed t0 now =>
      "Given timestamp (t(ms)=" ++ print t0 ++ ") is invalid or has passed (now(ms)=" ++ print now
        ++ ", dt(ms)=" ++ print (t0 - now) ++ ")"
  | .notCorrected => "Failed to correct pointing coordinates (check correction pars)!"
  | .singleNotAdded =>
      "Failed to add single pointing data to queue (hint: check if queue is full)"
  | .pol1NotAdded =>
      "Failed to add pointing data to queue expanded from pol1 pnt polynomial (hint: check if queue is full)"
  | .pol2NotAdded =>
      "Failed to add pointing data to queue expanded from pol2 pnt polynomial (hint: check if queue is full)"
  | .invalidArguments => "Invalid number of arguments given (this should not occur)!"

end DesiredPointingError

/-- What `write_desiredPointing` reads and writes of the device. An attribute that cannot be read is
`none`. -/
structure DesiredPointing where
  operatingMode : Option Int
  /-- The labels of `operatingMode`. -/
  enum_labels : List String
  pointingModelParams : Option (List Rat)
  trackProgramMaxSize : Int
  trackProgramTimeStep : Rat
  schedule : PointingSchedule
  attr_desiredPointing_read : List Rat
deriving DecidableEq

/-- Corrected azimuth and elevation, by the parameters of the model. -/
abbrev PointingCorrection := List Rat → Rat → Rat → Rat × Rat

namespace DesiredPointing

variable (correction : PointingCorrection)

def correctPointingData (pData : PointingData) (p : List Rat) : PointingData :=
  { pData with az := (correction p pData.az pData.el).1, el := (correction p pData.az pData.el).2 }

/-- The points, corrected in place, and what it returns. -/
def correctPointingDataList (d : DesiredPointing) (pDataList : List PointingData) :
    List PointingData × Int :=
  let nPars := 9
  if pDataList.isEmpty then (pDataList, 0)
  else
    match d.pointingModelParams with
    | none => (pDataList, -1)
    | some corrPars =>
        if corrPars.length < nPars then (pDataList, -1)
        else (pDataList.map fun pData => correctPointingData correction pData corrPars, 0)

/-- The loop that expands a polynomial: the points, and the time that it ends with. -/
def expand (coords : Rat → Rat × Rat) (timeStep : Rat) : Nat → Rat → List PointingData × Rat
  | 0, t => ([], t)
  | i + 1, t =>
      let rest := expand coords timeStep i (t + timeStep)
      (.new (coords t).1 (coords t).2 t .eTRACK_PROGRAM :: rest.1, rest.2)

/-- `attr_desiredPointing_read[i]= values[i]`. -/
def setRead (d : DesiredPointing) (values : List Rat) : DesiredPointing :=
  { d with
    attr_desiredPointing_read := values ++ d.attr_desiredPointing_read.drop values.length }

/-- The branch for single coordinates. -/
def writeSingle (d : DesiredPointing) (t Az_t El_t : Rat) :
    DesiredPointing × Option DesiredPointingError :=
  let pData := PointingData.new Az_t El_t t .eTRACK_PROGRAM
  let corrected := d.correctPointingDataList correction [pData]
  if corrected.2 < 0 then (d, some .notCorrected)
  else
    let pushed := d.schedule.push corrected.1.head?
    let d := { d with schedule := pushed.1 }
    if pushed.2 < 0 then (d, some .singleNotAdded) else (d.setRead [t, Az_t, El_t], none)

/-- The branches for polynomials. The coefficients are what is read back after the time. -/
def writePolynomial (d : DesiredPointing) (coords : Rat → Rat × Rat) (t0 : Rat)
    (coefficients : List Rat) (notAdded : DesiredPointingError) :
    DesiredPointing × Option DesiredPointingError :=
  let expanded := expand coords d.trackProgramTimeStep d.trackProgramMaxSize.toNat t0
  let corrected := d.correctPointingDataList correction expanded.1
  if corrected.2 < 0 then (d, some .notCorrected)
  else
    let pushed := d.schedule.pushAll corrected.1
    let d := { d with schedule := pushed.1 }
    if pushed.2 < 0 then (d, some notAdded)
    else
      -- The loop variable, which is past the last point here.
      let t := expanded.2
      (d.setRead (t :: coefficients), none)

/-- "PUSH COORDINATES TO QUEUE": the branches, by what follows the coordinates. -/
def pushCoordinates (d : DesiredPointing) (t0 Az El : Rat) :
    List Rat → DesiredPointing × Option DesiredPointingError
  | [] => d.writeSingle correction t0 Az El
  | [p_Az, p_El] =>
      d.writePolynomial correction (fun t => (Az + p_Az * (t - t0), El + p_El * (t - t0))) t0
        [Az, El, p_Az, p_El] .pol1NotAdded
  | [p_Az, p_El, p2_Az, p2_El] =>
      d.writePolynomial correction
        (fun t =>
          (Az + p_Az * (t - t0) + p2_Az * (t - t0) * (t - t0),
            El + p_El * (t - t0) + p2_El * (t - t0) * (t - t0)))
        t0 [Az, El, p_Az, p_El, p2_Az, p2_El] .pol2NotAdded
  | _ => (d, some .invalidArguments)

/-- The device after the write, and the exception. -/
def write_desiredPointing (d : DesiredPointing) (now : Rat) (w_val : List Rat) :
    DesiredPointing × Option DesiredPointingError :=
  let w_length := w_val.length
  match d.operatingMode with
  | none => (d, some .modeNotRead)
  | some operatingMode =>
      let operatingMode_point := TangoUtils.getEnumAttrValue d.enum_labels "POINT"
      if operatingMode ≠ operatingMode_point then (d, some (.modeForbidden operatingMode))
      else if w_length < 3 then (d, some (.tooFewEntries w_length))
      -- The remainder binds more strongly than the difference.
      else if (w_length : Int) - 1 % 2 = 1 then (d, some (.evenEntries w_length))
      else
        match w_val with
        | t0 :: Az :: El :: rest =>
            if t0 > 0 ∧ (t0 < 0 ∨ t0 ≤ now) then (d, some (.timePassed t0 now))
            else d.pushCoordinates correction t0 Az El rest
        | _ => (d, some .invalidArguments)

end DesiredPointing

end DshLmc
