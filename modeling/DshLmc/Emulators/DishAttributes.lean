import Mathlib.Data.Rat.Defs

/-!
# The attributes of the emulated dish

The tracking thread and the tasks of the dish write the same dynamic attributes, through
`SetDynAttrValue` and `SetSMDynAttrValue`, which may fail. The states and the mode are labels of
enumerations that the configuration lists. A long command reports how far it is in a progress
attribute of its own.
-/

namespace DshLmc

inductive ProgressStatus where
  | INIT
  | IDLE
  | RUNNING
  | COMPLETED
  | FAILED
  | ABORTED
  | CANCELED
deriving DecidableEq

namespace ProgressStatus

/-- A command is refused while its own progress is this. -/
def isBusy (status : ProgressStatus) : Bool := status == .RUNNING || status == .IDLE

/-- What a stow ends with. -/
def isTerminal (status : ProgressStatus) : Bool :=
  status == .COMPLETED || status == .FAILED || status == .CANCELED

end ProgressStatus

/-- The axes that have a brake and a servo, in the order of `brakeState_attr_names`. -/
inductive DishAxis where
  | indexer
  | azimuth
  | elevation
deriving DecidableEq

def DishAxis.all : List DishAxis := [.indexer, .azimuth, .elevation]

structure DishAttrs where
  antennaAzPosition : Rat
  antennaElPosition : Rat
  targetLock : Bool
  brakeState : DishAxis → Bool
  servoState : DishAxis → Bool
  powerState : String
  pointingState : String
  operatingMode : String
  indexerPosition : Int

inductive AttrWrite where
  | antennaAzPosition (value : Rat)
  | antennaElPosition (value : Rat)
  | targetLock (value : Bool)
  | brakeState (axis : DishAxis) (value : Bool)
  | servoState (axis : DishAxis) (value : Bool)
  | powerState (label : String)
  | pointingState (label : String)
  | operatingMode (label : String)
  | indexerPosition (value : Int)

def DishAttrs.write (attrs : DishAttrs) : AttrWrite → DishAttrs
  | .antennaAzPosition value => { attrs with antennaAzPosition := value }
  | .antennaElPosition value => { attrs with antennaElPosition := value }
  | .targetLock value => { attrs with targetLock := value }
  | .brakeState axis value =>
      { attrs with brakeState := fun a => if a = axis then value else attrs.brakeState a }
  | .servoState axis value =>
      { attrs with servoState := fun a => if a = axis then value else attrs.servoState a }
  | .powerState label => { attrs with powerState := label }
  | .pointingState label => { attrs with pointingState := label }
  | .operatingMode label => { attrs with operatingMode := label }
  | .indexerPosition value => { attrs with indexerPosition := value }

/-- A call in a row of calls of which the first that fails ends the row. The power state is read
first, and the label says what to write. -/
inductive DishCall where
  | set (w : AttrWrite)
  | getPowerState (label : String → Option String)

/-- The attributes that a call leaves and the calls that it adds to the row, unless it fails. -/
def DishCall.answer (c : DishCall) (attrs : DishAttrs) (succeeds : Bool) :
    Option (DishAttrs × List DishCall) :=
  match c, succeeds with
  | _, false => none
  | .set w, true => some (attrs.write w, [])
  | .getPowerState label, true =>
      some (attrs, (label attrs.powerState).toList.map fun l => .set (.powerState l))

end DshLmc
