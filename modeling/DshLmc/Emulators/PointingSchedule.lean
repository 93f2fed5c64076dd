import DshLmc.Library.OrderedSet
import DshLmc.Utils.YatTime

/-!
# The pointing schedule

The pointings that are to be executed are in a `std::set`, whose comparator looks at the time only.
Times are milliseconds. A pointing with a negative time is executed at once. When another one is due,
`Pop` finds out by a difference of doubles of seconds.
-/

namespace DshLmc

inductive PointingType where
  | eSTOW
  | eTRACK_PROGRAM
  | eSCAN
deriving DecidableEq

/-- The time stamp is the seconds that are handed to `set_double_unix`, or empty. -/
structure PointingData where
  az : Rat
  el : Rat
  t : Rat
  timestamp : Option Rat
  dt : Rat
  pntType : PointingType
deriving DecidableEq

namespace PointingData

/-- The constructor with parameters. The time stamp stays empty unless the time is positive. -/
def new (az el t : Rat) (pntType : PointingType) : PointingData where
  az := az
  el := el
  t := t
  timestamp := if t > 0 then some (roundDouble (t / 1000)) else none
  dt := 0
  pntType := pntType

def sorter (d1 d2 : PointingData) : Bool := d1.t < d2.t

/-- How far an entry is ahead of the clock, as `Pop` computes it. An empty time stamp is the Unix
origin. -/
def tdiff_ms (set_double_unix : Rat → Time) (now : Time) (d : PointingData) : Rat :=
  if d.t ≥ 0 then
    let timestamp := (d.timestamp.map set_double_unix).getD 0
    roundDouble (TangoUtils.getYatTimeDiffUSec now timestamp / 1000)
  else 0

end PointingData

structure PointingSchedule where
  pointingQueue : List PointingData := []
  maxQueueSize : Int := 100
  expiredTimeThr : Int := 100
deriving DecidableEq

namespace PointingSchedule

def is_queue_full (s : PointingSchedule) : Bool := s.pointingQueue.length ≥ s.maxQueueSize

def isQueueEmpty (s : PointingSchedule) : Bool := s.pointingQueue.isEmpty

def hasEntriesInQueue (s : PointingSchedule) : Bool := !s.pointingQueue.isEmpty

def insert (s : PointingSchedule) (data : PointingData) : PointingSchedule :=
  { s with pointingQueue := linearInsert PointingData.sorter data s.pointingQueue }

/-- `Push` of an entry, and the status that it returns. -/
def push (s : PointingSchedule) : Option PointingData → PointingSchedule × Int
  | none => (s, -1)
  | some data =>
      if s.is_queue_full ∧ data.pntType ≠ .eSTOW then (s, -1) else (s.insert data, 0)

/-- `Push` of a list. -/
def pushAll (s : PointingSchedule) (data : List PointingData) : PointingSchedule × Int :=
  if data = [] then (s, -1)
  else if (data.length : Int) + s.pointingQueue.length ≥ s.maxQueueSize then (s, -1)
  else (data.foldl insert s, 0)

def flushQueue (s : PointingSchedule) : PointingSchedule := { s with pointingQueue := [] }

/-- `Pop` at a time, with the entry that it hands out and the status that it returns. -/
def pop (set_double_unix : Rat → Time) (s : PointingSchedule) (now : Time) :
    PointingSchedule × Option PointingData × Int :=
  match s.pointingQueue with
  | [] => (s, none, -1)
  | first :: rest =>
      let tdiff_ms := first.tdiff_ms set_double_unix now
      if tdiff_ms ≤ 0 then
        if |tdiff_ms| < s.expiredTimeThr then
          ({ s with pointingQueue := rest }, some { first with dt := -tdiff_ms }, 0)
        else ({ s with pointingQueue := rest }, none, -1)
      else (s, none, 1)

/-- A stow is never refused, whatever the quota. -/
theorem push_stow (s : PointingSchedule) {data : PointingData} (h : data.pntType = .eSTOW) :
    s.push (some data) = (s.insert data, 0) := by
  rw [push, if_neg]
  exact fun hfull => hfull.2 h

end PointingSchedule

end DshLmc
