import DshLmc.Library.Json
import DshLmc.Utils.TangoProxyHelper

/-!
# What a proxy helper reports

The time since a proxy is in its run status, the object that the information on a proxy is written
from, and the size of the window of its ping times.
-/

namespace DshLmc

namespace TangoProxyHelper

def getTimeElapsed (helper : TangoProxyHelper) (now : Rat) : Rat :=
  match helper.m_timer with
  | none => 0
  | some start => now - start

/-- `GetProxyInfoInJson`, up to the text of the object. The texts of the timestamp are arguments, and
so is what the timeout itself computes. -/
def getProxyInfoInJson (helper : TangoProxyHelper) (timestamp_local timestamp_utc : String)
    (time_to_expiration : ActionTimeout → Rat → Int) (now : Rat) : Json.Members Rat :=
  let offlineExpirationTime :=
    match helper.m_downtimeActionTimeout with
    | some timeout => if timeout.enabled then time_to_expiration timeout now else -1
    | none => -1
  let root : Json.Members Rat := []
  let root := root.set "timestamp_local" (.string timestamp_local)
  let root := root.set "timestamp_utc" (.string timestamp_utc)
  let root := root.set "status" (.string helper.m_status)
  let root := root.set "state" (.int helper.m_state.toNat)
  let root := root.set "ping_time" (.int helper.m_ping_time)
  let root := root.set "ping_time_avg" (.real helper.m_ping_time_avg)
  let root := root.set "timeElapsedInRunStatus" (.real (helper.getTimeElapsed now))
  root.set "offlineExpirationTime" (.int offlineExpirationTime)

def setMaxPingTimeBufferSize (helper : TangoProxyHelper) (bufsize : Int) : TangoProxyHelper :=
  { helper with m_max_buffer_size := bufsize }

theorem timeElapsedInRunStatus_eq (helper : TangoProxyHelper)
    (timestamp_local timestamp_utc : String) (time_to_expiration : ActionTimeout → Rat → Int)
    (now : Rat) :
    (helper.getProxyInfoInJson timestamp_local timestamp_utc time_to_expiration now).get?
      "timeElapsedInRunStatus" = some (.real (helper.getTimeElapsed now)) := by
  rw [getProxyInfoInJson, Json.Members.get?_set, if_neg (by decide), Json.Members.get?_set,
    if_pos rfl]

end TangoProxyHelper

end DshLmc
