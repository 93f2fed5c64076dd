import DshLmc.Library.Run
import DshLmc.Monitoring.NagiosListenerThread

/-!
# The loop of the Nagios listener

Each round of the loop makes one call on the socket: it writes one of the two subscribe commands, or it
reads. After some failures it resets the socket and begins again. What the socket answers in a round is
the input of the round.
-/

namespace DshLmc

/-- `Utils_ns::SBuffer`. The size is that of the text with its null character. -/
structure SBuffer where
  data : String
  size : Nat
deriving DecidableEq

def serviceCheckSubscribeCmd : SBuffer := ⟨"@nerd subscribe servicechecks", 30⟩
def hostCheckSubscribeCmd : SBuffer := ⟨"@nerd subscribe hostchecks", 27⟩

/-! `SocketClient::SocketStatus`. -/

def eConnectionClosed : Int := 0
def eConnectionReset : Int := -1
def eConnectionTimedOut : Int := -2

/-- What `SocketClient::Read` returns, with the bytes it puts in the buffer. -/
inductive ReadResult where
  | failed
  | timedOut
  | bytes (buffer : List Char)
deriving DecidableEq

def ReadResult.nbytes : ReadResult → Int
  | .failed => eConnectionReset
  | .timedOut => eConnectionTimedOut
  | .bytes buffer => buffer.length

/-- The calls of the loop on the socket, with what they returned. -/
inductive SocketCall where
  | write (cmd : SBuffer) (recvBytes : Int)
  | read (result : ReadResult)
  | reset
deriving DecidableEq

/-- Why the loop is over. -/
inductive ThreadEnd where
  | stopped
  | exception
deriving DecidableEq

structure NagiosListener where
  isSubscribedToHostChecks : Bool
  isSubscribedToServiceChecks : Bool
  ended : Option ThreadEnd
  /-- The calls so far. -/
  calls : List SocketCall

/-- What a round finds: the stop flag, what a `Write` returns, and what a `Read` returns. -/
structure NagiosRound where
  isStopped : Bool
  write : Int
  read : ReadResult

namespace NagiosListener

def initial : NagiosListener := ⟨false, false, none, []⟩

def call (s : NagiosListener) (c : SocketCall) : NagiosListener := { s with calls := s.calls ++ [c] }

/-- What is done about a broken connection. -/
def reset (s : NagiosListener) : NagiosListener :=
  { s with
    isSubscribedToServiceChecks := false
    isSubscribedToHostChecks := false
    calls := s.calls ++ [.reset] }

/-- The writing of a subscribe command. `subscribed` sets the flag that goes with it. -/
def subscribe (s : NagiosListener) (cmd : SBuffer) (subscribed : NagiosListener → NagiosListener)
    (recvBytes : Int) : NagiosListener :=
  if recvBytes > 0 then subscribed (s.call (.write cmd recvBytes))
  else if recvBytes ≠ eConnectionTimedOut then (s.call (.write cmd recvBytes)).reset
  else s.call (.write cmd recvBytes)

/-- What is done with the result of `Read`. An exception that `ProcessEvent` throws ends the thread. -/
def readSocket (s : NagiosListener) (result : ReadResult) : NagiosListener :=
  if result.nbytes < 0 then
    if result.nbytes ≠ eConnectionTimedOut then (s.call (.read result)).reset
    else s.call (.read result)
  else
    match result with
    | .bytes msg =>
        match processEvent msg with
        | .throws => { s.call (.read result) with ended := some .exception }
        | _ => s.call (.read result)
    | _ => s.call (.read result)

/-- A round of `run_undetached`. -/
def step (s : NagiosListener) (round : NagiosRound) : NagiosListener :=
  if s.ended ≠ none then s
  else if round.isStopped then { s with ended := some .stopped }
  else if !s.isSubscribedToHostChecks then
    s.subscribe hostCheckSubscribeCmd ({ · with isSubscribedToHostChecks := true }) round.write
  else if !s.isSubscribedToServiceChecks then
    s.subscribe serviceCheckSubscribeCmd ({ · with isSubscribedToServiceChecks := true }) round.write
  else s.readSocket round.read

end NagiosListener

end DshLmc
