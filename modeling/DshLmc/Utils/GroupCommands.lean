import DshLmc.Utils.TangoProxyManager

/-!
# Commands for a group of proxies

The five overloads of `ExecuteGroupCommandsAsynch` send a list of commands without waiting, then ask
for the replies that have not come yet, in a number of rounds. What the proxies do is outside: which
identifier a command gets, in which round its reply can first be had, and what the reply is.
-/

namespace DshLmc

open Tango

abbrev DeviceData := CorbaAny

/-- The proxies while a group of commands is executed. A command that cannot be sent raises. -/
structure AsynchProxies where
  /-- The identifier for a command of a proxy, which is at a place in the list of requests. -/
  command_inout_asynch : String → String → Option DeviceData → Nat → Except DevFailed Int
  /-- The first round in which asking for a reply, with a timeout, does not raise
  `AsynReplyNotArrived`. -/
  arrival : String → Int → Int → Option Nat

/-- What each proxy answers to the command of an identifier, which may be an exception. -/
abbrev Outcomes := String → Int → Except DevFailed DeviceData

inductive ReplyState where
  | notArrived
  | failed (e : DevFailed)
  | arrived (reply_data : DeviceData)

structure GroupRequest where
  proxy_name : String
  cmd_name : String
  din : Option DeviceData

/-- A command that was sent, with its entry of `is_reply_arrived`. -/
structure AsynchRequest where
  proxy_name : String
  async_cmd_id : Int
  is_reply_arrived : Bool
deriving DecidableEq

namespace TangoProxyManager

variable (sys : AsynchProxies) (outcome : Outcomes) (mgr : TangoProxyManager)

/-- `GetAsynchCommandReply` in the round `k`. -/
def getAsynchCommandReply (r : AsynchRequest) (timeout : Int) (k : Nat) : ReplyState :=
  match sys.arrival r.proxy_name r.async_cmd_id timeout with
  | none => .notArrived
  | some arrival =>
      if k < arrival then .notArrived
      else match outcome r.proxy_name r.async_cmd_id with
        | .error e => .failed e
        | .ok reply_data => .arrived reply_data

/-- The loop that sends. The first command that raises ends it. -/
@[grind =]
def sendGroup : List GroupRequest → Nat → Except DevFailed (List AsynchRequest)
  | [], _ => .ok []
  | req :: reqs, i =>
      match sys.command_inout_asynch req.proxy_name req.cmd_name req.din i with
      | .error e => .error e
      | .ok cmd_id =>
          (sendGroup reqs (i + 1)).map fun async_cmds =>
            { proxy_name := req.proxy_name, async_cmd_id := cmd_id, is_reply_arrived := false }
              :: async_cmds

/-- The variables of the loops that collect. -/
structure Collected where
  async_cmds : List AsynchRequest
  dout : List DeviceData
  nreplies : Nat

/-- One round: a reply that comes is put at the end of `dout`. -/
@[grind =]
def collectRound (reply_timeout : Int) (k : Nat) :
    List AsynchRequest → List DeviceData → Nat → Except DevFailed Collected
  | [], dout, nreplies => .ok { async_cmds := [], dout, nreplies }
  | r :: rs, dout, nreplies =>
      if r.is_reply_arrived then
        (collectRound reply_timeout k rs dout nreplies).map fun c =>
          { c with async_cmds := r :: c.async_cmds }
      else match getAsynchCommandReply sys outcome r reply_timeout k with
        | .notArrived =>
            (collectRound reply_timeout k rs dout nreplies).map fun c =>
              { c with async_cmds := r :: c.async_cmds }
        | .failed e => .error e
        | .arrived reply_data =>
            (collectRound reply_timeout k rs (dout ++ [reply_data]) (nreplies + 1)).map fun c =>
              { c with async_cmds := { r with is_reply_arrived := true } :: c.async_cmds }

/-- The rounds from the round `k` on. -/
@[grind =]
def collectRounds (reply_timeout : Int) : Nat → Nat → Collected → Except DevFailed Collected
  | 0, _, c => .ok c
  | fuel + 1, k, c =>
      if c.nreplies = c.async_cmds.length then .ok c
      else match collectRound sys outcome reply_timeout k c.async_cmds c.dout c.nreplies with
        | .error e => .error e
        | .ok c => collectRounds reply_timeout fuel (k + 1) c

def groupFailed (desc : String) : DevFailed :=
  { reason := "EXECUTE_GROUP_COMMANDS_ASYNCH_FAILED", desc }

def notAllReplied (c : Collected) : DevFailed :=
  groupFailed ("Failed to retrieve responses (timeout) from proxies (nreplies="
    ++ toString c.nreplies ++ "!= async_cmd_ids=" ++ toString c.async_cmds.length ++ ")!")

/-- What all overloads do once they have their helpers. -/
@[grind =]
def executeRequests (requests : List GroupRequest) (reply_timeout nretries : Int)
    (dout : List DeviceData) : Except DevFailed (List DeviceData) :=
  match sendGroup sys requests 0 with
  | .error e => .error e
  | .ok async_cmds =>
      match collectRounds sys outcome reply_timeout nretries.toNat 0
          { async_cmds, dout, nreplies := 0 } with
      | .error e => .error e
      | .ok c =>
          if c.nreplies = c.async_cmds.length then .ok c.dout else .error (notAllReplied c)

def noProxyHelper (proxy_name : String) : DevFailed :=
  groupFailed ("Cannot retrieve proxy helper " ++ proxy_name
    ++ " (check if registered or if valid name is given (should be FQDN)!)")

/-- The loop that looks for the helpers. -/
def findProxyHelpers : List String → Except DevFailed Unit
  | [] => .ok ()
  | proxy_name :: proxy_names =>
      match mgr.findProxyHelper proxy_name with
      | none => .error (noProxyHelper proxy_name)
      | some _ => findProxyHelpers proxy_names

def executeCommandsOnProxy (dout : List DeviceData) (proxy_name : String) (cmd_names : List String)
    (din : List DeviceData) (reply_timeout nretries : Int) : Except DevFailed (List DeviceData) :=
  if cmd_names.length ≠ din.length then
    .error (groupFailed "Command argin list size different from proxy list size!")
  else match mgr.findProxyHelper proxy_name with
    | none => .error (noProxyHelper proxy_name)
    | some _ =>
        executeRequests sys outcome (List.zipWith (fun cmd_name argin =>
          { proxy_name, cmd_name, din := some argin }) cmd_names din) reply_timeout nretries dout

def executeCommandsOnProxies (dout : List DeviceData) (proxy_names cmd_names : List String)
    (din : List DeviceData) (reply_timeout nretries : Int) : Except DevFailed (List DeviceData) :=
  if cmd_names.length ≠ proxy_names.length then
    .error (groupFailed "Command list size different from proxy list size!")
  else if din.length ≠ proxy_names.length then
    .error (groupFailed "Command argument data list size different from proxy list size!")
  else match findProxyHelpers mgr proxy_names with
    | .error e => .error e
    | .ok () =>
        executeRequests sys outcome (List.zipWith (fun proxy_name (cmd_name, argin) =>
          { proxy_name, cmd_name, din := some argin }) proxy_names (cmd_names.zip din))
          reply_timeout nretries dout

def executeCommandOnProxies (dout : List DeviceData) (proxy_names : List String) (cmd_name : String)
    (din : DeviceData) (reply_timeout nretries : Int) : Except DevFailed (List DeviceData) :=
  executeCommandsOnProxies sys outcome mgr dout proxy_names (proxy_names.map fun _ => cmd_name)
    (proxy_names.map fun _ => din) reply_timeout nretries

def executeVoidCommandsOnProxies (dout : List DeviceData) (proxy_names cmd_names : List String)
    (reply_timeout nretries : Int) : Except DevFailed (List DeviceData) :=
  if cmd_names.length ≠ proxy_names.length then
    .error (groupFailed "Command list size different from proxy list size!")
  else match findProxyHelpers mgr proxy_names with
    | .error e => .error e
    | .ok () =>
        executeRequests sys outcome (List.zipWith (fun proxy_name cmd_name =>
          { proxy_name, cmd_name, din := none }) proxy_names cmd_names) reply_timeout nretries dout

def executeVoidCommandOnProxies (dout : List DeviceData) (proxy_names : List String)
    (cmd_name : String) (reply_timeout nretries : Int) : Except DevFailed (List DeviceData) :=
  executeVoidCommandsOnProxies sys outcome mgr dout proxy_names (proxy_names.map fun _ => cmd_name)
    reply_timeout nretries

end TangoProxyManager

end DshLmc
