import Mathlib.Data.List.Basic
import DshLmc.Library.Rounds
import DshLmc.Utils.GroupCommands

/-!
# The replies of a group of commands

The collecting loops put a reply at the end of the output when it comes, so the output is ordered by
the rounds of the replies. It is ordered as the requests are when no reply comes in an earlier round
than the reply of a request before it.
-/

namespace DshLmc

namespace TangoProxyManager

inductive GroupCall where
  | commandsOnProxy (proxy_name : String) (cmd_names : List String) (din : List DeviceData)
  | commandsOnProxies (proxy_names cmd_names : List String) (din : List DeviceData)
  | commandOnProxies (proxy_names : List String) (cmd_name : String) (din : DeviceData)
  | voidCommandsOnProxies (proxy_names cmd_names : List String)
  | voidCommandOnProxies (proxy_names : List String) (cmd_name : String)

namespace GroupCall

variable (sys : AsynchProxies) (outcome : Outcomes) (mgr : TangoProxyManager)
  (reply_timeout nretries : Int)

@[grind =]
def execute : GroupCall → Except DevFailed (List DeviceData)
  | commandsOnProxy proxy_name cmd_names din =>
      executeCommandsOnProxy sys outcome mgr [] proxy_name cmd_names din reply_timeout nretries
  | commandsOnProxies proxy_names cmd_names din =>
      executeCommandsOnProxies sys outcome mgr [] proxy_names cmd_names din reply_timeout nretries
  | commandOnProxies proxy_names cmd_name din =>
      executeCommandOnProxies sys outcome mgr [] proxy_names cmd_name din reply_timeout nretries
  | voidCommandsOnProxies proxy_names cmd_names =>
      executeVoidCommandsOnProxies sys outcome mgr [] proxy_names cmd_names reply_timeout nretries
  | voidCommandOnProxies proxy_names cmd_name =>
      executeVoidCommandOnProxies sys outcome mgr [] proxy_names cmd_name reply_timeout nretries

@[grind =]
def requests : GroupCall → List GroupRequest
  | commandsOnProxy proxy_name cmd_names din =>
      List.zipWith (fun cmd_name argin => ⟨proxy_name, cmd_name, some argin⟩) cmd_names din
  | commandsOnProxies proxy_names cmd_names din =>
      List.zipWith (fun proxy_name (cmd_name, argin) => ⟨proxy_name, cmd_name, some argin⟩)
        proxy_names (cmd_names.zip din)
  | commandOnProxies proxy_names cmd_name din =>
      proxy_names.map fun proxy_name => ⟨proxy_name, cmd_name, some din⟩
  | voidCommandsOnProxies proxy_names cmd_names =>
      List.zipWith (fun proxy_name cmd_name => ⟨proxy_name, cmd_name, none⟩) proxy_names cmd_names
  | voidCommandOnProxies proxy_names cmd_name =>
      proxy_names.map fun proxy_name => ⟨proxy_name, cmd_name, none⟩

@[grind =]
def Accepted : GroupCall → Prop
  | commandsOnProxy proxy_name cmd_names din =>
      cmd_names.length = din.length ∧ (mgr.findProxyHelper proxy_name).isSome
  | commandsOnProxies proxy_names cmd_names din =>
      cmd_names.length = proxy_names.length ∧ din.length = proxy_names.length
        ∧ ∀ proxy_name ∈ proxy_names, (mgr.findProxyHelper proxy_name).isSome
  | voidCommandsOnProxies proxy_names cmd_names =>
      cmd_names.length = proxy_names.length
        ∧ ∀ proxy_name ∈ proxy_names, (mgr.findProxyHelper proxy_name).isSome
  | commandOnProxies proxy_names _ _ | voidCommandOnProxies proxy_names _ =>
      ∀ proxy_name ∈ proxy_names, (mgr.findProxyHelper proxy_name).isSome

def asyncCmdId (call : GroupCall) (i : Nat) : Option Int :=
  call.requests[i]?.bind fun req =>
    (sys.command_inout_asynch req.proxy_name req.cmd_name req.din i).toOption

def replyRound (call : GroupCall) (i : Nat) : Option Nat :=
  call.requests[i]?.bind fun req =>
    (call.asyncCmdId sys i).bind fun cmd_id => sys.arrival req.proxy_name cmd_id reply_timeout

/-- A call that returns has put the reply of each request at the place of the request. -/
def LinesUp (call : GroupCall) : Prop :=
  ∀ outcome dout, call.execute sys outcome mgr reply_timeout nretries = .ok dout →
    dout.length = call.requests.length
      ∧ ∀ i req, call.requests[i]? = some req →
        ∃ cmd_id reply, call.asyncCmdId sys i = some cmd_id
          ∧ outcome req.proxy_name cmd_id = .ok reply ∧ dout[i]? = some reply

/-- If all replies come within the rounds of the call, none comes in an earlier round than the reply
of a request before it. -/
def RepliesInTurn (call : GroupCall) : Prop :=
  call.Accepted mgr →
  (∀ i < call.requests.length, ∃ k, call.replyRound sys reply_timeout i = some k ∧ k < nretries) →
  ∀ i j k l, i < j → call.replyRound sys reply_timeout i = some k →
    call.replyRound sys reply_timeout j = some l → k ≤ l

end GroupCall

section Sending

variable {sys : AsynchProxies}

theorem map_eq_ok_iff {α β : Type*} {x : Except DevFailed α} {f : α → β} {b : β} :
    x.map f = .ok b ↔ ∃ a, x = .ok a ∧ f a = b := by
  cases x with
  | error e => simp [Except.map]
  | ok a => simp [Except.map]

theorem sendGroup_eq_ok_iff {reqs : List GroupRequest} {i : Nat} {sent : List AsynchRequest} :
    sendGroup sys reqs i = .ok sent ↔
      sent.length = reqs.length ∧ ∀ j req, reqs[j]? = some req →
        ∃ cmd_id, sys.command_inout_asynch req.proxy_name req.cmd_name req.din (i + j) = .ok cmd_id
          ∧ sent[j]? = some ⟨req.proxy_name, cmd_id, false⟩ := by
  induction reqs generalizing i sent with
  | nil =>
      rw [sendGroup, Except.ok.injEq, eq_comm]
      simp
  | cons req reqs ih =>
      rw [sendGroup]
      cases hcmd : sys.command_inout_asynch req.proxy_name req.cmd_name req.din i with
      | error e =>
          simp only [reduceCtorEq, false_iff, not_and, not_forall]
          intro _
          refine ⟨0, req, rfl, ?_⟩
          simp [hcmd]
      | ok cmd_id =>
          simp only [map_eq_ok_iff, ih]
          constructor
          · rintro ⟨rest, ⟨hlength, hrest⟩, rfl⟩
            refine ⟨by simp [hlength], fun j req' hj => ?_⟩
            cases j with
            | zero =>
                obtain rfl : req = req' := by simpa using hj
                exact ⟨cmd_id, hcmd, rfl⟩
            | succ j =>
                obtain ⟨cmd_id', hsent, hentry⟩ := hrest j req' (by simpa using hj)
                exact ⟨cmd_id', by rwa [Nat.add_assoc, Nat.add_comm 1] at hsent, by simpa using hentry⟩
          · rintro ⟨hlength, hall⟩
            cases sent with
            | nil => simp at hlength
            | cons r rest =>
                obtain ⟨cmd_id', hcmd', hr⟩ := hall 0 req rfl
                rw [Nat.add_zero, hcmd, Except.ok.injEq] at hcmd'
                obtain rfl : r = ⟨req.proxy_name, cmd_id, false⟩ := by simpa [hcmd'] using hr
                refine ⟨rest, ⟨by simpa using hlength, fun j req' hj => ?_⟩, rfl⟩
                obtain ⟨cmd_id'', hsent, hentry⟩ := hall (j + 1) req' (by simpa using hj)
                exact ⟨cmd_id'', by rwa [Nat.add_assoc, Nat.add_comm 1], by simpa using hentry⟩

theorem exists_sendGroup {reqs : List GroupRequest} {i : Nat}
    (h : ∀ j req, reqs[j]? = some req →
      ∃ cmd_id, sys.command_inout_asynch req.proxy_name req.cmd_name req.din (i + j) = .ok cmd_id) :
    ∃ sent, sendGroup sys reqs i = .ok sent := by
  induction reqs generalizing i with
  | nil => exact ⟨[], rfl⟩
  | cons req reqs ih =>
      obtain ⟨cmd_id, hcmd⟩ := h 0 req rfl
      obtain ⟨sent, hsent⟩ := @ih (i + 1) fun j req' hj => by
        rw [Nat.add_assoc, Nat.add_comm 1]
        exact h (j + 1) req' (by simpa using hj)
      rw [Nat.add_zero] at hcmd
      refine ⟨⟨req.proxy_name, cmd_id, false⟩ :: sent, ?_⟩
      simp [sendGroup, hcmd, hsent, Except.map]

end Sending

/-! ### Collecting -/

section Collecting

variable (sys : AsynchProxies) (outcome : Outcomes) (reply_timeout : Int) (N : Nat)

def roundOf (r : AsynchRequest) : Nat :=
  (sys.arrival r.proxy_name r.async_cmd_id reply_timeout).getD N

def marked (k : Nat) (r : AsynchRequest) : AsynchRequest :=
  { r with is_reply_arrived := decide (roundOf sys reply_timeout N r < k) }

def Replies (r : AsynchRequest) : Prop :=
  ∃ reply, outcome r.proxy_name r.async_cmd_id = .ok reply

def replyOf (r : AsynchRequest) : DeviceData :=
  match outcome r.proxy_name r.async_cmd_id with
  | .ok reply => reply
  | .error _ => none

variable {sys outcome reply_timeout N}

theorem getAsynchCommandReply_of_lt_round {r : AsynchRequest} {k : Nat}
    (h : k < roundOf sys reply_timeout N r) :
    getAsynchCommandReply sys outcome r reply_timeout k = .notArrived := by
  rw [getAsynchCommandReply]
  cases harrival : sys.arrival r.proxy_name r.async_cmd_id reply_timeout with
  | none => rfl
  | some arrival =>
      rw [roundOf, harrival, Option.getD_some] at h
      simp [h]

theorem getAsynchCommandReply_round {r : AsynchRequest} {k : Nat} (hk : k < N)
    (h : roundOf sys reply_timeout N r = k) :
    getAsynchCommandReply sys outcome r reply_timeout k =
      match outcome r.proxy_name r.async_cmd_id with
      | .error e => .failed e
      | .ok reply_data => .arrived reply_data := by
  rw [getAsynchCommandReply]
  cases harrival : sys.arrival r.proxy_name r.async_cmd_id reply_timeout with
  | none =>
      rw [roundOf, harrival, Option.getD_none] at h
      omega
  | some arrival =>
      rw [roundOf, harrival, Option.getD_some] at h
      subst h
      cases outcome r.proxy_name r.async_cmd_id <;> simp

@[simp]
theorem roundOf_marked (k : Nat) (r : AsynchRequest) :
    roundOf sys reply_timeout N (marked sys reply_timeout N k r) = roundOf sys reply_timeout N r :=
  rfl

theorem marked_succ {r : AsynchRequest} {k : Nat} (h : roundOf sys reply_timeout N r ≠ k) :
    marked sys reply_timeout N (k + 1) r = marked sys reply_timeout N k r := by
  rw [marked, marked]
  congr 1
  rw [decide_eq_decide]
  omega

theorem collectRound_eq_ok_iff {k : Nat} (hk : k < N) (sent : List AsynchRequest)
    (dout : List DeviceData) (nreplies : Nat) (c : Collected) :
    collectRound sys outcome reply_timeout k (sent.map (marked sys reply_timeout N k)) dout nreplies
        = .ok c ↔
      (∀ r ∈ sent.filter (roundOf sys reply_timeout N · == k), Replies outcome r)
        ∧ c = { async_cmds := sent.map (marked sys reply_timeout N (k + 1)),
                dout := dout
                  ++ (sent.filter (roundOf sys reply_timeout N · == k)).map (replyOf outcome),
                nreplies := nreplies
                  + (sent.filter (roundOf sys reply_timeout N · == k)).length } := by
  induction sent generalizing dout nreplies c with
  | nil => simp [collectRound, eq_comm]
  | cons r sent ih =>
      rw [List.map_cons, collectRound]
      rcases Nat.lt_trichotomy (roundOf sys reply_timeout N r) k with hlt | heq | hgt
      · -- it came in an earlier round
        have hflag : (marked sys reply_timeout N k r).is_reply_arrived = true := by
          simpa [marked] using hlt
        rw [if_pos hflag, map_eq_ok_iff]
        simp only [ih, List.map_cons, List.filter_cons, beq_iff_eq, hlt.ne, if_false,
          marked_succ hlt.ne]
        constructor
        · rintro ⟨c', ⟨hreplies, rfl⟩, rfl⟩
          exact ⟨hreplies, rfl⟩
        · rintro ⟨hreplies, rfl⟩
          exact ⟨_, ⟨hreplies, rfl⟩, rfl⟩
      · have hflag : (marked sys reply_timeout N k r).is_reply_arrived ≠ true := by
          simp [marked, heq]
        have hnext : marked sys reply_timeout N (k + 1) r
            = { marked sys reply_timeout N k r with is_reply_arrived := true } := by
          simp [marked, heq]
        rw [if_neg hflag, getAsynchCommandReply_round hk (r := marked sys reply_timeout N k r) heq]
        simp only [marked]
        cases hreply : outcome r.proxy_name r.async_cmd_id with
        | error e => simp [heq, Replies, hreply]
        | ok reply =>
            have hreplies : Replies outcome r := ⟨reply, hreply⟩
            have hvalue : replyOf outcome r = reply := by rw [replyOf, hreply]
            simp only [map_eq_ok_iff, ih, List.map_cons, List.filter_cons, heq, beq_self_eq_true,
              if_true, List.forall_mem_cons, hreplies, true_and, hvalue, hnext]
            constructor
            · rintro ⟨c', ⟨hrest, rfl⟩, rfl⟩
              refine ⟨hrest, ?_⟩
              simp [Nat.add_assoc, Nat.add_comm 1, marked]
            · rintro ⟨hrest, rfl⟩
              refine ⟨_, ⟨hrest, rfl⟩, ?_⟩
              simp [Nat.add_assoc, Nat.add_comm 1, marked]
      · have hflag : (marked sys reply_timeout N k r).is_reply_arrived ≠ true := by
          simpa [marked] using hgt.le
        rw [if_neg hflag, getAsynchCommandReply_of_lt_round (r := marked sys reply_timeout N k r) hgt]
        simp only [map_eq_ok_iff, ih, List.map_cons, List.filter_cons, beq_iff_eq, hgt.ne', if_false,
          marked_succ hgt.ne']
        constructor
        · rintro ⟨c', ⟨hreplies, rfl⟩, rfl⟩
          exact ⟨hreplies, rfl⟩
        · rintro ⟨hreplies, rfl⟩
          exact ⟨_, ⟨hreplies, rfl⟩, rfl⟩

theorem marked_zero_of_sendGroup {reqs : List GroupRequest} {sent : List AsynchRequest}
    (hsent : sendGroup sys reqs 0 = .ok sent) :
    sent.map (marked sys reply_timeout N 0) = sent := by
  obtain ⟨hlength, hall⟩ := sendGroup_eq_ok_iff.mp hsent
  apply List.ext_getElem? 
  intro j
  rw [List.getElem?_map]
  cases hj : reqs[j]? with
  | none =>
      rw [List.getElem?_eq_none_iff, ← hlength, ← List.getElem?_eq_none_iff] at hj
      rw [hj, Option.map_none]
  | some req =>
      obtain ⟨cmd_id, -, hr⟩ := hall j req hj
      simp [hr, marked]

variable (sys outcome reply_timeout N) in
def collectedBy (sent : List AsynchRequest) (k : Nat) : Collected where
  async_cmds := sent.map (marked sys reply_timeout N k)
  dout := (byRounds (roundOf sys reply_timeout N) k sent).map (replyOf outcome)
  nreplies := (byRounds (roundOf sys reply_timeout N) k sent).length

variable (sys outcome reply_timeout N) in
theorem collectRound_collectedBy {k : Nat} (hk : k < N) (sent : List AsynchRequest) (c : Collected) :
    collectRound sys outcome reply_timeout k (collectedBy sys outcome reply_timeout N sent k).async_cmds
        (collectedBy sys outcome reply_timeout N sent k).dout
        (collectedBy sys outcome reply_timeout N sent k).nreplies = .ok c ↔
      (∀ r ∈ sent, roundOf sys reply_timeout N r = k → Replies outcome r)
        ∧ c = collectedBy sys outcome reply_timeout N sent (k + 1) := by
  simp only [collectedBy, collectRound_eq_ok_iff hk, byRounds_succ, List.map_append,
    List.length_append, List.mem_filter, beq_iff_eq, and_imp]

theorem collectedBy_of_all {k : Nat} (hk : k ≤ N) {sent : List AsynchRequest}
    (h : ∀ r ∈ sent, roundOf sys reply_timeout N r < k) :
    collectedBy sys outcome reply_timeout N sent k = collectedBy sys outcome reply_timeout N sent N := by
  simp only [collectedBy, byRounds_of_le h hk, Collected.mk.injEq, and_true]
  apply List.map_congr_left
  intro r hr
  have hrk := h r hr
  have hrN : roundOf sys reply_timeout N r < N := by omega
  simp [marked, hrk, hrN]

variable (sys outcome reply_timeout N) in
theorem collectRounds_eq_ok_iff (sent : List AsynchRequest) (fuel : Nat) :
    ∀ k, k + fuel = N → ∀ c : Collected,
      collectRounds sys outcome reply_timeout fuel k (collectedBy sys outcome reply_timeout N sent k)
          = .ok c ↔
        (∀ r ∈ sent, k ≤ roundOf sys reply_timeout N r → roundOf sys reply_timeout N r < N →
          Replies outcome r) ∧ c = collectedBy sys outcome reply_timeout N sent N := by
  induction fuel with
  | zero =>
      intro k hk c
      obtain rfl : k = N := hk
      rw [collectRounds, Except.ok.injEq, eq_comm]
      refine ⟨fun hc => ⟨fun r _ hle hlt => absurd hlt (by omega), hc⟩, fun h => h.2⟩
  | succ fuel ih =>
      intro k hk c
      rw [collectRounds]
      by_cases hall : ∀ r ∈ sent, roundOf sys reply_timeout N r < k
      · have hdone : (collectedBy sys outcome reply_timeout N sent k).nreplies
            = (collectedBy sys outcome reply_timeout N sent k).async_cmds.length := by
          rw [collectedBy, List.length_map]
          exact length_byRounds_eq_iff.mpr hall
        rw [if_pos hdone, Except.ok.injEq, collectedBy_of_all (by omega) hall, eq_comm]
        refine ⟨fun hc => ⟨fun r hr hle _ => absurd (hall r hr) (by omega), hc⟩, fun h => h.2⟩
      · have hmore : (collectedBy sys outcome reply_timeout N sent k).nreplies
            ≠ (collectedBy sys outcome reply_timeout N sent k).async_cmds.length := by
          rw [collectedBy, List.length_map]
          exact fun h => hall (length_byRounds_eq_iff.mp h)
        have hround := collectRound_collectedBy sys outcome reply_timeout N (by omega : k < N) sent
        rw [if_neg hmore]
        cases hc' : collectRound sys outcome reply_timeout k
            (collectedBy sys outcome reply_timeout N sent k).async_cmds
            (collectedBy sys outcome reply_timeout N sent k).dout
            (collectedBy sys outcome reply_timeout N sent k).nreplies with
        | error e =>
            simp only [reduceCtorEq, false_iff, not_and]
            intro hreplies
            have := (hround (collectedBy sys outcome reply_timeout N sent (k + 1))).mpr
              ⟨fun r hr hrk => hreplies r hr hrk.ge (by omega), rfl⟩
            rw [hc'] at this
            exact absurd this (by simp)
        | ok c'' =>
            obtain ⟨hnow, rfl⟩ := (hround c'').mp hc'
            simp only [ih (k + 1) (by omega) c]
            refine and_congr_left fun _ => ⟨fun h r hr hle hlt => ?_, fun h r hr hle hlt =>
              h r hr (by omega) hlt⟩
            rcases Nat.eq_or_lt_of_le hle with heq | hgt
            · exact hnow r hr heq.symm
            · exact h r hr hgt hlt

theorem executeRequests_eq_ok_iff {reqs : List GroupRequest} {nretries : Int}
    {dout : List DeviceData} :
    executeRequests sys outcome reqs reply_timeout nretries [] = .ok dout ↔
      ∃ sent, sendGroup sys reqs 0 = .ok sent
        ∧ (∀ r ∈ sent, roundOf sys reply_timeout nretries.toNat r < nretries.toNat)
        ∧ (∀ r ∈ sent, Replies outcome r)
        ∧ dout = (byRounds (roundOf sys reply_timeout nretries.toNat) nretries.toNat sent).map
          (replyOf outcome) := by
  set N := nretries.toNat
  rw [executeRequests]
  cases hsent : sendGroup sys reqs 0 with
  | error e => simp
  | ok sent =>
      have hstart : ({ async_cmds := sent, dout := [], nreplies := 0 } : Collected)
          = collectedBy sys outcome reply_timeout N sent 0 := by
        simp only [collectedBy, byRounds_zero, List.map_nil, List.length_nil, Collected.mk.injEq,
          and_true]
        exact (marked_zero_of_sendGroup hsent).symm
      have hrounds := collectRounds_eq_ok_iff sys outcome reply_timeout N sent N 0 (Nat.zero_add N)
      simp only [Except.ok.injEq, exists_eq_left', hstart]
      cases hc : collectRounds sys outcome reply_timeout N 0
          (collectedBy sys outcome reply_timeout N sent 0) with
      | error e =>
          simp only [reduceCtorEq, false_iff, not_and]
          intro _ hreplies
          have hok := (hrounds (collectedBy sys outcome reply_timeout N sent N)).mpr
            ⟨fun r hr _ _ => hreplies r hr, rfl⟩
          rw [hc] at hok
          exact absurd hok (by simp)
      | ok c =>
          obtain ⟨hreplies, rfl⟩ := (hrounds c).mp hc
          have hall : (collectedBy sys outcome reply_timeout N sent N).nreplies
                = (collectedBy sys outcome reply_timeout N sent N).async_cmds.length ↔
              ∀ r ∈ sent, roundOf sys reply_timeout N r < N := by
            rw [collectedBy, List.length_map]
            exact length_byRounds_eq_iff
          by_cases hN : ∀ r ∈ sent, roundOf sys reply_timeout N r < N
          · have hreplies' : ∀ r ∈ sent, Replies outcome r := fun r hr =>
              hreplies r hr (Nat.zero_le _) (hN r hr)
            simp only [if_pos (hall.mpr hN), Except.ok.injEq]
            exact ⟨fun h => ⟨hN, hreplies', h.symm⟩, fun h => h.2.2.symm⟩
          · simp [if_neg (mt hall.mp hN), hN]

end Collecting

section Calls

variable {sys : AsynchProxies} {outcome : Outcomes} {mgr : TangoProxyManager}
  {reply_timeout nretries : Int}

theorem findProxyHelpers_eq_ok_iff {proxy_names : List String} :
    findProxyHelpers mgr proxy_names = .ok () ↔
      ∀ proxy_name ∈ proxy_names, (mgr.findProxyHelper proxy_name).isSome := by
  induction proxy_names with
  | nil => simp [findProxyHelpers]
  | cons proxy_name proxy_names ih =>
      rw [findProxyHelpers, List.forall_mem_cons]
      cases mgr.findProxyHelper proxy_name with
      | none => simp
      | some helper => simpa using ih

theorem executeCommandsOnProxies_eq_ok_iff {proxy_names cmd_names : List String}
    {din dout : List DeviceData} :
    executeCommandsOnProxies sys outcome mgr [] proxy_names cmd_names din reply_timeout nretries
        = .ok dout ↔
      (GroupCall.commandsOnProxies proxy_names cmd_names din).Accepted mgr
        ∧ executeRequests sys outcome (GroupCall.commandsOnProxies proxy_names cmd_names din).requests
          reply_timeout nretries [] = .ok dout := by
  rw [executeCommandsOnProxies, GroupCall.Accepted, ← findProxyHelpers_eq_ok_iff,
    GroupCall.requests]
  split_ifs with hcmds hdin
  · simp [hcmds]
  · simp [hdin]
  · rw [not_not] at hcmds hdin
    cases findProxyHelpers mgr proxy_names with
    | error e => simp
    | ok u => simp [hcmds, hdin]

theorem executeVoidCommandsOnProxies_eq_ok_iff {proxy_names cmd_names : List String}
    {dout : List DeviceData} :
    executeVoidCommandsOnProxies sys outcome mgr [] proxy_names cmd_names reply_timeout nretries
        = .ok dout ↔
      (GroupCall.voidCommandsOnProxies proxy_names cmd_names).Accepted mgr
        ∧ executeRequests sys outcome (GroupCall.voidCommandsOnProxies proxy_names cmd_names).requests
          reply_timeout nretries [] = .ok dout := by
  rw [executeVoidCommandsOnProxies, GroupCall.Accepted, ← findProxyHelpers_eq_ok_iff,
    GroupCall.requests]
  split_ifs with hcmds
  · simp [hcmds]
  · rw [not_not] at hcmds
    cases findProxyHelpers mgr proxy_names with
    | error e => simp
    | ok u => simp [hcmds]

theorem execute_eq_ok_iff {call : GroupCall} {dout : List DeviceData} :
    call.execute sys outcome mgr reply_timeout nretries = .ok dout ↔
      call.Accepted mgr
        ∧ executeRequests sys outcome call.requests reply_timeout nretries [] = .ok dout := by
  cases call with
  | commandsOnProxy proxy_name cmd_names din =>
      rw [GroupCall.execute, executeCommandsOnProxy, GroupCall.Accepted, GroupCall.requests]
      split_ifs with hcmds
      · simp [hcmds]
      · rw [not_not] at hcmds
        cases mgr.findProxyHelper proxy_name with
        | none => simp
        | some helper => simp [hcmds]
  | commandsOnProxies proxy_names cmd_names din => exact executeCommandsOnProxies_eq_ok_iff
  | commandOnProxies proxy_names cmd_name din =>
      rw [GroupCall.execute, executeCommandOnProxies, executeCommandsOnProxies_eq_ok_iff]
      simp only [GroupCall.Accepted, GroupCall.requests, List.length_map, true_and,
        List.zip_map', List.zipWith_map_right, List.zipWith_self]
  | voidCommandsOnProxies proxy_names cmd_names => exact executeVoidCommandsOnProxies_eq_ok_iff
  | voidCommandOnProxies proxy_names cmd_name =>
      rw [GroupCall.execute, executeVoidCommandOnProxies, executeVoidCommandsOnProxies_eq_ok_iff]
      simp only [GroupCall.Accepted, GroupCall.requests, List.length_map, true_and,
        List.zipWith_map_right, List.zipWith_self]

variable (reply_timeout) in
theorem sendGroup_getElem? {call : GroupCall} {sent : List AsynchRequest}
    (hsent : sendGroup sys call.requests 0 = .ok sent) {i : Nat} {req : GroupRequest}
    (hreq : call.requests[i]? = some req) :
    ∃ cmd_id, call.asyncCmdId sys i = some cmd_id
      ∧ sent[i]? = some ⟨req.proxy_name, cmd_id, false⟩
      ∧ call.replyRound sys reply_timeout i = sys.arrival req.proxy_name cmd_id reply_timeout := by
  obtain ⟨cmd_id, hcmd, hentry⟩ := (sendGroup_eq_ok_iff.mp hsent).2 i req hreq
  rw [Nat.zero_add] at hcmd
  have hid : call.asyncCmdId sys i = some cmd_id := by
    simp [GroupCall.asyncCmdId, hreq, hcmd, Except.toOption]
  exact ⟨cmd_id, hid, hentry, by simp [GroupCall.replyRound, hreq, hid]⟩

theorem replyRound_of_sent {call : GroupCall} {sent : List AsynchRequest}
    (hsent : sendGroup sys call.requests 0 = .ok sent) {N i : Nat} (hi : i < sent.length)
    (hround : roundOf sys reply_timeout N sent[i] < N) :
    call.replyRound sys reply_timeout i = some (roundOf sys reply_timeout N sent[i]) := by
  have hlength := (sendGroup_eq_ok_iff.mp hsent).1
  obtain ⟨cmd_id, -, hentry, hreply⟩ := sendGroup_getElem? reply_timeout hsent
    (List.getElem?_eq_getElem (hlength ▸ hi))
  rw [List.getElem?_eq_getElem hi, Option.some.injEq] at hentry
  rw [hreply]
  rw [hentry, roundOf] at hround ⊢
  cases harrival : sys.arrival _ cmd_id reply_timeout with
  | none =>
      rw [harrival, Option.getD_none] at hround
      omega
  | some arrival => rfl

theorem roundOf_of_replyRound {call : GroupCall} {sent : List AsynchRequest}
    (hsent : sendGroup sys call.requests 0 = .ok sent) {N i k : Nat} (hi : i < sent.length)
    (hk : call.replyRound sys reply_timeout i = some k) :
    roundOf sys reply_timeout N sent[i] = k := by
  have hlength := (sendGroup_eq_ok_iff.mp hsent).1
  obtain ⟨cmd_id, -, hentry, hreply⟩ := sendGroup_getElem? reply_timeout hsent
    (List.getElem?_eq_getElem (hlength ▸ hi))
  rw [List.getElem?_eq_getElem hi, Option.some.injEq] at hentry
  rw [hentry, roundOf, ← hreply, hk, Option.getD_some]

end Calls

section InTurn

variable {sys : AsynchProxies} {mgr : TangoProxyManager} {reply_timeout nretries : Int}
  {call : GroupCall}

theorem linesUp_of_repliesInTurn (hturn : call.RepliesInTurn sys mgr reply_timeout nretries) :
    call.LinesUp sys mgr reply_timeout nretries := by
  intro outcome dout hexecute
  obtain ⟨haccepted, hrequests⟩ := execute_eq_ok_iff.mp hexecute
  obtain ⟨sent, hsent, hrounds, hreplies, rfl⟩ := executeRequests_eq_ok_iff.mp hrequests
  have hlength := (sendGroup_eq_ok_iff.mp hsent).1
  have hround : ∀ i (hi : i < sent.length), call.replyRound sys reply_timeout i
      = some (roundOf sys reply_timeout nretries.toNat sent[i]) := fun i hi =>
    replyRound_of_sent hsent hi (hrounds _ (List.getElem_mem hi))
  have hsorted : sent.Pairwise fun r r' => roundOf sys reply_timeout nretries.toNat r
      ≤ roundOf sys reply_timeout nretries.toNat r' := by
    rw [List.pairwise_iff_getElem]
    intro i j hi hj hij
    refine hturn haccepted (fun i hi => ?_) i j _ _ hij (hround i hi) (hround j hj)
    have hi' : i < sent.length := hlength ▸ hi
    refine ⟨_, hround i hi', ?_⟩
    have := hrounds _ (List.getElem_mem hi')
    omega
  rw [byRounds_of_pairwise hsorted hrounds]
  refine ⟨by rw [List.length_map, hlength], fun i req hreq => ?_⟩
  obtain ⟨cmd_id, hid, hentry, -⟩ := sendGroup_getElem? reply_timeout hsent hreq
  obtain ⟨reply, hreply⟩ := hreplies _ (List.mem_of_getElem? hentry)
  refine ⟨cmd_id, reply, hid, hreply, ?_⟩
  rw [List.getElem?_map, hentry, Option.map_some, replyOf, hreply]

/-- Replies that tell whether they come after the round `l`. -/
def lateAfter (sys : AsynchProxies) (reply_timeout : Int) (N l : Nat) : Outcomes :=
  fun proxy_name cmd_id =>
    .ok (if roundOf sys reply_timeout N ⟨proxy_name, cmd_id, false⟩ ≤ l then none
      else some (.scalar .boolean true))

theorem replyOf_lateAfter (N l : Nat) (r : AsynchRequest) :
    replyOf (lateAfter sys reply_timeout N l) r
      = if roundOf sys reply_timeout N r ≤ l then none else some (.scalar .boolean true) := rfl

theorem sent_of_arrive (harrive : ∀ i < call.requests.length,
      ∃ k, call.replyRound sys reply_timeout i = some k ∧ k < nretries) :
    ∃ sent, sendGroup sys call.requests 0 = .ok sent
      ∧ ∀ r ∈ sent, roundOf sys reply_timeout nretries.toNat r < nretries.toNat := by
  have hsends : ∃ sent, sendGroup sys call.requests 0 = .ok sent := by
    refine exists_sendGroup fun i req hreq => ?_
    obtain ⟨k, hk, -⟩ := harrive i (List.getElem?_eq_some_iff.mp hreq).1
    simp only [GroupCall.replyRound, GroupCall.asyncCmdId, hreq, Option.bind_some] at hk
    rw [Nat.zero_add]
    cases hcmd : sys.command_inout_asynch req.proxy_name req.cmd_name req.din i with
    | error e => simp [hcmd, Except.toOption] at hk
    | ok cmd_id => exact ⟨cmd_id, rfl⟩
  obtain ⟨sent, hsent⟩ := hsends
  refine ⟨sent, hsent, fun r hr => ?_⟩
  obtain ⟨i, hi, rfl⟩ := List.getElem_of_mem hr
  obtain ⟨k, hk, hkN⟩ := harrive i ((sendGroup_eq_ok_iff.mp hsent).1 ▸ hi)
  rw [roundOf_of_replyRound hsent hi hk]
  omega

theorem repliesInTurn_of_linesUp (hlines : call.LinesUp sys mgr reply_timeout nretries) :
    call.RepliesInTurn sys mgr reply_timeout nretries := by
  intro haccepted harrive i j k l hij hk hl
  by_contra hlate
  set N := nretries.toNat
  obtain ⟨sent, hsent, hrounds⟩ := sent_of_arrive harrive
  set dout := (byRounds (roundOf sys reply_timeout N) N sent).map
    (replyOf (lateAfter sys reply_timeout N l))
  have hexecute : call.execute sys (lateAfter sys reply_timeout N l) mgr reply_timeout nretries
      = .ok dout :=
    execute_eq_ok_iff.mpr ⟨haccepted, executeRequests_eq_ok_iff.mpr
      ⟨sent, hsent, hrounds, fun r _ => ⟨_, rfl⟩, rfl⟩⟩
  -- in the output nothing late stands before something that is not late
  have hordered : dout.Pairwise fun reply reply' => reply' = none → reply = none := by
    refine (byRounds_pairwise N sent).map _ fun r r' hle hnone => ?_
    rw [replyOf_lateAfter] at hnone ⊢
    have hr' : roundOf sys reply_timeout N r' ≤ l := by
      by_contra hgt
      simp [hgt] at hnone
    exact if_pos (hle.trans hr')
  have hentry : ∀ i k, call.replyRound sys reply_timeout i = some k →
      ∃ hi : i < dout.length, dout[i] = if k ≤ l then none else some (.scalar .boolean true) := by
    intro i k hk
    cases hreq : call.requests[i]? with
    | none => simp [GroupCall.replyRound, hreq] at hk
    | some req =>
        obtain ⟨cmd_id, reply, hid, hreply, hplace⟩ := (hlines _ dout hexecute).2 i req hreq
        have harrival : sys.arrival req.proxy_name cmd_id reply_timeout = some k := by
          simpa [GroupCall.replyRound, hreq, hid] using hk
        have hround : roundOf sys reply_timeout N ⟨req.proxy_name, cmd_id, false⟩ = k := by
          rw [roundOf, harrival, Option.getD_some]
        rw [lateAfter, hround, Except.ok.injEq] at hreply
        obtain ⟨hi, hdouti⟩ := List.getElem?_eq_some_iff.mp hplace
        exact ⟨hi, hdouti.trans hreply.symm⟩
  obtain ⟨hi, hdouti⟩ := hentry i k hk
  obtain ⟨hj, hdoutj⟩ := hentry j l hl
  have hfirst := List.pairwise_iff_getElem.mp hordered i j hi hj hij (hdoutj.trans (if_pos le_rfl))
  rw [hdouti, if_neg hlate] at hfirst
  exact absurd hfirst (by simp)

end InTurn

/-- The replies line up with the requests whatever they are, if and only if they come in turn. -/
theorem linesUp_iff (sys : AsynchProxies) (mgr : TangoProxyManager) (reply_timeout nretries : Int)
    (call : GroupCall) :
    call.LinesUp sys mgr reply_timeout nretries ↔
      call.RepliesInTurn sys mgr reply_timeout nretries :=
  ⟨repliesInTurn_of_linesUp, linesUp_of_repliesInTurn⟩

/-- Two commands for one proxy: the reply of the first comes in the second round, that of the second
in the first round. -/
theorem linesUp_fails :
    ¬ (GroupCall.commandsOnProxy "mid_dsh_0001/lmc/rx" ["SetBand", "GetState"] [none, none]).LinesUp
      { command_inout_asynch := fun _ _ _ i => .ok i
        arrival := fun _ cmd_id _ => some (if cmd_id = 0 then 1 else 0) }
      { m_proxyHelperMap := (∅ : Std.ExtTreeMap String TangoProxyHelper).insert "mid_dsh_0001/lmc/rx"
          (TangoProxyHelper.new "mid_dsh_0001/lmc/rx") } 1000 3 := by
  intro hlines
  have hlineUp := hlines
    (fun _ cmd_id => .ok (if cmd_id = 0 then none else some (.scalar .boolean true)))
    [some (.scalar .boolean true), none]
    (by
      simp only [GroupCall.execute, executeCommandsOnProxy, findProxyHelper,
        Std.ExtTreeMap.getElem?_insert_self]
      rfl)
  obtain ⟨cmd_id, reply, hid, hreply, hplace⟩ :=
    hlineUp.2 0 ⟨"mid_dsh_0001/lmc/rx", "SetBand", some none⟩ rfl
  obtain rfl : 0 = cmd_id := Option.some.inj hid
  obtain rfl : none = reply := Except.ok.inj hreply
  simp at hplace

end TangoProxyManager

end DshLmc
