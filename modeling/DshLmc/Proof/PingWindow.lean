import Mathlib.Data.List.Infix
import DshLmc.Library.Run
import DshLmc.Utils.ProxyInfo

/-!
# The window of ping times

A report that the proxy is online puts its ping time in front of a buffer and takes at most one from
the end, while the limit of the buffer may change at any time. What is in the buffer is always a newest
part of the pings since the last offline report. Here is when it is the part that the limit says.
-/

namespace DshLmc

namespace TangoProxyHelper

inductive PingCall where
  | setOnline (state : UInt32) (status : String) (ping_time : Int) (now : Rat)
  | setOffline (now : Rat)
  | setMaxPingTimeBufferSize (bufsize : Int)

def pingCall (helper : TangoProxyHelper) : PingCall → TangoProxyHelper
  | .setOnline state status ping_time now => helper.setOnline_i state status ping_time now
  | .setOffline now => helper.setOffline_i now
  | .setMaxPingTimeBufferSize bufsize => helper.setMaxPingTimeBufferSize bufsize

def receive (pings : List Int) : PingCall → List Int
  | .setOnline _ _ ping_time _ => ping_time :: pings
  | .setOffline _ => []
  | .setMaxPingTimeBufferSize _ => pings

/-- The pings since the last offline report, newest first. -/
def received (history : List PingCall) : List Int := history.foldl receive []

def limit (bufsize : Int) : PingCall → Int
  | .setMaxPingTimeBufferSize bufsize' => bufsize'
  | _ => bufsize

def limitInForce (history : List PingCall) : Int := history.foldl limit 10

/-- A report removes the last element of a buffer that has none. -/
def PopsEmpty (helper : TangoProxyHelper) : Prop :=
  helper.m_ping_time_buffer.length ≥ helper.m_max_buffer_size ∧ helper.m_ping_time_buffer = []

def mean (pings : List Int) : Rat := (pings.sum : Rat) / (pings.length : Rat)

/-- The newest pings, as many as the limit allows and one at least, with their mean. -/
structure IsWindow (pings : List Int) (bufsize : Int) (helper : TangoProxyHelper) : Prop where
  buffer : helper.m_ping_time_buffer = pings.take (max bufsize 1).toNat
  average : helper.m_ping_time_avg = mean helper.m_ping_time_buffer

/-- A report, in the state that a history left, does not pop from an empty buffer and leaves the
window. -/
def KeepsWindow (proxy_name : String) (past : List PingCall) (state : UInt32) (status : String)
    (ping_time : Int) (now : Rat) : Prop :=
  ¬ (run pingCall (new proxy_name) past).PopsEmpty
    ∧ IsWindow (ping_time :: received past) (limitInForce past)
      (run pingCall (new proxy_name) (past ++ [.setOnline state status ping_time now]))

/-- The buffer is not longer than the limit. If the new ping will not reach the limit then none of the
pings was dropped, and where the limit allows none there is one in the buffer. -/
structure Fits (pings : List Int) (bufsize : Int) (helper : TangoProxyHelper) : Prop where
  short : helper.m_ping_time_buffer.length ≤ max bufsize 1
  complete : helper.m_ping_time_buffer.length + 1 < max bufsize 1 →
    helper.m_ping_time_buffer.length = pings.length
  filled : bufsize ≤ 0 → helper.m_ping_time_buffer ≠ []

structure KeepsNewest (pings : List Int) (bufsize : Int) (helper : TangoProxyHelper) : Prop where
  newest : helper.m_ping_time_buffer <+: pings
  limit : helper.m_max_buffer_size = bufsize

variable {pings : List Int} {bufsize : Int} {helper : TangoProxyHelper}

theorem KeepsNewest.pingCall (h : KeepsNewest pings bufsize helper) (c : PingCall) :
    KeepsNewest (receive pings c) (TangoProxyHelper.limit bufsize c) (helper.pingCall c) := by
  cases c with
  | setOnline state status ping_time now =>
      refine ⟨?_, h.limit⟩
      apply List.cons_prefix_cons.mpr ⟨rfl, ?_⟩
      split
      · exact (List.dropLast_prefix _).trans h.newest
      · exact h.newest
  | setOffline now => exact ⟨List.nil_prefix, h.limit⟩
  | setMaxPingTimeBufferSize bufsize' => exact ⟨h.newest, rfl⟩

theorem keepsNewest_run (proxy_name : String) (history : List PingCall) :
    KeepsNewest (received history) (limitInForce history)
      (run pingCall (new proxy_name) history) := by
  have hstart : KeepsNewest (received []) (limitInForce []) (new proxy_name) :=
    ⟨List.nil_prefix, rfl⟩
  refine run_history
    (I := fun past helper => KeepsNewest (received past) (limitInForce past) helper) hstart ?_
  intro past c _ h
  rw [received, limitInForce, List.foldl_append, List.foldl_append]
  exact h.pingCall c

theorem newest_eq_take (h : KeepsNewest pings bufsize helper) :
    helper.m_ping_time_buffer = pings.take helper.m_ping_time_buffer.length :=
  List.prefix_iff_eq_take.mp h.newest

theorem buffer_setOnline_i (h : KeepsNewest pings bufsize helper) (state : UInt32) (status : String)
    (ping_time : Int) (now : Rat) :
    (helper.setOnline_i state status ping_time now).m_ping_time_buffer
      = (ping_time :: pings).take
        (if helper.m_ping_time_buffer.length ≥ bufsize then
          helper.m_ping_time_buffer.length - 1 + 1 else helper.m_ping_time_buffer.length + 1) := by
  have hbuffer := newest_eq_take h
  rw [setOnline_i, h.limit]
  split
  · rw [List.take_succ_cons, List.cons_inj_right, List.dropLast_eq_take, List.prefix_iff_eq_take.mp
      ((List.take_prefix _ _).trans h.newest), List.length_take]
    congr 1
    omega
  · rw [List.take_succ_cons, ← hbuffer]

theorem computePingTimeMean_of_ne_nil (hne : pings ≠ []) : computePingTimeMean pings = mean pings := by
  have hsum : (pings.map fun ping : Int => (ping : Rat)).sum = (pings.sum : Rat) := by
    clear hne
    induction pings with
    | nil => rfl
    | cons ping pings ih => rw [List.map_cons, List.sum_cons, ih, List.sum_cons, Rat.intCast_add]
  rw [computePingTimeMean, if_neg hne, mean, ← hsum]
  simp [List.map_eq_flatMap]

theorem isWindow_iff_fits (h : KeepsNewest pings bufsize helper) (state : UInt32) (status : String)
    (ping_time : Int) (now : Rat) :
    ¬ helper.PopsEmpty ∧ IsWindow (ping_time :: pings) bufsize
        (helper.setOnline_i state status ping_time now)
      ↔ Fits pings bufsize helper := by
  have hlength := h.newest.length_le
  have hpops : helper.PopsEmpty ↔ helper.m_ping_time_buffer.length = 0 ∧ bufsize ≤ 0 := by
    rw [PopsEmpty, h.limit, ← List.length_eq_zero_iff]
    omega
  have hwindow : IsWindow (ping_time :: pings) bufsize
        (helper.setOnline_i state status ping_time now)
      ↔ (helper.setOnline_i state status ping_time now).m_ping_time_buffer
        = (ping_time :: pings).take (max bufsize 1).toNat :=
    ⟨fun h => h.buffer, fun hbuffer =>
      ⟨hbuffer, computePingTimeMean_of_ne_nil (List.cons_ne_nil _ _)⟩⟩
  rw [hpops, hwindow, buffer_setOnline_i h, List.take_eq_take_iff, List.length_cons]
  constructor
  · rintro ⟨hpops, hsize⟩
    refine ⟨?_, ?_, ?_⟩
    · split at hsize <;> omega
    · intro hlt
      split at hsize <;> omega
    · rw [Ne, ← List.length_eq_zero_iff]
      omega
  · rintro ⟨hshort, hcomplete, hfilled⟩
    rw [Ne, ← List.length_eq_zero_iff] at hfilled
    constructor
    · omega
    · split <;> omega

end TangoProxyHelper

end DshLmc
