import DshLmc.Monitoring.SubscriptionLoop

/-!
# A listener that is not deaf

A listener hears the checks when it reads on a connection on which both subscribe commands were written
in full, when it subscribes again after it lost the connection, and as long as its thread lives. The
loop takes a part of a command for all of it, and nothing read for a message; and a state of many digits
ends the thread. In a run without the three the flags say what was written on the connection.
-/

namespace DshLmc

def SocketCall.isRead : SocketCall → Bool
  | .read _ => true
  | _ => false

def ReadResult.IsLost (result : ReadResult) : Prop :=
  result.nbytes = eConnectionClosed ∨ result.nbytes = eConnectionReset

def WrittenInFull (cmd : SBuffer) (calls : List SocketCall) : Prop :=
  ∃ before, ∃ n : Int, ∃ after,
    calls = before ++ .write cmd n :: after ∧ cmd.size ≤ n ∧ .reset ∉ after

structure BothWritten (calls : List SocketCall) : Prop where
  host : WrittenInFull hostCheckSubscribeCmd calls
  service : WrittenInFull serviceCheckSubscribeCmd calls

/-- After a lost connection: a reset without a read before it, and both commands before each read. -/
def Resubscribes (later : List SocketCall) : Prop :=
  ∃ tried rest, later = tried ++ .reset :: rest ∧ (∀ c ∈ tried, ¬c.isRead) ∧
    ∀ between result later', rest = between ++ .read result :: later' → BothWritten between

def ReadsSubscribed (calls : List SocketCall) : Prop :=
  ∀ past result later, calls = past ++ .read result :: later → BothWritten past

def LostResubscribes (calls : List SocketCall) : Prop :=
  ∀ past result later, calls = past ++ .read result :: later → result.IsLost → Resubscribes later

/-- What the listener is to do. -/
structure NagiosListener.NeverDeaf (s : NagiosListener) : Prop where
  readsSubscribed : ReadsSubscribed s.calls
  lostResubscribes : LostResubscribes s.calls
  noException : s.ended ≠ some .exception

theorem append_singleton_eq_append_cons {α : Type*} {calls past later : List α} {c d : α} :
    calls ++ [c] = past ++ d :: later
      ↔ (∃ later', later = later' ++ [c] ∧ calls = past ++ d :: later') ∨
        later = [] ∧ c = d ∧ calls = past := by
  constructor
  · intro h
    rcases List.eq_nil_or_concat later with rfl | ⟨later', x, rfl⟩
    · obtain ⟨rfl, hc⟩ := List.append_inj' h rfl
      exact .inr ⟨rfl, (List.cons.inj hc).1, rfl⟩
    · rw [List.concat_eq_append, ← List.cons_append, ← List.append_assoc] at h
      obtain ⟨hcalls, hc⟩ := List.append_inj' h rfl
      rw [(List.cons.inj hc).1]
      exact .inl ⟨later', List.concat_eq_append, hcalls⟩
  · rintro (⟨later', rfl, rfl⟩ | ⟨rfl, rfl, rfl⟩)
    · simp
    · rfl

theorem WrittenInFull.append {cmd : SBuffer} {calls : List SocketCall} (h : WrittenInFull cmd calls)
    {c : SocketCall} (hc : c ≠ .reset) : WrittenInFull cmd (calls ++ [c]) := by
  obtain ⟨before, n, after, rfl, hsize, hreset⟩ := h
  refine ⟨before, n, after ++ [c], by simp, hsize, ?_⟩
  simp [hreset, hc.symm]

theorem writtenInFull_append_write {cmd : SBuffer} (calls : List SocketCall) {n : Int}
    (hn : cmd.size ≤ n) : WrittenInFull cmd (calls ++ [.write cmd n]) :=
  ⟨calls, n, [], rfl, hn, List.not_mem_nil⟩

theorem WrittenInFull.of_append_reset {cmd : SBuffer} {before rest : List SocketCall}
    (h : WrittenInFull cmd (before ++ .reset :: rest)) : WrittenInFull cmd rest := by
  obtain ⟨first, n, after, hcalls, hsize, hreset⟩ := h
  rcases List.append_eq_append_iff.mp hcalls with ⟨more, rfl, hmore⟩ | ⟨more, rfl, hmore⟩
  · cases more with
    | nil => cases hmore
    | cons c more =>
        obtain ⟨-, rfl⟩ := List.cons.inj hmore
        exact ⟨more, n, after, rfl, hsize, hreset⟩
  · cases more with
    | nil => cases hmore
    | cons c more =>
        obtain ⟨-, rfl⟩ := List.cons.inj hmore
        exact absurd (List.mem_append_right _ List.mem_cons_self) hreset

theorem Resubscribes.append (before : List SocketCall) {later : List SocketCall} (h : Resubscribes later)
    {c : SocketCall} (hc : c.isRead → BothWritten (before ++ later)) :
    Resubscribes (later ++ [c]) := by
  obtain ⟨tried, rest, rfl, htried, hrest⟩ := h
  refine ⟨tried, rest ++ [c], by simp, htried, ?_⟩
  intro between result later' hsplit
  rcases append_singleton_eq_append_cons.mp hsplit with ⟨_, -, hbefore⟩ | ⟨-, rfl, rfl⟩
  · exact hrest _ _ _ hbefore
  · have hboth := hc rfl
    rw [← List.append_assoc] at hboth
    exact ⟨hboth.host.of_append_reset, hboth.service.of_append_reset⟩

theorem ReadsSubscribed.append {calls : List SocketCall} (h : ReadsSubscribed calls) {c : SocketCall}
    (hc : c.isRead → BothWritten calls) : ReadsSubscribed (calls ++ [c]) := by
  intro past result later hsplit
  rcases append_singleton_eq_append_cons.mp hsplit with ⟨_, -, hbefore⟩ | ⟨-, rfl, rfl⟩
  · exact h _ _ _ hbefore
  · exact hc rfl

theorem LostResubscribes.append {calls : List SocketCall} (h : LostResubscribes calls)
    {c : SocketCall} (hc : c.isRead → BothWritten calls)
    (hlost : ∀ result, c = .read result → ¬result.IsLost) : LostResubscribes (calls ++ [c]) := by
  intro past result later hsplit hresult
  rcases append_singleton_eq_append_cons.mp hsplit with ⟨later', rfl, hbefore⟩ | ⟨-, rfl, -⟩
  · refine (h _ _ _ hbefore hresult).append (past ++ [.read result]) fun hread => ?_
    have hboth := hc hread
    rwa [hbefore, List.append_cons] at hboth
  · exact absurd hresult (hlost _ rfl)

theorem LostResubscribes.append_reset {calls : List SocketCall} (h : LostResubscribes calls)
    (hboth : BothWritten calls) (lost : ReadResult) :
    LostResubscribes (calls ++ [.read lost] ++ [.reset]) := by
  intro past result later hsplit hresult
  rcases append_singleton_eq_append_cons.mp hsplit with ⟨later', rfl, hbefore⟩ | ⟨-, hc, -⟩
  · rcases append_singleton_eq_append_cons.mp hbefore with ⟨later, rfl, hcalls⟩ | ⟨rfl, -, -⟩
    · have hlater := (h _ _ _ hcalls hresult).append (past ++ [.read result])
        (c := .read lost) fun _ => by rwa [hcalls, List.append_cons] at hboth
      exact hlater.append [] (fun hread => absurd hread (by decide))
    · exact ⟨[], [], rfl, fun c hc => absurd hc List.not_mem_nil, fun between _ _ hnil =>
        absurd hnil.symm (by simp)⟩
  · cases hc

theorem check_of_throws {msg : List Char} (h : processEvent msg = .throws) :
    ∃ c, readCheck msg = some c ∧ stoi c.newState = none := by
  rw [processEvent] at h
  cases hcheck : readCheck msg with
  | none =>
      rw [hcheck] at h
      dsimp only at h
      split at h <;> cases h
  | some c =>
      refine ⟨c, rfl, ?_⟩
      rw [hcheck] at h
      simp only [NagiosCheck.process] at h
      split at h
      · cases h
      · assumption

namespace NagiosListener

variable {s : NagiosListener} {round : NagiosRound}

/-- No command is written in part, no connection is closed in silence, and an `int` has the new state
of every check. Only what the round uses counts. -/
def IsGood (s : NagiosListener) (round : NagiosRound) : Prop :=
  if !s.isSubscribedToHostChecks then
    ¬(0 < round.write ∧ round.write < hostCheckSubscribeCmd.size)
  else if !s.isSubscribedToServiceChecks then
    ¬(0 < round.write ∧ round.write < serviceCheckSubscribeCmd.size)
  else
    ∀ msg, round.read = .bytes msg → msg ≠ [] ∧ ∀ c, readCheck msg = some c → stoi c.newState ≠ none

/-- The flags say what was written on the connection. -/
structure Hears (s : NagiosListener) : Prop extends s.NeverDeaf where
  hostWritten : s.isSubscribedToHostChecks → WrittenInFull hostCheckSubscribeCmd s.calls
  serviceWritten : s.isSubscribedToServiceChecks → WrittenInFull serviceCheckSubscribeCmd s.calls

theorem hears_initial : initial.Hears where
  readsSubscribed past result later hsplit := absurd hsplit.symm (by simp [initial])
  lostResubscribes past result later hsplit := absurd hsplit.symm (by simp [initial])
  noException := by decide
  hostWritten h := absurd h (by decide)
  serviceWritten h := absurd h (by decide)

theorem Hears.call (h : s.Hears) {c : SocketCall} (hreset : c ≠ .reset)
    (hc : c.isRead → BothWritten s.calls) (hlost : ∀ result, c = .read result → ¬result.IsLost) :
    (s.call c).Hears where
  readsSubscribed := h.readsSubscribed.append hc
  lostResubscribes := h.lostResubscribes.append hc hlost
  noException := h.noException
  hostWritten hflag := (h.hostWritten hflag).append hreset
  serviceWritten hflag := (h.serviceWritten hflag).append hreset

theorem Hears.reset (h : s.Hears) : s.reset.Hears where
  readsSubscribed := h.readsSubscribed.append fun hread => absurd hread (by decide)
  lostResubscribes := h.lostResubscribes.append (fun hread => absurd hread (by decide))
    (fun _ heq => by cases heq)
  noException := h.noException
  hostWritten hflag := by cases hflag
  serviceWritten hflag := by cases hflag

theorem Hears.lost (h : s.Hears) (hboth : BothWritten s.calls) (lost : ReadResult) :
    (s.call (.read lost)).reset.Hears where
  readsSubscribed := (h.readsSubscribed.append fun _ => hboth).append
    fun hread => absurd hread (by decide)
  lostResubscribes := h.lostResubscribes.append_reset hboth lost
  noException := h.noException
  hostWritten hflag := by cases hflag
  serviceWritten hflag := by cases hflag

theorem Hears.write (h : s.Hears) (cmd : SBuffer) (n : Int) : (s.call (.write cmd n)).Hears :=
  h.call (by simp) (fun hread => absurd hread (by simp [SocketCall.isRead])) (by simp)

theorem Hears.readSocket (h : s.Hears) (hboth : BothWritten s.calls) {result : ReadResult}
    (hgood : ∀ msg, result = .bytes msg →
      msg ≠ [] ∧ ∀ c, readCheck msg = some c → stoi c.newState ≠ none) :
    (s.readSocket result).Hears := by
  cases result with
  | failed => exact h.lost hboth .failed
  | timedOut =>
      refine h.call (by simp) (fun _ => hboth) ?_
      rintro result heq (hclosed | hbroken)
      · cases heq
        exact absurd hclosed (by decide)
      · cases heq
        exact absurd hbroken (by decide)
  | bytes msg =>
      obtain ⟨hne, hstoi⟩ := hgood msg rfl
      have hpos : 0 < msg.length := List.length_pos_iff.mpr hne
      have hread : (s.call (.read (.bytes msg))).Hears := by
        refine h.call (by simp) (fun _ => hboth) ?_
        rintro result heq hlost
        cases heq
        rcases hlost with hclosed | hbroken
        · simp only [ReadResult.nbytes, eConnectionClosed] at hclosed
          omega
        · simp only [ReadResult.nbytes, eConnectionReset] at hbroken
          omega
      rw [NagiosListener.readSocket, if_neg (by simp [ReadResult.nbytes])]
      dsimp only
      split
      · case h_1 hthrows =>
          obtain ⟨c, hcheck, hnone⟩ := check_of_throws hthrows
          exact absurd hnone (hstoi c hcheck)
      · exact hread

theorem Hears.subscribe (h : s.Hears) {cmd : SBuffer} {subscribed : NagiosListener → NagiosListener}
    {n : Int} (hgood : ¬(0 < n ∧ n < cmd.size))
    (hsubscribed : cmd.size ≤ n → (subscribed (s.call (.write cmd n))).Hears) :
    (s.subscribe cmd subscribed n).Hears := by
  rw [NagiosListener.subscribe]
  split
  · case isTrue hpos => exact hsubscribed (by omega)
  · split
    · exact (h.write cmd n).reset
    · exact h.write cmd n

theorem Hears.step (h : s.Hears) (hgood : s.IsGood round) : (s.step round).Hears := by
  rw [NagiosListener.step]
  split
  · exact h
  · split
    · exact { h with noException := by simp }
    · rw [IsGood] at hgood
      split
      · case isTrue hhost =>
          rw [if_pos hhost] at hgood
          refine h.subscribe hgood fun hsize => ?_
          exact { h.write _ _ with hostWritten := fun _ => writtenInFull_append_write s.calls hsize }
      · case isFalse hhost =>
          rw [if_neg hhost] at hgood
          split
          · case isTrue hservice =>
              rw [if_pos hservice] at hgood
              refine h.subscribe hgood fun hsize => ?_
              exact { h.write _ _ with
                serviceWritten := fun _ => writtenInFull_append_write s.calls hsize }
          · case isFalse hservice =>
              rw [if_neg hservice] at hgood
              have hboth : BothWritten s.calls :=
                ⟨h.hostWritten (by simpa using hhost), h.serviceWritten (by simpa using hservice)⟩
              exact h.readSocket hboth hgood

/-- **The listener is not deaf.** In a run in which no command is written in part, no `Read` returns
nothing and an `int` has the new state of every check, it reads only on connections with both commands
written in full, subscribes again after each lost connection, and throws nothing. -/
theorem neverDeaf_run {rounds : List NagiosRound} (hgood : Along step IsGood initial rounds)
    {past : List NagiosRound} (hpast : past <+: rounds) : (run step initial past).NeverDeaf := by
  obtain ⟨later, rfl⟩ := hpast
  have hears : (run step initial past).Hears :=
    run_invariant (fun _ _ h => h.step) hears_initial (along_append.mp hgood).1
  exact hears.toNeverDeaf

def morning (result : ReadResult) : List NagiosRound :=
  [⟨false, 27, .timedOut⟩, ⟨false, 30, .timedOut⟩, ⟨false, 0, result⟩]

theorem neverDeaf_morning : (run step initial (morning .failed)).NeverDeaf := by
  have hhost : ¬((0 : Int) < 27 ∧ (27 : Int) < hostCheckSubscribeCmd.size) := by decide
  have hservice : ¬((0 : Int) < 30 ∧ (30 : Int) < serviceCheckSubscribeCmd.size) := by decide
  have hread : ∀ msg, ReadResult.failed = .bytes msg →
      msg ≠ [] ∧ ∀ c, readCheck msg = some c → stoi c.newState ≠ none := by simp
  have hgood : Along step IsGood initial (morning .failed) := ⟨hhost, hservice, hread, trivial⟩
  exact neverDeaf_run hgood List.prefix_rfl

/-- A connection that was closed is read as an empty message, and is not reset. -/
theorem not_neverDeaf_closed : ¬(run step initial (morning (.bytes []))).NeverDeaf := by
  intro h
  obtain ⟨tried, rest, hlater, -⟩ := h.lostResubscribes
    [.write hostCheckSubscribeCmd 27, .write serviceCheckSubscribeCmd 30] (.bytes []) [] (by decide)
    (.inl (by decide))
  simp at hlater

end NagiosListener

end DshLmc
