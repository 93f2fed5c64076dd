import DshLmc.Archiving.SubscribeThread
import DshLmc.Proof.ArchivingSetup

/-!
# The property is up to date

The commands and the thread of the archiver count the changes of the configuration, and between a
change and its count, or a snapshot and the property, the other party may move. Whatever the order, a
restart at a quiet moment brings the configuration back.
-/

namespace DshLmc

def Saver.map {α β : Type*} (f : α → β) : Saver α → Saver β
  | .waiting => .waiting
  | .decided => .decided
  | .took snapshot => .took (f snapshot)
  | .wrote => .wrote
  | .compared => .compared
  | .read n => .read n

namespace Archiver

open HdbConfig
open HdbEventSubscriber SharedData

abbrev Configuration := List (List Char × List (List Char) × UInt32)

variable (c : HdbConfig)

def restored (tmplist : List (List Char)) : Option Configuration :=
  (init_device c tmplist).map fun hdb => hdb.shared.signals.map configured

/-- The device as a counter of changes: what is saved is what a restart would bring back. -/
def counter (a : Archiver) : DirtyCounter (Option Configuration) where
  config := some (a.shared.signals.map configured)
  saved := restored c a.AttributeList
  action := a.shared.action
  editor := a.command
  saver := a.thread.map (restored c)

/-- What a move is for the counter, where it is anything. -/
def counterMove (a : Archiver) : ArchiverMove → Option (DirtyMove (Option Configuration))
  | .change signame conf =>
      ((a.fixed c signame).1.bind fun signame => applyChange c signame conf a.shared).toOption.map
        fun d => .edit (some (d.signals.map configured))
  | .compareUp => some .compareUp
  | .readUp => some .readUp
  | .writeUp => some .writeUp
  | .decide => some .decide
  | .take => some .take
  | .put succeeds => some (.write succeeds)
  | .compareDown => some .compareDown
  | .readDown => some .readDown
  | .writeDown => some .writeDown
  | _ => none

variable {c} {a : Archiver} {d d' : SharedData} {signame : List Char} {conf : ConfChange}

theorem action_applyChange (h : applyChange c signame conf d = .ok d') : d'.action = d.action := by
  cases conf with
  | add requested ttl =>
      obtain ⟨-, -, rfl⟩ := addSignal_eq_ok h
      rfl
  | remove =>
      obtain ⟨i, sig, -, rfl⟩ := removeSignal_eq_ok h
      rfl
  | update requested =>
      obtain ⟨i, sig, -, rfl⟩ := configure_eq_ok h
      rfl
  | updatettl ttl =>
      obtain ⟨i, sig, -, rfl⟩ := configure_eq_ok h
      rfl

theorem onSignal_leaves {change : HdbSignal → HdbSignal}
    {counters : SignalCounters → SignalFlags → SignalCounters}
    (hconf : ∀ sig, (change sig).conf = sig.conf)
    (hd : d.onSignal signame change counters = .ok d') :
    d'.signals.map configured = d.signals.map configured ∧ d'.action = d.action := by
  obtain ⟨i, sig, -, rfl⟩ := onSignal_eq_ok hd
  exact ⟨map_modify_eq (fun sig => configured_of_conf (hconf sig)) _, rfl⟩

/-- An operation that leaves the configuration and the count leaves the counter. -/
theorem counter_onShared {f : SharedData → Except HdbError SharedData}
    (hf : ∀ d', f a.shared = .ok d' →
      d'.signals.map configured = a.shared.signals.map configured ∧ d'.action = a.shared.action) :
    (a.onShared f).counter c = a.counter c := by
  unfold onShared counter
  cases hresult : f a.shared with
  | error e => rfl
  | ok d' =>
      obtain ⟨hconfig, haction⟩ := hf d' hresult
      simp only [Except.toOption, Option.getD_some, hconfig, haction]

/-- What a command leaves that changes the configuration: a change, or a name that it remembers. -/
theorem change_cases (a : Archiver) (signame : List Char) (conf : ConfChange) :
    (∃ d, ((a.fixed c signame).1.bind fun signame => applyChange c signame conf a.shared) = .ok d ∧
      a.change c signame conf
        = { a with shared := d, domain_map := (a.fixed c signame).2, command := .edited }) ∨
    (∃ e, ((a.fixed c signame).1.bind fun signame => applyChange c signame conf a.shared) = .error e ∧
      a.change c signame conf = { a with domain_map := (a.fixed c signame).2 }) := by
  unfold change
  rcases a.fixed c signame with ⟨outcome, domain_map⟩
  cases outcome with
  | error e => exact .inr ⟨e, rfl, rfl⟩
  | ok fixed =>
      cases hresult : applyChange c fixed conf a.shared with
      | error e => exact .inr ⟨e, hresult, by simp only [hresult]⟩
      | ok d => exact .inl ⟨d, hresult, by simp only [hresult]⟩

theorem restored_confStrings (hc : c.Resolves) (hplain : c.PlainContexts)
    (hdefault : (c.context c.defaultStrategy).isSome = true) (hsound : d.Sound)
    (hregular : d.Regular c) : restored c d.confStrings = some (d.signals.map configured) := by
  obtain ⟨hdb, hinit, hsignals⟩ := init_confStrings hc hplain hdefault hsound hregular
  rw [restored, hinit, Option.map_some, hsignals, List.map_map]
  exact congrArg some (List.map_congr_left fun sig hmem => configured_restarted hc (hregular sig hmem))

/-- A move of the device is one of the counter, or none. -/
theorem counter_step (hc : c.Resolves) (hplain : c.PlainContexts)
    (hdefault : (c.context c.defaultStrategy).isSome = true) (hsound : a.shared.Sound)
    (hregular : a.shared.Regular c) (move : ArchiverMove) :
    (step c a move).counter c = (a.counterMove c move).elim (a.counter c) (a.counter c).step := by
  cases move with
  | lookup signame => rfl
  | change signame conf =>
      simp only [step, counterMove]
      obtain ⟨d, hresult, hchange⟩ | ⟨e, hresult, hchange⟩ := a.change_cases (c := c) signame conf
      · have haction : d.action = a.shared.action := by
          obtain ⟨fixed, -, happly⟩ := except_bind_eq_ok_iff.mp hresult
          exact action_applyChange happly
        rw [hresult, hchange]
        cases hcommand : a.command with
        | quiet => simp [counter, DirtyCounter.step, hcommand, haction, Except.toOption]
        | _ => simp [counter, DirtyCounter.step, hcommand, Except.toOption]
      · rw [hresult, hchange]
        cases hcommand : a.command with
        | quiet => simp [counter, hcommand, Except.toOption]
        | _ => rfl
  | compareUp =>
      simp only [step, counter, counterMove, Option.elim_some, DirtyCounter.step]
      cases hcommand : a.command with
      | edited => rfl
      | _ => simp only [hcommand]
  | readUp =>
      simp only [step, counter, counterMove, Option.elim_some, DirtyCounter.step]
      cases hcommand : a.command with
      | compared => rfl
      | _ => simp only [hcommand]
  | writeUp =>
      simp only [step, counter, counterMove, Option.elim_some, DirtyCounter.step]
      cases hcommand : a.command with
      | read n => rfl
      | _ => simp only [hcommand]
  | start signame => exact counter_onShared fun _ => onSignal_leaves fun _ => rfl
  | pause signame => exact counter_onShared fun _ => onSignal_leaves fun _ => rfl
  | stop signame => exact counter_onShared fun _ => onSignal_leaves fun _ => rfl
  | decide =>
      simp only [step, counter, counterMove, Option.elim_some, DirtyCounter.step]
      cases hthread : a.thread with
      | waiting =>
          rw [apply_ite (Saver.map (restored c))]
          rfl
      | _ => simp only [hthread, Saver.map]
  | take =>
      simp only [step, counter, counterMove, Option.elim_some, DirtyCounter.step]
      cases hthread : a.thread with
      | decided => simp only [Saver.map, restored_confStrings hc hplain hdefault hsound hregular]
      | _ => simp only [hthread, Saver.map]
  | put succeeds =>
      simp only [step, counter, counterMove, Option.elim_some, DirtyCounter.step]
      cases hthread : a.thread with
      | took prop => cases succeeds <;> rfl
      | _ => simp only [hthread, Saver.map]
  | compareDown =>
      simp only [step, counter, counterMove, Option.elim_some, DirtyCounter.step]
      cases hthread : a.thread with
      | wrote =>
          rw [apply_ite (Saver.map (restored c))]
          rfl
      | _ => simp only [hthread, Saver.map]
  | readDown =>
      simp only [step, counter, counterMove, Option.elim_some, DirtyCounter.step]
      cases hthread : a.thread with
      | compared => rfl
      | _ => simp only [hthread, Saver.map]
  | writeDown =>
      simp only [step, counter, counterMove, Option.elim_some, DirtyCounter.step]
      cases hthread : a.thread with
      | read n => rfl
      | _ => simp only [hthread, Saver.map]

/-- The names of a move may be given. -/
def Named : ArchiverMove → Prop
  | .lookup signame => Given signame
  | .change signame _ => Given signame
  | _ => True

/-- What is put in the database stays there, and what the thread read of `action` is still there when
it writes one less. -/
def Untorn (a : Archiver) : ArchiverMove → Prop
  | .put succeeds => succeeds = true
  | .writeDown => ∀ n, a.thread = .read n → a.shared.action = n
  | _ => True

structure Inv (c : HdbConfig) (a : Archiver) : Prop where
  sound : a.shared.Sound
  regular : a.shared.Regular c
  remembers : c.Remembers a.domain_map
  counter : (a.counter c).Inv

/-- What a change makes of the signals keeps them sound and regular. -/
theorem kept_applyChange (hdefault : (c.context c.defaultStrategy).isSome = true)
    (hfixed : c.Fixed signame) (hsound : d.Sound) (hregular : d.Regular c)
    (hd : applyChange c signame conf d = .ok d') : d'.Sound ∧ d'.Regular c := by
  cases conf with
  | add requested ttl =>
      exact ⟨hsound.addSignal hd,
        hregular.addSignal hfixed (fun _ => isSome_of_mem_appliedStrategy hdefault) hd⟩
  | remove => exact ⟨hsound.removeSignal hd, hregular.removeSignal hd⟩
  | update requested =>
      refine ⟨hsound.configure ?_ ?_ hd,
        hregular.withContexts (fun _ => isSome_of_mem_appliedStrategy hdefault) hd⟩
      · exact fun _ => rfl
      · exact fun _ => rfl
  | updatettl ttl =>
      refine ⟨hsound.configure ?_ ?_ hd, hregular.withTtl hd⟩
      · exact fun _ => rfl
      · exact fun _ => rfl

theorem shared_step (hc : c.Resolves) (hdefault : (c.context c.defaultStrategy).isSome = true)
    (h : a.Inv c) {move : ArchiverMove} (hnamed : Named move) :
    (step c a move).shared.Sound ∧ (step c a move).shared.Regular c
      ∧ c.Remembers (step c a move).domain_map := by
  have hkept := And.intro h.sound (And.intro h.regular h.remembers)
  have hcall : ∀ r : Call, r.Regular c → (a.onShared (SharedData.call r)).shared.Sound
      ∧ (a.onShared (SharedData.call r)).shared.Regular c ∧ c.Remembers a.domain_map := by
    intro r hr
    unfold onShared
    cases hresult : a.shared.call r with
    | error e => exact hkept
    | ok d => exact ⟨h.sound.call hresult, h.regular.call hr hresult, h.remembers⟩
  cases move with
  | lookup signame =>
      obtain ⟨fixed, domain_map, hrun, hm, -⟩ := fix_tango_host_given hc h.remembers hnamed
      have hfix : a.fixed c signame = (.ok fixed, domain_map) := hrun
      refine ⟨h.sound, h.regular, ?_⟩
      change c.Remembers (a.fixed c signame).2
      rw [hfix]
      exact hm
  | change signame conf =>
      obtain ⟨fixed, domain_map, hrun, hm, hfixed⟩ := fix_tango_host_given hc h.remembers hnamed
      have hfix : a.fixed c signame = (.ok fixed, domain_map) := hrun
      simp only [step]
      split
      · obtain ⟨d, hresult, hchange⟩ | ⟨e, -, hchange⟩ := a.change_cases (c := c) signame conf
        · rw [hchange, hfix]
          rw [hfix] at hresult
          obtain ⟨hsound, hregular⟩ :=
            kept_applyChange hdefault hfixed h.sound h.regular hresult
          exact ⟨hsound, hregular, hm⟩
        · rw [hchange, hfix]
          exact ⟨h.sound, h.regular, hm⟩
      · exact hkept
  | start signame => exact hcall (.start signame) trivial
  | pause signame => exact hcall (.pause signame) trivial
  | stop signame => exact hcall (.stop signame) trivial
  | writeUp =>
      simp only [step]
      split
      · exact ⟨h.sound.withAction _, h.regular, h.remembers⟩
      · exact hkept
  | writeDown =>
      simp only [step]
      split
      · exact ⟨h.sound.withAction _, h.regular, h.remembers⟩
      · exact hkept
  | _ =>
      simp only [step]
      split <;> exact hkept

theorem kept_counterMove {move : ArchiverMove} (huntorn : a.Untorn move)
    {dirty : DirtyMove (Option Configuration)} (hmove : a.counterMove c move = some dirty) :
    (a.counter c).Kept dirty := by
  cases move with
  | change signame conf =>
      obtain ⟨d, -, rfl⟩ := Option.map_eq_some_iff.mp hmove
      trivial
  | put succeeds =>
      rw [← Option.some.inj hmove]
      exact huntorn
  | writeDown =>
      rw [← Option.some.inj hmove]
      intro n hread
      refine huntorn n ?_
      change a.thread.map (restored c) = .read n at hread
      cases hthread : a.thread with
      | read m =>
          rw [hthread] at hread
          exact congrArg Saver.read (Saver.read.inj hread)
      | _ =>
          rw [hthread] at hread
          cases hread
  | lookup signame => cases hmove
  | start signame => cases hmove
  | pause signame => cases hmove
  | stop signame => cases hmove
  | _ =>
      rw [← Option.some.inj hmove]
      trivial

theorem inv_step (hc : c.Resolves) (hplain : c.PlainContexts)
    (hdefault : (c.context c.defaultStrategy).isSome = true) (a : Archiver) (move : ArchiverMove)
    (h : a.Inv c) (hmove : Named move ∧ a.Untorn move) : (step c a move).Inv c := by
  obtain ⟨hsound, hregular, hremembers⟩ := shared_step hc hdefault h hmove.1
  refine ⟨hsound, hregular, hremembers, ?_⟩
  rw [counter_step hc hplain hdefault h.sound h.regular]
  cases hcounter : a.counterMove c move with
  | none => exact h.counter
  | some dirty => exact DirtyCounter.inv_step _ _ h.counter (kept_counterMove hmove.2 hcounter)

/-- A signal is added and saved. -/
def savedOnce : List ArchiverMove :=
  [.change "mid/dish/1/temp".toList (.add "RUN".toList 24), .compareUp, .readUp, .decide, .writeUp,
    .decide, .take, .put true, .compareDown, .readDown, .writeDown]

end Archiver

end DshLmc
