import DshLmc.Proof.ArchivingNames

/-!
# Contexts

What the device archives is what the context that is set asks for: when a context is set, each signal
is looked up under its name in the list and started or stopped.
-/

namespace DshLmc

open HdbConfig

theorem modify_append_cons {α : Type} (f : α → α) (pre : List α) (x : α) (post : List α) :
    (pre ++ x :: post).modify pre.length f = pre ++ f x :: post := by
  induction pre with
  | nil => rfl
  | cons y pre ih => exact congrArg (y :: ·) ih

theorem modify_of_fixed {α : Type} {f : α → α} {l : List α} {i : Nat} {x : α} (hx : l[i]? = some x)
    (hf : f x = x) : l.modify i f = l := by
  apply List.ext_getElem?
  intro j
  rw [List.getElem?_modify]
  split
  · rename_i hij
    rw [← hij, hx]
    exact congrArg some hf
  · simp

namespace HdbSignal

variable {sig : HdbSignal}

theorem start_of_running (h : sig.running = true) : sig.start = sig := by
  simp [start, SignalFlags.start, h]

theorem stop_of_stopped (h : sig.stopped = true) : sig.stop = sig := by
  simp [stop, SignalFlags.stop, h]

theorem flags_start (hone : sig.toSignalFlags.One) : sig.start.toSignalFlags = ⟨true, false, false⟩ := by
  change sig.toSignalFlags.start = _
  rcases hone with hflags | hflags | hflags <;> rw [hflags] <;> rfl

theorem flags_stop (hone : sig.toSignalFlags.One) : sig.stop.toSignalFlags = ⟨false, false, true⟩ := by
  change sig.toSignalFlags.stop = _
  rcases hone with hflags | hflags | hflags <;> rw [hflags] <;> rfl

end HdbSignal

namespace SharedData

variable {d : SharedData} {i : Nat} {sig : HdbSignal} {signame : List Char}

theorem ask_eq (hfind : d.find signame = .ok (some i)) (hsig : d.signals[i]? = some sig)
    (property : HdbSignal → Bool) : d.ask signame property = .ok (property sig) := by
  refine except_bind_eq_ok_iff.mpr ⟨some i, hfind, ?_⟩
  simp only [Option.bind_some, hsig]
  rfl

theorem onSignal_eq (hfind : d.find signame = .ok (some i)) (hsig : d.signals[i]? = some sig)
    (change : HdbSignal → HdbSignal) (counters : SignalCounters → SignalFlags → SignalCounters) :
    d.onSignal signame change counters = .ok { d with
      toSignalCounters := counters d.toSignalCounters sig.toSignalFlags
      signals := d.signals.modify i change } := by
  have hmatch : d.onSignal signame change counters = .ok { d with
      toSignalCounters :=
        (d.signals[i]?.map fun sig => counters d.toSignalCounters sig.toSignalFlags).getD
          d.toSignalCounters
      signals := d.signals.modify i change } := by
    unfold SharedData.onSignal
    rw [hfind]
    rfl
  rw [hmatch, hsig]
  rfl

theorem is_current_context_eq (hfind : d.find signame = .ok (some i))
    (hsig : d.signals[i]? = some sig) (context : List Char) :
    d.is_current_context signame context = .ok (sig.inContext context) := by
  unfold is_current_context
  split_ifs with halways
  · simp [HdbSignal.inContext, halways]
  · exact ask_eq hfind hsig _

end SharedData

namespace HdbEventSubscriber

open SharedData

variable {c : HdbConfig} {hdb : HdbEventSubscriber} {i : Nat} {sig : HdbSignal}

theorem run_asks {α β : Type} {f : SharedData → Except HdbError α} {a : α}
    (h : f hdb.shared = .ok a) (k : α → HdbM β) :
    (asks f >>= k).run.run hdb = (k a).run.run hdb := by
  refine run_bind_ok ?_ k
  exact congrArg (·, hdb) h

theorem run_get {β : Type} (k : HdbEventSubscriber → HdbM β) :
    ((get : HdbM HdbEventSubscriber) >>= k).run.run hdb = (k hdb).run.run hdb := rfl

/-- What a change of one signal does to the device. -/
def Changes (m : HdbM Unit) (hdb : HdbEventSubscriber) (signals : List HdbSignal) : Prop :=
  ∃ hdb', m.run.run hdb = (.ok (), hdb') ∧ hdb'.context_set = hdb.context_set
    ∧ hdb'.shared.signals = signals

theorem changes_pure : Changes (pure ()) hdb hdb.shared.signals := ⟨hdb, rfl, rfl, rfl⟩

theorem changes_shares {r : SharedData.Call} {d : SharedData} (h : hdb.shared.call r = .ok d) :
    Changes (shares r) hdb d.signals := by
  refine ⟨{ hdb with shared := d }, run_attempt_ok ?_, rfl, rfl⟩
  rw [h]
  rfl

section Listed

variable (hc : c.Resolves) (hkept : hdb.Kept c) (hsig : hdb.shared.signals[i]? = some sig)
include hkept hsig

theorem fixed_listed : c.Fixed sig.name := (hkept.regular sig (List.mem_of_getElem? hsig)).name

theorem find_listed : hdb.shared.find sig.name = .ok (some i) :=
  hkept.regular.find_of_listed hkept.sound hsig (fixed_listed hkept hsig) rfl

include hc

/-- A signal that is listed is found under the name that the commands make of its own. -/
theorem find_fixed : hdb.shared.find (sig.name.map Char.toLower) = .ok (some i) := by
  obtain ⟨hfixed, hsame⟩ := (fixed_listed hkept hsig).lower hc
  exact hkept.regular.find_of_listed hkept.sound hsig hfixed hsame.symm

theorem run_fix_listed {β : Type} (k : List Char → HdbM β) :
    (fix_tango_host c sig.name >>= k).run.run hdb = (k (sig.name.map Char.toLower)).run.run hdb := by
  refine run_bind_ok ?_ k
  change (((c.fix_tango_host sig.name).run.run hdb.domain_map).1, _) = _
  rw [(fixed_listed hkept hsig).fix hc hkept.remembers]

/-- A call for a signal that is only made where it changes the signal. -/
theorem changes_call {r : Call} {change : HdbSignal → HdbSignal}
    {counters : SignalCounters → SignalFlags → SignalCounters}
    (hr : ∀ d : SharedData, d.call r = d.onSignal (sig.name.map Char.toLower) change counters)
    {needed : Bool} (hneeded : needed = false → change sig = sig) :
    Changes (if needed then shares r else pure ()) hdb (hdb.shared.signals.modify i change) := by
  cases needed with
  | true =>
      have hcall := (hr hdb.shared).trans (onSignal_eq (find_fixed hc hkept hsig) hsig change counters)
      exact changes_shares hcall
  | false =>
      rw [modify_of_fixed hsig (hneeded rfl)]
      exact changes_pure

theorem changes_attribute_start :
    Changes (attribute_start c sig.name) hdb (hdb.shared.signals.modify i HdbSignal.start) := by
  have hfind := find_fixed hc hkept hsig
  have hone := hkept.sound.tallied.one sig (List.mem_of_getElem? hsig)
  have hrun : (attribute_start c sig.name).run.run hdb
      = (if sig.paused || sig.stopped then shares (.start (sig.name.map Char.toLower))
        else pure ()).run.run hdb := by
    have hpaused := ask_eq hfind hsig fun sig => sig.paused
    have hstopped := ask_eq hfind hsig fun sig => sig.stopped
    exact (run_fix_listed hc hkept hsig _).trans ((run_asks hpaused _).trans (run_asks hstopped _))
  have hneeded : (sig.paused || sig.stopped) = false → sig.start = sig :=
    fun hoff => HdbSignal.start_of_running (hone.running hoff)
  unfold Changes
  rw [hrun]
  exact changes_call hc hkept hsig (fun _ => rfl) hneeded

theorem changes_attribute_stop :
    Changes (attribute_stop c sig.name) hdb (hdb.shared.signals.modify i HdbSignal.stop) := by
  have hfind := find_fixed hc hkept hsig
  have hone := hkept.sound.tallied.one sig (List.mem_of_getElem? hsig)
  have hrun : (attribute_stop c sig.name).run.run hdb
      = (if sig.running || sig.paused then shares (.stop (sig.name.map Char.toLower))
        else pure ()).run.run hdb := by
    have hrunning := ask_eq hfind hsig fun sig => sig.running
    have hpaused := ask_eq hfind hsig fun sig => sig.paused
    exact (run_fix_listed hc hkept hsig _).trans ((run_asks hrunning _).trans (run_asks hpaused _))
  have hneeded : (sig.running || sig.paused) = false → sig.stop = sig :=
    fun hoff => HdbSignal.stop_of_stopped (hone.stopped hoff)
  unfold Changes
  rw [hrun]
  exact changes_call hc hkept hsig (fun _ => rfl) hneeded

/-- What the context that is set makes of a signal. -/
def archived (context : List Char) (sig : HdbSignal) : HdbSignal :=
  if sig.inContext context then sig.start else sig.stop

theorem changes_archive : Changes (archive c sig.name) hdb
    (hdb.shared.signals.modify i fun _ => archived hdb.context_set sig) := by
  have hrun : (archive c sig.name).run.run hdb
      = (if sig.inContext hdb.context_set then attribute_start c sig.name
        else attribute_stop c sig.name).run.run hdb :=
    (run_get _).trans (run_asks (is_current_context_eq (find_listed hkept hsig) hsig _) _)
  have hmodify : ∀ change : HdbSignal → HdbSignal,
      hdb.shared.signals.modify i change = hdb.shared.signals.modify i fun _ => change sig := by
    intro change
    apply List.ext_getElem?
    intro j
    rw [List.getElem?_modify, List.getElem?_modify]
    split
    · rename_i hij
      rw [← hij, hsig]
      rfl
    · rfl
  unfold Changes
  rw [hrun]
  unfold archived
  split_ifs
  · rw [← hmodify]
    exact changes_attribute_start hc hkept hsig
  · rw [← hmodify]
    exact changes_attribute_stop hc hkept hsig

end Listed

/-- One signal after another, what is still to come stays as it was. -/
theorem changes_forM_archive (hc : c.Resolves) {pre post : List HdbSignal}
    (hsignals : hdb.shared.signals = pre ++ post) (hkept : hdb.Kept c) :
    Changes ((post.map HdbSignal.name).forM fun signame => archive c signame) hdb
      (pre ++ post.map (archived hdb.context_set)) := by
  induction post generalizing hdb pre with
  | nil =>
      have hall : hdb.shared.signals = pre ++ ([] : List HdbSignal).map (archived hdb.context_set) :=
        hsignals
      rw [← hall]
      exact changes_pure
  | cons sig post ih =>
      have hsig : hdb.shared.signals[pre.length]? = some sig := by
        rw [hsignals]
        simp
      obtain ⟨hdb', hrun, hset, hchanged⟩ := changes_archive hc hkept hsig
      rw [hsignals, modify_append_cons] at hchanged
      have hkept' := preserves_archive hc (fixed_listed hkept hsig).given hdb hkept
      rw [hrun] at hkept'
      have hsplit : hdb'.shared.signals = (pre ++ [archived hdb.context_set sig]) ++ post := by
        rw [hchanged, List.append_assoc]
        rfl
      obtain ⟨hdb'', hrest, hset', hchanged'⟩ := ih hsplit hkept'
      refine ⟨hdb'', (run_bind_ok hrun _).trans hrest, hset'.trans hset, ?_⟩
      rw [hchanged', hset, List.append_assoc]
      rfl

theorem changes_write_Context (hc : c.Resolves) (hkept : hdb.Kept c) {argin : List Char}
    (hargin : (c.context argin).isSome = true) :
    ∃ hdb', (command c (.write_Context argin)).run.run hdb = (.ok (), hdb')
      ∧ hdb'.context_set = upperText argin
      ∧ hdb'.shared.signals = hdb.shared.signals.map (archived (upperText argin)) := by
  obtain ⟨context, hcontext⟩ := Option.isSome_iff_exists.mp hargin
  have hset : Kept c { hdb with context_set := upperText argin } :=
    ⟨hkept.sound, hkept.regular, hkept.remembers⟩
  have hall : { hdb with context_set := upperText argin }.shared.signals
      = [] ++ hdb.shared.signals := (List.nil_append _).symm
  obtain ⟨hdb', hrun, hcontext_set, hsignals⟩ := changes_forM_archive hc hall hset
  refine ⟨hdb', ?_, hcontext_set, hsignals⟩
  simp only [command, write_Context, hcontext]
  exact hrun

theorem inContext_upperText (context : List Char) (sig : HdbSignal) :
    sig.inContext (upperText context) = sig.inContext context := by
  unfold HdbSignal.inContext
  rw [upperText_upperText]

theorem archived_conf (context : List Char) (sig : HdbSignal) :
    (archived context sig).conf = sig.conf := by
  unfold archived
  split_ifs <;> rfl

theorem inContext_of_conf {sig sig' : HdbSignal} (h : sig.conf = sig'.conf) (context : List Char) :
    sig.inContext context = sig'.inContext context := by
  have hupper : sig.contexts_upper = sig'.contexts_upper :=
    congrArg (fun conf : List Char × List (List Char) × List (List Char) × UInt32 => conf.2.2.1) h
  rw [HdbSignal.inContext, HdbSignal.inContext, hupper]

/-- **The context that is set.** After any run, setting a context that is defined returns, changes
nothing in what is configured, starts the signals of the context and stops all the others. -/
theorem context_archived (hc : c.Resolves) {tmplist : List (List Char)}
    (hinit : init_device c tmplist = some hdb) (hlines : c.LinesGiven tmplist) {cmds : List Command}
    (hnames : ∀ cmd ∈ cmds, cmd.Names Given) {argin : List Char}
    (hargin : (c.context argin).isSome = true) :
    ∃ hdb', (command c (.write_Context argin)).run.run (run (step c) hdb cmds) = (.ok (), hdb')
      ∧ hdb'.context_set = upperText argin
      ∧ hdb'.shared.signals.map HdbSignal.conf
        = (run (step c) hdb cmds).shared.signals.map HdbSignal.conf
      ∧ ∀ sig ∈ hdb'.shared.signals, sig.toSignalFlags
        = if sig.inContext argin then ⟨true, false, false⟩ else ⟨false, false, true⟩ := by
  have hkept := kept_run hc hlines hinit hnames
  obtain ⟨hdb', hrun, hset, hsignals⟩ := changes_write_Context hc hkept hargin
  refine ⟨hdb', hrun, hset, ?_, ?_⟩
  · rw [hsignals, List.map_map]
    exact List.map_congr_left fun sig _ => archived_conf _ sig
  · intro sig' hsig'
    rw [hsignals] at hsig'
    obtain ⟨sig, hsig, rfl⟩ := List.mem_map.mp hsig'
    have hone := hkept.sound.tallied.one sig hsig
    rw [inContext_of_conf (archived_conf _ sig), archived, inContext_upperText]
    split_ifs
    · exact HdbSignal.flags_start hone
    · exact HdbSignal.flags_stop hone

/-- Two signals are in the context, and one is not. -/
theorem context_archived_dish :
    (run (step dishHdb) dishDevice dishCommands).shared.signals.map
        (HdbSignal.inContext "stow".toList) = [true, true, false]
      ∧ ∃ hdb', (command dishHdb (.write_Context "stow".toList)).run.run
          (run (step dishHdb) dishDevice dishCommands) = (.ok (), hdb')
        ∧ hdb'.context_set = "STOW".toList
        ∧ hdb'.shared.signals.map HdbSignal.conf
          = (run (step dishHdb) dishDevice dishCommands).shared.signals.map HdbSignal.conf
        ∧ ∀ sig ∈ hdb'.shared.signals, sig.toSignalFlags
          = if sig.inContext "stow".toList then ⟨true, false, false⟩ else ⟨false, false, true⟩ :=
  ⟨by decide, context_archived resolves_dish init_device_dish linesGiven_dish names_dish (by decide)⟩

end HdbEventSubscriber

end DshLmc
