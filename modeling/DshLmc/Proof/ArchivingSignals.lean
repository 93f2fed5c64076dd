import DshLmc.Archiving.HdbEventSubscriber
import DshLmc.Library.Run
import DshLmc.Proof.SignalTallies

/-!
# The signals of the archiver in every run

Whatever calls come, under whatever names, the counters of the device are those of its signals, every
signal has one flag, and no signal is there twice. A call that throws has not found its signal, and
has changed nothing.
-/

namespace DshLmc

section Modify

variable {α β : Type} {l : List α}

theorem map_modify_eq {g : α → β} {f : α → α} (h : ∀ x, g (f x) = g x) (i : Nat) :
    (l.modify i f).map g = l.map g := by
  apply List.ext_getElem?
  intro j
  rw [List.getElem?_map, List.getElem?_map, List.getElem?_modify]
  split
  · cases l[j]? <;> simp [h]
  · simp

theorem forall_mem_modify {P : α → Prop} (h : ∀ x ∈ l, P x) {f : α → α} (i : Nat)
    (hf : ∀ x ∈ l, P (f x)) : ∀ x ∈ l.modify i f, P x := by
  intro y hy
  obtain ⟨j, hj⟩ := List.mem_iff_getElem?.mp hy
  rw [List.getElem?_modify] at hj
  obtain ⟨x, hx, hxy⟩ := Option.map_eq_some_iff.mp hj
  have hmem : x ∈ l := List.mem_of_getElem? hx
  split at hxy
  · exact hxy ▸ hf x hmem
  · exact hxy ▸ h x hmem

end Modify

def HdbSignal.conf (sig : HdbSignal) : List Char × List (List Char) × List (List Char) × UInt32 :=
  (sig.name, sig.contexts, sig.contexts_upper, sig.ttl)

section Lookup

variable {signals : List HdbSignal} {signame : List Char} {i : Nat}

theorem findWithoutDomain_eq_none (h : findWithoutDomain signame signals = .ok none) :
    ∀ sig ∈ signals, compare_without_domain sig.name signame = .ok false := by
  induction signals with
  | nil => exact fun _ hsig => absurd hsig List.not_mem_nil
  | cons sig signals ih =>
      obtain ⟨found, hcompare, hrest⟩ := except_bind_eq_ok_iff.mp h
      cases found with
      | true => exact absurd (Except.ok.inj hrest) (Option.some_ne_none 0)
      | false =>
          obtain ⟨j, hj, hnone⟩ := except_bind_eq_ok_iff.mp hrest
          obtain rfl : j = none := Option.map_eq_none_iff.mp (Except.ok.inj hnone)
          exact List.forall_mem_cons.mpr ⟨hcompare, ih hj⟩

theorem findWithoutDomain_eq_some (h : findWithoutDomain signame signals = .ok (some i)) :
    ∃ sig, signals[i]? = some sig := by
  induction signals generalizing i with
  | nil => exact absurd (Except.ok.inj h) (Option.some_ne_none i).symm
  | cons sig signals ih =>
      obtain ⟨found, -, hrest⟩ := except_bind_eq_ok_iff.mp h
      cases found with
      | true =>
          obtain rfl : 0 = i := Option.some.inj (Except.ok.inj hrest)
          exact ⟨sig, rfl⟩
      | false =>
          obtain ⟨j, hj, hsome⟩ := except_bind_eq_ok_iff.mp hrest
          obtain ⟨k, rfl, rfl⟩ := Option.map_eq_some_iff.mp (Except.ok.inj hsome)
          exact ih hj

end Lookup

namespace SharedData

variable {d d' : SharedData} {signame : List Char} {i : Nat}

theorem find_eq_none (h : d.find signame = .ok none) :
    ∀ sig ∈ d.signals, compare_without_domain sig.name signame = .ok false := by
  unfold SharedData.find at h
  split at h
  · exact absurd (Except.ok.inj h) (Option.some_ne_none _)
  · exact findWithoutDomain_eq_none h

theorem find_eq_some (h : d.find signame = .ok (some i)) : ∃ sig, d.signals[i]? = some sig := by
  unfold SharedData.find at h
  split at h
  · rename_i j hj
    obtain rfl : j = i := Option.some.inj (Except.ok.inj h)
    obtain ⟨hlt, -⟩ := List.findIdx?_eq_some_iff_getElem.mp hj
    exact ⟨d.signals[j], List.getElem?_eq_getElem hlt⟩
  · exact findWithoutDomain_eq_some h

/-- The counters are those of the signals, and no two names are compared as the same. -/
structure Sound (d : SharedData) : Prop where
  tallied : Tallied HdbSignal.toSignalFlags d.toSignalCounters d.signals
  names : (d.signals.map HdbSignal.name).Pairwise fun name name' =>
    compare_without_domain name name' ≠ .ok true

theorem sound_empty : Sound ⟨⟨0, 0, 0, 0⟩, HDB_NOTHING, []⟩ := ⟨Tallied.nil, List.Pairwise.nil⟩

theorem Sound.withAction (h : d.Sound) (action : Nat) : Sound { d with action := action } :=
  ⟨h.tallied, h.names⟩

theorem addSignal_eq_ok {contexts : List (List Char)} {ttl : UInt32}
    (h : d.addSignal signame contexts ttl = .ok d') : d.find signame = .ok none ∧ '/' ∈ signame ∧
      d' = { d with
        toSignalCounters := d.toSignalCounters.add
        signals := d.signals ++ [HdbSignal.added signame contexts ttl] } := by
  obtain ⟨found, hfind, hadded⟩ := except_bind_eq_ok_iff.mp h
  split_ifs at hadded with hfound hslash
  · rw [Option.not_isSome_iff_eq_none] at hfound
    exact ⟨hfound ▸ hfind, hslash, (Except.ok.inj hadded).symm⟩

theorem onSignal_eq_ok {change : HdbSignal → HdbSignal}
    {counters : SignalCounters → SignalFlags → SignalCounters}
    (h : d.onSignal signame change counters = .ok d') : ∃ i sig, d.signals[i]? = some sig ∧
      d' = { d with
        toSignalCounters := counters d.toSignalCounters sig.toSignalFlags
        signals := d.signals.modify i change } := by
  obtain ⟨found, hfind, hchanged⟩ := except_bind_eq_ok_iff.mp h
  cases found with
  | none => cases hchanged
  | some i =>
      obtain ⟨sig, hsig⟩ := find_eq_some hfind
      refine ⟨i, sig, hsig, ?_⟩
      simp only [hsig, Option.map_some, Option.getD_some] at hchanged
      exact (Except.ok.inj hchanged).symm

theorem removeSignal_eq_ok (h : d.removeSignal signame = .ok d') :
    ∃ i sig, d.signals[i]? = some sig ∧ d' = { d with
      toSignalCounters := d.toSignalCounters.remove sig.toSignalFlags
      signals := d.signals.eraseIdx i } := by
  obtain ⟨found, hfind, hremoved⟩ := except_bind_eq_ok_iff.mp h
  cases found with
  | none => cases hremoved
  | some i =>
      obtain ⟨sig, hsig⟩ := find_eq_some hfind
      refine ⟨i, sig, hsig, ?_⟩
      simp only [hsig, Option.map_some, Option.getD_some] at hremoved
      exact (Except.ok.inj hremoved).symm

theorem configure_eq_ok {change : HdbSignal → HdbSignal}
    (h : d.configure signame change = .ok d') : ∃ i sig, d.signals[i]? = some sig ∧
      d' = { d with signals := d.signals.modify i change } := by
  obtain ⟨found, hfind, hchanged⟩ := except_bind_eq_ok_iff.mp h
  cases found with
  | none => cases hchanged
  | some i =>
      obtain ⟨sig, hsig⟩ := find_eq_some hfind
      exact ⟨i, sig, hsig, (Except.ok.inj hchanged).symm⟩

theorem Sound.addSignal (h : d.Sound) {contexts : List (List Char)} {ttl : UInt32}
    (hadd : d.addSignal signame contexts ttl = .ok d') : d'.Sound := by
  obtain ⟨hfind, -, rfl⟩ := addSignal_eq_ok hadd
  refine ⟨h.tallied.add rfl, ?_⟩
  rw [List.map_append, List.pairwise_append]
  refine ⟨h.names, List.pairwise_singleton _ _, ?_⟩
  intro name hname name' hname'
  obtain ⟨sig, hsig, rfl⟩ := List.mem_map.mp hname
  obtain rfl : name' = signame := List.mem_singleton.mp hname'
  rw [find_eq_none hfind sig hsig]
  exact fun heq => Bool.false_ne_true (Except.ok.inj heq)

/-- A change of one signal that moves its flags and the counters together. -/
theorem Sound.onSignal (h : d.Sound) {change : HdbSignal → HdbSignal}
    {counters : SignalCounters → SignalFlags → SignalCounters}
    (hmoves : ∀ sig c, Moves sig.toSignalFlags (change sig).toSignalFlags c
      (counters c sig.toSignalFlags))
    (hname : ∀ sig, (change sig).name = sig.name)
    (hd : d.onSignal signame change counters = .ok d') : d'.Sound := by
  obtain ⟨i, sig, hsig, rfl⟩ := onSignal_eq_ok hd
  refine ⟨h.tallied.modify hsig (hmoves sig d.toSignalCounters), ?_⟩
  rw [map_modify_eq hname]
  exact h.names

theorem Sound.removeSignal (h : d.Sound) (hd : d.removeSignal signame = .ok d') : d'.Sound := by
  obtain ⟨i, sig, hsig, rfl⟩ := removeSignal_eq_ok hd
  exact ⟨h.tallied.remove hsig, h.names.sublist ((List.eraseIdx_sublist d.signals i).map _)⟩

theorem Sound.configure (h : d.Sound) {change : HdbSignal → HdbSignal}
    (hflags : ∀ sig, (change sig).toSignalFlags = sig.toSignalFlags)
    (hname : ∀ sig, (change sig).name = sig.name)
    (hd : d.configure signame change = .ok d') : d'.Sound := by
  obtain ⟨i, sig, hsig, rfl⟩ := configure_eq_ok hd
  refine ⟨h.tallied.modify hsig ?_, ?_⟩
  · rw [hflags]
    exact moves_same _ _
  · rw [map_modify_eq hname]
    exact h.names

theorem Sound.call (h : d.Sound) {r : Call} (hd : d.call r = .ok d') : d'.Sound := by
  cases r with
  | add signame contexts ttl to_do =>
      obtain ⟨d₁, hadd, rfl⟩ := except_map_eq_ok_iff.mp hd
      exact (h.addSignal hadd).withAction _
  | remove signame =>
      obtain ⟨d₁, hremove, rfl⟩ := except_map_eq_ok_iff.mp hd
      exact (h.removeSignal hremove).withAction _
  | start signame =>
      refine h.onSignal ?_ ?_ hd
      · exact fun sig c => moves_start sig.toSignalFlags c
      · exact fun _ => rfl
  | pause signame =>
      refine h.onSignal ?_ ?_ hd
      · exact fun sig c => moves_pause sig.toSignalFlags c
      · exact fun _ => rfl
  | stop signame =>
      refine h.onSignal ?_ ?_ hd
      · exact fun sig c => moves_stop sig.toSignalFlags c
      · exact fun _ => rfl
  | update signame contexts =>
      obtain ⟨d₁, hupdate, rfl⟩ := except_map_eq_ok_iff.mp hd
      refine Sound.withAction (h.configure ?_ ?_ hupdate) _ <;> exact fun _ => rfl
  | updatettl signame ttl =>
      obtain ⟨d₁, hupdate, rfl⟩ := except_map_eq_ok_iff.mp hd
      refine Sound.withAction (h.configure ?_ ?_ hupdate) _ <;> exact fun _ => rfl

theorem Sound.step (h : d.Sound) (r : Call) : (d.step r).Sound := by
  unfold SharedData.step
  cases hcall : d.call r with
  | error e => exact h
  | ok d' => exact h.call hcall

theorem build_signal_vector_induction {c : HdbConfig} {I : SharedData → Prop}
    {list : List (List Char)}
    (hadd : ∀ d d' line r, line ∈ list → c.readSignal line = some r → I d → d.call r = .ok d' → I d')
    (h : I d) (hd : c.build_signal_vector list d = .ok d') : I d' := by
  induction list generalizing d with
  | nil => exact Except.ok.inj hd ▸ h
  | cons line list ih =>
      have hrest : ∀ d d' line' r, line' ∈ list → c.readSignal line' = some r → I d →
          d.call r = .ok d' → I d' :=
        fun d d' line' r hmem => hadd d d' line' r (List.mem_cons_of_mem line hmem)
      simp only [HdbConfig.build_signal_vector] at hd
      cases hread : c.readSignal line with
      | none => simp [hread] at hd
      | some r =>
          cases hcall : d.call r with
          | ok d₁ =>
              simp only [hread, hcall] at hd
              exact ih hrest (hadd d d₁ line r List.mem_cons_self hread h hcall) hd
          | error e =>
              simp only [hread, hcall] at hd
              cases e with
              | devFailed desc => exact ih hrest h hd
              | out_of_range => cases hd
              | logic_error => cases hd
              | null => cases hd

end SharedData

namespace HdbEventSubscriber

variable {c : HdbConfig} {tmplist : List (List Char)} {hdb : HdbEventSubscriber}

theorem init_device_eq_some (h : init_device c tmplist = some hdb) :
    (c.context c.defaultStrategy).isSome = true ∧ ∃ list,
      (c.get_hdb_signal_list tmplist).run.run [] = (.ok list, hdb.domain_map)
        ∧ c.build_signal_vector list ⟨⟨0, 0, 0, 0⟩, HDB_NOTHING, []⟩ = .ok hdb.shared := by
  unfold init_device at h
  split_ifs at h with hdefault
  refine ⟨by simpa [Option.isSome_iff_ne_none] using hdefault, ?_⟩
  cases hlist : (c.get_hdb_signal_list tmplist).run.run [] with
  | mk outcome domain_map =>
      rw [hlist] at h
      cases outcome with
      | error e => cases h
      | ok list =>
          obtain ⟨shared, hshared, rfl⟩ := Option.map_eq_some_iff.mp h
          refine ⟨list, rfl, ?_⟩
          cases hbuild : c.build_signal_vector list ⟨⟨0, 0, 0, 0⟩, HDB_NOTHING, []⟩ with
          | error e => rw [hbuild] at hshared; cases hshared
          | ok d =>
              rw [hbuild] at hshared
              exact congrArg Except.ok (Option.some.inj hshared)

theorem sound_init (h : init_device c tmplist = some hdb) : hdb.shared.Sound := by
  obtain ⟨-, list, -, hbuild⟩ := init_device_eq_some h
  exact SharedData.build_signal_vector_induction (fun _ _ _ _ _ _ hsound hcall => hsound.call hcall)
    SharedData.sound_empty hbuild

/-- **The signals of the archiver.** After any calls, from the start of the device with any property,
the counters are those of the signals, each of which has one flag, and no two names are the same
without the domain. -/
theorem sound_run (h : init_device c tmplist = some hdb) (calls : List SharedData.Call) :
    (run SharedData.step hdb.shared calls).Sound :=
  run_preserves (I := SharedData.Sound) (fun _ r hsound => hsound.step r) calls (sound_init h)

/-- An archiver with two contexts. The name server knows the host of the database. -/
def dishHdb : HdbConfig where
  contextsList := ["RUN:observing".toList, "STOW:stowed".toList]
  defaultStrategy := "RUN".toList
  TANGO_HOST := some "tangodb:10000".toList
  getaddrinfo := fun host =>
    if host.map Char.toLower = "tangodb".toList then some [some "tangodb.dish".toList] else none

def dishLines : List (List Char) := ["tango://TangoDB:10000/mid/dish/1/wind;strategy=STOW;ttl=5".toList]

def dishDevice : HdbEventSubscriber := (init_device dishHdb dishLines).get (by decide)

theorem init_device_dish : init_device dishHdb dishLines = some dishDevice := (Option.some_get _).symm

/-- A signal is started under another name of its host, and one is added twice. -/
theorem sound_run_dish : (run SharedData.step dishDevice.shared
    [.start "tango://tangodb:10000/mid/dish/1/wind".toList,
      .add "tango://tangodb.dish:10000/mid/dish/1/temp".toList [] 0 HDB_UPDATE_PROP,
      .add "tango://tangodb.dish:10000/mid/dish/1/TEMP".toList [] 0 HDB_UPDATE_PROP,
      .pause "tango://tangodb.dish:10000/mid/dish/1/temp".toList]).Sound :=
  sound_run init_device_dish _

end HdbEventSubscriber

end DshLmc
