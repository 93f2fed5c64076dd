import DshLmc.Proof.ArchivingSignals
import DshLmc.Proof.HostNames

/-!
# The names and contexts of the archiver

The signals of the device have names that it keeps, and their contexts are defined, whatever lines
they are loaded from and whatever commands come. Among such names a lookup never throws, and finds the
one signal whose name is the same without the domain.
-/

namespace DshLmc

open HdbConfig Letters

theorem upperText_upperText (text : List Char) : upperText (upperText text) = upperText text := by
  rw [upperText, upperText, List.map_map]
  exact congrArg (text.map ·) (funext toUpper_toUpper)

namespace HdbConfig

variable {c : HdbConfig} {name context : List Char}

theorem entry_of_line {line : List Char} {e : List Char × List Char}
    (h : (match string_explode ':' line with
      | [name, _] => some (upperText name, name)
      | _ => none) = some e) : e.1 = upperText e.2 ∧ e.2 ≠ [] := by
  split at h
  · rename_i first second hexplode
    rw [← Option.some.inj h]
    have hmem : first ∈ string_explode ':' line := by
      rw [hexplode]
      exact List.mem_cons_self
    exact ⟨rfl, by simpa using (List.mem_filter.mp hmem).2⟩
  · cases h

theorem contexts_map_upper_entries :
    ∀ e ∈ c.contexts_map_upper, e.1 = upperText e.2 ∧ e.2 ≠ [] := by
  intro e he
  unfold contexts_map_upper at he
  dsimp only at he
  split_ifs at he
  · rcases List.mem_append.mp he with hmem | hmem
    · obtain ⟨line, -, hline⟩ := List.mem_filterMap.mp hmem
      exact entry_of_line hline
    · obtain rfl := List.mem_singleton.mp hmem
      exact ⟨rfl, by decide⟩
  · obtain ⟨line, -, hline⟩ := List.mem_filterMap.mp he
    exact entry_of_line hline

theorem mem_of_context (h : c.context name = some context) :
    (upperText name, context) ∈ c.contexts_map_upper := by
  obtain ⟨l₁, l₂, hl, -⟩ := List.lookup_eq_some_iff.mp h
  rw [hl]
  simp

theorem context_self (h : c.context name = some context) :
    upperText context = upperText name ∧ c.context context = some context := by
  have hkey : upperText context = upperText name := (contexts_map_upper_entries _ (mem_of_context h)).1.symm
  refine ⟨hkey, ?_⟩
  unfold HdbConfig.context
  rw [hkey]
  exact h

theorem isSome_of_mem_filterMap {names : List (List Char)} (h : context ∈ names.filterMap c.context) :
    (c.context context).isSome = true := by
  obtain ⟨name, -, hname⟩ := List.mem_filterMap.mp h
  rw [(context_self hname).2]
  rfl

theorem isSome_of_mem_appliedStrategy (hdefault : (c.context c.defaultStrategy).isSome = true)
    {requested : List Char} (h : context ∈ HdbEventSubscriber.appliedStrategy c requested) :
    (c.context context).isSome = true := by
  unfold HdbEventSubscriber.appliedStrategy at h
  dsimp only at h
  split_ifs at h
  · rwa [List.mem_singleton.mp h]
  · exact isSome_of_mem_filterMap h

theorem Fixed.slash {signame : List Char} (h : c.Fixed signame) : '/' ∈ signame := by
  obtain ⟨full, rfl, -⟩ := h
  exact full.slash_mem_text

theorem Fixed.semicolon {signame : List Char} (h : c.Fixed signame) : ';' ∉ signame := by
  obtain ⟨full, rfl, -, hsemi⟩ := h
  exact hsemi

/-- In small letters it is kept as it is, and looked up as the same. -/
theorem Fixed.lower (hc : c.Resolves) {signame : List Char} (h : c.Fixed signame) :
    c.Fixed (signame.map Char.toLower)
      ∧ withoutDomain (signame.map Char.toLower) = withoutDomain signame := by
  obtain ⟨full, rfl, hsettled, hsemi⟩ := h
  refine ⟨⟨full.lower, full.map_toLower_text, hsettled.lower hc, ?_⟩, ?_⟩
  · rw [← full.map_toLower_text, mem_map_toLower_iff rfl]
    exact hsemi
  · rw [full.map_toLower_text]
    exact full.withoutDomain_lower

theorem Fixed.fix (hc : c.Resolves) {domain_map : DomainMap} (hm : c.Remembers domain_map)
    {signame : List Char} (h : c.Fixed signame) : (c.fix_tango_host signame).run.run domain_map
      = (.ok (signame.map Char.toLower), domain_map) := by
  obtain ⟨full, rfl, hsettled, -⟩ := h
  rw [full.map_toLower_text]
  exact fix_tango_host_settled hc hm hsettled

/-- A name that the device keeps may also be given. -/
theorem Fixed.given {signame : List Char} (h : c.Fixed signame) : Given signame := by
  have hsemi := h.semicolon
  obtain ⟨full, rfl, -⟩ := h
  exact ⟨hsemi, fun _ => ⟨full.lower, full.map_toLower_text⟩⟩

end HdbConfig

/-- The name is one that the device keeps, and the contexts are defined. -/
structure HdbSignal.Regular (c : HdbConfig) (sig : HdbSignal) : Prop where
  name : c.Fixed sig.name
  contexts : ∀ context ∈ sig.contexts, (c.context context).isSome = true
  contexts_upper : sig.contexts_upper = sig.contexts.map upperText

namespace SharedData

variable {c : HdbConfig} {d d' : SharedData} {signame : List Char} {i : Nat} {sig : HdbSignal}

def Regular (c : HdbConfig) (d : SharedData) : Prop := ∀ sig ∈ d.signals, sig.Regular c

theorem regular_of_conf {sig sig' : HdbSignal} (hconf : sig'.conf = sig.conf) (h : sig.Regular c) :
    sig'.Regular c := by
  simp only [HdbSignal.conf, Prod.mk.injEq] at hconf
  obtain ⟨hname, hcontexts, hupper, -⟩ := hconf
  refine ⟨hname ▸ h.name, hcontexts ▸ h.contexts, ?_⟩
  rw [hupper, hcontexts, h.contexts_upper]

theorem Regular.announce (h : d.Regular c) (to_do : Nat) : (announce to_do d).Regular c := h

theorem Regular.addSignal (h : d.Regular c) {contexts : List (List Char)} {ttl : UInt32}
    (hname : c.Fixed signame) (hcontexts : ∀ context ∈ contexts, (c.context context).isSome = true)
    (hadd : d.addSignal signame contexts ttl = .ok d') : d'.Regular c := by
  obtain ⟨-, -, rfl⟩ := addSignal_eq_ok hadd
  intro sig hsig
  rcases List.mem_append.mp hsig with hmem | hmem
  · exact h sig hmem
  · obtain rfl : sig = _ := List.mem_singleton.mp hmem
    exact ⟨hname, hcontexts, rfl⟩

theorem Regular.onSignal (h : d.Regular c) {change : HdbSignal → HdbSignal}
    {counters : SignalCounters → SignalFlags → SignalCounters}
    (hconf : ∀ sig, (change sig).conf = sig.conf)
    (hd : d.onSignal signame change counters = .ok d') : d'.Regular c := by
  obtain ⟨i, -, -, rfl⟩ := onSignal_eq_ok hd
  exact forall_mem_modify h i fun sig hsig => regular_of_conf (hconf sig) (h sig hsig)

theorem Regular.removeSignal (h : d.Regular c) (hd : d.removeSignal signame = .ok d') :
    d'.Regular c := by
  obtain ⟨i, -, -, rfl⟩ := removeSignal_eq_ok hd
  exact fun sig hsig => h sig (List.mem_of_mem_eraseIdx hsig)

theorem Regular.configure (h : d.Regular c) {change : HdbSignal → HdbSignal}
    (hchange : ∀ sig : HdbSignal, sig.Regular c → (change sig).Regular c)
    (hd : d.configure signame change = .ok d') : d'.Regular c := by
  obtain ⟨i, -, -, rfl⟩ := configure_eq_ok hd
  exact forall_mem_modify h i fun sig hsig => hchange sig (h sig hsig)

theorem Regular.withContexts (h : d.Regular c) {contexts : List (List Char)}
    (hcontexts : ∀ context ∈ contexts, (c.context context).isSome = true)
    (hd : d.configure signame (HdbSignal.withContexts contexts) = .ok d') : d'.Regular c := by
  refine h.configure (fun sig hsig => ?_) hd
  exact { name := hsig.name, contexts := hcontexts, contexts_upper := rfl }

theorem Regular.withTtl (h : d.Regular c) {ttl : UInt32}
    (hd : d.configure signame (HdbSignal.withTtl ttl) = .ok d') : d'.Regular c := by
  refine h.configure (fun sig hsig => ?_) hd
  exact { name := hsig.name, contexts := hsig.contexts, contexts_upper := hsig.contexts_upper }

/-- What a call gives to a signal is regular. -/
def Call.Regular (c : HdbConfig) : Call → Prop
  | .add signame contexts _ _ =>
      c.Fixed signame ∧ ∀ context ∈ contexts, (c.context context).isSome = true
  | .update _ contexts => ∀ context ∈ contexts, (c.context context).isSome = true
  | _ => True

theorem Regular.call (h : d.Regular c) {r : Call} (hr : r.Regular c) (hd : d.call r = .ok d') :
    d'.Regular c := by
  cases r with
  | add signame contexts ttl to_do =>
      obtain ⟨d₁, hadd, rfl⟩ := except_map_eq_ok_iff.mp hd
      exact (h.addSignal hr.1 hr.2 hadd).announce to_do
  | remove signame =>
      obtain ⟨d₁, hremove, rfl⟩ := except_map_eq_ok_iff.mp hd
      exact (h.removeSignal hremove).announce 1
  | start signame =>
      refine h.onSignal ?_ hd
      exact fun _ => rfl
  | pause signame =>
      refine h.onSignal ?_ hd
      exact fun _ => rfl
  | stop signame =>
      refine h.onSignal ?_ hd
      exact fun _ => rfl
  | update signame contexts =>
      obtain ⟨d₁, hupdate, rfl⟩ := except_map_eq_ok_iff.mp hd
      exact (h.withContexts hr hupdate).announce _
  | updatettl signame ttl =>
      obtain ⟨d₁, hupdate, rfl⟩ := except_map_eq_ok_iff.mp hd
      exact (h.withTtl hupdate).announce _

theorem findWithoutDomain_eq {signals : List HdbSignal} (hregular : ∀ sig ∈ signals, sig.Regular c)
    (hfixed : c.Fixed signame) : findWithoutDomain signame signals
      = .ok (signals.findIdx? fun sig => withoutDomain sig.name == withoutDomain signame) := by
  obtain ⟨full, rfl, -⟩ := hfixed
  induction signals with
  | nil => rfl
  | cons sig signals ih =>
      obtain ⟨full', hname, -⟩ := (hregular sig List.mem_cons_self).name
      have hrest := ih fun sig' hsig' => hregular sig' (List.mem_cons_of_mem _ hsig')
      unfold findWithoutDomain
      rw [hname, FullName.compare_without_domain_text, List.findIdx?_cons, hname, hrest]
      cases withoutDomain full'.text == withoutDomain full.text <;> rfl

/-- Among names that the device keeps a lookup does not throw. -/
theorem Regular.find_eq (h : d.Regular c) (hfixed : c.Fixed signame) :
    d.find signame = .ok (findSignal HdbSignal.name withoutDomain d.signals signame) := by
  unfold SharedData.find findSignal
  cases d.signals.findIdx? fun sig => sig.name == signame with
  | some i => rfl
  | none => exact findWithoutDomain_eq h hfixed

theorem Regular.nodup (h : d.Regular c) (hsound : d.Sound) :
    (d.signals.map fun sig => withoutDomain sig.name).Nodup := by
  have hpairwise := List.pairwise_map.mp hsound.names
  refine List.pairwise_map.mpr (hpairwise.imp_of_mem fun {sig sig'} hsig hsig' hne heq => hne ?_)
  obtain ⟨full, hname, -⟩ := (h sig hsig).name
  obtain ⟨full', hname', -⟩ := (h sig' hsig').name
  rw [hname, hname'] at heq ⊢
  rw [FullName.compare_without_domain_text, heq, beq_self_eq_true]

theorem Regular.find_of_listed (h : d.Regular c) (hsound : d.Sound) (hsig : d.signals[i]? = some sig)
    (hfixed : c.Fixed signame) (hname : withoutDomain sig.name = withoutDomain signame) :
    d.find signame = .ok (some i) := by
  rw [h.find_eq hfixed]
  exact congrArg _ ((findSignal_eq_some_iff (h.nodup hsound)).mpr ⟨sig, hsig, hname⟩)

theorem Regular.find_of_new (h : d.Regular c) (hfixed : c.Fixed signame)
    (hnew : ∀ sig ∈ d.signals, withoutDomain sig.name ≠ withoutDomain signame) :
    d.find signame = .ok none := by
  rw [h.find_eq hfixed]
  exact congrArg _ (findSignal_eq_none_iff.mpr hnew)

end SharedData

section Explode

variable {separator : Char} {u v : List Char}

theorem string_explode_append (hu : separator ∉ u) (hne : u ≠ []) :
    string_explode separator (u ++ separator :: v) = u :: string_explode separator v := by
  rw [string_explode, List.splitOn_append_cons_self_of_not_mem hu, List.filter_cons_of_pos (by simpa)]
  rfl

theorem string_explode_of_not_mem (hu : separator ∉ u) (hne : u ≠ []) :
    string_explode separator u = [u] := by
  rw [string_explode, List.splitOn_eq_singleton hu, List.filter_cons_of_pos (by simpa)]
  rfl

end Explode

namespace HdbConfig

variable {c : HdbConfig} {domain_map : DomainMap}

def LinesGiven (c : HdbConfig) (tmplist : List (List Char)) : Prop :=
  ∀ line ∈ tmplist, isEntry line = true → Given (c.lineParts line).1

/-- What the lines become, with names that the device keeps. -/
theorem readLines_given (hc : c.Resolves) (hm : c.Remembers domain_map) {lines : List (List Char)}
    (hlines : ∀ line ∈ lines, Given (c.lineParts line).1) :
    ∃ (list : List (List Char)) (domain_map' : DomainMap),
      (c.readLines lines).run.run domain_map = (.ok list, domain_map') ∧ c.Remembers domain_map'
        ∧ ∀ entry ∈ list, ∃ fixed conf, c.Fixed fixed ∧ entry = fixed ++ ';' :: conf := by
  induction lines generalizing domain_map with
  | nil => exact ⟨[], domain_map, rfl, hm, fun _ h => absurd h List.not_mem_nil⟩
  | cons line lines ih =>
      obtain ⟨fixed, domain_map₁, hfix, hm₁, hfixed⟩ :=
        fix_tango_host_given hc hm (hlines line List.mem_cons_self)
      have hentry : (c.readLine line).run.run domain_map
          = (.ok (fixed ++ ';' :: (c.lineParts line).2), domain_map₁) := by
        unfold readLine
        rw [run_bind_ok hfix]
        rfl
      obtain ⟨list, domain_map₂, hlist, hm₂, hentries⟩ :=
        ih hm₁ fun line' hmem => hlines line' (List.mem_cons_of_mem line hmem)
      refine ⟨(fixed ++ ';' :: (c.lineParts line).2) :: list, domain_map₂, ?_, hm₂, ?_⟩
      · unfold readLines
        rw [run_bind_ok hentry, run_bind_ok hlist]
        rfl
      · exact List.forall_mem_cons.mpr ⟨⟨fixed, _, hfixed, rfl⟩, hentries⟩

theorem readSignal_regular {fixed conf : List Char} (hfixed : c.Fixed fixed) {r : SharedData.Call}
    (hread : c.readSignal (fixed ++ ';' :: conf) = some r) : r.Regular c := by
  have hne : fixed ≠ [] := List.ne_nil_of_mem hfixed.slash
  unfold readSignal at hread
  rw [string_explode_append hfixed.semicolon hne] at hread
  obtain rfl := Option.some.inj hread
  exact ⟨hfixed, fun _ => isSome_of_mem_filterMap⟩

end HdbConfig

/-- What every step of a command keeps. -/
structure HdbEventSubscriber.Kept (c : HdbConfig) (hdb : HdbEventSubscriber) : Prop where
  sound : hdb.shared.Sound
  regular : hdb.shared.Regular c
  remembers : c.Remembers hdb.domain_map

namespace HdbEventSubscriber

variable {c : HdbConfig} {hdb : HdbEventSubscriber} {signame : List Char}

def Command.Names (P : List Char → Prop) : Command → Prop
  | .attribute_add signame _ _ => P signame
  | .attribute_remove signame => P signame
  | .attribute_start signame => P signame
  | .attribute_stop signame => P signame
  | .attribute_pause signame => P signame
  | .set_attribute_strategy signame _ => P signame
  | .set_attribute_ttl signame _ => P signame
  | .read signame => P signame
  | _ => True

theorem run_fix_tango_host (hc : c.Resolves) (hm : c.Remembers hdb.domain_map)
    (hgiven : Given signame) : ∃ (fixed : List Char) (domain_map : DomainMap),
      (fix_tango_host c signame).run.run hdb = (.ok fixed, { hdb with domain_map := domain_map })
        ∧ c.Remembers domain_map ∧ c.Fixed fixed := by
  obtain ⟨fixed, domain_map, hrun, hm', hfixed⟩ := fix_tango_host_given hc hm hgiven
  refine ⟨fixed, domain_map, ?_, hm', hfixed⟩
  change (((c.fix_tango_host signame).run.run hdb.domain_map).1, _) = _
  rw [hrun]

section Commands

variable (hc : c.Resolves) (hdefault : (c.context c.defaultStrategy).isSome = true)

theorem ensures_fix_tango_host (hc : c.Resolves) (hgiven : Given signame) :
    Ensures (Kept c) (fix_tango_host c signame) c.Fixed := by
  intro hdb h
  obtain ⟨fixed, domain_map, hrun, hm, hfixed⟩ := run_fix_tango_host hc h.remembers hgiven
  rw [hrun]
  exact ⟨⟨h.sound, h.regular, hm⟩, fun _ hok => Except.ok.inj hok ▸ hfixed⟩

theorem preserves_shares {r : SharedData.Call} (hr : r.Regular c) :
    Preserves (Kept c) (shares r) := by
  refine Preserves.attempt fun hdb hdb' h hrun => ?_
  obtain ⟨d, hcall, rfl⟩ := except_map_eq_ok_iff.mp hrun
  exact ⟨h.sound.call hcall, h.regular.call hr hcall, h.remembers⟩

theorem preserves_asks {α : Type} (f : SharedData → Except HdbError α) :
    Preserves (Kept c) (asks f) := Preserves.inquire _

theorem preserves_get : Preserves (Kept c) (get : HdbM HdbEventSubscriber) := fun _ h => h

/-- The names of the list may be given to the commands. -/
theorem ensures_get_sig_list :
    Ensures (Kept c) get_sig_list fun names => ∀ signame ∈ names, Given signame := by
  intro hdb h
  refine ⟨h, fun names hnames signame hmem => ?_⟩
  obtain rfl : hdb.shared.signals.map HdbSignal.name = names := Except.ok.inj hnames
  obtain ⟨sig, hsig, rfl⟩ := List.mem_map.mp hmem
  exact (h.regular sig hsig).name.given

include hc

theorem preserves_attribute_start (hgiven : Given signame) :
    Preserves (Kept c) (attribute_start c signame) :=
  .bind_of_ensures (ensures_fix_tango_host hc hgiven) fun _ _ =>
    .bind (preserves_asks _) fun _ => .bind (preserves_asks _) fun _ =>
      .ite (preserves_shares trivial) (.pure ())

theorem preserves_attribute_stop (hgiven : Given signame) :
    Preserves (Kept c) (attribute_stop c signame) :=
  .bind_of_ensures (ensures_fix_tango_host hc hgiven) fun _ _ =>
    .bind (preserves_asks _) fun _ => .bind (preserves_asks _) fun _ =>
      .ite (preserves_shares trivial) (.pure ())

theorem preserves_attribute_pause (hgiven : Given signame) :
    Preserves (Kept c) (attribute_pause c signame) :=
  .bind_of_ensures (ensures_fix_tango_host hc hgiven) fun _ _ =>
    .bind (preserves_asks _) fun _ => .ite (preserves_shares trivial) (.throw _)

theorem preserves_attribute_remove (hgiven : Given signame) :
    Preserves (Kept c) (attribute_remove c signame) :=
  .bind_of_ensures (ensures_fix_tango_host hc hgiven) fun _ hfixed =>
    .bind (preserves_asks _) fun _ => .bind (preserves_asks _) fun _ =>
      .bind (.ite (preserves_shares trivial) (.pure ())) fun _ =>
        .bind_of_ensures (ensures_fix_tango_host hc hfixed.given) fun _ _ => preserves_shares trivial

theorem preserves_archive (hgiven : Given signame) : Preserves (Kept c) (archive c signame) :=
  .bind preserves_get fun _ => .bind (preserves_asks _) fun _ =>
    .ite (preserves_attribute_start hc hgiven) (preserves_attribute_stop hc hgiven)

omit hc in
theorem preserves_reportStrategy (requested : List Char) :
    Preserves (Kept c) (reportStrategy c requested) :=
  .ite (.throw _) (.pure ())

include hdefault

theorem preserves_attribute_add (hgiven : Given signame) (requested : List Char) (ttl : UInt32) :
    Preserves (Kept c) (attribute_add c signame requested ttl) := by
  refine .bind_of_ensures (ensures_fix_tango_host hc hgiven) fun _ hfixed => ?_
  refine .bind (preserves_shares ⟨hfixed, fun _ => isSome_of_mem_appliedStrategy hdefault⟩) fun _ => ?_
  refine .bind_of_ensures (ensures_fix_tango_host hc hfixed.given) fun _ hfixed' => ?_
  exact .bind (preserves_shares trivial) fun _ =>
    .bind (preserves_archive hc hfixed'.given) fun _ => preserves_reportStrategy requested

theorem preserves_set_attribute_strategy (hgiven : Given signame) (requested : List Char) :
    Preserves (Kept c) (set_attribute_strategy c signame requested) := by
  refine .bind_of_ensures (ensures_fix_tango_host hc hgiven) fun _ hfixed => ?_
  refine .bind (preserves_shares fun _ => isSome_of_mem_appliedStrategy hdefault) fun _ => ?_
  exact .bind (preserves_archive hc hfixed.given) fun _ => preserves_reportStrategy requested

theorem preserves_command {cmd : Command} (hnames : cmd.Names Given) :
    Preserves (Kept c) (command c cmd) := by
  cases cmd with
  | attribute_add signame requested ttl =>
      exact preserves_attribute_add hc hdefault hnames requested ttl
  | attribute_remove signame => exact preserves_attribute_remove hc hnames
  | attribute_start signame => exact preserves_attribute_start hc hnames
  | attribute_stop signame => exact preserves_attribute_stop hc hnames
  | attribute_pause signame => exact preserves_attribute_pause hc hnames
  | set_attribute_strategy signame requested =>
      exact preserves_set_attribute_strategy hc hdefault hnames requested
  | set_attribute_ttl signame ttl =>
      exact .bind_of_ensures (ensures_fix_tango_host hc hnames) fun _ _ => preserves_shares trivial
  | read signame =>
      exact .bind_of_ensures (ensures_fix_tango_host hc hnames) fun _ _ =>
        .bind (preserves_asks _) fun _ => .pure _
  | write_Context argin =>
      simp only [command, write_Context]
      split
      · exact .throw _
      · refine .bind (.modify fun hdb h => ⟨h.sound, h.regular, h.remembers⟩) fun _ => ?_
        exact .bind_of_ensures ensures_get_sig_list fun _ hgiven =>
          .forM fun signame hmem => preserves_archive hc (hgiven signame hmem)
  | start =>
      refine .bind preserves_get fun _ => .bind_of_ensures ensures_get_sig_list fun _ hgiven => ?_
      exact .forM fun signame hmem => .bind (preserves_asks _) fun _ =>
        .ite (preserves_attribute_start hc (hgiven signame hmem)) (.pure ())
  | stop =>
      exact .bind_of_ensures ensures_get_sig_list fun _ hgiven =>
        .forM fun signame hmem => preserves_attribute_stop hc (hgiven signame hmem)
  | pause =>
      refine .bind_of_ensures ensures_get_sig_list fun _ hgiven => .forM fun signame hmem => ?_
      refine .tryCatch (.bind (preserves_asks _) fun _ =>
        .ite (preserves_attribute_pause hc (hgiven signame hmem)) (.pure ())) fun e => ?_
      cases e with
      | devFailed desc => exact .pure ()
      | _ => exact .throw _

end Commands

variable {tmplist : List (List Char)}

theorem kept_init (hc : c.Resolves) (hlines : c.LinesGiven tmplist)
    (h : init_device c tmplist = some hdb) : hdb.Kept c := by
  obtain ⟨-, list, hlist, hbuild⟩ := init_device_eq_some h
  have hgiven : ∀ line ∈ tmplist.filter isEntry, Given (c.lineParts line).1 := by
    intro line hmem
    obtain ⟨hline, hentry⟩ := List.mem_filter.mp hmem
    exact hlines line hline hentry
  obtain ⟨list', domain_map, hrun, hm, hentries⟩ := readLines_given hc remembers_nil hgiven
  obtain ⟨hok, rfl⟩ := Prod.mk.inj (hrun.symm.trans hlist)
  obtain rfl := Except.ok.inj hok
  refine ⟨sound_init h, ?_, hm⟩
  refine SharedData.build_signal_vector_induction (I := SharedData.Regular c) ?_
    (fun _ hsig => absurd hsig List.not_mem_nil) hbuild
  intro d d' entry r hentry hread hregular hcall
  obtain ⟨fixed, conf, hfixed, rfl⟩ := hentries entry hentry
  exact hregular.call (readSignal_regular hfixed hread) hcall

theorem kept_run (hc : c.Resolves) (hlines : c.LinesGiven tmplist)
    (h : init_device c tmplist = some hdb) {cmds : List Command}
    (hnames : ∀ cmd ∈ cmds, cmd.Names Given) : (run (step c) hdb cmds).Kept c :=
  run_invariant (fun _ _ hkept hcmd =>
    preserves_command hc (init_device_eq_some h).1 hcmd _ hkept)
    (kept_init hc hlines h) (along_of_forall_mem hnames)

theorem resolves_dish : dishHdb.Resolves where
  tango_host := ⟨⟨"tangodb".toList, "10000".toList, [], by decide, by decide, by decide⟩, rfl, by decide⟩
  ignores_case host := by
    have hagain : (host.map Char.toLower).map Char.toLower = host.map Char.toLower := by
      rw [List.map_map]
      exact congrArg (host.map ·) (funext toLower_toLower)
    simp only [dishHdb, hagain]
  canonname host result h := by
    obtain ⟨-, hresult⟩ := Option.ite_none_right_eq_some.mp h
    exact ⟨"tangodb.dish".toList, (Option.some.inj hresult).symm, by decide, by decide, by decide,
      by decide⟩

theorem linesGiven_dish : dishHdb.LinesGiven dishLines := by
  refine List.forall_mem_singleton.mpr fun _ => ⟨by decide, fun _ => ?_⟩
  exact ⟨⟨"tangodb".toList, "10000".toList, "mid/dish/1/wind".toList, by decide, by decide, by decide⟩,
    by decide⟩

/-- One signal is added under a name without a host, and one with another port. -/
def dishCommands : List Command :=
  [.attribute_add "mid/dish/1/temp".toList "RUN|STOW".toList 24,
    .attribute_add "tango://TangoDB:20000/mid/dish/2/temp".toList "RUN".toList 0]

theorem given_temp : Given "mid/dish/1/temp".toList := ⟨by decide, fun h => absurd h (by decide)⟩

theorem names_dish : ∀ cmd ∈ dishCommands, cmd.Names Given := by
  refine List.forall_mem_cons.mpr ⟨given_temp, List.forall_mem_singleton.mpr ⟨by decide, fun _ => ?_⟩⟩
  exact ⟨⟨"tangodb".toList, "20000".toList, "mid/dish/2/temp".toList, by decide, by decide, by decide⟩,
    by decide⟩

end HdbEventSubscriber

end DshLmc
