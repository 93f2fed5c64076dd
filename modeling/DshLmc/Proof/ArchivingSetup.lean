import DshLmc.Proof.ArchivingNames

/-!
# The configuration that is saved

The lines that the device saves are read back as they were meant: after a restart the same signals are
there in the same order, with the same contexts and the same time to live, and all of them stopped.
-/

namespace DshLmc

open HdbConfig Letters Search

theorem string_explode_intercalate {separator : Char} {parts : List (List Char)}
    (hparts : ∀ part ∈ parts, separator ∉ part ∧ part ≠ []) :
    string_explode separator ([separator].intercalate parts) = parts := by
  cases parts with
  | nil => simp [string_explode]
  | cons part parts =>
      rw [string_explode, List.splitOn_intercalate separator (fun p hp => (hparts p hp).1) (by simp)]
      exact List.filter_eq_self.mpr fun p hp => by simpa using (hparts p hp).2

theorem not_mem_intercalate {separator x : Char} (hx : x ≠ separator) {parts : List (List Char)}
    (hparts : ∀ part ∈ parts, x ∉ part) : x ∉ [separator].intercalate parts := by
  induction parts with
  | nil => exact List.not_mem_nil
  | cons part parts ih =>
      have hpart := hparts part List.mem_cons_self
      have hrest := ih fun p hp => hparts p (List.mem_cons_of_mem _ hp)
      cases parts with
      | nil => simpa using hpart
      | cons part' parts =>
          rw [List.intercalate_cons_cons, List.mem_append, List.mem_append, List.mem_singleton, not_or,
            not_or]
          exact ⟨⟨hpart, hx⟩, hrest⟩

theorem digitsValue_toDigits (n : Nat) : digitsValue (Nat.toDigits 10 n) = n :=
  Nat.ofDigitChars_ten_toDigits

theorem readULong_toDigits (ttl : UInt32) : readULong (Nat.toDigits 10 ttl.toNat) = ttl := by
  have hdigits : AllDigits (Nat.toDigits 10 ttl.toNat) :=
    fun _ hc => Nat.isDigit_of_mem_toDigits (by decide) (by decide) hc
  have htake : (Nat.toDigits 10 ttl.toNat).takeWhile Char.isDigit = Nat.toDigits 10 ttl.toNat :=
    List.takeWhile_eq_self_iff.mpr hdigits
  have hsign : readSign (Nat.toDigits 10 ttl.toNat) = (false, Nat.toDigits 10 ttl.toNat) :=
    readSign_append .absent hdigits.head_ne_sign
  unfold readULong
  rw [dropWhile_noBlanks hdigits.noBlanks, hsign]
  dsimp only
  rw [htake, digitsValue_toDigits, if_neg (Nat.not_le.mpr ttl.toNat_lt)]
  simp [signed]

namespace HdbConfig

variable {c : HdbConfig}

theorem keyValue_append {key value : List Char} (hkey : '=' ∉ key) (hne : key ≠ []) :
    keyValue (key ++ '=' :: value) = some (key, value) := by
  obtain ⟨n, hn⟩ := Nat.exists_eq_succ_of_ne_zero (mt List.length_eq_zero_iff.mp hne)
  have htake : (key ++ '=' :: value).take (n + 1) = key := by
    rw [← Nat.succ_eq_add_one, ← hn]
    exact List.take_left
  have hdrop : (key ++ '=' :: value).drop (n + 2) = value := by
    have hsplit : key ++ '=' :: value = (key ++ ['=']) ++ value := by simp
    have hlength : n + 2 = (key ++ ['=']).length := by
      rw [List.length_append, hn, List.length_singleton]
    rw [hsplit, hlength]
    exact List.drop_left
  unfold keyValue
  rw [find_append_cons hkey, hn]
  simp only [htake, hdrop]

/-- The contexts have names that a line can hold. -/
def PlainContexts (c : HdbConfig) : Prop :=
  ∀ e ∈ c.contexts_map_upper, ';' ∉ e.2 ∧ '|' ∉ e.2

/-- What a line can hold of the contexts it can also hold of their names in other letters. -/
theorem plain_of_isSome (hplain : c.PlainContexts) {context : List Char}
    (h : (c.context context).isSome = true) : ';' ∉ context ∧ '|' ∉ context ∧ context ≠ [] := by
  obtain ⟨name, hname⟩ := Option.isSome_iff_exists.mp h
  obtain ⟨hsemi, hbar⟩ := hplain _ (mem_of_context hname)
  have hupper : upperText name = upperText context := (context_self hname).1
  refine ⟨?_, ?_, ?_⟩
  · intro hmem
    have hmem' : ';' ∈ upperText context := (mem_map_toUpper_iff rfl).mpr hmem
    rw [← hupper] at hmem'
    exact hsemi ((mem_map_toUpper_iff rfl).mp hmem')
  · intro hmem
    have hmem' : '|' ∈ upperText context := (mem_map_toUpper_iff rfl).mpr hmem
    rw [← hupper] at hmem'
    exact hbar ((mem_map_toUpper_iff rfl).mp hmem')
  · rintro rfl
    exact (contexts_map_upper_entries _ (mem_of_context hname)).2 (List.map_eq_nil_iff.mp hupper)

theorem map_upperText_filterMap {contexts : List (List Char)}
    (h : ∀ context ∈ contexts, (c.context context).isSome = true) :
    (contexts.filterMap c.context).map upperText = contexts.map upperText := by
  induction contexts with
  | nil => rfl
  | cons context contexts ih =>
      obtain ⟨name, hname⟩ := Option.isSome_iff_exists.mp (h context List.mem_cons_self)
      rw [List.filterMap_cons_some hname, List.map_cons, List.map_cons, (context_self hname).1,
        ih fun context' hmem => h context' (List.mem_cons_of_mem _ hmem)]

/-- What stands behind a name in its line. -/
def lineConf (contexts : List (List Char)) (ttl : UInt32) : List Char :=
  (CONTEXT_KEY ++ '=' :: ['|'].intercalate contexts) ++ ';' :: (TTL_KEY ++ '=' :: Nat.toDigits 10 ttl.toNat)

theorem completedConf_lineConf (contexts : List (List Char)) (ttl : UInt32) :
    c.completedConf (lineConf contexts ttl) = lineConf contexts ttl := by
  have hcontexts : (findText (CONTEXT_KEY ++ ['=']) (lineConf contexts ttl)).isSome = true := by
    rw [isSome_find_iff]
    exact ⟨[], ['|'].intercalate contexts ++ ';' :: (TTL_KEY ++ '=' :: Nat.toDigits 10 ttl.toNat),
      by simp [lineConf]⟩
  have httl : (findText (TTL_KEY ++ ['=']) (lineConf contexts ttl)).isSome = true := by
    rw [isSome_find_iff]
    exact ⟨CONTEXT_KEY ++ '=' :: ['|'].intercalate contexts ++ [';'], Nat.toDigits 10 ttl.toNat,
      by simp [lineConf]⟩
  have hne : lineConf contexts ttl ≠ [] := by simp [lineConf]
  unfold completedConf
  simp only [hcontexts, httl, hne]
  rfl

theorem lineParts_append {name : List Char} (hne : name ≠ []) (hsemi : ';' ∉ name)
    (contexts : List (List Char)) (ttl : UInt32) :
    c.lineParts (name ++ ';' :: lineConf contexts ttl) = (name, lineConf contexts ttl) := by
  obtain ⟨n, hn⟩ := Nat.exists_eq_succ_of_ne_zero (mt List.length_eq_zero_iff.mp hne)
  have htake : (name ++ ';' :: lineConf contexts ttl).take (n + 1) = name := by
    rw [← Nat.succ_eq_add_one, ← hn]
    exact List.take_left
  have hdrop : (name ++ ';' :: lineConf contexts ttl).drop (n + 2) = lineConf contexts ttl := by
    have hsplit : name ++ ';' :: lineConf contexts ttl = (name ++ [';']) ++ lineConf contexts ttl := by
      simp
    have hlength : n + 2 = (name ++ [';']).length := by
      rw [List.length_append, hn, List.length_singleton]
    rw [hsplit, hlength]
    exact List.drop_left
  unfold lineParts
  rw [find_append_cons hsemi, hn]
  simp only [htake, hdrop, completedConf_lineConf]

theorem readSignal_append {name : List Char} (hne : name ≠ []) (hsemi : ';' ∉ name)
    {contexts : List (List Char)}
    (hcontexts : ∀ context ∈ contexts, ';' ∉ context ∧ '|' ∉ context ∧ context ≠ []) (ttl : UInt32) :
    c.readSignal (name ++ ';' :: lineConf contexts ttl)
      = some (.add name (contexts.filterMap c.context) ttl HDB_NOTHING) := by
  have hjoined : ';' ∉ CONTEXT_KEY ++ '=' :: ['|'].intercalate contexts := by
    rw [List.mem_append, List.mem_cons, not_or, not_or]
    exact ⟨by decide, by decide,
      not_mem_intercalate (by decide) fun context hmem => (hcontexts context hmem).1⟩
  have hdigits : ';' ∉ TTL_KEY ++ '=' :: Nat.toDigits 10 ttl.toNat := by
    have hnumber : ';' ∉ Nat.toDigits 10 ttl.toNat := fun hmem =>
      absurd (Nat.isDigit_of_mem_toDigits (by decide) (by decide) hmem) (by decide)
    rw [List.mem_append, List.mem_cons, not_or, not_or]
    exact ⟨by decide, by decide, hnumber⟩
  have hparts : string_explode ';' (name ++ ';' :: lineConf contexts ttl)
      = [name, CONTEXT_KEY ++ '=' :: ['|'].intercalate contexts,
        TTL_KEY ++ '=' :: Nat.toDigits 10 ttl.toNat] := by
    rw [string_explode_append hsemi hne, lineConf, string_explode_append hjoined (by simp),
      string_explode_of_not_mem hdigits (by simp)]
  have hconf : [CONTEXT_KEY ++ '=' :: ['|'].intercalate contexts,
        TTL_KEY ++ '=' :: Nat.toDigits 10 ttl.toNat].filterMap keyValue
      = [(CONTEXT_KEY, ['|'].intercalate contexts), (TTL_KEY, Nat.toDigits 10 ttl.toNat)] := by
    rw [List.filterMap_cons_some (keyValue_append (by decide) (by decide)),
      List.filterMap_cons_some (keyValue_append (by decide) (by decide)), List.filterMap_nil]
  unfold readSignal
  have hjoin : c.lineContexts [(CONTEXT_KEY, ['|'].intercalate contexts),
      (TTL_KEY, Nat.toDigits 10 ttl.toNat)] = contexts :=
    string_explode_intercalate fun context hmem => (hcontexts context hmem).2
  have httl : [(CONTEXT_KEY, ['|'].intercalate contexts), (TTL_KEY, Nat.toDigits 10 ttl.toNat)].lookup
      TTL_KEY = some (Nat.toDigits 10 ttl.toNat) := rfl
  simp only [hparts, hconf, hjoin, httl, Option.elim_some, readULong_toDigits]
  rfl

theorem confString_eq (sig : HdbSignal) :
    sig.confString = sig.name ++ ';' :: lineConf sig.contexts sig.ttl := by
  have hstrategy : ";strategy=".toList = ';' :: (CONTEXT_KEY ++ ['=']) := rfl
  have httl : ";ttl=".toList = ';' :: (TTL_KEY ++ ['=']) := rfl
  rw [HdbSignal.confString, lineConf, hstrategy, httl]
  simp

theorem isEntry_confString {sig : HdbSignal} (hname : c.Fixed sig.name) :
    isEntry sig.confString = true := by
  obtain ⟨full, hfull, -⟩ := hname
  unfold isEntry HdbSignal.confString
  rw [hfull]
  rfl

/-- What a start reads of the line of a signal. -/
def reread (c : HdbConfig) (sig : HdbSignal) : SharedData.Call :=
  .add (sig.name.map Char.toLower) (sig.contexts.filterMap c.context) sig.ttl HDB_NOTHING

/-- The line of the list that a start makes of the line of a signal. -/
def relisted (sig : HdbSignal) : List Char :=
  sig.name.map Char.toLower ++ ';' :: lineConf sig.contexts sig.ttl

theorem run_readLine_confString (hc : c.Resolves) {domain_map : DomainMap}
    (hm : c.Remembers domain_map) {sig : HdbSignal} (hsig : sig.Regular c) :
    (c.readLine sig.confString).run.run domain_map = (.ok (relisted sig), domain_map) := by
  have hne : sig.name ≠ [] := List.ne_nil_of_mem hsig.name.slash
  unfold readLine
  rw [confString_eq, lineParts_append hne hsig.name.semicolon, run_bind_ok (hsig.name.fix hc hm)]
  rfl

theorem run_readLines_confStrings (hc : c.Resolves) {domain_map : DomainMap}
    (hm : c.Remembers domain_map) {signals : List HdbSignal}
    (hsignals : ∀ sig ∈ signals, sig.Regular c) :
    (c.readLines (signals.map HdbSignal.confString)).run.run domain_map
      = (.ok (signals.map relisted), domain_map) := by
  induction signals with
  | nil => rfl
  | cons sig signals ih =>
      have hrest := ih fun sig' hmem => hsignals sig' (List.mem_cons_of_mem sig hmem)
      rw [List.map_cons]
      unfold readLines
      rw [run_bind_ok (run_readLine_confString hc hm (hsignals sig List.mem_cons_self)),
        run_bind_ok hrest]
      rfl

theorem readSignal_relisted (hc : c.Resolves) (hplain : c.PlainContexts) {sig : HdbSignal}
    (hsig : sig.Regular c) : c.readSignal (relisted sig) = some (c.reread sig) := by
  obtain ⟨hfixed, -⟩ := hsig.name.lower hc
  have hne : sig.name.map Char.toLower ≠ [] := List.ne_nil_of_mem hfixed.slash
  exact readSignal_append hne hfixed.semicolon
    (fun context hmem => plain_of_isSome hplain (hsig.contexts context hmem)) sig.ttl

end HdbConfig

namespace SharedData

variable {c : HdbConfig} {d : SharedData}

theorem run_get_hdb_signal_list (hc : c.Resolves) (h : d.Regular c) :
    (c.get_hdb_signal_list d.confStrings).run.run [] = (.ok (d.signals.map relisted), []) := by
  have hentries : d.confStrings.filter isEntry = d.confStrings := by
    refine List.filter_eq_self.mpr fun line hline => ?_
    obtain ⟨sig, hsig, rfl⟩ := List.mem_map.mp hline
    exact isEntry_confString (h sig hsig).name
  unfold HdbConfig.get_hdb_signal_list
  rw [hentries]
  exact run_readLines_confStrings hc remembers_nil h

def restarted (c : HdbConfig) (sig : HdbSignal) : HdbSignal :=
  HdbSignal.added (sig.name.map Char.toLower) (sig.contexts.filterMap c.context) sig.ttl

theorem addSignal_of_new {signame : List Char} (hfind : d.find signame = .ok none)
    (hslash : '/' ∈ signame) (contexts : List (List Char)) (ttl : UInt32) :
    d.addSignal signame contexts ttl = .ok { d with
      toSignalCounters := d.toSignalCounters.add
      signals := d.signals ++ [HdbSignal.added signame contexts ttl] } := by
  refine except_bind_eq_ok_iff.mpr ⟨none, hfind, ?_⟩
  rw [if_neg (by decide), if_neg (not_not_intro hslash)]
  rfl

theorem build_signal_vector_cons {line : List Char} {list : List (List Char)} {r : Call}
    {d' : SharedData} (hread : c.readSignal line = some r) (hcall : d.call r = .ok d') :
    c.build_signal_vector (line :: list) d = c.build_signal_vector list d' := by
  simp only [HdbConfig.build_signal_vector, hread, hcall]

/-- One signal after another is added, and none of them is there before. -/
theorem build_relisted (hc : c.Resolves) (hplain : c.PlainContexts) {signals : List HdbSignal}
    (hsignals : ∀ sig ∈ signals, sig.Regular c) (hregular : d.Regular c)
    (hnames : ((d.signals ++ signals).map fun sig => withoutDomain sig.name).Nodup) :
    ∃ d', c.build_signal_vector (signals.map relisted) d = .ok d'
      ∧ d'.signals = d.signals ++ signals.map (restarted c) := by
  induction signals generalizing d with
  | nil => exact ⟨d, rfl, (List.append_nil _).symm⟩
  | cons sig signals ih =>
      have hsig := hsignals sig List.mem_cons_self
      obtain ⟨hfixed, hsame⟩ := hsig.name.lower hc
      have hnew : ∀ sig' ∈ d.signals,
          withoutDomain sig'.name ≠ withoutDomain (sig.name.map Char.toLower) := by
        intro sig' hmem heq
        rw [List.map_append] at hnames
        exact (List.nodup_append.mp hnames).2.2 _ (List.mem_map.mpr ⟨sig', hmem, rfl⟩) _
          (List.mem_map.mpr ⟨sig, List.mem_cons_self, rfl⟩) (heq.trans hsame)
      have hadd := addSignal_of_new (hregular.find_of_new hfixed hnew) hfixed.slash
        (sig.contexts.filterMap c.context) sig.ttl
      have hcall := congrArg (Except.map (announce HDB_NOTHING)) hadd
      have hregular' := hregular.addSignal hfixed (fun _ => isSome_of_mem_filterMap) hadd
      obtain ⟨d', hbuild, hd'⟩ := ih (d := announce HDB_NOTHING _)
        (fun sig' hmem => hsignals sig' (List.mem_cons_of_mem _ hmem)) (hregular'.announce HDB_NOTHING)
        (by simpa [announce, HdbSignal.added, hsame] using hnames)
      refine ⟨d', ?_, ?_⟩
      · rw [List.map_cons, build_signal_vector_cons (readSignal_relisted hc hplain hsig) hcall]
        exact hbuild
      · rw [hd']
        simp [announce, restarted]

end SharedData

namespace HdbEventSubscriber

open SharedData

variable {c : HdbConfig} {tmplist : List (List Char)} {hdb : HdbEventSubscriber}

/-- What a signal is configured to be, with its name as it is looked up. -/
def configured (sig : HdbSignal) : List Char × List (List Char) × UInt32 :=
  (withoutDomain sig.name, sig.contexts_upper, sig.ttl)

theorem configured_of_conf {sig sig' : HdbSignal} (h : sig.conf = sig'.conf) :
    configured sig = configured sig' :=
  congrArg (fun conf : List Char × List (List Char) × List (List Char) × UInt32 =>
    (withoutDomain conf.1, conf.2.2)) h

theorem configured_restarted (hc : c.Resolves) {sig : HdbSignal} (hsig : sig.Regular c) :
    configured (restarted c sig) = configured sig := by
  have hname := (hsig.name.lower hc).2
  have hcontexts := map_upperText_filterMap hsig.contexts
  change (withoutDomain (sig.name.map Char.toLower), (sig.contexts.filterMap c.context).map upperText,
    sig.ttl) = _
  rw [hname, hcontexts, configured, hsig.contexts_upper]

theorem init_confStrings (hc : c.Resolves) (hplain : c.PlainContexts)
    (hdefault : (c.context c.defaultStrategy).isSome = true) {d : SharedData} (hsound : d.Sound)
    (hregular : d.Regular c) : ∃ hdb', init_device c d.confStrings = some hdb'
      ∧ hdb'.shared.signals = d.signals.map (restarted c) := by
  obtain ⟨d', hbuild, hsignals⟩ := build_relisted (d := ⟨⟨0, 0, 0, 0⟩, HDB_NOTHING, []⟩) hc hplain
    hregular (fun _ hsig => absurd hsig List.not_mem_nil) (hregular.nodup hsound)
  have hsome : ¬ (c.context c.defaultStrategy).isNone = true := by
    simpa [Option.isSome_iff_ne_none] using hdefault
  refine ⟨⟨d', upperText c.defaultStrategy, []⟩, ?_, hsignals⟩
  unfold init_device
  rw [if_neg hsome, run_get_hdb_signal_list hc hregular]
  simp only [hbuild]
  rfl

theorem plainContexts_dish : dishHdb.PlainContexts := by
  unfold PlainContexts
  decide

end HdbEventSubscriber

end DshLmc
