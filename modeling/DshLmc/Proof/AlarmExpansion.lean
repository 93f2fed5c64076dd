import DshLmc.Proof.AlarmRoundTrip

/-!
# Expanding an alarm formula

What a formula should expand to is found in one pass: the parts between its labels stay, and each
label stands for its value. `ExpandFormula` replaces label by label in the formula that the alarm
keeps, and hands out the formula from before. So it gives what it should for every formula only when
nothing is to be replaced.
-/

namespace DshLmc

namespace AlarmData

def isLabelChar (c : Char) : Bool := c.isAlphanum || c == '_'

def IsLabel (label : List Char) : Prop := label ≠ [] ∧ ∀ c ∈ label, isLabelChar c

inductive FormulaPart where
  | literal (c : Char)
  | var (label : List Char)
deriving DecidableEq

/-- A `$` takes the longest run of letters, digits and underscores as its label. -/
def formulaParts : List Char → List FormulaPart
  | [] => []
  | c :: rest =>
      let label := rest.takeWhile isLabelChar
      if c = '$' ∧ label ≠ [] then .var label :: (formulaParts rest).drop label.length
      else .literal c :: formulaParts rest

def FormulaPart.text : FormulaPart → List Char
  | .literal c => [c]
  | .var label => '$' :: label

def FormulaPart.value (symbols : List (List Char × List Char)) : FormulaPart → List Char
  | .literal c => [c]
  | .var label => (symbols.lookup label).getD []

/-- The formula with each occurrence of a label replaced by the value of that label. -/
def substituted (symbols : List (List Char × List Char)) (formula : List Char) : List Char :=
  (formulaParts formula).flatMap (FormulaPart.value symbols)

def LabelsMatch (symbols : List (List Char × List Char)) (formula : List Char) : Prop :=
  ∀ label, label ∈ symbols.map (·.1) ↔ FormulaPart.var label ∈ formulaParts formula

/-- **Expansion is simultaneous substitution**, is handed out, and can be repeated. -/
structure ExpandsSimultaneously (d : AlarmData) : Prop where
  code : d.expandFormula.1 = 0
  formula : d.expandFormula.2.2.m_formula = substituted d.m_symbols d.m_formula
  out : d.expandFormula.2.1 = substituted d.m_symbols d.m_formula
  again : d.expandFormula.2.2.expandFormula.1 = 0
    ∧ d.expandFormula.2.2.expandFormula.2.1 = substituted d.m_symbols d.m_formula
    ∧ d.expandFormula.2.2.expandFormula.2.2.m_formula = substituted d.m_symbols d.m_formula
  serialized : ∀ data,
    ((d.serializeToTangoFormat data).2.2.serializeToTangoFormat data).1
        = (d.serializeToTangoFormat data).1
      ∧ ((d.serializeToTangoFormat data).2.2.serializeToTangoFormat data).2.1
        = (d.serializeToTangoFormat data).2.1

theorem formulaParts_append_label {label : List Char} (hlabel : ∀ c ∈ label, isLabelChar c)
    (rest : List Char) :
    formulaParts (label ++ rest) = label.map .literal ++ formulaParts rest := by
  induction label with
  | nil => rfl
  | cons c label ih =>
      have hc : c ≠ '$' := by
        rintro rfl
        exact absurd (hlabel '$' List.mem_cons_self) (by decide)
      rw [List.cons_append, formulaParts, if_neg fun h => hc h.1,
        ih fun c' hc' => hlabel c' (List.mem_cons_of_mem c hc')]
      rfl

theorem formulaParts_var {label : List Char} (hlabel : IsLabel label) {c : Char}
    (hc : isLabelChar c = false) (rest : List Char) :
    formulaParts ('$' :: (label ++ c :: rest)) = .var label :: formulaParts (c :: rest) := by
  have hrun : (label ++ c :: rest).takeWhile isLabelChar = label := by
    rw [List.takeWhile_append_of_pos hlabel.2, List.takeWhile_cons_of_neg (by simp [hc]),
      List.append_nil]
  rw [formulaParts, hrun, if_pos ⟨rfl, hlabel.1⟩, formulaParts_append_label hlabel.2,
    List.drop_left' (List.length_map _)]

/-- The parts are the formula. -/
theorem flatMap_text_formulaParts (formula : List Char) :
    (formulaParts formula).flatMap FormulaPart.text = formula := by
  induction formula with
  | nil => rfl
  | cons c rest ih =>
      rw [formulaParts]
      by_cases hvar : c = '$' ∧ rest.takeWhile isLabelChar ≠ []
      · have hsplit := List.takeWhile_append_dropWhile (p := isLabelChar) (l := rest)
        have hparts : formulaParts rest = (rest.takeWhile isLabelChar).map .literal
            ++ formulaParts (rest.dropWhile isLabelChar) := by
          rw [← formulaParts_append_label fun c hc => List.mem_takeWhile_imp hc, hsplit]
        have hliterals : ((rest.takeWhile isLabelChar).map FormulaPart.literal).flatMap
            FormulaPart.text = rest.takeWhile isLabelChar := by
          simp [List.flatMap_map, FormulaPart.text]
        have hrest : (formulaParts (rest.dropWhile isLabelChar)).flatMap FormulaPart.text
            = rest.dropWhile isLabelChar := by
          rw [hparts, List.flatMap_append, hliterals] at ih
          exact List.append_cancel_left (ih.trans hsplit.symm)
        rw [if_pos hvar, hparts, List.drop_left' (List.length_map _), List.flatMap_cons, hrest,
          hvar.1]
        exact congrArg ('$' :: ·) hsplit
      · rw [if_neg hvar, List.flatMap_cons, ih]
        rfl

theorem replaceAll_self (oldstr str : List Char) : replaceAll oldstr oldstr str = str := by
  induction str using replaceAll.induct oldstr with
  | case1 => rw [replaceAll]
  | case2 c rest h ih =>
      obtain ⟨tail, htail⟩ := h.2
      rw [replaceAll, if_pos h, ih, ← htail, List.drop_left]
  | case3 c rest h ih => rw [replaceAll, if_neg h, ih]

theorem not_infix_of_find_none {oldstr str : List Char} (hne : oldstr ≠ [])
    (h : find oldstr str = none) : ¬ oldstr <:+: str := by
  induction str with
  | nil => exact fun hinfix => hne (List.infix_nil.mp hinfix)
  | cons c rest ih =>
      rw [find] at h
      split at h
      · cases h
      · rename_i hpre
        rw [List.infix_cons_iff, not_or]
        exact ⟨hpre, ih (Option.map_eq_none_iff.mp h)⟩

theorem stringFindAndReplace_fst {oldstr : List Char} (newstr : List Char) {str : List Char} (hne : oldstr ≠ [])
    (h : oldstr <:+: str) : (stringFindAndReplace str oldstr newstr).1 = 0 := by
  have hshrinking : Shrinking (fun r : Replacing Char => r.str.length)
      (Replacing.next oldstr newstr) := shrinking_next hne
  cases hfind : find oldstr str with
  | none => exact absurd h (not_infix_of_find_none hne hfind)
  | some pos =>
      have hnext : Replacing.next oldstr newstr ⟨[], str, 0⟩
          = some ⟨[] ++ str.take pos ++ newstr, str.drop (pos + oldstr.length), 1⟩ := by
        rw [Replacing.next, hfind]
        rfl
      have hfound : 1 ≤ (kleene (fun r => r.str.length) (Replacing.next oldstr newstr)
          ⟨[], str, 0⟩).nfound := by
        rw [kleene_of_some hshrinking hnext]
        refine exhaust_induction (P := fun r : Replacing Char => 1 ≤ r.nfound) ?_ _ le_rfl
        intro r r' hr hstep
        obtain ⟨pos', -, rfl⟩ := Option.map_eq_some_iff.mp hstep
        exact Nat.le_succ_of_le hr
      exact if_neg (Nat.one_le_iff_ne_zero.mp hfound)

theorem infix_of_var_mem {formula label : List Char}
    (h : FormulaPart.var label ∈ formulaParts formula) : '$' :: label <:+: formula := by
  obtain ⟨before, after, hparts⟩ := List.append_of_mem h
  have htext := flatMap_text_formulaParts formula
  rw [hparts, List.flatMap_append, List.flatMap_cons] at htext
  exact ⟨before.flatMap FormulaPart.text, after.flatMap FormulaPart.text,
    (List.append_assoc _ _ _).trans htext⟩

theorem expandSymbols_own {symbols : List (List Char × List Char)} {formula : List Char}
    (hown : ∀ symbol ∈ symbols, symbol.2 = '$' :: symbol.1)
    (hoccurs : ∀ symbol ∈ symbols, '$' :: symbol.1 <:+: formula) :
    expandSymbols symbols formula = (0, formula) := by
  induction symbols with
  | nil => rfl
  | cons symbol symbols ih =>
      have hfound := stringFindAndReplace_fst symbol.2 (List.cons_ne_nil '$' symbol.1)
        (hoccurs symbol List.mem_cons_self)
      have hsame : (stringFindAndReplace formula ('$' :: symbol.1) symbol.2).2 = formula := by
        rw [stringFindAndReplace_snd (List.cons_ne_nil _ _), hown symbol List.mem_cons_self,
          replaceAll_self]
      rw [expandSymbols, hfound, hsame, if_neg (by decide)]
      exact ih (fun symbol' h => hown symbol' (List.mem_cons_of_mem symbol h))
        fun symbol' h => hoccurs symbol' (List.mem_cons_of_mem symbol h)

theorem lookup_own {symbols : List (List Char × List Char)}
    (hown : ∀ symbol ∈ symbols, symbol.2 = '$' :: symbol.1) {label : List Char}
    (h : label ∈ symbols.map (·.1)) : symbols.lookup label = some ('$' :: label) := by
  induction symbols with
  | nil => exact absurd h List.not_mem_nil
  | cons symbol symbols ih =>
      rw [List.lookup_cons]
      by_cases heq : label = symbol.1
      · rw [heq, BEq.rfl, hown symbol List.mem_cons_self]
      · have hrest := (List.mem_cons.mp h).resolve_left heq
        rw [beq_false_of_ne heq]
        exact ih (fun symbol' h' => hown symbol' (List.mem_cons_of_mem symbol h')) hrest

theorem substituted_own {symbols : List (List Char × List Char)} {formula : List Char}
    (hown : ∀ symbol ∈ symbols, symbol.2 = '$' :: symbol.1) (hmatch : LabelsMatch symbols formula) :
    substituted symbols formula = formula := by
  calc
    substituted symbols formula = (formulaParts formula).flatMap FormulaPart.text := by
      apply List.flatMap_congr
      intro part hpart
      cases part with
      | literal c => rfl
      | var label =>
          have hlookup := lookup_own hown ((hmatch label).mpr hpart)
          rw [FormulaPart.value, hlookup]
          rfl
    _ = formula := flatMap_text_formulaParts formula

theorem expandFormula_own {d : AlarmData} (hne : d.m_symbols ≠ [])
    (hown : ∀ symbol ∈ d.m_symbols, symbol.2 = '$' :: symbol.1)
    (hmatch : LabelsMatch d.m_symbols d.m_formula) :
    d.expandFormula = (0, d.m_formula, d) := by
  have hoccurs : ∀ symbol ∈ d.m_symbols, '$' :: symbol.1 <:+: d.m_formula := fun symbol h =>
    infix_of_var_mem ((hmatch symbol.1).mp (List.mem_map_of_mem h))
  rw [expandFormula, if_neg (by simpa using hne), expandSymbols_own hown hoccurs]

theorem expandsSimultaneously_own {d : AlarmData} (hne : d.m_symbols ≠ [])
    (hown : ∀ symbol ∈ d.m_symbols, symbol.2 = '$' :: symbol.1)
    (hmatch : LabelsMatch d.m_symbols d.m_formula) : d.ExpandsSimultaneously := by
  have hexpand := expandFormula_own hne hown hmatch
  have hsubstituted := substituted_own hown hmatch
  have hserialize : ∀ data, (d.serializeToTangoFormat data).2.2 = d := by
    intro data
    rw [serializeToTangoFormat]
    split
    · rw [hexpand]
      rfl
    · rfl
  refine ⟨?_, ?_, ?_, ⟨?_, ?_, ?_⟩, fun data => ?_⟩
  · rw [hexpand]
  · rw [hexpand, hsubstituted]
  · rw [hexpand, hsubstituted]
  · rw [hexpand, hexpand]
  · rw [hexpand, hexpand, hsubstituted]
  · rw [hexpand, hexpand, hsubstituted]
  · rw [hserialize]
    exact ⟨rfl, rfl⟩

/-- The occurrences of some labels, each with a blank behind it. -/
def occurrences (labels : List (List Char)) : List Char :=
  labels.flatMap fun label => '$' :: (label ++ [' '])

theorem occurrences_cons (label : List Char) (labels : List (List Char)) :
    occurrences (label :: labels) = ('$' :: label) ++ (' ' :: occurrences labels) := by
  rw [occurrences, List.flatMap_cons, List.cons_append, List.append_assoc]
  rfl

theorem formulaParts_occurrences {labels : List (List Char)} (hlabels : ∀ label ∈ labels, IsLabel label) :
    formulaParts (occurrences labels)
      = labels.flatMap fun label => [FormulaPart.var label, FormulaPart.literal ' '] := by
  induction labels with
  | nil => rfl
  | cons label labels ih =>
      have hrest := ih fun label' h => hlabels label' (List.mem_cons_of_mem label h)
      have hblank : formulaParts (' ' :: occurrences labels)
          = .literal ' ' :: formulaParts (occurrences labels) := by
        rw [formulaParts, if_neg (by simp)]
      rw [occurrences_cons, List.cons_append,
        formulaParts_var (hlabels label List.mem_cons_self) (by decide), hblank, hrest]
      rfl

theorem labelsMatch_occurrences {symbols : List (List Char × List Char)} {labels : List (List Char)}
    (hlabels : ∀ label ∈ symbols.map (·.1), IsLabel label)
    (hsame : ∀ label, label ∈ labels ↔ label ∈ symbols.map (·.1)) :
    LabelsMatch symbols (occurrences labels) := by
  intro label
  rw [formulaParts_occurrences fun label' h => hlabels label' ((hsame label').mp h), ← hsame]
  simp

theorem lookup_of_mem {symbols : List (List Char × List Char)}
    (hkeys : (symbols.map (·.1)).Nodup) {symbol : List Char × List Char} (h : symbol ∈ symbols) :
    symbols.lookup symbol.1 = some symbol.2 := by
  induction symbols with
  | nil => exact absurd h List.not_mem_nil
  | cons first symbols ih =>
      obtain ⟨hfirst, hrest⟩ := List.nodup_cons.mp hkeys
      rw [List.lookup_cons]
      obtain rfl | h := List.mem_cons.mp h
      · rw [BEq.rfl]
      · have hne : symbol.1 ≠ first.1 := fun heq => hfirst (List.mem_map.mpr ⟨symbol, h, heq⟩)
        rw [beq_false_of_ne hne]
        exact ih hrest h

/-- One occurrence more adds its value. -/
theorem substituted_occurrences_cons {symbols : List (List Char × List Char)} {label : List Char}
    {labels : List (List Char)} (hlabels : ∀ label' ∈ label :: labels, IsLabel label') :
    substituted symbols (occurrences (label :: labels))
      = (symbols.lookup label).getD [] ++ (' ' :: substituted symbols (occurrences labels)) := by
  rw [substituted, substituted, formulaParts_occurrences hlabels,
    formulaParts_occurrences fun label' h => hlabels label' (List.mem_cons_of_mem label h)]
  rfl

theorem out_expandFormula (d : AlarmData) : d.expandFormula.2.1 = d.m_formula := by
  rw [expandFormula]
  split <;> rfl

/-- **When expansion is simultaneous substitution for every formula with the labels of a map.** -/
theorem expandsSimultaneously_iff (d : AlarmData) (hkeys : (d.m_symbols.map (·.1)).Nodup)
    (hlabels : ∀ label ∈ d.m_symbols.map (·.1), IsLabel label) :
    (∀ formula, LabelsMatch d.m_symbols formula →
        ExpandsSimultaneously { d with m_formula := formula })
      ↔ d.m_symbols ≠ [] ∧ ∀ symbol ∈ d.m_symbols, symbol.2 = '$' :: symbol.1 := by
  constructor
  · intro hall
    refine ⟨fun hnil => ?_, fun symbol hsymbol => ?_⟩
    · have hmatch : LabelsMatch d.m_symbols [] := by
        rw [hnil]
        exact fun label => iff_of_false List.not_mem_nil List.not_mem_nil
      have hcode := (hall [] hmatch).code
      rw [expandFormula, if_pos (by simp [hnil])] at hcode
      cases hcode
    · -- What the formula and the formula with one more occurrence expand to differ by its value.
      have hout : ∀ labels, (∀ label, label ∈ labels ↔ label ∈ d.m_symbols.map (·.1)) →
          occurrences labels = substituted d.m_symbols (occurrences labels) := by
        intro labels hsame
        have hfrom := (hall _ (labelsMatch_occurrences hlabels hsame)).out
        rwa [out_expandFormula] at hfrom
      have hmem : symbol.1 ∈ d.m_symbols.map (·.1) := List.mem_map_of_mem hsymbol
      have honce := hout (d.m_symbols.map (·.1)) fun _ => Iff.rfl
      have htwice := hout (symbol.1 :: d.m_symbols.map (·.1)) fun label => by
        rw [List.mem_cons]
        exact ⟨fun h => h.elim (fun heq => heq ▸ hmem) id, Or.inr⟩
      rw [substituted_occurrences_cons, lookup_of_mem hkeys hsymbol, ← honce, occurrences_cons,
        Option.getD_some] at htwice
      · exact (List.append_cancel_right htwice).symm
      · intro label h
        obtain rfl | h := List.mem_cons.mp h
        · exact hlabels _ hmem
        · exact hlabels label h
  · rintro ⟨hne, hown⟩ formula hmatch
    exact expandsSimultaneously_own hne hown hmatch

/-- The alarm of a formula over one label. -/
def alarmOfLevel : AlarmData where
  m_name := "level".toList
  m_formula := "$a > 1".toList
  m_symbols := [("a".toList, "dsh/lmc/1/level".toList)]
  m_level := "log".toList
  m_groups := []
  m_message := "high".toList

/-- The formula is expanded, and handed out as it was. -/
theorem not_expandsSimultaneously_alarmOfLevel :
    LabelsMatch alarmOfLevel.m_symbols alarmOfLevel.m_formula
      ∧ ¬ ExpandsSimultaneously alarmOfLevel := by
  constructor
  · intro label
    have hparts : formulaParts alarmOfLevel.m_formula
        = [.var ['a'], .literal ' ', .literal '>', .literal ' ', .literal '1'] := by decide
    rw [hparts]
    simp [alarmOfLevel]
  · intro h
    have hout := h.out
    revert hout
    decide

theorem expandsSimultaneously_iff_alarmOfLevel :
    (∀ formula, LabelsMatch alarmOfLevel.m_symbols formula →
        ExpandsSimultaneously { alarmOfLevel with m_formula := formula })
      ↔ alarmOfLevel.m_symbols ≠ [] ∧ ∀ symbol ∈ alarmOfLevel.m_symbols, symbol.2 = '$' :: symbol.1 :=
  expandsSimultaneously_iff alarmOfLevel (by decide)
    (List.forall_mem_singleton.mpr ⟨List.cons_ne_nil 'a' [], List.forall_mem_singleton.mpr rfl⟩)

end AlarmData

end DshLmc
