import Mathlib.Algebra.BigOperators.Group.List.Basic
import Mathlib.Algebra.Ring.Nat
import DshLmc.Monitoring.NagiosListenerThread

/-!
# Check lines and read buffers

A check line says what its fields are, and the expressions read the same fields back unless a name
holds what separates the fields. The loop takes each read buffer for one line. It processes each line
once, in order, exactly when each buffer is a line, with its newline or with the newline in a buffer
of its own.
-/

namespace DshLmc

open Pattern

def IsNumber (digits : List Char) : Prop := digits ≠ [] ∧ ∀ ch ∈ digits, ch.isDigit

def statesText (oldState newState data : List Char) : List Char :=
  Nagios.fromText ++ (oldState ++ (Nagios.arrowText ++ (newState ++ (Nagios.colonText ++ data))))

namespace NagiosCheck

def states (c : NagiosCheck) : List Char := statesText c.oldState c.newState c.data

def text (c : NagiosCheck) : List Char :=
  match c.service with
  | some service => c.host ++ ';' :: (service ++ c.states)
  | none => c.host ++ c.states

def HasNumbers (c : NagiosCheck) : Prop := IsNumber c.oldState ∧ IsNumber c.newState

def withNewline (c : NagiosCheck) : NagiosCheck := { c with data := c.data ++ ['\n'] }

end NagiosCheck

structure CheckLine extends NagiosCheck where
  hasNumbers : toNagiosCheck.HasNumbers
  noNewline : '\n' ∉ toNagiosCheck.text

/-- The bytes that the radio sends for the lines. -/
def streamOf (lines : List CheckLine) : List Char :=
  lines.flatMap fun line => line.text ++ ['\n']

/-- The chunks that `Read` makes of the stream. -/
structure ReadsOf (lines : List CheckLine) (reads : List (List Char)) : Prop where
  flatten : reads.flatten = streamOf lines
  nonempty : ∀ msg ∈ reads, msg ≠ []
  length_le : ∀ msg ∈ reads, msg.length ≤ 8192

/-- The check is that of the line. The newline may count as data. -/
def IsCheckOf (c : NagiosCheck) (line : CheckLine) : Prop :=
  c = line.toNagiosCheck ∨ c = line.withNewline

/-- Each line is processed exactly once, in order. -/
def ProcessesLines (lines : List CheckLine) (reads : List (List Char)) : Prop :=
  List.Forall₂ IsCheckOf (nagiosChecks reads) lines

def StatesAt (text : List Char) : Prop :=
  ∃ oldState newState data, IsNumber oldState ∧ IsNumber newState ∧
    text = statesText oldState newState data

def HasStates (text : List Char) : Prop := ∃ skipped rest, text = skipped ++ rest ∧ StatesAt rest

/-- The states do not begin before the end of the name. -/
def NamesBeforeStates (name text : List Char) : Prop :=
  ∀ skipped rest, text = skipped ++ rest → skipped.length < name.length → ¬ StatesAt rest

/-- The separators stand first where they separate. The line of a host has no semicolon that makes
the line of a service of it. -/
def NagiosCheck.Unambiguous (c : NagiosCheck) : Prop :=
  match c.service with
  | some service => ';' ∉ c.host ∧ NamesBeforeStates service (service ++ c.states)
  | none =>
      (∀ host rest, c.text = host ++ ';' :: rest → ¬ HasStates rest) ∧
        NamesBeforeStates c.host c.text

/-- The fields can be told apart, and an `int` has the new state. -/
def CheckLine.IsReadable (line : CheckLine) : Prop :=
  line.Unambiguous ∧ stoi line.newState ≠ none

/-- Each line comes in one chunk, or its newline in a second one. -/
def IsAligned : List CheckLine → List (List Char) → Prop
  | [], reads => reads = []
  | line :: lines, reads =>
      ∃ rest, IsAligned lines rest ∧
        (reads = (line.text ++ ['\n']) :: rest ∨ reads = line.text :: ['\n'] :: rest)

open Nagios

theorem captures_statesExpr {text : List Char} {found : List (List Char)} :
    captures statesExpr text = some found
      ↔ ∃ oldState newState data, found = [oldState, newState, data] ∧ IsNumber oldState ∧
          IsNumber newState ∧ text = statesText oldState newState data := by
  have hspace : ∀ (x : Char) (rest : List Char), x.isDigit →
      captures [.text arrowText, .some Char.isDigit, .text colonText, .anyLong] (x :: rest)
        = none :=
    fun x rest hx => captures_text_of_ne fun h => absurd (h ▸ hx) (by decide)
  have hcolon : ∀ (x : Char) (rest : List Char), x.isDigit →
      captures [.text colonText, .anyLong] (x :: rest) = none :=
    fun x rest hx => captures_text_of_ne fun h => absurd (h ▸ hx) (by decide)
  rw [statesExpr, captures_text]
  constructor
  · rintro ⟨afterFrom, rfl, hold⟩
    obtain ⟨oldState, others, afterOld, rfl, rfl, hne, hdigits, harrow⟩ :=
      (captures_some hspace).mp hold
    obtain ⟨afterArrow, rfl, hnew⟩ := captures_text.mp harrow
    obtain ⟨newState, others', afterNew, rfl, rfl, hne', hdigits', hafter⟩ :=
      (captures_some hcolon).mp hnew
    obtain ⟨data, rfl, hdata⟩ := captures_text.mp hafter
    rw [captures_anyLong] at hdata
    obtain rfl := Option.some.inj hdata
    exact ⟨oldState, newState, data, rfl, ⟨hne, hdigits⟩, ⟨hne', hdigits'⟩, rfl⟩
  · rintro ⟨oldState, newState, data, rfl, hold, hnew, rfl⟩
    refine ⟨_, rfl, (captures_some hspace).mpr ⟨oldState, _, _, rfl, rfl, hold.1, hold.2, ?_⟩⟩
    refine captures_text.mpr ⟨_, rfl, ?_⟩
    refine (captures_some hcolon).mpr ⟨newState, _, _, rfl, rfl, hnew.1, hnew.2, ?_⟩
    exact captures_text.mpr ⟨data, rfl, captures_anyLong⟩

theorem captures_statesExpr_eq_none {text : List Char} :
    captures statesExpr text = none ↔ ¬ StatesAt text := by
  rw [Option.eq_none_iff_forall_ne_some]
  constructor
  · rintro h ⟨oldState, newState, data, hold, hnew, htext⟩
    exact h _ (captures_statesExpr.mpr ⟨oldState, newState, data, rfl, hold, hnew, htext⟩)
  · rintro h found hfound
    obtain ⟨oldState, newState, data, -, hold, hnew, htext⟩ := captures_statesExpr.mp hfound
    exact h ⟨oldState, newState, data, hold, hnew, htext⟩

theorem captures_hostCheckExpr_eq_none {text : List Char} :
    captures hostCheckExpr text = none ↔ ¬ HasStates text := by
  rw [hostCheckExpr, captures_anyShort_eq_none]
  constructor
  · rintro h ⟨skipped, rest, htext, hstates⟩
    exact captures_statesExpr_eq_none.mp (h skipped rest htext) hstates
  · intro h skipped rest htext
    exact captures_statesExpr_eq_none.mpr fun hstates => h ⟨skipped, rest, htext, hstates⟩

theorem captures_hostCheckExpr {text : List Char} {found : List (List Char)} :
    captures hostCheckExpr text = some found
      ↔ ∃ name oldState newState data, found = [name, oldState, newState, data] ∧
          IsNumber oldState ∧ IsNumber newState ∧
            text = name ++ statesText oldState newState data ∧ NamesBeforeStates name text := by
  rw [hostCheckExpr, captures_anyShort]
  constructor
  · rintro ⟨name, others, rest, rfl, htext, hrest, hshorter⟩
    obtain ⟨oldState, newState, data, rfl, hold, hnew, rfl⟩ := captures_statesExpr.mp hrest
    refine ⟨name, oldState, newState, data, rfl, hold, hnew, htext, ?_⟩
    intro skipped rest hsplit hlength
    exact captures_statesExpr_eq_none.mp (hshorter skipped rest hsplit hlength)
  · rintro ⟨name, oldState, newState, data, rfl, hold, hnew, htext, hbefore⟩
    refine ⟨name, _, _, rfl, htext, ?_, ?_⟩
    · exact captures_statesExpr.mpr ⟨oldState, newState, data, rfl, hold, hnew, rfl⟩
    · intro skipped rest hsplit hlength
      exact captures_statesExpr_eq_none.mpr (hbefore skipped rest hsplit hlength)

theorem mem_of_append_eq {first last skipped rest : List Char} {ch : Char}
    (h : first ++ last = skipped ++ ch :: rest) (hlength : skipped.length < first.length) :
    ch ∈ first := by
  obtain ⟨more, rfl, -⟩ | ⟨more, rfl, hmore⟩ := List.append_eq_append_iff.mp h
  · rw [List.length_append] at hlength
    omega
  · cases more with
    | nil => simp at hlength
    | cons x more =>
        obtain ⟨rfl, -⟩ := List.cons.inj hmore
        simp

theorem captures_serviceCheckExpr {text : List Char} {found : List (List Char)} :
    captures serviceCheckExpr text = some found
      ↔ ∃ host service oldState newState data,
          found = [host, service, oldState, newState, data] ∧ IsNumber oldState ∧
            IsNumber newState ∧
              text = host ++ ';' :: (service ++ statesText oldState newState data) ∧
                ';' ∉ host ∧
                  NamesBeforeStates service (service ++ statesText oldState newState data) := by
  rw [serviceCheckExpr, captures_anyShort]
  constructor
  · rintro ⟨host, others, rest, rfl, rfl, hrest, hshorter⟩
    obtain ⟨afterSemicolon, rfl, hservice⟩ := captures_text.mp hrest
    obtain ⟨service, oldState, newState, data, rfl, hold, hnew, rfl, hbefore⟩ :=
      captures_hostCheckExpr.mp hservice
    refine ⟨host, service, oldState, newState, data, rfl, hold, hnew, rfl, ?_, hbefore⟩
    intro hmem
    obtain ⟨first, last, rfl⟩ := List.append_of_mem hmem
    have hnone := hshorter first (';' :: (last ++ ';' :: (service ++ statesText oldState newState data)))
      (by simp) (by simp)
    refine captures_hostCheckExpr_eq_none.mp (captures_text_eq_none.mp hnone _ rfl) ?_
    exact ⟨last ++ ';' :: service, _, by simp, oldState, newState, data, hold, hnew, rfl⟩
  · rintro ⟨host, service, oldState, newState, data, rfl, hold, hnew, rfl, hhost, hbefore⟩
    refine ⟨host, _, _, rfl, rfl, captures_text.mpr ⟨_, rfl, ?_⟩, ?_⟩
    · exact captures_hostCheckExpr.mpr
        ⟨service, oldState, newState, data, rfl, hold, hnew, rfl, hbefore⟩
    · intro skipped rest hsplit hlength
      refine captures_text_eq_none.mpr fun other hother => ?_
      rw [hother] at hsplit
      exact absurd (mem_of_append_eq hsplit hlength) hhost

theorem captures_serviceCheckExpr_eq_none {text : List Char} :
    captures serviceCheckExpr text = none
      ↔ ∀ host rest, text = host ++ ';' :: rest → ¬ HasStates rest := by
  rw [serviceCheckExpr, captures_anyShort_eq_none]
  constructor
  · intro h host rest htext
    exact captures_hostCheckExpr_eq_none.mp (captures_text_eq_none.mp (h host _ htext) rest rfl)
  · rintro h host _ htext
    refine captures_text_eq_none.mpr fun rest hrest => ?_
    rw [hrest] at htext
    exact captures_hostCheckExpr_eq_none.mpr (h host rest htext)

/-- **The fields that are read** are those of the check whose line the message is, as long as they can
be told apart. -/
theorem readCheck_eq_some {msg : List Char} {c : NagiosCheck} :
    readCheck msg = some c ↔ msg = c.text ∧ c.HasNumbers ∧ c.Unambiguous := by
  constructor
  · intro h
    cases hservice : captures serviceCheckExpr msg with
    | some found =>
        obtain ⟨host, service, oldState, newState, data, rfl, hold, hnew, rfl, hhost, hbefore⟩ :=
          captures_serviceCheckExpr.mp hservice
        rw [readCheck, hservice] at h
        obtain rfl := Option.some.inj h
        exact ⟨rfl, ⟨hold, hnew⟩, hhost, hbefore⟩
    | none =>
        cases hhost : captures hostCheckExpr msg with
        | some found =>
            obtain ⟨host, oldState, newState, data, rfl, hold, hnew, htext, hbefore⟩ :=
              captures_hostCheckExpr.mp hhost
            rw [readCheck, hservice, hhost] at h
            obtain rfl := Option.some.inj h
            subst htext
            exact ⟨rfl, ⟨hold, hnew⟩, captures_serviceCheckExpr_eq_none.mp hservice, hbefore⟩
        | none =>
            rw [readCheck, hservice, hhost] at h
            cases h
  · rintro ⟨rfl, ⟨hold, hnew⟩, hclear⟩
    obtain ⟨host, service, oldState, newState, data⟩ := c
    cases service with
    | some service =>
        have hservice := captures_serviceCheckExpr.mpr
          ⟨host, service, oldState, newState, data, rfl, hold, hnew, rfl, hclear.1, hclear.2⟩
        rw [readCheck]
        simp only [NagiosCheck.text, NagiosCheck.states, hservice]
    | none =>
        have hservice := captures_serviceCheckExpr_eq_none.mpr hclear.1
        have hhost := captures_hostCheckExpr.mpr
          ⟨host, oldState, newState, data, rfl, hold, hnew, rfl, hclear.2⟩
        rw [readCheck]
        simp only [NagiosCheck.text, NagiosCheck.states] at hservice ⊢
        simp only [hservice, hhost]

theorem statesText_append (oldState newState data more : List Char) :
    statesText oldState newState (data ++ more) = statesText oldState newState data ++ more := by
  simp [statesText]

namespace NagiosCheck

variable {c : NagiosCheck}

theorem states_withNewline : c.withNewline.states = c.states ++ ['\n'] :=
  statesText_append c.oldState c.newState c.data ['\n']

theorem text_withNewline : c.withNewline.text = c.text ++ ['\n'] := by
  rw [text, text, states_withNewline]
  cases hservice : c.service with
  | none => simp [withNewline, hservice]
  | some service => simp [withNewline, hservice]

end NagiosCheck

theorem statesAt_append_newline {text : List Char} :
    StatesAt (text ++ ['\n']) ↔ StatesAt text := by
  constructor
  · rintro ⟨oldState, newState, data, hold, hnew, htext⟩
    obtain rfl | ⟨data, last, rfl⟩ := List.eq_nil_or_concat data
    · have hlast := congrArg List.getLast? htext
      simp [statesText, colonText] at hlast
    · rw [List.concat_eq_append, statesText_append] at htext
      obtain ⟨rfl, -⟩ := List.append_inj' htext rfl
      exact ⟨oldState, newState, data, hold, hnew, rfl⟩
  · rintro ⟨oldState, newState, data, hold, hnew, rfl⟩
    exact ⟨oldState, newState, data ++ ['\n'], hold, hnew, (statesText_append ..).symm⟩

theorem append_newline_eq_append {text skipped rest : List Char}
    (h : text ++ ['\n'] = skipped ++ rest) :
    rest = [] ∨ ∃ before, rest = before ++ ['\n'] ∧ text = skipped ++ before := by
  obtain rfl | ⟨before, last, rfl⟩ := List.eq_nil_or_concat rest
  · exact .inl rfl
  · rw [List.concat_eq_append, ← List.append_assoc] at h
    obtain ⟨htext, hlast⟩ := List.append_inj' h rfl
    exact .inr ⟨before, by rw [List.concat_eq_append, hlast], htext⟩

theorem not_statesAt_nil : ¬ StatesAt [] := by
  rintro ⟨oldState, newState, data, -, -, h⟩
  cases h

theorem not_hasStates_nil : ¬ HasStates [] := by
  rintro ⟨skipped, rest, h, hstates⟩
  obtain ⟨-, rfl⟩ := List.nil_eq_append_iff.mp h
  exact not_statesAt_nil hstates

theorem hasStates_append_newline {text : List Char} :
    HasStates (text ++ ['\n']) ↔ HasStates text := by
  constructor
  · rintro ⟨skipped, rest, htext, hstates⟩
    obtain rfl | ⟨before, rfl, rfl⟩ := append_newline_eq_append htext
    · exact absurd hstates not_statesAt_nil
    · exact ⟨skipped, before, rfl, statesAt_append_newline.mp hstates⟩
  · rintro ⟨skipped, rest, rfl, hstates⟩
    exact ⟨skipped, rest ++ ['\n'], by simp, statesAt_append_newline.mpr hstates⟩

theorem namesBeforeStates_append_newline {name text : List Char} :
    NamesBeforeStates name (text ++ ['\n']) ↔ NamesBeforeStates name text := by
  constructor
  · rintro h skipped rest rfl hlength hstates
    exact h skipped (rest ++ ['\n']) (by simp) hlength (statesAt_append_newline.mpr hstates)
  · intro h skipped rest htext hlength hstates
    obtain rfl | ⟨before, rfl, rfl⟩ := append_newline_eq_append htext
    · exact not_statesAt_nil hstates
    · exact h skipped before rfl hlength (statesAt_append_newline.mp hstates)

theorem NagiosCheck.unambiguous_withNewline {c : NagiosCheck} :
    c.withNewline.Unambiguous ↔ c.Unambiguous := by
  cases hservice : c.service with
  | some service =>
      rw [Unambiguous, Unambiguous, show c.withNewline.service = some service from hservice,
        hservice]
      simp only
      rw [states_withNewline, ← List.append_assoc, namesBeforeStates_append_newline]
      rfl
  | none =>
      rw [Unambiguous, Unambiguous, show c.withNewline.service = none from hservice, hservice]
      simp only
      rw [text_withNewline, namesBeforeStates_append_newline]
      refine and_congr_left fun _ => ?_
      constructor
      · intro h host rest htext hstates
        exact h host (rest ++ ['\n']) (by simp [htext]) (hasStates_append_newline.mpr hstates)
      · intro h host rest htext hstates
        have hsplit : c.text ++ ['\n'] = (host ++ [';']) ++ rest := by simpa using htext
        obtain rfl | ⟨before, rfl, hbefore⟩ := append_newline_eq_append hsplit
        · exact not_hasStates_nil hstates
        · exact h host before (by simpa using hbefore) (hasStates_append_newline.mp hstates)

theorem processEvent_eq_check {msg : List Char} {c : NagiosCheck}
    {updates : List NagiosAttrUpdate} (h : processEvent msg = .check c updates) :
    readCheck msg = some c ∧ stoi c.newState ≠ none := by
  rw [processEvent] at h
  cases hread : readCheck msg with
  | some c' =>
      rw [hread] at h
      simp only [NagiosCheck.process] at h
      cases hstoi : stoi c'.newState with
      | some stateCode =>
          rw [hstoi] at h
          obtain ⟨rfl, -⟩ := ProcessEvent.check.inj h
          exact ⟨rfl, by simp [hstoi]⟩
      | none =>
          rw [hstoi] at h
          cases h
  | none =>
      rw [hread] at h
      simp only at h
      split at h <;> cases h

theorem nagiosChecks_cons_of_readable {msg : List Char} {c : NagiosCheck} (hread : readCheck msg = some c)
    (hstoi : stoi c.newState ≠ none) (reads : List (List Char)) :
    nagiosChecks (msg :: reads) = c :: nagiosChecks reads := by
  obtain ⟨stateCode, hcode⟩ := Option.ne_none_iff_exists'.mp hstoi
  simp [nagiosChecks, processEvent, hread, NagiosCheck.process, hcode]

theorem nagiosChecks_cons (msg : List Char) (reads : List (List Char)) :
    (∃ c, readCheck msg = some c ∧ stoi c.newState ≠ none ∧
      nagiosChecks (msg :: reads) = c :: nagiosChecks reads) ∨
        nagiosChecks (msg :: reads) <:+ nagiosChecks reads := by
  cases hprocess : processEvent msg with
  | check c updates =>
      obtain ⟨hread, hstoi⟩ := processEvent_eq_check hprocess
      exact .inl ⟨c, hread, hstoi, nagiosChecks_cons_of_readable hread hstoi reads⟩
  | throws =>
      right
      rw [nagiosChecks, hprocess]
      exact List.nil_suffix
  | error errorCode errorMsg =>
      right
      simp only [nagiosChecks, hprocess, List.suffix_refl]
  | unknown =>
      right
      simp only [nagiosChecks, hprocess, List.suffix_refl]

def weight (text : List Char) : Nat := text.countP (· != '\n')

@[simp]
theorem weight_append (first second : List Char) :
    weight (first ++ second) = weight first + weight second :=
  List.countP_append

@[simp]
theorem weight_newline : weight ['\n'] = 0 := rfl

theorem weight_streamOf (lines : List CheckLine) :
    weight (streamOf lines) = (lines.map fun line => weight line.text).sum := by
  induction lines with
  | nil => rfl
  | cons line lines ih =>
      rw [streamOf, List.flatMap_cons, ← streamOf, weight_append, weight_append, weight_newline, ih,
        List.map_cons, List.sum_cons, Nat.add_zero]

theorem weight_le_of_suffix {few many : List NagiosCheck} (h : few <:+ many) :
    (few.map fun c => weight c.text).sum ≤ (many.map fun c => weight c.text).sum := by
  obtain ⟨front, rfl⟩ := h
  rw [List.map_append, List.sum_append]
  exact Nat.le_add_left ..

theorem weight_nagiosChecks_le (reads : List (List Char)) :
    ((nagiosChecks reads).map fun c => weight c.text).sum ≤ weight reads.flatten := by
  induction reads with
  | nil => simp [nagiosChecks]
  | cons msg reads ih =>
      rw [List.flatten_cons, weight_append]
      obtain ⟨c, hread, -, hchecks⟩ | hsuffix := nagiosChecks_cons msg reads
      · obtain ⟨rfl, -⟩ := readCheck_eq_some.mp hread
        rw [hchecks, List.map_cons, List.sum_cons]
        omega
      · have hle := weight_le_of_suffix hsuffix
        omega

theorem IsCheckOf.text_eq {c : NagiosCheck} {line : CheckLine} (h : IsCheckOf c line) :
    c.text = line.text ∨ c.text = line.text ++ ['\n'] := by
  obtain rfl | rfl := h
  · exact .inl rfl
  · exact .inr NagiosCheck.text_withNewline

theorem IsCheckOf.weight_eq {c : NagiosCheck} {line : CheckLine} (h : IsCheckOf c line) :
    weight c.text = weight line.text := by
  obtain htext | htext := h.text_eq <;> simp [htext]

theorem weight_of_forall₂ {checks : List NagiosCheck} {lines : List CheckLine}
    (h : List.Forall₂ IsCheckOf checks lines) :
    (checks.map fun c => weight c.text).sum = weight (streamOf lines) := by
  rw [weight_streamOf]
  induction h with
  | nil => rfl
  | cons hcheck _ ih => rw [List.map_cons, List.map_cons, List.sum_cons, List.sum_cons, ih, hcheck.weight_eq]

/-- When all that is not a newline has been processed, a read that was not holds only newlines. -/
theorem weight_eq_zero_of_skipped {msg : List Char} {reads : List (List Char)}
    {lines : List CheckLine} (hsuffix : nagiosChecks (msg :: reads) <:+ nagiosChecks reads)
    (hchecks : ProcessesLines lines (msg :: reads))
    (hweight : weight (msg :: reads).flatten = weight (streamOf lines)) : weight msg = 0 := by
  have hle := weight_le_of_suffix hsuffix
  have hreads := weight_nagiosChecks_le reads
  rw [weight_of_forall₂ hchecks] at hle
  rw [List.flatten_cons, weight_append] at hweight
  omega

/-! ### Lines and reads -/

theorem weight_pos_of_ne {ch : Char} (h : ch ≠ '\n') (text : List Char) :
    weight (ch :: text) ≠ 0 := by
  simp [weight, h]

theorem CheckLine.text_eq_cons (line : CheckLine) :
    ∃ ch rest, line.text = ch :: rest ∧ ch ≠ '\n' := by
  cases htext : line.text with
  | nil =>
      have hstates : line.text ≠ [] := by
        rw [NagiosCheck.text]
        cases line.service <;> simp [NagiosCheck.states, statesText, fromText]
      exact absurd htext hstates
  | cons ch rest =>
      refine ⟨ch, rest, rfl, fun h => line.noNewline ?_⟩
      rw [htext, h]
      exact List.mem_cons_self

theorem streamOf_cons (line : CheckLine) (lines : List CheckLine) :
    streamOf (line :: lines) = line.text ++ '\n' :: streamOf lines := by
  simp [streamOf]

/-- What begins the stream is no newline. -/
theorem head_streamOf_ne {lines : List CheckLine} {ch : Char} {rest : List Char}
    (h : streamOf lines = ch :: rest) : ch ≠ '\n' := by
  cases lines with
  | nil => cases h
  | cons line lines =>
      obtain ⟨first, more, htext, hne⟩ := line.text_eq_cons
      rw [streamOf_cons, htext, List.cons_append] at h
      obtain ⟨rfl, -⟩ := List.cons.inj h
      exact hne

theorem IsCheckOf.isReadable {c : NagiosCheck} {line : CheckLine} (h : IsCheckOf c line)
    {msg : List Char} (hread : readCheck msg = some c) (hstoi : stoi c.newState ≠ none) :
    line.IsReadable := by
  obtain ⟨-, -, hclear⟩ := readCheck_eq_some.mp hread
  obtain rfl | rfl := h
  · exact ⟨hclear, hstoi⟩
  · exact ⟨NagiosCheck.unambiguous_withNewline.mp hclear, hstoi⟩

theorem nagiosChecks_newline (reads : List (List Char)) :
    nagiosChecks (['\n'] :: reads) = nagiosChecks reads := by
  have hunknown : processEvent ['\n'] = .unknown := by decide
  rw [nagiosChecks, hunknown]

theorem not_processed_of_newline {rest : List Char} {reads : List (List Char)}
    {lines : List CheckLine} (hchecks : ProcessesLines lines (('\n' :: rest) :: reads)) :
    nagiosChecks (('\n' :: rest) :: reads) <:+ nagiosChecks reads := by
  obtain ⟨c, hread, -, hcons⟩ | hsuffix := nagiosChecks_cons ('\n' :: rest) reads
  · rw [ProcessesLines, hcons] at hchecks
    obtain _ | @⟨_, line, _, lines, hcheck, -⟩ := hchecks
    obtain ⟨ch, more, htext, hne⟩ := line.text_eq_cons
    have hmsg := (readCheck_eq_some.mp hread).1
    obtain hsame | hsame := hcheck.text_eq
    · rw [hsame, htext] at hmsg
      exact absurd (List.cons.inj hmsg).1.symm hne
    · rw [hsame, htext] at hmsg
      exact absurd (List.cons.inj hmsg).1.symm hne
  · exact hsuffix

/-- A read that begins with a newline before the stream of the next lines is that newline. -/
theorem newline_alone {msg : List Char} {reads : List (List Char)} {lines : List CheckLine}
    (hne : msg ≠ []) (hflatten : (msg :: reads).flatten = '\n' :: streamOf lines)
    (hchecks : ProcessesLines lines (msg :: reads)) :
    msg = ['\n'] ∧ reads.flatten = streamOf lines ∧ ProcessesLines lines reads := by
  cases msg with
  | nil => exact absurd rfl hne
  | cons ch rest =>
      obtain ⟨rfl, htail⟩ := List.cons.inj hflatten
      cases rest with
      | nil =>
          rw [ProcessesLines, nagiosChecks_newline] at hchecks
          exact ⟨rfl, htail, hchecks⟩
      | cons next more =>
          have hnext := head_streamOf_ne htail.symm
          have hzero := weight_eq_zero_of_skipped (not_processed_of_newline hchecks) hchecks
            (by rw [hflatten]; simp [weight])
          exact absurd hzero (by simp [weight, hnext])

theorem processed_of_stream {msg : List Char} {reads : List (List Char)} {lines : List CheckLine}
    (hne : msg ≠ []) (hflatten : (msg :: reads).flatten = streamOf lines)
    (hchecks : ProcessesLines lines (msg :: reads)) :
    ∃ c, readCheck msg = some c ∧ stoi c.newState ≠ none ∧
      nagiosChecks (msg :: reads) = c :: nagiosChecks reads := by
  obtain hprocessed | hsuffix := nagiosChecks_cons msg reads
  · exact hprocessed
  · have hzero := weight_eq_zero_of_skipped hsuffix hchecks (by rw [hflatten])
    cases msg with
    | nil => exact absurd rfl hne
    | cons ch rest =>
        exact absurd hzero (weight_pos_of_ne (head_streamOf_ne hflatten.symm) rest)

theorem aligned_of_processesLines {lines : List CheckLine} {reads : List (List Char)}
    (hne : ∀ msg ∈ reads, msg ≠ []) (hflatten : reads.flatten = streamOf lines)
    (hchecks : ProcessesLines lines reads) :
    IsAligned lines reads ∧ ∀ line ∈ lines, line.IsReadable := by
  induction lines generalizing reads with
  | nil =>
      refine ⟨?_, by simp⟩
      cases reads with
      | nil => rfl
      | cons msg reads =>
          have hmsg : msg = [] := (List.append_eq_nil_iff.mp hflatten).1
          exact absurd hmsg (hne msg List.mem_cons_self)
  | cons line lines ih =>
      cases reads with
      | nil =>
          rw [streamOf_cons] at hflatten
          simp at hflatten
      | cons msg reads =>
          obtain ⟨c, hread, hstoi, hcons⟩ :=
            processed_of_stream (hne msg List.mem_cons_self) hflatten hchecks
          have hne' : ∀ m ∈ reads, m ≠ [] := fun m hm => hne m (List.mem_cons_of_mem msg hm)
          rw [ProcessesLines, hcons] at hchecks
          obtain ⟨hcheck, hrest⟩ := List.forall₂_cons.mp hchecks
          have hreadable := hcheck.isReadable hread hstoi
          have hmsg := (readCheck_eq_some.mp hread).1
          rw [List.flatten_cons, streamOf_cons] at hflatten
          obtain htext | htext := hcheck.text_eq
          · -- the newline is still to come
            rw [hmsg, htext] at hflatten
            have htail := List.append_cancel_left hflatten
            cases reads with
            | nil => cases htail
            | cons newline reads =>
                obtain ⟨rfl, hflatten', hchecks'⟩ :=
                  newline_alone (hne' newline List.mem_cons_self) htail hrest
                obtain ⟨haligned, hlines⟩ :=
                  ih (fun m hm => hne' m (List.mem_cons_of_mem _ hm)) hflatten' hchecks'
                refine ⟨⟨reads, haligned, .inr (by rw [hmsg, htext])⟩, ?_⟩
                exact List.forall_mem_cons.mpr ⟨hreadable, hlines⟩
          · have htail : reads.flatten = streamOf lines := by
              simpa [hmsg, htext] using hflatten
            obtain ⟨haligned, hlines⟩ := ih hne' htail hrest
            refine ⟨⟨reads, haligned, .inl (by rw [hmsg, htext])⟩, ?_⟩
            exact List.forall_mem_cons.mpr ⟨hreadable, hlines⟩

theorem CheckLine.readCheck_text {line : CheckLine} (h : line.IsReadable) :
    readCheck line.text = some line.toNagiosCheck :=
  readCheck_eq_some.mpr ⟨rfl, line.hasNumbers, h.1⟩

theorem CheckLine.readCheck_newline {line : CheckLine} (h : line.IsReadable) :
    readCheck (line.text ++ ['\n']) = some line.withNewline := by
  refine readCheck_eq_some.mpr ⟨NagiosCheck.text_withNewline.symm, line.hasNumbers, ?_⟩
  exact NagiosCheck.unambiguous_withNewline.mpr h.1

theorem processesLines_of_aligned {lines : List CheckLine} {reads : List (List Char)}
    (haligned : IsAligned lines reads) (hlines : ∀ line ∈ lines, line.IsReadable) :
    ProcessesLines lines reads := by
  induction lines generalizing reads with
  | nil =>
      obtain rfl := haligned
      exact .nil
  | cons line lines ih =>
      obtain ⟨hline, hlines⟩ := List.forall_mem_cons.mp hlines
      obtain ⟨rest, hrest, rfl | rfl⟩ := haligned
      · rw [ProcessesLines, nagiosChecks_cons_of_readable (line.readCheck_newline hline) hline.2]
        exact .cons (.inr rfl) (ih hrest hlines)
      · rw [ProcessesLines, nagiosChecks_cons_of_readable (line.readCheck_text hline) hline.2,
          nagiosChecks_newline]
        exact .cons (.inl rfl) (ih hrest hlines)

/-- **Each line is processed once, in order, with its own fields**, exactly when the chunks are the
lines and the fields of each can be told apart. -/
theorem processesLines_iff_aligned {lines : List CheckLine} {reads : List (List Char)}
    (h : ReadsOf lines reads) :
    ProcessesLines lines reads ↔ IsAligned lines reads ∧ ∀ line ∈ lines, line.IsReadable := by
  constructor
  · exact aligned_of_processesLines h.nonempty h.flatten
  · rintro ⟨haligned, hlines⟩
    exact processesLines_of_aligned haligned hlines

def diskLine : CheckLine where
  host := ['d', 'i', 's', 'h']
  service := some ['d', 'i', 's', 'k']
  oldState := ['0']
  newState := ['2']
  data := ['f', 'u', 'l', 'l']
  hasNumbers := ⟨⟨by decide, List.forall_mem_singleton.mpr rfl⟩, by decide,
    List.forall_mem_singleton.mpr rfl⟩
  noNewline := by decide

def dishLine : CheckLine where
  host := ['d', 'i', 's', 'h']
  service := none
  oldState := ['1']
  newState := ['0']
  data := ['u', 'p']
  hasNumbers := ⟨⟨by decide, List.forall_mem_singleton.mpr rfl⟩, by decide,
    List.forall_mem_singleton.mpr rfl⟩
  noNewline := by decide

/-- Two lines come in one read. -/
theorem not_processesLines_twoLines :
    ReadsOf [diskLine, dishLine] [streamOf [diskLine, dishLine]] ∧
      ¬ ProcessesLines [diskLine, dishLine] [streamOf [diskLine, dishLine]] := by
  refine ⟨⟨by simp, by decide, by decide⟩, fun h => ?_⟩
  exact absurd h.length_eq (by decide)

/-- One line comes with its newline, the other before it. -/
theorem processesLines_twoLines :
    ProcessesLines [diskLine, dishLine] [diskLine.text ++ ['\n'], dishLine.text, ['\n']] := by
  have hdisk : readCheck diskLine.text = some diskLine.toNagiosCheck := by decide
  have hdish : readCheck dishLine.text = some dishLine.toNagiosCheck := by decide
  refine (processesLines_iff_aligned ⟨by decide, by decide, by decide⟩).mpr ⟨?_, ?_⟩
  · exact ⟨_, ⟨_, rfl, .inr rfl⟩, .inl rfl⟩
  · rw [List.forall_mem_cons, List.forall_mem_singleton]
    exact ⟨⟨(readCheck_eq_some.mp hdisk).2.2, by decide⟩,
      (readCheck_eq_some.mp hdish).2.2, by decide⟩

end DshLmc
