import DshLmc.Proof.AlarmOptions
import DshLmc.Proof.FormulaShape
import DshLmc.Utils.AlarmData

/-!
# Reading the values of an alarm

What the handler makes of a value that the serializer wrote, where the end of the line or a separator
follows.
-/

namespace DshLmc.AlarmParse

open Peg

variable {a : AlarmT} {value tail : List Char} {p : Peg Char}

theorem Ends.takeWhile_of_forall (hends : Ends ';' tail) {p : Char → Bool} (hp : p ';' = false)
    (hvalue : ∀ c ∈ value, p c = true) : (value ++ tail).takeWhile p = value := by
  rw [hends.takeWhile_append hp, List.takeWhile_eq_self_iff]
  exact hvalue

theorem Ends.dropWhile_of_forall (hends : Ends ';' tail) {p : Char → Bool} (hp : p ';' = false)
    (hvalue : ∀ c ∈ value, p c = true) : (value ++ tail).dropWhile p = tail := by
  rw [hends.dropWhile_append hp, List.dropWhile_eq_nil_iff.mpr hvalue, List.nil_append]

def Starts (text : List Char) : Prop := ∀ c ∈ text.head?, isspace c = false

instance : DecidablePred Starts
  | [] => isTrue (by simp [Starts])
  | c :: _ => decidable_of_iff (isspace c = false) (by simp [Starts])

theorem Ends.starts (hends : Ends ';' tail) : Starts tail := by
  intro c hc
  obtain rfl := hends c hc
  rfl

theorem Starts.append (hvalue : Starts value) (hends : Ends ';' tail) : Starts (value ++ tail) := by
  cases value with
  | nil => exact Ends.starts hends
  | cons c value => exact hvalue

theorem Starts.dropWhile {text : List Char} (h : Starts text) : text.dropWhile isspace = text := by
  cases text with
  | nil => rfl
  | cons c text => exact List.dropWhile_cons_of_neg (by simp [h c rfl])

theorem assign_of_parse (hstarts : Starts (value ++ tail)) (field : AlarmT → List Char → AlarmT)
    (h : p.parse isspace (value ++ tail) = some tail) :
    assign p field a (value ++ tail) = some (field a value, tail) := by
  rw [assign, capture_of_parse hstarts h]
  rfl

theorem mem_of_isspace {c : Char} (h : isspace c = true) :
    c ∈ [' ', '\t', '\n', '\x0b', '\x0c', '\r'] := by
  simp only [isspace, Bool.or_eq_true, beq_iff_eq, Bool.and_eq_true, decide_eq_true_eq] at h
  obtain rfl | ⟨hge, hle⟩ := h
  · decide
  · have hge : 9 ≤ c.toNat := hge
    have hle : c.toNat ≤ 13 := hle
    have hc := Char.ofNat_toNat c
    generalize c.toNat = n at hge hle hc
    obtain rfl | rfl | rfl | rfl | rfl : n = 9 ∨ n = 10 ∨ n = 11 ∨ n = 12 ∨ n = 13 := by omega
    all_goals
      rw [← hc]
      decide

theorem not_isspace {p : Char → Bool}
    (hp : [' ', '\t', '\n', '\x0b', '\x0c', '\r'].any p = false) {c : Char} (hc : p c = true) :
    isspace c = false := by
  rw [← Bool.not_eq_true]
  intro hspace
  have hnot := List.any_eq_false.mp hp c (mem_of_isspace hspace)
  exact hnot hc

theorem nameAlm_append (hends : Ends ';' tail) (hne : value ≠ [])
    (hvalue : ∀ c ∈ value, isSymbolAttrName c = true) (field : AlarmT → List Char → AlarmT) :
    assign nameAlm field a (value ++ tail) = some (field a value, tail) := by
  have hstarts : Starts value := fun c hc =>
    not_isspace (p := isSymbolAttrName) (by decide) (hvalue c (List.mem_of_mem_head? hc))
  refine assign_of_parse (hstarts.append hends) field ?_
  rw [parse_eq_read, nameAlm, symbolAttrName, read_plus_char,
    Ends.takeWhile_of_forall hends rfl hvalue, Ends.dropWhile_of_forall hends rfl hvalue, if_neg hne]

theorem isDigit_of_mem_toDigits {n : Nat} {c : Char} (hc : c ∈ Nat.toDigits 10 n) :
    c.isDigit = true := Nat.isDigit_of_mem_toDigits (by decide) (by decide) hc

theorem exists_digit_cons (n : Nat) :
    ∃ c word, Nat.toDigits 10 n = c :: word ∧ c.isDigit = true := by
  obtain ⟨c, word, hword⟩ := List.exists_cons_of_ne_nil (Nat.toDigits_ne_nil (n := n) (b := 10))
  refine ⟨c, word, hword, isDigit_of_mem_toDigits (n := n) ?_⟩
  rw [hword]
  exact List.mem_cons_self

theorem starts_toDigits (n : Nat) : Starts (Nat.toDigits 10 n) := fun _ hc =>
  not_isspace (p := Char.isDigit) (by decide) (isDigit_of_mem_toDigits (List.mem_of_mem_head? hc))

theorem read_digits (again : Reader Char) {n bound : Nat} (hends : Ends ';' tail) (hn : n < bound) :
    (digits Char.isDigit decimal bound).read isspace again (Nat.toDigits 10 n ++ tail)
      = some tail := by
  have hword : ∀ c ∈ Nat.toDigits 10 n, c.isDigit = true := fun c => isDigit_of_mem_toDigits
  have htake := Ends.takeWhile_of_forall hends (p := Char.isDigit) rfl hword
  have hdrop := Ends.dropWhile_of_forall hends (p := Char.isDigit) rfl hword
  rw [digits, Peg.read, htake, hdrop, decimal, Nat.ofDigitChars_ten_toDigits]
  simp [Nat.toDigits_ne_nil, hn]

theorem uintP_toDigits {n : Nat} (hends : Ends ';' tail) (hn : n < 4294967296) :
    uintP.parse isspace (Nat.toDigits 10 n ++ tail) = some tail := by
  have hstarts := ((starts_toDigits n).append hends).dropWhile
  rw [uintP, parse_blanks_seq, hstarts, read_digits _ hends hn]

theorem decimalText_of_nonneg {i : Int32} (h : 0 ≤ i.toInt) :
    AlarmData.decimalText i = Nat.toDigits 10 i.toInt.toNat := by
  rw [AlarmData.decimalText, Int.toString_eq_repr, Int.repr_eq_if, if_pos h, Nat.toList_repr]

theorem decimalText_of_neg {i : Int32} (h : i.toInt < 0) :
    AlarmData.decimalText i = '-' :: Nat.toDigits 10 (-i.toInt).toNat := by
  rw [AlarmData.decimalText, Int.toString_eq_repr, Int.repr_eq_if,
    if_neg (Int.not_le.mpr h), String.toList_append, Nat.toList_repr]
  rfl

theorem delay_append {i : Int32} (hends : Ends ';' tail) (h : 0 ≤ i.toInt)
    (field : AlarmT → Nat → AlarmT) :
    orEpsilon (assign uintP fun a word => field a (decimal word)) a
        (AlarmData.decimalText i ++ tail)
      = some (field a i.toInt.toNat, tail) := by
  have hlt : i.toInt.toNat < 4294967296 := by
    have := i.toInt_lt
    omega
  rw [decimalText_of_nonneg h, orEpsilon,
    assign_of_parse ((starts_toDigits _).append hends) _ (uintP_toDigits hends hlt), decimal,
    Nat.ofDigitChars_ten_toDigits]
  rfl

theorem ne_of_isDigit {c c' : Char} (hc : c.isDigit = true) (hc' : c'.isDigit = false) :
    c ≠ c' := by
  rintro rfl
  rw [hc] at hc'
  cases hc'

theorem intP_toDigits {n : Nat} (hends : Ends ';' tail) (hn : n < 2147483648) :
    intP.parse isspace (Nat.toDigits 10 n ++ tail) = some tail := by
  have hstarts := ((starts_toDigits n).append hends).dropWhile
  obtain ⟨c, word, hword, hc⟩ := exists_digit_cons n
  -- a digit is neither of the signs
  have hsign : ∀ again : Reader Char, ∀ sign : Char, sign.isDigit = false →
      (exact [sign]).read isspace again (Nat.toDigits 10 n ++ tail) = none := by
    intro again sign hsign
    rw [hword, List.cons_append, read_exact_of_ne (ne_of_isDigit hc hsign)]
  rw [intP, parse_blanks_seq, hstarts, read_alt, read_seq, read_seq, read_opt, hsign _ '-' rfl,
    hsign _ '+' rfl]
  exact read_digits (Peg.reads isspace intP (Nat.toDigits 10 n ++ tail).length) hends hn

theorem intP_negative {n : Nat} (hends : Ends ';' tail) (hn : n < 2147483649) :
    intP.parse isspace ('-' :: Nat.toDigits 10 n ++ tail) = some tail := by
  have hminus : ∀ again : Reader Char, (exact ['-']).read isspace again
      ('-' :: Nat.toDigits 10 n ++ tail) = some (Nat.toDigits 10 n ++ tail) :=
    fun again => read_exact_append ['-'] _
  have hstarts : ('-' :: Nat.toDigits 10 n ++ tail).dropWhile isspace
      = '-' :: Nat.toDigits 10 n ++ tail := rfl
  rw [intP, parse_blanks_seq, hstarts, read_alt, read_seq, hminus, Option.bind_some,
    read_digits _ hends hn, Option.some_or]

theorem integer_decimalText (i : Int32) : integer (AlarmData.decimalText i) = i.toInt := by
  by_cases h : 0 ≤ i.toInt
  · rw [decimalText_of_nonneg h]
    obtain ⟨c, word, hword, hc⟩ := exists_digit_cons i.toInt.toNat
    have hdecimal : decimal (c :: word) = i.toInt.toNat := by
      rw [← hword, decimal, Nat.ofDigitChars_ten_toDigits]
    have hinteger : integer (c :: word) = decimal (c :: word) := by
      unfold integer
      split
      case h_1 heq => exact absurd (List.cons.inj heq).1 (ne_of_isDigit hc rfl)
      case h_2 heq => exact absurd (List.cons.inj heq).1 (ne_of_isDigit hc rfl)
      case h_3 => rfl
    rw [hword, hinteger, hdecimal, Int.toNat_of_nonneg h]
  · rw [decimalText_of_neg (Int.not_le.mp h)]
    change -((decimal (Nat.toDigits 10 (-i.toInt).toNat) : Nat) : Int) = i.toInt
    rw [decimal, Nat.ofDigitChars_ten_toDigits]
    omega

theorem silentTime_append {i : Int32} (hends : Ends ';' tail) :
    silentTime.2 a (AlarmData.decimalText i ++ tail)
      = some ({ a with silent_time := i.toInt }, tail) := by
  have hle := i.le_toInt
  have hlt := i.toInt_lt
  have hparse : Starts (AlarmData.decimalText i ++ tail)
      ∧ intP.parse isspace (AlarmData.decimalText i ++ tail) = some tail := by
    by_cases h : 0 ≤ i.toInt
    · rw [decimalText_of_nonneg h]
      exact ⟨(starts_toDigits _).append hends, intP_toDigits hends (by omega)⟩
    · rw [decimalText_of_neg (Int.not_le.mp h)]
      refine ⟨?_, intP_negative hends (by omega)⟩
      rintro c ⟨⟩
      rfl
  have hassign := assign_of_parse (a := a) hparse.1
    (fun a word => { a with silent_time := integer word }) hparse.2
  rw [integer_decimalText] at hassign
  change Option.or (assign intP _ a (AlarmData.decimalText i ++ tail)) _ = _
  rw [hassign, Option.some_or]

theorem level_append {lev : List Char} (hends : Ends ';' tail)
    (hlevel : lev ∈ ["fault".toList, "warning".toList, "log".toList]) :
    level.2 a (lev ++ tail) = some ({ a with lev }, tail) := by
  have hparse : lev ≠ [] ∧ Starts lev
      ∧ (strP "fault" ||| strP "warning" ||| strP "log").parse isspace (lev ++ tail)
        = some tail := by
    simp only [List.mem_cons, List.not_mem_nil, or_false] at hlevel
    obtain rfl | rfl | rfl := hlevel
    · exact ⟨by decide, by decide, rfl⟩
    · exact ⟨by decide, by decide, rfl⟩
    · exact ⟨by decide, by decide, rfl⟩
  obtain ⟨hne, hstarts, hparse⟩ := hparse
  exact assign_of_parse (hstarts.append hends) (fun a word => { a with lev := word }) hparse

theorem enabled_append (b : Bool) :
    enabled.2 a [if b then '1' else '0'] = some ({ a with enabled := b }, []) := by
  cases b <;> rfl

/-! ### Messages -/

def Blank (text : List Char) : Prop := ∀ c ∈ text, isspace c = true

theorem Blank.dropWhile_append {spaces : List Char} (h : Blank spaces) (text : List Char) :
    (spaces ++ text).dropWhile isspace = text.dropWhile isspace :=
  List.dropWhile_append_of_pos h

theorem Blank.filter {spaces : List Char} (h : Blank spaces) :
    spaces.filter (fun c => !isspace c) = [] :=
  List.filter_eq_nil_iff.mpr fun c hc => by simp [h c hc]

/-- A character of a message, with the blanks before it. -/
def msgChar : Peg Char := blanks >>> char (· ≠ ';')

theorem read_msgChar (again : Reader Char) (text : List Char) :
    msgChar.read isspace again text
      = (char (· ≠ ';')).read isspace again (text.dropWhile isspace) := rfl

theorem read_star_msgChar (again : Reader Char) (hends : Ends ';' tail) (value : List Char)
    (hsemi : ';' ∉ value) :
    ∃ word spaces, value = word ++ spaces ∧ Blank spaces
      ∧ (star msgChar).read isspace again (value ++ tail) = some (spaces ++ tail) := by
  have hshrinking : Shrinking List.length (msgChar.read isspace again) := by
    intro text rest h
    have hdrop := (List.dropWhile_suffix (l := text) isspace).length_le
    rw [read_msgChar] at h
    cases htext : text.dropWhile isspace with
    | nil =>
        rw [htext] at h
        cases h
    | cons c after =>
        rw [htext] at h hdrop
        simp only [Peg.read, Option.ite_none_right_eq_some, Option.some.injEq] at h
        obtain ⟨-, rfl⟩ := h
        rw [List.length_cons] at hdrop
        omega
  induction hlength : value.length using Nat.strongRecOn generalizing value with
  | ind length ih =>
      have hsplit := List.takeWhile_append_dropWhile (p := isspace) (l := value)
      have hspaces : Blank (value.takeWhile isspace) := fun c hc => List.mem_takeWhile_imp hc
      have hdrop := hends.dropWhile_append (p := isspace) rfl value
      cases hrest : value.dropWhile isspace with
      | nil =>
          rw [hrest, List.append_nil] at hsplit
          refine ⟨[], value, rfl, hsplit ▸ hspaces, congrArg some (kleene_of_none ?_)⟩
          rw [read_msgChar, hdrop, hrest, List.nil_append]
          cases tail with
          | nil => rfl
          | cons c tail =>
              obtain rfl := hends c rfl
              rfl
      | cons c rest =>
          rw [hrest] at hsplit hdrop
          have hmem : ∀ c' ∈ c :: rest, c' ∈ value := by
            intro c' hc'
            rw [← hsplit]
            exact List.mem_append_right _ hc'
          have hc : c ≠ ';' := by
            rintro rfl
            exact hsemi (hmem _ List.mem_cons_self)
          have hlt : rest.length < length := by
            have := congrArg List.length hsplit
            rw [List.length_append, List.length_cons] at this
            omega
          obtain ⟨word, spaces, hrest', hblank, hstar⟩ :=
            ih rest.length hlt rest (fun h => hsemi (hmem _ (List.mem_cons_of_mem _ h))) rfl
          have hstep : msgChar.read isspace again (value ++ tail) = some (rest ++ tail) := by
            rw [read_msgChar, hdrop]
            simp [Peg.read, hc]
          refine ⟨value.takeWhile isspace ++ c :: word, spaces, ?_, hblank, ?_⟩
          · calc value = value.takeWhile isspace ++ c :: rest := hsplit.symm
              _ = value.takeWhile isspace ++ c :: word ++ spaces := by
                  rw [hrest', List.append_assoc, List.cons_append]
          · rw [← hstar]
            exact congrArg some (kleene_of_some hshrinking hstep)

theorem msg_append {message : List Char} (hends : Ends ';' tail) (hsemi : ';' ∉ message)
    (hvisible : ¬ Blank message) :
    ∃ word spaces, word.filter (fun c => !isspace c) = message.filter (fun c => !isspace c)
      ∧ Blank spaces
      ∧ msg.2 a (message ++ tail) = some ({ a with msg := word }, spaces ++ tail) := by
  have hsplit := List.takeWhile_append_dropWhile (p := isspace) (l := message)
  have hdrop := hends.dropWhile_append (p := isspace) rfl message
  cases hrest : message.dropWhile isspace with
  | nil => exact absurd (List.dropWhile_eq_nil_iff.mp hrest) hvisible
  | cons c rest =>
      rw [hrest] at hsplit hdrop
      have hmem : ∀ c' ∈ c :: rest, c' ∈ message := by
        intro c' hc'
        rw [← hsplit]
        exact List.mem_append_right _ hc'
      have hc : c ≠ ';' := by
        rintro rfl
        exact hsemi (hmem _ List.mem_cons_self)
      have hspace : isspace c = false := by
        have hhead := List.head?_dropWhile_not isspace message
        rw [hrest] at hhead
        simpa using hhead
      obtain ⟨word, spaces, rfl, hblank, hstar⟩ :=
        read_star_msgChar (Peg.reads isspace (plus msgChar) (c :: rest ++ tail).length) hends rest
          (fun h => hsemi (hmem _ (List.mem_cons_of_mem _ h)))
      have htext : c :: (word ++ spaces) ++ tail = c :: word ++ (spaces ++ tail) := by simp
      have hfirst : (c :: (word ++ spaces) ++ tail).dropWhile isspace
          = c :: (word ++ spaces) ++ tail := Starts.dropWhile fun c' hc' => by
        obtain rfl := Option.some.inj hc'
        exact hspace
      have hparse : (plus msgChar).parse isspace (c :: word ++ (spaces ++ tail))
          = some (spaces ++ tail) := by
        have hchar : ∀ again : Reader Char, (char (· ≠ ';')).read isspace again
            (c :: (word ++ spaces) ++ tail) = some (word ++ spaces ++ tail) := by
          intro again
          simp [Peg.read, hc]
        rw [← htext, parse_eq_read, read_plus, read_msgChar, hfirst, hchar, Option.bind_some, hstar]
      have hcapture : (plus msgChar).capture isspace (message ++ tail)
          = some (c :: word, spaces ++ tail) := by
        rw [← capture_dropWhile, hdrop, htext]
        refine capture_of_parse (fun c' hc' => ?_) hparse
        obtain rfl := Option.some.inj hc'
        exact hspace
      refine ⟨c :: word, spaces, ?_, hblank, ?_⟩
      · have hbefore : Blank (message.takeWhile isspace) := fun c hc => List.mem_takeWhile_imp hc
        calc (c :: word).filter (fun c => !isspace c)
            = (message.takeWhile isspace ++ c :: (word ++ spaces)).filter (fun c => !isspace c) := by
              rw [← List.cons_append, List.filter_append, List.filter_append, hbefore.filter,
                hblank.filter, List.nil_append, List.append_nil]
          _ = message.filter (fun c => !isspace c) := by rw [hsplit]
      · change Option.map _ ((plus msgChar).capture isspace (message ++ tail)) = _
        rw [hcapture]
        rfl

theorem msg_of_blank {message : List Char} (hends : Ends ';' tail) (hblank : Blank message) :
    msg.2 a (message ++ tail) = none := by
  have hdrop : (message ++ tail).dropWhile isspace = tail := by
    rw [hblank.dropWhile_append, (Ends.starts hends).dropWhile]
  have hparse : (plus msgChar).parse isspace tail = none := by
    rw [parse_eq_read, read_plus, read_msgChar, (Ends.starts hends).dropWhile]
    cases tail with
    | nil => rfl
    | cons c tail =>
        obtain rfl := hends c rfl
        rfl
  have hcapture : (plus msgChar).capture isspace (message ++ tail) = none :=
    capture_eq_none (by rw [hdrop, hparse])
  change Option.map _ ((plus msgChar).capture isspace (message ++ tail)) = none
  rw [hcapture]
  rfl

theorem plain_name : name.Plain ';' ';' := by
  simp [name, symbol, symbolAttrName, chP, FormulaGrammar.isSymbol, isSymbolAttrName]

theorem guarded_name : name.Guarded := by
  simp [name, symbol, symbolAttrName, chP]

theorem local_name : Local ';' ';' (name.parse isspace) :=
  plain_name.local_parse rfl rfl guarded_name

/-- What follows a text without a separator is blanks, where the whole is accepted. -/
theorem accepts_rest {table : GroupTable} {final : AlarmT} {rest : List Char}
    (hends : Ends ';' tail) (hsemi : ';' ∉ rest)
    (h : accepts table a (rest ++ tail) = some final) :
    Blank rest ∧ accepts table a tail = some final := by
  have hdrop := hends.dropWhile_append (p := isspace) rfl rest
  cases hrest : rest.dropWhile isspace with
  | nil =>
      have hblank : Blank rest := List.dropWhile_eq_nil_iff.mp hrest
      rw [accepts_blanks hblank] at h
      exact ⟨hblank, h⟩
  | cons c after =>
      have hc : c ≠ ';' := by
        rintro rfl
        refine hsemi ((List.dropWhile_suffix isspace).subset ?_)
        rw [hrest]
        exact List.mem_cons_self
      rw [hrest, List.cons_append] at hdrop
      rw [accepts_of_ne hdrop hc] at h
      cases h

variable {table : GroupTable} {command : List Char} {key : String}
  {field : AlarmT → List Char → AlarmT}

theorem starts_of_name (h : name.parse isspace command = some []) : Starts command := by
  intro c hc
  cases command with
  | nil => cases hc
  | cons c' rest =>
      obtain rfl := Option.some.inj hc
      refine not_isspace (p := FormulaGrammar.isSymbol) (by decide) ?_
      by_contra hnot
      have hnone : (c' :: rest).takeWhile FormulaGrammar.isSymbol = [] :=
        List.takeWhile_cons_of_neg hnot
      rw [parse_eq_read, name, read_seq, read_seq, read_seq, read_seq, read_seq, read_seq, symbol,
        read_plus_char, if_pos hnone] at h
      cases h

theorem builds_name : name.Builds isspace fun used => ';' ∉ used := plain_name.builds_not_mem rfl

theorem not_mem_append {u v : List Char} (hu : ';' ∉ u) (hv : ';' ∉ v) : ';' ∉ u ++ v := by
  rw [List.mem_append]
  exact not_or.mpr ⟨hu, hv⟩

theorem not_mem_of_name (h : name.parse isspace command = some []) : ';' ∉ command := by
  obtain ⟨used, hused, hnot⟩ := builds_name.uses_parse List.not_mem_nil not_mem_append _ _ h
  rwa [hused, List.append_nil]

theorem even_count_of_not_mem (h : ';' ∉ command) : Even (command.count ';') := by
  rw [List.count_eq_zero.mpr h]
  exact Even.zero

theorem command_append (hends : Ends ';' tail) (h : name.parse isspace command = some []) :
    orEpsilon (assign name field) a (command ++ tail) = some (field a command, tail) := by
  have hnil : Ends ';' ([] : List Char) := fun c hc => by cases hc
  obtain ⟨out, -, hout, hout'⟩ := local_name command (even_count_of_not_mem (not_mem_of_name h))
    [] tail hnil hends
  rw [List.append_nil, h] at hout
  obtain ⟨rest, rfl, hrest⟩ := Option.map_eq_some_iff.mp hout.symm
  rw [List.append_nil] at hrest
  subst hrest
  have hstarts := (starts_of_name h).append hends
  rw [orEpsilon, assign_of_parse hstarts field hout', Option.some_or]

theorem accepts_command (hmem : (key, orEpsilon (assign name field)) ∈ options table)
    (hends : Ends ';' tail) (hsemi : ';' ∉ command) {final : AlarmT}
    (h : accepts table a (';' :: (key.toList ++ (command ++ tail))) = some final) :
    accepts table a tail = some final
      ∨ ∃ word, accepts table (field a word) tail = some final
        ∧ (word = command → name.parse isspace command = some []) := by
  obtain ⟨s, hs, hfinal⟩ := Option.bind_eq_some_iff.mp ((accepts_key hmem a _).symm.trans h)
  obtain hassign | ⟨-, hepsilon⟩ := Option.or_eq_some_iff.mp hs
  · right
    obtain ⟨⟨word, rest⟩, hcapture, rfl⟩ := Option.map_eq_some_iff.mp hassign
    obtain ⟨hsplit, hparse⟩ := capture_eq_some hcapture
    rw [hends.dropWhile_append (p := isspace) rfl] at hsplit
    have hsuffix : command.dropWhile isspace <:+ command := List.dropWhile_suffix isspace
    have hnot : ';' ∉ command.dropWhile isspace := fun hc => hsemi (hsuffix.subset hc)
    have hnil : Ends ';' ([] : List Char) := fun c hc => by cases hc
    obtain ⟨out, hout, hhere, halone⟩ :=
      local_name (command.dropWhile isspace) (even_count_of_not_mem hnot) tail [] hends hnil
    rw [hsplit, hparse] at hhere
    obtain ⟨left, rfl, hleft⟩ := Option.map_eq_some_iff.mp hhere.symm
    subst hleft
    have hleft := hout left rfl
    have hnot' : ';' ∉ left := fun hc => hnot (hleft.subset hc)
    obtain ⟨-, haccepts⟩ := accepts_rest hends hnot' hfinal
    refine ⟨word, haccepts, fun hword => ?_⟩
    rw [← List.append_assoc, List.append_cancel_right_eq] at hsplit
    -- the command is the word, so nothing was skipped and nothing is left
    have hlength := congrArg List.length hsplit
    have hle := hsuffix.length_le
    rw [List.length_append, hword] at hlength
    obtain rfl : left = [] := List.eq_nil_of_length_eq_zero (by omega)
    rw [List.append_nil, Option.map_some, List.append_nil, hsplit, List.append_nil, hword] at halone
    exact halone
  · left
    obtain rfl := Option.some.inj hepsilon
    exact (accepts_rest hends hsemi hfinal).2

theorem symGrp_with (b : AlarmT) (text : List Char) :
    symGrp table { a with grp := b.grp } text
      = (symGrp table b text).map fun s => ({ a with grp := s.1.grp }, s.2) := by
  rw [symGrp, symGrp, Option.map_map]
  rfl

/-- Only the groups of the alarm are read and written. -/
theorem groups_with (b : AlarmT) (text : List Char) :
    groups table { a with grp := b.grp } text
      = (groups table b text).map fun s => ({ a with grp := s.1.grp }, s.2) := by
  rw [groups, groups, symGrp_with, Option.map_map, Option.map_map]
  refine congrArg (fun f => (symGrp table b text).map f) (funext fun s => ?_)
  refine kleene_map (f := fun s : AlarmT × List Char => ({ a with grp := s.1.grp }, s.2))
    (fun s => rfl) (fun s => ?_) s
  rw [after, after]
  cases (chP '|').parse isspace s.2 with
  | none => rfl
  | some rest => exact symGrp_with s.1 rest

def Avoids (rule : Rule) : Prop :=
  ∀ a text s, rule a text = some s → ∃ used, text = used ++ s.2 ∧ ';' ∉ used

theorem longest_spec {table : GroupTable} {text : List Char} {group : List Char × UInt32}
    (h : table.longest text = some group) : group ∈ table ∧ group.1 <+: text := by
  induction table generalizing group with
  | nil => cases h
  | cons first table ih =>
      rw [GroupTable.longest] at h
      split at h
      case isTrue hfirst =>
        split at h
        case h_1 hnone =>
          obtain rfl := Option.some.inj h
          exact ⟨List.mem_cons_self, hfirst.2⟩
        case h_2 other hother =>
          split at h
          · obtain rfl := Option.some.inj h
            exact ⟨List.mem_cons_of_mem _ (ih hother).1, (ih hother).2⟩
          · obtain rfl := Option.some.inj h
            exact ⟨List.mem_cons_self, hfirst.2⟩
      case isFalse => exact ⟨List.mem_cons_of_mem _ (ih h).1, (ih h).2⟩

theorem avoids_symGrp (hnames : ∀ group ∈ table, ';' ∉ group.1) : Avoids (symGrp table) := by
  intro a text s h
  obtain ⟨bits, hbits, rfl⟩ := Option.map_eq_some_iff.mp h
  obtain ⟨group, hgroup, rfl⟩ := Option.map_eq_some_iff.mp hbits
  obtain ⟨hmem, rest, hrest⟩ := longest_spec hgroup
  have hspaces : ';' ∉ text.takeWhile isspace := fun hc => by
    cases List.mem_takeWhile_imp hc
  refine ⟨text.takeWhile isspace ++ group.1, ?_, not_mem_append hspaces (hnames group hmem)⟩
  dsimp only
  rw [← hrest, List.drop_left, List.append_assoc, hrest, List.takeWhile_append_dropWhile]

theorem Avoids.after {rule : Rule} (hp : p.Plain ';' ';') (h : Avoids rule) :
    Avoids (after p rule) := by
  intro a text s hs
  obtain ⟨rest, hparse, hrule⟩ := Option.bind_eq_some_iff.mp hs
  obtain ⟨used, rfl, hused⟩ :=
    (hp.builds_not_mem rfl).uses_parse List.not_mem_nil not_mem_append _ _ hparse
  obtain ⟨used', rfl, hused'⟩ := h a rest s hrule
  exact ⟨used ++ used', (List.append_assoc ..).symm, not_mem_append hused hused'⟩

theorem avoids_groups (hnames : ∀ group ∈ table, ';' ∉ group.1) : Avoids (groups table) := by
  intro a text s h
  obtain ⟨first, hfirst, rfl⟩ := Option.map_eq_some_iff.mp h
  refine exhaust_induction
    (P := fun s : AlarmT × List Char => ∃ used, text = used ++ s.2 ∧ ';' ∉ used) ?_ _
    (avoids_symGrp hnames a text first hfirst)
  rintro s s' ⟨used, rfl, hused⟩ hstep
  have hbar : (chP '|').Plain ';' ';' := by simp [chP]
  obtain ⟨used', hrest, hused'⟩ := ((avoids_symGrp hnames).after hbar) s.1 s.2 s' hstep
  exact ⟨used ++ used', by rw [hrest, List.append_assoc], not_mem_append hused hused'⟩

theorem groups_of_cleared {text : List Char} (hgrp : a.grp = 0) :
    (group table).2 a text
      = (groups table .cleared text).map fun s => ({ a with grp := s.1.grp }, s.2) := by
  have hcleared : a = { a with grp := AlarmT.cleared.grp } := by
    rw [show AlarmT.cleared.grp = a.grp from hgrp.symm]
  conv_lhs => rw [hcleared]
  exact groups_with AlarmT.cleared text

theorem accepts_groups_of_read {text : List Char} {s : AlarmT × List Char} (hgrp : a.grp = 0)
    (h : groups table .cleared text = some s)
    (hrest : s.2.dropWhile isspace = tail) :
    accepts table a (';' :: ("group=".toList ++ text))
      = accepts table { a with grp := s.1.grp } tail := by
  have hmem : group table ∈ options table := by simp [options]
  have hspaces : Blank (s.2.takeWhile isspace) := fun c hc => List.mem_takeWhile_imp hc
  have hsplit := List.takeWhile_append_dropWhile (p := isspace) (l := s.2)
  rw [hrest] at hsplit
  have hgroups : (group table).2 a text = some ({ a with grp := s.1.grp }, s.2) := by
    rw [groups_of_cleared hgrp, h, Option.map_some]
  refine (accepts_key hmem a _).trans ?_
  rw [hgroups, Option.bind_some]
  dsimp only
  rw [← hsplit, accepts_blanks hspaces]

theorem accepts_groups {value behind : List Char} {final : AlarmT}
    (hnames : ∀ group ∈ table, ';' ∉ group.1) (hgrp : a.grp = 0) (hsemi : ';' ∉ value)
    (h : accepts table a (';' :: ("group=".toList ++ (value ++ ';' :: behind))) = some final) :
    ∃ s, groups table .cleared (value ++ ';' :: behind) = some s
      ∧ s.2.dropWhile isspace = ';' :: behind
      ∧ accepts table { a with grp := s.1.grp } (';' :: behind) = some final := by
  have hmem : group table ∈ options table := by simp [options]
  obtain ⟨s', hs', hfinal⟩ := Option.bind_eq_some_iff.mp ((accepts_key hmem a _).symm.trans h)
  rw [groups_of_cleared hgrp] at hs'
  obtain ⟨s, hs, rfl⟩ := Option.map_eq_some_iff.mp hs'
  obtain ⟨used, hused, hnot⟩ := avoids_groups hnames _ _ s hs
  have hends : Ends ';' (';' :: behind) := fun c hc => (Option.some.inj hc).symm
  -- what is read ends before the separator
  obtain ⟨rest, rfl, hrest⟩ | ⟨past, rfl, hpast⟩ := List.append_eq_append_iff.mp hused
  · cases rest with
    | nil =>
        rw [List.nil_append] at hrest
        refine ⟨s, hs, ?_, ?_⟩
        · rw [← hrest]
          rfl
        · rw [hrest]
          exact hfinal
    | cons c rest =>
        rw [List.cons_append, List.cons.injEq] at hrest
        obtain ⟨rfl, -⟩ := hrest
        exact absurd (List.mem_append_right _ List.mem_cons_self) hnot
  · dsimp only at hfinal
    rw [hpast] at hfinal
    have hnot' : ';' ∉ past := fun hc => hsemi (List.mem_append_right _ hc)
    obtain ⟨hblank, haccepts⟩ := accepts_rest hends hnot' hfinal
    refine ⟨s, hs, ?_, haccepts⟩
    rw [hpast, hblank.dropWhile_append]
    rfl

theorem suffix_of_formula {text rest : List Char} (h : formula text = some rest) : rest <:+ text := by
  obtain hparse | ⟨-, hnone⟩ := Option.or_eq_some_iff.mp h
  · exact FormulaGrammar.condExpr.keeps_parse text rest hparse
  · obtain rfl := Option.some.inj hnone
    exact List.suffix_refl text

/-- Where nothing stands before the separator, nothing is read. -/
theorem formula_of_ends (hends : Ends ';' tail) : formula tail = some tail := by
  obtain ⟨out, hout, htail, -⟩ :=
    FormulaGrammar.local_condExpr [] Even.zero tail tail hends hends
  rw [List.nil_append] at htail
  rw [formula, htail]
  cases out with
  | none => rfl
  | some rest =>
      obtain rfl := List.suffix_nil.mp (hout rest rfl)
      rfl

theorem formula_nil : formula [] = some [] := formula_of_ends fun c hc => by cases hc

theorem formula_append_iff (hends : Ends ';' tail) (hne : value ≠ []) :
    formula (value ++ tail) = some tail ↔ formula value = some [] := by
  have hparse : ∀ tail, formula (value ++ tail) = some tail
      ↔ FormulaGrammar.condExpr.parse isspace (value ++ tail) = some tail := by
    intro tail
    rw [formula, Option.or_eq_some_iff]
    refine or_iff_left ?_
    rintro ⟨-, hnone⟩
    exact hne (List.append_left_eq_self.mp (Option.some.inj hnone))
  have heven : ∀ tail, FormulaGrammar.condExpr.parse isspace (value ++ tail) = some tail →
      Even (value.count '\'') := by
    intro tail h
    obtain ⟨used, hused, heven⟩ := FormulaGrammar.balanced_condExpr _ _ h
    rwa [List.append_cancel_right hused]
  have hnil : Ends ';' ([] : List Char) := fun c hc => by cases hc
  have hmove : ∀ tail tail', Ends ';' tail → Ends ';' tail' →
      FormulaGrammar.condExpr.parse isspace (value ++ tail) = some tail →
      FormulaGrammar.condExpr.parse isspace (value ++ tail') = some tail' := by
    intro tail tail' hends hends' h
    obtain ⟨out, -, hout, hout'⟩ :=
      FormulaGrammar.local_condExpr value (heven tail h) tail tail' hends hends'
    rw [h] at hout
    obtain ⟨rest, rfl, hrest⟩ := Option.map_eq_some_iff.mp hout.symm
    obtain rfl : rest = [] := List.append_left_eq_self.mp hrest
    exact hout'
  have halone := hparse []
  rw [List.append_nil] at halone
  rw [hparse tail, halone]
  constructor
  · intro h
    have := hmove tail [] hends hnil h
    rwa [List.append_nil] at this
  · intro h
    refine hmove [] tail hnil hends ?_
    rwa [List.append_nil]

theorem formulaOption_append (hends : Ends ';' tail) (hstarts : Starts value)
    (h : formula value = some []) :
    formulaOption a (value ++ tail) = some ({ a with formula := value }, tail) := by
  have hread : formula (value ++ tail) = some tail := by
    by_cases hne : value = []
    · subst hne
      exact formula_of_ends hends
    · exact (formula_append_iff hends hne).mpr h
  rw [formulaOption, (hstarts.append hends).dropWhile, hread, Option.map_some, List.length_append,
    Nat.add_sub_cancel, List.take_left]

theorem formulaOption_eq_some (hends : Ends ';' tail) {s : AlarmT × List Char}
    (h : formulaOption a (value ++ tail) = some s) (hvalue : s.1.formula = value) :
    Starts value ∧ formula value = some [] ∧ s = ({ a with formula := value }, tail) := by
  obtain ⟨rest, hread, rfl⟩ := Option.map_eq_some_iff.mp h
  obtain ⟨used, hused⟩ := suffix_of_formula hread
  dsimp only at hvalue
  rw [← hused, List.length_append, Nat.add_sub_cancel, List.take_left] at hvalue
  subst hvalue
  have hdrop := hends.dropWhile_append (p := isspace) rfl used
  have hstarts : Starts used := by
    intro c hc
    cases used with
    | nil => cases hc
    | cons c' used =>
        obtain rfl := Option.some.inj hc
        have hhead := List.head?_dropWhile_not isspace (c' :: used ++ tail)
        rw [← hused] at hhead
        simpa using hhead
  rw [(hstarts.append hends).dropWhile] at hused hread ⊢
  obtain rfl : rest = tail := List.append_cancel_left hused
  refine ⟨hstarts, ?_, ?_⟩
  · by_cases hne : used = []
    · subst hne
      exact formula_nil
    · exact (formula_append_iff hends hne).mp hread
  · rw [List.length_append, Nat.add_sub_cancel, List.take_left]

end DshLmc.AlarmParse
