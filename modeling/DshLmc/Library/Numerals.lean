import Mathlib.Algebra.Field.Rat
import Mathlib.Data.List.DropRight
import Mathlib.Data.List.TakeWhile

/-!
# Blanks and numerals

A stream reads a number from the front of a text: as many characters as can belong to it, and then the
number that they are. For a text that is a numeral from its beginning to its end that is its number. A
numeral has no blanks in it.
-/

namespace DshLmc

def isBlank (c : Char) : Bool := c == ' ' || ('\t' ≤ c && c ≤ '\r')

def stripBlanks (text : List Char) : List Char := text.filter (!isBlank ·)

def trimBlanks (text : List Char) : List Char := (text.dropWhile isBlank).rdropWhile isBlank

def NoBlanks (text : List Char) : Prop := ∀ c ∈ text, isBlank c = false

instance (text : List Char) : Decidable (NoBlanks text) := List.decidableBAll _ text

theorem stripBlanks_eq_self_iff {text : List Char} : stripBlanks text = text ↔ NoBlanks text := by
  simp [stripBlanks, NoBlanks]

theorem noBlanks_stripBlanks (text : List Char) : NoBlanks (stripBlanks text) := by
  intro c hc
  simpa using (List.mem_filter.mp hc).2

theorem dropWhile_noBlanks {text : List Char} (h : NoBlanks text) :
    text.dropWhile isBlank = text := by
  cases text with
  | nil => rfl
  | cons c rest => exact List.dropWhile_cons_of_neg (by simp [h c List.mem_cons_self])

theorem stripBlanks_append (first second : List Char) :
    stripBlanks (first ++ second) = stripBlanks first ++ stripBlanks second :=
  List.filter_append ..

theorem stripBlanks_eq_nil {text : List Char} (h : ∀ c ∈ text, isBlank c) : stripBlanks text = [] := by
  simpa [stripBlanks] using h

/-- The blanks around a text are among its blanks. -/
@[simp]
theorem stripBlanks_trimBlanks (text : List Char) :
    stripBlanks (trimBlanks text) = stripBlanks text := by
  have hright : ∀ l : List Char, stripBlanks (l.rdropWhile isBlank) = stripBlanks l := by
    intro l
    have hblanks : stripBlanks (l.rtakeWhile isBlank) = [] :=
      stripBlanks_eq_nil fun c hc => List.mem_rtakeWhile_imp hc
    calc stripBlanks (l.rdropWhile isBlank)
        = stripBlanks (l.rdropWhile isBlank) ++ stripBlanks (l.rtakeWhile isBlank) := by
          rw [hblanks, List.append_nil]
      _ = stripBlanks (l.rdropWhile isBlank ++ l.rtakeWhile isBlank) :=
          (stripBlanks_append _ _).symm
      _ = stripBlanks l := by rw [List.rdropWhile_append_rtakeWhile]
  have hblanks : stripBlanks (text.takeWhile isBlank) = [] :=
    stripBlanks_eq_nil fun c hc => List.mem_takeWhile_imp hc
  calc stripBlanks (trimBlanks text)
      = stripBlanks (text.dropWhile isBlank) := hright _
    _ = stripBlanks (text.takeWhile isBlank) ++ stripBlanks (text.dropWhile isBlank) := by
        rw [hblanks, List.nil_append]
    _ = stripBlanks (text.takeWhile isBlank ++ text.dropWhile isBlank) :=
        (stripBlanks_append _ _).symm
    _ = stripBlanks text := by rw [List.takeWhile_append_dropWhile]

theorem stripBlanks_eq_of_trimBlanks {text : List Char} (h : NoBlanks (trimBlanks text)) :
    stripBlanks text = trimBlanks text := by
  rw [← stripBlanks_trimBlanks, stripBlanks_eq_self_iff.mpr h]

def signed {α : Type*} [Neg α] (negative : Bool) (value : α) : α := if negative then -value else value

def digitsValue (digits : List Char) : ℕ :=
  digits.foldl (fun value digit => 10 * value + (digit.toNat - '0'.toNat)) 0

def AllDigits (text : List Char) : Prop := ∀ c ∈ text, c.isDigit

inductive IsSign : List Char → Bool → Prop
  | absent : IsSign [] false
  | plus : IsSign ['+'] false
  | minus : IsSign ['-'] true

inductive IsInteger : List Char → ℤ → Prop
  | mk {sign digits : List Char} {negative : Bool} (hsign : IsSign sign negative)
      (hdigits : AllDigits digits) (hne : digits ≠ []) :
      IsInteger (sign ++ digits) (signed negative (digitsValue digits : ℤ))

/-- The digits behind the point, with the point. -/
inductive IsFraction : List Char → List Char → Prop
  | absent : IsFraction [] []
  | present {digits : List Char} (hdigits : AllDigits digits) : IsFraction ('.' :: digits) digits

inductive IsExponent : List Char → ℤ → Prop
  | absent : IsExponent [] 0
  | present {e : Char} {text : List Char} {n : ℤ} (he : e = 'e' ∨ e = 'E') (htext : IsInteger text n) :
      IsExponent (e :: text) n

/-- The number that the parts of a decimal numeral make. -/
def realValue (negative : Bool) (whole fraction : List Char) (exponent : ℤ) : ℚ :=
  signed negative (digitsValue (whole ++ fraction) * (10 : ℚ) ^ (exponent - fraction.length))

/-- The text is a decimal number, with or without a point and an exponent. -/
inductive IsReal : List Char → ℚ → Prop
  | mk {sign whole point fraction exponent : List Char} {negative : Bool} {n : ℤ}
      (hsign : IsSign sign negative) (hwhole : AllDigits whole) (hpoint : IsFraction point fraction)
      (hne : whole ++ fraction ≠ []) (hexponent : IsExponent exponent n) :
      IsReal (sign ++ (whole ++ (point ++ exponent))) (realValue negative whole fraction n)

def readSign : List Char → Bool × List Char
  | [] => (false, [])
  | c :: rest => if c = '-' then (true, rest) else if c = '+' then (false, rest) else (false, c :: rest)

/-- The number of the digits that come first, or zero when none do. -/
def readInteger (text : List Char) : ℤ :=
  signed (readSign text).1 (digitsValue ((readSign text).2.takeWhile Char.isDigit) : ℤ)

/-- What comes behind the digits of a number: its exponent. An exponent without digits is an error. -/
def readExponent : List Char → Option ℤ
  | [] => some 0
  | c :: rest =>
      if c = 'e' ∨ c = 'E' then
        if (readSign rest).2.takeWhile Char.isDigit = [] then none else some (readInteger rest)
      else some 0

/-- The digits behind a point, and what is behind them. -/
def readFraction : List Char → List Char × List Char
  | [] => ([], [])
  | c :: rest =>
      if c = '.' then (rest.takeWhile Char.isDigit, rest.dropWhile Char.isDigit) else ([], c :: rest)

/-- The number of the characters that come first, when they are one. -/
def readReal (text : List Char) : Option ℚ :=
  let (negative, rest) := readSign text
  let whole := rest.takeWhile Char.isDigit
  let (fraction, rest) := readFraction (rest.dropWhile Char.isDigit)
  if whole ++ fraction = [] then none
  else (readExponent rest).map (realValue negative whole fraction)

/-- The text does not go on with a digit. -/
def StopsDigits (text : List Char) : Prop := ∀ c ∈ text.head?, ¬c.isDigit

theorem takeWhile_digits {digits rest : List Char} (hdigits : AllDigits digits)
    (hrest : StopsDigits rest) : (digits ++ rest).takeWhile Char.isDigit = digits := by
  rw [List.takeWhile_append_of_pos hdigits]
  cases rest with
  | nil => simp
  | cons c rest => simp [hrest c rfl]

theorem dropWhile_digits {digits rest : List Char} (hdigits : AllDigits digits)
    (hrest : StopsDigits rest) : (digits ++ rest).dropWhile Char.isDigit = rest := by
  rw [List.dropWhile_append_of_pos hdigits]
  cases rest with
  | nil => simp
  | cons c rest => simp [hrest c rfl]

/-- A sign is read where no second sign follows. -/
theorem readSign_append {sign rest : List Char} {negative : Bool} (hsign : IsSign sign negative)
    (hrest : ∀ c ∈ rest.head?, c ≠ '-' ∧ c ≠ '+') : readSign (sign ++ rest) = (negative, rest) := by
  cases hsign with
  | plus => rfl
  | minus => rfl
  | absent =>
      cases rest with
      | nil => rfl
      | cons c rest =>
          obtain ⟨hminus, hplus⟩ := hrest c rfl
          simp [readSign, hminus, hplus]

theorem ne_sign_of_isDigit {c : Char} (h : c.isDigit) : c ≠ '-' ∧ c ≠ '+' := by
  constructor
  · rintro rfl
    exact absurd h (by decide)
  · rintro rfl
    exact absurd h (by decide)

theorem AllDigits.head_ne_sign {digits : List Char} (h : AllDigits digits) :
    ∀ c ∈ digits.head?, c ≠ '-' ∧ c ≠ '+' :=
  fun _ hc => ne_sign_of_isDigit (h _ (List.mem_of_mem_head? hc))

theorem stopsDigits_nil : StopsDigits [] := fun _ hc => absurd hc (by simp)

theorem IsInteger.read_eq {text : List Char} {n : ℤ} (h : IsInteger text n) :
    readInteger text = n ∧ (readSign text).2.takeWhile Char.isDigit ≠ [] := by
  cases h with
  | @mk sign digits negative hsign hdigits hne =>
      have hread := readSign_append hsign hdigits.head_ne_sign
      have htake : digits.takeWhile Char.isDigit = digits := by
        simpa using takeWhile_digits hdigits stopsDigits_nil
      rw [readInteger, hread, htake]
      exact ⟨rfl, hne⟩

theorem IsExponent.read_eq {text : List Char} {n : ℤ} (h : IsExponent text n) :
    readExponent text = some n := by
  cases h with
  | absent => rfl
  | present he htext =>
      obtain ⟨hn, hne⟩ := htext.read_eq
      rw [readExponent, if_pos he, if_neg hne, hn]

theorem IsExponent.stopsDigits {text : List Char} {n : ℤ} (h : IsExponent text n) :
    StopsDigits text := by
  cases h with
  | absent => exact stopsDigits_nil
  | present he _ =>
      rintro c hc
      obtain rfl := Option.some.inj hc
      rcases he with rfl | rfl
      · decide
      · decide

theorem IsFraction.read_eq {point fraction exponent : List Char} {n : ℤ}
    (h : IsFraction point fraction) (hexponent : IsExponent exponent n) :
    readFraction (point ++ exponent) = (fraction, exponent) := by
  cases h with
  | present hdigits =>
      rw [List.cons_append, readFraction, if_pos rfl,
        takeWhile_digits hdigits hexponent.stopsDigits,
        dropWhile_digits hdigits hexponent.stopsDigits]
  | absent =>
      cases hexponent with
      | absent => rfl
      | present he _ =>
          rw [List.nil_append, readFraction, if_neg]
          rintro rfl
          rcases he with he | he
          · exact absurd he (by decide)
          · exact absurd he (by decide)

/-- **A decimal numeral is read as its number.** -/
theorem IsReal.read_eq {text : List Char} {q : ℚ} (h : IsReal text q) : readReal text = some q := by
  cases h with
  | @mk sign whole point fraction exponent negative n hsign hwhole hpoint hne hexponent =>
      have hstops : StopsDigits (point ++ exponent) := by
        cases hpoint with
        | absent => exact hexponent.stopsDigits
        | present _ =>
            rintro c hc
            obtain rfl := Option.some.inj hc
            decide
      have hhead : ∀ c ∈ (whole ++ (point ++ exponent)).head?, c ≠ '-' ∧ c ≠ '+' := by
        intro c hc
        cases whole with
        | cons d whole =>
            obtain rfl := Option.some.inj hc
            exact ne_sign_of_isDigit (hwhole _ List.mem_cons_self)
        | nil =>
            cases hpoint with
            | absent => exact absurd rfl hne
            | present _ =>
                obtain rfl := Option.some.inj hc
                exact ⟨by decide, by decide⟩
      have hread := readSign_append hsign hhead
      simp only [readReal, hread, takeWhile_digits hwhole hstops, dropWhile_digits hwhole hstops,
        hpoint.read_eq hexponent, if_neg hne, hexponent.read_eq, Option.map_some]

theorem noBlanks_append {first second : List Char} (hfirst : NoBlanks first)
    (hsecond : NoBlanks second) : NoBlanks (first ++ second) := by
  intro c hc
  rcases List.mem_append.mp hc with hc | hc
  · exact hfirst c hc
  · exact hsecond c hc

theorem IsSign.noBlanks {sign : List Char} {negative : Bool} (h : IsSign sign negative) :
    NoBlanks sign := by
  cases h <;> decide

theorem AllDigits.noBlanks {digits : List Char} (h : AllDigits digits) : NoBlanks digits := by
  intro c hc
  have hdigit := h c hc
  by_contra hblank
  simp only [isBlank, Bool.not_eq_false, Bool.or_eq_true, beq_iff_eq, Bool.and_eq_true,
    decide_eq_true_eq] at hblank
  simp only [Char.isDigit, Bool.and_eq_true, decide_eq_true_eq] at hdigit
  rcases hblank with rfl | ⟨-, hle⟩
  · exact absurd hdigit.1 (by decide)
  · have hlower : 48 ≤ c.toNat := UInt32.le_iff_toNat_le.mp hdigit.1
    have hupper : c.toNat ≤ 13 := UInt32.le_iff_toNat_le.mp hle
    omega

theorem IsInteger.noBlanks {text : List Char} {n : ℤ} (h : IsInteger text n) : NoBlanks text := by
  cases h with
  | mk hsign hdigits _ => exact noBlanks_append hsign.noBlanks hdigits.noBlanks

theorem IsFraction.noBlanks {point fraction : List Char} (h : IsFraction point fraction) :
    NoBlanks point := by
  cases h with
  | absent => decide
  | present hdigits =>
      have hpoint : NoBlanks ['.'] := by decide
      exact noBlanks_append hpoint hdigits.noBlanks

theorem IsExponent.noBlanks {text : List Char} {n : ℤ} (h : IsExponent text n) : NoBlanks text := by
  cases h with
  | absent => decide
  | @present e text _ he htext =>
      have hletter : NoBlanks [e] := by rcases he with rfl | rfl <;> decide
      exact noBlanks_append hletter htext.noBlanks

theorem IsReal.noBlanks {text : List Char} {q : ℚ} (h : IsReal text q) : NoBlanks text := by
  cases h with
  | mk hsign hwhole hpoint _ hexponent =>
      exact noBlanks_append hsign.noBlanks
        (noBlanks_append hwhole.noBlanks (noBlanks_append hpoint.noBlanks hexponent.noBlanks))

end DshLmc
