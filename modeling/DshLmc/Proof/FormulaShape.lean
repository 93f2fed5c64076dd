import DshLmc.Alarm.FormulaGrammar

/-!
# The shape of the formula grammar

A formula is read in a finite number of steps, because the grammar comes again only behind a symbol.
No symbol of it is a separator, except between quotes.
-/

namespace DshLmc.FormulaGrammar

open Peg

structure Shape (p : Peg Char) : Prop where
  plain : p.Plain ';' '\''
  guarded : p.Guarded

structure Repeats (p : Peg Char) : Prop extends Shape p where
  consumes : p.Consumes

variable {p q : Peg Char}

theorem Shape.seq (hp : Shape p) (hq : Shape q) : Shape (p >>> q) :=
  ⟨⟨hp.plain, hq.plain⟩, hp.guarded, .inr hq.guarded⟩

theorem Shape.alt (hp : Shape p) (hq : Shape q) : Shape (p ||| q) :=
  ⟨⟨hp.plain, hq.plain⟩, hp.guarded, hq.guarded⟩

theorem Shape.opt (hp : Shape p) : Shape p.opt := hp.alt ⟨trivial, trivial⟩

theorem Repeats.alt (hp : Repeats p) (hq : Repeats q) : Repeats (p ||| q) :=
  ⟨hp.toShape.alt hq.toShape, hp.consumes, hq.consumes⟩

theorem Shape.many (hp : Shape p) (hq : Repeats q) : Shape (p >>> q.star) :=
  hp.seq ⟨⟨hq.consumes, hq.plain⟩, hq.guarded⟩

theorem shape_chP {c : Char} (hsemi : c ≠ ';') (hquote : c ≠ '\'') : Shape (chP c) := by
  constructor
  · simp [chP, hsemi.symm, hquote.symm]
  · simp [chP]

theorem shape_strP {text : String} (htext : ∀ c ∈ text.toList, ';' ≠ c ∧ '\'' ≠ c) :
    Shape (strP text) := by
  constructor
  · simpa [strP] using htext
  · simp [strP]

theorem shape_name : Shape name := by
  constructor
  · simp [name, symbol, symbolAttr, isSymbol, isSymbolAttr, digits]
  · simp [name, symbol, symbolAttr, digits]

theorem shape_event : Shape event := by
  have hindex : Shape index := by
    constructor
    · simp [index, chP, uintP, digits]
    · simp [index, chP, uintP, digits]
  have hproperty : Shape property :=
    ((shape_strP (by simp)).alt (shape_strP (by simp))).alt (shape_strP (by simp))
  exact shape_name.seq (hindex.alt hproperty).opt

theorem shape_realP : Shape realP := by
  constructor
  · simp [realP]
  · simp [realP]

theorem shape_oneOf {texts : List (List Char)}
    (htexts : ∀ text ∈ texts, ∀ c ∈ text, ';' ≠ c ∧ '\'' ≠ c) : Shape (oneOf texts) := by
  have hexact : ∀ text : List Char, (∀ c ∈ text, ';' ≠ c ∧ '\'' ≠ c) → Shape (exact text) :=
    fun text htext => ⟨plain_exact.mpr htext, guarded_exact text⟩
  induction texts with
  | nil => exact ⟨⟨rfl, rfl⟩, trivial⟩
  | cons text texts ih =>
      obtain ⟨htext, hrest⟩ := List.forall_mem_cons.mp htexts
      cases texts with
      | nil => exact hexact text htext
      | cons other texts => exact (hexact text htext).alt (ih hrest)

theorem shape_symbolOf {table : List String}
    (htable : ∀ text ∈ table.map String.toList, ∀ c ∈ text, ';' ≠ c ∧ '\'' ≠ c) :
    Shape (symbolOf table) := by
  have hblanks : Shape (blanks : Peg Char) := ⟨trivial, trivial⟩
  exact hblanks.seq (shape_oneOf htable)

theorem shape_valString : Shape valString := by
  constructor
  · simp [valString]
  · simp [valString]

theorem shape_parenthesis (hp : Shape p) (hconsumes : p.Consumes) :
    Shape (p >>> again >>> chP ')') := by
  have hclose := shape_chP (c := ')') (by decide) (by decide)
  exact ⟨⟨⟨hp.plain, trivial⟩, hclose.plain⟩, ⟨hp.guarded, .inl hconsumes⟩, .inr hclose.guarded⟩

theorem shape_exprAtom : Shape exprAtom := by
  have hvalH : Shape valH := by
    constructor
    · simp [valH, strP, hexP, digits, isHexDigit]
    · simp [valH, strP, hexP, digits]
  have hopen := shape_chP (c := '(') (by decide) (by decide)
  have hstates : Shape (symbolOf tangoStates) := shape_symbolOf (by simp [tangoStates])
  have hqualities : Shape (symbolOf attrQuality) := shape_symbolOf (by simp [attrQuality])
  have henums : Shape (symbolOf alarmEnumStates) := shape_symbolOf (by simp [alarmEnumStates])
  exact ((((((shape_event.alt hvalH).alt shape_realP).alt hstates).alt hqualities).alt henums).alt
    shape_valString).alt (shape_parenthesis hopen (.inr trivial))

theorem shape_functionOf {name : String} (hname : ∀ c ∈ name.toList, ';' ≠ c ∧ '\'' ≠ c) :
    Shape (functionOf name) :=
  shape_parenthesis ((shape_strP hname).seq (shape_chP (by decide) (by decide)))
    (.inr (.inr trivial))

theorem shape_functionDualOf {name : String} (hname : ∀ c ∈ name.toList, ';' ≠ c ∧ '\'' ≠ c) :
    Shape (functionDualOf name) := by
  have hopen := (shape_strP hname).seq (shape_chP (c := '(') (by decide) (by decide))
  have hcomma := shape_chP (c := ',') (by decide) (by decide)
  have hfirst : Shape (strP name >>> chP '(' >>> again >>> chP ',') :=
    ⟨⟨⟨hopen.plain, trivial⟩, hcomma.plain⟩, ⟨hopen.guarded, .inl (.inr (.inr trivial))⟩,
      .inr hcomma.guarded⟩
  exact shape_parenthesis hfirst (.inr (.inr trivial))

theorem shape_unaryExpr : Shape unaryExpr := by
  have hsign : ∀ c, c ≠ ';' → c ≠ '\'' → Shape (chP c >>> exprAtom) :=
    fun c hsemi hquote => (shape_chP hsemi hquote).seq shape_exprAtom
  have hfunction : Shape function :=
    (((shape_functionOf (by simp)).alt (shape_functionOf (by simp))).alt
      (shape_functionOf (by simp))).alt (shape_functionOf (by simp))
  have hfunctionDual : Shape functionDual :=
    ((shape_functionDualOf (by simp)).alt (shape_functionDualOf (by simp))).alt
      (shape_functionDualOf (by simp))
  exact ((((shape_exprAtom.alt hfunction).alt hfunctionDual).alt (hsign _ (by decide) (by decide))).alt
    (hsign _ (by decide) (by decide))).alt (hsign _ (by decide) (by decide))

theorem repeats_chP {op : Char} (hsemi : op ≠ ';') (hquote : op ≠ '\'') (hp : Shape p) :
    Repeats (chP op >>> p) :=
  ⟨(shape_chP hsemi hquote).seq hp, .inl (.inr trivial)⟩

theorem repeats_strP {op : String} (hop : ∀ c ∈ op.toList, ';' ≠ c ∧ '\'' ≠ c)
    (hne : op.toList ≠ []) (hp : Shape p) : Repeats (strP op >>> p) :=
  ⟨(shape_strP hop).seq hp, .inl (.inr (consumes_exact.mpr hne))⟩

theorem shape_multExpr : Shape multExpr :=
  have h := shape_unaryExpr
  h.many ((repeats_chP (by decide) (by decide) h).alt (repeats_chP (by decide) (by decide) h))

theorem shape_addExpr : Shape addExpr :=
  have h := shape_multExpr
  h.many ((repeats_chP (by decide) (by decide) h).alt (repeats_chP (by decide) (by decide) h))

theorem shape_shiftExpr : Shape shiftExpr :=
  have h := shape_addExpr
  h.many ((repeats_strP (by simp) (by decide) h).alt (repeats_strP (by simp) (by decide) h))

theorem shape_compareExpr : Shape compareExpr :=
  have h := shape_addExpr
  shape_shiftExpr.many ((((repeats_strP (by simp) (by decide) h).alt
    (repeats_strP (by simp) (by decide) h)).alt (repeats_chP (by decide) (by decide) h)).alt
      (repeats_chP (by decide) (by decide) h))

theorem shape_equalityExpr : Shape equalityExpr :=
  have h := shape_compareExpr
  h.many ((repeats_strP (by simp) (by decide) h).alt (repeats_strP (by simp) (by decide) h))

theorem shape_bitwiseExpr : Shape bitwiseExpr :=
  have h := shape_equalityExpr
  h.many (((repeats_chP (by decide) (by decide) h).alt (repeats_chP (by decide) (by decide) h)).alt
    (repeats_chP (by decide) (by decide) h))

theorem shape_logicalExpr : Shape logicalExpr :=
  have h := shape_bitwiseExpr
  h.many ((repeats_strP (by simp) (by decide) h).alt (repeats_strP (by simp) (by decide) h))

theorem shape_condExpr : Shape condExpr := by
  have hask := shape_chP (c := '?') (by decide) (by decide)
  have hcolon := shape_chP (c := ':') (by decide) (by decide)
  have hbranches : Shape (chP '?' >>> again >>> chP ':' >>> again) :=
    ⟨⟨⟨⟨hask.plain, trivial⟩, hcolon.plain⟩, trivial⟩,
      ⟨⟨⟨hask.guarded, .inl (.inr trivial)⟩, .inr hcolon.guarded⟩,
        .inl (.inl (.inl (.inr trivial)))⟩⟩
  exact shape_logicalExpr.many ⟨hbranches, .inl (.inl (.inl (.inr trivial)))⟩

/-- A formula is read without looking past the separator behind it. -/
theorem local_condExpr : Local ';' '\'' (condExpr.parse isspace) :=
  shape_condExpr.plain.local_parse (by decide) (by decide) shape_condExpr.guarded

theorem balanced_condExpr : Balanced '\'' (condExpr.parse isspace) :=
  shape_condExpr.plain.balanced_parse (by decide)

end DshLmc.FormulaGrammar
