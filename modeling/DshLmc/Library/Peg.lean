import Mathlib.Algebra.Group.Nat.Even
import Mathlib.Data.List.DropRight
import Mathlib.Data.List.TakeWhile

/-!
# Grammars that read a text from the left

A grammar of this kind never takes a choice back: of two alternatives it takes the first that
matches, and it repeats for as long as it can. So what it leaves of a text is a function of the text.
Blanks are skipped where the grammar says so. Two things are proved once for all such grammars: that
the length of the text is fuel enough, and that a text with a separator behind it is read without
looking past the separator.
-/

namespace DshLmc

variable {σ α : Type*}

/-- Steps for as long as there is one, at most `k` times. -/
@[grind =]
def exhaust (step : σ → Option σ) : Nat → σ → σ
  | 0, s => s
  | k + 1, s =>
      match step s with
      | none => s
      | some s' => exhaust step k s'

/-- Steps for as long as there is one, when each makes what is left smaller. -/
def kleene (size : σ → Nat) (step : σ → Option σ) (s : σ) : σ := exhaust step (size s) s

section Kleene

variable {size : σ → Nat} {step step' : σ → Option σ}

def Shrinking (size : σ → Nat) (step : σ → Option σ) : Prop :=
  ∀ s s', step s = some s' → size s' < size s

theorem exhaust_of_none {s : σ} (h : step s = none) (k : Nat) : exhaust step k s = s := by
  cases k with
  | zero => rfl
  | succ k => simp [exhaust, h]

theorem exhaust_eq_exhaust (hstep : Shrinking size step) {k k' : Nat} {s : σ} (hk : size s ≤ k)
    (hk' : size s ≤ k') : exhaust step k s = exhaust step k' s := by
  induction k generalizing s k' with
  | zero =>
      cases h : step s with
      | none => rw [exhaust_of_none h, exhaust_of_none h]
      | some s' =>
          have := hstep s s' h
          omega
  | succ k ih =>
      cases h : step s with
      | none => rw [exhaust_of_none h, exhaust_of_none h]
      | some s' =>
          have hlt := hstep s s' h
          obtain ⟨k', rfl⟩ : ∃ j, k' = j + 1 := ⟨k' - 1, by omega⟩
          simp only [exhaust, h]
          exact ih (by omega) (by omega)

theorem kleene_of_none {s : σ} (h : step s = none) : kleene size step s = s :=
  exhaust_of_none h _

theorem kleene_of_some (hstep : Shrinking size step) {s s' : σ} (h : step s = some s') :
    kleene size step s = kleene size step s' := by
  have hlt := hstep s s' h
  obtain ⟨k, hk⟩ : ∃ k, size s = k + 1 := ⟨size s - 1, by omega⟩
  rw [kleene, hk]
  simp only [exhaust, h]
  exact exhaust_eq_exhaust hstep (by omega) le_rfl

/-- The repetition ends where there is no step. -/
theorem step_kleene (hstep : Shrinking size step) (s : σ) :
    step (kleene size step s) = none := by
  have hexhaust : ∀ k s, size s ≤ k → step (exhaust step k s) = none := by
    intro k
    induction k with
    | zero =>
        intro s hs
        cases h : step s with
        | none => exact h
        | some s' =>
            have := hstep s s' h
            omega
    | succ k ih =>
        intro s hs
        cases h : step s with
        | none => rw [exhaust_of_none h, h]
        | some s' =>
            have := hstep s s' h
            simp only [exhaust, h]
            exact ih s' (by omega)
  exact hexhaust (size s) s le_rfl

/-- What every step keeps, the repetition keeps. -/
theorem exhaust_induction {P : σ → Prop} (hkeep : ∀ s s', P s → step s = some s' → P s') (k : Nat)
    {s : σ} (hs : P s) : P (exhaust step k s) := by
  induction k generalizing s with
  | zero => exact hs
  | succ k ih =>
      unfold exhaust
      split
      case h_1 => exact hs
      case h_2 s' h => exact ih (hkeep s s' hs h)

theorem kleene_map {τ : Type*} {size' : τ → Nat} {step' : τ → Option τ} {f : σ → τ}
    (hsize : ∀ s, size' (f s) = size s) (hstep : ∀ s, step' (f s) = (step s).map f) (s : σ) :
    kleene size' step' (f s) = f (kleene size step s) := by
  rw [kleene, kleene, hsize]
  generalize size s = k
  induction k generalizing s with
  | zero => rfl
  | succ k ih =>
      simp only [exhaust, hstep]
      cases step s with
      | none => rfl
      | some s' => exact ih s'

theorem exhaust_congr {P : σ → Prop} (hkeep : ∀ s s', P s → step s = some s' → P s')
    (heq : ∀ s, P s → step s = step' s) (k : Nat) {s : σ} (hs : P s) :
    exhaust step k s = exhaust step' k s := by
  induction k generalizing s with
  | zero => rfl
  | succ k ih =>
      unfold exhaust
      rw [← heq s hs]
      split
      case h_1 => rfl
      case h_2 s' h => exact ih (hkeep s s' hs h)

end Kleene

/-- A reader leaves the rest of a text, or does not match it. -/
abbrev Reader (α : Type*) := List α → Option (List α)

inductive Peg (α : Type*) where
  | eps
  | blanks
  | char (p : α → Bool)
  /-- The longest run of symbols of a kind, when it is one that counts. -/
  | run (p : α → Bool) (counts : List α → Bool)
  /-- Nothing, where no symbol of the kind follows. -/
  | unless (p : α → Bool)
  /-- A quote, other symbols, at least one, and the quote again. -/
  | quoted (quote : α)
  /-- The whole grammar again. -/
  | again
  | seq (p q : Peg α)
  | alt (p q : Peg α)
  | star (p : Peg α)

namespace Peg

instance : ShiftRight (Peg α) := ⟨seq⟩

instance : OrOp (Peg α) := ⟨alt⟩

def opt (p : Peg α) : Peg α := p ||| eps

def plus (p : Peg α) : Peg α := p >>> star p

/-! ### The shape of a grammar -/

/-- A match takes at least one symbol. -/
@[grind =]
def Consumes : Peg α → Prop
  | .char _ => True
  | .run _ counts => counts [] = false
  | .quoted _ => True
  | .seq p q => p.Consumes ∨ q.Consumes
  | .alt p q => p.Consumes ∧ q.Consumes
  | _ => False

/-- The grammar comes again only where something was consumed. -/
@[grind =]
def Guarded : Peg α → Prop
  | .again => False
  | .seq p q => p.Guarded ∧ (p.Consumes ∨ q.Guarded)
  | .alt p q => p.Guarded ∧ q.Guarded
  | .star p => p.Guarded
  | _ => True

/-- Quotes are only read in pairs, and the separator only between them. -/
@[grind =]
def Plain (stop quote : α) : Peg α → Prop
  | .char p => p stop = false ∧ p quote = false
  | .run p _ => p stop = false ∧ p quote = false
  | .unless p => p stop = false
  | .quoted q => q = quote ∧ quote ≠ stop
  | .seq p q => p.Plain stop quote ∧ q.Plain stop quote
  | .alt p q => p.Plain stop quote ∧ q.Plain stop quote
  | .star p => p.Consumes ∧ p.Plain stop quote
  | _ => True

section Shape

variable {p q : Peg α} {stop quote : α}

@[simp] theorem consumes_blanks : ¬ (blanks : Peg α).Consumes := id

@[simp] theorem consumes_char (p : α → Bool) : (char p).Consumes := trivial

@[simp] theorem consumes_run (p : α → Bool) (counts : List α → Bool) :
    (run p counts).Consumes ↔ counts [] = false := Iff.rfl

@[simp] theorem consumes_seq : (p >>> q).Consumes ↔ p.Consumes ∨ q.Consumes := Iff.rfl

@[simp] theorem consumes_alt : (p ||| q).Consumes ↔ p.Consumes ∧ q.Consumes := Iff.rfl

@[simp] theorem guarded_blanks : (blanks : Peg α).Guarded := trivial

@[simp] theorem guarded_char (p : α → Bool) : (char p).Guarded := trivial

@[simp] theorem guarded_run (p : α → Bool) (counts : List α → Bool) : (run p counts).Guarded := trivial

@[simp] theorem guarded_unless (p : α → Bool) : (Peg.unless p).Guarded := trivial

@[simp] theorem guarded_quoted (quote : α) : (quoted quote).Guarded := trivial

@[simp] theorem guarded_again : ¬ (again : Peg α).Guarded := id

@[simp] theorem guarded_seq : (p >>> q).Guarded ↔ p.Guarded ∧ (p.Consumes ∨ q.Guarded) := Iff.rfl

@[simp] theorem guarded_alt : (p ||| q).Guarded ↔ p.Guarded ∧ q.Guarded := Iff.rfl

@[simp] theorem guarded_star : p.star.Guarded ↔ p.Guarded := Iff.rfl

@[simp] theorem guarded_plus : p.plus.Guarded ↔ p.Guarded :=
  and_iff_left_of_imp Or.inr

@[simp] theorem guarded_opt : p.opt.Guarded ↔ p.Guarded := and_iff_left trivial

@[simp] theorem plain_blanks : (blanks : Peg α).Plain stop quote := trivial

@[simp] theorem plain_char {p : α → Bool} :
    (char p).Plain stop quote ↔ p stop = false ∧ p quote = false := Iff.rfl

@[simp] theorem plain_run {p : α → Bool} {counts : List α → Bool} :
    (run p counts).Plain stop quote ↔ p stop = false ∧ p quote = false := Iff.rfl

@[simp] theorem plain_unless {p : α → Bool} :
    (Peg.unless p).Plain stop quote ↔ p stop = false := Iff.rfl

@[simp] theorem plain_quoted {q : α} :
    (quoted q).Plain stop quote ↔ q = quote ∧ quote ≠ stop := Iff.rfl

@[simp] theorem plain_again : (again : Peg α).Plain stop quote := trivial

@[simp] theorem plain_seq :
    (p >>> q).Plain stop quote ↔ p.Plain stop quote ∧ q.Plain stop quote := Iff.rfl

@[simp] theorem plain_alt :
    (p ||| q).Plain stop quote ↔ p.Plain stop quote ∧ q.Plain stop quote := Iff.rfl

@[simp] theorem plain_star :
    p.star.Plain stop quote ↔ p.Consumes ∧ p.Plain stop quote := Iff.rfl

@[simp] theorem plain_plus :
    p.plus.Plain stop quote ↔ p.Consumes ∧ p.Plain stop quote :=
  and_iff_right_of_imp And.right

@[simp] theorem plain_opt : p.opt.Plain stop quote ↔ p.Plain stop quote := and_iff_left trivial

end Shape

variable [DecidableEq α] (blank : α → Bool)

def exact (text : List α) : Peg α := text.foldr (fun c rest => char (fun c' => c' == c) >>> rest) eps

section Exact

variable {word : List α} {stop quote : α}

@[simp] theorem consumes_exact : (exact word).Consumes ↔ word ≠ [] := by
  cases word with
  | nil => exact iff_of_false id (not_not_intro rfl)
  | cons c word => exact iff_of_true (.inl trivial) (List.cons_ne_nil c word)

@[simp] theorem guarded_exact (word : List α) : (exact word).Guarded := by
  induction word with
  | nil => trivial
  | cons c word ih => exact ⟨trivial, .inr ih⟩

@[simp] theorem plain_exact :
    (exact word).Plain stop quote ↔ ∀ c ∈ word, stop ≠ c ∧ quote ≠ c := by
  induction word with
  | nil => exact iff_of_true trivial (List.forall_mem_nil _)
  | cons c word ih =>
      rw [List.forall_mem_cons, ← ih]
      change (((stop == c) = false ∧ (quote == c) = false) ∧ _) ↔ _
      rw [beq_eq_false_iff_ne, beq_eq_false_iff_ne]
      exact Iff.rfl

end Exact

/-- The first of the texts that is there. -/
@[grind =]
def oneOf : List (List α) → Peg α
  | [] => char fun _ => false
  | [text] => exact text
  | text :: texts => exact text ||| oneOf texts

@[grind =]
def readQuoted (quote : α) : Reader α
  | [] => none
  | c :: text =>
      if c = quote ∧ text.takeWhile (fun c => c ≠ quote) ≠ [] then
        match text.dropWhile (fun c => c ≠ quote) with
        | [] => none
        | _ :: rest => some rest
      else none

/-- What a grammar leaves of a text, where `again` reads the whole grammar. -/
@[grind =]
def read (again : Reader α) : Peg α → Reader α
  | .eps, text => some text
  | .blanks, text => some (text.dropWhile blank)
  | .char p, text =>
      match text with
      | [] => none
      | c :: rest => if p c then some rest else none
  | .run p counts, text =>
      if counts (text.takeWhile p) then some (text.dropWhile p) else none
  | .unless p, text => if text.head?.any p then none else some text
  | .quoted quote, text => readQuoted quote text
  | .again, text => again text
  | .seq p q, text => (p.read again text).bind (q.read again)
  | .alt p q, text => (p.read again text).or (q.read again text)
  | .star p, text => some (kleene List.length (p.read again) text)

/-- The grammar with `k` levels of itself inside. -/
@[grind =]
def reads (g : Peg α) : Nat → Reader α
  | 0, _ => none
  | k + 1, text => g.read blank (g.reads k) text

def parse (g : Peg α) (text : List α) : Option (List α) := g.reads blank (text.length + 1) text

/-- The text a grammar matched, from its first symbol that is not a blank, and what it left. -/
def capture (p : Peg α) (text : List α) : Option (List α × List α) :=
  let start := text.dropWhile blank
  (p.parse blank start).map fun rest => (start.take (start.length - rest.length), rest)

variable {blank} {again again' : Reader α} {p q g : Peg α} {text rest : List α}

theorem suffix_of_readQuoted {quote : α} (h : readQuoted quote text = some rest) :
    ∃ inside, text = quote :: (inside ++ quote :: rest) ∧ inside ≠ [] ∧ quote ∉ inside := by
  cases text with
  | nil => cases h
  | cons c text =>
      simp only [readQuoted] at h
      split at h
      case isFalse => cases h
      case isTrue hquote =>
          obtain ⟨rfl, hinside⟩ := hquote
          split at h
          case h_1 => cases h
          case h_2 c' after hdrop =>
              obtain rfl := Option.some.inj h
              have hc' : c' = c := by
                have hhead := List.head?_dropWhile_not (fun x => decide (x ≠ c)) text
                rw [hdrop] at hhead
                simpa using hhead
              refine ⟨text.takeWhile fun x => x ≠ c, ?_, hinside, ?_⟩
              · rw [← hc', ← hdrop, hc', List.takeWhile_append_dropWhile]
              · intro hmem
                simpa using List.mem_takeWhile_imp hmem

def Keeps (again : Reader α) : Prop := ∀ text rest, again text = some rest → rest <:+ text

theorem Keeps.read (hagain : Keeps again) (p : Peg α) : Keeps (p.read blank again) := by
  induction p with
  | eps =>
      intro text rest h
      obtain rfl := Option.some.inj h
      exact List.suffix_refl text
  | blanks =>
      intro text rest h
      obtain rfl := Option.some.inj h
      exact List.dropWhile_suffix blank
  | char p =>
      intro text rest h
      cases text with
      | nil => cases h
      | cons c text =>
          simp only [Peg.read, Option.ite_none_right_eq_some, Option.some.injEq] at h
          obtain ⟨-, rfl⟩ := h
          exact List.suffix_cons c text
  | run p counts =>
      intro text rest h
      simp only [Peg.read, Option.ite_none_right_eq_some, Option.some.injEq] at h
      obtain ⟨-, rfl⟩ := h
      exact List.dropWhile_suffix p
  | «unless» p =>
      intro text rest h
      simp only [Peg.read, Option.ite_none_left_eq_some, Option.some.injEq] at h
      obtain ⟨-, rfl⟩ := h
      exact List.suffix_refl text
  | quoted quote =>
      intro text rest h
      obtain ⟨inside, rfl, -, -⟩ := suffix_of_readQuoted h
      exact ⟨quote :: (inside ++ [quote]), by simp⟩
  | again => exact hagain
  | seq p q ihp ihq =>
      intro text rest h
      obtain ⟨after, hp, hq⟩ := Option.bind_eq_some_iff.mp h
      exact (ihq after rest hq).trans (ihp text after hp)
  | alt p q ihp ihq =>
      intro text rest h
      obtain hp | ⟨-, hq⟩ := Option.or_eq_some_iff.mp h
      · exact ihp text rest hp
      · exact ihq text rest hq
  | star p ih =>
      intro text rest h
      obtain rfl := Option.some.inj h
      exact exhaust_induction (fun after rest hafter hp => (ih after rest hp).trans hafter) _
        (List.suffix_refl text)

theorem Consumes.length_lt (hagain : Keeps again) (hp : p.Consumes)
    (h : p.read blank again text = some rest) : rest.length < text.length := by
  induction p generalizing text rest with
  | char p =>
      cases text with
      | nil => cases h
      | cons c text =>
          simp only [Peg.read, Option.ite_none_right_eq_some, Option.some.injEq] at h
          obtain ⟨-, rfl⟩ := h
          simp
  | run p counts =>
      simp only [Peg.read, Option.ite_none_right_eq_some, Option.some.injEq] at h
      obtain ⟨hcounts, rfl⟩ := h
      have hne : text.takeWhile p ≠ [] := by
        intro hnil
        rw [hnil] at hcounts
        simp [Consumes, hcounts] at hp
      have hlength := congrArg List.length (List.takeWhile_append_dropWhile (p := p) (l := text))
      rw [List.length_append] at hlength
      have := List.length_pos_iff.mpr hne
      omega
  | quoted quote =>
      obtain ⟨inside, rfl, -, -⟩ := suffix_of_readQuoted h
      simp only [List.length_cons, List.length_append]
      omega
  | seq p q ihp ihq =>
      obtain ⟨after, hp', hq'⟩ := Option.bind_eq_some_iff.mp h
      have hle := (hagain.read p text after hp').length_le
      have hle' := (hagain.read q after rest hq').length_le
      rcases hp with hp | hq
      · have := ihp hp hp'
        omega
      · have := ihq hq hq'
        omega
  | alt p q ihp ihq =>
      obtain hp' | ⟨-, hq'⟩ := Option.or_eq_some_iff.mp h
      · exact ihp hp.1 hp'
      · exact ihq hp.2 hq'
  | eps | blanks | «unless» | again | star => exact hp.elim

theorem Consumes.shrinking (hagain : Keeps again) (hp : p.Consumes) :
    Shrinking List.length (p.read blank again) := fun _ _ h => hp.length_lt hagain h

/-- What a grammar reads depends on `again` only up to the length of the text. -/
theorem read_congr (hagain : Keeps again) (p : Peg α)
    (heq : ∀ part : List α, part.length ≤ text.length → again part = again' part) :
    p.read blank again text = p.read blank again' text := by
  induction p generalizing text with
  | again => exact heq text le_rfl
  | seq p q ihp ihq =>
      simp only [Peg.read]
      rw [← ihp heq]
      refine Option.bind_congr fun after hafter => ihq fun part hpart => heq part ?_
      exact hpart.trans (hagain.read p text after hafter).length_le
  | alt p q ihp ihq =>
      simp only [Peg.read]
      rw [ihp heq, ihq heq]
  | star p ih =>
      refine congrArg some (exhaust_congr (P := fun part => part.length ≤ text.length) ?_ ?_ _ le_rfl)
      · exact fun part rest hpart h => ((hagain.read p part rest h).length_le).trans hpart
      · exact fun part hpart => ih fun part' hpart' => heq part' (hpart'.trans hpart)
  | eps | blanks | char | run | «unless» | quoted => rfl

/-- A guarded grammar uses `again` only on what is shorter than the text. -/
theorem Guarded.read_congr (hagain : Keeps again) (hp : p.Guarded)
    (heq : ∀ part : List α, part.length < text.length → again part = again' part) :
    p.read blank again text = p.read blank again' text := by
  induction p generalizing text with
  | again => exact hp.elim
  | seq p q ihp ihq =>
      simp only [Peg.read]
      rw [← ihp hp.1 heq]
      refine Option.bind_congr fun after hafter => ?_
      rcases hp.2 with hconsumes | hq
      · have hlt := hconsumes.length_lt hagain hafter
        exact Peg.read_congr hagain q fun part hpart => heq part (hpart.trans_lt hlt)
      · have hle := (hagain.read p text after hafter).length_le
        exact ihq hq fun part hpart => heq part (hpart.trans_le hle)
  | alt p q ihp ihq =>
      simp only [Peg.read]
      rw [ihp hp.1 heq, ihq hp.2 heq]
  | star p ih =>
      refine congrArg some (exhaust_congr (P := fun part => part.length ≤ text.length) ?_ ?_ _ le_rfl)
      · exact fun part rest hpart h => ((hagain.read p part rest h).length_le).trans hpart
      · exact fun part hpart => ih hp fun part' hpart' => heq part' (hpart'.trans_le hpart)
  | eps | blanks | char | run | «unless» | quoted => rfl

theorem keeps_reads (g : Peg α) (k : Nat) : Keeps (g.reads blank k) := by
  induction k with
  | zero =>
      intro text rest h
      cases h
  | succ k ih => exact ih.read g

theorem Guarded.reads_eq_reads (hg : g.Guarded) {k k' : Nat} (hk : text.length < k)
    (hk' : text.length < k') : g.reads blank k text = g.reads blank k' text := by
  induction k generalizing k' text with
  | zero => omega
  | succ k ih =>
      obtain ⟨k', rfl⟩ : ∃ j, k' = j + 1 := ⟨k' - 1, by omega⟩
      exact hg.read_congr (g.keeps_reads k) fun part hpart => ih (by omega) (by omega)

/-- The length of the text is fuel enough: more of it reads the same. -/
theorem Guarded.reads_eq_parse (hg : g.Guarded) {k : Nat} (hk : text.length < k) :
    g.reads blank k text = g.parse blank text :=
  hg.reads_eq_reads hk (Nat.lt_succ_self _)

theorem keeps_parse (g : Peg α) : Keeps (g.parse blank) :=
  fun text => g.keeps_reads (text.length + 1) text

theorem Consumes.length_lt_of_parse (hg : g.Consumes) (h : g.parse blank text = some rest) :
    rest.length < text.length := hg.length_lt (g.keeps_reads text.length) h

theorem parse_eq_read (g : Peg α) (text : List α) :
    g.parse blank text = g.read blank (g.reads blank text.length) text := rfl

theorem parse_blanks_seq (p : Peg α) (text : List α) :
    (blanks >>> p).parse blank text
      = p.read blank ((blanks >>> p).reads blank text.length) (text.dropWhile blank) := rfl

theorem read_seq (p q : Peg α) (text : List α) :
    (p >>> q).read blank again text = (p.read blank again text).bind (q.read blank again) := rfl

theorem read_alt (p q : Peg α) (text : List α) :
    (p ||| q).read blank again text = (p.read blank again text).or (q.read blank again text) := rfl

theorem read_plus (p : Peg α) (text : List α) :
    p.plus.read blank again text
      = (p.read blank again text).bind ((star p).read blank again) := rfl

theorem read_opt (p : Peg α) (text : List α) :
    p.opt.read blank again text = (p.read blank again text).or (some text) := rfl

theorem read_exact_of_ne {c c' : α} (hne : c' ≠ c) (word text : List α) :
    (exact (c :: word)).read blank again (c' :: text) = none := by
  change Option.bind (if c' == c then some text else none) _ = none
  rw [if_neg (by simpa using hne)]
  rfl

theorem read_exact_append (word text : List α) :
    (exact word).read blank again (word ++ text) = some text := by
  induction word with
  | nil => rfl
  | cons c word ih =>
      have hhead : (exact (c :: word)).read blank again (c :: word ++ text)
          = (exact word).read blank again (word ++ text) := by
        change Option.bind (if c == c then some (word ++ text) else none) _ = _
        rw [if_pos BEq.rfl]
        rfl
      rw [hhead, ih]

theorem prefix_of_read_exact {word : List α}
    (h : (exact word).read blank again text = some rest) : text = word ++ rest := by
  induction word generalizing text with
  | nil => exact Option.some.inj h
  | cons c word ih =>
      obtain ⟨after, hchar, hword⟩ := Option.bind_eq_some_iff.mp h
      cases text with
      | nil => cases hchar
      | cons c' text =>
          simp only [Peg.read, Option.ite_none_right_eq_some, Option.some.injEq, beq_iff_eq]
            at hchar
          obtain ⟨rfl, rfl⟩ := hchar
          rw [ih hword, List.cons_append]

theorem read_star_char (p : α → Bool) (text : List α) :
    (star (char p)).read blank again text = some (text.dropWhile p) := by
  have hshrinking : Shrinking List.length ((char p).read blank again) := by
    intro text rest h
    cases text with
    | nil => cases h
    | cons c text =>
        simp only [Peg.read, Option.ite_none_right_eq_some, Option.some.injEq] at h
        obtain ⟨-, rfl⟩ := h
        simp
  refine congrArg some ?_
  induction text with
  | nil => exact kleene_of_none rfl
  | cons c text ih =>
      cases hc : p c with
      | false => rw [kleene_of_none (by simp [Peg.read, hc]), List.dropWhile_cons_of_neg (by simp [hc])]
      | true =>
          have hstep : (char p).read blank again (c :: text) = some text := by simp [Peg.read, hc]
          rw [kleene_of_some hshrinking hstep, ih, List.dropWhile_cons_of_pos hc]

theorem read_plus_char (p : α → Bool) (text : List α) :
    (plus (char p)).read blank again text
      = if text.takeWhile p = [] then none else some (text.dropWhile p) := by
  cases text with
  | nil => rfl
  | cons c text =>
      cases hc : p c with
      | false =>
          rw [List.takeWhile_cons_of_neg (by simp [hc]), if_pos rfl]
          change Option.bind (if p c then some text else none) _ = none
          rw [hc]
          rfl
      | true =>
          rw [List.takeWhile_cons_of_pos hc, if_neg (List.cons_ne_nil _ _),
            List.dropWhile_cons_of_pos hc]
          change Option.bind (if p c then some text else none) _ = _
          rw [if_pos hc]
          exact read_star_char p text

theorem capture_eq_some {word : List α} (h : p.capture blank text = some (word, rest)) :
    text.dropWhile blank = word ++ rest ∧ p.parse blank (word ++ rest) = some rest := by
  obtain ⟨after, hparse, hpair⟩ := Option.map_eq_some_iff.mp h
  obtain ⟨hword, rfl⟩ := Prod.ext_iff.mp hpair
  obtain ⟨used, hused⟩ := p.keeps_parse _ _ hparse
  dsimp only at hword
  have hsplit : text.dropWhile blank = word ++ after := by
    rw [← hword, ← hused]
    simp
  exact ⟨hsplit, hsplit ▸ hparse⟩

theorem capture_of_parse {word : List α} (hstart : ∀ c ∈ (word ++ rest).head?, blank c = false)
    (h : p.parse blank (word ++ rest) = some rest) :
    p.capture blank (word ++ rest) = some (word, rest) := by
  have hdrop : (word ++ rest).dropWhile blank = word ++ rest := by
    cases htext : word ++ rest with
    | nil => rfl
    | cons c text =>
        rw [htext] at hstart
        rw [List.dropWhile_cons_of_neg]
        simp [hstart c rfl]
  simp [capture, hdrop, h]

theorem capture_dropWhile (p : Peg α) (text : List α) :
    p.capture blank (text.dropWhile blank) = p.capture blank text := by
  rw [capture, capture, List.dropWhile_idempotent]

theorem capture_eq_none (h : p.parse blank (text.dropWhile blank) = none) :
    p.capture blank text = none := by
  simp [capture, h]

/-! ### What is read -/

/-- What is read has a property. -/
def Uses (Q : List α → Prop) (again : Reader α) : Prop :=
  ∀ text rest, again text = some rest → ∃ used, text = used ++ rest ∧ Q used

/-- What the grammar puts together has a property. -/
@[grind =]
def Builds (blank : α → Bool) (Q : List α → Prop) : Peg α → Prop
  | .blanks => ∀ c, blank c = true → Q [c]
  | .char p => ∀ c, p c = true → Q [c]
  | .run p _ => ∀ c, p c = true → Q [c]
  | .quoted quote => ∀ inside : List α, quote ∉ inside → Q (quote :: (inside ++ [quote]))
  | .seq p q => p.Builds blank Q ∧ q.Builds blank Q
  | .alt p q => p.Builds blank Q ∧ q.Builds blank Q
  | .star p => p.Builds blank Q
  | _ => True

section Uses

variable {Q : List α → Prop}

omit [DecidableEq α] in
theorem of_forall_singleton (hnil : Q []) (happend : ∀ {u v}, Q u → Q v → Q (u ++ v))
    {p : α → Bool} (hp : ∀ c, p c = true → Q [c]) {word : List α}
    (hword : ∀ c ∈ word, p c = true) : Q word := by
  induction word with
  | nil => exact hnil
  | cons c word ih =>
      obtain ⟨hc, hrest⟩ := List.forall_mem_cons.mp hword
      exact happend (hp c hc) (ih hrest)

theorem Uses.read (hnil : Q []) (happend : ∀ {u v}, Q u → Q v → Q (u ++ v))
    (hagain : Uses Q again) (hp : p.Builds blank Q) : Uses Q (p.read blank again) := by
  induction p with
  | eps =>
      intro text rest h
      obtain rfl := Option.some.inj h
      exact ⟨[], rfl, hnil⟩
  | blanks =>
      intro text rest h
      obtain rfl := Option.some.inj h
      exact ⟨_, List.takeWhile_append_dropWhile.symm,
        of_forall_singleton hnil happend hp fun c hc => List.mem_takeWhile_imp hc⟩
  | char p =>
      intro text rest h
      cases text with
      | nil => cases h
      | cons c text =>
          simp only [Peg.read, Option.ite_none_right_eq_some, Option.some.injEq] at h
          obtain ⟨hc, rfl⟩ := h
          exact ⟨[c], rfl, hp c hc⟩
  | run p counts =>
      intro text rest h
      simp only [Peg.read, Option.ite_none_right_eq_some, Option.some.injEq] at h
      obtain ⟨-, rfl⟩ := h
      exact ⟨_, List.takeWhile_append_dropWhile.symm,
        of_forall_singleton hnil happend hp fun c hc => List.mem_takeWhile_imp hc⟩
  | «unless» p =>
      intro text rest h
      simp only [Peg.read, Option.ite_none_left_eq_some, Option.some.injEq] at h
      obtain ⟨-, rfl⟩ := h
      exact ⟨[], rfl, hnil⟩
  | quoted q =>
      intro text rest h
      obtain ⟨inside, rfl, -, hnot⟩ := suffix_of_readQuoted h
      exact ⟨q :: (inside ++ [q]), by simp, hp inside hnot⟩
  | again => exact hagain
  | seq p q ihp ihq =>
      intro text rest h
      obtain ⟨after, hp', hq'⟩ := Option.bind_eq_some_iff.mp h
      obtain ⟨used, rfl, hused⟩ := ihp hp.1 text after hp'
      obtain ⟨used', rfl, hused'⟩ := ihq hp.2 after rest hq'
      exact ⟨used ++ used', (List.append_assoc ..).symm, happend hused hused'⟩
  | alt p q ihp ihq =>
      intro text rest h
      obtain hp' | ⟨-, hq'⟩ := Option.or_eq_some_iff.mp h
      · exact ihp hp.1 text rest hp'
      · exact ihq hp.2 text rest hq'
  | star p ih =>
      intro text rest h
      obtain rfl := Option.some.inj h
      refine exhaust_induction (P := fun rest => ∃ used, text = used ++ rest ∧ Q used) ?_ _
        ⟨[], rfl, hnil⟩
      rintro after rest ⟨used, rfl, hused⟩ h
      obtain ⟨used', rfl, hused'⟩ := ih hp after rest h
      exact ⟨used ++ used', (List.append_assoc ..).symm, happend hused hused'⟩

theorem Builds.uses_parse (hnil : Q []) (happend : ∀ {u v}, Q u → Q v → Q (u ++ v))
    (hg : g.Builds blank Q) : Uses Q (g.parse blank) := by
  have hreads : ∀ k, Uses Q (g.reads blank k) := by
    intro k
    induction k with
    | zero =>
        intro text rest h
        cases h
    | succ k ih => exact ih.read hnil happend hg
  exact fun text => hreads (text.length + 1) text

end Uses

theorem Builds.of_capture {Q : List α → Prop} (hnil : Q [])
    (happend : ∀ {u v}, Q u → Q v → Q (u ++ v)) (hp : p.Builds blank Q) {word : List α}
    (h : p.capture blank text = some (word, rest)) : Q word := by
  obtain ⟨-, hparse⟩ := capture_eq_some h
  obtain ⟨used, hused, hQ⟩ := hp.uses_parse hnil happend _ _ hparse
  rwa [List.append_cancel_right hused]

/-! ### A separator behind the text

Nothing in a plain grammar matches the separator, except inside quotes. So as long as the quotes of a
text come in pairs, what is read of the text does not depend on what the separator is followed by, or
on whether there is one.
-/

section Separator

variable (stop quote : α)

/-- What is read holds an even number of quotes. -/
def Balanced (again : Reader α) : Prop := Uses (fun used => Even (used.count quote)) again

/-- Nothing, or the separator and anything. -/
def Ends (behind : List α) : Prop := ∀ c ∈ behind.head?, c = stop

/-- What is read of a text is the same with nothing behind it and with the separator behind it. -/
def Local (again : Reader α) : Prop :=
  ∀ text, Even (text.count quote) → ∀ behind behind', Ends stop behind → Ends stop behind' →
    ∃ out : Option (List α), (∀ rest ∈ out, rest <:+ text) ∧
      again (text ++ behind) = out.map (· ++ behind) ∧
      again (text ++ behind') = out.map (· ++ behind')

variable {stop quote}

theorem Balanced.keeps (hagain : Balanced quote again) : Keeps again := by
  intro text rest h
  obtain ⟨used, rfl, -⟩ := hagain text rest h
  exact List.suffix_append used rest

theorem even_count_singleton {c : α} (hne : c ≠ quote) : Even ([c].count quote) := by
  rw [List.count_singleton, if_neg (by simpa using hne)]
  exact Even.zero

omit [DecidableEq α] in
theorem ne_of_eq_false {p : α → Bool} {c c' : α} (hc' : p c' = false) (hc : p c = true) : c ≠ c' := by
  rintro rfl
  rw [hc'] at hc
  cases hc

theorem Plain.builds (hblank : blank quote = false) (hp : p.Plain stop quote) :
    p.Builds blank fun used => Even (used.count quote) := by
  induction p with
  | eps | «unless» | again => trivial
  | blanks => exact fun c hc => even_count_singleton (ne_of_eq_false hblank hc)
  | char p => exact fun c hc => even_count_singleton (ne_of_eq_false hp.2 hc)
  | run p counts => exact fun c hc => even_count_singleton (ne_of_eq_false hp.2 hc)
  | quoted q =>
      intro inside hnot
      obtain ⟨rfl, -⟩ := hp
      have htwo : (q :: (inside ++ [q])).count q = 2 := by simp [List.count_eq_zero.mpr hnot]
      rw [htwo]
      exact ⟨1, rfl⟩
  | seq p q ihp ihq => exact ⟨ihp hp.1, ihq hp.2⟩
  | alt p q ihp ihq => exact ⟨ihp hp.1, ihq hp.2⟩
  | star p ih => exact ih hp.2

omit [DecidableEq α] in
/-- A grammar without quotes reads no separator. -/
theorem Plain.builds_not_mem (hblank : blank stop = false) (hp : p.Plain stop stop) :
    p.Builds blank fun used => stop ∉ used := by
  have hsingle : ∀ p : α → Bool, p stop = false → ∀ c, p c = true → stop ∉ [c] := by
    intro p hnot c hc hmem
    exact ne_of_eq_false hnot hc (List.mem_singleton.mp hmem).symm
  induction p with
  | eps | «unless» | again => trivial
  | blanks => exact hsingle blank hblank
  | char p => exact hsingle p hp.1
  | run p counts => exact hsingle p hp.1
  | quoted q => exact absurd rfl hp.2
  | seq p q ihp ihq => exact ⟨ihp hp.1, ihq hp.2⟩
  | alt p q ihp ihq => exact ⟨ihp hp.1, ihq hp.2⟩
  | star p ih => exact ih hp.2

theorem Balanced.read (hblank : blank quote = false) (hagain : Balanced quote again)
    (hp : p.Plain stop quote) : Balanced quote (p.read blank again) := by
  refine Uses.read Even.zero (fun hu hv => ?_) hagain (hp.builds hblank)
  rw [List.count_append]
  exact hu.add hv

section Ends

variable {behind after : List α}

theorem Balanced.even_rest (hagain : Balanced quote again) (heven : Even (text.count quote))
    (h : again (text ++ behind) = some (after ++ behind)) : Even (after.count quote) := by
  obtain ⟨used, hused, heven'⟩ := hagain _ _ h
  rw [← List.append_assoc] at hused
  rw [List.append_cancel_right hused, List.count_append, Nat.even_add] at heven
  exact heven.mp heven'

omit [DecidableEq α] in
theorem Ends.dropWhile_append (hends : Ends stop behind) {p : α → Bool} (hp : p stop = false)
    (text : List α) : (text ++ behind).dropWhile p = text.dropWhile p ++ behind := by
  induction text with
  | nil =>
      cases behind with
      | nil => rfl
      | cons c behind =>
          obtain rfl := hends c rfl
          simp [hp]
  | cons c text ih =>
      cases hc : p c with
      | true => simpa [hc] using ih
      | false => simp [hc]

omit [DecidableEq α] in
theorem Ends.takeWhile_append (hends : Ends stop behind) {p : α → Bool} (hp : p stop = false)
    (text : List α) : (text ++ behind).takeWhile p = text.takeWhile p := by
  induction text with
  | nil =>
      cases behind with
      | nil => rfl
      | cons c behind =>
          obtain rfl := hends c rfl
          simp [hp]
  | cons c text ih =>
      cases hc : p c with
      | true => simpa [hc] using ih
      | false => simp [hc]

omit [DecidableEq α] in
theorem takeWhile_append_of_mem {p : α → Bool} {c : α} (hc : p c = false) {text : List α}
    (hmem : c ∈ text) (behind : List α) : (text ++ behind).takeWhile p = text.takeWhile p := by
  induction text with
  | nil => cases hmem
  | cons c' text ih =>
      cases hc' : p c' with
      | false => simp [hc']
      | true =>
          have hne : c ≠ c' := by
            rintro rfl
            rw [hc] at hc'
            cases hc'
          simpa [hc'] using ih ((List.mem_cons.mp hmem).resolve_left hne)

omit [DecidableEq α] in
theorem dropWhile_append_of_mem {p : α → Bool} {c : α} (hc : p c = false) {text : List α}
    (hmem : c ∈ text) (behind : List α) :
    (text ++ behind).dropWhile p = text.dropWhile p ++ behind ∧ text.dropWhile p ≠ [] := by
  induction text with
  | nil => cases hmem
  | cons c' text ih =>
      cases hc' : p c' with
      | false => simp [hc']
      | true =>
          have hne : c ≠ c' := by
            rintro rfl
            rw [hc] at hc'
            cases hc'
          simpa [hc'] using ih ((List.mem_cons.mp hmem).resolve_left hne)

theorem Ends.readQuoted_append (hends : Ends stop behind) (hne : quote ≠ stop) {text : List α}
    (heven : Even (text.count quote)) :
    readQuoted quote (text ++ behind) = (readQuoted quote text).map (· ++ behind) := by
  cases text with
  | nil =>
      cases behind with
      | nil => rfl
      | cons c behind =>
          obtain rfl := hends c rfl
          simp [readQuoted, hne.symm]
  | cons c text =>
      by_cases hc : c = quote
      · subst hc
        -- the quotes come in pairs, so the one that closes is in the text
        have hmem : c ∈ text := by
          by_contra hnot
          rw [List.count_cons_self, List.count_eq_zero.mpr hnot] at heven
          exact absurd heven (by decide)
        have hp : decide (c ≠ c) = false := by simp
        obtain ⟨hdrop, hdropped⟩ :=
          dropWhile_append_of_mem (p := fun x => decide (x ≠ c)) hp hmem behind
        have htake := takeWhile_append_of_mem (p := fun x => decide (x ≠ c)) hp hmem behind
        simp only [List.cons_append, readQuoted, htake, hdrop]
        split
        case isFalse => rfl
        case isTrue =>
            cases hrest : text.dropWhile fun x => decide (x ≠ c) with
            | nil => exact absurd hrest hdropped
            | cons c' rest => rfl
      · simp [readQuoted, hc]

end Ends

theorem Local.read (hblank : blank stop = false) (hblank' : blank quote = false)
    (hlocal : Local stop quote again) (hagain : Balanced quote again) (hp : p.Plain stop quote) :
    Local stop quote (p.read blank again) := by
  induction p with
  | eps => exact fun text _ behind behind' _ _ => ⟨some text, by simp, rfl, rfl⟩
  | blanks =>
      intro text _ behind behind' hends hends'
      refine ⟨some (text.dropWhile blank), ?_, ?_, ?_⟩
      · simpa using List.dropWhile_suffix blank
      · exact congrArg some (hends.dropWhile_append hblank text)
      · exact congrArg some (hends'.dropWhile_append hblank text)
  | char p =>
      intro text _ behind behind' hends hends'
      cases text with
      | nil =>
          have hnone : ∀ behind, Ends stop behind → (char p).read blank again behind = none := by
            intro behind hends
            cases behind with
            | nil => rfl
            | cons c behind =>
                obtain rfl := hends c rfl
                simp [Peg.read, hp.1]
          exact ⟨none, by simp, hnone behind hends, hnone behind' hends'⟩
      | cons c text =>
          refine ⟨if p c then some text else none, ?_, ?_, ?_⟩
          · cases p c <;> simp
          · cases hc : p c <;> simp [Peg.read, hc]
          · cases hc : p c <;> simp [Peg.read, hc]
  | run p counts =>
      intro text _ behind behind' hends hends'
      refine ⟨if counts (text.takeWhile p) then some (text.dropWhile p) else none, ?_, ?_, ?_⟩
      · cases counts (text.takeWhile p) <;> simp [List.dropWhile_suffix]
      · simp only [Peg.read, hends.takeWhile_append hp.1, hends.dropWhile_append hp.1]
        split <;> rfl
      · simp only [Peg.read, hends'.takeWhile_append hp.1, hends'.dropWhile_append hp.1]
        split <;> rfl
  | «unless» p =>
      intro text _ behind behind' hends hends'
      cases text with
      | nil =>
          have hsome : ∀ behind, Ends stop behind →
              (Peg.unless p).read blank again behind = some behind := by
            intro behind hends
            cases behind with
            | nil => rfl
            | cons c behind =>
                obtain rfl := hends c rfl
                simp only [Plain] at hp
                simp [Peg.read, hp]
          exact ⟨some [], by simp, hsome behind hends, hsome behind' hends'⟩
      | cons c text =>
          refine ⟨if p c then none else some (c :: text), ?_, ?_, ?_⟩
          · cases p c <;> simp
          · cases hc : p c <;> simp [Peg.read, hc]
          · cases hc : p c <;> simp [Peg.read, hc]
  | quoted q =>
      intro text heven behind behind' hends hends'
      obtain ⟨rfl, hne⟩ := hp
      refine ⟨readQuoted q text, fun rest hrest => ?_, ?_, ?_⟩
      · obtain ⟨inside, rfl, -, -⟩ := suffix_of_readQuoted (Option.mem_def.mp hrest)
        exact ⟨q :: (inside ++ [q]), by simp⟩
      · exact hends.readQuoted_append hne heven
      · exact hends'.readQuoted_append hne heven
  | again => exact hlocal
  | seq p q ihp ihq =>
      intro text heven behind behind' hends hends'
      obtain ⟨out, hout, h, h'⟩ := ihp hp.1 text heven behind behind' hends hends'
      cases out with
      | none => exact ⟨none, by simp, by simp [Peg.read, h], by simp [Peg.read, h']⟩
      | some after =>
          have heven' := (hagain.read hblank' hp.1).even_rest heven h
          obtain ⟨out, hout', hq, hq'⟩ := ihq hp.2 after heven' behind behind' hends hends'
          refine ⟨out, fun rest hrest => (hout' rest hrest).trans (hout after rfl), ?_, ?_⟩
          · simp [Peg.read, h, hq]
          · simp [Peg.read, h', hq']
  | alt p q ihp ihq =>
      intro text heven behind behind' hends hends'
      obtain ⟨out, hout, h, h'⟩ := ihp hp.1 text heven behind behind' hends hends'
      obtain ⟨out', hout', hq, hq'⟩ := ihq hp.2 text heven behind behind' hends hends'
      refine ⟨out.or out', fun rest hrest => ?_, ?_, ?_⟩
      · obtain hrest | ⟨-, hrest⟩ := Option.or_eq_some_iff.mp (Option.mem_def.mp hrest)
        · exact hout rest hrest
        · exact hout' rest hrest
      · simp only [Peg.read, h, hq]
        cases out <;> rfl
      · simp only [Peg.read, h', hq']
        cases out <;> rfl
  | star p ih =>
      intro text heven behind behind' hends hends'
      have hshrinking : Shrinking List.length (p.read blank again) := hp.1.shrinking hagain.keeps
      induction hlength : text.length using Nat.strongRecOn generalizing text with
      | ind length ihlength =>
          obtain ⟨out, hout, h, h'⟩ := ih hp.2 text heven behind behind' hends hends'
          cases out with
          | none =>
              exact ⟨some text, by simp, congrArg some (kleene_of_none h),
                congrArg some (kleene_of_none h')⟩
          | some after =>
              have heven' := (hagain.read hblank' hp.2).even_rest heven h
              have hlt := hshrinking _ _ h
              simp only [List.length_append] at hlt
              obtain ⟨out, hout', hstar, hstar'⟩ :=
                ihlength after.length (by omega) after heven' rfl
              refine ⟨out, fun rest hrest => (hout' rest hrest).trans (hout after rfl), ?_, ?_⟩
              · rw [← hstar]
                exact congrArg some (kleene_of_some hshrinking h)
              · rw [← hstar']
                exact congrArg some (kleene_of_some hshrinking h')

theorem Plain.balanced_reads (hblank : blank quote = false) (hg : g.Plain stop quote) (k : Nat) :
    Balanced quote (g.reads blank k) := by
  induction k with
  | zero =>
      intro text rest h
      cases h
  | succ k ih => exact ih.read hblank hg

theorem Plain.balanced_parse (hblank : blank quote = false) (hg : g.Plain stop quote) :
    Balanced quote (g.parse blank) :=
  fun text => hg.balanced_reads hblank (text.length + 1) text

/-- **A separator behind the text.** A plain grammar reads a text with its quotes in pairs without
looking past the separator. -/
theorem Plain.local_parse (hblank : blank stop = false) (hblank' : blank quote = false)
    (hg : g.Plain stop quote) (hguarded : g.Guarded) : Local stop quote (g.parse blank) := by
  have hreads : ∀ k, Local stop quote (g.reads blank k) := by
    intro k
    induction k with
    | zero => exact fun text _ behind behind' _ _ => ⟨none, by simp, rfl, rfl⟩
    | succ k ih => exact ih.read hblank hblank' (hg.balanced_reads hblank' k) hg
  intro text heven behind behind' hends hends'
  have hparse := hreads ((text ++ behind).length + (text ++ behind').length + 1) text heven behind
    behind' hends hends'
  rwa [hguarded.reads_eq_parse (by omega), hguarded.reads_eq_parse (by omega)] at hparse

end Separator

end Peg

end DshLmc
