import Mathlib.Data.List.Basic

/-!
# Patterns with captures

A pattern is a row of pieces: a text that must be there, a run of symbols of a kind, or anything. A
backtracking matcher tries the lengths of a run in an order, short ones or long ones first, and takes
the first that lets the rest match. So what it captures is the first match in that order, and the
lemmas say which one that is.
-/

namespace DshLmc

variable {α β : Type*}

namespace Pattern

/-- A shortest first part after which `k` succeeds. -/
@[grind =]
def shortest (k : List α → Option β) : List α → Option (List α × β)
  | [] => (k []).map fun b => ([], b)
  | x :: rest =>
      match k (x :: rest) with
      | some b => some ([], b)
      | none => (shortest k rest).map fun found => (x :: found.1, found.2)

/-- A longest first part of symbols of a kind after which `k` succeeds. -/
@[grind =]
def longest (p : α → Bool) (k : List α → Option β) : List α → Option (List α × β)
  | [] => (k []).map fun b => ([], b)
  | x :: rest =>
      match if p x then longest p k rest else none with
      | some found => some (x :: found.1, found.2)
      | none => (k (x :: rest)).map fun b => ([], b)

/-- The pieces of a pattern. All but a fixed text capture what they match. -/
inductive Piece (α : Type*) where
  | text (fixed : List α)
  | anyShort
  | anyLong
  | some (p : α → Bool)

variable [BEq α]

/-- What the pieces capture when together they match all of the text. -/
@[grind =]
def captures : List (Piece α) → List α → Option (List (List α))
  | [], [] => some []
  | [], _ :: _ => none
  | .text fixed :: pieces, text =>
      if fixed.isPrefixOf text then captures pieces (text.drop fixed.length) else none
  | .anyShort :: pieces, text =>
      (shortest (captures pieces) text).map fun found => found.1 :: found.2
  | .anyLong :: pieces, text =>
      (longest (fun _ => true) (captures pieces) text).map fun found => found.1 :: found.2
  | .some _ :: _, [] => none
  | .some p :: pieces, x :: rest =>
      if p x then (longest p (captures pieces) rest).map fun found => (x :: found.1) :: found.2
      else none

variable {k : List α → Option β} {p : α → Bool}

omit [BEq α] in
theorem shortest_eq_none {text : List α} :
    shortest k text = none ↔ ∀ skipped rest, text = skipped ++ rest → k rest = none := by
  induction text with
  | nil =>
      constructor
      · intro h skipped rest heq
        obtain ⟨-, rfl⟩ := List.nil_eq_append_iff.mp heq
        simpa [shortest] using h
      · intro h
        simp [shortest, h [] [] rfl]
  | cons x tail ih =>
      constructor
      · intro h skipped rest heq
        cases hk : k (x :: tail) with
        | some b => simp [shortest, hk] at h
        | none =>
            rw [shortest, hk, Option.map_eq_none_iff] at h
            cases skipped with
            | nil => exact (congrArg k heq).symm.trans hk
            | cons y skipped => exact ih.mp h skipped rest (List.cons.inj heq).2
      · intro h
        have htail : shortest k tail = none := by
          refine ih.mpr fun skipped rest heq => h (x :: skipped) rest ?_
          rw [heq, List.cons_append]
        rw [shortest, h [] (x :: tail) rfl, htail, Option.map_none]

omit [BEq α] in
theorem shortest_eq_some {text found : List α} {b : β} :
    shortest k text = some (found, b)
      ↔ ∃ rest, text = found ++ rest ∧ k rest = some b ∧
          ∀ skipped other, text = skipped ++ other → skipped.length < found.length →
            k other = none := by
  induction text generalizing found with
  | nil =>
      constructor
      · intro h
        obtain ⟨b', hk, heq⟩ := Option.map_eq_some_iff.mp h
        obtain ⟨rfl, rfl⟩ := Prod.mk.inj heq
        exact ⟨[], rfl, hk, by simp⟩
      · rintro ⟨rest, heq, hk, -⟩
        obtain ⟨rfl, rfl⟩ := List.nil_eq_append_iff.mp heq
        simp [shortest, hk]
  | cons x tail ih =>
      cases hk : k (x :: tail) with
      | some b' =>
          rw [shortest, hk]
          constructor
          · intro h
            obtain ⟨rfl, rfl⟩ := Prod.mk.inj (Option.some.inj h)
            exact ⟨x :: tail, rfl, hk, by simp⟩
          · rintro ⟨rest, heq, hrest, hshorter⟩
            cases found with
            | nil =>
                obtain rfl : x :: tail = rest := heq
                rw [hk] at hrest
                rw [Option.some.inj hrest]
            | cons y found =>
                have hnone := hshorter [] (x :: tail) rfl (by simp)
                rw [hk] at hnone
                cases hnone
      | none =>
          rw [shortest, hk, Option.map_eq_some_iff]
          constructor
          · rintro ⟨⟨found', b'⟩, hfound, heq⟩
            obtain ⟨rfl, rfl⟩ := Prod.mk.inj heq
            obtain ⟨rest, rfl, hrest, hshorter⟩ := ih.mp hfound
            refine ⟨rest, rfl, hrest, fun skipped other hsplit hlength => ?_⟩
            cases skipped with
            | nil => exact (congrArg k hsplit).symm.trans hk
            | cons y skipped =>
                exact hshorter skipped other (List.cons.inj hsplit).2 (by simpa using hlength)
          · rintro ⟨rest, heq, hrest, hshorter⟩
            cases found with
            | nil =>
                rw [← show x :: tail = rest from heq, hk] at hrest
                cases hrest
            | cons y found =>
                obtain ⟨rfl, htail⟩ := List.cons.inj heq
                refine ⟨(found, b), ih.mpr ⟨rest, htail, hrest, ?_⟩, rfl⟩
                intro skipped other hsplit hlength
                exact hshorter (x :: skipped) other (by rw [hsplit, List.cons_append])
                  (by simpa using hlength)

omit [BEq α] in
theorem longest_spec {text found : List α} {b : β} (h : longest p k text = some (found, b)) :
    ∃ rest, text = found ++ rest ∧ (∀ x ∈ found, p x) ∧ k rest = some b := by
  induction text generalizing found with
  | nil =>
      obtain ⟨b', hk, heq⟩ := Option.map_eq_some_iff.mp h
      obtain ⟨rfl, rfl⟩ := Prod.mk.inj heq
      exact ⟨[], rfl, by simp, hk⟩
  | cons x tail ih =>
      cases hmore : if p x then longest p k tail else none with
      | none =>
          rw [longest, hmore] at h
          obtain ⟨b', hk, heq⟩ := Option.map_eq_some_iff.mp h
          obtain ⟨rfl, rfl⟩ := Prod.mk.inj heq
          exact ⟨x :: tail, rfl, by simp, hk⟩
      | some more =>
          rw [longest, hmore] at h
          obtain ⟨rfl, rfl⟩ := Prod.mk.inj (Option.some.inj h)
          obtain ⟨hx, hlongest⟩ : p x = true ∧ longest p k tail = some more := by
            by_cases hx : p x
            · exact ⟨hx, by simpa [hx] using hmore⟩
            · simp [hx] at hmore
          obtain ⟨rest, rfl, hall, hk⟩ := ih hlongest
          exact ⟨rest, rfl, by simpa [hx] using hall, hk⟩

omit [BEq α] in
/-- Where `k` refuses what begins with a symbol of the kind, a run has one length only. -/
theorem longest_eq_some (hk : ∀ x rest, p x → k (x :: rest) = none) {text found : List α} {b : β} :
    longest p k text = some (found, b)
      ↔ ∃ rest, text = found ++ rest ∧ (∀ x ∈ found, p x) ∧ k rest = some b := by
  refine ⟨longest_spec, ?_⟩
  rintro ⟨rest, rfl, hall, hrest⟩
  induction found with
  | nil =>
      cases rest with
      | nil => simp [longest, hrest]
      | cons x rest =>
          have hx : p x = false := by
            by_contra hx
            rw [hk x rest (by simpa using hx)] at hrest
            cases hrest
          simp [longest, hx, hrest]
  | cons x found ih =>
      have hx : p x := hall x List.mem_cons_self
      have hfound := ih fun y hy => hall y (List.mem_cons_of_mem x hy)
      rw [List.cons_append, longest, if_pos hx, hfound]

variable {pieces : List (Piece α)} {text : List α} {found : List (List α)}

theorem captures_anyShort : captures (.anyShort :: pieces) text = some found
    ↔ ∃ first others rest, found = first :: others ∧ text = first ++ rest ∧
        captures pieces rest = some others ∧
          ∀ skipped other, text = skipped ++ other → skipped.length < first.length →
            captures pieces other = none := by
  rw [captures, Option.map_eq_some_iff]
  constructor
  · rintro ⟨⟨first, others⟩, hshortest, rfl⟩
    obtain ⟨rest, htext, hrest, hshorter⟩ := shortest_eq_some.mp hshortest
    exact ⟨first, others, rest, rfl, htext, hrest, hshorter⟩
  · rintro ⟨first, others, rest, rfl, htext, hrest, hshorter⟩
    exact ⟨(first, others), shortest_eq_some.mpr ⟨rest, htext, hrest, hshorter⟩, rfl⟩

theorem captures_anyShort_eq_none : captures (.anyShort :: pieces) text = none
    ↔ ∀ skipped rest, text = skipped ++ rest → captures pieces rest = none := by
  rw [captures, Option.map_eq_none_iff, shortest_eq_none]

theorem captures_anyLong : captures [.anyLong] text = some [text] := by
  have hlongest : longest (fun _ => true) (captures []) text = some (text, []) := by
    induction text with
    | nil => rfl
    | cons x rest ih => rw [longest, if_pos rfl, ih]
  rw [captures, hlongest]
  rfl

variable [LawfulBEq α]

theorem captures_text {fixed : List α} : captures (.text fixed :: pieces) text = some found
    ↔ ∃ rest, text = fixed ++ rest ∧ captures pieces rest = some found := by
  rw [captures]
  by_cases hpre : fixed <+: text
  · obtain ⟨rest, rfl⟩ := hpre
    simp
  · rw [if_neg (by simpa using hpre)]
    refine iff_of_false (by simp) ?_
    rintro ⟨rest, rfl, -⟩
    exact hpre (List.prefix_append fixed rest)

theorem captures_text_eq_none {fixed : List α} : captures (.text fixed :: pieces) text = none
    ↔ ∀ rest, text = fixed ++ rest → captures pieces rest = none := by
  simp only [Option.eq_none_iff_forall_ne_some]
  constructor
  · intro h rest htext found hfound
    exact h found (captures_text.mpr ⟨rest, htext, hfound⟩)
  · intro h found hfound
    obtain ⟨rest, htext, hrest⟩ := captures_text.mp hfound
    exact h rest htext found hrest

theorem captures_text_of_ne {x y : α} {fixed rest : List α} (h : x ≠ y) :
    captures (.text (y :: fixed) :: pieces) (x :: rest) = none := by
  refine captures_text_eq_none.mpr fun other heq => ?_
  exact absurd (List.cons.inj heq).1 h

omit [LawfulBEq α] in
/-- Where what follows cannot begin with a symbol of the kind, a run has one length only. -/
theorem captures_some (hpieces : ∀ x rest, p x → captures pieces (x :: rest) = none) :
    captures (.some p :: pieces) text = some found
      ↔ ∃ first others rest, found = first :: others ∧ text = first ++ rest ∧ first ≠ [] ∧
          (∀ x ∈ first, p x) ∧ captures pieces rest = some others := by
  cases text with
  | nil =>
      rw [captures]
      refine iff_of_false (by simp) ?_
      rintro ⟨first, others, rest, -, heq, hne, -⟩
      exact hne (List.nil_eq_append_iff.mp heq).1
  | cons x tail =>
      rw [captures]
      by_cases hx : p x
      · rw [if_pos hx, Option.map_eq_some_iff]
        constructor
        · rintro ⟨⟨first, others⟩, hlongest, rfl⟩
          obtain ⟨rest, rfl, hall, hrest⟩ := longest_spec hlongest
          exact ⟨x :: first, others, rest, rfl, rfl, by simp, by simpa [hx] using hall, hrest⟩
        · rintro ⟨first, others, rest, rfl, heq, hne, hall, hrest⟩
          cases first with
          | nil => exact absurd rfl hne
          | cons y first =>
              obtain ⟨rfl, rfl⟩ := List.cons.inj heq
              have htail := fun z hz => hall z (List.mem_cons_of_mem x hz)
              exact ⟨(first, others), (longest_eq_some hpieces).mpr ⟨rest, rfl, htail, hrest⟩, rfl⟩
      · rw [if_neg hx]
        refine iff_of_false (by simp) ?_
        rintro ⟨first, others, rest, -, heq, hne, hall, -⟩
        cases first with
        | nil => exact hne rfl
        | cons y first =>
            obtain ⟨rfl, -⟩ := List.cons.inj heq
            exact hx (hall x List.mem_cons_self)

end Pattern

end DshLmc
