import Mathlib.Data.List.Infix

/-!
# Searching in texts

Positions of patterns in a text, and pieces of it cut out at positions. A position that is found says
how the text is made of two parts, and what a search finds in an append is known from the parts.
-/

namespace DshLmc

variable {α : Type*} [DecidableEq α]

namespace Search

/-- The first position where `pat` is. -/
@[grind =]
def findText (pat : List α) : List α → Option Nat
  | [] => if pat = [] then some 0 else none
  | x :: rest => if pat.isPrefixOf (x :: rest) then some 0 else (findText pat rest).map (· + 1)

/-- The first position from `pos` on where `pat` is. -/
@[grind =]
def findFrom (pat text : List α) (pos : Nat) : Option Nat :=
  (findText pat (text.drop pos)).map (· + pos)

/-- The last position where `c` is. -/
@[grind =]
def findLast (c : α) : List α → Option Nat
  | [] => none
  | x :: rest =>
      match findLast c rest with
      | some n => some (n + 1)
      | none => if x = c then some 0 else none

omit [DecidableEq α] in
/-- At most `count` symbols from `pos` on, where no count stands for all of them. There is no such
part from a position beyond the end on. -/
@[grind =]
def substr (text : List α) (pos : Nat) (count : Option Nat) : Option (List α) :=
  if pos ≤ text.length then some ((text.drop pos).take (count.getD text.length)) else none

variable {pat text u v w : List α} {c : α} {n : Nat}

theorem find_eq_none_iff : findText pat text = none ↔ ¬ pat <:+: text := by
  induction text with
  | nil => simp [findText]
  | cons x rest ih =>
      rw [findText, List.infix_cons_iff, not_or, ← ih, ← List.isPrefixOf_iff_prefix]
      by_cases h : pat.isPrefixOf (x :: rest) = true <;> simp [h]

theorem find_eq_some (h : findText pat text = some n) :
    ∃ u v, text = u ++ pat ++ v ∧ u.length = n := by
  induction text generalizing n with
  | nil =>
      rw [findText, Option.ite_none_right_eq_some] at h
      obtain ⟨rfl, hn⟩ := h
      exact ⟨[], [], rfl, Option.some.inj hn⟩
  | cons x rest ih =>
      rw [findText] at h
      by_cases hpre : pat.isPrefixOf (x :: rest) = true
      · rw [if_pos hpre] at h
        obtain ⟨v, hv⟩ := List.isPrefixOf_iff_prefix.mp hpre
        exact ⟨[], v, hv.symm, Option.some.inj h⟩
      · rw [if_neg hpre] at h
        obtain ⟨m, hm, rfl⟩ := Option.map_eq_some_iff.mp h
        obtain ⟨u, v, rfl, rfl⟩ := ih hm
        exact ⟨x :: u, v, rfl, rfl⟩

theorem isSome_find_iff : (findText pat text).isSome = true ↔ pat <:+: text := by
  rw [← not_iff_not, ← find_eq_none_iff, Option.not_isSome_iff_eq_none]

theorem find_prefix : findText pat (pat ++ v) = some 0 := by
  cases pat with
  | nil => cases v <;> simp [findText]
  | cons x pat => simp [findText, List.isPrefixOf_iff_prefix]

theorem find_append_of_not_mem (h : c ∉ u) :
    findText [c] (u ++ v) = (findText [c] v).map (· + u.length) := by
  induction u with
  | nil => simp
  | cons x u ih =>
      obtain ⟨hne, hnot⟩ := List.ne_and_not_mem_of_not_mem_cons h
      have hpre : ¬ [c].isPrefixOf (x :: (u ++ v)) = true := by simpa using hne
      rw [List.cons_append, findText, if_neg hpre, ih hnot, Option.map_map, List.length_cons]
      rfl

theorem find_append_cons (h : c ∉ u) : findText [c] (u ++ c :: v) = some u.length := by
  induction u with
  | nil => simp [findText]
  | cons x u ih =>
      obtain ⟨hne, hnot⟩ := List.ne_and_not_mem_of_not_mem_cons h
      have hpre : ¬ [c].isPrefixOf (x :: (u ++ c :: v)) = true := by simpa using hne
      rw [List.cons_append, findText, if_neg hpre, ih hnot]
      rfl

theorem find_singleton_eq_none_iff : findText [c] text = none ↔ c ∉ text := by
  rw [find_eq_none_iff, List.singleton_infix_iff]

theorem findLast_append_cons (h : c ∉ v) : findLast c (u ++ c :: v) = some u.length := by
  have hnone : findLast c v = none := by
    induction v with
    | nil => rfl
    | cons x v ih =>
        obtain ⟨hne, hnot⟩ := List.ne_and_not_mem_of_not_mem_cons h
        rw [findLast, ih hnot]
        exact if_neg (Ne.symm hne)
  induction u with
  | nil => rw [List.nil_append, findLast, hnone]; exact if_pos rfl
  | cons x u ih => rw [List.cons_append, findLast, ih, List.length_cons]

theorem findLast_eq_none (h : c ∉ text) : findLast c text = none := by
  induction text with
  | nil => rfl
  | cons x rest ih =>
      obtain ⟨hne, hnot⟩ := List.ne_and_not_mem_of_not_mem_cons h
      rw [findLast, ih hnot]
      exact if_neg (Ne.symm hne)

omit [DecidableEq α] in
theorem exists_append_cons_last (h : c ∈ text) : ∃ u v, text = u ++ c :: v ∧ c ∉ v := by
  obtain ⟨u, v, hrev, hu⟩ := List.eq_append_cons_of_mem (List.mem_reverse.mpr h)
  refine ⟨v.reverse, u.reverse, ?_, fun hc => hu (List.mem_reverse.mp hc)⟩
  rw [← text.reverse_reverse, hrev]
  simp

theorem findLast_eq_none_iff : findLast c text = none ↔ c ∉ text := by
  refine ⟨fun h hc => ?_, findLast_eq_none⟩
  obtain ⟨u, v, rfl, hv⟩ := exists_append_cons_last hc
  simp [findLast_append_cons hv] at h

theorem findFrom_append : findFrom pat (u ++ v) u.length = (findText pat v).map (· + u.length) := by
  rw [findFrom, List.drop_left]

omit [DecidableEq α] in
theorem substr_prefix : substr (u ++ v) 0 (some u.length) = some u := by
  simp [substr]

omit [DecidableEq α] in
theorem substr_suffix : substr (u ++ v) u.length none = some v := by
  rw [substr, if_pos (by simp), List.drop_left, List.take_of_length_le (by simp)]

omit [DecidableEq α] in
theorem substr_middle : substr (u ++ v ++ w) u.length (some v.length) = some v := by
  simp [substr]

omit [DecidableEq α] in
theorem substr_of_le {pos : Nat} (h : pos ≤ text.length) (count : Option Nat) :
    substr text pos count = some ((text.drop pos).take (count.getD text.length)) :=
  if_pos h

omit [DecidableEq α] in
/-- The last separator is in one place. -/
theorem append_cons_last_inj {u' v' : List α} (hv : c ∉ v) (hv' : c ∉ v')
    (h : u ++ c :: v = u' ++ c :: v') : u = u' ∧ v = v' := by
  classical
  have hfind := congrArg (findLast c) h
  rw [findLast_append_cons hv, findLast_append_cons hv'] at hfind
  obtain ⟨rfl, hcons⟩ := List.append_inj h (Option.some.inj hfind)
  exact ⟨rfl, List.tail_eq_of_cons_eq hcons⟩

/-- A text with more than `n` separators can be cut at the one with `n` before it. -/
theorem exists_append_cons_count (h : n < text.count c) :
    ∃ u v, text = u ++ c :: v ∧ u.count c = n := by
  induction n generalizing text with
  | zero =>
      obtain ⟨u, v, rfl, hu⟩ := List.eq_append_cons_of_mem (List.count_pos_iff.mp h)
      exact ⟨u, v, rfl, List.count_eq_zero.mpr hu⟩
  | succ n ih =>
      obtain ⟨u, rest, rfl, hu⟩ :=
        List.eq_append_cons_of_mem (List.count_pos_iff.mp (Nat.zero_lt_of_lt h))
      rw [List.count_append, List.count_eq_zero.mpr hu, List.count_cons_self] at h
      obtain ⟨u', v, rfl, hcount⟩ := ih (show n < rest.count c by omega)
      refine ⟨u ++ c :: u', v, by simp, ?_⟩
      rw [List.count_append, List.count_eq_zero.mpr hu, List.count_cons_self, hcount, Nat.zero_add]

/-- The text is `n` parts with `c` between them, and none of them is empty. -/
def Parts (c : α) (n : Nat) (text : List α) : Prop :=
  text.count c + 1 = n ∧ [] ∉ text.splitOn c

instance (c : α) (n : Nat) (text : List α) : Decidable (Parts c n text) :=
  inferInstanceAs (Decidable (_ ∧ _))

theorem parts_one_iff : Parts c 1 text ↔ text ≠ [] ∧ c ∉ text := by
  rw [Parts]
  constructor
  · rintro ⟨hcount, hparts⟩
    have hnot : c ∉ text := List.count_eq_zero.mp (by omega)
    refine ⟨?_, hnot⟩
    rintro rfl
    exact hparts (by simp)
  · rintro ⟨hne, hnot⟩
    rw [List.count_eq_zero.mpr hnot, List.splitOn_eq_singleton hnot]
    refine ⟨rfl, ?_⟩
    rw [List.mem_singleton]
    exact Ne.symm hne

/-- A first part and the separator behind it. -/
theorem parts_append_cons_iff (hu : c ∉ u) :
    Parts c (n + 1) (u ++ c :: v) ↔ u ≠ [] ∧ Parts c n v := by
  have hcount : (u ++ c :: v).count c = v.count c + 1 := by
    rw [List.count_append, List.count_eq_zero.mpr hu, List.count_cons_self, Nat.zero_add]
  rw [Parts, Parts, hcount, List.splitOn_append_cons_self_of_not_mem hu, List.mem_cons, not_or]
  constructor
  · rintro ⟨hn, hne, hparts⟩
    exact ⟨Ne.symm hne, by omega, hparts⟩
  · rintro ⟨hne, hn, hparts⟩
    exact ⟨by omega, Ne.symm hne, hparts⟩

theorem parts_succ_iff (hn : n ≠ 0) : Parts c (n + 1) text ↔
    ∃ u v, text = u ++ c :: v ∧ u ≠ [] ∧ c ∉ u ∧ Parts c n v := by
  constructor
  · intro h
    have hmem : c ∈ text := by
      rw [← List.count_pos_iff]
      have hcount := h.1
      omega
    obtain ⟨u, v, rfl, hu⟩ := List.eq_append_cons_of_mem hmem
    obtain ⟨hne, hparts⟩ := (parts_append_cons_iff hu).mp h
    exact ⟨u, v, rfl, hne, hu, hparts⟩
  · rintro ⟨u, v, rfl, hne, hu, hparts⟩
    exact (parts_append_cons_iff hu).mpr ⟨hne, hparts⟩

/-- Two separators next to each other have an empty part between them. -/
theorem Parts.not_infix (h : Parts c n text) : ¬ [c, c] <:+: text := by
  rintro ⟨u, v, rfl⟩
  apply h.2
  have hsplit : (u ++ [c, c] ++ v).splitOn c = u.splitOn c ++ (c :: v).splitOn c := by
    rw [List.append_assoc]
    exact List.splitOn_append_cons_self u (c :: v)
  rw [hsplit, List.mem_append]
  right
  have hcons : (c :: v).splitOn c = [] :: v.splitOn c :=
    List.splitOn_append_cons_self_of_not_mem List.not_mem_nil v
  rw [hcons]
  exact List.mem_cons_self

end Search

end DshLmc
