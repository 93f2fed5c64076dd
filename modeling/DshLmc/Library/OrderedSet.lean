import Mathlib.Data.List.Sort
import Mathlib.Data.List.Nodup

/-!
# Ordered sets kept by a comparator

`std::set` keeps its elements in the order of a comparator and refuses an element that compares
equivalent to one it holds. Its documentation promises this only when the comparator is a strict
weak ordering of the elements. A `SetImpl` is therefore an insertion of which nothing else is
assumed: whatever the comparator, an insertion adds the element at some place or leaves the set
alone because of an incomparable element, and on a strict weak ordering the result is sorted.
Results proved for every `SetImpl` do not depend on where a tree puts an element that its comparator
fails to order.
-/

namespace DshLmc

variable {α : Type*}

/-- `lt` is a strict weak ordering of the elements of `l`. -/
structure StrictWeakOn (lt : α → α → Bool) (l : List α) : Prop where
  irrefl : ∀ a ∈ l, lt a a = false
  asymm : ∀ a ∈ l, ∀ b ∈ l, lt a b = true → lt b a = false
  trans : ∀ a ∈ l, ∀ b ∈ l, ∀ c ∈ l, lt a b = true → lt b c = true → lt a c = true
  incomp_trans : ∀ a ∈ l, ∀ b ∈ l, ∀ c ∈ l, lt a b = false → lt b a = false →
    lt b c = false → lt c b = false → lt a c = false ∧ lt c a = false

theorem StrictWeakOn.of_subset {lt : α → α → Bool} {l l' : List α} (h : StrictWeakOn lt l)
    (hsub : l' ⊆ l) : StrictWeakOn lt l' where
  irrefl a ha := h.irrefl a (hsub ha)
  asymm a ha b hb := h.asymm a (hsub ha) b (hsub hb)
  trans a ha b hb c hc := h.trans a (hsub ha) b (hsub hb) c (hsub hc)
  incomp_trans a ha b hb c hc := h.incomp_trans a (hsub ha) b (hsub hb) c (hsub hc)

/-- An implementation of the insertion of an ordered set. -/
structure SetImpl (α : Type*) where
  insert : (α → α → Bool) → α → List α → List α
  insert_cases : ∀ lt x l,
    (insert lt x l = l ∧ ∃ y ∈ l, lt x y = false ∧ lt y x = false)
      ∨ ∃ front back, l = front ++ back ∧ insert lt x l = front ++ x :: back
  insert_sorted : ∀ lt x l, StrictWeakOn lt (x :: l) → l.Pairwise (fun a b => lt a b = true) →
    (insert lt x l).Pairwise (fun a b => lt a b = true)

namespace SetImpl

variable (S : SetImpl α) {lt : α → α → Bool} {x y : α} {l : List α}

theorem mem_insert_of_mem (hy : y ∈ l) : y ∈ S.insert lt x l := by
  obtain ⟨heq, -⟩ | ⟨front, back, hl, heq⟩ := S.insert_cases lt x l
  · rwa [heq]
  · rw [heq]
    rw [hl] at hy
    simp only [List.mem_append, List.mem_cons] at hy ⊢
    tauto

theorem eq_or_mem_of_mem_insert (hy : y ∈ S.insert lt x l) : y = x ∨ y ∈ l := by
  obtain ⟨heq, -⟩ | ⟨front, back, hl, heq⟩ := S.insert_cases lt x l
  · exact Or.inr (heq ▸ hy)
  · rw [heq] at hy
    rw [hl]
    simp only [List.mem_append, List.mem_cons] at hy ⊢
    tauto

/-- An element comparable with every other one held is held afterwards. -/
theorem mem_insert_self (h : ∀ y ∈ l, y ≠ x → lt x y = true ∨ lt y x = true) :
    x ∈ S.insert lt x l := by
  obtain ⟨heq, y, hy, hxy, hyx⟩ | ⟨front, back, -, heq⟩ := S.insert_cases lt x l
  · by_cases hne : y = x
    · rw [heq]
      exact hne ▸ hy
    · exfalso
      obtain hlt | hlt := h y hy hne
      · simp [hxy] at hlt
      · simp [hyx] at hlt
  · simp [heq]

theorem insert_nodup (hl : l.Nodup) (hx : x ∉ l) : (S.insert lt x l).Nodup := by
  obtain ⟨heq, -⟩ | ⟨front, back, hsplit, heq⟩ := S.insert_cases lt x l
  · rwa [heq]
  · rw [heq, List.nodup_middle, ← hsplit]
    exact List.nodup_cons.mpr ⟨hx, hl⟩

/-- The set after inserting the elements of a list one by one. -/
def insertAll (lt : α → α → Bool) (xs l : List α) : List α :=
  xs.foldl (fun held x => S.insert lt x held) l

@[simp]
theorem insertAll_nil : S.insertAll lt [] l = l := rfl

@[simp]
theorem insertAll_cons {xs : List α} :
    S.insertAll lt (x :: xs) l = S.insertAll lt xs (S.insert lt x l) := rfl

theorem insertAll_subset {xs : List α} : S.insertAll lt xs l ⊆ xs ++ l := by
  induction xs generalizing l with
  | nil => exact fun y hy => hy
  | cons x xs ih =>
      intro y hy
      have hmem := ih hy
      simp only [List.mem_append, List.mem_cons] at hmem ⊢
      obtain hxs | hins := hmem
      · exact Or.inl (Or.inr hxs)
      · obtain rfl | hl := S.eq_or_mem_of_mem_insert hins
        · exact Or.inl (Or.inl rfl)
        · exact Or.inr hl

/-- Nothing is dropped when any two distinct elements are comparable. -/
theorem subset_insertAll {xs : List α}
    (h : ∀ a ∈ xs ++ l, ∀ b ∈ xs ++ l, b ≠ a → lt a b = true ∨ lt b a = true) :
    xs ++ l ⊆ S.insertAll lt xs l := by
  induction xs generalizing l with
  | nil => exact fun y hy => hy
  | cons x xs ih =>
      have hins : ∀ y, y ∈ S.insert lt x l → y ∈ x :: xs ++ l := fun y hy => by
        obtain rfl | hl := S.eq_or_mem_of_mem_insert hy
        · simp
        · simp [hl]
      have hrest : xs ++ S.insert lt x l ⊆ S.insertAll lt xs (S.insert lt x l) := by
        apply ih
        intro a ha b hb
        refine h a ?_ b ?_
        · obtain ha | ha := List.mem_append.mp ha
          · simp [ha]
          · exact hins a ha
        · obtain hb | hb := List.mem_append.mp hb
          · simp [hb]
          · exact hins b hb
      intro y hy
      apply hrest
      simp only [List.mem_append, List.mem_cons] at hy ⊢
      obtain (rfl | hxs) | hl := hy
      · refine Or.inr (S.mem_insert_self fun b hb hne => ?_)
        exact h y (by simp) b (by simp [hb]) hne
      · exact Or.inl hxs
      · exact Or.inr (S.mem_insert_of_mem hl)

theorem insertAll_sorted {xs : List α} (hlt : StrictWeakOn lt (xs ++ l))
    (hl : l.Pairwise fun a b => lt a b = true) :
    (S.insertAll lt xs l).Pairwise fun a b => lt a b = true := by
  induction xs generalizing l with
  | nil => exact hl
  | cons x xs ih =>
      apply ih
      · refine hlt.of_subset fun y hy => ?_
        obtain hxs | hins := List.mem_append.mp hy
        · simp [hxs]
        · obtain rfl | hl' := S.eq_or_mem_of_mem_insert hins
          · simp
          · simp [hl']
      · refine S.insert_sorted lt x l (hlt.of_subset fun y hy => ?_) hl
        simp only [List.mem_cons, List.cons_append, List.mem_append] at hy ⊢
        tauto

/-- One of two elements comes before the other. -/
def Comparable (lt : α → α → Bool) (x y : α) : Prop := lt x y = true ∨ lt y x = true

theorem Comparable.symm (h : Comparable lt x y) : Comparable lt y x := Or.symm h

theorem insert_perm (h : ∀ y ∈ l, Comparable lt x y) : (S.insert lt x l).Perm (x :: l) := by
  obtain ⟨-, y, hy, hxy, hyx⟩ | ⟨front, back, hl, heq⟩ := S.insert_cases lt x l
  · obtain hlt | hlt := h y hy
    · simp [hxy] at hlt
    · simp [hyx] at hlt
  · rw [heq, hl]
    exact List.perm_middle

/-- On a strict weak ordering an incomparable element is refused. -/
theorem insert_eq_self (hlt : StrictWeakOn lt (x :: l)) (hl : l.Pairwise fun a b => lt a b = true)
    (hy : y ∈ l) (hxy : ¬ Comparable lt x y) : S.insert lt x l = l := by
  obtain ⟨heq, -⟩ | ⟨front, back, hsplit, heq⟩ := S.insert_cases lt x l
  · exact heq
  · have hsorted := S.insert_sorted lt x l hlt hl
    rw [heq, List.pairwise_append] at hsorted
    obtain ⟨-, hback, hfront⟩ := hsorted
    rw [hsplit, List.mem_append] at hy
    obtain hy | hy := hy
    · exact absurd (Or.inr (hfront y hy x List.mem_cons_self)) hxy
    · exact absurd (Or.inl ((List.pairwise_cons.mp hback).1 y hy)) hxy

theorem length_insert_le : (S.insert lt x l).length ≤ l.length + 1 := by
  obtain ⟨heq, -⟩ | ⟨front, back, hl, heq⟩ := S.insert_cases lt x l
  · rw [heq]
    omega
  · rw [heq, hl]
    simp only [List.length_append, List.length_cons]
    omega

theorem length_insertAll_le {xs : List α} :
    (S.insertAll lt xs l).length ≤ xs.length + l.length := by
  induction xs generalizing l with
  | nil => simp
  | cons x xs ih =>
      have hone : (S.insert lt x l).length ≤ l.length + 1 := S.length_insert_le
      have hall : (S.insertAll lt (x :: xs) l).length ≤ xs.length + (S.insert lt x l).length := ih
      rw [List.length_cons]
      omega

theorem insertAll_perm {xs : List α} (h : (xs ++ l).Pairwise (Comparable lt)) :
    (S.insertAll lt xs l).Perm (xs ++ l) := by
  induction xs generalizing l with
  | nil => exact List.Perm.refl _
  | cons x xs ih =>
      obtain ⟨hx, hrest⟩ := List.pairwise_cons.mp h
      have hins : (S.insert lt x l).Perm (x :: l) :=
        S.insert_perm fun y hy => hx y (List.mem_append_right _ hy)
      have hmoved : (xs ++ S.insert lt x l).Perm (x :: (xs ++ l)) :=
        (hins.append_left xs).trans List.perm_middle
      exact (ih ((hmoved.pairwise_iff Comparable.symm).mpr h)).trans hmoved

/-- Of incomparable elements some are dropped. -/
theorem length_insertAll_lt {xs : List α} (hlt : StrictWeakOn lt (xs ++ l))
    (hl : l.Pairwise fun a b => lt a b = true) (h : ¬ (xs ++ l).Pairwise (Comparable lt)) :
    (S.insertAll lt xs l).length < xs.length + l.length := by
  induction xs generalizing l with
  | nil => exact absurd (hl.imp fun hab => Or.inl hab) h
  | cons x xs ih =>
      have hhead : StrictWeakOn lt (x :: l) := hlt.of_subset (by intro z; simp; tauto)
      by_cases hall : ∀ y ∈ l, Comparable lt x y
      · have hins : (S.insert lt x l).Perm (x :: l) := S.insert_perm hall
        have hmoved : (xs ++ S.insert lt x l).Perm (x :: (xs ++ l)) :=
          (hins.append_left xs).trans List.perm_middle
        have hrest := ih (hlt.of_subset hmoved.subset) (S.insert_sorted lt x l hhead hl)
          fun hpairs => h ((hmoved.pairwise_iff Comparable.symm).mp hpairs)
        rw [hins.length_eq, List.length_cons] at hrest
        rw [insertAll_cons, List.length_cons]
        omega
      · push Not at hall
        obtain ⟨y, hy, hxy⟩ := hall
        have hle : (S.insertAll lt xs l).length ≤ xs.length + l.length := S.length_insertAll_le
        rw [insertAll_cons, S.insert_eq_self hhead hl hy hxy, List.length_cons]
        omega

end SetImpl

/-- Insertion by one walk from the front. -/
def linearInsert (lt : α → α → Bool) (x : α) : List α → List α
  | [] => [x]
  | y :: rest =>
      if lt x y then x :: y :: rest
      else if lt y x then y :: linearInsert lt x rest
      else y :: rest

theorem linearInsert_cases (lt : α → α → Bool) (x : α) (l : List α) :
    (linearInsert lt x l = l ∧ ∃ y ∈ l, lt x y = false ∧ lt y x = false)
      ∨ ∃ front back, l = front ++ back ∧ linearInsert lt x l = front ++ x :: back := by
  induction l with
  | nil => exact Or.inr ⟨[], [], rfl, rfl⟩
  | cons y rest ih =>
      by_cases hxy : lt x y = true
      · exact Or.inr ⟨[], y :: rest, rfl, by simp [linearInsert, hxy]⟩
      by_cases hyx : lt y x = true
      · simp only [linearInsert, hxy, hyx, Bool.false_eq_true, if_false, if_true]
        obtain ⟨heq, z, hz, hxz, hzx⟩ | ⟨front, back, hrest, heq⟩ := ih
        · exact Or.inl ⟨by rw [heq], z, List.mem_cons_of_mem _ hz, hxz, hzx⟩
        · exact Or.inr ⟨y :: front, back, by simp [hrest], by simp [heq]⟩
      · refine Or.inl ⟨by simp [linearInsert, hxy, hyx], y, List.mem_cons_self, ?_, ?_⟩
        · simpa using hxy
        · simpa using hyx

theorem linearInsert_sorted (lt : α → α → Bool) (x : α) (l : List α)
    (hlt : StrictWeakOn lt (x :: l)) (hl : l.Pairwise fun a b => lt a b = true) :
    (linearInsert lt x l).Pairwise fun a b => lt a b = true := by
  induction l with
  | nil => simp [linearInsert]
  | cons y rest ih =>
      obtain ⟨hy, hrest⟩ := List.pairwise_cons.mp hl
      by_cases hxy : lt x y = true
      · simp only [linearInsert, hxy, if_true]
        refine List.pairwise_cons.mpr ⟨fun z hz => ?_, hl⟩
        obtain rfl | hz := List.mem_cons.mp hz
        · exact hxy
        · exact hlt.trans x (by simp) y (by simp) z (by simp [hz]) hxy (hy z hz)
      by_cases hyx : lt y x = true
      · simp only [linearInsert, hxy, hyx, Bool.false_eq_true, if_false, if_true]
        have hsub : StrictWeakOn lt (x :: rest) := hlt.of_subset (by intro z; simp; tauto)
        refine List.pairwise_cons.mpr ⟨fun z hz => ?_, ih hsub hrest⟩
        have hcases := linearInsert_cases lt x rest
        have hmem : z = x ∨ z ∈ rest := by
          obtain ⟨heq, -⟩ | ⟨front, back, hsplit, heq⟩ := hcases
          · exact Or.inr (heq ▸ hz)
          · rw [heq] at hz
            rw [hsplit]
            simp only [List.mem_append, List.mem_cons] at hz ⊢
            tauto
        obtain rfl | hz := hmem
        · exact hyx
        · exact hy z hz
      · simpa [linearInsert, hxy, hyx] using hl

/-- The simplest implementation: the elements in a list, searched from the front. -/
def SetImpl.linear : SetImpl α where
  insert := linearInsert
  insert_cases := linearInsert_cases
  insert_sorted := linearInsert_sorted

end DshLmc
