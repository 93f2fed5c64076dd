import Mathlib.Data.List.Nodup

/-!
# Lists with keys

A list whose elements have keys is a small registry: an element is added at the end unless its key
is there, and the first element of a key is removed. Adding elements and then removing their keys
restores the list exactly when none of the keys was in it, because a key that was there before is
not added again but is removed all the same.
-/

namespace DshLmc

variable {α κ : Type*} [DecidableEq κ] (key : α → κ)

/-- Adds an element at the end unless its key is there. -/
def addNew (l : List α) (x : α) : List α := if key x ∈ l.map key then l else l ++ [x]

/-- Removes the first element of a key. -/
def removeKey (l : List α) (k : κ) : List α := l.eraseP fun y => key y = k

variable {key}

theorem mem_keys_addNew {l : List α} {x : α} {k : κ} :
    k ∈ (addNew key l x).map key ↔ k ∈ l.map key ∨ k = key x := by
  by_cases h : key x ∈ l.map key
  · rw [addNew, if_pos h]
    constructor
    · exact Or.inl
    · rintro (hk | rfl)
      · exact hk
      · exact h
  · rw [addNew, if_neg h, List.map_append, List.mem_append, List.map_singleton,
      List.mem_singleton]

theorem mem_keys_foldl_addNew {xs l : List α} {k : κ} :
    k ∈ (xs.foldl (addNew key) l).map key ↔ k ∈ l.map key ∨ k ∈ xs.map key := by
  induction xs generalizing l with
  | nil => simp
  | cons x rest ih =>
      rw [List.foldl_cons, ih, mem_keys_addNew, List.map_cons, List.mem_cons, or_assoc]

theorem nodup_map_append_singleton {β : Type*} {f : α → β} {l : List α} (h : (l.map f).Nodup)
    {x : α} (hx : f x ∉ l.map f) : ((l ++ [x]).map f).Nodup := by
  rw [List.map_append, List.nodup_append']
  refine ⟨h, List.nodup_singleton _, ?_⟩
  intro y hy hyx
  rw [List.map_singleton, List.mem_singleton] at hyx
  exact hx (hyx ▸ hy)

theorem nodup_addNew {l : List α} (h : (l.map key).Nodup) (x : α) :
    ((addNew key l x).map key).Nodup := by
  by_cases hx : key x ∈ l.map key
  · rwa [addNew, if_pos hx]
  · rw [addNew, if_neg hx]
    exact nodup_map_append_singleton h hx

theorem nodup_foldl_addNew {xs l : List α} (h : (l.map key).Nodup) :
    ((xs.foldl (addNew key) l).map key).Nodup := by
  induction xs generalizing l with
  | nil => exact h
  | cons x rest ih => exact ih (nodup_addNew h x)

variable (key) in
/-- What a list of additions puts at the end: an element for each key that was not there. -/
theorem exists_foldl_addNew_eq_append (xs l : List α) :
    ∃ added, xs.foldl (addNew key) l = l ++ added ∧ (added.map key).Nodup
      ∧ (∀ y ∈ added, y ∈ xs) ∧ ∀ k, k ∈ added.map key ↔ k ∈ xs.map key ∧ k ∉ l.map key := by
  induction xs generalizing l with
  | nil => exact ⟨[], by simp⟩
  | cons x rest ih =>
      rw [List.foldl_cons, addNew]
      by_cases hx : key x ∈ l.map key
      · obtain ⟨added, heq, hnodup, hmem, hkeys⟩ := ih l
        refine ⟨added, by rw [if_pos hx, heq], hnodup,
          fun y hy => List.mem_cons_of_mem _ (hmem y hy), fun k => ?_⟩
        rw [hkeys, List.map_cons, List.mem_cons]
        constructor
        · exact fun h => ⟨Or.inr h.1, h.2⟩
        · rintro ⟨rfl | hk, hnot⟩
          · exact absurd hx hnot
          · exact ⟨hk, hnot⟩
      · obtain ⟨added, heq, hnodup, hmem, hkeys⟩ := ih (l ++ [x])
        have hnot : key x ∉ added.map key := by
          rw [hkeys]
          simp
        refine ⟨x :: added, by rw [if_neg hx, heq, List.append_assoc, List.singleton_append], ?_, ?_,
          fun k => ?_⟩
        · rw [List.map_cons, List.nodup_cons]
          exact ⟨hnot, hnodup⟩
        · intro y hy
          rcases List.mem_cons.mp hy with rfl | hy
          · exact List.mem_cons_self
          · exact List.mem_cons_of_mem _ (hmem y hy)
        · rw [List.map_cons, List.mem_cons, hkeys, List.map_cons, List.mem_cons, List.map_append,
            List.mem_append, List.map_singleton, List.mem_singleton]
          by_cases hk : k = key x
          · subst hk
            simp [hx]
          · simp [hk]

theorem nodup_removeKey {l : List α} (h : (l.map key).Nodup) (k : κ) :
    ((removeKey key l k).map key).Nodup :=
  h.sublist ((List.eraseP_sublist).map key)

theorem addNew_append {l : List α} {x : α} (h : key x ∉ l.map key) (m : List α) :
    addNew key (l ++ m) x = l ++ addNew key m x := by
  by_cases hm : key x ∈ m.map key
  · have hall : key x ∈ (l ++ m).map key := by
      rw [List.map_append]
      exact List.mem_append_right _ hm
    rw [addNew, addNew, if_pos hm, if_pos hall]
  · have hall : key x ∉ (l ++ m).map key := by
      rw [List.map_append, List.mem_append]
      exact not_or.mpr ⟨h, hm⟩
    rw [addNew, addNew, if_neg hm, if_neg hall, List.append_assoc]

theorem foldl_addNew_append {xs l : List α} (h : ∀ x ∈ xs, key x ∉ l.map key) (m : List α) :
    xs.foldl (addNew key) (l ++ m) = l ++ xs.foldl (addNew key) m := by
  induction xs generalizing m with
  | nil => rfl
  | cons x rest ih =>
      rw [List.foldl_cons, List.foldl_cons, addNew_append (h x List.mem_cons_self)]
      exact ih (fun y hy => h y (List.mem_cons_of_mem _ hy)) _

theorem removeKey_append {l : List α} {k : κ} (h : k ∉ l.map key) (m : List α) :
    removeKey key (l ++ m) k = l ++ removeKey key m k := by
  refine List.eraseP_append_right _ ?_
  intro y hy hk
  exact h (List.mem_map.mpr ⟨y, hy, of_decide_eq_true hk⟩)

theorem foldl_removeKey_append {ks : List κ} {l : List α} (h : ∀ k ∈ ks, k ∉ l.map key)
    (m : List α) :
    ks.foldl (removeKey key) (l ++ m) = l ++ ks.foldl (removeKey key) m := by
  induction ks generalizing m with
  | nil => rfl
  | cons k rest ih =>
      rw [List.foldl_cons, List.foldl_cons, removeKey_append (h k List.mem_cons_self)]
      exact ih (fun k' hk' => h k' (List.mem_cons_of_mem _ hk')) _

/-- In a list without repeated keys, removing a key leaves no element of it. -/
theorem not_mem_keys_removeKey {l : List α} (h : (l.map key).Nodup) (k : κ) :
    k ∉ (removeKey key l k).map key := by
  induction l with
  | nil => simp [removeKey]
  | cons y rest ih =>
      rw [List.map_cons, List.nodup_cons] at h
      by_cases hy : key y = k
      · rw [removeKey, List.eraseP_cons_of_pos (by simpa using hy)]
        exact hy ▸ h.1
      · rw [removeKey, List.eraseP_cons_of_neg (by simpa using hy), List.map_cons, List.mem_cons,
          not_or]
        exact ⟨Ne.symm hy, ih h.2⟩

theorem mem_removeKey_iff {l : List α} (h : (l.map key).Nodup) {k : κ} {y : α} :
    y ∈ removeKey key l k ↔ y ∈ l ∧ key y ≠ k := by
  constructor
  · intro hy
    refine ⟨List.mem_of_mem_eraseP hy, ?_⟩
    rintro rfl
    exact not_mem_keys_removeKey h (key y) (List.mem_map_of_mem hy)
  · rintro ⟨hy, hk⟩
    exact (List.mem_eraseP_of_neg (by simpa using hk)).mpr hy

theorem foldl_removeKey_eq_nil {ks : List κ} {l : List α} (h : (l.map key).Nodup)
    (hks : ∀ y ∈ l, key y ∈ ks) : ks.foldl (removeKey key) l = [] := by
  induction ks generalizing l with
  | nil =>
      refine List.eq_nil_iff_forall_not_mem.mpr ?_
      intro y hy
      simpa using hks y hy
  | cons k rest ih =>
      refine ih (nodup_removeKey h k) ?_
      intro y hy
      have hold := hks y (List.mem_of_mem_eraseP hy)
      refine (List.mem_cons.mp hold).resolve_left ?_
      intro hyk
      exact not_mem_keys_removeKey h k (List.mem_map.mpr ⟨y, hy, hyk⟩)

theorem modify_findIdx_append {p : α → Bool} {pre : List α} (hpre : ∀ y ∈ pre, p y = false) {x : α}
    (hx : p x = true) (post : List α) (f : α → α) :
    (pre ++ x :: post).modify ((pre ++ x :: post).findIdx p) f = pre ++ f x :: post := by
  induction pre with
  | nil => simp [List.findIdx_cons, hx]
  | cons y pre ih =>
      have hy : p y = false := hpre y List.mem_cons_self
      have hrest := ih fun z hz => hpre z (List.mem_cons_of_mem _ hz)
      simp [List.findIdx_cons, hy, hrest]

theorem countP_removeKey_le (l : List α) (k k' : κ) :
    (removeKey key l k').countP (key · = k) ≤ l.countP (key · = k) :=
  List.Sublist.countP_le List.eraseP_sublist

theorem countP_foldl_removeKey_le (ks : List κ) (l : List α) (k : κ) :
    (ks.foldl (removeKey key) l).countP (key · = k) ≤ l.countP (key · = k) := by
  induction ks generalizing l with
  | nil => exact Nat.le_refl _
  | cons k' rest ih => exact Nat.le_trans (ih _) (countP_removeKey_le l k k')

theorem countP_removeKey_lt {l : List α} {k : κ} (h : k ∈ l.map key) :
    (removeKey key l k).countP (key · = k) < l.countP (key · = k) := by
  induction l with
  | nil => simp at h
  | cons y rest ih =>
      by_cases hy : key y = k
      · rw [removeKey, List.eraseP_cons_of_pos (by simpa using hy),
          List.countP_cons_of_pos (by simpa using hy)]
        exact Nat.lt_succ_self _
      · have hrest : k ∈ rest.map key := (List.mem_cons.mp h).resolve_left (Ne.symm hy)
        rw [removeKey, List.eraseP_cons_of_neg (by simpa using hy),
          List.countP_cons_of_neg (by simpa using hy), List.countP_cons_of_neg (by simpa using hy)]
        exact ih hrest

theorem countP_foldl_removeKey_lt {ks : List κ} {l : List α} {k : κ} (hk : k ∈ ks)
    (h : k ∈ l.map key) :
    (ks.foldl (removeKey key) l).countP (key · = k) < l.countP (key · = k) := by
  induction ks generalizing l with
  | nil => simp at hk
  | cons k' rest ih =>
      rw [List.foldl_cons]
      by_cases hleft : k ∈ (removeKey key l k').map key
      · by_cases hk' : k = k'
        · subst hk'
          exact Nat.lt_of_le_of_lt (countP_foldl_removeKey_le rest _ k) (countP_removeKey_lt h)
        · have hrest : k ∈ rest := (List.mem_cons.mp hk).resolve_left hk'
          exact Nat.lt_of_lt_of_le (ih hrest hleft) (countP_removeKey_le l k k')
      · have hzero : (removeKey key l k').countP (key · = k) = 0 := by
          rw [List.countP_eq_zero]
          intro y hy hyk
          exact hleft (List.mem_map.mpr ⟨y, hy, of_decide_eq_true hyk⟩)
        have hpos : 0 < l.countP (key · = k) := by
          obtain ⟨y, hy, hyk⟩ := List.mem_map.mp h
          exact List.countP_pos_iff.mpr ⟨y, hy, by simpa using hyk⟩
        have hle : (rest.foldl (removeKey key) (removeKey key l k')).countP (key · = k)
            ≤ (removeKey key l k').countP (key · = k) := countP_foldl_removeKey_le ..
        omega

theorem countP_foldl_addNew {xs l : List α} {k : κ} (h : k ∈ l.map key) :
    (xs.foldl (addNew key) l).countP (key · = k) = l.countP (key · = k) := by
  induction xs generalizing l with
  | nil => rfl
  | cons x rest ih =>
      rw [List.foldl_cons, ih (mem_keys_addNew.mpr (Or.inl h))]
      by_cases hx : key x ∈ l.map key
      · rw [addNew, if_pos hx]
      · have hxk : key x ≠ k := by
          rintro rfl
          exact hx h
        rw [addNew, if_neg hx, List.countP_append, List.countP_singleton]
        simp [hxk]

/-- **Adding elements and removing their keys.** The list comes back exactly when none of the keys
was in it before. -/
theorem foldl_removeKey_foldl_addNew_eq_iff {xs l : List α} :
    (xs.map key).foldl (removeKey key) (xs.foldl (addNew key) l) = l
      ↔ ∀ x ∈ xs, key x ∉ l.map key := by
  constructor
  · intro hback x hx hold
    have hlt := countP_foldl_removeKey_lt (List.mem_map_of_mem hx)
      (mem_keys_foldl_addNew.mpr (Or.inl hold) : key x ∈ (xs.foldl (addNew key) l).map key)
    rw [hback, countP_foldl_addNew hold] at hlt
    exact Nat.lt_irrefl _ hlt
  · intro hnew
    have hadded : xs.foldl (addNew key) l = l ++ xs.foldl (addNew key) [] := by
      simpa using foldl_addNew_append hnew []
    have hkeys : ∀ k ∈ xs.map key, k ∉ l.map key := by
      intro k hk
      obtain ⟨x, hx, rfl⟩ := List.mem_map.mp hk
      exact hnew x hx
    have hnodup : ((xs.foldl (addNew key) []).map key).Nodup := nodup_foldl_addNew (by simp)
    rw [hadded, foldl_removeKey_append hkeys, foldl_removeKey_eq_nil hnodup, List.append_nil]
    intro y hy
    have hkey : key y ∈ (xs.foldl (addNew key) []).map key := List.mem_map_of_mem hy
    simpa using mem_keys_foldl_addNew.mp hkey

theorem map_ite_key_eq_self {l : List α} {k : κ} (h : k ∉ l.map key) (f : α → α) :
    (l.map fun y => if key y = k then f y else y) = l := by
  have hother : ∀ y ∈ l, (if key y = k then f y else y) = y := fun y hy =>
    if_neg fun hk => h (List.mem_map.mpr ⟨y, hy, hk⟩)
  rw [List.map_congr_left hother, List.map_id']

/-- A change of the element of a key, when there is one. -/
theorem modify_findIdx?_eq_map [BEq κ] [LawfulBEq κ] {l : List α} (h : (l.map key).Nodup) {k : κ}
    {i : Nat} (hi : l.findIdx? (fun y => key y == k) = some i) (f : α → α) :
    l.modify i f = l.map fun y => if key y = k then f y else y := by
  induction l generalizing i with
  | nil => simp at hi
  | cons y rest ih =>
      obtain ⟨hy, hrest⟩ := List.nodup_cons.mp h
      rw [List.findIdx?_cons] at hi
      by_cases hk : key y = k
      · rw [if_pos (beq_iff_eq.mpr hk)] at hi
        obtain rfl := Option.some.inj hi
        rw [List.map_cons, if_pos hk, map_ite_key_eq_self (hk ▸ hy)]
        rfl
      · rw [if_neg (by simpa using hk)] at hi
        obtain ⟨j, hj, rfl⟩ := Option.map_eq_some_iff.mp hi
        rw [List.modify_succ_cons, ih hrest hj, List.map_cons, if_neg hk]

theorem eraseIdx_findIdx?_eq_filter [BEq κ] [LawfulBEq κ] {l : List α} (h : (l.map key).Nodup)
    {k : κ} {i : Nat} (hi : l.findIdx? (fun y => key y == k) = some i) :
    l.eraseIdx i = l.filter fun y => key y ≠ k := by
  induction l generalizing i with
  | nil => simp at hi
  | cons y rest ih =>
      obtain ⟨hy, hrest⟩ := List.nodup_cons.mp h
      rw [List.findIdx?_cons] at hi
      by_cases hk : key y = k
      · rw [if_pos (beq_iff_eq.mpr hk)] at hi
        obtain rfl := Option.some.inj hi
        have hother : ∀ z ∈ rest, decide (key z ≠ k) = true := fun z hz =>
          decide_eq_true fun hz' => hy (List.mem_map.mpr ⟨z, hz, hz'.trans hk.symm⟩)
        rw [List.filter_cons_of_neg (by simpa using hk), List.filter_eq_self.mpr hother]
        rfl
      · rw [if_neg (by simpa using hk)] at hi
        obtain ⟨j, hj, rfl⟩ := Option.map_eq_some_iff.mp hi
        rw [List.eraseIdx_cons_succ, ih hrest hj, List.filter_cons_of_pos (by simpa using hk)]

omit [DecidableEq κ] in
theorem findIdx?_key_eq_none_iff [BEq κ] [LawfulBEq κ] {l : List α} {k : κ} :
    l.findIdx? (fun y => key y == k) = none ↔ k ∉ l.map key := by
  simp [List.findIdx?_eq_none_iff]

omit [DecidableEq κ] in
/-- What keeps the keys of the elements that it keeps. -/
theorem sublist_map_filterMap {f : α → Option α} (hf : ∀ x y, f x = some y → key y = key x)
    (l : List α) : ((l.filterMap f).map key).Sublist (l.map key) := by
  induction l with
  | nil => exact List.Sublist.refl _
  | cons x rest ih =>
      cases hx : f x with
      | none =>
          rw [List.filterMap_cons_none hx]
          exact ih.cons _
      | some y =>
          rw [List.filterMap_cons_some hx, List.map_cons, List.map_cons, hf x y hx]
          exact ih.cons_cons _

end DshLmc
