import Mathlib.Data.List.Basic
import Std.Data.ExtTreeMap

/-!
# Writes to a map

A map is filled by writes of two sorts: one overwrites what is at its key, and the other leaves it.
After any number of them, in any order, the last overwrite of a key decides. Without one the value
that was there stays, and only without that is it the first write of the other sort.
-/

namespace DshLmc

open Std

inductive MapWrite (κ β : Type*) where
  | insert (key : κ) (value : β)
  | insertIfNew (key : κ) (value : β)

namespace MapWrite

variable {κ β : Type*} {cmp : κ → κ → Ordering} [TransCmp cmp]

def apply (m : ExtTreeMap κ β cmp) : MapWrite κ β → ExtTreeMap κ β cmp
  | .insert key value => m.insert key value
  | .insertIfNew key value => m.insertIfNew key value

variable [DecidableEq κ]

/-- The value, when it is one that overwrites what is at the key. -/
def overwrites (k : κ) : MapWrite κ β → Option β
  | .insert key value => if key = k then some value else none
  | .insertIfNew _ _ => none

/-- The value, when it is one that leaves what is at the key. -/
def offers (k : κ) : MapWrite κ β → Option β
  | .insert _ _ => none
  | .insertIfNew key value => if key = k then some value else none

theorem overwrites_eq_some {k : κ} {b : β} {w : MapWrite κ β} :
    w.overwrites k = some b ↔ w = .insert k b := by
  cases w with
  | insert key value =>
      by_cases hkey : key = k
      · subst hkey
        simp [overwrites]
      · simp [overwrites, hkey]
  | insertIfNew key value => simp [overwrites]

theorem offers_eq_some {k : κ} {b : β} {w : MapWrite κ β} :
    w.offers k = some b ↔ w = .insertIfNew k b := by
  cases w with
  | insert key value => simp [offers]
  | insertIfNew key value =>
      by_cases hkey : key = k
      · subst hkey
        simp [offers]
      · simp [offers, hkey]

variable [LawfulEqCmp cmp]

theorem getElem?_apply (m : ExtTreeMap κ β cmp) (w : MapWrite κ β) (k : κ) :
    (apply m w)[k]? = (w.overwrites k).or (m[k]?.or (w.offers k)) := by
  cases w with
  | insert key value =>
      rw [apply, ExtTreeMap.getElem?_insert, offers, Option.or_none, overwrites]
      by_cases hkey : key = k
      · subst hkey
        rw [if_pos ReflCmp.compare_self, if_pos rfl, Option.some_or]
      · rw [if_neg fun h => hkey (LawfulEqCmp.eq_of_compare h), if_neg hkey, Option.none_or]
  | insertIfNew key value =>
      rw [apply, ExtTreeMap.getElem?_insertIfNew, offers, overwrites, Option.none_or]
      by_cases hkey : key = k
      · subst hkey
        rw [if_pos rfl]
        by_cases hmem : key ∈ m
        · obtain ⟨b, hb⟩ := Option.isSome_iff_exists.mp (ExtTreeMap.mem_iff_isSome_getElem?.mp hmem)
          rw [if_neg fun h => h.2 hmem, hb, Option.some_or]
        · rw [if_pos ⟨ReflCmp.compare_self, hmem⟩, ExtTreeMap.getElem?_eq_none hmem, Option.none_or]
      · rw [if_neg fun h => hkey (LawfulEqCmp.eq_of_compare h.1), if_neg hkey, Option.or_none]

/-- **Any number of writes.** -/
theorem getElem?_foldl_apply (ws : List (MapWrite κ β)) (m : ExtTreeMap κ β cmp) (k : κ) :
    (ws.foldl apply m)[k]?
      = (ws.filterMap (·.overwrites k)).getLast?.or (m[k]?.or (ws.filterMap (·.offers k)).head?) := by
  induction ws generalizing m with
  | nil => simp
  | cons w rest ih =>
      rw [List.foldl_cons, ih, getElem?_apply, List.filterMap_cons, List.filterMap_cons]
      generalize rest.filterMap (·.overwrites k) = last
      generalize rest.filterMap (·.offers k) = first
      cases w.overwrites k with
      | some b => cases hlast : last.getLast? <;> simp [List.getLast?_cons, hlast]
      | none => cases w.offers k <;> simp

/-- What is in a map that was empty at first. -/
theorem mem_of_getElem?_foldl_apply {ws : List (MapWrite κ β)} {k : κ} {b : β}
    (h : (ws.foldl apply (∅ : ExtTreeMap κ β cmp))[k]? = some b) :
    .insert k b ∈ ws ∨ (∀ b', .insert k b' ∉ ws) ∧ .insertIfNew k b ∈ ws := by
  rw [getElem?_foldl_apply, ExtTreeMap.getElem?_empty, Option.none_or] at h
  cases hlast : (ws.filterMap (·.overwrites k)).getLast? with
  | some b' =>
      rw [hlast] at h
      obtain rfl : b' = b := by simpa using h
      obtain ⟨w, hw, hover⟩ := List.mem_filterMap.mp (List.mem_of_getLast? hlast)
      exact .inl (overwrites_eq_some.mp hover ▸ hw)
  | none =>
      rw [hlast, Option.none_or] at h
      obtain ⟨w, hw, hoffer⟩ := List.mem_filterMap.mp (List.mem_of_head? h)
      refine .inr ⟨fun b' hmem => ?_, offers_eq_some.mp hoffer ▸ hw⟩
      have hin : b' ∈ ws.filterMap (·.overwrites k) :=
        List.mem_filterMap.mpr ⟨_, hmem, overwrites_eq_some.mpr rfl⟩
      rw [List.getLast?_eq_none_iff.mp hlast] at hin
      cases hin

variable (cmp) in
theorem exists_getElem?_of_insert {ws : List (MapWrite κ β)} {k : κ} {b : β}
    (h : .insert k b ∈ ws) :
    ∃ b', (ws.foldl apply (∅ : ExtTreeMap κ β cmp))[k]? = some b' ∧ .insert k b' ∈ ws := by
  have hin : b ∈ ws.filterMap (·.overwrites k) :=
    List.mem_filterMap.mpr ⟨_, h, overwrites_eq_some.mpr rfl⟩
  cases hlast : (ws.filterMap (·.overwrites k)).getLast? with
  | none =>
      rw [List.getLast?_eq_none_iff.mp hlast] at hin
      cases hin
  | some b' =>
      obtain ⟨w, hw, hover⟩ := List.mem_filterMap.mp (List.mem_of_getLast? hlast)
      refine ⟨b', ?_, overwrites_eq_some.mp hover ▸ hw⟩
      rw [getElem?_foldl_apply, hlast, Option.some_or]

variable (cmp) in
theorem exists_getElem?_of_insertIfNew {ws : List (MapWrite κ β)} {k : κ} {b : β}
    (h : .insertIfNew k b ∈ ws) (hnot : ∀ b', .insert k b' ∉ ws) :
    ∃ b', (ws.foldl apply (∅ : ExtTreeMap κ β cmp))[k]? = some b' ∧ .insertIfNew k b' ∈ ws := by
  have hin : b ∈ ws.filterMap (·.offers k) :=
    List.mem_filterMap.mpr ⟨_, h, offers_eq_some.mpr rfl⟩
  have hnone : ws.filterMap (·.overwrites k) = [] := by
    refine List.eq_nil_iff_forall_not_mem.mpr fun b' hb' => ?_
    obtain ⟨w, hw, hover⟩ := List.mem_filterMap.mp hb'
    exact hnot b' (overwrites_eq_some.mp hover ▸ hw)
  cases hhead : (ws.filterMap (·.offers k)).head? with
  | none =>
      rw [List.head?_eq_none_iff.mp hhead] at hin
      cases hin
  | some b' =>
      obtain ⟨w, hw, hoffer⟩ := List.mem_filterMap.mp (List.mem_of_head? hhead)
      refine ⟨b', ?_, offers_eq_some.mp hoffer ▸ hw⟩
      rw [getElem?_foldl_apply, hnone, hhead]
      simp

/-- What holds of some value of the map, when writes of one sort and key agree about it. -/
theorem exists_mem_toList_foldl_apply {ws : List (MapWrite κ β)} {Q : β → Prop}
    (hinsert : ∀ k b b', .insert k b ∈ ws → .insert k b' ∈ ws → (Q b ↔ Q b'))
    (hnew : ∀ k b b', .insertIfNew k b ∈ ws → .insertIfNew k b' ∈ ws → (Q b ↔ Q b')) :
    (∃ item ∈ (ws.foldl apply (∅ : ExtTreeMap κ β cmp)).toList, Q item.2)
      ↔ (∃ k b, .insert k b ∈ ws ∧ Q b)
        ∨ ∃ k b, .insertIfNew k b ∈ ws ∧ (∀ b', .insert k b' ∉ ws) ∧ Q b := by
  constructor
  · rintro ⟨⟨k, b⟩, hitem, hQ⟩
    rw [ExtTreeMap.mem_toList_iff_getElem?_eq_some] at hitem
    obtain hmem | ⟨hnot, hmem⟩ := mem_of_getElem?_foldl_apply hitem
    · exact .inl ⟨k, b, hmem, hQ⟩
    · exact .inr ⟨k, b, hmem, hnot, hQ⟩
  · rintro (⟨k, b, hmem, hQ⟩ | ⟨k, b, hmem, hnot, hQ⟩)
    · obtain ⟨b', hb', hmem'⟩ := exists_getElem?_of_insert cmp hmem
      refine ⟨(k, b'), ?_, (hinsert k b b' hmem hmem').mp hQ⟩
      exact ExtTreeMap.mem_toList_iff_getElem?_eq_some.mpr hb'
    · obtain ⟨b', hb', hmem'⟩ := exists_getElem?_of_insertIfNew cmp hmem hnot
      refine ⟨(k, b'), ?_, (hnew k b b' hmem hmem').mp hQ⟩
      exact ExtTreeMap.mem_toList_iff_getElem?_eq_some.mpr hb'

end MapWrite

end DshLmc
