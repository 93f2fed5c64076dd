import Mathlib.Data.List.Forall2
import Mathlib.Data.Option.Basic

/-!
# Related elements

Options and lists whose elements are related one by one, as what was read and what it was made into.
-/

namespace DshLmc

theorem exists_rel {α β : Type*} {p : α → β → Prop} {o : Option α} (h : ∀ a ∈ o, ∃ b, p a b) :
    ∃ v, Option.Rel p o v := by
  cases o with
  | none => exact ⟨none, .none⟩
  | some a =>
      obtain ⟨b, hb⟩ := h a rfl
      exact ⟨some b, .some hb⟩

theorem rel_of_mem {α β : Type*} {p : α → β → Prop} {o : Option α} {v : Option β}
    (h : Option.Rel p o v) {a : α} (ha : a ∈ o) : ∃ b ∈ v, p a b := by
  cases h with
  | none => cases ha
  | some hp =>
      obtain rfl := Option.some.inj ha
      exact ⟨_, rfl, hp⟩

theorem rel_of_forall {α β : Type*} {p q : α → β → Prop} {o : Option α} {v : Option β}
    (h : Option.Rel p o v) (hpq : ∀ a ∈ o, ∀ b, p a b → q a b) : Option.Rel q o v := by
  cases h with
  | none => exact .none
  | some hp => exact .some (hpq _ rfl _ hp)

theorem rel_map_iff {α β γ : Type*} {p : β → γ → Prop} {f : α → β} {o : Option α} {v : Option γ} :
    Option.Rel p (o.map f) v ↔ Option.Rel (fun a => p (f a)) o v := by
  cases o with
  | none => exact ⟨fun h => by cases h; exact .none, fun h => by cases h; exact .none⟩
  | some a =>
      constructor
      · intro h
        cases h with
        | some hp => exact .some hp
      · intro h
        cases h with
        | some hp => exact .some hp

theorem mapM_eq_some_iff {α β : Type*} {f : α → Option β} {l : List α} {r : List β} :
    l.mapM f = some r ↔ List.Forall₂ (fun a b => f a = some b) l r := by
  induction l generalizing r with
  | nil => cases r <;> simp
  | cons a l ih =>
      rw [List.mapM_cons, Option.bind_eq_bind, Option.bind_eq_some_iff]
      constructor
      · rintro ⟨b, hb, h⟩
        obtain ⟨bs, hbs, h⟩ := Option.bind_eq_some_iff.mp h
        obtain rfl := Option.some.inj h
        exact .cons hb (ih.mp hbs)
      · rintro (_ | ⟨hb, hbs⟩)
        exact ⟨_, hb, Option.bind_eq_some_iff.mpr ⟨_, ih.mpr hbs, rfl⟩⟩

theorem exists_of_forall₂ {α β : Type*} {R : α → β → Prop} {l : List α} {r : List β}
    (h : List.Forall₂ R l r) {a : α} (ha : a ∈ l) : ∃ b ∈ r, R a b := by
  induction h with
  | nil => cases ha
  | @cons a' b l r hab _ ih =>
      rcases List.mem_cons.mp ha with rfl | ha
      · exact ⟨b, List.mem_cons_self, hab⟩
      · obtain ⟨b', hb', hab'⟩ := ih ha
        exact ⟨b', List.mem_cons_of_mem b hb', hab'⟩

theorem exists_forall₂ {α β : Type*} {R : α → β → Prop} {l : List α} (h : ∀ a ∈ l, ∃ b, R a b) :
    ∃ r, List.Forall₂ R l r := by
  induction l with
  | nil => exact ⟨[], .nil⟩
  | cons a l ih =>
      obtain ⟨ha, hl⟩ := List.forall_mem_cons.mp h
      obtain ⟨b, hb⟩ := ha
      obtain ⟨r, hr⟩ := ih hl
      exact ⟨b :: r, .cons hb hr⟩

theorem length_splitOnP {α : Type*} (p : α → Bool) (l : List α) :
    (l.splitOnP p).length = l.countP p + 1 := by
  induction l with
  | nil => rfl
  | cons a l ih =>
      rw [List.splitOnP_cons_eq_if_modifyHead]
      by_cases h : p a
      · rw [if_pos h, List.length_cons, ih, List.countP_cons_of_pos h]
      · rw [if_neg h, List.length_modifyHead, ih, List.countP_cons_of_neg h]

end DshLmc
