import Mathlib.Order.Defs.LinearOrder
import Mathlib.Tactic.Push
import DshLmc.Library.OrderedSet

/-!
# An order by key, with exceptions

Elements are ordered by a key, except that an element never precedes one it depends on directly,
whatever their keys say. The exceptions turn some comparisons around, and nothing makes the result
an order: three elements whose keys ascend can end up in a circle. `strictWeakOn_overrideLt_iff`
says exactly when that does not happen. Only triples matter, because between elements with distinct
keys every pair is comparable, so the relation is a tournament and a tournament without a three
cycle is an order. `setSound_overrideLt_iff` adds that sets kept by the relation are exactly then
what one expects of them.
-/

namespace DshLmc

variable {α κ : Type*} [LinearOrder κ]

/-- By key, except that what an element depends on comes first. -/
def overrideLt (dep : α → α → Bool) (key : α → κ) (a b : α) : Bool :=
  if dep a b then false else if dep b a then true else decide (key a < key b)

/-- Any two distinct elements of the list are comparable. -/
def TotalOn (lt : α → α → Bool) (l : List α) : Prop :=
  ∀ a ∈ l, ∀ b ∈ l, a ≠ b → lt a b = true ∨ lt b a = true

/-- The dependencies do not turn three comparisons into a circle. -/
structure ExceptionsAgree (dep : α → α → Bool) (key : α → κ) (l : List α) : Prop where
  not_mutual : ∀ a ∈ l, ∀ b ∈ l, a ≠ b → dep a b = true → dep b a = false
  between : ∀ x ∈ l, ∀ y ∈ l, ∀ z ∈ l, key x < key y → key y < key z →
    dep x z = true → dep x y = true ∨ dep y z = true
  chain : ∀ x ∈ l, ∀ y ∈ l, ∀ z ∈ l, key x < key y → key y < key z →
    dep x y = true → dep y z = true → dep x z = true

section

variable {dep : α → α → Bool} {key : α → κ} {a b : α} {l : List α}

theorem overrideLt_of_dep (h : dep a b = true) : overrideLt dep key a b = false := by
  simp [overrideLt, h]

theorem overrideLt_eq_true_iff :
    overrideLt dep key a b = true ↔ dep a b = false ∧ (dep b a = true ∨ key a < key b) := by
  cases hab : dep a b <;> cases hba : dep b a <;> simp [overrideLt, hab, hba]

/-- A comparison against the keys can only come from a dependency. -/
theorem dep_of_overrideLt (hlt : overrideLt dep key a b = true) (hkey : key b < key a) :
    dep b a = true := by
  obtain hdep | habs := (overrideLt_eq_true_iff.mp hlt).2
  · exact hdep
  · exact absurd habs (not_lt.mpr hkey.le)

theorem overrideLt_irrefl : overrideLt dep key a a = false := by
  cases h : dep a a <;> simp [overrideLt, h]

theorem overrideLt_asymm (hlt : overrideLt dep key a b = true) :
    overrideLt dep key b a = false := by
  by_contra habs
  rw [Bool.not_eq_false] at habs
  obtain ⟨hab, hforward⟩ := overrideLt_eq_true_iff.mp hlt
  obtain ⟨hba, hbackward⟩ := overrideLt_eq_true_iff.mp habs
  rw [hba] at hforward
  rw [hab] at hbackward
  simp only [Bool.false_eq_true, false_or] at hforward hbackward
  exact lt_asymm hforward hbackward

/-- Distinct keys and no mutual dependency leave no pair incomparable. -/
theorem totalOn_overrideLt (hinj : ∀ a ∈ l, ∀ b ∈ l, key a = key b → a = b)
    (hmutual : ∀ a ∈ l, ∀ b ∈ l, a ≠ b → dep a b = true → dep b a = false) :
    TotalOn (overrideLt dep key) l := by
  intro a ha b hb hne
  obtain hlt | hlt := lt_or_gt_of_ne (fun heq => hne (hinj a ha b hb heq))
  · cases hab : dep a b with
    | false => exact Or.inl (overrideLt_eq_true_iff.mpr ⟨hab, Or.inr hlt⟩)
    | true =>
        exact Or.inr (overrideLt_eq_true_iff.mpr ⟨hmutual a ha b hb hne hab, Or.inl hab⟩)
  · cases hba : dep b a with
    | false => exact Or.inr (overrideLt_eq_true_iff.mpr ⟨hba, Or.inr hlt⟩)
    | true =>
        exact Or.inl (overrideLt_eq_true_iff.mpr ⟨hmutual b hb a ha hne.symm hba, Or.inl hba⟩)

/-- No circle starts from the element with the least key: the other two either ascend, which
`between` excludes, or descend, which `chain` excludes. -/
private theorem not_cycle_of_least (h : ExceptionsAgree dep key l) {x y z : α} (hx : x ∈ l)
    (hy : y ∈ l) (hz : z ∈ l) (hxy : key x < key y) (hxz : key x < key z) (hne : key y ≠ key z)
    (h₁ : overrideLt dep key x y = true) (h₂ : overrideLt dep key y z = true)
    (h₃ : overrideLt dep key z x = true) : False := by
  have hdep : dep x z = true := dep_of_overrideLt h₃ hxz
  obtain hyz | hzy := lt_or_gt_of_ne hne
  · obtain hxy' | hyz' := h.between x hx y hy z hz hxy hyz hdep
    · simp [overrideLt_of_dep hxy'] at h₁
    · simp [overrideLt_of_dep hyz'] at h₂
  · have hzy' : dep z y = true := dep_of_overrideLt h₂ hzy
    have hxy' : dep x y = true := h.chain x hx z hz y hy hxz hzy hdep hzy'
    simp [overrideLt_of_dep hxy'] at h₁

/-- A three cycle can be entered at its least key. -/
private theorem not_cycle (h : ExceptionsAgree dep key l)
    (hinj : ∀ a ∈ l, ∀ b ∈ l, key a = key b → a = b) {a b c : α} (ha : a ∈ l) (hb : b ∈ l)
    (hc : c ∈ l) (h₁ : overrideLt dep key a b = true) (h₂ : overrideLt dep key b c = true)
    (h₃ : overrideLt dep key c a = true) : False := by
  have hdistinct : ∀ {u v : α}, u ∈ l → v ∈ l → overrideLt dep key u v = true →
      key u ≠ key v := by
    intro u v hu hv huv heq
    rw [hinj u hu v hv heq, overrideLt_irrefl] at huv
    exact absurd huv Bool.false_ne_true
  have hab := hdistinct ha hb h₁
  have hbc := hdistinct hb hc h₂
  have hca := hdistinct hc ha h₃
  obtain hlt | hlt := lt_or_gt_of_ne hab
  · obtain hlt' | hlt' := lt_or_gt_of_ne hca
    · exact not_cycle_of_least h hc ha hb hlt' (hlt'.trans hlt) hab h₃ h₁ h₂
    · exact not_cycle_of_least h ha hb hc hlt hlt' hbc h₁ h₂ h₃
  · obtain hlt' | hlt' := lt_or_gt_of_ne hbc
    · exact not_cycle_of_least h hb hc ha hlt' hlt hca h₂ h₃ h₁
    · exact not_cycle_of_least h hc ha hb (hlt'.trans hlt) hlt' hab h₃ h₁ h₂

theorem strictWeakOn_overrideLt (h : ExceptionsAgree dep key l)
    (hinj : ∀ a ∈ l, ∀ b ∈ l, key a = key b → a = b) : StrictWeakOn (overrideLt dep key) l := by
  have htotal := totalOn_overrideLt hinj h.not_mutual
  refine ⟨fun a _ => overrideLt_irrefl, fun a _ b _ => overrideLt_asymm, ?_, ?_⟩
  · intro a ha b hb c hc hab hbc
    by_cases hac : a = c
    · subst hac
      simp [overrideLt_asymm hab] at hbc
    · obtain hlt | hlt := htotal a ha c hc hac
      · exact hlt
      · exact (not_cycle h hinj ha hb hc hab hbc hlt).elim
  · -- Incomparable elements are equal, so there is nothing to carry across.
    intro a ha b hb c hc hab hba hbc hcb
    have heq : ∀ {u v : α}, u ∈ l → v ∈ l → overrideLt dep key u v = false →
        overrideLt dep key v u = false → u = v := by
      intro u v hu hv huv hvu
      by_contra hne
      obtain hlt | hlt := htotal u hu v hv hne
      · simp [huv] at hlt
      · simp [hvu] at hlt
    rw [heq ha hb hab hba, heq hb hc hbc hcb]
    exact ⟨overrideLt_irrefl, overrideLt_irrefl⟩

theorem exceptionsAgree_of_strictWeakOn (hlt : StrictWeakOn (overrideLt dep key) l)
    (htotal : TotalOn (overrideLt dep key) l) : ExceptionsAgree dep key l := by
  have hmutual : ∀ a ∈ l, ∀ b ∈ l, a ≠ b → dep a b = true → dep b a = false := by
    intro a ha b hb hne hab
    by_contra hba
    rw [Bool.not_eq_false] at hba
    obtain habs | habs := htotal a ha b hb hne
    · simp [overrideLt_of_dep hab] at habs
    · simp [overrideLt_of_dep hba] at habs
  refine ⟨hmutual, ?_, ?_⟩
  · intro x hx y hy z hz hxy hyz hdep
    by_contra hnone
    push Not at hnone
    simp only [Bool.not_eq_true] at hnone
    have hxy' : overrideLt dep key x y = true := overrideLt_eq_true_iff.mpr ⟨hnone.1, Or.inr hxy⟩
    have hyz' : overrideLt dep key y z = true := overrideLt_eq_true_iff.mpr ⟨hnone.2, Or.inr hyz⟩
    have hxz := hlt.trans x hx y hy z hz hxy' hyz'
    simp [overrideLt_of_dep hdep] at hxz
  · intro x hx y hy z hz hxy hyz hdxy hdyz
    by_contra hnone
    rw [Bool.not_eq_true] at hnone
    have hne : ∀ {u v : α}, key u < key v → u ≠ v := fun huv heq => by simp [heq] at huv
    have hyx : overrideLt dep key y x = true :=
      overrideLt_eq_true_iff.mpr ⟨hmutual x hx y hy (hne hxy) hdxy, Or.inl hdxy⟩
    have hzy : overrideLt dep key z y = true :=
      overrideLt_eq_true_iff.mpr ⟨hmutual y hy z hz (hne hyz) hdyz, Or.inl hdyz⟩
    have hzx := hlt.trans z hz y hy x hx hzy hyx
    have hxz : overrideLt dep key x z = true :=
      overrideLt_eq_true_iff.mpr ⟨hnone, Or.inr (hxy.trans hyz)⟩
    simp [hlt.asymm x hx z hz hxz] at hzx

/-- **When an order with exceptions is an order.** -/
theorem strictWeakOn_overrideLt_iff (hinj : ∀ a ∈ l, ∀ b ∈ l, key a = key b → a = b) :
    StrictWeakOn (overrideLt dep key) l ∧ TotalOn (overrideLt dep key) l
      ↔ ExceptionsAgree dep key l :=
  ⟨fun h => exceptionsAgree_of_strictWeakOn h.1 h.2,
    fun h => ⟨strictWeakOn_overrideLt h hinj, totalOn_overrideLt hinj h.not_mutual⟩⟩

/-- Sets kept by `lt` hold every element of the list, whatever the order of insertion, and iterate
over what an element depends on before they come to it. -/
structure SetSound (lt dep : α → α → Bool) (l : List α) : Prop where
  weakOrder : StrictWeakOn lt l
  kept : ∀ (S : SetImpl α) xs, xs.Perm l → l ⊆ S.insertAll lt xs []
  ordered : ∀ (S : SetImpl α) xs, xs.Perm l →
    (S.insertAll lt xs []).Pairwise fun a b => dep a b = false

/-- A set that refuses no element compares any two of them. -/
theorem totalOn_of_kept {lt : α → α → Bool} (hnodup : l.Nodup)
    (hkept : ∀ (S : SetImpl α) xs, xs.Perm l → l ⊆ S.insertAll lt xs []) : TotalOn lt l := by
  classical
  intro a ha b hb hne
  by_contra hnone
  push Not at hnone
  simp only [Bool.not_eq_true] at hnone
  -- Inserted right after `a`, the other one is refused, and it does not come again.
  have hb' : b ∈ l.erase a := (List.mem_erase_of_ne hne.symm).mpr hb
  have hperm : (a :: b :: (l.erase a).erase b).Perm l :=
    ((List.perm_cons_erase hb').symm.cons a).trans (List.perm_cons_erase ha).symm
  have hmem := hkept SetImpl.linear _ hperm hb
  have hins : SetImpl.linear.insertAll lt (a :: b :: (l.erase a).erase b) []
      = SetImpl.linear.insertAll lt ((l.erase a).erase b) [a] := by
    simp [SetImpl.linear, linearInsert, hnone.1, hnone.2]
  rw [hins] at hmem
  obtain hrest | hold := List.mem_append.mp (SetImpl.linear.insertAll_subset hmem)
  · exact (hnodup.erase a).not_mem_erase hrest
  · exact hne (List.mem_singleton.mp hold).symm

/-- **When such sets are sound.** -/
theorem setSound_overrideLt_iff (hnodup : l.Nodup)
    (hinj : ∀ a ∈ l, ∀ b ∈ l, key a = key b → a = b) :
    SetSound (overrideLt dep key) dep l ↔ ExceptionsAgree dep key l := by
  constructor
  · intro h
    exact (strictWeakOn_overrideLt_iff hinj).mp ⟨h.weakOrder, totalOn_of_kept hnodup h.kept⟩
  · intro h
    obtain ⟨hweak, htotal⟩ := (strictWeakOn_overrideLt_iff hinj).mpr h
    have hsub : ∀ {xs : List α}, xs.Perm l → xs ++ [] ⊆ l := fun hperm => by
      simpa using hperm.subset
    refine ⟨hweak, fun S xs hperm a ha => ?_, fun S xs hperm => ?_⟩
    · refine S.subset_insertAll (fun a ha b hb hne => ?_) (by simpa using hperm.mem_iff.mpr ha)
      exact htotal a (hsub hperm ha) b (hsub hperm hb) hne.symm
    · refine (S.insertAll_sorted (hweak.of_subset (hsub hperm)) List.Pairwise.nil).imp ?_
      exact fun hlt => (overrideLt_eq_true_iff.mp hlt).1

end

end DshLmc
