import DshLmc.Proof.Objects

/-!
# Well built sequences

The results about runs assume of the objects handed to a manager what the classes give when they are
used as intended. `AddTask` has put each task at its place of one sequence, and the identifiers,
drawn by `GenerateUUID`, are distinct. Then a task is in one sequence only, once, and the lookups by
identifier and name that replace pointers in the source find the object that was meant.

The operations that build a sequence establish this, and nothing a manager does afterwards can break
it.
-/

namespace DshLmc

/-- Tasks know their places, and identifiers identify. -/
structure Heap.WellBuilt (h : Heap) : Prop where
  place : ∀ q (i : Nat) p, (h.sequence q).tasks[i]? = some p →
    (h.task p).isInSequence = true ∧ (h.task p).sequenceId = (h.sequence q).seqId
      ∧ (h.task p).sequenceName = (h.sequence q).seqName ∧ (h.task p).sequenceIndex = i
  seqId_inj : ∀ q q', (h.sequence q).tasks ≠ [] → (h.sequence q').tasks ≠ [] →
    (h.sequence q).seqId = (h.sequence q').seqId → q = q'
  id_inj : ∀ q q' p p', p ∈ (h.sequence q).tasks → p' ∈ (h.sequence q').tasks →
    (h.task p).id = (h.task p').id → p = p'

/-- What a task knows of its place, with its identifier. -/
def Task.place (t : Task) : String × Bool × String × String × Int :=
  (t.id, t.isInSequence, t.sequenceId, t.sequenceName, t.sequenceIndex)

structure SamePlaces (h h' : Heap) : Prop where
  tasks : ∀ q, (h'.sequence q).tasks = (h.sequence q).tasks
  seqId : ∀ q, (h'.sequence q).seqId = (h.sequence q).seqId
  seqName : ∀ q, (h'.sequence q).seqName = (h.sequence q).seqName
  place : ∀ p, (h'.task p).place = (h.task p).place

theorem SameObjects.samePlaces {h h' : Heap} (hs : SameObjects h h') : SamePlaces h h' where
  tasks _ := hs.tasks
  seqId _ := hs.seqId
  seqName _ := hs.seqName
  place _ := hs.read Task.place fun _ => rfl

theorem SamePlaces.id {h h' : Heap} (hs : SamePlaces h h') (p : TaskPtr) :
    (h'.task p).id = (h.task p).id :=
  congrArg Prod.fst (hs.place p)

namespace Heap.WellBuilt

variable {h h' : Heap} {p p' : TaskPtr} {q q' : TaskSequencePtr} {i : Nat}

theorem sequence_eq (hb : h.WellBuilt) (hp : p ∈ (h.sequence q).tasks)
    (hp' : p ∈ (h.sequence q').tasks) : q = q' := by
  obtain ⟨i, hi⟩ := List.mem_iff_getElem?.mp hp
  obtain ⟨i', hi'⟩ := List.mem_iff_getElem?.mp hp'
  refine hb.seqId_inj q q' (List.ne_nil_of_mem hp) (List.ne_nil_of_mem hp') ?_
  rw [← (hb.place q i p hi).2.1, ← (hb.place q' i' p hi').2.1]

theorem nodup (hb : h.WellBuilt) (q : TaskSequencePtr) : (h.sequence q).tasks.Nodup := by
  refine List.nodup_iff_getElem?_ne_getElem?.mpr fun i j hij hj heq => ?_
  obtain ⟨p, hp⟩ : ∃ p, (h.sequence q).tasks[j]? = some p := ⟨_, List.getElem?_eq_getElem hj⟩
  have hi := (hb.place q i p (heq.trans hp)).2.2.2
  rw [(hb.place q j p hp).2.2.2] at hi
  omega

theorem place_eq (hb : h.WellBuilt) {i' : Nat} (hi : (h.sequence q).tasks[i]? = some p)
    (hi' : (h.sequence q').tasks[i']? = some p) : q = q' ∧ i = i' := by
  have hq := hb.sequence_eq (List.mem_of_getElem? hi) (List.mem_of_getElem? hi')
  have hindex := (hb.place q i p hi).2.2.2
  rw [(hb.place q' i' p hi').2.2.2] at hindex
  exact ⟨hq, by omega⟩

theorem findTask_eq_some_iff (hb : h.WellBuilt) (hp : p ∈ (h.sequence q).tasks)
    {id name : String} :
    h.findTask q' id name = some p ↔ q' = q ∧ (h.task p).id = id ∧ (h.task p).cmdName = name := by
  constructor
  · intro hfind
    have hcond := List.find?_some hfind
    simp only [Bool.and_eq_true, beq_iff_eq] at hcond
    exact ⟨hb.sequence_eq (List.mem_of_find?_eq_some hfind) hp, hcond⟩
  · rintro ⟨rfl, rfl, rfl⟩
    unfold Heap.findTask
    cases hfind : (h.sequence q').tasks.find? fun p' =>
        (h.task p').id == (h.task p).id && (h.task p').cmdName == (h.task p).cmdName with
    | none =>
        have := List.find?_eq_none.mp hfind p hp
        simp at this
    | some p' =>
        have hcond := List.find?_some hfind
        simp only [Bool.and_eq_true, beq_iff_eq] at hcond
        rw [hb.id_inj q' q' p' p (List.mem_of_find?_eq_some hfind) hp hcond.1]

theorem of_samePlaces (hb : h.WellBuilt) (hs : SamePlaces h h') : h'.WellBuilt where
  place q i p hi := by
    rw [hs.tasks] at hi
    have hplace := hs.place p
    simp only [Task.place, Prod.mk.injEq] at hplace
    obtain ⟨-, hin, hseqId, hseqName, hindex⟩ := hplace
    rw [hin, hseqId, hseqName, hindex, hs.seqId, hs.seqName]
    exact hb.place q i p hi
  seqId_inj q q' hq hq' hid := by
    rw [hs.tasks] at hq hq'
    rw [hs.seqId, hs.seqId] at hid
    exact hb.seqId_inj q q' hq hq' hid
  id_inj q q' p p' hp hp' hid := by
    rw [hs.tasks] at hp hp'
    rw [hs.id, hs.id] at hid
    exact hb.id_inj q q' p p' hp hp' hid

theorem blank : Heap.blank.WellBuilt where
  place q i p hi := by simp [Heap.blank, TaskSequence.create] at hi
  seqId_inj q q' hq := absurd rfl hq
  id_inj q q' p p' hp := by simp [Heap.blank, TaskSequence.create] at hp

theorem makeTask (hb : h.WellBuilt) (hnew : ∀ q, p ∉ (h.sequence q).tasks) (task : Task) :
    (h.makeTask p task).WellBuilt := by
  have htask : ∀ {q p'}, p' ∈ (h.sequence q).tasks → (h.makeTask p task).task p' = h.task p' := by
    intro q p' hp'
    have hne : p' ≠ p := fun heq => hnew q (heq ▸ hp')
    simp [Heap.makeTask, Heap.updateTask, hne]
  refine ⟨fun q i p' hi => ?_, hb.seqId_inj, fun q q' p' p'' hp' hp'' hid => ?_⟩
  · rw [htask (List.mem_of_getElem? hi)]
    exact hb.place q i p' hi
  · rw [htask hp', htask hp''] at hid
    exact hb.id_inj q q' p' p'' hp' hp'' hid

theorem makeSequence (hb : h.WellBuilt) {seq : TaskSequence} (hseq : seq.tasks = [])
    (q : TaskSequencePtr) : (h.makeSequence q seq).WellBuilt := by
  have hkept : ∀ q', ((h.makeSequence q seq).sequence q').tasks = [] ∨
      (h.makeSequence q seq).sequence q' = h.sequence q' := by
    intro q'
    by_cases hq : q' = q
    · exact Or.inl (by simp [Heap.makeSequence, Heap.updateSequence, hq, hseq])
    · exact Or.inr (by simp [Heap.makeSequence, Heap.updateSequence, hq])
  refine ⟨fun q' i p hi => ?_, fun q₁ q₂ h₁ h₂ hid => ?_, fun q₁ q₂ p₁ p₂ h₁ h₂ hid => ?_⟩
  · obtain hnil | heq := hkept q'
    · simp [hnil] at hi
    · rw [heq] at hi ⊢
      exact hb.place q' i p hi
  · have hq₁ := (hkept q₁).resolve_left h₁
    have hq₂ := (hkept q₂).resolve_left h₂
    rw [hq₁] at h₁ hid
    rw [hq₂] at h₂ hid
    exact hb.seqId_inj q₁ q₂ h₁ h₂ hid
  · rw [(hkept q₁).resolve_left (List.ne_nil_of_mem h₁)] at h₁
    rw [(hkept q₂).resolve_left (List.ne_nil_of_mem h₂)] at h₂
    exact hb.id_inj q₁ q₂ p₁ p₂ h₁ h₂ hid

end Heap.WellBuilt

/-! ### AddTask -/

namespace Heap

/-- A pointer in no sequence yet, and an identifier no task of a sequence has. -/
structure Fresh (h : Heap) (p : TaskPtr) (id : String) : Prop where
  notIn : ∀ q, p ∉ (h.sequence q).tasks
  newId : ∀ q p', p' ∈ (h.sequence q).tasks → (h.task p').id ≠ id

variable {h : Heap} {p p' : TaskPtr} {q q' : TaskSequencePtr} {id : String}

theorem fresh_blank : Heap.blank.Fresh p id where
  notIn q := by simp [blank, TaskSequence.create]
  newId q p' hp' := by simp [blank, TaskSequence.create] at hp'

theorem tasks_addTask (hnamed : (h.sequence q).seqId ≠ "" ∧ (h.sequence q).seqName ≠ "") :
    ((h.addTask q (some p)).2.sequence q').tasks
      = (h.sequence q').tasks ++ if q' = q then [p] else [] := by
  by_cases hq : q' = q
  · subst hq
    simp [addTask, hnamed, updateTask, updateSequence]
  · simp [addTask, hnamed, updateTask, updateSequence, hq]

@[simp]
theorem seqId_addTask : ((h.addTask q (some p)).2.sequence q').seqId = (h.sequence q').seqId := by
  unfold addTask
  dsimp only
  split
  · rfl
  · by_cases hq : q' = q
    · subst hq
      simp [updateTask, updateSequence]
    · simp [updateTask, updateSequence, hq]

@[simp]
theorem seqName_addTask :
    ((h.addTask q (some p)).2.sequence q').seqName = (h.sequence q').seqName := by
  unfold addTask
  dsimp only
  split
  · rfl
  · by_cases hq : q' = q
    · subst hq
      simp [updateTask, updateSequence]
    · simp [updateTask, updateSequence, hq]

@[simp]
theorem id_addTask : ((h.addTask q (some p)).2.task p').id = (h.task p').id := by
  unfold addTask
  dsimp only
  split
  · rfl
  · by_cases hp : p' = p
    · subst hp
      simp [updateTask, updateSequence]
    · simp [updateTask, updateSequence, hp]

theorem task_addTask_of_ne (hne : p' ≠ p) :
    (h.addTask q (some p)).2.task p' = h.task p' := by
  unfold addTask
  dsimp only
  split
  · rfl
  · simp [updateTask, updateSequence, hne]

theorem mem_tasks_addTask (hp : p' ∈ ((h.addTask q (some p)).2.sequence q').tasks) :
    p' ∈ (h.sequence q').tasks ∨ p' = p ∧ q' = q := by
  by_cases hnamed : (h.sequence q).seqId ≠ "" ∧ (h.sequence q).seqName ≠ ""
  · rw [tasks_addTask hnamed, List.mem_append] at hp
    refine hp.imp_right fun hp => ?_
    by_cases hq : q' = q
    · exact ⟨by simpa [hq] using hp, hq⟩
    · simp [hq] at hp
  · left
    have hnamed' : (h.sequence q).seqId = "" ∨ (h.sequence q).seqName = "" := by tauto
    simpa [addTask, hnamed'] using hp

theorem Fresh.addTask (hf : h.Fresh p' id) (hne : p' ≠ p) (hid : (h.task p).id ≠ id) :
    (h.addTask q (some p)).2.Fresh p' id where
  notIn q' hp := by
    obtain hp | ⟨heq, -⟩ := mem_tasks_addTask hp
    · exact hf.notIn q' hp
    · exact hne heq
  newId q' p'' hp := by
    rw [id_addTask]
    obtain hp | ⟨rfl, -⟩ := mem_tasks_addTask hp
    · exact hf.newId q' p'' hp
    · exact hid

theorem Fresh.makeTask (hf : h.Fresh p' id) (hp : ∀ q, p ∉ (h.sequence q).tasks) (task : Task) :
    (h.makeTask p task).Fresh p' id where
  notIn := hf.notIn
  newId q p'' hp'' := by
    have hne : p'' ≠ p := fun heq => hp q (heq ▸ hp'')
    have heq : (h.makeTask p task).task p'' = h.task p'' := by
      simp [Heap.makeTask, updateTask, hne]
    rw [heq]
    exact hf.newId q p'' hp''

theorem Fresh.makeSequence (hf : h.Fresh p' id) {seq : TaskSequence} (hseq : seq.tasks = []) :
    (h.makeSequence q seq).Fresh p' id := by
  have hsub : ∀ q', ((h.makeSequence q seq).sequence q').tasks ⊆ (h.sequence q').tasks := by
    intro q'
    by_cases hq : q' = q
    · subst hq
      simp [Heap.makeSequence, updateSequence, hseq]
    · simp [Heap.makeSequence, updateSequence, hq]
  exact ⟨fun q' hp => hf.notIn q' (hsub q' hp), fun q' p'' hp => hf.newId q' p'' (hsub q' hp)⟩

/-- **AddTask** keeps sequences well built, given a task that is in none yet and identifiers that
are not in use. -/
theorem WellBuilt.addTask (hb : h.WellBuilt) (hfresh : h.Fresh p (h.task p).id)
    (hseqId : ∀ q', (h.sequence q').tasks ≠ [] → (h.sequence q').seqId = (h.sequence q).seqId →
      q' = q) : (h.addTask q (some p)).2.WellBuilt := by
  by_cases hnamed : (h.sequence q).seqId ≠ "" ∧ (h.sequence q).seqName ≠ ""
  swap
  · have hnamed' : (h.sequence q).seqId = "" ∨ (h.sequence q).seqName = "" := by tauto
    simpa [Heap.addTask, hnamed'] using hb
  have hnonempty : ∀ {q'}, ((h.addTask q (some p)).2.sequence q').tasks ≠ [] →
      (h.sequence q').tasks ≠ [] ∨ q' = q := by
    intro q' hne
    obtain ⟨p', hp'⟩ := List.exists_mem_of_ne_nil _ hne
    exact (mem_tasks_addTask hp').imp List.ne_nil_of_mem And.right
  refine ⟨fun q' i p' hi => ?_, fun q₁ q₂ h₁ h₂ heq => ?_, fun q₁ q₂ p₁ p₂ h₁ h₂ heq => ?_⟩
  · rw [tasks_addTask hnamed] at hi
    rw [seqId_addTask, seqName_addTask]
    by_cases hold : i < (h.sequence q').tasks.length
    · rw [List.getElem?_append_left hold] at hi
      have hne : p' ≠ p := fun heq => hfresh.notIn q' (heq ▸ List.mem_of_getElem? hi)
      rw [task_addTask_of_ne hne]
      exact hb.place q' i p' hi
    · -- The new place, at the end of the sequence.
      rw [List.getElem?_append_right (by omega)] at hi
      by_cases hq : q' = q
      · subst hq
        have hlength := (List.getElem?_eq_some_iff.mp hi).1
        have hi' : i = (h.sequence q').tasks.length := by
          simp at hlength
          omega
        subst hi'
        have hp' : p' = p := by simpa [eq_comm] using hi
        subst hp'
        simp [Heap.addTask, hnamed, updateTask, updateSequence]
      · simp [hq] at hi
  · rw [seqId_addTask, seqId_addTask] at heq
    obtain hq₁ | rfl := hnonempty h₁
    · obtain hq₂ | rfl := hnonempty h₂
      · exact hb.seqId_inj q₁ q₂ hq₁ hq₂ heq
      · exact hseqId q₁ hq₁ heq
    · obtain hq₂ | rfl := hnonempty h₂
      · exact (hseqId q₂ hq₂ heq.symm).symm
      · rfl
  · rw [id_addTask, id_addTask] at heq
    obtain hp₁ | ⟨rfl, -⟩ := mem_tasks_addTask h₁
    · obtain hp₂ | ⟨rfl, -⟩ := mem_tasks_addTask h₂
      · exact hb.id_inj q₁ q₂ p₁ p₂ hp₁ hp₂ heq
      · exact absurd heq (hfresh.newId q₁ p₁ hp₁)
    · obtain hp₂ | ⟨rfl, -⟩ := mem_tasks_addTask h₂
      · exact absurd heq.symm (hfresh.newId q₂ p₂ hp₂)
      · rfl

theorem WellBuilt.buildTasks {items : List (TaskPtr × Task)} (hb : h.WellBuilt)
    (hseqId : ∀ q', (h.sequence q').tasks ≠ [] → (h.sequence q').seqId = (h.sequence q).seqId →
      q' = q)
    (hfresh : ∀ item ∈ items, h.Fresh item.1 item.2.id) (hptr : (items.map Prod.fst).Nodup)
    (hids : (items.map fun item => item.2.id).Nodup) : (h.buildTasks q items).WellBuilt := by
  induction items generalizing h with
  | nil => exact hb
  | cons item rest ih =>
      obtain ⟨p, task⟩ := item
      rw [List.map_cons, List.nodup_cons] at hptr hids
      have hp : h.Fresh p task.id := hfresh _ List.mem_cons_self
      have hmade : (h.makeTask p task).task p = task := by simp [Heap.makeTask, updateTask]
      have hb' : ((h.makeTask p task).addTask q (some p)).2.WellBuilt := by
        refine (hb.makeTask hp.notIn task).addTask ?_ hseqId
        rw [hmade]
        exact hp.makeTask hp.notIn task
      refine ih hb' (fun q' hne heq => ?_) (fun item hitem => ?_) hptr.2 hids.2
      · obtain ⟨p', hp'⟩ := List.exists_mem_of_ne_nil _ hne
        rw [seqId_addTask, seqId_addTask] at heq
        obtain hold | ⟨-, hq⟩ := mem_tasks_addTask hp'
        · exact hseqId q' (List.ne_nil_of_mem hold) heq
        · exact hq
      · have hne : item.1 ≠ p := fun heq => hptr.1 (List.mem_map.mpr ⟨item, hitem, heq⟩)
        have hid : ((h.makeTask p task).task p).id ≠ item.2.id := by
          rw [hmade]
          exact fun heq => hids.1 (List.mem_map.mpr ⟨item, hitem, heq.symm⟩)
        exact ((hfresh item (List.mem_cons_of_mem _ hitem)).makeTask hp.notIn task).addTask hne hid

/-- **A sequence built from new tasks** is well built, and so are the others still. -/
theorem WellBuilt.buildSequence {items : List (TaskPtr × Task)} {seq : TaskSequence}
    (hb : h.WellBuilt) (hseq : seq.tasks = [])
    (hseqId : ∀ q', (h.sequence q').tasks ≠ [] → (h.sequence q').seqId = seq.seqId → q' = q)
    (hfresh : ∀ item ∈ items, h.Fresh item.1 item.2.id) (hptr : (items.map Prod.fst).Nodup)
    (hids : (items.map fun item => item.2.id).Nodup) :
    (h.buildSequence q seq items).WellBuilt := by
  refine (hb.makeSequence hseq q).buildTasks (fun q' hne heq => ?_)
    (fun item hitem => (hfresh item hitem).makeSequence hseq) hptr hids
  by_cases hq : q' = q
  · exact hq
  · simp only [Heap.makeSequence, updateSequence, Function.update_of_ne hq,
      Function.update_self] at hne heq
    exact hseqId q' hne heq

theorem mem_tasks_buildTasks {items : List (TaskPtr × Task)} (hq : q' ≠ q)
    (hp : p ∈ ((h.buildTasks q items).sequence q').tasks) : p ∈ (h.sequence q').tasks := by
  induction items generalizing h with
  | nil => exact hp
  | cons item rest ih =>
      obtain hold | ⟨-, heq⟩ := mem_tasks_addTask (ih hp)
      · exact hold
      · exact absurd heq hq

structure Built (h : Heap) (qs : List TaskSequencePtr) : Prop where
  wellBuilt : h.WellBuilt
  built : ∀ q p, p ∈ (h.sequence q).tasks → q ∈ qs

theorem Built.blank : Heap.blank.Built [] where
  wellBuilt := WellBuilt.blank
  built q p hp := by simp [Heap.blank, TaskSequence.create] at hp

/-- What `buildSequence` asks for is a check of the sequences that there are. -/
theorem Built.buildSequence {qs : List TaskSequencePtr} {items : List (TaskPtr × Task)}
    {seq : TaskSequence} (hb : h.Built qs) (hseq : seq.tasks = [])
    (hseqId : ∀ q' ∈ qs, (h.sequence q').seqId ≠ seq.seqId)
    (hfresh : ∀ item ∈ items, ∀ q' ∈ qs, ∀ p ∈ (h.sequence q').tasks,
      p ≠ item.1 ∧ (h.task p).id ≠ item.2.id)
    (hptr : (items.map Prod.fst).Nodup) (hids : (items.map fun item => item.2.id).Nodup) :
    (h.buildSequence q seq items).Built (q :: qs) where
  wellBuilt := by
    refine hb.wellBuilt.buildSequence hseq (fun q' hne hid => ?_) (fun item hitem => ?_) hptr hids
    · obtain ⟨p, hp⟩ := List.exists_mem_of_ne_nil _ hne
      exact absurd hid (hseqId q' (hb.built q' p hp))
    · refine ⟨fun q' hp => ?_, fun q' p hp => ?_⟩
      · exact (hfresh item hitem q' (hb.built q' _ hp) _ hp).1 rfl
      · exact (hfresh item hitem q' (hb.built q' p hp) p hp).2
  built q' p hp := by
    by_cases hq : q' = q
    · exact hq ▸ List.mem_cons_self
    · have hold := mem_tasks_buildTasks hq hp
      simp only [Heap.makeSequence, updateSequence, Function.update_of_ne hq] at hold
      exact List.mem_cons_of_mem q (hb.built q' p hold)

def oneAsynchTask : Heap :=
  Heap.blank.buildSequence 0 (TaskSequence.create Clock.origin "s-1" "pointing" false)
    [(0, (Task.create Clock.origin "t-1" "Slew" 0 false).setAsynchTask "slewStatus")]

theorem wellBuilt_oneAsynchTask : oneAsynchTask.WellBuilt :=
  WellBuilt.blank.buildSequence rfl (fun _ hne => absurd rfl hne) (fun _ _ => fresh_blank)
    (by decide) (by decide)

end Heap

end DshLmc
