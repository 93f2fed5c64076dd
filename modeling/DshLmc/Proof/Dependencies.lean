import DshLmc.Proof.Building

/-!
# What SetTaskDependency leaves in the tasks

An accepted matrix ends up in the tasks themselves: each task gets a copy of its row, and a task
with a row that is not empty knows that it depends on others. The expected times computed
afterwards are the only other thing that changes.
-/

namespace DshLmc

/-- Everything in a task but its expected and expiration times. -/
def Task.timeless (t : Task) : Task :=
  { t with
    expMaxActivationTime := 0
    expMaxExpirationTime := 0
    expirationTime := 0
    hasExpirationTime := false
    expirationTimeout := none }

theorem Task.timeless_setExpirationTime (now : Clock) (tStop : Time) (t : Task) :
    (t.setExpirationTime now tStop).2.timeless = t.timeless := by
  unfold setExpirationTime
  split
  · rfl
  · split <;> rfl

namespace Heap

variable {h h' : Heap} {p : TaskPtr} {q : TaskSequencePtr} {n i : Nat} {row : List Nat}
  {rows : List (TaskPtr × List Nat)} {now : Clock} {tasks : List TaskPtr}

theorem setDependencyRow_spec (hrow : setDependencyRow n i p row h = (true, h')) :
    h' = h.updateTask p (fun t =>
        { t with depTaskSeqIndexes := t.depTaskSeqIndexes ++ row.map Int.ofNat })
      ∧ ∀ d ∈ row, d ≠ i ∧ d < n := by
  induction row generalizing h with
  | nil =>
      obtain rfl : h = h' := by simpa [setDependencyRow] using hrow
      simp [updateTask]
  | cons d rest ih =>
      simp only [setDependencyRow] at hrow
      split at hrow
      · simp at hrow
      · rename_i hvalid
        push Not at hvalid
        obtain ⟨rfl, hrest⟩ := ih hrow
        refine ⟨by simp [updateTask], fun d' hd' => ?_⟩
        obtain rfl | hd' := List.mem_cons.mp hd'
        · exact hvalid
        · exact hrest d' hd'

/-- **The rows** end up in their tasks, if no task occurs twice. -/
theorem setDependencyRows_spec (hnodup : (rows.map Prod.fst).Nodup)
    (hrows : setDependencyRows n i rows h = (true, h')) :
    h'.sequence = h.sequence ∧ (∀ p, p ∉ rows.map Prod.fst → h'.task p = h.task p)
      ∧ ∀ (k : Nat) p row, rows[k]? = some (p, row) →
        h'.task p = { h.task p with
            dependOnSequenceTasks := if row.isEmpty then (h.task p).dependOnSequenceTasks else true
            depTaskSeqIndexes := row.map Int.ofNat }
          ∧ ∀ d ∈ row, d ≠ i + k ∧ d < n := by
  induction rows generalizing h i with
  | nil =>
      obtain rfl : h = h' := by simpa [setDependencyRows] using hrows
      simp
  | cons entry rest ih =>
      obtain ⟨p₀, row₀⟩ := entry
      rw [List.map_cons, List.nodup_cons] at hnodup
      simp only [setDependencyRows] at hrows
      split at hrows
      · rename_i h₁ hrow
        obtain ⟨rfl, hvalid⟩ := setDependencyRow_spec hrow
        obtain ⟨hsequence, hothers, hrest⟩ := ih hnodup.2 hrows
        have hother : ∀ p, p ≠ p₀ → p ∉ rest.map Prod.fst → h'.task p = h.task p := by
          intro p hne hp
          rw [hothers p hp]
          simp [updateTask, hne]
        refine ⟨hsequence, fun p hp => ?_, fun k p row hk => ?_⟩
        · simp only [List.map_cons, List.mem_cons, not_or] at hp
          exact hother p hp.1 hp.2
        · cases k with
          | zero =>
              simp only [List.getElem?_cons_zero, Option.some.injEq, Prod.mk.injEq] at hk
              obtain ⟨rfl, rfl⟩ := hk
              rw [hothers p₀ hnodup.1]
              exact ⟨by simp [updateTask], hvalid⟩
          | succ k =>
              rw [List.getElem?_cons_succ] at hk
              have hne : p ≠ p₀ := by
                rintro rfl
                exact hnodup.1 (List.mem_map.mpr ⟨_, List.mem_of_getElem? hk, rfl⟩)
              obtain ⟨heq, hentries⟩ := hrest k p row hk
              rw [heq]
              refine ⟨by simp [updateTask, hne], fun d hd => ?_⟩
              obtain ⟨hd₁, hd₂⟩ := hentries d hd
              exact ⟨by omega, hd₂⟩
      · simp at hrows

/-- The expected times change nothing else. -/
structure TimesOnly (h h' : Heap) : Prop where
  sequence : h'.sequence = h.sequence
  task : ∀ p, (h'.task p).timeless = (h.task p).timeless

theorem TimesOnly.dependOnSequenceTasks (hs : TimesOnly h h') (p : TaskPtr) :
    (h'.task p).dependOnSequenceTasks = (h.task p).dependOnSequenceTasks := by
  have heq := congrArg Task.dependOnSequenceTasks (hs.task p)
  exact heq

theorem TimesOnly.depTaskSeqIndexes (hs : TimesOnly h h') (p : TaskPtr) :
    (h'.task p).depTaskSeqIndexes = (h.task p).depTaskSeqIndexes := by
  have heq := congrArg Task.depTaskSeqIndexes (hs.task p)
  exact heq

theorem timesOnly_setExpectedTimes {index : Nat}
    (hset : h.setExpectedTimes now tasks index = .ok h') : TimesOnly h h' := by
  unfold setExpectedTimes at hset
  simp only [bind, Except.bind, pure, Except.pure] at hset
  split at hset
  · simp at hset
  rename_i p hp
  split at hset
  · obtain rfl : h = h' := by simpa using hset
    exact ⟨rfl, fun _ => rfl⟩
  split at hset
  · simp at hset
  simp only [Except.ok.injEq] at hset
  subst hset
  refine ⟨rfl, fun p' => ?_⟩
  by_cases hp' : p' = p
  · subst hp'
    simp only [updateTask, Function.update_self, Task.timeless_setExpirationTime]
    rfl
  · simp [updateTask, hp']

theorem timesOnly_setAllExpectedTimes {indexes : List Nat}
    (hset : setAllExpectedTimes now tasks indexes h = .ok h') : TimesOnly h h' := by
  induction indexes generalizing h with
  | nil =>
      obtain rfl : h = h' := by simpa [setAllExpectedTimes] using hset
      exact ⟨rfl, fun _ => rfl⟩
  | cons index rest ih =>
      simp only [setAllExpectedTimes, bind, Except.bind] at hset
      split at hset
      · simp at hset
      · rename_i h₁ hfirst
        have hone := timesOnly_setExpectedTimes hfirst
        have hrest := ih hset
        exact ⟨hrest.sequence.trans hone.sequence, fun p => (hrest.task p).trans (hone.task p)⟩

/-- **An accepted matrix** fits the sequence, its rows are in the tasks, and its entries point to
other tasks of the sequence. -/
theorem setTaskDependency_spec {depIndexes : List (List Nat)}
    (hnodup : (h.sequence q).tasks.Nodup)
    (hset : h.setTaskDependency now q depIndexes = .ok (0, h')) :
    depIndexes.length = (h.sequence q).tasks.length
      ∧ h'.sequence = Function.update h.sequence q
        { h.sequence q with dependencyMatrix := depIndexes }
      ∧ (∀ p, p ∉ (h.sequence q).tasks → (h'.task p).timeless = (h.task p).timeless)
      ∧ ∀ (i : Nat) p row, (h.sequence q).tasks[i]? = some p → depIndexes[i]? = some row →
        (h'.task p).timeless = { (h.task p).timeless with
            dependOnSequenceTasks := if row.isEmpty then (h.task p).dependOnSequenceTasks else true
            depTaskSeqIndexes := row.map Int.ofNat }
          ∧ ∀ d ∈ row, d ≠ i ∧ d < (h.sequence q).tasks.length := by
  unfold setTaskDependency at hset
  simp only [bind, Except.bind, pure, Except.pure] at hset
  split at hset
  · simp at hset
  rename_i hlength
  have hlength' : depIndexes.length = (h.sequence q).tasks.length := by
    simp only [Bool.or_eq_true, bne_iff_ne, ne_eq, not_or, not_not] at hlength
    exact hlength.2
  split at hset
  · simp at hset
  split at hset
  · simp at hset
  split at hset
  · simp at hset
  rename_i h₁ hrows
  split at hset
  · simp at hset
  split at hset
  · simp at hset
  rename_i h₂ htimes
  obtain rfl : h₂ = h' := by simpa using hset
  have hzip : ((h.sequence q).tasks.zip depIndexes).map Prod.fst = (h.sequence q).tasks :=
    List.map_fst_zip (by omega)
  obtain ⟨hsequence, hothers, hrow⟩ := setDependencyRows_spec (by rwa [hzip]) hrows
  have hframe := timesOnly_setAllExpectedTimes htimes
  refine ⟨hlength', ?_, fun p hp => ?_, fun i p row hi hrow' => ?_⟩
  · rw [hframe.sequence, hsequence]
    rfl
  · rw [hframe.task, hothers p (by rwa [hzip])]
    rfl
  · obtain ⟨heq, hentries⟩ := hrow i p row (by
      rw [List.getElem?_zip_eq_some]
      exact ⟨hi, hrow'⟩)
    rw [hframe.task, heq]
    exact ⟨rfl, by simpa using hentries⟩

theorem samePlaces_setTaskDependency {depIndexes : List (List Nat)}
    (hnodup : (h.sequence q).tasks.Nodup)
    (hset : h.setTaskDependency now q depIndexes = .ok (0, h')) : SamePlaces h h' := by
  obtain ⟨hlength, hsequence, hothers, hrows⟩ := setTaskDependency_spec hnodup hset
  have hseq : ∀ q', (h'.sequence q').tasks = (h.sequence q').tasks
      ∧ (h'.sequence q').seqId = (h.sequence q').seqId
      ∧ (h'.sequence q').seqName = (h.sequence q').seqName := by
    intro q'
    rw [hsequence]
    by_cases hq : q' = q
    · subst hq
      simp
    · simp [hq]
  refine ⟨fun q' => (hseq q').1, fun q' => (hseq q').2.1, fun q' => (hseq q').2.2, fun p => ?_⟩
  by_cases hp : p ∈ (h.sequence q).tasks
  · obtain ⟨i, hi⟩ := List.mem_iff_getElem?.mp hp
    obtain ⟨row, hrow⟩ : ∃ row, depIndexes[i]? = some row :=
      ⟨_, List.getElem?_eq_getElem (hlength ▸ (List.getElem?_eq_some_iff.mp hi).1)⟩
    have hplace := congrArg Task.place (hrows i p row hi hrow).1
    exact hplace
  · exact (congrArg Task.place (hothers p hp) :
      (h'.task p).timeless.place = (h.task p).timeless.place)

theorem WellBuilt.setTaskDependency {depIndexes : List (List Nat)} (hb : h.WellBuilt)
    (hset : h.setTaskDependency now q depIndexes = .ok (0, h')) : h'.WellBuilt :=
  hb.of_samePlaces (samePlaces_setTaskDependency (hb.nodup q) hset)

theorem Built.setTaskDependency {qs : List TaskSequencePtr} {depIndexes : List (List Nat)}
    (hb : h.Built qs) (hset : h.setTaskDependency now q depIndexes = .ok (0, h')) :
    h'.Built qs where
  wellBuilt := hb.wellBuilt.setTaskDependency hset
  built q' p hp := by
    rw [(samePlaces_setTaskDependency (hb.wellBuilt.nodup q) hset).tasks] at hp
    exact hb.built q' p hp

def withDependency (now : Clock) (q : TaskSequencePtr) (depIndexes : List (List Nat))
    (h : Heap) : Heap :=
  match h.setTaskDependency now q depIndexes with
  | .ok (_, h) => h
  | .error _ => h

def twoTasks : Heap :=
  Heap.blank.buildSequence 0 (TaskSequence.create Clock.origin "s-1" "pointing" false)
    [(0, Task.create Clock.origin "t-1" "Slew" 0 false),
      (1, Task.create Clock.origin "t-2" "Track" 0 false)]

theorem wellBuilt_twoTasks : twoTasks.WellBuilt :=
  WellBuilt.blank.buildSequence rfl (fun _ hne => absurd rfl hne) (fun _ _ => fresh_blank)
    (by decide) (by decide)

end Heap

end DshLmc
