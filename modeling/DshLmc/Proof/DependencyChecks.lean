import DshLmc.Proof.Dependencies
import DshLmc.Proof.SortingOrder

/-!
# What SetTaskDependency refuses

A matrix is looked at in three places: its rows are counted, the search for cycles walks its entries,
and the loop that copies the rows into the tasks checks each entry. The search comes before the check
and reads the flags of every entry it comes to. A matrix that passes the search has nothing left for
the check to refuse.
-/

namespace DshLmc

open Relation

variable {depMatrix : List (List Nat)} {n i d : Nat} {row : List Nat}

theorem lt_of_clean (hlength : depMatrix.length = n) (h : ∀ j < n, Clean depMatrix j) :
    ∀ row ∈ depMatrix, ∀ d ∈ row, d < n := by
  intro row hrow d hd
  obtain ⟨i, hi⟩ := List.mem_iff_getElem?.mp hrow
  have hin : i < n := hlength ▸ (List.getElem?_eq_some_iff.mp hi).1
  obtain ⟨hrow', -⟩ := (h i hin).of_dependsOn ⟨row, hi, hd⟩
  exact hlength ▸ (List.getElem?_eq_some_iff.mp hrow').1

theorem ne_of_clean (hlength : depMatrix.length = n) (h : ∀ j < n, Clean depMatrix j)
    (hrow : depMatrix[i]? = some row) (hd : d ∈ row) : d ≠ i := by
  rintro rfl
  have hin : d < n := hlength ▸ (List.getElem?_eq_some_iff.mp hrow).1
  exact (h d hin).not_cyclic (.single ⟨row, hrow, hd⟩)

namespace Heap

variable {h h' : Heap} {now : Clock} {q : TaskSequencePtr} {p : TaskPtr} {tasks : List TaskPtr}
  {rows : List (TaskPtr × List Nat)} {depIndexes : List (List Nat)}

theorem setDependencyRow_fst (hrow : ∀ d ∈ row, d ≠ i ∧ d < n) :
    (setDependencyRow n i p row h).1 = true := by
  induction row generalizing h with
  | nil => rfl
  | cons d rest ih =>
      obtain ⟨⟨hne, hlt⟩, hrest⟩ := List.forall_mem_cons.mp hrow
      rw [setDependencyRow, if_neg (by omega)]
      exact ih hrest

theorem setDependencyRows_fst
    (hrows : ∀ (k : Nat) p row, rows[k]? = some (p, row) → ∀ d ∈ row, d ≠ i + k ∧ d < n) :
    (setDependencyRows n i rows h).1 = true := by
  induction rows generalizing h i with
  | nil => rfl
  | cons entry rest ih =>
      obtain ⟨p, row⟩ := entry
      rw [setDependencyRows]
      split
      case h_1 =>
        refine ih fun k p row hk d hd => ?_
        obtain ⟨hne, hlt⟩ := hrows (k + 1) p row hk d hd
        exact ⟨by omega, hlt⟩
      case h_2 hfailed =>
        have hvalid : ∀ d ∈ row, d ≠ i ∧ d < n := by simpa using hrows 0 p row rfl
        have htrue := congrArg Prod.fst hfailed
        rw [setDependencyRow_fst hvalid] at htrue
        cases htrue

def DependsWithin (h : Heap) (n : Nat) (p : TaskPtr) : Prop :=
  ∀ d ∈ (h.task p).depTaskSeqIndexes, d.toNat < n

theorem dependsWithin_setDependencyRows (hrows : setDependencyRows n i rows h = (true, h'))
    (hp : p ∈ rows.map Prod.fst ∨ h.DependsWithin n p) : h'.DependsWithin n p := by
  induction rows generalizing h i with
  | nil =>
      obtain rfl : h = h' := by simpa [setDependencyRows] using hrows
      simpa using hp
  | cons entry rest ih =>
      obtain ⟨p₀, row₀⟩ := entry
      simp only [setDependencyRows] at hrows
      split at hrows
      case h_2 => simp at hrows
      case h_1 h₁ hrow =>
        obtain ⟨rfl, hvalid⟩ := setDependencyRow_spec hrow
        refine ih hrows ?_
        by_cases hne : p = p₀
        · subst hne
          refine .inr fun d hd => ?_
          simp only [updateTask, Function.update_self, List.nil_append, List.mem_map] at hd
          obtain ⟨d', hd', rfl⟩ := hd
          exact (hvalid d' hd').2
        · refine hp.imp (fun hmem => ?_) fun hwithin => ?_
          · exact (List.mem_cons.mp hmem).resolve_left hne
          · simpa [DependsWithin, updateTask, hne] using hwithin

theorem TimesOnly.dependsWithin (hs : TimesOnly h h') (hp : h.DependsWithin n p) :
    h'.DependsWithin n p := by
  rwa [DependsWithin, hs.depTaskSeqIndexes]

theorem maxExpirationTime_ok {indexes : List Int} (latest : Time)
    (hindexes : ∀ d ∈ indexes, d.toNat < tasks.length) :
    ∃ latest', h.maxExpirationTime tasks indexes latest = .ok latest' := by
  induction indexes generalizing latest with
  | nil => exact ⟨latest, rfl⟩
  | cons d rest ih =>
      obtain ⟨hd, hrest⟩ := List.forall_mem_cons.mp hindexes
      rw [maxExpirationTime, at?_eq_ok (List.getElem?_eq_getElem hd)]
      exact ih _ hrest

theorem setExpectedTimes_ok {index : Nat} (hindex : index < tasks.length)
    (hwithin : ∀ p ∈ tasks, h.DependsWithin tasks.length p) :
    ∃ h', h.setExpectedTimes now tasks index = .ok h' := by
  rw [setExpectedTimes, at?_eq_ok (List.getElem?_eq_getElem hindex)]
  simp only [bind, Except.bind, pure, Except.pure]
  split
  · exact ⟨_, rfl⟩
  · obtain ⟨latest, hlatest⟩ :=
      maxExpirationTime_ok (h := h) 0 (hwithin _ (List.getElem_mem hindex))
    rw [hlatest]
    exact ⟨_, rfl⟩

theorem setAllExpectedTimes_ok {indexes : List Nat} (hindexes : ∀ index ∈ indexes, index < tasks.length)
    (hwithin : ∀ p ∈ tasks, h.DependsWithin tasks.length p) :
    ∃ h', h.setAllExpectedTimes now tasks indexes = .ok h' := by
  induction indexes generalizing h with
  | nil => exact ⟨h, rfl⟩
  | cons index rest ih =>
      obtain ⟨hindex, hrest⟩ := List.forall_mem_cons.mp hindexes
      obtain ⟨h₁, hset⟩ := @setExpectedTimes_ok h now tasks index hindex hwithin
      rw [setAllExpectedTimes, hset]
      exact ih hrest fun p hp => (timesOnly_setExpectedTimes hset).dependsWithin (hwithin p hp)

/-- A call that goes wrong at no step: what it writes is what was there, the rows and the times. -/
theorem setTaskDependency_of_clean (hne : depIndexes ≠ [])
    (hlength : depIndexes.length = (h.sequence q).tasks.length)
    (hclean : ∀ j < (h.sequence q).tasks.length, Clean depIndexes j) :
    ∃ stack h₁ h', stack.Perm (List.range (h.sequence q).tasks.length)
      ∧ Stacked (DependsOn depIndexes) stack
      ∧ setDependencyRows (h.sequence q).tasks.length 0 ((h.sequence q).tasks.zip depIndexes)
          (h.updateSequence q fun seq => { seq with dependencyMatrix := depIndexes }) = (true, h₁)
      ∧ h₁.setAllExpectedTimes now (h.sequence q).tasks stack.reverse = .ok h'
      ∧ h.setTaskDependency now q depIndexes = .ok (0, h') := by
  have hlt := lt_of_clean hlength hclean
  obtain ⟨stack, hsort, hperm, hstacked⟩ :=
    findSortingIndexes_eq hlength hlt (not_hasCycle_of_clean hlength hclean)
  have hrows : ∀ h₀ : Heap, (setDependencyRows (h.sequence q).tasks.length 0
      ((h.sequence q).tasks.zip depIndexes) h₀).1 = true := by
    refine fun h₀ => setDependencyRows_fst fun k p row hk d hd => ?_
    have hrow := (List.getElem?_zip_eq_some.mp hk).2
    rw [Nat.zero_add]
    exact ⟨ne_of_clean hlength hclean hrow hd, hlt row (List.mem_of_getElem? hrow) d hd⟩
  cases hset : setDependencyRows (h.sequence q).tasks.length 0 ((h.sequence q).tasks.zip depIndexes)
      (h.updateSequence q fun seq => { seq with dependencyMatrix := depIndexes }) with
  | mk valid h₁ =>
      obtain rfl : valid = true := (congrArg Prod.fst hset).symm.trans (hrows _)
      have hzip : ((h.sequence q).tasks.zip depIndexes).map Prod.fst = (h.sequence q).tasks :=
        List.map_fst_zip hlength.ge
      obtain ⟨h', htimes⟩ := @setAllExpectedTimes_ok h₁ now (h.sequence q).tasks stack.reverse
        (fun index hindex => List.mem_range.mp (hperm.mem_iff.mp (List.mem_reverse.mp hindex)))
        fun p hp => dependsWithin_setDependencyRows hset (.inl (hzip.symm ▸ hp))
      refine ⟨stack, h₁, h', hperm, hstacked, rfl, htimes, ?_⟩
      have hmatch : (depIndexes.isEmpty || depIndexes.length != (h.sequence q).tasks.length) = false := by
        simp [hne, hlength]
      rw [setTaskDependency]
      simp only [hmatch, hasCyclicDependencies_of_clean hlength hclean, hset, hsort, htimes, bind,
        Except.bind, pure, Except.pure, Bool.false_eq_true, if_false]

theorem clean_of_accepted (hset : h.setTaskDependency now q depIndexes = .ok (0, h')) :
    depIndexes ≠ [] ∧ depIndexes.length = (h.sequence q).tasks.length
      ∧ ∀ j < (h.sequence q).tasks.length, Clean depIndexes j := by
  by_cases hsize : (depIndexes.isEmpty || depIndexes.length != (h.sequence q).tasks.length) = true
  · rw [setTaskDependency] at hset
    simp [hsize, pure, Except.pure] at hset
  obtain ⟨hne, hlength⟩ : depIndexes ≠ [] ∧ depIndexes.length = (h.sequence q).tasks.length := by
    simpa using hsize
  refine ⟨hne, hlength, ?_⟩
  have houtcome := hasCyclicDependencies_outcome hlength
  generalize hcheck : hasCyclicDependencies (h.sequence q).tasks.length depIndexes = result at houtcome
  cases houtcome with
  | leaves =>
      rw [setTaskDependency] at hset
      simp [hsize, hcheck, bind, Except.bind] at hset
  | loops =>
      rw [setTaskDependency] at hset
      simp [hsize, hcheck, bind, Except.bind, pure, Except.pure] at hset
  | clean hclean => exact hclean

/-- A call reads nothing outside the sequence and the matrix, and one with a bad matrix returns -1 and
writes nothing. -/
structure RejectsSafely (now : Clock) (q : TaskSequencePtr) (depIndexes : List (List Nat))
    (h : Heap) : Prop where
  noFault : ∀ fault, h.setTaskDependency now q depIndexes ≠ .error fault
  rejects : depIndexes.length ≠ (h.sequence q).tasks.length
      ∨ (∃ row ∈ depIndexes, ∃ d ∈ row, (h.sequence q).tasks.length ≤ d) ∨ HasCycle depIndexes →
    h.setTaskDependency now q depIndexes = .ok (-1, h)

theorem rejectsSafely_of_refused (hrefused : h.setTaskDependency now q depIndexes = .ok (-1, h)) :
    h.RejectsSafely now q depIndexes where
  noFault fault := by
    rw [hrefused]
    simp
  rejects _ := hrefused

/-- The search for cycles comes back from the first tasks, and then leaves the matrix. -/
def SearchLeaves (depMatrix : List (List Nat)) (n : Nat) : Prop :=
  ∃ k < n, (∀ j < k, Clean depMatrix j) ∧ LeavesFirst depMatrix k

theorem setTaskDependency_of_length_ne
    (hlength : depIndexes.length ≠ (h.sequence q).tasks.length) :
    h.setTaskDependency now q depIndexes = .ok (-1, h) := by
  have hsize : (depIndexes.isEmpty || depIndexes.length != (h.sequence q).tasks.length) = true := by
    simp [hlength]
  rw [setTaskDependency]
  simp only [hsize, if_true, bind, Except.bind, pure, Except.pure]

/-- **When a bad matrix is refused safely**: the search for cycles does not leave it. -/
theorem rejectsSafely_iff (now : Clock) (q : TaskSequencePtr) (depIndexes : List (List Nat))
    (h : Heap) :
    h.RejectsSafely now q depIndexes
      ↔ depIndexes.length = (h.sequence q).tasks.length →
        ¬ SearchLeaves depIndexes (h.sequence q).tasks.length := by
  by_cases hlength : depIndexes.length = (h.sequence q).tasks.length
  case neg =>
    have hrefused := @setTaskDependency_of_length_ne h now q depIndexes hlength
    exact iff_of_true (rejectsSafely_of_refused hrefused) fun heq => absurd heq hlength
  case pos =>
  rw [imp_iff_right hlength]
  by_cases hne : depIndexes = []
  · have hn : (h.sequence q).tasks.length = 0 := by rw [← hlength, hne, List.length_nil]
    have hrefused : h.setTaskDependency now q depIndexes = .ok (-1, h) := by
      rw [setTaskDependency, hne]
      rfl
    refine iff_of_true (rejectsSafely_of_refused hrefused) ?_
    rintro ⟨k, hk, -⟩
    omega
  have hsize : (depIndexes.isEmpty || depIndexes.length != (h.sequence q).tasks.length) = false := by
    simp [hne, hlength]
  have houtcome := hasCyclicDependencies_outcome hlength
  generalize hcheck : hasCyclicDependencies (h.sequence q).tasks.length depIndexes = result at houtcome
  cases houtcome with
  | leaves hk hbefore hleaves =>
      have hfault : h.setTaskDependency now q depIndexes = .error .outOfRange := by
        rw [setTaskDependency]
        simp [hsize, hcheck, bind, Except.bind]
      exact iff_of_false (fun hsafe => hsafe.noFault _ hfault) fun hnot =>
        hnot ⟨_, hk, hbefore, hleaves⟩
  | @loops k hk hbefore hloops =>
      have hrefused : h.setTaskDependency now q depIndexes = .ok (-1, h) := by
        rw [setTaskDependency]
        simp [hsize, hcheck, bind, Except.bind, pure, Except.pure]
      refine iff_of_true (rejectsSafely_of_refused hrefused) ?_
      rintro ⟨k', hk', hbefore', hleaves⟩
      -- The first task from which the search does not come back closes a cycle.
      obtain hlt | rfl | hgt := lt_trichotomy k' k
      · exact hleaves.not_clean (hbefore k' hlt)
      · exact hleaves.not_loops hloops
      · exact (hbefore' k hgt).not_loops hloops
  | clean hclean =>
      obtain ⟨stack, h₁, h', -, -, -, -, haccepted⟩ :=
        @setTaskDependency_of_clean h now q depIndexes hne hlength hclean
      refine iff_of_true ⟨fun fault => ?_, ?_⟩ ?_
      · rw [haccepted]
        simp
      · rintro (hbad | ⟨row, hrow, d, hd, hout⟩ | hcycle)
        · exact absurd hlength hbad
        · exact absurd (lt_of_clean hlength hclean row hrow d hd) (not_lt.mpr hout)
        · exact absurd hcycle (not_hasCycle_of_clean hlength hclean)
      · rintro ⟨k, hk, -, hleaves⟩
        exact hleaves.not_clean (hclean k hk)

/-- A sequence of one task, which is to depend on a second one. -/
theorem not_rejectsSafely_second : ¬ oneAsynchTask.RejectsSafely Clock.origin 0 [[1]] := by
  intro h
  exact h.noFault .outOfRange rfl

end Heap

end DshLmc
