import Mathlib.Order.Bounds.Basic
import DshLmc.Proof.DependencyChecks
import DshLmc.Proof.TaskTimes

/-!
# The expected times of dependent tasks

An accepted matrix gives a task the earliest start that comes after the worst-case end of everything
it depends on. The loop over the tasks reads these ends from fields that it has written itself, so
the result rests on its order: a task is looked at when everything in its row has its times already.
-/

namespace DshLmc

open Relation

/-- When a task is over at the latest. -/
def Task.worstEnd (t : Task) : Time :=
  if t.dependOnSequenceTasks then t.expMaxExpirationTime else t.expirationTime

/-- What the expected times of a task start from: its activation time and its duration. -/
def Task.ownTimes (t : Task) : Bool × Time × Int :=
  (t.hasActivationTime, t.activationTime, t.maxDuration)

namespace Heap

variable {h h' : Heap} {now : Clock} {q : TaskSequencePtr} {p : TaskPtr} {tasks : List TaskPtr}
  {depIndexes : List (List Nat)} {index : Nat} {stack : List Nat} {E : Nat → Nat → Prop} {t : Task}

/-- What a task cannot start before: the Unix origin, its own activation time, the ends of the tasks
it depends on. -/
def startBounds (h : Heap) (tasks : List TaskPtr) (t : Task) : Set Time :=
  {a | a = 0 ∨ (t.hasActivationTime = true ∧ a = t.activationTime)
    ∨ ∃ d ∈ t.depTaskSeqIndexes, ∃ p, tasks[d.toNat]? = some p ∧ a = (h.task p).worstEnd}

/-- The expected times of a task are the ones that the tasks it depends on leave it. -/
structure Expected (h : Heap) (tasks : List TaskPtr) (t : Task) : Prop where
  activation : IsGreatest (h.startBounds tasks t) t.expMaxActivationTime
  expiration : t.expMaxExpirationTime = t.expMaxActivationTime.addMSec t.maxDuration

theorem Expected.congr (h₁ : h.Expected tasks t)
    (hends : ∀ d ∈ t.depTaskSeqIndexes, ∀ p, tasks[d.toNat]? = some p → h'.task p = h.task p) :
    h'.Expected tasks t := by
  have hbounds : h'.startBounds tasks t = h.startBounds tasks t := by
    ext a
    refine or_congr_right (or_congr_right (exists_congr fun d => and_congr_right fun hd => ?_))
    exact exists_congr fun p => and_congr_right fun hp => by rw [hends d hd p hp]
  exact ⟨hbounds ▸ h₁.activation, h₁.expiration⟩

theorem at?_eq_ok_iff {α : Type} {l : List α} {i : Nat} {a : α} :
    at? l i = .ok a ↔ l[i]? = some a := by
  rw [at?]
  split <;> simp_all

theorem maxExpirationTime_spec {indexes : List Int} {latest latest' : Time}
    (hmax : h.maxExpirationTime tasks indexes latest = .ok latest') :
    IsGreatest {a | a = latest
      ∨ ∃ d ∈ indexes, ∃ p, tasks[d.toNat]? = some p ∧ a = (h.task p).worstEnd} latest' := by
  induction indexes generalizing latest with
  | nil =>
      obtain rfl : latest = latest' := by simpa [maxExpirationTime] using hmax
      exact ⟨.inl rfl, by rintro a (rfl | ⟨d, hd, -⟩) <;> simp_all⟩
  | cons d rest ih =>
      rw [maxExpirationTime] at hmax
      simp only [bind, Except.bind] at hmax
      split at hmax
      case h_1 => simp at hmax
      case h_2 p hp =>
        rw [at?_eq_ok_iff] at hp
        obtain ⟨hmem, hle⟩ := ih hmax
        have hlater : (if (h.task p).worstEnd > latest then (h.task p).worstEnd else latest)
            = max latest (h.task p).worstEnd := by
          split
          case isTrue hlt => exact (max_eq_right hlt.le).symm
          case isFalse hge => exact (max_eq_left (not_lt.mp hge)).symm
        obtain ⟨hmem, hle⟩ := ih hmax
        have hbound : max latest (h.task p).worstEnd ≤ latest' := hlater ▸ hle (.inl rfl)
        constructor
        · obtain heq | ⟨d', hd', p', hp', heq⟩ := hmem
          · obtain hmax | hmax := max_choice latest (h.task p).worstEnd
            · exact .inl (heq.trans (hlater.trans hmax))
            · exact .inr ⟨d, List.mem_cons_self, p, hp, heq.trans (hlater.trans hmax)⟩
          · exact .inr ⟨d', List.mem_cons_of_mem _ hd', p', hp', heq⟩
        · rintro a (rfl | ⟨d', hd', p', hp', rfl⟩)
          · exact (le_max_left _ _).trans hbound
          · obtain rfl | hd' := List.mem_cons.mp hd'
            · obtain rfl := Option.some.inj (hp.symm.trans hp')
              exact (le_max_right _ _).trans hbound
            · exact hle (.inr ⟨d', hd', p', hp', rfl⟩)

theorem Expected.setExpirationTime (ht : h.Expected tasks t) (tStop : Time) :
    h.Expected tasks (t.setExpirationTime now tStop).2 := by
  rw [Task.setExpirationTime_eq]
  split
  · exact ht
  · exact ⟨ht.activation, ht.expiration⟩

theorem isGreatest_startBounds {latest : Time}
    (hmax : IsGreatest {a | a = 0
      ∨ ∃ d ∈ t.depTaskSeqIndexes, ∃ p, tasks[d.toNat]? = some p ∧ a = (h.task p).worstEnd} latest) :
    IsGreatest (h.startBounds tasks t)
      (if t.hasActivationTime && decide (latest < t.activationTime) then t.activationTime
        else latest) := by
  obtain ⟨hmem, hle⟩ := hmax
  split
  case isTrue hlater =>
    obtain ⟨hactive, hlt⟩ : t.hasActivationTime = true ∧ latest < t.activationTime := by
      simpa using hlater
    refine ⟨.inr (.inl ⟨hactive, rfl⟩), ?_⟩
    rintro a (rfl | ⟨-, rfl⟩ | hend)
    · exact (hle (.inl rfl)).trans hlt.le
    · exact le_rfl
    · exact (hle (.inr hend)).trans hlt.le
  case isFalse hearlier =>
    refine ⟨hmem.imp_right .inr, ?_⟩
    rintro a (rfl | ⟨hactive, rfl⟩ | hend)
    · exact hle (.inl rfl)
    · simp only [hactive, Bool.true_and, decide_eq_true_eq, not_lt] at hearlier
      exact hearlier
    · exact hle (.inr hend)

/-- What a step writes: the expected times of one task, and only when it depends on others. -/
theorem setExpectedTimes_spec (hset : h.setExpectedTimes now tasks index = .ok h')
    (hp : tasks[index]? = some p) :
    (∀ p', p' ≠ p → h'.task p' = h.task p')
      ∧ ((h.task p).dependOnSequenceTasks = false → h' = h)
      ∧ ((h.task p).dependOnSequenceTasks = true → h.Expected tasks (h'.task p)) := by
  rw [setExpectedTimes, at?_eq_ok hp] at hset
  simp only [bind, Except.bind, pure, Except.pure] at hset
  cases hdepends : (h.task p).dependOnSequenceTasks with
  | false =>
      obtain rfl : h = h' := by simpa [hdepends] using hset
      exact ⟨fun _ _ => rfl, fun _ => rfl, fun htrue => absurd htrue (by decide)⟩
  | true =>
      rw [hdepends] at hset
      simp only [Bool.not_true, Bool.false_eq_true, if_false] at hset
      split at hset
      case h_1 => simp at hset
      case h_2 latest hlatest =>
        have hmax := maxExpirationTime_spec hlatest
        obtain rfl := Except.ok.inj hset
        refine ⟨fun p' hne => by simp [updateTask, hne], by simp, fun _ => ?_⟩
        have hself : ∀ change, (h.updateTask p change).task p = change (h.task p) :=
          fun _ => Function.update_self ..
        rw [hself]
        exact Expected.setExpirationTime ⟨isGreatest_startBounds hmax, rfl⟩ _

theorem setAllExpectedTimes_append {first second : List Nat} :
    h.setAllExpectedTimes now tasks (first ++ second)
      = (h.setAllExpectedTimes now tasks first).bind fun h => h.setAllExpectedTimes now tasks second := by
  induction first generalizing h with
  | nil => rfl
  | cons index first ih =>
      rw [List.cons_append, setAllExpectedTimes, setAllExpectedTimes]
      simp only [bind, Except.bind]
      cases h.setExpectedTimes now tasks index with
      | error fault => rfl
      | ok h₁ => exact ih

/-- What the loop leaves: a task that depends on others has the times that the others leave it, and
every other task is as it was. -/
structure AllExpected (h h' : Heap) (tasks : List TaskPtr) (stack : List Nat) : Prop where
  times : TimesOnly h h'
  independent : ∀ p, (h.task p).dependOnSequenceTasks = false → h'.task p = h.task p
  outside : ∀ p, (∀ i ∈ stack, tasks[i]? ≠ some p) → h'.task p = h.task p
  expected : ∀ i ∈ stack, ∀ p, tasks[i]? = some p → (h.task p).dependOnSequenceTasks = true →
    h'.Expected tasks (h'.task p)

/-- **The loop over the tasks**, along a stack whose tasks depend on those below them. -/
theorem allExpected_of_stacked (htasks : tasks.Nodup) (hstacked : Stacked E stack)
    (hstack : stack.Nodup)
    (hedges : ∀ (i : Nat) p, tasks[i]? = some p → ∀ d ∈ (h.task p).depTaskSeqIndexes, E i d.toNat)
    (hset : h.setAllExpectedTimes now tasks stack.reverse = .ok h') :
    AllExpected h h' tasks stack := by
  induction hstacked generalizing h' with
  | nil =>
      obtain rfl : h = h' := by simpa [setAllExpectedTimes] using hset
      exact ⟨⟨rfl, fun _ => rfl⟩, fun _ _ => rfl, fun _ _ => rfl, by simp⟩
  | @push index rest hbelow hrest ih =>
      obtain ⟨hindex, hnodup⟩ := List.nodup_cons.mp hstack
      rw [List.reverse_cons, setAllExpectedTimes_append] at hset
      cases hfirst : h.setAllExpectedTimes now tasks rest.reverse with
      | error fault => simp [hfirst, Except.bind] at hset
      | ok h₁ =>
      have hbefore := ih hnodup hfirst
      have hlast : h₁.setExpectedTimes now tasks index = .ok h' := by
        rw [hfirst] at hset
        change h₁.setAllExpectedTimes now tasks [index] = .ok h' at hset
        cases hstep : h₁.setExpectedTimes now tasks index with
        | error fault => simp [setAllExpectedTimes, hstep, bind, Except.bind] at hset
        | ok h₂ => simpa [setAllExpectedTimes, hstep, bind, Except.bind] using hset
      obtain ⟨p, hp⟩ : ∃ p, tasks[index]? = some p := by
        rw [setExpectedTimes] at hlast
        cases hread : at? tasks index with
        | error fault => simp [hread, bind, Except.bind] at hlast
        | ok p => exact ⟨p, at?_eq_ok_iff.mp hread⟩
      obtain ⟨hothers, hindependent, hexpected⟩ := setExpectedTimes_spec hlast hp
      have htimes := timesOnly_setExpectedTimes hlast
      -- The task written last is none of those below it.
      have hbelow' : ∀ i ∈ rest, ∀ p', tasks[i]? = some p' → h'.task p' = h₁.task p' := by
        intro i hi p' hp'
        refine hothers p' fun heq => hindex ?_
        have hindices := (List.getElem?_inj (List.getElem?_eq_some_iff.mp hp).1 htasks).mp
          (hp.trans (heq ▸ hp').symm)
        exact hindices ▸ hi
      refine ⟨⟨htimes.sequence.trans hbefore.times.sequence, fun p' =>
        (htimes.task p').trans (hbefore.times.task p')⟩, fun p' hfree => ?_, fun p' hnone => ?_, ?_⟩
      · have hfree' : (h₁.task p').dependOnSequenceTasks = false := by
          rw [hbefore.times.dependOnSequenceTasks, hfree]
        by_cases hne : p' = p
        · subst hne
          rw [hindependent hfree']
          exact hbefore.independent p' hfree
        · rw [hothers p' hne]
          exact hbefore.independent p' hfree
      · have hne : p' ≠ p := by
          rintro rfl
          exact hnone index List.mem_cons_self hp
        rw [hothers p' hne]
        exact hbefore.outside p' fun i hi => hnone i (List.mem_cons_of_mem _ hi)
      · have hdeps : ∀ (i : Nat) p', tasks[i]? = some p' → i ∈ index :: rest →
            ∀ d ∈ (h'.task p').depTaskSeqIndexes, d.toNat ∈ rest := by
          intro i p' hp' hi d hd
          rw [htimes.depTaskSeqIndexes, hbefore.times.depTaskSeqIndexes] at hd
          have hedge := hedges i p' hp' d hd
          obtain rfl | hi := List.mem_cons.mp hi
          · exact hbelow _ hedge
          · exact hrest.closed hi hedge
        intro i hi p' hp' hdepends
        have hends := fun d hd => hbelow' _ (hdeps i p' hp' hi d hd)
        obtain rfl | hmem := List.mem_cons.mp hi
        · obtain rfl := Option.some.inj (hp.symm.trans hp')
          refine (hexpected ?_).congr hends
          rw [hbefore.times.dependOnSequenceTasks, hdepends]
        · rw [hbelow' i hmem p' hp'] at hends ⊢
          exact (hbefore.expected i hmem p' hp' hdepends).congr hends

/-- **What an accepted call does**: it copies the rows, and then computes the times in an order in
which a task comes after those in its row. -/
theorem allExpected_of_accepted (hnodup : (h.sequence q).tasks.Nodup)
    (hset : h.setTaskDependency now q depIndexes = .ok (0, h')) :
    ∃ h₁ stack, stack.Perm (List.range (h.sequence q).tasks.length)
      ∧ Stacked (DependsOn depIndexes) stack ∧ AllExpected h₁ h' (h.sequence q).tasks stack
      ∧ ∀ (i : Nat) p row, (h.sequence q).tasks[i]? = some p → depIndexes[i]? = some row →
        h₁.task p = { h.task p with
          dependOnSequenceTasks := if row.isEmpty then (h.task p).dependOnSequenceTasks else true
          depTaskSeqIndexes := row.map Int.ofNat } := by
  obtain ⟨hne, hlength, hclean⟩ := clean_of_accepted hset
  obtain ⟨stack, h₁, h'', hperm, hstacked, hrows, htimes, hset'⟩ :=
    @setTaskDependency_of_clean h now q depIndexes hne hlength hclean
  obtain rfl : h'' = h' := by
    rw [hset] at hset'
    exact (congrArg Prod.snd (Except.ok.inj hset')).symm
  have hzip : ((h.sequence q).tasks.zip depIndexes).map Prod.fst = (h.sequence q).tasks :=
    List.map_fst_zip hlength.ge
  obtain ⟨-, -, hrow⟩ := setDependencyRows_spec (by rwa [hzip]) hrows
  have htask : ∀ (i : Nat) p row, (h.sequence q).tasks[i]? = some p → depIndexes[i]? = some row →
      h₁.task p = { h.task p with
        dependOnSequenceTasks := if row.isEmpty then (h.task p).dependOnSequenceTasks else true
        depTaskSeqIndexes := row.map Int.ofNat } := fun i p row hp hi =>
    (hrow i p row (List.getElem?_zip_eq_some.mpr ⟨hp, hi⟩)).1
  refine ⟨h₁, stack, hperm, hstacked, ?_, htask⟩
  refine allExpected_of_stacked hnodup hstacked (hperm.nodup_iff.mpr List.nodup_range) ?_ htimes
  intro i p hp d hd
  obtain ⟨row, hi⟩ : ∃ row, depIndexes[i]? = some row :=
    ⟨_, List.getElem?_eq_getElem (hlength ▸ (List.getElem?_eq_some_iff.mp hp).1)⟩
  rw [htask i p row hp hi] at hd
  obtain ⟨d', hd', rfl⟩ := List.mem_map.mp hd
  exact ⟨row, hi, hd'⟩

/-- What an accepted call leaves in a task, given the row of the task. -/
structure AcceptedTask (h h' : Heap) (tasks : List TaskPtr) (row : List Nat) (p : TaskPtr) :
    Prop where
  depends : (h'.task p).dependOnSequenceTasks
    = ((h.task p).dependOnSequenceTasks || !row.isEmpty)
  indexes : (h'.task p).depTaskSeqIndexes = row.map Int.ofNat
  own : (h'.task p).ownTimes = (h.task p).ownTimes
  free : (h'.task p).dependOnSequenceTasks = false →
    (h'.task p).expirationTime = (h.task p).expirationTime
      ∧ (h'.task p).expMaxActivationTime = (h.task p).expMaxActivationTime
      ∧ (h'.task p).expMaxExpirationTime = (h.task p).expMaxExpirationTime
  expected : (h'.task p).dependOnSequenceTasks = true → h'.Expected tasks (h'.task p)

theorem acceptedTask_of_accepted (hnodup : (h.sequence q).tasks.Nodup)
    (hset : h.setTaskDependency now q depIndexes = .ok (0, h')) {i : Nat} {row : List Nat}
    (hp : (h.sequence q).tasks[i]? = some p) (hi : depIndexes[i]? = some row) :
    AcceptedTask h h' (h.sequence q).tasks row p := by
  obtain ⟨h₁, stack, hperm, -, hall, htask⟩ := allExpected_of_accepted hnodup hset
  have hrow := htask i p row hp hi
  have hmem : i ∈ stack := by
    rw [hperm.mem_iff, List.mem_range]
    exact (List.getElem?_eq_some_iff.mp hp).1
  refine ⟨?_, ?_, ?_, fun hfree => ?_, fun hdepends => hall.expected i hmem p hp ?_⟩
  · rw [hall.times.dependOnSequenceTasks, hrow]
    cases row <;> simp
  · rw [hall.times.depTaskSeqIndexes, hrow]
  · have heq := congrArg Task.ownTimes (hall.times.task p)
    rw [hrow] at heq
    exact heq
  · rw [hall.independent p (hall.times.dependOnSequenceTasks p ▸ hfree), hrow]
    exact ⟨rfl, rfl, rfl⟩
  · rw [← hall.times.dependOnSequenceTasks, hdepends]

/-! ### Longest paths -/

/-- The worst-case end of the task at an index. -/
def WorstCaseEnd (h : Heap) (tasks : List TaskPtr) (depMatrix : List (List Nat)) (d : Nat)
    (e : Time) : Prop :=
  ∃ p row, tasks[d]? = some p ∧ depMatrix[d]? = some row
    ∧ e = if row = [] then (h.task p).expirationTime else (h.task p).expMaxExpirationTime

/-- The expected times are those of the longest paths through the matrix. A start comes after what is
in `origin` as well. -/
structure LongestPaths (origin : Set Time) (h : Heap) (tasks : List TaskPtr)
    (depMatrix : List (List Nat)) : Prop where
  activation : ∀ (i : Nat) p row, tasks[i]? = some p → depMatrix[i]? = some row → row ≠ [] →
    IsGreatest {a | a ∈ origin
      ∨ ((h.task p).hasActivationTime = true ∧ a = (h.task p).activationTime)
      ∨ ∃ d ∈ row, h.WorstCaseEnd tasks depMatrix d a} (h.task p).expMaxActivationTime
  expiration : ∀ (i : Nat) p row, tasks[i]? = some p → depMatrix[i]? = some row → row ≠ [] →
    (h.task p).expMaxExpirationTime
      = (h.task p).expMaxActivationTime.addMSec (h.task p).maxDuration
  path : ∀ (i d : Nat) p e, TransGen (DependsOn depMatrix) i d → tasks[i]? = some p →
    h.WorstCaseEnd tasks depMatrix d e → e ≤ (h.task p).expMaxActivationTime

theorem le_addMSec {instant : Time} {duration : Int} (h : 0 ≤ duration) :
    instant ≤ instant.addMSec duration := by
  have hseconds : 0 ≤ duration.tdiv 1000 * 1000000 := by
    rw [Int.tdiv_eq_ediv_of_nonneg h]
    omega
  exact Int.le_add_of_nonneg_right hseconds

theorem startBounds_of_acceptedTask (hlength : depIndexes.length = (h.sequence q).tasks.length)
    (htask : ∀ (i : Nat) p row, (h.sequence q).tasks[i]? = some p → depIndexes[i]? = some row →
      AcceptedTask h h' (h.sequence q).tasks row p)
    (hdepends : ∀ (i : Nat) p row, (h.sequence q).tasks[i]? = some p → depIndexes[i]? = some row →
      (h'.task p).dependOnSequenceTasks = !row.isEmpty)
    {i : Nat} {p : TaskPtr} {row : List Nat} (hp : (h.sequence q).tasks[i]? = some p)
    (hi : depIndexes[i]? = some row) :
    h'.startBounds (h.sequence q).tasks (h'.task p) = {a | a ∈ ({0} : Set Time)
      ∨ ((h'.task p).hasActivationTime = true ∧ a = (h'.task p).activationTime)
      ∨ ∃ d ∈ row, h'.WorstCaseEnd (h.sequence q).tasks depIndexes d a} := by
  have hrow : ∀ (i : Nat) p, (h.sequence q).tasks[i]? = some p → ∃ row, depIndexes[i]? = some row :=
    fun i p hp => ⟨_, List.getElem?_eq_getElem (hlength ▸ (List.getElem?_eq_some_iff.mp hp).1)⟩
  have hworst : ∀ (i : Nat) p row, (h.sequence q).tasks[i]? = some p → depIndexes[i]? = some row →
      (h'.task p).worstEnd
        = if row = [] then (h'.task p).expirationTime else (h'.task p).expMaxExpirationTime := by
    intro i p row hp hi
    rw [Task.worstEnd, hdepends i p row hp hi]
    cases row <;> rfl
  ext a
  refine or_congr_right (or_congr_right ?_)
  rw [(htask i p row hp hi).indexes]
  constructor
  · rintro ⟨d, hd, p', hp', rfl⟩
    obtain ⟨d', hd', rfl⟩ := List.mem_map.mp hd
    obtain ⟨row', hi'⟩ := hrow d' p' hp'
    exact ⟨d', hd', p', row', hp', hi', hworst d' p' row' hp' hi'⟩
  · rintro ⟨d, hd, p', row', hp', hi', rfl⟩
    exact ⟨Int.ofNat d, List.mem_map.mpr ⟨d, hd, rfl⟩, p', hp', (hworst d p' row' hp' hi').symm⟩

/-- A step of a path leads to a task that is over before the next one starts. -/
theorem le_expMaxActivationTime_of_path {tasks : List TaskPtr}
    (hlength : depIndexes.length = tasks.length)
    (hends : ∀ (i : Nat) p row d e, tasks[i]? = some p → depIndexes[i]? = some row → d ∈ row →
      h'.WorstCaseEnd tasks depIndexes d e → e ≤ (h'.task p).expMaxActivationTime)
    (hlonger : ∀ (i : Nat) p row, tasks[i]? = some p → depIndexes[i]? = some row → row ≠ [] →
      (h'.task p).expMaxActivationTime ≤ (h'.task p).expMaxExpirationTime)
    {i d : Nat} {p : TaskPtr} {e : Time} (hpath : TransGen (DependsOn depIndexes) i d)
    (hp : tasks[i]? = some p) (hend : h'.WorstCaseEnd tasks depIndexes d e) :
    e ≤ (h'.task p).expMaxActivationTime := by
  induction hpath using TransGen.head_induction_on generalizing p with
  | @single i hedge =>
      obtain ⟨row, hi, hd⟩ := hedge
      exact hends i p row d e hp hi hd hend
  | @head i j hedge hpath ih =>
      obtain ⟨row, hi, hj⟩ := hedge
      obtain ⟨k, ⟨row', hi', hk⟩, -⟩ := TransGen.head'_iff.mp hpath
      obtain ⟨p', hp'⟩ : ∃ p', tasks[j]? = some p' :=
        ⟨_, List.getElem?_eq_getElem (hlength ▸ (List.getElem?_eq_some_iff.mp hi').1)⟩
      have hne' := List.ne_nil_of_mem hk
      calc e ≤ (h'.task p').expMaxActivationTime := ih hp'
        _ ≤ (h'.task p').expMaxExpirationTime := hlonger j p' row' hp' hi' hne'
        _ ≤ (h'.task p).expMaxActivationTime :=
            hends i p row j _ hp hi hj ⟨p', row', hp', hi', (if_neg hne').symm⟩

/-- **The expected times of an accepted matrix**, for tasks that did not depend on others before. -/
theorem longestPaths_of_accepted (now : Clock) (q : TaskSequencePtr) (depIndexes : List (List Nat))
    (h h' : Heap) (hnodup : (h.sequence q).tasks.Nodup)
    (hnew : ∀ p ∈ (h.sequence q).tasks, (h.task p).dependOnSequenceTasks = false)
    (hduration : ∀ p ∈ (h.sequence q).tasks, 0 ≤ (h.task p).maxDuration)
    (hset : h.setTaskDependency now q depIndexes = .ok (0, h')) :
    h'.LongestPaths {0} (h.sequence q).tasks depIndexes := by
  obtain ⟨-, hlength, -⟩ := clean_of_accepted hset
  have htask : ∀ (i : Nat) p row, (h.sequence q).tasks[i]? = some p → depIndexes[i]? = some row →
      AcceptedTask h h' (h.sequence q).tasks row p :=
    fun i p row => acceptedTask_of_accepted hnodup hset
  have hdepends : ∀ (i : Nat) p row, (h.sequence q).tasks[i]? = some p → depIndexes[i]? = some row →
      (h'.task p).dependOnSequenceTasks = !row.isEmpty := by
    intro i p row hp hi
    rw [(htask i p row hp hi).depends, hnew p (List.mem_of_getElem? hp), Bool.false_or]
  have hexpected : ∀ (i : Nat) p row, (h.sequence q).tasks[i]? = some p →
      depIndexes[i]? = some row → row ≠ [] → h'.Expected (h.sequence q).tasks (h'.task p) := by
    intro i p row hp hi hne
    refine (htask i p row hp hi).expected ?_
    rw [hdepends i p row hp hi]
    simpa using hne
  have hactivation : ∀ (i : Nat) p row, (h.sequence q).tasks[i]? = some p →
      depIndexes[i]? = some row → row ≠ [] →
      IsGreatest {a | a ∈ ({0} : Set Time)
        ∨ ((h'.task p).hasActivationTime = true ∧ a = (h'.task p).activationTime)
        ∨ ∃ d ∈ row, h'.WorstCaseEnd (h.sequence q).tasks depIndexes d a}
        (h'.task p).expMaxActivationTime := by
    intro i p row hp hi hne
    rw [← startBounds_of_acceptedTask hlength htask hdepends hp hi]
    exact (hexpected i p row hp hi hne).activation
  refine ⟨hactivation, fun i p row hp hi hne => (hexpected i p row hp hi hne).expiration, ?_⟩
  intro i d p e hpath hp hend
  refine le_expMaxActivationTime_of_path hlength ?_ ?_ hpath hp hend
  · intro i p row d e hp hi hd hend
    exact (hactivation i p row hp hi (List.ne_nil_of_mem hd)).2 (.inr (.inr ⟨d, hd, hend⟩))
  · intro i p row hp hi hne
    have hkept : (h'.task p).maxDuration = (h.task p).maxDuration :=
      congrArg (fun own => own.2.2) (htask i p row hp hi).own
    rw [(hexpected i p row hp hi hne).expiration]
    exact le_addMSec (hkept ▸ hduration p (List.mem_of_getElem? hp))

/-- A task that depends on one whose time was over before the Unix origin. -/
def beforeOrigin : Heap :=
  Heap.blank.buildSequence 0 (TaskSequence.create Clock.origin "s-1" "pointing" false)
    [(0, ((Task.create Clock.origin "t-1" "Slew" 0 false).setMaxDuration Clock.origin 0 2
        (-10000000)).2),
      (1, Task.create Clock.origin "t-2" "Track" 0 false)]

theorem longestPaths_of_accepted_beforeOrigin :
    ∃ h', beforeOrigin.setTaskDependency Clock.origin 0 [[], [0]] = .ok (0, h')
      ∧ h'.LongestPaths {0} [0, 1] [[], [0]] :=
  ⟨_, rfl, longestPaths_of_accepted Clock.origin 0 [[], [0]] beforeOrigin _ (by decide) (by decide)
    (by decide) rfl⟩

def addedTwice : Heap := (oneAsynchTask.addTask 0 (some 0)).2

theorem not_longestPaths_beforeOrigin :
    (∃ h', beforeOrigin.setTaskDependency Clock.origin 0 [[], [0]] = .ok (0, h')
        ∧ ¬ h'.LongestPaths ∅ (beforeOrigin.sequence 0).tasks [[], [0]])
      ∧ ∃ h', addedTwice.setTaskDependency Clock.origin 0 [[], [0]] = .ok (0, h')
        ∧ ¬ h'.LongestPaths ∅ (addedTwice.sequence 0).tasks [[], [0]] := by
  refine ⟨⟨_, rfl, fun h => ?_⟩, _, rfl, fun h => ?_⟩
  · obtain ⟨hmem, -⟩ := h.activation 1 1 [0] rfl rfl (by decide)
    obtain hnone | ⟨hactive, -⟩ | ⟨d, hd, p, row, hp, hi, heq⟩ := hmem
    · exact hnone
    · exact absurd hactive (by decide)
    · obtain rfl := List.mem_singleton.mp hd
      cases hp
      cases hi
      exact absurd heq (by decide)
  · obtain ⟨hmem, -⟩ := h.activation 1 0 [0] rfl rfl (by decide)
    obtain hnone | ⟨hactive, -⟩ | ⟨d, hd, p, row, hp, hi, heq⟩ := hmem
    · exact hnone
    · exact absurd hactive (by decide)
    · obtain rfl := List.mem_singleton.mp hd
      cases hp
      cases hi
      exact absurd heq (by decide)

end Heap

end DshLmc
