import DshLmc.Library.Unwinding
import DshLmc.Proof.Building
import DshLmc.Proof.Locality

/-!
# Managers that share signals and objects

No operation on one manager looks at another. What connects them are the two static flags and the
objects that clients hand to both. A manager is isolated as long as the operations on the others
leave the flags as they find them and write to none of its tasks. The constructor of another manager
and its `PopTask` take signals away, and its `End`, `WakeUp` and `AddTaskSequence` give signals that
were not meant. A sequence added to both is revoked or reported for both.
-/

namespace DshLmc

variable (S : SetImpl TaskPtr)

/-- **Isolation of one manager.** Its results do not depend on what the others do. -/
def Isolated {ω : Type} [DecidableEq ω] (owner : ω) (p : Process ω)
    (inputs : List (ω × Operation)) : Prop :=
  outputs (Process.step S) (Process.result S) (fun input => decide (input.1 = owner)) p inputs
    = outputs (Process.step S) (Process.result S) (fun input => decide (input.1 = owner)) p
      (inputs.filter fun input => decide (input.1 = owner))

def TaskManager.KeepsSignals (m : TaskManager) (signals : Signals) : Operation → Prop
  | .construct _ => signals.wakeUpSignal = false ∧ signals.endSignal = false
  | .call .wakeUp => signals.wakeUpSignal = true
  | .call .endThread => signals.endSignal = true
  | .call (.addTaskSequence hasAttribute (some q) addToQueue) =>
      m.Accepts q → (addToQueue = true → ∀ p ∈ (m.sequence q).tasks, ¬ m.Refuses hasAttribute p) →
        signals.wakeUpSignal = true
  | .popTask _ => signals.wakeUpSignal = false
  | .awake _ => signals.wakeUpSignal = false
  | _ => True

variable {S} {m : TaskManager} {signals : Signals}

theorem TaskManager.signals_popTask (now : Clock) :
    (m.popTask now signals).2.1 = { signals with wakeUpSignal := false } := by
  unfold popTask
  split
  case isTrue hwaits =>
      have hwake : signals.wakeUpSignal = false := by
        cases hsignal : signals.wakeUpSignal with
        | false => rfl
        | true => simp [hsignal] at hwaits
      rw [← hwake]
  case isFalse =>
      dsimp only
      split
      · rfl
      split
      · rfl
      split <;> rfl

theorem TaskManager.signals_popTaskAwake (timedOut : Bool) :
    (popTaskAwake timedOut signals).2 = { signals with wakeUpSignal := false } := by
  obtain ⟨wakeUp, endSignal⟩ := signals
  cases wakeUp <;> cases endSignal <;> rfl

theorem Signals.wakeUp_eq_iff {value : Bool} :
    { signals with wakeUpSignal := value } = signals ↔ signals.wakeUpSignal = value := by
  obtain ⟨wakeUp, endSignal⟩ := signals
  simp [eq_comm]

/-- The condition is exact: an operation changes a flag precisely when it fails. -/
theorem TaskManager.signals_operate_iff {operation : Operation} :
    (m.operate S operation signals).2.1 = signals ↔ m.KeepsSignals signals operation := by
  cases operation with
  | construct devName =>
      obtain ⟨wakeUp, endSignal⟩ := signals
      simp [operate, createSignals, KeepsSignals, eq_comm]
  | popTask now =>
      simp only [operate, signals_popTask, Signals.wakeUp_eq_iff]
      rfl
  | awake timedOut =>
      simp only [operate, signals_popTaskAwake, Signals.wakeUp_eq_iff]
      rfl
  | getTaskSequenceStatusInfo useDevAttrFilter devAttrName =>
      exact iff_of_true rfl trivial
  | call r =>
      cases r with
      | wakeUp => exact Signals.wakeUp_eq_iff
      | endThread =>
          obtain ⟨wakeUp, endSignal⟩ := signals
          simp [operate, call, KeepsSignals, eq_comm]
      | addTaskSequence hasAttribute taskSequence addToQueue =>
          simp only [operate, call]
          rcases m.addTaskSequence_cases (S := S) hasAttribute taskSequence addToQueue signals with
            ⟨hrefused, heq⟩ | ⟨q, front, p, back, rfl, -, rfl, htasks, -, hasynch, hattr, heq⟩
              | ⟨q, rfl, haccepts, hall, heq⟩
          · rw [heq]
            refine iff_of_true rfl ?_
            cases taskSequence with
            | none => trivial
            | some q => exact fun haccepts => absurd haccepts (hrefused q rfl)
          · rw [heq]
            refine iff_of_true rfl fun _ hall => ?_
            exact absurd ⟨hasynch, hattr⟩ (hall rfl p (by simp [htasks]))
          · rw [heq]
            refine Signals.wakeUp_eq_iff.trans ⟨fun hwake _ _ => hwake, fun hkeeps => ?_⟩
            exact hkeeps haccepts fun hqueue p hp hrefuses =>
              Bool.false_ne_true (hrefuses.2.symm.trans (hall hqueue p hp hrefuses.1))
      | _ => exact iff_of_true rfl trivial

variable {ω : Type} {owner : ω} {p p' : Process ω} {input : ω × Operation}
  {inputs : List (ω × Operation)} {F : Objects}

/-- The sequences of a manager in a run: those it tracks at the start, and those it is handed. -/
def Process.SequenceOf (owner : ω) (p : Process ω) (inputs : List (ω × Operation))
    (q : TaskSequencePtr) : Prop :=
  q ∈ (p.containers owner).taskSequences
    ∨ ∃ operation : Operation, (owner, operation) ∈ inputs ∧ operation.given = some q

/-- The objects of a manager in a run: its sequences, their tasks, and the tasks queued at the
start. -/
def Process.objectsOf (owner : ω) (p : Process ω) (inputs : List (ω × Operation)) : Objects where
  sequence := {q | p.SequenceOf owner inputs q}
  task := {t | t ∈ (p.containers owner).taskQueue
    ∨ ∃ q, p.SequenceOf owner inputs q ∧ t ∈ (p.heap.sequence q).tasks}

/-- The operation on another manager leaves the flags and writes to no task of the manager. -/
def Process.KeepsApart (F : Objects) (p : Process ω) (input : ω × Operation) : Prop :=
  (p.manager input.1).KeepsSignals p.signals input.2
    ∧ ∀ t, (p.manager input.1).WritesTask input.2 t → t ∉ F.task

theorem Process.within_objectsOf (owner : ω) (p : Process ω) (inputs : List (ω × Operation)) :
    (p.manager owner).Within (p.objectsOf owner inputs) where
  queued _ ht := Or.inl ht
  tracked _ hq := Or.inl hq
  closed q hq _ ht := Or.inr ⟨q, hq, ht⟩

/-- All that the operations on a manager can tell of a process: the flags, the manager, and the
objects it can reach. -/
structure Process.Alike (F : Objects) (owner : ω) (p p' : Process ω) : Prop where
  signals : p'.signals = p.signals
  manager : (p.manager owner).AlikeOn F (p'.manager owner)
  within : (p.manager owner).Within F

theorem Process.Alike.outcome (halike : Process.Alike F owner p p') (operation : Operation) :
    TaskManager.SameOutcome F ((p.manager owner).operate S operation p.signals)
      ((p'.manager owner).operate S operation p'.signals) := by
  rw [halike.signals]
  exact halike.manager.operate halike.within operation p.signals

variable [DecidableEq ω]

theorem Process.Alike.step (halike : Process.Alike F owner p p') (howner : input.1 = owner)
    (hgiven : ∀ q ∈ input.2.given, q ∈ F.sequence) :
    Process.Alike F owner (p.step S input) (p'.step S input) := by
  subst howner
  obtain ⟨-, hsignals, hmanager⟩ := halike.outcome (S := S) input.2
  refine ⟨hsignals, ⟨hmanager.heap, ?_⟩, ?_⟩
  · simp only [Process.manager, Process.step, Function.update_self]
    exact hmanager.containers
  · have hwithin := halike.within.operate (S := S) hgiven p.signals
    simpa only [Process.manager, Process.step, Function.update_self] using hwithin

theorem Process.Alike.step_left (halike : Process.Alike F owner p p') (hother : input.1 ≠ owner)
    (hapart : p.KeepsApart F input) : Process.Alike F owner (p.step S input) p' := by
  have hkept : AgreeOn F p.heap (p.step S input).heap :=
    TaskManager.agreeOn_operate (m := p.manager input.1) halike.within.closed hapart.2
  have hcontainers : (p.step S input).containers owner = p.containers owner :=
    Function.update_of_ne hother.symm _ _
  refine ⟨?_, ⟨hkept.symm.trans halike.manager.heap, ?_⟩, ?_⟩
  · exact halike.signals.trans (TaskManager.signals_operate_iff.mpr hapart.1).symm
  · exact halike.manager.containers.trans hcontainers.symm
  · refine ⟨fun t ht => halike.within.queued t ?_, fun q hq => halike.within.tracked q ?_,
      halike.within.closed.of_sameObjects hkept.objects⟩
    · simpa only [Process.manager, hcontainers] using ht
    · simpa only [Process.manager, hcontainers] using hq

/-- **Isolation** in every run in which the operations on the other managers leave the flags as
they find them and write to no task of the manager. -/
theorem isolated_of_keepsApart
    (hrun : Along (Process.step S) (fun s input => input.1 ≠ owner →
      s.KeepsApart (p.objectsOf owner inputs) input) p inputs) :
    Isolated S owner p inputs := by
  have hgiven : Along (Process.step S) (fun _ input => input.1 = owner →
      ∀ q ∈ input.2.given, q ∈ (p.objectsOf owner inputs).sequence) p inputs := by
    refine along_of_forall_mem fun input hinput howner q hq => ?_
    subst howner
    exact Or.inr ⟨input.2, hinput, hq⟩
  refine outputs_eq_outputs_filter (Process.Alike (p.objectsOf owner inputs) owner) ?_ ?_ ?_
    ⟨rfl, ⟨AgreeOn.refl _ _, rfl⟩, p.within_objectsOf owner inputs⟩ (hgiven.and hrun)
  · intro s s' input howner halike
    obtain rfl := of_decide_eq_true howner
    exact (halike.outcome (S := S) input.2).result.symm
  · intro s s' input howner hcond halike
    exact halike.step (of_decide_eq_true howner) (hcond.1 (of_decide_eq_true howner))
  · intro s s' input hother hcond halike
    exact halike.step_left (of_decide_eq_false hother) (hcond.2 (of_decide_eq_false hother))

def oneSequenceEach : Heap :=
  Heap.oneAsynchTask.buildSequence 1 (TaskSequence.create Clock.origin "s-2" "park" false)
    [(1, Task.create Clock.origin "t-2" "Stow" 0 false)]

def Process.twoManagers : Process Bool where
  heap := oneSequenceEach
  signals := TaskManager.createSignals
  containers := fun _ => (TaskManager.create oneSequenceEach "dish").toContainers

/-- One manager runs its task while the other is built, woken up after the signal of
`AddTaskSequence`, and used for the other sequence. -/
def usedApart : List (Bool × Operation) :=
  [(true, .construct "dish"), (false, .construct "rotor"),
    (true, .call (.addTaskSequence (fun _ => true) (some 0) true)), (false, .call .wakeUp),
    (false, .call (.addTaskSequence (fun _ => true) (some 1) true)), (true, .popTask Clock.origin),
    (false, .popTask Clock.origin), (false, .call (.revokeTaskSequence "park")),
    (true, .popTask Clock.origin)]

theorem eq_zero_of_mem_usedApart {t : TaskPtr}
    (ht : t ∈ (Process.twoManagers.objectsOf true usedApart).task) : t = 0 := by
  obtain hqueued | ⟨q, htracked | ⟨operation, hmem, hgiven⟩, ht⟩ := ht
  · exact absurd hqueued List.not_mem_nil
  · exact absurd htracked List.not_mem_nil
  · have hq : q = 0 := by
      simp only [usedApart, List.mem_cons, Prod.mk.injEq, Bool.true_eq_false, true_and, false_and,
        false_or, List.not_mem_nil, or_false] at hmem
      obtain rfl | rfl | rfl | rfl := hmem <;> simp_all [Operation.given]
    subst hq
    exact List.mem_singleton.mp ht

theorem isolated_of_keepsApart_twoManagers :
    Isolated SetImpl.linear true Process.twoManagers usedApart := by
  have hapart : ∀ {t}, t = 1 → t ∉ (Process.twoManagers.objectsOf true usedApart).task := by
    rintro _ rfl ht
    exact absurd (eq_zero_of_mem_usedApart ht) (by decide)
  refine isolated_of_keepsApart ⟨?_, ?_, ?_, ?_, ?_, ?_, ?_, ?_, ?_, trivial⟩
  · exact fun hother => absurd rfl hother
  · exact fun _ => ⟨⟨rfl, rfl⟩, fun _ hwrites => hwrites.elim⟩
  · exact fun hother => absurd rfl hother
  · exact fun _ => ⟨rfl, fun _ hwrites => hwrites.elim⟩
  · exact fun _ => ⟨fun _ _ => rfl, fun t hwrites => hapart (List.mem_singleton.mp hwrites.2)⟩
  · exact fun hother => absurd rfl hother
  · have hwake : (run (Process.step SetImpl.linear) Process.twoManagers
        (usedApart.take 6)).signals.wakeUpSignal = false := by decide +kernel
    exact fun _ => ⟨hwake, fun t hwrites => hapart (List.mem_singleton.mp hwrites.1)⟩
  · refine fun _ => ⟨trivial, fun t hwrites => ?_⟩
    obtain ⟨⟨q, hq, -, ht⟩, -⟩ := hwrites
    let rotor := (run (Process.step SetImpl.linear) Process.twoManagers
      (usedApart.take 7)).manager false
    have hsequences : rotor.taskSequences = [1] := by decide +kernel
    have htasks : (rotor.sequence 1).tasks = [1] := by decide +kernel
    obtain rfl := List.mem_singleton.mp (hsequences ▸ hq : q ∈ [1])
    exact hapart (List.mem_singleton.mp (htasks ▸ ht : t ∈ [1]))
  · exact fun hother => absurd rfl hother

def OperationResult.returnsNull : OperationResult → Bool
  | .popped .failed => true
  | _ => false

/-- The constructor of a second manager takes back the end signal of the first, whose worker then
waits instead of ending. A sequence added to both is revoked for both. -/
theorem not_isolated_twoManagers :
    ¬ Isolated SetImpl.linear true Process.twoManagers
        [(true, .construct "dish"), (true, .call .endThread), (false, .construct "rotor"),
          (true, .popTask Clock.origin)]
      ∧ ¬ Isolated SetImpl.linear true Process.twoManagers
        [(true, .construct "dish"), (false, .construct "rotor"),
          (true, .call (.addTaskSequence (fun _ => true) (some 0) true)),
          (false, .call (.addTaskSequence (fun _ => true) (some 0) true)),
          (false, .call (.revokeTaskSequence "pointing")), (true, .popTask Clock.origin)] := by
  refine ⟨fun hisolated => ?_, fun hisolated => ?_⟩
  · exact absurd (congrArg (List.map OperationResult.returnsNull) hisolated) (by decide +kernel)
  · exact absurd (congrArg (List.map OperationResult.returnsNull) hisolated) (by decide +kernel)

end DshLmc
