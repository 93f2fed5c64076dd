import DshLmc.Master.DishManager
import DshLmc.Proof.Dependencies
import DshLmc.Proof.Steps

/-!
# Runs of the dish manager

A run of the device is a run of its task manager and worker: an input makes at most one call on the
manager. So the facts about runs of the system hold of the runs of the device.
-/

namespace DshLmc

theorem argmax_map {α β γ : Type*} [Preorder γ] [DecidableLT γ] (f : β → γ) (g : α → β)
    (l : List α) : (l.map g).argmax f = (l.argmax (f ∘ g)).map g := by
  induction l using List.reverseRecOn with
  | nil => rfl
  | append_singleton l a ih =>
      rw [List.map_append, List.map_cons, List.map_nil, List.argmax_concat, ih, List.argmax_concat]
      cases l.argmax (f ∘ g) with
      | none => rfl
      | some b =>
          by_cases hlt : f (g b) < f (g a) <;> simp [hlt]

def Heap.Reports (h : Heap) (q : TaskSequencePtr) (attr_name : String) : Prop :=
  matchTaskSequenceByDevAttrName attr_name (h.sequence q) = true

instance (h : Heap) (q : TaskSequencePtr) (attr_name : String) :
    Decidable (h.Reports q attr_name) := inferInstanceAs (Decidable (_ = true))

def Heap.SameReport (h : Heap) (q q' : TaskSequencePtr) : Prop :=
  h.Reports q (h.sequence q').statusAttrName ∧ h.Reports q' (h.sequence q').statusAttrName

instance (h : Heap) (q q' : TaskSequencePtr) : Decidable (h.SameReport q q') :=
  inferInstanceAs (Decidable (_ ∧ _))

section

variable {h h' : Heap} {q q' : TaskSequencePtr} {attr_name : String}

theorem Heap.Reports.eq (hr : h.Reports q attr_name) :
    attr_name = (h.sequence q).statusAttrName := by
  simp only [Heap.Reports, matchTaskSequenceByDevAttrName, Bool.and_eq_true, beq_iff_eq] at hr
  exact hr.2.symm

theorem Heap.sameReport_of_reports (hq : h.Reports q attr_name) (hq' : h.Reports q' attr_name) :
    h.SameReport q q' := by
  rw [Heap.SameReport, ← hq'.eq]
  exact ⟨hq, hq'⟩

theorem SameObjects.creationTime (hs : SameObjects h h') :
    (h'.sequence q).creationTime = (h.sequence q).creationTime :=
  hs.readSequence TaskSequence.creationTime fun _ => rfl

theorem SameObjects.matchTaskSequenceByDevAttrName (hs : SameObjects h h') :
    DshLmc.matchTaskSequenceByDevAttrName attr_name (h'.sequence q)
      = DshLmc.matchTaskSequenceByDevAttrName attr_name (h.sequence q) :=
  hs.readSequence (DshLmc.matchTaskSequenceByDevAttrName attr_name) fun _ => rfl

end

local instance : Preorder Time := timeOrder

namespace TaskManager

def mostRecent (m : TaskManager) (attr_name : String) : Option TaskSequencePtr :=
  (m.taskSequences.filter fun q =>
    matchTaskSequenceByDevAttrName attr_name (m.sequence q)).argmax
      fun q => (m.sequence q).creationTime

end TaskManager

namespace DishManager

theorem mostRecentInfo_eq (m : TaskManager) (attr_name : String) :
    mostRecentInfo m attr_name = (m.mostRecent attr_name).map fun q =>
      { taskName := (m.sequence q).seqName
        status := (m.sequence q).status
        statusInfo := (m.sequence q).statusInfo
        creationTimestamp := (m.sequence q).creationTime } := by
  rw [mostRecentInfo, TaskManager.getTaskSequenceStatusInfo, argmax_map]
  rfl

/-! ### The steps of the system -/

variable {ι : Type} [DecidableEq ι] (props : Properties) (S : SetImpl TaskPtr)

/-- The step of the system that an input makes. -/
def eventOf (d : DishManager ι) : Input ι → Option Event
  | .act t _ =>
      match (d.threads t).rest with
      | .call r :: _ => some (.request r)
      | .addTaskSequence hasAttribute q _ :: _ =>
          some (.request (.addTaskSequence hasAttribute (some q) true))
      | _ => none
  | .event e => some e
  | _ => none

def adds (d : DishManager ι) (i : Input ι) : List TaskSequencePtr :=
  (d.eventOf i).elim [] d.system.adds

variable {props S} {d : DishManager ι} {i : Input ι} {t : ι} {rest : List Action} {a : Action}
  {outcome : WriteOutcome}

@[simp]
theorem system_setThread (thread : Thread) : (d.setThread t thread).system = d.system := rfl

@[simp]
theorem system_goOn : (d.goOn t rest).system = d.system := rfl

omit [DecidableEq ι] in
@[simp]
theorem system_setProgress (attr_name : String) (value : List String) :
    (d.setProgress outcome attr_name value).system = d.system := rfl

theorem system_step (i : Input ι) :
    (d.step S props i).system = (d.eventOf i).elim d.system (d.system.step S) := by
  cases i with
  | start t c =>
      simp only [step, start]
      split <;> rfl
  | act t outcome =>
      simp only [step, act, eventOf]
      cases (d.threads t).rest with
      | nil => rfl
      | cons a rest =>
          cases a with
          | setStatusAttr attr_name =>
              simp only [perform]
              split <;> rfl
          | _ => rfl
  | _ => rfl

variable (props S d) in
/-- **The device runs its task manager**: after each input the system is where a step of the system
leads, if it is not where it was. -/
theorem system_step_cases (i : Input ι) :
    (d.step S props i).system = d.system ∧ d.adds i = []
      ∨ ∃ e, d.eventOf i = some e ∧ (d.step S props i).system = d.system.step S e
        ∧ d.adds i = d.system.adds e := by
  rw [system_step, adds]
  cases d.eventOf i with
  | none => exact .inl ⟨rfl, rfl⟩
  | some e => exact .inr ⟨e, rfl, rfl, rfl⟩

theorem worker_act : (d.act S t outcome).system.worker = d.system.worker := by
  simp only [act]
  cases (d.threads t).rest with
  | nil => rfl
  | cons a rest =>
      cases a with
      | setStatusAttr attr_name =>
          simp only [perform]
          split <;> rfl
      | _ => rfl

theorem traced_step {h : Heap} {added : List TaskSequencePtr} (ht : Traced h added d.system)
    (i : Input ι) : Traced h (added ++ d.adds i) (d.step S props i).system := by
  obtain ⟨hsystem, hadds⟩ | ⟨e, -, hsystem, hadds⟩ := system_step_cases props S d i
  · rwa [hsystem, hadds, List.append_nil]
  · rw [hsystem, hadds]
    exact ht.step e

def drops (d : DishManager ι) (i : Input ι) : TaskSequence → Bool :=
  (d.eventOf i).elim (fun _ => false) Event.drops

variable (S) in
def tracks (d : DishManager ι) (i : Input ι) : List TaskSequencePtr :=
  (d.eventOf i).elim [] (d.system.tracks S)

omit [DecidableEq ι] in
theorem adds_of_mem_tracks {q : TaskSequencePtr} (hq : q ∈ d.tracks S i) :
    d.adds i = [q] ∧ d.tracks S i = [q] := by
  rw [tracks] at hq ⊢
  rw [adds]
  cases he : d.eventOf i with
  | none => simp [he] at hq
  | some e =>
      rw [he] at hq
      exact System.adds_of_mem_tracks hq

theorem taskSequences_step (i : Input ι) :
    (d.step S props i).system.manager.taskSequences
      = (d.system.manager.taskSequences.filter fun q => !d.drops i (d.system.manager.sequence q))
        ++ d.tracks S i := by
  rw [system_step, drops, tracks]
  cases d.eventOf i with
  | none => simp
  | some e => exact System.taskSequences_step e

omit [DecidableEq ι] in
@[simp]
theorem threads_setProgress (attr_name : String) (value : List String) :
    (d.setProgress outcome attr_name value).threads = d.threads := rfl

omit [DecidableEq ι] in
@[simp]
theorem threads_request (r : Request) : (d.request S r).threads = d.threads := rfl

@[simp]
theorem threads_goOn_self : (d.goOn t rest).threads t = { d.threads t with rest := rest } := by
  simp [goOn, setThread]

theorem threads_setThread_of_ne {t' : ι} (ht : t' ≠ t) (thread : Thread) :
    (d.setThread t thread).threads t' = d.threads t' := by
  simp [setThread, ht]

/-- What a thread does next: it goes on, or a check makes it do something else, or it throws. -/
inductive NextRest (d : DishManager ι) (t : ι) (outcome : WriteOutcome) (rest : List Action)
    (a : Action) : List Action → Prop
  | goesOn (hsucceeds : ∀ attr_name msg, a = .setProgress attr_name msg → outcome = .succeeds)
      (hthrow : a ≠ .throwException) : NextRest d t outcome rest a rest
  | checked {instead : List Action}
      (hinstead : a.instead d.attrs (outcome = .succeeds) = some instead) :
      NextRest d t outcome rest a instead
  | throws (msgs : List (String × List String)) :
      NextRest d t outcome rest a
        ((msgs.map fun msg => .setProgress msg.1 msg.2) ++ [.throwException])
  | thrown (ha : a = .throwException) : NextRest d t outcome rest a []

theorem nextRest_perform (outcome : WriteOutcome) (rest : List Action) (a : Action) :
    NextRest d t outcome rest a ((d.perform S t outcome rest a).threads t).rest := by
  have hcheck : ∀ check : Action, check ≠ .throwException →
      (∀ attr_name msg, check ≠ .setProgress attr_name msg) → NextRest d t outcome rest check
        ((check.instead d.attrs (outcome = .succeeds)).getD rest) := by
    intro check hthrow hset
    cases hinstead : check.instead d.attrs (outcome = .succeeds) with
    | none => exact .goesOn (fun attr_name msg h => absurd h (hset attr_name msg)) hthrow
    | some instead => exact .checked hinstead
  cases a with
  | setProgress attr_name msg =>
      simp only [perform, threads_goOn_self]
      split
      · rename_i houtcome
        exact .goesOn (fun _ _ _ => houtcome) (by simp)
      · exact .throws []
  | call r =>
      simp only [perform, threads_goOn_self]
      exact .goesOn (by simp) (by simp)
  | addTaskSequence hasAttribute q abortedMsg =>
      simp only [perform, threads_goOn_self, afterAddTaskSequence]
      split
      · exact .throws _
      · exact .goesOn (by simp) (by simp)
  | getStatusInfo attr_name =>
      simp only [perform, setThread, Function.update_self]
      exact .goesOn (by simp) (by simp)
  | getStatusAttr attr_name =>
      simp only [perform, setThread, Function.update_self]
      exact .goesOn (by simp) (by simp)
  | setStatusAttr attr_name =>
      simp only [perform]
      split <;> simp only [threads_goOn_self] <;> exact .goesOn (by simp) (by simp)
  | throwException =>
      simp only [perform, setThread, Function.update_self]
      exact .thrown rfl
  | isCmdAllowed allowed => simpa [perform] using hcheck (.isCmdAllowed allowed) (by simp) (by simp)
  | checkHandlerEnabled attr_name =>
      simpa [perform] using hcheck (.checkHandlerEnabled attr_name) (by simp) (by simp)
  | checkTaskData isEvent =>
      simpa [perform] using hcheck (.checkTaskData isEvent) (by simp) (by simp)
  | checkMode mode_str attr_name msg =>
      simpa [perform] using hcheck (.checkMode mode_str attr_name msg) (by simp) (by simp)
  | checkDishMode modes final attr_name msg =>
      simpa [perform] using hcheck (.checkDishMode modes final attr_name msg) (by simp) (by simp)
  | checkTaskRunning attr_name throws =>
      simpa [perform] using hcheck (.checkTaskRunning attr_name throws) (by simp) (by simp)
  | checkPowerStatus label => simpa [perform] using hcheck (.checkPowerStatus label) (by simp) (by simp)

theorem act_eq_perform (hrest : (d.threads t).rest = a :: rest) :
    d.act S t outcome = d.perform S t outcome rest a := by
  rw [act, hrest]

theorem threads_perform_of_ne {t' : ι} (ht : t' ≠ t) :
    (d.perform S t outcome rest a).threads t' = d.threads t' := by
  cases a with
  | setStatusAttr attr_name =>
      simp only [perform]
      split <;> exact threads_setThread_of_ne ht _
  | _ => exact threads_setThread_of_ne ht _

theorem threads_act_of_ne {t' : ι} (ht : t' ≠ t) : (d.act S t outcome).threads t' = d.threads t' := by
  cases hrest : (d.threads t).rest with
  | nil => simp only [act, hrest]
  | cons a rest =>
      rw [act_eq_perform hrest]
      exact threads_perform_of_ne ht

/-- The status that `UpdateStatusAttrs` writes, and the attribute. -/
def statusWrite (d : DishManager ι) : Input ι → Option (ι × String × TaskInfo)
  | .act t outcome =>
      match (d.threads t).rest, (d.threads t).info with
      | .setStatusAttr attr_name :: _, some info =>
          if outcome = .failsBefore then none else some (t, attr_name, info)
      | _, _ => none
  | _ => none

/-- What an input makes of a progress attribute. -/
inductive ProgressMove (d : DishManager ι) (i : Input ι) (attr_name : String) :
    List String → Prop
  | kept : ProgressMove d i attr_name (d.attrs.progress attr_name)
  | command {t : ι} {outcome : WriteOutcome} {msg : List String} {rest : List Action}
      (hi : i = .act t outcome) (hrest : (d.threads t).rest = .setProgress attr_name msg :: rest)
      (hwrites : outcome ≠ .failsBefore) : ProgressMove d i attr_name msg
  | status {t : ι} {outcome : WriteOutcome} {info : TaskInfo} {rest : List Action}
      (hi : i = .act t outcome) (hrest : (d.threads t).rest = .setStatusAttr attr_name :: rest)
      (hinfo : (d.threads t).info = some info) (hwrites : outcome ≠ .failsBefore) :
      ProgressMove d i attr_name (statusValue info (d.threads t).attr_values)

theorem progress_setProgress_cases (outcome : WriteOutcome) (written_name : String)
    (value : List String) (attrs : Attrs) (attr_name : String) :
    (attrs.setProgress outcome written_name value).progress attr_name = attrs.progress attr_name
      ∨ outcome ≠ .failsBefore ∧ written_name = attr_name
        ∧ (attrs.setProgress outcome written_name value).progress attr_name = value := by
  rw [Attrs.setProgress]
  split
  · exact .inl rfl
  · rename_i houtcome
    by_cases hname : attr_name = written_name
    · subst hname
      exact .inr ⟨houtcome, rfl, Function.update_self ..⟩
    · exact .inl (Function.update_of_ne hname ..)

theorem progressMove (d : DishManager ι) (i : Input ι) (attr_name : String) :
    ProgressMove d i attr_name ((d.step S props i).attrs.progress attr_name) := by
  cases i with
  | start t c =>
      simp only [step, start]
      split <;> exact .kept
  | act t outcome =>
      cases hrest : (d.threads t).rest with
      | nil =>
          simp only [step, act, hrest]
          exact .kept
      | cons a rest =>
          rw [step, act_eq_perform hrest]
          cases a with
          | setProgress written_name msg =>
              change ProgressMove d _ attr_name
                ((d.attrs.setProgress outcome written_name msg).progress attr_name)
              obtain heq | ⟨houtcome, rfl, heq⟩ :=
                progress_setProgress_cases outcome written_name msg d.attrs attr_name
              · rw [heq]
                exact .kept
              · rw [heq]
                exact .command rfl hrest houtcome
          | setStatusAttr written_name =>
              simp only [perform]
              split
              · exact .kept
              · rename_i info hinfo
                change ProgressMove d _ attr_name ((d.attrs.setProgress outcome written_name
                  (statusValue info (d.threads t).attr_values)).progress attr_name)
                obtain heq | ⟨houtcome, rfl, heq⟩ := progress_setProgress_cases outcome written_name
                  (statusValue info (d.threads t).attr_values) d.attrs attr_name
                · rw [heq]
                  exact .kept
                · rw [heq]
                  exact .status rfl hrest hinfo houtcome
          | _ => exact .kept
  | _ => exact .kept

def command {ι : Type} (t : ι) (c : Command) (n : Nat) : List (Input ι) :=
  .start t c :: List.replicate n (.act t .succeeds)

def dishProperties : Properties where
  hasAttribute _ := true
  taskSequenceStatusAttrList :=
    ["shutdownOnPowerCutProgress", "startupOnPowerRestoreProgress", "setStandbyFPOnESTOPProgress",
      "setStowModeProgress"]
  taskHistoryTimeDepth := 600
  defaultTaskTimeout := 30
  shutdownTaskTimeout := 60
  rxShutdownTimeDelay := 30

def dishAttrs (seCtrlPowerStatus : String) : Attrs where
  progress _ := ["UNKNOWN", "UNKNOWN"]
  dishMode := "OPERATE"
  seCtrlPowerStatus := seCtrlPowerStatus
  handlerEnabled _ := true

/-- The sequence `q`, its tasks and their identifiers numbered from `10 * q` on. -/
def addPrepared (now : Clock) (q : TaskSequencePtr) (prepared : PreparedSequence) (h : Heap) :
    Heap :=
  prepared.build dishProperties now (fun i => Nat.repr (10 * q + i)) q (10 * q + ·) h

def powerCutHeap : Heap :=
  (addPrepared Clock.origin 0 (powerCutSequence dishProperties) Heap.blank).withDependency
    Clock.origin 0 [[], [0], [1], [], [3], [4]]

theorem setTaskDependency_powerCut :
    (addPrepared Clock.origin 0 (powerCutSequence dishProperties) Heap.blank).setTaskDependency
      Clock.origin 0 [[], [0], [1], [], [3], [4]] = .ok (0, powerCutHeap) := rfl

def powerHeap : Heap := addPrepared Clock.origin 1 (powerRestoreSequence dishProperties) powerCutHeap

theorem built_powerHeap : powerHeap.Built [1, 0] := by
  have hcut : (addPrepared Clock.origin 0 (powerCutSequence dishProperties) Heap.blank).Built [0] :=
    Heap.Built.blank.buildSequence rfl (by decide +kernel) (by decide +kernel) (by decide +kernel)
      (by decide +kernel)
  have hdependent : powerCutHeap.Built [0] :=
    Heap.Built.setTaskDependency hcut (setTaskDependency_powerCut)
  exact hdependent.buildSequence rfl (by decide +kernel) (by decide +kernel) (by decide +kernel)
    (by decide +kernel)

end DishManager

end DshLmc
