import DshLmc.Emulators.DishTasks
import DshLmc.Library.Run

/-!
# Who reports in a progress attribute

A command refuses to run while its own progress is busy, so it can be issued again only if every way
that a task ends sets the progress of its own command. All of them do, except that
`SetStandbyFPMode` reports a message it could not post in the attribute of `SetStandbyLPMode`.
-/

namespace DshLmc

namespace DishTasks

/-- The progress attribute of the command that runs in a step, or that the handler is for. -/
def actor (s : DishTasks) : DishInput → Option ProgressAttr
  | .command c _ => some c.progressAttr
  | .task _ => s.handling.map Handling.attr
  | _ => none

/-- A command or a handler changes its own progress only. -/
def Owns (indexerPos_moving : Int) (s : DishTasks) (i : DishInput) : Prop :=
  ∀ attr, s.actor i = some attr → ∀ other, other ≠ attr →
    (s.step indexerPos_moving i).progress other = s.progress other

/-- A command of which no job is queued or handled is not locked by its progress. -/
def Free (s : DishTasks) : Prop :=
  ∀ attr, attr ≠ .stowProgress → (∀ msg ∈ s.queue, msg.progressAttr ≠ some attr) →
    (∀ h, s.handling = some h → h.attr ≠ attr) → (s.progress attr).isBusy = false

/-- The condition on a step: when `SetStandbyFPMode` posts its message, this succeeds. -/
def PostsStandbyFP (s : DishTasks) : DishInput → Prop
  | .command .setStandbyFPMode e =>
      s.schedules e .setStandbyFPModeProgress s.standbyFPActive = true → e.posts = true
  | _ => True

def inner : HandlerStep → Bool
  | .setStatus status => status.isBusy
  | .checkRunning => false
  | _ => true

/-- The steps end with a status that is not busy, and set no such status before. -/
def reports : List HandlerStep → Bool
  | [] => false
  | [.setStatus status] => !status.isBusy
  | step :: rest => inner step && reports rest

/-- The handler is at the check of `shutdown` for a task that is running. -/
def atCheck : List HandlerStep → Bool
  | .checkRunning :: _ => true
  | _ => false

variable {s s' : DishTasks} {e : HandlerTurn} {attr other : ProgressAttr} {first : HandlerStep}
  {rest : List HandlerStep} {indexerPos_moving : Int}

theorem reports_cons (h : reports (first :: rest) = true) :
    (rest = [] ∧ ∃ status, first = .setStatus status ∧ status.isBusy = false)
      ∨ (inner first = true ∧ reports rest = true) := by
  cases rest with
  | nil =>
      cases first with
      | setStatus status => exact .inl ⟨rfl, status, rfl, by simpa [reports] using h⟩
      | _ => simp [reports] at h
  | cons next rest =>
      rw [reports] at h
      · exact .inr (by simpa using h)
      · intro status hstep hrest
        cases hrest

theorem reports_call (c : DishCall) (h : reports rest = true) :
    reports (.call c :: rest) = true := by
  rw [reports]
  · simpa [inner] using h
  · intro status hstep
    cases hstep

theorem reports_calls (calls : List DishCall) (h : reports rest = true) :
    reports (calls.map .call ++ rest) = true := by
  induction calls with
  | nil => exact h
  | cons c calls ih => exact reports_call c ih

theorem atCheck_of_reports {steps : List HandlerStep} (h : reports steps = true) :
    atCheck steps = false := by
  cases steps with
  | nil => rfl
  | cons first rest =>
      cases first with
      | checkRunning => simpa [inner] using reports_cons h
      | _ => rfl

theorem handlerStep_frame (s : DishTasks) (e : HandlerTurn) (attr : ProgressAttr)
    (first : HandlerStep) :
    (s.handlerStep e attr first).1.queue = s.queue
      ∧ ∀ other, other ≠ attr →
        (s.handlerStep e attr first).1.progress other = s.progress other := by
  have hset : ∀ status, (s.setStatus attr status).queue = s.queue
      ∧ ∀ other, other ≠ attr → (s.setStatus attr status).progress other = s.progress other := by
    intro status
    exact ⟨rfl, fun other hother => if_neg hother⟩
  have hself : s.queue = s.queue ∧ ∀ other, other ≠ attr → s.progress other = s.progress other :=
    ⟨rfl, fun _ _ => rfl⟩
  cases first with
  | setStatus status => exact hset status
  | call c =>
      rw [handlerStep]
      split
      · exact hself
      · exact hset .FAILED
  | getLabel =>
      rw [handlerStep]
      split
      · exact hself
      · exact hset .FAILED
  | timedWait =>
      rw [handlerStep]
      split
      · exact hset .ABORTED
      · exact hself
  | setTracking enabled => exact hself
  | checkRunning =>
      rw [handlerStep]
      split <;> exact hself
  | checkAllowed =>
      rw [handlerStep]
      split
      · exact hself
      · exact hset .ABORTED
  | checkMode label =>
      rw [handlerStep]
      split
      · exact hset .ABORTED
      · split
        · exact hset .COMPLETED
        · exact hself

/-- An inner step ends the handler with a status that is not busy, or leaves a busy one busy. -/
theorem handlerStep_inner (h : inner first = true) :
    (∃ calls : List DishCall, (s.handlerStep e attr first).2 = some (calls.map .call)
        ∧ ((s.progress attr).isBusy = true →
          ((s.handlerStep e attr first).1.progress attr).isBusy = true))
      ∨ ((s.handlerStep e attr first).2 = none
        ∧ ((s.handlerStep e attr first).1.progress attr).isBusy = false) := by
  have hset : ∀ status, ((s.setStatus attr status).progress attr) = status := fun _ => if_pos rfl
  cases first with
  | setStatus status =>
      refine .inl ⟨[], rfl, fun _ => ?_⟩
      rw [handlerStep, hset]
      exact h
  | call c =>
      rw [handlerStep]
      split
      case h_1 more _ => exact .inl ⟨more, rfl, id⟩
      case h_2 => exact .inr ⟨rfl, by rw [hset]; rfl⟩
  | getLabel =>
      rw [handlerStep]
      split
      · exact .inl ⟨[], rfl, id⟩
      · exact .inr ⟨rfl, by rw [hset]; rfl⟩
  | timedWait =>
      rw [handlerStep]
      split
      · exact .inr ⟨rfl, by rw [hset]; rfl⟩
      · exact .inl ⟨[], rfl, id⟩
  | setTracking enabled => exact .inl ⟨[], rfl, id⟩
  | checkRunning => cases h
  | checkAllowed =>
      rw [handlerStep]
      split
      · exact .inl ⟨[], rfl, id⟩
      · exact .inr ⟨rfl, by rw [hset]; rfl⟩
  | checkMode label =>
      rw [handlerStep]
      split
      · exact .inr ⟨rfl, by rw [hset]; rfl⟩
      · split
        · exact .inr ⟨rfl, by rw [hset]; rfl⟩
        · exact .inl ⟨[], rfl, id⟩

/-! ### The jobs that owe a report -/

/-- What a handler owes: it reports in its attribute, once it is past the check. -/
def owedBy (attr : ProgressAttr) : Option Handling → Nat
  | none => 0
  | some h => if h.attr = attr ∧ atCheck h.steps = false then 1 else 0

/-- The jobs that are going to report in the attribute. -/
def owed (s : DishTasks) (attr : ProgressAttr) : Nat :=
  s.queue.countP (fun msg => msg.progressAttr = some attr) + owedBy attr s.handling

/-- A handler that runs reports at its end, unless it is at the check of `shutdown`. -/
def Expected (h : Handling) : Prop :=
  reports h.steps = true
    ∨ h.attr = .setStandbyLPModeProgress
      ∧ ∃ rest, h.steps = .checkRunning :: rest ∧ reports rest = true

/-- **The invariant.** A progress that is busy is owed a report, and no job owes one to a progress
that is not, except that `shutdown` runs the handler of `SetStandbyLPMode` as well. -/
structure Tracked (s : DishTasks) : Prop where
  expected : ∀ h, s.handling = some h → Expected h
  le_owed : ∀ attr, attr ≠ .stowProgress → (s.progress attr).isBusy.toNat ≤ s.owed attr
  owed_le : ∀ attr, attr ≠ .stowProgress → attr ≠ .setStandbyLPModeProgress →
    s.owed attr ≤ (s.progress attr).isBusy.toNat

theorem Tracked.free (h : s.Tracked) : s.Free := by
  intro attr hattr hqueue hhandling
  have hcount : s.queue.countP (fun msg => msg.progressAttr = some attr) = 0 := by
    simpa using hqueue
  have howed : owedBy attr s.handling = 0 := by
    cases hh : s.handling with
    | none => rfl
    | some handling => simp [owedBy, hhandling handling hh]
  have hbusy := h.le_owed attr hattr
  rw [owed, hcount, howed] at hbusy
  simpa using hbusy

theorem Tracked.congr (h : s.Tracked)
    (hprogress : ∀ attr, attr ≠ .stowProgress → s'.progress attr = s.progress attr)
    (howed : ∀ attr, s'.owed attr = s.owed attr)
    (hexpected : ∀ h, s'.handling = some h → Expected h) : s'.Tracked where
  expected := hexpected
  le_owed attr hattr := by
    rw [hprogress attr hattr, howed]
    exact h.le_owed attr hattr
  owed_le attr hattr hstandbyLP := by
    rw [hprogress attr hattr, howed]
    exact h.owed_le attr hattr hstandbyLP

theorem owedBy_of_reports {steps : List HandlerStep} (h : reports steps = true) :
    owedBy attr (some ⟨attr, steps⟩) = 1 :=
  if_pos ⟨rfl, atCheck_of_reports h⟩

theorem owedBy_of_ne {steps : List HandlerStep} (h : other ≠ attr) :
    owedBy other (some ⟨attr, steps⟩) = 0 :=
  if_neg fun hand => h hand.1.symm

theorem Tracked.ends (h : s.Tracked) {steps : List HandlerStep}
    (hhandling : s.handling = some ⟨attr, steps⟩) (hreports : reports steps = true)
    (hqueue : s'.queue = s.queue) (hothers : ∀ a, a ≠ attr → s'.progress a = s.progress a)
    (hidle : (s'.progress attr).isBusy = false) : { s' with handling := none }.Tracked := by
  have howed : ∀ a, { s' with handling := none }.owed a + owedBy a s.handling = s.owed a := by
    intro a
    simp [owed, owedBy, hqueue]
  refine ⟨fun _ hnone => ?_, fun a ha => ?_, fun a ha hstandbyLP => ?_⟩
  · cases hnone
  all_goals
    have hbefore := howed a
    rw [hhandling] at hbefore
    by_cases hattr : a = attr
  · subst hattr
    simp [hidle]
  · rw [owedBy_of_ne hattr] at hbefore
    have hle := h.le_owed a ha
    simpa [hothers a hattr, ← hbefore] using hle
  · subst hattr
    rw [owedBy_of_reports hreports] at hbefore
    have hle := h.owed_le a ha hstandbyLP
    have hbusy := Bool.toNat_le (s.progress a).isBusy
    omega
  · rw [owedBy_of_ne hattr] at hbefore
    have hle := h.owed_le a ha hstandbyLP
    simpa [hothers a hattr, ← hbefore] using hle

theorem Tracked.goesOn (h : s.Tracked) {steps steps' : List HandlerStep}
    (hhandling : s.handling = some ⟨attr, steps⟩) (hreports : reports steps = true)
    (hreports' : reports steps' = true) (hqueue : s'.queue = s.queue)
    (hothers : ∀ a, a ≠ attr → s'.progress a = s.progress a)
    (hbusy : (s.progress attr).isBusy = true → (s'.progress attr).isBusy = true) :
    { s' with handling := some ⟨attr, steps'⟩ }.Tracked := by
  have howed : ∀ a, { s' with handling := some ⟨attr, steps'⟩ }.owed a = s.owed a := by
    intro a
    rw [owed, owed, hhandling, hqueue]
    by_cases hattr : a = attr
    · subst hattr
      rw [owedBy_of_reports hreports, owedBy_of_reports hreports']
    · rw [owedBy_of_ne hattr, owedBy_of_ne hattr]
  refine ⟨fun h' hsome => ?_, fun a ha => ?_, fun a ha hstandbyLP => ?_⟩
  · obtain rfl := Option.some.inj hsome
    exact .inl hreports'
  all_goals
    rw [howed]
    by_cases hattr : a = attr
  · subst hattr
    have hone : 1 ≤ s.owed a := by
      rw [owed, hhandling, owedBy_of_reports hreports]
      exact Nat.le_add_left 1 _
    have hle := Bool.toNat_le (s'.progress a).isBusy
    dsimp only
    omega
  · rw [hothers a hattr]
    exact h.le_owed a ha
  · subst hattr
    have hone : 1 ≤ s.owed a := by
      rw [owed, hhandling, owedBy_of_reports hreports]
      exact Nat.le_add_left 1 _
    have hle := h.owed_le a ha hstandbyLP
    have hbefore : (s.progress a).isBusy = true := by
      by_contra hidle
      rw [eq_false_of_ne_true hidle] at hle
      rw [Bool.toNat_false] at hle
      omega
    rw [hbusy hbefore]
    rw [hbefore] at hle
    exact hle
  · rw [hothers a hattr]
    exact h.owed_le a ha hstandbyLP

theorem Tracked.checked (h : s.Tracked)
    (hhandling : s.handling = some ⟨.setStandbyLPModeProgress, .checkRunning :: rest⟩)
    {handling : Option Handling} (hexpected : ∀ h, handling = some h → Expected h)
    (hother : ∀ a, a ≠ .setStandbyLPModeProgress → owedBy a handling = 0) :
    { s with handling := handling }.Tracked := by
  have hbefore : ∀ a, owedBy a s.handling = 0 := by
    intro a
    simp [hhandling, owedBy, atCheck]
  refine ⟨hexpected, fun a ha => ?_, fun a ha hstandbyLP => ?_⟩
  · have hle := h.le_owed a ha
    rw [owed, hbefore] at hle
    exact hle.trans (Nat.add_le_add_left (Nat.zero_le _) _)
  · have hle := h.owed_le a ha hstandbyLP
    rw [owed, hbefore] at hle
    rw [owed, hother a hstandbyLP]
    exact hle

theorem Tracked.takes (h : s.Tracked) (hhandling : s.handling = none) {msg : TaskMessage}
    {queue : List TaskMessage} (hqueue : s.queue = msg :: queue) :
    { s with
      queue := queue
      handling := some (process_message indexerPos_moving msg) }.Tracked := by
  refine h.congr (fun _ _ => rfl) (fun a => ?_) fun h' hsome => ?_
  · rw [owed, owed, hhandling, hqueue, List.countP_cons]
    cases msg <;> cases a <;> rfl
  · obtain rfl := Option.some.inj hsome
    cases msg with
    | setStandbyLP => exact .inl rfl
    | setStandbyFP => exact .inl rfl
    | setPoint => exact .inl rfl
    | moveIndexer _ => exact .inl rfl
    | shutdown => exact .inr ⟨rfl, _, rfl, rfl⟩

theorem Tracked.handlerStep (h : s.Tracked) (hhandling : s.handling = some ⟨attr, first :: rest⟩)
    (hreports : reports (first :: rest) = true) :
    { (s.handlerStep e attr first).1 with
      handling := Handling.next attr rest (s.handlerStep e attr first).2 }.Tracked := by
  obtain ⟨hqueue, hothers⟩ := handlerStep_frame s e attr first
  obtain ⟨rfl, status, rfl, hidle⟩ | ⟨hinner, hrest⟩ := reports_cons hreports
  · refine h.ends hhandling hreports hqueue hothers ?_
    rw [DishTasks.handlerStep, setStatus]
    simpa using hidle
  · obtain ⟨calls, hnext, hbusy⟩ | ⟨hnext, hidle⟩ := handlerStep_inner (s := s) (e := e) hinner
    · have hmore := reports_calls calls hrest
      have hne : calls.map HandlerStep.call ++ rest ≠ [] := by
        intro hnil
        rw [hnil] at hmore
        cases hmore
      rw [hnext, Handling.next, if_neg hne]
      exact h.goesOn hhandling hreports hmore hqueue hothers hbusy
    · rw [hnext]
      exact h.ends hhandling hreports hqueue hothers hidle

theorem Tracked.taskStep (h : s.Tracked) : (s.taskStep indexerPos_moving e).Tracked := by
  rw [DishTasks.taskStep]
  split
  case h_1 hhandling =>
    split
    · exact h
    case h_2 hqueue => exact h.takes hhandling hqueue
  case h_2 hhandling =>
    obtain hreports | ⟨_, rest, hsteps, _⟩ := h.expected _ hhandling
    · cases hreports
    · cases hsteps
  case h_3 attr first rest hhandling =>
    obtain hreports | ⟨hattr, _, hsteps, hrest⟩ := h.expected _ hhandling
    · exact h.handlerStep hhandling hreports
    · dsimp only at hattr hsteps
      subst hattr
      obtain ⟨rfl, rfl⟩ := List.cons.inj hsteps
      rw [DishTasks.handlerStep]
      by_cases hrunning : (s.progress .setStandbyLPModeProgress).isBusy = true
      · rw [if_pos hrunning]
        have hnone : ∀ h', (none : Option Handling) = some h' → Expected h' := nofun
        exact h.checked hhandling hnone fun _ _ => rfl
      · rw [if_neg hrunning]
        have hne : rest ≠ [] := by
          rintro rfl
          cases hrest
        refine h.checked hhandling (fun h' hsome => ?_) fun a ha => ?_
        · rw [Handling.next, List.nil_append, if_neg hne] at hsome
          obtain rfl := Option.some.inj hsome
          exact .inl hrest
        · rw [Handling.next, List.nil_append, if_neg hne]
          exact owedBy_of_ne ha

theorem setStatus_self (s : DishTasks) (attr : ProgressAttr) (status : ProgressStatus) :
    (s.setStatus attr status).progress attr = status := if_pos rfl

theorem setStatus_of_ne (s : DishTasks) (status : ProgressStatus) (h : other ≠ attr) :
    (s.setStatus attr status).progress other = s.progress other := if_neg h

theorem setStatus_setStatus (s : DishTasks) (attr : ProgressAttr) (before after : ProgressStatus) :
    (s.setStatus attr before).setStatus attr after = s.setStatus attr after := by
  refine congrArg (fun progress => { s with progress := progress }) (funext fun a => ?_)
  by_cases ha : a = attr
  · rw [if_pos ha, if_pos ha]
  · rw [if_neg ha, if_neg ha]
    exact if_neg ha

theorem Tracked.setStatus (h : s.Tracked) (hidle : (s.progress attr).isBusy = false)
    {status : ProgressStatus} (hstatus : status.isBusy = false) :
    (s.setStatus attr status).Tracked := by
  have hbusy : ∀ a, ((s.setStatus attr status).progress a).isBusy = (s.progress a).isBusy := by
    intro a
    by_cases ha : a = attr
    · subst ha
      rw [setStatus_self, hidle, hstatus]
    · rw [setStatus_of_ne _ _ ha]
  refine ⟨h.expected, fun a ha => ?_, fun a ha hstandbyLP => ?_⟩
  · rw [hbusy]
    exact h.le_owed a ha
  · rw [hbusy]
    exact h.owed_le a ha hstandbyLP

theorem Tracked.posted (h : s.Tracked) (hidle : (s.progress attr).isBusy = false)
    {msg : TaskMessage} (hmsg : msg.progressAttr = some attr) :
    { s.setStatus attr .IDLE with queue := s.queue ++ [msg] }.Tracked := by
  have howed : ∀ a, DishTasks.owed { s.setStatus attr .IDLE with queue := s.queue ++ [msg] } a
      = s.owed a + if attr = a then 1 else 0 := by
    intro a
    simp only [owed, DishTasks.setStatus, List.countP_append, List.countP_singleton, hmsg,
      Option.some.injEq, decide_eq_true_eq]
    omega
  refine ⟨h.expected, fun a ha => ?_, fun a ha hstandbyLP => ?_⟩
  all_goals
    rw [howed]
    by_cases hself : a = attr
  · rw [if_pos hself.symm]
    exact (Bool.toNat_le _).trans (Nat.le_add_left 1 _)
  · rw [if_neg (Ne.symm hself)]
    simpa [DishTasks.setStatus, hself] using h.le_owed a ha
  · subst hself
    have hle := h.owed_le a ha hstandbyLP
    rw [hidle] at hle
    rw [if_pos rfl, Nat.le_zero.mp hle]
    simp [DishTasks.setStatus, ProgressStatus.isBusy]
  · rw [if_neg (Ne.symm hself)]
    simpa [DishTasks.setStatus, hself] using h.owed_le a ha hstandbyLP

/-- A command whose failure to post goes to its own attribute. -/
theorem Tracked.command (h : s.Tracked) {e : CommandTurn} {active : Bool} {msg : TaskMessage}
    {failureAttr : ProgressAttr} (hmsg : msg.progressAttr = some attr)
    (hposts : s.schedules e attr active = true → e.posts = true ∨ failureAttr = attr) :
    (s.command e attr active msg failureAttr).1.Tracked := by
  rw [DishTasks.command]
  split
  case isTrue hschedules =>
    have hidle : (s.progress attr).isBusy = false := by
      simp only [schedules, Bool.and_eq_true, Bool.not_eq_true'] at hschedules
      exact hschedules.1.1.2
    dsimp only
    split
    · exact h.posted hidle hmsg
    case isFalse hfails =>
      rw [(hposts hschedules).resolve_left hfails, setStatus_setStatus]
      exact h.setStatus hidle rfl
  case isFalse =>
    split
    case isTrue hactive =>
      have hidle : (s.progress attr).isBusy = false := by
        simp only [Bool.and_eq_true, Bool.not_eq_true'] at hactive
        exact hactive.1.2
      exact h.setStatus hidle rfl
    · exact h

theorem command_progress_of_ne {e : CommandTurn} {active : Bool} {msg : TaskMessage}
    {failureAttr : ProgressAttr}
    (hposts : s.schedules e attr active = true → e.posts = true ∨ failureAttr = attr)
    (hother : other ≠ attr) :
    (s.command e attr active msg failureAttr).1.progress other = s.progress other := by
  rw [DishTasks.command]
  split
  case isTrue hschedules =>
    dsimp only
    split
    · exact setStatus_of_ne _ _ hother
    case isFalse hfails =>
      rw [(hposts hschedules).resolve_left hfails, setStatus_setStatus]
      exact setStatus_of_ne _ _ hother
  case isFalse =>
    split
    · exact setStatus_of_ne _ _ hother
    · rfl

theorem Tracked.step (h : s.Tracked) {i : DishInput} (hposts : s.PostsStandbyFP i) :
    (s.step indexerPos_moving i).Tracked := by
  cases i with
  | command c e =>
      cases c with
      | setStandbyLPMode => exact h.command rfl fun _ => .inr rfl
      | setStandbyFPMode => exact h.command rfl fun hschedules => .inl (hposts hschedules)
      | setPointMode => exact h.command rfl fun _ => .inr rfl
      | setIndexPosition argin => exact h.command rfl fun _ => .inr rfl
  | shutdown =>
      refine h.congr (fun _ _ => rfl) (fun a => ?_) h.expected
      simp [owed, DishTasks.step, TaskMessage.progressAttr]
  | task e => exact h.taskStep
  | setStowStatus status =>
      exact h.congr (fun a ha => setStatus_of_ne _ _ ha) (fun _ => rfl) h.expected
  | setTracking enabled => exact h.congr (fun _ _ => rfl) (fun _ => rfl) h.expected
  | setAttrs attrs => exact h.congr (fun _ _ => rfl) (fun _ => rfl) h.expected

theorem owns_step {i : DishInput} (hposts : s.PostsStandbyFP i) : s.Owns indexerPos_moving i := by
  intro attr hactor other hother
  cases i with
  | command c e =>
      obtain rfl := Option.some.inj hactor
      cases c with
      | setStandbyLPMode => exact command_progress_of_ne (fun _ => .inr rfl) hother
      | setStandbyFPMode =>
          exact command_progress_of_ne (fun hschedules => .inl (hposts hschedules)) hother
      | setPointMode => exact command_progress_of_ne (fun _ => .inr rfl) hother
      | setIndexPosition argin => exact command_progress_of_ne (fun _ => .inr rfl) hother
  | task e =>
      obtain ⟨h, hhandling, rfl⟩ := Option.map_eq_some_iff.mp hactor
      obtain ⟨attr, steps⟩ := h
      rw [DishTasks.step, DishTasks.taskStep, hhandling]
      cases steps with
      | nil => rfl
      | cons step rest => exact (handlerStep_frame s e attr step).2 other hother
  | _ => cases hactor

theorem Tracked.not_free_step (h : s.Tracked) {i : DishInput} (hposts : ¬ s.PostsStandbyFP i) :
    ¬ (s.step indexerPos_moving i).Free := by
  cases i with
  | command c e =>
      cases c with
      | setStandbyFPMode =>
          intro hfree
          obtain ⟨hschedules, hfails⟩ := Classical.not_imp.mp hposts
          have hidle : (s.progress .setStandbyFPModeProgress).isBusy = false := by
            simp only [schedules, Bool.and_eq_true, Bool.not_eq_true'] at hschedules
            exact hschedules.1.1.2
          have hnone := h.owed_le .setStandbyFPModeProgress (by decide) (by decide)
          rw [hidle] at hnone
          obtain ⟨hqueue, hhandling⟩ := Nat.add_eq_zero_iff.mp (Nat.le_zero.mp hnone)
          have hafter : (s.step indexerPos_moving (.command .setStandbyFPMode e))
              = (s.setStatus .setStandbyFPModeProgress .IDLE).setStatus
                .setStandbyLPModeProgress .ABORTED := by
            simp only [DishTasks.step, execute, set_standby_fpmode, DishTasks.command,
              if_pos hschedules, if_neg hfails]
          rw [hafter] at hfree
          have hbusy := hfree .setStandbyFPModeProgress (by decide) ?_ ?_
          · rw [setStatus_of_ne _ _ (by decide), setStatus_self] at hbusy
            cases hbusy
          · intro msg hmsg
            simpa using List.countP_eq_zero.mp hqueue msg hmsg
          · intro handling hsome hattr
            obtain hreports | ⟨hstandbyLP, _⟩ := h.expected handling hsome
            · change s.handling = some handling at hsome
              rw [hsome, owedBy, if_pos ⟨hattr, atCheck_of_reports hreports⟩] at hhandling
              cases hhandling
            · rw [hattr] at hstandbyLP
              cases hstandbyLP
      | _ => exact absurd trivial hposts
  | _ => exact absurd trivial hposts

/-- **Who reports in a progress attribute.** From the start, every command and every handler changes
its own progress only, and no command is ever locked by it, exactly when all the messages that
`SetStandbyFPMode` posts can be posted. -/
theorem owns_and_free_iff_postsStandbyFP (indexerPos_moving : Int) (attrs : DishAttrs)
    (inputs : List DishInput) :
    (Along (step indexerPos_moving) (Owns indexerPos_moving) { attrs := attrs } inputs
        ∧ ∀ past, past <+: inputs → (run (step indexerPos_moving) { attrs := attrs } past).Free)
      ↔ Along (step indexerPos_moving) PostsStandbyFP { attrs := attrs } inputs := by
  have hstart : Tracked { attrs := attrs } := by
    refine ⟨fun _ hnone => ?_, fun _ _ => le_rfl, fun _ _ _ => le_rfl⟩
    cases hnone
  have hD : Along (step indexerPos_moving) (fun _ _ => True) { attrs := attrs } inputs :=
    along_of_forall_mem fun _ _ => trivial
  have hfree : (∀ past, past <+: inputs →
        (run (step indexerPos_moving) { attrs := attrs } past).Free)
      ↔ Along (step indexerPos_moving) PostsStandbyFP { attrs := attrs } inputs := by
    refine forall_prefix_iff_along (fun _ h => h.free) ?_ ?_ hstart hD
    · exact fun _ _ h _ hposts => h.step hposts
    · exact fun _ _ h _ hposts => h.not_free_step hposts
  constructor
  · intro h
    exact hfree.mp h.2
  · intro h
    exact ⟨h.mono fun _ _ hposts => owns_step hposts, hfree.mpr h⟩

def parkedAttrs : DishAttrs where
  antennaAzPosition := 0
  antennaElPosition := 90
  targetLock := false
  brakeState _ := true
  servoState _ := false
  powerState := "LOW-POWER"
  pointingState := "NONE"
  operatingMode := "STANDBY-LP"
  indexerPosition := 1

/-- The queue is full when `SetStandbyFPMode` is issued: it reports for `SetStandbyLPMode`, and is
locked itself. -/
theorem not_owns_and_not_free_queueFull :
    ¬ Owns 5 { attrs := parkedAttrs } (.command .setStandbyFPMode { posts := false })
      ∧ ¬ (step 5 { attrs := parkedAttrs }
        (.command .setStandbyFPMode { posts := false })).Free := by
  constructor
  · intro howns
    have hother := howns .setStandbyFPModeProgress rfl .setStandbyLPModeProgress (by decide)
    exact absurd hother (by decide)
  · intro hfree
    have hhandling : (step 5 { attrs := parkedAttrs }
        (.command .setStandbyFPMode { posts := false })).handling = none := rfl
    have hbusy := hfree .setStandbyFPModeProgress (by decide) (by decide) (by simp [hhandling])
    exact absurd hbusy (by decide)

end DishTasks

end DshLmc
