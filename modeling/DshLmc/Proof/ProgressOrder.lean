import DshLmc.Proof.DishRuns

/-!
# The order of the writes to a progress attribute

A progress attribute is written by the command that schedules a sequence and by `UpdateStatusAttrs`,
in threads that hold no common lock. Both write what they have seen before: the one that it has added
its sequence, the other the status that a sequence had. What they write is about the last sequence
added as long as no other has been added in between, the command writes IDLE before the status has
moved on, and the most recent sequence is the last one.
-/

namespace DshLmc

namespace DishManager

local instance : Preorder Time := timeOrder

variable {ι : Type} [DecidableEq ι] (S : SetImpl TaskPtr) (props : Properties) (h : Heap)

/-- The sequence that the next write of a thread is about, whether the thread has added it, and what
has happened since the thread added it or looked at it: another sequence has been added that reports
in the same attribute, a status past `INIT` and `IDLE` has been written there. -/
structure Writing where
  subject : Option TaskSequencePtr
  scheduled : Bool
  stale : Bool
  overtaken : Bool

def Writing.about (subject : Option TaskSequencePtr) (scheduled : Bool) : Writing where
  subject := subject
  scheduled := scheduled
  stale := false
  overtaken := false

/-- The device with the sequences added, the last one for each attribute, the sequence and the
status that an attribute carries, and the writes to come. -/
structure ProgressWatch (ι : Type) where
  dish : DishManager ι
  added : List TaskSequencePtr
  latest : String → Option TaskSequencePtr
  written : String → Option (TaskSequencePtr × TaskStatus)
  writing : ι → Writing

def ProgressWatch.initial (d : DishManager ι) : ProgressWatch ι where
  dish := d
  added := []
  latest _ := none
  written _ := none
  writing _ := .about none false

/-- The value that a command writes, and the attribute. -/
def progressWrite (d : DishManager ι) : Input ι → Option (ι × String × List String)
  | .act t outcome =>
      match (d.threads t).rest with
      | .setProgress attr_name msg :: _ =>
          if outcome = .failsBefore then none else some (t, attr_name, msg)
      | _ => none
  | _ => none

def isPast (status : TaskStatus) : Bool := status != .init && status != .idle

/-- What an input does to the write of a thread. -/
def disturb (o : ProgressWatch ι) (i : Input ι) (w : Writing) : Writing :=
  { w with
    stale := w.stale || w.subject.any fun q => (o.dish.tracks S i).any fun q' => h.SameReport q q'
    overtaken :=
      w.overtaken || w.subject.any fun q =>
        (statusWrite o.dish i).any fun write => h.Reports q write.2.1 && isPast write.2.2.status }

def writingAfter (o : ProgressWatch ι) (i : Input ι) (t : ι) : Writing :=
  match i with
  | .start t' _ =>
      if t = t' ∧ (o.dish.threads t).rest.isEmpty then .about none false else o.writing t
  | .act t' _ =>
      if t = t' then
        match (o.dish.threads t).rest with
        | .getStatusInfo attr_name :: _ =>
            .about (o.dish.system.manager.mostRecent attr_name) false
        | .addTaskSequence _ q _ :: _ =>
            if q ∈ o.dish.tracks S i then .about (some q) true else disturb S h o i (o.writing t)
        | _ => disturb S h o i (o.writing t)
      else disturb S h o i (o.writing t)
  | i => disturb S h o i (o.writing t)

def writtenAfter (o : ProgressWatch ι) (i : Input ι) (attr_name : String) :
    Option (TaskSequencePtr × TaskStatus) :=
  match statusWrite o.dish i, progressWrite o.dish i with
  | some (t, written_name, info), _ =>
      if attr_name = written_name then (o.writing t).subject.map fun q => (q, info.status)
      else o.written attr_name
  | none, some (_, written_name, _) =>
      if attr_name = written_name then none else o.written attr_name
  | none, none => o.written attr_name

def watchProgress (o : ProgressWatch ι) (i : Input ι) : ProgressWatch ι where
  dish := o.dish.step S props i
  added := o.added ++ o.dish.adds i
  latest attr_name :=
    ((o.dish.tracks S i).find? fun q => h.Reports q attr_name).or (o.latest attr_name)
  written := writtenAfter o i
  writing := writingAfter S h o i

/-- A status that is written is that of the last sequence added, and IDLE is written for the last
sequence added while its status is not past it. -/
structure WritesForward (o : ProgressWatch ι) (i : Input ι) : Prop where
  status : ∀ t attr_name info, statusWrite o.dish i = some (t, attr_name, info) →
    ∃ q, (o.writing t).subject = some q ∧ o.latest attr_name = some q
  idle : ∀ t attr_name msg, progressWrite o.dish i = some (t, attr_name, msg) →
    msg.head? = some "IDLE" → (o.writing t).scheduled = true →
      ∀ q, (o.writing t).subject = some q → h.Reports q attr_name →
        o.latest attr_name = some q
          ∧ ∀ status, o.written attr_name = some (q, status) → isPast status = false

/-- The steps come in an order in which every write is about the last sequence. -/
structure InOrder (o : ProgressWatch ι) (i : Input ι) : Prop where
  addsNew : ∀ q ∈ o.dish.adds i, q ∉ o.added
  addsLater : ∀ q ∈ o.dish.tracks S i, ∀ q' ∈ o.dish.system.manager.taskSequences,
    h.SameReport q q' → (h.sequence q').creationTime < (h.sequence q).creationTime
  dropsEarlier : ∀ q ∈ o.dish.system.manager.taskSequences,
    o.dish.drops i (o.dish.system.manager.sequence q) = true →
      o.latest (h.sequence q).statusAttrName = some q →
        ∀ q' ∈ o.dish.system.manager.taskSequences, h.SameReport q q' →
          o.dish.drops i (o.dish.system.manager.sequence q') = true
  statusFresh : ∀ write ∈ statusWrite o.dish i, (o.writing write.1).stale = false
  idleFresh : ∀ write ∈ progressWrite o.dish i, write.2.2.head? = some "IDLE" →
    (o.writing write.1).scheduled = true →
      (o.writing write.1).stale = false ∧ (o.writing write.1).overtaken = false

/-- A status is written only to an attribute in which the sequence looked at before reports: `ok`
holds of the attributes for which that is known. -/
def Follows (ok : String → Prop) : List Action → Prop
  | [] => True
  | .getStatusInfo attr_name :: rest => Follows (· = attr_name) rest
  | .setStatusAttr attr_name :: rest => ok attr_name ∧ Follows ok rest
  | .addTaskSequence _ _ _ :: rest => Follows (fun _ => False) rest
  | _ :: rest => Follows ok rest

theorem Follows.mono {ok ok' : String → Prop} (hok : ∀ attr_name, ok attr_name → ok' attr_name)
    {rest : List Action} (hf : Follows ok rest) : Follows ok' rest := by
  induction rest generalizing ok ok' with
  | nil => trivial
  | cons a rest ih =>
      cases a with
      | getStatusInfo attr_name => exact hf
      | setStatusAttr attr_name => exact ⟨hok attr_name hf.1, ih hok hf.2⟩
      | addTaskSequence hasAttribute q abortedMsg => exact hf
      | _ => exact ih hok hf

theorem follows_update_status_attrs (ok : String → Prop) : Follows ok (update_status_attrs props) := by
  rw [update_status_attrs]
  induction props.taskSequenceStatusAttrList generalizing ok with
  | nil => trivial
  | cons attr_name attr_names ih => exact ⟨rfl, ih _⟩

theorem follows_actions (ok : String → Prop) (c : Command) : Follows ok (c.actions props) := by
  cases c with
  | updateStatusAttrs => exact follows_update_status_attrs props ok
  | revokeTask name =>
      simp only [Command.actions, revoke_task]
      split <;> trivial
  | _ => trivial

theorem follows_throws (ok : String → Prop) (msgs : List (String × List String)) :
    Follows ok ((msgs.map fun msg => .setProgress msg.1 msg.2) ++ [.throwException]) := by
  induction msgs with
  | nil => trivial
  | cons msg msgs ih => exact ih

theorem follows_instead (ok : String → Prop) {a : Action} {attrs : Attrs} {succeeds : Bool}
    {instead : List Action} (hinstead : a.instead attrs succeeds = some instead) :
    Follows ok instead := by
  have hcases : instead = [] ∨ instead = [.throwException] ∨
      ∃ attr_name msg, instead = [.setProgress attr_name msg] := by
    cases a <;> simp only [Action.instead] at hinstead <;> grind
  obtain rfl | rfl | ⟨attr_name, msg, rfl⟩ := hcases <;> trivial

section

variable {S props h} {o : ProgressWatch ι} {i : Input ι} {t : ι} {q q' : TaskSequencePtr}
  {attr_name : String} {a : Action} {rest : List Action} {outcome : WriteOutcome}

/-- The thread has looked at a sequence that reports in the attribute, if it has looked at one. -/
def KnowsReport (h : Heap) (thread : Thread) (w : Writing) (attr_name : String) : Prop :=
  thread.info.isSome = true → ∃ q, w.subject = some q ∧ h.Reports q attr_name

structure ProgressWatch.Sound (h : Heap) (o : ProgressWatch ι) : Prop where
  traced : Traced h o.added o.dish.system
  reports : ∀ attr_name q, o.latest attr_name = some q → h.Reports q attr_name
  newest : ∀ attr_name q, o.latest attr_name = some q →
    ∀ q' ∈ o.dish.system.manager.taskSequences, h.Reports q' attr_name → q' ≠ q →
      (h.sequence q').creationTime < (h.sequence q).creationTime
  present : ∀ attr_name, ∀ q' ∈ o.dish.system.manager.taskSequences, h.Reports q' attr_name →
    ∃ q ∈ o.dish.system.manager.taskSequences, o.latest attr_name = some q
  added : ∀ t q, (o.writing t).subject = some q → q ∈ o.added
  fresh : ∀ t q, (o.writing t).subject = some q → (o.writing t).stale = false →
    ∀ attr_name, h.Reports q attr_name → o.latest attr_name = some q
  written : ∀ attr_name q status, o.written attr_name = some (q, status) → q ∈ o.added
  scheduled : ∀ t q, (o.writing t).subject = some q → (o.writing t).scheduled = true →
    (o.writing t).overtaken = false → ∀ attr_name status,
      o.written attr_name = some (q, status) → isPast status = false
  follows : ∀ t, Follows (KnowsReport h (o.dish.threads t) (o.writing t)) (o.dish.threads t).rest

omit [DecidableEq ι] in
theorem ProgressWatch.sound_initial (devName : String) (attrs : Attrs) :
    (ProgressWatch.initial (DishManager.initial h devName attrs : DishManager ι)).Sound h where
  traced := Traced.create h devName
  reports := by simp [ProgressWatch.initial]
  newest := by simp [ProgressWatch.initial]
  present attr_name q' hq' := (List.not_mem_nil hq').elim
  added := by simp [ProgressWatch.initial, Writing.about]
  fresh := by simp [ProgressWatch.initial, Writing.about]
  written := by simp [ProgressWatch.initial]
  scheduled := by simp [ProgressWatch.initial, Writing.about]
  follows _ := trivial

omit [DecidableEq ι] in
theorem not_mem_added_of_mem_tracks (hi : InOrder S h o i) (hq : q ∈ o.dish.tracks S i) :
    q ∉ o.added := by
  refine hi.addsNew q ?_
  rw [(adds_of_mem_tracks hq).1]
  exact List.mem_singleton_self q

omit [DecidableEq ι] in
theorem eq_of_mem_tracks (hq : q ∈ o.dish.tracks S i) (hq' : q' ∈ o.dish.tracks S i) : q' = q := by
  rw [(adds_of_mem_tracks hq).2] at hq'
  exact List.mem_singleton.mp hq'

variable (S props h) in
theorem latest_cases (o : ProgressWatch ι) (i : Input ι) (attr_name : String) :
    (∃ q ∈ o.dish.tracks S i, h.Reports q attr_name
        ∧ (watchProgress S props h o i).latest attr_name = some q)
      ∨ (∀ q ∈ o.dish.tracks S i, ¬ h.Reports q attr_name)
        ∧ (watchProgress S props h o i).latest attr_name = o.latest attr_name := by
  simp only [watchProgress]
  cases hfind : (o.dish.tracks S i).find? fun q => h.Reports q attr_name with
  | some q =>
      exact .inl ⟨q, List.mem_of_find?_eq_some hfind, by simpa using List.find?_some hfind, rfl⟩
  | none =>
      refine .inr ⟨fun q hq hr => ?_, rfl⟩
      exact absurd hr (by simpa using List.find?_eq_none.mp hfind q hq)

theorem mem_taskSequences_watchProgress :
    q ∈ (watchProgress S props h o i).dish.system.manager.taskSequences ↔
      (q ∈ o.dish.system.manager.taskSequences
          ∧ o.dish.drops i (o.dish.system.manager.sequence q) = false)
        ∨ q ∈ o.dish.tracks S i := by
  simp only [watchProgress, taskSequences_step, List.mem_append, List.mem_filter,
    Bool.not_eq_true']

theorem ProgressWatch.Sound.newest_step (ho : o.Sound h) (hi : InOrder S h o i)
    (hlatest : (watchProgress S props h o i).latest attr_name = some q)
    (hq' : q' ∈ (watchProgress S props h o i).dish.system.manager.taskSequences)
    (hr' : h.Reports q' attr_name) (hne : q' ≠ q) :
    (h.sequence q').creationTime < (h.sequence q).creationTime := by
  obtain ⟨q₀, hq₀, hr₀, heq⟩ | ⟨hnone, heq⟩ := latest_cases S props h o i attr_name
  · obtain rfl : q₀ = q := Option.some.inj (heq.symm.trans hlatest)
    obtain ⟨hold, -⟩ | hnew := mem_taskSequences_watchProgress.mp hq'
    · exact hi.addsLater q₀ hq₀ q' hold (Heap.sameReport_of_reports hr₀ hr')
    · exact absurd (eq_of_mem_tracks hq₀ hnew) hne
  · obtain ⟨hold, -⟩ | hnew := mem_taskSequences_watchProgress.mp hq'
    · exact ho.newest attr_name q (heq ▸ hlatest) q' hold hr' hne
    · exact absurd hr' (hnone q' hnew)

theorem ProgressWatch.Sound.present_step (ho : o.Sound h) (hi : InOrder S h o i)
    (hq' : q' ∈ (watchProgress S props h o i).dish.system.manager.taskSequences)
    (hr' : h.Reports q' attr_name) :
    ∃ q ∈ (watchProgress S props h o i).dish.system.manager.taskSequences,
      (watchProgress S props h o i).latest attr_name = some q := by
  obtain ⟨q₀, hq₀, -, heq⟩ | ⟨hnone, heq⟩ := latest_cases S props h o i attr_name
  · exact ⟨q₀, mem_taskSequences_watchProgress.mpr (.inr hq₀), heq⟩
  · obtain ⟨hold, hkept⟩ | hnew := mem_taskSequences_watchProgress.mp hq'
    swap
    · exact absurd hr' (hnone q' hnew)
    obtain ⟨q, hq, hlatest⟩ := ho.present attr_name q' hold hr'
    have hr := ho.reports attr_name q hlatest
    refine ⟨q, mem_taskSequences_watchProgress.mpr (.inl ⟨hq, ?_⟩), heq.trans hlatest⟩
    by_contra hdropped
    have hlost := hi.dropsEarlier q hq (by simpa using hdropped) (by rw [← hr.eq]; exact hlatest) q'
      hold (Heap.sameReport_of_reports hr hr')
    rw [hlost] at hkept
    cases hkept

omit [DecidableEq ι] in
/-- **The most recent sequence is the last one added.** -/
theorem ProgressWatch.Sound.latest_of_mostRecent (ho : o.Sound h)
    (hq : o.dish.system.manager.mostRecent attr_name = some q) :
    h.Reports q attr_name ∧ q ∈ o.added ∧ o.latest attr_name = some q := by
  have hmem := List.mem_filter.mp (List.argmax_mem hq)
  have hr : h.Reports q attr_name := by
    rw [Heap.Reports, ← ho.traced.objects.matchTaskSequenceByDevAttrName]
    exact hmem.2
  obtain ⟨q₀, hq₀, hlatest⟩ := ho.present attr_name q hmem.1 hr
  refine ⟨hr, ho.traced.tracked q hmem.1, ?_⟩
  by_contra hne
  have hlt := ho.newest attr_name q₀ hlatest q hmem.1 hr fun heq => hne (heq ▸ hlatest)
  have hr₀ := ho.reports attr_name q₀ hlatest
  have hle := List.le_of_mem_argmax (f := fun q => (o.dish.system.manager.sequence q).creationTime)
    (List.mem_filter.mpr ⟨hq₀, by
      rw [ho.traced.objects.matchTaskSequenceByDevAttrName]
      exact hr₀⟩) hq
  simp only [ho.traced.objects.creationTime] at hle
  exact absurd hlt (not_lt.mpr hle)

/-- What an input makes of the write of a thread. -/
inductive WritingMove (S : SetImpl TaskPtr) (h : Heap) (o : ProgressWatch ι) (i : Input ι) (t : ι) :
    Writing → Prop
  | starts (hstarts : ∃ c, i = .start t c) (hidle : (o.dish.threads t).rest = []) :
      WritingMove S h o i t (.about none false)
  | looks {outcome : WriteOutcome} {attr_name : String} {rest : List Action}
      (hi : i = .act t outcome) (hrest : (o.dish.threads t).rest = .getStatusInfo attr_name :: rest) :
      WritingMove S h o i t (.about (o.dish.system.manager.mostRecent attr_name) false)
  | schedules {outcome : WriteOutcome} {hasAttribute : String → Bool} {q : TaskSequencePtr}
      {abortedMsg : Option (String × List String)} {rest : List Action}
      (hi : i = .act t outcome)
      (hrest : (o.dish.threads t).rest = .addTaskSequence hasAttribute q abortedMsg :: rest)
      (hq : q ∈ o.dish.tracks S i) : WritingMove S h o i t (.about (some q) true)
  | waits : WritingMove S h o i t (disturb S h o i (o.writing t))

theorem writingMove (o : ProgressWatch ι) (i : Input ι) (t : ι) :
    WritingMove S h o i t (writingAfter S h o i t) := by
  cases i with
  | start t' c =>
      simp only [writingAfter]
      split
      · rename_i hstarts
        obtain ⟨rfl, hidle⟩ := hstarts
        exact .starts ⟨c, rfl⟩ (List.isEmpty_iff.mp hidle)
      · have hsame : o.writing t = disturb S h o (.start t' c) (o.writing t) := by
          simp [disturb, statusWrite, tracks, eventOf]
        rw [hsame]
        exact .waits
  | act t' outcome =>
      simp only [writingAfter]
      split
      · rename_i ht
        subst ht
        split
        · rename_i hrest
          exact .looks rfl hrest
        · rename_i hrest
          split
          · rename_i hq
            exact .schedules rfl hrest hq
          · exact .waits
        · exact .waits
      · exact .waits
  | event e => exact .waits
  | setDishMode label => exact .waits
  | setSeCtrlPowerStatus label => exact .waits
  | setHandlerEnabled name enabled => exact .waits

omit [DecidableEq ι] in
theorem tracks_of_looks (hrest : (o.dish.threads t).rest = .getStatusInfo attr_name :: rest) :
    o.dish.tracks S (.act t outcome) = [] := by
  simp [tracks, eventOf, hrest]

omit [DecidableEq ι] in
theorem stale_of_disturb {w : Writing} (hstale : (disturb S h o i w).stale = false)
    (hsubject : w.subject = some q) :
    w.stale = false ∧ ∀ q' ∈ o.dish.tracks S i, ¬ h.SameReport q q' := by
  simpa [disturb, hsubject] using hstale

theorem ProgressWatch.Sound.added_step (ho : o.Sound h)
    (hsubject : (writingAfter S h o i t).subject = some q) : q ∈ o.added ++ o.dish.adds i := by
  have hmove := writingMove (S := S) (h := h) o i t
  generalize writingAfter S h o i t = w at hmove hsubject
  cases hmove with
  | starts => cases hsubject
  | looks => exact List.mem_append_left _ (ho.latest_of_mostRecent hsubject).2.1
  | schedules hi hrest hq =>
      obtain rfl := Option.some.inj hsubject
      rw [(adds_of_mem_tracks hq).1]
      exact List.mem_append_right _ (List.mem_singleton_self _)
  | waits => exact List.mem_append_left _ (ho.added t q hsubject)

theorem ProgressWatch.Sound.fresh_step (ho : o.Sound h)
    (hsubject : (writingAfter S h o i t).subject = some q)
    (hstale : (writingAfter S h o i t).stale = false) (hr : h.Reports q attr_name) :
    (watchProgress S props h o i).latest attr_name = some q := by
  have hmove := writingMove (S := S) (h := h) o i t
  generalize writingAfter S h o i t = w at hmove hsubject hstale
  obtain ⟨q₀, hq₀, hr₀, heq⟩ | ⟨hnone, heq⟩ := latest_cases S props h o i attr_name
  · rw [heq]
    cases hmove with
    | starts => cases hsubject
    | looks hi hrest =>
        subst hi
        rw [tracks_of_looks hrest] at hq₀
        exact absurd hq₀ List.not_mem_nil
    | schedules hi hrest hq =>
        obtain rfl := Option.some.inj hsubject
        rw [eq_of_mem_tracks hq hq₀]
    | waits =>
        obtain ⟨-, hother⟩ := stale_of_disturb hstale hsubject
        exact absurd (Heap.sameReport_of_reports hr hr₀) (hother q₀ hq₀)
  · rw [heq]
    cases hmove with
    | starts => cases hsubject
    | looks hi hrest =>
        obtain ⟨hr', -, hlatest⟩ := ho.latest_of_mostRecent hsubject
        rw [hr.eq, ← hr'.eq]
        exact hlatest
    | schedules hi hrest hq =>
        obtain rfl := Option.some.inj hsubject
        exact absurd hr (hnone _ hq)
    | waits => exact ho.fresh t q hsubject (stale_of_disturb hstale hsubject).1 attr_name hr

omit [DecidableEq ι] in
theorem statusWrite_eq_some {info : TaskInfo}
    (hwrite : statusWrite o.dish i = some (t, attr_name, info)) :
    ∃ outcome rest, i = .act t outcome ∧ (o.dish.threads t).rest = .setStatusAttr attr_name :: rest
      ∧ (o.dish.threads t).info = some info := by
  unfold statusWrite at hwrite
  split at hwrite
  · split at hwrite
    · rename_i hrest hinfo
      split at hwrite
      · cases hwrite
      · obtain ⟨rfl, rfl, rfl⟩ : _ = t ∧ _ = attr_name ∧ _ = info := by simpa using hwrite
        exact ⟨_, _, rfl, hrest, hinfo⟩
    · cases hwrite
  · cases hwrite

omit [DecidableEq ι] in
theorem ProgressWatch.Sound.subject_of_statusWrite (ho : o.Sound h) {info : TaskInfo}
    (hwrite : statusWrite o.dish i = some (t, attr_name, info)) :
    ∃ q, (o.writing t).subject = some q ∧ h.Reports q attr_name := by
  obtain ⟨outcome, rest, -, hrest, hinfo⟩ := statusWrite_eq_some hwrite
  have hf := ho.follows t
  rw [hrest] at hf
  exact hf.1 (by rw [hinfo]; rfl)

omit [DecidableEq ι] in
theorem writtenAfter_eq_some {status : TaskStatus}
    (hwritten : writtenAfter o i attr_name = some (q, status)) :
    (∃ t info, statusWrite o.dish i = some (t, attr_name, info) ∧ (o.writing t).subject = some q
        ∧ info.status = status) ∨ o.written attr_name = some (q, status) := by
  unfold writtenAfter at hwritten
  split at hwritten
  · rename_i t' written_name info hwrite
    split at hwritten
    · rename_i hname
      subst hname
      simp only [Option.map_eq_some_iff, Prod.mk.injEq] at hwritten
      obtain ⟨q', hsubject, rfl, rfl⟩ := hwritten
      exact .inl ⟨t', info, hwrite, hsubject, rfl⟩
    · exact .inr hwritten
  · split at hwritten
    · cases hwritten
    · exact .inr hwritten
  · exact .inr hwritten

omit [DecidableEq ι] in
theorem ProgressWatch.Sound.written_step (ho : o.Sound h) {status : TaskStatus}
    (hwritten : writtenAfter o i attr_name = some (q, status)) : q ∈ o.added := by
  obtain ⟨t, info, -, hsubject, -⟩ | hold := writtenAfter_eq_some hwritten
  · exact ho.added t q hsubject
  · exact ho.written attr_name q status hold

theorem ProgressWatch.Sound.scheduled_step (ho : o.Sound h) (hi : InOrder S h o i)
    (hsubject : (writingAfter S h o i t).subject = some q)
    (hscheduled : (writingAfter S h o i t).scheduled = true)
    (hovertaken : (writingAfter S h o i t).overtaken = false) {status : TaskStatus}
    (hwritten : writtenAfter o i attr_name = some (q, status)) : isPast status = false := by
  have hmove := writingMove (S := S) (h := h) o i t
  generalize writingAfter S h o i t = w at hmove hsubject hscheduled hovertaken
  cases hmove with
  | starts => cases hsubject
  | looks => cases hscheduled
  | schedules _ hrest hq =>
      obtain rfl := Option.some.inj hsubject
      exact absurd (ho.written_step hwritten) (not_mem_added_of_mem_tracks hi hq)
  | waits =>
      change (o.writing t).subject = some q at hsubject
      change (o.writing t).scheduled = true at hscheduled
      simp only [disturb, hsubject, Option.any_some, Bool.or_eq_false_iff] at hovertaken
      obtain ⟨hbefore, hnow⟩ := hovertaken
      obtain ⟨t', info, hwrite, hsubject', rfl⟩ | hold := writtenAfter_eq_some hwritten
      · obtain ⟨q', hq', hr⟩ := ho.subject_of_statusWrite hwrite
        obtain rfl := Option.some.inj (hq'.symm.trans hsubject')
        simpa [hwrite, hr] using hnow
      · exact ho.scheduled t q hsubject hscheduled hbefore attr_name status hold

theorem KnowsReport.mono {thread thread' : Thread} {w w' : Writing}
    (hinfo : thread'.info.isSome = true → thread.info.isSome = true)
    (hsubject : w'.subject = w.subject) (hk : KnowsReport h thread w attr_name) :
    KnowsReport h thread' w' attr_name := by
  intro hsome
  rw [hsubject]
  exact hk (hinfo hsome)

theorem isSome_info_perform {d : DishManager ι}
    (ha : ∀ attr_name, a ≠ .getStatusInfo attr_name)
    (hsome : ((d.perform S t outcome rest a).threads t).info.isSome = true) :
    (d.threads t).info.isSome = true := by
  cases a with
  | getStatusInfo attr_name => exact absurd rfl (ha attr_name)
  | getStatusAttr attr_name =>
      simp only [perform, setThread, Function.update_self] at hsome
      split at hsome
      · exact hsome
      · cases hsome
  | setStatusAttr attr_name =>
      simp only [perform] at hsome
      split at hsome <;> simpa using hsome
  | throwException => simpa [perform, setThread] using hsome
  | _ => simpa [perform] using hsome

theorem ProgressWatch.Sound.follows_goesOn (ho : o.Sound h)
    (hrest : (o.dish.threads t).rest = a :: rest) :
    Follows (KnowsReport h ((o.dish.perform S t outcome rest a).threads t)
      (writingAfter S h o (.act t outcome) t)) rest := by
  have hf := ho.follows t
  rw [hrest] at hf
  have hkept : (∀ attr_name, a ≠ .getStatusInfo attr_name) →
      (∀ hasAttribute q abortedMsg, a ≠ .addTaskSequence hasAttribute q abortedMsg) →
      ∀ attr_name, KnowsReport h (o.dish.threads t) (o.writing t) attr_name →
        KnowsReport h ((o.dish.perform S t outcome rest a).threads t)
          (writingAfter S h o (.act t outcome) t) attr_name := by
    intro hinfo hadd attr_name
    refine KnowsReport.mono (isSome_info_perform hinfo) ?_
    simp only [writingAfter, if_true, hrest]
    split
    · rename_i heq
      exact absurd (List.cons.inj heq).1 (hinfo _)
    · rename_i heq
      exact absurd (List.cons.inj heq).1 (hadd _ _ _)
    · rfl
  cases a with
  | getStatusInfo attr_name =>
      refine Follows.mono ?_ hf
      rintro _ rfl hsome
      simp only [perform, setThread, Function.update_self, mostRecentInfo_eq, Option.isSome_map] at hsome
      obtain ⟨q, hq⟩ := Option.isSome_iff_exists.mp hsome
      refine ⟨q, ?_, (ho.latest_of_mostRecent hq).1⟩
      simp only [writingAfter, if_true, hrest]
      exact hq
  | addTaskSequence hasAttribute q abortedMsg => exact Follows.mono (fun _ => False.elim) hf
  | setStatusAttr attr_name => exact Follows.mono (hkept (by simp) (by simp)) hf.2
  | _ => exact Follows.mono (hkept (by simp) (by simp)) hf

theorem ProgressWatch.Sound.follows_step (ho : o.Sound h) (i : Input ι) (t : ι) :
    Follows (KnowsReport h ((o.dish.step S props i).threads t) (writingAfter S h o i t))
      ((o.dish.step S props i).threads t).rest := by
  have hsame : (o.dish.step S props i).threads t = o.dish.threads t →
      (writingAfter S h o i t).subject = (o.writing t).subject →
      Follows (KnowsReport h ((o.dish.step S props i).threads t) (writingAfter S h o i t))
        ((o.dish.step S props i).threads t).rest := by
    intro hthread hsubject
    rw [hthread]
    exact Follows.mono (fun _ hk => hk.mono id hsubject) (ho.follows t)
  cases i with
  | start t' c =>
      simp only [step, start]
      by_cases hstarts : t = t' ∧ (o.dish.threads t).rest.isEmpty = true
      · obtain ⟨rfl, hidle⟩ := hstarts
        simp only [hidle, if_true, setThread, Function.update_self]
        exact follows_actions props _ c
      · refine hsame ?_ (by simp only [writingAfter, if_neg hstarts])
        simp only [step, start]
        split
        · rename_i hidle
          exact threads_setThread_of_ne (fun ht => hstarts ⟨ht, ht ▸ hidle⟩) _
        · rfl
  | act t' outcome =>
      by_cases ht : t = t'
      · subst ht
        cases hrest : (o.dish.threads t).rest with
        | nil =>
            refine hsame ?_ (by simp [writingAfter, hrest, disturb])
            simp only [step, act, hrest]
        | cons a rest =>
            have hperform : o.dish.step S props (.act t outcome)
                = o.dish.perform S t outcome rest a := act_eq_perform hrest
            rw [hperform]
            have hnext := nextRest_perform (S := S) (d := o.dish) (t := t) outcome rest a
            generalize hafter : ((o.dish.perform S t outcome rest a).threads t).rest = after at hnext ⊢
            cases hnext with
            | goesOn => exact ho.follows_goesOn hrest
            | checked hinstead => exact follows_instead _ hinstead
            | throws => exact follows_throws _ _
            | thrown => trivial
      · refine hsame (threads_act_of_ne ht) ?_
        simp only [writingAfter, if_neg ht, disturb]
  | event e => exact hsame rfl rfl
  | setDishMode label => exact hsame rfl rfl
  | setSeCtrlPowerStatus label => exact hsame rfl rfl
  | setHandlerEnabled name enabled => exact hsame rfl rfl

/-! ### Every run -/

theorem ProgressWatch.Sound.step (ho : o.Sound h) (hi : InOrder S h o i) :
    (watchProgress S props h o i).Sound h where
  traced := traced_step ho.traced i
  reports attr_name q hlatest := by
    obtain ⟨q₀, -, hr₀, heq⟩ | ⟨-, heq⟩ :=
      latest_cases S props h o i attr_name
    · exact Option.some.inj (heq.symm.trans hlatest) ▸ hr₀
    · exact ho.reports attr_name q (heq ▸ hlatest)
  newest attr_name q hlatest q' hq' hr' hne := ho.newest_step hi hlatest hq' hr' hne
  present attr_name q' hq' hr' := ho.present_step hi hq' hr'
  added t q hsubject := ho.added_step hsubject
  fresh t q hsubject hstale attr_name hr := ho.fresh_step hsubject hstale hr
  written attr_name q status hwritten := List.mem_append_left _ (ho.written_step hwritten)
  scheduled t q hsubject hscheduled hovertaken attr_name status hwritten :=
    ho.scheduled_step hi hsubject hscheduled hovertaken hwritten
  follows t := ho.follows_step i t

omit [DecidableEq ι] in
theorem writesForward_of_sound (ho : o.Sound h) (hi : InOrder S h o i) : WritesForward h o i where
  status t attr_name info hwrite := by
    obtain ⟨q, hsubject, hr⟩ := ho.subject_of_statusWrite hwrite
    exact ⟨q, hsubject, ho.fresh t q hsubject (hi.statusFresh _ hwrite) attr_name hr⟩
  idle t attr_name msg hwrite hidle hscheduled q hsubject hr := by
    obtain ⟨hstale, hovertaken⟩ := hi.idleFresh _ hwrite hidle hscheduled
    refine ⟨ho.fresh t q hsubject hstale attr_name hr, fun status hwritten => ?_⟩
    exact ho.scheduled t q hsubject hscheduled hovertaken attr_name status hwritten

end

instance (o : ProgressWatch ι) (i : Input ι) : Decidable (InOrder S h o i) :=
  decidable_of_iff
    ((∀ q ∈ o.dish.adds i, q ∉ o.added)
      ∧ (∀ q ∈ o.dish.tracks S i, ∀ q' ∈ o.dish.system.manager.taskSequences,
        h.SameReport q q' → (h.sequence q').creationTime < (h.sequence q).creationTime)
      ∧ (∀ q ∈ o.dish.system.manager.taskSequences,
        o.dish.drops i (o.dish.system.manager.sequence q) = true →
          o.latest (h.sequence q).statusAttrName = some q →
            ∀ q' ∈ o.dish.system.manager.taskSequences, h.SameReport q q' →
              o.dish.drops i (o.dish.system.manager.sequence q') = true)
      ∧ (∀ write ∈ statusWrite o.dish i, (o.writing write.1).stale = false)
      ∧ ∀ write ∈ progressWrite o.dish i, write.2.2.head? = some "IDLE" →
        (o.writing write.1).scheduled = true →
          (o.writing write.1).stale = false ∧ (o.writing write.1).overtaken = false)
    ⟨fun ⟨h₁, h₂, h₃, h₄, h₅⟩ => ⟨h₁, h₂, h₃, h₄, h₅⟩,
      fun ⟨h₁, h₂, h₃, h₄, h₅⟩ => ⟨h₁, h₂, h₃, h₄, h₅⟩⟩

def twoStowHeap : Heap :=
  addPrepared { utc := 1000000, localTime := 1000000 } 1 (stowSequence dishProperties)
    (addPrepared Clock.origin 0 (stowSequence dishProperties) Heap.blank)

theorem built_twoStowHeap : twoStowHeap.Built [1, 0] := by
  have hfirst : (addPrepared Clock.origin 0 (stowSequence dishProperties) Heap.blank).Built [0] :=
    Heap.Built.blank.buildSequence rfl (by decide +kernel) (by decide +kernel) (by decide +kernel)
      (by decide +kernel)
  exact hfirst.buildSequence rfl (by decide +kernel) (by decide +kernel) (by decide +kernel)
    (by decide +kernel)

/-- The first sequence is cancelled, a thread looks at it, and the second one is scheduled. -/
def lookedBefore : List (Input Bool) :=
  command false (.setStowMode true 0) 5 ++ command false (.revokeTask "SetRxStandbyLPModeTask") 1
    ++ command false (.revokeTask "SetDSStowModeTask") 1
    ++ command false (.revokeTask "SetSPFStandbyLPModeTask") 1
    ++ command false .updateStatusAttrs 12 ++ command true .updateStatusAttrs 11
    ++ command false (.setStowMode true 1) 5

/-- The sequence is added, the worker runs its first task, and the status is updated. -/
def ranBeforeIdle : List (Input Bool) :=
  command false (.setStowMode true 0) 4
    ++ [.event (.worker (.popTask Clock.origin)), .event (.worker (.runTask .done)),
      .event (.worker .reportTask)] ++ command true .updateStatusAttrs 12

end DishManager

end DshLmc
