import DshLmc.Emulators.PointingSchedule
import DshLmc.Library.Run

/-!
# What becomes of the pointings

The schedule says that it took an entry also when its set refused it, because one with the same time
is in it. The `Accounts` keep, beside the schedule, the entries that it said it took and those that
have left it again, with the time of the call. Nothing is lost as long as the entries that it takes
have times of their own, and the doubles of `Pop` do not mistake a moment next to the time of an
entry, or to its expiry, for the other side of it.
-/

namespace DshLmc

structure PointingArgs where
  az : Rat
  el : Rat
  t : Rat
  pntType : PointingType

def PointingArgs.make (args : PointingArgs) : PointingData :=
  .new args.az args.el args.t args.pntType

inductive ScheduleCall where
  | push (args : Option PointingArgs)
  | pushAll (args : List PointingArgs)
  | pop (now : Time)
  | flushQueue

/-- The schedule and what it has been given and has given up. -/
structure Accounts where
  schedule : PointingSchedule
  accepted : List PointingData := []
  handedOut : List (PointingData × Time) := []
  expired : List (PointingData × Time) := []
  flushed : List PointingData := []
  pops : List (PointingSchedule × Time) := []

/-- How long ago an entry was due, in milliseconds. -/
def PointingData.overdue (d : PointingData) (now : Time) : Rat := now / 1000 - d.t

namespace PointingData

def pushed (d : PointingData) : PointingData := { d with dt := 0 }

/-- What the constructor leaves in an entry. -/
def Made (d : PointingData) : Prop := d.dt = 0

theorem made_make (args : PointingArgs) : args.make.Made := rfl

theorem strictWeakOn_sorter (l : List PointingData) : StrictWeakOn sorter l where
  irrefl a _ := by simp [sorter]
  asymm a _ b _ hab := by
    simp only [sorter, decide_eq_true_eq, decide_eq_false_iff_not, not_lt] at hab ⊢
    exact hab.le
  trans a _ b _ c _ hab hbc := by
    simp only [sorter, decide_eq_true_eq] at hab hbc ⊢
    exact hab.trans hbc
  incomp_trans a _ b _ c _ hab hba hbc hcb := by
    simp only [sorter, decide_eq_false_iff_not, not_lt] at hab hba hbc hcb ⊢
    exact ⟨hbc.trans hab, hba.trans hcb⟩

theorem comparable_sorter_iff {a b : PointingData} :
    SetImpl.Comparable sorter a b ↔ a.t ≠ b.t := by
  simp only [SetImpl.Comparable, sorter, decide_eq_true_eq]
  exact lt_or_lt_iff_ne

theorem pairwise_comparable_iff {l : List PointingData} :
    l.Pairwise (SetImpl.Comparable sorter) ↔ (l.map (·.t)).Nodup := by
  rw [List.Nodup, List.pairwise_map]
  constructor
  · exact fun h => h.imp comparable_sorter_iff.mp
  · exact fun h => h.imp comparable_sorter_iff.mpr

end PointingData

namespace PointingSchedule

variable {s : PointingSchedule}

/-- The queue of a schedule, in the order of its times. -/
def Sorted (s : PointingSchedule) : Prop :=
  s.pointingQueue.Pairwise fun d d' => d.sorter d' = true

theorem foldl_insert (data : List PointingData) :
    data.foldl insert s
      = { s with
          pointingQueue := SetImpl.linear.insertAll PointingData.sorter data s.pointingQueue } := by
  induction data generalizing s with
  | nil => rfl
  | cons d rest ih => exact ih (s := s.insert d)

/-- The entries of an accepted call, and those that are queued after it. -/
def taken (s : PointingSchedule) : ScheduleCall → List PointingData
  | .push (some args) => if (s.push (some args.make)).2 = 0 then [args.make] else []
  | .push none => []
  | .pushAll args =>
      if (s.pushAll (args.map (·.make))).2 = 0 then args.map (·.make) else []
  | .pop _ => []
  | .flushQueue => []

variable (set_double_unix : Rat → Time)

/-- `Pop` hands out an entry at its time at the earliest and only shortly afterwards, and the earliest
one first. It waits for an entry in the future. -/
structure PopsInTime (s : PointingSchedule) (now : Time) : Prop where
  due : (s.pop set_double_unix now).2.2 = 0 → ∃ d, (s.pop set_double_unix now).2.1 = some d
    ∧ (d.t < 0 ∨ 0 ≤ d.overdue now ∧ d.overdue now < s.expiredTimeThr)
    ∧ ∀ d' ∈ s.pointingQueue, d.t ≤ d'.t
  future : s.pointingQueue ≠ [] → (∀ d ∈ s.pointingQueue, 0 ≤ d.t ∧ d.overdue now < 0) →
    s.pop set_double_unix now = (s, none, 1)

/-- The earliest entry, when it is not ahead in doubles, is not ahead, and it has expired for doubles
exactly when it has. -/
def TellsTime (s : PointingSchedule) (now : Time) : Prop :=
  ∀ first ∈ s.pointingQueue.head?, 0 ≤ first.t → first.tdiff_ms set_double_unix now ≤ 0 →
    0 ≤ first.overdue now
      ∧ (|first.tdiff_ms set_double_unix now| < s.expiredTimeThr
        ↔ first.overdue now < s.expiredTimeThr)

variable {set_double_unix}

theorem tdiff_ms_of_neg {d : PointingData} (h : d.t < 0) (now : Time) :
    d.tdiff_ms set_double_unix now = 0 := by
  rw [PointingData.tdiff_ms, if_neg (not_le.mpr h)]

variable (set_double_unix) in
theorem pop_cases (hmade : ∀ d ∈ s.pointingQueue, d.Made) (now : Time) :
    s.pointingQueue = [] ∧ s.pop set_double_unix now = (s, none, -1)
      ∨ ∃ first rest, s.pointingQueue = first :: rest
        ∧ ((∃ popped : PointingData, popped.pushed = first ∧ popped.t = first.t
              ∧ first.tdiff_ms set_double_unix now ≤ 0
              ∧ |first.tdiff_ms set_double_unix now| < s.expiredTimeThr
              ∧ s.pop set_double_unix now = ({ s with pointingQueue := rest }, some popped, 0))
          ∨ first.tdiff_ms set_double_unix now ≤ 0
              ∧ ¬ |first.tdiff_ms set_double_unix now| < s.expiredTimeThr
              ∧ s.pop set_double_unix now = ({ s with pointingQueue := rest }, none, -1)
          ∨ ¬ first.tdiff_ms set_double_unix now ≤ 0
              ∧ s.pop set_double_unix now = (s, none, 1)) := by
  cases hqueue : s.pointingQueue with
  | nil => exact Or.inl ⟨rfl, by rw [pop, hqueue]⟩
  | cons first rest =>
      refine Or.inr ⟨first, rest, rfl, ?_⟩
      have hdt : first.dt = 0 := hmade first (by simp [hqueue])
      rw [pop, hqueue]
      by_cases hdue : first.tdiff_ms set_double_unix now ≤ 0
      · by_cases hlate : |first.tdiff_ms set_double_unix now| < s.expiredTimeThr
        · refine Or.inl ⟨{ first with dt := -first.tdiff_ms set_double_unix now }, ?_, rfl, hdue,
            hlate, by simp only [hdue, hlate, if_true]⟩
          rw [PointingData.pushed, ← hdt]
        · exact Or.inr (Or.inl ⟨hdue, hlate, by simp only [hdue, hlate, if_true, if_false]⟩)
      · exact Or.inr (Or.inr ⟨hdue, by simp only [hdue, if_false]⟩)

theorem Sorted.front_le (hsorted : s.Sorted) {first : PointingData} {rest : List PointingData}
    (hqueue : s.pointingQueue = first :: rest) : ∀ d ∈ s.pointingQueue, first.t ≤ d.t := by
  intro d hd
  rw [Sorted, hqueue, List.pairwise_cons] at hsorted
  rw [hqueue] at hd
  obtain rfl | hd := List.mem_cons.mp hd
  · exact le_rfl
  · exact (of_decide_eq_true (hsorted.1 d hd)).le

theorem popsInTime (hmade : ∀ d ∈ s.pointingQueue, d.Made) (hsorted : s.Sorted) {now : Time}
    (htells : s.TellsTime set_double_unix now) : s.PopsInTime set_double_unix now := by
  obtain ⟨hqueue, hpop⟩ | ⟨first, rest, hqueue, hcases⟩ :=
    pop_cases set_double_unix hmade now
  · refine ⟨fun hstatus => ?_, fun hne => absurd hqueue hne⟩
    rw [hpop] at hstatus
    exact absurd (show (-1 : Int) = 0 from hstatus) (by decide)
  have htold := htells first (by simp [hqueue])
  have hahead : (∀ d ∈ s.pointingQueue, 0 ≤ d.t ∧ d.overdue now < 0) →
      ¬ first.tdiff_ms set_double_unix now ≤ 0 := by
    intro hall hdue
    obtain ⟨hpos, hfuture⟩ := hall first (by simp [hqueue])
    exact absurd (htold hpos hdue).1 (not_le.mpr hfuture)
  obtain ⟨popped, -, ht, hdue, hlate, hpop⟩ | ⟨hdue, -, hpop⟩ | ⟨-, hpop⟩ := hcases
  · refine ⟨fun _ => ⟨popped, by rw [hpop], ?_, ?_⟩, fun _ hall => absurd hdue (hahead hall)⟩
    · rw [PointingData.overdue, ht]
      by_cases hneg : first.t < 0
      · exact Or.inl hneg
      · obtain ⟨hreached, hexpires⟩ := htold (not_lt.mp hneg) hdue
        exact Or.inr ⟨hreached, hexpires.mp hlate⟩
    · rw [ht]
      exact hsorted.front_le hqueue
  · refine ⟨fun hstatus => ?_, fun _ hall => absurd hdue (hahead hall)⟩
    rw [hpop] at hstatus
    exact absurd (show (-1 : Int) = 0 from hstatus) (by decide)
  · refine ⟨fun hstatus => ?_, fun _ _ => hpop⟩
    rw [hpop] at hstatus
    exact absurd (show (1 : Int) = 0 from hstatus) (by decide)

/-- A `Push` of either kind inserts the entries that it takes, or changes nothing. -/
theorem push_eq (args : Option PointingArgs) :
    (s.push (args.map (·.make))).1 = (s.taken (.push args)).foldl insert s := by
  cases args with
  | none => rfl
  | some args =>
      rw [taken, Option.map_some, push]
      split <;> rfl

theorem pushAll_eq (args : List PointingArgs) :
    (s.pushAll (args.map (·.make))).1 = (s.taken (.pushAll args)).foldl insert s := by
  rw [taken, pushAll]
  split
  · rfl
  split <;> rfl

theorem made_of_mem_taken {call : ScheduleCall} {d : PointingData} (hd : d ∈ s.taken call) :
    d.Made := by
  cases call with
  | push args =>
      cases args with
      | none => exact absurd hd List.not_mem_nil
      | some args =>
          rw [taken] at hd
          split at hd
          · rw [List.mem_singleton.mp hd]
            exact PointingData.made_make args
          · exact absurd hd List.not_mem_nil
  | pushAll args =>
      rw [taken] at hd
      split at hd
      · obtain ⟨args, -, rfl⟩ := List.mem_map.mp hd
        exact PointingData.made_make args
      · exact absurd hd List.not_mem_nil
  | pop now => exact absurd hd List.not_mem_nil
  | flushQueue => exact absurd hd List.not_mem_nil

end PointingSchedule

namespace Accounts

def start (maxQueueSize : Int) : Accounts where
  schedule := { maxQueueSize := maxQueueSize }

variable (set_double_unix : Rat → Time)

def record (a : Accounts) : ScheduleCall → Accounts
  | .push args =>
      { a with
        schedule := (a.schedule.push (args.map (·.make))).1
        accepted := a.accepted ++ a.schedule.taken (.push args) }
  | .pushAll args =>
      { a with
        schedule := (a.schedule.pushAll (args.map (·.make))).1
        accepted := a.accepted ++ a.schedule.taken (.pushAll args) }
  | .pop now =>
      let a' := { a with pops := a.pops ++ [(a.schedule, now)] }
      match a.schedule.pop set_double_unix now with
      | (s, some popped, _) => { a' with schedule := s, handedOut := a.handedOut ++ [(popped, now)] }
      | (s, none, _) =>
          let gone := a.schedule.pointingQueue.take
            (a.schedule.pointingQueue.length - s.pointingQueue.length)
          { a' with schedule := s, expired := a.expired ++ gone.map fun d => (d, now) }
  | .flushQueue =>
      { a with
        schedule := a.schedule.flushQueue
        flushed := a.flushed ++ a.schedule.pointingQueue }

/-- The entries that are queued or have left the queue. -/
def known (a : Accounts) : List PointingData :=
  a.schedule.pointingQueue ++ a.handedOut.map (fun out => out.1.pushed) ++ a.expired.map (·.1)
    ++ a.flushed

/-- **Nothing is lost.** Every accepted entry is in one of four places, each as often as it was
accepted. An entry that was discarded had been due for the time of expiry. Every `Pop` so far was in
time. -/
structure LosesNothing (a : Accounts) : Prop where
  accounted : a.accepted.Perm a.known
  expired : ∀ out ∈ a.expired, a.schedule.expiredTimeThr ≤ out.1.overdue out.2
  pops : ∀ out ∈ a.pops, out.1.PopsInTime set_double_unix out.2

/-- The entries of an accepted `Push` have times that differ from one another and from those in the
queue. -/
def FreshTimes (a : Accounts) (call : ScheduleCall) : Prop :=
  ((a.schedule.taken call ++ a.schedule.pointingQueue).map (·.t)).Nodup

/-- The condition on a call: fresh times, and a `Pop` that tells the time. -/
def FreshAndTold (a : Accounts) (call : ScheduleCall) : Prop :=
  a.FreshTimes call ∧ ∀ now, call = .pop now → a.schedule.TellsTime set_double_unix now

/-- What holds of the accounts in a run whose calls meet the condition. -/
structure Kept (a : Accounts) : Prop extends a.LosesNothing set_double_unix where
  sorted : a.schedule.Sorted
  made : ∀ d ∈ a.schedule.pointingQueue, d.Made
  positive : 0 < a.schedule.expiredTimeThr

variable {set_double_unix} {a : Accounts} {call : ScheduleCall}

/-- The accounts after the schedule has taken some entries. -/
def take (a : Accounts) (data : List PointingData) : Accounts :=
  { a with schedule := data.foldl PointingSchedule.insert a.schedule, accepted := a.accepted ++ data }

theorem schedule_take (a : Accounts) (data : List PointingData) :
    (a.take data).schedule = { a.schedule with
      pointingQueue := SetImpl.linear.insertAll PointingData.sorter data a.schedule.pointingQueue } :=
  PointingSchedule.foldl_insert data

theorem Kept.take (h : a.Kept set_double_unix) {data : List PointingData} (hmade : ∀ d ∈ data, d.Made)
    (hfresh : ((data ++ a.schedule.pointingQueue).map (·.t)).Nodup) :
    (a.take data).Kept set_double_unix := by
  have hperm := SetImpl.linear.insertAll_perm (PointingData.pairwise_comparable_iff.mpr hfresh)
  have hsorted := SetImpl.linear.insertAll_sorted
    (PointingData.strictWeakOn_sorter (data ++ a.schedule.pointingQueue)) h.sorted
  refine ⟨⟨?_, ?_, h.pops⟩, ?_, ?_, ?_⟩
  · rw [known, schedule_take]
    have hknown : (a.accepted ++ data).Perm (data ++ a.known) :=
      List.perm_append_comm.trans (h.accounted.append_left data)
    refine hknown.trans ?_
    simp only [known, ← List.append_assoc]
    exact ((hperm.symm.append_right _).append_right _).append_right _
  · rw [schedule_take]
    exact h.expired
  · rw [PointingSchedule.Sorted, schedule_take]
    exact hsorted
  · rw [schedule_take]
    intro d hd
    obtain hd | hd := List.mem_append.mp (hperm.subset hd)
    · exact hmade d hd
    · exact h.made d hd
  · rw [schedule_take]
    exact h.positive

theorem Kept.not_accounted_take (h : a.Kept set_double_unix) {data : List PointingData}
    (hstale : ¬ ((data ++ a.schedule.pointingQueue).map (·.t)).Nodup) :
    ¬ (a.take data).accepted.Perm (a.take data).known := by
  intro hperm
  have hlt := SetImpl.linear.length_insertAll_lt (PointingData.strictWeakOn_sorter _) h.sorted
    fun hpairs => hstale (PointingData.pairwise_comparable_iff.mp hpairs)
  have hbefore := h.accounted.length_eq
  have hafter := hperm.length_eq
  rw [known, schedule_take] at hafter
  rw [known] at hbefore
  simp only [Accounts.take, List.length_append, List.length_map] at hbefore hafter
  omega

theorem Kept.pop (h : a.Kept set_double_unix) {now : Time}
    (htells : a.schedule.TellsTime set_double_unix now) :
    (a.record set_double_unix (.pop now)).Kept set_double_unix := by
  have hrest : ∀ {first rest}, a.schedule.pointingQueue = first :: rest →
      PointingSchedule.Sorted { a.schedule with pointingQueue := rest } ∧ ∀ d ∈ rest, d.Made := by
    intro first rest hqueue
    have hsorted := h.sorted
    rw [PointingSchedule.Sorted, hqueue] at hsorted
    refine ⟨(List.pairwise_cons.mp hsorted).2, fun d hd => h.made d ?_⟩
    rw [hqueue]
    exact List.mem_cons_of_mem _ hd
  have hpops : ∀ out ∈ a.pops ++ [(a.schedule, now)], out.1.PopsInTime set_double_unix out.2 := by
    intro out hout
    obtain hout | hout := List.mem_append.mp hout
    · exact h.pops out hout
    · rw [List.mem_singleton.mp hout]
      exact PointingSchedule.popsInTime h.made h.sorted htells
  have haccounted := h.accounted
  rw [known] at haccounted
  have hmove : ∀ (d : PointingData) (l l' : List PointingData),
      (d :: (l ++ l')).Perm (l ++ d :: l') := fun _ _ _ => List.perm_middle.symm
  obtain ⟨hqueue, hpop⟩ | ⟨first, rest, hqueue, ⟨popped, hpushed, -, -, -, hpop⟩ |
      ⟨hdue, hlate, hpop⟩ | ⟨-, hpop⟩⟩ :=
    PointingSchedule.pop_cases set_double_unix h.made now
  · rw [record, hpop]
    refine ⟨⟨?_, ?_, hpops⟩, h.sorted, h.made, h.positive⟩
    · simpa [known] using h.accounted
    · simpa using h.expired
  · obtain ⟨hsorted, hmade⟩ := hrest hqueue
    rw [record, hpop]
    refine ⟨⟨?_, h.expired, hpops⟩, hsorted, hmade, h.positive⟩
    rw [hqueue] at haccounted
    refine haccounted.trans ?_
    have hmiddle := hmove first (rest ++ a.handedOut.map fun out => out.1.pushed)
      (a.expired.map (·.1) ++ a.flushed)
    simpa [known, hpushed] using hmiddle
  · obtain ⟨hsorted, hmade⟩ := hrest hqueue
    rw [record, hpop]
    have hgone : (first :: rest).take ((first :: rest).length - rest.length) = [first] := by simp
    simp only [hqueue, hgone]
    refine ⟨⟨?_, ?_, hpops⟩, hsorted, hmade, h.positive⟩
    · rw [hqueue] at haccounted
      refine haccounted.trans ?_
      have hmiddle := hmove first
        (rest ++ (a.handedOut.map (fun out => out.1.pushed) ++ a.expired.map (·.1))) a.flushed
      simpa [known] using hmiddle
    · intro out hout
      obtain hout | hout := List.mem_append.mp hout
      · exact h.expired out hout
      · rw [List.mem_singleton.mp hout]
        by_cases hneg : first.t < 0
        · -- An entry that is executed at once does not expire.
          rw [PointingSchedule.tdiff_ms_of_neg hneg, abs_zero] at hlate
          exact absurd (Int.cast_pos.mpr h.positive) hlate
        · have htold := htells first (by simp [hqueue]) (not_lt.mp hneg) hdue
          exact not_lt.mp fun hearly => hlate (htold.2.mpr hearly)
  · rw [record, hpop]
    refine ⟨⟨?_, ?_, hpops⟩, h.sorted, h.made, h.positive⟩
    · simpa [known] using h.accounted
    · simpa using h.expired

theorem Kept.flushQueue (h : a.Kept set_double_unix) :
    (a.record set_double_unix .flushQueue).Kept set_double_unix := by
  refine ⟨⟨?_, h.expired, h.pops⟩, List.Pairwise.nil, fun d hd => absurd hd List.not_mem_nil,
    h.positive⟩
  refine h.accounted.trans ?_
  simp only [known, record, PointingSchedule.flushQueue, List.nil_append]
  rw [List.append_assoc, List.append_assoc]
  exact List.perm_append_comm.trans (by simp)

theorem record_cases (set_double_unix : Rat → Time) (a : Accounts) (call : ScheduleCall) :
    a.record set_double_unix call = a.take (a.schedule.taken call)
      ∨ a.schedule.taken call = [] ∧ ((∃ now, call = .pop now) ∨ call = .flushQueue) := by
  cases call with
  | push args =>
      left
      rw [record, PointingSchedule.push_eq]
      rfl
  | pushAll args =>
      left
      rw [record, PointingSchedule.pushAll_eq]
      rfl
  | pop now => exact Or.inr ⟨rfl, Or.inl ⟨now, rfl⟩⟩
  | flushQueue => exact Or.inr ⟨rfl, Or.inr rfl⟩

theorem Kept.record (h : a.Kept set_double_unix) (hcall : a.FreshAndTold set_double_unix call) :
    (a.record set_double_unix call).Kept set_double_unix := by
  obtain heq | ⟨-, ⟨now, rfl⟩ | rfl⟩ := record_cases set_double_unix a call
  · rw [heq]
    exact h.take (fun d hd => PointingSchedule.made_of_mem_taken hd) hcall.1
  · exact h.pop (hcall.2 now rfl)
  · exact h.flushQueue

/-- A `Pop` that does not tell the time hands out or discards its entry on the wrong side. -/
theorem Kept.not_losesNothing_pop (h : a.Kept set_double_unix) {now : Time}
    (htells : ¬ a.schedule.TellsTime set_double_unix now) :
    ¬ (a.record set_double_unix (.pop now)).LosesNothing set_double_unix := by
  intro hafter
  refine htells fun first hfirst hpos hdue => ?_
  obtain ⟨hqueue, -⟩ | ⟨front, rest, hqueue, hcases⟩ :=
    PointingSchedule.pop_cases set_double_unix h.made now
  · simp [hqueue] at hfirst
  obtain rfl : front = first := by simpa [hqueue] using hfirst
  have hin : a.schedule.PopsInTime set_double_unix now := by
    refine hafter.pops (a.schedule, now) ?_
    rw [Accounts.record]
    split <;> simp
  have hreached : 0 ≤ front.overdue now := by
    by_contra hfuture
    rw [not_le] at hfuture
    have hwaits := hin.future (by simp [hqueue]) fun d hd => by
      have hfront := h.sorted.front_le hqueue d hd
      refine ⟨hpos.trans hfront, lt_of_le_of_lt ?_ hfuture⟩
      exact sub_le_sub_left hfront _
    obtain ⟨popped, -, -, -, -, hpop⟩ | ⟨-, -, hpop⟩ | ⟨hahead, -⟩ := hcases
    · have hstatus := congrArg (fun r => r.2.2) (hpop.symm.trans hwaits)
      exact absurd (show (0 : Int) = 1 from hstatus) (by decide)
    · have hstatus := congrArg (fun r => r.2.2) (hpop.symm.trans hwaits)
      exact absurd (show (-1 : Int) = 1 from hstatus) (by decide)
    · exact hahead hdue
  refine ⟨hreached, ?_⟩
  obtain ⟨popped, -, ht, -, hlate, hpop⟩ | ⟨-, hlate, hpop⟩ | ⟨hahead, -⟩ := hcases
  · obtain ⟨d, hd, hdue', -⟩ := hin.due (by rw [hpop])
    rw [hpop] at hd
    obtain rfl : popped = d := Option.some.inj hd
    refine iff_of_true hlate ?_
    obtain hneg | ⟨-, hearly⟩ := hdue'
    · exact absurd (ht ▸ hneg) (not_lt.mpr hpos)
    · rwa [PointingData.overdue, ht] at hearly
  · have hexpired := hafter.expired
    rw [Accounts.record, hpop] at hexpired
    exact iff_of_false hlate (not_lt.mpr (hexpired (front, now) (by simp [hqueue])))
  · exact absurd hdue hahead

theorem Kept.not_losesNothing_record (h : a.Kept set_double_unix)
    (hcall : ¬ a.FreshAndTold set_double_unix call) :
    ¬ (a.record set_double_unix call).LosesNothing set_double_unix := by
  intro hafter
  refine hcall ⟨?_, ?_⟩
  · by_contra hstale
    obtain heq | ⟨htaken, -⟩ := record_cases set_double_unix a call
    · exact h.not_accounted_take hstale (heq ▸ hafter.accounted)
    · -- Without a `Push` the times of the queue alone matter, and these differ.
      refine hstale ?_
      rw [FreshTimes, htaken, List.nil_append]
      exact PointingData.pairwise_comparable_iff.mp (h.sorted.imp fun hab => Or.inl hab)
  · rintro now rfl
    by_contra htells
    exact h.not_losesNothing_pop htells hafter

/-- Two stows, of which the second is refused without a word. -/
def twoStows : List ScheduleCall :=
  [.push (some ⟨0, 90, -1, .eSTOW⟩), .push (some ⟨0, 90, -1, .eSTOW⟩)]

def justExpired : List ScheduleCall := [.push (some ⟨0, 90, 5000, .eTRACK_PROGRAM⟩), .pop 5100000]

end Accounts

end DshLmc
