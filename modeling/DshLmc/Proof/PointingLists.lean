import DshLmc.Proof.PointingAccounts
import Mathlib.Data.Finset.Card

/-!
# Lists of pointings

A set holds one entry for each time, so what counts against the quota is the number of times. `Push`
of an entry asks for room before it inserts it; `Push` of a list asks once, for as many entries as
the list has and one more. The two agree unless a list is refused whose entries would have found room
one by one.
-/

namespace DshLmc

namespace PointingSchedule

variable {s : PointingSchedule}

def pushOne (s : PointingSchedule) (data : PointingData) : PointingSchedule :=
  (s.push (some data)).1

def Takes (s : PointingSchedule) (data : PointingData) : Prop := (s.push (some data)).2 = 0

/-- `Push` of the list comes to the same as `Push` of its entries in order. -/
structure ListAgrees (s : PointingSchedule) (data : List PointingData) : Prop where
  status : (s.pushAll data).2 = 0 ↔ Along pushOne Takes s data
  queue : (s.pushAll data).2 = 0 → (s.pushAll data).1 = run pushOne s data
  refused : (s.pushAll data).2 = -1 → (s.pushAll data).1 = s

def times (s : PointingSchedule) : Finset Rat := (s.pointingQueue.map (·.t)).toFinset

def timesOf (data : List PointingData) : Finset Rat := (data.map (·.t)).toFinset

def newTimes (s : PointingSchedule) (data : List PointingData) : Nat :=
  (timesOf data \ s.times).card

theorem times_insert (s : PointingSchedule) (d : PointingData) :
    (s.insert d).times = Insert.insert d.t s.times := by
  ext t
  obtain ⟨heq, d', hd', hlt, hgt⟩ | ⟨front, back, hqueue, heq⟩ :=
    linearInsert_cases PointingData.sorter d s.pointingQueue
  · have hsame : d'.t = d.t := by
      by_contra hne
      have hcomparable := PointingData.comparable_sorter_iff.mpr (Ne.symm hne)
      simp [SetImpl.Comparable, hlt, hgt] at hcomparable
    have hmem : d.t ∈ s.times :=
      List.mem_toFinset.mpr (List.mem_map.mpr ⟨d', hd', hsame⟩)
    rw [Finset.insert_eq_of_mem hmem, times, times, insert, heq]
  · rw [times, insert, heq, times, hqueue]
    simp only [List.map_append, List.map_cons, List.mem_toFinset, List.mem_append, List.mem_cons,
      Finset.mem_insert]
    tauto

theorem sorted_insert (hsorted : s.Sorted) (d : PointingData) : (s.insert d).Sorted :=
  linearInsert_sorted _ d s.pointingQueue (PointingData.strictWeakOn_sorter _) hsorted

theorem sorted_foldl_insert (hsorted : s.Sorted) (data : List PointingData) :
    (data.foldl insert s).Sorted := by
  induction data generalizing s with
  | nil => exact hsorted
  | cons d rest ih => exact ih (sorted_insert hsorted d)

theorem times_foldl_insert (s : PointingSchedule) (data : List PointingData) :
    (data.foldl insert s).times = timesOf data ∪ s.times := by
  induction data generalizing s with
  | nil => exact (Finset.empty_union s.times).symm
  | cons d rest ih =>
      calc
        (rest.foldl insert (s.insert d)).times = timesOf rest ∪ (s.insert d).times := ih (s.insert d)
        _ = timesOf rest ∪ Insert.insert d.t s.times := by rw [times_insert]
        _ = Insert.insert d.t (timesOf rest) ∪ s.times := by
          rw [Finset.union_insert, Finset.insert_union]
        _ = timesOf (d :: rest) ∪ s.times := by rw [timesOf, timesOf, List.map_cons, List.toFinset_cons]

theorem card_times (hsorted : s.Sorted) : s.times.card = s.pointingQueue.length := by
  rw [times, List.toFinset_card_of_nodup, List.length_map]
  exact PointingData.pairwise_comparable_iff.mp (hsorted.imp fun hab => Or.inl hab)

theorem length_foldl_insert (hsorted : s.Sorted) (data : List PointingData) :
    (data.foldl insert s).pointingQueue.length = s.pointingQueue.length + s.newTimes data := by
  have hafter := card_times (sorted_foldl_insert hsorted data)
  have hbefore := card_times hsorted
  have hunion := Finset.card_sdiff_add_card (timesOf data) s.times
  rw [times_foldl_insert] at hafter
  rw [newTimes]
  omega

/-- What is left to insert adds no less than what one insertion leaves. -/
theorem length_insert_add_newTimes (hsorted : s.Sorted) (d : PointingData)
    (rest : List PointingData) :
    (s.insert d).pointingQueue.length + (s.insert d).newTimes rest
      = s.pointingQueue.length + s.newTimes (d :: rest) := by
  rw [← length_foldl_insert hsorted, ← length_foldl_insert (sorted_insert hsorted d)]
  rfl

theorem foldl_insert_perm_iff (hsorted : s.Sorted) {data : List PointingData} :
    (data.foldl insert s).pointingQueue.Perm (data ++ s.pointingQueue)
      ↔ ((data ++ s.pointingQueue).map (·.t)).Nodup := by
  rw [foldl_insert, ← PointingData.pairwise_comparable_iff]
  constructor
  · intro hperm
    by_contra hpairs
    have hshort := SetImpl.linear.length_insertAll_lt (PointingData.strictWeakOn_sorter _) hsorted
      hpairs
    exact hshort.ne (hperm.length_eq.trans List.length_append)
  · exact SetImpl.linear.insertAll_perm

theorem pushOne_of_takes {d : PointingData} (h : s.Takes d) : s.pushOne d = s.insert d := by
  rw [Takes, push] at h
  rw [pushOne, push]
  split at h
  · cases h
  · rename_i hroom
    rw [if_neg hroom]

theorem takes_iff {d : PointingData} (hstow : d.pntType ≠ .eSTOW) :
    s.Takes d ↔ (s.pointingQueue.length : Int) < s.maxQueueSize := by
  rw [Takes, push]
  by_cases hfull : s.maxQueueSize ≤ s.pointingQueue.length
  · rw [if_pos ⟨by simpa [is_queue_full] using hfull, hstow⟩]
    exact iff_of_false (fun h : (-1 : Int) = 0 => absurd h (by decide)) (not_lt.mpr hfull)
  · rw [if_neg fun h => hfull (by simpa [is_queue_full] using h.1)]
    exact iff_of_true rfl (not_le.mp hfull)

theorem run_pushOne {data : List PointingData} (h : Along pushOne Takes s data) :
    run pushOne s data = data.foldl insert s := by
  induction data generalizing s with
  | nil => rfl
  | cons d rest ih =>
      obtain ⟨hd, hrest⟩ := along_cons.mp h
      rw [run_cons, ih hrest, pushOne_of_takes hd]
      rfl

theorem along_takes_iff (hsorted : s.Sorted) {data : List PointingData} (hne : data ≠ [])
    (hstow : ∀ d ∈ data, d.pntType ≠ .eSTOW) :
    Along pushOne Takes s data
      ↔ (s.pointingQueue.length + s.newTimes data.dropLast : Int) < s.maxQueueSize := by
  induction data generalizing s with
  | nil => exact absurd rfl hne
  | cons d rest ih =>
      have hd := takes_iff (s := s) (hstow d List.mem_cons_self)
      cases rest with
      | nil =>
          rw [along_cons, hd, List.dropLast_singleton]
          simp [newTimes, timesOf]
      | cons d' rest =>
          rw [along_cons, List.dropLast_cons_cons]
          by_cases htakes : s.Takes d
          · have hlength := length_insert_add_newTimes hsorted d (d' :: rest).dropLast
            have hmax : (s.insert d).maxQueueSize = s.maxQueueSize := rfl
            rw [and_iff_right htakes, pushOne_of_takes htakes,
              ih (sorted_insert hsorted d) (List.cons_ne_nil d' rest)
                fun d'' h => hstow d'' (List.mem_cons_of_mem d h), hmax]
            omega
          · refine iff_of_false (fun h => htakes h.1) ?_
            have hfull := mt hd.mpr htakes
            omega

theorem pushAll_status_iff {data : List PointingData} (hne : data ≠ []) :
    (s.pushAll data).2 = 0
      ↔ (data.length + s.pointingQueue.length : Int) < s.maxQueueSize := by
  rw [pushAll, if_neg hne]
  split
  case isTrue hfull =>
    exact iff_of_false (fun h : (-1 : Int) = 0 => absurd h (by decide)) (not_lt.mpr hfull)
  case isFalse hroom => exact iff_of_true rfl (not_le.mp hroom)

theorem pushAll_of_status {data : List PointingData} (h : (s.pushAll data).2 = 0) :
    (s.pushAll data).1 = data.foldl insert s := by
  rw [pushAll] at h ⊢
  split at h
  · cases h
  split at h
  · cases h
  rename_i hne hroom
  rw [if_neg hne, if_neg hroom]

theorem pushAll_of_refused {data : List PointingData} (h : (s.pushAll data).2 ≠ 0) :
    (s.pushAll data).1 = s := by
  rw [pushAll] at h ⊢
  split
  · rfl
  split
  · rfl
  rename_i hne hroom
  rw [if_neg hne, if_neg hroom] at h
  exact absurd rfl h

theorem newTimes_dropLast_lt {data : List PointingData} (hne : data ≠ []) :
    s.newTimes data.dropLast < data.length := by
  have hcard : s.newTimes data.dropLast ≤ data.dropLast.length := by
    calc
      s.newTimes data.dropLast ≤ (timesOf data.dropLast).card :=
        Finset.card_le_card Finset.sdiff_subset
      _ ≤ (data.dropLast.map (·.t)).length := List.toFinset_card_le _
      _ = data.dropLast.length := List.length_map _
  have hlength := List.length_pos_of_ne_nil hne
  rw [List.length_dropLast] at hcard
  omega

/-- **When the two agree.** Either the list is taken, or the times of its entries but the last fill
the queue. -/
theorem listAgrees_iff (hsorted : s.Sorted) {data : List PointingData} (hne : data ≠ [])
    (hstow : ∀ d ∈ data, d.pntType ≠ .eSTOW) :
    ListAgrees s data
      ↔ (data.length + s.pointingQueue.length : Int) < s.maxQueueSize
        ∨ s.maxQueueSize ≤ (s.pointingQueue.length + s.newTimes data.dropLast : Int) := by
  have hlist := pushAll_status_iff (s := s) hne
  have halong := along_takes_iff hsorted hne hstow
  have hlt := newTimes_dropLast_lt (s := s) hne
  constructor
  · intro h
    by_contra hneither
    have hstatus := h.status
    rw [hlist, halong] at hstatus
    omega
  · intro hcondition
    have hstatus : (s.pushAll data).2 = 0 ↔ Along pushOne Takes s data := by
      rw [hlist, halong]
      omega
    refine ⟨hstatus, fun h => ?_, fun h => ?_⟩
    · rw [pushAll_of_status h, run_pushOne (hstatus.mp h)]
    · exact pushAll_of_refused (by rw [h]; decide)

def quotaOfOne : PointingSchedule := { maxQueueSize := 1 }

/-- One entry, for which the empty queue has room. -/
theorem not_listAgrees_quotaOfOne :
    ¬ ListAgrees quotaOfOne [.new 10 20 5 .eTRACK_PROGRAM] := by
  intro h
  have hstatus := h.status.mpr ⟨rfl, trivial⟩
  revert hstatus
  decide

def oneQueued : PointingSchedule where
  maxQueueSize := 2
  pointingQueue := [.new 10 20 5 .eTRACK_PROGRAM]

/-- Three entries at two times. The first of them fills the queue, and both ways refuse the list. -/
theorem listAgrees_oneQueued :
    ListAgrees oneQueued
      [.new 30 20 11 .eTRACK_PROGRAM, .new 40 20 11 .eTRACK_PROGRAM, .new 50 20 12 .eTRACK_PROGRAM] := by
  have hsorted : oneQueued.Sorted := List.pairwise_singleton _ _
  refine (listAgrees_iff hsorted (List.cons_ne_nil _ _) ?_).mpr (Or.inr ?_)
  · decide
  · decide +kernel

end PointingSchedule

end DshLmc
