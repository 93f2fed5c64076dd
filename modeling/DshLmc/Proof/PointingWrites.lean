import DshLmc.Emulators.DesiredPointing
import DshLmc.Proof.PointingLists
import Mathlib.Tactic.Linarith
import Mathlib.Tactic.Ring

/-!
# What a write of `desiredPointing` leaves behind

A write that throws changes nothing. One that is accepted adds its points unless two of them, or one
of them and a queued one, have the same time. What is read back as the time is the loop variable after
the last point, so a polynomial is read back with its own time only when the time does not advance.
-/

namespace DshLmc

namespace DesiredPointing

variable (correction : PointingCorrection) (d : DesiredPointing) (now : Rat) (w_val : List Rat)

def entry (w_val : List Rat) (i : Nat) : Rat := w_val.getD i 0

def coordsAt (w_val : List Rat) (t : Rat) : Rat × Rat :=
  let dt := t - entry w_val 0
  (entry w_val 1 + entry w_val 3 * dt + entry w_val 5 * dt * dt,
    entry w_val 2 + entry w_val 4 * dt + entry w_val 6 * dt * dt)

def pointAt (params : List Rat) (t : Rat) : PointingData :=
  let coords := coordsAt w_val t
  let corrected := correction params coords.1 coords.2
  .new corrected.1 corrected.2 t .eTRACK_PROGRAM

def pointCount : Nat := if w_val.length = 3 then 1 else d.trackProgramMaxSize.toNat

def timeOf (i : Nat) : Rat := entry w_val 0 + i * d.trackProgramTimeStep

def points : List PointingData :=
  (List.range (d.pointCount w_val)).map fun i =>
    pointAt correction w_val (d.pointingModelParams.getD []) (d.timeOf w_val i)

/-- **A write is atomic and can be read back.** -/
structure WritesBack : Prop where
  unchanged : (d.write_desiredPointing correction now w_val).2 ≠ none →
    (d.write_desiredPointing correction now w_val).1.schedule.pointingQueue
        = d.schedule.pointingQueue
      ∧ (d.write_desiredPointing correction now w_val).1.attr_desiredPointing_read
        = d.attr_desiredPointing_read
  queued : (d.write_desiredPointing correction now w_val).2 = none → w_val.length ∈ [3, 5, 7] →
    (d.write_desiredPointing correction now w_val).1.schedule.pointingQueue.Perm
      (d.points correction w_val ++ d.schedule.pointingQueue)
  readBack : (d.write_desiredPointing correction now w_val).2 = none → w_val.length ∈ [3, 5, 7] →
    (d.write_desiredPointing correction now w_val).1.attr_desiredPointing_read.take w_val.length
      = w_val

def HasRoom : Prop :=
  if w_val.length = 3 then (d.schedule.pointingQueue.length : Int) < d.schedule.maxQueueSize
  else 0 < d.trackProgramMaxSize
    ∧ d.trackProgramMaxSize + d.schedule.pointingQueue.length < d.schedule.maxQueueSize

/-- The conditions under which a write does not throw. -/
structure Accepted : Prop where
  mode : d.operatingMode = some (TangoUtils.getEnumAttrValue d.enum_labels "POINT")
  entries : w_val.length ∈ [3, 5, 7]
  time : 0 < entry w_val 0 → now < entry w_val 0
  model : 9 ≤ (d.pointingModelParams.getD []).length
  room : d.HasRoom w_val

/-- The condition on an accepted write: no queued point has its time, and it stands for one point,
at a time that does not advance. -/
def ReadsBack : Prop :=
  (∀ queued ∈ d.schedule.pointingQueue, queued.t ≠ entry w_val 0)
    ∧ (w_val.length = 3 ∨ d.trackProgramMaxSize = 1 ∧ d.trackProgramTimeStep = 0)

variable {correction d now w_val}

theorem expand_eq (coords : Rat → Rat × Rat) (timeStep : Rat) (n : Nat) (t : Rat) :
    expand coords timeStep n t
      = ((List.range n).map fun (i : Nat) =>
          PointingData.new (coords (t + i * timeStep)).1 (coords (t + i * timeStep)).2
            (t + i * timeStep) .eTRACK_PROGRAM,
        t + n * timeStep) := by
  induction n generalizing t with
  | zero => simp [expand]
  | succ n ih =>
      have hnext : ∀ i : Nat, t + timeStep + i * timeStep = t + ((i + 1 : Nat) : Rat) * timeStep := by
        intro i
        push_cast
        ring
      rw [expand, ih, List.range_succ_eq_map]
      simp only [hnext, List.map_cons, List.map_map, Nat.cast_zero, zero_mul, add_zero]
      rfl

theorem correctPointingData_new (p : List Rat) (t : Rat) :
    correctPointingData correction
        (.new (coordsAt w_val t).1 (coordsAt w_val t).2 t .eTRACK_PROGRAM) p
      = pointAt correction w_val p t := rfl

theorem correctPointingDataList_of_model {pDataList : List PointingData}
    (hmodel : 9 ≤ (d.pointingModelParams.getD []).length) :
    d.correctPointingDataList correction pDataList
      = (pDataList.map fun pData =>
          correctPointingData correction pData (d.pointingModelParams.getD []), 0) := by
  cases pDataList with
  | nil => rfl
  | cons pData rest =>
      cases hparams : d.pointingModelParams with
      | none => simp [hparams] at hmodel
      | some corrPars =>
          rw [hparams, Option.getD_some] at hmodel
          simp [correctPointingDataList, hparams, not_lt.mpr hmodel]

theorem correctPointingDataList_of_no_model {pDataList : List PointingData} (hne : pDataList ≠ [])
    (hmodel : ¬ 9 ≤ (d.pointingModelParams.getD []).length) :
    (d.correctPointingDataList correction pDataList).2 = -1 := by
  rw [correctPointingDataList, if_neg (by simpa using hne)]
  cases hparams : d.pointingModelParams with
  | none => rfl
  | some corrPars =>
      rw [hparams, Option.getD_some, not_le] at hmodel
      exact congrArg Prod.snd (if_pos hmodel)

def written (correction : PointingCorrection) (d : DesiredPointing) (w_val : List Rat)
    (values : List Rat) : DesiredPointing :=
  { d with schedule := (d.points correction w_val).foldl PointingSchedule.insert d.schedule }.setRead
    values

theorem writeSingle_of_accepted {t0 Az El : Rat}
    (hmodel : 9 ≤ (d.pointingModelParams.getD []).length) (hroom : d.HasRoom [t0, Az, El]) :
    d.writeSingle correction t0 Az El
      = (written correction d [t0, Az, El] [t0, Az, El], none) := by
  have hpush : d.schedule.push
      (some (correctPointingData correction (.new Az El t0 .eTRACK_PROGRAM)
        (d.pointingModelParams.getD [])))
        = (d.schedule.insert (correctPointingData correction (.new Az El t0 .eTRACK_PROGRAM)
          (d.pointingModelParams.getD [])), 0) := by
    rw [PointingSchedule.push, if_neg]
    intro hfull
    have hlength : d.schedule.maxQueueSize ≤ d.schedule.pointingQueue.length := by
      simpa [PointingSchedule.is_queue_full] using hfull.1
    exact absurd hroom (not_lt.mpr hlength)
  have hpoint : d.points correction [t0, Az, El]
      = [correctPointingData correction (.new Az El t0 .eTRACK_PROGRAM)
          (d.pointingModelParams.getD [])] := by
    simp [points, pointCount, pointAt, coordsAt, timeOf, entry, correctPointingData,
      PointingData.new]
  rw [writeSingle, correctPointingDataList_of_model hmodel, written, hpoint]
  simp [hpush]

theorem writeSingle_of_refused {t0 Az El : Rat}
    (h : ¬ (9 ≤ (d.pointingModelParams.getD []).length ∧ d.HasRoom [t0, Az, El])) :
    ∃ e, d.writeSingle correction t0 Az El = (d, some e) := by
  by_cases hmodel : 9 ≤ (d.pointingModelParams.getD []).length
  · have hfull : d.schedule.is_queue_full = true := by
      have hroom : ¬ d.HasRoom [t0, Az, El] := fun hroom => h ⟨hmodel, hroom⟩
      rw [HasRoom, if_pos (show [t0, Az, El].length = 3 from rfl), not_lt] at hroom
      simpa [PointingSchedule.is_queue_full] using hroom
    refine ⟨.singleNotAdded, ?_⟩
    rw [writeSingle, correctPointingDataList_of_model hmodel]
    simp [PointingSchedule.push, hfull, correctPointingData, PointingData.new]
  · refine ⟨.notCorrected, ?_⟩
    rw [writeSingle, if_pos]
    rw [correctPointingDataList_of_no_model (List.cons_ne_nil _ _) hmodel]
    decide

section Polynomial

variable {coords : Rat → Rat × Rat} {coefficients : List Rat} {notAdded : DesiredPointingError}

theorem map_expand (hcoords : ∀ t, coords t = coordsAt w_val t) (hlength : w_val.length ≠ 3) :
    (expand coords d.trackProgramTimeStep d.trackProgramMaxSize.toNat (entry w_val 0)).1.map
        (fun pData => correctPointingData correction pData (d.pointingModelParams.getD []))
      = d.points correction w_val := by
  rw [expand_eq, points, pointCount, if_neg hlength, List.map_map]
  apply List.map_congr_left
  intro i _
  rw [Function.comp_apply, hcoords, correctPointingData_new]
  rfl

variable (correction d) in
theorem length_points (hlength : w_val.length ≠ 3) :
    (d.points correction w_val).length = d.trackProgramMaxSize.toNat := by
  rw [points, List.length_map, List.length_range, pointCount, if_neg hlength]

variable (w_val) in
theorem writePolynomial_of_accepted (hcoords : ∀ t, coords t = coordsAt w_val t)
    (hlength : w_val.length ≠ 3) (hmodel : 9 ≤ (d.pointingModelParams.getD []).length)
    (hroom : d.HasRoom w_val) :
    d.writePolynomial correction coords (entry w_val 0) coefficients notAdded
      = (written correction d w_val
          (d.timeOf w_val d.trackProgramMaxSize.toNat :: coefficients), none) := by
  rw [HasRoom, if_neg hlength] at hroom
  have hcount := length_points correction d hlength
  have hpush : d.schedule.pushAll (d.points correction w_val)
      = ((d.points correction w_val).foldl PointingSchedule.insert d.schedule, 0) := by
    rw [PointingSchedule.pushAll, if_neg, if_neg]
    · omega
    · apply List.ne_nil_of_length_pos
      omega
  have htime : (expand coords d.trackProgramTimeStep d.trackProgramMaxSize.toNat
      (entry w_val 0)).2 = d.timeOf w_val d.trackProgramMaxSize.toNat := by
    rw [expand_eq]
    rfl
  rw [writePolynomial, correctPointingDataList_of_model hmodel]
  simp only [map_expand hcoords hlength, hpush, htime, lt_irrefl, if_false]
  rfl

variable (w_val) in
theorem writePolynomial_of_refused (hcoords : ∀ t, coords t = coordsAt w_val t)
    (hlength : w_val.length ≠ 3)
    (h : ¬ (9 ≤ (d.pointingModelParams.getD []).length ∧ d.HasRoom w_val)) :
    ∃ e, d.writePolynomial correction coords (entry w_val 0) coefficients notAdded
      = (d, some e) := by
  have hcount := length_points correction d hlength
  by_cases hmodel : 9 ≤ (d.pointingModelParams.getD []).length
  · have hroom : ¬ d.HasRoom w_val := fun hroom => h ⟨hmodel, hroom⟩
    rw [HasRoom, if_neg hlength] at hroom
    have hpush : d.schedule.pushAll (d.points correction w_val) = (d.schedule, -1) := by
      rw [PointingSchedule.pushAll]
      split
      · rfl
      · rename_i hne
        have hpos := List.length_pos_of_ne_nil hne
        rw [if_pos]
        omega
    refine ⟨notAdded, ?_⟩
    rw [writePolynomial, correctPointingDataList_of_model hmodel]
    simp only [map_expand hcoords hlength, hpush, lt_irrefl, if_false]
    rfl
  · rw [writePolynomial]
    by_cases hnone : (expand coords d.trackProgramTimeStep d.trackProgramMaxSize.toNat
        (entry w_val 0)).1 = []
    · -- Nothing to correct, and nothing to push.
      refine ⟨notAdded, ?_⟩
      rw [hnone]
      rfl
    · refine ⟨.notCorrected, if_pos ?_⟩
      rw [correctPointingDataList_of_no_model hnone hmodel]
      decide

end Polynomial

def readTime (d : DesiredPointing) (w_val : List Rat) : Rat :=
  if w_val.length = 3 then entry w_val 0 else d.timeOf w_val d.trackProgramMaxSize.toNat

theorem pushCoordinates_of_accepted {t0 Az El : Rat} {rest : List Rat}
    (hrest : rest.length ∈ [0, 2, 4]) (hmodel : 9 ≤ (d.pointingModelParams.getD []).length)
    (hroom : d.HasRoom (t0 :: Az :: El :: rest)) :
    d.pushCoordinates correction t0 Az El rest
      = (written correction d (t0 :: Az :: El :: rest)
          (d.readTime (t0 :: Az :: El :: rest) :: Az :: El :: rest), none) := by
  obtain hzero | htwo | hfour : rest.length = 0 ∨ rest.length = 2 ∨ rest.length = 4 := by
    simpa using hrest
  · obtain rfl := List.length_eq_zero_iff.mp hzero
    exact writeSingle_of_accepted hmodel hroom
  · obtain ⟨p_Az, p_El, rfl⟩ := List.length_eq_two.mp htwo
    refine writePolynomial_of_accepted [t0, Az, El, p_Az, p_El] (fun t => ?_) (by simp)
      hmodel hroom
    simp [coordsAt, entry]
  · obtain ⟨p_Az, p_El, p2_Az, p2_El, rfl⟩ := List.length_eq_four.mp hfour
    refine writePolynomial_of_accepted [t0, Az, El, p_Az, p_El, p2_Az, p2_El]
      (fun t => ?_) (by simp) hmodel hroom
    simp [coordsAt, entry]

theorem pushCoordinates_of_refused {t0 Az El : Rat} {rest : List Rat}
    (h : ¬ (rest.length ∈ [0, 2, 4] ∧ 9 ≤ (d.pointingModelParams.getD []).length
      ∧ d.HasRoom (t0 :: Az :: El :: rest))) :
    ∃ e, d.pushCoordinates correction t0 Az El rest = (d, some e) := by
  by_cases hrest : rest.length ∈ [0, 2, 4]
  · have hrefused := fun hrefuses => h ⟨hrest, hrefuses⟩
    obtain hzero | htwo | hfour : rest.length = 0 ∨ rest.length = 2 ∨ rest.length = 4 := by
      simpa using hrest
    · obtain rfl := List.length_eq_zero_iff.mp hzero
      exact writeSingle_of_refused hrefused
    · obtain ⟨p_Az, p_El, rfl⟩ := List.length_eq_two.mp htwo
      refine writePolynomial_of_refused [t0, Az, El, p_Az, p_El] (fun t => ?_) (by simp)
        hrefused
      simp [coordsAt, entry]
    · obtain ⟨p_Az, p_El, p2_Az, p2_El, rfl⟩ := List.length_eq_four.mp hfour
      refine writePolynomial_of_refused [t0, Az, El, p_Az, p_El, p2_Az, p2_El]
        (fun t => ?_) (by simp) hrefused
      simp [coordsAt, entry]
  · refine ⟨.invalidArguments, ?_⟩
    rw [pushCoordinates]
    · rintro rfl
      simp at hrest
    · rintro p_Az p_El rfl
      simp at hrest
    · rintro p_Az p_El p2_Az p2_El rfl
      simp at hrest

theorem exists_coordinates (h : 3 ≤ w_val.length) :
    ∃ t0 Az El rest, w_val = t0 :: Az :: El :: rest := by
  cases w_val with
  | nil => simp at h
  | cons t0 tail =>
      cases tail with
      | nil => simp at h
      | cons Az tail =>
          cases tail with
          | nil => simp at h
          | cons El rest => exact ⟨t0, Az, El, rest, rfl⟩

/-- The checks before the branches. The third can never refuse. -/
theorem write_eq (t0 : Rat) {Az El : Rat} {rest : List Rat}
    (hmode : d.operatingMode = some (TangoUtils.getEnumAttrValue d.enum_labels "POINT"))
    (htime : 0 < t0 → now < t0) :
    d.write_desiredPointing correction now (t0 :: Az :: El :: rest)
      = d.pushCoordinates correction t0 Az El rest := by
  have hparity : ¬ ((t0 :: Az :: El :: rest).length : Int) - 1 % 2 = 1 := by
    simp only [List.length_cons]
    omega
  have hfuture : ¬ (t0 > 0 ∧ (t0 < 0 ∨ t0 ≤ now)) := by
    rintro ⟨hpos, hneg | hpast⟩
    · exact lt_asymm hpos hneg
    · exact absurd (htime hpos) (not_lt.mpr hpast)
  rw [write_desiredPointing, hmode]
  simp only [ne_eq, not_true_eq_false, if_false, hparity, hfuture]
  simp

theorem mem_lengths_iff {t0 Az El : Rat} {rest : List Rat} :
    (t0 :: Az :: El :: rest).length ∈ [3, 5, 7] ↔ rest.length ∈ [0, 2, 4] := by
  simp only [List.length_cons, List.mem_cons, List.not_mem_nil, or_false]
  omega

variable (correction) in
theorem write_of_accepted (h : d.Accepted now w_val) :
    d.write_desiredPointing correction now w_val
      = (written correction d w_val (d.readTime w_val :: w_val.tail), none) := by
  have hlength : 3 ≤ w_val.length := by
    have hentries := h.entries
    simp only [List.mem_cons, List.not_mem_nil, or_false] at hentries
    omega
  obtain ⟨t0, Az, El, rest, rfl⟩ := exists_coordinates hlength
  rw [write_eq t0 h.mode h.time]
  exact pushCoordinates_of_accepted (mem_lengths_iff.mp h.entries) h.model h.room

variable (correction) in
theorem write_of_refused (h : ¬ d.Accepted now w_val) :
    ∃ e, d.write_desiredPointing correction now w_val = (d, some e) := by
  cases hmode : d.operatingMode with
  | none => exact ⟨.modeNotRead, by simp only [write_desiredPointing, hmode]⟩
  | some operatingMode =>
      by_cases hpoint : operatingMode = TangoUtils.getEnumAttrValue d.enum_labels "POINT"
      case neg =>
        refine ⟨.modeForbidden operatingMode, ?_⟩
        simp only [write_desiredPointing, hmode]
        exact if_pos hpoint
      rw [hpoint] at hmode
      by_cases hlength : 3 ≤ w_val.length
      case neg =>
        refine ⟨.tooFewEntries w_val.length, ?_⟩
        simp only [write_desiredPointing, hmode, ne_eq, not_true_eq_false, if_false,
          if_pos (not_le.mp hlength)]
      obtain ⟨t0, Az, El, rest, rfl⟩ := exists_coordinates hlength
      by_cases htime : 0 < t0 → now < t0
      · rw [write_eq _ hmode htime]
        refine pushCoordinates_of_refused ?_
        rintro ⟨hrest, hmodel, hroom⟩
        exact h ⟨hmode, mem_lengths_iff.mpr hrest, htime, hmodel, hroom⟩
      · push Not at htime
        refine ⟨.timePassed t0 now, ?_⟩
        have hparity : ¬ ((t0 :: Az :: El :: rest).length : Int) - 1 % 2 = 1 := by
          simp only [List.length_cons]
          omega
        have hpast : t0 > 0 ∧ (t0 < 0 ∨ t0 ≤ now) := ⟨htime.1, Or.inr htime.2⟩
        rw [write_desiredPointing, hmode]
        simp only [ne_eq, not_true_eq_false, if_false, hparity, if_pos hpast]
        simp

/-! ### What is read back -/

variable (correction d w_val) in
theorem take_written (values : List Rat) :
    (written correction d w_val values).attr_desiredPointing_read.take values.length = values := by
  rw [written, setRead, List.take_left]

theorem map_time_points :
    (d.points correction w_val).map (·.t) = (List.range (d.pointCount w_val)).map (d.timeOf w_val) := by
  rw [points, List.map_map]
  rfl

theorem pointCount_pos (h : d.Accepted now w_val) : 0 < d.pointCount w_val := by
  have hroom := h.room
  rw [HasRoom] at hroom
  rw [pointCount]
  split at hroom
  case isTrue hthree => rw [if_pos hthree]; exact Nat.one_pos
  case isFalse hthree =>
    rw [if_neg hthree]
    omega

/-- The loop variable ends where it began when the time does not advance. -/
theorem readTime_eq_iff (h : d.Accepted now w_val) :
    d.readTime w_val = entry w_val 0 ↔ w_val.length = 3 ∨ d.trackProgramTimeStep = 0 := by
  rw [readTime]
  by_cases hthree : w_val.length = 3
  · rw [if_pos hthree]
    exact iff_of_true rfl (Or.inl hthree)
  · have hpos := pointCount_pos h
    rw [pointCount, if_neg hthree] at hpos
    have hne : (d.trackProgramMaxSize.toNat : Rat) ≠ 0 := Nat.cast_ne_zero.mpr hpos.ne'
    rw [if_neg hthree, timeOf, add_eq_left, mul_eq_zero]
    exact ⟨fun hzero => Or.inr (hzero.resolve_left hne), fun hor => Or.inr (hor.resolve_left hthree)⟩

/-- The times of the points, where they are equal or there is one. -/
theorem map_time_points_of_still (hstill : w_val.length = 3 ∨ d.trackProgramTimeStep = 0) :
    (d.points correction w_val).map (·.t) = List.replicate (d.pointCount w_val) (entry w_val 0) := by
  rw [map_time_points, List.eq_replicate_iff, List.length_map, List.length_range]
  refine ⟨rfl, fun t ht => ?_⟩
  obtain ⟨i, hi, rfl⟩ := List.mem_map.mp ht
  rw [List.mem_range, pointCount] at hi
  obtain hthree | hstep := hstill
  · rw [if_pos hthree, Nat.lt_one_iff] at hi
    simp [timeOf, hi]
  · rw [timeOf, hstep, mul_zero, add_zero]

variable (correction) in
theorem readsBack_of_accepted (hsorted : d.schedule.Sorted) (h : d.Accepted now w_val) :
    ((written correction d w_val (d.readTime w_val :: w_val.tail)).schedule.pointingQueue.Perm
        (d.points correction w_val ++ d.schedule.pointingQueue)
      ∧ d.readTime w_val = entry w_val 0) ↔ d.ReadsBack w_val := by
  have hpos := pointCount_pos h
  have hqueue : (d.schedule.pointingQueue.map (·.t)).Nodup :=
    PointingData.pairwise_comparable_iff.mp (hsorted.imp fun hab => Or.inl hab)
  rw [written, setRead, PointingSchedule.foldl_insert_perm_iff hsorted, List.map_append,
    readTime_eq_iff h, ReadsBack]
  by_cases hstill : w_val.length = 3 ∨ d.trackProgramTimeStep = 0
  · have hfresh : (∀ queued ∈ d.schedule.pointingQueue, queued.t ≠ entry w_val 0)
        ↔ entry w_val 0 ∉ d.schedule.pointingQueue.map (·.t) := by
      rw [List.mem_map]
      push Not
      rfl
    have hone : d.pointCount w_val = 1
        ↔ w_val.length = 3 ∨ d.trackProgramMaxSize = 1 ∧ d.trackProgramTimeStep = 0 := by
      rw [pointCount]
      split
      case isTrue hthree => exact iff_of_true rfl (Or.inl hthree)
      case isFalse hthree =>
        have hstep := hstill.resolve_left hthree
        simp only [hthree, hstep, false_or, and_true]
        omega
    rw [map_time_points_of_still hstill, and_iff_left hstill, hfresh, ← hone, List.nodup_append,
      List.nodup_replicate]
    constructor
    · rintro ⟨hle, -, hdisjoint⟩
      refine ⟨fun hmem => ?_, by omega⟩
      exact hdisjoint _ (List.mem_replicate.mpr ⟨hpos.ne', rfl⟩) _ hmem rfl
    · rintro ⟨hmem, hcount⟩
      refine ⟨hcount.le, hqueue, ?_⟩
      rintro t ht t' ht' rfl
      exact hmem ((List.mem_replicate.mp ht).2 ▸ ht')
  · refine iff_of_false (fun hboth => hstill hboth.2) ?_
    rintro ⟨-, hthree | hone⟩
    · exact hstill (Or.inl hthree)
    · exact hstill (Or.inr hone.2)

variable (correction d now w_val)

/-- **When a write is atomic and can be read back.** -/
theorem writesBack_iff (hsorted : d.schedule.Sorted) :
    d.WritesBack correction now w_val ↔ (d.Accepted now w_val → d.ReadsBack w_val) := by
  by_cases h : d.Accepted now w_val
  · have hwrite := write_of_accepted correction h
    have hback := readsBack_of_accepted correction hsorted h
    have hentry : entry w_val 0 :: w_val.tail = w_val := by
      have hpos : w_val ≠ [] := by
        rintro rfl
        have hentries := h.entries
        simp at hentries
      obtain ⟨t0, tail, rfl⟩ := List.exists_cons_of_ne_nil hpos
      rfl
    have hlength : (d.readTime w_val :: w_val.tail).length = w_val.length := by
      rw [← congrArg List.length hentry]
      rfl
    have htake := take_written correction d w_val (d.readTime w_val :: w_val.tail)
    rw [hlength] at htake
    constructor
    · intro hall _
      have hqueued := hall.queued (by rw [hwrite]) h.entries
      have hread := hall.readBack (by rw [hwrite]) h.entries
      rw [hwrite] at hqueued hread
      refine hback.mp ⟨hqueued, ?_⟩
      rw [htake] at hread
      exact (List.cons.inj (hread.trans hentry.symm)).1
    · intro hreads
      obtain ⟨hqueued, htime⟩ := hback.mpr (hreads h)
      refine ⟨fun hthrown => absurd (by rw [hwrite]) hthrown, fun _ _ => ?_, fun _ _ => ?_⟩
      · rw [hwrite]
        exact hqueued
      · rw [hwrite, htake, htime, hentry]
  · obtain ⟨e, hwrite⟩ := write_of_refused correction h
    refine iff_of_true ?_ fun haccepted => absurd haccepted h
    refine ⟨fun _ => ?_, fun hnone => ?_, fun hnone => ?_⟩
    · rw [hwrite]
      exact ⟨rfl, rfl⟩
    · rw [hwrite] at hnone
      cases hnone
    · rw [hwrite] at hnone
      cases hnone

def pointing : DesiredPointing where
  operatingMode := some 1
  enum_labels := ["STOW", "POINT"]
  pointingModelParams := some [0, 0, 0, 0, 0, 0, 0, 0, 0]
  trackProgramMaxSize := 2
  trackProgramTimeStep := 1000
  schedule := {}
  attr_desiredPointing_read := [0, 0, 0, 0, 0, 0, 0]

/-- A polynomial of the first order, of which the time after the second point is read back. -/
theorem not_writesBack_pointing :
    ¬ pointing.WritesBack (fun _ az el => (az, el)) 0 [5000, 10, 20, 1, 2] := by
  intro h
  have hread := h.readBack (by decide +kernel) (by decide)
  revert hread
  decide +kernel

theorem writesBack_pointing : pointing.WritesBack (fun _ az el => (az, el)) 0 [5000, 10, 20] :=
  (writesBack_iff _ pointing 0 [5000, 10, 20] List.Pairwise.nil).mpr fun _ =>
    ⟨fun _ h => absurd h List.not_mem_nil, Or.inl rfl⟩

end DesiredPointing

end DshLmc
