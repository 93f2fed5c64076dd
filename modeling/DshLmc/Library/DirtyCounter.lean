import DshLmc.Library.Run

/-!
# A counter of changes to be saved

An editor changes a configuration and counts the change. A saver that finds the count above zero takes
a snapshot, writes it down, and counts down. The count goes up to two: one change that is being saved,
and one that came behind the snapshot. To count is to compare, to read and to write, and the other
party may move in between.
-/

namespace DshLmc

/-- Where the editor stands: at rest, with a change that it has not counted, having compared the count,
or with the count that it read. -/
inductive Editor where
  | quiet
  | edited
  | compared
  | read (n : Nat)
deriving DecidableEq

inductive Saver (α : Type*) where
  | waiting
  | decided
  | took (snapshot : α)
  | wrote
  | compared
  | read (n : Nat)

structure DirtyCounter (α : Type*) where
  config : α
  saved : α
  action : Nat
  editor : Editor
  saver : Saver α

/-- A move of the editor or of the saver. It does nothing where it is not its turn. -/
inductive DirtyMove (α : Type*) where
  | edit (config : α)
  | compareUp
  | readUp
  | writeUp
  | decide
  | take
  | write (succeeds : Bool)
  | compareDown
  | readDown
  | writeDown

namespace DirtyCounter

variable {α : Type*}

def step (s : DirtyCounter α) : DirtyMove α → DirtyCounter α
  | .edit config =>
      match s.editor with
      | .quiet => { s with config := config, editor := .edited }
      | _ => s
  | .compareUp =>
      match s.editor with
      | .edited => { s with editor := if s.action ≤ 1 then .compared else .quiet }
      | _ => s
  | .readUp =>
      match s.editor with
      | .compared => { s with editor := .read s.action }
      | _ => s
  | .writeUp =>
      match s.editor with
      | .read n => { s with action := n + 1, editor := .quiet }
      | _ => s
  | .decide =>
      match s.saver with
      | .waiting => { s with saver := if 0 < s.action then .decided else .waiting }
      | _ => s
  | .take =>
      match s.saver with
      | .decided => { s with saver := .took s.config }
      | _ => s
  | .write succeeds =>
      match s.saver with
      | .took snapshot => { s with saved := if succeeds then snapshot else s.saved, saver := .wrote }
      | _ => s
  | .compareDown =>
      match s.saver with
      | .wrote => { s with saver := if 1 ≤ s.action then .compared else .waiting }
      | _ => s
  | .readDown =>
      match s.saver with
      | .compared => { s with saver := .read s.action }
      | _ => s
  | .writeDown =>
      match s.saver with
      | .read n => { s with action := n - 1, saver := .waiting }
      | _ => s

/-- What is written is kept, and what the saver read of the count is still there when it counts down. -/
def Kept (s : DirtyCounter α) : DirtyMove α → Prop
  | .write succeeds => succeeds = true
  | .writeDown => ∀ n, s.saver = .read n → s.action = n
  | _ => True

/-- What is saved is up to date, or one more round is counted than the saver is about to end. -/
def Due (s : DirtyCounter α) : Prop :=
  match s.saver with
  | .waiting | .decided => s.saved = s.config ∨ 1 ≤ s.action
  | .took snapshot => snapshot = s.config ∨ 2 ≤ s.action
  | .wrote | .compared | .read _ => s.saved = s.config ∨ 2 ≤ s.action

structure Inv (s : DirtyCounter α) : Prop where
  /-- The saver only works where something is counted. -/
  counted : s.action = 0 → s.saver = .waiting
  /-- Nobody else counts up. -/
  zero : s.editor = .read 0 → s.action = 0
  due : s.editor = .quiet → s.Due

variable {s : DirtyCounter α}

theorem due_of_full (hfull : 2 ≤ s.action) : s.Due := by
  unfold Due
  cases s.saver with
  | waiting => exact .inr (Nat.le_of_succ_le hfull)
  | decided => exact .inr (Nat.le_of_succ_le hfull)
  | _ => exact .inr hfull

theorem Inv.pos (h : s.Inv) (hworks : s.saver ≠ .waiting) : 1 ≤ s.action :=
  Nat.one_le_iff_ne_zero.mpr fun hzero => hworks (h.counted hzero)

theorem inv_edit (h : s.Inv) (config : α) : (s.step (.edit config)).Inv := by
  cases heditor : s.editor with
  | quiet =>
      simp only [step, heditor]
      exact ⟨h.counted, nofun, nofun⟩
  | _ => simpa only [step, heditor] using h

/-- A count that is full is a round more than the saver is about to end. -/
theorem inv_compareUp (h : s.Inv) : (s.step .compareUp).Inv := by
  cases heditor : s.editor with
  | edited =>
      simp only [step, heditor]
      split_ifs with hroom
      · exact ⟨h.counted, nofun, nofun⟩
      · refine ⟨h.counted, nofun, fun _ => due_of_full ?_⟩
        change 2 ≤ s.action
        omega
  | _ => simpa only [step, heditor] using h

theorem inv_readUp (h : s.Inv) : (s.step .readUp).Inv := by
  cases heditor : s.editor with
  | compared =>
      simp only [step, heditor]
      exact ⟨h.counted, fun hread => Editor.read.inj hread, nofun⟩
  | _ => simpa only [step, heditor] using h

theorem inv_writeUp (h : s.Inv) : (s.step .writeUp).Inv := by
  cases heditor : s.editor with
  | read n =>
      simp only [step, heditor]
      refine ⟨fun hzero => absurd hzero (Nat.succ_ne_zero n), nofun, fun _ => ?_⟩
      rcases Nat.eq_zero_or_pos n with rfl | hpos
      · have hwaiting := h.counted (h.zero heditor)
        simp only [Due, hwaiting]
        exact .inr (Nat.le_refl 1)
      · exact due_of_full (Nat.succ_le_succ hpos)
  | _ => simpa only [step, heditor] using h

/-- A move that leaves the count and what is due leaves the invariant. -/
theorem inv_of_due (h : s.Inv) {saver : Saver α} {saved : α} (hworks : s.saver ≠ .waiting)
    (hdue : s.Due → Due { s with saver := saver, saved := saved }) :
    Inv { s with saver := saver, saved := saved } where
  counted hzero := absurd (h.counted hzero) hworks
  zero := h.zero
  due hquiet := hdue (h.due hquiet)

theorem inv_decide (h : s.Inv) : (s.step .decide).Inv := by
  cases hsaver : s.saver with
  | waiting =>
      simp only [step, hsaver]
      refine ⟨fun hzero => ?_, h.zero, fun hquiet => ?_⟩
      · exact if_neg (Nat.not_lt.mpr (Nat.le_of_eq hzero))
      · have hdue := h.due hquiet
        unfold Due at hdue ⊢
        rw [hsaver] at hdue
        split_ifs
        · exact hdue
        · exact hdue
  | _ => simpa only [step, hsaver] using h

theorem inv_take (h : s.Inv) : (s.step .take).Inv := by
  cases hsaver : s.saver with
  | decided =>
      simp only [step, hsaver]
      exact inv_of_due h (by rw [hsaver]; nofun) fun _ => .inl rfl
  | _ => simpa only [step, hsaver] using h

theorem inv_write (h : s.Inv) : (s.step (.write true)).Inv := by
  cases hsaver : s.saver with
  | took snapshot =>
      simp only [step, hsaver, if_true]
      refine inv_of_due h (by rw [hsaver]; nofun) fun hdue => ?_
      simpa only [Due, hsaver] using hdue
  | _ => simpa only [step, hsaver] using h

theorem inv_compareDown (h : s.Inv) : (s.step .compareDown).Inv := by
  cases hsaver : s.saver with
  | wrote =>
      have hworks : s.saver ≠ .waiting := by rw [hsaver]; nofun
      simp only [step, hsaver, if_pos (h.pos hworks)]
      refine inv_of_due h hworks fun hdue => ?_
      simpa only [Due, hsaver] using hdue
  | _ => simpa only [step, hsaver] using h

theorem inv_readDown (h : s.Inv) : (s.step .readDown).Inv := by
  cases hsaver : s.saver with
  | compared =>
      simp only [step, hsaver]
      refine inv_of_due h (by rw [hsaver]; nofun) fun hdue => ?_
      simpa only [Due, hsaver] using hdue
  | _ => simpa only [step, hsaver] using h

theorem inv_writeDown (h : s.Inv) (hthere : ∀ n, s.saver = .read n → s.action = n) :
    (s.step .writeDown).Inv := by
  cases hsaver : s.saver with
  | read n =>
      have hn : s.action = n := hthere n hsaver
      have hpos : 1 ≤ s.action := h.pos (by rw [hsaver]; nofun)
      simp only [step, hsaver]
      refine ⟨fun _ => rfl, fun hread => ?_, fun hquiet => ?_⟩
      · have hzero := h.zero hread
        omega
      · have hdue := h.due hquiet
        unfold Due at hdue ⊢
        rw [hsaver] at hdue
        refine hdue.imp_right fun htwo => ?_
        change 1 ≤ n - 1
        omega
  | _ => simpa only [step, hsaver] using h

theorem inv_step (s : DirtyCounter α) (move : DirtyMove α) (h : s.Inv) (hkept : s.Kept move) :
    (s.step move).Inv := by
  cases move with
  | edit config => exact inv_edit h config
  | compareUp => exact inv_compareUp h
  | readUp => exact inv_readUp h
  | writeUp => exact inv_writeUp h
  | decide => exact inv_decide h
  | take => exact inv_take h
  | write succeeds =>
      obtain rfl : succeeds = true := hkept
      exact inv_write h
  | compareDown => exact inv_compareDown h
  | readDown => exact inv_readDown h
  | writeDown => exact inv_writeDown h hkept

/-- **No change is lost.** What is saved is up to date whenever the editor rests and nothing is
counted. -/
theorem Inv.saved_eq (h : s.Inv) (hquiet : s.editor = .quiet) (haction : s.action = 0) :
    s.saved = s.config := by
  have hdue := h.due hquiet
  rw [Due, h.counted haction] at hdue
  rcases hdue with hsaved | hcounted
  · exact hsaved
  · omega

/-- A change that is counted between the reading and the writing of the saver is lost. -/
example :
    let s := run step (⟨0, 0, 0, .quiet, .waiting⟩ : DirtyCounter Nat)
      [.edit 1, .compareUp, .readUp, .writeUp, .decide, .take, .write true, .compareDown, .readDown,
        .edit 2, .compareUp, .readUp, .writeUp, .writeDown]
    s.action = 0 ∧ s.saved = 1 ∧ s.config = 2 := by decide

end DirtyCounter

end DshLmc
