import Mathlib.Data.List.Basic

/-!
# Counters kept beside a list

A program that keeps a list often keeps counters of its members beside it, and adjusts them where it
adds, changes or removes a member. `Counted p n l` says that the counter `n` is right. Each rule says
what one change of the list makes of the counter, so an operation is right when it adjusts the
counter as the rule does.
-/

namespace DshLmc

variable {α : Type*} {p : α → Bool} {n : Int} {l : List α} {x : α} {i : Nat}

/-- The counter is the number of the members that meet `p`. -/
def Counted (p : α → Bool) (n : Int) (l : List α) : Prop := n = l.countP p

theorem Counted.nil : Counted p 0 [] := rfl

theorem Counted.concat (h : Counted p n l) (x : α) : Counted p (n + (p x).toInt) (l ++ [x]) := by
  unfold Counted at h ⊢
  rw [List.countP_append, h]
  cases hx : p x <;> simp [hx]

theorem Counted.modify (h : Counted p n l) (hx : l[i]? = some x) (f : α → α) :
    Counted p (n - (p x).toInt + (p (f x)).toInt) (l.modify i f) := by
  unfold Counted at h ⊢
  rw [h]
  clear h
  induction l generalizing i with
  | nil => cases hx
  | cons y l ih =>
      cases i with
      | zero =>
          obtain rfl : y = x := by simpa using hx
          rw [List.modify_zero_cons, List.countP_cons, List.countP_cons]
          cases p y <;> cases p (f y) <;> simp
      | succ i =>
          have hrest := ih (i := i) (by simpa using hx)
          rw [List.modify_succ_cons, List.countP_cons, List.countP_cons]
          push_cast
          omega

theorem Counted.eraseIdx (h : Counted p n l) (hx : l[i]? = some x) :
    Counted p (n - (p x).toInt) (l.eraseIdx i) := by
  unfold Counted at h ⊢
  rw [h]
  clear h
  induction l generalizing i with
  | nil => cases hx
  | cons y l ih =>
      cases i with
      | zero =>
          obtain rfl : y = x := by simpa using hx
          rw [List.eraseIdx_cons_zero, List.countP_cons]
          cases p y <;> simp
      | succ i =>
          have hrest := ih (i := i) (by simpa using hx)
          rw [List.eraseIdx_cons_succ, List.countP_cons, List.countP_cons]
          push_cast
          omega

end DshLmc
