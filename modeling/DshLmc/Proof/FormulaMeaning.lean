import DshLmc.Alarm.FormulaEval
import DshLmc.Library.Outcome

/-!
# What an alarm formula means

The evaluator throws texts, logs values and leaves the order of some operands to the compiler. Its
meaning has none of that: it is a function from what each name reads to a result, if there is one.
The evaluator yields the meaning in every order, so its result depends on nothing but the events that
`eval_node_event` has found in the tree, and its quality and its texts are those of what it read.
-/

namespace DshLmc

open FormulaEval

variable {R : Type}

/-- What evaluation can use of an attribute. -/
structure EventReading (R : Type) where
  value : List R
  value_string : List Char
  quality : AttrQuality
  ex_reason : List Char
  ex_desc : List Char
  ex_origin : List Char

namespace EventReading

def res (r : EventReading R) (value : R) : FormulaRes R :=
  ⟨value, r.quality, r.ex_reason, r.ex_desc, r.ex_origin⟩

def element (r : EventReading R) (ev_ind : Int32) : Option R :=
  if ev_ind < 0 then none else r.value[ev_ind.toInt.toNat]?

end EventReading

def TableEvent.fields (e : TableEvent R) : EventReading R :=
  ⟨e.value, e.value_string, e.quality, e.ex_reason, e.ex_desc, e.ex_origin⟩

/-- An event that is not valid, or has no value yet, reads nothing. -/
def TableEvent.reading (e : TableEvent R) : Option (EventReading R) :=
  if e.valid = true ∧ (e.type = Tango.devString ∨ e.value ≠ []) then some e.fields else none

def readings (events : List (TableEvent R)) (name : List Char) : Option (EventReading R) :=
  (events.find? fun e => e.name == name).bind TableEvent.reading

namespace FormulaTree

variable (N : Numbers R) (env : List Char → Option (EventReading R))

def both (op : Option (R → R → R)) (x y : Option (FormulaRes R)) : Option (FormulaRes R) :=
  op.bind fun f => x.bind fun a => y.map fun b => a.combine f b

/-- The operators on `long`. -/
def wholeBoth (op : Option (Int64 → Int64 → Int64)) (x y : Option (FormulaRes R)) :
    Option (FormulaRes R) :=
  x.bind fun a => y.bind fun b =>
    if !N.eq (N.ofLong (N.toLong a.value)) a.value || !N.eq (N.ofLong (N.toLong b.value)) b.value
    then none
    else op.map fun f => a.combine (fun _ _ => N.ofLong (f (N.toLong a.value) (N.toLong b.value))) b

def meaning : FormulaTree → Int32 → Option (FormulaRes R)
  | .node .val_rID text _ [], _ | .node .val_hID text _ [], _ | .node .indexID text _ [], _ =>
      some (.ofValue (N.strtod text))
  | .node .val_stID _ value [], _ | .node .val_alarm_enum_stID _ value [], _
  | .node .val_qualityID _ value [], _ => some (.ofValue (N.ofNat value.toNat))
  | .node .unary_exprID text _ [c], _ =>
      (meaning c 0).bind fun a => (unaryOp N text).map fun f => { a with value := f a.value }
  | .node .mult_exprID text _ [a, b], _ => both (multOp N text) (meaning a 0) (meaning b 0)
  | .node .add_exprID text _ [a, b], _ => both (addOp N text) (meaning a 0) (meaning b 0)
  | .node .event_ID _ _ [c, k], _ =>
      match k.id with
      | .indexID => (meaning k 0).bind fun ind => meaning c (N.toInt ind.value)
      | .propertyID =>
          (meaning c (N.toInt (N.ofNat 0))).map fun a =>
            match propertyOp N k.text with
            | none => a
            | some f => { a with value := f a }
      | _ => none
  | .node .nameID text _ [], ev_ind =>
      (env (lower text)).bind fun r => (r.element ev_ind).map r.res
  | .node .logical_exprID text _ [a, b], _ => both (logicalOp N text) (meaning a 0) (meaning b 0)
  | .node .bitwise_exprID text _ [a, b], _ =>
      wholeBoth N (longOp .bitwise_exprID text) (meaning a 0) (meaning b 0)
  | .node .shift_exprID text _ [a, b], _ =>
      wholeBoth N (longOp .shift_exprID text) (meaning a 0) (meaning b 0)
  | .node .equality_exprID text _
      [.node .nameID nameText _ nameChildren, .node .val_stringID val_string _ stringChildren], _ =>
      if nameChildren.length = 0 ∧ stringChildren.length = 0 then
        (env (lower nameText)).bind fun r =>
          let attr_val := '\'' :: r.value_string ++ ['\'']
          if text = "!=".toList then some (r.res (N.ofBool (attr_val != val_string)))
          else if text = "==".toList then some (r.res (N.ofBool (attr_val == val_string)))
          else none
      else some (.ofValue (N.ofNat 0))
  | .node .equality_exprID text _ [a, b], _ => both (equalityOp N text) (meaning a 0) (meaning b 0)
  | .node .compare_exprID text _ [a, b], _ => both (compareOp N text) (meaning a 0) (meaning b 0)
  | .node .funcID text _ [c], _ =>
      (meaning c 0).bind fun a => (funcOp N text).map fun f => { a with value := f a }
  | .node .func_dualID text _ [a, b], _ => both (funcDualOp N text) (meaning a 0) (meaning b 0)
  | .node .cond_exprID _ _ [a, b, c], _ =>
      (meaning a 0).bind fun res => if N.isTrue res.value then meaning b 0 else meaning c 0
  | .node _ _ _ _, _ => none

end FormulaTree

namespace FormulaEval

open FormulaTree

variable {N : Numbers R} {events : List (TableEvent R)} {rightFirst : NodeId → List Char → Bool}

theorem yields_operands {swap : Bool} {x y : EvalM (FormulaRes R)} {rx ry : Option (FormulaRes R)}
    (hx : Yields x rx) (hy : Yields y ry) :
    Yields (operands swap x y) (rx.bind fun a => ry.map fun b => (a, b)) := by
  cases swap with
  | false =>
      refine (hx.bind fun a _ => hy.bind fun b _ => Yields.pure (a, b)).congr ?_
      cases rx <;> cases ry <;> rfl
  | true =>
      refine (hy.bind fun b _ => hx.bind fun a _ => Yields.pure (a, b)).congr ?_
      cases rx <;> cases ry <;> rfl

theorem yields_binary {rule : String} {text : List Char} {swap : Bool} {op : Option (R → R → R)}
    {x y : EvalM (FormulaRes R)} {rx ry : Option (FormulaRes R)} (hx : Yields x rx)
    (hy : Yields y ry) : Yields (binary rule text swap op x y) (both op rx ry) := by
  cases op with
  | none => exact Yields.throw _
  | some f =>
      refine ((yields_operands hx hy).bind fun p _ => Yields.pure (p.1.combine f p.2)).congr ?_
      cases rx <;> cases ry <;> rfl

theorem yields_integral {rule : String} {text : List Char} {op : Option (Int64 → Int64 → Int64)}
    {x y : EvalM (FormulaRes R)} {rx ry : Option (FormulaRes R)} (hx : Yields x rx)
    (hy : Yields y ry) :
    Yields (do let a ← x; let b ← y; integral N rule text op a b) (wholeBoth N op rx ry) := by
  refine hx.bind fun a _ => hy.bind fun b _ => ?_
  unfold integral
  refine Yields.ite (fun _ => Yields.throw _) fun _ => ?_
  cases op with
  | none => exact Yields.throw _
  | some f => exact Yields.pure _

theorem yields_valueAt (r : EventReading R) (ev_ind : Int32) :
    Yields (valueAt r.value ev_ind) (r.element ev_ind) := by
  unfold valueAt
  refine Yields.ite (fun _ => Yields.throw _) fun _ => ?_
  cases r.value[ev_ind.toInt.toNat]? with
  | none => exact Yields.throw _
  | some value => exact Yields.pure value

theorem yields_dual {x y : EvalM (FormulaRes R)} {rx ry : Option (FormulaRes R)} {e : EvalError}
    {op : Option (R → R → R)} (hx : Yields x rx) (hy : Yields y ry) :
    Yields (do
      let a ← x
      let b ← y
      match op with
      | none => throw e
      | some f => pure (a.combine f b)) (both op rx ry) := by
  cases op with
  | none =>
      refine (hx.bind fun a _ => hy.bind fun b _ => Yields.throw e).congr ?_
      cases rx <;> cases ry <;> rfl
  | some f =>
      refine (hx.bind fun a _ => hy.bind fun b _ => Yields.pure (a.combine f b)).congr ?_
      cases rx <;> cases ry <;> rfl

theorem reading_eq_some_iff {e : TableEvent R} {r : EventReading R} :
    e.reading = some r
      ↔ (e.valid = true ∧ (e.type = Tango.devString ∨ e.value ≠ []))
        ∧ r = e.fields := by
  unfold TableEvent.reading
  split_ifs with h
  · simp only [Option.some.injEq, h, true_and]
    exact eq_comm
  · simp only [h, false_and]

/-- The checks come first, and what follows them sees what the event reads. -/
theorem yields_checked {e : TableEvent R} {invalid empty : EvalError} {m : EvalM (FormulaRes R)}
    {f : EventReading R → Option (FormulaRes R)}
    (hm : ∀ r, e.reading = some r → Yields m (f r)) :
    Yields (if !e.valid then throw invalid
      else if e.type ≠ Tango.devString ∧ e.value = [] then throw empty else m)
      (e.reading.bind f) := by
  cases hr : e.reading with
  | some r =>
      obtain ⟨⟨hvalid, hvalue⟩, -⟩ := reading_eq_some_iff.mp hr
      have hfilled : ¬ (e.type ≠ Tango.devString ∧ e.value = []) := by tauto
      rw [hvalid, if_neg (by simp), if_neg hfilled]
      exact hm r hr
  | none =>
      have hnone : ¬ (e.valid = true ∧ (e.type = Tango.devString ∨ e.value ≠ [])) := by
        intro h
        simp [TableEvent.reading, h] at hr
      by_cases hvalid : e.valid = true
      · have hempty : e.type ≠ Tango.devString ∧ e.value = [] := by tauto
        rw [hvalid, if_neg (by simp), if_pos hempty]
        exact Yields.throw _
      · rw [if_pos (by simpa using hvalid)]
        exact Yields.throw _

theorem yields_evalName (text : List Char) (ev_ind : Int32) :
    Yields (evalName N events text ev_ind)
      ((readings events (lower text)).bind fun r => (r.element ev_ind).map r.res) := by
  unfold evalName findEvent readings
  cases events.find? fun e => e.name == lower text with
  | none => exact Yields.throw _
  | some e =>
      refine yields_checked fun r hr => ?_
      obtain ⟨-, rfl⟩ := reading_eq_some_iff.mp hr
      refine ((yields_valueAt e.fields ev_ind).bind fun value _ =>
        (Yields.modify _).bind fun _ _ => Yields.pure (eventRes e value)).congr ?_
      cases e.fields.element ev_ind <;> rfl

theorem yields_evalString (text nameText val_string : List Char) :
    Yields (evalString N events text nameText val_string)
      ((readings events (lower nameText)).bind fun r =>
        let attr_val := '\'' :: r.value_string ++ ['\'']
        if text = "!=".toList then some (r.res (N.ofBool (attr_val != val_string)))
        else if text = "==".toList then some (r.res (N.ofBool (attr_val == val_string)))
        else none) := by
  unfold evalString findEvent readings
  cases events.find? fun e => e.name == lower nameText with
  | none => exact Yields.throw _
  | some e =>
      refine yields_checked fun r hr => ?_
      obtain ⟨-, rfl⟩ := reading_eq_some_iff.mp hr
      refine ((Yields.modify _).bind fun _ _ => Yields.ite (fun _ => Yields.pure _) fun _ =>
        Yields.ite (fun _ => Yields.pure _) fun _ => Yields.throw _).congr ?_
      rfl

/-- **The evaluator yields the meaning.** In every order of the operands and from every text logged
so far, it returns what the tree means over what the events read, and throws where it means
nothing. -/
theorem yields_evalExpression (t : FormulaTree) (ev_ind : Int32) :
    Yields (evalExpression N events rightFirst t ev_ind) (t.meaning N (readings events) ev_ind) := by
  fun_induction evalExpression N events rightFirst t ev_ind
  case case1 | case2 | case3 | case4 | case5 | case6 =>
      simp only [meaning]
      exact Yields.pure _
  case case7 text _ c _ ih =>
      simp only [meaning]
      refine ih.bind fun res _ => ?_
      cases unaryOp N text with
      | none => exact Yields.throw _
      | some f => exact Yields.pure _
  case case8 iha ihb | case9 iha ihb | case14 iha ihb | case19 iha ihb | case20 iha ihb =>
      rw [meaning] <;> try assumption
      exact yields_binary iha ihb
  case case10 hid ihk ihc =>
      simp only [meaning, hid]
      exact ihk.bind fun ind _ => ihc ind
  case case11 k _ hid ih =>
      simp only [meaning, hid]
      refine (ih.bind fun res _ => ?_).congr (Option.map_eq_bind ..).symm
      cases propertyOp N k.text with
      | none => exact Yields.pure _
      | some f => exact Yields.pure _
  case case12 hindex hproperty =>
      rw [meaning]
      split
      · exact (hindex ‹_›).elim
      · exact (hproperty ‹_›).elim
      · exact Yields.throw _
  case case13 =>
      simp only [meaning]
      exact yields_evalName _ _
  case case15 iha ihb | case16 iha ihb =>
      simp only [meaning]
      exact yields_integral iha ihb
  case case17 h =>
      simp only [meaning, if_pos h]
      exact yields_evalString _ _ _
  case case18 h =>
      simp only [meaning, if_neg h]
      exact Yields.pure _
  case case21 text _ c _ ih =>
      simp only [meaning]
      refine ih.bind fun res _ => ?_
      cases funcOp N text with
      | none => exact Yields.throw _
      | some f => exact Yields.pure _
  case case22 iha ihb =>
      simp only [meaning]
      exact yields_dual iha ihb
  case case23 iha ihb ihc =>
      simp only [meaning]
      exact iha.bind fun res _ => Yields.ite (fun _ => ihb) fun _ => ihc
  case case24 =>
      rw [meaning] <;> try assumption
      exact Yields.throw _

variable {env env' : List Char → Option (EventReading R)}

theorem evalNodeEvents_eq_ok {children : List FormulaTree} {names : List (List Char)}
    (h : evalNodeEvents children = .ok names) :
    ∀ c ∈ children, ∃ ev, evalNodeEvent c = .ok ev ∧ ev ⊆ names := by
  induction children generalizing names with
  | nil => simp
  | cons child children ih =>
      rw [evalNodeEvents] at h
      cases hev : evalNodeEvent child with
      | error e => simp [hev, bind, Except.bind] at h
      | ok ev =>
          cases hrest : evalNodeEvents children with
          | error e => simp [hev, hrest, bind, Except.bind] at h
          | ok rest =>
              obtain rfl : ev ++ rest = names := by
                simpa [hev, hrest, bind, Except.bind, pure, Except.pure] using h
              intro c hc
              rcases List.mem_cons.mp hc with rfl | hc
              · exact ⟨ev, hev, List.subset_append_left ev rest⟩
              · obtain ⟨ev', hev', hsub⟩ := ih hrest c hc
                exact ⟨ev', hev', fun name hname => List.mem_append_right ev (hsub hname)⟩

/-- The names found in a tree read the same in two environments. -/
def AgreeOn (env env' : List Char → Option (EventReading R)) (t : FormulaTree) : Prop :=
  ∃ ev, evalNodeEvent t = .ok ev ∧ ∀ name ∈ ev, env name = env' name

theorem AgreeOn.child {id : NodeId} {text : List Char} {value : UInt32} {children : List FormulaTree}
    (h : AgreeOn env env' (.node id text value children)) (c : FormulaTree)
    (hc : c ∈ children := by simp) : AgreeOn env env' c := by
  obtain ⟨ev, hev, hagree⟩ := h
  have hevents : evalNodeEvents children = .ok ev := by
    cases id with
    | nameID =>
        cases children with
        | nil => simp at hc
        | cons child children => simp [evalNodeEvent, throw, throwThe, MonadExceptOf.throw] at hev
    | _ => simpa [evalNodeEvent] using hev
  obtain ⟨ev', hev', hsub⟩ := evalNodeEvents_eq_ok hevents c hc
  exact ⟨ev', hev', fun name hname => hagree name (hsub hname)⟩

theorem AgreeOn.name {text : List Char} {value : UInt32} {children : List FormulaTree}
    (h : AgreeOn env env' (.node .nameID text value children)) (hnil : children = []) :
    env (lower text) = env' (lower text) := by
  obtain ⟨ev, hev, hagree⟩ := h
  subst hnil
  obtain rfl : [lower text] = ev := by simpa [evalNodeEvent, pure, Except.pure] using hev
  exact hagree _ List.mem_cons_self

theorem meaning_congr (t : FormulaTree) (ev_ind : Int32) (h : AgreeOn env env' t) :
    t.meaning N env ev_ind = t.meaning N env' ev_ind := by
  fun_induction meaning N env t ev_ind
  case case1 | case2 | case3 | case4 | case5 | case6 => simp only [meaning]
  case case7 ih | case21 ih => simp only [meaning, ih (h.child _)]
  case case8 iha ihb | case9 iha ihb | case14 iha ihb | case15 iha ihb | case16 iha ihb
      | case20 iha ihb | case22 iha ihb =>
      simp only [meaning, iha (h.child _), ihb (h.child _)]
  case case10 hid ihk ihc =>
      simp only [meaning, hid, ihk (h.child _)]
      exact congrArg _ (funext fun ind => ihc ind (h.child _))
  case case11 hid ih => simp only [meaning, hid, ih (h.child _)]
  case case12 hindex hproperty =>
      rw [meaning]
      split
      · exact (hindex ‹_›).elim
      · exact (hproperty ‹_›).elim
      · rfl
  case case13 => simp only [meaning, h.name rfl]
  case case17 hnil =>
      have hname := (h.child _ List.mem_cons_self).name (List.length_eq_zero_iff.mp hnil.1)
      simp only [meaning, if_pos hnil, hname]
  case case18 hnil => simp only [meaning, if_neg hnil]
  case case19 hshape iha ihb =>
      rw [meaning, iha (h.child _), ihb (h.child _)]
      exact hshape
  case case23 iha ihb ihc => simp only [meaning, iha (h.child _), ihb (h.child _), ihc (h.child _)]
  case case24 => rw [meaning] <;> assumption

/-- **A formula depends on its events only.** Two tables of events in which the names that
`eval_node_event` finds read the same give the same result, whatever the order of the operands and
the values logged before. -/
theorem evalExpression_outcome_congr {t : FormulaTree} {ev : List (List Char)}
    (hev : evalNodeEvent t = .ok ev) {events events' : List (TableEvent R)}
    (hagree : ∀ name ∈ ev, readings events name = readings events' name)
    (rightFirst rightFirst' : NodeId → List Char → Bool) (ev_ind : Int32)
    (attr_values attr_values' : List Char) :
    ((evalExpression N events rightFirst t ev_ind).run.run attr_values).1.toOption
      = ((evalExpression N events' rightFirst' t ev_ind).run.run attr_values').1.toOption := by
  rw [yields_evalExpression t ev_ind attr_values, yields_evalExpression t ev_ind attr_values',
    meaning_congr t ev_ind ⟨ev, hev, hagree⟩]

/-- `sys/tg/1/Temp > 5`, as the parser builds it. -/
def tooHot : FormulaTree :=
  .node .compare_exprID ['>'] 0
    [.node .nameID "sys/tg/1/Temp".toList 0 [], .node .val_rID ['5'] 0 []]

def tempEvent (value : Int) (quality : AttrQuality) (m_alarm : List (List Char)) : TableEvent Int :=
  ⟨"sys/tg/1/temp".toList, [value], [], quality, [], [], [], ⟨0, 0⟩, Tango.devDouble, 0, m_alarm, true⟩

theorem evalExpression_outcome_congr_tooHot :
    ((evalExpression wholeNumbers [tempEvent 7 .warning []] (fun _ _ => false) tooHot 0).run.run
        []).1.toOption
      = ((evalExpression wholeNumbers [tempEvent 7 .warning ["hot".toList]] (fun _ _ => true) tooHot
        0).run.run ['\x7b']).1.toOption :=
  evalExpression_outcome_congr rfl (fun name hname => by
    obtain rfl := List.mem_singleton.mp hname
    rfl) _ _ _ _ _

/-! ### Quality and error texts -/

/-- How bad a quality is, for `combine_quality`. -/
def severity : AttrQuality → Nat
  | .valid => 0
  | .changing => 1
  | .warning => 2
  | .alarm => 3
  | .invalid => 4

theorem severity_injective : Function.Injective severity := by
  intro q q' h
  cases q <;> cases q' <;> first | rfl | cases h

theorem severity_combineQuality (q q' : AttrQuality) :
    severity (combineQuality q q') = max (severity q) (severity q') := by
  cases q <;> cases q' <;> rfl

def worst (qualities : List AttrQuality) : AttrQuality := qualities.foldr combineQuality .valid

def firstText (texts : List (List Char)) : List Char := texts.foldr combineException []

theorem combineQuality_eq_iff {q q' q'' : AttrQuality} :
    combineQuality q q' = q'' ↔ max (severity q) (severity q') = severity q'' := by
  rw [← severity_combineQuality, severity_injective.eq_iff]

theorem worst_append (first second : List AttrQuality) :
    worst (first ++ second) = combineQuality (worst first) (worst second) := by
  induction first with
  | nil =>
      symm
      rw [combineQuality_eq_iff]
      exact Nat.zero_max _
  | cons q rest ih =>
      change combineQuality q (worst (rest ++ second))
        = combineQuality (combineQuality q (worst rest)) (worst second)
      rw [combineQuality_eq_iff, ih]
      simp only [severity_combineQuality]
      omega

theorem firstText_append (first second : List (List Char)) :
    firstText (first ++ second) = combineException (firstText first) (firstText second) := by
  induction first with
  | nil => rfl
  | cons text rest ih =>
      change combineException text (firstText (rest ++ second))
        = combineException (combineException text (firstText rest)) (firstText second)
      cases text with
      | nil => exact ih
      | cons c text => rfl

theorem severity_le_worst {qualities : List AttrQuality} {q : AttrQuality} (hq : q ∈ qualities) :
    severity q ≤ severity (worst qualities) := by
  obtain ⟨first, second, rfl⟩ := List.append_of_mem hq
  rw [worst_append, severity_combineQuality]
  calc severity q ≤ max (severity q) (severity (worst second)) := le_max_left _ _
    _ = severity (worst (q :: second)) := (severity_combineQuality _ _).symm
    _ ≤ _ := le_max_right _ _

theorem worst_mem (qualities : List AttrQuality) :
    worst qualities = .valid ∨ worst qualities ∈ qualities := by
  induction qualities with
  | nil => exact .inl rfl
  | cons q rest ih =>
      change combineQuality q (worst rest) = .valid ∨ combineQuality q (worst rest) ∈ q :: rest
      rcases le_total (severity (worst rest)) (severity q) with hle | hle
      · have hq : combineQuality q (worst rest) = q := combineQuality_eq_iff.mpr (max_eq_left hle)
        rw [hq]
        exact .inr List.mem_cons_self
      · have hrest : combineQuality q (worst rest) = worst rest :=
          combineQuality_eq_iff.mpr (max_eq_right hle)
        rw [hrest]
        exact ih.imp_right (List.mem_cons_of_mem q)

theorem firstText_eq_find? (texts : List (List Char)) :
    firstText texts = (texts.find? fun text => text ≠ []).getD [] := by
  induction texts with
  | nil => rfl
  | cons text rest ih =>
      cases text with
      | nil => exact ih
      | cons c text => rfl

end FormulaEval

namespace FormulaTree

variable (N : Numbers R) (env : List Char → Option (EventReading R))

/-- The events a result is computed from, from left to right: those of a condition and of the
branch that is not taken are no part of it. -/
def sources : FormulaTree → List (EventReading R)
  | .node .nameID text _ [] => (env (lower text)).toList
  | .node .cond_exprID _ _ [a, b, c] =>
      match meaning N env a 0 with
      | none => []
      | some res => if N.isTrue res.value then sources b else sources c
  | .node .event_ID _ _ [c, _] => sources c
  | .node .equality_exprID _ _
      [.node .nameID nameText _ nameChildren, .node .val_stringID _ _ stringChildren] =>
      if nameChildren.length = 0 ∧ stringChildren.length = 0 then (env (lower nameText)).toList else []
  | .node _ _ _ [c] => sources c
  | .node _ _ _ [a, b] => sources a ++ sources b
  | .node _ _ _ _ => []

end FormulaTree

/-- The quality is the worst of them, and each text the first that is not empty. -/
structure FormulaRes.MarkedBy (res : FormulaRes R) (read : List (EventReading R)) : Prop where
  quality : res.quality = worst (read.map (·.quality))
  ex_reason : res.ex_reason = firstText (read.map (·.ex_reason))
  ex_desc : res.ex_desc = firstText (read.map (·.ex_desc))
  ex_origin : res.ex_origin = firstText (read.map (·.ex_origin))

namespace FormulaRes.MarkedBy

variable {a b : FormulaRes R} {read read' : List (EventReading R)}

theorem ofValue (value : R) : (FormulaRes.ofValue value).MarkedBy [] := ⟨rfl, rfl, rfl, rfl⟩

theorem withValue (h : a.MarkedBy read) (value : R) : { a with value := value }.MarkedBy read :=
  ⟨h.quality, h.ex_reason, h.ex_desc, h.ex_origin⟩

theorem combine (ha : a.MarkedBy read) (hb : b.MarkedBy read') (f : R → R → R) :
    (a.combine f b).MarkedBy (read ++ read') where
  quality := by
    rw [List.map_append, worst_append, ← ha.quality, ← hb.quality]
    rfl
  ex_reason := by
    rw [List.map_append, firstText_append, ← ha.ex_reason, ← hb.ex_reason]
    rfl
  ex_desc := by
    rw [List.map_append, firstText_append, ← ha.ex_desc, ← hb.ex_desc]
    rfl
  ex_origin := by
    rw [List.map_append, firstText_append, ← ha.ex_origin, ← hb.ex_origin]
    rfl

theorem res (r : EventReading R) (value : R) : (r.res value).MarkedBy [r] := by
  constructor
  · exact (combineQuality_eq_iff.mpr (Nat.max_zero _)).symm
  all_goals
    simp only [EventReading.res, firstText_eq_find?, List.map_cons, List.map_nil, List.find?_cons,
      List.find?_nil]
    split <;> simp_all

end FormulaRes.MarkedBy

namespace FormulaEval

open FormulaTree FormulaRes

variable {N : Numbers R} {env : List Char → Option (EventReading R)}

theorem markedBy_of_both {op : Option (R → R → R)} {x y : Option (FormulaRes R)} {res : FormulaRes R}
    {read read' : List (EventReading R)} (h : both op x y = some res)
    (hx : ∀ a, x = some a → a.MarkedBy read) (hy : ∀ b, y = some b → b.MarkedBy read') :
    res.MarkedBy (read ++ read') := by
  simp only [both, Option.bind_eq_some_iff, Option.map_eq_some_iff] at h
  obtain ⟨f, -, a, ha, b, hb, rfl⟩ := h
  exact (hx a ha).combine (hy b hb) f

theorem markedBy_of_wholeBoth {op : Option (Int64 → Int64 → Int64)} {x y : Option (FormulaRes R)}
    {res : FormulaRes R} {read read' : List (EventReading R)} (h : wholeBoth N op x y = some res)
    (hx : ∀ a, x = some a → a.MarkedBy read) (hy : ∀ b, y = some b → b.MarkedBy read') :
    res.MarkedBy (read ++ read') := by
  simp only [wholeBoth, Option.bind_eq_some_iff] at h
  obtain ⟨a, ha, b, hb, h⟩ := h
  split_ifs at h
  obtain ⟨f, -, rfl⟩ := Option.map_eq_some_iff.mp h
  exact (hx a ha).combine (hy b hb) _

theorem markedBy_sources (t : FormulaTree) (ev_ind : Int32) (res : FormulaRes R)
    (h : t.meaning N env ev_ind = some res) : res.MarkedBy (t.sources N env) := by
  fun_induction meaning N env t ev_ind generalizing res
  case case1 | case2 | case3 | case4 | case5 | case6 =>
      obtain rfl := Option.some.inj h
      exact MarkedBy.ofValue _
  case case7 ih | case21 ih =>
      simp only [Option.bind_eq_some_iff, Option.map_eq_some_iff] at h
      obtain ⟨a, ha, f, -, rfl⟩ := h
      exact (ih a ha).withValue _
  case case8 iha ihb | case9 iha ihb | case14 iha ihb | case20 iha ihb | case22 iha ihb =>
      exact markedBy_of_both h iha ihb
  case case10 ihk ihc =>
      obtain ⟨ind, hind, hc⟩ := Option.bind_eq_some_iff.mp h
      exact ihc ind res hc
  case case11 k _ _ ih =>
      obtain ⟨a, ha, rfl⟩ := Option.map_eq_some_iff.mp h
      cases propertyOp N k.text with
      | none => exact ih a ha
      | some f => exact (ih a ha).withValue _
  case case12 | case24 => cases h
  case case13 =>
      simp only [Option.bind_eq_some_iff, Option.map_eq_some_iff] at h
      obtain ⟨r, hr, value, -, rfl⟩ := h
      simp only [sources, hr]
      exact MarkedBy.res r value
  case case15 iha ihb | case16 iha ihb => exact markedBy_of_wholeBoth h iha ihb
  case case17 hnil =>
      obtain ⟨r, hr, hres⟩ := Option.bind_eq_some_iff.mp h
      simp only [sources, if_pos hnil, hr]
      split_ifs at hres
      all_goals
        obtain rfl := Option.some.inj hres
        exact MarkedBy.res r _
  case case18 hnil =>
      obtain rfl := Option.some.inj h
      simp only [sources, if_neg hnil]
      exact MarkedBy.ofValue _
  case case19 hshape iha ihb =>
      rw [sources]
      · exact markedBy_of_both h iha ihb
      · intro hid
        cases hid
      · intro _ _ _ _ _ _ _
        exact hshape _ _ _ _ _ _
  case case23 iha ihb ihc =>
      obtain ⟨a, ha, hbranch⟩ := Option.bind_eq_some_iff.mp h
      simp only [sources, ha]
      split_ifs at hbranch ⊢
      · exact ihb res hbranch
      · exact ihc res hbranch

/-- **What a result says about itself.** Its quality is the worst among the events it was computed
from, and each of its three texts is that of the leftmost of them that has one. -/
theorem evalExpression_marks {events : List (TableEvent R)} {rightFirst : NodeId → List Char → Bool}
    {t : FormulaTree} {ev_ind : Int32} {attr_values : List Char} {res : FormulaRes R}
    (h : ((evalExpression N events rightFirst t ev_ind).run.run attr_values).1 = .ok res) :
    let read := t.sources N (readings events)
    (∀ r ∈ read, severity r.quality ≤ severity res.quality)
      ∧ (res.quality = .valid ∨ ∃ r ∈ read, r.quality = res.quality)
      ∧ res.ex_reason = ((read.map (·.ex_reason)).find? fun text => text ≠ []).getD []
      ∧ res.ex_desc = ((read.map (·.ex_desc)).find? fun text => text ≠ []).getD []
      ∧ res.ex_origin = ((read.map (·.ex_origin)).find? fun text => text ≠ []).getD [] := by
  have hmeaning : t.meaning N (readings events) ev_ind = some res := by
    rw [← yields_evalExpression t ev_ind attr_values, h]
    rfl
  have hmarked := markedBy_sources t ev_ind res hmeaning
  refine ⟨fun r hr => ?_, ?_, ?_, ?_, ?_⟩
  · rw [hmarked.quality]
    exact severity_le_worst (List.mem_map_of_mem hr)
  · rcases worst_mem ((t.sources N (readings events)).map (·.quality)) with hvalid | hmem
    · exact .inl (hmarked.quality.trans hvalid)
    · obtain ⟨r, hr, hquality⟩ := List.mem_map.mp hmem
      exact .inr ⟨r, hr, hquality.trans hmarked.quality.symm⟩
  · rw [hmarked.ex_reason, firstText_eq_find?]
  · rw [hmarked.ex_desc, firstText_eq_find?]
  · rw [hmarked.ex_origin, firstText_eq_find?]

theorem evalExpression_marks_tooHot :
    let res : FormulaRes Int := ⟨1, .warning, [], [], []⟩
    let read := tooHot.sources wholeNumbers (readings [tempEvent 7 .warning []])
    (∀ r ∈ read, severity r.quality ≤ severity res.quality)
      ∧ (res.quality = .valid ∨ ∃ r ∈ read, r.quality = res.quality)
      ∧ res.ex_reason = ((read.map (·.ex_reason)).find? fun text => text ≠ []).getD []
      ∧ res.ex_desc = ((read.map (·.ex_desc)).find? fun text => text ≠ []).getD []
      ∧ res.ex_origin = ((read.map (·.ex_origin)).find? fun text => text ≠ []).getD [] :=
  have hrun : ((evalExpression wholeNumbers [tempEvent 7 .warning []] (fun _ _ => false) tooHot
      0).run.run ['\x7b']).1 = .ok ⟨1, .warning, [], [], []⟩ := by
    rfl
  evalExpression_marks hrun

end FormulaEval

end DshLmc
