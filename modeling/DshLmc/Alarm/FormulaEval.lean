import DshLmc.Alarm.FormulaGrammar
import DshLmc.Utils.AttrData

/-!
# Evaluation of alarm formulas

The alarm handler keeps the syntax tree of a formula and evaluates it against its table of events. A
result carries the quality and the error texts of the events it was computed from. Where the source
writes both operands into one expression, their order is the compiler's choice.
-/

namespace DshLmc

/-- The constants of `formula_grammar` that mark the nodes. -/
inductive NodeId where
  | val_rID | val_hID | val_stID | event_ID | nameID | indexID | funcID | logical_exprID
  | bitwise_exprID | equality_exprID | compare_exprID | add_exprID | mult_exprID | expr_atomID
  | shift_exprID | unary_exprID | val_stringID | func_dualID | logical_expr_parenID | cond_exprID
  | exprID | nonempty_exprID | val_qualityID | val_alarm_enum_stID | propertyID
deriving DecidableEq

/-- A node: its mark, the characters it covers, the number that `Assign_Stat` saved, its children. -/
inductive FormulaTree where
  | node (id : NodeId) (text : List Char) (value : UInt32) (children : List FormulaTree)

def FormulaTree.id : FormulaTree → NodeId
  | .node id _ _ _ => id

def FormulaTree.text : FormulaTree → List Char
  | .node _ text _ _ => text

/-- `event`: what the table of events knows of one attribute. -/
structure TableEvent (R : Type) where
  name : List Char
  value : List R
  value_string : List Char
  quality : AttrQuality
  ex_reason : List Char
  ex_desc : List Char
  ex_origin : List Char
  ts : TimeVal
  type : Int
  err_counter : Int
  m_alarm : List (List Char)
  valid : Bool

/-- `double`, with the operators, conversions and functions of the C library. -/
structure Numbers (R : Type) where
  ofNat : Nat → R
  strtod : List Char → R
  isTrue : R → Bool
  neg : R → R
  abs : R → R
  cos : R → R
  sin : R → R
  mul : R → R → R
  div : R → R → R
  add : R → R → R
  sub : R → R → R
  pow : R → R → R
  eq : R → R → Bool
  lt : R → R → Bool
  le : R → R → Bool
  toInt : R → Int32
  /-- `(long)trunc(x)`. -/
  toLong : R → Int64
  ofLong : Int64 → R
  text : R → List Char

namespace Numbers

variable {R : Type} (N : Numbers R)

def ofBool (b : Bool) : R := N.ofNat b.toNat

def min (x y : R) : R := if N.lt y x then y else x

def max (x y : R) : R := if N.lt x y then y else x

end Numbers

def wholeNumbers : Numbers Int where
  ofNat n := n
  strtod text := decimal text
  isTrue x := decide (x ≠ 0)
  neg x := -x
  abs x := x.natAbs
  cos x := if x = 0 then 1 else 0
  sin _ := 0
  mul x y := x * y
  div x y := x / y
  add x y := x + y
  sub x y := x - y
  pow x y := x.pow y.toNat
  eq x y := decide (x = y)
  lt x y := decide (x < y)
  le x y := decide (x ≤ y)
  toInt x := Int32.ofInt x
  toLong x := Int64.ofInt x
  ofLong x := x.toInt
  text x := (toString x).toList

def AttrQuality.number : AttrQuality → Nat
  | .valid => 0
  | .invalid => 1
  | .alarm => 2
  | .changing => 3
  | .warning => 4

inductive AlarmStateEnum where
  | norm | unack | acked | rtnun | shlvd | dsupr | oosrv | error
deriving DecidableEq

def AlarmStateEnum.number : AlarmStateEnum → Nat
  | .norm => 0
  | .unack => 1
  | .acked => 2
  | .rtnun => 3
  | .shlvd => 4
  | .dsupr => 5
  | .oosrv => 6
  | .error => 7

/-- `formula_res_t`. -/
structure FormulaRes (R : Type) where
  value : R
  quality : AttrQuality
  ex_reason : List Char
  ex_desc : List Char
  ex_origin : List Char

def combineQuality (quality1 quality2 : AttrQuality) : AttrQuality :=
  if quality1 = .invalid ∨ quality2 = .invalid then .invalid
  else if quality1 = .alarm ∨ quality2 = .alarm then .alarm
  else if quality1 = .warning ∨ quality2 = .warning then .warning
  else if quality1 = .changing ∨ quality2 = .changing then .changing
  else if quality2.number < quality1.number then quality1 else quality2

def combineException (ex_1 ex_2 : List Char) : List Char := if 0 < ex_1.length then ex_1 else ex_2

namespace FormulaRes

variable {R : Type}

/-- What the constructor sets, and a value. -/
def ofValue (value : R) : FormulaRes R := ⟨value, .valid, [], [], []⟩

/-- The operators of `formula_res_t`, which differ in what they do to the values. -/
def combine (f : R → R → R) (a b : FormulaRes R) : FormulaRes R where
  value := f a.value b.value
  quality := combineQuality a.quality b.quality
  ex_reason := combineException a.ex_reason b.ex_reason
  ex_desc := combineException a.ex_desc b.ex_desc
  ex_origin := combineException a.ex_origin b.ex_origin

end FormulaRes

/-! ### The evaluator -/

/-- What `eval_expression` throws: a `string`, or `std::out_of_range`. -/
inductive EvalError where
  | err (text : List Char)
  | out_of_range
deriving DecidableEq

/-- Evaluation appends to `attr_values`, also when it throws later. -/
abbrev EvalM (α : Type) := ExceptT EvalError (StateM (List Char)) α

namespace FormulaEval

def evaluating (text : List Char) : List Char := "Evaluating formula: ".toList ++ text

def nodeText (rule : String) (text : List Char) : List Char :=
  "in node ".toList ++ rule.toList ++ '(' :: text ++ [')']

def childrenError (rule : String) (text : List Char) (children : List FormulaTree) : EvalError :=
  .err (evaluating (nodeText rule text ++ " children=".toList ++ (toString children.length).toList))

def notAllowed (rule : String) (text : List Char) : EvalError :=
  .err (evaluating (nodeText rule text ++ " value not allowed".toList))

/-- The rule that an error about a node names. No error knows the other nodes. -/
def ruleName : NodeId → Option String
  | .val_rID => some "val_rID"
  | .val_hID => some "val_hID"
  | .val_stID => some "val_stID"
  | .val_alarm_enum_stID => some "val_alarm_enum_stID"
  | .val_qualityID => some "val_qualityID"
  | .unary_exprID => some "unary_exprID"
  | .mult_exprID => some "mult_exprID"
  | .add_exprID => some "add_exprID"
  | .event_ID => some "event_ID"
  | .nameID => some "nameID"
  | .indexID => some "indexID"
  | .logical_exprID => some "logical_exprID"
  | .bitwise_exprID => some "bitwise_exprID"
  | .shift_exprID => some "shift_exprID"
  | .equality_exprID => some "equality_exprID"
  | .compare_exprID => some "compare_exprID"
  | .funcID => some "funcID"
  | .func_dualID => some "func_dualID"
  | .cond_exprID => some "ternary_ifID"
  | _ => none

/-- The error for a node with a wrong number of children, or with a mark the evaluator does not
know. -/
def misshapen (id : NodeId) (text : List Char) (children : List FormulaTree) : EvalError :=
  match ruleName id with
  | some rule => childrenError rule text children
  | none => .err (evaluating ("node unknown!! value=".toList ++ text))

variable {R : Type}

def operands (rightFirst : Bool) (x y : EvalM (FormulaRes R)) :
    EvalM (FormulaRes R × FormulaRes R) :=
  if rightFirst then do
    let b ← y
    let a ← x
    pure (a, b)
  else do
    let a ← x
    let b ← y
    pure (a, b)

/-- An operator of `formula_res_t` between two operands, if the text names one. -/
def binary (rule : String) (text : List Char) (rightFirst : Bool) (op : Option (R → R → R))
    (x y : EvalM (FormulaRes R)) : EvalM (FormulaRes R) :=
  match op with
  | none => throw (notAllowed rule text)
  | some f => do
      let (a, b) ← operands rightFirst x y
      pure (a.combine f b)

variable (N : Numbers R)

def startsWith (text : List Char) (c : Char) : Bool := text.head? == some c

def unaryOp (text : List Char) : Option (R → R) :=
  if startsWith text '+' then some id
  else if startsWith text '-' then some N.neg
  else if startsWith text '!' then some fun x => N.ofBool (!N.isTrue x)
  else none

def multOp (text : List Char) : Option (R → R → R) :=
  if startsWith text '*' then some N.mul
  else if startsWith text '/' then some N.div
  else none

def addOp (text : List Char) : Option (R → R → R) :=
  if startsWith text '+' then some N.add
  else if startsWith text '-' then some N.sub
  else none

def logicalOp (text : List Char) : Option (R → R → R) :=
  if text = "&&".toList then some fun x y => N.ofBool (N.isTrue x && N.isTrue y)
  else if text = "||".toList then some fun x y => N.ofBool (N.isTrue x || N.isTrue y)
  else none

def equalityOp (text : List Char) : Option (R → R → R) :=
  if text = "!=".toList then some fun x y => N.ofBool (!N.eq x y)
  else if text = "==".toList then some fun x y => N.ofBool (N.eq x y)
  else none

def compareOp (text : List Char) : Option (R → R → R) :=
  if text = "<=".toList then some fun x y => N.ofBool (N.le x y)
  else if text = ">=".toList then some fun x y => N.ofBool (N.le y x)
  else if startsWith text '<' then some fun x y => N.ofBool (N.lt x y)
  else if startsWith text '>' then some fun x y => N.ofBool (N.lt y x)
  else none

/-- A shift by 64 or more, or by a negative number, is left to the machine, which takes it
modulo 64. -/
def longOp (rule : NodeId) (text : List Char) : Option (Int64 → Int64 → Int64) :=
  if rule = .bitwise_exprID then
    if startsWith text '&' then some (· &&& ·)
    else if startsWith text '|' then some (· ||| ·)
    else if startsWith text '^' then some (· ^^^ ·)
    else none
  else
    if text = "<<".toList then some (· <<< ·)
    else if text = ">>".toList then some (· >>> ·)
    else none

/-- The operators on `long` want both values whole, and look at the text last. -/
def integral (rule : String) (text : List Char) (op : Option (Int64 → Int64 → Int64))
    (a b : FormulaRes R) : EvalM (FormulaRes R) :=
  let val_l1 := N.toLong a.value
  let val_l2 := N.toLong b.value
  if !N.eq (N.ofLong val_l1) a.value || !N.eq (N.ofLong val_l2) b.value then
    throw (.err "ERROR: non-int value in bitwise operation!".toList)
  else
    match op with
    | none => throw (notAllowed rule text)
    | some f => pure (a.combine (fun _ _ => N.ofLong (f val_l1 val_l2)) b)

/-- The functions of one argument; `quality` is the only one that looks at more than the value. -/
def funcOp (text : List Char) : Option (FormulaRes R → R) :=
  if text = "abs".toList then some fun a => N.abs a.value
  else if text = "cos".toList then some fun a => N.cos a.value
  else if text = "sin".toList then some fun a => N.sin a.value
  else if text = "quality".toList then some fun a => N.ofNat a.quality.number
  else none

def funcDualOp (text : List Char) : Option (R → R → R) :=
  if text = "min".toList then some N.min
  else if text = "max".toList then some N.max
  else if text = "pow".toList then some N.pow
  else none

/-- `(res.value == _UNACK) || (res.value == _ACKED)` and the like. -/
def propertyOp (text : List Char) : Option (FormulaRes R → R) :=
  let is (state : AlarmStateEnum) (a : FormulaRes R) := N.eq a.value (N.ofNat state.number)
  if text = ".quality".toList then some fun a => N.ofNat a.quality.number
  else if text = ".alarm".toList then some fun a => N.ofBool (is .unack a || is .acked a)
  else if text = ".normal".toList then some fun a => N.ofBool (is .norm a || is .rtnun a)
  else none

def lower (text : List Char) : List Char := text.map Char.toLower

/-- `it->value.at(ev_ind)`. A negative index is a large `size_t`. -/
def valueAt (values : List R) (ev_ind : Int32) : EvalM R :=
  if ev_ind < 0 then throw .out_of_range
  else
    match values[ev_ind.toInt.toNat]? with
    | none => throw .out_of_range
    | some value => pure value

def appendValue (text : List Char) : EvalM Unit := modify (· ++ text)

def quoted (text : List Char) : List Char := '"' :: text ++ ['"']

/-- A result that carries what the event says about itself. -/
def eventRes (e : TableEvent R) (value : R) : FormulaRes R :=
  ⟨value, e.quality, e.ex_reason, e.ex_desc, e.ex_origin⟩

def notInTable (text : List Char) : EvalError :=
  .err (evaluating ("in event: (".toList ++ text ++ ") not found in event table".toList))

variable (events : List (TableEvent R))

def findEvent (text : List Char) : Option (TableEvent R) := events.find? fun e => e.name == lower text

/-- The node of an attribute's name. -/
def evalName (text : List Char) (ev_ind : Int32) : EvalM (FormulaRes R) :=
  match findEvent events text with
  | none => throw (notInTable text)
  | some e =>
      let complaint (what : String) := .err (evaluating ("attribute '".toList ++ text ++
        if 0 < e.ex_desc.length then "' exception: '".toList ++ e.ex_desc ++ ['\''] else what.toList))
      if !e.valid then throw (complaint "' value not valid!")
      else if e.type ≠ Tango.devString ∧ e.value = [] then
        throw (complaint "' value not initialized!!")
      else do
        let value ← valueAt e.value ev_ind
        let index := if 1 < e.value.length then '[' :: (toString ev_ind.toInt).toList ++ [']'] else []
        appendValue (quoted (e.name ++ index) ++ ':' :: N.text value ++ [','])
        pure (eventRes e value)

/-- `attr == 'string'` and `attr != 'string'`: the string is compared with its quotes. -/
def evalString (text nameText val_string : List Char) : EvalM (FormulaRes R) :=
  match findEvent events nameText with
  | none => throw (notInTable text)
  | some e =>
      let complaint (what : String) := .err (evaluating (what.toList ++ if 0 < e.ex_desc.length then
        " EX: '".toList ++ e.ex_desc ++ ['\''] else []))
      if !e.valid then
        throw (complaint ("in node equality_exprID -> nameID(" ++ String.ofList nameText
          ++ ") value not valid!"))
      else if e.type ≠ Tango.devString ∧ e.value = [] then
        throw (complaint ("in node nameID(" ++ String.ofList nameText ++ ") value not initialized!!"))
      else do
        appendValue (quoted e.name ++ ':' :: quoted e.value_string ++ [','])
        let attr_val := '\'' :: e.value_string ++ ['\'']
        if text = "!=".toList then pure (eventRes e (N.ofBool (attr_val != val_string)))
        else if text = "==".toList then pure (eventRes e (N.ofBool (attr_val == val_string)))
        else throw (.err (evaluating (nodeText "equality_exprID" text
          ++ " value not allowed (val_stringID)".toList)))

/-- `eval_expression`. The compiler's choice is a parameter. -/
def evalExpression (rightFirst : NodeId → List Char → Bool) :
    FormulaTree → Int32 → EvalM (FormulaRes R)
  | .node .val_rID text _ [], _ | .node .val_hID text _ [], _ | .node .indexID text _ [], _ =>
      pure (.ofValue (N.strtod text))
  | .node .val_stID _ value [], _ | .node .val_alarm_enum_stID _ value [], _
  | .node .val_qualityID _ value [], _ => pure (.ofValue (N.ofNat value.toNat))
  | .node .unary_exprID text _ [c], _ => do
      let res ← evalExpression rightFirst c 0
      match unaryOp N text with
      | none => throw (notAllowed "unary_exprID" text)
      | some f => pure { res with value := f res.value }
  | .node .mult_exprID text _ [a, b], _ =>
      binary "mult_exprID" text (rightFirst .mult_exprID text) (multOp N text)
        (evalExpression rightFirst a 0) (evalExpression rightFirst b 0)
  | .node .add_exprID text _ [a, b], _ =>
      binary "add_exprID" text (rightFirst .add_exprID text) (addOp N text)
        (evalExpression rightFirst a 0) (evalExpression rightFirst b 0)
  | .node .event_ID text _ [c, k], _ =>
      match k.id with
      | .indexID => do
          let ind ← evalExpression rightFirst k 0
          evalExpression rightFirst c (N.toInt ind.value)
      | .propertyID => do
          let res ← evalExpression rightFirst c (N.toInt (N.ofNat 0))
          match propertyOp N k.text with
          | none => pure res
          | some f => pure { res with value := f res }
      | _ => throw (.err (evaluating (nodeText "event_ID" text
          ++ " children2 is not an index ->".toList ++ k.text)))
  | .node .nameID text _ [], ev_ind => evalName N events text ev_ind
  | .node .logical_exprID text _ [a, b], _ =>
      binary "logical_exprID" text (rightFirst .logical_exprID text) (logicalOp N text)
        (evalExpression rightFirst a 0) (evalExpression rightFirst b 0)
  | .node .bitwise_exprID text _ [a, b], _ => do
      let res_1 ← evalExpression rightFirst a 0
      let res_2 ← evalExpression rightFirst b 0
      integral N "bitwise_exprID" text (longOp .bitwise_exprID text) res_1 res_2
  | .node .shift_exprID text _ [a, b], _ => do
      let res_1 ← evalExpression rightFirst a 0
      let res_2 ← evalExpression rightFirst b 0
      integral N "shift_exprID" text (longOp .shift_exprID text) res_1 res_2
  | .node .equality_exprID text _
      [.node .nameID nameText _ nameChildren, .node .val_stringID val_string _ stringChildren], _ =>
      if nameChildren.length = 0 ∧ stringChildren.length = 0 then
        evalString N events text nameText val_string
      else pure (.ofValue (N.ofNat 0))
  | .node .equality_exprID text _ [a, b], _ =>
      binary "equality_exprID" text (rightFirst .equality_exprID text) (equalityOp N text)
        (evalExpression rightFirst a 0) (evalExpression rightFirst b 0)
  | .node .compare_exprID text _ [a, b], _ =>
      binary "equality_exprID" text (rightFirst .compare_exprID text) (compareOp N text)
        (evalExpression rightFirst a 0) (evalExpression rightFirst b 0)
  | .node .funcID text _ [c], _ => do
      let res ← evalExpression rightFirst c 0
      match funcOp N text with
      | none => throw (notAllowed "funcID" text)
      | some f => pure { res with value := f res }
  | .node .func_dualID text _ [a, b], _ => do
      let res_1 ← evalExpression rightFirst a 0
      let res_2 ← evalExpression rightFirst b 0
      match funcDualOp N text with
      | none => throw (notAllowed "func_dualID" text)
      | some f => pure (res_1.combine f res_2)
  | .node .cond_exprID _ _ [a, b, c], _ => do
      let res_1 ← evalExpression rightFirst a 0
      if N.isTrue res_1.value then evalExpression rightFirst b 0 else evalExpression rightFirst c 0
  | .node id text _ children, _ => throw (misshapen id text children)

mutual

def evalNodeEvent : FormulaTree → Except EvalError (List (List Char))
  | .node .nameID text _ [] => pure [lower text]
  | .node .nameID text _ children =>
      throw (.err ("Looking for event in formula tree: ".toList ++ nodeText "nameID" text
        ++ " children=".toList ++ (toString children.length).toList))
  | .node _ _ _ children => evalNodeEvents children

/-- Its loop over the children. -/
def evalNodeEvents : List FormulaTree → Except EvalError (List (List Char))
  | [] => pure []
  | child :: children => do
      let ev ← evalNodeEvent child
      let rest ← evalNodeEvents children
      pure (ev ++ rest)

end

end FormulaEval

end DshLmc
