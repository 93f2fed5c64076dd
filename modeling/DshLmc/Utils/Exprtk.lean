import DshLmc.Utils.EvtSubscriptionData
import Mathlib.Data.List.Basic
import Mathlib.Data.List.TakeWhile

/-!
# Expressions

What the formulas use of the expression library: a symbol table with numbers, texts and vectors, whose
names do not depend on the case, and the evaluation of an expression, which assigns to the symbols.
-/

namespace DshLmc

/-- `ss<<var_name<<"_"<<i`. -/
def elementName (var_name : String) (i : Nat) : String := var_name ++ "_" ++ toString i

theorem toList_elementName (var_name : String) (i : Nat) :
    (elementName var_name i).toList = var_name.toList ++ '_' :: Nat.toDigits 10 i := by
  rw [elementName, String.toList_append, String.toList_append, List.append_assoc]
  simp [Nat.toDigits]

/-- The index is behind the last underscore. -/
theorem dropWhile_reverse_elementName (var_name : String) (i : Nat) :
    (elementName var_name i).toList.reverse.dropWhile (· ≠ '_') = '_' :: var_name.toList.reverse := by
  have hdigits : ∀ c ∈ (Nat.toDigits 10 i).reverse, decide (c ≠ '_') = true := by
    intro c hc
    have hdigit := Nat.isDigit_of_mem_toDigits (by decide) (by decide) (List.mem_reverse.mp hc)
    refine decide_eq_true ?_
    rintro rfl
    exact absurd hdigit (by decide)
  rw [toList_elementName, List.reverse_append, List.reverse_cons, List.append_assoc,
    List.dropWhile_append_of_pos hdigits]
  rfl

theorem eq_of_elementName_eq {a b : String} {i j : Nat} (h : elementName a i = elementName b j) :
    a = b := by
  have htails := dropWhile_reverse_elementName a i
  rw [h, dropWhile_reverse_elementName, List.cons.injEq] at htails
  exact String.toList_inj.mp (List.reverse_injective htails.2.symm)
inductive FormulaSymbol (T : Type) where
  | value (value : T)
  | text (text : String)
  | vector (values : List T)

def FormulaSymbol.isVector {T : Type} : FormulaSymbol T → Bool
  | .vector _ => true
  | _ => false

/-- `exprtk::symbol_table`, in the order in which the symbols were added. -/
structure SymbolTable (T : Type) where
  symbols : List (String × FormulaSymbol T) := []

/-- What an evaluated expression leaves in the symbols, by their names in small letters. The entries of
a vector are assigned in their places. -/
structure Assignment (T : Type) where
  value : List Char → T
  text : List Char → String
  entry : List Char → Nat → T

/-- The rest of the library. An expression that cannot be compiled has no evaluation. -/
structure Exprtk (T : Type) where
  valid_symbol : String → Bool
  evaluate : String → SymbolTable T → Option (Assignment T)
  valid_res : ∀ i, valid_symbol (elementName "res" i) = true

namespace SymbolTable

variable {T : Type} (exprtk : Exprtk T) (symbol_table : SymbolTable T)

/-- `symbol_exists`, which does not look at the vectors. -/
def symbolExists (name : String) : Bool :=
  symbol_table.symbols.any fun s => sameName s.1 name && !s.2.isVector

def vectorExists (name : String) : Bool :=
  symbol_table.symbols.any fun s => sameName s.1 name && s.2.isVector

def add (name : String) (symbol : FormulaSymbol T) : SymbolTable T :=
  if !exprtk.valid_symbol name || symbol_table.symbolExists name then symbol_table
  else if symbol.isVector && symbol_table.vectorExists name then symbol_table
  else ⟨symbol_table.symbols ++ [(name, symbol)]⟩

def addVariable (name : String) (value : T) : SymbolTable T :=
  symbol_table.add exprtk name (.value value)

def addStringvar (name : String) (text : String) : SymbolTable T :=
  symbol_table.add exprtk name (.text text)

def addVector (name : String) (values : List T) : SymbolTable T :=
  symbol_table.add exprtk name (.vector values)

def addConstant (name : String) (value : T) : SymbolTable T :=
  symbol_table.addVariable exprtk name value

def symbol? (name : String) : Option (String × FormulaSymbol T) :=
  symbol_table.symbols.find? fun s => sameName s.1 name && !s.2.isVector

/-- A string variable, after an evaluation. -/
def stringvar? (assignment : Assignment T) (name : String) : Option String :=
  match symbol_table.symbol? name with
  | some (stringvar_name, .text _) => some (assignment.text (lowerChars stringvar_name))
  | _ => none

/-- `stringvar_ref`, after an evaluation. A name that is not a string variable has the empty text. -/
def stringvarRef (assignment : Assignment T) (name : String) : String :=
  if exprtk.valid_symbol name then (symbol_table.stringvar? assignment name).getD "" else ""

end SymbolTable

end DshLmc
