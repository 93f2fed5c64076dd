import DshLmc.Utils.FormulaSymbolTable

/-!
# The evaluation of spectrum formulas

`FormulaEvaluator<T,K>` for arrays. For numbers the expression assigns the entries of a vector `res`, and
for texts it assigns one string variable `res_<i>` for each element.
-/

namespace DshLmc

open Tango

/-- The names of the quality factors in a formula. -/
def attrQualityConstants : List (String × AttrQuality) :=
  [("ATTR_VALID", .valid), ("ATTR_INVALID", .invalid), ("ATTR_ALARM", .alarm),
    ("ATTR_CHANGING", .changing), ("ATTR_WARNING", .warning)]

variable {T : Type} (num : FormulaNumbers T) (exprtk : Exprtk T)

namespace SymbolTable

def addConstants (constants : List (String × T)) (symbol_table : SymbolTable T) : SymbolTable T :=
  constants.foldl (fun table c => table.addConstant exprtk c.1 c.2) symbol_table

/-- The states and the quality factors. -/
def addTangoConstants (symbol_table : SymbolTable T) : SymbolTable T :=
  let states := tangoStateStrMap.map fun c => (c.1, num.static_cast .state c.2)
  let qualities := attrQualityConstants.map fun c => (c.1, num.quality c.2)
  addConstants exprtk (states ++ qualities) symbol_table

def addResults (n : Nat) (symbol_table : SymbolTable T) : SymbolTable T :=
  (List.range n).foldl (fun table i => table.addStringvar exprtk (elementName "res" i) "") symbol_table

end SymbolTable

namespace FormulaData

variable (store : FormulaStore) (timeref : TimeVal) (f : FormulaData) (attr_timestamp_threshold : Int)
  (data_size : Int)

/-- The table that an expression of numbers is compiled with. The vector `res` is the evaluator's. -/
def numericTable (res : List T) (symbol_table : SymbolTable T) : SymbolTable T :=
  (symbol_table.addVector exprtk "res" res).addTangoConstants num exprtk

/-- The table that an expression of texts is compiled with. -/
def stringTable (n : Nat) (symbol_table : SymbolTable T) : SymbolTable T :=
  (symbol_table.addResults exprtk n).addTangoConstants num exprtk

/-- `FormulaEvaluator<T,K>::Evaluate` for numbers. -/
def evaluateNumericSpectrum (K : ElementType) : Option (List K.Carrier × AttrQuality) :=
  let formula_result : List K.Carrier := []
  if data_size ≤ 0 then none
  else do
    let tables ← f.fillSymbolTable num exprtk store timeref
    let res : List T := []
    let assignment ← exprtk.evaluate f.m_formula (numericTable num exprtk res tables.symbol_table)
    -- The entries are assigned in their places. With a variable of this name its vector is assigned
    -- instead, which is nothing to a vector without entries.
    let res := res.mapIdx fun i _ => assignment.entry (lowerChars "res") i
    -- `reserve` leaves the size, so an assignment is to an element that may not be there.
    let formula_result := res.zipIdx.foldl (fun result x => result.set x.2 (num.result K x.1))
      formula_result
    let formula_attr_quality ←
      f.computeFormulaAttrQuality tables.data_values attr_timestamp_threshold
    return (formula_result, formula_attr_quality)

/-- The loop that reads the string variables. The index is a 32-bit number, which does not come to the
end of more of them. -/
def readResults (symbol_table : SymbolTable T) (assignment : Assignment T) : Option (List String) :=
  if 4294967296 < data_size then none
  else some ((List.range data_size.toNat).map fun i =>
    symbol_table.stringvarRef exprtk assignment (elementName "res" i))

/-- `FormulaEvaluator<T,std::string>::Evaluate`. -/
def evaluateStringSpectrum : Option (List String × AttrQuality) :=
  if data_size ≤ 0 then none
  else do
    let tables ← f.fillSymbolTable num exprtk store timeref
    let symbol_table := stringTable num exprtk data_size.toNat tables.symbol_table
    let assignment ← exprtk.evaluate f.m_formula symbol_table
    let formula_result ← readResults exprtk data_size symbol_table assignment
    let formula_attr_quality ←
      f.computeFormulaAttrQuality tables.data_values attr_timestamp_threshold
    return (formula_result, formula_attr_quality)

def evaluateSpectrumFormula : (K : ElementType) → Option (List K.Carrier × AttrQuality)
  | .string => f.evaluateStringSpectrum num exprtk store timeref attr_timestamp_threshold data_size
  | K => f.evaluateNumericSpectrum num exprtk store timeref attr_timestamp_threshold data_size K

end FormulaData

end DshLmc
