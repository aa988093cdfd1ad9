namespace EdgeFilters

/-- How a solver gathers operands and what it asks of an item. -/
inductive Solver.Kind where
  /-- The label equals an operand. -/
  | label
  /-- Every item passes. -/
  | anything (typeTag : String)
  /-- The label starts with an operand. -/
  | labelStart (typeTag : String)
  deriving DecidableEq, Repr

/-- The type tag of the built-in kind. -/
def Solver.Kind.labelTag : String := "Label"

def Solver.Kind.typeTag : Solver.Kind → String
  | .label => labelTag
  | .anything typeTag => typeTag
  | .labelStart typeTag => typeTag

structure Solver where
  kind : Solver.Kind
  operands : List String := []
  deriving DecidableEq, Repr

namespace Solver

def ofKind (kind : Kind) : Solver := { kind }

def typeTag (solver : Solver) : String := solver.kind.typeTag

/-- A label solver keeps each operand once; the other kinds
keep every operand. -/
def add (solver : Solver) (operand : String) : Solver :=
  match solver.kind with
  | .label =>
      if operand ∈ solver.operands then solver
      else { solver with operands := solver.operands ++ [operand] }
  | .anything _ | .labelStart _ =>
      { solver with operands := solver.operands ++ [operand] }

def addAll (solver : Solver) (operands : List String) : Solver :=
  operands.foldl add solver

/-- Whether an item with this label, or with none, passes. -/
def accepts (solver : Solver) (label : Option String) : Bool :=
  match solver.kind with
  | .anything _ => true
  | .label => label.any (solver.operands.contains ·)
  | .labelStart _ =>
      label.any fun text =>
        solver.operands.any (·.toList.isPrefixOf text.toList)

@[simp] theorem kind_ofKind (kind : Kind) : (ofKind kind).kind = kind := rfl

@[simp] theorem operands_ofKind (kind : Kind) : (ofKind kind).operands = [] :=
  rfl

@[simp] theorem typeTag_ofKind (kind : Kind) :
    (ofKind kind).typeTag = kind.typeTag := rfl

@[simp] theorem kind_add (solver : Solver) (operand : String) :
    (solver.add operand).kind = solver.kind := by
  unfold add
  split
  · split <;> rfl
  · rfl
  · rfl

@[simp] theorem typeTag_add (solver : Solver) (operand : String) :
    (solver.add operand).typeTag = solver.typeTag := by
  simp [typeTag]

@[simp] theorem addAll_nil (solver : Solver) : solver.addAll [] = solver := rfl

@[simp] theorem addAll_cons (solver : Solver) (operand : String)
    (rest : List String) :
    solver.addAll (operand :: rest) = (solver.add operand).addAll rest := rfl

end Solver

end EdgeFilters
