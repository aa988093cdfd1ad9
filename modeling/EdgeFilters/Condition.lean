import EdgeFilters.Text.Blank
import EdgeFilters.Text.Split

namespace EdgeFilters

/-- What a solver of the type `typeTag` is to be given. -/
structure Condition where
  typeTag : String
  operand : String
  deriving DecidableEq, Repr

namespace Condition

/-- Why a condition is not bound. -/
inductive Error where
  | malformed (text : String)
  | unknownType (typeTag : String)
  deriving DecidableEq, Repr

def Error.message : Error → String
  | .malformed text =>
      "Malformed filter condition '" ++ text ++
        "', the correct form is Type=Value"
  | .unknownType typeTag => "Unknown filter type '" ++ typeTag ++ "'"

/-- The characters that separate the conditions of an expression. -/
def separators : String := ","

/-- The characters that separate a type tag from its operand. -/
def operators : String := "=><"

/-- The conditions of an expression, as texts. -/
def texts (expression : String) : List String :=
  Text.split expression separators

/-- A condition has exactly two parts, and neither is blank. -/
def parse? (text : String) : Option Condition :=
  match (Text.split text operators).map Text.trim with
  | [typeTag, operand] =>
      if typeTag.isEmpty || operand.isEmpty then none
      else some ⟨typeTag, operand⟩
  | _ => none

def parse (text : String) : Except Error Condition :=
  match parse? text with
  | some condition => .ok condition
  | none => .error (.malformed text)

theorem parse_eq_ok_iff {text : String} {condition : Condition} :
    parse text = .ok condition ↔ parse? text = some condition := by
  unfold parse
  cases parse? text <;> simp

theorem parse_eq_error_iff {text : String} {error : Error} :
    parse text = .error error ↔
      parse? text = none ∧ error = .malformed text := by
  unfold parse
  cases parse? text <;> simp [eq_comm]

end Condition

end EdgeFilters
