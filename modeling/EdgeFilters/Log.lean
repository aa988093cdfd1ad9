import EdgeFilters.Condition
import EdgeFilters.Edge

namespace EdgeFilters

namespace Log

inductive Level where
  | error
  | warning
  | debug
  deriving DecidableEq, Repr

def Level.name : Level → String
  | .error => "ERROR"
  | .warning => "WARN"
  | .debug => "DEBUG"

inductive Record where
  | rejected (error : Condition.Error)
  | bound (edge : Edge) (condition : Condition)
  | reused (edge : Edge) (condition : Condition)
  deriving DecidableEq, Repr

namespace Record

/-- A malformed condition is an error, a type that nobody registered
only a warning. -/
def level : Record → Level
  | .rejected (.malformed _) => .error
  | .rejected (.unknownType _) => .warning
  | .bound _ _ | .reused _ _ => .debug

/-- The tag shown is the condition's, which a shared solver's type equals and a
new solver's type may not. -/
def destination (edge : Edge) (condition : Condition) : String :=
  "'" ++ condition.typeTag ++ "' filter on " ++ edge.input ++ " -> " ++
    edge.output ++ " for '" ++ condition.operand ++ "'"

def message : Record → String
  | .rejected error => error.message
  | .bound edge condition => "Binding " ++ destination edge condition
  | .reused edge condition => "Reusing " ++ destination edge condition

def line (record : Record) : String :=
  record.level.name ++ " " ++ record.message

end Record

end Log

end EdgeFilters
