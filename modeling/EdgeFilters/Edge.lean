namespace EdgeFilters

structure Edge where
  input : String
  output : String
  deriving DecidableEq, Repr

/-- An edge and a filter expression for it, as it was written. -/
structure Spec where
  edge : Edge
  expression : String
  deriving DecidableEq, Repr

end EdgeFilters
