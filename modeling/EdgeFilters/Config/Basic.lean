import EdgeFilters.Table

namespace EdgeFilters

structure Config where
  name : String := ""
  /-- Whether the conditions of one type on an edge share a solver. -/
  reuse : Bool := false
  specs : List Spec := []
  deriving DecidableEq, Repr

/-- The table that knows the built-in type alone, filled with the
specifications in order. -/
def Config.table (config : Config) : Table × List Log.Record :=
  (Table.empty config.reuse).ingest config.specs

inductive Edge.End where
  | input
  | output
  deriving DecidableEq, Repr

def Edge.End.name : Edge.End → String
  | .input => "input"
  | .output => "output"

/-- An entry that does not name an end of its edge. -/
structure BlankEnd where
  entry : Nat
  side : Edge.End
  deriving DecidableEq, Repr

def BlankEnd.message (blank : BlankEnd) : String :=
  "filter entry " ++ toString blank.entry ++ " has an empty " ++ blank.side.name

def Edge.blankEnd? (edge : Edge) : Option Edge.End :=
  if Text.isBlankText edge.input then some .input
  else if Text.isBlankText edge.output then some .output
  else none

/-- The first blank end among specifications numbered from `first`; in one edge
the input comes before the output. -/
def firstBlankEnd? (first : Nat) : List Spec → Option BlankEnd
  | [] => none
  | spec :: rest =>
      match spec.edge.blankEnd? with
      | some side => some ⟨first, side⟩
      | none => firstBlankEnd? (first + 1) rest

def Config.blankEnd? (config : Config) : Option BlankEnd :=
  firstBlankEnd? 0 config.specs

end EdgeFilters
