import EdgeFilters.Json
import EdgeFilters.Table

namespace EdgeFilters

def Edge.line (edge : Edge) : String := edge.input ++ " -> " ++ edge.output

def Solver.line (solver : Solver) : String :=
  solver.typeTag ++ "=" ++ "|".intercalate solver.operands

def Solver.json (solver : Solver) : Json :=
  .object [("conditions", .texts solver.operands),
    ("type", .text solver.typeTag)]

namespace Report

def bindingLine (entry : Edge × Solver) : String :=
  entry.1.line ++ ": " ++ entry.2.line

def bindings (table : Table) : List String :=
  table.entries.map bindingLine ++
    [toString table.length ++ " bindings on " ++
      toString table.edges.length ++ " edges"]

def edge (table : Table) (edge : Edge) : List String :=
  match table.find edge with
  | [] => [edge.line ++ ": unfiltered"]
  | solvers => solvers.map Solver.line

/-- The solvers on an edge, as a document whose fields are in
alphabetical order. -/
def edgeJson (table : Table) (edge : Edge) : Json :=
  .object
    [("filters", .list ((table.find edge).map Solver.json)),
     ("input", .text edge.input),
     ("output", .text edge.output)]

/-- Lines as a text, each with its end. -/
def unlines (lines : List String) : String :=
  String.join (lines.map (· ++ "\n"))

end Report

end EdgeFilters
