import EdgeFilters.Dump
import EdgeFilters.Table

namespace EdgeFilters

def Condition.Error.dump : Condition.Error → Dump
  | .malformed text => .record "MalformedCondition" [("condition", .text text)]
  | .unknownType typeTag =>
      .record "UnknownPredicateType" [("type_tag", .text typeTag)]

def Solver.dump (solver : Solver) : Dump :=
  .record "FilterSolver"
    [("type_tag", .text solver.typeTag), ("conditions", .texts solver.operands)]

def Registry.Resolution.dump : Registry.Resolution → Dump
  | .existing id => .tuple "Existing" [.ofNat id]
  | .created solver => .tuple "Created" [solver.dump]

def Registry.Resolution.dump? : Option Registry.Resolution → Dump
  | none => .word "None"
  | some resolution => .tuple "Some" [resolution.dump]

def Table.dump (table : Table) : Dump :=
  .record "PipelineFilters"
    [("reuse_by_type", .ofBool table.registry.reuse),
     ("bindings", .list (table.entries.map fun (edge, solver) =>
       .tuple "" [.text edge.input, .text edge.output, solver.dump]))]

end EdgeFilters
