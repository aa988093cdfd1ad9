import EdgeFilters.Log
import EdgeFilters.Registry

namespace EdgeFilters

/-- A solver, by its place in the table, on an edge. -/
structure Binding where
  edge : Edge
  solver : Nat
  deriving DecidableEq, Repr

structure Table where
  registry : Registry
  solvers : List Solver := []
  bindings : List Binding := []
  deriving DecidableEq, Repr

namespace Table

def ofRegistry (registry : Registry) : Table := { registry }

/-- An empty table that knows the built-in type alone. -/
def empty (reuse : Bool) : Table := ofRegistry (.builtin reuse)

/-- The solvers on an edge with their places, in binding order. -/
def bound (table : Table) (edge : Edge) : List (Nat × Solver) :=
  (table.bindings.filter (·.edge == edge)).filterMap fun binding =>
    table.solvers[binding.solver]?.map (binding.solver, ·)

/-- The solvers on an edge, in binding order. -/
def find (table : Table) (edge : Edge) : List Solver :=
  (table.bound edge).map Prod.snd

/-- Every edge with a solver on it, in binding order. -/
def entries (table : Table) : List (Edge × Solver) :=
  table.bindings.filterMap fun binding =>
    table.solvers[binding.solver]?.map (binding.edge, ·)

/-- The edges with at least one binding, in the order of their first ones. -/
def edges (table : Table) : List Edge :=
  (table.bindings.map Binding.edge).eraseDups

def length (table : Table) : Nat := table.bindings.length

def isEmpty (table : Table) : Bool := table.bindings.isEmpty

/-- Whether an item with this label passes every solver on the edge. -/
def accepts (table : Table) (edge : Edge) (label : Option String) : Bool :=
  (table.find edge).all (·.accepts label)

/-- The items that pass every solver on the edge. -/
def filterItems (table : Table) (edge : Edge) (label : α → Option String)
    (items : List α) : List α :=
  items.filter fun item => table.accepts edge (label item)

/-- A new solver on an edge, after everything bound so far. -/
def bind (table : Table) (edge : Edge) (solver : Solver) : Table :=
  { table with
    solvers := table.solvers ++ [solver]
    bindings := table.bindings ++ [⟨edge, table.solvers.length⟩] }

def addOperand (table : Table) (id : Nat) (operand : String) : Table :=
  { table with solvers := table.solvers.modify id (·.add operand) }

/-- One condition: it is rejected, goes to a solver already on the edge, or is
bound with a solver of its own. -/
def addCondition (table : Table) (edge : Edge) (text : String) :
    Table × Log.Record :=
  match Condition.parse text with
  | .error error => (table, .rejected error)
  | .ok condition =>
      match table.registry.resolve? condition.typeTag (table.bound edge) with
      | none => (table, .rejected (.unknownType condition.typeTag))
      | some (.existing id) =>
          (table.addOperand id condition.operand, .reused edge condition)
      | some (.created solver) =>
          (table.bind edge (solver.add condition.operand),
            .bound edge condition)

def addConditions (table : Table) (edge : Edge) :
    List String → Table × List Log.Record
  | [] => (table, [])
  | text :: rest =>
      let (next, record) := table.addCondition edge text
      let (last, records) := next.addConditions edge rest
      (last, record :: records)

/-- The conditions of one expression, each on its own. -/
def addFilter (table : Table) (edge : Edge) (expression : String) :
    Table × List Log.Record :=
  table.addConditions edge (Condition.texts expression)

def ingest (table : Table) : List Spec → Table × List Log.Record
  | [] => (table, [])
  | spec :: rest =>
      let (next, before) := table.addFilter spec.edge spec.expression
      let (last, after) := next.ingest rest
      (last, before ++ after)

def register (table : Table) (typeTag : String) (kind : Solver.Kind) : Table :=
  { table with registry := table.registry.register typeTag kind }

/-- What may happen to a table. -/
inductive Step where
  | register (typeTag : String) (kind : Solver.Kind)
  | add (edge : Edge) (expression : String)
  | ingest (specs : List Spec)
  deriving DecidableEq, Repr

def step (table : Table) : Step → Table × List Log.Record
  | .register typeTag kind => (table.register typeTag kind, [])
  | .add edge expression => table.addFilter edge expression
  | .ingest specs => table.ingest specs

/-- A history of steps, with everything it reports. -/
def run (table : Table) : List Step → Table × List Log.Record
  | [] => (table, [])
  | first :: rest =>
      let (next, before) := table.step first
      let (last, after) := next.run rest
      (last, before ++ after)

@[simp] theorem addConditions_nil (table : Table) (edge : Edge) :
    table.addConditions edge [] = (table, []) := rfl

@[simp] theorem addConditions_cons (table : Table) (edge : Edge) (text : String)
    (rest : List String) :
    table.addConditions edge (text :: rest) =
      let next := table.addCondition edge text
      let last := next.1.addConditions edge rest
      (last.1, next.2 :: last.2) := rfl

@[simp] theorem ingest_nil (table : Table) : table.ingest [] = (table, []) :=
  rfl

@[simp] theorem ingest_cons (table : Table) (spec : Spec) (rest : List Spec) :
    table.ingest (spec :: rest) =
      let next := table.addFilter spec.edge spec.expression
      let last := next.1.ingest rest
      (last.1, next.2 ++ last.2) := rfl

@[simp] theorem run_nil (table : Table) : table.run [] = (table, []) := rfl

@[simp] theorem run_cons (table : Table) (first : Step) (rest : List Step) :
    table.run (first :: rest) =
      let next := table.step first
      let last := next.1.run rest
      (last.1, next.2 ++ last.2) := rfl

end Table

end EdgeFilters
