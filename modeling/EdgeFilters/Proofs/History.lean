import EdgeFilters.Config.Basic
import EdgeFilters.Proofs.Outcome

/-! A table is filled by moves: registrations, and conditions on an edge. -/

namespace EdgeFilters

/-- What a history consists of: registrations, and single
conditions on edges. -/
inductive Move where
  | register (typeTag : String) (kind : Solver.Kind)
  | condition (edge : Edge) (text : String)
  deriving DecidableEq, Repr

namespace Move

def ofExpression (edge : Edge) (expression : String) : List Move :=
  (Condition.texts expression).map (.condition edge)

def ofSpec (spec : Spec) : List Move := ofExpression spec.edge spec.expression

def ofStep : Table.Step → List Move
  | .register typeTag kind => [.register typeTag kind]
  | .add edge expression => ofExpression edge expression
  | .ingest specs => specs.flatMap ofSpec

def ofSteps (steps : List Table.Step) : List Move := steps.flatMap ofStep

theorem exists_condition_of_mem_ofExpression {move : Move} {edge : Edge}
    {expression : String} (member : move ∈ ofExpression edge expression) :
    ∃ text, move = .condition edge text := by
  obtain ⟨text, -, rfl⟩ := List.mem_map.1 member
  exact ⟨text, rfl⟩

theorem exists_condition_of_mem_ofSpecs {move : Move} {specs : List Spec}
    (member : move ∈ specs.flatMap ofSpec) :
    ∃ edge text, move = .condition edge text := by
  obtain ⟨spec, -, inside⟩ := List.mem_flatMap.1 member
  exact ⟨spec.edge, exists_condition_of_mem_ofExpression inside⟩

theorem register_not_mem_ofExpression {typeTag : String} {kind : Solver.Kind}
    {edge : Edge} {expression : String} :
    .register typeTag kind ∉ ofExpression edge expression := by
  intro member
  obtain ⟨text, same⟩ := exists_condition_of_mem_ofExpression member
  cases same

theorem register_not_mem_ofSpecs {typeTag : String} {kind : Solver.Kind}
    {specs : List Spec} : .register typeTag kind ∉ specs.flatMap ofSpec := by
  intro member
  obtain ⟨edge, text, same⟩ := exists_condition_of_mem_ofSpecs member
  cases same

theorem mem_of_register_mem_ofSteps {steps : List Table.Step} {typeTag : String}
    {kind : Solver.Kind} (member : .register typeTag kind ∈ ofSteps steps) :
    .register typeTag kind ∈ steps := by
  obtain ⟨step, inside, member⟩ := List.mem_flatMap.1 member
  cases step with
  | register otherTag otherKind =>
      cases List.mem_singleton.1 member
      exact inside
  | add edge expression => exact (register_not_mem_ofExpression member).elim
  | ingest specs => exact (register_not_mem_ofSpecs member).elim

end Move

def Registry.after (registry : Registry) : List Move → Registry
  | [] => registry
  | .register typeTag kind :: rest =>
      (registry.register typeTag kind).after rest
  | .condition _ _ :: rest => registry.after rest

theorem Registry.after_append (registry : Registry) (first second : List Move) :
    registry.after (first ++ second) = (registry.after first).after second := by
  induction first generalizing registry with
  | nil => rfl
  | cons move rest ih =>
      cases move with
      | register typeTag kind => exact ih (registry.register typeTag kind)
      | condition edge text => exact ih registry

/-- Specifications register nothing. -/
theorem Registry.after_ofSpecs (registry : Registry) (specs : List Spec) :
    registry.after (specs.flatMap Move.ofSpec) = registry := by
  induction specs with
  | nil => rfl
  | cons spec rest ih =>
      rw [List.flatMap_cons, after_append, Move.ofSpec, Move.ofExpression]
      induction Condition.texts spec.expression with
      | nil => exact ih
      | cons text texts further => exact further

namespace Table

def move (table : Table) : Move → Table × List Log.Record
  | .register typeTag kind => (table.register typeTag kind, [])
  | .condition edge text =>
      let (next, record) := table.addCondition edge text
      (next, [record])

def play (table : Table) : List Move → Table × List Log.Record
  | [] => (table, [])
  | first :: rest =>
      let (next, before) := table.move first
      let (last, after) := next.play rest
      (last, before ++ after)

@[simp] theorem play_nil (table : Table) : table.play [] = (table, []) := rfl

@[simp] theorem play_register (table : Table) (typeTag : String)
    (kind : Solver.Kind) (rest : List Move) :
    table.play (.register typeTag kind :: rest) =
      (table.register typeTag kind).play rest := rfl

theorem play_condition (table : Table) (edge : Edge) (text : String)
    (rest : List Move) :
    table.play (.condition edge text :: rest) =
      let next := table.addCondition edge text
      let last := next.1.play rest
      (last.1, next.2 :: last.2) := rfl

theorem play_append (table : Table) (first second : List Move) :
    table.play (first ++ second) =
      let next := table.play first
      let last := next.1.play second
      (last.1, next.2 ++ last.2) := by
  induction first generalizing table with
  | nil => rfl
  | cons move rest ih =>
      cases move with
      | register typeTag kind => exact ih _
      | condition edge text =>
          simp only [List.cons_append, play_condition, ih]

theorem addFilter_eq_play (table : Table) (edge : Edge) (expression : String) :
    table.addFilter edge expression =
      table.play (Move.ofExpression edge expression) := by
  unfold addFilter Move.ofExpression
  induction Condition.texts expression generalizing table with
  | nil => rfl
  | cons text rest ih =>
      simp only [addConditions_cons, List.map_cons, play_condition, ih]

theorem ingest_eq_play (table : Table) (specs : List Spec) :
    table.ingest specs = table.play (specs.flatMap Move.ofSpec) := by
  induction specs generalizing table with
  | nil => rfl
  | cons spec rest ih =>
      simp only [ingest_cons, List.flatMap_cons, play_append,
        addFilter_eq_play, ih]
      rfl

theorem step_eq_play (table : Table) (step : Step) :
    table.step step = table.play (Move.ofStep step) := by
  cases step with
  | register typeTag kind => rfl
  | add edge expression => exact addFilter_eq_play table edge expression
  | ingest specs => exact ingest_eq_play table specs

theorem run_eq_play (table : Table) (steps : List Step) :
    table.run steps = table.play (Move.ofSteps steps) := by
  unfold Move.ofSteps
  induction steps generalizing table with
  | nil => rfl
  | cons step rest ih =>
      simp only [run_cons, List.flatMap_cons, play_append, step_eq_play, ih]

/-- How entries come about move by move, each condition with one
of its outcomes. -/
inductive Course :
    Registry → List Entry → List Move → List Entry → List Log.Record → Prop
  | nil {registry : Registry} {entries : List Entry} :
      Course registry entries [] entries []
  | register {registry : Registry} {typeTag : String} {kind : Solver.Kind}
      {entries last : List Entry} {rest : List Move} {log : List Log.Record}
      (later : Course (registry.register typeTag kind) entries rest last log) :
      Course registry entries (.register typeTag kind :: rest) last log
  | condition {registry : Registry} {edge : Edge} {text : String}
      {entries next last : List Entry} {record : Log.Record} {rest : List Move}
      {log : List Log.Record}
      (outcome : Outcome registry edge text entries next record)
      (later : Course registry next rest last log) :
      Course registry entries (.condition edge text :: rest) last
        (record :: log)

theorem exists_course (registry : Registry) (entries : List Entry)
    (moves : List Move) :
    ∃ last log, Course registry entries moves last log := by
  induction moves generalizing registry entries with
  | nil => exact ⟨entries, [], .nil⟩
  | cons move rest ih =>
      cases move with
      | register typeTag kind =>
          obtain ⟨last, log, later⟩ :=
            ih (registry.register typeTag kind) entries
          exact ⟨last, log, .register later⟩
      | condition edge text =>
          obtain ⟨next, record, outcome⟩ :=
            exists_outcome registry edge text entries
          obtain ⟨last, log, later⟩ := ih registry next
          exact ⟨last, record :: log, .condition outcome later⟩

theorem Course.play_eq {registry : Registry} {entries last : List Entry}
    {moves : List Move} {log : List Log.Record}
    (course : Course registry entries moves last log) :
    (ofEntries registry entries).play moves =
      (ofEntries (registry.after moves) last, log) := by
  induction course with
  | nil => rfl
  | register _ ih => exact ih
  | condition outcome _ ih =>
      rw [play_condition, outcome.addCondition_eq]
      simp only [ih]
      rfl

/-- A table starts around a registry, or is filled from a configuration. -/
inductive Origin where
  | ofRegistry (registry : Registry)
  | ofConfig (config : Config)
  deriving DecidableEq, Repr

namespace Origin

def table : Origin → Table
  | .ofRegistry registry => .ofRegistry registry
  | .ofConfig config => config.table.1

def registry : Origin → Registry
  | .ofRegistry registry => registry
  | .ofConfig config => .builtin config.reuse

/-- The specifications of a configuration are the first thing that
happens to its table. -/
def steps : Origin → List Step
  | .ofRegistry _ => []
  | .ofConfig config => [.ingest config.specs]

/-- Every move since a table came about, its filling from a
configuration included. -/
def moves (origin : Origin) (steps : List Step) : List Move :=
  Move.ofSteps (origin.steps ++ steps)

theorem mem_of_register_mem_moves (origin : Origin) {steps : List Step}
    {typeTag : String} {kind : Solver.Kind}
    (member : .register typeTag kind ∈ origin.moves steps) :
    .register typeTag kind ∈ steps := by
  rcases List.mem_append.1 (Move.mem_of_register_mem_ofSteps member) with
    start | later
  · cases origin with
    | ofRegistry registry => cases start
    | ofConfig config => cases List.mem_singleton.1 start
  · exact later

/-- What the filling from a configuration reported. -/
def records : Origin → List Log.Record
  | .ofRegistry _ => []
  | .ofConfig config => config.table.2

/-- The table after some steps, with every record since it came about. -/
def history (origin : Origin) (steps : List Step) : Table × List Log.Record :=
  let last := origin.table.run steps
  (last.1, origin.records ++ last.2)

theorem history_eq_play (origin : Origin) (steps : List Step) :
    origin.history steps =
      (Table.ofRegistry origin.registry).play (origin.moves steps) := by
  cases origin with
  | ofRegistry registry => exact Table.run_eq_play _ steps
  | ofConfig config =>
      rw [moves, Origin.steps, ← Table.run_eq_play]
      rfl

theorem run_eq_play (origin : Origin) (steps : List Step) :
    (origin.table.run steps).1 =
      ((Table.ofRegistry origin.registry).play (origin.moves steps)).1 := by
  rw [← history_eq_play]
  rfl

/-- Every table that can come about is the table of its entries. -/
theorem exists_course_history (origin : Origin) (steps : List Step) :
    ∃ last log, Course origin.registry [] (origin.moves steps) last log ∧
      origin.history steps =
        (ofEntries (origin.registry.after (origin.moves steps)) last, log) := by
  obtain ⟨last, log, course⟩ :=
    Table.exists_course origin.registry [] (origin.moves steps)
  exact ⟨last, log,
    course, by rw [history_eq_play, ← ofEntries_nil, course.play_eq]⟩

theorem exists_course (origin : Origin) (steps : List Step) :
    ∃ last log, Course origin.registry [] (origin.moves steps) last log ∧
      (origin.table.run steps).1 =
        ofEntries (origin.registry.after (origin.moves steps)) last := by
  obtain ⟨last, log, course, filled⟩ := origin.exists_course_history steps
  have tables := congrArg Prod.fst filled
  exact ⟨last, log, course, tables⟩

end Origin

theorem exists_course_ingest (registry : Registry) (specs : List Spec) :
    ∃ last log, Course registry [] (specs.flatMap Move.ofSpec) last log ∧
      ((ofRegistry registry).ingest specs).1 =
        ofEntries (registry.after (specs.flatMap Move.ofSpec)) last := by
  obtain ⟨last, log, course⟩ :=
    exists_course registry [] (specs.flatMap Move.ofSpec)
  exact ⟨last, log,
    course, by rw [ingest_eq_play, ← ofEntries_nil, course.play_eq]⟩

theorem exists_course_of_config (config : Config) :
    ∃ log, Course (.builtin config.reuse) [] (config.specs.flatMap Move.ofSpec)
      config.table.1.entries log := by
  obtain ⟨last, log, course, filled⟩ :=
    exists_course_ingest (.builtin config.reuse) config.specs
  change config.table.1 = _ at filled
  rw [filled, entries_ofEntries]
  exact ⟨log, course⟩

end Table

end EdgeFilters
