import EdgeFilters.Proofs.Commands
import EdgeFilters.Proofs.Growth
import EdgeFilters.Proofs.Printing

namespace EdgeFilters

open Json (Value Document)

def Solver.value (solver : Solver) : Value :=
  .object [("conditions", .list (solver.operands.map .text)),
    ("type", .text solver.typeTag)]

def Report.answer (edge : Edge) (solvers : List Solver) : Value :=
  .object
    [("filters", .list (solvers.map Solver.value)), ("input", .text edge.input),
     ("output", .text edge.output)]

theorem Solver.value_json (solver : Solver) :
    solver.json.value = solver.value := by
  simp [json, Json.texts, Json.value, Json.fieldValues, Json.itemValues_eq_map,
    Solver.value, Function.comp_def]

theorem Report.value_edgeJson (table : Table) (edge : Edge) :
    (edgeJson table edge).value = answer edge (table.find edge) := by
  simp [edgeJson, Json.value, Json.fieldValues, Json.itemValues_eq_map, answer,
    Function.comp_def, Solver.value_json]

theorem Solver.value_eq_iff {solver other : Solver} :
    solver.value = other.value ↔
      solver.operands = other.operands ∧ solver.typeTag = other.typeTag := by
  have texts : Function.Injective Value.text := fun _ _ => Value.text.inj
  simp [value, (List.map_injective_iff.2 texts).eq_iff]

theorem Report.answer_eq_iff {edge other : Edge}
    {solvers others : List Solver} :
    answer edge solvers = answer other others ↔
      edge = other ∧ solvers.map Solver.value = others.map Solver.value := by
  cases edge
  cases other
  simp [answer]
  tauto

theorem Table.label_of_config (config : Config) :
    ∀ entry ∈ config.table.1.entries, entry.2.kind = .label := by
  obtain ⟨log, course⟩ := exists_course_of_config config
  have before : ∀ typeTag kind,
      (Registry.builtin config.reuse).kind? typeTag = some kind →
        kind = .label :=
    fun typeTag kind registered =>
      (Registry.kind?_builtin_eq_some_iff.1 registered).2
  have later : ∀ typeTag kind,
      Move.register typeTag kind ∈ config.specs.flatMap Move.ofSpec →
        kind = .label :=
    fun typeTag kind member => (Move.register_not_mem_ofSpecs member).elim
  exact fun entry member => course.kind_of_mem before later member

theorem Solver.eq_of_value_eq {solver other : Solver}
    (label : solver.kind = .label) (label' : other.kind = .label)
    (same : solver.value = other.value) :
    solver = other := by
  obtain ⟨operands, -⟩ := value_eq_iff.1 same
  cases solver
  cases other
  simp_all

theorem Solver.eq_of_map_value {solvers others : List Solver}
    (labels : ∀ solver ∈ solvers, solver.kind = .label)
    (labels' : ∀ solver ∈ others, solver.kind = .label)
    (same : solvers.map value = others.map value) : solvers = others := by
  induction solvers generalizing others with
  | nil => exact (List.map_eq_nil_iff.1 same.symm).symm
  | cons solver rest ih =>
      obtain ⟨other, others, rfl, first, later⟩ :=
        List.map_eq_cons_iff.1 same.symm
      obtain ⟨label, labels⟩ := List.forall_mem_cons.1 labels
      obtain ⟨label', labels'⟩ := List.forall_mem_cons.1 labels'
      rw [eq_of_value_eq label label' first.symm, ih labels labels' later.symm]

namespace Command

/-- A lookup, asked for as a document, on a file that is a configuration. -/
structure Lookup where
  files : String → File
  arguments : List String
  file : String
  edge : Edge
  reuse : Bool
  config : Config
  parsed : parse arguments =
    .ok (.lookup file edge.input edge.output reuse true)
  loaded : Config.load (files file) = .ok config

namespace Lookup

variable (lookup : Lookup)

def table : Table :=
  { lookup.config with reuse := lookup.config.reuse || lookup.reuse }.table.1

def solvers : List Solver := lookup.table.find lookup.edge

def outcome : Outcome := runArguments lookup.files lookup.arguments

theorem outcome_eq : lookup.outcome =
    ⟨0, Report.unlines [(Report.edgeJson lookup.table lookup.edge).pretty],
      ""⟩ := by
  rw [outcome, runArguments, lookup.parsed]
  simp only [run, report, loadTable_of_load lookup.loaded]
  rfl

theorem document_outcome_iff {value : Value} :
    Document lookup.outcome.output value ↔
      value = Report.answer lookup.edge lookup.solvers := by
  have line :
      Report.unlines [(Report.edgeJson lookup.table lookup.edge).pretty] =
      (Report.edgeJson lookup.table lookup.edge).pretty ++ "\n" := by
    simp [Report.unlines]
  rw [outcome_eq, line, Json.document_pretty_iff,
    Report.value_edgeJson, solvers]

theorem label_of_mem_solvers :
    ∀ solver ∈ lookup.solvers, solver.kind = .label :=
  fun solver member =>
    Table.label_of_config _ (lookup.edge, solver) (Table.mem_find_iff.1 member)

theorem output_eq_iff (other : Lookup) :
    lookup.outcome.output = other.outcome.output ↔
      lookup.edge = other.edge ∧ lookup.solvers = other.solvers := by
  constructor
  · intro same
    have read := lookup.document_outcome_iff.2 rfl
    rw [same, other.document_outcome_iff, Report.answer_eq_iff] at read
    obtain ⟨edge, values⟩ := read
    have found :=
      Solver.eq_of_map_value lookup.label_of_mem_solvers
        other.label_of_mem_solvers values
    exact ⟨edge, found⟩
  · rintro ⟨edge, found⟩
    have found : lookup.table.find lookup.edge = other.table.find other.edge :=
      found
    rw [outcome_eq, outcome_eq, Report.edgeJson, Report.edgeJson, found, edge]

theorem solvers_of_unbound
    (unbound : ∀ binding ∈ lookup.table.bindings, binding.edge ≠ lookup.edge) :
    lookup.solvers = [] := by
  have absent : lookup.table.bindings.filter (·.edge == lookup.edge) = [] :=
    List.filter_eq_nil_iff.2 fun binding member => by
      simpa using unbound binding member
  rw [solvers, Table.find, Table.bound, absent]
  rfl

end Lookup

/-- A lookup that is asked for a document on a configuration succeeds and prints
one. By the grammar it stands for the edge and the solvers found there, in
order, each with its type and its operands, and for nothing else; nothing bound
on the edge makes an empty list. Two lookups, on whatever files, print the same
if and only if their edges are the same and they find the same solvers. -/
theorem lookup_answers (lookup : Lookup) :
    lookup.outcome.status = 0 ∧
      (∀ value, Document lookup.outcome.output value ↔
        value = Report.answer lookup.edge (lookup.table.find lookup.edge)) ∧
      ((∀ binding ∈ lookup.table.bindings, binding.edge ≠ lookup.edge) →
        ∀ value, Document lookup.outcome.output value ↔
          value = Report.answer lookup.edge []) ∧
      ∀ other : Lookup, lookup.outcome.output = other.outcome.output ↔
        lookup.edge = other.edge ∧
          lookup.table.find lookup.edge = other.table.find other.edge := by
  refine ⟨?_, fun value => lookup.document_outcome_iff, fun unbound value => ?_,
    lookup.output_eq_iff⟩
  · rw [lookup.outcome_eq]
  · rw [lookup.document_outcome_iff, lookup.solvers_of_unbound unbound]

theorem lookup_answers_escaped :
    let edge : Edge := ⟨"cam\"era\\", "dé\ttector"⟩
    let config : Config :=
      ⟨"", false, [⟨edge, "Label=a\"b\\,Label=\x00\x07\n𝄞"⟩]⟩
    let files : String → File :=
      fun _ => .content (Config.written config).toUTF8
    ∃ asked other : Lookup,
      asked.files = files ∧ other.files = files ∧ asked.edge = edge ∧
      other.edge = ⟨"", edge.output⟩ ∧
      (∀ value, Document asked.outcome.output value ↔
        value = Report.answer edge [⟨.label, ["a\"b\\", "\x00\x07\n𝄞"]⟩]) ∧
      (∀ binding ∈ other.table.bindings, binding.edge ≠ other.edge) ∧
      (∀ value, Document other.outcome.output value ↔
        value = Report.answer ⟨"", edge.output⟩ []) ∧
      asked.outcome.output ≠ other.outcome.output := by
  intro edge config files
  have filled : ∀ spec ∈ config.specs, spec.edge.Filled := by
    decide +kernel +zetaReduce
  have loaded : Config.load (files "config.yaml") = .ok config :=
    (load_of_text _).trans (Config.parse_written_of_filled _ filled)
  let asked : Lookup :=
    ⟨files, _, "config.yaml", edge, true, config, parse_arguments _, loaded⟩
  let other : Lookup :=
    ⟨files, _, "config.yaml", ⟨"", edge.output⟩, false, config,
      parse_arguments _, loaded⟩
  obtain ⟨-, read, -, same⟩ := lookup_answers asked
  obtain ⟨-, -, bare, -⟩ := lookup_answers other
  have found :
      ({ config with reuse := config.reuse || true } : Config).table.1.find
        edge = [⟨.label, ["a\"b\\", "\x00\x07\n𝄞"]⟩] := by
    decide +kernel +zetaReduce
  have unbound : ∀ binding ∈
      ({ config with reuse := config.reuse || false } :
        Config).table.1.bindings,
      binding.edge ≠ ⟨"", edge.output⟩ := by
    decide +kernel +zetaReduce
  refine ⟨asked, other, rfl, rfl, rfl, rfl, ?_, unbound, bare unbound, ?_⟩
  · rw [← found]
    exact read
  · intro printed
    obtain ⟨edges, -⟩ := (same other).1 printed
    revert edges
    change edge ≠ ⟨"", edge.output⟩
    decide +kernel +zetaReduce

end Command

end EdgeFilters
