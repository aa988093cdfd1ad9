import EdgeFilters.Proofs.History
import Mathlib.Data.List.Nodup

namespace EdgeFilters

theorem Registry.mem_of_resolve?_eq_existing {registry : Registry}
    {typeTag : String} {bound : List (Nat × Solver)} {id : Nat}
    (resolved : registry.resolve? typeTag bound = some (.existing id)) :
    ∃ solver, (id, solver) ∈ bound := by
  unfold resolve? at resolved
  cases reuse : registry.reuse with
  | false => simp [reuse] at resolved
  | true =>
      cases found : bound.find? (·.2.typeTag == typeTag) with
      | none => simp [reuse, found] at resolved
      | some placed =>
          obtain rfl : placed.1 = id := by simpa [reuse, found] using resolved
          exact ⟨placed.2, List.mem_of_find?_eq_some found⟩

namespace Table

/-- Tables that can come about. Between two conditions anyone may exchange the
registry, and the solvers may change in their places: a solver with rules of its
own could do no more. -/
inductive Reachable : Table → Prop
  | start (origin : Origin) : Reachable origin.table
  | step {table : Table} (reached : Reachable table) (step : Step) :
      Reachable (table.step step).1
  | condition {table : Table} (reached : Reachable table) (edge : Edge)
      (text : String) :
      Reachable (table.addCondition edge text).1
  | exchange {table : Table} (reached : Reachable table) (registry : Registry)
      {solvers : List Solver} (count : solvers.length = table.solvers.length) :
      Reachable { table with registry, solvers }

/-- Each binding names its own place, and there are no further solvers. -/
def Aligned (table : Table) : Prop :=
  table.bindings.map Binding.solver = List.range table.solvers.length

variable {table : Table} {edge : Edge}

theorem aligned_ofRegistry (registry : Registry) :
    (ofRegistry registry).Aligned := rfl

theorem Aligned.bind (aligned : table.Aligned) (edge : Edge) (solver : Solver) :
    (table.bind edge solver).Aligned := by
  unfold Aligned at aligned ⊢
  simp only [Table.bind, List.map_append, aligned, List.length_append,
    List.length_singleton, List.range_succ, List.map_singleton]

theorem Aligned.addOperand (aligned : table.Aligned) (id : Nat)
    (operand : String) : (table.addOperand id operand).Aligned := by
  unfold Aligned at aligned ⊢
  simp only [Table.addOperand, aligned, List.length_modify]

theorem Aligned.addCondition (aligned : table.Aligned) (edge : Edge)
    (text : String) : (table.addCondition edge text).1.Aligned := by
  unfold Table.addCondition
  split
  · exact aligned
  · split
    · exact aligned
    · exact aligned.addOperand _ _
    · exact aligned.bind _ _

theorem Aligned.register (aligned : table.Aligned) (typeTag : String)
    (kind : Solver.Kind) :
    (table.register typeTag kind).Aligned := aligned

theorem Aligned.play (aligned : table.Aligned) (moves : List Move) :
    (table.play moves).1.Aligned := by
  induction moves generalizing table with
  | nil => exact aligned
  | cons move rest ih =>
      cases move with
      | register typeTag kind => exact ih (aligned.register typeTag kind)
      | condition edge text => exact ih (aligned.addCondition edge text)

theorem Aligned.step (aligned : table.Aligned) (step : Step) :
    (table.step step).1.Aligned := by
  rw [step_eq_play]
  exact aligned.play _

theorem Origin.aligned_table (origin : Origin) : origin.table.Aligned := by
  cases origin with
  | ofRegistry registry => exact aligned_ofRegistry registry
  | ofConfig config => exact (aligned_ofRegistry _).step (.ingest config.specs)

theorem Reachable.aligned (reached : Reachable table) : table.Aligned := by
  induction reached with
  | start origin => exact origin.aligned_table
  | step _ step ih => exact ih.step step
  | condition _ edge text ih => exact ih.addCondition edge text
  | exchange _ registry count ih =>
      unfold Aligned at ih ⊢
      rw [count]
      exact ih

theorem Reachable.run (reached : Reachable table) (steps : List Step) :
    Reachable (table.run steps).1 := by
  induction steps generalizing table with
  | nil => exact reached
  | cons first rest ih => exact ih (reached.step first)

theorem Aligned.length_eq (aligned : table.Aligned) :
    table.solvers.length = table.bindings.length := by
  have counts := congrArg List.length aligned
  rw [List.length_map, List.length_range] at counts
  exact counts.symm

theorem Aligned.solver_eq (aligned : table.Aligned) {place : Nat}
    {binding : Binding} (found : table.bindings[place]? = some binding) :
    binding.solver = place := by
  have named :
      (table.bindings.map Binding.solver)[place]? = some binding.solver := by
    rw [List.getElem?_map, found, Option.map_some]
  rw [aligned] at named
  obtain ⟨inside, here⟩ := List.getElem?_eq_some_iff.1 named
  rw [List.getElem_range] at here
  exact here.symm

theorem Aligned.solver_lt (aligned : table.Aligned) {binding : Binding}
    (member : binding ∈ table.bindings) :
    binding.solver < table.solvers.length := by
  rw [← List.mem_range, ← aligned]
  exact List.mem_map_of_mem member

theorem Aligned.eq_of_solver_eq (aligned : table.Aligned) {one other : Binding}
    (first : one ∈ table.bindings) (second : other ∈ table.bindings)
    (same : one.solver = other.solver) : one = other := by
  have distinct : (table.bindings.map Binding.solver).Nodup := by
    rw [aligned]
    exact List.nodup_range
  exact List.inj_on_of_nodup_map distinct first second same

theorem Aligned.exists_solver (aligned : table.Aligned) {binding : Binding}
    (member : binding ∈ table.bindings) :
    ∃ solver, table.solvers[binding.solver]? = some solver :=
  ⟨_, List.getElem?_eq_getElem (aligned.solver_lt member)⟩

theorem Aligned.map_fst_entries (aligned : table.Aligned) :
    table.entries.map Prod.fst = table.bindings.map Binding.edge := by
  rw [entries, List.map_filterMap, ← List.filterMap_eq_map]
  apply List.filterMap_congr
  intro binding member
  obtain ⟨solver, found⟩ := aligned.exists_solver member
  simp [found]

theorem Aligned.map_snd_entries (aligned : table.Aligned) :
    table.entries.map Prod.snd = table.solvers := by
  calc
    table.entries.map Prod.snd =
        (table.bindings.map Binding.solver).filterMap (table.solvers[·]?) := by
      rw [entries, List.map_filterMap, List.filterMap_map]
      apply List.filterMap_congr
      intro binding _
      cases found : table.solvers[binding.solver]? <;> simp [found]
    _ = (table.solvers.map some).filterMap id := by
      have places : (List.range table.solvers.length).map (table.solvers[·]?) =
          table.solvers.map some :=
        List.ext_getElem (by simp) fun place inside _ => by
          simp at inside
          simp [inside]
      rw [aligned, ← places, List.filterMap_map]
      rfl
    _ = table.solvers := by simp

theorem Aligned.getElem?_bindings (aligned : table.Aligned) (place : Nat) :
    table.bindings[place]? =
      table.entries[place]?.map fun entry => ⟨entry.1, place⟩ := by
  have edges : table.entries[place]?.map Prod.fst =
      table.bindings[place]?.map Binding.edge := by
    simpa using congrArg (·[place]?) aligned.map_fst_entries
  cases found : table.bindings[place]? with
  | none =>
      rw [found, Option.map_none, Option.map_eq_none_iff] at edges
      rw [edges, Option.map_none]
  | some binding =>
      rw [found, Option.map_some, Option.map_eq_some_iff] at edges
      obtain ⟨entry, here, same⟩ := edges
      have named := aligned.solver_eq found
      rw [here, Option.map_some, same, ← named]

/-- An aligned table is told by its registry and its entries. -/
theorem Aligned.eq_ofEntries (aligned : table.Aligned) :
    table = ofEntries table.registry table.entries := by
  have bindings : table.bindings =
      table.entries.mapIdx fun place entry => ⟨entry.1, place⟩ :=
    List.ext_getElem? fun place => by
      rw [List.getElem?_mapIdx, aligned.getElem?_bindings]
  have solvers := aligned.map_snd_entries.symm
  obtain ⟨registry, _, _⟩ := table
  simp only [ofEntries, Table.mk.injEq, true_and]
  exact ⟨solvers, bindings⟩

theorem Aligned.map_fst_bound (aligned : table.Aligned) (edge : Edge) :
    (table.bound edge).map Prod.fst =
      (table.bindings.filter (·.edge == edge)).map Binding.solver := by
  rw [bound, List.map_filterMap, ← List.filterMap_eq_map]
  apply List.filterMap_congr
  intro binding member
  obtain ⟨solver, found⟩ := aligned.exists_solver (List.mem_filter.1 member).1
  simp [found]

theorem Aligned.exists_binding_of_resolve? (aligned : table.Aligned)
    {typeTag : String} {id : Nat}
    (resolved : table.registry.resolve? typeTag (table.bound edge) =
      some (.existing id)) :
    ∃ binding ∈ table.bindings, binding.edge = edge ∧ binding.solver = id := by
  obtain ⟨solver, member⟩ := Registry.mem_of_resolve?_eq_existing resolved
  have listed :
      id ∈ (table.bindings.filter (·.edge == edge)).map Binding.solver := by
    rw [← aligned.map_fst_bound]
    exact List.mem_map_of_mem member
  obtain ⟨binding, inside, named⟩ := List.mem_map.1 listed
  obtain ⟨inside, same⟩ := List.mem_filter.1 inside
  exact ⟨binding, inside, eq_of_beq same, named⟩

/-- In every table that can come about there are as many solvers as bindings and
the place of a binding is the place of its solver. So reading all entries,
reading an edge and resolving a tag meet a solver wherever they look, and no two
bindings and no two edges have a solver in common. -/
theorem solver_of_reachable (reached : Reachable table) :
    table.solvers.length = table.bindings.length ∧
      (∀ (place : Nat) (binding : Binding),
        table.bindings[place]? = some binding →
        binding.solver = place) ∧
      (∀ binding ∈ table.bindings, binding.solver < table.solvers.length) ∧
      table.entries.map Prod.fst = table.bindings.map Binding.edge ∧
      (∀ edge, (table.bound edge).map Prod.fst =
        (table.bindings.filter (·.edge == edge)).map Binding.solver) ∧
      (∀ edge typeTag id,
        table.registry.resolve? typeTag (table.bound edge) =
          some (.existing id) →
        id < table.solvers.length) ∧
      (∀ (place other : Nat) (first second : Binding),
        table.bindings[place]? = some first →
        table.bindings[other]? = some second → first.solver = second.solver →
        place = other ∧ first.edge = second.edge) := by
  have aligned := reached.aligned
  refine ⟨aligned.length_eq, fun _ _ => aligned.solver_eq,
    fun _ => aligned.solver_lt, aligned.map_fst_entries, aligned.map_fst_bound,
    fun edge typeTag id resolved => ?_,
    fun place other first second here there same => ?_⟩
  · obtain ⟨binding, member, -, rfl⟩ :=
      aligned.exists_binding_of_resolve? resolved
    exact aligned.solver_lt member
  · have one : first = second :=
      aligned.eq_of_solver_eq (List.mem_of_getElem? here)
      (List.mem_of_getElem? there) same
    exact ⟨(aligned.solver_eq here).symm.trans
      (same.trans (aligned.solver_eq there)), congrArg Binding.edge one⟩

theorem solver_of_reachable_exchanged :
    let edge : Edge := ⟨"camera", "detector"⟩
    let aside : Edge := ⟨"camera", "tracker"⟩
    let origin : Origin :=
      .ofConfig ⟨"", false, [⟨edge, "Label=person,Label=car"⟩]⟩
    let filled :=
      (origin.table.run [.register "Near" .label, .add aside "Near=a"]).1
    let sharing := (Registry.builtin true).register "Near" (.labelStart "Label")
    let exchanged : Table :=
      { filled with
        registry := sharing,
        solvers := [⟨.anything "Far", []⟩, ⟨.label, ["car"]⟩, ⟨.label, []⟩] }
    let table := (exchanged.addCondition edge "Near=b").1
    Reachable table ∧ table.solvers.length = table.bindings.length ∧
      table.bindings = [⟨edge, 0⟩, ⟨edge, 1⟩, ⟨aside, 2⟩, ⟨edge, 3⟩] ∧
      table.registry.resolve? "Label" (table.bound edge) = some (.existing 1) ∧
      1 < table.solvers.length := by
  intro edge aside origin filled sharing exchanged table
  have before : Reachable filled := (Reachable.start origin).run _
  have between : Reachable exchanged :=
    before.exchange sharing (by decide +kernel +zetaReduce)
  have reached : Reachable table := between.condition edge "Near=b"
  obtain ⟨count, -, -, -, -, existing, -⟩ := solver_of_reachable reached
  have found : table.registry.resolve? "Label" (table.bound edge) =
      some (.existing 1) := by
    decide +kernel +zetaReduce
  refine ⟨reached, count, ?_, found, existing edge "Label" 1 found⟩
  decide +kernel +zetaReduce

end Table

end EdgeFilters
