import EdgeFilters.Proofs.Operands
import EdgeFilters.Proofs.Places
import Mathlib.Algebra.GroupWithZero.Nat
import Mathlib.Algebra.BigOperators.Group.List.Lemmas

namespace EdgeFilters

variable {α : Type*} [DecidableEq α]

theorem pairwise_idxOf_eraseDups (items : List α) :
    items.eraseDups.Pairwise fun one other =>
      items.idxOf one < items.idxOf other := by
  induction items using List.reverseRecOn with
  | nil => exact List.Pairwise.nil
  | append_singleton before item ih =>
      have unmoved : ∀ {one}, one ∈ before.eraseDups →
          (before ++ [item]).idxOf one = before.idxOf one := fun member =>
        List.idxOf_append_of_mem (List.mem_eraseDups.1 member)
      have kept : before.eraseDups.Pairwise fun one other =>
          (before ++ [item]).idxOf one < (before ++ [item]).idxOf other := by
        refine ih.imp_of_mem fun here there earlier => ?_
        rw [unmoved here, unmoved there]
        exact earlier
      rw [eraseDups_concat]
      split
      · exact kept
      · next fresh =>
          refine List.pairwise_append.2 ⟨kept, List.pairwise_singleton _ _, ?_⟩
          intro one member other last
          obtain rfl := List.mem_singleton.1 last
          rw [unmoved member, List.idxOf_append_of_notMem fresh]
          exact Nat.lt_add_right _
            (List.idxOf_lt_length_of_mem (List.mem_eraseDups.1 member))

theorem sum_count_eraseDups (items : List α) :
    (items.eraseDups.map fun item => items.count item).sum = items.length := by
  have same : items.eraseDups.Perm items.dedup := by
    rw [List.perm_ext_iff_of_nodup (nodup_eraseDups items) items.nodup_dedup]
    intro item
    rw [List.mem_eraseDups, List.mem_dedup]
  rw [(same.map _).sum_eq, List.sum_map_count_dedup_eq_length]

namespace Table

variable {table : Table}

/-- A lookup passes over the bindings on other edges, and with
them their entries. -/
theorem find_eq_entries (table : Table) (edge : Edge) :
    table.find edge = (table.entries.filter (·.1 == edge)).map Prod.snd := by
  rw [find, bound, entries, List.filter_filterMap, List.filterMap_filter,
    List.map_filterMap, List.map_filterMap]
  apply List.filterMap_congr
  intro binding _
  cases table.solvers[binding.solver]? with
  | none => simp
  | some solver =>
      by_cases same : binding.edge = edge <;> simp [Option.filter, same]

theorem mem_find_iff {edge : Edge} {solver : Solver} :
    solver ∈ table.find edge ↔ (edge, solver) ∈ table.entries := by
  simp [find_eq_entries]

theorem length_find (table : Table) (edge : Edge) :
    (table.find edge).length = (table.entries.map Prod.fst).count edge := by
  rw [find_eq_entries, List.length_map, ← List.countP_eq_length_filter,
    List.count, List.countP_map]
  rfl

theorem Aligned.edges_eq (aligned : table.Aligned) :
    table.edges = (table.entries.map Prod.fst).eraseDups := by
  rw [edges, aligned.map_fst_entries]

theorem Aligned.length_eq_entries (aligned : table.Aligned) :
    table.length = (table.entries.map Prod.fst).length := by
  rw [aligned.map_fst_entries, List.length_map, Table.length]

theorem Aligned.mem_edges_iff (aligned : table.Aligned) {edge : Edge} :
    edge ∈ table.edges ↔ table.find edge ≠ [] := by
  rw [aligned.edges_eq, List.mem_eraseDups, ← List.count_pos_iff, ← length_find,
    List.length_pos_iff]

theorem Aligned.mem_bound_iff (aligned : table.Aligned) {binding : Binding}
    (member : binding ∈ table.bindings) {edge : Edge} :
    binding.solver ∈ (table.bound edge).map Prod.fst ↔ binding.edge = edge := by
  rw [aligned.map_fst_bound, List.mem_map]
  constructor
  · rintro ⟨other, inside, named⟩
    obtain ⟨inside, same⟩ := List.mem_filter.1 inside
    rw [← aligned.eq_of_solver_eq inside member named]
    exact eq_of_beq same
  · intro same
    exact ⟨binding, List.mem_filter.2 ⟨member, beq_iff_eq.2 same⟩, rfl⟩

/-- In every table that can come about no edge is listed twice, the edges
listed are those where a lookup finds a solver, a lookup finds the solvers of
exactly the entries with both ends of the edge, in their order, the edges stand
in the order of their first entries, the lookups on them find as many solvers
as there are bindings, and each binding's solver is found, by its place, on
exactly one of them. -/
theorem edges_of_reachable (reached : Reachable table) :
    table.edges.Nodup ∧
      (∀ edge, edge ∈ table.edges ↔ table.find edge ≠ []) ∧
      (∀ input output, table.find ⟨input, output⟩ =
        (table.entries.filter fun entry =>
          entry.1.input == input && entry.1.output == output).map Prod.snd) ∧
      (table.edges.Pairwise fun one other =>
        (table.entries.map Prod.fst).idxOf one <
          (table.entries.map Prod.fst).idxOf other) ∧
      (table.edges.map fun edge => (table.find edge).length).sum =
        table.length ∧
      (∀ binding ∈ table.bindings,
        ∃! edge, edge ∈ table.edges ∧
          binding.solver ∈ (table.bound edge).map Prod.fst) := by
  have aligned := reached.aligned
  refine ⟨nodup_eraseDups _, fun _ => aligned.mem_edges_iff,
    fun input output => ?_, ?_, ?_,
    fun binding member => ⟨binding.edge, ⟨?_, ?_⟩, fun edge found => ?_⟩⟩
  · rw [find_eq_entries]
    congr 2
    funext entry
    obtain ⟨⟨_, _⟩, _⟩ := entry
    rw [Bool.eq_iff_iff]
    simp
  · rw [aligned.edges_eq]
    exact pairwise_idxOf_eraseDups _
  · simp only [length_find]
    rw [aligned.edges_eq, sum_count_eraseDups, aligned.length_eq_entries]
  · exact List.mem_eraseDups.2 (List.mem_map_of_mem member)
  · exact (aligned.mem_bound_iff member).2 rfl
  · exact ((aligned.mem_bound_iff member).1 found.2).symm

theorem edges_of_reachable_interleaved :
    let edge : Edge := ⟨"camera", "detector"⟩
    let aside : Edge := ⟨"camera", "tracker"⟩
    let origin : Origin :=
      .ofConfig ⟨"", false, [⟨edge, "Label=person"⟩, ⟨aside, "Label=car"⟩]⟩
    let table :=
      (origin.table.run [.register "Near" (.labelStart "Far"),
        .add edge "Near=a"]).1
    Reachable table ∧ table.edges = [edge, aside] ∧ table.edges.Nodup ∧
      table.bindings = [⟨edge, 0⟩, ⟨aside, 1⟩, ⟨edge, 2⟩] ∧
      (table.edges.map fun edge => (table.find edge).length) = [2, 1] ∧
      (table.edges.map fun edge => (table.find edge).length).sum =
        table.length ∧
      ∃! owner, owner ∈ table.edges ∧ 2 ∈ (table.bound owner).map Prod.fst := by
  intro edge aside origin table
  have reached : Reachable table := (Reachable.start origin).run _
  obtain ⟨distinct, -, -, -, counts, found⟩ := edges_of_reachable reached
  have listed : (⟨edge, 2⟩ : Binding) ∈ table.bindings := by
    decide +kernel +zetaReduce
  refine ⟨reached, ?_, distinct, ?_, ?_, counts, found ⟨edge, 2⟩ listed⟩
  all_goals decide +kernel +zetaReduce

end Table

end EdgeFilters
