import EdgeFilters.Proofs.Filtering
import EdgeFilters.Proofs.Modes

namespace EdgeFilters

theorem Entry.GrowsTo.accepts {old new : Entry} (grows : GrowsTo old new)
    {label : Option String} (passed : old.2.accepts label = true) :
    new.2.accepts label = true := by
  obtain ⟨_, kind, few⟩ := old
  obtain ⟨_, newKind, many⟩ := new
  obtain rfl : newKind = kind := grows.kind
  exact Solver.accepts_of_subset grows.operands.subset passed

namespace Table

theorem accepts_sharing_of_separate (origin : Origin) (steps : List Step)
    (edge : Edge) (label : Option String)
    (passed : ((origin.withReuse false).table.run steps).1.accepts edge label =
      true) :
    ((origin.withReuse true).table.run steps).1.accepts edge label = true := by
  obtain ⟨shared, _, sharing, sharedEq⟩ :=
    (origin.withReuse true).exists_course steps
  obtain ⟨separate, _, separating, separateEq⟩ :=
    (origin.withReuse false).exists_course steps
  rw [Origin.registry_withReuse, Origin.moves_withReuse] at sharing separating
  rw [separateEq, accepts_ofEntries_iff, separating.last_of_separate rfl,
    List.nil_append] at passed
  rw [sharedEq, accepts_ofEntries_iff]
  intro entry member onEdge
  obtain ⟨accepted, taken, grows⟩ := sharing.exists_accepted member
  have alone : accepted.entry ∈
      ((origin.registry.withReuse false).accepted (origin.moves steps)).map
        Accepted.entry := by
    rw [Registry.accepted_withReuse] at taken ⊢
    exact List.mem_map_of_mem taken
  exact grows.accepts
    (passed accepted.entry alone (grows.edge.symm.trans onEdge))

/-- The same history with reuse and without: on every edge the items that pass
without reuse are, in order, among those that pass with reuse, whatever the
tags stand for. -/
theorem filterItems_separate_sublist {α : Type*} (origin : Origin)
    (steps : List Step) (edge : Edge) (label : α → Option String)
    (items : List α) :
    (((origin.withReuse false).table.run steps).1.filterItems edge label
      items).Sublist
      (((origin.withReuse true).table.run steps).1.filterItems edge label
        items) := by
  apply List.monotone_filter_right
  intro item passed
  exact accepts_sharing_of_separate origin steps edge (label item) passed

end Table

end EdgeFilters
