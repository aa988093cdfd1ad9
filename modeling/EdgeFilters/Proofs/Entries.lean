import EdgeFilters.Table
import Mathlib.Data.List.Basic

/-! A table as the list of its entries. -/

namespace EdgeFilters

/-- A solver on the edge it is bound to. -/
abbrev Entry := Edge × Solver

/-- What sharing goes by. -/
def Entry.key (entry : Entry) : Edge × String := (entry.1, entry.2.typeTag)

namespace Table

/-- The table with these entries, each with a solver of its own. -/
def ofEntries (registry : Registry) (entries : List Entry) : Table where
  registry
  solvers := entries.map Prod.snd
  bindings := entries.mapIdx fun place entry => ⟨entry.1, place⟩

variable {registry : Registry} {entries : List Entry}

@[simp] theorem ofEntries_nil : ofEntries registry [] = ofRegistry registry :=
  rfl

@[simp] theorem registry_ofEntries :
    (ofEntries registry entries).registry = registry := rfl

@[simp] theorem length_ofEntries :
    (ofEntries registry entries).length = entries.length := by
  simp [length, ofEntries]

private theorem solver_at_place {entry : Entry} {place : Nat}
    (member : (entry, place) ∈ entries.zipIdx) :
    (ofEntries registry entries).solvers[place]? = some entry.2 := by
  rw [List.mem_zipIdx_iff_getElem?] at member
  simp [ofEntries, member]

private theorem bindings_ofEntries :
    (ofEntries registry entries).bindings =
      entries.zipIdx.map fun numbered => ⟨numbered.1.1, numbered.2⟩ := by
  simp only [ofEntries, List.mapIdx_eq_zipIdx_map]

@[simp] theorem entries_ofEntries :
    (ofEntries registry entries).entries = entries := by
  rw [Table.entries, bindings_ofEntries, List.filterMap_map]
  calc
    _ = entries.zipIdx.filterMap (some ∘ Prod.fst) := by
      apply List.filterMap_congr
      rintro ⟨entry, place⟩ member
      simp [solver_at_place member]
    _ = entries := by
      rw [List.filterMap_eq_map, List.zipIdx_map_fst]

theorem bound_ofEntries (edge : Edge) :
    (ofEntries registry entries).bound edge =
      entries.zipIdx.filterMap fun numbered =>
        if numbered.1.1 = edge then some (numbered.2, numbered.1.2)
        else none := by
  rw [bound, bindings_ofEntries, List.filter_map, List.filterMap_map,
    List.filterMap_filter]
  apply List.filterMap_congr
  rintro ⟨entry, place⟩ member
  by_cases same : entry.1 = edge
  · simp [same, solver_at_place member]
  · simp [same]

theorem find_ofEntries (edge : Edge) :
    (ofEntries registry entries).find edge =
      (entries.filter (·.1 == edge)).map Prod.snd := by
  rw [find, bound_ofEntries, List.map_filterMap]
  calc
    _ = (entries.zipIdx.map Prod.fst).filterMap fun entry =>
          if entry.1 = edge then some entry.2 else none := by
      rw [List.filterMap_map]
      apply List.filterMap_congr
      rintro ⟨entry, place⟩ _
      by_cases same : entry.1 = edge <;> simp [same]
    _ = (entries.filter (·.1 == edge)).map Prod.snd := by
      rw [List.zipIdx_map_fst, ← List.filterMap_eq_map, List.filterMap_filter]
      simp

@[simp] theorem edges_ofEntries :
    (ofEntries registry entries).edges = (entries.map Prod.fst).eraseDups := by
  rw [edges, bindings_ofEntries, List.map_map]
  congr 1
  calc
    _ = (entries.zipIdx.map Prod.fst).map Prod.fst := by rw [List.map_map]; rfl
    _ = entries.map Prod.fst := by rw [List.zipIdx_map_fst]

theorem bind_ofEntries (edge : Edge) (solver : Solver) :
    (ofEntries registry entries).bind edge solver =
      ofEntries registry (entries ++ [(edge, solver)]) := by
  simp [bind, ofEntries]

theorem addOperand_ofEntries (before after : List Entry) (edge : Edge)
    (solver : Solver) (operand : String) :
    (ofEntries registry (before ++ (edge, solver) :: after)).addOperand
      before.length operand =
      ofEntries registry (before ++ (edge, solver.add operand) :: after) := by
  have modified :
      (before.map Prod.snd ++ solver :: after.map Prod.snd).modify
          (before.map Prod.snd).length (·.add operand) =
        before.map Prod.snd ++ solver.add operand :: after.map Prod.snd := by
    rw [List.modify_eq_take_cons_drop (by simp), List.take_left,
      List.drop_length_add_append]
    simp
  simpa [addOperand, ofEntries, List.mapIdx_append, List.mapIdx_cons]
    using modified

@[simp] theorem register_ofEntries (typeTag : String) (kind : Solver.Kind) :
    (ofEntries registry entries).register typeTag kind =
      ofEntries (registry.register typeTag kind) entries := rfl

end Table

end EdgeFilters
