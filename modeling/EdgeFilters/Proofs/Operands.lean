import EdgeFilters.Solver
import Mathlib.Data.List.Induction

namespace EdgeFilters

theorem eraseDups_concat {α : Type*} [DecidableEq α] (items : List α)
    (item : α) :
    (items ++ [item]).eraseDups =
      if item ∈ items then items.eraseDups else items.eraseDups ++ [item] := by
  rw [List.eraseDups_append]
  by_cases known : item ∈ items <;>
    simp [List.removeAll, known, List.eraseDups_cons]

theorem nodup_eraseDups {α : Type*} [BEq α] [LawfulBEq α] (items : List α) :
    items.eraseDups.Nodup := by
  induction items using List.reverseRecOn with
  | nil => exact List.Pairwise.nil
  | append_singleton before item ih =>
      rw [List.eraseDups_append]
      by_cases known : item ∈ before
      · simpa [List.removeAll, known] using ih
      · refine List.nodup_append.2
          ⟨ih, by simp [List.removeAll, known, List.eraseDups_cons], ?_⟩
        intro one member other last same
        have fresh : other = item := by
          simpa [List.removeAll, known, List.eraseDups_cons] using last
        exact known (List.mem_eraseDups.1 (fresh ▸ same ▸ member))

namespace Solver

/-- The operands that a solver of this kind holds after it was given these. -/
def Kind.kept : Kind → List String → List String
  | .label, operands => operands.eraseDups
  | .anything _, operands | .labelStart _, operands => operands

/-- Whether an operand is enough for an item with this label, or with none. -/
def Kind.hits (kind : Kind) (operand : String) (label : Option String) : Bool :=
  match kind with
  | .label => label == some operand
  | .anything _ => true
  | .labelStart _ => label.any (operand.toList.isPrefixOf ·.toList)

theorem Kind.mem_kept {kind : Kind} {operand : String}
    {operands : List String} :
    operand ∈ kind.kept operands ↔ operand ∈ operands := by
  cases kind with
  | label => exact List.mem_eraseDups
  | anything typeTag => exact Iff.rfl
  | labelStart typeTag => exact Iff.rfl

@[simp] theorem Kind.kept_singleton (kind : Kind) (operand : String) :
    kind.kept [operand] = [operand] := by
  cases kind <;> rfl

theorem add_kept (kind : Kind) (operands : List String) (operand : String) :
    (Solver.mk kind (kind.kept operands)).add operand =
      ⟨kind, kind.kept (operands ++ [operand])⟩ := by
  cases kind with
  | label =>
      by_cases known : operand ∈ operands <;>
        simp [add, Kind.kept, eraseDups_concat, known]
  | anything typeTag => rfl
  | labelStart typeTag => rfl

theorem add_ofKind (kind : Kind) (operand : String) :
    (ofKind kind).add operand = ⟨kind, [operand]⟩ := by
  cases kind <;> simp [ofKind, add]

theorem add_eq_or (solver : Solver) (operand : String) :
    (operand ∈ solver.operands ∧ solver.add operand = solver) ∨
      solver.add operand =
        { solver with operands := solver.operands ++ [operand] } := by
  unfold add
  split
  · split
    · next known => exact .inl ⟨known, rfl⟩
    · exact .inr rfl
  · exact .inr rfl
  · exact .inr rfl

theorem operands_prefix_add (solver : Solver) (operand : String) :
    solver.operands <+: (solver.add operand).operands := by
  rcases solver.add_eq_or operand with ⟨-, same⟩ | longer
  · simp [same]
  · rw [longer]
    exact List.prefix_append _ _

/-- A solver with an operand lets an item pass as soon as one of
its operands does. -/
theorem accepts_eq_any_hits {solver : Solver} (filled : solver.operands ≠ [])
    (label : Option String) :
    solver.accepts label = solver.operands.any (solver.kind.hits · label) := by
  obtain ⟨kind, operands⟩ := solver
  cases kind with
  | label =>
      cases label with
      | none => simp [accepts, Kind.hits]
      | some text =>
          rw [Bool.eq_iff_iff]
          simp [accepts, Kind.hits]
  | anything typeTag =>
      obtain ⟨operand, rest, rfl⟩ := List.exists_cons_of_ne_nil filled
      simp [accepts, Kind.hits]
  | labelStart typeTag =>
      cases label <;> simp [accepts, Kind.hits]

theorem accepts_of_subset {kind : Kind} {few many : List String}
    (held : few ⊆ many) {label : Option String}
    (passed : (Solver.mk kind few).accepts label = true) :
    (Solver.mk kind many).accepts label = true := by
  cases kind with
  | label =>
      obtain ⟨text, shown, given⟩ := (Option.any_eq_true _ _).1 passed
      rw [List.contains_iff_mem] at given
      exact (Option.any_eq_true _ _).2 ⟨text, shown,
        List.contains_iff_mem.2 (held given)⟩
  | anything typeTag => rfl
  | labelStart typeTag =>
      obtain ⟨text, shown, given⟩ := (Option.any_eq_true _ _).1 passed
      obtain ⟨operand, inside, starts⟩ := List.any_eq_true.1 given
      exact (Option.any_eq_true _ _).2
        ⟨text, shown, List.any_eq_true.2 ⟨operand, held inside, starts⟩⟩

theorem accepts_kept_iff {kind : Kind} {operands : List String}
    (filled : operands ≠ []) {label : Option String} :
    (Solver.mk kind (kind.kept operands)).accepts label = true ↔
      ∃ operand ∈ operands, kind.hits operand label = true := by
  have held : kind.kept operands ≠ [] := by
    obtain ⟨operand, rest, rfl⟩ := List.exists_cons_of_ne_nil filled
    exact List.ne_nil_of_mem (Kind.mem_kept.2 List.mem_cons_self)
  rw [accepts_eq_any_hits held, List.any_eq_true]
  simp only [Kind.mem_kept]

end Solver

end EdgeFilters
