import EdgeFilters.Proofs.History
import EdgeFilters.Proofs.Operands

namespace EdgeFilters

/-- An accepted condition, its edge, and the kind of solver
its tag stood for. -/
structure Accepted where
  edge : Edge
  condition : Condition
  kind : Solver.Kind
  deriving DecidableEq, Repr

namespace Accepted

/-- What the conditions of one solver have in common when solvers are shared. -/
def key (accepted : Accepted) : Edge × String :=
  (accepted.edge, accepted.condition.typeTag)

def entry (accepted : Accepted) : Entry :=
  (accepted.edge, ⟨accepted.kind, [accepted.condition.operand]⟩)

end Accepted

namespace Registry

def accept? (registry : Registry) (edge : Edge) (text : String) :
    Option Accepted :=
  (Condition.parse? text).bind fun condition =>
    (registry.kind? condition.typeTag).map fun kind => ⟨edge, condition, kind⟩

/-- What is accepted along a history that starts with this registry. -/
def accepted (registry : Registry) : List Move → List Accepted
  | [] => []
  | .register typeTag kind :: rest =>
      (registry.register typeTag kind).accepted rest
  | .condition edge text :: rest =>
      (registry.accept? edge text).toList ++ registry.accepted rest

variable {registry : Registry} {edge : Edge} {text : String}

@[simp] theorem accepted_nil : registry.accepted [] = [] := rfl

@[simp] theorem accepted_register (typeTag : String) (kind : Solver.Kind)
    (rest : List Move) :
    registry.accepted (.register typeTag kind :: rest) =
      (registry.register typeTag kind).accepted rest := rfl

@[simp] theorem accepted_condition (rest : List Move) :
    registry.accepted (.condition edge text :: rest) =
      (registry.accept? edge text).toList ++ registry.accepted rest := rfl

theorem accepted_append (registry : Registry) (first second : List Move) :
    registry.accepted (first ++ second) =
      registry.accepted first ++ (registry.after first).accepted second := by
  induction first generalizing registry with
  | nil => rfl
  | cons move rest ih =>
      cases move with
      | register typeTag kind => exact ih (registry.register typeTag kind)
      | condition edge text =>
          rw [List.cons_append, accepted_condition, accepted_condition, ih,
            List.append_assoc]
          rfl

theorem accept?_eq_some_iff {accepted : Accepted} :
    registry.accept? edge text = some accepted ↔
      Condition.parse? text = some accepted.condition ∧ accepted.edge = edge ∧
        registry.kind? accepted.condition.typeTag = some accepted.kind := by
  unfold accept?
  cases parsed : Condition.parse? text with
  | none => simp
  | some condition =>
      simp only [Option.bind_some, Option.map_eq_some_iff]
      constructor
      · rintro ⟨kind, registered, rfl⟩
        exact ⟨rfl, rfl, registered⟩
      · rintro ⟨same, rfl, registered⟩
        cases same
        exact ⟨accepted.kind, registered, rfl⟩

theorem accept?_of_malformed (unparsed : Condition.parse? text = none) :
    registry.accept? edge text = none := by
  rw [accept?, unparsed, Option.bind_none]

theorem accept?_of_unknown {condition : Condition}
    (parsed : Condition.parse? text = some condition)
    (unregistered : registry.kind? condition.typeTag = none) :
    registry.accept? edge text = none := by
  rw [accept?, parsed, Option.bind_some, unregistered, Option.map_none]

theorem accept?_of_registered {condition : Condition} {kind : Solver.Kind}
    (parsed : Condition.parse? text = some condition)
    (registered : registry.kind? condition.typeTag = some kind) :
    registry.accept? edge text = some ⟨edge, condition, kind⟩ := by
  rw [accept?, parsed, Option.bind_some, registered, Option.map_some]

end Registry

end EdgeFilters
