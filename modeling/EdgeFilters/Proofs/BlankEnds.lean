import EdgeFilters.Config.Basic

namespace EdgeFilters

/-- Both ends of the edge have a name. -/
def Edge.Filled (edge : Edge) : Prop :=
  Text.isBlankText edge.input = false ∧ Text.isBlankText edge.output = false

instance (edge : Edge) : Decidable edge.Filled :=
  inferInstanceAs (Decidable (_ ∧ _))

/-- The end of the edge is blank, and no end before it. -/
def Edge.BlankAt (edge : Edge) : Edge.End → Prop
  | .input => Text.isBlankText edge.input = true
  | .output =>
      Text.isBlankText edge.input = false ∧ Text.isBlankText edge.output = true

theorem Edge.blankEnd?_eq_none_iff {edge : Edge} :
    edge.blankEnd? = none ↔ edge.Filled := by
  unfold Edge.blankEnd? Edge.Filled
  cases Text.isBlankText edge.input <;>
    cases Text.isBlankText edge.output <;> simp

theorem Edge.blankEnd?_eq_some_iff {edge : Edge} {side : Edge.End} :
    edge.blankEnd? = some side ↔ edge.BlankAt side := by
  unfold Edge.blankEnd? Edge.BlankAt
  cases Text.isBlankText edge.input <;> cases Text.isBlankText edge.output <;>
    cases side <;> simp

variable {specs before after : List Spec} {spec : Spec} {first : Nat}

theorem firstBlankEnd?_eq_none_iff :
    firstBlankEnd? first specs = none ↔ ∀ spec ∈ specs, spec.edge.Filled := by
  induction specs generalizing first with
  | nil => simp [firstBlankEnd?]
  | cons spec rest ih =>
      rw [firstBlankEnd?, List.forall_mem_cons, ← Edge.blankEnd?_eq_none_iff]
      cases spec.edge.blankEnd? with
      | none => simpa using ih
      | some side => simp

theorem firstBlankEnd?_of_filled (filled : ∀ spec ∈ before, spec.edge.Filled) :
    firstBlankEnd? first (before ++ after) =
      firstBlankEnd? (first + before.length) after := by
  induction before generalizing first with
  | nil => rfl
  | cons spec rest ih =>
      rw [List.forall_mem_cons, ← Edge.blankEnd?_eq_none_iff] at filled
      rw [List.cons_append, firstBlankEnd?, filled.1]
      dsimp only
      rw [ih filled.2, List.length_cons, Nat.add_assoc, Nat.add_comm 1]

namespace Config

variable {config : Config}

theorem blankEnd?_eq_none_iff :
    config.blankEnd? = none ↔ ∀ spec ∈ config.specs, spec.edge.Filled :=
  firstBlankEnd?_eq_none_iff

theorem blankEnd?_of_layout {side : Edge.End}
    (layout : config.specs = before ++ spec :: after)
    (filled : ∀ spec ∈ before, spec.edge.Filled)
    (blank : spec.edge.BlankAt side) :
    config.blankEnd? = some ⟨before.length, side⟩ := by
  rw [blankEnd?, layout, firstBlankEnd?_of_filled filled, firstBlankEnd?,
    Edge.blankEnd?_eq_some_iff.2 blank, Nat.zero_add]

end Config

end EdgeFilters
