import EdgeFilters.Proofs.Accepted

namespace EdgeFilters

/-- Every kind reports the tag that it is registered under. -/
def Registry.Faithful (registry : Registry) : Prop :=
  ∀ typeTag kind, registry.kind? typeTag = some kind → kind.typeTag = typeTag

def Move.Faithful : Move → Prop
  | .register typeTag kind => kind.typeTag = typeTag
  | .condition _ _ => True

def Table.Step.Faithful : Table.Step → Prop
  | .register typeTag kind => kind.typeTag = typeTag
  | .add _ _ | .ingest _ => True

instance (step : Table.Step) : Decidable step.Faithful :=
  match step with
  | .register typeTag kind =>
      inferInstanceAs (Decidable (kind.typeTag = typeTag))
  | .add _ _ | .ingest _ => isTrue trivial

theorem Registry.kind?_builtin_eq_some_iff {reuse : Bool} {typeTag : String}
    {kind : Solver.Kind} :
    (builtin reuse).kind? typeTag = some kind ↔
      typeTag = Solver.Kind.labelTag ∧ kind = .label := by
  rw [kind?, builtin, List.lookup_cons, List.lookup_nil]
  by_cases same : typeTag = Solver.Kind.labelTag
  · simp [same, eq_comm]
  · simp [same, beq_false_of_ne same]

theorem Registry.faithful_builtin (reuse : Bool) :
    (Registry.builtin reuse).Faithful := by
  intro typeTag kind registered
  obtain ⟨rfl, rfl⟩ := kind?_builtin_eq_some_iff.1 registered
  rfl

theorem Registry.Faithful.register {registry : Registry} {typeTag : String}
    {kind : Solver.Kind} (faithful : registry.Faithful)
    (reported : kind.typeTag = typeTag) :
    (registry.register typeTag kind).Faithful := by
  intro other found registered
  rw [kind?_register] at registered
  split at registered
  · next same =>
      cases registered
      exact reported.trans same.symm
  · exact faithful other found registered

/-- What holds of every registration holds of every tag that a condition
was accepted for. -/
theorem Registry.accepted_of_registered {property : String → Solver.Kind → Prop}
    {registry : Registry} {moves : List Move}
    (before : ∀ typeTag kind, registry.kind? typeTag = some kind →
      property typeTag kind)
    (later : ∀ typeTag kind, Move.register typeTag kind ∈ moves →
      property typeTag kind) :
    ∀ accepted ∈ registry.accepted moves,
      property accepted.condition.typeTag accepted.kind := by
  induction moves generalizing registry with
  | nil => simp
  | cons move rest ih =>
      have behind : ∀ typeTag kind, Move.register typeTag kind ∈ rest →
          property typeTag kind :=
        fun typeTag kind member =>
          later typeTag kind (List.mem_cons_of_mem move member)
      cases move with
      | register typeTag kind =>
          refine ih (fun other found registered => ?_) behind
          rw [kind?_register] at registered
          split at registered
          · next same =>
              cases registered
              exact same ▸ later typeTag kind List.mem_cons_self
          · exact before other found registered
      | condition edge text =>
          intro accepted member
          rw [accepted_condition, List.mem_append, Option.mem_toList] at member
          rcases member with taken | member
          · obtain ⟨-, -, registered⟩ := accept?_eq_some_iff.1 taken
            exact before _ _ registered
          · exact ih before behind accepted member

theorem Registry.Faithful.accepted {registry : Registry}
    (faithful : registry.Faithful) {moves : List Move}
    (kept : ∀ move ∈ moves, move.Faithful) :
    ∀ accepted ∈ registry.accepted moves,
      accepted.kind.typeTag = accepted.condition.typeTag :=
  accepted_of_registered faithful fun typeTag kind member =>
    kept (.register typeTag kind) member

theorem Move.faithful_ofSpecs (specs : List Spec) :
    ∀ move ∈ specs.flatMap ofSpec, move.Faithful := by
  intro move member
  obtain ⟨edge, text, rfl⟩ := exists_condition_of_mem_ofSpecs member
  trivial

end EdgeFilters
