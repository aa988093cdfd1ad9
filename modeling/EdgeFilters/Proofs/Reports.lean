import EdgeFilters.Proofs.Parts
import EdgeFilters.Proofs.Places

namespace EdgeFilters

/-- The conditions of a specification, each as a specification of its own. -/
def Spec.conditions (spec : Spec) : List Spec :=
  (Condition.texts spec.expression).map (⟨spec.edge, ·⟩)

namespace Table

variable {registry : Registry} {edge : Edge} {text : String}
  {entries next : List Entry} {record : Log.Record}

/-- What the record of a condition says of the table before and after. -/
structure Reported (before : Table) (edge : Edge) (text : String)
    (after : Table) (record : Log.Record) : Prop where
  error_iff : record.level = .error ↔ Condition.parse? text = none
  warning_iff : record.level = .warning ↔
    ∃ condition, Condition.parse? text = some condition ∧
      before.registry.isRegistered condition.typeTag = false ∧
      (before.registry.reuse = false ∨
        ∀ solver ∈ before.find edge, solver.typeTag ≠ condition.typeTag)
  rejected : record.level ≠ .debug → after = before
  accepted : record.level = .debug →
    ∃ condition, Condition.parse? text = some condition ∧
      (record = .bound edge condition ∨ record = .reused edge condition) ∧
      (record = .bound edge condition ↔
        ∃ solver, after.entries = before.entries ++ [(edge, solver)]) ∧
      (record = .reused edge condition ↔
        after.bindings = before.bindings ∧
          ∃ placed ∈ before.bound edge,
            after = before.addOperand placed.1 condition.operand)

theorem vacant_iff (registry : Registry) {typeTag : String} :
    Vacant edge typeTag entries ↔
      ∀ solver ∈ (ofEntries registry entries).find edge,
        solver.typeTag ≠ typeTag := by
  rw [find_ofEntries]
  constructor
  · intro vacant solver member
    obtain ⟨entry, inside, rfl⟩ := List.mem_map.1 member
    obtain ⟨inside, same⟩ := List.mem_filter.1 inside
    exact vacant entry inside (eq_of_beq same)
  · intro others entry member same
    exact others entry.2
      (List.mem_map_of_mem (List.mem_filter.2 ⟨member, beq_iff_eq.2 same⟩))

theorem Outcome.error_iff
    (outcome : Outcome registry edge text entries next record) :
    record.level = .error ↔ Condition.parse? text = none := by
  cases outcome with
  | malformed unparsed => simp [Log.Record.level, unparsed]
  | unknown parsed => simp [Log.Record.level, parsed]
  | shared parsed => simp [Log.Record.level, parsed]
  | created parsed => simp [Log.Record.level, parsed]

theorem Outcome.warning_iff
    (outcome : Outcome registry edge text entries next record) :
    record.level = .warning ↔
      ∃ condition, Condition.parse? text = some condition ∧
        registry.isRegistered condition.typeTag = false ∧
        (registry.reuse = false ∨ Vacant edge condition.typeTag entries) := by
  cases outcome with
  | malformed unparsed => simp [Log.Record.level, unparsed]
  | @unknown condition parsed unregistered unshared =>
      have alone : registry.reuse = false ∨
          Vacant edge condition.typeTag entries := by
        cases reuse : registry.reuse with
        | false => exact .inl rfl
        | true => exact .inr (unshared reuse)
      simp [Log.Record.level, parsed, Registry.isRegistered,
        unregistered, alone]
  | @shared condition before after solver parsed reuse layout first typed =>
      have taken : ¬ Vacant edge condition.typeTag entries :=
        fun vacant => vacant (edge, solver) (by simp [layout]) rfl typed
      simp [Log.Record.level, parsed, reuse, taken]
  | created parsed registered unshared =>
      simp [Log.Record.level, parsed, Registry.isRegistered, registered]

theorem Outcome.rejected
    (outcome : Outcome registry edge text entries next record)
    (level : record.level ≠ .debug) : next = entries := by
  cases outcome with
  | malformed => rfl
  | unknown => rfl
  | shared => exact (level rfl).elim
  | created => exact (level rfl).elim

theorem bindings_addOperand (table : Table) (id : Nat) (operand : String) :
    (table.addOperand id operand).bindings = table.bindings := rfl

theorem exists_bound_of_shared (registry : Registry) {before : List Entry}
    {solver : Solver} {condition : Condition} (after : List Entry)
    (first : Vacant edge condition.typeTag before)
    (typed : solver.typeTag = condition.typeTag) :
    ∃ placed ∈
        (ofEntries registry (before ++ (edge, solver) :: after)).bound edge,
      ofEntries registry
        (before ++ (edge, solver.add condition.operand) :: after) =
        (ofEntries registry (before ++ (edge, solver) :: after)).addOperand
          placed.1
          condition.operand := by
  have found :
      ((ofEntries registry (before ++ (edge, solver) :: after)).bound
        edge).find?
          (·.2.typeTag == condition.typeTag) = some (before.length, solver) :=
    find?_bound_of_first first typed
  exact ⟨(before.length, solver), List.mem_of_find?_eq_some found,
    (addOperand_ofEntries before after edge solver condition.operand).symm⟩

theorem Outcome.accepted
    (outcome : Outcome registry edge text entries next record)
    (level : record.level = .debug) :
    ∃ condition, Condition.parse? text = some condition ∧
      (record = .bound edge condition ∨ record = .reused edge condition) ∧
      (record = .bound edge condition ↔
        ∃ solver, next = entries ++ [(edge, solver)]) ∧
      (record = .reused edge condition ↔
        (ofEntries registry next).bindings =
          (ofEntries registry entries).bindings ∧
          ∃ placed ∈ (ofEntries registry entries).bound edge,
            ofEntries registry next =
              (ofEntries registry entries).addOperand placed.1
                condition.operand) := by
  cases outcome with
  | malformed => contradiction
  | unknown => contradiction
  | @shared condition before after solver parsed reuse layout first typed =>
      subst layout
      obtain ⟨placed, member, added⟩ :=
        exists_bound_of_shared registry after first typed
      refine ⟨condition, parsed, .inr rfl, ?_, ?_⟩
      · constructor
        · intro other
          cases other
        · rintro ⟨own, longer⟩
          simpa using congrArg List.length longer
      · refine ⟨fun _ => ⟨?_, placed, member, added⟩, fun _ => rfl⟩
        rw [added, bindings_addOperand]
  | @created condition kind parsed registered unshared =>
      refine ⟨condition, parsed, .inl rfl,
        ⟨fun _ => ⟨_, rfl⟩, fun _ => rfl⟩, ?_⟩
      constructor
      · intro other
        cases other
      · rintro ⟨kept, -⟩
        have count := congrArg List.length kept
        simp [ofEntries] at count

theorem Outcome.reported
    (outcome : Outcome registry edge text entries next record) :
    Reported (ofEntries registry entries) edge text
      (ofEntries registry next) record where
  error_iff := outcome.error_iff
  warning_iff := by
    simp only [outcome.warning_iff, vacant_iff registry, registry_ofEntries]
  rejected level := by rw [outcome.rejected level]
  accepted level := by
    simpa only [entries_ofEntries] using outcome.accepted level

end Table

end EdgeFilters
