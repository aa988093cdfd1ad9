import EdgeFilters.Proofs.Entries

namespace EdgeFilters.Table

/-- No solver on the edge reports the type. -/
def Vacant (edge : Edge) (typeTag : String) (entries : List Entry) : Prop :=
  ∀ entry ∈ entries, entry.1 = edge → entry.2.typeTag ≠ typeTag

/-- What a condition on an edge may make of the entries, and the
record it leaves. -/
inductive Outcome (registry : Registry) (edge : Edge) (text : String)
    (entries : List Entry) :
    List Entry → Log.Record → Prop
  | malformed
      (unparsed : Condition.parse? text = none) :
      Outcome registry edge text entries entries (.rejected (.malformed text))
  | unknown {condition : Condition}
      (parsed : Condition.parse? text = some condition)
      (unregistered : registry.kind? condition.typeTag = none)
      (unshared : registry.reuse = true →
        Vacant edge condition.typeTag entries) :
      Outcome registry edge text entries entries
        (.rejected (.unknownType condition.typeTag))
  | shared {condition : Condition} {before after : List Entry} {solver : Solver}
      (parsed : Condition.parse? text = some condition)
      (reuse : registry.reuse = true)
      (layout : entries = before ++ (edge, solver) :: after)
      (first : Vacant edge condition.typeTag before)
      (typed : solver.typeTag = condition.typeTag) :
      Outcome registry edge text entries
        (before ++ (edge, solver.add condition.operand) :: after)
        (.reused edge condition)
  | created {condition : Condition} {kind : Solver.Kind}
      (parsed : Condition.parse? text = some condition)
      (registered : registry.kind? condition.typeTag = some kind)
      (unshared : registry.reuse = true →
        Vacant edge condition.typeTag entries) :
      Outcome registry edge text entries
        (entries ++ [(edge, (Solver.ofKind kind).add condition.operand)])
        (.bound edge condition)

variable {registry : Registry} {edge : Edge} {typeTag text : String}
  {entries : List Entry}

theorem exists_first_of_not_vacant (taken : ¬ Vacant edge typeTag entries) :
    ∃ before solver after, entries = before ++ (edge, solver) :: after ∧
      Vacant edge typeTag before ∧ solver.typeTag = typeTag := by
  induction entries with
  | nil => exact (taken (by simp [Vacant])).elim
  | cons entry rest ih =>
      by_cases here : entry.1 = edge ∧ entry.2.typeTag = typeTag
      · obtain ⟨rfl, typed⟩ := here
        exact ⟨[], entry.2, rest, rfl, by simp [Vacant], typed⟩
      · have later : ¬ Vacant edge typeTag rest := by
          intro vacant
          apply taken
          intro other member same typed
          rcases List.mem_cons.1 member with rfl | member
          · exact here ⟨same, typed⟩
          · exact vacant other member same typed
        obtain ⟨before, solver, after, rfl, vacant, typed⟩ := ih later
        refine ⟨entry :: before, solver, after, rfl, ?_, typed⟩
        intro other member same reported
        rcases List.mem_cons.1 member with rfl | member
        · exact here ⟨same, reported⟩
        · exact vacant other member same reported

theorem find?_bound_of_vacant (vacant : Vacant edge typeTag entries) :
    ((ofEntries registry entries).bound edge).find? (·.2.typeTag == typeTag) =
      none := by
  rw [bound_ofEntries, List.find?_eq_none]
  intro placed member
  obtain ⟨⟨entry, place⟩, inside, kept⟩ := List.mem_filterMap.1 member
  by_cases same : entry.1 = edge
  · simp only [same, if_pos, Option.some.injEq] at kept
    subst kept
    have entered : entry ∈ entries := List.fst_mem_of_mem_zipIdx inside
    simpa using vacant entry entered same
  · simp [same] at kept

theorem find?_bound_of_first {before after : List Entry} {solver : Solver}
    (first : Vacant edge typeTag before) (typed : solver.typeTag = typeTag) :
    ((ofEntries registry (before ++ (edge, solver) :: after)).bound edge).find?
        (·.2.typeTag == typeTag) = some (before.length, solver) := by
  have passed :
      ((ofEntries registry before).bound edge).find? (·.2.typeTag == typeTag) =
        none :=
    find?_bound_of_vacant first
  rw [bound_ofEntries] at passed ⊢
  rw [List.zipIdx_append, List.filterMap_append, List.find?_append, passed]
  simp [typed]

theorem resolve?_of_unshared
    (unshared : registry.reuse = true → Vacant edge typeTag entries) :
    registry.resolve? typeTag ((ofEntries registry entries).bound edge) =
      (registry.kind? typeTag).map (.created ∘ Solver.ofKind) := by
  unfold Registry.resolve?
  cases reuse : registry.reuse with
  | false => simp [Registry.create?]
  | true => simp [find?_bound_of_vacant (unshared reuse), Registry.create?]

theorem resolve?_of_first {before after : List Entry} {solver : Solver}
    (reuse : registry.reuse = true) (first : Vacant edge typeTag before)
    (typed : solver.typeTag = typeTag) :
    registry.resolve? typeTag
        ((ofEntries registry (before ++ (edge, solver) :: after)).bound edge) =
      some (.existing before.length) := by
  simp [Registry.resolve?, reuse, find?_bound_of_first first typed]

theorem Outcome.addCondition_eq {next : List Entry} {record : Log.Record}
    (outcome : Outcome registry edge text entries next record) :
    (ofEntries registry entries).addCondition edge text =
      (ofEntries registry next, record) := by
  unfold addCondition
  cases outcome with
  | malformed unparsed =>
      simp [Condition.parse, unparsed]
  | unknown parsed unregistered unshared =>
      simp [Condition.parse, parsed, resolve?_of_unshared unshared,
        unregistered]
  | shared parsed reuse layout first typed =>
      subst layout
      simp [Condition.parse, parsed, resolve?_of_first reuse first typed,
        addOperand_ofEntries]
  | created parsed registered unshared =>
      simp [Condition.parse, parsed, resolve?_of_unshared unshared, registered,
        bind_ofEntries]

theorem exists_outcome (registry : Registry) (edge : Edge) (text : String)
    (entries : List Entry) :
    ∃ next record, Outcome registry edge text entries next record := by
  cases parsed : Condition.parse? text with
  | none => exact ⟨_, _, .malformed parsed⟩
  | some condition =>
      by_cases unshared : registry.reuse = true →
        Vacant edge condition.typeTag entries
      · cases registered : registry.kind? condition.typeTag with
        | none => exact ⟨_, _, .unknown parsed registered unshared⟩
        | some kind => exact ⟨_, _, .created parsed registered unshared⟩
      · obtain ⟨reuse, taken⟩ := Classical.not_imp.1 unshared
        obtain ⟨before, solver, after, layout, first, typed⟩ :=
          exists_first_of_not_vacant taken
        exact ⟨_, _, .shared parsed reuse layout first typed⟩

end EdgeFilters.Table
