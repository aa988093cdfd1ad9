import EdgeFilters.Proofs.Separate
import EdgeFilters.Proofs.Sharing

namespace EdgeFilters

namespace Registry

/-- The conditions on an edge that parse and whose tags are registered. -/
def conditionsOn (registry : Registry) (edge : Edge) (specs : List Spec) :
    List Condition :=
  (specs.filter (·.edge == edge)).flatMap fun spec =>
    (Condition.texts spec.expression).filterMap fun text =>
      (Condition.parse? text).filter (registry.isRegistered ·.typeTag)

/-- Whether a condition hits items with this label, by the kind that its
tag stands for. -/
def hits (registry : Registry) (condition : Condition) (label : Option String) :
    Bool :=
  (registry.kind? condition.typeTag).any (·.hits condition.operand label)

variable {registry : Registry} {edge : Edge} {specs : List Spec}
  {accepted : Accepted}

theorem accepted_ofExpression_append (edge : Edge) (expression : String)
    (rest : List Move) :
    registry.accepted (Move.ofExpression edge expression ++ rest) =
      (Condition.texts expression).filterMap (registry.accept? edge) ++
        registry.accepted rest := by
  unfold Move.ofExpression
  induction Condition.texts expression with
  | nil => rfl
  | cons text texts ih =>
      rw [List.map_cons, List.cons_append, accepted_condition, ih,
        ← List.append_assoc]
      congr 1
      cases taken : registry.accept? edge text <;> simp [taken]

theorem mem_accepted_ofSpecs :
    accepted ∈ registry.accepted (specs.flatMap Move.ofSpec) ↔
      ∃ spec ∈ specs, ∃ text ∈ Condition.texts spec.expression,
        registry.accept? spec.edge text = some accepted := by
  induction specs with
  | nil => simp
  | cons spec rest ih =>
      rw [List.flatMap_cons, Move.ofSpec, accepted_ofExpression_append,
        List.mem_append, ih]
      simp

theorem kind?_of_mem_accepted
    (member : accepted ∈ registry.accepted (specs.flatMap Move.ofSpec)) :
    registry.kind? accepted.condition.typeTag = some accepted.kind := by
  obtain ⟨spec, -, text, -, taken⟩ := mem_accepted_ofSpecs.1 member
  exact (accept?_eq_some_iff.1 taken).2.2

theorem hits_of_mem_accepted
    (member : accepted ∈ registry.accepted (specs.flatMap Move.ofSpec))
    (label : Option String) :
    registry.hits accepted.condition label =
      accepted.kind.hits accepted.condition.operand label := by
  rw [hits, kind?_of_mem_accepted member, Option.any_some]

theorem mem_conditionsOn {condition : Condition} :
    condition ∈ registry.conditionsOn edge specs ↔
      ∃ accepted ∈ registry.accepted (specs.flatMap Move.ofSpec),
        accepted.edge = edge ∧ accepted.condition = condition := by
  simp only [conditionsOn, List.mem_flatMap, List.mem_filter,
    List.mem_filterMap, Option.filter_eq_some_iff, beq_iff_eq,
    mem_accepted_ofSpecs]
  constructor
  · rintro ⟨spec, ⟨inside, rfl⟩, text, written, parsed, known⟩
    obtain ⟨kind, registered⟩ := Option.isSome_iff_exists.1 known
    exact ⟨⟨spec.edge, condition, kind⟩,
      ⟨spec, inside, text, written,
        accept?_eq_some_iff.2 ⟨parsed, rfl, registered⟩⟩, rfl, rfl⟩
  · rintro ⟨accepted, ⟨spec, inside, text, written, taken⟩, rfl, rfl⟩
    obtain ⟨parsed, same, registered⟩ := accept?_eq_some_iff.1 taken
    refine ⟨spec, ⟨inside, same.symm⟩, text, written, parsed, ?_⟩
    rw [isRegistered, registered]
    rfl

end Registry

namespace Table

variable {registry : Registry} {edge : Edge} {specs : List Spec}
  {label : Option String}

theorem accepts_ofEntries_iff {entries : List Entry} :
    (ofEntries registry entries).accepts edge label = true ↔
      ∀ entry ∈ entries, entry.1 = edge → entry.2.accepts label = true := by
  rw [accepts, find_ofEntries, List.all_map, List.all_eq_true]
  simp only [List.mem_filter, beq_iff_eq, and_imp, Function.comp]

theorem accepts_of_separate_iff (separate : registry.reuse = false) :
    ((ofRegistry registry).ingest specs).1.accepts edge label = true ↔
      ∀ condition ∈ registry.conditionsOn edge specs,
        registry.hits condition label = true := by
  obtain ⟨last, log, course, filled⟩ := exists_course_ingest registry specs
  rw [filled, accepts_ofEntries_iff, course.last_of_separate separate,
    List.nil_append]
  constructor
  · intro passed condition member
    obtain ⟨accepted, inside, same, rfl⟩ := Registry.mem_conditionsOn.1 member
    have alone := passed accepted.entry (List.mem_map_of_mem inside) same
    rw [Accepted.entry, Solver.accepts_eq_any_hits (by simp)] at alone
    rw [Registry.hits_of_mem_accepted inside]
    simpa using alone
  · intro hit entry member same
    obtain ⟨accepted, inside, rfl⟩ := List.mem_map.1 member
    have alone := hit accepted.condition
      (Registry.mem_conditionsOn.2 ⟨accepted, inside, same, rfl⟩)
    rw [Registry.hits_of_mem_accepted inside] at alone
    rw [Accepted.entry, Solver.accepts_eq_any_hits (by simp)]
    simpa using alone

theorem accepts_iff_of_mem_grouped (faithful : registry.Faithful)
    {entry : Entry}
    (member : entry ∈ grouped (registry.accepted (specs.flatMap Move.ofSpec))) :
    entry.2.accepts label = true ↔
      ∃ accepted ∈ registry.accepted (specs.flatMap Move.ofSpec),
        accepted.key = Entry.key entry ∧
          registry.hits accepted.condition label = true := by
  have typed := faithful.accepted (Move.faithful_ofSpecs specs)
  obtain ⟨first, rest, group, held⟩ := exists_first_of_mem_grouped typed member
  have memGroup (accepted : Accepted) : accepted ∈ first :: rest ↔
      accepted ∈ registry.accepted (specs.flatMap Move.ofSpec) ∧
        accepted.key = Entry.key entry := by
    rw [← group, List.mem_filter, beq_iff_eq]
  obtain ⟨led, leading⟩ := (memGroup first).1 List.mem_cons_self
  have oneKind {accepted : Accepted} (inside : accepted ∈ first :: rest) :
      accepted.kind = first.kind := by
    obtain ⟨taken, keyed⟩ := (memGroup accepted).1 inside
    have same : accepted.condition.typeTag = first.condition.typeTag :=
      congrArg Prod.snd (keyed.trans leading.symm)
    have registered := Registry.kind?_of_mem_accepted taken
    rw [same, Registry.kind?_of_mem_accepted led, Option.some.injEq]
      at registered
    exact registered.symm
  rw [held, Solver.accepts_kept_iff (by simp)]
  constructor
  · rintro ⟨operand, given, hit⟩
    obtain ⟨accepted, inside, rfl⟩ := List.mem_map.1 given
    obtain ⟨taken, keyed⟩ := (memGroup accepted).1 inside
    refine ⟨accepted, taken, keyed, ?_⟩
    rw [Registry.hits_of_mem_accepted taken, oneKind inside]
    exact hit
  · rintro ⟨accepted, taken, keyed, hit⟩
    have inside := (memGroup accepted).2 ⟨taken, keyed⟩
    refine ⟨accepted.condition.operand, List.mem_map_of_mem inside, ?_⟩
    rw [Registry.hits_of_mem_accepted taken, oneKind inside] at hit
    exact hit

theorem accepts_of_sharing_iff (reuse : registry.reuse = true)
    (faithful : registry.Faithful) :
    ((ofRegistry registry).ingest specs).1.accepts edge label = true ↔
      ∀ condition ∈ registry.conditionsOn edge specs,
        ∃ other ∈ registry.conditionsOn edge specs,
          other.typeTag = condition.typeTag ∧
            registry.hits other label = true := by
  have kept := Move.faithful_ofSpecs specs
  have typed := faithful.accepted kept
  have keys := map_key_grouped _ typed
  obtain ⟨last, log, course, filled⟩ := exists_course_ingest registry specs
  rw [filled, accepts_ofEntries_iff, course.last_eq_grouped reuse faithful kept]
  constructor
  · intro passed condition member
    obtain ⟨accepted, taken, here, rfl⟩ := Registry.mem_conditionsOn.1 member
    have keyed : accepted.key ∈
        (grouped (registry.accepted (specs.flatMap Move.ofSpec))).map
          Entry.key := by
      rw [keys]
      exact List.mem_eraseDups.2 (List.mem_map_of_mem taken)
    obtain ⟨entry, bound, shown⟩ := List.mem_map.1 keyed
    have onEdge : entry.1 = edge := (congrArg Prod.fst shown).trans here
    obtain ⟨other, given, same, hit⟩ :=
      (accepts_iff_of_mem_grouped faithful bound).1 (passed entry bound onEdge)
    obtain ⟨edges, types⟩ := Prod.mk.inj (same.trans shown)
    exact ⟨other.condition,
      Registry.mem_conditionsOn.2 ⟨other, given, edges.trans here, rfl⟩,
      types, hit⟩
  · intro hit entry bound onEdge
    have keyed : Entry.key entry ∈
        (registry.accepted (specs.flatMap Move.ofSpec)).map Accepted.key := by
      rw [← List.mem_eraseDups, ← keys]
      exact List.mem_map_of_mem bound
    obtain ⟨accepted, taken, shown⟩ := List.mem_map.1 keyed
    have here : accepted.edge = edge := (congrArg Prod.fst shown).trans onEdge
    obtain ⟨condition, member, same, passes⟩ := hit accepted.condition
      (Registry.mem_conditionsOn.2 ⟨accepted, taken, here, rfl⟩)
    obtain ⟨other, given, there, rfl⟩ := Registry.mem_conditionsOn.1 member
    rw [accepts_iff_of_mem_grouped faithful bound, ← shown]
    exact ⟨other, given, Prod.ext (there.trans here.symm) same, passes⟩

theorem accepts_of_conditionsOn_eq_nil
    (rejected : registry.conditionsOn edge specs = []) :
    ((ofRegistry registry).ingest specs).1.accepts edge label = true := by
  obtain ⟨last, log, course, filled⟩ := exists_course_ingest registry specs
  rw [filled, accepts_ofEntries_iff]
  intro entry member same
  obtain ⟨accepted, taken, grows⟩ := course.exists_accepted member
  have onEdge : accepted.condition ∈ registry.conditionsOn edge specs :=
    Registry.mem_conditionsOn.2 ⟨accepted, taken,
      grows.edge.symm.trans same, rfl⟩
  simp [rejected] at onEdge

theorem accepts_eq_of_same_conditions
    (faithful : registry.reuse = true → registry.Faithful)
    {otherEdge : Edge} {others : List Spec}
    (same : ∀ condition, condition ∈ registry.conditionsOn edge specs ↔
      condition ∈ registry.conditionsOn otherEdge others) :
    ((ofRegistry registry).ingest specs).1.accepts edge label =
      ((ofRegistry registry).ingest others).1.accepts otherEdge label := by
  rw [Bool.eq_iff_iff]
  cases reuse : registry.reuse with
  | false =>
      rw [accepts_of_separate_iff reuse, accepts_of_separate_iff reuse]
      simp only [same]
  | true =>
      rw [accepts_of_sharing_iff reuse (faithful reuse),
        accepts_of_sharing_iff reuse (faithful reuse)]
      simp only [same]

/-- The items that pass an edge of a table filled from specifications, told from
the conditions accepted on that edge alone; only which conditions these are
matters, and where there is none every item passes. -/
theorem filterItems_ingest {α : Type*} (registry : Registry) (specs : List Spec)
    (edge : Edge) (label : α → Option String) (items : List α) :
    let conditions := registry.conditionsOn edge specs
    let passing :=
      ((ofRegistry registry).ingest specs).1.filterItems edge label items
    (registry.reuse = false →
      passing = items.filter fun item =>
        conditions.all fun condition => registry.hits condition (label item)) ∧
    (registry.reuse = true → registry.Faithful →
      passing = items.filter fun item =>
        conditions.all fun condition => conditions.any fun other =>
          other.typeTag == condition.typeTag &&
            registry.hits other (label item)) ∧
    ((registry.reuse = true → registry.Faithful) →
      ∀ (otherEdge : Edge) (others : List Spec),
        (∀ condition, condition ∈ conditions ↔
          condition ∈ registry.conditionsOn otherEdge others) →
        passing =
          ((ofRegistry registry).ingest others).1.filterItems otherEdge
            label items) ∧
    (conditions = [] → passing = items) := by
  refine ⟨fun separate => ?_, fun reuse faithful => ?_,
    fun faithful otherEdge others same => ?_, fun rejected => ?_⟩
  · apply List.filter_congr
    intro item _
    rw [Bool.eq_iff_iff, accepts_of_separate_iff separate, List.all_eq_true]
  · apply List.filter_congr
    intro item _
    rw [Bool.eq_iff_iff, accepts_of_sharing_iff reuse faithful]
    simp only [List.all_eq_true, List.any_eq_true, Bool.and_eq_true, beq_iff_eq]
  · apply List.filter_congr
    intro item _
    exact accepts_eq_of_same_conditions faithful same
  · apply List.filter_eq_self.2
    intro item _
    exact accepts_of_conditionsOn_eq_nil rejected

theorem filterItems_ingest_prefixes :
    let near :=
      fun reuse => (Registry.builtin reuse).register "Near" (.labelStart "Near")
    let edge : Edge := ⟨"camera", "detector"⟩
    let otherEdge : Edge := ⟨"camera", "tracker"⟩
    let specs : List Spec :=
      [⟨edge, "Near=ca,Label=car"⟩, ⟨edge, "Label=cat,Color=red"⟩]
    let others : List Spec :=
      [⟨otherEdge, "Label=cat,Label"⟩, ⟨edge, "Label=dog"⟩,
       ⟨otherEdge, "Label=car,Near=ca,Label=cat"⟩]
    let items := [some "car", none, some "camel", some "cat", some "dog"]
    (near true).Faithful ∧
      ((ofRegistry (near false)).ingest specs).1.filterItems edge id items =
        [] ∧
      ((ofRegistry (near true)).ingest specs).1.filterItems edge id items =
        [some "car", some "cat"] ∧
      ((ofRegistry (near true)).ingest specs).1.filterItems edge id items =
        ((ofRegistry (near true)).ingest others).1.filterItems otherEdge
          id items ∧
      ((ofRegistry (near true)).ingest specs).1.filterItems otherEdge id items =
        items := by
  intro near edge otherEdge specs others items
  have faithful : (near true).Faithful :=
    (Registry.faithful_builtin true).register rfl
  have here : (near true).conditionsOn edge specs =
      [⟨"Near", "ca"⟩, ⟨"Label", "car"⟩, ⟨"Label", "cat"⟩] := by
    decide +kernel +zetaReduce
  have there : (near true).conditionsOn otherEdge others =
      [⟨"Label", "cat"⟩, ⟨"Label", "car"⟩, ⟨"Near", "ca"⟩,
        ⟨"Label", "cat"⟩] := by
    decide +kernel +zetaReduce
  have same (condition : Condition) :
      condition ∈ (near true).conditionsOn edge specs ↔
      condition ∈ (near true).conditionsOn otherEdge others := by
    rw [here, there]
    simp only [List.mem_cons, List.not_mem_nil, or_false]
    tauto
  obtain ⟨separately, -⟩ := filterItems_ingest (near false) specs edge id items
  obtain ⟨-, shared, moved, -⟩ :=
    filterItems_ingest (near true) specs edge id items
  obtain ⟨-, -, -, unfiltered⟩ :=
    filterItems_ingest (near true) specs otherEdge id items
  refine ⟨faithful, (separately rfl).trans ?_, (shared rfl faithful).trans ?_,
    moved (fun _ => faithful) otherEdge others same, unfiltered ?_⟩
  · decide +kernel +zetaReduce
  · decide +kernel +zetaReduce
  · decide +kernel +zetaReduce

end Table

end EdgeFilters
