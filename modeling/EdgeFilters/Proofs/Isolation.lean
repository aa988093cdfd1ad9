import EdgeFilters.Proofs.History

namespace EdgeFilters

/-- A registration concerns every edge. -/
def Move.concerns (edge : Edge) : Move → Bool
  | .register _ _ => true
  | .condition other _ => other == edge

namespace Table

/-- A step without what it does on other edges. -/
def Step.onEdge (edge : Edge) : Step → Option Step
  | .register typeTag kind => some (.register typeTag kind)
  | .add other expression =>
      if other = edge then some (.add other expression) else none
  | .ingest specs => some (.ingest (specs.filter (·.edge == edge)))

def Origin.onEdge (edge : Edge) : Origin → Origin
  | .ofRegistry registry => .ofRegistry registry
  | .ofConfig config =>
      .ofConfig { config with specs := config.specs.filter (·.edge == edge) }

@[simp] theorem Origin.registry_onEdge (edge : Edge) (origin : Origin) :
    (origin.onEdge edge).registry = origin.registry := by
  cases origin <;> rfl

end Table

namespace Move

theorem filter_concerns_ofExpression (edge other : Edge) (expression : String) :
    (ofExpression other expression).filter (concerns edge) =
      if other = edge then ofExpression other expression else [] := by
  unfold ofExpression
  by_cases same : other = edge
  · rw [if_pos same, List.filter_eq_self]
    intro move member
    obtain ⟨text, -, rfl⟩ := List.mem_map.1 member
    simpa [concerns] using same
  · rw [if_neg same, List.filter_eq_nil_iff]
    intro move member
    obtain ⟨text, -, rfl⟩ := List.mem_map.1 member
    simpa [concerns] using same

theorem filter_concerns_ofSpecs (edge : Edge) (specs : List Spec) :
    (specs.flatMap ofSpec).filter (concerns edge) =
      (specs.filter (·.edge == edge)).flatMap ofSpec := by
  induction specs with
  | nil => rfl
  | cons spec rest ih =>
      rw [List.flatMap_cons, List.filter_append, ih, ofSpec,
        filter_concerns_ofExpression]
      by_cases same : spec.edge = edge
      · rw [if_pos same, List.filter_cons_of_pos (by simpa using same),
          List.flatMap_cons]
        rfl
      · rw [if_neg same, List.filter_cons_of_neg (by simpa using same)]
        rfl

theorem filter_concerns_ofSteps (edge : Edge) (steps : List Table.Step) :
    (ofSteps steps).filter (concerns edge) =
      ofSteps (steps.filterMap (Table.Step.onEdge edge)) := by
  unfold ofSteps
  induction steps with
  | nil => rfl
  | cons step rest ih =>
      rw [List.flatMap_cons, List.filter_append, ih]
      cases step with
      | register typeTag kind => rfl
      | add other expression =>
          rw [ofStep, filter_concerns_ofExpression]
          by_cases same : other = edge <;>
            simp [Table.Step.onEdge, same, ofStep]
      | ingest specs =>
          rw [ofStep, filter_concerns_ofSpecs]
          rfl

end Move

namespace Table

theorem Origin.moves_onEdge (edge : Edge) (origin : Origin)
    (steps : List Step) :
    (origin.onEdge edge).moves (steps.filterMap (Step.onEdge edge)) =
      (origin.moves steps).filter (Move.concerns edge) := by
  unfold Origin.moves
  rw [Move.filter_concerns_ofSteps, List.filterMap_append]
  cases origin <;> rfl

variable {registry : Registry} {edge : Edge} {text : String}
  {entries next : List Entry} {record : Log.Record}

theorem Vacant.on_edge {typeTag : String}
    (vacant : Vacant edge typeTag entries) :
    Vacant edge typeTag (entries.filter (·.1 == edge)) :=
  fun entry member => vacant entry (List.mem_filter.1 member).1

theorem Outcome.on_edge
    (outcome : Outcome registry edge text entries next record) :
    Outcome registry edge text (entries.filter (·.1 == edge))
      (next.filter (·.1 == edge))
      record := by
  cases outcome with
  | malformed unparsed => exact .malformed unparsed
  | unknown parsed unregistered unshared =>
      exact .unknown parsed unregistered fun reuse => (unshared reuse).on_edge
  | @shared condition before after solver parsed reuse layout first typed =>
      subst layout
      simp only [List.filter_append, List.filter_cons,
        beq_self_eq_true, if_true]
      exact .shared parsed reuse rfl first.on_edge typed
  | @created condition kind parsed registered unshared =>
      simp only [List.filter_append, List.filter_cons,
        beq_self_eq_true, if_true]
      exact .created parsed registered fun reuse => (unshared reuse).on_edge

theorem Outcome.off_edge {other : Edge}
    (outcome : Outcome registry other text entries next record)
    (apart : other ≠ edge) :
    next.filter (·.1 == edge) = entries.filter (·.1 == edge) := by
  have skipped : (other == edge) = false := beq_false_of_ne apart
  cases outcome with
  | malformed => rfl
  | unknown => rfl
  | shared _ _ layout => simp [layout, skipped]
  | created => simp [skipped]

theorem Course.on_edge (edge : Edge) {moves : List Move} {last : List Entry}
    {log : List Log.Record} (course : Course registry entries moves last log) :
    ∃ ownLog, Course registry (entries.filter (·.1 == edge))
      (moves.filter (Move.concerns edge))
        (last.filter (·.1 == edge)) ownLog := by
  induction course with
  | nil => exact ⟨[], .nil⟩
  | register _ ih =>
      obtain ⟨ownLog, part⟩ := ih
      exact ⟨ownLog, .register part⟩
  | @condition _ other _ _ _ _ record _ _ outcome _ ih =>
      obtain ⟨ownLog, part⟩ := ih
      by_cases same : other = edge
      · subst same
        rw [List.filter_cons_of_pos (by simp [Move.concerns])]
        exact ⟨record :: ownLog, .condition outcome.on_edge part⟩
      · rw [List.filter_cons_of_neg (by simpa [Move.concerns] using same),
          ← outcome.off_edge same]
        exact ⟨ownLog, part⟩

theorem find_play_concerns (registry : Registry) (edge : Edge)
    (moves : List Move) :
    ((ofRegistry registry).play (moves.filter (Move.concerns edge))).1.find
      edge =
      ((ofRegistry registry).play moves).1.find edge := by
  obtain ⟨last, log, whole⟩ := exists_course registry [] moves
  obtain ⟨ownLog, part⟩ := whole.on_edge edge
  rw [List.filter_nil] at part
  rw [← ofEntries_nil, part.play_eq, whole.play_eq, find_ofEntries,
    find_ofEntries, List.filter_filter]
  simp

theorem filterItems_eq_of_find_eq {α : Type*} {left right : Table}
    (same : left.find edge = right.find edge) (label : α → Option String)
    (items : List α) :
    left.filterItems edge label items = right.filterItems edge label items := by
  simp only [filterItems, accepts, same]

/-- Leaving out of a history everything on other edges changes nothing on an
edge, and histories that agree on the registrations and on the conditions of an
edge, in the order of both together, agree on what is found there, whatever they
do on other edges in between. -/
theorem find_of_same_edge_history {α : Type*} (origin : Origin)
    (steps : List Step) (edge : Edge) (label : α → Option String)
    (items : List α) :
    let whole := (origin.table.run steps).1
    let part :=
      ((origin.onEdge edge).table.run (steps.filterMap (Step.onEdge edge))).1
    (part.find edge = whole.find edge ∧
      part.filterItems edge label items = whole.filterItems edge label items) ∧
    ∀ (other : Origin) (otherSteps : List Step),
      other.registry = origin.registry →
      (other.moves otherSteps).filter (Move.concerns edge) =
        (origin.moves steps).filter (Move.concerns edge) →
      (other.table.run otherSteps).1.find edge = whole.find edge ∧
        (other.table.run otherSteps).1.filterItems edge label items =
          whole.filterItems edge label items := by
  intro whole part
  have agreeing (other : Origin) (otherSteps : List Step)
      (registries : other.registry = origin.registry)
      (histories : (other.moves otherSteps).filter (Move.concerns edge) =
        (origin.moves steps).filter (Move.concerns edge)) :
      (other.table.run otherSteps).1.find edge = whole.find edge := by
    change _ = (origin.table.run steps).1.find edge
    rw [other.run_eq_play, origin.run_eq_play, registries, ← find_play_concerns,
      histories, find_play_concerns]
  have found : part.find edge = whole.find edge := by
    apply agreeing _ _ (origin.registry_onEdge edge)
    rw [Origin.moves_onEdge, List.filter_filter]
    simp
  refine ⟨⟨found, filterItems_eq_of_find_eq found label items⟩, ?_⟩
  intro other otherSteps registries histories
  have found := agreeing other otherSteps registries histories
  exact ⟨found, filterItems_eq_of_find_eq found label items⟩

theorem find_of_same_edge_history_interleaved :
    let edge : Edge := ⟨"camera", "detector"⟩
    let aside : Edge := ⟨"camera", "tracker"⟩
    let origin : Origin :=
      .ofConfig ⟨"", true, [⟨edge, "Label=person"⟩, ⟨aside, "Label=dog"⟩]⟩
    let steps : List Step :=
      [.register "Near" (.labelStart "Label"), .add aside "Near=a",
        .add edge "Near=b,Label=car"]
    let other : Origin := .ofRegistry (.builtin true)
    let otherSteps : List Step :=
      [.ingest [⟨aside, "Label=z"⟩, ⟨edge, "Label=person"⟩],
       .register "Near" (.labelStart "Label"), .add edge "Near=b",
       .add aside "Near=q", .add edge "Label=car"]
    let items := [some "person", none, some "b", some "car", some "dog"]
    other.registry = origin.registry ∧
      (other.moves otherSteps).filter (Move.concerns edge) =
        (origin.moves steps).filter (Move.concerns edge) ∧
      (other.table.run otherSteps).1.find edge =
        (origin.table.run steps).1.find edge ∧
      (other.table.run otherSteps).1.filterItems edge id items =
        (origin.table.run steps).1.filterItems edge id items := by
  intro edge aside origin steps other otherSteps items
  have histories : (other.moves otherSteps).filter (Move.concerns edge) =
      (origin.moves steps).filter (Move.concerns edge) := by
    decide +kernel +zetaReduce
  obtain ⟨-, agreeing⟩ := find_of_same_edge_history origin steps edge id items
  exact ⟨rfl, histories, agreeing other otherSteps rfl histories⟩

end Table

end EdgeFilters
