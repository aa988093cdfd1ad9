import EdgeFilters.Proofs.Faithful
import EdgeFilters.Proofs.Grouping
import EdgeFilters.Proofs.Growth

namespace EdgeFilters

theorem Registry.isRegistered_register_of {registry : Registry} {other : String}
    (known : registry.isRegistered other = true) (typeTag : String)
    (kind : Solver.Kind) :
    (registry.register typeTag kind).isRegistered other = true := by
  rw [isRegistered, kind?_register]
  split
  · rfl
  · exact known

namespace Table

/-- The types of all solvers are registered. -/
def Known (registry : Registry) (entries : List Entry) : Prop :=
  ∀ entry ∈ entries, registry.isRegistered entry.2.typeTag = true

variable {registry : Registry} {edge : Edge} {text : String}
  {entries next : List Entry} {record : Log.Record}

theorem Known.register (known : Known registry entries) (typeTag : String)
    (kind : Solver.Kind) : Known (registry.register typeTag kind) entries :=
  fun entry member =>
    Registry.isRegistered_register_of (known entry member) typeTag kind

theorem Outcome.known (outcome : Outcome registry edge text entries next record)
    (faithful : registry.Faithful) (known : Known registry entries) :
    Known registry next := by
  intro entry member
  rcases outcome.old_or_accepted member with
    ⟨old, inside, grows⟩ | ⟨accepted, taken, grows⟩
  · rw [grows.typeTag]
    exact known old inside
  · obtain ⟨-, -, registered⟩ := Registry.accept?_eq_some_iff.1 taken
    have reported : accepted.kind.typeTag = accepted.condition.typeTag :=
      faithful _ _ registered
    rw [grows.typeTag, Accepted.entry, Solver.typeTag, reported,
      Registry.isRegistered, registered]
    rfl

theorem Outcome.next_of_sharing
    (outcome : Outcome registry edge text entries next record)
    (reuse : registry.reuse = true) (known : Known registry entries) :
    next = (registry.accept? edge text).toList.foldl gather entries := by
  cases outcome with
  | malformed unparsed =>
      rw [Registry.accept?_of_malformed unparsed]
      rfl
  | unknown parsed unregistered _ =>
      rw [Registry.accept?_of_unknown parsed unregistered]
      rfl
  | @shared condition before after solver parsed _ layout first typed =>
      subst layout
      have bound := known (edge, solver) (by simp)
      obtain ⟨kind, registered⟩ := Option.isSome_iff_exists.1 bound
      rw [typed] at registered
      rw [Registry.accept?_of_registered parsed registered]
      exact (gather_of_first ⟨edge, condition, kind⟩ first typed).symm
  | @created condition kind parsed registered unshared =>
      rw [Registry.accept?_of_registered parsed registered, Solver.add_ofKind]
      exact (gather_of_vacant ⟨edge, condition, kind⟩ (unshared reuse)).symm

theorem Course.last_of_sharing {moves : List Move} {last : List Entry}
    {log : List Log.Record} (course : Course registry entries moves last log)
    (reuse : registry.reuse = true) (faithful : registry.Faithful)
    (known : Known registry entries) (kept : ∀ move ∈ moves, move.Faithful) :
    last = (registry.accepted moves).foldl gather entries := by
  induction course with
  | nil => rfl
  | @register _ typeTag kind _ _ _ _ _ ih =>
      obtain ⟨here, later⟩ := List.forall_mem_cons.1 kept
      exact ih (by simp [reuse]) (faithful.register here)
        (known.register typeTag kind) later
  | condition outcome _ ih =>
      obtain ⟨-, later⟩ := List.forall_mem_cons.1 kept
      rw [ih reuse faithful (outcome.known faithful known) later,
        outcome.next_of_sharing reuse known, Registry.accepted_condition,
        List.foldl_append]

theorem Course.last_eq_grouped {moves : List Move} {last : List Entry}
    {log : List Log.Record} (course : Course registry [] moves last log)
    (reuse : registry.reuse = true) (faithful : registry.Faithful)
    (kept : ∀ move ∈ moves, move.Faithful) :
    last = grouped (registry.accepted moves) := by
  rw [grouped_eq_foldl _ (faithful.accepted kept)]
  exact course.last_of_sharing reuse faithful (by simp [Known]) kept

theorem Origin.faithful_moves (origin : Origin) {steps : List Step}
    (kept : ∀ step ∈ steps, step.Faithful) :
    ∀ move ∈ origin.moves steps, move.Faithful := by
  intro move member
  cases move with
  | register typeTag kind =>
      exact kept _ (origin.mem_of_register_mem_moves member)
  | condition edge text => trivial

/-- With reuse the entries of a table are the groups of what its history
accepted: one entry for each edge and tag in the order of first acceptance,
whose type is the tag, whose kind is what the tag stood for then, and which was
given every operand of the group. -/
theorem entries_of_sharing (origin : Origin) (steps : List Step)
    (reuse : origin.registry.reuse = true) (faithful : origin.registry.Faithful)
    (kept : ∀ step ∈ steps, step.Faithful) :
    let accepted := origin.registry.accepted (origin.moves steps)
    let entries := (origin.table.run steps).1.entries
    entries.map Entry.key = (accepted.map Accepted.key).eraseDups ∧
      ∀ entry ∈ entries, ∃ first rest,
        accepted.filter (·.key == Entry.key entry) = first :: rest ∧
        entry.2 = ⟨first.kind, first.kind.kept
          ((first :: rest).map (·.condition.operand))⟩ := by
  intro accepted entries
  have moved := origin.faithful_moves kept
  have typed : ∀ one ∈ accepted, one.kind.typeTag = one.condition.typeTag :=
    faithful.accepted moved
  have layout : entries = grouped accepted := by
    obtain ⟨last, log, course, filled⟩ := origin.exists_course steps
    change (origin.table.run steps).1.entries = _
    rw [filled, entries_ofEntries]
    exact course.last_eq_grouped reuse faithful moved
  rw [layout]
  exact ⟨map_key_grouped accepted typed,
    fun _ member => exists_first_of_mem_grouped typed member⟩

theorem entries_of_sharing_reregistered :
    let origin : Origin := .ofConfig
      ⟨"", true, [⟨⟨"camera", "detector"⟩, "Label=person,Near=a,Label=car"⟩]⟩
    let steps : List Step :=
      [.register "Near" (.labelStart "Near"),
       .add ⟨"camera", "detector"⟩ "Near=ca,Label=person,Label",
       .register "Near" (.anything "Near"),
       .ingest [⟨⟨"camera", "detector"⟩, "Near=ca,Label=bus"⟩,
         ⟨⟨"camera", "tracker"⟩, "Near=z"⟩]]
    let accepted := origin.registry.accepted (origin.moves steps)
    let entries := (origin.table.run steps).1.entries
    origin.registry.reuse = true ∧ origin.registry.Faithful ∧
      (∀ step ∈ steps, step.Faithful) ∧
      entries.map Entry.key =
        [(⟨"camera", "detector"⟩, "Label"), (⟨"camera", "detector"⟩, "Near"),
         (⟨"camera", "tracker"⟩, "Near")] ∧
      ∀ entry ∈ entries, ∃ first rest,
        accepted.filter (·.key == Entry.key entry) = first :: rest ∧
        entry.2 = ⟨first.kind, first.kind.kept
          ((first :: rest).map (·.condition.operand))⟩ := by
  intro origin steps accepted entries
  have faithful : origin.registry.Faithful := Registry.faithful_builtin true
  have kept : ∀ step ∈ steps, step.Faithful := by decide +zetaReduce
  obtain ⟨keys, groups⟩ := entries_of_sharing origin steps rfl faithful kept
  refine ⟨rfl, faithful, kept, keys.trans ?_, groups⟩
  decide +kernel +zetaReduce

end Table

end EdgeFilters
