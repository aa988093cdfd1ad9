import EdgeFilters.Proofs.Accepted

namespace EdgeFilters.Table

variable {registry : Registry} {edge : Edge} {text : String}
  {entries next : List Entry} {record : Log.Record}

theorem Outcome.next_of_separate
    (outcome : Outcome registry edge text entries next record)
    (separate : registry.reuse = false) :
    next = entries ++
      (registry.accept? edge text).toList.map Accepted.entry := by
  cases outcome with
  | malformed unparsed =>
      rw [Registry.accept?_of_malformed unparsed]
      simp
  | unknown parsed unregistered _ =>
      rw [Registry.accept?_of_unknown parsed unregistered]
      simp
  | shared _ reuse =>
      rw [separate] at reuse
      contradiction
  | created parsed registered _ =>
      rw [Registry.accept?_of_registered parsed registered, Solver.add_ofKind]
      rfl

theorem Course.last_of_separate {moves : List Move} {last : List Entry}
    {log : List Log.Record} (course : Course registry entries moves last log)
    (separate : registry.reuse = false) :
    last = entries ++ (registry.accepted moves).map Accepted.entry := by
  induction course with
  | nil => simp
  | register _ ih => exact ih (by simp [separate])
  | condition outcome _ ih =>
      rw [ih separate, outcome.next_of_separate separate,
        Registry.accepted_condition, List.map_append, List.append_assoc]

/-- Without reuse the entries of a table are the conditions its history
accepted, in order, each with a solver of its own that reports the type of the
kind the tag stood for. -/
theorem entries_of_separate (origin : Origin) (steps : List Step)
    (separate : origin.registry.reuse = false) :
    let accepted := origin.registry.accepted (origin.moves steps)
    let table := (origin.table.run steps).1
    table.entries = accepted.map Accepted.entry ∧
      (table.entries.map fun entry =>
        (entry.1, entry.2.typeTag, entry.2.operands)) =
        accepted.map
          (fun one => (one.edge, one.kind.typeTag, [one.condition.operand])) ∧
      table.length = accepted.length := by
  intro accepted table
  obtain ⟨last, log, course, filled⟩ := origin.exists_course steps
  have bound : table.entries = accepted.map Accepted.entry := by
    change (origin.table.run steps).1.entries = _
    rw [filled, entries_ofEntries, course.last_of_separate separate,
      List.nil_append]
  refine ⟨bound, ?_, ?_⟩
  · rw [bound, List.map_map]
    rfl
  · change (origin.table.run steps).1.length = _
    rw [filled, length_ofEntries, course.last_of_separate separate,
      List.nil_append, List.length_map]

theorem entries_of_separate_misnamed :
    let origin : Origin := .ofConfig
      ⟨"", false, [⟨⟨"camera", "detector"⟩, "Label=person,Near<door,Label"⟩]⟩
    let steps : List Step :=
      [.register "Near" (.labelStart "Start"),
       .ingest [⟨⟨"camera", "tracker"⟩, " Near = ca , bad"⟩,
         ⟨⟨"camera", "detector"⟩, ""⟩],
       .register "Near" .label,
       .add ⟨"camera", "detector"⟩ "Near=car,Label>car"]
    let table := (origin.table.run steps).1
    origin.registry.reuse = false ∧
      (table.entries.map fun entry =>
        (entry.1, entry.2.typeTag, entry.2.operands)) =
        [(⟨"camera", "detector"⟩, "Label", ["person"]),
         (⟨"camera", "tracker"⟩, "Start", ["ca"]),
         (⟨"camera", "detector"⟩, "Label", ["car"]),
         (⟨"camera", "detector"⟩, "Label", ["car"])] ∧
      table.length = 4 := by
  intro origin steps table
  obtain ⟨-, rows, count⟩ := entries_of_separate origin steps rfl
  refine ⟨rfl, rows.trans ?_, count.trans ?_⟩
  · decide +kernel +zetaReduce
  · decide +kernel +zetaReduce

end EdgeFilters.Table
