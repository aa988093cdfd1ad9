import EdgeFilters.Proofs.Filtering

namespace EdgeFilters

/-- The new entry is the old one, but for operands that it held before; a label
solver does not hold an operand twice. -/
structure Entry.Repeats (old new : Entry) : Prop
    extends Entry.GrowsTo old new where
  known : new.2.operands ⊆ old.2.operands
  label : old.2.kind = .label → new = old

namespace Entry

theorem Repeats.refl (entry : Entry) : Repeats entry entry where
  toGrowsTo := .refl entry
  known := List.Subset.refl _
  label _ := rfl

theorem Repeats.trans {old mid new : Entry} (early : Repeats old mid)
    (late : Repeats mid new) : Repeats old new where
  toGrowsTo := early.toGrowsTo.trans late.toGrowsTo
  known := List.Subset.trans late.known early.known
  label labelled := by
    obtain rfl := early.label labelled
    exact late.label labelled

theorem repeats_add (edge : Edge) {solver : Solver} {operand : String}
    (held : operand ∈ solver.operands) :
    Repeats (edge, solver) (edge, solver.add operand) where
  toGrowsTo := growsTo_add edge solver operand
  known := by
    rcases solver.add_eq_or operand with ⟨-, same⟩ | longer
    · rw [same]
      exact List.Subset.refl _
    · rw [longer]
      simp [held]
  label labelled := by
    have kind : solver.kind = .label := labelled
    simp [Solver.add, kind, held]

theorem Repeats.accepts {old new : Entry} (same : Repeats old new)
    (label : Option String) : new.2.accepts label = old.2.accepts label := by
  obtain ⟨_, kind, few⟩ := old
  obtain ⟨_, newKind, many⟩ := new
  obtain rfl : newKind = kind := same.kind
  rw [Bool.eq_iff_iff]
  exact ⟨Solver.accepts_of_subset same.known,
    Solver.accepts_of_subset same.operands.subset⟩

end Entry

/-- The first entry of the key holds the operand. -/
def Held (accepted : Accepted) : List Entry → Prop
  | [] => False
  | entry :: rest =>
      if Entry.key entry = accepted.key then
        accepted.condition.operand ∈ entry.2.operands
      else Held accepted rest

variable {one : Accepted} {accepted : List Accepted} {entries : List Entry}

theorem key_add (edge : Edge) (solver : Solver) (operand : String) :
    Entry.key (edge, solver.add operand) = Entry.key (edge, solver) := by
  simp [Entry.key]

theorem held_gather (reported : one.kind.typeTag = one.condition.typeTag)
    (entries : List Entry) : Held one (gather entries one) := by
  induction entries with
  | nil =>
      have reached : Entry.key one.entry = one.key := key_of_reported reported _
      rw [gather, Held, if_pos reached]
      exact List.mem_singleton_self _
  | cons entry rest ih =>
      rw [gather]
      split
      · next reached =>
          rw [Held, key_add, if_pos reached]
          rcases entry.2.add_eq_or one.condition.operand with
            ⟨held, same⟩ | longer
          · rwa [same]
          · simp [longer]
      · next passed =>
          rw [Held, if_neg passed]
          exact ih

theorem Held.gather (held : Held one entries) (other : Accepted) :
    Held one (gather entries other) := by
  induction entries with
  | nil => exact held.elim
  | cons entry rest ih =>
      rw [Held] at held
      rw [EdgeFilters.gather]
      by_cases mine : Entry.key entry = one.key
      · rw [if_pos mine] at held
        split
        · rw [Held, key_add, if_pos mine]
          exact (entry.2.operands_prefix_add _).subset held
        · rwa [Held, if_pos mine]
      · rw [if_neg mine] at held
        split
        · rwa [Held, key_add, if_neg mine]
        · rw [Held, if_neg mine]
          exact ih held

theorem Held.repeats (held : Held one entries) :
    List.Forall₂ Entry.Repeats entries (EdgeFilters.gather entries one) := by
  induction entries with
  | nil => exact held.elim
  | cons entry rest ih =>
      rw [Held] at held
      rw [EdgeFilters.gather]
      split
      · next reached =>
          rw [if_pos reached] at held
          exact .cons (Entry.repeats_add entry.1 held)
            (List.forall₂_same.2 fun _ _ => .refl _)
      · next passed =>
          rw [if_neg passed] at held
          exact .cons (.refl entry) (ih held)

theorem Held.foldl (held : Held one entries) (accepted : List Accepted) :
    Held one (accepted.foldl EdgeFilters.gather entries) := by
  induction accepted generalizing entries with
  | nil => exact held
  | cons first rest ih => exact ih (held.gather first)

theorem held_foldl
    (reported : ∀ one ∈ accepted, one.kind.typeTag = one.condition.typeTag)
    (entries : List Entry) :
    ∀ one ∈ accepted, Held one (accepted.foldl gather entries) := by
  induction accepted generalizing entries with
  | nil => simp
  | cons first rest ih =>
      obtain ⟨here, later⟩ := List.forall_mem_cons.1 reported
      rw [List.foldl_cons, List.forall_mem_cons]
      exact ⟨(held_gather here entries).foldl rest,
        ih later (gather entries first)⟩

theorem foldl_repeats (held : ∀ one ∈ accepted, Held one entries) :
    List.Forall₂ Entry.Repeats entries (accepted.foldl gather entries) := by
  induction accepted generalizing entries with
  | nil => exact List.forall₂_same.2 fun _ _ => .refl _
  | cons first rest ih =>
      obtain ⟨here, later⟩ := List.forall_mem_cons.1 held
      have kept : ∀ one ∈ rest, Held one (gather entries first) :=
        fun one member => (later one member).gather first
      exact forall₂_trans Entry.Repeats.trans here.repeats (ih kept)

namespace Table

variable {registry other : Registry} {last : List Entry} {moves : List Move}
  {α : Type*}

theorem play_of_sharing (reuse : registry.reuse = true)
    (faithful : registry.Faithful) (kept : ∀ move ∈ moves, move.Faithful) :
    ((ofRegistry registry).play moves).1 =
      ofEntries (registry.after moves)
        ((registry.accepted moves).foldl gather []) := by
  obtain ⟨last, log, course⟩ := exists_course registry [] moves
  rw [← ofEntries_nil, course.play_eq,
    course.last_of_sharing reuse faithful (by simp [Known]) kept]

section

variable (repeats : List.Forall₂ Entry.Repeats entries last)

include repeats

theorem bindings_of_repeats :
    (ofEntries other last).bindings =
      (ofEntries registry entries).bindings := by
  have edges : last.map Prod.fst = entries.map Prod.fst :=
    map_eq_of_forall₂ (fun same => same.edge) repeats
  have layout (registry : Registry) (entries : List Entry) :
      (ofEntries registry entries).bindings =
        (entries.map Prod.fst).mapIdx fun place edge => ⟨edge, place⟩ := by
    rw [List.mapIdx_eq_zipIdx_map, List.zipIdx_map, List.map_map, ofEntries,
      List.mapIdx_eq_zipIdx_map]
    rfl
  rw [layout, layout, edges]

theorem eq_of_repeats (labels : ∀ entry ∈ entries, entry.2.kind = .label) :
    last = entries := by
  induction repeats with
  | nil => rfl
  | cons here _ ih =>
      obtain ⟨label, others⟩ := List.forall_mem_cons.1 labels
      rw [here.label label, ih others]

theorem map_find_of_repeats {view : Solver → α}
    (kept : ∀ {old new}, Entry.Repeats old new → view new.2 = view old.2)
    (edge : Edge) :
    ((ofEntries other last).find edge).map view =
      ((ofEntries registry entries).find edge).map view := by
  rw [find_ofEntries, find_ofEntries]
  induction repeats with
  | nil => rfl
  | cons here _ ih =>
      rw [List.filter_cons, List.filter_cons, here.edge]
      split
      · rw [List.map_cons, List.map_cons, List.map_cons, List.map_cons,
          kept here, ih]
      · exact ih

theorem filterItems_of_repeats (edge : Edge) (label : α → Option String)
    (items : List α) :
    (ofEntries other last).filterItems edge label items =
      (ofEntries registry entries).filterItems edge label items := by
  apply List.filter_congr
  intro item _
  have answers :
      ((ofEntries other last).find edge).map (·.accepts (label item)) =
      ((ofEntries registry entries).find edge).map (·.accepts (label item)) :=
    map_find_of_repeats repeats (fun same => same.accepts (label item)) edge
  have folded := congrArg (List.all · id) answers
  simpa [accepts, List.all_map] using folded

end

theorem ingest_of_sharing (reuse : registry.reuse = true)
    (faithful : registry.Faithful) (kept : ∀ move ∈ moves, move.Faithful)
    (specs : List Spec) :
    (((ofRegistry registry).play moves).1.ingest specs).1 =
      ofEntries (registry.after moves)
        ((registry.accepted (moves ++ specs.flatMap Move.ofSpec)).foldl
          gather []) := by
  have all : ∀ move ∈ moves ++ specs.flatMap Move.ofSpec, move.Faithful :=
    List.forall_mem_append.2 ⟨kept, Move.faithful_ofSpecs specs⟩
  have played := play_of_sharing reuse faithful all
  rw [play_append, Registry.after_append, Registry.after_ofSpecs] at played
  rw [ingest_eq_play]
  exact played

theorem ingest_ingest_of_sharing (reuse : registry.reuse = true)
    (faithful : registry.Faithful) (kept : ∀ move ∈ moves, move.Faithful)
    (specs again : List Spec) :
    ((((ofRegistry registry).play moves).1.ingest specs).1.ingest again).1 =
      ofEntries (registry.after moves)
        (((registry.after moves).accepted (again.flatMap Move.ofSpec)).foldl
          gather
          ((registry.accepted (moves ++ specs.flatMap Move.ofSpec)).foldl gather
            [])) := by
  have all : ∀ move ∈ moves ++ specs.flatMap Move.ofSpec, move.Faithful :=
    List.forall_mem_append.2 ⟨kept, Move.faithful_ofSpecs specs⟩
  have twice := ingest_of_sharing reuse faithful all again
  rw [play_append, Registry.accepted_append, List.foldl_append,
    Registry.after_append, Registry.after_ofSpecs] at twice
  rw [ingest_eq_play _ specs]
  exact twice

/-- Whatever the specifications are accepted for was accepted when
they came first. -/
theorem held_of_ingested (faithful : registry.Faithful)
    (kept : ∀ move ∈ moves, move.Faithful) {specs again : List Spec}
    (taken : ∀ spec ∈ again, spec ∈ specs) :
    ∀ one ∈ (registry.after moves).accepted (again.flatMap Move.ofSpec),
      Held one ((registry.accepted (moves ++ specs.flatMap Move.ofSpec)).foldl
        gather []) := by
  intro one member
  have all : ∀ move ∈ moves ++ specs.flatMap Move.ofSpec, move.Faithful :=
    List.forall_mem_append.2 ⟨kept, Move.faithful_ofSpecs specs⟩
  obtain ⟨spec, inside, text, written, accepted⟩ :=
    Registry.mem_accepted_ofSpecs.1 member
  have before :
      one ∈ (registry.after moves).accepted (specs.flatMap Move.ofSpec) :=
    Registry.mem_accepted_ofSpecs.2 ⟨spec, taken spec inside, text,
      written, accepted⟩
  apply held_foldl (faithful.accepted all)
  rw [Registry.accepted_append]
  exact List.mem_append_right _ before

theorem label_of_ingested (reuse : registry.reuse = true)
    (faithful : registry.Faithful)
    (kept : ∀ move ∈ moves, move.Faithful) (specs : List Spec)
    (labels : ∀ typeTag kind, registry.kind? typeTag = some kind →
      kind = .label)
    (registered : ∀ typeTag kind, .register typeTag kind ∈ moves →
      kind = .label) :
    ∀ entry ∈ (registry.accepted (moves ++ specs.flatMap Move.ofSpec)).foldl
        gather [],
      entry.2.kind = .label := by
  intro entry member
  obtain ⟨last, log, course⟩ :=
    exists_course registry [] (moves ++ specs.flatMap Move.ofSpec)
  have all : ∀ move ∈ moves ++ specs.flatMap Move.ofSpec, move.Faithful :=
    List.forall_mem_append.2 ⟨kept, Move.faithful_ofSpecs specs⟩
  rw [← course.last_of_sharing reuse faithful (by simp [Known]) all] at member
  refine course.kind_of_mem labels (fun typeTag kind inside => ?_) member
  rcases List.mem_append.1 inside with inside | inside
  · exact registered typeTag kind inside
  · exact (Move.register_not_mem_ofSpecs inside).elim

/-- With reuse and around a faithful registry, specifications that come again
after they were ingested bind nothing. Every solver stays on its edge with its
type, a label solver does not change at all, another is at most given operands
that it has, and the same items pass everywhere. Where nothing but the label
kind was ever registered no entry changes. -/
theorem ingest_again {α : Type*} (origin : Origin) (steps : List Step)
    (specs again : List Spec) (reuse : origin.registry.reuse = true)
    (faithful : origin.registry.Faithful) (kept : ∀ step ∈ steps, step.Faithful)
    (taken : ∀ spec ∈ again, spec ∈ specs) :
    let before := ((origin.table.run steps).1.ingest specs).1
    let after := (before.ingest again).1
    after.bindings = before.bindings ∧ after.edges = before.edges ∧
      (∀ edge, (after.find edge).map Solver.typeTag =
        (before.find edge).map Solver.typeTag) ∧
      List.Forall₂ Entry.Repeats before.entries after.entries ∧
      (∀ edge (label : α → Option String) items,
        after.filterItems edge label items =
          before.filterItems edge label items) ∧
      ((∀ typeTag kind, origin.registry.kind? typeTag = some kind →
        kind = .label) →
        (∀ typeTag kind, .register typeTag kind ∈ steps → kind = .label) →
        after.entries = before.entries) := by
  intro before after
  have moved : ∀ move ∈ origin.moves steps, move.Faithful :=
    origin.faithful_moves kept
  have start := ingest_of_sharing reuse faithful moved specs
  have finish := ingest_ingest_of_sharing reuse faithful moved specs again
  rw [← origin.run_eq_play] at start finish
  change before = _ at start
  change after = _ at finish
  have repeats := foldl_repeats (held_of_ingested faithful moved taken)
  have bindings : after.bindings = before.bindings := by
    rw [start, finish]
    exact bindings_of_repeats repeats
  refine ⟨bindings, ?_, fun edge => ?_, ?_, fun edge label items => ?_,
    fun labels registered => ?_⟩
  · rw [edges, bindings, edges]
  · rw [start, finish]
    exact map_find_of_repeats repeats (fun same => same.typeTag) edge
  · rw [start, finish, entries_ofEntries, entries_ofEntries]
    exact repeats
  · rw [start, finish]
    exact filterItems_of_repeats repeats edge label items
  · rw [start, finish, entries_ofEntries, entries_ofEntries]
    apply eq_of_repeats repeats
    apply label_of_ingested reuse faithful moved specs labels
    intro typeTag kind member
    exact registered typeTag kind (origin.mem_of_register_mem_moves member)

theorem ingest_again_reregistered :
    let edge : Edge := ⟨"camera", "detector"⟩
    let aside : Edge := ⟨"camera", "tracker"⟩
    let origin : Origin := .ofConfig ⟨"", true, [⟨edge, "Label=person"⟩]⟩
    let steps : List Step :=
      [.register "Near" (.labelStart "Near"), .add edge "Near=ca",
       .register "Near" (.anything "Near")]
    let specs : List Spec :=
      [⟨edge, "Near=bu,Label=car,bad"⟩, ⟨aside, "Near=z,Label=person"⟩]
    let again : List Spec :=
      [⟨aside, "Near=z,Label=person"⟩, ⟨edge, "Near=bu,Label=car,bad"⟩]
    let before := ((origin.table.run steps).1.ingest specs).1
    let after := (before.ingest again).1
    let labels := ((origin.table.run []).1.ingest specs).1
    origin.registry.reuse = true ∧ origin.registry.Faithful ∧
      (∀ step ∈ steps, step.Faithful) ∧ (∀ spec ∈ again, spec ∈ specs) ∧
      before.entries =
        [(edge, ⟨.label, ["person", "car"]⟩),
         (edge, ⟨.labelStart "Near", ["ca", "bu"]⟩),
         (aside, ⟨.anything "Near", ["z"]⟩), (aside, ⟨.label, ["person"]⟩)] ∧
      after.entries =
        [(edge, ⟨.label, ["person", "car"]⟩),
         (edge, ⟨.labelStart "Near", ["ca", "bu", "bu"]⟩),
         (aside, ⟨.anything "Near", ["z", "z"]⟩),
         (aside, ⟨.label, ["person"]⟩)] ∧
      List.Forall₂ Entry.Repeats before.entries after.entries ∧
      after.bindings = before.bindings ∧
      after.filterItems edge id [some "car", some "cat", none] =
        before.filterItems edge id [some "car", some "cat", none] ∧
      (labels.ingest again).1.entries = labels.entries := by
  intro edge aside origin steps specs again before after labels
  have faithful : origin.registry.Faithful := Registry.faithful_builtin true
  have kept : ∀ step ∈ steps, step.Faithful := by decide +zetaReduce
  have taken : ∀ spec ∈ again, spec ∈ specs := by decide +zetaReduce
  obtain ⟨bindings, -, -, repeats, passes, -⟩ :=
    ingest_again origin steps specs again rfl faithful kept taken
  obtain ⟨-, -, -, -, -, unchanged⟩ :=
    @ingest_again (Option String) origin [] specs again rfl faithful
      (by simp) taken
  refine ⟨rfl, faithful, kept, taken, ?_, ?_, repeats, bindings,
    passes edge id _, unchanged (fun typeTag kind registered => ?_) (by simp)⟩
  · decide +kernel +zetaReduce
  · decide +kernel +zetaReduce
  · exact (Registry.kind?_builtin_eq_some_iff.1 registered).2

end Table

end EdgeFilters
