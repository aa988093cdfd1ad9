import EdgeFilters.Proofs.Faithful
import EdgeFilters.Proofs.Places
import EdgeFilters.Proofs.Separate
import Mathlib.Data.List.Forall2

namespace EdgeFilters

section

variable {α β : Type*} {relation : α → α → Prop} {before middle after : List α}

theorem forall₂_trans
    (trans : ∀ {old mid new}, relation old mid → relation mid new →
      relation old new)
    (early : List.Forall₂ relation before middle)
    (late : List.Forall₂ relation middle after) :
    List.Forall₂ relation before after := by
  induction early generalizing after with
  | nil => exact late
  | cons first _ ih =>
      cases late with
      | cons second later => exact .cons (trans first second) (ih later)

theorem map_eq_of_forall₂ {view : α → β}
    (same : ∀ {old new}, relation old new → view new = view old)
    (related : List.Forall₂ relation before after) :
    after.map view = before.map view := by
  induction related with
  | nil => rfl
  | cons here _ ih => rw [List.map_cons, List.map_cons, same here, ih]

end

namespace Entry

/-- The new entry is the old one, perhaps with further operands. -/
structure GrowsTo (old new : Entry) : Prop where
  edge : new.1 = old.1
  kind : new.2.kind = old.2.kind
  operands : old.2.operands <+: new.2.operands

theorem GrowsTo.refl (entry : Entry) : GrowsTo entry entry where
  edge := rfl
  kind := rfl
  operands := List.prefix_rfl

theorem GrowsTo.trans {old mid new : Entry} (early : GrowsTo old mid)
    (late : GrowsTo mid new) : GrowsTo old new where
  edge := late.edge.trans early.edge
  kind := late.kind.trans early.kind
  operands := early.operands.trans late.operands

theorem GrowsTo.typeTag {old new : Entry} (grows : GrowsTo old new) :
    new.2.typeTag = old.2.typeTag := by
  rw [Solver.typeTag, grows.kind, Solver.typeTag]

theorem growsTo_add (edge : Edge) (solver : Solver) (operand : String) :
    GrowsTo (edge, solver) (edge, solver.add operand) where
  edge := rfl
  kind := solver.kind_add operand
  operands := solver.operands_prefix_add operand

variable {before middle after : List Entry} {entry : Entry}

theorem grow_refl (entries : List Entry) :
    List.Forall₂ GrowsTo entries entries :=
  List.forall₂_same.2 fun entry _ => .refl entry

theorem grow_trans (early : List.Forall₂ GrowsTo before middle)
    (late : List.Forall₂ GrowsTo middle after) :
    List.Forall₂ GrowsTo before after :=
  forall₂_trans GrowsTo.trans early late

theorem grow_append {others grown : List Entry}
    (left : List.Forall₂ GrowsTo before after)
    (right : List.Forall₂ GrowsTo others grown) :
    List.Forall₂ GrowsTo (before ++ others) (after ++ grown) :=
  List.rel_append left right

theorem exists_of_mem_grown (grown : List.Forall₂ GrowsTo before after)
    (member : entry ∈ after) : ∃ old ∈ before, GrowsTo old entry := by
  induction grown with
  | nil => simp at member
  | @cons old new _ _ here _ ih =>
      rcases List.mem_cons.1 member with rfl | member
      · exact ⟨old, List.mem_cons_self, here⟩
      · obtain ⟨other, inside, there⟩ := ih member
        exact ⟨other, List.mem_cons_of_mem _ inside, there⟩

theorem map_fst_of_grown (grown : List.Forall₂ GrowsTo before after) :
    after.map Prod.fst = before.map Prod.fst :=
  map_eq_of_forall₂ GrowsTo.edge grown

end Entry

namespace Table

variable {registry : Registry} {edge : Edge} {text : String}
  {entries next last : List Entry} {record : Log.Record} {entry : Entry}
  {moves : List Move} {log : List Log.Record}

theorem Outcome.grown
    (outcome : Outcome registry edge text entries next record) :
    ∃ made : List Accepted, made.Sublist (registry.accept? edge text).toList ∧
      List.Forall₂ Entry.GrowsTo (entries ++ made.map Accepted.entry) next := by
  cases outcome with
  | malformed =>
      refine ⟨[], List.nil_sublist _, ?_⟩
      simpa using Entry.grow_refl entries
  | unknown =>
      refine ⟨[], List.nil_sublist _, ?_⟩
      simpa using Entry.grow_refl entries
  | @shared condition before after solver _ _ layout =>
      subst layout
      refine ⟨[], List.nil_sublist _, ?_⟩
      rw [List.map_nil, List.append_nil]
      exact Entry.grow_append (Entry.grow_refl before)
        (.cons (Entry.growsTo_add edge solver condition.operand)
          (Entry.grow_refl after))
  | @created condition kind parsed registered =>
      refine ⟨[⟨edge, condition, kind⟩], ?_, ?_⟩
      · rw [Registry.accept?_of_registered parsed registered]
        exact List.Sublist.refl _
      · rw [Solver.add_ofKind]
        exact Entry.grow_refl _

theorem Course.grown (course : Course registry entries moves last log) :
    ∃ made : List Accepted, made.Sublist (registry.accepted moves) ∧
      List.Forall₂ Entry.GrowsTo (entries ++ made.map Accepted.entry) last := by
  induction course with
  | nil =>
      refine ⟨[], List.nil_sublist _, ?_⟩
      simpa using Entry.grow_refl _
  | register _ ih => exact ih
  | condition outcome _ ih =>
      obtain ⟨first, accepted, early⟩ := outcome.grown
      obtain ⟨rest, acceptedLater, late⟩ := ih
      refine ⟨first ++ rest, accepted.append acceptedLater, ?_⟩
      rw [List.map_append, ← List.append_assoc]
      exact Entry.grow_trans (Entry.grow_append early (Entry.grow_refl _)) late

theorem old_or_accepted_of_grown {made accepted : List Accepted}
    (chosen : made.Sublist accepted)
    (grown : List.Forall₂ Entry.GrowsTo
      (entries ++ made.map Accepted.entry) next) (member : entry ∈ next) :
    (∃ old ∈ entries, Entry.GrowsTo old entry) ∨
      ∃ one ∈ accepted, Entry.GrowsTo one.entry entry := by
  obtain ⟨old, inside, grows⟩ := Entry.exists_of_mem_grown grown member
  rcases List.mem_append.1 inside with inside | inside
  · exact .inl ⟨old, inside, grows⟩
  · obtain ⟨one, taken, rfl⟩ := List.mem_map.1 inside
    exact .inr ⟨one, chosen.subset taken, grows⟩

theorem Outcome.old_or_accepted
    (outcome : Outcome registry edge text entries next record)
    (member : entry ∈ next) :
    (∃ old ∈ entries, Entry.GrowsTo old entry) ∨
      ∃ one ∈ registry.accept? edge text, Entry.GrowsTo one.entry entry := by
  obtain ⟨made, accepted, grown⟩ := outcome.grown
  have found := old_or_accepted_of_grown accepted grown member
  simpa only [Option.mem_toList, Option.mem_def] using found

theorem Course.exists_accepted (course : Course registry [] moves last log)
    (member : entry ∈ last) :
    ∃ one ∈ registry.accepted moves, Entry.GrowsTo one.entry entry := by
  obtain ⟨made, accepted, grown⟩ := course.grown
  rcases old_or_accepted_of_grown accepted grown member with
    ⟨old, inside, -⟩ | found
  · simp at inside
  · exact found

theorem Course.kind_of_mem {property : Solver.Kind → Prop}
    (course : Course registry [] moves last log)
    (before : ∀ typeTag kind, registry.kind? typeTag = some kind →
      property kind)
    (later : ∀ typeTag kind, Move.register typeTag kind ∈ moves → property kind)
    (member : entry ∈ last) : property entry.2.kind := by
  obtain ⟨one, accepted, grows⟩ := course.exists_accepted member
  rw [grows.kind]
  exact Registry.accepted_of_registered before later one accepted

/-- What an accepted condition may make of the entries: a new one behind them
that holds its operand alone, or no new one and at most one of them with its
operand behind the others. -/
inductive TakesIn (edge : Edge) (operand : String) (entries : List Entry) :
    List Entry → Prop
  | bound {solver : Solver} (alone : solver.operands = [operand]) :
      TakesIn edge operand entries (entries ++ [(edge, solver)])
  | held {solver : Solver} (member : (edge, solver) ∈ entries)
      (known : operand ∈ solver.operands) :
      TakesIn edge operand entries entries
  | added {before after : List Entry} {solver : Solver}
      (layout : entries = before ++ (edge, solver) :: after) :
      TakesIn edge operand entries
        (before ++
          (edge, { solver with operands := solver.operands ++ [operand] }) ::
            after)

theorem Outcome.takesIn
    (outcome : Outcome registry edge text entries next record)
    (level : record.level = .debug) :
    ∃ condition, Condition.parse? text = some condition ∧
      TakesIn edge condition.operand entries next := by
  cases outcome with
  | malformed => contradiction
  | unknown => contradiction
  | @shared condition before after solver parsed _ layout =>
      refine ⟨condition, parsed, ?_⟩
      rcases solver.add_eq_or condition.operand with ⟨known, same⟩ | longer
      · rw [same, ← layout]
        exact .held (by simp [layout]) known
      · rw [longer]
        exact .added layout
  | @created condition kind parsed =>
      refine ⟨condition, parsed, ?_⟩
      rw [Solver.add_ofKind]
      exact .bound rfl

theorem edges_prefix_of_grown {made : List Accepted}
    (grown : List.Forall₂ Entry.GrowsTo
      (entries ++ made.map Accepted.entry) last) :
    (entries.map Prod.fst).eraseDups <+: (last.map Prod.fst).eraseDups := by
  rw [Entry.map_fst_of_grown grown, List.map_append, List.eraseDups_append]
  exact List.prefix_append _ _

/-- A table that can come about is only added to. Each entry stays in its place
on its edge with its kind and keeps its operands in front of further ones;
without reuse it does not change. A registration changes no entry, and an
accepted condition makes one entry or adds to one. The edges so far stay in
front of new ones. -/
theorem entries_of_further {before : Table} (reached : Reachable before)
    (further : List Step) :
    let after := (before.run further).1
    List.Forall₂ Entry.GrowsTo before.entries
        (after.entries.take before.length) ∧
      (before.registry.reuse = false → before.entries <+: after.entries) ∧
      (∀ typeTag kind,
        (before.step (.register typeTag kind)).1.entries = before.entries) ∧
      (∀ edge text, (before.addCondition edge text).2.level = .debug →
        ∃ condition, Condition.parse? text = some condition ∧
          TakesIn edge condition.operand before.entries
            (before.addCondition edge text).1.entries) ∧
      before.edges <+: after.edges := by
  intro after
  have start := reached.aligned.eq_ofEntries
  generalize before.registry = registry at start ⊢
  generalize before.entries = entries at start ⊢
  subst start
  obtain ⟨last, log, course⟩ :=
    exists_course registry entries (Move.ofSteps further)
  have finish : after =
      ofEntries (registry.after (Move.ofSteps further)) last := by
    change (Table.run _ _).1 = _
    rw [run_eq_play, course.play_eq]
  obtain ⟨made, -, grown⟩ := course.grown
  have new : after.entries = last := by rw [finish, entries_ofEntries]
  refine ⟨?_, fun separate => ?_, fun typeTag kind => ?_,
    fun edge text level => ?_, ?_⟩
  · rw [new, length_ofEntries]
    simpa using List.forall₂_take entries.length grown
  · rw [new, course.last_of_separate separate]
    exact List.prefix_append _ _
  · exact entries_ofEntries
  · obtain ⟨next, record, outcome⟩ := exists_outcome registry edge text entries
    rw [outcome.addCondition_eq] at level ⊢
    rw [entries_ofEntries]
    exact outcome.takesIn level
  · rw [finish, edges_ofEntries, edges_ofEntries]
    exact edges_prefix_of_grown grown

theorem entries_of_further_shared :
    let edge : Edge := ⟨"camera", "detector"⟩
    let aside : Edge := ⟨"camera", "tracker"⟩
    let origin :=
      fun reuse => Origin.ofConfig ⟨"", reuse, [⟨edge, "Label=person"⟩]⟩
    let steps : List Step :=
      [.register "Near" (.labelStart "Near"), .add edge "Near=ca"]
    let further : List Step :=
      [.ingest [⟨aside, "Near=z"⟩, ⟨edge, "Label=car,Label=person,Near=ca"⟩],
       .register "Near" .label]
    let before := fun reuse => ((origin reuse).table.run steps).1
    let after := fun reuse => ((before reuse).run further).1
    (∀ reuse, Reachable (before reuse)) ∧
      (before false).registry.reuse = false ∧
      (before false).entries <+: (after false).entries ∧
      (after true).entries =
        [(edge, ⟨.label, ["person", "car"]⟩),
         (edge, ⟨.labelStart "Near", ["ca", "ca"]⟩),
         (aside, ⟨.labelStart "Near", ["z"]⟩)] ∧
      List.Forall₂ Entry.GrowsTo (before true).entries
        ((after true).entries.take (before true).length) ∧
      ((before true).addCondition edge "Label=person").2.level = .debug ∧
      (∃ condition, Condition.parse? "Label=person" = some condition ∧
        TakesIn edge condition.operand (before true).entries
          ((before true).addCondition edge "Label=person").1.entries) ∧
      (before true).edges <+: (after true).edges := by
  intro edge aside origin steps further before after
  have reached (reuse : Bool) : Reachable (before reuse) :=
    (Reachable.start (origin reuse)).run steps
  obtain ⟨-, unchanged, -⟩ := entries_of_further (reached false) further
  obtain ⟨grown, -, -, taken, edges⟩ :=
    entries_of_further (reached true) further
  have accepted :
      ((before true).addCondition edge "Label=person").2.level = .debug := by
    decide +kernel +zetaReduce
  have separate : (before false).registry.reuse = false := by
    decide +kernel +zetaReduce
  refine ⟨reached, separate, unchanged separate, ?_, grown, accepted,
    taken edge "Label=person" accepted, edges⟩
  decide +kernel +zetaReduce

end Table

end EdgeFilters
