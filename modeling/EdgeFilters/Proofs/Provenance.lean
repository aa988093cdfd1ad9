import EdgeFilters.Proofs.Sharing
import Mathlib.Data.List.Nodup

/-! A solver may be bound under a tag that is not the type it reports. -/

namespace EdgeFilters

/-- The edge and the condition that a new solver was bound for. -/
def Log.Record.bound? : Log.Record → Option (Edge × Condition)
  | .bound edge condition => some (edge, condition)
  | .rejected _ | .reused _ _ => none

/-- An entry with the condition it was bound for. -/
structure Sourced where
  entry : Entry
  condition : Condition
  deriving DecidableEq, Repr

namespace Sourced

def source (one : Sourced) : Edge × Condition := (one.entry.1, one.condition)

/-- The solver has only the operand it was bound for, and reports another type
than the tag it was bound under. -/
def Lone (one : Sourced) : Prop :=
  one.entry.2.operands = [one.condition.operand] ∧
    one.condition.typeTag ≠ one.entry.2.typeTag

/-- The solver has this edge and type, and was bound under a tag
that is its type. -/
def isOwn (key : Edge × String) (one : Sourced) : Bool :=
  Entry.key one.entry == key && one.condition.typeTag == key.2

/-- Every solver began with the operand it was bound for, and those behind
another of their edge and type are lone. -/
structure Ordered (sourced : List Sourced) : Prop where
  begun : ∀ one ∈ sourced, [one.condition.operand] <+: one.entry.2.operands
  lone : sourced.Pairwise fun earlier later =>
    Entry.key later.entry = Entry.key earlier.entry → Lone later

variable {sourced before after : List Sourced} {edge : Edge} {solver : Solver}
  {condition : Condition}

theorem ordered_nil : Ordered [] where
  begun := by simp
  lone := .nil

theorem Ordered.add
    (ordered : Ordered (before ++ ⟨(edge, solver), condition⟩ :: after))
    (first : Table.Vacant edge solver.typeTag (before.map entry))
    (operand : String) :
    Ordered (before ++ ⟨(edge, solver.add operand), condition⟩ :: after) where
  begun := by
    have begun := ordered.begun
    simp only [List.forall_mem_append, List.forall_mem_cons] at begun ⊢
    exact ⟨begun.1, begun.2.1.trans (solver.operands_prefix_add operand),
      begun.2.2⟩
  lone := by
    have sameKey :
        Entry.key (edge, solver.add operand) = Entry.key (edge, solver) := by
      simp [Entry.key]
    obtain ⟨inFront, behind, across⟩ := List.pairwise_append.1 ordered.lone
    obtain ⟨here, later⟩ := List.pairwise_cons.1 behind
    refine List.pairwise_append.2 ⟨inFront,
      List.pairwise_cons.2 ⟨?_, later⟩, ?_⟩
    · intro one member same
      exact here one member (same.trans sameKey)
    · intro earlier early one member same
      rcases List.mem_cons.1 member with rfl | member
      · obtain ⟨edges, types⟩ := Prod.mk.inj (sameKey.symm.trans same)
        exact (first earlier.entry
          (List.mem_map_of_mem early) edges.symm types.symm).elim
      · exact across earlier early one (List.mem_cons_of_mem _ member) same

theorem Ordered.concat (ordered : Ordered sourced) (kind : Solver.Kind)
    (vacant : Table.Vacant edge condition.typeTag (sourced.map entry)) :
    Ordered (sourced ++
      [⟨(edge, ⟨kind, [condition.operand]⟩), condition⟩]) where
  begun := by
    rw [List.forall_mem_append]
    refine ⟨ordered.begun, ?_⟩
    intro one member
    obtain rfl := List.mem_singleton.1 member
    exact List.prefix_rfl
  lone := by
    refine List.pairwise_append.2 ⟨ordered.lone,
      List.pairwise_singleton _ _, ?_⟩
    intro earlier early one member same
    rw [List.mem_singleton.1 member] at same ⊢
    obtain ⟨edges, types⟩ := Prod.mk.inj same
    refine ⟨rfl, fun own => ?_⟩
    exact vacant earlier.entry (List.mem_map_of_mem early) edges.symm
      (types.symm.trans own.symm)

theorem Ordered.length_own_le_one (ordered : Ordered sourced)
    (key : Edge × String) : (sourced.filter (isOwn key)).length ≤ 1 := by
  have apart : (sourced.filter (isOwn key)).Pairwise fun _ _ => False := by
    rw [List.pairwise_filter]
    refine ordered.lone.imp ?_
    intro earlier later lone early late
    simp only [isOwn, Bool.and_eq_true, beq_iff_eq] at early late
    obtain ⟨-, other⟩ := lone (late.1.trans early.1.symm)
    exact other (late.2.trans (congrArg Prod.snd late.1).symm)
  cases found : sourced.filter (isOwn key) with
  | nil => simp
  | cons first rest =>
      rw [found] at apart
      cases rest with
      | nil => simp
      | cons second others =>
          exact ((List.pairwise_cons.1 apart).1 second (by simp)).elim

end Sourced

namespace Table

variable {registry : Registry} {edge : Edge} {text : String}
  {entries next last : List Entry} {record : Log.Record}
  {sourced : List Sourced}

theorem Outcome.exists_sourced
    (outcome : Outcome registry edge text entries next record)
    (reuse : registry.reuse = true)
    (entered : sourced.map Sourced.entry = entries)
    (ordered : Sourced.Ordered sourced) :
    ∃ grown : List Sourced, grown.map Sourced.entry = next ∧
      grown.map Sourced.source = sourced.map Sourced.source ++
        record.bound?.toList ∧
      Sourced.Ordered grown := by
  cases outcome with
  | malformed => exact ⟨sourced, entered, (List.append_nil _).symm, ordered⟩
  | unknown => exact ⟨sourced, entered, (List.append_nil _).symm, ordered⟩
  | @shared condition before after solver _ _ layout first typed =>
      obtain ⟨inFront, rest, rfl, rfl, here⟩ :=
        List.map_eq_append_iff.1 (entered.trans layout)
      obtain ⟨⟨_, source⟩, behind, rfl, rfl, rfl⟩ := List.map_eq_cons_iff.1 here
      refine ⟨inFront ++ ⟨(edge, solver.add condition.operand), source⟩ ::
        behind, ?_, ?_, ?_⟩
      · simp
      · simp [Sourced.source, Log.Record.bound?]
      · rw [← typed] at first
        exact ordered.add first condition.operand
  | @created condition kind _ _ unshared =>
      refine ⟨sourced ++ [⟨(edge, ⟨kind, [condition.operand]⟩), condition⟩],
        ?_, ?_, ?_⟩
      · rw [List.map_append, entered, Solver.add_ofKind, List.map_singleton]
      · rw [List.map_append]
        rfl
      · subst entered
        exact ordered.concat kind (unshared reuse)

theorem Course.exists_sourced {moves : List Move} {log : List Log.Record}
    (course : Course registry entries moves last log)
    (reuse : registry.reuse = true)
    (entered : sourced.map Sourced.entry = entries)
    (ordered : Sourced.Ordered sourced) :
    ∃ grown : List Sourced, grown.map Sourced.entry = last ∧
      grown.map Sourced.source =
        sourced.map Sourced.source ++ log.filterMap Log.Record.bound? ∧
      Sourced.Ordered grown := by
  induction course generalizing sourced with
  | nil => exact ⟨sourced, entered, (List.append_nil _).symm, ordered⟩
  | register _ ih => exact ih reuse entered ordered
  | @condition _ _ _ _ _ _ record _ log outcome _ ih =>
      obtain ⟨mid, here, found, kept⟩ :=
        outcome.exists_sourced reuse entered ordered
      obtain ⟨grown, there, later, still⟩ := ih reuse here kept
      refine ⟨grown, there, ?_, still⟩
      rw [later, found, List.append_assoc]
      cases shown : record.bound? <;> simp [shown]

/-- The entries of a table, each with the condition that it was bound for
according to the records of its history. -/
def sourcedEntries (history : Table × List Log.Record) : List Sourced :=
  history.1.entries.zipWith Sourced.mk
    ((history.2.filterMap Log.Record.bound?).map Prod.snd)

theorem Origin.exists_sourced (origin : Origin) (steps : List Step)
    (reuse : origin.registry.reuse = true) :
    ∃ sourced : List Sourced,
      sourced.map Sourced.entry = (origin.history steps).1.entries ∧
      sourced.map Sourced.source =
        (origin.history steps).2.filterMap Log.Record.bound? ∧
      Sourced.Ordered sourced := by
  obtain ⟨last, log, course, filled⟩ := origin.exists_course_history steps
  rw [filled, entries_ofEntries]
  exact course.exists_sourced reuse List.map_nil Sourced.ordered_nil

theorem Course.nodup_keys {moves : List Move} {log : List Log.Record}
    (course : Course registry [] moves last log) (reuse : registry.reuse = true)
    (faithful : registry.Faithful) (kept : ∀ move ∈ moves, move.Faithful) :
    (last.map Entry.key).Nodup := by
  rw [course.last_eq_grouped reuse faithful kept,
    map_key_grouped _ (faithful.accepted kept)]
  exact nodup_eraseDups _

theorem nodup_types_of_nodup_keys (nodup : (entries.map Entry.key).Nodup)
    (edge : Edge) :
    (((ofEntries registry entries).find edge).map Solver.typeTag).Nodup := by
  have keys : (entries.filter (·.1 == edge)).map Entry.key =
      (((ofEntries registry entries).find edge).map Solver.typeTag).map
        (edge, ·) := by
    rw [find_ofEntries, List.map_map, List.map_map]
    apply List.map_congr_left
    intro entry member
    have same : entry.1 = edge := by simpa using (List.mem_filter.1 member).2
    simp [Entry.key, same]
  have filtered : ((entries.filter (·.1 == edge)).map Entry.key).Nodup :=
    nodup.sublist (List.filter_sublist.map _)
  rw [keys] at filtered
  exact List.Nodup.of_map _ filtered

/-- With reuse, whatever tags stand for, each solver began with the operand of
the condition it was bound for, and one that has another of its edge and type in
front of it holds nothing else, while the tag of that condition is not its type.
So on an edge at most one solver of a type was bound under that type as its tag,
and where every tag stands for a type of that name no two solvers on an edge
have the same type. -/
theorem lone_behind_first (origin : Origin) (steps : List Step)
    (reuse : origin.registry.reuse = true) :
    let history := origin.history steps
    (history.2.filterMap Log.Record.bound?).map Prod.fst =
      history.1.entries.map Prod.fst ∧
      (∀ one ∈ sourcedEntries history,
        [one.condition.operand] <+: one.entry.2.operands) ∧
      (sourcedEntries history).Pairwise (fun earlier later =>
        Entry.key later.entry = Entry.key earlier.entry → later.Lone) ∧
      (∀ key, ((sourcedEntries history).filter (Sourced.isOwn key)).length ≤
        1) ∧
      (origin.registry.Faithful → (∀ step ∈ steps, step.Faithful) → ∀ edge,
        ((history.1.find edge).map Solver.typeTag).Nodup) := by
  intro history
  obtain ⟨sourced, entered, found, ordered⟩ := origin.exists_sourced steps reuse
  have listed : sourced = sourcedEntries history := by
    rw [sourcedEntries, ← found, ← entered, List.map_map, List.zipWith_map,
      List.zipWith_self]
    exact (List.map_id sourced).symm
  rw [← listed]
  refine ⟨?_, ordered.begun, ordered.lone, ordered.length_own_le_one,
    fun faithful kept edge => ?_⟩
  · rw [← found, ← entered, List.map_map, List.map_map]
    rfl
  · obtain ⟨last, log, course, filled⟩ := origin.exists_course_history steps
    change history = _ at filled
    rw [filled]
    exact nodup_types_of_nodup_keys
      (course.nodup_keys reuse faithful (origin.faithful_moves kept)) edge

theorem lone_behind_first_misnamed :
    let edge : Edge := ⟨"camera", "detector"⟩
    let origin : Origin := .ofRegistry (.builtin true)
    let steps : List Step :=
      [.register "Near" (.labelStart "Far"), .add edge "Near=a,Near=b,Far=c",
       .register "Far" (.anything "Far"),
       .ingest [⟨edge, "Far=d,Near=e,Label=f"⟩], .register "Other" .label,
       .add edge "Other=g,Label=h"]
    let history := origin.history steps
    let plain : List Step :=
      [.register "Near" (.labelStart "Near"), .add edge "Near=a,Label=b,Near=c"]
    origin.registry.reuse = true ∧ origin.registry.Faithful ∧
      (∀ step ∈ plain, step.Faithful) ∧
      sourcedEntries history =
        [⟨(edge, ⟨.labelStart "Far", ["a", "c", "d"]⟩), ⟨"Near", "a"⟩⟩,
         ⟨(edge, ⟨.labelStart "Far", ["b"]⟩), ⟨"Near", "b"⟩⟩,
         ⟨(edge, ⟨.labelStart "Far", ["e"]⟩), ⟨"Near", "e"⟩⟩,
         ⟨(edge, ⟨.label, ["f", "h"]⟩), ⟨"Label", "f"⟩⟩,
         ⟨(edge, ⟨.label, ["g"]⟩), ⟨"Other", "g"⟩⟩] ∧
      (sourcedEntries history).Pairwise (fun earlier later =>
        Entry.key later.entry = Entry.key earlier.entry → later.Lone) ∧
      ((sourcedEntries history).filter (Sourced.isOwn (edge, "Label"))).length ≤
        1 ∧
      (((origin.history plain).1.find edge).map Solver.typeTag).Nodup := by
  intro edge origin steps history plain
  have faithful : origin.registry.Faithful := Registry.faithful_builtin true
  have kept : ∀ step ∈ plain, step.Faithful := by decide +zetaReduce
  obtain ⟨-, -, lone, own, -⟩ := lone_behind_first origin steps rfl
  obtain ⟨-, -, -, -, distinct⟩ := lone_behind_first origin plain rfl
  refine ⟨rfl, faithful, kept, ?_, lone, own (edge, "Label"),
    distinct faithful kept edge⟩
  decide +kernel +zetaReduce

end Table

end EdgeFilters
