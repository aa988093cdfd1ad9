import EdgeFilters.Proofs.Separate
import EdgeFilters.Proofs.Sharing

namespace EdgeFilters

def Registry.withReuse (registry : Registry) (reuse : Bool) : Registry :=
  { registry with reuse }

namespace Table.Origin

def withReuse (reuse : Bool) : Origin → Origin
  | .ofRegistry registry => .ofRegistry (registry.withReuse reuse)
  | .ofConfig config => .ofConfig { config with reuse }

theorem registry_withReuse (reuse : Bool) (origin : Origin) :
    (origin.withReuse reuse).registry = origin.registry.withReuse reuse := by
  cases origin <;> rfl

theorem moves_withReuse (reuse : Bool) (origin : Origin) (steps : List Step) :
    (origin.withReuse reuse).moves steps = origin.moves steps := by
  cases origin <;> rfl

end Table.Origin

theorem Registry.register_withReuse (registry : Registry) (reuse : Bool)
    (typeTag : String) (kind : Solver.Kind) :
    (registry.withReuse reuse).register typeTag kind =
      (registry.register typeTag kind).withReuse reuse := rfl

theorem Registry.accept?_withReuse (registry : Registry) (reuse : Bool)
    (edge : Edge) (text : String) :
    (registry.withReuse reuse).accept? edge text = registry.accept? edge text :=
  rfl

theorem Registry.accepted_withReuse (registry : Registry) (reuse : Bool)
    (moves : List Move) :
    (registry.withReuse reuse).accepted moves = registry.accepted moves := by
  induction moves generalizing registry with
  | nil => rfl
  | cons move rest ih =>
      cases move with
      | register typeTag kind => exact ih (registry.register typeTag kind)
      | condition edge text => exact congrArg (_ ++ ·) (ih registry)

/-- What binds there is bound or goes to a bound solver here. -/
def Log.Record.AcceptedBy (there here : Log.Record) : Prop :=
  ∀ edge condition, there = .bound edge condition →
    here = .bound edge condition ∨ here = .reused edge condition

namespace Table

/-- How the entries with reuse lie among those without. -/
structure Covered (shared separate : List Entry) : Prop where
  keys : (shared.map Entry.key).Sublist (separate.map Entry.key)
  edges : (shared.map Prod.fst).eraseDups = (separate.map Prod.fst).eraseDups

variable {registry : Registry} {edge : Edge} {text : String}
  {shared separate sharedNext separateNext : List Entry} {entry : Entry}
  {sharedRecord separateRecord : Log.Record}

theorem Covered.mem_edges (covered : Covered shared separate) :
    edge ∈ shared.map Prod.fst ↔ edge ∈ separate.map Prod.fst := by
  rw [← List.mem_eraseDups, covered.edges, List.mem_eraseDups]

theorem Covered.concat (covered : Covered shared separate) (entry : Entry) :
    Covered (shared ++ [entry]) (separate ++ [entry]) where
  keys := by
    simpa only [List.map_append] using covered.keys.append (List.Sublist.refl _)
  edges := by
    simp only [List.map_append, List.map_singleton, eraseDups_concat,
      covered.edges, covered.mem_edges]

theorem Covered.concat_separate (covered : Covered shared separate)
    (known : entry.1 ∈ shared.map Prod.fst) :
    Covered shared (separate ++ [entry]) where
  keys := by
    rw [List.map_append]
    exact covered.keys.trans (List.sublist_append_left _ _)
  edges := by
    rw [List.map_append, List.map_singleton, eraseDups_concat,
      if_pos (covered.mem_edges.1 known), covered.edges]

/-- An operand more for a solver changes neither its edge nor its type. -/
theorem Covered.add_shared {before after : List Entry} {solver : Solver}
    (covered : Covered (before ++ (edge, solver) :: after) separate)
    (operand : String) :
    Covered (before ++ (edge, solver.add operand) :: after) separate where
  keys := by simpa [Entry.key] using covered.keys
  edges := by simpa using covered.edges

theorem Covered.step (covered : Covered shared separate)
    (sharing : Outcome (registry.withReuse true) edge text shared sharedNext
      sharedRecord) (separating :
      Outcome (registry.withReuse false) edge text separate separateNext
        separateRecord) :
    Covered sharedNext separateNext := by
  rw [separating.next_of_separate rfl, Registry.accept?_withReuse]
  cases sharing with
  | malformed unparsed =>
      rw [Registry.accept?_of_malformed unparsed]
      simpa using covered
  | unknown parsed unregistered =>
      have rejected : registry.accept? edge text = none :=
        Registry.accept?_of_unknown parsed unregistered
      simpa [rejected] using covered
  | @shared condition before after solver parsed _ layout =>
      subst layout
      have grown := covered.add_shared condition.operand
      cases taken : registry.accept? edge text with
      | none => simpa [taken] using grown
      | some accepted =>
          obtain ⟨-, here, -⟩ := Registry.accept?_eq_some_iff.1 taken
          exact grown.concat_separate (by simp [Accepted.entry, here])
  | @created condition kind parsed registered =>
      have accepted :
          registry.accept? edge text = some ⟨edge, condition, kind⟩ :=
        Registry.accept?_of_registered parsed registered
      rw [accepted, Solver.add_ofKind]
      exact covered.concat _

theorem Outcome.acceptedBy
    (separating :
      Outcome (registry.withReuse false) edge text separate separateNext
        separateRecord)
    (sharing : Outcome (registry.withReuse true) edge text shared sharedNext
      sharedRecord) : separateRecord.AcceptedBy sharedRecord := by
  rintro other condition rfl
  cases separating with
  | created parsed registered =>
      cases sharing with
      | malformed unparsed =>
          rw [parsed] at unparsed
          contradiction
      | unknown again unregistered =>
          rw [parsed] at again
          cases again
          exact nomatch registered.symm.trans unregistered
      | shared again =>
          rw [parsed] at again
          cases again
          exact .inr rfl
      | created again =>
          rw [parsed] at again
          cases again
          exact .inl rfl

theorem Course.covered {moves : List Move}
    {sharedLast separateLast : List Entry}
    {sharedLog separateLog : List Log.Record}
    (covered : Covered shared separate)
    (sharing : Course (registry.withReuse true) shared moves sharedLast
      sharedLog)
    (separating : Course (registry.withReuse false) separate moves separateLast
      separateLog) :
    Covered sharedLast separateLast ∧
      List.Forall₂ Log.Record.AcceptedBy separateLog sharedLog := by
  induction moves
    generalizing registry shared separate sharedLog separateLog with
  | nil =>
      cases sharing
      cases separating
      exact ⟨covered, .nil⟩
  | cons move rest ih =>
      cases sharing with
      | register sharing =>
          cases separating with
          | register separating =>
              rw [Registry.register_withReuse] at sharing separating
              exact ih covered sharing separating
      | condition sharing sharingLater =>
          cases separating with
          | condition separating separatingLater =>
              obtain ⟨later, accepted⟩ :=
                ih (covered.step sharing separating) sharingLater
                  separatingLater
              exact ⟨later, .cons (separating.acceptedBy sharing) accepted⟩

end Table

/-- One solver in the place of all, of the kind of the first. -/
def Solver.merged : List Solver → List Solver
  | [] => []
  | first :: rest =>
      [⟨first.kind, first.kind.kept ((first :: rest).flatMap Solver.operands)⟩]

theorem Solver.merged_entries (first : Accepted) (rest : List Accepted) :
    merged (((first :: rest).map Accepted.entry).map Prod.snd) =
      [⟨first.kind,
        first.kind.kept ((first :: rest).map (·.condition.operand))⟩] := by
  have operands :
      (((first :: rest).map Accepted.entry).map Prod.snd).flatMap
        Solver.operands =
      (first :: rest).map (·.condition.operand) := by
    rw [List.map_map, List.flatMap_map, List.map_eq_flatMap]
    rfl
  rw [List.map_cons, List.map_cons, merged, ← List.map_cons,
    ← List.map_cons, operands]
  rfl

variable {accepted : List Accepted}

theorem filter_key_entries
    (faithful : ∀ one ∈ accepted, one.kind.typeTag = one.condition.typeTag)
    (key : Edge × String) :
    (accepted.map Accepted.entry).filter (Entry.key · == key) =
      (accepted.filter (·.key == key)).map Accepted.entry := by
  rw [List.filter_map]
  congr 1
  apply List.filter_congr
  intro one member
  rw [Function.comp, Accepted.entry, key_of_reported (faithful one member)]

theorem filter_key_grouped
    (faithful : ∀ one ∈ accepted, one.kind.typeTag = one.condition.typeTag)
    (key : Edge × String) :
    ((grouped accepted).filter (Entry.key · == key)).map Prod.snd =
      Solver.merged
        (((accepted.filter (·.key == key)).map Accepted.entry).map
          Prod.snd) := by
  fun_induction grouped accepted with
  | case1 => rfl
  | case2 first rest ih =>
      obtain ⟨reported, others⟩ := List.forall_mem_cons.1 faithful
      have remaining :=
        ih fun one member => others one (List.mem_filter.1 member).1
      by_cases mine : first.key = key
      · subst mine
        have gone : (first.unlike rest).filter (·.key == first.key) = [] := by
          rw [Accepted.unlike, List.filter_filter, List.filter_eq_nil_iff]
          intro one _
          simp
        have own :
            (first :: rest).filter (·.key == first.key) =
              first :: first.alike rest :=
          List.filter_cons_of_pos (beq_self_eq_true _)
        rw [gone] at remaining
        rw [List.filter_cons_of_pos
          (by rw [key_of_reported reported, beq_self_eq_true]), List.map_cons,
          remaining, own, Solver.merged_entries]
        rfl
      · have apart : ¬ (first.key == key) = true := by simpa using mine
        have passed :
            (first :: rest).filter (·.key == key) =
              rest.filter (·.key == key) :=
          List.filter_cons_of_neg apart
        rw [Accepted.filter_unlike (Ne.symm mine)] at remaining
        rw [List.filter_cons_of_neg (by rwa [key_of_reported reported]), passed,
          remaining]

namespace Table

theorem find_filter_ofEntries {registry : Registry} {entries : List Entry}
    (edge : Edge) (typeTag : String) :
    ((ofEntries registry entries).find edge).filter (·.typeTag == typeTag) =
      (entries.filter (Entry.key · == (edge, typeTag))).map Prod.snd := by
  rw [find_ofEntries, List.filter_map, List.filter_filter]
  congr 1
  apply List.filter_congr
  intro entry _
  rw [Bool.eq_iff_iff]
  simp [Entry.key, and_comm]

theorem isEmpty_eq_isEmpty_edges (table : Table) :
    table.isEmpty = table.edges.isEmpty := by
  unfold isEmpty edges
  cases table.bindings with
  | nil => rfl
  | cons binding rest => simp [List.eraseDups_cons]

/-- The same history with reuse and without. What binds without reuse is
accepted with reuse, the edges with their types are some of those without reuse,
in order, and the edges alone are the same. Around a faithful registry an edge
has one solver of a type with reuse where it has any without, and that one was
given the operands of all those. -/
theorem sharing_simulates_separate (origin : Origin) (steps : List Step) :
    let shared := (origin.withReuse true).history steps
    let separate := (origin.withReuse false).history steps
    List.Forall₂ Log.Record.AcceptedBy separate.2 shared.2 ∧
      (shared.1.entries.map Entry.key).Sublist
        (separate.1.entries.map Entry.key) ∧
      shared.1.edges = separate.1.edges ∧
        shared.1.isEmpty = separate.1.isEmpty ∧
      (origin.registry.Faithful → (∀ step ∈ steps, step.Faithful) →
        ∀ edge typeTag, (shared.1.find edge).filter (·.typeTag == typeTag) =
          Solver.merged
            ((separate.1.find edge).filter (·.typeTag == typeTag))) := by
  intro shared separate
  obtain ⟨sharedLast, sharedLog, sharing, sharedEq⟩ :=
    (origin.withReuse true).exists_course_history steps
  obtain ⟨separateLast, separateLog, separating, separateEq⟩ :=
    (origin.withReuse false).exists_course_history steps
  rw [Origin.registry_withReuse, Origin.moves_withReuse] at sharing separating
  have empty : Covered [] [] := ⟨.slnil, rfl⟩
  obtain ⟨covered, accepted⟩ := Course.covered empty sharing separating
  have edges : shared.1.edges = separate.1.edges := by
    change ((origin.withReuse true).history steps).1.edges =
      ((origin.withReuse false).history steps).1.edges
    rw [sharedEq, separateEq, edges_ofEntries, edges_ofEntries]
    exact covered.edges
  refine ⟨?_, ?_, edges, ?_, fun faithful kept edge typeTag => ?_⟩
  · change List.Forall₂ _ ((origin.withReuse false).history steps).2
      ((origin.withReuse true).history steps).2
    rw [sharedEq, separateEq]
    exact accepted
  · change (((origin.withReuse true).history steps).1.entries.map
      Entry.key).Sublist
      (((origin.withReuse false).history steps).1.entries.map Entry.key)
    rw [sharedEq, separateEq, entries_ofEntries, entries_ofEntries]
    exact covered.keys
  · rw [isEmpty_eq_isEmpty_edges, isEmpty_eq_isEmpty_edges, edges]
  · have moved := origin.faithful_moves kept
    have typed := faithful.accepted moved
    change (((origin.withReuse true).history steps).1.find edge).filter _ =
      Solver.merged
        ((((origin.withReuse false).history steps).1.find edge).filter _)
    rw [sharedEq, separateEq, find_filter_ofEntries, find_filter_ofEntries,
      sharing.last_eq_grouped rfl faithful moved,
      separating.last_of_separate rfl, Registry.accepted_withReuse,
      Registry.accepted_withReuse, List.nil_append, filter_key_entries typed,
      filter_key_grouped typed]

theorem sharing_simulates_separate_reregistered :
    let edge : Edge := ⟨"camera", "detector"⟩
    let aside : Edge := ⟨"camera", "tracker"⟩
    let origin : Origin :=
      .ofConfig ⟨"", false,
        [⟨edge, "Label=person,Near=a,Label=car"⟩, ⟨aside, "Label=bus"⟩]⟩
    let steps : List Step :=
      [.register "Near" (.labelStart "Near"),
       .add edge "Near=ca,Label=person,bad",
       .register "Near" (.anything "Near"),
       .ingest [⟨edge, "Near=ca"⟩, ⟨aside, "Near=b"⟩]]
    let shared := (origin.withReuse true).history steps
    let separate := (origin.withReuse false).history steps
    origin.registry.Faithful ∧ (∀ step ∈ steps, step.Faithful) ∧
      shared.1.edges = separate.1.edges ∧
      (separate.1.find edge).filter (·.typeTag == "Label") =
        [⟨.label, ["person"]⟩, ⟨.label, ["car"]⟩, ⟨.label, ["person"]⟩] ∧
      (shared.1.find edge).filter (·.typeTag == "Label") =
        [⟨.label, ["person", "car"]⟩] ∧
      (shared.1.find edge).filter (·.typeTag == "Near") =
        [⟨.labelStart "Near", ["ca", "ca"]⟩] := by
  intro edge aside origin steps shared separate
  have faithful : origin.registry.Faithful := Registry.faithful_builtin false
  have kept : ∀ step ∈ steps, step.Faithful := by decide +zetaReduce
  obtain ⟨-, -, edges, -, merged⟩ := sharing_simulates_separate origin steps
  have held : (separate.1.find edge).filter (·.typeTag == "Label") =
      [⟨.label, ["person"]⟩, ⟨.label, ["car"]⟩, ⟨.label, ["person"]⟩] := by
    decide +kernel +zetaReduce
  refine ⟨faithful, kept, edges, held, ?_,
    (merged faithful kept edge "Near").trans ?_⟩
  · exact (merged faithful kept edge "Label").trans
      (congrArg Solver.merged held)
  · decide +kernel +zetaReduce

end Table

end EdgeFilters
