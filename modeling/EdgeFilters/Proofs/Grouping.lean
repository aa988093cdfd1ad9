import EdgeFilters.Proofs.Accepted

namespace EdgeFilters

def Accepted.alike (first : Accepted) (accepted : List Accepted) :
    List Accepted :=
  accepted.filter (·.key == first.key)

def Accepted.unlike (first : Accepted) (accepted : List Accepted) :
    List Accepted :=
  accepted.filter (·.key != first.key)

/-- One entry for each key, of the kind that came first and with the
operands of all. -/
def grouped : List Accepted → List Entry
  | [] => []
  | first :: rest =>
      (first.edge,
          ⟨first.kind, first.kind.kept
            ((first :: first.alike rest).map (·.condition.operand))⟩) ::
        grouped (first.unlike rest)
termination_by accepted => accepted.length
decreasing_by
  exact Nat.lt_succ_of_le (List.length_filter_le _ _)

theorem grouped_cons (first : Accepted) (rest : List Accepted) :
    grouped (first :: rest) =
      (first.edge,
          ⟨first.kind, first.kind.kept
            ((first :: first.alike rest).map (·.condition.operand))⟩) ::
        grouped (first.unlike rest) := by
  rw [grouped]

/-- The operand goes to the first entry of its key, or a new entry
is made for it. -/
def gather (entries : List Entry) (accepted : Accepted) : List Entry :=
  match entries with
  | [] => [accepted.entry]
  | entry :: rest =>
      if Entry.key entry = accepted.key then
        (entry.1, entry.2.add accepted.condition.operand) :: rest
      else entry :: gather rest accepted

theorem Table.Vacant.key_ne {accepted : Accepted} {entries : List Entry}
    (vacant : Table.Vacant accepted.edge accepted.condition.typeTag entries) :
    ∀ entry ∈ entries, Entry.key entry ≠ accepted.key := by
  intro entry member same
  obtain ⟨edges, types⟩ := Prod.mk.inj same
  exact vacant entry member edges types

theorem gather_of_other {accepted : Accepted} {before : List Entry}
    (others : ∀ entry ∈ before, Entry.key entry ≠ accepted.key)
    (after : List Entry) :
    gather (before ++ after) accepted = before ++ gather after accepted := by
  induction before with
  | nil => rfl
  | cons entry rest ih =>
      obtain ⟨other, later⟩ := List.forall_mem_cons.1 others
      rw [List.cons_append, gather, if_neg other, ih later, List.cons_append]

theorem gather_of_vacant (accepted : Accepted) {entries : List Entry}
    (vacant : Table.Vacant accepted.edge accepted.condition.typeTag entries) :
    gather entries accepted = entries ++ [accepted.entry] := by
  have passed := gather_of_other vacant.key_ne []
  rwa [List.append_nil] at passed

theorem gather_of_first (accepted : Accepted) {before after : List Entry}
    {solver : Solver}
    (first : Table.Vacant accepted.edge accepted.condition.typeTag before)
    (typed : solver.typeTag = accepted.condition.typeTag) :
    gather (before ++ (accepted.edge, solver) :: after) accepted =
      before ++ (accepted.edge, solver.add accepted.condition.operand) ::
        after := by
  have reached : Entry.key (accepted.edge, solver) = accepted.key := by
    rw [Entry.key, typed, Accepted.key]
  rw [gather_of_other first.key_ne, gather, if_pos reached]

theorem key_of_reported {first : Accepted}
    (reported : first.kind.typeTag = first.condition.typeTag)
    (operands : List String) :
    Entry.key (first.edge, ⟨first.kind, operands⟩) = first.key := by
  rw [Entry.key, Solver.typeTag, reported, Accepted.key]

theorem grouped_concat (accepted : List Accepted) (last : Accepted)
    (faithful : ∀ one ∈ accepted, one.kind.typeTag = one.condition.typeTag) :
    grouped (accepted ++ [last]) = gather (grouped accepted) last := by
  fun_induction grouped accepted with
  | case1 =>
      simp [grouped, gather, Accepted.entry, Accepted.alike, Accepted.unlike]
  | case2 first rest ih =>
      obtain ⟨reported, others⟩ := List.forall_mem_cons.1 faithful
      rw [List.cons_append, grouped_cons, gather, key_of_reported reported]
      by_cases same : first.key = last.key
      · have joins :
            first.alike (rest ++ [last]) = first.alike rest ++ [last] := by
          simp [Accepted.alike, same]
        have stays : first.unlike (rest ++ [last]) = first.unlike rest := by
          simp [Accepted.unlike, same]
        rw [if_pos same, joins, stays, Solver.add_kept]
        simp
      · have apart : (last.key == first.key) = false :=
          beq_false_of_ne (Ne.symm same)
        have stays : first.alike (rest ++ [last]) = first.alike rest := by
          simp [Accepted.alike, apart]
        have joins :
            first.unlike (rest ++ [last]) = first.unlike rest ++ [last] := by
          simp [Accepted.unlike, apart, bne]
        rw [if_neg same, stays, joins,
          ih fun one member => others one (List.mem_filter.1 member).1]

theorem grouped_eq_foldl (accepted : List Accepted)
    (faithful : ∀ one ∈ accepted, one.kind.typeTag = one.condition.typeTag) :
    grouped accepted = accepted.foldl gather [] := by
  induction accepted using List.reverseRecOn with
  | nil => simp [grouped]
  | append_singleton before last ih =>
      have earlier : ∀ one ∈ before, one.kind.typeTag = one.condition.typeTag :=
        fun one member => faithful one (List.mem_append_left _ member)
      rw [grouped_concat before last earlier, ih earlier, List.foldl_concat]

theorem map_key_grouped (accepted : List Accepted)
    (faithful : ∀ one ∈ accepted, one.kind.typeTag = one.condition.typeTag) :
    (grouped accepted).map Entry.key =
      (accepted.map Accepted.key).eraseDups := by
  fun_induction grouped accepted with
  | case1 => rfl
  | case2 first rest ih =>
      obtain ⟨reported, others⟩ := List.forall_mem_cons.1 faithful
      have remaining :=
        ih fun one member => others one (List.mem_filter.1 member).1
      rw [List.map_cons, remaining, key_of_reported reported, List.map_cons,
        List.eraseDups_cons, List.filter_map]
      rfl

theorem Accepted.filter_unlike {first : Accepted} {key : Edge × String}
    (apart : key ≠ first.key) (accepted : List Accepted) :
    (first.unlike accepted).filter (·.key == key) =
      accepted.filter (·.key == key) := by
  rw [unlike, List.filter_filter]
  apply List.filter_congr
  intro one _
  by_cases mine : one.key = key <;> simp [mine, apart]

theorem exists_first_of_mem_grouped {accepted : List Accepted}
    (faithful : ∀ one ∈ accepted, one.kind.typeTag = one.condition.typeTag)
    {entry : Entry} (member : entry ∈ grouped accepted) :
    ∃ first rest, accepted.filter (·.key == Entry.key entry) = first :: rest ∧
      entry.2 = ⟨first.kind, first.kind.kept
        ((first :: rest).map (·.condition.operand))⟩ := by
  fun_induction grouped accepted with
  | case1 => simp at member
  | case2 first rest ih =>
      obtain ⟨reported, others⟩ := List.forall_mem_cons.1 faithful
      rcases List.mem_cons.1 member with rfl | member
      · rw [key_of_reported reported]
        exact ⟨first, first.alike rest, by simp [Accepted.alike], rfl⟩
      · obtain ⟨leader, followers, found, held⟩ :=
          ih (fun one inside => others one (List.mem_filter.1 inside).1) member
        have inside :
            leader ∈ (first.unlike rest).filter (·.key == Entry.key entry) :=
          found ▸ List.mem_cons_self
        have same : leader.key = Entry.key entry := by
          simpa using (List.mem_filter.1 inside).2
        have apart : leader.key ≠ first.key := by
          simpa using (List.mem_filter.1 (List.mem_filter.1 inside).1).2
        rw [same] at apart
        rw [Accepted.filter_unlike apart] at found
        refine ⟨leader, followers, ?_, held⟩
        rw [List.filter_cons_of_neg (by simpa using apart.symm), found]

end EdgeFilters
