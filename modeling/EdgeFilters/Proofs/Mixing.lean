import EdgeFilters.Proofs.Forms
import EdgeFilters.Table

namespace EdgeFilters

namespace Condition

variable {text middle : String} {leading trailing : Char}

theorem Enclosed.ends_of_occurring {c : Char}
    (enclosed : Enclosed leading middle trailing text)
    (found : c ∈ occurring text) : c = leading ∨ c = trailing := by
  obtain ⟨known, inside⟩ := mem_occurring.1 found
  rw [enclosed.toList_eq, List.mem_cons, List.mem_append, List.mem_singleton]
    at inside
  rcases inside with leads | between | trails
  · exact .inl leads
  · exact (enclosed.free c between known).elim
  · exact .inr trails

theorem Enclosed.length_occurring_le
    (enclosed : Enclosed leading middle trailing text) :
    (occurring text).length ≤ 2 := by
  have ends : occurring text ⊆ [leading, trailing] := by
    intro c found
    simpa using enclosed.ends_of_occurring found
  exact (List.subperm_of_subset (nodup_occurring text) ends).length_le

theorem Enclosed.ends_eq {one other : Char}
    (enclosed : Enclosed leading middle trailing text)
    (both : occurring text = [one, other]) :
    leading = one ∧ trailing = other ∨ leading = other ∧ trailing = one := by
  have apart : one ≠ other := ne_of_occurring both
  have first : one = leading ∨ one = trailing :=
    enclosed.ends_of_occurring (by simp [both])
  have second : other = leading ∨ other = trailing :=
    enclosed.ends_of_occurring (by simp [both])
  rcases first with rfl | rfl
  · rcases second with rfl | rfl
    · contradiction
    · exact .inl ⟨rfl, rfl⟩
  · rcases second with rfl | rfl
    · exact .inr ⟨rfl, rfl⟩
    · contradiction

/-- Where operators are mixed, only a text between two of them
is a condition. -/
theorem parse_of_mixed_iff (mixed : 2 ≤ (occurring text).length) :
    parse text = .error (.malformed text) ↔
      ¬ ∃ leading middle trailing, Enclosed leading middle trailing text := by
  rw [parse_eq_error_iff, and_iff_left rfl]
  constructor
  · rintro unread ⟨leading, middle, trailing, enclosed⟩
    obtain ⟨one, other, both⟩ : ∃ one other, occurring text = [one, other] :=
      List.length_eq_two.1 (le_antisymm enclosed.length_occurring_le mixed)
    have parsed := (parse?_of_pair_iff both).2
      ⟨leading, middle, trailing, enclosed.ends_eq both, enclosed, rfl⟩
    rw [unread] at parsed
    contradiction
  · intro apart
    rw [Option.eq_none_iff_forall_ne_some]
    intro condition parsed
    rcases exists_occurring_of_parse? parsed with
      ⟨operator, single⟩ | ⟨one, other, both⟩
    · rw [single] at mixed
      contradiction
    · obtain ⟨leading, middle, trailing, -, enclosed, -⟩ :=
        (parse?_of_pair_iff both).1 parsed
      exact apart ⟨leading, middle, trailing, enclosed⟩

end Condition

namespace Table

variable {text : String}

theorem addConditions_append (table : Table) (edge : Edge)
    (before after : List String) :
    table.addConditions edge (before ++ after) =
      let next := table.addConditions edge before
      let last := next.1.addConditions edge after
      (last.1, next.2 ++ last.2) := by
  induction before generalizing table with
  | nil => rfl
  | cons text rest ih => simp only [List.cons_append, addConditions_cons, ih]

theorem level_addCondition_eq_error_iff (table : Table) (edge : Edge) :
    (table.addCondition edge text).2.level = .error ↔
      Condition.parse text = .error (.malformed text) := by
  unfold addCondition
  cases parsed : Condition.parse text with
  | error error =>
      obtain ⟨-, rfl⟩ := Condition.parse_eq_error_iff.1 parsed
      simp [Log.Record.level]
  | ok condition =>
      dsimp only
      split
      · simp [Log.Record.level]
      · simp [Log.Record.level]
      · simp [Log.Record.level]

theorem addCondition_of_malformed (table : Table) (edge : Edge)
    (malformed : Condition.parse text = .error (.malformed text)) :
    table.addCondition edge text = (table, .rejected (.malformed text)) := by
  rw [addCondition, malformed]

/-- A malformed condition of an expression leaves a record in its place,
and nothing else. -/
theorem addFilter_of_malformed (table : Table) (edge : Edge)
    {expression : String} {before after : List String}
    (malformed : Condition.parse text = .error (.malformed text))
    (conditions : Condition.texts expression = before ++ text :: after) :
    table.addFilter edge expression =
      let next := table.addConditions edge before
      let last := next.1.addConditions edge after
      (last.1, next.2 ++ .rejected (.malformed text) :: last.2) := by
  rw [addFilter, conditions, addConditions_append]
  simp only [addConditions_cons, addCondition_of_malformed _ edge malformed]

/-- A condition with different operators in it is malformed unless it stands
between its two operators. If it is malformed, then that is reported in its
place, and the table is filled with the other conditions of its expression as if
it had not been there. -/
theorem addFilter_of_mixed (text : String)
    (mixed : 2 ≤ (Condition.occurring text).length) :
    let between := ∃ leading middle trailing,
      Condition.Enclosed leading middle trailing text
    (Condition.parse text = .error (.malformed text) ↔ ¬ between) ∧
      (∀ (table : Table) (edge : Edge),
        (table.addCondition edge text).2.level = .error ↔ ¬ between) ∧
      (¬ between → ∀ (table : Table) (edge : Edge),
        table.addCondition edge text = (table, .rejected (.malformed text)) ∧
          ∀ expression before after,
            Condition.texts expression = before ++ text :: after →
            table.addFilter edge expression =
              let next := table.addConditions edge before
              let last := next.1.addConditions edge after
              (last.1, next.2 ++ .rejected (.malformed text) :: last.2)) := by
  intro between
  have malformed_iff : Condition.parse text = .error (.malformed text) ↔
      ¬ between :=
    Condition.parse_of_mixed_iff mixed
  refine ⟨malformed_iff, fun table edge => ?_, fun apart table edge => ⟨?_, ?_⟩⟩
  · exact (table.level_addCondition_eq_error_iff edge).trans malformed_iff
  · exact table.addCondition_of_malformed edge (malformed_iff.2 apart)
  · intro expression before after conditions
    exact table.addFilter_of_malformed edge (malformed_iff.2 apart) conditions

theorem addFilter_of_mixed_inside :
    let text := "Label>a=b"
    let edge : Edge := ⟨"camera", "detector"⟩
    let table := (empty true).register "Label>a" .label
    let expression := "Label=c,Label>a=b,Label=d"
    2 ≤ (Condition.occurring text).length ∧
      (¬ ∃ leading middle trailing,
        Condition.Enclosed leading middle trailing text) ∧
      Condition.texts expression = ["Label=c"] ++ text :: ["Label=d"] ∧
      (table.addCondition edge text).2.level = .error ∧
      (table.addFilter edge expression).1.entries =
        [(edge, ⟨.label, ["c", "d"]⟩)] ∧
      (table.addFilter edge expression).2 =
        [.bound edge ⟨"Label", "c"⟩, .rejected (.malformed text),
          .reused edge ⟨"Label", "d"⟩] := by
  intro text edge table expression
  have mixed : 2 ≤ (Condition.occurring text).length := by
    decide +kernel +zetaReduce
  have conditions :
      Condition.texts expression = ["Label=c"] ++ text :: ["Label=d"] := by
    decide +kernel +zetaReduce
  obtain ⟨malformed, level, skipped⟩ := addFilter_of_mixed text mixed
  have apart := malformed.1 (by decide +kernel +zetaReduce)
  obtain ⟨-, added⟩ := skipped apart table edge
  refine ⟨mixed, apart, conditions, (level table edge).2 apart, ?_, ?_⟩
  · rw [added expression _ _ conditions]
    decide +kernel +zetaReduce
  · rw [added expression _ _ conditions]
    decide +kernel +zetaReduce

/-- Between its two operators a condition is read, and its tag may be unknown or
stand for a kind of solver. -/
theorem addFilter_between_operators :
    let text := "=A>"
    let edge : Edge := ⟨"camera", "detector"⟩
    Condition.occurring text = ['=', '>'] ∧
      Condition.parse text = .ok ⟨"=A>", "=A"⟩ ∧
      ((empty false).addFilter edge text).2 = [.rejected (.unknownType "=A>")] ∧
      (((empty false).register "=A>" .label).addFilter edge text).1.entries =
        [(edge, ⟨.label, ["=A"]⟩)] ∧
      (((empty false).register "=A>" .label).addFilter edge text).2 =
        [.bound edge ⟨"=A>", "=A"⟩] := by
  decide +kernel

end Table

end EdgeFilters
