import EdgeFilters.Proofs.History
import EdgeFilters.Proofs.Parts

namespace EdgeFilters

namespace Condition

/-- The expression is its conditions with commas between them: no comma behind
the last one was dropped. -/
def IsJoin (expression : String) : Prop :=
  expression ≠ "" ∧ separators.intercalate (texts expression) = expression

instance (expression : String) : Decidable (IsJoin expression) :=
  inferInstanceAs (Decidable (_ ∧ _))

variable {first : String}

theorem isJoin_iff_closed : IsJoin first ↔ Text.Closed ',' first.toList := by
  have joined : (separators.intercalate (texts first)).toList =
      [','].intercalate (Text.pieces ',' first.toList) := by
    rw [texts_eq_pieces, String.toList_intercalate, separators_toList,
      List.map_map]
    simp [Function.comp_def]
  rw [IsJoin, Text.Closed, ← joined, String.toList_inj, ne_eq, ne_eq,
    String.toList_eq_nil_iff]

theorem toList_joined (first second : String) :
    (first ++ separators ++ second).toList =
      first.toList ++ ',' :: second.toList := by
  rw [String.toList_append, String.toList_append, separators_toList,
    List.append_assoc, List.singleton_append]

theorem texts_append_of_isJoin (join : IsJoin first) (second : String) :
    texts (first ++ separators ++ second) = texts first ++ texts second := by
  simp only [texts_eq_pieces, toList_joined, ← List.map_append,
    Text.pieces_append_of_closed (isJoin_iff_closed.1 join)]

theorem texts_append_of_not_isJoin (swallowed : ¬ IsJoin first)
    (second : String) :
    texts (first ++ separators ++ second) =
      texts first ++ texts (separators ++ second) := by
  have behind : (separators ++ second).toList = ',' :: second.toList := by
    rw [String.toList_append, separators_toList, List.singleton_append]
  rw [isJoin_iff_closed] at swallowed
  simp only [texts_eq_pieces, toList_joined, behind, ← List.map_append,
    Text.pieces_append_of_not_closed swallowed]

end Condition

namespace Table

theorem addFilter_of_texts_append (table : Table) (edge : Edge)
    {whole first second : String}
    (split : Condition.texts whole = Condition.texts first ++
      Condition.texts second) :
    table.addFilter edge whole =
      let next := table.addFilter edge first
      let last := next.1.addFilter edge second
      (last.1, next.2 ++ last.2) := by
  have moves : Move.ofExpression edge whole =
      Move.ofExpression edge first ++ Move.ofExpression edge second := by
    simp only [Move.ofExpression, split, List.map_append]
  simp only [addFilter_eq_play, moves, play_append]

/-- The conditions of two expressions around a comma are those of the first and
then those of the second, with the comma in front of the second where the first
has swallowed one of its own; adding both at once leaves the same table and the
same records as adding the two in turn. -/
theorem addFilter_joined (first second : String) :
    (Condition.IsJoin first →
      Condition.texts (first ++ "," ++ second) =
          Condition.texts first ++ Condition.texts second ∧
        ∀ (table : Table) (edge : Edge),
          table.addFilter edge (first ++ "," ++ second) =
            let next := table.addFilter edge first
            let last := next.1.addFilter edge second
            (last.1, next.2 ++ last.2)) ∧
    (¬ Condition.IsJoin first →
      Condition.texts (first ++ "," ++ second) =
          Condition.texts first ++ Condition.texts ("," ++ second) ∧
        ∀ (table : Table) (edge : Edge),
          table.addFilter edge (first ++ "," ++ second) =
            let next := table.addFilter edge first
            let last := next.1.addFilter edge ("," ++ second)
            (last.1, next.2 ++ last.2)) := by
  refine ⟨fun join => ?_, fun swallowed => ?_⟩
  · have split := Condition.texts_append_of_isJoin join second
    exact ⟨split, fun table edge => table.addFilter_of_texts_append edge split⟩
  · have split := Condition.texts_append_of_not_isJoin swallowed second
    exact ⟨split, fun table edge => table.addFilter_of_texts_append edge split⟩

theorem addFilter_joined_doubled :
    let table := empty true
    let edge : Edge := ⟨"camera", "detector"⟩
    let first := "Label=a,,Label=b"
    let trailing := "Label=a,"
    let second := "Label=c,Near=d"
    Condition.IsJoin first ∧ ¬ Condition.IsJoin trailing ∧
      Condition.texts (first ++ "," ++ second) =
        ["Label=a", ",Label=b", "Label=c", "Near=d"] ∧
      Condition.texts (trailing ++ "," ++ second) =
        ["Label=a", ",Label=c", "Near=d"] ∧
      (table.addFilter edge (first ++ "," ++ second)).1.entries =
        [(edge, ⟨.label, ["a", "c"]⟩)] ∧
      (table.addFilter edge (first ++ "," ++ second)).2 =
        [.bound edge ⟨"Label", "a"⟩, .rejected (.unknownType ",Label"),
         .reused edge ⟨"Label", "c"⟩, .rejected (.unknownType "Near")] := by
  intro table edge first trailing second
  have join : Condition.IsJoin first := by decide +kernel +zetaReduce
  have swallowed : ¬ Condition.IsJoin trailing := by decide +kernel +zetaReduce
  obtain ⟨split, inTurn⟩ := (addFilter_joined first second).1 join
  obtain ⟨splitTrailing, -⟩ := (addFilter_joined trailing second).2 swallowed
  refine ⟨join, swallowed, split.trans ?_, splitTrailing.trans ?_, ?_, ?_⟩
  · decide +kernel +zetaReduce
  · decide +kernel +zetaReduce
  · rw [inTurn table edge]
    decide +kernel +zetaReduce
  · rw [inTurn table edge]
    decide +kernel +zetaReduce

end Table

end EdgeFilters
