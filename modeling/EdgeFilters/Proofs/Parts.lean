import EdgeFilters.Condition
import EdgeFilters.Proofs.Pieces
import EdgeFilters.Proofs.Trimming
import Mathlib.Data.List.Nodup

namespace EdgeFilters.Condition

open Text (IsPiece)

variable {text expression : String} {condition : Condition} {operator : Char}

theorem separators_toList : separators.toList = [','] := by decide

theorem texts_eq_pieces (expression : String) :
    texts expression =
      (Text.pieces ',' expression.toList).map String.ofList := by
  rw [texts, Text.split, separators_toList, Text.splitChars_singleton]

theorem texts_intercalate {parts : List String}
    (singles : ∀ part ∈ parts, IsPiece ',' part.toList) :
    texts (separators.intercalate parts) = parts := by
  have pieces : Text.pieces ',' ([','].intercalate (parts.map String.toList)) =
      parts.map String.toList := by
    apply Text.pieces_intercalate
    intro piece member
    obtain ⟨part, inside, rfl⟩ := List.mem_map.1 member
    exact singles part inside
  rw [texts_eq_pieces, String.toList_intercalate, separators_toList, pieces,
    List.map_map]
  simp [Function.comp_def]

theorem parse?_eq_some_iff_split :
    parse? text = some condition ↔
      ∃ first second, Text.split text operators = [first, second] ∧
        Text.trim first ≠ "" ∧
        Text.trim second ≠ "" ∧
          condition = ⟨Text.trim first, Text.trim second⟩ := by
  unfold parse?
  rcases Text.split text operators with _ | ⟨first, _ | ⟨second, _ | _⟩⟩
  · simp
  · simp
  · simp only [List.map_cons, List.map_nil, Bool.or_eq_true, String.isEmpty_iff,
      Option.ite_none_left_eq_some, not_or, Option.some.injEq,
      List.cons.injEq, and_true, ↓existsAndEq, exists_eq_left', ne_eq]
    constructor
    · rintro ⟨⟨named, filled⟩, rfl⟩
      exact ⟨named, filled, rfl⟩
    · rintro ⟨named, filled, rfl⟩
      exact ⟨⟨named, filled⟩, rfl⟩
  · simp

theorem parse?_eq_some_iff :
    parse? text = some condition ↔
      ∃ first second,
        Text.splitChars text.toList operators.toList = [first, second] ∧
        Text.trimChars first = condition.typeTag.toList ∧
        Text.trimChars second = condition.operand.toList ∧
        condition.typeTag ≠ "" ∧ condition.operand ≠ "" := by
  rw [parse?_eq_some_iff_split]
  constructor
  · rintro ⟨first, second, parts, named, filled, rfl⟩
    exact ⟨first.toList, second.toList,
      Text.split_eq_iff.1
        parts, by simp [Text.trim], by simp [Text.trim], named, filled⟩
  · rintro ⟨first, second, parts, tagged, given, named, filled⟩
    have typeTag : Text.trim (String.ofList first) = condition.typeTag := by
      rw [Text.trim, String.toList_ofList, tagged, String.ofList_toList]
    have operand : Text.trim (String.ofList second) = condition.operand := by
      rw [Text.trim, String.toList_ofList, given, String.ofList_toList]
    have split :
        Text.split text operators =
          [String.ofList first, String.ofList second] :=
      Text.split_eq_iff.2 (by simpa using parts)
    refine ⟨_, _, split, ?_⟩
    rw [typeTag, operand]
    exact ⟨named, filled, rfl⟩

theorem isBlank_of_operator (known : operator ∈ operators.toList) :
    Text.isBlank operator = false := by
  have visible : operators.toList.all (!Text.isBlank ·) = true := by decide
  simpa using List.all_eq_true.1 visible operator known

/-- The operators in a text, in the order of their passes. -/
def occurring (text : String) : List Char :=
  operators.toList.filter (text.toList.contains ·)

theorem mem_occurring :
    operator ∈ occurring text ↔
      operator ∈ operators.toList ∧ operator ∈ text.toList := by
  rw [occurring, List.mem_filter, List.contains_iff_mem]

theorem nodup_occurring (text : String) : (occurring text).Nodup := by
  have distinct : operators.toList.Nodup := by decide
  exact distinct.filter _

/-- The operator stands in the text, and no other does. -/
structure OnlyOperator (operator : Char) (text : String) : Prop where
  known : operator ∈ operators.toList
  only : ∀ other ∈ operators.toList, other ∈ text.toList ↔ other = operator

theorem onlyOperator_iff :
    OnlyOperator operator text ↔ occurring text = [operator] := by
  constructor
  · rintro ⟨known, only⟩
    have distinct : operators.toList.Nodup := by decide
    calc
      occurring text = operators.toList.filter (· == operator) := by
        apply List.filter_congr
        intro other member
        rw [Bool.eq_iff_iff, List.contains_iff_mem, only other member,
          beq_iff_eq]
      _ = [operator] := by
        rw [List.filter_beq, List.count_eq_one_of_mem distinct known,
          List.replicate_one]
  · intro present
    have found (other : Char) :
        other ∈ operators.toList ∧ other ∈ text.toList ↔ other = operator := by
      rw [← mem_occurring, present, List.mem_singleton]
    exact ⟨((found operator).2 rfl).1, fun other known => by
      rw [← found other]; simp [known]⟩

instance (operator : Char) (text : String) :
    Decidable (OnlyOperator operator text) :=
  decidable_of_iff _ onlyOperator_iff.symm

theorem OnlyOperator.splitChars_eq (single : OnlyOperator operator text) :
    Text.splitChars text.toList operators.toList =
      Text.pieces operator text.toList :=
  Text.splitChars_of_present (onlyOperator_iff.1 single)

theorem parse?_of_parts {first second : List Char}
    (layout : text.toList = first ++ operator :: second)
    (single : OnlyOperator operator text) (tagged : IsPiece operator first)
    (given : IsPiece operator second)
    (typeTag : Text.trimChars first = condition.typeTag.toList)
    (operand : Text.trimChars second = condition.operand.toList)
    (named : condition.typeTag ≠ "") (filled : condition.operand ≠ "") :
    parse? text = some condition := by
  refine parse?_eq_some_iff.2 ⟨first, second, ?_, typeTag, operand,
    named, filled⟩
  rw [single.splitChars_eq, layout, Text.pieces_cut tagged,
    Text.pieces_of_isPiece given]

end EdgeFilters.Condition
