import EdgeFilters.Proofs.Parts

namespace EdgeFilters.Condition

open Text (IsPiece isBlank)

/-- The character is part of a word: it is no separator and no operator. -/
def isPlain (c : Char) : Bool :=
  !separators.toList.contains c && !operators.toList.contains c

/-- A tag or an operand, with blanks around it. -/
structure Padded where
  before : String
  word : String
  after : String
  blankBefore : ∀ c ∈ before.toList, isBlank c = true
  blankAfter : ∀ c ∈ after.toList, isBlank c = true
  filled : word ≠ ""
  trimmed : Text.Trimmed word.toList
  plain : ∀ c ∈ word.toList, isPlain c = true

structure Written where
  typeTag : Padded
  operator : Char
  operand : Padded
  known : operator ∈ operators.toList

namespace Padded

def text (padded : Padded) : String :=
  padded.before ++ padded.word ++ padded.after

/-- The conditions on a padded word as a check that runs. -/
def check (before word after : String) : Bool :=
  before.toList.all isBlank && after.toList.all isBlank &&
    word.toList.all isPlain &&
    Text.trimChars word.toList == word.toList && word != ""

theorem of_check {before word after : String}
    (checked : check before word after = true) :
    (∀ c ∈ before.toList, isBlank c = true) ∧
      (∀ c ∈ after.toList, isBlank c = true) ∧
      (∀ c ∈ word.toList, isPlain c = true) ∧ Text.Trimmed word.toList ∧
        word ≠ "" := by
  simpa only [check, Bool.and_eq_true, beq_iff_eq, bne_iff_ne, List.all_eq_true,
    ← Text.trimmed_iff, and_assoc] using checked

def ofCheck (before word after : String)
    (checked : check before word after = true) : Padded where
  before
  word
  after
  blankBefore := (of_check checked).1
  blankAfter := (of_check checked).2.1
  filled := (of_check checked).2.2.2.2
  trimmed := (of_check checked).2.2.2.1
  plain := (of_check checked).2.2.1

end Padded

namespace Written

def text (written : Written) : String :=
  written.typeTag.text ++ String.singleton written.operator ++
    written.operand.text

def condition (written : Written) : Condition :=
  ⟨written.typeTag.word, written.operand.word⟩

def expression (conditions : List Written) : String :=
  separators.intercalate (conditions.map text)

end Written

theorem isPlain_iff {c : Char} :
    isPlain c = true ↔ c ∉ separators.toList ∧ c ∉ operators.toList := by
  simp [isPlain]

theorem isPlain_of_isBlank {c : Char} (blank : isBlank c = true) :
    isPlain c = true := by
  have visible : (separators.toList ++ operators.toList).all (!isBlank ·) =
      true := by decide
  rw [List.all_eq_true] at visible
  rw [isPlain_iff]
  constructor
  · intro member
    simpa [blank] using visible c (List.mem_append_left _ member)
  · intro member
    simpa [blank] using visible c (List.mem_append_right _ member)

namespace Padded

variable (padded : Padded)

theorem isPlain_of_mem_text {c : Char} (member : c ∈ padded.text.toList) :
    isPlain c = true := by
  rw [text, String.toList_append, String.toList_append, List.mem_append,
    List.mem_append] at member
  rcases member with (before | inside) | after
  · exact isPlain_of_isBlank (padded.blankBefore c before)
  · exact padded.plain c inside
  · exact isPlain_of_isBlank (padded.blankAfter c after)

theorem not_mem_text {delimiter : Char}
    (separates : isPlain delimiter = false) :
    delimiter ∉ padded.text.toList := by
  intro member
  rw [padded.isPlain_of_mem_text member] at separates
  contradiction

theorem text_ne_nil : padded.text.toList ≠ [] := by
  simp [text, padded.filled]

theorem trimChars_text :
    Text.trimChars padded.text.toList = padded.word.toList := by
  rw [text, String.toList_append, String.toList_append]
  exact Text.trimChars_padded padded.blankBefore padded.blankAfter
    padded.trimmed
    (by simp [padded.filled])

theorem isPiece_text {delimiter : Char}
    (separates : isPlain delimiter = false) :
    IsPiece delimiter padded.text.toList :=
  Text.isPiece_of_not_mem padded.text_ne_nil (padded.not_mem_text separates)

end Padded

theorem isPlain_of_operator {c : Char} (known : c ∈ operators.toList) :
    isPlain c = false := by
  simp [isPlain, known]

namespace Written

variable (written : Written)

theorem text_toList :
    written.text.toList =
      written.typeTag.text.toList ++
        written.operator :: written.operand.text.toList := by
  simp [text]

theorem onlyOperator_text : OnlyOperator written.operator written.text where
  known := written.known
  only := by
    intro other known
    have outside (padded : Padded) : other ∉ padded.text.toList :=
      padded.not_mem_text (isPlain_of_operator known)
    rw [text_toList, List.mem_append, List.mem_cons]
    simp [outside]

theorem isPiece_text : IsPiece ',' written.text.toList := by
  apply Text.isPiece_of_not_mem
  · simp [text_toList]
  · have outside (padded : Padded) : ',' ∉ padded.text.toList :=
      padded.not_mem_text (by decide)
    have apart : ',' ≠ written.operator := by
      intro same
      have known := written.known
      rw [← same] at known
      revert known
      decide
    rw [text_toList, List.mem_append, List.mem_cons]
    simp [outside, apart]

theorem parse_text : parse written.text = .ok written.condition := by
  rw [parse_eq_ok_iff]
  exact parse?_of_parts written.text_toList written.onlyOperator_text
    (written.typeTag.isPiece_text (isPlain_of_operator written.known))
    (written.operand.isPiece_text (isPlain_of_operator written.known))
    written.typeTag.trimChars_text written.operand.trimChars_text
    written.typeTag.filled written.operand.filled

theorem texts_expression (conditions : List Written) :
    texts (expression conditions) = conditions.map text := by
  apply texts_intercalate
  intro part member
  obtain ⟨written, -, rfl⟩ := List.mem_map.1 member
  exact written.isPiece_text

end Written

variable {source : String} {condition : Condition} {operator : Char}

/-- A half of a condition is a piece of it that needs no trimming. -/
theorem half_of_mem_pieces {piece : List Char} {half : String}
    (member : piece ∈ Text.pieces operator source.toList)
    (trimmed : Text.trimChars piece = half.toList) (filled : half ≠ "") :
    IsPiece operator half.toList ∧ Text.trimChars half.toList = half.toList ∧
      half.toList <:+: source.toList := by
  have inside : half.toList <:+: piece := trimmed ▸ Text.trimChars_isInfix piece
  have ends : Text.Trimmed half.toList := trimmed ▸ Text.trimmed_trimChars piece
  refine ⟨?_, Text.trimmed_iff.1 ends,
    inside.trans (Text.isInfix_of_mem_pieces member)⟩
  exact (Text.isPiece_of_mem_pieces member).inside inside
    (by simpa using filled)

theorem parse_rewritten (parsed : parse source = .ok condition)
    (single : OnlyOperator operator source) :
    parse (condition.typeTag ++ String.singleton operator ++
      condition.operand) =
      .ok condition := by
  obtain ⟨first, second, parts, tagged, given, named, filled⟩ :=
    parse?_eq_some_iff.1 (parse_eq_ok_iff.1 parsed)
  rw [single.splitChars_eq] at parts
  have inFront : first ∈ Text.pieces operator source.toList := by simp [parts]
  have behind : second ∈ Text.pieces operator source.toList := by simp [parts]
  obtain ⟨tagPiece, tagTrimmed, tagInside⟩ :=
    half_of_mem_pieces inFront tagged named
  obtain ⟨operandPiece, operandTrimmed, operandInside⟩ :=
    half_of_mem_pieces behind given filled
  have layout :
      (condition.typeTag ++ String.singleton operator ++
        condition.operand).toList =
      condition.typeTag.toList ++ operator :: condition.operand.toList := by
    simp
  have again : OnlyOperator operator
      (condition.typeTag ++ String.singleton operator ++
        condition.operand) := by
    refine ⟨single.known, fun other known => ?_⟩
    rw [layout, List.mem_append, List.mem_cons]
    constructor
    · rintro (member | rfl | member)
      · exact (single.only other known).1 (tagInside.subset member)
      · rfl
      · exact (single.only other known).1 (operandInside.subset member)
    · rintro rfl
      exact .inr (.inl rfl)
  rw [parse_eq_ok_iff]
  exact parse?_of_parts layout again tagPiece operandPiece tagTrimmed
    operandTrimmed named filled

/-- An expression written from conditions has one text for each of them, in
order, from which tag and operand are read back. Whatever is read from a
text with one kind of operator is read again from its tag, that operator
and its operand. -/
theorem read_written (conditions : List Written) :
    (texts (Written.expression conditions)).length = conditions.length ∧
      (texts (Written.expression conditions)).map parse =
        conditions.map (.ok ·.condition) ∧
      ∀ source condition operator, parse source = .ok condition →
        OnlyOperator operator source →
        parse (condition.typeTag ++ String.singleton operator ++
          condition.operand) =
          .ok condition := by
  refine ⟨?_, ?_, fun _ _ _ => parse_rewritten⟩
  · rw [Written.texts_expression, List.length_map]
  · rw [Written.texts_expression, List.map_map]
    apply List.map_congr_left
    intro written _
    exact written.parse_text

theorem read_written_padded :
    let near : Written :=
      { typeTag := .ofCheck "\t" "Near" "\u3000 " (by decide)
        operator := '>'
        operand := .ofCheck "\u00a0" "a b" "" (by decide)
        known := by decide }
    let label : Written :=
      { typeTag := .ofCheck "" "Label" "\n" (by decide)
        operator := '='
        operand := .ofCheck " " "été" " " (by decide)
        known := by decide }
    let source := " Near ==ca="
    (texts (Written.expression [near, label, near])).map parse =
        [.ok ⟨"Near", "a b"⟩, .ok ⟨"Label", "été"⟩, .ok ⟨"Near", "a b"⟩] ∧
      parse source = .ok ⟨"Near", "=ca"⟩ ∧ OnlyOperator '=' source ∧
      parse ("Near" ++ String.singleton '=' ++ "=ca") =
        .ok ⟨"Near", "=ca"⟩ := by
  intro near label source
  obtain ⟨-, read, again⟩ := read_written [near, label, near]
  have parsed : parse source = .ok ⟨"Near", "=ca"⟩ := by
    decide +kernel +zetaReduce
  have single : OnlyOperator '=' source := by decide +kernel +zetaReduce
  exact ⟨read, parsed, single, again source ⟨"Near", "=ca"⟩ '=' parsed single⟩

end EdgeFilters.Condition
