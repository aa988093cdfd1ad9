import EdgeFilters.Proofs.Pieces

namespace EdgeFilters.Text

variable {delimiter : Char} {text piece first second : List Char}
  {parts : List (List Char)} {source : String} {tokens : List String}

theorem Cut.layout (cut : Cut delimiter text parts) :
    text = [delimiter].intercalate parts ∨
      parts ≠ [] ∧ text = [delimiter].intercalate parts ++ [delimiter] := by
  induction cut with
  | empty => exact .inl rfl
  | last single => exact .inl List.intercalate_singleton.symm
  | @next piece rest parts _ later ih =>
      cases parts with
      | nil =>
          cases later
          right
          rw [List.intercalate_singleton]
          exact ⟨List.cons_ne_nil _ _, rfl⟩
      | cons other others =>
          rw [List.intercalate_cons_cons, List.append_assoc, List.append_assoc]
          rcases ih with whole | ⟨-, dropped⟩
          · left
            rw [List.singleton_append, ← whole]
          · right
            rw [List.singleton_append, List.cons_append, ← dropped]
            exact ⟨List.cons_ne_nil _ _, rfl⟩

theorem closed_intercalate (filled : parts ≠ [])
    (singles : ∀ piece ∈ parts, IsPiece delimiter piece) :
    Closed delimiter ([delimiter].intercalate parts) := by
  have split := pieces_intercalate singles
  constructor
  · intro empty
    rw [empty, pieces_nil] at split
    exact filled split.symm
  · rw [split]

theorem pieces_intercalate_append (filled : parts ≠ [])
    (singles : ∀ piece ∈ parts, IsPiece delimiter piece) :
    pieces delimiter ([delimiter].intercalate parts ++ [delimiter]) =
      parts := by
  rw [pieces_append_of_closed (closed_intercalate filled singles), pieces_nil,
    List.append_nil, pieces_intercalate singles]

theorem pieces_eq_iff :
    pieces delimiter text = parts ↔
      (∀ piece ∈ parts, IsPiece delimiter piece) ∧
        (text = [delimiter].intercalate parts ∨
          parts ≠ [] ∧
            text = [delimiter].intercalate parts ++ [delimiter]) := by
  constructor
  · rintro rfl
    exact ⟨fun _ => isPiece_of_mem_pieces, (cut_pieces delimiter text).layout⟩
  · rintro ⟨singles, rfl | ⟨filled, rfl⟩⟩
    · exact pieces_intercalate singles
    · exact pieces_intercalate_append filled singles

theorem pieces_eq_singleton_iff :
    pieces delimiter text = [piece] ↔
      IsPiece delimiter piece ∧
        (text = piece ∨ text = piece ++ [delimiter]) := by
  simp [pieces_eq_iff]

/-- The source is the tokens with delimiters between them, and perhaps
with one behind. -/
structure Decomposes (delimiter : Char) (source : String)
    (tokens : List String) : Prop where
  singles : ∀ token ∈ tokens, IsPiece delimiter token.toList
  layout : source = (String.singleton delimiter).intercalate tokens ∨
    tokens ≠ [] ∧
      source = (String.singleton delimiter).intercalate tokens ++
        String.singleton delimiter

theorem split_singleton (source : String) (delimiter : Char) :
    split source (String.singleton delimiter) =
      (pieces delimiter source.toList).map String.ofList := by
  rw [split, String.toList_singleton, splitChars_singleton]

theorem split_singleton_eq_iff :
    split source (String.singleton delimiter) = tokens ↔
      pieces delimiter source.toList = tokens.map String.toList := by
  rw [split_eq_iff, String.toList_singleton, splitChars_singleton]

theorem toList_intercalate_singleton (tokens : List String) (delimiter : Char) :
    ((String.singleton delimiter).intercalate tokens).toList =
      [delimiter].intercalate (tokens.map String.toList) := by
  rw [String.toList_intercalate, String.toList_singleton]

theorem split_eq_iff_decomposes :
    split source (String.singleton delimiter) = tokens ↔
      Decomposes delimiter source tokens := by
  have singles : (∀ piece ∈ tokens.map String.toList, IsPiece delimiter piece) ↔
      ∀ token ∈ tokens, IsPiece delimiter token.toList := List.forall_mem_map
  have whole :
      source.toList = [delimiter].intercalate (tokens.map String.toList) ↔
      source = (String.singleton delimiter).intercalate tokens := by
    rw [← toList_intercalate_singleton, String.toList_inj]
  have dropped :
      source.toList = [delimiter].intercalate (tokens.map String.toList) ++
        [delimiter] ↔
        source =
          (String.singleton delimiter).intercalate tokens ++
            String.singleton delimiter := by
    rw [← toList_intercalate_singleton, ← String.toList_singleton,
      ← String.toList_append, String.toList_inj]
  rw [split_singleton_eq_iff, pieces_eq_iff, singles, whole, dropped, ne_eq,
    List.map_eq_nil_iff]
  constructor
  · intro found
    exact ⟨found.1, found.2⟩
  · intro found
    exact ⟨found.singles, found.layout⟩

/-- At one delimiter a source is split into tokens that are not empty and hold
the delimiter at most in front, and that give the source back with delimiters
between them and at most one behind; no other tokens do so. Any such tokens are
what their join is split into, with a delimiter behind it or without. -/
theorem split_decomposes (delimiter : Char) :
    (∀ source,
      Decomposes delimiter source (split source (String.singleton delimiter)) ∧
        ∀ tokens, Decomposes delimiter source tokens →
          tokens = split source (String.singleton delimiter)) ∧
    ∀ tokens, (∀ token ∈ tokens, IsPiece delimiter token.toList) →
      split ((String.singleton delimiter).intercalate tokens)
        (String.singleton delimiter) =
          tokens ∧
        (tokens ≠ [] →
          split ((String.singleton delimiter).intercalate tokens ++
            String.singleton delimiter)
            (String.singleton delimiter) = tokens) := by
  refine ⟨fun source => ⟨?_, fun tokens found => ?_⟩,
    fun tokens singles => ⟨?_, fun filled => ?_⟩⟩
  · exact split_eq_iff_decomposes.1 rfl
  · exact (split_eq_iff_decomposes.2 found).symm
  · apply split_eq_iff_decomposes.2
    exact ⟨singles, .inl rfl⟩
  · apply split_eq_iff_decomposes.2
    exact ⟨singles, .inr ⟨filled, rfl⟩⟩

theorem split_decomposes_doubled :
    let tokens := [",a", ",", "b c"]
    let source := ",a,,,b c,"
    (∀ token ∈ tokens, IsPiece ',' token.toList) ∧ tokens ≠ [] ∧
      (String.singleton ',').intercalate tokens ++
        String.singleton ',' = source ∧
      Decomposes ',' source tokens ∧
        tokens = split source (String.singleton ',') ∧
      split ((String.singleton ',').intercalate tokens) (String.singleton ',') =
        tokens := by
  intro tokens source
  obtain ⟨decomposed, joined⟩ := split_decomposes ','
  have singles : ∀ token ∈ tokens, IsPiece ',' token.toList := by
    decide +kernel +zetaReduce
  have layout :
      (String.singleton ',').intercalate tokens ++ String.singleton ',' =
        source := by
    decide +kernel +zetaReduce
  have filled : tokens ≠ [] := List.cons_ne_nil _ _
  have found : Decomposes ',' source tokens :=
    ⟨singles, .inr ⟨filled, layout.symm⟩⟩
  exact ⟨singles, filled, layout, found, (decomposed source).2 tokens found,
    (joined tokens singles).1⟩

end EdgeFilters.Text
