import EdgeFilters.Text.Split
import Mathlib.Data.List.TakeWhile

namespace EdgeFilters.Text

variable {delimiter : Char} {text piece rest : List Char}
  {parts : List (List Char)}

def IsPiece (delimiter : Char) (piece : List Char) : Prop :=
  ∃ c rest, piece = c :: rest ∧ delimiter ∉ rest

/-- The ways a text is made of pieces. -/
inductive Cut (delimiter : Char) : List Char → List (List Char) → Prop
  | empty : Cut delimiter [] []
  | last {piece : List Char}
      (single : IsPiece delimiter piece) : Cut delimiter piece [piece]
  | next {piece rest : List Char} {parts : List (List Char)}
      (single : IsPiece delimiter piece) (later : Cut delimiter rest parts) :
      Cut delimiter (piece ++ delimiter :: rest) (piece :: parts)

theorem IsPiece.ne_nil (single : IsPiece delimiter piece) : piece ≠ [] := by
  obtain ⟨c, rest, rfl, -⟩ := single
  exact List.cons_ne_nil c rest

theorem isPiece_cons_iff {c : Char} :
    IsPiece delimiter (c :: rest) ↔ delimiter ∉ rest := by
  constructor
  · rintro ⟨d, tail, whole, free⟩
    obtain ⟨-, rfl⟩ := List.cons.inj whole
    exact free
  · intro free
    exact ⟨c, rest, rfl, free⟩

instance (delimiter : Char) : DecidablePred (IsPiece delimiter)
  | [] => .isFalse fun single => single.ne_nil rfl
  | _ :: _ => decidable_of_iff _ isPiece_cons_iff.symm

theorem isPiece_of_not_mem (filled : piece ≠ []) (free : delimiter ∉ piece) :
    IsPiece delimiter piece := by
  obtain ⟨c, rest, rfl⟩ := List.exists_cons_of_ne_nil filled
  exact ⟨c, rest, rfl, fun member => free (List.mem_cons_of_mem c member)⟩

/-- What stands inside a piece, if it is not empty, is a piece. -/
theorem IsPiece.inside (single : IsPiece delimiter piece)
    (inside : text <:+: piece) (filled : text ≠ []) :
    IsPiece delimiter text := by
  obtain ⟨c, tail, rfl, free⟩ := single
  obtain ⟨before, after, whole⟩ := inside
  obtain ⟨d, rest, rfl⟩ := List.exists_cons_of_ne_nil filled
  refine ⟨d, rest, rfl, fun member => free ?_⟩
  cases before with
  | nil =>
      obtain ⟨-, rfl⟩ := List.cons.inj whole
      exact List.mem_append_left after member
  | cons e before =>
      obtain ⟨-, rfl⟩ := List.cons.inj whole
      exact List.mem_append_left after
        (List.mem_append_right before (List.mem_cons_of_mem d member))

theorem pieces_of_isPiece (single : IsPiece delimiter piece) :
    pieces delimiter piece = [piece] := by
  obtain ⟨c, rest, rfl, free⟩ := single
  have passed : ∀ x ∈ rest, (x != delimiter) = true := by
    rintro x member
    exact bne_iff_ne.2 fun same => free (same ▸ member)
  rw [pieces_cons, List.takeWhile_eq_self_iff.2 passed,
    List.dropWhile_eq_nil_iff.2 passed]
  simp

theorem pieces_cut (single : IsPiece delimiter piece) (rest : List Char) :
    pieces delimiter (piece ++ delimiter :: rest) =
      piece :: pieces delimiter rest := by
  obtain ⟨c, tail, rfl, free⟩ := single
  have passed : ∀ x ∈ tail, (x != delimiter) = true := by
    rintro x member
    exact bne_iff_ne.2 fun same => free (same ▸ member)
  rw [List.cons_append, pieces_cons, List.takeWhile_append_of_pos passed,
    List.dropWhile_append_of_pos passed]
  simp

theorem Cut.pieces_eq (cut : Cut delimiter text parts) :
    pieces delimiter text = parts := by
  induction cut with
  | empty => exact pieces_nil delimiter
  | last single => exact pieces_of_isPiece single
  | next single _ ih => rw [pieces_cut single, ih]

theorem cut_pieces (delimiter : Char) (text : List Char) :
    Cut delimiter text (pieces delimiter text) := by
  fun_induction pieces delimiter text with
  | case1 => exact .empty
  | case2 c rest ih =>
      have free : delimiter ∉ rest.takeWhile (· != delimiter) := by
        intro member
        simpa using List.mem_takeWhile_imp member
      have single : IsPiece delimiter (c :: rest.takeWhile (· != delimiter)) :=
        ⟨c, _, rfl, free⟩
      have whole := rest.takeWhile_append_dropWhile (p := (· != delimiter))
      cases stopped : rest.dropWhile (· != delimiter) with
      | nil =>
          rw [stopped, List.append_nil] at whole
          rw [whole] at single ⊢
          rw [List.drop_nil, pieces_nil]
          exact .last single
      | cons d tail =>
          have stop : d = delimiter := by
            have filled : rest.dropWhile (· != delimiter) ≠ [] := by
              simp [stopped]
            simpa [stopped]
              using List.head_dropWhile_not (· != delimiter) filled
          have shape :
              c :: rest = (c :: rest.takeWhile (· != delimiter)) ++
                d :: tail := by
            rw [stopped] at whole
            rw [List.cons_append, whole]
          rw [stopped] at ih
          rw [shape, stop]
          exact .next single ih

/-- Proofs about the pieces of a text go by the ways that it can be cut. -/
theorem exists_cut (delimiter : Char) (text : List Char) :
    ∃ parts, Cut delimiter text parts :=
  ⟨_, cut_pieces delimiter text⟩

theorem Cut.isPiece_of_mem (cut : Cut delimiter text parts)
    (member : piece ∈ parts) : IsPiece delimiter piece := by
  induction cut with
  | empty => simp at member
  | last single =>
      rw [List.mem_singleton.1 member]
      exact single
  | next single _ ih =>
      rcases List.mem_cons.1 member with rfl | member
      · exact single
      · exact ih member

theorem isPiece_of_mem_pieces (member : piece ∈ pieces delimiter text) :
    IsPiece delimiter piece :=
  (cut_pieces delimiter text).isPiece_of_mem member

theorem isInfix_of_mem_pieces (member : piece ∈ pieces delimiter text) :
    piece <:+: text := by
  have cut := cut_pieces delimiter text
  generalize pieces delimiter text = parts at cut member
  induction cut with
  | empty => simp at member
  | last =>
      rcases List.mem_singleton.1 member with rfl
      exact List.infix_rfl
  | next _ _ ih =>
      rcases List.mem_cons.1 member with rfl | member
      · exact (List.prefix_append piece _).isInfix
      · exact (ih member).trans
          ((List.suffix_cons delimiter _).trans
            (List.suffix_append _ _)).isInfix

theorem pieces_eq_nil_iff : pieces delimiter text = [] ↔ text = [] := by
  cases text with
  | nil => simp
  | cons c rest => simp [pieces_cons]

theorem splitChars_of_present {delimiters : List Char}
    (present : delimiters.filter (text.contains ·) = [delimiter]) :
    splitChars text delimiters = pieces delimiter text := by
  rw [splitChars, present]
  simp

theorem splitChars_singleton (text : List Char) (delimiter : Char) :
    splitChars text [delimiter] = pieces delimiter text := by
  by_cases present : delimiter ∈ text
  · exact splitChars_of_present
      (List.filter_cons_of_pos (by simpa using present))
  · cases text with
    | nil => simp [splitChars]
    | cons c rest =>
        rw [pieces_of_isPiece
          (isPiece_of_not_mem (List.cons_ne_nil c rest) present)]
        rw [splitChars, List.filter_cons_of_neg (by simpa using present)]
        rfl

theorem split_eq_iff {source delimiters : String} {tokens : List String} :
    split source delimiters = tokens ↔
      splitChars source.toList delimiters.toList =
        tokens.map String.toList := by
  unfold split
  constructor
  · rintro rfl
    simp [Function.comp_def]
  · intro same
    rw [same, List.map_map]
    simp [Function.comp_def]

/-- The text is its pieces with delimiters between them: no delimiter behind the
last piece was dropped, so a further one would be. -/
def Closed (delimiter : Char) (text : List Char) : Prop :=
  text ≠ [] ∧ [delimiter].intercalate (pieces delimiter text) = text

theorem closed_of_isPiece (single : IsPiece delimiter piece) :
    Closed delimiter piece := by
  refine ⟨single.ne_nil, ?_⟩
  rw [pieces_of_isPiece single, List.intercalate_singleton]

theorem closed_cut_iff (single : IsPiece delimiter piece) :
    Closed delimiter (piece ++ delimiter :: rest) ↔ Closed delimiter rest := by
  unfold Closed
  rw [pieces_cut single]
  by_cases filled : rest = []
  · simp [filled]
  · have parted : pieces delimiter rest ≠ [] :=
      fun empty => filled (pieces_eq_nil_iff.1 empty)
    rw [List.intercalate_cons_of_ne_nil parted, List.append_assoc,
      List.append_cancel_left_eq]
    simp [filled]

theorem pieces_append_of_closed (closed : Closed delimiter text)
    (rest : List Char) :
    pieces delimiter (text ++ delimiter :: rest) =
      pieces delimiter text ++ pieces delimiter rest := by
  obtain ⟨parts, cut⟩ := exists_cut delimiter text
  induction cut with
  | empty => exact (closed.1 rfl).elim
  | last single =>
      rw [pieces_cut single, pieces_of_isPiece single, List.singleton_append]
  | next single _ ih =>
      rw [List.append_assoc, List.cons_append, pieces_cut single,
        pieces_cut single, ih ((closed_cut_iff single).1 closed),
        List.cons_append]

theorem pieces_append_of_not_closed (opened : ¬ Closed delimiter text)
    (rest : List Char) :
    pieces delimiter (text ++ delimiter :: rest) =
      pieces delimiter text ++ pieces delimiter (delimiter :: rest) := by
  obtain ⟨parts, cut⟩ := exists_cut delimiter text
  induction cut with
  | empty => rw [pieces_nil, List.nil_append, List.nil_append]
  | last single => exact (opened (closed_of_isPiece single)).elim
  | next single _ ih =>
      rw [closed_cut_iff single] at opened
      rw [List.append_assoc, List.cons_append, pieces_cut single,
        pieces_cut single, ih opened, List.cons_append]

theorem pieces_intercalate
    (singles : ∀ piece ∈ parts, IsPiece delimiter piece) :
    pieces delimiter ([delimiter].intercalate parts) = parts := by
  induction parts with
  | nil => rw [List.intercalate_nil, pieces_nil]
  | cons piece parts ih =>
      obtain ⟨single, others⟩ := List.forall_mem_cons.1 singles
      cases parts with
      | nil => rw [List.intercalate_singleton, pieces_of_isPiece single]
      | cons next parts =>
          rw [List.intercalate_cons_cons, List.append_assoc,
            List.singleton_append, pieces_cut single, ih others]

end EdgeFilters.Text
