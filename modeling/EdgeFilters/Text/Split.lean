namespace EdgeFilters.Text

/-- The pieces of one pass. A piece takes its first character whatever that is,
so a leading or doubled delimiter stays; it ends before the next delimiter,
which is dropped. -/
def pieces (delimiter : Char) : List Char → List (List Char)
  | [] => []
  | c :: rest =>
      (c :: rest.takeWhile (· != delimiter)) ::
        pieces delimiter ((rest.dropWhile (· != delimiter)).drop 1)
termination_by text => text.length
decreasing_by
  have shorter : (rest.dropWhile (· != delimiter)).length ≤ rest.length :=
    (List.dropWhile_sublist _).length_le
  simp only [List.length_drop, List.length_cons]
  omega

@[simp] theorem pieces_nil (delimiter : Char) : pieces delimiter [] = [] := by
  rw [pieces]

theorem pieces_cons (delimiter c : Char) (rest : List Char) :
    pieces delimiter (c :: rest) =
      (c :: rest.takeWhile (· != delimiter)) ::
        pieces delimiter ((rest.dropWhile (· != delimiter)).drop 1) := by
  rw [pieces]

/-- Every delimiter that occurs makes a pass over the whole text, one after the
other. A text that holds none of them is one piece, an empty text none. -/
def splitChars (text delimiters : List Char) : List (List Char) :=
  let present := delimiters.filter (text.contains ·)
  if present.isEmpty then
    if text.isEmpty then [] else [text]
  else
    present.flatMap (pieces · text)

def split (text delimiters : String) : List String :=
  (splitChars text.toList delimiters.toList).map String.ofList

end EdgeFilters.Text
