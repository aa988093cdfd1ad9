namespace EdgeFilters.Yaml

/-- A place in a text, counted from zero. The length of a key is limited in
octets, so those of its line are counted too. -/
structure Mark where
  line : Nat
  column : Nat
  octets : Nat
  deriving DecidableEq, Repr

/-- The characters a document may be made of. -/
def isAllowed (c : Char) : Bool :=
  let code := c.toNat
  code == 0x09 || code == 0x0a || code == 0x0d ||
    (0x20 ≤ code && code ≤ 0x7e) ||
    code == 0x85 || (0xa0 ≤ code && code ≤ 0xd7ff) ||
      (0xe000 ≤ code && code ≤ 0xfffd) ||
    0x10000 ≤ code

/-- Line breaks of more than one spelling become line feeds. -/
def normalizeBreaks : List Char → List Char
  | '\r' :: '\n' :: rest => '\n' :: normalizeBreaks rest
  | '\r' :: rest => '\n' :: normalizeBreaks rest
  | '\u0085' :: rest => '\n' :: normalizeBreaks rest
  | c :: rest => c :: normalizeBreaks rest
  | [] => []

/-- A line feed, or one of the two separators that keep their identity. -/
def isBreak (c : Char) : Bool :=
  c == '\n' || c == '\u2028' || c == '\u2029'

def isSpace (c : Char) : Bool :=
  c == ' ' || c == '\t'

/-- A space, a tab or a line break. -/
def isGap (c : Char) : Bool :=
  isSpace c || isBreak c

/-- The characters of anchor names, tag handles and directive names. -/
def isWord (c : Char) : Bool :=
  c.isAlphanum || c == '_' || c == '-'

/-- The punctuation of flow collections. -/
def isFlowIndicator (c : Char) : Bool :=
  c == ',' || c == '[' || c == ']' || c == '\x7b' || c == '\x7d'

/-- Nothing follows but a gap or the end. -/
def startsGap : List Char → Bool
  | [] => true
  | c :: _ => isGap c

namespace Mark

def lineStart (line : Nat) : Mark := ⟨line, 0, 0⟩

def start : Mark := lineStart 0

def next (mark : Mark) (c : Char) : Mark :=
  if isBreak c then lineStart (mark.line + 1)
  else ⟨mark.line, mark.column + 1, mark.octets + c.utf8Size⟩

def after (mark : Mark) (text : List Char) : Mark :=
  text.foldl next mark

@[simp] theorem after_nil (mark : Mark) : mark.after [] = mark := rfl

@[simp] theorem after_cons (mark : Mark) (c : Char) (rest : List Char) :
    mark.after (c :: rest) = (mark.next c).after rest := rfl

theorem after_append (mark : Mark) (front back : List Char) :
    mark.after (front ++ back) = (mark.after front).after back :=
  List.foldl_append ..

theorem next_of_not_isBreak {c : Char} (unbroken : isBreak c = false)
    (mark : Mark) :
    mark.next c = ⟨mark.line, mark.column + 1, mark.octets + c.utf8Size⟩ := by
  simp [next, unbroken]

end Mark

structure Cursor where
  mark : Mark
  rest : List Char
  deriving DecidableEq, Repr

namespace Cursor

def advance (cursor : Cursor) (count : Nat) : Cursor :=
  ⟨cursor.mark.after (cursor.rest.take count), cursor.rest.drop count⟩

def skipWhile (cursor : Cursor) (p : Char → Bool) : Cursor :=
  ⟨cursor.mark.after (cursor.rest.takeWhile p), cursor.rest.dropWhile p⟩

def skipSpaces (cursor : Cursor) : Cursor := cursor.skipWhile isSpace

def skipLine (cursor : Cursor) : Cursor := cursor.skipWhile fun c => !isBreak c

end Cursor

/-- Three dashes or three points stand alone at the start of a line. -/
def isDocumentMarker (indicator : Char) (mark : Mark) (text : List Char) :
    Bool :=
  mark.column == 0 && text.take 3 == [indicator, indicator, indicator] &&
    startsGap (text.drop 3)

/-- A document starts or ends here, even within a scalar. -/
def atDocumentMarker (mark : Mark) (text : List Char) : Bool :=
  isDocumentMarker '-' mark text || isDocumentMarker '.' mark text

end EdgeFilters.Yaml
