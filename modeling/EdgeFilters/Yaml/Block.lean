import EdgeFilters.Yaml.Fault

/-! Indented lines after a bar, where they are kept, or after an angle bracket,
where they are folded unless they are indented further. -/

namespace EdgeFilters.Yaml.Block

/-- What becomes of the line breaks at the end. -/
inductive Chomping where
  | strip
  | clip
  | keep
  deriving DecidableEq, Repr

structure Header where
  chomping : Chomping := .clip
  /-- The indentation relative to the parent's, if the header gives it. -/
  increment : Option Nat := none
  deriving DecidableEq, Repr

def chomping? : Char → Option Chomping
  | '-' => some .strip
  | '+' => some .keep
  | _ => none

def increment? (c : Char) : Option Nat :=
  if '1' ≤ c ∧ c ≤ '9' then some (c.toNat - '0'.toNat) else none

/-- The two marks of a header come in either order; the number of characters
they take is returned with them. -/
def Header.read (text : List Char) : Header × Nat :=
  let first := text.head?
  let second := text.tail.head?
  match first.bind chomping?, first.bind increment? with
  | some chomping, _ =>
      match second.bind increment? with
      | some increment => (⟨chomping, some increment⟩, 2)
      | none => (⟨chomping, none⟩, 1)
  | none, some increment =>
      match second.bind chomping? with
      | some chomping => (⟨chomping, some increment⟩, 2)
      | none => (⟨.clip, some increment⟩, 1)
  | none, none => ({}, 0)

/-- The widest indentation of the lines up to the first that is not empty; no
tab may stand in them. -/
def leadingIndent? (widest column : Nat) : List Char → Option Nat
  | [] => some (max widest column)
  | c :: rest =>
      if c == ' ' then leadingIndent? widest (column + 1) rest
      else if c == '\t' then none
      else if isBreak c then leadingIndent? (max widest column) 0 rest
      else some (max widest column)

/-- The lines read so far. -/
structure Lines where
  /-- The characters, latest first. -/
  read : List Char := []
  /-- The break after the last line that is not empty. -/
  lineBreak : Option Char := none
  /-- The breaks of the empty lines behind it. -/
  emptyLines : List Char := []
  /-- Whether that line starts with a space. -/
  startsBlank : Bool := false
  /-- Whether that line is still being read. -/
  inLine : Bool := false

/-- A line starts with the character `c`. The break before it folds between two
lines that both start with something else than a space. -/
def Lines.startLine (lines : Lines) (literal : Bool) (c : Char) : Lines :=
  let folds := !literal && lines.lineBreak == some '\n' && !lines.startsBlank &&
    !isSpace c
  let joint :=
    if folds then
      if lines.emptyLines.isEmpty then [' '] else lines.emptyLines
    else lines.lineBreak.toList ++ lines.emptyLines
  { read := c :: joint.reverse ++ lines.read
    startsBlank := isSpace c
    inLine := true }

def Lines.text (lines : Lines) (chomping : Chomping) : String :=
  let ending :=
    match chomping with
    | .strip => []
    | .clip => lines.lineBreak.toList
    | .keep => lines.lineBreak.toList ++ lines.emptyLines
  .ofList (lines.read.reverse ++ ending)

/-- Reads lines that are indented by `indent` up to the first that
is indented less. -/
def scan (literal : Bool) (indent : Nat) (mark : Mark) (lines : Lines) :
    List Char → Reading (Lines × Cursor)
  | [] => .ok (lines, ⟨mark, []⟩)
  | c :: rest =>
      if lines.inLine then
        let lines :=
          if isBreak c then { lines with lineBreak := some c, inLine := false }
          else { lines with read := c :: lines.read }
        scan literal indent (mark.next c) lines rest
      else if mark.column < indent && c == ' ' then
        scan literal indent (mark.next c) lines rest
      else if mark.column < indent && c == '\t' then
        fault mark .tabInIndentation
      else if isBreak c then
        let lines := { lines with emptyLines := lines.emptyLines ++ [c] }
        scan literal indent (mark.next c) lines rest
      else if mark.column == indent then
        scan literal indent (mark.next c) (lines.startLine literal c) rest
      else .ok (lines, ⟨mark, c :: rest⟩)

/-- The scalar whose header starts at the cursor. `parent` is the column of the
block collection around it. -/
def read (literal : Bool) (parent : Option Nat) (cursor : Cursor) :
    Reading (String × Cursor) := do
  let (header, width) := Header.read cursor.rest
  let cursor := (cursor.advance width).skipSpaces
  let cursor := if cursor.rest.head? == some '#' then
    cursor.skipLine else cursor
  if cursor.rest.head?.any (!isBreak ·) then fault cursor.mark .blockHeader
  else
    let cursor := cursor.advance 1
    let indent ←
      match header.increment, leadingIndent? 0 0 cursor.rest with
      | some increment, _ => pure (parent.getD 0 + increment)
      | none, some widest => pure (max widest (max (parent.elim 0 (· + 1)) 1))
      | none, none => fault cursor.mark .tabInIndentation
    let (lines, next) ← scan literal indent cursor.mark {} cursor.rest
    pure (lines.text header.chomping, next)

end EdgeFilters.Yaml.Block
