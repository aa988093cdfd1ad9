import EdgeFilters.Yaml.Block
import EdgeFilters.Yaml.Plain
import EdgeFilters.Yaml.Quoted
import EdgeFilters.Yaml.Tag

/-! From characters to tokens. A key without a question mark is known only by
the colon behind it, so every place where one may start is remembered. -/

namespace EdgeFilters.Yaml

/-- A place where a key may have started. -/
structure KeyCandidate where
  mark : Mark
  /-- How many tokens precede it. -/
  position : Nat
  /-- Whether nothing but a key is allowed there. -/
  required : Bool
  deriving DecidableEq, Repr

/-- A key ends on the line where it starts, and within 1024 octets. -/
def KeyCandidate.isLate (candidate : KeyCandidate) (mark : Mark) : Bool :=
  candidate.mark.line < mark.line || candidate.mark.octets + 1024 < mark.octets

structure Lexer where
  cursor : Cursor
  /-- The tokens so far, latest first. -/
  tokens : List Token := []
  count : Nat := 0
  /-- The columns of the open block collections, innermost first. -/
  columns : List Nat := []
  candidate : Option KeyCandidate := none
  /-- The candidates outside each open flow collection, innermost first. -/
  outer : List (Option KeyCandidate) := []
  /-- Whether a key may start at the next token. -/
  keyAllowed : Bool := true

namespace Lexer

def start (text : List Char) : Lexer where
  cursor := ⟨.start, normalizeBreaks text⟩

def inFlow (lexer : Lexer) : Bool := !lexer.outer.isEmpty

def mark (lexer : Lexer) : Mark := lexer.cursor.mark

def push (lexer : Lexer) (mark : Mark) (symbol : Symbol) : Lexer :=
  { lexer with
    tokens := ⟨mark, symbol⟩ :: lexer.tokens
    count := lexer.count + 1 }

/-- A token before all but the first `position` ones. -/
def insert (lexer : Lexer) (position : Nat) (mark : Mark) (symbol : Symbol) :
    Lexer :=
  { lexer with
    tokens := lexer.tokens.insertIdx (lexer.count - position) ⟨mark, symbol⟩
    count := lexer.count + 1 }

/-- A token of `width` characters at the cursor. -/
def take (lexer : Lexer) (width : Nat) (symbol : Symbol) : Lexer :=
  { lexer.push lexer.mark symbol with cursor := lexer.cursor.advance width }

/-- Skips spaces, comments and line breaks, and a byte order mark that starts a
line; it takes a column. Where a key may start, a tab is no space outside flow
collections; there, a new line lets a key start. -/
def skipGap (inFlow : Bool) (keyAllowed inComment : Bool) (mark : Mark) :
    List Char → Cursor × Bool
  | [] => (⟨mark, []⟩, keyAllowed)
  | c :: rest =>
      if isBreak c then
        skipGap inFlow (keyAllowed || !inFlow) false (mark.next c) rest
      else if mark.column == 0 && c == '\ufeff' then
        skipGap inFlow keyAllowed inComment (mark.next c) rest
      else if inComment || c == ' ' ||
        (c == '\t' && (inFlow || !keyAllowed)) then
        skipGap inFlow keyAllowed inComment (mark.next c) rest
      else if c == '#' then skipGap inFlow keyAllowed true (mark.next c) rest
      else (⟨mark, c :: rest⟩, keyAllowed)

/-- A candidate that is too late is none. Those outside a flow collection are
examined when it is closed, as no place is ever late and then in time again. -/
def expireKey (lexer : Lexer) : Reading Lexer :=
  match lexer.candidate with
  | none => .ok lexer
  | some candidate =>
      if !candidate.isLate lexer.mark then .ok lexer
      else if candidate.required then fault lexer.mark .missingColon
      else .ok { lexer with candidate := none }

/-- No colon can make the present candidate a key any more. -/
def dropKey (lexer : Lexer) : Reading Lexer :=
  if lexer.candidate.any (·.required) then fault lexer.mark .missingColon
  else .ok { lexer with candidate := none }

/-- The token at the cursor may start a key. -/
def saveKey (lexer : Lexer) : Reading Lexer := do
  if lexer.keyAllowed then
    let candidate : KeyCandidate :=
      { mark := lexer.mark
        position := lexer.count
        required :=
          !lexer.inFlow && lexer.columns.head? == some lexer.mark.column }
    let lexer ← lexer.dropKey
    pure { lexer with candidate := some candidate }
  else pure lexer

/-- Outside flow collections, ends the block collections that are indented
further than `column`. -/
def closeBlocks (lexer : Lexer) (column : Nat) : Lexer :=
  if lexer.inFlow then lexer
  else
    let closed := lexer.columns.takeWhile (column < ·)
    { closed.foldl (fun lexer _ => lexer.push lexer.mark .blockEnd) lexer with
      columns := lexer.columns.drop closed.length }

/-- Outside flow collections, ends all block collections. -/
def closeAllBlocks (lexer : Lexer) : Lexer :=
  if lexer.inFlow then lexer
  else
    { lexer.columns.foldl
        (fun lexer _ => lexer.push lexer.mark .blockEnd) lexer with
      columns := [] }

/-- Outside flow collections, a column further in starts a block collection. -/
def openBlock (lexer : Lexer) (position : Nat) (mark : Mark) (symbol : Symbol) :
    Lexer :=
  if lexer.inFlow || lexer.columns.head?.any (mark.column ≤ ·) then lexer
  else
    { lexer.insert position mark symbol with
      columns := mark.column :: lexer.columns }

def readDirective (lexer : Lexer) : Reading Lexer := do
  let lexer ← lexer.closeAllBlocks.dropKey
  let (symbol, cursor) ← Symbol.readDirective lexer.cursor
  pure { lexer.push lexer.mark symbol with cursor, keyAllowed := false }

def readDocumentMarker (lexer : Lexer) (symbol : Symbol) : Reading Lexer := do
  let lexer ← lexer.closeAllBlocks.dropKey
  pure { lexer.take 3 symbol with keyAllowed := false }

def openFlow (lexer : Lexer) (symbol : Symbol) : Reading Lexer := do
  let lexer ← lexer.saveKey
  pure { lexer.take 1 symbol with
    candidate := none
    outer := lexer.candidate :: lexer.outer
    keyAllowed := true }

def closeFlow (lexer : Lexer) (symbol : Symbol) : Reading Lexer := do
  let lexer ← lexer.dropKey
  pure { lexer.take 1 symbol with
    candidate := lexer.outer.head?.join
    outer := lexer.outer.tail
    keyAllowed := false }

def readComma (lexer : Lexer) : Reading Lexer := do
  let lexer ← lexer.dropKey
  pure { lexer.take 1 .comma with keyAllowed := true }

def readEntry (lexer : Lexer) : Reading Lexer := do
  if !lexer.inFlow && !lexer.keyAllowed then fault lexer.mark .misplacedEntry
  else
    let lexer
        ← (lexer.openBlock lexer.count lexer.mark .blockSequenceStart).dropKey
    pure { lexer.take 1 .entry with keyAllowed := true }

def readKey (lexer : Lexer) : Reading Lexer := do
  if !lexer.inFlow && !lexer.keyAllowed then fault lexer.mark .misplacedKey
  else
    let lexer
        ← (lexer.openBlock lexer.count lexer.mark .blockMappingStart).dropKey
    pure { lexer.take 1 .key with keyAllowed := !lexer.inFlow }

/-- A colon. If a candidate is waiting, it was a key. -/
def readValue (lexer : Lexer) : Reading Lexer :=
  match lexer.candidate with
  | some candidate =>
      let lexer := lexer.insert candidate.position candidate.mark .key
      let lexer :=
        lexer.openBlock candidate.position candidate.mark .blockMappingStart
      .ok { lexer.take 1 .value with candidate := none, keyAllowed := false }
  | none =>
      if !lexer.inFlow && !lexer.keyAllowed then
        fault lexer.mark .misplacedValue
      else
        let lexer := lexer.openBlock lexer.count lexer.mark .blockMappingStart
        .ok { lexer.take 1 .value with keyAllowed := !lexer.inFlow }

def readAnchor (lexer : Lexer) (symbol : String → Symbol) : Reading Lexer := do
  let lexer ← lexer.saveKey
  let (name, cursor) ← readAnchorName (lexer.cursor.advance 1)
  pure { lexer.push lexer.mark (symbol name) with cursor, keyAllowed := false }

def readTag (lexer : Lexer) : Reading Lexer := do
  let lexer ← lexer.saveKey
  let (symbol, cursor) ← Symbol.readTag lexer.inFlow lexer.cursor
  pure { lexer.push lexer.mark symbol with cursor, keyAllowed := false }

def readBlock (lexer : Lexer) (style : Style) : Reading Lexer := do
  let lexer ← lexer.dropKey
  let (text, cursor) ←
    Block.read (style == .literal) lexer.columns.head? (lexer.cursor.advance 1)
  pure { lexer.push lexer.mark (.scalar style text) with
    cursor, keyAllowed := true }

def readSingleQuoted (lexer : Lexer) : Reading Lexer := do
  let lexer ← lexer.saveKey
  let inside := lexer.cursor.advance 1
  let (text, cursor) ← Quoted.single inside.mark [] .empty inside.rest
  pure { lexer.push lexer.mark (.scalar .singleQuoted text) with
    cursor, keyAllowed := false }

def readDoubleQuoted (lexer : Lexer) : Reading Lexer := do
  let lexer ← lexer.saveKey
  let inside := lexer.cursor.advance 1
  let (text, cursor) ← Quoted.double inside.mark [] .empty inside.rest
  pure { lexer.push lexer.mark (.scalar .doubleQuoted text) with
    cursor, keyAllowed := false }

def readPlain (lexer : Lexer) : Reading Lexer := do
  let lexer ← lexer.saveKey
  let indent := lexer.columns.head?.elim 0 (· + 1)
  let result ← Plain.read lexer.inFlow indent lexer.cursor
  pure { lexer.push lexer.mark (.scalar .plain result.text) with
    cursor := result.next
    keyAllowed := result.crossesLines }

/-- The token at the cursor, which starts with `c`. -/
def readToken (lexer : Lexer) (c : Char) (rest : List Char) : Reading Lexer :=
  let lone := startsGap rest
  if c == '%' && lexer.mark.column == 0 then lexer.readDirective
  else if isDocumentMarker '-' lexer.mark (c :: rest) then
    lexer.readDocumentMarker .documentStart
  else if isDocumentMarker '.' lexer.mark (c :: rest) then
    lexer.readDocumentMarker .documentEnd
  else if c == '[' then lexer.openFlow .sequenceStart
  else if c == '\x7b' then lexer.openFlow .mappingStart
  else if c == ']' then lexer.closeFlow .sequenceEnd
  else if c == '\x7d' then lexer.closeFlow .mappingEnd
  else if c == ',' then lexer.readComma
  else if c == '-' && lone then lexer.readEntry
  else if c == '?' && (lexer.inFlow || lone) then lexer.readKey
  else if c == ':' && (lexer.inFlow || lone) then lexer.readValue
  else if c == '*' then lexer.readAnchor .alias
  else if c == '&' then lexer.readAnchor .anchor
  else if c == '!' then lexer.readTag
  else if c == '|' && !lexer.inFlow then lexer.readBlock .literal
  else if c == '>' && !lexer.inFlow then lexer.readBlock .folded
  else if c == '\'' then lexer.readSingleQuoted
  else if c == '"' then lexer.readDoubleQuoted
  else if Plain.startsHere lexer.inFlow (c :: rest) then lexer.readPlain
  else fault lexer.mark .unexpectedCharacter

/-- At the end of the text a line that has begun is over. -/
def finish (lexer : Lexer) : Reading (List Token) := do
  let mark : Mark :=
    if lexer.mark.column = 0 then lexer.mark
    else .lineStart (lexer.mark.line + 1)
  let lexer := { lexer with cursor := ⟨mark, []⟩ }
  let lexer ← lexer.closeAllBlocks.dropKey
  pure (lexer.push mark .finish).tokens.reverse

def prepare (lexer : Lexer) : Reading Lexer := do
  let (cursor, keyAllowed) :=
    skipGap lexer.inFlow lexer.keyAllowed false lexer.mark lexer.cursor.rest
  let lexer ← { lexer with cursor, keyAllowed }.expireKey
  pure (lexer.closeBlocks lexer.mark.column)

/-- All tokens from here on, of which there may be `fuel`. -/
def run : Nat → Lexer → Reading (List Token)
  | 0, lexer => fault lexer.mark .unexpectedCharacter
  | fuel + 1, lexer => do
      let ready ← lexer.prepare
      match ready.cursor.rest with
      | [] => ready.finish
      | c :: rest => run fuel (← ready.readToken c rest)

end Lexer

/-- The tokens of a text. As every token takes a character at least, there are
not more of them than characters, besides the end. -/
def tokens (text : List Char) : Reading (List Token) :=
  match text.find? (!isAllowed ·) with
  | some c => fault .start (.forbiddenCharacter c)
  | none => (Lexer.start text).run (text.length + 1)

end EdgeFilters.Yaml
