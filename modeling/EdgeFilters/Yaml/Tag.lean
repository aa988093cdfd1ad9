import EdgeFilters.Text.Digit
import EdgeFilters.Yaml.Fault
import EdgeFilters.Yaml.Token

namespace EdgeFilters.Yaml

/-- A character of a tag. In its full form a tag may hold some flow
punctuation too. -/
def isTagCharacter (full : Bool) (c : Char) : Bool :=
  isWord c || ";/?:@&=+$.!~*'()%".toList.contains c ||
    (full && ",[]".toList.contains c)

/-- The number of octets of a character, by the first of them. -/
def octetCount? (octet : Nat) : Option Nat :=
  if octet < 0x80 then some 1
  else if octet < 0xc0 then none
  else if octet < 0xe0 then some 2
  else if octet < 0xf0 then some 3
  else if octet < 0xf8 then some 4
  else none

/-- The character of a group of octets, or the replacement character if
they are none's. -/
def octetsText (octets : List Nat) : List Char :=
  match String.fromUTF8? ⟨(octets.map UInt8.ofNat).toArray⟩ with
  | some text => text.toList
  | none => ['\ufffd']

/-- A tag with its escaped octets decoded. The octets of a character stand
together; `missing` of the present one are still to come. -/
def decodeTag? (missing : Nat) (octets : List Nat) :
    List Char → Option (List Char)
  | '%' :: high :: low :: rest => do
      let octet ← Text.number? 16 [high, low]
      if missing = 0 then
        let count ← octetCount? octet
        if count = 1 then
          return octetsText [octet] ++ (← decodeTag? 0 [] rest)
        else decodeTag? (count - 1) [octet] rest
      else if 0x80 ≤ octet ∧ octet < 0xc0 then
        let octets := octets ++ [octet]
        if missing = 1 then
          return octetsText octets ++ (← decodeTag? 0 [] rest)
        else decodeTag? (missing - 1) octets rest
      else none
  | c :: rest =>
      if missing = 0 ∧ c ≠ '%' then return c :: (← decodeTag? 0 [] rest)
      else none
  | [] => if missing = 0 then some [] else none

/-- A run of tag characters, decoded. A null character among them ends the text,
but not the run. -/
def tagRun (full : Bool) (cursor : Cursor) : Reading (String × Cursor) :=
  let run := cursor.rest.takeWhile (isTagCharacter full)
  match decodeTag? 0 [] run with
  | some text =>
      .ok (.ofList (text.takeWhile (· != '\x00')), cursor.advance run.length)
  | none => fault cursor.mark .tagText

def filledTagRun (full : Bool) (cursor : Cursor) : Reading (String × Cursor) :=
  if cursor.rest.head?.any (isTagCharacter full) then tagRun full cursor
  else fault cursor.mark .tagText

/-- A tag handle: an exclamation mark, or a word between two. The second mark is
missing where the word starts a tag without a handle. -/
def handleRun (cursor : Cursor) : String × Cursor :=
  let word := (cursor.rest.drop 1).takeWhile isWord
  let closing := ((cursor.rest.drop 1).drop word.length).take 1
  let handle := '!' :: word ++ (if closing == ['!'] then closing else [])
  (.ofList handle, cursor.advance handle.length)

/-- A handle with a mark at both ends. -/
def isNamedHandle (handle : String) : Bool :=
  1 < handle.length && handle.toList.getLast? == some '!'

/-- The tag at the cursor, which stands at an exclamation mark. -/
def Symbol.readTag (inFlow : Bool) (cursor : Cursor) :
    Reading (Symbol × Cursor) := do
  let (symbol, next) ←
    if (cursor.rest.drop 1).head? == some '<' then do
      let (suffix, next) ← filledTagRun true (cursor.advance 2)
      if next.rest.head? != some '>' then fault next.mark .tagText
      else pure (Symbol.tag none suffix, next.advance 1)
    else
      let (name, behind) := handleRun cursor
      if isNamedHandle name then do
        let (suffix, next) ← filledTagRun false behind
        pure (Symbol.tag (some name) suffix, next)
      else do
        let (more, next) ← tagRun false behind
        let suffix := String.ofList (name.toList.drop 1) ++ more
        if suffix.isEmpty then pure (Symbol.tag none "!", next)
        else pure (Symbol.tag (some "!") suffix, next)
  if startsGap next.rest || (inFlow && next.rest.head? == some ',') then
    pure (symbol, next)
  else fault next.mark .tagText

/-- The name of an anchor or alias, after its indicator. A gap or an indicator
that no name may touch ends it. -/
def readAnchorName (cursor : Cursor) : Reading (String × Cursor) :=
  let name := cursor.rest.takeWhile isWord
  let next := cursor.advance name.length
  let ends :=
    startsGap next.rest ||
      next.rest.head?.any ("?:,]\x7d%@\x60".toList.contains ·)
  if name.isEmpty || !ends then fault next.mark .anchorName
  else .ok (.ofList name, next)

/-- A number of a version, of at most nine digits. -/
def versionNumber (cursor : Cursor) : Reading (Nat × Cursor) :=
  let digits := cursor.rest.takeWhile Char.isDigit
  if digits.isEmpty || 9 < digits.length then fault cursor.mark .directive
  else
    .ok ((Text.number? 10 digits).getD 0, cursor.advance digits.length)

def Symbol.readVersion (cursor : Cursor) : Reading (Symbol × Cursor) := do
  let (major, next) ← versionNumber cursor.skipSpaces
  if next.rest.head? != some '.' then fault next.mark .directive
  else
    let (minor, next) ← versionNumber (next.advance 1)
    pure (.version major minor, next)

def Symbol.readHandle (cursor : Cursor) : Reading (Symbol × Cursor) := do
  let cursor := cursor.skipSpaces
  if cursor.rest.head? != some '!' then fault cursor.mark .directive
  else
    let (name, next) := handleRun cursor
    if !(name == "!" || isNamedHandle name) || !next.rest.head?.any isSpace then
      fault next.mark .directive
    else
      let (start, next) ← filledTagRun true next.skipSpaces
      if !startsGap next.rest then fault next.mark .directive
      else pure (.handle name start, next)

/-- The directive at the cursor, which stands at a percent sign, up
to the next line. -/
def Symbol.readDirective (cursor : Cursor) : Reading (Symbol × Cursor) := do
  let name := (cursor.rest.drop 1).takeWhile isWord
  let next := cursor.advance (1 + name.length)
  if !startsGap next.rest then fault next.mark .directive
  else
    let (symbol, next) ←
      if name == "YAML".toList then readVersion next
      else if name == "TAG".toList then readHandle next
      else fault next.mark .directive
    let next := next.skipSpaces
    let next := if next.rest.head? == some '#' then next.skipLine else next
    if next.rest.head?.any (!isBreak ·) then fault next.mark .directive
    else pure (symbol, next.advance 1)

end EdgeFilters.Yaml
