import EdgeFilters.Yaml.Fault
import EdgeFilters.Yaml.Gap

namespace EdgeFilters.Yaml.Plain

/-- A plain scalar, what follows it, and whether the gap after
it crosses lines. -/
structure Result where
  text : String
  next : Cursor
  crossesLines : Bool

/-- A character that no plain scalar starts with. -/
def isIndicator (c : Char) : Bool :=
  "-?:,[]\x7b\x7d#&*!|>'\"%@\x60".toList.contains c

/-- A dash starts a scalar unless a space follows, a question mark or colon
outside flow collections unless a gap follows. -/
def startsHere (inFlow : Bool) : List Char → Bool
  | [] => false
  | c :: rest =>
      !(isGap c || isIndicator c) ||
        (c == '-' && !(rest.head?.any isSpace)) ||
        (!inFlow && (c == '?' || c == ':') && !startsGap rest)

/-- A line of the scalar does not go on here. -/
def stopsLine (inFlow : Bool) (indent : Nat) (mark : Mark) (text : List Char) :
    Bool :=
  (!inFlow && mark.column < indent) || text.head? == some '#' ||
    atDocumentMarker mark text

/-- A colon with a gap behind it, or the punctuation of a flow collection, is
not part of the scalar. -/
def stopsWord (inFlow : Bool) (c : Char) (rest : List Char) : Bool :=
  (c == ':' && startsGap rest) || (inFlow && isFlowIndicator c)

/-- In a flow collection a colon may not touch the punctuation behind it. -/
def collides (inFlow : Bool) (c : Char) (rest : List Char) : Bool :=
  inFlow && c == ':' && rest.head?.any fun d => d == '?' || isFlowIndicator d

/-- The scalar of these characters, latest first, with the gap behind them. -/
def finish (mark : Mark) (read : List Char) (gap : Gap) (rest : List Char) :
    Result :=
  ⟨.ofList read.reverse, ⟨mark, rest⟩, gap.crossesLines⟩

/-- Reads on with the characters so far, latest first, and the
gap behind them. -/
def scan (inFlow : Bool) (indent : Nat) (mark : Mark) (read : List Char)
    (gap : Gap) :
    List Char → Reading Result
  | [] => .ok (finish mark read gap [])
  | c :: rest =>
      if isBreak c then
        scan inFlow indent (mark.next c) read (gap.addBreak c) rest
      else if isSpace c then
        if gap.crossesLines && mark.column < indent && c == '\t' then
          fault mark .tabInIndentation
        else scan inFlow indent (mark.next c) read (gap.addSpace c) rest
      else if !gap.isEmpty && stopsLine inFlow indent mark (c :: rest) then
        .ok (finish mark read gap (c :: rest))
      else if collides inFlow c rest then fault mark .misplacedColon
      else if stopsWord inFlow c rest then
        .ok (finish mark read gap (c :: rest))
      else
        scan inFlow indent (mark.next c)
          (c :: gap.text.reverse ++ read) .empty rest

/-- The scalar at the cursor, of which lines after the first start at `indent`
or further right. -/
def read (inFlow : Bool) (indent : Nat) (cursor : Cursor) : Reading Result :=
  scan inFlow indent cursor.mark [] .empty cursor.rest

end EdgeFilters.Yaml.Plain
