namespace EdgeFilters

inductive Json where
  | text (content : String)
  | list (items : List Json)
  | object (fields : List (String × Json))

namespace Json

def texts (items : List String) : Json := .list (items.map .text)

/-- The last hexadecimal digit of a number. -/
def hexDigit (n : Nat) : Char := Nat.digitChar (n % 16)

/-- A quote, a backslash and the controls below U+0020 are escaped, five of
these by a letter; every other character stands for itself. -/
def escapedChar : Char → List Char
  | '"' => ['\\', '"']
  | '\\' => ['\\', '\\']
  | '\x08' => ['\\', 'b']
  | '\x0c' => ['\\', 'f']
  | '\n' => ['\\', 'n']
  | '\r' => ['\\', 'r']
  | '\t' => ['\\', 't']
  | c =>
      if c.toNat < 0x20 then
        ['\\', 'u', '0', '0', hexDigit (c.toNat / 16), hexDigit c.toNat]
      else [c]

def quotedChars (content : String) : List Char :=
  '"' :: content.toList.flatMap escapedChar ++ ['"']

def newLine (depth : Nat) : List Char :=
  '\n' :: List.replicate (2 * depth) ' '

/-- Parts on lines of their own, one level deeper, with commas between them. -/
def block (depth : Nat) (opening closing : Char) (parts : List (List Char)) :
    List Char :=
  opening :: [','].intercalate (parts.map (newLine (depth + 1) ++ ·)) ++
    newLine depth ++ [closing]

mutual

/-- The printed form at a level; a list or an object without parts
stays on its line. -/
def print (depth : Nat) : Json → List Char
  | .text content => quotedChars content
  | .list [] => ['[', ']']
  | .list items => block depth '[' ']' (printItems (depth + 1) items)
  | .object [] => ['\x7b', '\x7d']
  | .object fields => block depth '\x7b' '\x7d' (printFields (depth + 1) fields)

def printItems (depth : Nat) : List Json → List (List Char)
  | [] => []
  | item :: rest => item.print depth :: printItems depth rest

def printFields (depth : Nat) : List (String × Json) → List (List Char)
  | [] => []
  | (name, value) :: rest =>
      (quotedChars name ++ [':', ' '] ++ value.print depth) ::
        printFields depth rest

end

def pretty (json : Json) : String := .ofList (json.print 0)

end Json

end EdgeFilters
