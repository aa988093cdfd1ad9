import EdgeFilters.Text.Printable

namespace EdgeFilters.Text

def hexDigits (n : Nat) : List Char :=
  Nat.toDigits 16 n

/-- Five characters have a letter of their own; the code of any other hidden
character stands in braces. -/
def quotedChar : Char → List Char
  | '"' => ['\\', '"']
  | '\\' => ['\\', '\\']
  | '\n' => ['\\', 'n']
  | '\r' => ['\\', 'r']
  | '\t' => ['\\', 't']
  | '\x00' => ['\\', '0']
  | c =>
      if isPrintable c then [c]
      else ['\\', 'u', '\x7b'] ++ hexDigits c.toNat ++ ['\x7d']

def quoted (text : String) : String :=
  .ofList ('"' :: text.toList.flatMap quotedChar ++ ['"'])

end EdgeFilters.Text
