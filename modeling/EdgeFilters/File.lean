namespace EdgeFilters

inductive File where
  | missing
  | directory
  | content (bytes : ByteArray)

/-- Why a file has no text. -/
inductive File.Error where
  | missing
  | directory
  | malformed
  deriving DecidableEq, Repr

def File.Error.message : File.Error → String
  | .missing => "No such file or directory (os error 2)"
  | .directory => "Is a directory (os error 21)"
  | .malformed => "stream did not contain valid UTF-8"

def File.text : File → Except File.Error String
  | .missing => .error .missing
  | .directory => .error .directory
  | .content bytes =>
      match String.fromUTF8? bytes with
      | some text => .ok text
      | none => .error .malformed

end EdgeFilters
