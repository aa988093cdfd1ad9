import EdgeFilters.Yaml.Mark

namespace EdgeFilters.Yaml

inductive Reason where
  | forbiddenCharacter (c : Char)
  | unexpectedCharacter
  | tabInIndentation
  | unterminatedScalar
  | unknownEscape
  | blockHeader
  | anchorName
  | tagText
  | directive
  | misplacedEntry
  | misplacedKey
  | misplacedValue
  | missingColon
  | misplacedColon
  | unexpectedToken
  | repeatedDirective
  | unsupportedVersion
  | unknownHandle
  | unknownAnchor (name : String)
  | furtherDocument
  deriving DecidableEq, Repr

def Reason.message : Reason → String
  | .forbiddenCharacter _ => "control characters are not allowed"
  | .unexpectedCharacter => "no token starts with this character"
  | .tabInIndentation => "a tab stands in the indentation"
  | .unterminatedScalar => "a quoted text has no end"
  | .unknownEscape => "unknown escape in a quoted text"
  | .blockHeader => "unexpected text after a block indicator"
  | .anchorName => "an anchor or alias needs a name"
  | .tagText => "malformed tag"
  | .directive => "malformed directive"
  | .misplacedEntry => "a sequence entry is not allowed here"
  | .misplacedKey => "a mapping key is not allowed here"
  | .misplacedValue => "a mapping value is not allowed here"
  | .missingColon => "a key has no colon after it"
  | .misplacedColon => "unexpected colon"
  | .unexpectedToken => "unexpected token"
  | .repeatedDirective => "a directive is repeated"
  | .unsupportedVersion => "unsupported version"
  | .unknownHandle => "undefined tag handle"
  | .unknownAnchor name => "unknown anchor '" ++ name ++ "'"
  | .furtherDocument => "more than one document"

structure Fault where
  mark : Mark
  reason : Reason
  deriving DecidableEq, Repr

def Fault.message (fault : Fault) : String :=
  fault.reason.message ++ " at line " ++ toString (fault.mark.line + 1) ++
    " column " ++ toString (fault.mark.column + 1)

abbrev Reading (α : Type) := Except Fault α

def fault (mark : Mark) (reason : Reason) : Reading α :=
  .error ⟨mark, reason⟩

variable {α β ε ε' : Type} {first : Except ε α}

theorem bind_eq_ok_iff {further : α → Except ε β} {result : β} :
    (first >>= further) = .ok result ↔
      ∃ value, first = .ok value ∧ further value = .ok result := by
  cases first <;> simp [bind, Except.bind]

theorem mapError_eq_ok_iff {wrap : ε → ε'} {result : α} :
    first.mapError wrap = .ok result ↔ first = .ok result := by
  constructor
  · intro same
    cases first with
    | error error => cases same
    | ok value =>
        cases same
        rfl
  · rintro rfl
    rfl

end EdgeFilters.Yaml
