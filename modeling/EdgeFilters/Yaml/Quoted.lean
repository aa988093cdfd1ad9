import EdgeFilters.Text.Digit
import EdgeFilters.Yaml.Fault
import EdgeFilters.Yaml.Gap

namespace EdgeFilters.Yaml.Quoted

def letter? : Char → Option Char
  | '0' => some '\x00'
  | 'a' => some '\x07'
  | 'b' => some '\x08'
  | 't' => some '\t'
  | '\t' => some '\t'
  | 'n' => some '\n'
  | 'v' => some '\x0b'
  | 'f' => some '\x0c'
  | 'r' => some '\r'
  | 'e' => some '\x1b'
  | ' ' => some ' '
  | '"' => some '"'
  | '/' => some '/'
  | '\\' => some '\\'
  | 'N' => some '\u0085'
  | '_' => some '\u00a0'
  | 'L' => some '\u2028'
  | 'P' => some '\u2029'
  | _ => none

def hexWidth? : Char → Option Nat
  | 'x' => some 2
  | 'u' => some 4
  | 'U' => some 8
  | _ => none

/-- A character by its code, which must not be a surrogate's. -/
def character? (code : Nat) : Option Char :=
  if code.isValidChar then some (.ofNat code) else none

/-- The character that an escape stands for, and how many characters it takes
after its backslash. -/
def unescape? : List Char → Option (Char × Nat)
  | [] => none
  | c :: rest =>
      match letter? c with
      | some decoded => some (decoded, 1)
      | none => do
          let width ← hexWidth? c
          if rest.length < width then none
          else
            let code ← Text.number? 16 (rest.take width)
            let decoded ← character? code
            some (decoded, width + 1)

def single (mark : Mark) (read : List Char) (gap : Gap) : List Char →
    Reading (String × Cursor)
  | [] => fault mark .unterminatedScalar
  | c :: rest =>
      if isBreak c then single (mark.next c) read (gap.addBreak c) rest
      else if isSpace c then single (mark.next c) read (gap.addSpace c) rest
      else if atDocumentMarker mark (c :: rest) then
        fault mark .unterminatedScalar
      else
        let read := gap.text.reverse ++ read
        if c == '\'' then
          match rest with
          | '\'' :: rest =>
              single ((mark.next c).next c) (c :: read) .empty rest
          | _ => .ok (.ofList read.reverse, ⟨mark.next c, rest⟩)
        else single (mark.next c) (c :: read) .empty rest

def double (mark : Mark) (read : List Char) (gap : Gap) (text : List Char) :
    Reading (String × Cursor) :=
  match text with
  | [] => fault mark .unterminatedScalar
  | c :: rest =>
      if isBreak c then double (mark.next c) read (gap.addBreak c) rest
      else if isSpace c then double (mark.next c) read (gap.addSpace c) rest
      else if atDocumentMarker mark (c :: rest) then
        fault mark .unterminatedScalar
      else
        let read := gap.text.reverse ++ read
        if c == '"' then .ok (.ofList read.reverse, ⟨mark.next c, rest⟩)
        else if c == '\\' then
          if rest.head?.any isBreak then
            double ((mark.next c).after (rest.take 1)) read (.across none [])
              (rest.drop 1)
          else
            match unescape? rest with
            | none => fault mark .unknownEscape
            | some (decoded, width) =>
                double ((mark.next c).after (rest.take width))
                  (decoded :: read) .empty
                  (rest.drop width)
        else double (mark.next c) (c :: read) .empty rest
termination_by text.length

end EdgeFilters.Yaml.Quoted
