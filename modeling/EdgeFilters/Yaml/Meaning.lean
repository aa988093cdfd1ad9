import EdgeFilters.Binary64.Basic
import EdgeFilters.Text.Digit
import EdgeFilters.Yaml.Node

/-! What a scalar means where no particular kind of value is asked for. -/

namespace EdgeFilters.Yaml

inductive Meaning where
  | null
  | boolean (value : Bool)
  | integer (value : Int)
  | float (value : Binary64)
  | text (content : String)
  deriving DecidableEq, Repr

namespace Meaning

def isNull (text : String) : Bool :=
  ["null", "Null", "NULL", "~"].contains text

def boolean? (text : String) : Option Bool :=
  if ["true", "True", "TRUE"].contains text then some true
  else if ["false", "False", "FALSE"].contains text then some false
  else none

/-- The number after a letter that gives its base, or a decimal number. -/
def magnitude? : List Char → Option Nat
  | '0' :: 'x' :: rest => Text.number? 16 rest
  | '0' :: 'o' :: rest => Text.number? 8 rest
  | '0' :: 'b' :: rest => Text.number? 2 rest
  | digits => Text.number? 10 digits

/-- A sign, or none, and what follows. -/
def splitSign : List Char → Option Char × List Char
  | '+' :: rest => (some '+', rest)
  | '-' :: rest => (some '-', rest)
  | rest => (none, rest)

/-- Digits after a leading zero make a text and not a number. -/
def isPadded (text : List Char) : Bool :=
  match (splitSign text).2 with
  | '0' :: rest => !rest.isEmpty && rest.all Char.isDigit
  | _ => false

/-- The integers that fit into 128 bits. -/
def integer? (text : List Char) : Option Int :=
  if isPadded text then none
  else
    let (sign, rest) := splitSign text
    match magnitude? rest with
    | none => none
    | some n =>
        if sign = some '-' then
          if n ≤ 0x80000000000000000000000000000000 then some (-n) else none
        else if n ≤ 0xffffffffffffffffffffffffffffffff then some n else none

/-- The power of ten after the letter `e`, which needs digits. -/
def exponent? : List Char → Option Int
  | [] => some 0
  | c :: rest =>
      if c == 'e' || c == 'E' then
        let (sign, digits) := splitSign rest
        (Text.number? 10 digits).map fun n => if sign = some '-' then
          -(n : Int) else n
      else none

/-- Digits with a point among them or without, and an exponent
if there is one. -/
def decimal? (negative : Bool) (text : List Char) : Option Binary64 :=
  let whole := text.takeWhile Char.isDigit
  let rest := text.drop whole.length
  let fraction :=
    match rest with
    | '.' :: rest => rest.takeWhile Char.isDigit
    | _ => []
  let rest :=
    match rest with
    | '.' :: rest => rest.drop fraction.length
    | rest => rest
  match Text.number? 10 (whole ++ fraction), exponent? rest with
  | some digits, some exponent =>
      Binary64.ofDecimal? negative digits (exponent - fraction.length)
  | _, _ => none

/-- A decimal too large for the format is no float; infinity has a
name of its own. -/
def float? (text : List Char) : Option Binary64 :=
  let (sign, rest) := splitSign text
  if [".inf", ".Inf", ".INF"].any (·.toList == rest) then
    some (.infinite (sign = some '-'))
  else if sign.isNone && [".nan", ".NaN", ".NAN"].any (·.toList == rest) then
    some .nan
  else decimal? (sign = some '-') rest

/-- The meaning of a plain scalar without a tag. -/
def ofPlain (text : String) : Meaning :=
  if text.isEmpty || isNull text then .null
  else
    match boolean? text with
    | some value => .boolean value
    | none =>
        match integer? text.toList with
        | some value => .integer value
        | none =>
            match if isPadded text.toList then none else float? text.toList with
            | some value => .float value
            | none => .text text

/-- The tags that prescribe a meaning. -/
def booleanTag : String := "tag:yaml.org,2002:bool"

def integerTag : String := "tag:yaml.org,2002:int"

def floatTag : String := "tag:yaml.org,2002:float"

def nullTag : String := "tag:yaml.org,2002:null"

/-- What a prescribed meaning asks of a text. -/
inductive Prescription where
  | boolean
  | integer
  | float
  | null
  deriving DecidableEq, Repr

def Prescription.ofTag? (tag : String) : Option Prescription :=
  if tag = booleanTag then some .boolean
  else if tag = integerTag then some .integer
  else if tag = floatTag then some .float
  else if tag = nullTag then some .null
  else none

def Prescription.meaning? (prescription : Prescription) (text : String) :
    Option Meaning :=
  match prescription with
  | .boolean => (boolean? text).map .boolean
  | .integer => (integer? text.toList).map .integer
  | .float => (float? text.toList).map .float
  | .null => if isNull text then some .null else none

/-- The meaning of a scalar, or the prescription that its text does not fulfil.
Without a tag, or with one of the document's own, a plain scalar means what its
text says; everything else is text. -/
def ofScalar (tag : Option String) (style : Style) (text : String) :
    Except Prescription Meaning :=
  match tag with
  | none => .ok (if style = .plain then ofPlain text else .text text)
  | some tag =>
      match Prescription.ofTag? tag with
      | some prescription =>
          match prescription.meaning? text with
          | some meaning => .ok meaning
          | none => .error prescription
      | none =>
          let own := tag.toList.head? == some '!'
          .ok (if own && style = .plain then ofPlain text else .text text)

end Meaning

end EdgeFilters.Yaml
