import EdgeFilters.Yaml.Mark

namespace EdgeFilters.Yaml

inductive Style where
  | plain
  | singleQuoted
  | doubleQuoted
  | literal
  | folded
  deriving DecidableEq, Repr

inductive Symbol where
  | version (major minor : Nat)
  /-- A tag handle stands for the start of a tag. -/
  | handle (name start : String)
  | documentStart
  | documentEnd
  | blockSequenceStart
  | blockMappingStart
  | blockEnd
  | sequenceStart
  | sequenceEnd
  | mappingStart
  | mappingEnd
  /-- A dash before an entry of a block sequence. -/
  | entry
  | comma
  | key
  | value
  | alias (name : String)
  | anchor (name : String)
  /-- A tag without a handle is complete. -/
  | tag (handle : Option String) (suffix : String)
  | scalar (style : Style) (text : String)
  | finish
  deriving DecidableEq, Repr

structure Token where
  mark : Mark
  symbol : Symbol
  deriving DecidableEq, Repr

end EdgeFilters.Yaml
