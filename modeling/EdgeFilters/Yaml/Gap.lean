import EdgeFilters.Yaml.Mark

namespace EdgeFilters.Yaml

inductive Gap where
  /-- Spaces and tabs of one line. -/
  | within (spaces : List Char)
  /-- Line breaks, the first of which is `none` if a backslash took it away. -/
  | across (first : Option Char) (later : List Char)
  deriving DecidableEq, Repr

namespace Gap

def empty : Gap := .within []

def isEmpty : Gap → Bool
  | .within spaces => spaces.isEmpty
  | .across _ _ => false

def crossesLines : Gap → Bool
  | .within _ => false
  | .across _ _ => true

/-- Spaces at the start of a line do not count. -/
def addSpace (gap : Gap) (c : Char) : Gap :=
  match gap with
  | .within spaces => .within (spaces ++ [c])
  | .across first later => .across first later

/-- Spaces at the end of a line do not count either. -/
def addBreak (gap : Gap) (c : Char) : Gap :=
  match gap with
  | .within _ => .across (some c) []
  | .across first later => .across first (later ++ [c])

/-- What the gap leaves in the scalar. Only a line feed folds. -/
def text : Gap → List Char
  | .within spaces => spaces
  | .across none later => later
  | .across (some first) later =>
      if first == '\n' then
        if later.isEmpty then [' '] else later
      else first :: later

@[simp] theorem text_empty : Gap.empty.text = [] := rfl

end Gap

end EdgeFilters.Yaml
