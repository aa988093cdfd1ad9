import EdgeFilters.Text.Quoted

namespace EdgeFilters

inductive Dump where
  | word (spelling : String)
  | text (content : String)
  | list (items : List Dump)
  /-- The name may be empty. -/
  | tuple (name : String) (items : List Dump)
  | record (name : String) (fields : List (String × Dump))

namespace Dump

def ofBool (b : Bool) : Dump := .word (if b then "true" else "false")

def ofNat (n : Nat) : Dump := .word (toString n)

def texts (items : List String) : Dump := .list (items.map .text)

mutual

def inline : Dump → String
  | .word spelling => spelling
  | .text content => Text.quoted content
  | .list items => "[" ++ ", ".intercalate (inlineItems items) ++ "]"
  | .tuple name [] => name
  | .tuple name items =>
      name ++ "(" ++ ", ".intercalate (inlineItems items) ++ ")"
  | .record name [] => name
  | .record name fields =>
      name ++ " \x7b " ++ ", ".intercalate (inlineFields fields) ++ " \x7d"

def inlineItems : List Dump → List String
  | [] => []
  | item :: rest => item.inline :: inlineItems rest

def inlineFields : List (String × Dump) → List String
  | [] => []
  | (label, value) :: rest =>
      (label ++ ": " ++ value.inline) :: inlineFields rest

end

/-- Four blanks for each level. -/
def margin (depth : Nat) : String :=
  .ofList (List.replicate (4 * depth) ' ')

/-- Parts on lines of their own, each one level deeper and
followed by a comma. -/
def block (depth : Nat) (opening closing : String) (parts : List String) :
    String :=
  opening ++ "\n" ++
    String.join (parts.map fun part => margin (depth + 1) ++ part ++ ",\n") ++
    margin depth ++ closing

mutual

/-- The dump with a line for each part; a list without parts
stays on its line. -/
def indented (depth : Nat) : Dump → String
  | .word spelling => spelling
  | .text content => Text.quoted content
  | .list [] => "[]"
  | .list items => block depth "[" "]" (indentedItems (depth + 1) items)
  | .tuple name [] => name
  | .tuple name items =>
      block depth (name ++ "(") ")" (indentedItems (depth + 1) items)
  | .record name [] => name
  | .record name fields =>
      block depth (name ++ " \x7b") "\x7d" (indentedFields (depth + 1) fields)

def indentedItems (depth : Nat) : List Dump → List String
  | [] => []
  | item :: rest => item.indented depth :: indentedItems depth rest

def indentedFields (depth : Nat) : List (String × Dump) → List String
  | [] => []
  | (label, value) :: rest =>
      (label ++ ": " ++ value.indented depth) :: indentedFields depth rest

end

def render (pretty : Bool) (dump : Dump) : String :=
  if pretty then dump.indented 0 else dump.inline

end Dump

end EdgeFilters
