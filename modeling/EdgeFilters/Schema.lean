import EdgeFilters.Binary64.Shortest
import EdgeFilters.Config.Basic
import EdgeFilters.Text.Quoted
import EdgeFilters.Yaml.Meaning

/-! Fields are taken in the order of the document, and the first that does not
fit stops; a field that is missing is noticed at the end of its mapping. -/

namespace EdgeFilters.Schema

open Yaml (Document Mark Meaning Node Style)

inductive Segment where
  | key (name : String)
  | index (position : Nat)
  /-- A key that is an alias. -/
  | unknown
  deriving DecidableEq, Repr

/-- The way from the root to a node. -/
abbrev Path := List Segment

def Segment.append (path : String) : Segment → String
  | .key name => if path.isEmpty then name else path ++ "." ++ name
  | .index position => path ++ "[" ++ toString position ++ "]"
  | .unknown => if path.isEmpty then "?" else path ++ ".?"

def Path.text (path : Path) : String :=
  path.foldl Segment.append ""

/-- What stands where something else is expected. -/
inductive Found where
  | sequence
  | mapping
  | scalar (meaning : Meaning)
  deriving DecidableEq, Repr

/-- An integer beyond 64 bits is shown with the format that holds it. -/
def integerText (n : Int) : String :=
  let shown := "integer \x60" ++ toString n ++ "\x60"
  if 0xffffffffffffffff < n then shown ++ " as u128"
  else if n < -0x8000000000000000 then shown ++ " as i128"
  else shown

def Found.description : Found → String
  | .sequence => "sequence"
  | .mapping => "map"
  | .scalar .null => "unit value"
  | .scalar (.boolean value) => "boolean \x60" ++ toString value ++ "\x60"
  | .scalar (.integer value) => integerText value
  | .scalar (.float value) => "floating point \x60" ++ value.text ++ "\x60"
  | .scalar (.text content) => "string " ++ Text.quoted content

inductive Expected where
  | text
  | boolean
  | sequence
  | config
  | spec
  | fieldName
  deriving DecidableEq, Repr

def Expected.description : Expected → String
  | .text => "a string"
  | .boolean => "a boolean"
  | .sequence => "a sequence"
  | .config => "struct PipelineConfig"
  | .spec => "struct RawFilterSpec"
  | .fieldName => "field identifier"

def prescriptionDescription : Meaning.Prescription → String
  | .boolean => "a boolean"
  | .integer => "an integer"
  | .float => "a float"
  | .null => "null"

inductive Problem where
  | duplicate (field : String)
  | missing (field : String)
  | mismatch (found : Found) (expected : Expected)
  /-- A text that does not fulfil its tag. -/
  | unfulfilled (content : String) (prescription : Meaning.Prescription)
  deriving DecidableEq, Repr

def Problem.description : Problem → String
  | .duplicate field => "duplicate field \x60" ++ field ++ "\x60"
  | .missing field => "missing field \x60" ++ field ++ "\x60"
  | .mismatch found expected =>
      "invalid type: " ++ found.description ++ ", expected " ++
        expected.description
  | .unfulfilled content prescription =>
      "invalid value: string " ++ Text.quoted content ++ ", expected " ++
        prescriptionDescription prescription

/-- A place where the document does not fit. -/
structure Misfit where
  path : Path
  problem : Problem
  mark : Mark
  deriving DecidableEq, Repr

/-- The root has no path, and the first place of a text is not written. -/
def Misfit.message (misfit : Misfit) : String :=
  let place :=
    if misfit.mark = .start then ""
    else
      " at line " ++ toString (misfit.mark.line + 1) ++ " column " ++
        toString (misfit.mark.column + 1)
  let path := if misfit.path.isEmpty then "" else Path.text misfit.path ++ ": "
  path ++ misfit.problem.description ++ place

inductive Error where
  | misfit (cause : Misfit)
  | repetition
  deriving DecidableEq, Repr

def Error.message : Error → String
  | .misfit cause => cause.message
  | .repetition => "repetition limit exceeded"

/-- Fitting a document counts the aliases that are followed,
also when it fails. -/
abbrev Fitting (α : Type) := ExceptT Misfit (StateM Nat) α

/-- A node, or the node that an alias stands for. -/
def follow (document : Document) (node : Node) : Fitting Node := do
  match node with
  | .alias _ => modify (· + 1)
  | _ => pure ()
  pure (document.resolve node)

/-- The error for a node that is not what is expected. -/
def mismatch (path : Path) (expected : Expected) : Node → Misfit
  | .sequence site _ => ⟨path, .mismatch .sequence expected, site.mark⟩
  | .mapping site _ => ⟨path, .mismatch .mapping expected, site.mark⟩
  | .scalar site tag style content =>
      match Meaning.ofScalar tag style content with
      | .ok meaning => ⟨path, .mismatch (.scalar meaning) expected, site.mark⟩
      | .error prescription =>
          ⟨path, .unfulfilled content prescription, site.mark⟩
  | .alias _ => ⟨path, .mismatch (.scalar .null) expected, .start⟩

/-- Every scalar is a text, whatever else it could mean. -/
def text (document : Document) (path : Path) (expected : Expected)
    (node : Node) :
    Fitting String := do
  match ← follow document node with
  | .scalar _ _ _ content => pure content
  | other => throw (mismatch path expected other)

/-- A plain scalar may be a boolean whatever its tag, and a literal one if
its tag says so. -/
def allowsBoolean (tag : Option String) (style : Style) : Bool :=
  style == .plain || (style == .literal && tag == some Meaning.booleanTag)

def boolean (document : Document) (path : Path) (node : Node) :
    Fitting Bool := do
  match ← follow document node with
  | .scalar site tag style content =>
      match if allowsBoolean tag style then
        Meaning.boolean? content else none with
      | some value => pure value
      | none => throw (mismatch path .boolean (.scalar site tag style content))
  | other => throw (mismatch path .boolean other)

/-- An empty plain scalar stands for a collection without parts. -/
def isEmptyCollection (style : Style) (content : String) : Bool :=
  style == .plain && content.isEmpty

def items (document : Document) (path : Path) (node : Node) :
    Fitting (List Node) := do
  match ← follow document node with
  | .sequence _ items => pure items
  | .scalar site tag style content =>
      if isEmptyCollection style content then pure []
      else throw (mismatch path .sequence (.scalar site tag style content))
  | other => throw (mismatch path .sequence other)

/-- A mapping and where it starts. -/
def entries (document : Document) (path : Path) (expected : Expected)
    (node : Node) :
    Fitting (Mark × List (Node × Node)) := do
  match ← follow document node with
  | .mapping site entries => pure (site.mark, entries)
  | .scalar site tag style content =>
      if isEmptyCollection style content then pure (site.mark, [])
      else throw (mismatch path expected (.scalar site tag style content))
  | other => throw (mismatch path expected other)

/-- A key, which must be a text, and the way to its value. -/
def key (document : Document) (path : Path) (node : Node) :
    Fitting (String × Path) := do
  let name ← text document path .fieldName node
  let segment :=
    match node with
    | .alias _ => .unknown
    | _ => .key name
  pure (name, path ++ [segment])

inductive SpecField where
  | input
  | output
  | expression
  deriving DecidableEq, Repr

/-- The expression has two spellings. -/
def SpecField.keys : List (String × SpecField) :=
  [("input", .input), ("output", .output), ("filters", .expression),
   ("filter_expression", .expression)]

def SpecField.ofKey? (key : String) : Option SpecField := keys.lookup key

def SpecField.name : SpecField → String
  | .input => "input"
  | .output => "output"
  | .expression => "filters"

abbrev SpecDraft := List (SpecField × String)

def SpecDraft.add (document : Document) (path : Path) (mark : Mark)
    (draft : SpecDraft) (entry : Node × Node) : Fitting SpecDraft := do
  let (name, valuePath) ← key document path entry.1
  match SpecField.ofKey? name with
  | none => pure draft
  | some field =>
      if (draft.lookup field).isSome then
        throw ⟨path, .duplicate field.name, mark⟩
      else pure ((field, ← text document valuePath .text entry.2) :: draft)

def SpecDraft.require (path : Path) (mark : Mark) (draft : SpecDraft)
    (field : SpecField) : Fitting String :=
  match draft.lookup field with
  | some value => pure value
  | none => throw ⟨path, .missing field.name, mark⟩

def spec (document : Document) (path : Path) (node : Node) : Fitting Spec := do
  let (mark, entries) ← entries document path .spec node
  let draft ← entries.foldlM (SpecDraft.add document path mark) []
  let input ← draft.require path mark .input
  let output ← draft.require path mark .output
  let expression ← draft.require path mark .expression
  pure ⟨⟨input, output⟩, expression⟩

def specsFrom (document : Document) (path : Path) (first : Nat) :
    List Node → Fitting (List Spec)
  | [] => pure []
  | item :: rest => do
      let head ← spec document (path ++ [.index first]) item
      let tail ← specsFrom document path (first + 1) rest
      pure (head :: tail)

def specs (document : Document) (path : Path) (node : Node) :
    Fitting (List Spec) := do
  specsFrom document path 0 (← items document path node)

inductive ConfigField where
  | name
  | reuse
  | specs
  deriving DecidableEq, Repr

def ConfigField.key : ConfigField → String
  | .name => "name"
  | .reuse => "reuse_solvers_by_type"
  | .specs => "filters"

def ConfigField.ofKey? (key : String) : Option ConfigField :=
  [ConfigField.name, .reuse, .specs].find? (·.key == key)

structure ConfigDraft where
  name : Option String := none
  reuse : Option Bool := none
  specs : Option (List Spec) := none

def ConfigDraft.has (draft : ConfigDraft) : ConfigField → Bool
  | .name => draft.name.isSome
  | .reuse => draft.reuse.isSome
  | .specs => draft.specs.isSome

def ConfigDraft.add (document : Document) (mark : Mark) (draft : ConfigDraft)
    (entry : Node × Node) : Fitting ConfigDraft := do
  let (name, path) ← key document [] entry.1
  match ConfigField.ofKey? name with
  | none => pure draft
  | some field =>
      if draft.has field then throw ⟨[], .duplicate field.key, mark⟩
      else
        match field with
        | .name =>
            pure { draft with
              name := some (← text document path .text entry.2) }
        | .reuse =>
            pure { draft with reuse := some (← boolean document path entry.2) }
        | .specs =>
            pure { draft with
              specs := some (← Schema.specs document path entry.2) }

/-- Every field of a configuration may be left out. -/
def ConfigDraft.config (draft : ConfigDraft) : Config where
  name := draft.name.getD ""
  reuse := draft.reuse.getD false
  specs := draft.specs.getD []

/-- The configuration of a document, however many aliases are followed. -/
def fit (document : Document) : Fitting Config := do
  let (mark, entries) ← entries document [] .config document.root
  let draft ← entries.foldlM (ConfigDraft.add document mark) {}
  pure draft.config

def config (document : Document) : Except Error Config :=
  let (result, followed) := (fit document).run.run 0
  if document.aliasLimit < followed then .error .repetition
  else result.mapError .misfit

end EdgeFilters.Schema
