import EdgeFilters.Dump
import EdgeFilters.File
import EdgeFilters.Schema
import EdgeFilters.Yaml.Document

namespace EdgeFilters.Config

/-- A configuration that fits its schema and is of no use. -/
structure Invalid where
  reason : String
  deriving DecidableEq, Repr

def Invalid.message (invalid : Invalid) : String :=
  "Configuration error: " ++ invalid.reason

def Invalid.dump (invalid : Invalid) : Dump :=
  .tuple "Config" [.text invalid.reason]

inductive Error where
  | file (cause : File.Error)
  | document (cause : Yaml.Fault)
  | schema (cause : Schema.Error)
  | invalid (cause : Invalid)
  deriving DecidableEq, Repr

def Error.message : Error → String
  | .file cause => cause.message
  | .document cause => cause.message
  | .schema cause => cause.message
  | .invalid cause => cause.message

/-- The configuration of a document; without a document every
field is left out. -/
def decode : Option Yaml.Document → Except Schema.Error Config
  | none => .ok {}
  | some document => Schema.config document

/-- A configuration in which every edge has two ends. -/
def validate (config : Config) : Except Invalid Config :=
  match config.blankEnd? with
  | some blank => .error ⟨blank.message⟩
  | none => .ok config

/-- The document comes first, then the schema, then the edges. -/
def parse (text : String) : Except Error Config := do
  let document ← (Yaml.Document.read text).mapError .document
  let config ← (decode document).mapError .schema
  config.validate.mapError .invalid

def load (file : File) : Except Error Config := do
  parse (← file.text.mapError .file)

end EdgeFilters.Config
