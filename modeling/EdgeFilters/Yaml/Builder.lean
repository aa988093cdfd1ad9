import EdgeFilters.Yaml.Fault
import EdgeFilters.Yaml.Node

/-! From tokens to a document. The collections that are still open are frames on
a stack, and an expectation says what the next token may be. -/

namespace EdgeFilters.Yaml

inductive SequenceForm where
  | block
  /-- A block sequence in a mapping, no further in than its key. -/
  | indentless
  | flow
  deriving DecidableEq, Repr

inductive MappingForm where
  | block
  | flow
  /-- A single pair among the items of a flow sequence. -/
  | pair
  deriving DecidableEq, Repr

/-- Which part of a mapping is read next. -/
inductive Place where
  | key
  /-- A key without a question mark or colon, and so without a value. -/
  | bareKey
  | value (key : Node)

/-- An open collection with its parts so far, latest first. -/
inductive Frame where
  | sequence (form : SequenceForm) (site : Site) (items : List Node)
  | mapping (form : MappingForm) (site : Site) (entries : List (Node × Node))
      (place : Place)

/-- What precedes the content of a node. -/
structure Properties where
  mark : Mark
  slot : Option Nat := none
  tag : Option String := none
  deriving DecidableEq, Repr

def Properties.site (properties : Properties) : Site :=
  ⟨properties.mark, properties.slot⟩

inductive Expectation where
  /-- The first token. -/
  | stream
  /-- Further directives, or the start of the document. -/
  | prologue
  /-- A node; if it is left out, the absent node stands at `gap` or at
  the next token. -/
  | node (gap : Option Mark) (properties : Option Properties)
  /-- An item of a sequence, or its end. -/
  | item
  /-- A comma, or the end of a flow collection. -/
  | comma
  /-- A key of a mapping, or its end. -/
  | key
  /-- The colon behind a key. -/
  | value
  /-- The value that a bare key does not have. -/
  | missingValue
  /-- The end of the document. -/
  | ending
  /-- Nothing more. -/
  | nothing

structure Builder where
  frames : List Frame := []
  expectation : Expectation := .stream
  root : Option Node := none
  handles : List (String × String) := []
  versionSeen : Bool := false
  /-- The slots of the anchor names. -/
  slots : List (String × Nat) := []

namespace Builder

def expect (builder : Builder) (expectation : Expectation) : Builder :=
  { builder with expectation }

def enter (builder : Builder) (frame : Frame) (expectation : Expectation) :
    Builder :=
  { builder with frames := frame :: builder.frames, expectation }

/-- The frames with a node added to the innermost collection, and what is
expected next. A single pair is complete with its value and goes to the
sequence around it. -/
def place (node : Node) : List Frame → List Frame × Expectation
  | [] => ([], .ending)
  | .sequence form site items :: rest =>
      (.sequence form site (node :: items) :: rest,
        match form with
        | .block | .indentless => .item
        | .flow => .comma)
  | .mapping form site entries .key :: rest =>
      (.mapping form site entries (.value node) :: rest, .value)
  | .mapping form site entries .bareKey :: rest =>
      (.mapping form site entries (.value node) :: rest, .missingValue)
  | .mapping form site entries (.value key) :: rest =>
      match form with
      | .block =>
          (.mapping form site ((key, node) :: entries) .key :: rest, .key)
      | .flow =>
          (.mapping form site ((key, node) :: entries) .key :: rest, .comma)
      | .pair => place (.mapping site [(key, node)]) rest

/-- The node is complete; outside all collections it is the root. -/
def complete (builder : Builder) (node : Node) : Builder :=
  let (frames, expectation) := place node builder.frames
  { builder with
    frames
    expectation
    root := if builder.frames.isEmpty then some node else builder.root }

/-- The innermost collection is complete. -/
def close (builder : Builder) : Builder :=
  match builder.frames with
  | [] => builder
  | .sequence _ site items :: rest =>
      { builder with frames := rest }.complete (.sequence site items.reverse)
  | .mapping _ site entries _ :: rest =>
      { builder with frames := rest }.complete (.mapping site entries.reverse)

/-- A name takes the slot numbered by how many names are known, also when it
is known already. -/
def declare (builder : Builder) (name : String) : Builder × Nat :=
  let slot := builder.slots.length
  ({ builder with
    slots := (name, slot) :: builder.slots.filter (·.1 != name) }, slot)

def defaultHandles : List (String × String) :=
  [("!", "!"), ("!!", "tag:yaml.org,2002:")]

def tag? (builder : Builder) (handle : Option String) (suffix : String) :
    Option String :=
  match handle with
  | none => some suffix
  | some name =>
      ((builder.handles ++ defaultHandles).lookup name).map (· ++ suffix)

/-- Whether a node may be left out before this token. -/
def omits (builder : Builder) (symbol : Symbol) : Bool :=
  match builder.frames with
  | [] =>
      match symbol with
      | .version _ _ | .handle _ _ | .documentStart | .documentEnd | .finish =>
          true
      | _ => false
  | .sequence .block _ _ :: _ => symbol == .entry || symbol == .blockEnd
  | .sequence .indentless _ _ :: _ =>
      symbol == .entry || symbol == .key || symbol == .value ||
        symbol == .blockEnd
  | .mapping .block _ _ _ :: _ =>
      symbol == .key || symbol == .value || symbol == .blockEnd
  | .sequence .flow _ _ :: _ => false
  | .mapping .flow _ _ .key :: _ =>
      symbol == .value || symbol == .comma || symbol == .mappingEnd
  | .mapping .flow _ _ (.value _) :: _ =>
      symbol == .comma || symbol == .mappingEnd
  | .mapping .flow _ _ .bareKey :: _ => false
  | .mapping .pair _ _ .key :: _ =>
      symbol == .value || symbol == .comma || symbol == .sequenceEnd
  | .mapping .pair _ _ _ :: _ => symbol == .comma || symbol == .sequenceEnd

/-- The key of a single pair is left out together with the token behind it. -/
def swallows (builder : Builder) : Bool :=
  match builder.frames with
  | .mapping .pair _ _ .key :: _ => true
  | _ => false

/-- Whether block collections may start here. -/
def allowsBlock (builder : Builder) : Bool :=
  match builder.frames with
  | [] | .sequence .block _ _ :: _ | .sequence .indentless _ _ :: _
  | .mapping .block _ _ _ :: _ => true
  | _ => false

/-- Whether a dash may start a sequence no further in than the key before it. -/
def allowsIndentless (builder : Builder) : Bool :=
  match builder.frames with
  | .mapping .block _ _ _ :: _ => true
  | _ => false

/-- A token at the place of a node: the node, the start of a collection, or a
property. `none` if it is none of these. -/
def content? (builder : Builder) (token : Token)
    (properties : Option Properties) :
    Reading (Option Builder) := do
  let known : Properties := properties.getD { mark := token.mark }
  let site := known.site
  match token.symbol with
  | .alias name =>
      match properties, builder.slots.lookup name with
      | none, some slot => pure (some (builder.complete (.alias slot)))
      | none, none => fault token.mark (.unknownAnchor name)
      | some _, _ => fault token.mark .unexpectedToken
  | .anchor name =>
      if known.slot.isSome then fault token.mark .unexpectedToken
      else
        let (builder, slot) := builder.declare name
        pure (some
          (builder.expect (.node none (some { known with slot := some slot }))))
  | .tag handle suffix =>
      if known.tag.isSome then fault token.mark .unexpectedToken
      else
        match builder.tag? handle suffix with
        | none => fault token.mark .unknownHandle
        | some tag =>
            pure (some
              (builder.expect
                (.node none (some { known with tag := some tag }))))
  | .scalar style text =>
      let tag := known.tag.filter (· != "!")
      pure (some (builder.complete (.scalar site tag style text)))
  | .sequenceStart =>
      pure (some (builder.enter (.sequence .flow site []) .item))
  | .mappingStart =>
      pure (some (builder.enter (.mapping .flow site [] .key) .key))
  | .blockSequenceStart =>
      if builder.allowsBlock then
        pure (some (builder.enter (.sequence .block site []) .item))
      else pure none
  | .blockMappingStart =>
      if builder.allowsBlock then
        pure (some (builder.enter (.mapping .block site [] .key) .key))
      else pure none
  | .entry =>
      if builder.allowsIndentless then
        pure (some (builder.enter (.sequence .indentless site [])
          (.node (some (token.mark.next '-')) none)))
      else pure none
  | _ => pure none

/-- A token that has to start a node. -/
def content (builder : Builder) (token : Token) : Reading Builder := do
  match ← builder.content? token none with
  | some builder => pure builder
  | none => fault token.mark .unexpectedToken

/-- A key without a colon behind it has an absent value. -/
def fillValue (builder : Builder) (token : Token) : Builder :=
  match builder.expectation with
  | .value =>
      if token.symbol == .value then builder
      else builder.complete (.absent token.mark)
  | .missingValue => builder.complete (.absent token.mark)
  | _ => builder

/-- A sequence no further in than its key ends where no dash follows. -/
def closeIndentless (builder : Builder) (token : Token) : Builder :=
  match builder.expectation, builder.frames with
  | .item, .sequence .indentless _ _ :: _ =>
      if token.symbol == .entry then builder else builder.close
  | _, _ => builder

def directive (builder : Builder) (token : Token) : Reading Builder :=
  match token.symbol with
  | .version major minor =>
      if builder.versionSeen then fault token.mark .repeatedDirective
      else if major = 1 ∧ (minor = 1 ∨ minor = 2) then
        .ok { builder with versionSeen := true, expectation := .prologue }
      else fault token.mark .unsupportedVersion
  | .handle name start =>
      if (builder.handles.lookup name).isSome then
        fault token.mark .repeatedDirective
      else
        .ok { builder with
          handles := (name, start) :: builder.handles
          expectation := .prologue }
  | .documentStart => .ok (builder.expect (.node none none))
  | _ => fault token.mark .unexpectedToken

/-- A token where no node is due. -/
def shift (builder : Builder) (token : Token) : Reading Builder :=
  let behind : Expectation := .node (some (token.mark.next '-')) none
  match builder.expectation, builder.frames, token.symbol with
  | .stream, _, .finish => .ok (builder.expect .nothing)
  | .stream, _, .version _ _ | .stream, _, .handle _ _
  | .stream, _, .documentStart =>
      builder.directive token
  | .stream, _, _ => builder.content token
  | .prologue, _, _ => builder.directive token
  | .ending, _, .documentEnd => .ok builder
  | .ending, _, .finish => .ok (builder.expect .nothing)
  | .ending, _, .documentStart => fault token.mark .furtherDocument
  | .item, .sequence .block _ _ :: _, .entry
  | .item, .sequence .indentless _ _ :: _, .entry => .ok (builder.expect behind)
  | .item, .sequence .block _ _ :: _, .blockEnd => .ok builder.close
  | .item, .sequence .flow _ _ :: _, .sequenceEnd => .ok builder.close
  | .item, .sequence .flow _ _ :: _, .key =>
      .ok (builder.enter (.mapping .pair { mark := token.mark } [] .key)
        (.node none none))
  | .item, .sequence .flow _ _ :: _, _ => builder.content token
  | .comma, .sequence .flow _ _ :: _, .comma => .ok (builder.expect .item)
  | .comma, .sequence .flow _ _ :: _, .sequenceEnd => .ok builder.close
  | .comma, .mapping .flow _ _ _ :: _, .comma => .ok (builder.expect .key)
  | .comma, .mapping .flow _ _ _ :: _, .mappingEnd => .ok builder.close
  | .key, .mapping .block _ _ _ :: _, .key => .ok (builder.expect behind)
  | .key, .mapping .block _ _ _ :: _, .blockEnd => .ok builder.close
  | .key, .mapping .flow _ _ _ :: _, .key =>
      .ok (builder.expect (.node none none))
  | .key, .mapping .flow _ _ _ :: _, .mappingEnd => .ok builder.close
  | .key, .mapping .flow site entries _ :: rest, _ =>
      { builder with
        frames := .mapping .flow site entries .bareKey :: rest }.content token
  | .value, .mapping .block _ _ _ :: _, .value => .ok (builder.expect behind)
  | .value, _, .value => .ok (builder.expect (.node none none))
  | _, _, _ => fault token.mark .unexpectedToken

/-- A token behind a complete node. -/
def settle (builder : Builder) (token : Token) : Reading Builder :=
  (((builder.fillValue token).closeIndentless token).fillValue token).shift
    token

def feed (builder : Builder) (token : Token) : Reading Builder := do
  match builder.expectation with
  | .node gap none =>
      if builder.omits token.symbol then
        let filled := builder.complete (.absent (gap.getD token.mark))
        if builder.swallows then pure filled else filled.settle token
      else builder.content token
  | .node _ (some properties) =>
      match ← builder.content? token (some properties) with
      | some builder => pure builder
      | none =>
          let node : Node := .scalar properties.site properties.tag .plain ""
          (builder.complete node).settle token
  | _ => builder.settle token

end Builder

/-- The document of a token list; `none` if there is none in it. -/
def Document.ofTokens (tokens : List Token) : Reading (Option Document) := do
  let builder ← tokens.foldlM Builder.feed {}
  match builder.expectation with
  | .nothing => pure (builder.root.map .ofRoot)
  | _ => fault ((tokens.getLast?.map (·.mark)).getD .start) .unexpectedToken

end EdgeFilters.Yaml
