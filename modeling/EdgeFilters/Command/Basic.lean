/-! Options are read from left to right; the first that does not fit stops. -/

namespace EdgeFilters

inductive Command where
  | help
  | version
  | check (file : String) (reuse : Bool)
  | lookup (file input output : String) (reuse json : Bool)
  deriving DecidableEq, Repr

namespace Command

inductive Usage where
  | noSubcommand
  | unexpected (argument : String)
  | repeated (option : String)
  | missingValue (option : String)
  | missingOption (option : String)
  deriving DecidableEq, Repr

def Usage.message : Usage → String
  | .noSubcommand => "a subcommand is required"
  | .unexpected argument => "unexpected argument '" ++ argument ++ "'"
  | .repeated option => "the option '--" ++ option ++ "' is given twice"
  | .missingValue option => "the option '--" ++ option ++ "' needs a value"
  | .missingOption option => "the option '--" ++ option ++ "' is required"

/-- The forms of an argument. -/
inductive Argument where
  | endOfOptions
  | long (name : String) (attached : Option String)
  | short (letter : Char) (attached : Option String)
  | word (text : String)
  deriving DecidableEq, Repr

/-- A value attached to a long option stands behind an equals sign. -/
def Argument.ofLong (text : List Char) : Argument :=
  let name := text.takeWhile (· != '=')
  match text.drop name.length with
  | [] => .long (.ofList name) none
  | _ :: value => .long (.ofList name) (some (.ofList value))

/-- A value attached to a short option may stand behind an equals sign. -/
def Argument.ofShort (letter : Char) : List Char → Argument
  | [] => .short letter none
  | '=' :: value => .short letter (some (.ofList value))
  | value => .short letter (some (.ofList value))

/-- A single dash is a word, like everything that does not start with one. -/
def Argument.ofString (text : String) : Argument :=
  match text.toList with
  | ['-', '-'] => .endOfOptions
  | '-' :: '-' :: rest => ofLong rest
  | '-' :: letter :: rest => ofShort letter rest
  | _ => .word text

inductive ValueOption where
  | file
  | input
  | output
  deriving DecidableEq, Repr

inductive Switch where
  | reuse
  | json
  deriving DecidableEq, Repr

def ValueOption.name : ValueOption → String
  | .file => "file"
  | .input => "input"
  | .output => "output"

def ValueOption.letter : ValueOption → Char
  | .file => 'f'
  | .input => 'i'
  | .output => 'o'

def Switch.name : Switch → String
  | .reuse => "reuse"
  | .json => "json"

inductive Subcommand where
  | check
  | lookup
  deriving DecidableEq, Repr

def Subcommand.valueOptions : Subcommand → List ValueOption
  | .check => [.file]
  | .lookup => [.file, .input, .output]

def Subcommand.switches : Subcommand → List Switch
  | .check => [.reuse]
  | .lookup => [.reuse, .json]

structure Given where
  values : List (ValueOption × String) := []
  switches : List Switch := []
  helpAsked : Bool := false

def Given.setValue (given : Given) (option : ValueOption) (value : String) :
    Except Usage Given :=
  if (given.values.lookup option).isSome then .error (.repeated option.name)
  else .ok { given with values := (option, value) :: given.values }

def Given.setSwitch (given : Given) (switch : Switch) : Except Usage Given :=
  if given.switches.contains switch then .error (.repeated switch.name)
  else .ok { given with switches := switch :: given.switches }

/-- What an argument at the place of an option asks for. -/
inductive Request where
  | help
  | noMore
  | switch (switch : Switch)
  | value (option : ValueOption) (attached : Option String)

def Subcommand.request (subcommand : Subcommand) (argument : String) :
    Except Usage Request :=
  match Argument.ofString argument with
  | .endOfOptions => .ok .noMore
  | .word text => .error (.unexpected text)
  | .long name attached =>
      match subcommand.valueOptions.find? (·.name == name) with
      | some option => .ok (.value option attached)
      | none =>
          if attached.isSome then .error (.unexpected argument)
          else if name == "help" then .ok .help
          else
            match subcommand.switches.find? (·.name == name) with
            | some switch => .ok (.switch switch)
            | none => .error (.unexpected argument)
  | .short letter attached =>
      match subcommand.valueOptions.find? (·.letter == letter) with
      | some option => .ok (.value option attached)
      | none =>
          if letter == 'h' then .ok .help else .error (.unexpected argument)

/-- Reads the options of a subcommand. A value that is not attached is the next
argument, which must be a word. -/
def Subcommand.readOptions (subcommand : Subcommand) (given : Given) :
    List String → Except Usage Given
  | [] => .ok given
  | argument :: rest => do
      match ← subcommand.request argument with
      | .help => pure { given with helpAsked := true }
      | .noMore =>
          match rest with
          | [] => pure given
          | surplus :: _ => throw (.unexpected surplus)
      | .switch switch => subcommand.readOptions (← given.setSwitch switch) rest
      | .value option (some value) =>
          subcommand.readOptions (← given.setValue option value) rest
      | .value option none =>
          match rest with
          | [] => throw (.missingValue option.name)
          | value :: rest =>
              match Argument.ofString value with
              | .word _ =>
                  subcommand.readOptions (← given.setValue option value) rest
              | _ => throw (.missingValue option.name)

def Given.require (given : Given) (option : ValueOption) :
    Except Usage String :=
  match given.values.lookup option with
  | some value => .ok value
  | none => .error (.missingOption option.name)

/-- The command of a subcommand with these options; a request for help comes
before options that are missing. -/
def Subcommand.command (subcommand : Subcommand) (given : Given) :
    Except Usage Command := do
  let reuse := given.switches.contains .reuse
  if given.helpAsked then pure .help
  else
    match subcommand with
    | .check => pure (.check (← given.require .file) reuse)
    | .lookup =>
        let file ← given.require .file
        let input ← given.require .input
        let output ← given.require .output
        pure (.lookup file input output reuse (given.switches.contains .json))

def Subcommand.parse (subcommand : Subcommand) (arguments : List String) :
    Except Usage Command := do
  subcommand.command (← subcommand.readOptions {} arguments)

def Subcommand.named : List (String × Subcommand) :=
  [("check", .check), ("lookup", .lookup)]

/-- What follows the word `help`: the name of one subcommand at most,
itself among them. -/
def parseHelp : List String → Except Usage Command
  | [] => .ok .help
  | name :: rest =>
      if (Subcommand.named.lookup name).isSome || name == "help" then
        match rest with
        | [] => .ok .help
        | surplus :: _ => .error (.unexpected surplus)
      else .error (.unexpected name)

def parse : List String → Except Usage Command
  | [] => .error .noSubcommand
  | first :: rest =>
      match Argument.ofString first with
      | .word name =>
          match Subcommand.named.lookup name with
          | some subcommand => subcommand.parse rest
          | none =>
              if name == "help" then parseHelp rest
              else .error (.unexpected first)
      | .long name none =>
          if name == "help" then .ok .help
          else if name == "version" then .ok .version
          else .error (.unexpected first)
      | .short letter _ =>
          if letter == 'h' then .ok .help
          else if letter == 'V' then .ok .version
          else .error (.unexpected first)
      | _ => .error (.unexpected first)

end Command

end EdgeFilters
