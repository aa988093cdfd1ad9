import EdgeFilters.Command.Run
import EdgeFilters.Proofs.Lines
import EdgeFilters.Proofs.RoundTrip

namespace EdgeFilters.Command

/-- A value attached to the long name of its option. -/
def ValueOption.argument (option : ValueOption) (value : String) : String :=
  "--" ++ option.name ++ "=" ++ value

def Switch.argument (switch : Switch) : String := "--" ++ switch.name

def switchArguments (reuse json : Bool) : List String :=
  (if reuse then [Switch.reuse.argument] else []) ++
    if json then [Switch.json.argument] else []

def arguments : Command → List String
  | .help => ["--help"]
  | .version => ["--version"]
  | .check file reuse =>
      "check" :: ValueOption.file.argument file :: switchArguments reuse false
  | .lookup file input output reuse json =>
      "lookup" :: ValueOption.file.argument file ::
        ValueOption.input.argument input ::
        ValueOption.output.argument output :: switchArguments reuse json

variable {subcommand : Subcommand} {given : Given} {rest : List String}

theorem ofString_argument (option : ValueOption) (value : String) :
    Argument.ofString (option.argument value) =
      .long option.name (some value) := by
  have letters : option.name.toList.all (· != '=') = true := by
    cases option <;> decide
  have layout : (option.argument value).toList =
      '-' :: '-' :: (option.name.toList ++ '=' :: value.toList) := by
    simp [ValueOption.argument]
  have filled : option.name.toList ++ '=' :: value.toList ≠ [] := by simp
  obtain ⟨c, tail, shape⟩ := List.exists_cons_of_ne_nil filled
  rw [Argument.ofString, layout, shape]
  simp only
  rw [← shape, Argument.ofLong,
    List.takeWhile_append_of_pos (List.all_eq_true.1 letters)]
  simp

theorem request_argument {option : ValueOption}
    (known : option ∈ subcommand.valueOptions) (value : String) :
    subcommand.request (option.argument value) =
      .ok (.value option (some value)) := by
  have found :
      subcommand.valueOptions.find? (·.name == option.name) = some option := by
    revert known
    cases subcommand <;> cases option <;> decide
  rw [Subcommand.request, ofString_argument]
  simp only [found]

theorem request_switch {switch : Switch}
    (known : switch ∈ subcommand.switches) :
    subcommand.request switch.argument = .ok (.switch switch) := by
  cases switch with
  | reuse => cases subcommand <;> rfl
  | json =>
      cases subcommand with
      | check => exact absurd known (by decide)
      | lookup => rfl

theorem readOptions_argument {option : ValueOption}
    (known : option ∈ subcommand.valueOptions)
    (fresh : given.values.lookup option = none) (value : String) :
    subcommand.readOptions given (option.argument value :: rest) =
      subcommand.readOptions
        { given with values := (option, value) :: given.values } rest := by
  have set : given.setValue option value =
      .ok { given with values := (option, value) :: given.values } := by
    rw [Given.setValue, fresh]
    rfl
  rw [Subcommand.readOptions.eq_def]
  simp only [bind, Except.bind, request_argument known, set]

theorem readOptions_switch {switch : Switch}
    (known : switch ∈ subcommand.switches) (fresh : switch ∉ given.switches) :
    subcommand.readOptions given (switch.argument :: rest) =
      subcommand.readOptions
        { given with switches := switch :: given.switches } rest := by
  have set : given.setSwitch switch =
      .ok { given with switches := switch :: given.switches } := by
    rw [Given.setSwitch, if_neg (by simpa using fresh)]
  rw [Subcommand.readOptions.eq_def]
  simp only [bind, Except.bind, request_switch known, set]

theorem readOptions_switches {values : List (ValueOption × String)}
    {json : Bool} (reuse : Bool)
    (known : json = true → Switch.json ∈ subcommand.switches) :
    subcommand.readOptions { values } (switchArguments reuse json) =
      .ok {
        values
        switches := (if json then [.json] else []) ++
          if reuse then [.reuse] else [] } := by
  have shared : Switch.reuse ∈ subcommand.switches := by
    cases subcommand <;> decide
  cases reuse <;> cases json <;>
    simp_all [switchArguments, readOptions_switch, Subcommand.readOptions]

theorem parse_arguments (command : Command) :
    parse command.arguments = .ok command := by
  cases command with
  | help => rfl
  | version => rfl
  | check file reuse =>
      have named : ∀ rest,
          parse ("check" :: rest) = Subcommand.check.parse rest := fun _ => rfl
      rw [arguments, named, Subcommand.parse,
        readOptions_argument (by decide) rfl,
        readOptions_switches reuse (by decide)]
      cases reuse <;> rfl
  | lookup file input output reuse json =>
      have named : ∀ rest,
          parse ("lookup" :: rest) = Subcommand.lookup.parse rest :=
        fun _ => rfl
      rw [arguments, named, Subcommand.parse,
        readOptions_argument (by decide) rfl,
        readOptions_argument (by decide) rfl,
        readOptions_argument (by decide) rfl,
        readOptions_switches reuse fun _ => by decide]
      cases reuse <;> cases json <;> rfl

example : arguments (.lookup "a.yaml" "b" "" true false) =
    ["lookup", "--file=a.yaml", "--input=b", "--output=", "--reuse"] := by
  decide

theorem runArguments_arguments (files : String → File) (command : Command) :
    runArguments files command.arguments = run files command := by
  rw [runArguments, parse_arguments]

variable {files : String → File} {file other : String} {config : Config}

def onFile (file : String) (reuse : Bool) : Command → Command
  | .help => .help
  | .version => .version
  | .check _ _ => .check file reuse
  | .lookup _ input output _ json => .lookup file input output reuse json

theorem loadTable_of_load {file : File} (loaded : Config.load file = .ok config)
    (reuse : Bool) :
    loadTable file reuse =
      .ok { config with reuse := config.reuse || reuse }.table.1 := by
  rw [loadTable, loaded]
  rfl

theorem loadTable_of_error {file : File} {error : Config.Error}
    (failed : Config.load file = .error error) (reuse : Bool) :
    loadTable file reuse = .error error := by
  rw [loadTable, failed]
  rfl

theorem run_onFile_congr {reuse sharing : Bool}
    (same : loadTable (files file) reuse = loadTable (files other) sharing)
    (command : Command) :
    run files (command.onFile file reuse) =
      run files (command.onFile other sharing) := by
  cases command <;> simp [onFile, run, report, same]

theorem run_onFile_reuse (here : Config.load (files file) = .ok config)
    (there : Config.load (files other) = .ok { config with reuse := true })
    (command : Command) :
    run files (command.onFile file true) =
      run files (command.onFile other false) := by
  apply run_onFile_congr
  rw [loadTable_of_load here, loadTable_of_load there]
  simp

theorem run_of_load (loaded : Config.load (files file) = .ok config)
    (reuse : Bool) :
    let table := { config with reuse := config.reuse || reuse }.table.1
    run files (.check file reuse) =
      ⟨0, Report.unlines (Report.bindings table), ""⟩ ∧
      (∀ input output, run files (.lookup file input output reuse false) =
        ⟨0, Report.unlines (Report.edge table ⟨input, output⟩), ""⟩) ∧
      ∀ input output,
        (run files (.lookup file input output reuse true)).status = 0 := by
  simp [run, report, loadTable_of_load loaded]

/-- `check` and `lookup` have a table of the same files, and report the same
one: every line of `check` is about one binding, `lookup` shows what the lines
about its edge end with, and `check` counts the edges for which `lookup` shows
anything. With `--reuse` a file is reported like one that asks for shared
conditions itself. -/
theorem reports_agree (files : String → File) (file : String) (reuse : Bool) :
    let checked := runArguments files (arguments (.check file reuse))
    let looked := fun (input output : String) (json : Bool) =>
      runArguments files (arguments (.lookup file input output reuse json))
    (∀ error, Config.load (files file) = .error error →
      checked.status = 1 ∧ checked.output = "" ∧ ∀ input output json,
        (looked input output json).status = 1 ∧
          (looked input output json).output = "") ∧
    ∀ config, Config.load (files file) = .ok config →
      let table := { config with reuse := config.reuse || reuse }.table.1
      checked.status = 0 ∧
        (∀ input output json, (looked input output json).status = 0) ∧
      (∃ filtered : List Edge, filtered.Nodup ∧
        (∀ edge, edge ∈ filtered ↔
          (looked edge.input edge.output false).output ≠
            edge.input ++ " -> " ++ edge.output ++ ": unfiltered\n") ∧
        checked.output = Report.unlines
          (table.entries.map (fun (edge, solver) =>
              edge.input ++ " -> " ++ edge.output ++ ": " ++
                (solver.typeTag ++ "=" ++ "|".intercalate solver.operands)) ++
            [toString table.entries.length ++ " bindings on " ++
              toString filtered.length ++ " edges"])) ∧
      (∀ input output, (looked input output false).output =
        match table.entries.filter (·.1 == ⟨input, output⟩) with
        | [] => input ++ " -> " ++ output ++ ": unfiltered\n"
        | entries => Report.unlines (entries.map fun (_, solver) =>
            solver.typeTag ++ "=" ++ "|".intercalate solver.operands)) ∧
      (∀ other, Config.load (files other) = .ok { config with reuse := true } →
        ∀ command : Command,
          runArguments files (command.onFile file true).arguments =
            runArguments files (command.onFile other false).arguments) ∧
      (config.reuse = true → ∀ command : Command,
        runArguments files (command.onFile file true).arguments =
          runArguments files (command.onFile file false).arguments) := by
  intro checked looked
  simp -zeta only [checked, looked, runArguments_arguments]
  refine ⟨fun error failed => ?_, fun config loaded => ?_⟩
  · simp [run, report, loadTable_of_error failed]
  · intro table
    obtain ⟨checks, looks, prints⟩ := run_of_load loaded reuse
    have aligned : table.Aligned := (Table.Origin.ofConfig _).aligned_table
    refine ⟨?_, ?_, ⟨table.edges, nodup_eraseDups _, ?_, ?_⟩, ?_, ?_, ?_⟩
    · rw [checks]
    · intro input output json
      cases json with
      | false => rw [looks]
      | true => exact prints input output
    · intro edge
      rw [looks, aligned.mem_edges_iff, ne_eq, ne_eq,
        ← Report.unlines_edge_eq_unfiltered_iff, Report.unlines_unfiltered]
    · rw [checks, Report.bindings, aligned.length_eq_entries, List.length_map]
      rfl
    · intro input output
      rw [looks, Report.edge_eq, Table.find_eq_entries]
      cases table.entries.filter (·.1 == ⟨input, output⟩) with
      | nil => exact Report.unlines_unfiltered ⟨input, output⟩
      | cons entry rest =>
          rw [if_neg (by simp), List.map_map]
          rfl
    · exact fun other there command => run_onFile_reuse loaded there command
    · intro shared command
      apply run_onFile_reuse loaded
      rw [loaded, ← shared]

theorem load_of_text (text : String) :
    Config.load (.content text.toUTF8) = Config.parse text := by
  have read : String.fromUTF8? text.toUTF8 = some text := by
    simp only [String.fromUTF8?, String.toUTF8_eq_toByteArray,
      dif_pos text.isValidUTF8]
    rfl
  rw [Config.load, File.text, read]
  rfl

theorem reports_agree_shared :
    let config : Config :=
      ⟨"", false, [⟨⟨"a", "b"⟩, "Label=x,Label=y"⟩, ⟨⟨"a", "c"⟩, "Label>>x"⟩]⟩
    let files : String → File := fun path =>
      .content (Config.written { config with reuse := path == "shared" }).toUTF8
    Config.load (files "plain") = .ok config ∧
      (runArguments files (arguments (.check "plain" false))).status = 0 ∧
      (∃ filtered : List Edge, filtered.Nodup ∧
        (runArguments files (arguments (.check "plain" false))).output =
          Report.unlines
            ["a -> b: Label=x", "a -> b: Label=y", "a -> c: Label=>x",
             "3 bindings on " ++ toString filtered.length ++ " edges"]) ∧
      (runArguments files
        (arguments (.lookup "plain" "a" "b" false false))).output =
        "Label=x\nLabel=y\n" ∧
      (runArguments files
        (arguments (.lookup "plain" "b" "a" false false))).output =
        "b -> a: unfiltered\n" ∧
      runArguments files (arguments (.lookup "plain" "a" "b" true true)) =
        runArguments files
          (arguments (.lookup "shared" "a" "b" false true)) := by
  intro config files
  have filled : ∀ spec ∈ config.specs, spec.edge.Filled := by
    decide +kernel +zetaReduce
  have loads (path : String) : Config.load (files path) =
      .ok { config with reuse := path == "shared" } :=
    (load_of_text _).trans (Config.parse_written_of_filled _ filled)
  have here : Config.load (files "plain") = .ok config := loads "plain"
  have there : Config.load (files "shared") =
      .ok { config with reuse := true } := loads "shared"
  have listed :
      ({ config with reuse := config.reuse || false } :
        Config).table.1.entries =
      [(⟨"a", "b"⟩, ⟨.label, ["x"]⟩), (⟨"a", "b"⟩, ⟨.label, ["y"]⟩),
       (⟨"a", "c"⟩, ⟨.label, [">x"]⟩)] := by
    decide +kernel +zetaReduce
  obtain ⟨-, agree⟩ := reports_agree files "plain" false
  obtain ⟨status, -, ⟨filtered, distinct, -, printed⟩, found, sharing, -⟩ :=
    agree config here
  rw [listed] at printed found
  have onEdge (input output : String) :
      (runArguments files
        (arguments (.lookup "plain" input output false false))).output = _ :=
    found input output
  exact ⟨here, status, ⟨filtered, distinct, printed⟩, onEdge "a" "b",
    onEdge "b" "a", sharing "shared" there (.lookup "" "a" "b" true true)⟩

end EdgeFilters.Command
