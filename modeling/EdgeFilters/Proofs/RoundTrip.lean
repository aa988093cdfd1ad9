import EdgeFilters.Proofs.Acceptance
import EdgeFilters.Proofs.Tokens
import EdgeFilters.Proofs.Trees

namespace EdgeFilters

open Yaml (Document Flow Node Word)

/-- What was written from a flow is read as a document that shows the flow. -/
theorem Yaml.Document.read_flow (flow : Flow) :
    ∃ root, flow.Shows root ∧
      Document.read (.ofList flow.text) = .ok (some (.ofRoot root)) := by
  obtain ⟨found, lexed, layout⟩ := Yaml.tokens_flow flow
  obtain ⟨root, shown, built⟩ := Yaml.ofTokens_flow flow layout
  refine ⟨root, shown, ?_⟩
  rw [Document.read, String.toList_ofList, lexed]
  exact built

def Spec.flow (spec : Spec) : Flow :=
  .mapping
    [(⟨"input", by decide, by decide, by decide⟩, .quoted spec.edge.input),
     (⟨"output", by decide, by decide, by decide⟩, .quoted spec.edge.output),
     (⟨"filters", by decide, by decide, by decide⟩, .quoted spec.expression)]

def booleanWord : Bool → Word
  | true => ⟨"true", by decide, by decide, by decide⟩
  | false => ⟨"false", by decide, by decide, by decide⟩

namespace Config

def flow (config : Config) : Flow :=
  .mapping
    [(⟨"name", by decide, by decide, by decide⟩, .quoted config.name),
     (⟨"reuse_solvers_by_type", by decide, by decide, by decide⟩,
       .word (booleanWord config.reuse)),
     (⟨"filters", by decide, by decide, by decide⟩,
       .sequence (config.specs.map Spec.flow))]

/-- The configuration on one line, with every text between double quotes. -/
def written (config : Config) : String := .ofList config.flow.text

end Config

namespace Schema

variable {document : Document} {node : Node} {nodes : List (Node × Node)}
  {flow : Flow} {entries : List (Word × Flow)} {names : List String}

/-- The node is written like this key, and the other shows this value. -/
def ShowsEntry (entry : Word × Flow) (node : Node × Node) : Prop :=
  (∃ mark, node.1 = .scalar { mark } none .plain entry.1.text) ∧
    entry.2.Shows node.2

theorem ShowsEntry.holdsText {entry : Word × Flow} {node : Node × Node}
    (shown : ShowsEntry entry node) :
    HoldsText document node.1 entry.1.text := by
  obtain ⟨⟨mark, here⟩, -⟩ := shown
  rw [here]
  exact ⟨_, _, _, rfl⟩

theorem ShowsEntry.aliasCount {entry : Word × Flow} {node : Node × Node}
    (shown : ShowsEntry entry node) : node.1.aliasCount = 0 := by
  obtain ⟨⟨mark, here⟩, -⟩ := shown
  rw [here]
  rfl

theorem exists_entries_of_shows (shown : (Flow.mapping entries).Shows node) :
    ∃ site nodes, node = .mapping site nodes ∧
      List.Forall₂ ShowsEntry entries nodes := by
  cases shown with
  | mapping keys values =>
      refine ⟨_, _, rfl, ?_⟩
      induction keys with
      | nil => exact .nil
      | cons key _ ih =>
          cases values with
          | cons value values => exact .cons ⟨key, value⟩ (ih values)

theorem keysAreTexts_of_shows (shown : List.Forall₂ ShowsEntry entries nodes) :
    KeysAreTexts document nodes := by
  induction shown with
  | nil => exact keysAreTexts_nil
  | cons first _ ih => exact keysAreTexts_cons.2 ⟨⟨_, first.holdsText⟩, ih⟩

/-- The values under some names show what was written under them. -/
theorem shows_valuesOf (shown : List.Forall₂ ShowsEntry entries nodes) :
    List.Forall₂ Flow.Shows ((entries.filter (·.1.text ∈ names)).map Prod.snd)
      (valuesOf document names nodes) := by
  induction shown with
  | nil => exact .nil
  | @cons entry node _ _ first _ ih =>
      by_cases member : entry.1.text ∈ names
      · rw [valuesOf_cons_of_mem first.holdsText member,
          List.filter_cons_of_pos (by simpa)]
        exact .cons first.2 ih
      · rw [valuesOf_cons_of_not_mem first.holdsText member,
          List.filter_cons_of_neg (by simpa)]
        exact ih

theorem holdsOne_of_shows {α : Type} {holds : Node → α → Prop} {content : α}
    (shown : List.Forall₂ ShowsEntry entries nodes)
    (alone : (entries.filter (·.1.text ∈ names)).map Prod.snd = [flow])
    (held : ∀ node, flow.Shows node → holds node content) :
    HoldsOne document holds names nodes content := by
  have values : List.Forall₂ Flow.Shows _ (valuesOf document names nodes) :=
    shows_valuesOf shown
  rw [alone] at values
  cases here : valuesOf document names nodes with
  | nil =>
      rw [here] at values
      cases values
  | cons value others =>
      rw [here] at values
      cases values with
      | cons first rest =>
          cases rest
          exact ⟨value, here, held value first⟩

theorem holdsText_of_quoted {text : String} (node : Node)
    (shown : (Flow.quoted text).Shows node) : HoldsText document node text := by
  cases shown
  exact ⟨_, _, _, rfl⟩

theorem fitsSpec_of_shows {spec : Spec} (shown : spec.flow.Shows node) :
    FitsSpec document node spec := by
  obtain ⟨site, nodes, rfl, all⟩ := exists_entries_of_shows shown
  exact ⟨nodes, .mapping rfl, keysAreTexts_of_shows all,
    holdsOne_of_shows all rfl holdsText_of_quoted,
    holdsOne_of_shows all rfl holdsText_of_quoted,
    holdsOne_of_shows all rfl holdsText_of_quoted⟩

theorem fits_of_shows {config : Config}
    (shown : config.flow.Shows document.root) : Fits document config := by
  obtain ⟨site, nodes, here, all⟩ := exists_entries_of_shows shown
  refine ⟨nodes, .mapping (by rw [here]; rfl), keysAreTexts_of_shows all,
    ?_, ?_, ?_⟩
  · exact .inr (holdsOne_of_shows all rfl holdsText_of_quoted)
  · refine .inr (holdsOne_of_shows all rfl fun node shown => ?_)
    cases shown
    refine .plain rfl ?_
    cases config.reuse <;> decide
  · refine .inr (holdsOne_of_shows all rfl fun node shown => ?_)
    cases shown with
    | sequence items =>
        refine ⟨_, .sequence rfl, ?_⟩
        rw [List.forall₂_map_left_iff] at items
        exact items.flip.imp fun _ _ => fitsSpec_of_shows

theorem aliasCount_of_shows (shown : flow.Shows node) :
    node.aliasCount = 0 := by
  cases shown <;> rfl

theorem aliasesIn_of_shows {price : String → Node → Nat}
    (shown : List.Forall₂ ShowsEntry entries nodes)
    (free : ∀ name node (flow : Flow), flow.Shows node → price name node = 0) :
    aliasesIn document price nodes = 0 := by
  induction shown with
  | nil => rfl
  | cons first _ ih =>
      rw [aliasesIn_cons first.holdsText, first.aliasCount,
        free _ _ _ first.2, ih]

theorem specAliases_of_shows (shown : flow.Shows node) :
    specAliases document node = 0 := by
  have unaliased := aliasCount_of_shows shown
  cases flow with
  | word bare => cases shown; rfl
  | quoted content => cases shown; rfl
  | sequence items => cases shown; rfl
  | mapping entries =>
      obtain ⟨site, nodes, rfl, all⟩ := exists_entries_of_shows shown
      rw [specAliases_eq (.mapping rfl), unaliased, aliasesIn_of_shows all]
      intro name node flow shown
      rw [specPrice, aliasCount_of_shows shown, ite_self]

theorem specsAliases_of_shows (shown : flow.Shows node) :
    specsAliases document node = 0 := by
  cases shown with
  | word => rfl
  | quoted => rfl
  | mapping => rfl
  | sequence shown =>
      rw [specsAliases_eq (.sequence rfl), Node.aliasCount, Nat.zero_add]
      induction shown with
      | nil => rfl
      | cons first _ ih =>
          rw [List.map_cons, List.sum_cons, specAliases_of_shows first, ih]

theorem aliases_of_shows (shown : (Flow.mapping entries).Shows document.root) :
    aliases document = 0 := by
  have unaliased := aliasCount_of_shows shown
  obtain ⟨site, nodes, here, all⟩ := exists_entries_of_shows shown
  rw [aliases_eq (.mapping (by rw [here]; rfl)), unaliased,
    aliasesIn_of_shows all]
  intro name node flow shown
  rw [configPrice, specsAliases_of_shows shown, aliasCount_of_shows shown,
    ite_self, ite_self]

end Schema

namespace Config

variable (config : Config)

theorem decoded?_written : decoded? config.written = some config := by
  obtain ⟨root, shown, read⟩ := Document.read_flow config.flow
  have unaliased : Schema.aliases (.ofRoot root) = 0 :=
    Schema.aliases_of_shows shown
  apply decoded?_eq_some_iff.2
  refine ⟨_, read,
    decode_eq_ok_iff.2 (.inr ⟨_, rfl, Schema.fits_of_shows shown, ?_⟩)⟩
  rw [unaliased]
  exact Nat.zero_le _

theorem parse_written_eq :
    parse config.written = config.validate.mapError .invalid :=
  parse_of_decoded (decoded?_written config)

theorem parse_written_of_filled
    (filled : ∀ spec ∈ config.specs, spec.edge.Filled) :
    parse config.written = .ok config := by
  rw [parse_written_eq, validate_eq_ok_iff.2 ⟨rfl, filled⟩]
  rfl

/-- What was written for a configuration is read as the same configuration, and
so gives the same table and the same records, unless an edge has a blank end;
then the first one is named. -/
theorem parse_written :
    ((∀ spec ∈ config.specs, Text.isBlankText spec.edge.input = false ∧
        Text.isBlankText spec.edge.output = false) →
      parse config.written = .ok config ∧
        (parse config.written).map Config.table = .ok config.table) ∧
    (∀ before spec after, config.specs = before ++ spec :: after →
      (∀ earlier ∈ before, Text.isBlankText earlier.edge.input = false ∧
        Text.isBlankText earlier.edge.output = false) →
      (Text.isBlankText spec.edge.input = true →
        parse config.written = .error (.invalid
          ⟨"filter entry " ++ toString before.length ++
            " has an empty input"⟩)) ∧
      (Text.isBlankText spec.edge.input = false →
        Text.isBlankText spec.edge.output = true →
        parse config.written = .error (.invalid
          ⟨"filter entry " ++ toString before.length ++
            " has an empty output"⟩))) := by
  have blankAt {before after : List Spec} {spec : Spec} {side : Edge.End}
      (layout : config.specs = before ++ spec :: after)
      (filled : ∀ earlier ∈ before, earlier.edge.Filled)
        (blank : spec.edge.BlankAt side) :
      parse config.written = .error (.invalid
        ⟨"filter entry " ++ toString before.length ++
          (" has an empty " ++ side.name)⟩) := by
    rw [parse_written_eq, validate, blankEnd?_of_layout layout filled blank,
      ← String.append_assoc]
    rfl
  refine ⟨fun filled => ?_,
    fun before spec after layout filled => ⟨fun blank => ?_, ?_⟩⟩
  · have parsed := parse_written_of_filled config filled
    exact ⟨parsed, by rw [parsed]; rfl⟩
  · have input : spec.edge.BlankAt .input := blank
    exact blankAt layout filled input
  · intro named blank
    have output : spec.edge.BlankAt .output := ⟨named, blank⟩
    exact blankAt layout filled output

theorem parse_written_escaped :
    let config : Config :=
      ⟨"a \"b\\", true, [⟨⟨"caf\u00e9", "\x00𝄞"⟩, "Label=x\n"⟩]⟩
    let blank : Config :=
      ⟨"", false, [⟨⟨"a", "b"⟩, ""⟩, ⟨⟨"\n", "\u3000"⟩, ""⟩]⟩
    config.written =
      "\x7bname: \"a \\\"b\\\\\", reuse_solvers_by_type: true, filters: " ++
      "[\x7binput: \"caf\\xe9\", output: \"\\x00\\U0001d11e\", filters: \"Label=x\\x0a\"\x7d]\x7d" ∧
      parse config.written = .ok config ∧
      (parse config.written).map Config.table = .ok config.table ∧
      parse blank.written =
        .error (.invalid ⟨"filter entry 1 has an empty input"⟩) := by
  intro config blank
  obtain ⟨parsed, sameTable⟩ :=
    (parse_written config).1 (by decide +kernel +zetaReduce)
  obtain ⟨named, -⟩ :=
    (parse_written blank).2 [⟨⟨"a", "b"⟩, ""⟩] ⟨⟨"\n", "\u3000"⟩, ""⟩ [] rfl
    (by decide +kernel)
  refine ⟨?_, parsed, sameTable, named (by decide +kernel)⟩
  decide +kernel +zetaReduce

end Config

end EdgeFilters
