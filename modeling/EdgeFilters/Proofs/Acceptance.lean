import EdgeFilters.Config.Read
import EdgeFilters.Proofs.Anchors
import EdgeFilters.Proofs.BlankEnds
import EdgeFilters.Proofs.Fitting

namespace EdgeFilters

open Yaml (Document Meaning Node)

namespace Config

variable {text : String} {config : Config}

theorem validate_eq_ok_iff {checked : Config} :
    config.validate = .ok checked ↔
      checked = config ∧ ∀ spec ∈ config.specs, spec.edge.Filled := by
  rw [validate, ← blankEnd?_eq_none_iff]
  cases config.blankEnd? <;> simp [eq_comm]

theorem decode_eq_ok_iff {document : Option Document} :
    decode document = .ok config ↔
      (document = none ∧ config = {}) ∨
        ∃ root, document = some root ∧ Schema.Fits root config ∧
          Schema.aliases root ≤ root.aliasLimit := by
  cases document with
  | none => simp [decode, eq_comm]
  | some root => simp [decode, Schema.config_eq_ok_iff]

/-- What is left to do behind the schema is to look for blank ends. -/
theorem parse_of_decode {document : Option Document}
    (read : Document.read text = .ok document)
    (decoded : decode document = .ok config) :
    parse text = config.validate.mapError .invalid := by
  rw [parse, read]
  change ((decode document).mapError Error.schema >>= fun found =>
    found.validate.mapError Error.invalid) = _
  rw [decoded]
  rfl

theorem parse_of_misfit {document : Option Document} {error : Schema.Error}
    (read : Document.read text = .ok document)
    (failed : decode document = .error error) :
    parse text = .error (.schema error) := by
  rw [parse, read]
  change ((decode document).mapError Error.schema >>= fun found =>
    found.validate.mapError Error.invalid) = _
  rw [failed]
  rfl

/-- The configuration of a text, if its document fits the schema
or it has none. -/
def decoded? (text : String) : Option Config :=
  match Document.read text with
  | .ok document => (decode document).toOption
  | .error _ => none

theorem decoded?_eq_some_iff :
    decoded? text = some config ↔
      ∃ document, Document.read text = .ok document ∧
        decode document = .ok config := by
  unfold decoded?
  cases Document.read text with
  | error fault => simp
  | ok document =>
      cases decoded : decode document with
      | error misfit => simp [Except.toOption, decoded]
      | ok found => simp [Except.toOption, decoded]

theorem parse_of_decoded (decoded : decoded? text = some config) :
    parse text = config.validate.mapError .invalid := by
  obtain ⟨document, read, fits⟩ := decoded?_eq_some_iff.1 decoded
  exact parse_of_decode read fits

theorem parse_of_filled {document : Option Document}
    (read : Document.read text = .ok document)
    (decoded : decode document = .ok config)
    (filled : ∀ spec ∈ config.specs, spec.edge.Filled) :
    parse text = .ok config := by
  rw [parse_of_decode read decoded, validate_eq_ok_iff.2 ⟨rfl, filled⟩]
  rfl

theorem parse_eq_ok_iff :
    parse text = .ok config ↔
      ∃ document, Document.read text = .ok document ∧
        decode document = .ok config ∧
        ∀ spec ∈ config.specs, spec.edge.Filled := by
  unfold parse
  simp only [Yaml.bind_eq_ok_iff, Yaml.mapError_eq_ok_iff, validate_eq_ok_iff]
  constructor
  · rintro ⟨document, read, _, decoded, rfl, filled⟩
    exact ⟨document, read, decoded, filled⟩
  · rintro ⟨document, read, decoded, filled⟩
    exact ⟨document, read, config, decoded, rfl, filled⟩

/-- A text has a configuration if and only if it has a document or nothing in
it, the document fits the schema with no more aliases among what the schema
looks at than the document may have, and every edge has two ends that are not
blank. An alias stands for the last node in the slot that its name had taken
last, which is the node of its name where no name is given twice. Whether a
mapping fits is told by its entries under the names of fields, in any order,
whatever stands under other names, and by what their values hold. -/
theorem parse_eq_ok_iff_fits :
    (∀ text config, parse text = .ok config ↔
      ((Document.read text = .ok none ∧ config = {}) ∨
        ∃ document, Document.read text = .ok (some document) ∧
          Schema.Fits document config ∧
          Schema.aliases document ≤ 100 * document.root.size) ∧
      ∀ spec ∈ config.specs, Text.isBlankText spec.edge.input = false ∧
        Text.isBlankText spec.edge.output = false) ∧
    (∀ text document, Document.read text = .ok (some document) →
      ∃ found, Yaml.tokens text.toList = .ok found ∧
        Yaml.Linked (Yaml.namesOf found) document ∧
        ((Yaml.anchors (Yaml.namesOf found)).Nodup →
          document.root.references = (Yaml.namesOf found).map
            (.map ((Yaml.anchors (Yaml.namesOf found)).idxOf ·)) ∧
          ∀ slot, document.slot? slot =
            document.root.anchored[slot]?.map Prod.snd)) ∧
    (∀ document other entries others config,
      Schema.KeysAreTexts document entries → Schema.KeysAreTexts other others →
      Schema.Matching document other (Schema.Alike document other)
        Schema.configNames entries others →
      (Schema.ConfigEntries document entries config ↔
        Schema.ConfigEntries other others config)) ∧
    (∀ document other entries others spec,
      Schema.KeysAreTexts document entries → Schema.KeysAreTexts other others →
      Schema.Matching document other (Schema.SameText document other)
        Schema.specNames entries others →
      (Schema.SpecEntries document entries spec ↔
        Schema.SpecEntries other others spec)) := by
  refine ⟨fun text config => ?_, fun text document read => ?_,
    fun document other entries others config early late matching => ?_,
    fun document other entries others spec early late matching => ?_⟩
  · rw [parse_eq_ok_iff]
    simp only [decode_eq_ok_iff]
    constructor
    · rintro ⟨document, read, ⟨rfl, rfl⟩ | ⟨root, rfl, fits, few⟩, filled⟩
      · exact ⟨.inl ⟨read, rfl⟩, filled⟩
      · exact ⟨.inr ⟨root, read, fits, few⟩, filled⟩
    · rintro ⟨⟨read, rfl⟩ | ⟨root, read, fits, few⟩, filled⟩
      · exact ⟨none, read, .inl ⟨rfl, rfl⟩, filled⟩
      · exact ⟨some root, read, .inr ⟨root, rfl, fits, few⟩, filled⟩
  · obtain ⟨found, lexed, linked⟩ := Document.linked_of_read read
    exact ⟨found, lexed, linked, linked.of_nodup⟩
  · exact ⟨fun fits => fits.of_matching late matching,
      fun fits => fits.of_matching early (matching.symm.imp fun _ _ => .symm)⟩
  · exact ⟨fun fits => fits.of_matching late matching,
      fun fits => fits.of_matching early
        (matching.symm.imp fun _ _ same content => (same content).symm)⟩

def plain (line column : Nat) (content : String) : Node :=
  .scalar { mark := ⟨line, column, column⟩ } none .plain content

theorem holdsText_plain (document : Document) (line column : Nat)
    (content : String) :
    Schema.HoldsText document (plain line column content) content :=
  ⟨_, _, _, rfl⟩

theorem parse_eq_ok_iff_fits_reordered :
    let text := "x: &a 1\nname: *a\n"
    let document : Document := ⟨plain 0 0 "", [(0, plain 0 0 "b")]⟩
    let other : Document :=
      ⟨plain 0 0 "", [(1, plain 0 0 "b"), (0, plain 0 0 "x")]⟩
    let entries :=
      [(plain 0 0 "input", plain 0 0 "a"), (plain 0 0 "output", .alias 0),
        (plain 0 0 "filters", plain 0 0 "c")]
    let others :=
      [(plain 0 0 "filters", plain 0 0 "c"),
        (plain 0 0 "x", .sequence { mark := .start } [plain 0 0 "1"]),
        (plain 0 0 "output", .alias 1), (plain 0 0 "input", plain 0 0 "a")]
    (parse text = .ok ⟨"1", false, []⟩ ∧
      ∃ document, Document.read text = .ok (some document) ∧
        Schema.Fits document ⟨"1", false, []⟩ ∧
        document.root.references = [.anchor 0, .alias 0] ∧
        document.slot? 0 = document.root.anchored[0]?.map Prod.snd) ∧
    Schema.KeysAreTexts document entries ∧ Schema.KeysAreTexts other others ∧
    Schema.Matching document other (Schema.SameText document other)
      Schema.specNames entries others ∧
    (Schema.SpecEntries document entries ⟨⟨"a", "b"⟩, "c"⟩ ↔
      Schema.SpecEntries other others ⟨⟨"a", "b"⟩, "c"⟩) := by
  intro text document other entries others
  obtain ⟨accepted, linked, -, reordered⟩ := parse_eq_ok_iff_fits
  have parsed : parse "x: &a 1\nname: *a\n" = .ok ⟨"1", false, []⟩ := by
    decide +kernel
  have names : (Yaml.tokens "x: &a 1\nname: *a\n".toList).map Yaml.namesOf =
      .ok [.anchor "a", .alias "a"] := by
    decide +kernel
  have early : Schema.KeysAreTexts document entries := by
    simp only [entries, Schema.keysAreTexts_cons,
      Schema.keysAreTexts_nil, and_true]
    exact ⟨⟨_, holdsText_plain ..⟩, ⟨_, holdsText_plain ..⟩,
      ⟨_, holdsText_plain ..⟩⟩
  have late : Schema.KeysAreTexts other others := by
    simp only [others, Schema.keysAreTexts_cons,
      Schema.keysAreTexts_nil, and_true]
    exact ⟨⟨_, holdsText_plain ..⟩, ⟨_, holdsText_plain ..⟩,
      ⟨_, holdsText_plain ..⟩, ⟨_, holdsText_plain ..⟩⟩
  have matching : Schema.Matching document other
      (Schema.SameText document other) Schema.specNames entries others :=
    ⟨[(plain 0 0 "input", plain 0 0 "a"), (plain 0 0 "output", .alias 1),
      (plain 0 0 "filters", plain 0 0 "c")],
      .cons ⟨rfl, fun _ => Iff.rfl⟩ (.cons ⟨rfl, fun _ => Iff.rfl⟩
        (.cons ⟨rfl, fun _ => Iff.rfl⟩ .nil)),
      (List.reverse_perm [(plain 0 0 "input", plain 0 0 "a"),
        (plain 0 0 "output", .alias 1),
        (plain 0 0 "filters", plain 0 0 "c")]).symm⟩
  refine ⟨⟨parsed, ?_⟩, early, late, matching,
    reordered _ _ _ _ _ early late matching⟩
  rcases (accepted text _).1 parsed with
    ⟨⟨-, empty⟩ | ⟨document, read, fits, -⟩, -⟩
  · exact absurd empty (by decide)
  · obtain ⟨found, lexed, -, distinct⟩ := linked text document read
    have known : Yaml.namesOf found = [.anchor "a", .alias "a"] := by
      rw [lexed] at names
      exact Except.ok.inj names
    rw [known] at distinct
    obtain ⟨references, slots⟩ := distinct (by decide)
    exact ⟨document, read, fits, references, slots 0⟩

def literalBoolean : String := "reuse_solvers_by_type: !!bool |-\n  true\n"

theorem read_literalBoolean :
    Document.read literalBoolean = .ok (some
      { root := .mapping { mark := .start }
          [(plain 0 0 "reuse_solvers_by_type",
            .scalar { mark := ⟨0, 23, 23⟩ } (some Meaning.booleanTag) .literal
              "true")]
        slots := [] }) := by
  decide +kernel

/-- The alias comes behind the second of two anchors of its name. -/
def doubleAnchor : String := "a: &x 1\nb: &x 2\nname: *x\n"

def doubleAnchorEntries : List (Node × Node) :=
  [(plain 0 0 "a", .scalar ⟨⟨0, 3, 3⟩, some 0⟩ none .plain "1"),
    (plain 1 0 "b", .scalar ⟨⟨1, 3, 3⟩, some 1⟩ none .plain "2"),
    (plain 2 0 "name", .alias 1)]

theorem read_doubleAnchor :
    Document.read doubleAnchor = .ok (some
      (.ofRoot (.mapping { mark := .start } doubleAnchorEntries))) := by
  decide +kernel

/-- A further key, whose anchor takes the slot that the alias reads. -/
theorem read_doubleAnchor_more :
    Document.read (doubleAnchor ++ "c: &y 3\n") = .ok (some
      (.ofRoot (.mapping { mark := .start } (doubleAnchorEntries ++
        [(plain 3 0 "c",
          .scalar ⟨⟨3, 3, 3⟩, some 1⟩ none .plain "3")])))) := by
  decide +kernel

/-- One specification with many keys that are aliases, and many aliases of it
as items of the filters. -/
def crowdedText : List Char :=
  "k: &k z\ns: &s \x7binput: a, output: b, filters: c".toList ++
    (List.replicate 200 ",*k".toList).flatten ++ "\x7d\nfilters: [".toList ++
    (List.replicate 412 "*s,".toList).flatten ++ "]\n".toList

def crowdedSpec : Node :=
  .mapping ⟨⟨1, 3, 3⟩, some 1⟩ <|
    (plain 1 7 "input", plain 1 14 "a") ::
      (plain 1 17 "output", plain 1 25 "b") ::
      (plain 1 28 "filters", plain 1 37 "c") ::
      (List.range 200).map fun place =>
        (.alias 0, plain 1 (41 + 3 * place) "")

def crowdedFilters : Node :=
  .sequence { mark := ⟨2, 9, 9⟩ } (List.replicate 412 (.alias 1))

def crowded : Document := .ofRoot <| .mapping { mark := .start }
  [(plain 0 0 "k", .scalar ⟨⟨0, 3, 3⟩, some 0⟩ none .plain "z"),
    (plain 1 0 "s", crowdedSpec), (plain 2 0 "filters", crowdedFilters)]

def reads (text : List Char) (document : Document) : Bool :=
  match Yaml.tokens text >>= Document.ofTokens with
  | .ok (some found) => found == document
  | _ => false

theorem read_of_reads {text : List Char} {document : Document}
    (checked : reads text document = true) :
    Document.read (.ofList text) = .ok (some document) := by
  unfold reads at checked
  unfold Document.read
  rw [String.toList_ofList]
  split at checked
  · next found here => rw [here, eq_of_beq checked]
  · contradiction

theorem read_crowded :
    Document.read (.ofList crowdedText) = .ok (some crowded) :=
  read_of_reads (by decide +kernel)

theorem slot?_crowded_zero : crowded.slot? 0 =
    some (.scalar ⟨⟨0, 3, 3⟩, some 0⟩ none .plain "z") := by
  decide +kernel

theorem slot?_crowded_one : crowded.slot? 1 = some crowdedSpec := by
  decide +kernel

theorem aliasLimit_lt_aliases_crowded :
    crowded.aliasLimit < Schema.aliases crowded := by
  have limit : crowded.aliasLimit = 82800 := by decide +kernel
  have one : Schema.specAliases crowded (.alias 1) = 201 := by decide +kernel
  have items : Schema.HoldsItems crowded crowdedFilters _ := .sequence rfl
  have priced : Schema.configPrice crowded "filters" crowdedFilters =
      412 * 201 := by
    change Schema.specsAliases crowded crowdedFilters = _
    rw [Schema.specsAliases_eq items, List.map_replicate,
      List.sum_replicate_nat, one]
    rfl
  rw [limit, Schema.aliases_eq (.mapping rfl),
    Schema.aliasesIn_cons (holdsText_plain ..),
    Schema.aliasesIn_cons (holdsText_plain ..),
    Schema.aliasesIn_cons (holdsText_plain ..), priced]
  omega

theorem fitsSpec_crowded :
    Schema.FitsSpec crowded (.alias 1) ⟨⟨"a", "b"⟩, "c"⟩ := by
  have here : crowded.resolve (.alias 1) = crowdedSpec := by
    rw [Document.resolve, slot?_crowded_one]
    rfl
  refine ⟨_, .mapping here, fun entry member => ?_,
    ⟨plain 1 14 "a", by decide +kernel, holdsText_plain ..⟩,
    ⟨plain 1 25 "b", by decide +kernel, holdsText_plain ..⟩,
    ⟨plain 1 37 "c", by decide +kernel, holdsText_plain ..⟩⟩
  simp only [List.mem_cons, List.mem_map] at member
  rcases member with rfl | rfl | rfl | ⟨place, -, rfl⟩
  · exact ⟨_, holdsText_plain ..⟩
  · exact ⟨_, holdsText_plain ..⟩
  · exact ⟨_, holdsText_plain ..⟩
  · refine ⟨"z", ⟨⟨0, 3, 3⟩, some 0⟩, none, .plain, ?_⟩
    rw [Document.resolve, slot?_crowded_zero]
    rfl

theorem fits_crowded : Schema.Fits crowded
    ⟨"", false, List.replicate 412 ⟨⟨"a", "b"⟩, "c"⟩⟩ := by
  refine ⟨_, .mapping rfl, fun entry member => ?_, .inl ⟨rfl, rfl⟩,
    .inl ⟨rfl, rfl⟩, .inr ⟨crowdedFilters, rfl, _, .sequence rfl, ?_⟩⟩
  · simp only [List.mem_cons, List.not_mem_nil, or_false] at member
    rcases member with rfl | rfl | rfl <;> exact ⟨_, holdsText_plain ..⟩
  · refine List.forall₂_iff_get.2
      ⟨by simp only [List.length_replicate], fun _ _ _ => ?_⟩
    simp only [List.get_eq_getElem, List.getElem_replicate]
    exact fitsSpec_crowded

/-- Plain scalars are not the only booleans; a further key may change what an
alias stands for; and a document that fits may follow so many aliases that it
has no configuration. -/
theorem parse_deviations :
    (parse literalBoolean = .ok ⟨"", true, []⟩ ∧
      ∃ document key value site,
        Document.read literalBoolean = .ok (some document) ∧
        document.root = .mapping site [(key, value)] ∧
        Schema.HoldsText document key "reuse_solvers_by_type" ∧
        ∀ site tag content,
          document.resolve value ≠ .scalar site tag .plain content) ∧
    (parse doubleAnchor = .ok ⟨"2", false, []⟩ ∧
      parse (doubleAnchor ++ "c: &y 3\n") = .ok ⟨"3", false, []⟩ ∧
      ∃ document other site entries key value,
        Document.read doubleAnchor = .ok (some document) ∧
        Document.read (doubleAnchor ++ "c: &y 3\n") = .ok (some other) ∧
        document.root = .mapping site entries ∧
        other.root = .mapping site (entries ++ [(key, value)]) ∧
        Schema.HoldsText other key "c") ∧
    (∃ document,
      Document.read (.ofList crowdedText) = .ok (some document) ∧
      Schema.Fits document
        ⟨"", false, List.replicate 412 ⟨⟨"a", "b"⟩, "c"⟩⟩ ∧
      parse (.ofList crowdedText) = .error (.schema .repetition)) := by
  refine ⟨⟨?_, _, _, _, _, read_literalBoolean, rfl, ⟨_, _, _, rfl⟩, ?_⟩,
    ⟨?_, ?_, _, _, _, _, _, _, read_doubleAnchor, read_doubleAnchor_more, rfl,
      rfl, ⟨_, _, _, rfl⟩⟩, crowded, read_crowded, fits_crowded, ?_⟩
  · exact parse_of_filled read_literalBoolean (by decide +kernel) (by simp)
  · intro site tag content same
    cases same
  · exact parse_of_filled read_doubleAnchor (by decide +kernel) (by simp)
  · exact parse_of_filled read_doubleAnchor_more (by decide +kernel) (by simp)
  · refine parse_of_misfit read_crowded ?_
    rw [decode, Schema.config_of_fits fits_crowded,
      if_pos aliasLimit_lt_aliases_crowded]

end Config

end EdgeFilters
