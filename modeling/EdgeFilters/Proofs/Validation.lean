import EdgeFilters.Proofs.Filtering
import EdgeFilters.Proofs.Growth
import EdgeFilters.Proofs.RoundTrip
import EdgeFilters.Proofs.Views

namespace EdgeFilters

open Yaml (Document)

/-- There is no other character than blanks. -/
def Text.OnlyBlanks (text : String) : Prop :=
  ∀ c ∈ text.toList, Text.isBlank c = true

theorem Text.isBlankText_iff {text : String} :
    Text.isBlankText text = true ↔ OnlyBlanks text := by
  rw [isBlankText, String.isEmpty_iff, trim, String.ofList_eq_empty_iff,
    trimChars_eq_nil_iff]
  rfl

instance : DecidablePred Text.OnlyBlanks :=
  fun _ => decidable_of_iff _ Text.isBlankText_iff

theorem Text.isBlankText_eq_false_iff {text : String} :
    Text.isBlankText text = false ↔ ¬ OnlyBlanks text := by
  rw [← isBlankText_iff, Bool.not_eq_true]

namespace Edge

variable {edge : Edge} {side : End}

def nameOf (edge : Edge) : End → String
  | .input => edge.input
  | .output => edge.output

def Named (edge : Edge) : Prop :=
  ¬ Text.OnlyBlanks edge.input ∧ ¬ Text.OnlyBlanks edge.output

instance : DecidablePred Named := fun _ => inferInstanceAs (Decidable (_ ∧ _))

theorem filled_iff_named : edge.Filled ↔ edge.Named := by
  rw [Filled, Text.isBlankText_eq_false_iff,
    Text.isBlankText_eq_false_iff, Named]

theorem blankAt_iff :
    edge.BlankAt side ↔
      Text.OnlyBlanks (edge.nameOf side) ∧
        (side = .output → ¬ Text.OnlyBlanks edge.input) := by
  cases side with
  | input => simp [BlankAt, nameOf, Text.isBlankText_iff]
  | output =>
      simp [BlankAt, nameOf, Text.isBlankText_iff,
        Text.isBlankText_eq_false_iff, and_comm]

end Edge

/-- No entry in front of this one has a blank end, and in this one no end
in front of this. -/
def FirstBlank (specs : List Spec) (entry : Nat) (side : Edge.End) : Prop :=
  ∃ before spec after, specs = before ++ spec :: after ∧ before.length = entry ∧
    (∀ earlier ∈ before, earlier.edge.Named) ∧
      Text.OnlyBlanks (spec.edge.nameOf side) ∧
      (side = .output → ¬ Text.OnlyBlanks spec.edge.input)

variable {specs : List Spec} {entry first : Nat} {side : Edge.End}

theorem exists_layout_of_blankEnd? {blank : BlankEnd}
    (found : firstBlankEnd? first specs = some blank) :
    ∃ before spec after, specs = before ++ spec :: after ∧
      blank.entry = first + before.length ∧
      (∀ earlier ∈ before, earlier.edge.Filled) ∧
        spec.edge.BlankAt blank.side := by
  induction specs generalizing first with
  | nil => contradiction
  | cons spec rest ih =>
      rw [firstBlankEnd?] at found
      cases here : spec.edge.blankEnd? with
      | some side =>
          rw [here] at found
          cases found
          exact ⟨[], spec, rest, rfl,
            rfl, by simp, Edge.blankEnd?_eq_some_iff.1 here⟩
      | none =>
          rw [here] at found
          obtain ⟨before, other, after, rfl, place, filled, blank⟩ := ih found
          refine ⟨spec :: before, other, after, rfl, ?_, ?_, blank⟩
          · rw [place, List.length_cons]
            omega
          · rw [List.forall_mem_cons]
            exact ⟨Edge.blankEnd?_eq_none_iff.1 here, filled⟩

namespace Config

variable {config : Config} {text : String}

theorem blankEnd?_eq_some_iff :
    config.blankEnd? = some ⟨entry, side⟩ ↔
      FirstBlank config.specs entry side := by
  constructor
  · intro found
    obtain ⟨before, spec, after, layout, place, filled, blank⟩ :=
      exists_layout_of_blankEnd? found
    rw [Nat.zero_add] at place
    refine ⟨before, spec, after, layout, place.symm, ?_,
      Edge.blankAt_iff.1 blank⟩
    intro earlier member
    exact Edge.filled_iff_named.1 (filled earlier member)
  · rintro ⟨before, spec, after, layout, rfl, named, blank⟩
    refine blankEnd?_of_layout layout ?_ (Edge.blankAt_iff.2 blank)
    intro earlier member
    exact Edge.filled_iff_named.2 (named earlier member)

theorem forall_filled_iff :
    (∀ spec ∈ config.specs, spec.edge.Filled) ↔ ∀ spec ∈ config.specs,
      spec.edge.Named := by
  simp only [Edge.filled_iff_named]

def blankReason (entry : Nat) (side : Edge.End) : String :=
  "filter entry " ++ toString entry ++ " has an empty " ++ side.name

theorem validate_of_firstBlank (blank : FirstBlank config.specs entry side) :
    config.validate = .error ⟨blankReason entry side⟩ := by
  rw [validate, blankEnd?_eq_some_iff.2 blank]
  rfl

theorem validate_or_firstBlank (config : Config) :
    config.validate = .ok config ∨ ∃ entry side,
      FirstBlank config.specs entry side := by
  cases found : config.blankEnd? with
  | none =>
      left
      rw [validate, found]
  | some blank =>
      right
      exact ⟨blank.entry, blank.side, blankEnd?_eq_some_iff.1 found⟩

theorem parse_of_not_decoded (misfit : decoded? text = none) :
    (∃ cause, parse text = .error (.document cause)) ∨
      ∃ cause, parse text = .error (.schema cause) := by
  unfold decoded? at misfit
  cases read : Document.read text with
  | error fault =>
      left
      refine ⟨fault, ?_⟩
      rw [parse, read]
      rfl
  | ok document =>
      right
      cases decoded : decode document with
      | error cause =>
          exact ⟨cause, parse_of_misfit read decoded⟩
      | ok config =>
          rw [read] at misfit
          simp [decoded, Except.toOption] at misfit

theorem exists_text_of_load {file : File} (loaded : load file = .ok config) :
    ∃ text, parse text = .ok config := by
  obtain ⟨text, -, parsed⟩ := Yaml.bind_eq_ok_iff.1 loaded
  exact ⟨text, parsed⟩

theorem exists_spec_of_mem_entries {entry : Entry}
    (member : entry ∈ config.table.1.entries) :
    ∃ spec ∈ config.specs, entry.1 = spec.edge := by
  obtain ⟨log, course⟩ := Table.exists_course_of_config config
  obtain ⟨one, accepted, grown⟩ := course.exists_accepted member
  obtain ⟨spec, inside, text, -, taken⟩ :=
    Registry.mem_accepted_ofSpecs.1 accepted
  obtain ⟨-, same, -⟩ := Registry.accept?_eq_some_iff.1 taken
  exact ⟨spec, inside, grown.edge.trans same⟩

variable (named : ∀ spec ∈ config.specs, spec.edge.Named)

include named

theorem named_of_mem_entries {entry : Entry}
    (member : entry ∈ config.table.1.entries) : entry.1.Named := by
  obtain ⟨spec, inside, same⟩ := exists_spec_of_mem_entries member
  rw [same]
  exact named spec inside

theorem named_of_mem_bindings {binding : Binding}
    (member : binding ∈ config.table.1.bindings) : binding.edge.Named := by
  have edges :
      config.table.1.entries.map Prod.fst =
        config.table.1.bindings.map Binding.edge :=
    (Table.Reachable.start (.ofConfig config)).aligned.map_fst_entries
  have listed : binding.edge ∈ config.table.1.entries.map Prod.fst := by
    rw [edges]
    exact List.mem_map_of_mem member
  obtain ⟨entry, entered, same⟩ := List.mem_map.1 listed
  rw [← same]
  exact named_of_mem_entries named entered

theorem find_eq_nil_of_blank {edge : Edge}
    (blank : Text.OnlyBlanks edge.input ∨ Text.OnlyBlanks edge.output) :
    config.table.1.find edge = [] := by
  rw [Table.find_eq_entries, List.map_eq_nil_iff, List.filter_eq_nil_iff]
  intro entry member same
  obtain ⟨input, output⟩ := named_of_mem_entries named member
  rw [eq_of_beq same] at input output
  rcases blank with blank | blank
  · exact input blank
  · exact output blank

omit named

/-- A text whose document does not fit the schema is refused for that and never
for a blank end. Otherwise its configuration is accepted as it is, if both ends
of every edge have a name, and else the first entry with a blank end is named,
and in it the input before the output. In a table of a configuration that was
read, with conditions shared or not, nothing is bound to a blank end, and
nothing is found there. -/
theorem parse_validates :
    (∀ text, decoded? text = none →
      (∃ cause, parse text = .error (.document cause)) ∨
        ∃ cause, parse text = .error (.schema cause)) ∧
    (∀ text config, decoded? text = some config →
      (parse text = .ok config ↔ ∀ spec ∈ config.specs,
        ¬ Text.OnlyBlanks spec.edge.input ∧
          ¬ Text.OnlyBlanks spec.edge.output) ∧
      (∀ entry side, FirstBlank config.specs entry side →
        parse text = .error (.invalid
          ⟨"filter entry " ++ toString entry ++ " has an empty " ++
            side.name⟩)) ∧
      (parse text = .ok config ∨ ∃ entry side,
        FirstBlank config.specs entry side)) ∧
    ∀ config,
      ((∃ text, parse text = .ok config) ∨ ∃ file, load file = .ok config) →
      ∀ reuse, let table := { config with reuse }.table.1
        (∀ binding ∈ table.bindings,
          ¬ Text.OnlyBlanks binding.edge.input ∧
            ¬ Text.OnlyBlanks binding.edge.output) ∧
        ∀ edge : Edge, Text.OnlyBlanks edge.input ∨
          Text.OnlyBlanks edge.output →
          table.find edge = [] := by
  refine ⟨fun text => parse_of_not_decoded,
    fun text config decoded => ⟨?_, ?_, ?_⟩, fun config loaded reuse => ?_⟩
  · constructor
    · intro parsed
      obtain ⟨-, -, -, filled⟩ := parse_eq_ok_iff.1 parsed
      exact forall_filled_iff.1 filled
    · intro named
      obtain ⟨document, read, fits⟩ := decoded?_eq_some_iff.1 decoded
      exact parse_of_filled read fits (forall_filled_iff.2 named)
  · intro entry side blank
    rw [parse_of_decoded decoded, validate_of_firstBlank blank]
    rfl
  · rw [parse_of_decoded decoded]
    rcases config.validate_or_firstBlank with valid | blank
    · left
      rw [valid]
      rfl
    · exact .inr blank
  · obtain ⟨text, parsed⟩ : ∃ text, parse text = .ok config := by
      rcases loaded with found | ⟨file, loaded⟩
      · exact found
      · exact exists_text_of_load loaded
    obtain ⟨-, -, -, filled⟩ := parse_eq_ok_iff.1 parsed
    have named := forall_filled_iff.1 filled
    have shared : ∀ spec ∈ { config with reuse }.specs, spec.edge.Named := named
    exact ⟨fun binding member => named_of_mem_bindings shared member,
      fun edge blank => find_eq_nil_of_blank shared blank⟩

theorem parse_validates_late :
    let misfit := "filters: [\x7binput: ''\x7d]"
    let blank : Config :=
      ⟨"", true, [⟨⟨" a", "b"⟩, "c"⟩, ⟨⟨"a", "\u3000"⟩, "b"⟩, ⟨⟨"", "a"⟩, "b"⟩]⟩
    let named : Config := ⟨"", false, [⟨⟨"a ", "b"⟩, "Label=c,Label=d"⟩]⟩
    let table := { named with reuse := true }.table.1
    decoded? misfit = none ∧
      ((∃ cause, parse misfit = .error (.document cause)) ∨
        ∃ cause, parse misfit = .error (.schema cause)) ∧
      decoded? blank.written = some blank ∧ FirstBlank blank.specs 1 .output ∧
      parse blank.written =
        .error (.invalid ⟨"filter entry 1 has an empty output"⟩) ∧
      parse named.written = .ok named ∧ table.bindings = [⟨⟨"a ", "b"⟩, 0⟩] ∧
      (∀ binding ∈ table.bindings,
        ¬ Text.OnlyBlanks binding.edge.input ∧
          ¬ Text.OnlyBlanks binding.edge.output) ∧
      Text.OnlyBlanks " " ∧ table.find ⟨"a ", " "⟩ = [] := by
  intro misfit blank named table
  obtain ⟨unread, found, bound⟩ := parse_validates
  have refused : decoded? "filters: [\x7binput: ''\x7d]" = none := by
    decide +kernel
  have decoded : decoded? blank.written = some blank := decoded?_written blank
  have first : FirstBlank blank.specs 1 .output := by
    refine ⟨[⟨⟨" a", "b"⟩, "c"⟩], ⟨⟨"a", "\u3000"⟩, "b"⟩, [⟨⟨"", "a"⟩, "b"⟩],
      rfl, rfl, ?_, ?_, ?_⟩
    all_goals decide +kernel
  have parsed : parse named.written = .ok named :=
    parse_written_of_filled named (by decide +kernel +zetaReduce)
  obtain ⟨ends, looked⟩ := bound named (.inl ⟨_, parsed⟩) true
  have gap : Text.OnlyBlanks " " := by decide +kernel
  refine ⟨refused, unread misfit refused, decoded, first,
    (found _ blank decoded).2.1 1 .output first, parsed, ?_, ends, gap,
    looked _ (.inr gap)⟩
  decide +kernel +zetaReduce

end Config

end EdgeFilters
