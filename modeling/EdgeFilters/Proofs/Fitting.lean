import EdgeFilters.Proofs.Gathering

namespace EdgeFilters.Schema

open Yaml (Document Mark Meaning Node Style)
open Fitting

variable {document : Document} {path : Path} {mark : Mark} {node : Node}
  {entry : Node × Node} {entries : List (Node × Node)} {before after : Nat}

theorem yields_follow_bind {α : Type} {next : Node → Fitting α} {value : α} :
    (follow document node >>= next).Yields before value after ↔
      (next (document.resolve node)).Yields
        (before + node.aliasCount) value after := by
  cases node with
  | «alias» slot => exact Iff.rfl
  | scalar site tag style content => exact Iff.rfl
  | sequence site items => exact Iff.rfl
  | mapping site entries => exact Iff.rfl

theorem yields_text {expected : Expected} {content : String} :
    (text document path expected node).Yields before content after ↔
      HoldsText document node content ∧ after = before + node.aliasCount := by
  rw [text, yields_follow_bind]
  cases found : document.resolve node <;>
    simp [HoldsText, found, yields_pure, yields_throw, eq_comm]

theorem boolean?_eq_some_iff {content : String} {value : Bool} :
    Meaning.boolean? content = some value ↔
      content ∈ booleanSpellings value := by
  have apart : content ∈ booleanSpellings true →
      content ∉ booleanSpellings false := by
    simp only [booleanSpellings, List.mem_cons, List.not_mem_nil, or_false]
    rintro (rfl | rfl | rfl) <;> decide
  have known (other : Bool) : (booleanSpellings other).contains content = true ↔
      content ∈ booleanSpellings other := List.contains_iff_mem
  unfold Meaning.boolean?
  split
  · next yes =>
      have yes := (known true).1 yes
      cases value <;> simp [yes, apart yes]
  · next notTrue =>
      have notTrue : content ∉ booleanSpellings true :=
        fun yes => notTrue ((known true).2 yes)
      split
      · next no =>
          have no := (known false).1 no
          cases value <;> simp [no, notTrue]
      · next notFalse =>
          have notFalse : content ∉ booleanSpellings false := fun no =>
            notFalse ((known false).2 no)
          cases value <;> simp [notTrue, notFalse]

theorem allowsBoolean_iff {tag : Option String} {style : Style} :
    allowsBoolean tag style = true ↔
      style = .plain ∨ (style = .literal ∧ tag = some Meaning.booleanTag) := by
  simp [allowsBoolean]

theorem holdsBoolean_iff {site : Yaml.Site} {tag : Option String}
    {style : Style} {content : String} {value : Bool}
    (found : document.resolve node = .scalar site tag style content) :
    HoldsBoolean document node value ↔
      allowsBoolean tag style = true ∧
        Meaning.boolean? content = some value := by
  rw [allowsBoolean_iff, boolean?_eq_some_iff]
  constructor
  · rintro (⟨here, spelled⟩ | ⟨here, spelled⟩)
    · obtain ⟨rfl, rfl, rfl, rfl⟩ : _ ∧ _ ∧ _ ∧ _ := by simpa [found] using here
      exact ⟨.inl rfl, spelled⟩
    · obtain ⟨rfl, rfl, rfl, rfl⟩ : _ ∧ _ ∧ _ ∧ _ := by simpa [found] using here
      exact ⟨.inr ⟨rfl, rfl⟩, spelled⟩
  · rintro ⟨rfl | ⟨rfl, rfl⟩, spelled⟩
    · exact .plain found spelled
    · exact .literal found spelled

theorem yields_boolean {value : Bool} :
    (boolean document path node).Yields before value after ↔
      HoldsBoolean document node value ∧ after = before + node.aliasCount := by
  rw [boolean, yields_follow_bind]
  cases found : document.resolve node with
  | scalar site tag style content =>
      rw [holdsBoolean_iff found]
      by_cases allowed : allowsBoolean tag style = true
      · simp only [allowed, if_true, true_and]
        cases Meaning.boolean? content <;>
          simp [yields_pure, yields_throw, eq_comm]
      · simp [allowed, yields_throw]
  | sequence | mapping | «alias» =>
      refine yields_throw.trans (iff_of_false id ?_)
      rintro ⟨⟨here⟩ | ⟨here⟩, -⟩ <;> simp [found] at here

theorem isEmptyCollection_iff {style : Style} {content : String} :
    isEmptyCollection style content = true ↔ style = .plain ∧ content = "" := by
  simp [isEmptyCollection]

theorem holdsItems_of_scalar {site : Yaml.Site} {tag : Option String}
    {style : Style} {content : String} {items : List Node}
    (found : document.resolve node = .scalar site tag style content) :
    HoldsItems document node items ↔ isEmptyCollection style content = true ∧
      items = [] := by
  rw [isEmptyCollection_iff]
  constructor
  · rintro (⟨here⟩ | ⟨here⟩)
    · simp [found] at here
    · obtain ⟨-, -, rfl, rfl⟩ : _ ∧ _ ∧ _ ∧ _ := by simpa [found] using here
      exact ⟨⟨rfl, rfl⟩, rfl⟩
  · rintro ⟨⟨rfl, rfl⟩, rfl⟩
    exact .nothing found

theorem holdsEntries_of_scalar {site : Yaml.Site} {tag : Option String}
    {style : Style} {content : String}
    (found : document.resolve node = .scalar site tag style content) :
    HoldsEntries document node entries ↔
      isEmptyCollection style content = true ∧ entries = [] := by
  rw [isEmptyCollection_iff]
  constructor
  · rintro (⟨here⟩ | ⟨here⟩)
    · simp [found] at here
    · obtain ⟨-, -, rfl, rfl⟩ : _ ∧ _ ∧ _ ∧ _ := by simpa [found] using here
      exact ⟨⟨rfl, rfl⟩, rfl⟩
  · rintro ⟨⟨rfl, rfl⟩, rfl⟩
    exact .nothing found

theorem yields_items {items : List Node} :
    (Schema.items document path node).Yields before items after ↔
      HoldsItems document node items ∧ after = before + node.aliasCount := by
  rw [Schema.items, yields_follow_bind]
  cases found : document.resolve node with
  | scalar site tag style content =>
      rw [holdsItems_of_scalar found]
      by_cases empty : isEmptyCollection style content = true <;>
        simp [empty, yields_pure, yields_throw]
  | sequence site given =>
      refine yields_pure.trans (and_congr_left fun _ => ⟨?_, ?_⟩)
      · rintro rfl
        exact .sequence found
      · rintro (⟨here⟩ | ⟨here⟩) <;> simp_all
  | mapping | «alias» =>
      refine yields_throw.trans (iff_of_false id ?_)
      rintro ⟨⟨here⟩ | ⟨here⟩, -⟩ <;> simp [found] at here

theorem yields_entries {expected : Expected} :
    (∃ mark, (Schema.entries document path expected node).Yields before (mark,
      entries) after) ↔
      HoldsEntries document node entries ∧
        after = before + node.aliasCount := by
  simp only [Schema.entries, yields_follow_bind]
  cases found : document.resolve node with
  | scalar site tag style content =>
      rw [holdsEntries_of_scalar found]
      by_cases empty : isEmptyCollection style content = true <;>
        simp [empty, yields_pure, yields_throw]
  | mapping site given =>
      simp only [yields_pure, Prod.mk.injEq, and_assoc, exists_eq_left]
      refine and_congr_left fun _ => ⟨?_, ?_⟩
      · rintro rfl
        exact .mapping found
      · rintro (⟨here⟩ | ⟨here⟩) <;> simp_all
  | sequence | «alias» =>
      refine Iff.trans (by simp only [yields_throw, exists_false])
        (iff_of_false id ?_)
      rintro ⟨⟨here⟩ | ⟨here⟩, -⟩ <;> simp [found] at here

/-- The way from a mapping to the value of a key. -/
def keySegment (node : Node) (name : String) : Segment :=
  match node with
  | .alias _ => .unknown
  | _ => .key name

theorem yields_key_bind {α : Type} {next : String × Path → Fitting α}
    {value : α} :
    (key document path node >>= next).Yields before value after ↔
      ∃ name, HoldsText document node name ∧
        (next (name, path ++ [keySegment node name])).Yields
          (before + node.aliasCount) value
          after := by
  have named : key document path node =
      (text document path .fieldName node >>= fun name =>
        pure (name, path ++ [keySegment node name])) := rfl
  simp only [named, yields_bind, yields_text, yields_pure]
  constructor
  · rintro ⟨_, _, ⟨name, _, ⟨holds, rfl⟩, rfl, rfl⟩, yields⟩
    exact ⟨name, holds, yields⟩
  · rintro ⟨name, holds, yields⟩
    exact ⟨_, _, ⟨name, _, ⟨holds, rfl⟩, rfl, rfl⟩, yields⟩

variable {name : String}

def SpecField.names : SpecField → List String
  | .input => ["input"]
  | .output => ["output"]
  | .expression => ["filters", "filter_expression"]

theorem SpecField.ofKey?_eq_some_iff {field : SpecField} :
    SpecField.ofKey? name = some field ↔ name ∈ field.names := by
  unfold SpecField.ofKey? SpecField.keys
  simp only [List.lookup_cons, List.lookup_nil]
  cases field <;>
    simp only [names, List.mem_cons, List.not_mem_nil, or_false] <;> grind

theorem SpecField.mem_specNames_iff :
    name ∈ specNames ↔ ∃ field, SpecField.ofKey? name = some field := by
  simp only [SpecField.ofKey?_eq_some_iff]
  constructor
  · simp only [specNames, List.mem_cons, List.not_mem_nil, or_false]
    rintro (rfl | rfl | rfl | rfl)
    · exact ⟨.input, by decide⟩
    · exact ⟨.output, by decide⟩
    · exact ⟨.expression, by decide⟩
    · exact ⟨.expression, by decide⟩
  · rintro ⟨field, member⟩
    have within : field.names ⊆ specNames := by cases field <;> decide
    exact within member

abbrev specFields : Fields SpecField SpecDraft where
  Value := fun _ => String
  holds := fun document _ => HoldsText document
  names := SpecField.names
  field? := SpecField.ofKey?
  field?_eq_some_iff := SpecField.ofKey?_eq_some_iff
  get := fun draft field => draft.lookup field
  set := fun draft field content => (field, content) :: draft
  get_set_same := by simp
  get_set_other :=
    fun different => by simp [List.lookup_cons, beq_false_of_ne different]

theorem specDraft_adds :
    specFields.Adds document specPrice
      (SpecDraft.add document path mark) := by
  intro start next entry before after
  rw [SpecDraft.add, yields_key_bind]
  refine exists_congr fun name => and_congr_right fun _ => ?_
  dsimp only
  cases known : SpecField.ofKey? name with
  | none =>
      have free : specPrice name entry.2 = 0 :=
        if_neg fun member => by
          simpa [known] using SpecField.mem_specNames_iff.1 member
      rw [free, specFields.next_of_none known]
      exact yields_pure
  | some field =>
      have price : specPrice name entry.2 = entry.2.aliasCount :=
        if_pos (SpecField.mem_specNames_iff.2 ⟨field, known⟩)
      have shown : specFields.get start field = start.lookup field := rfl
      rw [price, specFields.next_of_some known, shown]
      dsimp only
      cases start.lookup field with
      | some content => simp [yields_throw]
      | none =>
          simp only [Option.isSome_none, Bool.false_eq_true, if_false, true_and,
            ← Nat.add_assoc]
          exact yields_bind_pure_of fun _ => yields_text

def SpecField.of (spec : Spec) : SpecField → String
  | .input => spec.edge.input
  | .output => spec.edge.output
  | .expression => spec.expression

theorem specEntries_iff {content : Spec} :
    SpecEntries document entries content ↔ KeysAreTexts document entries ∧
      specFields.Taken document []
        (fun field => some (field.of content)) entries := by
  constructor
  · rintro ⟨keys, input, output, expression⟩
    refine ⟨keys, fun field => ?_⟩
    cases field with
    | input => exact takes_none_some_iff.2 input
    | output => exact takes_none_some_iff.2 output
    | expression => exact takes_none_some_iff.2 expression
  · rintro ⟨keys, taken⟩
    exact ⟨keys, takes_none_some_iff.1 (taken .input),
      takes_none_some_iff.1 (taken .output),
      takes_none_some_iff.1 (taken .expression)⟩

theorem yields_require {draft : SpecDraft} {field : SpecField}
    {content : String} :
    (draft.require path mark field).Yields before content after ↔
      draft.lookup field = some content ∧ after = before := by
  unfold SpecDraft.require
  cases draft.lookup field with
  | none => simp [yields_throw]
  | some known => simp [yields_pure, eq_comm]

theorem yields_spec {content : Spec} :
    (spec document path node).Yields before content after ↔
      FitsSpec document node content ∧
        after = before + specAliases document node := by
  simp only [spec, yields_bind, yields_require, yields_pure]
  constructor
  · rintro ⟨⟨mark, entries⟩, _, opened, draft, _, folded, first, _,
      ⟨input, rfl⟩, second, _, ⟨output, rfl⟩, third, _,
      ⟨expression, rfl⟩, rfl, rfl⟩
    obtain ⟨held, rfl⟩ := yields_entries.1 ⟨mark, opened⟩
    obtain ⟨keys, taken, rfl⟩ :=
      specDraft_adds.yields_foldlM.1 ⟨draft, folded, fun _ => rfl⟩
    have complete : specFields.get draft = fun field =>
        some (field.of ⟨⟨first, second⟩, third⟩) := by
      funext field
      cases field with
      | input => exact input
      | output => exact output
      | expression => exact expression
    rw [complete] at taken
    refine ⟨⟨entries, held, specEntries_iff.2 ⟨keys, taken⟩⟩, ?_⟩
    rw [specAliases_eq held]
    exact Nat.add_assoc ..
  · rintro ⟨⟨entries, held, fits⟩, rfl⟩
    obtain ⟨keys, taken⟩ := specEntries_iff.1 fits
    obtain ⟨mark, opened⟩ : ∃ mark,
        (Schema.entries document path .spec node).Yields before
        (mark, entries) (before + node.aliasCount) :=
          yields_entries.2 ⟨held, rfl⟩
    obtain ⟨draft, folded, found⟩ :=
      specDraft_adds.yields_foldlM.2 ⟨keys, taken, rfl⟩
    rw [specAliases_eq held, ← Nat.add_assoc]
    exact ⟨(mark, entries), _, opened, draft, _, folded, _, _,
      ⟨found .input, rfl⟩, _, _, ⟨found .output, rfl⟩, _, _,
      ⟨found .expression, rfl⟩, rfl, rfl⟩

theorem yields_specsFrom {items : List Node} {first : Nat}
    {contents : List Spec} :
    (specsFrom document path first items).Yields before contents after ↔
      List.Forall₂ (FitsSpec document) items contents ∧
        after = before + (items.map (specAliases document)).sum := by
  induction items generalizing first before after contents with
  | nil => simp [specsFrom, yields_pure]
  | cons item rest ih =>
      simp only [specsFrom, yields_bind, yields_spec, ih, yields_pure,
        List.map_cons, List.sum_cons]
      constructor
      · rintro ⟨head, _, ⟨fits, rfl⟩, tail, _, ⟨others, rfl⟩, rfl, rfl⟩
        exact ⟨.cons fits others, Nat.add_assoc ..⟩
      · rintro ⟨fitting, rfl⟩
        cases fitting with
        | cons fits others =>
            exact ⟨_, _, ⟨fits, rfl⟩, _, _, ⟨others, rfl⟩, rfl,
              (Nat.add_assoc ..).symm⟩

theorem yields_specs {contents : List Spec} :
    (specs document path node).Yields before contents after ↔
      FitsSpecs document node contents ∧
        after = before + specsAliases document node := by
  simp only [specs, yields_bind, yields_items, yields_specsFrom]
  constructor
  · rintro ⟨items, _, ⟨held, rfl⟩, fits, rfl⟩
    exact ⟨⟨items, held, fits⟩, by rw [specsAliases_eq held]; omega⟩
  · rintro ⟨⟨items, held, fits⟩, rfl⟩
    exact ⟨items, _, ⟨held, rfl⟩, fits, by rw [specsAliases_eq held]; omega⟩

namespace ConfigField

theorem ofKey?_eq_some_iff {field : ConfigField} :
    ofKey? name = some field ↔ name ∈ [field.key] := by
  rw [List.mem_singleton]
  unfold ofKey?
  constructor
  · intro found
    have same : field.key = name := by simpa using List.find?_some found
    exact same.symm
  · rintro rfl
    cases field <;> decide

theorem mem_configNames_iff :
    name ∈ configNames ↔ ∃ field, ofKey? name = some field := by
  simp only [ofKey?_eq_some_iff, List.mem_singleton]
  constructor
  · simp only [configNames, List.mem_cons, List.not_mem_nil, or_false]
    rintro (rfl | rfl | rfl)
    · exact ⟨.name, rfl⟩
    · exact ⟨.reuse, rfl⟩
    · exact ⟨.specs, rfl⟩
  · rintro ⟨field, rfl⟩
    cases field <;> decide

abbrev Value : ConfigField → Type
  | .name => String
  | .reuse => Bool
  | .specs => List Spec

def Holds (document : Document) :
    (field : ConfigField) → Node → field.Value → Prop
  | .name => HoldsText document
  | .reuse => HoldsBoolean document
  | .specs => FitsSpecs document

end ConfigField

namespace ConfigDraft

def get (draft : ConfigDraft) : (field : ConfigField) → Option field.Value
  | .name => draft.name
  | .reuse => draft.reuse
  | .specs => draft.specs

def set (draft : ConfigDraft) :
    (field : ConfigField) → field.Value → ConfigDraft
  | .name, content => { draft with name := some content }
  | .reuse, content => { draft with reuse := some content }
  | .specs, content => { draft with specs := some content }

variable {draft other : ConfigDraft}

theorem has_eq (field : ConfigField) :
    draft.has field = (draft.get field).isSome := by
  cases field <;> rfl

theorem eq_of_get_eq (same : ∀ field, other.get field = draft.get field) :
    other = draft := by
  obtain ⟨name, reuse, specs⟩ := other
  obtain rfl : name = _ := same .name
  obtain rfl : reuse = _ := same .reuse
  obtain rfl : specs = _ := same .specs
  rfl

end ConfigDraft

abbrev configFields : Fields ConfigField ConfigDraft where
  Value := ConfigField.Value
  holds := ConfigField.Holds
  names := fun field => [field.key]
  field? := ConfigField.ofKey?
  field?_eq_some_iff := ConfigField.ofKey?_eq_some_iff
  get := ConfigDraft.get
  set := ConfigDraft.set
  get_set_same := fun {_ field _} => by cases field <;> rfl
  get_set_other := fun {_ field _ other} different => by
    cases field <;> cases other <;> first | rfl | contradiction

theorem configDraft_adds :
    configFields.Adds document (configPrice document)
      (ConfigDraft.add document mark) := by
  intro start next entry before after
  rw [ConfigDraft.add, yields_key_bind]
  refine exists_congr fun name => and_congr_right fun _ => ?_
  dsimp only
  cases known : ConfigField.ofKey? name with
  | none =>
      have unknown : name ∉ configNames := fun member => by
        simpa [known] using ConfigField.mem_configNames_iff.1 member
      have unfiltered : name ≠ "filters" :=
        fun same => unknown (by rw [same]; decide)
      have free : configPrice document name entry.2 = 0 := by
        rw [configPrice, if_neg unfiltered, if_neg unknown]
      rw [free, configFields.next_of_none known]
      exact yields_pure
  | some field =>
      obtain rfl :=
        List.mem_singleton.1 (ConfigField.ofKey?_eq_some_iff.1 known)
      rw [configFields.next_of_some known]
      dsimp only
      rw [ConfigDraft.has_eq]
      cases start.get field with
      | some content => simp [yields_throw]
      | none =>
          simp only [Option.isSome_none, Bool.false_eq_true, if_false, true_and,
            ← Nat.add_assoc]
          cases field with
          | name => exact yields_bind_pure_of fun _ => yields_text
          | reuse => exact yields_bind_pure_of fun _ => yields_boolean
          | specs => exact yields_bind_pure_of fun _ => yields_specs

theorem holdsOptional_iff {α : Type} {holds : Node → α → Prop}
    {names : List String} {default content : α} :
    HoldsOptional document holds names default entries content ↔
      ∃ known, Takes holds none (valuesOf document names entries) known ∧
        content = known.getD default := by
  constructor
  · rintro (⟨empty, rfl⟩ | one)
    · exact ⟨none, takes_none_none_iff.2 empty, rfl⟩
    · exact ⟨some content, takes_none_some_iff.2 one, rfl⟩
  · rintro ⟨_ | known, takes, rfl⟩
    · exact .inl ⟨takes_none_none_iff.1 takes, rfl⟩
    · exact .inr (takes_none_some_iff.1 takes)

theorem configEntries_iff {config : Config} :
    ConfigEntries document entries config ↔
      KeysAreTexts document entries ∧
        ∃ last : ConfigDraft, configFields.Taken document {} last.get entries ∧
          config = last.config := by
  constructor
  · rintro ⟨keys, name, reuse, specs⟩
    obtain ⟨name, taken, named⟩ := holdsOptional_iff.1 name
    obtain ⟨reuse, flagged, shared⟩ := holdsOptional_iff.1 reuse
    obtain ⟨specs, filled, listed⟩ := holdsOptional_iff.1 specs
    refine ⟨keys, ⟨name, reuse, specs⟩, fun field => ?_, ?_⟩
    · cases field with
      | name => exact taken
      | reuse => exact flagged
      | specs => exact filled
    · rw [ConfigDraft.config, ← named, ← shared, ← listed]
  · rintro ⟨keys, last, taken, rfl⟩
    exact ⟨keys, holdsOptional_iff.2 ⟨_, taken .name, rfl⟩,
      holdsOptional_iff.2 ⟨_, taken .reuse, rfl⟩,
      holdsOptional_iff.2 ⟨_, taken .specs, rfl⟩⟩

theorem yields_fit {config : Config} :
    (fit document).Yields before config after ↔
      Fits document config ∧ after = before + aliases document := by
  simp only [fit, yields_bind, yields_pure]
  constructor
  · rintro ⟨⟨mark, entries⟩, _, opened, last, _, folded, rfl, rfl⟩
    obtain ⟨held, rfl⟩ := yields_entries.1 ⟨mark, opened⟩
    obtain ⟨keys, taken, rfl⟩ :=
      configDraft_adds.yields_foldlM.1 ⟨last, folded, fun _ => rfl⟩
    refine ⟨⟨entries, held, configEntries_iff.2 ⟨keys, last, taken, rfl⟩⟩, ?_⟩
    rw [aliases_eq held]
    exact Nat.add_assoc ..
  · rintro ⟨⟨entries, held, fits⟩, rfl⟩
    obtain ⟨keys, last, taken, rfl⟩ := configEntries_iff.1 fits
    obtain ⟨mark, opened⟩ : ∃ mark,
        (Schema.entries document [] .config document.root).Yields before
        (mark, entries) (before + document.root.aliasCount) :=
          yields_entries.2 ⟨held, rfl⟩
    obtain ⟨draft, folded, found⟩ :=
      configDraft_adds.yields_foldlM.2 ⟨keys, taken, rfl⟩
    obtain rfl := ConfigDraft.eq_of_get_eq found
    rw [aliases_eq held, ← Nat.add_assoc]
    exact ⟨(mark, entries), _, opened, draft, _, folded, rfl, rfl⟩

/-- A document that fits has its configuration, unless too many aliases are
followed to see it. -/
theorem config_of_fits {config : Config} (fits : Fits document config) :
    Schema.config document =
      if document.aliasLimit < aliases document then .error .repetition
      else .ok config := by
  have yields : (fit document).run.run 0 = (.ok config, 0 + aliases document) :=
    yields_fit.2 ⟨fits, rfl⟩
  rw [Nat.zero_add] at yields
  rw [Schema.config, yields]
  rfl

theorem config_eq_ok_iff {config : Config} :
    Schema.config document = .ok config ↔
      Fits document config ∧ aliases document ≤ document.aliasLimit := by
  constructor
  · intro succeeded
    have fits : Fits document config := by
      rcases outcome : (fit document).run.run 0 with ⟨result, followed⟩
      rw [Schema.config, outcome] at succeeded
      dsimp only at succeeded
      split at succeeded
      · contradiction
      · cases result with
        | error misfit => simp [Except.mapError] at succeeded
        | ok value =>
            obtain rfl : value = config := by
              simpa [Except.mapError] using succeeded
            have yields : (fit document).Yields 0 value followed := outcome
            exact (yields_fit.1 yields).1
    rw [config_of_fits fits] at succeeded
    split at succeeded
    · contradiction
    · next few => exact ⟨fits, Nat.not_lt.1 few⟩
  · rintro ⟨fits, few⟩
    rw [config_of_fits fits, if_neg (Nat.not_lt.2 few)]

end EdgeFilters.Schema
