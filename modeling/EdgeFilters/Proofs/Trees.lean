import EdgeFilters.Proofs.Flow
import EdgeFilters.Yaml.Builder

namespace EdgeFilters.Yaml

namespace Builder

variable {builder : Builder} {token : Token} {found : List Token}

inductive Starts : Symbol → Prop
  | scalar {style : Style} {text : String} : Starts (.scalar style text)
  | sequence : Starts .sequenceStart
  | mapping : Starts .mappingStart

/-- The next token may start a node. -/
def Awaits (builder : Builder) : Prop :=
  ∀ token : Token, Starts token.symbol →
    builder.feed token = builder.content token

/-- Wherever a node may start, tokens with these symbols complete a
node of this shape. -/
def Builds (symbols : List Symbol) (shape : Node → Prop) : Prop :=
  ∀ ⦃builder : Builder⦄ ⦃found : List Token⦄, builder.Awaits →
    found.map Token.symbol = symbols →
    ∃ node, shape node ∧ found.foldlM feed builder = .ok (builder.complete node)

theorem content_scalar {style : Style} {text : String}
    (here : token.symbol = .scalar style text) :
    builder.content token =
      .ok (builder.complete
        (.scalar { mark := token.mark } none style text)) := by
  simp [content, content?, here, bind, Except.bind, pure, Except.pure,
    Properties.site]

theorem content_sequence (here : token.symbol = .sequenceStart) :
    builder.content token =
      .ok (builder.enter (.sequence .flow { mark := token.mark } [])
        .item) := by
  simp [content, content?, here, bind, Except.bind, pure, Except.pure,
    Properties.site]

theorem content_mapping (here : token.symbol = .mappingStart) :
    builder.content token =
      .ok (builder.enter (.mapping .flow { mark := token.mark } [] .key)
        .key) := by
  simp [content, content?, here, bind, Except.bind, pure, Except.pure,
    Properties.site]

theorem builds_scalar (style : Style) (text : String) :
    Builds [.scalar style text] fun node => ∃ mark,
      node = .scalar { mark } none style text := by
  intro builder found awaits symbols
  obtain ⟨token, rfl, here⟩ := List.map_eq_singleton_iff.1 symbols
  refine ⟨_, ⟨token.mark, rfl⟩, ?_⟩
  rw [List.foldlM_cons, awaits token (here ▸ .scalar), content_scalar here]
  rfl

section

variable {α β : Type} {items : List α} {symbols : α → List Symbol}
  {shows : α → β → Prop} {ready waiting closed : List β → Builder}
  {ending : Symbol}

/-- With the parts so far, latest first, a collection is ready for one more, or
waits for a comma behind the latest; in both cases it may be closed. -/
structure Gathers (ready waiting closed : List β → Builder)
    (ending : Symbol) : Prop where
  comma : ∀ parts (token : Token), token.symbol = .comma →
    (waiting parts).feed token = .ok (ready parts)
  endsReady : ∀ parts (token : Token), token.symbol = ending →
    (ready parts).feed token = .ok (closed parts)
  endsWaiting : ∀ parts (token : Token), token.symbol = ending →
    (waiting parts).feed token = .ok (closed parts)

theorem Gathers.exists_parts (gathers : Gathers ready waiting closed ending)
    (part : ∀ item ∈ items, ∀ parts (found : List Token),
      found.map Token.symbol = symbols item →
      ∃ made, shows item made ∧
        found.foldlM feed (ready parts) = .ok (waiting (made :: parts)))
    (parts : List β)
    (layout : found.map Token.symbol =
      Flow.joinedSymbols (items.map symbols) ++ [ending]) :
    ∃ made, List.Forall₂ shows items made ∧
      found.foldlM feed (ready parts) =
        .ok (closed (made.reverse ++ parts)) := by
  unfold Flow.joinedSymbols at layout
  induction items generalizing parts found with
  | nil =>
      obtain ⟨token, rfl, here⟩ := List.map_eq_singleton_iff.1 layout
      refine ⟨[], .nil, ?_⟩
      rw [List.foldlM_cons, gathers.endsReady parts token here]
      rfl
  | cons item others ih =>
      obtain ⟨first, later⟩ := List.forall_mem_cons.1 part
      cases others with
      | nil =>
          rw [List.map_singleton, List.intercalate_singleton] at layout
          obtain ⟨front, back, rfl, inFront, behind⟩ :=
            List.map_eq_append_iff.1 layout
          obtain ⟨token, rfl, here⟩ := List.map_eq_singleton_iff.1 behind
          obtain ⟨made, shown, fed⟩ := first parts front inFront
          refine ⟨[made], .cons shown .nil, ?_⟩
          rw [List.foldlM_append, fed]
          simp only [bind, Except.bind, List.foldlM_cons,
            gathers.endsWaiting _ token here]
          rfl
      | cons next others =>
          rw [List.map_cons, List.map_cons, List.intercalate_cons_cons,
            List.append_assoc, List.append_assoc] at layout
          obtain ⟨front, rest, rfl, inFront, behind⟩ :=
            List.map_eq_append_iff.1 layout
          obtain ⟨token, back, rfl, here, further⟩ :=
            List.map_eq_cons_iff.1 behind
          obtain ⟨made, shown, fed⟩ := first parts front inFront
          obtain ⟨more, all, finished⟩ := ih later (made :: parts) further
          refine ⟨made :: more, .cons shown all, ?_⟩
          rw [List.foldlM_append, fed]
          simp only [bind, Except.bind, List.foldlM_cons,
            gathers.comma _ token here]
          simpa using finished

end

variable {site : Site}

/-- A flow sequence with these items, latest first. -/
def inSequence (builder : Builder) (site : Site) (expectation : Expectation)
    (items : List Node) : Builder :=
  { builder with
    frames := .sequence .flow site items :: builder.frames, expectation }

theorem feed_inSequence {expectation : Expectation} {items : List Node}
    (between : expectation = .item ∨ expectation = .comma) (token : Token) :
    (builder.inSequence site expectation items).feed token =
      (builder.inSequence site expectation items).shift token := by
  rcases between with rfl | rfl <;> rfl

theorem awaits_inSequence (builder : Builder) (site : Site)
    (items : List Node) : (builder.inSequence site .item items).Awaits := by
  intro token starts
  rw [feed_inSequence (.inl rfl)]
  generalize kind : token.symbol = symbol at starts
  cases starts <;> simp [shift, inSequence, kind]

theorem gathers_sequence (builder : Builder) (site : Site) :
    Gathers (builder.inSequence site .item) (builder.inSequence site .comma)
      (fun items => builder.complete (.sequence site items.reverse))
      .sequenceEnd where
  comma := by
    intro items token comma
    rw [feed_inSequence (.inr rfl)]
    simp [shift, inSequence, comma, expect]
  endsReady := by
    intro items token ending
    rw [feed_inSequence (.inl rfl)]
    simp [shift, inSequence, ending, close, complete]
  endsWaiting := by
    intro items token ending
    rw [feed_inSequence (.inr rfl)]
    simp [shift, inSequence, ending, close, complete]

theorem builds_sequence {items : List Flow}
    (builds : ∀ item ∈ items, Builds item.symbols item.Shows) :
    Builds (Flow.sequence items).symbols (Flow.sequence items).Shows := by
  intro builder found awaits layout
  rw [Flow.symbols, Flow.itemSymbols_eq_map] at layout
  obtain ⟨token, rest, rfl, here, inside⟩ := List.map_eq_cons_iff.1 layout
  have part : ∀ item ∈ items, ∀ nodes (found : List Token),
      found.map Token.symbol = item.symbols → ∃ node, item.Shows node ∧
        found.foldlM feed
          (builder.inSequence { mark := token.mark } .item nodes) =
          .ok (builder.inSequence { mark := token.mark } .comma
            (node :: nodes)) :=
    fun item member nodes found symbols =>
      builds item member (awaits_inSequence builder _ nodes) symbols
  obtain ⟨nodes, shown, fed⟩ :=
    (gathers_sequence builder _).exists_parts part [] inside
  refine ⟨.sequence { mark := token.mark } nodes, .sequence shown, ?_⟩
  rw [List.foldlM_cons, awaits token (here ▸ .sequence), content_sequence here]
  exact fed.trans (by simp)

/-- A flow mapping with these entries, latest first. -/
def inMapping (builder : Builder) (site : Site) (place : Place)
    (expectation : Expectation) (entries : List (Node × Node)) : Builder :=
  { builder with
    frames := .mapping .flow site entries place :: builder.frames, expectation }

theorem feed_inMapping {place : Place} {expectation : Expectation}
    {entries : List (Node × Node)}
    (between : expectation = .key ∨ expectation = .comma) (token : Token) :
    (builder.inMapping site place expectation entries).feed token =
      (builder.inMapping site place expectation entries).shift token := by
  rcases between with rfl | rfl <;> rfl

theorem awaits_inMapping (builder : Builder) (site : Site) (key : Node)
    (entries : List (Node × Node)) :
    (builder.inMapping site (.value key) (.node none none) entries).Awaits := by
  intro token starts
  generalize kind : token.symbol = symbol at starts
  cases starts <;> simp [feed, omits, inMapping, kind]

theorem gathers_mapping (builder : Builder) (site : Site) :
    Gathers (builder.inMapping site .key .key)
      (builder.inMapping site .key .comma)
      (fun entries => builder.complete (.mapping site entries.reverse))
      .mappingEnd where
  comma := by
    intro items token comma
    rw [feed_inMapping (.inr rfl)]
    simp [shift, inMapping, comma, expect]
  endsReady := by
    intro items token ending
    rw [feed_inMapping (.inl rfl)]
    simp [shift, inMapping, ending, close, complete]
  endsWaiting := by
    intro items token ending
    rw [feed_inMapping (.inr rfl)]
    simp [shift, inMapping, ending, close, complete]

/-- A key and the colon behind it lead to the place of its value. -/
theorem foldlM_key (builder : Builder) (entries : List (Node × Node))
    {key scalar value : Token} {text : String} (first : key.symbol = .key)
    (second : scalar.symbol = .scalar .plain text)
    (third : value.symbol = .value) (rest : List Token) :
    (key :: scalar :: value :: rest).foldlM feed
      (builder.inMapping site .key .key entries) =
      rest.foldlM feed
        (builder.inMapping site
          (.value (.scalar { mark := scalar.mark } none .plain text))
          (.node none none) entries) := by
  have opened : (builder.inMapping site .key .key entries).feed key =
      .ok (builder.inMapping site .key (.node none none) entries) := by
    rw [feed_inMapping (.inl rfl)]
    simp [shift, inMapping, first, expect]
  have named :
      (builder.inMapping site .key (.node none none) entries).feed scalar =
      .ok (builder.inMapping site
        (.value (.scalar { mark := scalar.mark } none .plain text))
        .value entries) := by
    have due :
        (builder.inMapping site .key (.node none none) entries).feed scalar =
        (builder.inMapping site .key (.node none none) entries).content
          scalar := by
      simp [feed, omits, inMapping, second]
    rw [due, content_scalar second]
    rfl
  have colon :
      (builder.inMapping site
        (.value (.scalar { mark := scalar.mark } none .plain text))
      .value entries).feed value =
      .ok (builder.inMapping site
        (.value (.scalar { mark := scalar.mark } none .plain text))
        (.node none none) entries) := by
    simp [feed, settle, fillValue, closeIndentless, shift, inMapping,
      third, expect]
  simp only [List.foldlM_cons, opened, named, colon, bind, Except.bind]

theorem builds_mapping {entries : List (Word × Flow)}
    (builds : ∀ entry ∈ entries, Builds entry.2.symbols entry.2.Shows) :
    Builds (Flow.mapping entries).symbols (Flow.mapping entries).Shows := by
  intro builder found awaits layout
  rw [Flow.symbols, Flow.entrySymbols_eq_map] at layout
  obtain ⟨token, rest, rfl, here, inside⟩ := List.map_eq_cons_iff.1 layout
  have part : ∀ entry ∈ entries, ∀ nodes (found : List Token),
      found.map Token.symbol =
        .key :: .scalar .plain entry.1.text :: .value :: entry.2.symbols →
      ∃ node : Node × Node,
        ((∃ mark, node.1 = .scalar { mark } none .plain entry.1.text) ∧
          entry.2.Shows node.2) ∧
          found.foldlM feed
            (builder.inMapping { mark := token.mark } .key .key nodes) =
            .ok (builder.inMapping { mark := token.mark } .key .comma
              (node :: nodes)) := by
    intro entry member nodes found symbols
    obtain ⟨key, _, rfl, first, symbols⟩ := List.map_eq_cons_iff.1 symbols
    obtain ⟨scalar, _, rfl, second, symbols⟩ := List.map_eq_cons_iff.1 symbols
    obtain ⟨value, found, rfl, third, symbols⟩ := List.map_eq_cons_iff.1 symbols
    obtain ⟨node, shown, fed⟩ :=
      builds entry member (awaits_inMapping builder _ _ nodes) symbols
    refine ⟨(_, node), ⟨⟨scalar.mark, rfl⟩, shown⟩, ?_⟩
    rw [foldlM_key builder nodes first second third]
    exact fed
  obtain ⟨nodes, shown, fed⟩ :=
    (gathers_mapping builder _).exists_parts part [] inside
  refine ⟨.mapping { mark := token.mark } nodes, .mapping ?_ ?_, ?_⟩
  · exact shown.imp fun _ _ both => both.1
  · exact shown.imp fun _ _ both => both.2
  · rw [List.foldlM_cons, awaits token (here ▸ .mapping), content_mapping here]
    exact fed.trans (by simp)

theorem builds_flow (flow : Flow) : Builds flow.symbols flow.Shows := by
  induction flow with
  | word bare =>
      intro builder found awaits layout
      obtain ⟨node, ⟨mark, rfl⟩, fed⟩ :=
        builds_scalar .plain bare.text awaits layout
      exact ⟨_, .word, fed⟩
  | quoted content =>
      intro builder found awaits layout
      obtain ⟨node, ⟨mark, rfl⟩, fed⟩ :=
        builds_scalar .doubleQuoted content awaits layout
      exact ⟨_, .quoted, fed⟩
  | sequence items ih => exact builds_sequence ih
  | mapping entries ih => exact builds_mapping ih

end Builder

theorem Builder.awaits_start : ({} : Builder).Awaits := by
  intro token starts
  generalize kind : token.symbol = symbol at starts
  cases starts <;> simp [feed, settle, fillValue, closeIndentless, shift, kind]

/-- Tokens with the symbols of a flow are one document that shows it. -/
theorem ofTokens_flow (flow : Flow) {found : List Token}
    (layout : found.map Token.symbol = flow.symbols ++ [.finish]) :
    ∃ root, flow.Shows root ∧
      Document.ofTokens found = .ok (some (.ofRoot root)) := by
  obtain ⟨front, back, rfl, inFront, behind⟩ := List.map_eq_append_iff.1 layout
  obtain ⟨token, rfl, here⟩ := List.map_eq_singleton_iff.1 behind
  obtain ⟨root, shown, fed⟩ :=
    Builder.builds_flow flow Builder.awaits_start inFront
  refine ⟨root, shown, ?_⟩
  have ended : (({} : Builder).complete root).feed token =
      .ok ((({} : Builder).complete root).expect .nothing) := by
    simp [Builder.feed, Builder.settle, Builder.fillValue,
      Builder.closeIndentless, Builder.shift, Builder.complete,
      Builder.place, here]
  rw [Document.ofTokens, List.foldlM_append, fed]
  simp only [bind, Except.bind, List.foldlM_cons, ended]
  rfl

end EdgeFilters.Yaml
