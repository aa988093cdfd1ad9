import EdgeFilters.Proofs.Steps

namespace EdgeFilters.Yaml

namespace Lexer

variable {lexer : Lexer} {text rest : List Char} {symbols : List Symbol}

/-- Nothing follows, or what may follow a node in a flow collection. -/
def Ends (inFlow : Bool) (rest : List Char) : Prop :=
  ∀ c ∈ rest.head?, inFlow = true ∧ (c = ',' ∨ c = ']' ∨ c = '\x7d')

/-- Wherever a node may stand, the text has these symbols. -/
def Lexes (text : List Char) (symbols : List Symbol) : Prop :=
  ∀ ⦃lexer : Lexer⦄ ⦃rest : List Char⦄, lexer.Calm →
    lexer.Faces (text ++ rest) →
    Ends lexer.inFlow rest → ∃ next, Leads lexer next symbols ∧ next.Faces rest

/-- Between the punctuation of a flow collection the text has these symbols. -/
def LexesInside (text : List Char) (symbols : List Symbol) : Prop :=
  ∀ ⦃lexer : Lexer⦄ ⦃rest : List Char⦄, lexer.Calm → lexer.inFlow = true →
    lexer.keyAllowed = true → lexer.Faces (text ++ rest) → Ends true rest →
    ∃ next, Leads lexer next symbols ∧ next.Faces rest

theorem Lexes.inside (lexes : Lexes text symbols) :
    LexesInside text symbols := by
  intro lexer rest calm flow _ faces ends
  rw [← flow] at ends
  exact lexes calm faces ends

theorem Ends.stopsPlain {inFlow : Bool} (ends : Ends inFlow rest) :
    StopsPlain inFlow rest := by
  rintro c tail rfl
  obtain ⟨rfl, stop⟩ := ends c rfl
  rcases stop with rfl | rfl | rfl <;>
    simp [isBreak, isSpace, Plain.collides, Plain.stopsWord, isFlowIndicator]

theorem lexes_word (bare : Word) :
    Lexes bare.text.toList [.scalar .plain bare.text] := by
  intro lexer rest calm faces ends
  obtain ⟨next, mark, step, still, tokens, outer, cursor, -⟩ :=
    calm.readWord faces ends.stopsPlain
  refine ⟨next, ⟨.single step, still, ?_, outer⟩,
    faces_of_rest (by rw [cursor])⟩
  rw [Lexer.symbols, tokens]
  rfl

theorem lexes_quoted (content : String) :
    Lexes (quoted content) [.scalar .doubleQuoted content] := by
  intro lexer rest calm faces _
  obtain ⟨next, leads, layout⟩ := calm.readQuoted faces
  exact ⟨next, leads, faces_of_rest layout⟩

theorem lexesInside_entry (bare : Word) (lexes : Lexes text symbols) :
    LexesInside (bare.text.toList ++ ':' :: ' ' :: text)
      (.key :: .scalar .plain bare.text :: .value :: symbols) := by
  intro lexer rest calm flow allowed faces ends
  rw [List.append_assoc] at faces
  have stops : StopsPlain lexer.inFlow (':' :: ' ' :: (text ++ rest)) := by
    rintro c tail ⟨⟩
    simp [isBreak, isSpace, Plain.collides, Plain.stopsWord, isFlowIndicator,
      startsGap, isGap]
  obtain ⟨keyed, mark, first, still, tokens, outer, cursor, saved⟩ :=
    calm.readWord faces stops
  obtain ⟨count, counted, waiting⟩ := saved allowed
  have inside : keyed.inFlow = true := by rw [inFlow, outer, ← inFlow, flow]
  have inTime : keyed.mark.line = mark.line ∧
      keyed.mark.octets ≤ mark.octets + 1024 := by
    have printable : ∀ c ∈ bare.text.toList, isPrintable c = true :=
      fun c member => isPrintable_of_isLetter (bare.isLetter_of_mem c member)
    have short := bare.short
    rw [Lexer.mark, cursor, Mark.after_of_isPrintable printable]
    exact ⟨rfl, by simpa using short⟩
  obtain ⟨valued, second, calmer, symbols, outermost, behind⟩ :=
    still.readValue inside (congrArg Cursor.rest cursor) waiting counted
      inTime tokens
  have leads : Leads lexer valued [.key, .scalar .plain bare.text, .value] :=
    ⟨.tail (.single first) second, calmer, symbols, outermost.trans outer⟩
  obtain ⟨last, onward, there⟩ := lexes calmer ⟨[' '], by simp, behind⟩
    (by rw [leads.inFlow_eq, flow]; exact ends)
  exact ⟨last, leads.trans onward, there⟩

theorem lexesInside_joined {α : Type} {items : List α} {texts : α → List Char}
    {symbols : α → List Symbol}
    (lexes : ∀ item ∈ items, LexesInside (texts item) (symbols item)) :
    LexesInside (Flow.joined (items.map texts))
      (Flow.joinedSymbols (items.map symbols)) := by
  unfold Flow.joined Flow.joinedSymbols
  induction items with
  | nil => exact fun _ _ calm _ _ faces _ => ⟨_, .refl calm, faces⟩
  | cons item others ih =>
      obtain ⟨here, later⟩ := List.forall_mem_cons.1 lexes
      cases others with
      | nil =>
          simp only [List.map_cons, List.map_nil, List.intercalate_singleton]
          exact here
      | cons further others =>
          intro lexer rest calm flow allowed faces ends
          simp only [List.map_cons, List.intercalate_cons_cons,
            List.append_assoc] at faces ih ⊢
          obtain ⟨next, first, atComma⟩ :=
            here calm flow allowed faces (by simp [Ends])
          obtain ⟨ready, comma, keyed, behind⟩ := first.calm.readComma atComma
          have opened : ready.inFlow = true :=
            (comma.inFlow_eq.trans first.inFlow_eq).trans flow
          obtain ⟨last, onward, there⟩ :=
            ih later comma.calm opened keyed ⟨[' '], by simp, behind⟩ ends
          exact ⟨last, first.trans (comma.trans onward), there⟩

/-- A flow collection leaves everything around it as it was. -/
theorem lexes_collection {opening closing : Char} {starting ending : Symbol}
    (opens : ∀ (lexer : Lexer) rest,
      lexer.readToken opening rest = lexer.openFlow starting)
    (closes : ∀ (lexer : Lexer) rest,
      lexer.readToken closing rest = lexer.closeFlow ending)
    (starts : isStart opening = true) (stands : isStart closing = true)
    (ends : closing = ']' ∨ closing = '\x7d')
    (lexes : LexesInside text symbols) :
    Lexes (opening :: (text ++ [closing]))
      (starting :: (symbols ++ [ending])) := by
  intro lexer rest calm faces _
  rw [List.cons_append, List.append_assoc] at faces
  obtain ⟨inner, candidate, first, still, begun, outer, keyed, behind⟩ :=
    calm.openFlow faces starts fun ready => opens ready _
  have flow : inner.inFlow = true := by rw [inFlow, outer]; rfl
  obtain ⟨full, leads, atEnd⟩ := lexes still flow keyed (faces_of_rest behind)
    (fun c found => ⟨rfl, by cases found; exact .inr ends⟩)
  obtain ⟨next, last, calmer, closed, left, there⟩ :=
    leads.calm.closeFlow atEnd stands (leads.outer.trans outer) fun ready =>
      closes ready _
  refine ⟨next,
    ⟨.tail (.trans (.single first) leads.steps) last, calmer, ?_, left⟩,
    faces_of_rest there⟩
  rw [closed, leads.symbols, begun]
  simp

theorem lexes_flow (flow : Flow) : Lexes flow.text flow.symbols := by
  induction flow with
  | word bare => exact lexes_word bare
  | quoted content => exact lexes_quoted content
  | sequence items ih =>
      rw [Flow.text, Flow.symbols, Flow.itemTexts_eq_map,
        Flow.itemSymbols_eq_map]
      refine lexes_collection ?_ ?_ (by decide) (by decide) (.inl rfl)
        (lexesInside_joined fun item member => (ih item member).inside)
      · intro lexer rest
        simp [Lexer.readToken, isDocumentMarker]
      · intro lexer rest
        simp [Lexer.readToken, isDocumentMarker]
  | mapping entries ih =>
      rw [Flow.text, Flow.symbols, Flow.entryTexts_eq_map,
        Flow.entrySymbols_eq_map]
      refine lexes_collection ?_ ?_ (by decide) (by decide) (.inr rfl)
        (lexesInside_joined fun entry member =>
          lexesInside_entry entry.1 (ih entry member))
      · intro lexer rest
        simp [Lexer.readToken, isDocumentMarker]
      · intro lexer rest
        simp [Lexer.readToken, isDocumentMarker]

theorem Calm.finish (calm : lexer.Calm) (outside : lexer.outer = []) :
    ∃ found, lexer.finish = .ok found ∧
      found.map Token.symbol = lexer.symbols.reverse ++ [.finish] := by
  obtain ⟨cursor, tokens, count, columns, candidate, outer, keyAllowed⟩ := lexer
  obtain ⟨rfl, optional, -⟩ := calm
  subst outside
  simp [Lexer.finish, closeAllBlocks, inFlow, Lexer.dropKey, optional, bind,
    Except.bind, pure, Except.pure, push, Lexer.symbols]

theorem Calm.run (calm : lexer.Calm) (outside : lexer.outer = [])
    (ended : lexer.Faces []) {fuel : Nat}
    (enough : lexer.cursor.rest.length < fuel) :
    ∃ found, lexer.run fuel = .ok found ∧
      found.map Token.symbol = lexer.symbols.reverse ++ [.finish] := by
  obtain ⟨mark, candidate, prepared, optional⟩ := calm.prepare ended (by simp)
  have still : Calm { lexer with cursor := ⟨mark, []⟩, candidate } :=
    ⟨calm.columns, optional, calm.outer⟩
  obtain ⟨found, finished, symbols⟩ := still.finish outside
  cases fuel with
  | zero => cases enough
  | succ fuel =>
      refine ⟨found, ?_, symbols⟩
      rw [Lexer.run, prepared]
      exact finished

end Lexer

open Lexer

theorem normalizeBreaks_of_isPrintable {text : List Char}
    (printable : ∀ c ∈ text, isPrintable c = true) :
    normalizeBreaks text = text := by
  fun_induction normalizeBreaks text with
  | case1 rest ih => exact absurd (printable '\r' (by simp)) (by decide)
  | case2 rest _ ih => exact absurd (printable '\r' (by simp)) (by decide)
  | case3 rest ih => exact absurd (printable '\u0085' (by simp)) (by decide)
  | case4 c rest _ _ _ ih => rw [ih (List.forall_mem_cons.1 printable).2]
  | case5 => rfl

theorem isAllowed_of_isPrintable {c : Char} (printable : isPrintable c = true) :
    isAllowed c = true := by
  simp only [isPrintable, Bool.and_eq_true, decide_eq_true_eq] at printable
  simp [isAllowed, printable]

theorem isPrintable_of_mem_joined {parts : List (List Char)}
    (printable : ∀ part ∈ parts, ∀ c ∈ part, isPrintable c = true) :
    ∀ c ∈ Flow.joined parts, isPrintable c = true := by
  unfold Flow.joined
  induction parts with
  | nil => simp
  | cons part rest ih =>
      obtain ⟨here, later⟩ := List.forall_mem_cons.1 printable
      cases rest with
      | nil =>
          rw [List.intercalate_singleton]
          exact here
      | cons next rest =>
          rw [List.intercalate_cons_cons]
          simp only [List.forall_mem_append, List.forall_mem_cons]
          exact ⟨⟨here, by decide, by decide, by simp⟩, ih later⟩

theorem isPrintable_of_mem_flow (flow : Flow) :
    ∀ c ∈ flow.text, isPrintable c = true := by
  have around {opening closing : Char} {parts : List (List Char)}
      (starts : isPrintable opening = true) (ends : isPrintable closing = true)
      (inside : ∀ part ∈ parts, ∀ c ∈ part, isPrintable c = true) :
      ∀ c ∈ opening :: (Flow.joined parts ++ [closing]),
        isPrintable c = true := by
    rw [List.forall_mem_cons, List.forall_mem_append, List.forall_mem_singleton]
    exact ⟨starts, isPrintable_of_mem_joined inside, ends⟩
  induction flow with
  | word bare =>
      exact fun c member =>
        isPrintable_of_isLetter (bare.isLetter_of_mem c member)
  | quoted content => exact fun c => isPrintable_of_mem_quoted
  | sequence items ih =>
      rw [Flow.text, Flow.itemTexts_eq_map]
      refine around (by decide) (by decide) fun part member => ?_
      obtain ⟨item, inside, rfl⟩ := List.mem_map.1 member
      exact ih item inside
  | mapping entries ih =>
      rw [Flow.text, Flow.entryTexts_eq_map]
      refine around (by decide) (by decide) fun part member => ?_
      obtain ⟨⟨key, value⟩, inside, rfl⟩ := List.mem_map.1 member
      rw [List.forall_mem_append, List.forall_mem_cons, List.forall_mem_cons]
      exact ⟨fun c letter =>
        isPrintable_of_isLetter
          (key.isLetter_of_mem c letter), by decide, by decide, ih _ inside⟩

/-- The tokens of a flow's text have the symbols of the flow. -/
theorem tokens_flow (flow : Flow) :
    ∃ found, tokens flow.text = .ok found ∧
      found.map Token.symbol = flow.symbols ++ [.finish] := by
  have printable := isPrintable_of_mem_flow flow
  have allowed : flow.text.find? (!isAllowed ·) = none := by
    rw [List.find?_eq_none]
    intro c member
    simp [isAllowed_of_isPrintable (printable c member)]
  have calm : (start flow.text).Calm := ⟨rfl, rfl, by simp [start]⟩
  have faces : (start flow.text).Faces (flow.text ++ []) := by
    rw [List.append_nil]
    exact faces_of_rest (normalizeBreaks_of_isPrintable printable)
  obtain ⟨next, leads, ended⟩ := lexes_flow flow calm faces (by simp [Ends])
  have enough :
      (start flow.text).cursor.rest.length < flow.text.length + 1 := by
    have same : (start flow.text).cursor.rest = flow.text :=
      normalizeBreaks_of_isPrintable printable
    rw [same]
    exact Nat.lt_succ_self _
  obtain ⟨left, larger, same⟩ := run_of_steps leads.steps enough
  obtain ⟨found, finished, symbols⟩ := leads.calm.run leads.outer ended larger
  refine ⟨found, ?_, ?_⟩
  · rw [tokens, allowed]
    exact same.trans finished
  · rw [symbols, leads.symbols]
    simp [Lexer.symbols, start]

end EdgeFilters.Yaml
