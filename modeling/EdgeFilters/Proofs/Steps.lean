import EdgeFilters.Proofs.Flow
import EdgeFilters.Yaml.Lexer
import Mathlib.Logic.Relation

/-! While nothing but flows is read, no key is required and no block is open. -/

namespace EdgeFilters.Yaml

namespace Lexer

variable {lexer next last : Lexer} {c : Char} {text rest : List Char}
  {first second : List Symbol}

/-- The symbols so far, latest first. -/
def symbols (lexer : Lexer) : List Symbol := lexer.tokens.map Token.symbol

/-- No block collection is open and no key is required. -/
structure Calm (lexer : Lexer) : Prop where
  columns : lexer.columns = []
  candidate : lexer.candidate.any (·.required) = false
  outer : ∀ candidate ∈ lexer.outer, candidate.any (·.required) = false

/-- The text follows behind blanks. -/
def Faces (lexer : Lexer) (text : List Char) : Prop :=
  ∃ blanks, (∀ c ∈ blanks, c = ' ') ∧ lexer.cursor.rest = blanks ++ text

/-- A character that starts a token of a flow. -/
def isStart (c : Char) : Bool := isPrintable c && c != ' ' && c != '#'

theorem skipGap_of_isStart (start : isStart c = true) (inFlow keyAllowed : Bool)
    (mark : Mark) (text : List Char) :
    skipGap inFlow keyAllowed false mark (c :: text) =
      (⟨mark, c :: text⟩, keyAllowed) := by
  simp only [isStart, Bool.and_eq_true, bne_iff_ne] at start
  obtain ⟨⟨printable, noBlank⟩, noComment⟩ := start
  have noOrder : c ≠ '\ufeff' := by
    rintro rfl
    revert printable
    decide
  have noTab : c ≠ '\t' := by
    rintro rfl
    revert printable
    decide
  rw [skipGap]
  simp [isBreak_of_isPrintable printable, noBlank, noComment, noOrder, noTab]

theorem skipGap_of_blanks {blanks : List Char} (blank : ∀ c ∈ blanks, c = ' ')
    (start : ∀ c ∈ text.head?, isStart c = true) (inFlow keyAllowed : Bool)
    (mark : Mark) :
    skipGap inFlow keyAllowed false mark (blanks ++ text) =
      (⟨mark.after blanks, text⟩, keyAllowed) := by
  induction blanks generalizing mark with
  | nil =>
      cases text with
      | nil => rfl
      | cons c rest => exact skipGap_of_isStart (start c rfl) _ _ _ _
  | cons c blanks ih =>
      obtain ⟨rfl, others⟩ := List.forall_mem_cons.1 blank
      rw [List.cons_append, skipGap]
      simpa [show isBreak ' ' = false from rfl] using ih others _

theorem Calm.closeBlocks (calm : lexer.Calm) (column : Nat) :
    lexer.closeBlocks column = lexer := by
  obtain ⟨cursor, tokens, count, columns, candidate, outer, keyAllowed⟩ := lexer
  obtain ⟨rfl, -, -⟩ := calm
  unfold Lexer.closeBlocks
  split <;> rfl

theorem Calm.expireKey (calm : lexer.Calm) :
    ∃ candidate, lexer.expireKey = .ok { lexer with candidate } ∧
      candidate.any (·.required) = false := by
  obtain ⟨cursor, tokens, count, columns, candidate, outer, keyAllowed⟩ := lexer
  have optional := calm.candidate
  unfold Lexer.expireKey
  cases candidate with
  | none => exact ⟨none, rfl, rfl⟩
  | some candidate =>
      dsimp only
      split
      · exact ⟨some candidate, rfl, optional⟩
      · rw [if_neg (by simpa using optional)]
        exact ⟨none, rfl, rfl⟩

theorem Calm.prepare (calm : lexer.Calm) (faces : lexer.Faces text)
    (start : ∀ c ∈ text.head?, isStart c = true) :
    ∃ mark candidate,
      lexer.prepare = .ok { lexer with cursor := ⟨mark, text⟩, candidate } ∧
        candidate.any (·.required) = false := by
  obtain ⟨blanks, blank, layout⟩ := faces
  have moved : Calm { lexer with cursor := ⟨lexer.mark.after blanks, text⟩ } :=
    ⟨calm.columns, calm.candidate, calm.outer⟩
  obtain ⟨candidate, expired, optional⟩ := moved.expireKey
  refine ⟨lexer.mark.after blanks, candidate, ?_, optional⟩
  have still : Calm { lexer with
      cursor := ⟨lexer.mark.after blanks, text⟩, candidate } :=
    ⟨calm.columns, optional, calm.outer⟩
  unfold Lexer.prepare
  rw [layout, skipGap_of_blanks blank start]
  simp only [bind, Except.bind]
  rw [expired]
  simp only [still.closeBlocks]
  rfl

theorem Calm.prepare_of_inTime (calm : lexer.Calm)
    (layout : lexer.cursor.rest = c :: text) (start : isStart c = true)
    (inTime : ∀ candidate ∈ lexer.candidate,
      candidate.isLate lexer.mark = false) : lexer.prepare = .ok lexer := by
  have gap :
      skipGap lexer.inFlow lexer.keyAllowed false lexer.mark lexer.cursor.rest =
      (lexer.cursor, lexer.keyAllowed) := by
    rw [layout, skipGap_of_isStart start, ← layout]
    rfl
  have waits : lexer.expireKey = .ok lexer := by
    unfold Lexer.expireKey
    cases here : lexer.candidate with
    | none => rfl
    | some candidate => simp [inTime candidate here]
  unfold Lexer.prepare
  rw [gap]
  change (lexer.expireKey >>= fun lexer =>
    pure (lexer.closeBlocks lexer.mark.column)) = _
  rw [waits]
  exact congrArg Except.ok (calm.closeBlocks _)

structure Step (lexer next : Lexer) : Prop where
  token : ∃ ready c rest, lexer.prepare = .ok ready ∧
    ready.cursor.rest = c :: rest ∧
    ready.readToken c rest = .ok next
  shorter : next.cursor.rest.length < lexer.cursor.rest.length

theorem run_of_steps (steps : Relation.ReflTransGen Step lexer next)
    {fuel : Nat} (enough : lexer.cursor.rest.length < fuel) :
    ∃ left, next.cursor.rest.length < left ∧
      lexer.run fuel = next.run left := by
  induction steps with
  | refl => exact ⟨fuel, enough, rfl⟩
  | tail _ step ih =>
      obtain ⟨left, larger, same⟩ := ih
      obtain ⟨⟨ready, c, rest, prepared, layout, read⟩, shorter⟩ := step
      cases left with
      | zero => cases larger
      | succ left =>
          refine ⟨left, by omega, same.trans ?_⟩
          rw [run, prepared]
          simp only [bind, Except.bind]
          rw [layout]
          simp only [read]

/-- Reading these symbols, one lexer becomes the other. -/
structure Leads (lexer next : Lexer) (symbols : List Symbol) : Prop where
  steps : Relation.ReflTransGen Step lexer next
  calm : next.Calm
  symbols : next.symbols = symbols.reverse ++ lexer.symbols
  outer : next.outer = lexer.outer

theorem Leads.refl (calm : lexer.Calm) : Leads lexer lexer [] where
  steps := .refl
  calm := calm
  symbols := rfl
  outer := rfl

theorem Leads.trans (leads : Leads lexer next first)
    (onward : Leads next last second) : Leads lexer last (first ++ second) where
  steps := leads.steps.trans onward.steps
  calm := onward.calm
  symbols := by
    rw [onward.symbols, leads.symbols, List.reverse_append, List.append_assoc]
  outer := onward.outer.trans leads.outer

theorem Leads.inFlow_eq (leads : Leads lexer next first) :
    next.inFlow = lexer.inFlow := by
  rw [inFlow, inFlow, leads.outer]

theorem faces_of_rest (layout : lexer.cursor.rest = text) : lexer.Faces text :=
  ⟨[], by simp, layout⟩

theorem Faces.length_le (faces : lexer.Faces text) :
    text.length ≤ lexer.cursor.rest.length := by
  obtain ⟨blanks, -, layout⟩ := faces
  rw [layout, List.length_append]
  exact Nat.le_add_left _ _

theorem Calm.dropKey (calm : lexer.Calm) :
    lexer.dropKey = .ok { lexer with candidate := none } := by
  rw [Lexer.dropKey, calm.candidate]
  rfl

theorem Calm.saveKey (calm : lexer.Calm) :
    ∃ candidate, lexer.saveKey = .ok { lexer with candidate } ∧
      candidate.any (·.required) = false ∧
      (lexer.keyAllowed = true →
        candidate = some ⟨lexer.mark, lexer.count, false⟩) := by
  unfold Lexer.saveKey
  by_cases allowed : lexer.keyAllowed = true
  · refine ⟨some ⟨lexer.mark, lexer.count, false⟩, ?_, rfl, fun _ => rfl⟩
    rw [if_pos allowed, calm.dropKey]
    simp [bind, Except.bind, pure, Except.pure, calm.columns]
  · rw [if_neg allowed]
    exact ⟨lexer.candidate, rfl, calm.candidate,
      fun again => (allowed again).elim⟩

/-- The lexer stands at a token, and reading it is a step. -/
theorem Calm.exists_ready (calm : lexer.Calm) (faces : lexer.Faces (c :: text))
    (start : isStart c = true) :
    ∃ ready : Lexer, ready.Calm ∧ ready.cursor.rest = c :: text ∧
      ready.tokens = lexer.tokens ∧
      ready.outer = lexer.outer ∧ ready.keyAllowed = lexer.keyAllowed ∧
      ∀ next, ready.readToken c text = .ok next →
        next.cursor.rest.length ≤ text.length →
        Step lexer next := by
  obtain ⟨mark, candidate, prepared, optional⟩ :=
    calm.prepare faces (by simpa using start)
  refine ⟨{ lexer with cursor := ⟨mark, c :: text⟩, candidate },
    ⟨calm.columns, optional, calm.outer⟩, rfl, rfl, rfl, rfl, ?_⟩
  exact fun next read shorter => ⟨⟨_, c, text, prepared, rfl, read⟩,
    Nat.lt_of_le_of_lt shorter
      (Nat.lt_of_lt_of_le (Nat.lt_succ_self _) faces.length_le)⟩

theorem rest_take (layout : lexer.cursor.rest = c :: text) (symbol : Symbol) :
    (lexer.take 1 symbol).cursor.rest = text := by
  simp [Lexer.take, Cursor.advance, layout]

theorem Calm.openFlow (calm : lexer.Calm) (faces : lexer.Faces (c :: text))
    (start : isStart c = true) {symbol : Symbol}
    (opens : ∀ ready : Lexer, ready.readToken c text = ready.openFlow symbol) :
    ∃ next candidate, Step lexer next ∧ next.Calm ∧
      next.symbols = symbol :: lexer.symbols ∧
      next.outer = candidate :: lexer.outer ∧ next.keyAllowed = true ∧
      next.cursor.rest = text := by
  obtain ⟨ready, still, layout, tokens, outer, -, step⟩ :=
    calm.exists_ready faces start
  obtain ⟨candidate, saved, optional, -⟩ := still.saveKey
  have read : ready.readToken c text = .ok
      { ready.take 1 symbol with
        candidate := none, outer := candidate :: ready.outer,
        keyAllowed := true } := by
    rw [opens, Lexer.openFlow, saved]
    rfl
  have behind := rest_take layout symbol
  refine ⟨_, candidate, step _ read ?_, ⟨still.columns, rfl, ?_⟩, ?_, ?_,
    rfl, behind⟩
  · exact Nat.le_of_eq (congrArg List.length behind)
  · exact List.forall_mem_cons.2 ⟨optional, still.outer⟩
  · exact congrArg (symbol :: List.map Token.symbol ·) tokens
  · exact congrArg (candidate :: ·) outer

theorem Calm.closeFlow (calm : lexer.Calm) (faces : lexer.Faces (c :: text))
    (start : isStart c = true) {symbol : Symbol}
    {candidate : Option KeyCandidate}
    {outer : List (Option KeyCandidate)}
    (inside : lexer.outer = candidate :: outer)
    (closes : ∀ ready : Lexer,
      ready.readToken c text = ready.closeFlow symbol) :
    ∃ next, Step lexer next ∧ next.Calm ∧
      next.symbols = symbol :: lexer.symbols ∧
      next.outer = outer ∧ next.cursor.rest = text := by
  obtain ⟨ready, still, layout, tokens, same, -, step⟩ :=
    calm.exists_ready faces start
  rw [inside] at same
  have optional := still.outer
  rw [same, List.forall_mem_cons] at optional
  have read : ready.readToken c text = .ok
      { ready.take 1 symbol with candidate, outer, keyAllowed := false } := by
    rw [closes, Lexer.closeFlow, still.dropKey]
    simp [bind, Except.bind, pure, Except.pure, Lexer.take, Lexer.push,
      Lexer.mark, same]
  have behind := rest_take layout symbol
  refine ⟨_, step _ read ?_, ⟨still.columns, optional.1, optional.2⟩, ?_,
    rfl, behind⟩
  · exact Nat.le_of_eq (congrArg List.length behind)
  · exact congrArg (symbol :: List.map Token.symbol ·) tokens

theorem Calm.readComma (calm : lexer.Calm) (faces : lexer.Faces (',' :: text)) :
    ∃ next, Leads lexer next [.comma] ∧ next.keyAllowed = true ∧
      next.cursor.rest = text := by
  obtain ⟨ready, still, layout, tokens, outer, -, step⟩ :=
    calm.exists_ready faces (by decide)
  have read : ready.readToken ',' text = .ok
      { ready.take 1 .comma with candidate := none, keyAllowed := true } := by
    have dispatch : ready.readToken ',' text = ready.readComma := by
      simp [Lexer.readToken, isDocumentMarker]
    rw [dispatch, Lexer.readComma, still.dropKey]
    rfl
  have behind := rest_take layout .comma
  refine ⟨_,
    ⟨.single (step _ read ?_), ⟨still.columns, rfl, still.outer⟩, ?_, outer⟩,
    rfl, behind⟩
  · exact Nat.le_of_eq (congrArg List.length behind)
  · exact congrArg (Symbol.comma :: List.map Token.symbol ·) tokens

theorem Calm.readQuoted (calm : lexer.Calm) {content : String}
    (faces : lexer.Faces (quoted content ++ rest)) :
    ∃ next, Leads lexer next [.scalar .doubleQuoted content] ∧
      next.cursor.rest = rest := by
  have shape : quoted content ++ rest =
      '"' :: (content.toList.flatMap escape ++ '"' :: rest) := by
    simp [quoted]
  rw [shape] at faces
  obtain ⟨ready, still, layout, tokens, outer, -, step⟩ :=
    calm.exists_ready faces (by decide)
  obtain ⟨candidate, saved, optional, -⟩ := still.saveKey
  have inside : ready.cursor.advance 1 =
      ⟨ready.mark.next '"', content.toList.flatMap escape ++ '"' :: rest⟩ := by
    simp [Cursor.advance, layout, Lexer.mark]
  have read :
      ready.readToken '"' (content.toList.flatMap escape ++ '"' :: rest) = .ok
      { ready.push ready.mark (.scalar .doubleQuoted content) with
        cursor := ⟨ready.mark.after (quoted content), rest⟩, candidate,
        keyAllowed := false } := by
    have dispatch (text : List Char) :
        ready.readToken '"' text = ready.readDoubleQuoted := by
      simp [Lexer.readToken, isDocumentMarker]
    rw [dispatch, Lexer.readDoubleQuoted, saved]
    simp only [bind, Except.bind, inside, Quoted.double_quoted]
    rfl
  refine ⟨_,
    ⟨.single (step _ read ?_), ⟨still.columns, optional, still.outer⟩, ?_,
      outer⟩, rfl⟩
  · simp only [List.length_append, List.length_cons]
    omega
  · exact congrArg
      (Symbol.scalar .doubleQuoted content :: List.map Token.symbol ·) tokens

/-- A plain scalar that has begun ends in front of this text. -/
def StopsPlain (inFlow : Bool) (rest : List Char) : Prop :=
  ∀ c tail, rest = c :: tail → isBreak c = false ∧ isSpace c = false ∧
    Plain.collides inFlow c tail = false ∧ Plain.stopsWord inFlow c tail = true

theorem ne_of_isLetter {d : Char} (letter : isLetter c = true)
    (sign : isLetter d = false) : c ≠ d := by
  rintro rfl
  rw [letter] at sign
  contradiction

theorem beq_of_isLetter (letter : isLetter c = true) (d : Char)
    (sign : isLetter d = false) : (c == d) = false :=
  beq_eq_false_iff_ne.2 (ne_of_isLetter letter sign)

theorem isPrintable_of_isLetter (letter : isLetter c = true) :
    isPrintable c = true := by
  have ranges :
      (decide ('A' ≤ c ∧ c ≤ 'Z') || ('a' ≤ c && c ≤ 'z') ||
        ('0' ≤ c && c ≤ '9') ||
      c == '_') = true := letter
  simp only [Bool.or_eq_true, Bool.and_eq_true, decide_eq_true_eq, beq_iff_eq,
    Char.le_def, UInt32.le_iff_toNat_le] at ranges
  simp only [isPrintable, Bool.and_eq_true, decide_eq_true_eq]
  change 32 ≤ c.val.toNat ∧ c.val.toNat ≤ 126
  rcases ranges with ((upper | lower) | digit) | rfl
  · exact ⟨Nat.le_trans (by decide) upper.1, Nat.le_trans upper.2 (by decide)⟩
  · exact ⟨Nat.le_trans (by decide) lower.1, Nat.le_trans lower.2 (by decide)⟩
  · exact ⟨Nat.le_trans (by decide) digit.1, Nat.le_trans digit.2 (by decide)⟩
  · decide

theorem scan_of_letters {inFlow : Bool} (stops : StopsPlain inFlow rest)
    (indent : Nat) (mark : Mark) (read : List Char)
    (letters : ∀ c ∈ text, isLetter c = true) :
    Plain.scan inFlow indent mark read .empty (text ++ rest) =
      .ok ⟨.ofList (read.reverse ++ text), ⟨mark.after text, rest⟩, false⟩ := by
  induction text generalizing mark read with
  | nil =>
      cases rest with
      | nil => simp [Plain.scan, Plain.finish, Gap.crossesLines, Gap.empty]
      | cons c tail =>
          obtain ⟨unbroken, noSpace, apart, stop⟩ := stops c tail rfl
          rw [List.nil_append, Plain.scan]
          simp [unbroken, noSpace, apart, stop, Plain.finish, Gap.crossesLines,
            Gap.empty, Gap.isEmpty]
  | cons c text ih =>
      obtain ⟨letter, others⟩ := List.forall_mem_cons.1 letters
      have other := beq_of_isLetter letter
      rw [List.cons_append, Plain.scan]
      have inside : isFlowIndicator c = false := by
        simp [isFlowIndicator, other ',' rfl, other '[' rfl, other ']' rfl,
          other '\x7b' rfl, other '\x7d' rfl]
      simpa [isBreak, isSpace, show Gap.empty.isEmpty = true from rfl,
        Plain.collides, Plain.stopsWord, inside,
        other '\n' rfl, other '\u2028' rfl, other '\u2029' rfl, other ' ' rfl,
        other '\t' rfl, other ':' rfl] using ih (mark.next c) (c :: read) others

theorem startsHere_of_isLetter (letter : isLetter c = true) (inFlow : Bool)
    (rest : List Char) : Plain.startsHere inFlow (c :: rest) = true := by
  have noIndicator : Plain.isIndicator c = false := by
    rw [Plain.isIndicator, List.contains_eq_mem, decide_eq_false_iff_not]
    intro member
    have signs : "-?:,[]\x7b\x7d#&*!|>'\"%@\x60".toList.all (!isLetter ·) =
        true := by decide
    have sign := List.all_eq_true.1 signs c member
    rw [letter] at sign
    contradiction
  have noGap : isGap c = false := by
    have noBlank := ne_of_isLetter (d := ' ') letter rfl
    rw [isGap, isBreak_of_isPrintable (isPrintable_of_isLetter letter),
      isSpace_of_isPrintable (isPrintable_of_isLetter letter)]
    simpa using noBlank
  rw [Plain.startsHere, noIndicator, noGap]
  rfl

theorem readToken_of_isLetter (letter : isLetter c = true) (text : List Char) :
    lexer.readToken c text = lexer.readPlain := by
  have other := beq_of_isLetter letter
  simp [Lexer.readToken, isDocumentMarker, startsHere_of_isLetter letter,
    other '%' rfl, other '-' rfl, other '.' rfl, other '[' rfl, other ']' rfl,
    other '\x7b' rfl, other '\x7d' rfl, other ',' rfl, other '?' rfl,
    other ':' rfl, other '*' rfl, other '&' rfl, other '!' rfl, other '|' rfl,
    other '>' rfl, other '\'' rfl, other '"' rfl]

theorem Calm.readWord (calm : lexer.Calm) {bare : Word}
    (faces : lexer.Faces (bare.text.toList ++ rest))
    (stops : StopsPlain lexer.inFlow rest) :
    ∃ next mark, Step lexer next ∧ next.Calm ∧
      next.tokens = ⟨mark, .scalar .plain bare.text⟩ :: lexer.tokens ∧
      next.outer = lexer.outer ∧
        next.cursor = ⟨mark.after bare.text.toList, rest⟩ ∧
      (lexer.keyAllowed = true →
        ∃ count, next.count = count + 1 ∧
          next.candidate = some ⟨mark, count, false⟩) := by
  have filled : bare.text.toList ≠ [] := by simpa using bare.filled
  obtain ⟨c, tail, shape⟩ := List.exists_cons_of_ne_nil filled
  have letters := bare.isLetter_of_mem
  have letter : isLetter c = true := letters c (by simp [shape])
  have start : isStart c = true := by
    simp [isStart, isPrintable_of_isLetter letter,
      ne_of_isLetter letter (d := ' ') rfl,
      ne_of_isLetter letter (d := '#') rfl]
  have split : bare.text.toList ++ rest = c :: (tail ++ rest) := by
    rw [shape, List.cons_append]
  rw [split] at faces
  obtain ⟨ready, still, layout, tokens, outer, keyAllowed, step⟩ :=
    calm.exists_ready faces start
  obtain ⟨candidate, saved, optional, exact⟩ := still.saveKey
  have flow : ready.inFlow = lexer.inFlow := by rw [inFlow, inFlow, outer]
  rw [← flow] at stops
  have read : ready.readToken c (tail ++ rest) = .ok
      { ready.push ready.mark (.scalar .plain bare.text) with
        cursor := ⟨ready.mark.after bare.text.toList, rest⟩, candidate,
        keyAllowed := false } := by
    rw [readToken_of_isLetter letter, Lexer.readPlain, saved]
    have scanned (indent : Nat) : Plain.read ready.inFlow indent ready.cursor =
        .ok ⟨bare.text, ⟨ready.mark.after bare.text.toList, rest⟩, false⟩ := by
      rw [Plain.read, layout, ← split, scan_of_letters stops _ _ _ letters]
      simp [Lexer.mark]
    have same : ({ ready with candidate } : Lexer).inFlow = ready.inFlow := rfl
    simp only [bind, Except.bind]
    rw [same, scanned]
    rfl
  refine ⟨_, ready.mark, step _ read ?_, ⟨still.columns, optional, still.outer⟩,
    ?_, outer, rfl, ?_⟩
  · simp
  · exact congrArg (_ :: ·) tokens
  · intro allowed
    exact ⟨ready.count, rfl, exact (keyAllowed.trans allowed)⟩

/-- A colon right behind a word makes the word a key. -/
theorem Calm.readValue (calm : lexer.Calm) {mark : Mark} {count : Nat}
    {token : Token}
    {tokens : List Token} (flow : lexer.inFlow = true)
    (layout : lexer.cursor.rest = ':' :: text)
    (waiting : lexer.candidate = some ⟨mark, count, false⟩)
    (counted : lexer.count = count + 1)
    (inTime : lexer.mark.line = mark.line ∧
      lexer.mark.octets ≤ mark.octets + 1024)
    (last : lexer.tokens = token :: tokens) :
    ∃ next, Step lexer next ∧ next.Calm ∧
      next.symbols = .value :: token.symbol :: .key :: tokens.map Token.symbol ∧
      next.outer = lexer.outer ∧ next.cursor.rest = text := by
  have prepared : lexer.prepare = .ok lexer := by
    refine calm.prepare_of_inTime layout (by decide) ?_
    rw [waiting]
    rintro _ ⟨⟩
    simp [KeyCandidate.isLate, inTime]
  have read : lexer.readToken ':' text = .ok
      { (lexer.insert count mark .key).take 1 .value with
        candidate := none, keyAllowed := false } := by
    have dispatch : lexer.readToken ':' text = lexer.readValue := by
      simp [Lexer.readToken, isDocumentMarker, flow]
    have inside : (lexer.insert count mark .key).inFlow = true := flow
    rw [dispatch, Lexer.readValue, waiting]
    simp [openBlock, inside]
  have ahead : (lexer.insert count mark .key).cursor.rest = ':' :: text :=
    layout
  have behind := rest_take ahead .value
  refine ⟨_, ⟨⟨lexer, ':', text, prepared, layout, read⟩, ?_⟩,
    ⟨calm.columns, rfl, calm.outer⟩, ?_, rfl, behind⟩
  · rw [behind, layout]
    exact Nat.lt_succ_self _
  · have inserted :
        (lexer.insert count mark .key).tokens =
          token :: ⟨mark, .key⟩ :: tokens := by
      simp [Lexer.insert, counted, last]
    exact congrArg (Symbol.value :: List.map Token.symbol ·) inserted

end Lexer

end EdgeFilters.Yaml
