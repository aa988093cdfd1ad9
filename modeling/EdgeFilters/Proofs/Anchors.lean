import EdgeFilters.Proofs.Stack
import EdgeFilters.Yaml.Document

namespace EdgeFilters.Yaml

namespace Builder

variable {builder next : Builder} {token : Token}
  {properties : Option Properties} {given : List String}

theorem WellFormed.extends_content? (wellFormed : builder.WellFormed)
    (opened : builder.root = none)
    (pending : builder.expectation.references =
      slotAnchor (properties.getD { mark := token.mark }).slot)
    (read : builder.content? token properties = .ok (some next)) :
    builder.Extends token.symbol.reference? next := by
  have stacked := wellFormed.stacked
  have references := references_of_open opened
  obtain ⟨mark, symbol⟩ := token
  rw [pending] at references
  have sequence (form : SequenceForm) := pending.trans
    (frameReferences_sequence form (properties.getD { mark }).site).symm
  have mapping (form : MappingForm) := pending.trans
    (frameReferences_mapping form (properties.getD { mark }).site).symm
  unfold content? at read
  cases symbol with
  | «alias» name =>
      cases properties with
      | some properties => cases read
      | none =>
          cases known : builder.slots.lookup name with
          | none => simp [known, fault] at read
          | some slot =>
              obtain rfl : builder.complete (.alias slot) = next := by
                simpa [known, pure, Except.pure] using read
              refine ⟨wellFormed_complete stacked opened, _, ?_, slot, known,
                rfl, rfl⟩
              rw [references_complete stacked opened, references]
              simp [slotAnchor, Node.references]
  | anchor name =>
      dsimp only at read
      split at read
      · cases read
      · next free =>
          cases read
          rw [Bool.not_eq_true, Option.isSome_eq_false_iff,
            Option.isNone_iff_eq_none] at free
          refine ⟨⟨stacked, by simp [expect], .inl opened⟩,
            [.anchor builder.slots.length], ?_, rfl, rfl⟩
          rw [references, free, references_of_open (by exact opened)]
          simp [expect, declare, Expectation.references, slotAnchor]
  | tag handle suffix =>
      dsimp only at read
      split at read
      · cases read
      · split at read
        · cases read
        · cases read
          exact extends_expect_of_open stacked opened pending (by simp)
  | scalar style text =>
      cases read
      exact extends_complete stacked opened references
  | sequenceStart =>
      cases read
      exact extends_enter stacked opened (sequence .flow) trivial rfl
  | mappingStart =>
      cases read
      exact extends_enter ⟨by simp, stacked⟩ opened (mapping .flow) trivial rfl
  | blockSequenceStart =>
      dsimp only at read
      split at read
      · cases read
        exact extends_enter stacked opened (sequence .block) trivial rfl
      · cases read
  | blockMappingStart =>
      dsimp only at read
      split at read
      · cases read
        exact extends_enter ⟨by simp, stacked⟩ opened (mapping .block) trivial
          rfl
      · cases read
  | entry =>
      dsimp only at read
      split at read
      · cases read
        exact extends_enter stacked opened (sequence .indentless) trivial rfl
      · cases read
  | _ => cases read

section

variable (wellFormed : builder.WellFormed)
  (between : builder.expectation.Between)

include wellFormed between

theorem WellFormed.extends_content
    (read : builder.content token = .ok next) :
    builder.Extends token.symbol.reference? next := by
  have pending : builder.expectation.references = slotAnchor
      ((none : Option Properties).getD { mark := token.mark }).slot :=
    between.references
  unfold content at read
  obtain ⟨result, started, further⟩ := bind_eq_ok_iff.1 read
  cases result with
  | none => cases further
  | some made =>
      cases further
      exact wellFormed.extends_content? (wellFormed.opened between) pending
        started

theorem WellFormed.extends_prologue (handles : List (String × String))
    (versionSeen : Bool) :
    builder.Extends none { builder with
      handles
      versionSeen
      expectation := .prologue } := by
  have opened := wellFormed.opened between
  refine extends_none ⟨wellFormed.stacked, by simp, .inl opened⟩ ?_ rfl
  rw [wellFormed.references_eq between, references_of_open (by exact opened)]
  exact List.append_nil _

theorem WellFormed.extends_directive
    (read : builder.directive token = .ok next) :
    builder.Extends token.symbol.reference? next := by
  obtain ⟨mark, symbol⟩ := token
  unfold directive at read
  cases symbol with
  | version major minor =>
      dsimp only at read
      split at read
      · cases read
      · split at read
        · cases read
          exact wellFormed.extends_prologue between _ _
        · cases read
  | handle name start =>
      dsimp only at read
      split at read
      · cases read
      · cases read
        exact wellFormed.extends_prologue between _ _
  | documentStart =>
      cases read
      exact wellFormed.extends_expect between trivial (by simp)
  | _ => cases read

end

theorem WellFormed.extends_fillValue (wellFormed : builder.WellFormed)
    (token : Token) : builder.Extends none (builder.fillValue token) := by
  unfold fillValue
  split
  · next here =>
      split
      · exact wellFormed.extends_refl
      · exact wellFormed.extends_absent (by rw [here]; trivial) _
  · next here =>
      exact wellFormed.extends_absent (by rw [here]; trivial) _
  · exact wellFormed.extends_refl

theorem WellFormed.extends_closeIndentless (wellFormed : builder.WellFormed)
    (token : Token) : builder.Extends none (builder.closeIndentless token) := by
  unfold closeIndentless
  split
  · next here frames =>
      split
      · exact wellFormed.extends_refl
      · refine wellFormed.extends_close (by rw [here]; trivial) ?_
        rw [frames]
        trivial
  · exact wellFormed.extends_refl

/-- A key without a colon takes the place of the key. -/
theorem WellFormed.extends_bareKey {site : Site} {entries : List (Node × Node)}
    {place : Place} {rest : List Frame} (wellFormed : builder.WellFormed)
    (here : builder.expectation = .key)
    (frames : builder.frames = .mapping .flow site entries place :: rest) :
    builder.Extends none { builder with
      frames := .mapping .flow site entries .bareKey :: rest } := by
  have atKey := wellFormed.atKey (.inl here)
  have stacked := wellFormed.stacked
  rw [frames] at atKey stacked
  have opened := wellFormed.opened (by rw [here]; trivial)
  refine extends_none
    ⟨⟨by simp, stacked.2⟩, fun _ => trivial, .inl opened⟩ ?_ rfl
  rw [references_of_open opened, references_of_open (by exact opened), frames]
  cases place with
  | value key => cases atKey
  | key | bareKey => rfl

section

variable {current expectation : Expectation} {symbol : Symbol}

theorem Extends.of_ok {made : Builder} (quiet : builder.Extends none made)
    (same : token.symbol = symbol) (silent : symbol.reference? = none)
    (read : (.ok made : Reading Builder) = .ok next) :
    builder.Extends token.symbol.reference? next := by
  cases read
  rw [same, silent]
  exact quiet

variable (wellFormed : builder.WellFormed)
  (here : builder.expectation = current) (between : current.Between)
  (same : token.symbol = symbol) (silent : symbol.reference? = none)

include wellFormed here between same silent

theorem WellFormed.expects
    (read : (.ok (builder.expect expectation) : Reading Builder) = .ok next)
    (quiet : expectation.Between)
    (atKey : expectation = .key ∨ expectation = .comma →
      AtKey builder.frames) :
    builder.Extends token.symbol.reference? next := by
  subst here
  have expected := wellFormed.extends_expect between quiet atKey
  exact expected.of_ok same silent read

theorem WellFormed.closes
    (read : (.ok builder.close : Reading Builder) = .ok next)
    (atKey : AtKey builder.frames) :
    builder.Extends token.symbol.reference? next := by
  subst here
  have closed := wellFormed.extends_close between atKey
  exact closed.of_ok same silent read

end

theorem WellFormed.extends_shift (wellFormed : builder.WellFormed)
    (read : builder.shift token = .ok next) :
    builder.Extends token.symbol.reference? next := by
  unfold shift at read
  dsimp only at read
  split at read
  · next here symbol =>
      have last := wellFormed.extends_nothing (by rw [here]; rfl)
      exact last.of_ok symbol rfl read
  · next here symbol =>
      exact wellFormed.extends_directive (by rw [here]; trivial) read
  · next here symbol =>
      exact wellFormed.extends_directive (by rw [here]; trivial) read
  · next here symbol =>
      exact wellFormed.extends_directive (by rw [here]; trivial) read
  · next here _ _ _ _ =>
      exact wellFormed.extends_content (by rw [here]; trivial) read
  · next here =>
      exact wellFormed.extends_directive (by rw [here]; trivial) read
  · next here symbol =>
      exact wellFormed.extends_refl.of_ok symbol rfl read
  · next here symbol =>
      have last := wellFormed.extends_nothing (by rw [here]; rfl)
      exact last.of_ok symbol rfl read
  · cases read
  · next here frames symbol =>
      exact wellFormed.expects here trivial symbol rfl read trivial (by simp)
  · next here frames symbol =>
      exact wellFormed.expects here trivial symbol rfl read trivial (by simp)
  · next here frames symbol =>
      exact wellFormed.closes here trivial symbol rfl read
        (by rw [frames]; trivial)
  · next here frames symbol =>
      exact wellFormed.closes here trivial symbol rfl read
        (by rw [frames]; trivial)
  · next here frames symbol =>
      have between : builder.expectation.Between := by rw [here]; trivial
      have inside : InSequence builder.frames := by rw [frames]; trivial
      refine Extends.of_ok ?_ symbol rfl read
      exact extends_enter ⟨fun _ => ⟨rfl, inside⟩, wellFormed.stacked⟩
        (wellFormed.opened between) between.references trivial rfl
  · next here _ _ _ =>
      exact wellFormed.extends_content (by rw [here]; trivial) read
  · next here frames symbol =>
      exact wellFormed.expects here trivial symbol rfl read trivial (by simp)
  · next here frames symbol =>
      exact wellFormed.closes here trivial symbol rfl read
        (by rw [frames]; trivial)
  · next here frames symbol =>
      exact wellFormed.expects here trivial symbol rfl read trivial
        fun _ => wellFormed.atKey (.inr here)
  · next here frames symbol =>
      exact wellFormed.closes here trivial symbol rfl read
        (wellFormed.atKey (.inr here))
  · next here frames symbol =>
      exact wellFormed.expects here trivial symbol rfl read trivial (by simp)
  · next here frames symbol =>
      exact wellFormed.closes here trivial symbol rfl read
        (wellFormed.atKey (.inl here))
  · next here frames symbol =>
      exact wellFormed.expects here trivial symbol rfl read trivial (by simp)
  · next here frames symbol =>
      exact wellFormed.closes here trivial symbol rfl read
        (wellFormed.atKey (.inl here))
  · next here frames _ _ =>
      have bare := wellFormed.extends_bareKey here frames
      exact bare.of_none <| bare.wellFormed.extends_content
        (by rw [here]; trivial) read
  · next here frames symbol =>
      exact wellFormed.expects here trivial symbol rfl read trivial (by simp)
  · next here symbol _ =>
      exact wellFormed.expects here trivial symbol rfl read trivial (by simp)
  · cases read

theorem WellFormed.extends_settle (wellFormed : builder.WellFormed)
    (read : builder.settle token = .ok next) :
    builder.Extends token.symbol.reference? next := by
  have filled := wellFormed.extends_fillValue token
  have closed := filled.wellFormed.extends_closeIndentless token
  have again := closed.wellFormed.extends_fillValue token
  exact filled.of_none (closed.of_none
    (again.of_none (again.wellFormed.extends_shift read)))

theorem reference?_of_omits {symbol : Symbol}
    (omits : builder.omits symbol = true) : symbol.reference? = none := by
  cases symbol with
  | «alias» name | anchor name =>
      unfold Builder.omits at omits
      split at omits <;> simp at omits
  | _ => rfl

theorem WellFormed.extends_feed (wellFormed : builder.WellFormed)
    (read : builder.feed token = .ok next) :
    builder.Extends token.symbol.reference? next := by
  unfold feed at read
  split at read
  · next gap here =>
      have between : builder.expectation.Between := by rw [here]; trivial
      split at read
      · next omits =>
          have filled :=
            wellFormed.extends_absent between (gap.getD token.mark)
          dsimp only at read
          split at read
          · cases read
            rw [reference?_of_omits omits]
            exact filled
          · exact filled.of_none (filled.wellFormed.extends_settle read)
      · exact wellFormed.extends_content between read
  · next gap properties here =>
      have opened : builder.root = none :=
        wellFormed.ended.resolve_right (by simp [here])
      have pending : builder.expectation.references = slotAnchor
          ((some properties).getD { mark := token.mark }).slot := by
        rw [here]
        rfl
      obtain ⟨result, started, further⟩ := bind_eq_ok_iff.1 read
      cases result with
      | some made =>
          cases further
          exact wellFormed.extends_content? opened pending started
      | none =>
          have filled : builder.Extends none (builder.complete
              (.scalar properties.site properties.tag .plain "")) :=
            extends_complete wellFormed.stacked opened <| by
              rw [references_of_open opened, pending]
              rfl
          exact filled.of_none (filled.wellFormed.extends_settle further)
  · exact wellFormed.extends_settle read

theorem wellFormed_start : ({} : Builder).WellFormed :=
  ⟨trivial, by simp, .inl rfl⟩

/-- Tokens number the references behind those that have been read. -/
theorem WellFormed.numbered_foldlM {tokens : List Token}
    (wellFormed : builder.WellFormed) (knows : Knows given builder.slots)
    (read : tokens.foldlM feed builder = .ok next) :
    next.WellFormed ∧ ∃ added, next.references = builder.references ++ added ∧
      Numbered given (namesOf tokens) added := by
  induction tokens generalizing builder given with
  | nil =>
      cases read
      exact ⟨wellFormed, [], (List.append_nil _).symm, .nil⟩
  | cons token rest ih =>
      rw [List.foldlM_cons] at read
      obtain ⟨middle, fed, read⟩ := bind_eq_ok_iff.1 read
      obtain ⟨sound, added, same, adds⟩ := wellFormed.extends_feed fed
      obtain ⟨known, knows, numbers⟩ := adds.exists_knows knows
      obtain ⟨last, more, further, numbered⟩ := ih sound knows read
      refine ⟨last, added ++ more, ?_, ?_⟩
      · rw [further, same, List.append_assoc]
      · rw [namesOf_cons]
        exact numbers _ _ numbered

end Builder

/-- The aliases of a document are linked as its text says. -/
theorem linked_of_ofTokens {tokens : List Token} {document : Document}
    (read : Document.ofTokens tokens = .ok (some document)) :
    Linked (namesOf tokens) document := by
  unfold Document.ofTokens at read
  obtain ⟨builder, folded, read⟩ := bind_eq_ok_iff.1 read
  obtain ⟨wellFormed, added, same, numbered⟩ :=
    Builder.wellFormed_start.numbered_foldlM knows_nil folded
  split at read
  · next here =>
      obtain ⟨root, complete, rfl⟩ : ∃ root,
          builder.root = some root ∧ Document.ofRoot root = document := by
        simpa [pure, Except.pure] using read
      have frames : builder.frames = [] :=
        (wellFormed.ended.resolve_left (by simp [complete])).1
      have all : builder.references = root.references := by
        simp [Builder.references, complete, frames, here,
          Builder.rootReferences, Builder.stackReferences,
          Expectation.references]
      refine linked_ofRoot ?_
      rw [← all, same]
      exact numbered
  · cases read

theorem Document.linked_of_read {text : String} {document : Document}
    (read : Document.read text = .ok (some document)) :
    ∃ found, tokens text.toList = .ok found ∧
      Linked (namesOf found) document := by
  unfold Document.read at read
  obtain ⟨found, lexed, read⟩ := bind_eq_ok_iff.1 read
  exact ⟨found, lexed, linked_of_ofTokens read⟩

end EdgeFilters.Yaml
