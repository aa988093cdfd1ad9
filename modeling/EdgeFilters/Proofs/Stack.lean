import EdgeFilters.Proofs.References
import EdgeFilters.Yaml.Builder

/-! The references of a document whose collections are still open. -/

namespace EdgeFilters.Yaml

def Expectation.references : Expectation → List (Reference Nat)
  | .node _ properties => slotAnchor (properties.bind (·.slot))
  | _ => []

/-- The document is not complete, and no anchor or tag waits for its node. -/
def Expectation.Between : Expectation → Prop
  | .node _ (some _) | .ending | .nothing => False
  | _ => True

theorem Expectation.Between.references {expectation : Expectation}
    (between : expectation.Between) : expectation.references = [] := by
  cases expectation with
  | node gap properties =>
      cases properties with
      | none => rfl
      | some properties => cases between
  | _ => rfl

namespace Builder

def placeReferences : Place → List (Reference Nat)
  | .key | .bareKey => []
  | .value key => key.references

def frameReferences : Frame → List (Reference Nat)
  | .sequence _ site items =>
      slotAnchor site.slot ++ Node.itemReferences items.reverse
  | .mapping _ site entries place =>
      slotAnchor site.slot ++ Node.entryReferences entries.reverse ++
        placeReferences place

def stackReferences : List Frame → List (Reference Nat)
  | [] => []
  | frame :: rest => stackReferences rest ++ frameReferences frame

def rootReferences (root : Option Node) : List (Reference Nat) :=
  root.elim [] Node.references

def references (builder : Builder) : List (Reference Nat) :=
  rootReferences builder.root ++ stackReferences builder.frames ++
    builder.expectation.references

def InSequence : List Frame → Prop
  | .sequence .. :: _ => True
  | _ => False

/-- A single pair is empty but for its key and stands in a sequence. -/
def Stacked : List Frame → Prop
  | [] => True
  | .sequence .. :: rest => Stacked rest
  | .mapping form _ entries _ :: rest =>
      (form = .pair → entries = [] ∧ InSequence rest) ∧ Stacked rest

/-- No key waits for its value in the innermost mapping. -/
def AtKey : List Frame → Prop
  | .mapping _ _ _ (.value _) :: _ => False
  | _ => True

/-- The document is not complete, and each entry of the stack is sound. -/
structure WellFormed (builder : Builder) : Prop where
  stacked : Stacked builder.frames
  atKey : builder.expectation = .key ∨ builder.expectation = .comma →
    AtKey builder.frames
  ended : builder.root = none ∨ (builder.frames = [] ∧
    (builder.expectation = .ending ∨ builder.expectation = .nothing))

variable {builder middle next : Builder} {token : Token} {node : Node}
  {frame : Frame} {frames : List Frame} {expectation : Expectation}
  {properties : Option Properties}

theorem Stacked.place (stacked : Stacked frames) :
    Stacked (place node frames).1 := by
  fun_induction Builder.place node frames <;> simp_all [Stacked]

theorem atKey_place (awaited : (place node frames).2 = .key ∨
    (place node frames).2 = .comma) : AtKey (place node frames).1 := by
  fun_induction Builder.place node frames <;> simp_all [AtKey]

theorem references_place_expectation :
    (place node frames).2.references = [] := by
  fun_induction Builder.place node frames with
  | case2 node form => cases form <;> rfl
  | case7 _ _ _ _ _ ih => exact ih
  | _ => rfl

theorem stackReferences_place (stacked : Stacked frames)
    (filled : frames ≠ []) :
    stackReferences (place node frames).1 =
      stackReferences frames ++ node.references := by
  fun_induction Builder.place node frames with
  | case1 => contradiction
  | case7 node site entries key rest ih =>
      obtain ⟨pair, below⟩ := stacked
      obtain ⟨rfl, inside⟩ := pair rfl
      have filled : rest ≠ [] := by
        rintro rfl
        exact inside
      simp [ih below filled, stackReferences, frameReferences, Node.references,
        Node.entryReferences, placeReferences]
  | _ => simp [stackReferences, frameReferences, placeReferences,
      Node.itemReferences, Node.entryReferences]

theorem references_of_open (opened : builder.root = none) :
    builder.references =
      stackReferences builder.frames ++ builder.expectation.references := by
  rw [references, opened]
  rfl

theorem complete_of_empty (empty : builder.frames = []) :
    builder.complete node = { builder with
      frames := []
      expectation := .ending
      root := some node } := by
  simp [complete, empty, Builder.place]

theorem complete_of_filled (filled : builder.frames ≠ []) :
    builder.complete node = { builder with
      frames := (place node builder.frames).1
      expectation := (place node builder.frames).2 } := by
  rw [complete, if_neg (by simpa using filled)]

theorem wellFormed_complete (stacked : Stacked builder.frames)
    (opened : builder.root = none) : (builder.complete node).WellFormed := by
  by_cases empty : builder.frames = []
  · rw [complete_of_empty empty]
    exact ⟨trivial, by simp, .inr ⟨rfl, .inl rfl⟩⟩
  · rw [complete_of_filled empty]
    exact ⟨stacked.place, atKey_place, .inl opened⟩

theorem references_complete (stacked : Stacked builder.frames)
    (opened : builder.root = none) :
    (builder.complete node).references =
      stackReferences builder.frames ++ node.references := by
  by_cases empty : builder.frames = []
  · rw [complete_of_empty empty, empty]
    simp [references, rootReferences, stackReferences, Expectation.references]
  · rw [complete_of_filled empty]
    rw [references_of_open (by exact opened), references_place_expectation,
      List.append_nil, stackReferences_place stacked empty]

/-- The builder becomes the other by a token with this reference. -/
structure Extends (builder : Builder) (reference : Option (Reference String))
    (next : Builder) : Prop where
  wellFormed : next.WellFormed
  adds : ∃ added, next.references = builder.references ++ added ∧
    Adds builder.slots next.slots added reference

theorem extends_none (wellFormed : next.WellFormed)
    (references : next.references = builder.references)
    (slots : next.slots = builder.slots) : builder.Extends none next :=
  ⟨wellFormed, [], by rw [references, List.append_nil], rfl, slots⟩

theorem Extends.of_none {reference : Option (Reference String)}
    (quiet : builder.Extends none middle)
    (onward : middle.Extends reference next) :
    builder.Extends reference next := by
  obtain ⟨-, _, same, rfl, slots⟩ := quiet
  rw [List.append_nil] at same
  exact ⟨onward.wellFormed, by rw [← same, ← slots]; exact onward.adds⟩

theorem extends_complete (stacked : Stacked frames)
    (opened : builder.root = none)
    (same : builder.references = stackReferences frames ++ node.references) :
    builder.Extends none ({ builder with frames }.complete node) := by
  have sound : Stacked { builder with frames }.frames := stacked
  refine extends_none (wellFormed_complete sound opened) ?_ rfl
  rw [references_complete sound opened, same]

theorem extends_expect_of_open (stacked : Stacked builder.frames)
    (opened : builder.root = none)
    (pending : builder.expectation.references = expectation.references)
    (atKey : expectation = .key ∨ expectation = .comma →
      AtKey builder.frames) :
    builder.Extends none (builder.expect expectation) := by
  refine extends_none ⟨stacked, atKey, .inl opened⟩ ?_ rfl
  rw [references_of_open opened, pending]
  exact references_of_open opened

theorem extends_enter (stacked : Stacked (frame :: builder.frames))
    (opened : builder.root = none)
    (pending : builder.expectation.references = frameReferences frame)
    (atKey : AtKey (frame :: builder.frames))
    (quiet : expectation.references = []) :
    builder.Extends none (builder.enter frame expectation) := by
  refine extends_none ⟨stacked, fun _ => atKey, .inl opened⟩ ?_ rfl
  rw [references_of_open opened, pending, references_of_open (by exact opened)]
  simp [enter, quiet, stackReferences]

theorem frameReferences_sequence (form : SequenceForm) (site : Site) :
    frameReferences (.sequence form site []) = slotAnchor site.slot := by
  simp [frameReferences, Node.itemReferences]

theorem frameReferences_mapping (form : MappingForm) (site : Site) :
    frameReferences (.mapping form site [] .key) = slotAnchor site.slot := by
  simp [frameReferences, placeReferences, Node.entryReferences]

section

variable (wellFormed : builder.WellFormed)
  (between : builder.expectation.Between)

include wellFormed

theorem WellFormed.extends_refl : builder.Extends none builder :=
  extends_none wellFormed rfl rfl

theorem WellFormed.extends_nothing
    (quiet : builder.expectation.references = []) :
    builder.Extends none (builder.expect .nothing) := by
  refine extends_none ⟨wellFormed.stacked, by simp [expect], ?_⟩ ?_ rfl
  · exact wellFormed.ended.imp_right fun ended => ⟨ended.1, .inr rfl⟩
  · rw [references, references, quiet]
    rfl

include between

theorem WellFormed.opened : builder.root = none := by
  refine wellFormed.ended.resolve_right fun ended => ?_
  rcases ended.2 with here | here <;> rw [here] at between <;> exact between

theorem WellFormed.references_eq :
    builder.references = stackReferences builder.frames := by
  rw [references_of_open (wellFormed.opened between), between.references,
    List.append_nil]

theorem WellFormed.extends_expect (quiet : expectation.Between)
    (atKey : expectation = .key ∨ expectation = .comma →
      AtKey builder.frames) :
    builder.Extends none (builder.expect expectation) :=
  extends_expect_of_open wellFormed.stacked (wellFormed.opened between)
    (between.references.trans quiet.references.symm) atKey

theorem WellFormed.extends_close (atKey : AtKey builder.frames) :
    builder.Extends none builder.close := by
  have references := wellFormed.references_eq between
  have opened := wellFormed.opened between
  have stacked := wellFormed.stacked
  unfold Builder.close
  split
  · exact wellFormed.extends_refl
  · next form site items rest frames =>
      rw [frames] at references stacked
      refine extends_complete stacked opened (references.trans ?_)
      simp [stackReferences, frameReferences, Node.references]
  · next form site entries place rest frames =>
      rw [frames] at references stacked atKey
      refine extends_complete stacked.2 opened (references.trans ?_)
      cases place with
      | value key => cases atKey
      | key | bareKey =>
          simp [stackReferences, frameReferences, placeReferences,
            Node.references]

theorem WellFormed.extends_absent (mark : Mark) :
    builder.Extends none (builder.complete (.absent mark)) :=
  extends_complete wellFormed.stacked (wellFormed.opened between)
    ((wellFormed.references_eq between).trans (List.append_nil _).symm)

end

end Builder

end EdgeFilters.Yaml
