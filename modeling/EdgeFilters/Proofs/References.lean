import EdgeFilters.Yaml.Node
import EdgeFilters.Yaml.Token
import Mathlib.Data.List.Dedup

/-! The anchors and aliases of a document, by name and by slot. -/

namespace EdgeFilters.Yaml

inductive Reference (α : Type) where
  | anchor (label : α)
  | alias (label : α)
  deriving DecidableEq

section

variable {α β : Type}

def Reference.map (f : α → β) : Reference α → Reference β
  | .anchor label => .anchor (f label)
  | .alias label => .alias (f label)

def Reference.anchor? : Reference α → Option α
  | .anchor label => some label
  | .alias _ => none

def anchors (references : List (Reference α)) : List α :=
  references.filterMap Reference.anchor?

variable {label : α} {rest : List (Reference α)}

@[simp] theorem anchors_nil : anchors ([] : List (Reference α)) = [] := rfl

@[simp] theorem anchors_cons_anchor :
    anchors (.anchor label :: rest) = label :: anchors rest := rfl

@[simp] theorem anchors_cons_alias :
    anchors (.alias label :: rest) = anchors rest := rfl

@[simp] theorem anchors_append (front back : List (Reference α)) :
    anchors (front ++ back) = anchors front ++ anchors back :=
  List.filterMap_append

@[simp] theorem anchors_map (f : α → β) (references : List (Reference α)) :
    anchors (references.map (.map f)) = (anchors references).map f := by
  induction references with
  | nil => rfl
  | cons reference rest ih =>
      cases reference <;> simp [Reference.map, ih]

end

def Symbol.reference? : Symbol → Option (Reference String)
  | .anchor name => some (.anchor name)
  | .alias name => some (.alias name)
  | _ => none

/-- The anchors and aliases of a text, by name. -/
def namesOf (tokens : List Token) : List (Reference String) :=
  tokens.filterMap fun token => token.symbol.reference?

theorem namesOf_cons (token : Token) (rest : List Token) :
    namesOf (token :: rest) =
      token.symbol.reference?.toList ++ namesOf rest := by
  unfold namesOf
  cases found : token.symbol.reference? <;> simp [found]

def slotAnchor (slot : Option Nat) : List (Reference Nat) :=
  (slot.map .anchor).toList

namespace Node

mutual

/-- The anchors and aliases of a node, by slot, in the order of the text. -/
def references : Node → List (Reference Nat)
  | .scalar site _ _ _ => slotAnchor site.slot
  | .sequence site items => slotAnchor site.slot ++ itemReferences items
  | .mapping site entries => slotAnchor site.slot ++ entryReferences entries
  | .alias slot => [.alias slot]

def itemReferences : List Node → List (Reference Nat)
  | [] => []
  | item :: rest => item.references ++ itemReferences rest

def entryReferences : List (Node × Node) → List (Reference Nat)
  | [] => []
  | (key, value) :: rest =>
      key.references ++ value.references ++ entryReferences rest

end

@[simp] theorem itemReferences_append (front back : List Node) :
    itemReferences (front ++ back) =
      itemReferences front ++ itemReferences back := by
  induction front with
  | nil => rfl
  | cons item rest ih => simp [itemReferences, ih]

@[simp] theorem entryReferences_append (front back : List (Node × Node)) :
    entryReferences (front ++ back) =
      entryReferences front ++ entryReferences back := by
  induction front with
  | nil => rfl
  | cons entry rest ih => simp [entryReferences, ih]

theorem fst_entry (site : Site) (node : Node) :
    (entry site node).map Prod.fst = anchors (slotAnchor site.slot) := by
  cases slot : site.slot <;> simp [entry, slot, slotAnchor]

mutual

theorem fst_anchored : (node : Node) →
    node.anchored.map Prod.fst = anchors node.references
  | .scalar site tag style text => fst_entry ..
  | .sequence site items => by
      simp [anchored, references, fst_entry, fst_anchoredItems items]
  | .mapping site entries => by
      simp [anchored, references, fst_entry, fst_anchoredEntries entries]
  | .alias slot => rfl

theorem fst_anchoredItems : (items : List Node) →
    (anchoredItems items).map Prod.fst = anchors (itemReferences items)
  | [] => rfl
  | item :: rest => by
      simp [anchoredItems, itemReferences, fst_anchored item,
        fst_anchoredItems rest]

theorem fst_anchoredEntries : (entries : List (Node × Node)) →
    (anchoredEntries entries).map Prod.fst =
      anchors (entryReferences entries)
  | [] => rfl
  | (key, value) :: rest => by
      simp [anchoredEntries, entryReferences, fst_anchored key,
        fst_anchored value, fst_anchoredEntries rest]

end

end Node

/-- References behind anchors of the names `given`, by name and by slot. An
anchor takes the slot numbered by how many names are known, also when its own
is one of them; an alias has the slot that its name took last. -/
inductive Numbered : List String → List (Reference String) →
    List (Reference Nat) → Prop
  | nil {given : List String} : Numbered given [] []
  | anchor {given : List String} {name : String}
      {names : List (Reference String)} {slots : List (Reference Nat)}
      (further : Numbered (given ++ [name]) names slots) :
      Numbered given (.anchor name :: names)
        (.anchor given.dedup.length :: slots)
  | alias {before after : List String} {name : String}
      {names : List (Reference String)} {slots : List (Reference Nat)}
      (last : name ∉ after)
      (further : Numbered (before ++ name :: after) names slots) :
      Numbered (before ++ name :: after) (.alias name :: names)
        (.alias before.dedup.length :: slots)

theorem idxOf_of_nodup {before after : List String} {name : String}
    (distinct : (before ++ name :: after).Nodup) :
    (before ++ name :: after).idxOf name = before.dedup.length := by
  have apart := List.nodup_append.1 distinct
  have fresh : name ∉ before := fun member =>
    apart.2.2 name member name List.mem_cons_self rfl
  rw [apart.1.dedup, List.idxOf_append_of_notMem fresh, List.idxOf_cons_self,
    Nat.add_zero]

/-- Where no name is given twice, a slot is the place of its name. -/
theorem Numbered.eq_map {given : List String} {names : List (Reference String)}
    {slots : List (Reference Nat)} (numbered : Numbered given names slots)
    (distinct : (given ++ anchors names).Nodup) :
    slots = names.map (.map ((given ++ anchors names).idxOf ·)) := by
  induction numbered with
  | nil => rfl
  | anchor further ih =>
      rw [← List.append_cons] at ih
      rw [anchors_cons_anchor] at distinct ⊢
      rw [List.map_cons, ← ih distinct, Reference.map,
        idxOf_of_nodup distinct]
  | «alias» last further ih =>
      rw [anchors_cons_alias] at distinct ⊢
      rw [List.map_cons, ← ih distinct, Reference.map, List.append_assoc,
        List.cons_append, idxOf_of_nodup (by simpa using distinct)]

/-- The slots of the names in `given`, the last of which counts. -/
structure Knows (given : List String) (slots : List (String × Nat)) :
    Prop where
  nodup : (slots.map Prod.fst).Nodup
  mem_iff : ∀ name, name ∈ slots.map Prod.fst ↔ name ∈ given
  last : ∀ name slot, slots.lookup name = some slot →
    ∃ before after, given = before ++ name :: after ∧ name ∉ after ∧
      slot = before.dedup.length

variable {given : List String} {slots : List (String × Nat)} {name : String}

theorem knows_nil : Knows [] [] where
  nodup := List.nodup_nil
  mem_iff := fun _ => Iff.rfl
  last := fun _ _ found => by simp at found

theorem Knows.length_eq (knows : Knows given slots) :
    slots.length = given.dedup.length := by
  have same : (slots.map Prod.fst).Perm given.dedup := by
    rw [List.perm_ext_iff_of_nodup knows.nodup given.nodup_dedup]
    intro name
    rw [knows.mem_iff, List.mem_dedup]
  simpa using same.length_eq

theorem lookup_filter_ne {other : String} (different : other ≠ name) :
    (slots.filter (·.1 != name)).lookup other = slots.lookup other := by
  induction slots with
  | nil => rfl
  | cons slot rest ih =>
      by_cases here : slot.1 = name
      · have passed : (other == slot.1) = false := by simp [here, different]
        rw [List.filter_cons_of_neg (by simp [here]), ih, List.lookup_cons,
          passed]
      · rw [List.filter_cons_of_pos (by simp [here]), List.lookup_cons,
          List.lookup_cons, ih]

theorem Knows.cons (knows : Knows given slots) (name : String) :
    Knows (given ++ [name])
      ((name, slots.length) :: slots.filter (·.1 != name)) where
  nodup := by
    have kept : ((slots.filter (·.1 != name)).map Prod.fst).Nodup :=
      knows.nodup.sublist (List.filter_sublist.map _)
    rw [List.map_cons, List.nodup_cons]
    exact ⟨by simp, kept⟩
  mem_iff := by
    intro other
    have known := knows.mem_iff other
    by_cases same : other = name
    · simp [same]
    · simp_all
  last := by
    intro other slot found
    by_cases same : other = name
    · subst same
      obtain rfl : slots.length = slot := by simpa using found
      exact ⟨given, [], rfl, by simp, knows.length_eq⟩
    · have passed : (other == name) = false := beq_false_of_ne same
      rw [List.lookup_cons, passed, lookup_filter_ne same] at found
      obtain ⟨before, after, rfl, fresh, numbered⟩ := knows.last _ _ found
      exact ⟨before, after ++ [name], by simp, by simp [fresh, same], numbered⟩

/-- What a reference adds to a document and to the slots of names. -/
def Adds (before after : List (String × Nat)) (added : List (Reference Nat)) :
    Option (Reference String) → Prop
  | none => added = [] ∧ after = before
  | some (.anchor name) => added = [.anchor before.length] ∧
      after = (name, before.length) :: before.filter (·.1 != name)
  | some (.alias name) => ∃ slot, before.lookup name = some slot ∧
      added = [.alias slot] ∧ after = before

theorem Adds.exists_knows {before after : List (String × Nat)}
    {added : List (Reference Nat)} {reference : Option (Reference String)}
    (adds : Adds before after added reference) (knows : Knows given before) :
    ∃ known, Knows known after ∧ ∀ names more, Numbered known names more →
      Numbered given (reference.toList ++ names) (added ++ more) := by
  cases reference with
  | none =>
      obtain ⟨rfl, rfl⟩ := adds
      exact ⟨given, knows, fun _ _ numbered => numbered⟩
  | some reference =>
      cases reference with
      | anchor name =>
          obtain ⟨rfl, rfl⟩ := adds
          refine ⟨given ++ [name], knows.cons name,
            fun names more numbered => ?_⟩
          rw [knows.length_eq]
          exact .anchor numbered
      | «alias» name =>
          obtain ⟨slot, found, rfl, rfl⟩ := adds
          obtain ⟨front, back, rfl, last, rfl⟩ := knows.last _ _ found
          exact ⟨_, knows, fun _ _ numbered => .alias last numbered⟩

/-- The references of a document are those of its text, and a slot holds the
last node of the document whose anchor took it. -/
structure Linked (names : List (Reference String)) (document : Document) :
    Prop where
  numbered : Numbered [] names document.root.references
  taken : document.root.anchored.map Prod.fst =
    anchors document.root.references
  slot?_eq_some_iff : ∀ slot node, document.slot? slot = some node ↔
    ∃ before after, document.root.anchored = before ++ (slot, node) :: after ∧
      ∀ later ∈ after, later.1 ≠ slot

theorem lookup_reverse_eq_some_iff {slots : List (Nat × Node)} {slot : Nat}
    {node : Node} :
    slots.reverse.lookup slot = some node ↔
      ∃ before after, slots = before ++ (slot, node) :: after ∧
        ∀ later ∈ after, later.1 ≠ slot := by
  rw [List.lookup_eq_some_iff]
  constructor
  · rintro ⟨after, before, layout, later⟩
    refine ⟨before.reverse, after.reverse, ?_, fun other member same => ?_⟩
    · rw [← List.reverse_inj, layout]
      simp
    · simpa [same] using later other (List.mem_reverse.1 member)
  · rintro ⟨before, after, rfl, later⟩
    refine ⟨after.reverse, before.reverse, by simp, fun other member => ?_⟩
    exact bne_iff_ne.2 (later other (List.mem_reverse.1 member)).symm

theorem linked_ofRoot {names : List (Reference String)} {root : Node}
    (numbered : Numbered [] names root.references) :
    Linked names (.ofRoot root) where
  numbered := numbered
  taken := root.fst_anchored
  slot?_eq_some_iff := fun _ _ => lookup_reverse_eq_some_iff

theorem map_idxOf_of_nodup {labels : List String} (distinct : labels.Nodup) :
    labels.map (labels.idxOf ·) = List.range labels.length :=
  List.ext_getElem (by simp) fun place inside _ => by
    simp [distinct.idxOf_getElem]

theorem lookup_reverse_of_range {slots : List (Nat × Node)}
    (counted : slots.map Prod.fst = List.range slots.length) (slot : Nat) :
    slots.reverse.lookup slot = slots[slot]?.map Prod.snd := by
  have place (slot : Nat) (inside : slot < slots.length) :
      slots[slot].1 = slot := by
    simpa [inside] using congrArg (·[slot]?) counted
  refine Option.ext fun node => ?_
  rw [lookup_reverse_eq_some_iff]
  constructor
  · rintro ⟨before, after, rfl, -⟩
    obtain rfl : before.length = slot := by
      simpa using (place before.length (by simp)).symm
    simp
  · intro found
    obtain ⟨entry, here, rfl⟩ := Option.map_eq_some_iff.1 found
    obtain ⟨inside, rfl⟩ := List.getElem?_eq_some_iff.1 here
    have entry : (slot, slots[slot].2) = slots[slot] :=
      Prod.ext (place slot inside).symm rfl
    refine ⟨slots.take slot, slots.drop (slot + 1), ?_, fun later member => ?_⟩
    · rw [entry, List.getElem_cons_drop, List.take_append_drop]
    · obtain ⟨further, within, rfl⟩ := List.mem_drop_iff_getElem.1 member
      rw [place]
      omega

/-- Where no anchor name is given twice, references are numbered by the places
of their names, and a slot holds the node whose anchor has that place. -/
theorem Linked.of_nodup {names : List (Reference String)} {document : Document}
    (linked : Linked names document) (distinct : (anchors names).Nodup) :
    document.root.references = names.map (.map ((anchors names).idxOf ·)) ∧
      ∀ slot, document.slot? slot =
        document.root.anchored[slot]?.map Prod.snd := by
  have numbered : document.root.references =
      names.map (.map ((anchors names).idxOf ·)) :=
    linked.numbered.eq_map distinct
  have taken : document.root.anchored.map Prod.fst =
      List.range (anchors names).length := by
    rw [linked.taken, numbered, anchors_map, map_idxOf_of_nodup distinct]
  have length : document.root.anchored.length = (anchors names).length := by
    simpa using congrArg List.length taken
  refine ⟨numbered, fun slot => Option.ext fun node => ?_⟩
  rw [linked.slot?_eq_some_iff, ← lookup_reverse_eq_some_iff,
    lookup_reverse_of_range (length ▸ taken)]

end EdgeFilters.Yaml
