import EdgeFilters.Schema
import Mathlib.Algebra.GroupWithZero.Nat
import Mathlib.Data.List.Forall2
import Mathlib.Data.List.Perm.Basic

namespace EdgeFilters

/-- How many aliases are followed to reach what the node stands for. -/
def Yaml.Node.aliasCount : Yaml.Node → Nat
  | .alias _ => 1
  | .scalar .. | .sequence .. | .mapping .. => 0

namespace Schema

open Yaml (Document Meaning Node Style)

/-- A scalar of this text, or an alias of one. -/
def HoldsText (document : Document) (node : Node) (content : String) : Prop :=
  ∃ site tag style, document.resolve node = .scalar site tag style content

def booleanSpellings : Bool → List String
  | true => ["true", "True", "TRUE"]
  | false => ["false", "False", "FALSE"]

/-- A boolean is a plain scalar, whatever its tag, or a literal one that is
tagged as a boolean. -/
inductive HoldsBoolean (document : Document) (node : Node) : Bool → Prop
  | plain {site : Yaml.Site} {tag : Option String} {content : String}
      {value : Bool}
      (here : document.resolve node = .scalar site tag .plain content)
      (spelled : content ∈ booleanSpellings value) :
      HoldsBoolean document node value
  | literal {site : Yaml.Site} {content : String} {value : Bool}
      (here : document.resolve node =
        .scalar site (some Meaning.booleanTag) .literal content)
      (spelled : content ∈ booleanSpellings value) :
      HoldsBoolean document node value

/-- A sequence, or nothing at all, which counts as one without items. -/
inductive HoldsItems (document : Document) (node : Node) : List Node → Prop
  | sequence {site : Yaml.Site} {items : List Node}
      (here : document.resolve node = .sequence site items) :
      HoldsItems document node items
  | nothing {site : Yaml.Site} {tag : Option String}
      (here : document.resolve node = .scalar site tag .plain "") :
      HoldsItems document node []

/-- A mapping, or nothing at all, which counts as one without entries. -/
inductive HoldsEntries (document : Document) (node : Node) :
    List (Node × Node) → Prop
  | mapping {site : Yaml.Site} {entries : List (Node × Node)}
      (here : document.resolve node = .mapping site entries) :
      HoldsEntries document node entries
  | nothing {site : Yaml.Site} {tag : Option String}
      (here : document.resolve node = .scalar site tag .plain "") :
      HoldsEntries document node []

/-- The text of a key; collections have none. -/
def keyName? (document : Document) (key : Node) : Option String :=
  match document.resolve key with
  | .scalar _ _ _ name => some name
  | _ => none

/-- The entries under these names. -/
def named (document : Document) (names : List String)
    (entries : List (Node × Node)) : List (Node × Node) :=
  entries.filter fun entry => (keyName? document entry.1).any names.contains

def valuesOf (document : Document) (names : List String)
    (entries : List (Node × Node)) : List Node :=
  (named document names entries).map Prod.snd

def KeysAreTexts (document : Document) (entries : List (Node × Node)) : Prop :=
  ∀ entry ∈ entries, ∃ name, HoldsText document entry.1 name

/-- Exactly one value stands under these names. -/
def HoldsOne {α : Type} (document : Document) (holds : Node → α → Prop)
    (names : List String) (entries : List (Node × Node)) (content : α) : Prop :=
  ∃ value, valuesOf document names entries = [value] ∧ holds value content

/-- At most one value stands under these names. -/
def HoldsOptional {α : Type} (document : Document) (holds : Node → α → Prop)
    (names : List String) (default : α) (entries : List (Node × Node))
    (content : α) : Prop :=
  (valuesOf document names entries = [] ∧ content = default) ∨
    HoldsOne document holds names entries content

/-- The names of the fields of a specification; the expression has two. -/
def specNames : List String :=
  ["input", "output", "filters", "filter_expression"]

def configNames : List String := ["name", "reuse_solvers_by_type", "filters"]

structure SpecEntries (document : Document) (entries : List (Node × Node))
    (spec : Spec) : Prop where
  keys : KeysAreTexts document entries
  input : HoldsOne document (HoldsText document)
    ["input"] entries spec.edge.input
  output : HoldsOne document (HoldsText document)
    ["output"] entries spec.edge.output
  expression :
    HoldsOne document (HoldsText document) ["filters",
      "filter_expression"] entries
    spec.expression

def FitsSpec (document : Document) (node : Node) (spec : Spec) : Prop :=
  ∃ entries, HoldsEntries document node entries ∧
    SpecEntries document entries spec

def FitsSpecs (document : Document) (node : Node) (specs : List Spec) : Prop :=
  ∃ items, HoldsItems document node items ∧
    List.Forall₂ (FitsSpec document) items specs

structure ConfigEntries (document : Document) (entries : List (Node × Node))
    (config : Config) : Prop where
  keys : KeysAreTexts document entries
  name : HoldsOptional document (HoldsText document)
    ["name"] "" entries config.name
  reuse : HoldsOptional document (HoldsBoolean document)
    ["reuse_solvers_by_type"] false entries
    config.reuse
  specs : HoldsOptional document (FitsSpecs document) ["filters"]
    [] entries config.specs

/-- The document has this configuration. -/
def Fits (document : Document) (config : Config) : Prop :=
  ∃ entries, HoldsEntries document document.root entries ∧
    ConfigEntries document entries config

/-- The aliases among the keys of a mapping and, at a price for each value,
among its values. -/
def aliasesIn (document : Document) (price : String → Node → Nat)
    (entries : List (Node × Node)) : Nat :=
  (entries.map fun entry =>
    entry.1.aliasCount + (keyName? document entry.1).elim 0
      (price · entry.2)).sum

def specPrice (name : String) (value : Node) : Nat :=
  if name ∈ specNames then value.aliasCount else 0

def specAliases (document : Document) (node : Node) : Nat :=
  node.aliasCount +
    match document.resolve node with
    | .mapping _ entries => aliasesIn document specPrice entries
    | _ => 0

def specsAliases (document : Document) (node : Node) : Nat :=
  node.aliasCount +
    match document.resolve node with
    | .sequence _ items => (items.map (specAliases document)).sum
    | _ => 0

def configPrice (document : Document) (name : String) (value : Node) : Nat :=
  if name = "filters" then specsAliases document value
  else if name ∈ configNames then value.aliasCount
  else 0

/-- The aliases among the root, the keys, the values of fields, and the entries
of the filters. -/
def aliases (document : Document) : Nat :=
  document.root.aliasCount +
    match document.resolve document.root with
    | .mapping _ entries => aliasesIn document (configPrice document) entries
    | _ => 0

variable {document : Document} {node : Node} {entry : Node × Node}
  {entries rest : List (Node × Node)} {name : String} {names : List String}

theorem keyName?_eq_some_iff {key : Node} :
    keyName? document key = some name ↔ HoldsText document key name := by
  unfold keyName? HoldsText
  cases document.resolve key <;> simp

@[simp] theorem valuesOf_nil : valuesOf document names [] = [] := rfl

theorem valuesOf_cons_of_mem (holds : HoldsText document entry.1 name)
    (member : name ∈ names) :
    valuesOf document names (entry :: rest) =
      entry.2 :: valuesOf document names rest := by
  simp [valuesOf, named, keyName?_eq_some_iff.2 holds, member]

theorem valuesOf_cons_of_not_mem (holds : HoldsText document entry.1 name)
    (other : name ∉ names) :
    valuesOf document names (entry :: rest) = valuesOf document names rest := by
  simp [valuesOf, named, keyName?_eq_some_iff.2 holds, other]

@[simp] theorem aliasesIn_nil {price : String → Node → Nat} :
    aliasesIn document price [] = 0 := rfl

theorem aliasesIn_cons {price : String → Node → Nat}
    (holds : HoldsText document entry.1 name) :
    aliasesIn document price (entry :: rest) =
      entry.1.aliasCount + price name entry.2 +
        aliasesIn document price rest := by
  simp [aliasesIn, keyName?_eq_some_iff.2 holds]

@[simp] theorem keysAreTexts_nil : KeysAreTexts document [] := by
  simp [KeysAreTexts]

theorem keysAreTexts_cons :
    KeysAreTexts document (entry :: rest) ↔
      (∃ name, HoldsText document entry.1 name) ∧ KeysAreTexts document rest :=
  List.forall_mem_cons

theorem specAliases_eq (held : HoldsEntries document node entries) :
    specAliases document node =
      node.aliasCount + aliasesIn document specPrice entries := by
  unfold specAliases
  cases held with
  | mapping here => rw [here]
  | nothing here => rw [here]; rfl

theorem specsAliases_eq {items : List Node}
    (held : HoldsItems document node items) :
    specsAliases document node =
      node.aliasCount + (items.map (specAliases document)).sum := by
  unfold specsAliases
  cases held with
  | sequence here => rw [here]
  | nothing here => rw [here]; rfl

theorem aliases_eq (held : HoldsEntries document document.root entries) :
    aliases document =
      document.root.aliasCount +
        aliasesIn document (configPrice document) entries := by
  unfold aliases
  cases held with
  | mapping here => rw [here]
  | nothing here => rw [here]; rfl

/-- What a node holds in one document, the other node holds in the other. -/
structure Alike (document other : Document) (node twin : Node) : Prop where
  text : ∀ content,
    HoldsText document node content ↔ HoldsText other twin content
  boolean : ∀ value,
    HoldsBoolean document node value ↔ HoldsBoolean other twin value
  specs : ∀ specs, FitsSpecs document node specs ↔ FitsSpecs other twin specs

def SameText (document other : Document) (node twin : Node) : Prop :=
  ∀ content, HoldsText document node content ↔ HoldsText other twin content

/-- But for their order, the entries under these names have the same names and
values that are related. -/
def Matching (document other : Document) (related : Node → Node → Prop)
    (names : List String) (entries others : List (Node × Node)) : Prop :=
  ∃ order, List.Forall₂ (fun entry twin =>
      keyName? document entry.1 = keyName? other twin.1 ∧
        related entry.2 twin.2) (named document names entries) order ∧
    order.Perm (named other names others)

section

variable {other : Document} {others : List (Node × Node)}
  {related : Node → Node → Prop} {fewer : List String} {α : Type}
  {holds holds' : Node → α → Prop} {content default : α}

theorem Alike.symm {twin : Node} (alike : Alike document other node twin) :
    Alike other document twin node where
  text := fun content => (alike.text content).symm
  boolean := fun value => (alike.boolean value).symm
  specs := fun specs => (alike.specs specs).symm

theorem Matching.symm
    (matching : Matching document other related names entries others) :
    Matching other document (fun node twin => related twin node) names others
      entries := by
  obtain ⟨order, pairs, permuted⟩ := matching
  obtain ⟨again, turned, others⟩ :=
    List.perm_comp_forall₂ permuted.symm pairs.flip
  exact ⟨again, turned.imp fun _ _ both => ⟨both.1.symm, both.2⟩, others⟩

theorem Matching.imp {related' : Node → Node → Prop}
    (matching : Matching document other related names entries others)
    (weaker : ∀ node twin, related node twin → related' node twin) :
    Matching document other related' names entries others := by
  obtain ⟨order, pairs, permuted⟩ := matching
  exact ⟨order, pairs.imp fun _ _ both => ⟨both.1, weaker _ _ both.2⟩, permuted⟩

theorem named_named (within : fewer ⊆ names) :
    named document fewer (named document names entries) =
      named document fewer entries := by
  unfold named
  rw [List.filter_filter]
  apply List.filter_congr
  intro entry _
  cases keyName? document entry.1 with
  | none => rfl
  | some name =>
      have contained : fewer.contains name = true →
          names.contains name = true := fun inside =>
        List.contains_iff_mem.2 (within (List.contains_iff_mem.1 inside))
      rw [Option.any_some, Option.any_some, Bool.eq_iff_iff, Bool.and_eq_true]
      exact ⟨And.left, fun inside => ⟨inside, contained inside⟩⟩

theorem Matching.valuesOf (within : fewer ⊆ names)
    (matching : Matching document other related names entries others) :
    ∃ values, List.Forall₂ related (valuesOf document fewer entries) values ∧
      values.Perm (Schema.valuesOf other fewer others) := by
  obtain ⟨order, pairs, permuted⟩ := matching
  have kept : (named other fewer order).Perm
      (named other fewer (named other names others)) := permuted.filter _
  rw [named_named within] at kept
  have paired : List.Forall₂ (fun entry twin =>
      keyName? document entry.1 = keyName? other twin.1 ∧
        related entry.2 twin.2)
      (named document fewer (named document names entries))
      (named other fewer order) :=
    List.rel_filter (fun _ _ both => by simp only [both.1]) pairs
  refine ⟨(named other fewer order).map Prod.snd, ?_, kept.map _⟩
  rw [Schema.valuesOf, ← named_named within, List.forall₂_map_left_iff,
    List.forall₂_map_right_iff]
  exact paired.imp fun _ _ both => both.2

theorem HoldsOne.of_matching
    (one : HoldsOne document holds fewer entries content)
    (matching : Matching document other related names entries others)
    (within : fewer ⊆ names)
    (carried : ∀ node twin, related node twin → holds node content →
      holds' twin content) :
    HoldsOne other holds' fewer others content := by
  obtain ⟨value, alone, held⟩ := one
  obtain ⟨values, pairs, permuted⟩ := matching.valuesOf within
  rw [alone] at pairs
  cases pairs with
  | cons first rest =>
      cases rest
      exact ⟨_, (List.singleton_perm.1 permuted).symm, carried _ _ first held⟩

theorem HoldsOptional.of_matching
    (held : HoldsOptional document holds fewer default entries content)
    (matching : Matching document other related names entries others)
    (within : fewer ⊆ names)
    (carried : ∀ node twin, related node twin → holds node content →
      holds' twin content) :
    HoldsOptional other holds' fewer default others content := by
  rcases held with ⟨empty, rfl⟩ | one
  · obtain ⟨values, pairs, permuted⟩ := matching.valuesOf within
    rw [empty, List.forall₂_nil_left_iff] at pairs
    subst pairs
    exact .inl ⟨List.nil_perm.1 permuted, rfl⟩
  · exact .inr (one.of_matching matching within carried)

theorem SpecEntries.of_matching {spec : Spec}
    (fits : SpecEntries document entries spec)
    (keys : KeysAreTexts other others)
    (matching : Matching document other (SameText document other) specNames
      entries others) : SpecEntries other others spec where
  keys := keys
  input := fits.input.of_matching matching (by decide)
    fun _ _ same => (same _).1
  output := fits.output.of_matching matching (by decide)
    fun _ _ same => (same _).1
  expression := fits.expression.of_matching matching (by decide)
    fun _ _ same => (same _).1

theorem ConfigEntries.of_matching {config : Config}
    (fits : ConfigEntries document entries config)
    (keys : KeysAreTexts other others)
    (matching : Matching document other (Alike document other) configNames
      entries others) : ConfigEntries other others config where
  keys := keys
  name := fits.name.of_matching matching (by decide)
    fun _ _ alike => (alike.text _).1
  reuse := fits.reuse.of_matching matching (by decide)
    fun _ _ alike => (alike.boolean _).1
  specs := fits.specs.of_matching matching (by decide)
    fun _ _ alike => (alike.specs _).1

end

end Schema

end EdgeFilters
