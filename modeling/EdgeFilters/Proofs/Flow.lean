import EdgeFilters.Proofs.Escapes
import EdgeFilters.Yaml.Node
import EdgeFilters.Yaml.Token
import Mathlib.Data.List.Forall2

/-! Documents on one line, without anchors, tags or comments. -/

namespace EdgeFilters.Yaml

def isLetter (c : Char) : Bool := c.isAlphanum || c == '_'

/-- A text that stands for itself without quotes, short enough for a key. -/
structure Word where
  text : String
  filled : text ≠ ""
  letters : text.toList.all isLetter = true
  short : text.toList.length ≤ 1024

theorem Word.isLetter_of_mem (word : Word) :
    ∀ c ∈ word.text.toList, isLetter c = true :=
  List.all_eq_true.1 word.letters

inductive Flow where
  | word (word : Word)
  | quoted (text : String)
  | sequence (items : List Flow)
  | mapping (entries : List (Word × Flow))

namespace Flow

def joined (parts : List (List Char)) : List Char :=
  [',', ' '].intercalate parts

def joinedSymbols (parts : List (List Symbol)) : List Symbol :=
  [Symbol.comma].intercalate parts

mutual

def text : Flow → List Char
  | .word bare => bare.text.toList
  | .quoted text => Yaml.quoted text
  | .sequence items => '[' :: (joined (itemTexts items) ++ [']'])
  | .mapping entries => '\x7b' :: (joined (entryTexts entries) ++ ['\x7d'])

def itemTexts : List Flow → List (List Char)
  | [] => []
  | item :: rest => item.text :: itemTexts rest

def entryTexts : List (Word × Flow) → List (List Char)
  | [] => []
  | (key, value) :: rest =>
      (key.text.toList ++ ':' :: ' ' :: value.text) :: entryTexts rest

end

mutual

def symbols : Flow → List Symbol
  | .word bare => [.scalar .plain bare.text]
  | .quoted text => [.scalar .doubleQuoted text]
  | .sequence items =>
      .sequenceStart :: (joinedSymbols (itemSymbols items) ++ [.sequenceEnd])
  | .mapping entries =>
      .mappingStart :: (joinedSymbols (entrySymbols entries) ++ [.mappingEnd])

def itemSymbols : List Flow → List (List Symbol)
  | [] => []
  | item :: rest => item.symbols :: itemSymbols rest

def entrySymbols : List (Word × Flow) → List (List Symbol)
  | [] => []
  | (key, value) :: rest =>
      (.key :: .scalar .plain key.text :: .value :: value.symbols) ::
        entrySymbols rest

end

/-- The node has the shape of the flow; its places do not matter. -/
inductive Shows : Flow → Node → Prop
  | word {bare : Word} {mark : Mark} :
      Shows (.word bare) (.scalar { mark } none .plain bare.text)
  | quoted {text : String} {mark : Mark} :
      Shows (.quoted text) (.scalar { mark } none .doubleQuoted text)
  | sequence {items : List Flow} {nodes : List Node} {mark : Mark}
      (shown : List.Forall₂ Shows items nodes) :
      Shows (.sequence items) (.sequence { mark } nodes)
  | mapping {entries : List (Word × Flow)} {nodes : List (Node × Node)}
      {mark : Mark}
      (keys : List.Forall₂ (fun entry node =>
        ∃ mark, node.1 =
          .scalar { mark } none .plain entry.1.text) entries nodes)
      (values : List.Forall₂ (fun entry node => Shows entry.2 node.2)
        entries nodes) :
      Shows (.mapping entries) (.mapping { mark } nodes)

theorem itemTexts_eq_map (items : List Flow) :
    itemTexts items = items.map text := by
  induction items with
  | nil => rfl
  | cons item rest ih => rw [itemTexts, ih, List.map_cons]

theorem entryTexts_eq_map (entries : List (Word × Flow)) :
    entryTexts entries =
      entries.map fun entry =>
        entry.1.text.toList ++ ':' :: ' ' :: entry.2.text := by
  induction entries with
  | nil => rfl
  | cons entry rest ih => rw [entryTexts, ih, List.map_cons]

theorem itemSymbols_eq_map (items : List Flow) :
    itemSymbols items = items.map symbols := by
  induction items with
  | nil => rfl
  | cons item rest ih => rw [itemSymbols, ih, List.map_cons]

theorem entrySymbols_eq_map (entries : List (Word × Flow)) :
    entrySymbols entries =
      entries.map fun entry =>
        .key :: .scalar .plain entry.1.text :: .value :: entry.2.symbols := by
  induction entries with
  | nil => rfl
  | cons entry rest ih => rw [entrySymbols, ih, List.map_cons]

@[induction_eliminator]
theorem induction {motive : Flow → Prop} (word : ∀ bare, motive (.word bare))
    (quoted : ∀ text, motive (.quoted text))
    (sequence : ∀ items, (∀ item ∈ items, motive item) →
      motive (.sequence items))
    (mapping : ∀ entries, (∀ entry ∈ entries, motive entry.2) →
      motive (.mapping entries)) :
    ∀ flow, motive flow
  | .word bare => word bare
  | .quoted text => quoted text
  | .sequence items =>
      sequence items fun item _ => induction word quoted sequence mapping item
  | .mapping entries =>
      mapping entries fun entry _ =>
        induction word quoted sequence mapping entry.2
termination_by flow => sizeOf flow
decreasing_by
  · have smaller := List.sizeOf_lt_of_mem ‹item ∈ items›
    simp only [Flow.sequence.sizeOf_spec]
    omega
  · have smaller := List.sizeOf_lt_of_mem ‹entry ∈ entries›
    obtain ⟨key, value⟩ := entry
    simp only [Flow.mapping.sizeOf_spec, Prod.mk.sizeOf_spec] at smaller ⊢
    omega

end Flow

end EdgeFilters.Yaml
