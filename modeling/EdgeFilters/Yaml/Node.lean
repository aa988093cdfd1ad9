import EdgeFilters.Yaml.Token

namespace EdgeFilters.Yaml

/-- Where a node starts, with the slot of its anchor if it has one. -/
structure Site where
  mark : Mark
  slot : Option Nat := none
  deriving DecidableEq, Repr

inductive Node where
  | scalar (site : Site) (tag : Option String) (style : Style) (text : String)
  | sequence (site : Site) (items : List Node)
  | mapping (site : Site) (entries : List (Node × Node))
  | alias (slot : Nat)

namespace Node

/-- What stands where a document leaves a node out. -/
def absent (mark : Mark) : Node := .scalar { mark } none .plain ""

def entry (site : Site) (node : Node) : List (Nat × Node) :=
  (site.slot.map (·, node)).toList

mutual

/-- The nodes that carry an anchor, with their slots, by where they start. -/
def anchored : Node → List (Nat × Node)
  | .scalar site tag style text => entry site (.scalar site tag style text)
  | .sequence site items =>
      entry site (.sequence site items) ++ anchoredItems items
  | .mapping site entries =>
      entry site (.mapping site entries) ++ anchoredEntries entries
  | .alias _ => []

def anchoredItems : List Node → List (Nat × Node)
  | [] => []
  | item :: rest => item.anchored ++ anchoredItems rest

def anchoredEntries : List (Node × Node) → List (Nat × Node)
  | [] => []
  | (key, value) :: rest =>
      key.anchored ++ value.anchored ++ anchoredEntries rest

end

mutual

/-- The size of a node as it is written: a collection counts for its start and
its end, and everything else once. -/
def size : Node → Nat
  | .scalar _ _ _ _ => 1
  | .sequence _ items => sizeOfItems items + 2
  | .mapping _ entries => sizeOfEntries entries + 2
  | .alias _ => 1

def sizeOfItems : List Node → Nat
  | [] => 0
  | item :: rest => item.size + sizeOfItems rest

def sizeOfEntries : List (Node × Node) → Nat
  | [] => 0
  | (key, value) :: rest => key.size + value.size + sizeOfEntries rest

end

mutual

def same : Node → Node → Bool
  | .scalar site tag style text, .scalar site' tag' style' text' =>
      site == site' && tag == tag' && style == style' && text == text'
  | .sequence site items, .sequence site' items' =>
      site == site' && sameItems items items'
  | .mapping site entries, .mapping site' entries' =>
      site == site' && sameEntries entries entries'
  | .alias slot, .alias slot' => slot == slot'
  | _, _ => false

def sameItems : List Node → List Node → Bool
  | [], [] => true
  | item :: rest, item' :: rest' => item.same item' && sameItems rest rest'
  | _, _ => false

def sameEntries : List (Node × Node) → List (Node × Node) → Bool
  | [], [] => true
  | (key, value) :: rest, (key', value') :: rest' =>
      key.same key' && value.same value' && sameEntries rest rest'
  | _, _ => false

end

mutual

theorem same_iff : (node other : Node) → node.same other = true ↔ node = other
  | .scalar site tag style text, other => by
      cases other <;> simp [same, and_assoc]
  | .sequence site items, other => by
      cases other <;> simp [same, sameItems_iff items]
  | .mapping site entries, other => by
      cases other <;> simp [same, sameEntries_iff entries]
  | .alias slot, other => by
      cases other <;> simp [same]

theorem sameItems_iff : (items others : List Node) →
    sameItems items others = true ↔ items = others
  | [], others => by cases others <;> simp [sameItems]
  | item :: rest, others => by
      cases others <;> simp [sameItems, same_iff item, sameItems_iff rest]

theorem sameEntries_iff : (entries others : List (Node × Node)) →
    sameEntries entries others = true ↔ entries = others
  | [], others => by cases others <;> simp [sameEntries]
  | (key, value) :: rest, others => by
      cases others <;> simp [sameEntries, same_iff key, same_iff value,
        sameEntries_iff rest, Prod.ext_iff]

end

instance : DecidableEq Node := fun node other =>
  decidable_of_iff _ (same_iff node other)

end Node

/-- A document and the nodes its aliases stand for. -/
structure Document where
  root : Node
  /-- The node in a slot is the first here, and the last of the
  document that took it. -/
  slots : List (Nat × Node)
  deriving DecidableEq

namespace Document

def ofRoot (root : Node) : Document := ⟨root, root.anchored.reverse⟩

def slot? (document : Document) (slot : Nat) : Option Node :=
  document.slots.lookup slot

/-- An alias becomes the node it stands for; a reader leaves no
alias without one. -/
def resolve (document : Document) : Node → Node
  | .alias slot => (document.slot? slot).getD (.alias slot)
  | node => node

/-- How many aliases may be followed in a document of this size. -/
def aliasLimit (document : Document) : Nat := 100 * document.root.size

end Document

end EdgeFilters.Yaml
