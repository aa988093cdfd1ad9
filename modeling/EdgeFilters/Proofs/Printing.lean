import EdgeFilters.Proofs.Grammar

namespace EdgeFilters.Json

open Grammar (Spaces Character Characters Series Inside Element Member)

mutual

/-- What a document of texts, lists and objects stands for. -/
def value : Json → Value
  | .text content => .text content
  | .list items => .list (itemValues items)
  | .object fields => .object (fieldValues fields)

def itemValues : List Json → List Value
  | [] => []
  | item :: rest => item.value :: itemValues rest

def fieldValues : List (String × Json) → List (String × Value)
  | [] => []
  | (name, json) :: rest => (name, json.value) :: fieldValues rest

end

theorem itemValues_eq_map (items : List Json) :
    itemValues items = items.map value := by
  induction items with
  | nil => rfl
  | cons item rest ih => rw [itemValues, ih, List.map_cons]

theorem fieldValues_eq_map (fields : List (String × Json)) :
    fieldValues fields = fields.map fun field => (field.1, field.2.value) := by
  induction fields with
  | nil => rfl
  | cons field rest ih => rw [fieldValues, ih, List.map_cons]

def printField (depth : Nat) (field : String × Json) : List Char :=
  quotedChars field.1 ++ [':', ' '] ++ field.2.print depth

theorem printItems_eq_map (depth : Nat) (items : List Json) :
    printItems depth items = items.map (print depth) := by
  induction items with
  | nil => rfl
  | cons item rest ih => rw [printItems, ih, List.map_cons]

theorem printFields_eq_map (depth : Nat) (fields : List (String × Json)) :
    printFields depth fields = fields.map (printField depth) := by
  induction fields with
  | nil => rfl
  | cons field rest ih => rw [printFields, ih, List.map_cons, printField]

@[induction_eliminator]
theorem induction {motive : Json → Prop}
    (text : ∀ content, motive (.text content))
    (list : ∀ items, (∀ item ∈ items, motive item) → motive (.list items))
    (object : ∀ fields, (∀ field ∈ fields, motive field.2) →
      motive (.object fields)) :
    ∀ json, motive json
  | .text content => text content
  | .list items => list items fun item _ => induction text list object item
  | .object fields =>
      object fields fun field _ => induction text list object field.2
termination_by json => sizeOf json
decreasing_by
  · have smaller := List.sizeOf_lt_of_mem ‹item ∈ items›
    simp only [Json.list.sizeOf_spec]
    omega
  · have smaller := List.sizeOf_lt_of_mem ‹field ∈ fields›
    obtain ⟨name, json⟩ := field
    simp only [Json.object.sizeOf_spec, Prod.mk.sizeOf_spec] at smaller ⊢
    omega

variable {rest : List Char}

theorem number?_hexDigit {code : Nat} (control : code < 0x20) :
    Text.number? 16 ['0', '0', hexDigit (code / 16), hexDigit code] =
      some code := by
  revert code
  decide

theorem character_escapedChar (c : Char) (rest : List Char) :
    Character (escapedChar c ++ rest) c rest := by
  unfold escapedChar
  split
  case h_8 noQuote noBackslash _ _ _ _ _ =>
    split
    · next control => exact .code (number?_hexDigit control)
    · next printed => exact .plain (by omega) noQuote noBackslash
  all_goals exact .letter rfl

theorem characters_flatMap (content rest : List Char) :
    Characters (content.flatMap escapedChar ++ '"' :: rest) content rest := by
  induction content with
  | nil => exact .close
  | cons c content ih =>
      rw [List.flatMap_cons, List.append_assoc]
      exact .cons (character_escapedChar c _) ih

theorem quotedChars_append (content : String) (rest : List Char) :
    quotedChars content ++ rest =
      '"' :: (content.toList.flatMap escapedChar ++ '"' :: rest) := by
  simp [quotedChars]

theorem spaces_newLine (depth : Nat) (rest : List Char) :
    Spaces (newLine depth ++ rest) rest := by
  have margin : ∀ width, Spaces (List.replicate width ' ' ++ rest) rest := by
    intro width
    induction width with
    | zero => exact .none
    | succ width ih => exact .cons (by decide) ih
  exact .cons (by decide) (margin (2 * depth))

theorem block_append (depth : Nat) (opening closing : Char)
    (parts : List (List Char)) (rest : List Char) :
    block depth opening closing parts ++ rest =
      opening :: ([','].intercalate (parts.map (newLine (depth + 1) ++ ·)) ++
        (newLine depth ++ closing :: rest)) := by
  simp [block]

section

variable {α β : Type} {part : List Char → β → List Char → Prop}
  {printed : α → List Char} {shown : α → β} {items : List α} {depth : Nat}

theorem series_lines (filled : items ≠ []) (closing : Char) (rest : List Char)
    (reads : ∀ item ∈ items, ∀ behind rest, Spaces behind rest →
      part (newLine (depth + 1) ++ (printed item ++ behind))
    (shown item) rest) :
    Series part
      ([','].intercalate ((items.map printed).map (newLine (depth + 1) ++ ·)) ++
        (newLine depth ++ closing :: rest))
      (items.map shown) (closing :: rest) := by
  induction items with
  | nil => exact (filled rfl).elim
  | cons item others ih =>
      obtain ⟨first, later⟩ := List.forall_mem_cons.1 reads
      cases others with
      | nil =>
          simp only [List.map_cons, List.map_nil, List.intercalate_singleton,
            List.append_assoc]
          exact .last (first _ _ (spaces_newLine depth _))
      | cons next others =>
          rw [List.map_cons, List.map_cons, List.map_cons, List.map_cons,
            List.intercalate_cons_cons, List.append_assoc, List.append_assoc,
            List.append_assoc]
          exact .cons (first _ _ .none) (ih (List.cons_ne_nil _ _) later)

end

theorem element_line {json : Json} {depth : Nat} {behind rest : List Char}
    (inside : Grammar.Value (json.print depth ++ behind) json.value behind)
    (after : Spaces behind rest) :
    Element (newLine depth ++ (json.print depth ++ behind)) json.value rest :=
  .mk (spaces_newLine depth _) inside after

theorem member_line {field : String × Json} {depth : Nat}
    {behind rest : List Char}
    (inside : Grammar.Value
      (field.2.print depth ++ behind) field.2.value behind)
    (after : Spaces behind rest) :
    Member (newLine depth ++ (printField depth field ++ behind)) (field.1,
      field.2.value) rest := by
  rw [printField, List.append_assoc, List.append_assoc, quotedChars_append]
  have element :
      Element (' ' :: (field.2.print depth ++ behind)) field.2.value rest :=
    .mk (.cons (by decide) .none) inside after
  simpa using Member.mk (spaces_newLine depth _)
    (characters_flatMap field.1.toList _) .none element

theorem value_print (json : Json) (depth : Nat) (rest : List Char) :
    Grammar.Value (json.print depth ++ rest) json.value rest := by
  induction json generalizing depth rest with
  | text content =>
      rw [print, value, quotedChars_append]
      simpa using Grammar.Value.text (characters_flatMap content.toList rest)
  | list items each =>
      rw [value, itemValues_eq_map]
      cases items with
      | nil => exact .list (.empty .none)
      | cons item others =>
          rw [print, block_append, printItems_eq_map]
          · refine .list (.filled (series_lines (List.cons_ne_nil _ _) _ _ ?_))
            intro item member behind rest after
            exact element_line (each item member _ _) after
          · exact List.cons_ne_nil _ _
  | object fields each =>
      rw [value, fieldValues_eq_map]
      cases fields with
      | nil => exact .object (.empty .none)
      | cons field others =>
          rw [print, block_append, printFields_eq_map]
          · refine .object
              (.filled (series_lines (List.cons_ne_nil _ _) _ _ ?_))
            intro field member behind rest after
            exact member_line (each field member _ _) after
          · exact List.cons_ne_nil _ _

/-- A printed document, with the end of its last line, is read as its value and
as nothing else. -/
theorem document_pretty_iff {json : Json} {read : Value} :
    Document (json.pretty ++ "\n") read ↔ read = json.value := by
  have printed : Document (json.pretty ++ "\n") json.value := by
    rw [Document, String.toList_append, pretty, String.toList_ofList]
    exact .mk .none (value_print json 0 _) (.cons (by decide) .none)
  constructor
  · intro document
    exact document.unique printed
  · rintro rfl
    exact printed

end EdgeFilters.Json
