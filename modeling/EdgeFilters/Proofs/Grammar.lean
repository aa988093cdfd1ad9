import EdgeFilters.Text.Digit
import EdgeFilters.Json
import Mathlib.Data.List.Basic

/-! What stands at the beginning of a text, as a document and as a value, with
the rest behind it. -/

namespace EdgeFilters.Json

/-- What a document stands for. A number is kept as it is spelled, and an object
keeps its fields in order, repeated ones too. -/
inductive Value where
  | null
  | boolean (truth : Bool)
  | number (spelling : String)
  | text (content : String)
  | list (items : List Value)
  | object (fields : List (String × Value))

namespace Value

@[induction_eliminator]
theorem induction {motive : Value → Prop} (null : motive .null)
    (boolean : ∀ truth, motive (.boolean truth))
    (number : ∀ spelling, motive (.number spelling))
    (text : ∀ content, motive (.text content))
    (list : ∀ items, (∀ item ∈ items, motive item) → motive (.list items))
    (object : ∀ fields, (∀ field ∈ fields, motive field.2) →
      motive (.object fields)) :
    ∀ value, motive value
  | .null => null
  | .boolean truth => boolean truth
  | .number spelling => number spelling
  | .text content => text content
  | .list items =>
      list items fun item _ =>
        induction null boolean number text list object item
  | .object fields =>
      object fields fun field _ =>
        induction null boolean number text list object field.2
termination_by value => sizeOf value
decreasing_by
  · have smaller := List.sizeOf_lt_of_mem ‹item ∈ items›
    simp only [Value.list.sizeOf_spec]
    omega
  · have smaller := List.sizeOf_lt_of_mem ‹field ∈ fields›
    obtain ⟨name, value⟩ := field
    simp only [Value.object.sizeOf_spec, Prod.mk.sizeOf_spec] at smaller ⊢
    omega

end Value

namespace Grammar

def spaces : List Char := [' ', '\t', '\n', '\r']

inductive Spaces : List Char → List Char → Prop
  | none {rest : List Char} : Spaces rest rest
  | cons {c : Char} {text rest : List Char} (space : c ∈ spaces)
      (more : Spaces text rest) :
      Spaces (c :: text) rest

/-- The letters behind a backslash, and the characters that they stand for. -/
def letters : List (Char × Char) :=
  [('"', '"'), ('\\', '\\'), ('/', '/'), ('b', '\x08'), ('f', '\x0c'),
   ('n', '\n'), ('r', '\r'), ('t', '\t')]

/-- The code of a character past U+FFFF is cut in two halves, each with a range
of its own where no character is. -/
structure Halves (high low : Nat) (c : Char) : Prop where
  leading : 0xd800 ≤ high ∧ high < 0xdc00
  trailing : 0xdc00 ≤ low ∧ low < 0xe000
  code : c.toNat = 0x10000 + (high - 0xd800) * 0x400 + (low - 0xdc00)

inductive Character : List Char → Char → List Char → Prop
  | plain {c : Char} {rest : List Char} (printed : 0x20 ≤ c.toNat)
      (noQuote : c ≠ '"') (noBackslash : c ≠ '\\') :
      Character (c :: rest) c rest
  | letter {letter c : Char} {rest : List Char}
      (known : letters.lookup letter = some c) :
      Character ('\\' :: letter :: rest) c rest
  | code {d₁ d₂ d₃ d₄ c : Char} {rest : List Char}
      (digits : Text.number? 16 [d₁, d₂, d₃, d₄] = some c.toNat) :
      Character ('\\' :: 'u' :: d₁ :: d₂ :: d₃ :: d₄ :: rest) c rest
  | codes {d₁ d₂ d₃ d₄ e₁ e₂ e₃ e₄ c : Char} {high low : Nat} {rest : List Char}
      (first : Text.number? 16 [d₁, d₂, d₃, d₄] = some high)
      (second : Text.number? 16 [e₁, e₂, e₃, e₄] = some low)
      (halves : Halves high low c) :
      Character
        ('\\' :: 'u' :: d₁ :: d₂ :: d₃ :: d₄ :: '\\' :: 'u' :: e₁ :: e₂ :: e₃ ::
          e₄ :: rest) c rest

/-- Characters up to the closing quote. -/
inductive Characters : List Char → List Char → List Char → Prop
  | close {rest : List Char} : Characters ('"' :: rest) [] rest
  | cons {text behind content rest : List Char} {c : Char}
      (first : Character text c behind)
      (others : Characters behind content rest) :
      Characters text (c :: content) rest

def IsDigits (text : List Char) : Prop :=
  text ≠ [] ∧ ∀ c ∈ text, c.isDigit = true

/-- No zero leads further digits. -/
def IsWhole (text : List Char) : Prop :=
  text = ['0'] ∨ IsDigits text ∧ text.head? ≠ some '0'

def IsFraction (text : List Char) : Prop :=
  text = [] ∨ ∃ digits, IsDigits digits ∧ text = '.' :: digits

def IsExponent (text : List Char) : Prop :=
  text = [] ∨ ∃ letter ∈ ['e', 'E'], ∃ sign ∈ [[], ['+'], ['-']], ∃ digits,
    IsDigits digits ∧ text = letter :: (sign ++ digits)

structure Number (sign whole fraction exponent : List Char) : Prop where
  sign : sign = [] ∨ sign = ['-']
  whole : IsWhole whole
  fraction : IsFraction fraction
  exponent : IsExponent exponent

def IsNumber (text : List Char) : Prop :=
  ∃ sign whole fraction exponent, Number sign whole fraction exponent ∧
    text = sign ++ (whole ++ (fraction ++ exponent))

section

variable {α : Type} (part : List Char → α → List Char → Prop)

inductive Series : List Char → List α → List Char → Prop
  | last {text rest : List Char} {item : α} (only : part text item rest) :
      Series text [item] rest
  | cons {text behind rest : List Char} {item : α} {items : List α}
      (first : part text item (',' :: behind))
      (others : Series behind items rest) :
      Series text (item :: items) rest

/-- Spaces alone or a series of parts, and the mark that closes it. -/
inductive Inside (closing : Char) : List Char → List α → List Char → Prop
  | empty {rest text : List Char} (spaces : Spaces text (closing :: rest)) :
      Inside closing text [] rest
  | filled {items : List α} {rest text : List Char}
      (series : Series part text items (closing :: rest)) :
      Inside closing text items rest

end

mutual

inductive Value : List Char → Json.Value → List Char → Prop
  | null {rest : List Char} :
      Value ('n' :: 'u' :: 'l' :: 'l' :: rest) .null rest
  | yes {rest : List Char} :
      Value ('t' :: 'r' :: 'u' :: 'e' :: rest) (.boolean true) rest
  | no {rest : List Char} :
      Value ('f' :: 'a' :: 'l' :: 's' :: 'e' :: rest) (.boolean false) rest
  | number {text spelling rest : List Char} (number : IsNumber spelling)
      (layout : text = spelling ++ rest) :
      Value text (.number (.ofList spelling)) rest
  | text {text content rest : List Char}
      (characters : Characters text content rest) :
      Value ('"' :: text) (.text (.ofList content)) rest
  | list {text rest : List Char} {items : List Json.Value}
      (inside : Inside Element ']' text items rest) :
      Value ('[' :: text) (.list items) rest
  | object {text rest : List Char} {fields : List (String × Json.Value)}
      (inside : Inside Member '\x7d' text fields rest) :
      Value ('\x7b' :: text) (.object fields) rest

inductive Element : List Char → Json.Value → List Char → Prop
  | mk {text start stop rest : List Char} {value : Json.Value}
      (before : Spaces text start)
      (inside : Value start value stop) (after : Spaces stop rest) :
      Element text value rest

inductive Member : List Char → String × Json.Value → List Char → Prop
  | mk {text start name stop behind rest : List Char} {value : Json.Value}
      (before : Spaces text ('"' :: start))
      (characters : Characters start name stop)
      (after : Spaces stop (':' :: behind))
      (element : Element behind value rest) :
      Member text (.ofList name, value) rest

end

/-- The text is empty or begins with such a character. -/
def Begins (property : Char → Prop) (text : List Char) : Prop :=
  ∀ c ∈ text.head?, property c

@[simp] theorem begins_nil (property : Char → Prop) :
    Begins property [] := by simp [Begins]

@[simp] theorem begins_cons {property : Char → Prop} {c : Char}
    {text : List Char} :
    Begins property (c :: text) ↔ property c := by simp [Begins]

theorem Begins.mono {property other : Char → Prop} {text : List Char}
    (begins : Begins property text) (weaker : ∀ c, property c → other c) :
    Begins other text :=
  fun c first => weaker c (begins c first)

def closers : List Char := [']', '\x7d']

def separators : List Char := ',' :: closers

def isNumeric (c : Char) : Bool :=
  c.isDigit || ['-', '+', '.', 'e', 'E'].contains c

/-- The characters that values begin with. -/
def opens (c : Char) : Bool :=
  isNumeric c || ['n', 't', 'f', '"', '[', '\x7b'].contains c

theorem opens_of_isNumeric {c : Char} (numeric : isNumeric c = true) :
    opens c = true := by
  rw [opens, numeric, Bool.true_or]

theorem not_opens {c : Char} (apart : c ∈ spaces ++ separators) :
    ¬ opens c = true := by
  have all : (spaces ++ separators).all (!opens ·) = true := by decide
  simpa using List.all_eq_true.1 all c apart

theorem not_mem_spaces {c : Char} (separator : c ∈ separators) :
    c ∉ spaces := by
  have apart : separators.all (!spaces.contains ·) = true := by decide
  simpa using List.all_eq_true.1 apart c separator

section

variable {text rest other : List Char}

theorem IsDigits.isNumeric (digits : IsDigits text) :
    ∀ c ∈ text, isNumeric c = true := by
  intro c member
  rw [Grammar.isNumeric, digits.2 c member, Bool.true_or]

theorem IsWhole.isDigits (whole : IsWhole text) : IsDigits text := by
  rcases whole with rfl | ⟨digits, -⟩
  · exact ⟨by simp, List.forall_mem_singleton.2 rfl⟩
  · exact digits

theorem IsFraction.isNumeric (fraction : IsFraction text) :
    ∀ c ∈ text, isNumeric c = true := by
  rcases fraction with rfl | ⟨digits, all, rfl⟩
  · simp
  · exact List.forall_mem_cons.2 ⟨by decide, all.isNumeric⟩

theorem IsExponent.isNumeric (exponent : IsExponent text) :
    ∀ c ∈ text, isNumeric c = true := by
  rcases exponent with rfl | ⟨letter, known, sign, signs, digits, all, rfl⟩
  · simp
  · have marked : ['e', 'E'].all Grammar.isNumeric = true := by decide
    have signed : [[], ['+'], ['-']].all (·.all Grammar.isNumeric) = true := by
      decide
    exact List.forall_mem_cons.2 ⟨List.all_eq_true.1 marked letter known,
      List.forall_mem_append.2
        ⟨List.all_eq_true.1 (List.all_eq_true.1 signed sign signs),
          all.isNumeric⟩⟩

theorem IsNumber.isNumeric (number : IsNumber text) :
    ∀ c ∈ text, isNumeric c = true := by
  obtain ⟨sign, whole, fraction, exponent, parts, rfl⟩ := number
  simp only [List.forall_mem_append]
  refine ⟨?_, parts.whole.isDigits.isNumeric, parts.fraction.isNumeric,
    parts.exponent.isNumeric⟩
  rcases parts.sign with rfl | rfl
  · simp
  · exact List.forall_mem_singleton.2 rfl

theorem IsNumber.ne_nil (number : IsNumber text) : text ≠ [] := by
  obtain ⟨sign, whole, fraction, exponent, parts, rfl⟩ := number
  simp [parts.whole.isDigits.1]

theorem IsNumber.isNumeric_head {spelling : List Char} {c : Char}
    (number : IsNumber spelling) (layout : c :: text = spelling ++ rest) :
    Grammar.isNumeric c = true := by
  obtain ⟨first, others, rfl⟩ := List.exists_cons_of_ne_nil number.ne_nil
  obtain ⟨rfl, -⟩ := List.cons.inj layout
  exact number.isNumeric c List.mem_cons_self

theorem Value.begins {value : Json.Value} (read : Value text value rest) :
    Begins (opens · = true) text := by
  cases read with
  | number number layout =>
      obtain ⟨c, others, rfl⟩ := List.exists_cons_of_ne_nil number.ne_nil
      rw [layout, List.cons_append, begins_cons]
      exact opens_of_isNumeric (number.isNumeric c List.mem_cons_self)
  | _ => exact begins_cons.2 (by decide)

/-- Behind spaces too, a separator does not go on with a number. -/
theorem Spaces.begins (read : Spaces text rest)
    (separated : Begins (· ∈ separators) rest) :
    Begins (¬ isNumeric · = true) text := by
  have apart : ∀ c ∈ spaces ++ separators, ¬ isNumeric c = true :=
    fun c member numeric => not_opens member (opens_of_isNumeric numeric)
  cases read with
  | none =>
      exact separated.mono fun c member =>
        apart c (List.mem_append_right _ member)
  | cons space => exact begins_cons.2 (apart _ (List.mem_append_left _ space))

theorem Spaces.unique (first : Spaces text rest) (second : Spaces text other)
    (stops : Begins (· ∉ spaces) rest) (stops' : Begins (· ∉ spaces) other) :
    rest = other := by
  induction first with
  | none =>
      cases second with
      | none => rfl
      | cons space => exact (begins_cons.1 stops space).elim
  | cons space _ ih =>
      cases second with
      | none => exact (begins_cons.1 stops' space).elim
      | cons _ more => exact ih more stops

theorem Spaces.unique_cons {c d : Char} (first : Spaces text (c :: rest))
    (second : Spaces text (d :: other)) (solid : c ∉ spaces)
    (solid' : d ∉ spaces) : c = d ∧ rest = other :=
  List.cons.inj
    (first.unique second (begins_cons.2 solid) (begins_cons.2 solid'))

theorem Halves.not_number {digits : List Char} {high low : Nat} {c d : Char}
    (halves : Halves high low c) (first : Text.number? 16 digits = some high) :
    Text.number? 16 digits ≠ some d.toNat := by
  intro same
  obtain rfl := Option.some.inj (first.symm.trans same)
  have valid : d.toNat.isValidChar := d.valid
  obtain ⟨above, below⟩ := halves.leading
  rcases valid with low | ⟨high, -⟩ <;> omega

theorem Character.unique {c d : Char} (first : Character text c rest)
    (second : Character text d other) : c = d ∧ rest = other := by
  have single : letters.lookup 'u' = none := rfl
  cases first with
  | plain _ _ noBackslash =>
      cases second with
      | plain => exact ⟨rfl, rfl⟩
      | _ => exact (noBackslash rfl).elim
  | letter known =>
      cases second with
      | plain _ _ noBackslash => exact (noBackslash rfl).elim
      | letter known' => exact ⟨Option.some.inj (known.symm.trans known'), rfl⟩
      | _ => simp [single] at known
  | code digits =>
      cases second with
      | plain _ _ noBackslash => exact (noBackslash rfl).elim
      | letter known => simp [single] at known
      | code digits' =>
          exact ⟨Char.toNat_inj.1 (Option.some.inj (digits.symm.trans digits')),
            rfl⟩
      | codes first _ halves => exact (halves.not_number first digits).elim
  | codes high low halves =>
      cases second with
      | plain _ _ noBackslash => exact (noBackslash rfl).elim
      | letter known => simp [single] at known
      | code digits => exact (halves.not_number high digits).elim
      | codes high' low' halves' =>
          obtain rfl := Option.some.inj (high.symm.trans high')
          obtain rfl := Option.some.inj (low.symm.trans low')
          exact ⟨Char.toNat_inj.1 (halves.code.trans halves'.code.symm), rfl⟩

theorem Character.ne_quote {c d : Char} (read : Character (d :: text) c rest) :
    d ≠ '"' := by
  cases read with
  | plain _ noQuote => exact noQuote
  | _ => decide

theorem Characters.unique {content content' : List Char}
    (first : Characters text content rest)
    (second : Characters text content' other) :
    content = content' ∧ rest = other := by
  induction first generalizing content' with
  | close =>
      cases second with
      | close => exact ⟨rfl, rfl⟩
      | cons character => exact (character.ne_quote rfl).elim
  | cons character _ ih =>
      cases second with
      | close => exact (character.ne_quote rfl).elim
      | cons character' others =>
          obtain ⟨rfl, rfl⟩ := character.unique character'
          obtain ⟨rfl, rfl⟩ := ih others
          exact ⟨rfl, rfl⟩

theorem takeWhile_isNumeric (numeric : ∀ c ∈ text, isNumeric c = true)
    (stops : Begins (¬ isNumeric · = true) rest) :
    (text ++ rest).takeWhile isNumeric = text := by
  rw [List.takeWhile_append_of_pos numeric]
  cases rest with
  | nil => simp
  | cons c rest =>
      rw [List.takeWhile_cons_of_neg (begins_cons.1 stops), List.append_nil]

theorem IsNumber.unique {spelling spelling' : List Char}
    (number : IsNumber spelling) (number' : IsNumber spelling')
    (same : spelling ++ rest = spelling' ++ other)
    (stops : Begins (¬ Grammar.isNumeric · = true) rest)
    (stops' : Begins (¬ Grammar.isNumeric · = true) other) :
    spelling = spelling' ∧ rest = other := by
  have spelled : spelling = spelling' := by
    rw [← takeWhile_isNumeric number.isNumeric stops, same,
      takeWhile_isNumeric number'.isNumeric stops']
  subst spelled
  exact ⟨rfl, List.append_cancel_left same⟩

theorem Value.exists_number {value : Json.Value} {spelling : List Char}
    (read : Value (spelling ++ rest) value other) (number : IsNumber spelling) :
    ∃ spelling', IsNumber spelling' ∧ spelling ++ rest = spelling' ++ other ∧
      value = .number (.ofList spelling') := by
  generalize layout : spelling ++ rest = text at read
  cases read with
  | number number' layout' => exact ⟨_, number', layout', rfl⟩
  | _ => exact absurd (number.isNumeric_head layout.symm) (by decide)

end

section

variable {α : Type} {part : List Char → α → List Char → Prop}

/-- Where this item is read, no other item and no other rest are, among
rests that begin so. -/
def Unique (part : List Char → α → List Char → Prop) (stops : Char → Prop)
    (item : α) : Prop :=
  ∀ ⦃text rest other : List Char⦄ ⦃item' : α⦄, part text item rest →
    part text item' other →
    Begins stops rest → Begins stops other → item = item' ∧ rest = other

theorem Series.unique {items : List α}
    (each : ∀ item ∈ items, Unique part (· ∈ separators) item) :
    Unique (Series part) (· ∈ closers) items := by
  intro text rest other items' first second stops stops'
  have comma : ∀ behind, Begins (· ∈ separators) (',' :: behind) := by
    simp [separators]
  have closing : ∀ c ∈ closers, c ∈ separators :=
    fun c => List.mem_cons_of_mem _
  induction first generalizing items' with
  | last only =>
      have alone := each _ List.mem_cons_self
      cases second with
      | last only' =>
          obtain ⟨rfl, same⟩ :=
            alone only only' (stops.mono closing) (stops'.mono closing)
          exact ⟨rfl, same⟩
      | cons first' =>
          obtain ⟨-, rfl⟩ := alone only first' (stops.mono closing) (comma _)
          exact absurd (begins_cons.1 stops) (by decide)
  | cons first _ ih =>
      obtain ⟨alone, others⟩ := List.forall_mem_cons.1 each
      cases second with
      | last only' =>
          obtain ⟨-, rfl⟩ := alone first only' (comma _) (stops'.mono closing)
          exact absurd (begins_cons.1 stops') (by decide)
      | cons first' others' =>
          obtain ⟨rfl, same⟩ := alone first first' (comma _) (comma _)
          obtain ⟨-, rfl⟩ := List.cons.inj same
          obtain ⟨rfl, rfl⟩ := ih others others' stops
          exact ⟨rfl, rfl⟩

/-- No part begins with this mark, behind spaces or not. -/
def Excludes (part : List Char → α → List Char → Prop) (closing : Char) :
    Prop :=
  ∀ ⦃text rest other : List Char⦄ ⦃item : α⦄, part text item rest →
    ¬ Spaces text (closing :: other)

theorem Series.excludes {closing : Char} (excludes : Excludes part closing) :
    Excludes (Series part) closing := by
  intro text rest other items series
  cases series with
  | last only => exact excludes only
  | cons first => exact excludes first

theorem Inside.unique {closing : Char} {text rest other : List Char}
    {items items' : List α} (first : Inside part closing text items rest)
    (second : Inside part closing text items' other)
    (closes : closing ∈ closers) (excludes : Excludes part closing)
    (each : ∀ item ∈ items, Unique part (· ∈ separators) item) :
    items = items' ∧ rest = other := by
  have solid : closing ∉ spaces :=
    not_mem_spaces (List.mem_cons_of_mem _ closes)
  cases first with
  | empty spaces =>
      cases second with
      | empty spaces' => exact ⟨rfl, (spaces.unique_cons spaces' solid solid).2⟩
      | filled series => exact (Series.excludes excludes series spaces).elim
  | filled series =>
      cases second with
      | empty spaces => exact (Series.excludes excludes series spaces).elim
      | filled series' =>
          obtain ⟨rfl, same⟩ :=
            Series.unique each series series' (begins_cons.2 closes)
              (begins_cons.2 closes)
          exact ⟨rfl, (List.cons.inj same).2⟩

end

theorem Value.begins_solid {text rest : List Char} {value : Json.Value}
    (read : Value text value rest) : Begins (· ∉ spaces) text :=
  read.begins.mono fun _ opening space =>
    not_opens (List.mem_append_left _ space) opening

theorem Element.excludes {closing : Char} (closes : closing ∈ separators) :
    Excludes Element closing := by
  intro text rest other value element closed
  cases element with
  | mk before inside =>
      obtain rfl :=
        before.unique closed inside.begins_solid
          (begins_cons.2 (not_mem_spaces closes))
      exact not_opens (List.mem_append_right _ closes)
        (begins_cons.1 inside.begins)

theorem Member.excludes {closing : Char} (closes : closing ∈ separators) :
    Excludes Member closing := by
  intro text rest other field member closed
  cases member with
  | mk before =>
      obtain ⟨rfl, -⟩ :=
        before.unique_cons closed (by decide) (not_mem_spaces closes)
      exact absurd closes (by decide)

theorem Element.unique {value : Json.Value}
    (alone : Unique Value (¬ isNumeric · = true) value) :
    Unique Element (· ∈ separators) value := by
  intro text rest other value' first second stops stops'
  cases first with
  | mk before inside after =>
      cases second with
      | mk before' inside' after' =>
          obtain rfl :=
            before.unique before' inside.begins_solid inside'.begins_solid
          obtain ⟨rfl, rfl⟩ :=
            alone inside inside' (after.begins stops) (after'.begins stops')
          have same := after.unique after' (stops.mono fun _ => not_mem_spaces)
            (stops'.mono fun _ => not_mem_spaces)
          exact ⟨rfl, same⟩

theorem Member.unique {field : String × Json.Value}
    (alone : Unique Value (¬ isNumeric · = true) field.2) :
    Unique Member (· ∈ separators) field := by
  intro text rest other field' first second stops stops'
  cases first with
  | mk before characters after element =>
      cases second with
      | mk before' characters' after' element' =>
          obtain ⟨-, rfl⟩ := before.unique_cons before' (by decide) (by decide)
          obtain ⟨rfl, rfl⟩ := characters.unique characters'
          obtain ⟨-, rfl⟩ := after.unique_cons after' (by decide) (by decide)
          obtain ⟨rfl, rfl⟩ :=
            Element.unique alone element element' stops stops'
          exact ⟨rfl, rfl⟩

theorem Value.unique (value : Json.Value) :
    Unique Value (¬ isNumeric · = true) value := by
  intro text rest other value' first second stops stops'
  induction value generalizing text rest other value' with
  | null =>
      cases first
      cases second with
      | null => exact ⟨rfl, rfl⟩
      | number number layout =>
          exact absurd (number.isNumeric_head layout) (by decide)
  | boolean truth =>
      cases first with
      | yes =>
          cases second with
          | yes => exact ⟨rfl, rfl⟩
          | number number layout =>
              exact absurd (number.isNumeric_head layout) (by decide)
      | no =>
          cases second with
          | no => exact ⟨rfl, rfl⟩
          | number number layout =>
              exact absurd (number.isNumeric_head layout) (by decide)
  | number spelling =>
      cases first with
      | number number layout =>
          subst layout
          obtain ⟨spelling, number', same, rfl⟩ := second.exists_number number
          obtain ⟨rfl, rfl⟩ := number.unique number' same stops stops'
          exact ⟨rfl, rfl⟩
  | text content =>
      cases first with
      | text characters =>
          cases second with
          | number number layout =>
              exact absurd (number.isNumeric_head layout) (by decide)
          | text characters' =>
              obtain ⟨rfl, rfl⟩ := characters.unique characters'
              exact ⟨rfl, rfl⟩
  | list items each =>
      cases first with
      | list inside =>
          cases second with
          | number number layout =>
              exact absurd (number.isNumeric_head layout) (by decide)
          | list inside' =>
              obtain ⟨rfl, rfl⟩ :=
                inside.unique inside' (by decide) (Element.excludes (by decide))
                fun item member => Element.unique (each item member)
              exact ⟨rfl, rfl⟩
  | object fields each =>
      cases first with
      | object inside =>
          cases second with
          | number number layout =>
              exact absurd (number.isNumeric_head layout) (by decide)
          | object inside' =>
              obtain ⟨rfl, rfl⟩ :=
                inside.unique inside' (by decide) (Member.excludes (by decide))
                fun field member => Member.unique (each field member)
              exact ⟨rfl, rfl⟩

end Grammar

/-- The whole text spells the value, with spaces around it. -/
def Document (text : String) (value : Value) : Prop :=
  Grammar.Element text.toList value []

theorem Document.unique {text : String} {value value' : Value}
    (first : Document text value) (second : Document text value') :
    value = value' :=
  (Grammar.Element.unique (Grammar.Value.unique value) first second
    (Grammar.begins_nil _)
    (Grammar.begins_nil _)).1

end EdgeFilters.Json
