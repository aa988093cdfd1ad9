import EdgeFilters.Yaml.Quoted
import Mathlib.Algebra.GroupWithZero.Nat

namespace EdgeFilters.Yaml

/-- From the space to the tilde. -/
def isPrintable (c : Char) : Bool := 0x20 ≤ c.toNat && c.toNat ≤ 0x7e

/-- The last `width` digits of a number. -/
def hex : Nat → Nat → List Char
  | 0, _ => []
  | width + 1, number =>
      hex width (number / 16) ++ [Nat.digitChar (number % 16)]

@[simp] theorem length_hex (width number : Nat) :
    (hex width number).length = width := by
  induction width generalizing number with
  | zero => rfl
  | succ width ih => rw [hex, List.length_append, ih, List.length_singleton]

theorem digit?_digitChar {digit : Nat} (small : digit < 16) :
    Text.digit? 16 (Nat.digitChar digit) = some digit := by
  revert digit
  decide

theorem isPrintable_digitChar {digit : Nat} (small : digit < 16) :
    isPrintable (Nat.digitChar digit) = true := by
  revert digit
  decide

theorem isPrintable_of_mem_hex {width number : Nat} {c : Char}
    (member : c ∈ hex width number) : isPrintable c = true := by
  induction width generalizing number with
  | zero => cases member
  | succ width ih =>
      rw [hex, List.mem_append, List.mem_singleton] at member
      cases member with
      | inl earlier => exact ih earlier
      | inr last =>
          rw [last]
          exact isPrintable_digitChar (Nat.mod_lt _ (by decide))

theorem digits?_append (base read : Nat) (front back : List Char) :
    Text.digits? base read (front ++ back) =
      (Text.digits? base read front).bind fun value =>
        Text.digits? base value back := by
  induction front generalizing read with
  | nil => rfl
  | cons c front ih =>
      simp only [List.cons_append, Text.digits?, Option.bind_eq_bind]
      cases Text.digit? base c with
      | none => rfl
      | some digit => exact ih _

theorem digits?_hex (width number : Nat) :
    Text.digits? 16 0 (hex width number) = some (number % 16 ^ width) := by
  induction width generalizing number with
  | zero => simp [hex, Text.digits?, Nat.mod_one]
  | succ width ih =>
      have digit := digit?_digitChar (Nat.mod_lt number (by decide : 0 < 16))
      rw [hex, digits?_append, ih]
      simp only [Option.bind_some, Text.digits?, digit, Option.bind_eq_bind]
      rw [Nat.pow_succ', Nat.mod_mul, Nat.add_comm]

theorem number?_hex {width number : Nat} (wide : 0 < width)
    (small : number < 16 ^ width) :
    Text.number? 16 (hex width number) = some number := by
  have filled : (hex width number).isEmpty = false := by
    rw [List.isEmpty_eq_false_iff, ← List.length_pos_iff, length_hex]
    exact wide
  rw [Text.number?, filled, digits?_hex, Nat.mod_eq_of_lt small]
  rfl

/-- The letter that says how many digits follow, and how many they are. -/
def escapeForm (c : Char) : Char × Nat :=
  if c.toNat < 0x100 then ('x', 2)
  else if c.toNat < 0x10000 then ('u', 4)
  else ('U', 8)

/-- What follows the backslash of an escape. -/
def escapeBody (c : Char) : List Char :=
  if c = '"' ∨ c = '\\' then [c]
  else (escapeForm c).1 :: hex (escapeForm c).2 c.toNat

/-- The character stands for itself between double quotes. -/
def isLiteral (c : Char) : Bool := isPrintable c && c != '"' && c != '\\'

def escape (c : Char) : List Char :=
  if isLiteral c then [c] else '\\' :: escapeBody c

def quoted (text : String) : List Char :=
  '"' :: (text.toList.flatMap escape ++ ['"'])

theorem unescape?_hex {letter c : Char} {width : Nat} (rest : List Char)
    (single : Quoted.letter? letter = none)
    (form : Quoted.hexWidth? letter = some width) (wide : 0 < width)
    (small : c.toNat < 16 ^ width) :
    Quoted.unescape? (letter :: (hex width c.toNat ++ rest)) =
      some (c, width + 1) := by
  have digits : (hex width c.toNat ++ rest).take width = hex width c.toNat := by
    rw [List.take_left' (length_hex _ _)]
  have valid : c.toNat.isValidChar := c.valid
  simp [Quoted.unescape?, single, form, digits, number?_hex wide small,
    Quoted.character?, valid]

theorem unescape?_escapeBody (c : Char) (rest : List Char) :
    Quoted.unescape? (escapeBody c ++ rest) =
      some (c, (escapeBody c).length) := by
  unfold escapeBody
  split
  · next plain => rcases plain with rfl | rfl <;> rfl
  · unfold escapeForm
    have small : c.toNat < 16 ^ 8 := by
      have valid : c.toNat.isValidChar := c.valid
      unfold Nat.isValidChar at valid
      omega
    split
    · next small => simpa using unescape?_hex rest rfl rfl (by decide) small
    · split
      · next small => simpa using unescape?_hex rest rfl rfl (by decide) small
      · simpa using unescape?_hex rest rfl rfl (by decide) small

theorem isPrintable_of_mem_escapeBody {c d : Char} (member : d ∈ escapeBody c) :
    isPrintable d = true := by
  unfold escapeBody at member
  split at member
  · next plain =>
      rw [List.mem_singleton] at member
      rcases plain with rfl | rfl <;> rw [member] <;> decide
  · cases member with
    | head =>
        unfold escapeForm
        split
        · decide
        · split <;> decide
    | tail _ later => exact isPrintable_of_mem_hex later

theorem isPrintable_of_mem_escape {c d : Char} (member : d ∈ escape c) :
    isPrintable d = true := by
  unfold escape at member
  split at member
  · next literal =>
      rw [List.mem_singleton] at member
      rw [member]
      simp only [isLiteral, Bool.and_eq_true] at literal
      exact literal.1.1
  · cases member with
    | head => decide
    | tail _ later => exact isPrintable_of_mem_escapeBody later

theorem isPrintable_of_mem_quoted {text : String} {c : Char}
    (member : c ∈ quoted text) : isPrintable c = true := by
  unfold quoted at member
  rw [List.mem_cons, List.mem_append, List.mem_singleton] at member
  rcases member with rfl | inside | rfl
  · decide
  · obtain ⟨d, -, escaped⟩ := List.mem_flatMap.1 inside
    exact isPrintable_of_mem_escape escaped
  · decide

theorem isBreak_of_isPrintable {c : Char} (printable : isPrintable c = true) :
    isBreak c = false := by
  rw [Bool.eq_false_iff]
  intro broken
  simp only [isBreak, Bool.or_eq_true, beq_iff_eq] at broken
  rcases broken with (rfl | rfl) | rfl <;> revert printable <;> decide

theorem isSpace_of_isPrintable {c : Char} (printable : isPrintable c = true) :
    isSpace c = (c == ' ') := by
  have noTab : (c == '\t') = false := by
    rw [beq_eq_false_iff_ne]
    rintro rfl
    revert printable
    decide
  rw [isSpace, noTab, Bool.or_false]

/-- A line goes on with printable characters, each of one octet. -/
theorem Mark.after_of_isPrintable {text : List Char}
    (printable : ∀ c ∈ text, isPrintable c = true) (mark : Mark) :
    mark.after text =
      ⟨mark.line, mark.column + text.length, mark.octets + text.length⟩ := by
  induction text generalizing mark with
  | nil => rfl
  | cons c text ih =>
      obtain ⟨first, others⟩ := List.forall_mem_cons.1 printable
      have octet : c.utf8Size = 1 := by
        simp only [isPrintable, Bool.and_eq_true, decide_eq_true_eq] at first
        exact Char.utf8Size_eq_one_iff.2
          (UInt32.le_iff_toNat_le.2 (Nat.le_succ_of_le first.2))
      rw [Mark.after_cons,
        Mark.next_of_not_isBreak (isBreak_of_isPrintable first), ih others,
        octet, List.length_cons]
      simp only [Mark.mk.injEq, true_and]
      omega

variable {mark : Mark} {read spaces : List Char}

theorem atDocumentMarker_of_column (inside : 0 < mark.column)
    (text : List Char) : atDocumentMarker mark text = false := by
  have column : (mark.column == 0) = false := by
    rw [beq_eq_false_iff_ne]
    omega
  simp [atDocumentMarker, isDocumentMarker, column]

theorem Quoted.double_space (rest : List Char) :
    Quoted.double mark read (.within spaces) (' ' :: rest) =
      Quoted.double (mark.next ' ') read (.within (spaces ++ [' '])) rest := by
  rw [Quoted.double]
  rfl

theorem Quoted.double_literal {c : Char} (literal : isLiteral c = true)
    (visible : c ≠ ' ') (inside : 0 < mark.column) (rest : List Char) :
    Quoted.double mark read (.within spaces) (c :: rest) =
      Quoted.double (mark.next c)
        (c :: (spaces.reverse ++ read)) .empty rest := by
  simp only [isLiteral, Bool.and_eq_true, bne_iff_ne] at literal
  obtain ⟨⟨printable, noQuote⟩, noBackslash⟩ := literal
  rw [Quoted.double]
  simp [isBreak_of_isPrintable printable,
    isSpace_of_isPrintable printable, visible,
    atDocumentMarker_of_column inside, noQuote, noBackslash, Gap.text]

theorem not_isBreak_head_escapeBody (c : Char) (rest : List Char) :
    (escapeBody c ++ rest).head?.any isBreak = false := by
  cases body : escapeBody c with
  | nil =>
      unfold escapeBody at body
      split at body <;> cases body
  | cons d tail =>
      have member : d ∈ escapeBody c := body ▸ List.mem_cons_self
      exact isBreak_of_isPrintable (isPrintable_of_mem_escapeBody member)

theorem Quoted.double_escaped (inside : 0 < mark.column) (c : Char)
    (rest : List Char) :
    Quoted.double mark read (.within spaces) ('\\' :: (escapeBody c ++ rest)) =
      Quoted.double (mark.after ('\\' :: escapeBody c))
        (c :: (spaces.reverse ++ read)) .empty
        rest := by
  have unbroken := not_isBreak_head_escapeBody c rest
  have decoded := unescape?_escapeBody c rest
  have taken : (escapeBody c ++ rest).take (escapeBody c).length =
      escapeBody c := List.take_left
  have left : (escapeBody c ++ rest).drop (escapeBody c).length = rest :=
    List.drop_left
  generalize escapeBody c ++ rest = text at *
  rw [Quoted.double]
  simp [show isBreak '\\' = false from rfl, show isSpace '\\' = false from rfl,
    atDocumentMarker_of_column inside, unbroken, decoded, taken, left, Gap.text]

theorem Quoted.double_quote (inside : 0 < mark.column) (rest : List Char) :
    Quoted.double mark read (.within spaces) ('"' :: rest) =
      .ok (.ofList (read.reverse ++ spaces), ⟨mark.next '"', rest⟩) := by
  rw [Quoted.double]
  simp [show isBreak '"' = false from rfl, show isSpace '"' = false from rfl,
    atDocumentMarker_of_column inside, Gap.text]

/-- The characters between the quotes are read one by one; blanks wait in the
gap for the next. -/
theorem Quoted.double_escapes (text rest : List Char)
    (inside : 0 < mark.column) :
    Quoted.double mark read (.within spaces)
      (text.flatMap escape ++ '"' :: rest) =
      .ok (.ofList (read.reverse ++ spaces ++ text),
        ⟨mark.after (text.flatMap escape ++ ['"']), rest⟩) := by
  induction text generalizing mark read spaces with
  | nil => simpa using Quoted.double_quote inside rest
  | cons c text ih =>
      have further : 0 < (mark.after (escape c)).column := by
        rw [Mark.after_of_isPrintable fun d => isPrintable_of_mem_escape]
        exact Nat.lt_add_right _ inside
      rw [List.flatMap_cons, List.append_assoc, List.append_assoc,
        Mark.after_append]
      by_cases blank : c = ' '
      · subst blank
        have literal : escape ' ' = [' '] := by decide
        rw [literal] at further ⊢
        exact (Quoted.double_space _).trans
          ((ih further).trans (by simp [Mark.after_append]))
      · have read_escape : Quoted.double mark read (.within spaces)
            (escape c ++ (text.flatMap escape ++ '"' :: rest)) =
            Quoted.double (mark.after (escape c))
              (c :: (spaces.reverse ++ read)) .empty
              (text.flatMap escape ++ '"' :: rest) := by
          unfold escape
          split
          · next literal => exact Quoted.double_literal literal blank inside _
          · exact Quoted.double_escaped inside c _
        rw [read_escape]
        exact (ih further).trans (by simp [Mark.after_append])

theorem Quoted.double_quoted (mark : Mark) (text : String) (rest : List Char) :
    Quoted.double (mark.next '"') [] .empty
      (text.toList.flatMap escape ++ '"' :: rest) =
      .ok (text, ⟨mark.after (quoted text), rest⟩) := by
  have inside : 0 < (mark.next '"').column := Nat.succ_pos _
  have behind : Quoted.double (mark.next '"') [] .empty
      (text.toList.flatMap escape ++ '"' :: rest) =
        .ok (.ofList ([].reverse ++ [] ++ text.toList), _) :=
    Quoted.double_escapes text.toList rest inside
  simpa [quoted] using behind

end EdgeFilters.Yaml
