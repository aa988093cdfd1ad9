namespace EdgeFilters.Text

/-- The property White_Space. The zero width space, the byte order mark and the
four information separators do not have it. -/
def isBlank (c : Char) : Bool :=
  let code := c.toNat
  (0x09 ≤ code && code ≤ 0x0d) || code == 0x20 || code == 0x85 ||
    code == 0xa0 ||
    code == 0x1680 || (0x2000 ≤ code && code ≤ 0x200a) || code == 0x2028 ||
    code == 0x2029 || code == 0x202f || code == 0x205f || code == 0x3000

def trimLeft (text : List Char) : List Char :=
  text.dropWhile isBlank

def trimRight (text : List Char) : List Char :=
  (text.reverse.dropWhile isBlank).reverse

/-- A text without the blanks before its first and after its last
other character. -/
def trimChars (text : List Char) : List Char :=
  trimRight (trimLeft text)

def trim (text : String) : String :=
  .ofList (trimChars text.toList)

def isBlankText (text : String) : Bool :=
  (trim text).isEmpty

@[simp] theorem trimLeft_nil : trimLeft [] = [] := rfl

@[simp] theorem trimRight_nil : trimRight [] = [] := rfl

@[simp] theorem trimChars_nil : trimChars [] = [] := rfl

theorem trimLeft_eq_nil_iff {text : List Char} :
    trimLeft text = [] ↔ ∀ c ∈ text, isBlank c = true := by
  induction text with
  | nil => simp
  | cons c rest ih =>
      unfold trimLeft at ih ⊢
      rw [List.dropWhile_cons]
      by_cases blank : isBlank c = true <;> simp [blank, ih]

theorem trimRight_eq_nil_iff {text : List Char} :
    trimRight text = [] ↔ ∀ c ∈ text, isBlank c = true := by
  have reversed : trimLeft text.reverse = [] ↔
      ∀ c ∈ text.reverse, isBlank c = true :=
    trimLeft_eq_nil_iff
  rw [trimRight, List.reverse_eq_nil_iff]
  exact reversed.trans (by simp only [List.mem_reverse])

theorem not_isBlank_of_trimLeft_eq_cons {text rest : List Char} {c : Char}
    (kept : trimLeft text = c :: rest) : isBlank c = false := by
  induction text with
  | nil => simp at kept
  | cons d tail ih =>
      unfold trimLeft at ih kept
      rw [List.dropWhile_cons] at kept
      split at kept
      · exact ih kept
      · next stop =>
          cases kept
          simpa using stop

theorem trimChars_eq_nil_iff {text : List Char} :
    trimChars text = [] ↔ ∀ c ∈ text, isBlank c = true := by
  refine ⟨fun empty => ?_, fun blank => ?_⟩
  · rw [← trimLeft_eq_nil_iff]
    rw [trimChars, trimRight_eq_nil_iff] at empty
    cases kept : trimLeft text with
    | nil => rfl
    | cons c rest =>
        have blank := empty c (by simp [kept])
        simp [not_isBlank_of_trimLeft_eq_cons kept] at blank
  · rw [trimChars, trimLeft_eq_nil_iff.2 blank, trimRight_nil]

end EdgeFilters.Text
