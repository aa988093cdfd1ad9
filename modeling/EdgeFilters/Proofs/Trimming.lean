import EdgeFilters.Text.Blank
import Mathlib.Data.List.DropRight
import Mathlib.Data.List.TakeWhile

namespace EdgeFilters.Text

variable {before text after : List Char}

structure Trimmed (text : List Char) : Prop where
  head : ∀ c ∈ text.head?, isBlank c = false
  last : ∀ c ∈ text.getLast?, isBlank c = false

theorem trimRight_eq_rdropWhile (text : List Char) :
    trimRight text = text.rdropWhile isBlank := rfl

theorem trimLeft_of_head (head : ∀ c ∈ text.head?, isBlank c = false) :
    trimLeft text = text := by
  cases text with
  | nil => rfl
  | cons c rest =>
      rw [trimLeft, List.dropWhile_cons_of_neg (by simp [head c rfl])]

theorem trimRight_of_last (last : ∀ c ∈ text.getLast?, isBlank c = false) :
    trimRight text = text := by
  rw [trimRight_eq_rdropWhile, List.rdropWhile_eq_self_iff]
  intro filled blank
  have stop := last _ (List.getLast?_eq_some_getLast filled)
  rw [stop] at blank
  contradiction

theorem trimLeft_append_of_blank (blank : ∀ c ∈ before, isBlank c = true)
    (text : List Char) : trimLeft (before ++ text) = trimLeft text :=
  List.dropWhile_append_of_pos blank

theorem trimRight_append_of_blank (blank : ∀ c ∈ after, isBlank c = true)
    (text : List Char) : trimRight (text ++ after) = trimRight text := by
  have turned : ∀ c ∈ after.reverse, isBlank c = true :=
    fun c member => blank c (List.mem_reverse.1 member)
  rw [trimRight, List.reverse_append, List.dropWhile_append_of_pos turned,
    trimRight]

theorem trimChars_padded (blankBefore : ∀ c ∈ before, isBlank c = true)
    (blankAfter : ∀ c ∈ after, isBlank c = true) (trimmed : Trimmed text)
    (filled : text ≠ []) : trimChars (before ++ text ++ after) = text := by
  have head : ∀ c ∈ (text ++ after).head?, isBlank c = false := by
    obtain ⟨c, rest, rfl⟩ := List.exists_cons_of_ne_nil filled
    exact trimmed.head
  rw [trimChars, List.append_assoc, trimLeft_append_of_blank blankBefore,
    trimLeft_of_head head, trimRight_append_of_blank blankAfter,
    trimRight_of_last trimmed.last]

theorem trimChars_isPrefix (text : List Char) :
    trimChars text <+: trimLeft text :=
  List.rdropWhile_prefix isBlank (trimLeft text)

theorem trimChars_isInfix (text : List Char) : trimChars text <:+: text :=
  (trimChars_isPrefix text).isInfix.trans
    (List.dropWhile_suffix isBlank).isInfix

theorem mem_trimChars {c : Char} (member : c ∈ text)
    (visible : isBlank c = false) : c ∈ trimChars text := by
  have keep : ∀ {chars : List Char}, c ∈ chars →
      c ∈ chars.dropWhile isBlank := by
    intro chars inside
    rw [← chars.takeWhile_append_dropWhile (p := isBlank), List.mem_append]
      at inside
    rcases inside with skipped | kept
    · rw [List.mem_takeWhile_imp skipped] at visible
      contradiction
    · exact kept
  have left : c ∈ trimLeft text := keep member
  exact List.mem_reverse.2 (keep (List.mem_reverse.2 left))

theorem trimmed_trimChars (text : List Char) : Trimmed (trimChars text) where
  head := by
    intro c found
    obtain ⟨after, whole⟩ := trimChars_isPrefix text
    cases kept : trimChars text with
    | nil => simp [kept] at found
    | cons d rest =>
        rw [kept] at found whole
        cases found
        exact not_isBlank_of_trimLeft_eq_cons whole.symm
  last := by
    intro c found
    have filled : trimChars text ≠ [] := by
      rintro empty
      simp [empty] at found
    rw [List.getLast?_eq_some_getLast filled] at found
    cases found
    exact Bool.eq_false_iff.2
      (List.rdropWhile_last_not isBlank (trimLeft text) filled)

theorem trimmed_iff : Trimmed text ↔ trimChars text = text := by
  constructor
  · intro trimmed
    rw [trimChars, trimLeft_of_head trimmed.head,
      trimRight_of_last trimmed.last]
  · intro same
    rw [← same]
    exact trimmed_trimChars text

end EdgeFilters.Text
