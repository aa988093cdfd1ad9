import EdgeFilters.Proofs.Parts
import EdgeFilters.Proofs.Rejoining
import Mathlib.Algebra.BigOperators.Group.List.Basic

namespace EdgeFilters

namespace Text

variable {delimiter leading trailing : Char} {text piece : List Char}

/-- A pass leaves one piece of a text that begins with its delimiter,
or ends with it. -/
theorem leads_or_trails (alone : pieces delimiter text = [piece])
    (inside : delimiter ∈ text) :
    (piece = text ∧ ∃ rest, text = delimiter :: rest ∧ delimiter ∉ rest) ∨
      (text = piece ++ [delimiter] ∧ IsPiece delimiter piece) := by
  obtain ⟨single, rfl | dropped⟩ := pieces_eq_singleton_iff.1 alone
  · obtain ⟨c, rest, rfl, free⟩ := single
    left
    rcases List.mem_cons.1 inside with rfl | behind
    · exact ⟨rfl, rest, rfl, free⟩
    · exact (free behind).elim
  · exact .inr ⟨dropped, single⟩

theorem enclosed_of_leads_of_trails {rest : List Char}
    (leads : text = leading :: rest) (free : leading ∉ rest)
    (trails : text = piece ++ [trailing]) (single : IsPiece trailing piece) :
    ∃ middle, text = leading :: (middle ++ [trailing]) ∧
      piece = leading :: middle ∧
      leading ∉ middle ∧ trailing ∉ middle := by
  obtain ⟨c, middle, rfl, behind⟩ := single
  rw [leads, List.cons_append] at trails
  obtain ⟨rfl, rfl⟩ := List.cons.inj trails
  exact ⟨middle, leads, rfl,
    fun member => free (List.mem_append_left _ member), behind⟩

end Text

namespace Condition

open Text (IsPiece Decomposes)

variable {text first second last middle : String}
  {operator leading trailing one other : Char} {condition : Condition}

theorem ne_of_occurring (both : occurring text = [one, other]) :
    one ≠ other := by
  have distinct := nodup_occurring text
  rw [both] at distinct
  simpa using distinct

theorem split_singleton_ne_nil (inside : operator ∈ text.toList) :
    Text.split text (String.singleton operator) ≠ [] := by
  intro empty
  rw [Text.split_singleton_eq_iff, List.map_nil, Text.pieces_eq_nil_iff]
    at empty
  rw [empty] at inside
  contradiction

theorem split_of_occurring (present : occurring text ≠ []) :
    Text.split text operators =
      (occurring text).flatMap fun operator =>
        Text.split text (String.singleton operator) := by
  unfold occurring at present ⊢
  simp only [Text.split_singleton]
  rw [Text.split, Text.splitChars, List.isEmpty_eq_false_iff.2 present,
    if_neg Bool.false_ne_true, List.map_flatMap]

theorem length_split_of_no_operator (absent : occurring text = []) :
    (Text.split text operators).length ≤ 1 := by
  unfold occurring at absent
  rw [Text.split, Text.splitChars, absent, List.isEmpty_nil, if_pos rfl,
    List.length_map]
  split
  · simp
  · simp

theorem length_occurring_le (text : String) :
    (occurring text).length ≤ (Text.split text operators).length := by
  by_cases present : occurring text = []
  · simp [present]
  · rw [split_of_occurring present, List.length_flatMap]
    have filled : ∀ count ∈ (occurring text).map fun operator =>
        (Text.split text (String.singleton operator)).length, 1 ≤ count := by
      intro count member
      obtain ⟨operator, found, rfl⟩ := List.mem_map.1 member
      exact List.length_pos_of_ne_nil
        (split_singleton_ne_nil (mem_occurring.1 found).2)
    have counted := List.length_le_sum_of_one_le _ filled
    rwa [List.length_map] at counted

theorem parse?_of_length (count : (Text.split text operators).length ≠ 2) :
    parse? text = none := by
  rw [Option.eq_none_iff_forall_ne_some]
  intro condition parsed
  obtain ⟨first, second, parts, -⟩ := parse?_eq_some_iff_split.1 parsed
  rw [parts] at count
  exact count rfl

theorem parse?_of_occurring (few : (occurring text).length ≠ 1)
    (many : (occurring text).length ≠ 2) : parse? text = none := by
  apply parse?_of_length
  have counted := length_occurring_le text
  by_cases absent : occurring text = []
  · have single := length_split_of_no_operator absent
    omega
  · have present := List.length_pos_of_ne_nil absent
    omega

theorem exists_occurring_of_parse? (parsed : parse? text = some condition) :
    (∃ operator, occurring text = [operator]) ∨ ∃ one other,
      occurring text = [one, other] := by
  by_cases single : (occurring text).length = 1
  · exact .inl (List.length_eq_one_iff.1 single)
  · by_cases both : (occurring text).length = 2
    · exact .inr (List.length_eq_two.1 both)
    · rw [parse?_of_occurring single both] at parsed
      contradiction

/-- The text is two parts around the operator, and perhaps one operator more. -/
structure Halves (operator : Char)
    (text first second last : String) : Prop where
  layout : text = first ++ String.singleton operator ++ second ++ last
  last : last = "" ∨ last = String.singleton operator
  inFront : IsPiece operator first.toList
  behind : IsPiece operator second.toList

theorem split_of_single (single : occurring text = [operator]) :
    Text.split text operators =
      Text.split text (String.singleton operator) := by
  rw [split_of_occurring (by simp [single]), single, List.flatMap_singleton]

theorem exists_halves_iff :
    (∃ last, Halves operator text first second last) ↔
      Decomposes operator text [first, second] := by
  constructor
  · rintro ⟨last, layout, rfl | rfl, inFront, behind⟩
    · refine ⟨by simp [inFront, behind], .inl ?_⟩
      simpa using layout
    · refine ⟨by simp [inFront, behind], .inr ⟨by simp, ?_⟩⟩
      simpa using layout
  · rintro ⟨singles, whole | ⟨-, dropped⟩⟩
    · refine ⟨"", ?_, .inl rfl, singles first (by simp),
        singles second (by simp)⟩
      simpa using whole
    · refine ⟨String.singleton operator, ?_, .inr rfl, singles first (by simp),
        singles second (by simp)⟩
      simpa using dropped

theorem parse?_of_single_iff (single : occurring text = [operator]) :
    parse? text = some condition ↔
      ∃ first second last, Halves operator text first second last ∧
        Text.trim first ≠ "" ∧
        Text.trim second ≠ "" ∧
          condition = ⟨Text.trim first, Text.trim second⟩ := by
  rw [parse?_eq_some_iff_split, split_of_single single]
  constructor
  · rintro ⟨first, second, parts, read⟩
    obtain ⟨last, halves⟩ :=
      exists_halves_iff.2 (Text.split_eq_iff_decomposes.1 parts)
    exact ⟨first, second, last, halves, read⟩
  · rintro ⟨first, second, last, halves, read⟩
    have decomposed := exists_halves_iff.1 ⟨last, halves⟩
    exact ⟨first, second, Text.split_eq_iff_decomposes.2 decomposed, read⟩

theorem Halves.unique {first' second' last' : String}
    (one : Halves operator text first second last)
    (other : Halves operator text first' second' last') :
    first = first' ∧ second = second' ∧ last = last' := by
  have parts := Text.split_eq_iff_decomposes.2 (exists_halves_iff.1 ⟨last, one⟩)
  have others :=
    Text.split_eq_iff_decomposes.2 (exists_halves_iff.1 ⟨last', other⟩)
  rw [parts, List.cons.injEq, List.cons.injEq] at others
  obtain ⟨rfl, rfl, -⟩ := others
  have layout := one.layout.symm.trans other.layout
  exact ⟨rfl, rfl, (String.append_right_inj _).1 layout⟩

/-- The text stands between two characters and holds no
operator between them. -/
structure Enclosed (leading : Char) (middle : String) (trailing : Char)
    (text : String) : Prop where
  layout : text = String.singleton leading ++ middle ++
    String.singleton trailing
  free : ∀ c ∈ middle.toList, c ∉ operators.toList

/-- What the pass of an operator leaves of a text between two: it drops the
trailing one, and cannot end a part at the leading one. -/
def passed (leading : Char) (middle text : String) (operator : Char) : String :=
  if operator = leading then text else String.singleton leading ++ middle

theorem append_eq_pair_iff {α : Type*} {front back : List α} {first second : α}
    (inFront : front ≠ []) (behind : back ≠ []) :
    front ++ back = [first, second] ↔ front = [first] ∧ back = [second] := by
  constructor
  · intro parts
    cases front with
    | nil => contradiction
    | cons head tail =>
        obtain ⟨rfl, rest⟩ := List.cons.inj parts
        rcases List.append_eq_singleton_iff.1 rest with ⟨rfl, rfl⟩ | ⟨-, empty⟩
        · exact ⟨rfl, rfl⟩
        · exact (behind empty).elim
  · rintro ⟨rfl, rfl⟩
    rfl

theorem split_of_pair (both : occurring text = [one, other]) :
    Text.split text operators = [first, second] ↔
      Text.split text (String.singleton one) = [first] ∧
        Text.split text (String.singleton other) = [second] := by
  have inside : one ∈ text.toList := (mem_occurring.1 (by simp [both])).2
  have present : other ∈ text.toList := (mem_occurring.1 (by simp [both])).2
  rw [split_of_occurring (by simp [both]), both, List.flatMap_cons,
    List.flatMap_singleton]
  exact append_eq_pair_iff (split_singleton_ne_nil inside)
    (split_singleton_ne_nil present)

namespace Enclosed

theorem toList_eq (enclosed : Enclosed leading middle trailing text) :
    text.toList = leading :: (middle.toList ++ [trailing]) := by
  simp [enclosed.layout]

theorem split_leading (enclosed : Enclosed leading middle trailing text)
    (known : leading ∈ operators.toList) (apart : leading ≠ trailing) :
    Text.split text (String.singleton leading) = [text] := by
  rw [Text.split_singleton_eq_iff]
  apply Text.pieces_of_isPiece
  rw [enclosed.toList_eq, Text.isPiece_cons_iff, List.mem_append,
    List.mem_singleton]
  rintro (inside | same)
  · exact enclosed.free leading inside known
  · exact apart same

theorem split_trailing (enclosed : Enclosed leading middle trailing text)
    (known : trailing ∈ operators.toList) :
    Text.split text (String.singleton trailing) =
      [String.singleton leading ++ middle] := by
  have single : IsPiece trailing (leading :: middle.toList) :=
    Text.isPiece_cons_iff.2 fun inside => enclosed.free trailing inside known
  have halves : text.toList = (leading :: middle.toList) ++ trailing :: [] :=
    enclosed.toList_eq
  rw [Text.split_singleton_eq_iff, halves, Text.pieces_cut single,
    Text.pieces_nil]
  simp

end Enclosed

theorem exists_enclosed {rest piece : List Char}
    (only : ∀ c ∈ occurring text, c = leading ∨ c = trailing)
    (leads : text.toList = leading :: rest) (free : leading ∉ rest)
    (trails : text.toList = piece ++ [trailing])
    (single : IsPiece trailing piece) :
    ∃ middle, Enclosed leading middle trailing text ∧
      piece = (String.singleton leading ++ middle).toList := by
  obtain ⟨middle, layout, rfl, ahead, behind⟩ :=
    Text.enclosed_of_leads_of_trails leads free trails single
  refine ⟨String.ofList middle, ⟨?_, ?_⟩, by simp⟩
  · rw [← String.toList_inj, layout]
    simp
  · intro c inside known
    rw [String.toList_ofList] at inside
    have stands : c ∈ text.toList := by
      rw [layout]
      exact List.mem_cons_of_mem _ (List.mem_append_left _ inside)
    rcases only c (mem_occurring.2 ⟨known, stands⟩) with rfl | rfl
    · exact ahead inside
    · exact behind inside

/-- If two operators leave a part each, then one of them leads and
the other trails. -/
theorem enclosed_of_split (apart : one ≠ other) (inside : one ∈ text.toList)
    (stands : other ∈ text.toList)
    (only : ∀ c ∈ occurring text, c = one ∨ c = other)
    (alone : Text.split text (String.singleton one) = [first])
    (lonely : Text.split text (String.singleton other) = [second]) :
    (∃ middle, Enclosed one middle other text ∧ first = text ∧
        second = String.singleton one ++ middle) ∨
      ∃ middle, Enclosed other middle one text ∧
        first = String.singleton other ++ middle ∧
        second = text := by
  rw [Text.split_singleton_eq_iff, List.map_singleton] at alone lonely
  rcases Text.leads_or_trails alone inside with
    ⟨whole, rest, leads, free⟩ | ⟨trails, single⟩
  · left
    rcases Text.leads_or_trails lonely stands with
      ⟨-, _, also, -⟩ | ⟨trails, single⟩
    · rw [leads] at also
      exact (apart (List.cons.inj also).1).elim
    · obtain ⟨middle, enclosed, kept⟩ :=
        exists_enclosed only leads free trails single
      exact ⟨middle, enclosed, String.toList_inj.1 whole,
        String.toList_inj.1 kept⟩
  · right
    rcases Text.leads_or_trails lonely stands with
      ⟨whole, rest, leads, free⟩ | ⟨also, -⟩
    · obtain ⟨middle, enclosed, kept⟩ :=
        exists_enclosed (fun c found => (only c found).symm) leads free
          trails single
      exact ⟨middle, enclosed, String.toList_inj.1 kept,
        String.toList_inj.1 whole⟩
    · rw [trails, List.append_singleton_inj] at also
      exact (apart also.2).elim

theorem split_of_pair_iff (both : occurring text = [one, other]) :
    Text.split text operators = [first, second] ↔
      ∃ leading middle trailing,
        (leading = one ∧ trailing = other ∨ leading = other ∧ trailing = one) ∧
          Enclosed leading middle trailing text ∧
            first = passed leading middle text one ∧
            second = passed leading middle text other := by
  have apart : one ≠ other := ne_of_occurring both
  obtain ⟨known, inside⟩ : one ∈ operators.toList ∧ one ∈ text.toList :=
    mem_occurring.1 (by simp [both])
  obtain ⟨wellKnown, stands⟩ : other ∈ operators.toList ∧ other ∈ text.toList :=
    mem_occurring.1 (by simp [both])
  rw [split_of_pair both]
  constructor
  · rintro ⟨alone, lonely⟩
    have only : ∀ c ∈ occurring text, c = one ∨ c = other := by simp [both]
    rcases enclosed_of_split apart inside stands only alone lonely with
      ⟨middle, enclosed, rfl, rfl⟩ | ⟨middle, enclosed, rfl, rfl⟩
    · refine ⟨one, middle, other, .inl ⟨rfl, rfl⟩, enclosed, ?_, ?_⟩
      · rw [passed, if_pos rfl]
      · rw [passed, if_neg apart.symm]
    · refine ⟨other, middle, one, .inr ⟨rfl, rfl⟩, enclosed, ?_, ?_⟩
      · rw [passed, if_neg apart]
      · rw [passed, if_pos rfl]
  · rintro ⟨leading, middle, trailing, ⟨rfl, rfl⟩ | ⟨rfl, rfl⟩, enclosed,
      rfl, rfl⟩
    · rw [passed, passed, if_pos rfl, if_neg apart.symm]
      exact ⟨enclosed.split_leading known apart,
        enclosed.split_trailing wellKnown⟩
    · rw [passed, passed, if_pos rfl, if_neg apart]
      exact ⟨enclosed.split_trailing known,
        enclosed.split_leading wellKnown apart.symm⟩

theorem Enclosed.mem_trim_passed
    (enclosed : Enclosed leading middle trailing text)
    (known : leading ∈ operators.toList) (operator : Char) :
    leading ∈ (Text.trim (passed leading middle text operator)).toList := by
  rw [Text.trim, String.toList_ofList]
  apply Text.mem_trimChars _ (isBlank_of_operator known)
  unfold passed
  split
  · simp [enclosed.layout]
  · simp

theorem leading_mem_operators (both : occurring text = [one, other])
    (ends : leading = one ∧ trailing = other ∨ leading = other ∧
      trailing = one) : leading ∈ operators.toList := by
  have found : leading ∈ occurring text := by
    rcases ends with ⟨rfl, -⟩ | ⟨rfl, -⟩
    · simp [both]
    · simp [both]
  exact (mem_occurring.1 found).1

theorem parse?_of_pair_iff (both : occurring text = [one, other]) :
    parse? text = some condition ↔
      ∃ leading middle trailing,
        (leading = one ∧ trailing = other ∨ leading = other ∧ trailing = one) ∧
          Enclosed leading middle trailing text ∧
            condition = ⟨Text.trim (passed leading middle text one),
              Text.trim (passed leading middle text other)⟩ := by
  rw [parse?_eq_some_iff_split]
  simp only [split_of_pair_iff both]
  constructor
  · rintro ⟨_, _, ⟨leading, middle, trailing, ends, enclosed, rfl, rfl⟩,
      -, -, read⟩
    exact ⟨leading, middle, trailing, ends, enclosed, read⟩
  · rintro ⟨leading, middle, trailing, ends, enclosed, read⟩
    have known : leading ∈ operators.toList := leading_mem_operators both ends
    have filled : ∀ operator,
        Text.trim (passed leading middle text operator) ≠ "" := by
      intro operator empty
      have visible := enclosed.mem_trim_passed known operator
      rw [empty] at visible
      contradiction
    exact ⟨_, _, ⟨leading, middle, trailing, ends, enclosed, rfl, rfl⟩,
      filled one, filled other, read⟩

/-- A text in which one operator occurs is a condition if it is two halves
around it, perhaps with one more behind, that are not blank; there is one way to
halve it. A text in which two occur is a condition if one leads and the other
trails, with no operator between, and the tag is what the pass of the first of
them leaves. No other text is a condition. -/
theorem parse_forms (text : String) :
    (∀ operator, occurring text = [operator] →
      (∀ condition, parse text = .ok condition ↔
        ∃ first second last, Halves operator text first second last ∧
          Text.trim first ≠ "" ∧
          Text.trim second ≠ "" ∧
            condition = ⟨Text.trim first, Text.trim second⟩) ∧
      ∀ first second last first' second' last',
        Halves operator text first second last →
        Halves operator text first' second' last' →
          first = first' ∧ second = second' ∧ last = last') ∧
    (∀ one other, occurring text = [one, other] →
      ∀ condition, parse text = .ok condition ↔
        ∃ leading middle trailing,
          (leading = one ∧ trailing = other ∨ leading = other ∧
            trailing = one) ∧
            Enclosed leading middle trailing text ∧
              condition = ⟨Text.trim (passed leading middle text one),
                Text.trim (passed leading middle text other)⟩) ∧
    ((occurring text).length ≠ 1 → (occurring text).length ≠ 2 →
      parse text = .error (.malformed text)) ∧
    ((∀ condition, parse text ≠ .ok condition) →
      parse text = .error (.malformed text)) := by
  simp only [parse_eq_ok_iff, parse_eq_error_iff, and_true]
  refine ⟨fun operator single =>
    ⟨fun condition => ?_, fun _ _ _ _ _ _ one other => ?_⟩,
    fun one other both condition => ?_, parse?_of_occurring, fun unread => ?_⟩
  · exact parse?_of_single_iff single
  · exact one.unique other
  · exact parse?_of_pair_iff both
  · rw [Option.eq_none_iff_forall_ne_some]
    intro condition parsed
    exact unread condition (parse_eq_ok_iff.2 parsed)

theorem parse_forms_ends :
    let halved := "=Near= a="
    let enclosed := ">b ="
    let crowded := "=a>b<"
    let opened := "a>b="
    occurring halved = ['='] ∧ parse halved = .ok ⟨"=Near", "a"⟩ ∧
      (∀ first second last, Halves '=' halved first second last →
        first = "=Near" ∧ second = " a" ∧ last = "=") ∧
      occurring enclosed = ['=', '>'] ∧ parse enclosed = .ok ⟨">b", ">b ="⟩ ∧
      (occurring crowded).length = 3 ∧
        parse crowded = .error (.malformed crowded) ∧
      (∀ condition, parse opened ≠ .ok condition) ∧
      parse opened = .error (.malformed opened) := by
  intro halved enclosed crowded opened
  have single : occurring halved = ['='] := by decide +kernel +zetaReduce
  have both : occurring enclosed = ['=', '>'] := by decide +kernel +zetaReduce
  have many : (occurring crowded).length = 3 := by decide +kernel +zetaReduce
  have halves : Halves '=' halved "=Near" " a" "=" :=
    ⟨by decide +kernel +zetaReduce, .inr rfl, by decide +kernel,
      by decide +kernel⟩
  have between : Enclosed '>' "b " '=' enclosed :=
    ⟨by decide +kernel +zetaReduce, by simp [operators]⟩
  obtain ⟨read, unique⟩ := (parse_forms halved).1 '=' single
  have unread : ∀ condition, parse opened ≠ .ok condition := by
    intro condition found
    obtain ⟨leading, middle, trailing, ends, stands, -⟩ :=
      ((parse_forms opened).2.1 '=' '>'
        (by decide +kernel +zetaReduce) condition).1 found
    have start : opened.toList.head? = some 'a' := by decide +kernel +zetaReduce
    rw [stands.toList_eq, List.head?_cons, Option.some.injEq] at start
    rcases ends with ⟨same, -⟩ | ⟨same, -⟩
    · exact absurd (same.symm.trans start) (by decide)
    · exact absurd (same.symm.trans start) (by decide)
  refine ⟨single, (read _).2 ⟨_, _, _, halves, ?_, ?_, ?_⟩,
    fun first second last other => unique _ _ _ _ _ _ other halves, both,
    ((parse_forms enclosed).2.1 '=' '>' both _).2
      ⟨'>', "b ", '=', .inr ⟨rfl, rfl⟩, between, ?_⟩,
    many, (parse_forms crowded).2.2.1 ?_ ?_, unread,
    (parse_forms opened).2.2.2 unread⟩
  all_goals decide +kernel +zetaReduce

end Condition

end EdgeFilters
