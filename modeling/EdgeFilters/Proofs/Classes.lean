import EdgeFilters.Proofs.Pieces

namespace EdgeFilters.Text

/-- One pass for all delimiters. -/
def splitAnyChars (text delimiters : List Char) : List (List Char) :=
  (text.splitOnP (delimiters.contains ·)).filter (!·.isEmpty)

def splitAny (source delimiters : String) : List String :=
  (splitAnyChars source.toList delimiters.toList).map String.ofList

variable {delimiter : Char} {text piece rest delimiters : List Char}

theorem free_of_mem_splitOnP {p : Char → Bool}
    (member : piece ∈ text.splitOnP p) : ∀ c ∈ piece, p c = false := by
  induction text generalizing piece with
  | nil => simp_all
  | cons c rest ih =>
      rw [List.splitOnP_cons_eq_if_modifyHead] at member
      split at member
      · rcases List.mem_cons.1 member with rfl | member
        · simp
        · exact ih member
      · next passed =>
          obtain ⟨first, others, parts⟩ :=
            List.exists_cons_of_ne_nil (List.splitOnP_ne_nil p rest)
          rw [parts] at member ih
          rcases List.mem_cons.1 member with rfl | member
          · rw [List.forall_mem_cons]
            exact ⟨by simpa using passed, ih List.mem_cons_self⟩
          · exact ih (List.mem_cons_of_mem first member)

theorem free_of_mem_splitAnyChars
    (member : piece ∈ splitAnyChars text delimiters) :
    ∀ c ∈ piece, c ∉ delimiters := by
  intro c inside
  have outside := free_of_mem_splitOnP (List.mem_filter.1 member).1 c inside
  simpa using outside

theorem splitAnyChars_of_free (free : ∀ c ∈ text, c ∉ delimiters)
    (filled : text ≠ []) : splitAnyChars text delimiters = [text] := by
  rw [splitAnyChars, List.splitOnP_eq_singleton (by simpa using free)]
  simpa using filled

theorem splitAnyChars_cut (free : ∀ c ∈ piece, c ∉ delimiters)
    (filled : piece ≠ []) (known : delimiter ∈ delimiters) (rest : List Char) :
    splitAnyChars (piece ++ delimiter :: rest) delimiters =
      piece :: splitAnyChars rest delimiters := by
  rw [splitAnyChars,
    List.splitOnP_append_cons_of_forall_mem (by simpa using free) _
    (by simpa using known)]
  exact List.filter_cons_of_pos (by simpa using filled)

/-- The delimiter ends a piece wherever it stands. -/
structure Separates (delimiter : Char) (text : List Char) : Prop where
  inside : ¬ [delimiter] <+: text
  single : ¬ [delimiter, delimiter] <:+: text

theorem doubled_append_iff (free : delimiter ∉ piece) :
    [delimiter, delimiter] <:+: piece ++ rest ↔
      [delimiter, delimiter] <:+: rest := by
  induction piece with
  | nil => rfl
  | cons c piece ih =>
      rw [List.mem_cons, not_or] at free
      rw [List.cons_append, List.infix_cons_iff, ih free.2,
        List.cons_prefix_cons]
      simp [free.1]

theorem separates_of_not_mem (free : delimiter ∉ text) :
    Separates delimiter text where
  inside leads := free (leads.subset List.mem_cons_self)
  single doubled := free (doubled.subset List.mem_cons_self)

theorem separates_cut_iff (free : delimiter ∉ piece) (filled : piece ≠ []) :
    Separates delimiter (piece ++ delimiter :: rest) ↔
      Separates delimiter rest := by
  have doubled : [delimiter, delimiter] <:+: piece ++ delimiter :: rest ↔
      [delimiter] <+: rest ∨ [delimiter, delimiter] <:+: rest := by
    rw [doubled_append_iff free, List.infix_cons_iff, List.cons_prefix_cons]
    simp
  have leads : ¬ [delimiter] <+: piece ++ delimiter :: rest := by
    obtain ⟨c, tail, rfl⟩ := List.exists_cons_of_ne_nil filled
    rw [List.mem_cons, not_or] at free
    simp [free.1]
  constructor
  · intro separates
    obtain ⟨apart, single⟩ := not_or.1 (doubled.not.1 separates.single)
    exact ⟨apart, single⟩
  · intro separates
    exact ⟨leads, doubled.not.2 (not_or.2 ⟨separates.inside, separates.single⟩)⟩

theorem not_separates_of_mem (single : IsPiece delimiter piece)
    (inside : delimiter ∈ piece) (rest : List Char) :
    ¬ Separates delimiter (piece ++ rest) := by
  obtain ⟨c, tail, rfl, free⟩ := single
  obtain rfl : delimiter = c := by simpa [free] using inside
  intro separates
  exact separates.inside (by simp)

theorem separates_iff :
    Separates delimiter text ↔ ∀ piece ∈ pieces delimiter text,
      delimiter ∉ piece := by
  obtain ⟨parts, cut⟩ := exists_cut delimiter text
  rw [cut.pieces_eq]
  induction cut with
  | empty => exact iff_of_true (separates_of_not_mem List.not_mem_nil) (by simp)
  | @last piece single =>
      rw [List.forall_mem_singleton]
      by_cases inside : delimiter ∈ piece
      · have stuck := not_separates_of_mem single inside []
        rw [List.append_nil] at stuck
        exact iff_of_false stuck (not_not.2 inside)
      · exact iff_of_true (separates_of_not_mem inside) inside
  | @next piece rest _ single _ ih =>
      rw [List.forall_mem_cons]
      by_cases inside : delimiter ∈ piece
      · exact iff_of_false (not_separates_of_mem single inside _) fun all =>
          all.1 inside
      · rw [separates_cut_iff inside single.ne_nil, ih, and_iff_right inside]

/-- A pass drops nothing but its own delimiter. -/
theorem exists_piece_of_mem {c : Char} (inside : c ∈ text)
    (other : c ≠ delimiter) : ∃ piece ∈ pieces delimiter text, c ∈ piece := by
  obtain ⟨parts, cut⟩ := exists_cut delimiter text
  rw [cut.pieces_eq]
  induction cut with
  | empty => simp at inside
  | last => exact ⟨_, List.mem_singleton_self _, inside⟩
  | next _ _ ih =>
      rcases List.mem_append.1 inside with inside | inside
      · exact ⟨_, List.mem_cons_self, inside⟩
      · obtain ⟨piece, member, inside⟩ :=
          ih ((List.mem_cons.1 inside).resolve_left other)
        exact ⟨piece, List.mem_cons_of_mem _ member, inside⟩

theorem pieces_eq_splitAnyChars (known : delimiter ∈ delimiters)
    (only : ∀ c ∈ text, c ∈ delimiters → c = delimiter)
    (separates : Separates delimiter text) :
    pieces delimiter text = splitAnyChars text delimiters := by
  obtain ⟨parts, cut⟩ := exists_cut delimiter text
  rw [cut.pieces_eq]
  have clean := separates_iff.1 separates
  rw [cut.pieces_eq] at clean
  clear separates
  induction cut with
  | empty => rfl
  | @last piece single =>
      have free : ∀ c ∈ piece, c ∉ delimiters := by
        intro c inside member
        rw [List.forall_mem_singleton] at clean
        exact clean (only c inside member ▸ inside)
      rw [splitAnyChars_of_free free single.ne_nil]
  | @next piece rest _ single _ ih =>
      obtain ⟨here, later⟩ := List.forall_mem_cons.1 clean
      have free : ∀ c ∈ piece, c ∉ delimiters := by
        intro c inside member
        exact here (only c (List.mem_append_left _ inside) member ▸ inside)
      have remaining : ∀ c ∈ rest, c ∈ delimiters → c = delimiter :=
        fun c inside =>
          only c (List.mem_append_right _ (List.mem_cons_of_mem _ inside))
      rw [splitAnyChars_cut free single.ne_nil known, ih remaining later]

/-- The delimiters that stand in the text, each as often as it is given. -/
def standing (text delimiters : List Char) : List Char :=
  delimiters.filter (text.contains ·)

theorem mem_standing :
    delimiter ∈ standing text delimiters ↔
      delimiter ∈ delimiters ∧ delimiter ∈ text := by
  rw [standing, List.mem_filter, List.contains_iff_mem]

theorem count_standing (inside : delimiter ∈ text) :
    (standing text delimiters).count delimiter = delimiters.count delimiter :=
  List.count_filter (List.contains_iff_mem.2 inside)

theorem splitChars_of_standing_cons {others : List Char}
    (stands : standing text delimiters = delimiter :: others) :
    splitChars text delimiters =
      pieces delimiter text ++ others.flatMap (pieces · text) := by
  rw [standing] at stands
  rw [splitChars, stands]
  rfl

theorem splitChars_of_standing_nil (absent : standing text delimiters = []) :
    splitChars text delimiters = splitAnyChars text delimiters := by
  have free : ∀ c ∈ text, c ∉ delimiters := by
    intro c inside known
    have stands : c ∈ standing text delimiters := mem_standing.2 ⟨known, inside⟩
    simp [absent] at stands
  rw [standing] at absent
  rw [splitChars, absent]
  cases text with
  | nil => rfl
  | cons c rest =>
      rw [splitAnyChars_of_free free (List.cons_ne_nil c rest)]; rfl

section

variable (same : splitChars text delimiters = splitAnyChars text delimiters)
  (stands : delimiter ∈ standing text delimiters)

include same stands

/-- A class of delimiters leaves none of them in a piece, so
neither may any pass. -/
theorem free_of_mem_pieces (member : piece ∈ pieces delimiter text) :
    ∀ c ∈ piece, c ∉ delimiters := by
  have occurs : (delimiters.filter (text.contains ·)).isEmpty = false :=
    List.isEmpty_eq_false_iff.2 (List.ne_nil_of_mem stands)
  have passed : piece ∈ splitChars text delimiters := by
    simp only [splitChars, occurs, Bool.false_eq_true, if_false]
    exact List.mem_flatMap.2 ⟨delimiter, stands, member⟩
  exact free_of_mem_splitAnyChars (same ▸ passed)

theorem separates_of_mem_standing : Separates delimiter text := by
  rw [separates_iff]
  intro piece member inside
  exact free_of_mem_pieces same stands member delimiter inside
    (mem_standing.1 stands).1

theorem eq_of_mem_standing {other : Char}
    (beside : other ∈ standing text delimiters) : other = delimiter := by
  obtain ⟨known, inside⟩ := mem_standing.1 beside
  by_contra different
  obtain ⟨piece, member, left⟩ := exists_piece_of_mem inside different
  exact free_of_mem_pieces same stands member other left known

/-- A second pass would give the same pieces once more. -/
theorem standing_eq_singleton : standing text delimiters = [delimiter] := by
  obtain ⟨first, others, listed⟩ :=
    List.exists_cons_of_ne_nil (List.ne_nil_of_mem stands)
  obtain rfl : first = delimiter :=
    eq_of_mem_standing same stands (listed ▸ List.mem_cons_self)
  have only : ∀ c ∈ text, c ∈ delimiters → c = first := fun c inside known =>
    eq_of_mem_standing same stands (mem_standing.2 ⟨known, inside⟩)
  obtain ⟨known, inside⟩ := mem_standing.1 stands
  have again :=
    pieces_eq_splitAnyChars known only (separates_of_mem_standing same stands)
  rw [splitChars_of_standing_cons listed, ← again, List.append_right_eq_self]
    at same
  cases others with
  | nil => exact listed
  | cons second more =>
      rw [List.flatMap_cons, List.append_eq_nil_iff, pieces_eq_nil_iff] at same
      simp [same.1] at inside

end

theorem splitChars_eq_splitAnyChars_iff :
    splitChars text delimiters = splitAnyChars text delimiters ↔
      standing text delimiters = [] ∨
        ∃ delimiter, standing text delimiters = [delimiter] ∧
          Separates delimiter text := by
  constructor
  · intro same
    cases listed : standing text delimiters with
    | nil => exact .inl rfl
    | cons delimiter others =>
        have stands : delimiter ∈ standing text delimiters :=
          listed ▸ List.mem_cons_self
        rw [← listed]
        exact .inr ⟨delimiter, standing_eq_singleton same stands,
          separates_of_mem_standing same stands⟩
  · rintro (absent | ⟨delimiter, alone, separates⟩)
    · exact splitChars_of_standing_nil absent
    · have stands : delimiter ∈ standing text delimiters :=
        alone ▸ List.mem_cons_self
      have only : ∀ c ∈ text, c ∈ delimiters → c = delimiter := by
        intro c inside known
        have beside : c ∈ standing text delimiters :=
          mem_standing.2 ⟨known, inside⟩
        rwa [alone, List.mem_singleton] at beside
      rw [splitChars_of_standing_cons alone, List.flatMap_nil, List.append_nil]
      exact pieces_eq_splitAnyChars (mem_standing.1 stands).1 only separates

theorem standing_eq_nil_iff :
    standing text delimiters = [] ↔ ∀ delimiter ∈ delimiters,
      delimiter ∉ text := by
  rw [standing, List.filter_eq_nil_iff]
  simp only [List.contains_iff_mem]

theorem standing_eq_singleton_iff :
    standing text delimiters = [delimiter] ↔
      ∃ before after, delimiters = before ++ delimiter :: after ∧
        delimiter ∈ text ∧
        ∀ other ∈ before ++ after, other ∉ text := by
  rw [standing, List.filter_eq_cons_iff]
  simp only [List.contains_iff_mem, List.filter_eq_nil_iff,
    List.forall_mem_append]
  constructor
  · rintro ⟨before, after, layout, front, inside, back⟩
    exact ⟨before, after, layout, inside, front, back⟩
  · rintro ⟨before, after, layout, inside, front, back⟩
    exact ⟨before, after, layout, front, inside, back⟩

/-- The ways in which a text does not fall into the same pieces. -/
theorem standing_cases :
    ¬ (standing text delimiters = [] ∨
        ∃ delimiter, standing text delimiters = [delimiter] ∧
          Separates delimiter text) ↔
      (∃ one ∈ delimiters, ∃ other ∈ delimiters, one ≠ other ∧ one ∈ text ∧
        other ∈ text) ∨
        (∃ delimiter ∈ text, 2 ≤ delimiters.count delimiter) ∨
        (∃ delimiter ∈ delimiters, [delimiter] <+: text) ∨
        ∃ delimiter ∈ delimiters, [delimiter, delimiter] <:+: text := by
  rw [not_or]
  constructor
  · rintro ⟨occurs, unseparated⟩
    obtain ⟨first, others, listed⟩ := List.exists_cons_of_ne_nil occurs
    have stands : first ∈ standing text delimiters :=
      listed ▸ List.mem_cons_self
    obtain ⟨known, inside⟩ := mem_standing.1 stands
    cases others with
    | nil =>
        right
        right
        by_cases leads : [first] <+: text
        · exact .inl ⟨first, known, leads⟩
        · refine .inr ⟨first, known, by_contra fun single => ?_⟩
          exact unseparated ⟨first, listed, leads, single⟩
    | cons second more =>
        by_cases twice : first = second
        · right
          left
          refine ⟨first, inside, ?_⟩
          rw [← count_standing inside, listed, twice]
          simp
        · have beside : second ∈ standing text delimiters := by simp [listed]
          obtain ⟨also, within⟩ := mem_standing.1 beside
          exact .inl ⟨first, known, second, also, twice, inside, within⟩
  · intro differs
    refine ⟨fun absent => ?_, ?_⟩
    · rw [standing_eq_nil_iff] at absent
      rcases differs with
        ⟨one, known, -, -, -, inside, -⟩ | ⟨delimiter, inside, twice⟩ |
        ⟨delimiter, known, leads⟩ | ⟨delimiter, known, doubled⟩
      · exact absent one known inside
      · exact absent delimiter (List.count_pos_iff.1 (by omega)) inside
      · exact absent delimiter known (leads.subset List.mem_cons_self)
      · exact absent delimiter known (doubled.subset List.mem_cons_self)
    · rintro ⟨only, alone, separates⟩
      have eq_only {c : Char} (known : c ∈ delimiters) (inside : c ∈ text) :
          c = only := by
        rw [← List.mem_singleton, ← alone]
        exact mem_standing.2 ⟨known, inside⟩
      rcases differs with ⟨one, first, other, second, apart, here, there⟩ |
        ⟨delimiter, inside, twice⟩ | ⟨delimiter, known, leads⟩ |
          ⟨delimiter, known, doubled⟩
      · exact apart ((eq_only first here).trans (eq_only second there).symm)
      · have few :=
          List.count_le_length (a := delimiter) (l := standing text delimiters)
        rw [count_standing inside, alone, List.length_singleton] at few
        omega
      · obtain rfl := eq_only known (leads.subset List.mem_cons_self)
        exact separates.inside leads
      · obtain rfl := eq_only known (doubled.subset List.mem_cons_self)
        exact separates.single doubled

theorem split_eq_splitAny_iff {source delimiters : String} :
    split source delimiters = splitAny source delimiters ↔
      splitChars source.toList delimiters.toList =
        splitAnyChars source.toList delimiters.toList := by
  rw [split_eq_iff, splitAny, List.map_map]
  simp [Function.comp_def]

/-- The passes of the delimiters split a source like one pass for all of them if
none stands in it, or one that is given once and that neither leads nor is
doubled. If two delimiters stand in the source, or one that is given twice, or
one that leads or is doubled, then they do not; and there is no other case. -/
theorem split_agrees_with_class (source delimiters : String) :
    (split source delimiters = splitAny source delimiters ↔
      (∀ delimiter ∈ delimiters.toList, delimiter ∉ source.toList) ∨
        ∃ before delimiter after,
          delimiters.toList = before ++ delimiter :: after ∧
          delimiter ∈ source.toList ∧
            (∀ other ∈ before ++ after, other ∉ source.toList) ∧
          ¬ [delimiter] <+: source.toList ∧
            ¬ [delimiter, delimiter] <:+: source.toList) ∧
    (split source delimiters ≠ splitAny source delimiters ↔
      (∃ one ∈ delimiters.toList, ∃ other ∈ delimiters.toList,
        one ≠ other ∧ one ∈ source.toList ∧ other ∈ source.toList) ∨
      (∃ delimiter ∈ source.toList, 2 ≤ delimiters.toList.count delimiter) ∨
      (∃ delimiter ∈ delimiters.toList, [delimiter] <+: source.toList) ∨
      ∃ delimiter ∈ delimiters.toList,
        [delimiter, delimiter] <:+: source.toList) := by
  rw [ne_eq, split_eq_splitAny_iff, splitChars_eq_splitAnyChars_iff]
  refine ⟨?_, standing_cases⟩
  rw [standing_eq_nil_iff]
  apply or_congr_right
  constructor
  · rintro ⟨delimiter, alone, separates⟩
    obtain ⟨before, after, layout, inside, others⟩ :=
      standing_eq_singleton_iff.1 alone
    exact ⟨before, delimiter, after, layout, inside, others, separates.inside,
      separates.single⟩
  · rintro ⟨before, delimiter, after, layout, inside, others, ahead, single⟩
    exact ⟨delimiter,
      standing_eq_singleton_iff.2 ⟨before, after, layout, inside, others⟩,
      ahead, single⟩

example : split "A>B=C" "=><" = ["A>B", "C", "A", "B=C"] ∧
    splitAny "A>B=C" "=><" = ["A", "B", "C"] := by
  decide +kernel

end EdgeFilters.Text
