import EdgeFilters.Proofs.Views
import Mathlib.Data.List.Sort

namespace EdgeFilters

section

variable {α : Type*} [DecidableEq α] {items : List α} {one other : α}

theorem idxOf_lt_of_eraseDups (here : one ∈ items) (there : other ∈ items)
    (earlier : items.eraseDups.idxOf one < items.eraseDups.idxOf other) :
    items.idxOf one < items.idxOf other := by
  have first : items.eraseDups.idxOf one < items.eraseDups.length :=
    List.idxOf_lt_length_of_mem (List.mem_eraseDups.2 here)
  have second : items.eraseDups.idxOf other < items.eraseDups.length :=
    List.idxOf_lt_length_of_mem (List.mem_eraseDups.2 there)
  have ordered :=
    List.pairwise_iff_getElem.1 (pairwise_idxOf_eraseDups items) _ _ first
      second earlier
  rwa [List.getElem_idxOf, List.getElem_idxOf] at ordered

theorem idxOf_eraseDups_lt_iff (here : one ∈ items) (there : other ∈ items) :
    items.eraseDups.idxOf one < items.eraseDups.idxOf other ↔
      items.idxOf one < items.idxOf other := by
  refine ⟨idxOf_lt_of_eraseDups here there, fun earlier => ?_⟩
  rcases Nat.lt_trichotomy (items.eraseDups.idxOf one)
    (items.eraseDups.idxOf other) with
    before | same | behind
  · exact before
  · obtain rfl := (List.idxOf_inj (List.mem_eraseDups.2 here)).1 same
    exact (Nat.lt_irrefl _ earlier).elim
  · exact (Nat.lt_asymm earlier (idxOf_lt_of_eraseDups there here behind)).elim

/-- A list without repetitions in the order of first occurrences is the only one
of its members. -/
theorem eq_eraseDups_of_pairwise {firsts : List α}
    (members : ∀ item, item ∈ firsts ↔ item ∈ items)
    (ordered : firsts.Pairwise fun one other =>
      items.idxOf one < items.idxOf other) : firsts = items.eraseDups := by
  have irreflexive : Std.Irrefl fun one other =>
      items.idxOf one < items.idxOf other :=
    ⟨fun _ => Nat.lt_irrefl _⟩
  have antisymmetric : Std.Antisymm fun one other =>
      items.idxOf one < items.idxOf other :=
    ⟨fun _ _ earlier later => (Nat.lt_asymm earlier later).elim⟩
  refine ordered.eq_of_mem_iff (pairwise_idxOf_eraseDups items) fun item => ?_
  rw [members, List.mem_eraseDups]

end

namespace Solver

/-- The same operands come up, in the same order of their first occurrences. -/
structure SameFirsts (operands others : List String) : Prop where
  mem_iff : ∀ operand, operand ∈ operands ↔ operand ∈ others
  order : ∀ one ∈ operands, ∀ other ∈ operands,
    operands.idxOf one < operands.idxOf other ↔
      others.idxOf one < others.idxOf other

variable {operands others : List String}

theorem sameFirsts_iff :
    SameFirsts operands others ↔ operands.eraseDups = others.eraseDups := by
  constructor
  · intro same
    refine eq_eraseDups_of_pairwise (fun operand => ?_) ?_
    · rw [List.mem_eraseDups, same.mem_iff]
    · refine (pairwise_idxOf_eraseDups operands).imp_of_mem
        fun here there earlier => ?_
      exact (same.order _ (List.mem_eraseDups.1 here) _
        (List.mem_eraseDups.1 there)).1 earlier
  · intro same
    have members (operand : String) : operand ∈ operands ↔
        operand ∈ others := by
      rw [← List.mem_eraseDups, same, List.mem_eraseDups]
    refine ⟨members, fun one here other there => ?_⟩
    rw [← idxOf_eraseDups_lt_iff here there, same,
      idxOf_eraseDups_lt_iff ((members one).1 here) ((members other).1 there)]

theorem addAll_append (solver : Solver) (first second : List String) :
    solver.addAll (first ++ second) = (solver.addAll first).addAll second :=
  List.foldl_append

theorem addAll_ofKind (kind : Kind) (operands : List String) :
    (ofKind kind).addAll operands = ⟨kind, kind.kept operands⟩ := by
  induction operands using List.reverseRecOn with
  | nil => cases kind <;> rfl
  | append_singleton before operand ih =>
      rw [addAll_append, ih, addAll_cons, addAll_nil, add_kept]

/-- A fresh label solver that was given these operands, one after another. -/
def gathered (operands : List String) : Solver :=
  (ofKind .label).addAll operands

theorem operands_gathered (operands : List String) :
    (gathered operands).operands = operands.eraseDups := by
  rw [gathered, addAll_ofKind]
  rfl

theorem operands_gathered_addAll (operands further : List String) :
    ((gathered operands).addAll further).operands =
      (gathered operands).operands ++
        (gathered (further.filter (· ∉ operands))).operands := by
  have both :
      (gathered operands).addAll further = gathered (operands ++ further) :=
    (addAll_append _ operands further).symm
  rw [both, operands_gathered, operands_gathered, operands_gathered,
    List.eraseDups_append, List.removeAll]
  congr 2
  apply List.filter_congr
  simp

theorem accepts_gathered_iff {label : Option String} :
    (gathered operands).accepts label = true ↔
      ∃ text, label = some text ∧ ∃ operand ∈ operands,
        operand.toList = text.toList := by
  rw [gathered, addAll_ofKind, accepts, Option.any_eq_true]
  simp only [List.contains_iff_mem, Kind.mem_kept, String.toList_inj,
    exists_eq_right]

/-- A fresh label solver that is given operands holds each of them once, in the
order of first occurrences, and what it is given later adds those it was not
given before. An item passes if its label is one of the operands, character for
character. So the set of the operands decides which items pass, and their first
occurrences alone which operands are held. -/
theorem label_gathers (operands : List String) :
    (gathered operands).operands.Nodup ∧
      (∀ operand, operand ∈ (gathered operands).operands ↔ operand ∈ operands) ∧
      ((gathered operands).operands.Pairwise fun one other =>
        operands.idxOf one < operands.idxOf other) ∧
      (∀ further, ((gathered operands).addAll further).operands =
        (gathered operands).operands ++
          (gathered (further.filter (· ∉ operands))).operands) ∧
      (∀ label, (gathered operands).accepts label = true ↔
        ∃ text, label = some text ∧ ∃ operand ∈ operands,
          operand.toList = text.toList) ∧
      (∀ others, (∀ operand, operand ∈ others ↔ operand ∈ operands) →
        ∀ label, (gathered others).accepts label =
          (gathered operands).accepts label) ∧
      ∀ others,
        (gathered others).operands = (gathered operands).operands ↔
          SameFirsts others operands := by
  have held : (gathered operands).operands = operands.eraseDups :=
    operands_gathered operands
  refine ⟨?_, fun operand => ?_, ?_, operands_gathered_addAll operands,
    fun label => accepts_gathered_iff, fun others same label => ?_,
    fun others => ?_⟩
  · rw [held]
    exact nodup_eraseDups operands
  · rw [held, List.mem_eraseDups]
  · rw [held]
    exact pairwise_idxOf_eraseDups operands
  · rw [Bool.eq_iff_iff, accepts_gathered_iff, accepts_gathered_iff]
    simp only [same]
  · rw [held, operands_gathered, sameFirsts_iff]

theorem label_gathers_repeated :
    let operands := ["person", "car", "person"]
    let others := ["car", "car", "person"]
    let solver := gathered operands
    (∀ operand, operand ∈ others ↔ operand ∈ operands) ∧
      solver.operands = ["person", "car"] ∧
      (solver.addAll ["bus", "car", "bus", "Car"]).operands =
        ["person", "car", "bus", "Car"] ∧
      solver.accepts (some "car") = true ∧
      (gathered others).accepts (some "car") = solver.accepts (some "car") ∧
      ¬ SameFirsts others operands := by
  intro operands others solver
  obtain ⟨-, -, -, later, passes, sets, firsts⟩ := label_gathers operands
  have same : ∀ operand, operand ∈ others ↔ operand ∈ operands := by
    intro operand
    simp only [operands, others, List.mem_cons, List.not_mem_nil, or_false]
    tauto
  refine ⟨same, by decide +zetaReduce, (later _).trans (by decide +zetaReduce),
    (passes _).2 ⟨"car", rfl, "car", by decide +zetaReduce, rfl⟩,
    sets others same _, ?_⟩
  rw [← firsts others]
  decide +zetaReduce

end Solver

end EdgeFilters
