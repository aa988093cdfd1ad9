import EdgeFilters.Proofs.Faithful
import EdgeFilters.Proofs.Forms
import EdgeFilters.Proofs.Views
import EdgeFilters.Proofs.Written
import EdgeFilters.Report

namespace EdgeFilters

namespace Condition

open Text (IsPiece)

variable {text : String} {condition : Condition} {operator : Char}

/-- Where two operators make a pass each, both parts keep the leading one. -/
theorem onlyOperator_of_parse? (parsed : parse? text = some condition)
    (word : ∀ operator ∈ operators.toList,
      operator ∉ condition.typeTag.toList) :
    ∃ operator, OnlyOperator operator text := by
  rcases exists_occurring_of_parse? parsed with
    ⟨operator, single⟩ | ⟨one, other, both⟩
  · exact ⟨operator, onlyOperator_iff.2 single⟩
  · exfalso
    obtain ⟨leading, middle, trailing, ends, enclosed, rfl⟩ :=
      (parse?_of_pair_iff both).1 parsed
    have known : leading ∈ operators.toList := leading_mem_operators both ends
    exact word leading known (enclosed.mem_trim_passed known one)

/-- Behind a tag that holds no operator an operand holds none past its
first character. -/
theorem isPiece_operand (parsed : parse? text = some condition)
    (word : ∀ operator ∈ operators.toList, operator ∉ condition.typeTag.toList)
    (known : operator ∈ operators.toList) :
    IsPiece operator condition.operand.toList := by
  obtain ⟨own, single⟩ := onlyOperator_of_parse? parsed word
  obtain ⟨first, second, parts, -, given, -, filled⟩ :=
    parse?_eq_some_iff.1 parsed
  rw [single.splitChars_eq] at parts
  have member : second ∈ Text.pieces own text.toList := by simp [parts]
  obtain ⟨piece, -, inside⟩ := half_of_mem_pieces member given filled
  by_cases same : operator = own
  · rw [same]
    exact piece
  · refine Text.isPiece_of_not_mem piece.ne_nil fun held => same ?_
    exact (single.only operator known).1 (inside.subset held)

end Condition

namespace Solver

/-- The solver has the built-in type, and its operands were read
behind that tag. -/
structure Plain (solver : Solver) : Prop where
  tag : solver.typeTag = Kind.labelTag
  operands : ∀ operand ∈ solver.operands, Text.IsPiece '>' operand.toList

theorem Plain.add {solver : Solver} (plain : solver.Plain) {operand : String}
    (piece : Text.IsPiece '>' operand.toList) : (solver.add operand).Plain where
  tag := by rw [typeTag_add, plain.tag]
  operands := by
    rcases solver.add_eq_or operand with ⟨-, same⟩ | longer
    · rw [same]
      exact plain.operands
    · rw [longer, List.forall_mem_append]
      exact ⟨plain.operands, by simpa using piece⟩

theorem plain_of_label : (ofKind .label).Plain where
  tag := rfl
  operands := by simp

end Solver

namespace Table

variable {registry : Registry} {entries next last : List Entry} {edge : Edge}
  {text : String}

theorem isPiece_of_labelTag {condition : Condition}
    (parsed : Condition.parse? text = some condition)
    (tagged : condition.typeTag = Solver.Kind.labelTag) :
    Text.IsPiece '>' condition.operand.toList := by
  refine Condition.isPiece_operand parsed (fun operator known => ?_) (by decide)
  have apart :
      Condition.operators.toList.all (!Solver.Kind.labelTag.toList.contains ·) =
        true := by
    decide
  simpa [tagged] using List.all_eq_true.1 apart operator known

theorem Outcome.plain {record : Log.Record} {reuse : Bool}
    (outcome : Outcome (.builtin reuse) edge text entries next record)
    (plain : ∀ entry ∈ entries, entry.2.Plain) :
    ∀ entry ∈ next, entry.2.Plain := by
  cases outcome with
  | malformed => exact plain
  | unknown => exact plain
  | shared parsed _ layout _ typed =>
      subst layout
      simp only [List.forall_mem_append, List.forall_mem_cons] at plain ⊢
      obtain ⟨before, here, after⟩ := plain
      exact ⟨before,
        here.add (isPiece_of_labelTag parsed (typed.symm.trans here.tag)),
        after⟩
  | created parsed registered =>
      obtain ⟨tagged, rfl⟩ := Registry.kind?_builtin_eq_some_iff.1 registered
      rw [List.forall_mem_append, List.forall_mem_singleton]
      exact ⟨plain,
        Solver.plain_of_label.add (isPiece_of_labelTag parsed tagged)⟩

theorem Course.plain {moves : List Move} {log : List Log.Record} {reuse : Bool}
    (course : Course registry entries moves last log)
    (builtin : registry = .builtin reuse)
    (conditions : ∀ move ∈ moves, ∃ edge text, move = .condition edge text)
    (plain : ∀ entry ∈ entries, entry.2.Plain) :
    ∀ entry ∈ last, entry.2.Plain := by
  induction course with
  | nil => exact plain
  | register _ _ =>
      obtain ⟨edge, text, same⟩ := conditions _ List.mem_cons_self
      cases same
  | condition outcome _ ih =>
      subst builtin
      exact ih rfl (List.forall_mem_cons.1 conditions).2 (outcome.plain plain)

theorem plain_of_config (config : Config) :
    ∀ entry ∈ config.table.1.entries, entry.2.Plain := by
  obtain ⟨log, course⟩ := exists_course_of_config config
  exact course.plain rfl
    (fun _ => Move.exists_condition_of_mem_ofSpecs) (by simp)

theorem plain_of_mem_find {config : Config} {edge : Edge} {solver : Solver}
    (member : solver ∈ config.table.1.find edge) : solver.Plain :=
  plain_of_config config (edge, solver) (mem_find_iff.1 member)

end Table

namespace Report

/-- No dash stands before the head of an arrow. -/
def Arrowless (text : List Char) : Prop :=
  text.IsChain fun c d => c = '-' → d ≠ '>'

theorem not_arrowless {before after : List Char} :
    ¬ Arrowless (before ++ '-' :: '>' :: after) := by
  intro arrowless
  simpa using (List.isChain_cons_cons.1 (List.isChain_append.1 arrowless).2.1).1

theorem arrowless_of_isPiece {text : List Char}
    (single : Text.IsPiece '>' text) : Arrowless text := by
  obtain ⟨c, rest, rfl, free⟩ := single
  refine List.isChain_iff_forall_rel_of_append_cons_cons.2 ?_
  intro first second before after layout _ arrow
  apply free
  cases before with
  | nil =>
      obtain ⟨-, rfl⟩ := List.cons.inj layout
      simp [arrow]
  | cons _ before =>
      obtain ⟨-, rfl⟩ := List.cons.inj layout
      simp [arrow]

/-- A character that is in no arrow keeps the texts around it apart. -/
theorem Arrowless.around {before after : List Char} {c : Char}
    (inFront : Arrowless before) (behind : Arrowless after) (noDash : c ≠ '-')
    (noHead : c ≠ '>') :
    Arrowless (before ++ c :: after) := by
  refine List.isChain_split.2 ⟨inFront.append (List.isChain_singleton c) ?_,
    behind.cons ?_⟩
  · intro _ _ head first _
    cases first
    exact noHead
  · intro _ _ dash
    exact (noDash dash).elim

theorem arrowless_intercalate {texts : List String}
    (pieces : ∀ text ∈ texts, Text.IsPiece '>' text.toList) :
    Arrowless ("|".intercalate texts).toList := by
  rw [String.toList_intercalate]
  induction texts with
  | nil => exact List.isChain_nil
  | cons text rest ih =>
      obtain ⟨here, others⟩ := List.forall_mem_cons.1 pieces
      cases rest with
      | nil =>
          rw [List.map_singleton, List.intercalate_singleton]
          exact arrowless_of_isPiece here
      | cons next rest =>
          rw [List.map_cons, List.map_cons, List.intercalate_cons_cons,
            List.append_assoc]
          exact (arrowless_of_isPiece here).around (ih others) (by decide)
            (by decide)

theorem arrowless_line {solver : Solver} (plain : solver.Plain) :
    Arrowless solver.line.toList := by
  have tag : Arrowless Solver.Kind.labelTag.toList :=
    arrowless_of_isPiece (Text.isPiece_of_not_mem (by decide) (by decide))
  rw [Solver.line, plain.tag]
  rw [String.toList_append, String.toList_append, List.append_assoc]
  exact tag.around (arrowless_intercalate plain.operands) (by decide)
    (by decide)

theorem toList_unlines_cons (line : String) (rest : List String) :
    (unlines (line :: rest)).toList =
      line.toList ++ '\n' :: (unlines rest).toList := by
  simp [unlines]

theorem arrowless_unlines {solvers : List Solver}
    (plain : ∀ solver ∈ solvers, solver.Plain) :
    Arrowless (unlines (solvers.map Solver.line)).toList := by
  induction solvers with
  | nil => exact List.isChain_nil
  | cons solver rest ih =>
      obtain ⟨here, others⟩ := List.forall_mem_cons.1 plain
      rw [List.map_cons, toList_unlines_cons]
      exact (arrowless_line here).around (ih others) (by decide) (by decide)

def unfiltered (edge : Edge) : String :=
  edge.input ++ " -> " ++ edge.output ++ ": unfiltered"

theorem unlines_unfiltered (edge : Edge) :
    unlines [unfiltered edge] = edge.input ++ " -> " ++ edge.output ++
      ": unfiltered\n" := by
  simp [unlines, unfiltered, ← String.toList_inj]

theorem edge_eq (table : Table) (edge : Edge) :
    Report.edge table edge =
      if table.find edge = [] then [unfiltered edge]
      else (table.find edge).map Solver.line := by
  unfold Report.edge
  cases table.find edge <;> simp [Edge.line, unfiltered]

theorem unlines_edge_eq_unfiltered_iff (config : Config) (edge : Edge) :
    unlines (Report.edge config.table.1 edge) = unlines [unfiltered edge] ↔
      config.table.1.find edge = [] := by
  rw [edge_eq]
  constructor
  · intro same
    by_contra filled
    rw [if_neg filled] at same
    have plain : ∀ solver ∈ config.table.1.find edge, solver.Plain :=
      fun _ => Table.plain_of_mem_find
    have arrowless := arrowless_unlines plain
    have arrow : (unlines [unfiltered edge]).toList =
        (edge.input.toList ++ [' ']) ++
          '-' :: '>' ::
            (' ' :: edge.output.toList ++ ": unfiltered\n".toList) := by
      simp [unlines, unfiltered]
    rw [same, arrow] at arrowless
    exact not_arrowless arrowless
  · intro unbound
    rw [if_pos unbound]

end Report

end EdgeFilters
