import EdgeFilters.Proofs.Fits

/-! The fields of a mapping, in the order of the document, each of them once. -/

namespace EdgeFilters.Schema

open Yaml (Document Node)

/-- Fitting succeeds with this value, and the count of the aliases goes from one
number to another. -/
def Fitting.Yields {α : Type} (fitting : Fitting α) (before : Nat) (value : α)
    (after : Nat) : Prop :=
  fitting.run.run before = (.ok value, after)

namespace Fitting

variable {α β : Type} {before after : Nat}

theorem yields_pure {given value : α} :
    Yields (pure given) before value after ↔
      value = given ∧ after = before := by
  change (Except.ok given, before) = (Except.ok value, after) ↔ _
  simp [eq_comm]

theorem yields_throw {misfit : Misfit} {value : α} :
    Yields (throw misfit) before value after ↔ False := by
  change (Except.error misfit, before) = (Except.ok value, after) ↔ _
  simp

theorem yields_bind {first : Fitting α} {next : α → Fitting β} {value : β} :
    Yields (first >>= next) before value after ↔
      ∃ given middle, Yields first before given middle ∧
        Yields (next given) middle value after := by
  unfold Yields
  rw [ExceptT.run_bind, StateT.run_bind]
  obtain ⟨result, middle⟩ : Except Misfit α × Nat := first.run.run before
  cases result with
  | ok given =>
      change (next given).run.run middle = _ ↔ _
      constructor
      · exact fun yields => ⟨given, middle, rfl, yields⟩
      · rintro ⟨_, _, same, yields⟩
        cases same
        exact yields
  | error misfit =>
      change (Except.error misfit, middle) = (Except.ok value, after) ↔ _
      constructor
      · intro same
        cases same
      · rintro ⟨_, _, same, _⟩
        cases same

theorem yields_bind_pure {first : Fitting α} {make : α → β} {value : β} :
    Yields (first >>= fun given => pure (make given)) before value after ↔
      ∃ given, Yields first before given after ∧ value = make given := by
  simp only [yields_bind, yields_pure]
  constructor
  · rintro ⟨given, _, yields, rfl, rfl⟩
    exact ⟨given, yields, rfl⟩
  · rintro ⟨given, yields, rfl⟩
    exact ⟨given, _, yields, rfl, rfl⟩

theorem yields_bind_pure_of {first : Fitting α} {holds : α → Prop} {cost : Nat}
    {make : α → β}
    {value : β}
    (reads : ∀ given, Yields first before given after ↔
      holds given ∧ after = cost) :
    Yields (first >>= fun given => pure (make given)) before value after ↔
      (∃ given, holds given ∧ value = make given) ∧ after = cost := by
  simp only [yields_bind_pure, reads, ← exists_and_right]
  exact exists_congr fun _ => and_right_comm

theorem yields_foldlM_cons {step : α → β → Fitting α} {start last : α}
    {item : β} {rest : List β} :
    Yields ((item :: rest).foldlM step start) before last after ↔
      ∃ next middle, Yields (step start item) before next middle ∧
        Yields (rest.foldlM step next) middle last after := by
  rw [List.foldlM_cons, yields_bind]

end Fitting

/-- What is known of a field before and after these values: a
field is taken once. -/
inductive Takes {α : Type} (holds : Node → α → Prop) :
    Option α → List Node → Option α → Prop
  | done {known : Option α} : Takes holds known [] known
  | take {value : Node} {rest : List Node} {content : α} {last : Option α}
      (here : holds value content)
      (later : Takes holds (some content) rest last) :
      Takes holds none (value :: rest) last

section Takes

variable {α : Type} {holds : Node → α → Prop} {known last : Option α}
  {value : Node} {rest : List Node} {content : α}

theorem takes_nil_iff : Takes holds known [] last ↔ last = known := by
  constructor
  · rintro ⟨⟩
    rfl
  · rintro rfl
    exact .done

theorem takes_cons_iff :
    Takes holds known (value :: rest) last ↔
      known = none ∧ ∃ content, holds value content ∧
        Takes holds (some content) rest last := by
  constructor
  · rintro (_ | ⟨here, later⟩)
    exact ⟨rfl, _, here, later⟩
  · rintro ⟨rfl, content, here, later⟩
    exact .take here later

theorem takes_some_iff {values : List Node} :
    Takes holds (some content) values last ↔
      values = [] ∧ last = some content := by
  cases values with
  | nil => simp [takes_nil_iff]
  | cons => simp [takes_cons_iff]

theorem takes_none_some_iff {values : List Node} :
    Takes holds none values (some content) ↔
      ∃ value, values = [value] ∧ holds value content := by
  cases values with
  | nil => simp [takes_nil_iff]
  | cons value rest =>
      simp only [takes_cons_iff, takes_some_iff, Option.some.injEq, true_and,
        List.cons.injEq]
      constructor
      · rintro ⟨_, held, rfl, rfl⟩
        exact ⟨value, ⟨rfl, rfl⟩, held⟩
      · rintro ⟨_, ⟨rfl, rfl⟩, held⟩
        exact ⟨content, held, rfl, rfl⟩

theorem takes_none_none_iff {values : List Node} :
    Takes holds none values none ↔ values = [] := by
  cases values with
  | nil => simp [takes_nil_iff]
  | cons value rest => simp [takes_cons_iff, takes_some_iff]

end Takes

/-- Fields that entries are gathered into, by the names of their keys. -/
structure Fields (Field Draft : Type) where
  Value : Field → Type
  holds : Document → (field : Field) → Node → Value field → Prop
  names : Field → List String
  field? : String → Option Field
  field?_eq_some_iff : ∀ {name field}, field? name = some field ↔
    name ∈ names field
  get : Draft → (field : Field) → Option (Value field)
  set : Draft → (field : Field) → Value field → Draft
  get_set_same : ∀ {draft field content},
    get (set draft field content) field = some content
  get_set_other : ∀ {draft field content other}, other ≠ field →
    get (set draft field content) other = get draft other

namespace Fields

open Fitting

variable {Field Draft : Type} {fields : Fields Field Draft}
  {document : Document} {start : Draft}
  {result : (field : Field) → Option (fields.Value field)} {entry : Node × Node}
  {entries rest : List (Node × Node)} {name : String} {field : Field}
  {before after : Nat}

/-- What is known of the fields before and after the values of these entries. -/
def Taken (fields : Fields Field Draft) (document : Document) (start : Draft)
    (result : (field : Field) → Option (fields.Value field))
    (entries : List (Node × Node)) : Prop :=
  ∀ field, Takes (fields.holds document field) (fields.get start field)
    (valuesOf document (fields.names field) entries) (result field)

theorem not_mem_names (unknown : fields.field? name = none) (field : Field) :
    name ∉ fields.names field := fun member => by
  rw [fields.field?_eq_some_iff.2 member] at unknown
  contradiction

theorem taken_nil_iff :
    fields.Taken document start result [] ↔
      ∀ field, fields.get start field = result field := by
  simp only [Taken, valuesOf_nil, takes_nil_iff, eq_comm]

theorem taken_cons_of_none (text : HoldsText document entry.1 name)
    (unknown : fields.field? name = none) :
    fields.Taken document start result (entry :: rest) ↔
      fields.Taken document start result rest := by
  refine forall_congr' fun field => ?_
  rw [valuesOf_cons_of_not_mem text (not_mem_names unknown field)]

theorem taken_cons_of_some (text : HoldsText document entry.1 name)
    (known : fields.field? name = some field) :
    fields.Taken document start result (entry :: rest) ↔
      fields.get start field = none ∧ ∃ content,
        fields.holds document field entry.2 content ∧
        fields.Taken document (fields.set start field content) result rest := by
  have here : valuesOf document (fields.names field) (entry :: rest) =
      entry.2 :: valuesOf document (fields.names field) rest :=
    valuesOf_cons_of_mem text (fields.field?_eq_some_iff.1 known)
  have elsewhere {other : Field} (different : other ≠ field) :
      valuesOf document (fields.names other) (entry :: rest) =
        valuesOf document (fields.names other) rest := by
    refine valuesOf_cons_of_not_mem text fun member => different ?_
    have both := fields.field?_eq_some_iff.2 member
    rw [known] at both
    exact (Option.some.inj both).symm
  constructor
  · intro taken
    have own := taken field
    rw [here, takes_cons_iff] at own
    obtain ⟨fresh, content, held, later⟩ := own
    refine ⟨fresh, content, held, fun other => ?_⟩
    by_cases same : other = field
    · subst same
      rwa [fields.get_set_same]
    · rw [fields.get_set_other same, ← elsewhere same]
      exact taken other
  · rintro ⟨fresh, content, held, taken⟩ other
    have later := taken other
    by_cases same : other = field
    · subst same
      rw [fields.get_set_same] at later
      rw [here, takes_cons_iff]
      exact ⟨fresh, content, held, later⟩
    · rw [fields.get_set_other same] at later
      rwa [elsewhere same]

/-- The draft behind one entry. An unknown name leaves it, a known one
is not taken yet. -/
def Next (fields : Fields Field Draft) (document : Document) (start : Draft)
    (name : String) (value : Node) (next : Draft) : Prop :=
  match fields.field? name with
  | none => next = start
  | some field =>
      fields.get start field = none ∧
        ∃ content, fields.holds document field value content ∧
          next = fields.set start field content

theorem next_of_none {value : Node} {next : Draft}
    (unknown : fields.field? name = none) :
    fields.Next document start name value next ↔ next = start := by
  rw [Next, unknown]

theorem next_of_some {value : Node} {next : Draft}
    (known : fields.field? name = some field) :
    fields.Next document start name value next ↔
      fields.get start field = none ∧ ∃ content,
        fields.holds document field value content ∧
        next = fields.set start field content := by
  rw [Next, known]

theorem exists_next_iff (text : HoldsText document entry.1 name) :
    (∃ next, fields.Next document start name entry.2 next ∧
        fields.Taken document next result rest) ↔
      fields.Taken document start result (entry :: rest) := by
  cases known : fields.field? name with
  | none =>
      simp only [next_of_none known, taken_cons_of_none text known,
        exists_eq_left]
  | some field =>
      simp only [next_of_some known, taken_cons_of_some text known]
      constructor
      · rintro ⟨_, ⟨fresh, content, held, rfl⟩, taken⟩
        exact ⟨fresh, content, held, taken⟩
      · rintro ⟨fresh, content, held, taken⟩
        exact ⟨_, ⟨fresh, content, held, rfl⟩, taken⟩

/-- Adding an entry makes the next draft, and follows the aliases of the key
and, at a price, of the value. -/
def Adds (fields : Fields Field Draft) (document : Document)
    (price : String → Node → Nat) (add : Draft → Node × Node → Fitting Draft) :
    Prop :=
  ∀ {start next : Draft} {entry : Node × Node} {before after : Nat},
    (add start entry).Yields before next after ↔
      ∃ name, HoldsText document entry.1 name ∧
        fields.Next document start name entry.2 next ∧
        after = before + (entry.1.aliasCount + price name entry.2)

/-- What gathering leaves is said of the values under each name, and the order
of the entries does not show in it. -/
theorem Adds.yields_foldlM {price : String → Node → Nat}
    {add : Draft → Node × Node → Fitting Draft}
    (adds : fields.Adds document price add) :
    (∃ last, (entries.foldlM add start).Yields before last after ∧
        ∀ field, fields.get last field = result field) ↔
      KeysAreTexts document entries ∧
        fields.Taken document start result entries ∧
        after = before + aliasesIn document price entries := by
  induction entries generalizing start before after with
  | nil =>
      simp only [List.foldlM_nil, yields_pure, keysAreTexts_nil, taken_nil_iff,
        aliasesIn_nil, true_and, Nat.add_zero]
      constructor
      · rintro ⟨_, ⟨rfl, rfl⟩, found⟩
        exact ⟨found, rfl⟩
      · rintro ⟨found, rfl⟩
        exact ⟨start, ⟨rfl, rfl⟩, found⟩
  | cons entry rest ih =>
      simp only [yields_foldlM_cons, keysAreTexts_cons]
      constructor
      · rintro ⟨last, ⟨next, _, added, later⟩, found⟩
        obtain ⟨name, text, step, rfl⟩ := adds.1 added
        obtain ⟨keys, taken, rfl⟩ := ih.1 ⟨last, later, found⟩
        refine ⟨⟨⟨name, text⟩, keys⟩,
          (exists_next_iff text).1 ⟨next, step, taken⟩, ?_⟩
        rw [aliasesIn_cons text, Nat.add_assoc]
      · rintro ⟨⟨⟨name, text⟩, keys⟩, taken, rfl⟩
        obtain ⟨next, step, taken⟩ := (exists_next_iff text).2 taken
        rw [aliasesIn_cons text, ← Nat.add_assoc]
        obtain ⟨last, later, found⟩ := ih.2 ⟨keys, taken, rfl⟩
        exact ⟨last, ⟨next, _, adds.2 ⟨name, text, step, rfl⟩, later⟩, found⟩

end Fields

end EdgeFilters.Schema
