import EdgeFilters.Solver

namespace EdgeFilters

structure Registry where
  /-- What each tag builds; the entry nearest the front counts. -/
  kinds : List (String × Solver.Kind)
  /-- Whether a bound solver of the same type takes further conditions. -/
  reuse : Bool
  deriving DecidableEq, Repr

namespace Registry

/-- The registry with the built-in kind alone. -/
def builtin (reuse : Bool) : Registry where
  kinds := [(Solver.Kind.labelTag, .label)]
  reuse

/-- The tag stands for this kind from now on, whatever it stood for before. -/
def register (registry : Registry) (typeTag : String) (kind : Solver.Kind) :
    Registry :=
  { registry with kinds := (typeTag, kind) :: registry.kinds }

def kind? (registry : Registry) (typeTag : String) : Option Solver.Kind :=
  registry.kinds.lookup typeTag

def isRegistered (registry : Registry) (typeTag : String) : Bool :=
  (registry.kind? typeTag).isSome

/-- A new solver for the tag, without operands. -/
def create? (registry : Registry) (typeTag : String) : Option Solver :=
  (registry.kind? typeTag).map Solver.ofKind

/-- Where the operand of a condition goes. -/
inductive Resolution where
  | existing (id : Nat)
  | created (solver : Solver)
  deriving DecidableEq, Repr

/-- With reuse, the first bound solver that reports the tag as its type; else a
new solver, if the tag is registered. -/
def resolve? (registry : Registry) (typeTag : String)
    (bound : List (Nat × Solver)) : Option Resolution :=
  let shared := if registry.reuse then
    bound.find? (·.2.typeTag == typeTag) else none
  match shared with
  | some (id, _) => some (.existing id)
  | none => (registry.create? typeTag).map .created

@[simp] theorem reuse_register (registry : Registry) (typeTag : String)
    (kind : Solver.Kind) :
    (registry.register typeTag kind).reuse = registry.reuse := rfl

theorem kind?_register (registry : Registry) (typeTag other : String)
    (kind : Solver.Kind) :
    (registry.register typeTag kind).kind? other =
      if other = typeTag then some kind else registry.kind? other := by
  unfold kind? register
  rw [List.lookup_cons]
  by_cases same : other = typeTag
  · simp [same]
  · simp [same, beq_false_of_ne same]

@[simp] theorem isRegistered_register (registry : Registry) (typeTag : String)
    (kind : Solver.Kind) :
    (registry.register typeTag kind).isRegistered typeTag = true := by
  simp [isRegistered, kind?_register]

end Registry

end EdgeFilters
