namespace EdgeFilters.Text

/-- The value of a digit that the base has. -/
def digit? (base : Nat) (c : Char) : Option Nat :=
  let value? :=
    if '0' ≤ c ∧ c ≤ '9' then some (c.toNat - '0'.toNat)
    else if 'a' ≤ c ∧ c ≤ 'f' then some (c.toNat - 'a'.toNat + 10)
    else if 'A' ≤ c ∧ c ≤ 'F' then some (c.toNat - 'A'.toNat + 10)
    else none
  value?.filter (· < base)

/-- The number that digits spell after those already read. -/
def digits? (base read : Nat) : List Char → Option Nat
  | [] => some read
  | c :: rest => do digits? base (base * read + (← digit? base c)) rest

/-- The number that digits spell, of which there must be one at least. -/
def number? (base : Nat) (text : List Char) : Option Nat :=
  if text.isEmpty then none else digits? base 0 text

end EdgeFilters.Text
