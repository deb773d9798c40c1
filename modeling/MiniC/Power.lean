/-
Binding powers: how tightly an operator holds its operands.
-/

namespace MiniC

/-- The levels of precedence, lowest first. -/
inductive Power
  | default | comma | assignment | logical | relational | additive
  | multiplicative | unary | call | member | primary
deriving DecidableEq, Repr

namespace Power

/-- Every power once, from the lowest up. -/
def all : List Power :=
  [.default, .comma, .assignment, .logical, .relational, .additive,
   .multiplicative, .unary, .call, .member, .primary]

/-- The place of a power among the others. -/
def rank : Power → Nat
  | .default => 0
  | .comma => 1
  | .assignment => 2
  | .logical => 3
  | .relational => 4
  | .additive => 5
  | .multiplicative => 6
  | .unary => 7
  | .call => 8
  | .member => 9
  | .primary => 10

instance : LE Power := ⟨fun p q => p.rank ≤ q.rank⟩

instance : LT Power := ⟨fun p q => p.rank < q.rank⟩

instance (p q : Power) : Decidable (p ≤ q) :=
  inferInstanceAs (Decidable (p.rank ≤ q.rank))

instance (p q : Power) : Decidable (p < q) :=
  inferInstanceAs (Decidable (p.rank < q.rank))

instance : Ord Power := ⟨fun p q => compare p.rank q.rank⟩

/-- What does not bind at all has the lowest power. -/
instance : Inhabited Power := ⟨.default⟩

/-- Different powers have different places, so the order is total. -/
theorem rank_injective {p q : Power} (h : p.rank = q.rank) : p = q := by
  cases p <;> cases q <;> simp_all [rank]

/-- The name of a power in a log. -/
def label : Power → String
  | .default => "Default"
  | .comma => "Comma"
  | .assignment => "Assignment"
  | .logical => "Logical"
  | .relational => "Relational"
  | .additive => "Additive"
  | .multiplicative => "Multiplicative"
  | .unary => "Unary"
  | .call => "Call"
  | .member => "Member"
  | .primary => "Primary"

instance : ToString Power := ⟨label⟩

end Power

end MiniC
