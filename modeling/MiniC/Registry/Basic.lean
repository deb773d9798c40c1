/-
Registries: which grammatical form a token of each kind opens or continues.
-/
import MiniC.Power
import MiniC.Token.Kind

namespace MiniC

/-- The forms that an expression begins with: a literal or a name, or an
expression between parentheses. -/
inductive PrefixForm
  | primary | grouping
deriving DecidableEq, Repr

/-- The forms that go on with an expression after an operand. -/
inductive InfixForm
  | binary | assignment
deriving DecidableEq, Repr

/-- The forms of statements that a token of their own announces. -/
inductive StatementForm
  | block | comment | includeDirective | returning | declaration
deriving DecidableEq, Repr

/-- What is known about one kind of token. -/
structure Entry where
  power : Power
  prefixForm? : Option PrefixForm
  infixForm? : Option InfixForm
  statementForm? : Option StatementForm
deriving DecidableEq, Repr

/-- Nothing is known about the kind: it opens no form, and it binds least. -/
def Entry.none : Entry := ⟨.default, .none, .none, .none⟩

/-- A grammar as a table: an entry for every kind of token. -/
structure Registry where
  entry : TokenKind → Entry

/-- One addition to a registry.  An infix form comes with the power of its
operator; the other two have a power of their own. -/
inductive Registration
  | prefixForm (kind : TokenKind) (form : PrefixForm)
  | infixForm (kind : TokenKind) (power : Power) (form : InfixForm)
  | statementForm (kind : TokenKind) (form : StatementForm)
deriving DecidableEq, Repr

namespace Registration

/-- The kind that a registration is about. -/
def kind : Registration → TokenKind
  | prefixForm kind _ => kind
  | infixForm kind _ _ => kind
  | statementForm kind _ => kind

/-- The power that a registration gives to its kind. -/
def power : Registration → Power
  | prefixForm _ _ => .primary
  | infixForm _ power _ => power
  | statementForm _ _ => .default

/-- An entry after a registration of its kind.  The power is replaced whatever
the form; forms of the other two sorts stay as they are. -/
def update (registration : Registration) (entry : Entry) : Entry :=
  match registration with
  | prefixForm _ form =>
      { entry with power := .primary, prefixForm? := some form }
  | infixForm _ power form => { entry with power, infixForm? := some form }
  | statementForm _ form =>
      { entry with power := .default, statementForm? := some form }

end Registration

namespace Registry

/-- The registry that knows no forms. -/
def empty : Registry := ⟨fun _ => .none⟩

/-- A registry with one more registration. -/
def register (registry : Registry) (registration : Registration) : Registry :=
  ⟨fun kind =>
    if kind = registration.kind then registration.update (registry.entry kind)
    else registry.entry kind⟩

/-- A registry with several more registrations, made in order. -/
def registerAll (registry : Registry) (registrations : List Registration) :
    Registry :=
  registrations.foldl register registry

/-- The power with which a kind goes on with an expression. -/
def power (registry : Registry) (kind : TokenKind) : Power :=
  (registry.entry kind).power

/-- A registration changes the entry of its own kind. -/
theorem entry_register_self (registry : Registry) (registration : Registration) :
    (registry.register registration).entry registration.kind =
      registration.update (registry.entry registration.kind) := by
  simp [register]

/-- A registration leaves the entries of other kinds alone. -/
theorem entry_register_of_ne (registry : Registry) (registration : Registration)
    {kind : TokenKind} (h : kind ≠ registration.kind) :
    (registry.register registration).entry kind = registry.entry kind := by
  simp [register, h]

end Registry

end MiniC
