/-
What a row of registrations makes of the empty registry: of each kind the last
registration counts for the power, and the last one of a sort for the form of
that sort.
-/
import Mathlib.Data.List.Induction
import MiniC.Registry.Basic

namespace MiniC

namespace Registration

/-- The form that is registered to begin expressions, if that is the sort. -/
def prefixForm? : Registration → Option PrefixForm
  | prefixForm _ form => some form
  | _ => none

/-- The form that is registered to go on with expressions, if that is the
sort. -/
def infixForm? : Registration → Option InfixForm
  | infixForm _ _ form => some form
  | _ => none

/-- The form that is registered to be a statement, if that is the sort. -/
def statementForm? : Registration → Option StatementForm
  | statementForm _ form => some form
  | _ => none

/-- The registrations of one kind, in their order. -/
def ofKind (kind : TokenKind) (registrations : List Registration) :
    List Registration :=
  registrations.filter fun registration => registration.kind = kind

variable {α : Type}

/-- What the last registration of a kind gives that gives something. -/
def lastOf (f : Registration → Option α) (kind : TokenKind)
    (registrations : List Registration) : Option α :=
  (ofKind kind registrations).reverse.findSome? f

/-- The power that the last registration of a kind gives to it, of whatever sort
that is. -/
def lastPower (kind : TokenKind) (registrations : List Registration) : Power :=
  (lastOf (fun registration => some registration.power) kind registrations).getD
    .default

/-- About a kind the two rows of registrations say the same in the end. -/
structure SameLast (kind : TokenKind) (registrations registrations' : List Registration) :
    Prop where
  power : lastPower kind registrations' = lastPower kind registrations
  prefixForm :
    lastOf prefixForm? kind registrations' = lastOf prefixForm? kind registrations
  infixForm :
    lastOf infixForm? kind registrations' = lastOf infixForm? kind registrations
  statementForm :
    lastOf statementForm? kind registrations' = lastOf statementForm? kind registrations

instance (kind : TokenKind) (registrations registrations' : List Registration) :
    Decidable (SameLast kind registrations registrations') :=
  decidable_of_iff
    (lastPower kind registrations' = lastPower kind registrations ∧
      lastOf prefixForm? kind registrations' = lastOf prefixForm? kind registrations ∧
      lastOf infixForm? kind registrations' = lastOf infixForm? kind registrations ∧
      lastOf statementForm? kind registrations' =
        lastOf statementForm? kind registrations)
    ⟨fun ⟨hpower, hprefix, hinfix, hstatement⟩ => ⟨hpower, hprefix, hinfix, hstatement⟩,
      fun h => ⟨h.power, h.prefixForm, h.infixForm, h.statementForm⟩⟩

/-- The later registration is of the same kind and sort, so it takes back all
that the earlier one says. -/
inductive Overwrites : (later earlier : Registration) → Prop
  | prefixForm {kind : TokenKind} {form form' : PrefixForm} :
      Overwrites (.prefixForm kind form') (.prefixForm kind form)
  | infixForm {kind : TokenKind} {power power' : Power} {form form' : InfixForm} :
      Overwrites (.infixForm kind power' form') (.infixForm kind power form)
  | statementForm {kind : TokenKind} {form form' : StatementForm} :
      Overwrites (.statementForm kind form') (.statementForm kind form)

theorem ofKind_cons_self (registration : Registration)
    (registrations : List Registration) :
    ofKind registration.kind (registration :: registrations) =
      registration :: ofKind registration.kind registrations := by
  simp [ofKind]

theorem ofKind_cons_of_ne {kind : TokenKind} {registration : Registration}
    (h : registration.kind ≠ kind) (registrations : List Registration) :
    ofKind kind (registration :: registrations) = ofKind kind registrations := by
  simp [ofKind, h]

theorem ofKind_append (kind : TokenKind) (first second : List Registration) :
    ofKind kind (first ++ second) = ofKind kind first ++ ofKind kind second :=
  List.filter_append first second

/-- What is registered later comes first. -/
theorem lastOf_append (f : Registration → Option α) (kind : TokenKind)
    (first second : List Registration) :
    lastOf f kind (first ++ second) =
      (lastOf f kind second).or (lastOf f kind first) := by
  rw [lastOf, ofKind_append, List.reverse_append, List.findSome?_append]
  rfl

theorem lastOf_singleton_self (f : Registration → Option α)
    (registration : Registration) :
    lastOf f registration.kind [registration] = f registration := by
  rw [lastOf, ofKind_cons_self]
  simp [ofKind]

theorem lastOf_singleton_of_ne (f : Registration → Option α) {kind : TokenKind}
    {registration : Registration} (h : registration.kind ≠ kind) :
    lastOf f kind [registration] = none := by
  rw [lastOf, ofKind_cons_of_ne h]
  rfl

/-- Only the registrations of a kind have a say about it. -/
theorem sameLast_of_ofKind_eq {kind : TokenKind}
    {registrations registrations' : List Registration}
    (h : ofKind kind registrations' = ofKind kind registrations) :
    SameLast kind registrations registrations' := by
  have hlast : ∀ {α : Type} (f : Registration → Option α),
      lastOf f kind registrations' = lastOf f kind registrations := by
    intro α f
    rw [lastOf, lastOf, h]
  refine ⟨?_, hlast _, hlast _, hlast _⟩
  rw [lastPower, lastPower, hlast]

/-- A registration gives nothing in the end if a later one of its kind gives
something wherever it does. -/
theorem lastOf_eq_of_later {f : Registration → Option α} {later earlier : Registration}
    (hkind : later.kind = earlier.kind) (h : (f earlier).isSome → (f later).isSome)
    (kind : TokenKind) (before between after : List Registration) :
    lastOf f kind (before ++ (between ++ later :: after)) =
      lastOf f kind (before ++ earlier :: (between ++ later :: after)) := by
  rw [List.append_cons before earlier, List.append_cons between later]
  simp only [lastOf_append, Option.or_assoc]
  congr 1
  by_cases hne : earlier.kind = kind
  · subst hne
    have hlater := lastOf_singleton_self f later
    rw [hkind] at hlater
    rw [hlater, lastOf_singleton_self]
    cases hearlier : f earlier with
    | none => rfl
    | some a =>
        obtain ⟨b, hb⟩ := Option.isSome_iff_exists.1 (h (by rw [hearlier]; rfl))
        rw [hb]
        rfl
  · rw [lastOf_singleton_of_ne f hne]
    rfl

/-- What is overwritten later on might as well be left out. -/
theorem Overwrites.sameLast {later earlier : Registration}
    (h : later.Overwrites earlier) (kind : TokenKind)
    (before between after : List Registration) :
    SameLast kind (before ++ earlier :: (between ++ later :: after))
      (before ++ (between ++ later :: after)) := by
  have hkind : later.kind = earlier.kind := by cases h <;> rfl
  constructor
  · rw [lastPower, lastPower, lastOf_eq_of_later hkind]
    exact fun _ => rfl
  all_goals
    apply lastOf_eq_of_later hkind
    cases h <;> exact id

end Registration

open Registration

/-- A registry knows about a kind what was said last about it. -/
theorem Registry.entry_registerAll_empty (registrations : List Registration)
    (kind : TokenKind) :
    (empty.registerAll registrations).entry kind =
      ⟨lastPower kind registrations, lastOf prefixForm? kind registrations,
        lastOf infixForm? kind registrations,
        lastOf statementForm? kind registrations⟩ := by
  induction registrations using List.reverseRecOn with
  | nil => rfl
  | append_singleton before registration ih =>
      have hlast : empty.registerAll (before ++ [registration]) =
          (empty.registerAll before).register registration := by
        simp [registerAll]
      rw [hlast]
      simp only [lastPower, lastOf_append]
      by_cases hkind : registration.kind = kind
      · subst hkind
        simp only [lastOf_singleton_self]
        rw [entry_register_self, ih]
        cases registration <;> rfl
      · simp only [lastOf_singleton_of_ne _ hkind]
        exact (entry_register_of_ne _ _ (Ne.symm hkind)).trans ih

theorem Registry.entry_eq_of_sameLast {kind : TokenKind}
    {registrations registrations' : List Registration}
    (h : SameLast kind registrations registrations') :
    (empty.registerAll registrations').entry kind =
      (empty.registerAll registrations).entry kind := by
  rw [entry_registerAll_empty, entry_registerAll_empty, h.power, h.prefixForm,
    h.infixForm, h.statementForm]

end MiniC
