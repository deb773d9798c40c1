/-
Precedence: what the rule for operands means for a reader that goes from left to
right.  A right operand ends at the first operator that does not bind above its
floor, so one phrase may stand to the left of an operator exactly when the right
operand of its own operator gives way to it.
-/
import MiniC.Proofs.Standard

namespace MiniC.Grammar

open Registry

theorem rank_comma : Power.comma.rank = 1 := rfl

theorem rank_assignment : Power.assignment.rank = 2 := rfl

theorem assigns_of_leftLevel? {kind : TokenKind} {level : Power}
    (h : leftLevel? kind = some level) :
    assigns kind = false ∧ level ≠ .assignment := by
  have hall : (leftLevel? kind).all
      (fun level => !assigns kind && level != .assignment) = true := by
    cases kind <;> rfl
  rw [h] at hall
  simpa using hall

/-- The floor above which the right operand of an operator lies. -/
def rightFloor (kind : TokenKind) : Power :=
  if assigns kind then .comma else (leftLevel? kind).getD .default

theorem rightFloor_of_assigns {kind : TokenKind} (h : assigns kind) :
    rightFloor kind = .comma := by
  simp [rightFloor, h]

theorem rightFloor_of_leftLevel? {kind : TokenKind} {level : Power}
    (h : leftLevel? kind = some level) : rightFloor kind = level := by
  simp [rightFloor, h, (assigns_of_leftLevel? h).1]

theorem level?_of_assigns {kind : TokenKind} (h : assigns kind) :
    level? kind = some .assignment := by
  simp [level?, h]

theorem level?_of_leftLevel? {kind : TokenKind} {level : Power}
    (h : leftLevel? kind = some level) : level? kind = some level := by
  simp [level?, h, (assigns_of_leftLevel? h).1]

/-- An operator is of one of two sorts. -/
theorem level?_cases {kind : TokenKind} {level : Power}
    (h : level? kind = some level) :
    leftLevel? kind = some level ∨ (assigns kind ∧ level = .assignment) := by
  by_cases hassigns : assigns kind = true
  · right
    rw [level?_of_assigns hassigns] at h
    exact ⟨hassigns, (Option.some.inj h).symm⟩
  · left
    simpa [level?, hassigns] using h

/-- An operator above a floor leaves its right operand a floor that is not
lower. -/
theorem le_rightFloor_of_lt {kind : TokenKind} {level floor : Power}
    (h : level? kind = some level) (hlt : floor < level) :
    floor ≤ rightFloor kind := by
  change floor.rank < level.rank at hlt
  change floor.rank ≤ (rightFloor kind).rank
  rcases level?_cases h with hleft | ⟨hassigns, rfl⟩
  · rw [rightFloor_of_leftLevel? hleft]
    omega
  · rw [rightFloor_of_assigns hassigns]
    rw [rank_assignment] at hlt
    rw [rank_comma]
    omega

/-- The operators of the standard registry are those of the grammar, and their
right operands are read at the floors of the grammar. -/
theorem standard_infixForm?_of_level {kind : TokenKind} {level : Power}
    (h : level? kind = some level) :
    ∃ form : InfixForm, (standard.entry kind).infixForm? = some form ∧
      form.rightFloor standard kind = rightFloor kind := by
  rw [standard_infixForm?]
  rcases level?_cases h with hleft | ⟨hassigns, rfl⟩
  · refine ⟨.binary, ?_, ?_⟩
    · simp [hleft, (assigns_of_leftLevel? hleft).1]
    · rw [InfixForm.rightFloor, standard_power_of_level h,
        rightFloor_of_leftLevel? hleft]
  · refine ⟨.assignment, ?_, ?_⟩
    · simp [hassigns]
    · rw [InfixForm.rightFloor, rightFloor_of_assigns hassigns]

theorem level?_of_standard_infixForm? {kind : TokenKind} {form : InfixForm}
    (h : (standard.entry kind).infixForm? = some form) :
    level? kind = some (standard.power kind) ∧
      form.rightFloor standard kind = rightFloor kind := by
  have hlevel : ∃ level, level? kind = some level := by
    rw [standard_infixForm?] at h
    by_cases hassigns : assigns kind = true
    · exact ⟨_, level?_of_assigns hassigns⟩
    · simp only [hassigns, Bool.false_eq_true, ↓reduceIte,
        Option.map_eq_some_iff] at h
      obtain ⟨level, hleft, _⟩ := h
      exact ⟨level, level?_of_leftLevel? hleft⟩
  obtain ⟨level, hlevel⟩ := hlevel
  obtain ⟨form', hform', hfloor⟩ := standard_infixForm?_of_level hlevel
  rw [h, Option.some.injEq] at hform'
  rw [standard_power_of_level hlevel]
  exact ⟨hlevel, hform' ▸ hfloor⟩

namespace Phrase

/-- The right operand of the phrase, where it has one, ends before an operator
of the given power. -/
def GivesWay (power : Power) (phrase : Phrase) : Prop :=
  ∀ kind, phrase.operator? = some kind → power ≤ rightFloor kind

/-- Every right operand that reaches the end of the phrase ends before an
operator of the given power. -/
def Closes (power : Power) : Phrase → Prop
  | leaf _ _ => True
  | grouped _ _ _ => True
  | binary _ operator right =>
      power ≤ rightFloor operator.kind ∧ right.Closes power

/-- Every operator is above the lowest floor. -/
theorem above_default (phrase : Phrase) : phrase.Above .default := by
  intro kind level _ hlevel
  change 0 < level.rank
  rcases level?_cases hlevel with hleft | ⟨_, rfl⟩
  · have hall : (leftLevel? kind).all (fun level => 0 < level.rank) = true := by
      cases kind <;> rfl
    rw [hleft] at hall
    simpa using hall
  · decide

theorem WellFormed.exists_level {phrase : Phrase} (h : phrase.WellFormed)
    {kind : TokenKind} (hkind : phrase.operator? = some kind) :
    ∃ level, level? kind = some level := by
  cases h with
  | leaf _ => simp [operator?] at hkind
  | grouped _ _ _ => simp [operator?] at hkind
  | leftward hlevel _ _ _ _ =>
      obtain rfl := Option.some.inj hkind
      exact ⟨_, level?_of_leftLevel? hlevel⟩
  | assigning hassigns _ _ _ _ =>
      obtain rfl := Option.some.inj hkind
      exact ⟨_, level?_of_assigns hassigns⟩

/-- To the left of an operator that takes in its own level on the left, a phrase
gives way exactly when it is of that level or above. -/
theorem givesWay_iff_atLeast {phrase : Phrase} (h : phrase.WellFormed)
    {kind : TokenKind} {level : Power} (hlevel : leftLevel? kind = some level) :
    phrase.GivesWay level ↔ phrase.AtLeast level := by
  have hne := (assigns_of_leftLevel? hlevel).2
  have hrank : level.rank ≠ Power.assignment.rank :=
    fun heq => hne (Power.rank_injective heq)
  rw [rank_assignment] at hrank
  constructor
  · intro hgives kind' level' hkind' hlevel'
    have hle := hgives kind' hkind'
    change level.rank ≤ level'.rank
    change level.rank ≤ (rightFloor kind').rank at hle
    rcases level?_cases hlevel' with hleft | ⟨hassigns, rfl⟩
    · rwa [rightFloor_of_leftLevel? hleft] at hle
    · rw [rightFloor_of_assigns hassigns] at hle
      rw [rank_comma] at hle
      rw [rank_assignment]
      omega
  · intro hatLeast kind' hkind'
    obtain ⟨level', hlevel'⟩ := h.exists_level hkind'
    have hle := hatLeast kind' level' hkind' hlevel'
    change level.rank ≤ level'.rank at hle
    change level.rank ≤ (rightFloor kind').rank
    rcases level?_cases hlevel' with hleft | ⟨hassigns, rfl⟩
    · rwa [rightFloor_of_leftLevel? hleft]
    · rw [rank_assignment] at hle
      rw [rightFloor_of_assigns hassigns, rank_comma]
      omega

/-- To the left of an operator that assigns, a phrase gives way exactly when it
is above that level. -/
theorem givesWay_iff_above_assignment {phrase : Phrase} (h : phrase.WellFormed) :
    phrase.GivesWay .assignment ↔ phrase.Above .assignment := by
  constructor
  · intro hgives kind level hkind hlevel
    have hle := hgives kind hkind
    change Power.assignment.rank ≤ (rightFloor kind).rank at hle
    change Power.assignment.rank < level.rank
    rcases level?_cases hlevel with hleft | ⟨hassigns, rfl⟩
    · have hne := (assigns_of_leftLevel? hleft).2
      have hrank : level.rank ≠ Power.assignment.rank :=
        fun heq => hne (Power.rank_injective heq)
      rw [rightFloor_of_leftLevel? hleft] at hle
      omega
    · rw [rightFloor_of_assigns hassigns, rank_assignment, rank_comma] at hle
      omega
  · intro habove kind hkind
    obtain ⟨level, hlevel⟩ := h.exists_level hkind
    have hlt := habove kind level hkind hlevel
    exact le_rightFloor_of_lt hlevel hlt

/-- At least the level of assignment is above the comma. -/
theorem above_comma_iff_atLeast_assignment {phrase : Phrase} :
    phrase.Above .comma ↔ phrase.AtLeast .assignment := by
  have hstep : ∀ level : Power, Power.comma < level ↔ Power.assignment ≤ level := by
    intro level
    exact Iff.rfl
  simp only [Above, AtLeast, hstep]

/-- The rule for operands in one form for both sorts of operators. -/
theorem wellFormed_binary_iff {left right : Phrase} {operator : Token} :
    (binary left operator right).WellFormed ↔
      ∃ level, level? operator.kind = some level ∧
        left.WellFormed ∧ left.GivesWay level ∧
        right.WellFormed ∧ right.Above (rightFloor operator.kind) := by
  constructor
  · intro h
    cases h with
    | leftward hlevel hleft hatLeast hright habove =>
        refine ⟨_, level?_of_leftLevel? hlevel, hleft, ?_, hright, ?_⟩
        · exact (givesWay_iff_atLeast hleft hlevel).2 hatLeast
        · rwa [rightFloor_of_leftLevel? hlevel]
    | assigning hassigns hleft habove hright hatLeast =>
        refine ⟨_, level?_of_assigns hassigns, hleft, ?_, hright, ?_⟩
        · exact (givesWay_iff_above_assignment hleft).2 habove
        · rw [rightFloor_of_assigns hassigns]
          exact above_comma_iff_atLeast_assignment.2 hatLeast
  · rintro ⟨level, hlevel, hleft, hgives, hright, habove⟩
    rcases level?_cases hlevel with hleftLevel | ⟨hassigns, rfl⟩
    · rw [rightFloor_of_leftLevel? hleftLevel] at habove
      exact .leftward hleftLevel hleft
        ((givesWay_iff_atLeast hleft hleftLevel).1 hgives) hright habove
    · rw [rightFloor_of_assigns hassigns] at habove
      exact .assigning hassigns hleft
        ((givesWay_iff_above_assignment hleft).1 hgives) hright
        (above_comma_iff_atLeast_assignment.1 habove)

/-- What lies above a floor as a whole does so on its left side. -/
theorem Above.left {left right : Phrase} {operator : Token} {floor level : Power}
    (hlevel : level? operator.kind = some level)
    (habove : (binary left operator right).Above floor)
    (hgives : left.GivesWay level) :
    left.Above floor := by
  intro kind level' hkind hlevel'
  have hlt := habove operator.kind level rfl hlevel
  have hle := hgives kind hkind
  change floor.rank < level.rank at hlt
  change level.rank ≤ (rightFloor kind).rank at hle
  change floor.rank < level'.rank
  rcases level?_cases hlevel' with hleftLevel | ⟨hassigns, rfl⟩
  · rw [rightFloor_of_leftLevel? hleftLevel] at hle
    omega
  · rw [rightFloor_of_assigns hassigns, rank_comma] at hle
    rw [rank_assignment]
    omega

/-- A phrase above a floor closes before an operator that is not. -/
theorem WellFormed.closes_of_above {phrase : Phrase} (h : phrase.WellFormed)
    {floor power : Power} (habove : phrase.Above floor) (hle : power ≤ floor) :
    phrase.Closes power := by
  induction phrase generalizing floor with
  | leaf token value => trivial
  | grouped opening inner closing => trivial
  | binary left operator right ihleft ihright =>
      obtain ⟨level, hlevel, _, _, hright, hrightAbove⟩ :=
        wellFormed_binary_iff.1 h
      have hlt := habove operator.kind level rfl hlevel
      have hfloor := le_rightFloor_of_lt hlevel hlt
      have hpower : power ≤ rightFloor operator.kind :=
        Nat.le_trans hle hfloor
      exact ⟨hpower, ihright hright hrightAbove hpower⟩

/-- A phrase that gives way to an operator closes before it. -/
theorem WellFormed.closes_of_givesWay {phrase : Phrase} (h : phrase.WellFormed)
    {power : Power} (hgives : phrase.GivesWay power) : phrase.Closes power := by
  cases phrase with
  | leaf token value => trivial
  | grouped opening inner closing => trivial
  | binary left operator right =>
      obtain ⟨level, hlevel, _, _, hright, hrightAbove⟩ :=
        wellFormed_binary_iff.1 h
      have hpower := hgives operator.kind rfl
      exact ⟨hpower, hright.closes_of_above hrightAbove hpower⟩

end Phrase

end MiniC.Grammar
