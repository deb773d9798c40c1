/-
What whole numerals denote: the number that their digits have by their places, in
base sixteen behind a mark and in base ten otherwise.  Reading them gives this number
where a word can hold it, and fails where none can.
-/
import Mathlib.Data.Nat.Digits.Lemmas
import Mathlib.Tactic.Ring
import MiniC.Numeral.Whole
import MiniC.Proofs.Lexeme.Language

namespace MiniC.Numeral

/-- The value of a digit: its place among the digits, where capitals count as small
letters. -/
def digitValue (c : Char) : Nat :=
  "0123456789abcdef".toList.idxOf c.toLower

/-- The number that digits denote by their places, the last one counting ones. -/
def positional (base : Nat) (digits : List Char) : Nat :=
  Nat.ofDigits base (digits.reverse.map digitValue)

/-- A whole numeral as it is written, and the number it denotes. -/
inductive Spells : (text : List Char) → (n : Nat) → Prop
  | decimal {digits : List Char} :
      digits ≠ [] → (∀ c ∈ digits, c.isDigit) → Spells digits (positional 10 digits)
  | hexadecimal {x : Char} {digits : List Char} :
      x = 'x' ∨ x = 'X' → digits ≠ [] → (∀ c ∈ digits, Category.isHexDigit c) →
      Spells ('0' :: x :: digits) (positional 16 digits)

/-- The same of a numeral that has the letter of an unsigned literal behind it. -/
def SpellsUnsigned (text : List Char) (n : Nat) : Prop :=
  ∃ front u, text = front ++ [u] ∧ (u = 'u' ∨ u = 'U') ∧ Spells front n

theorem positional_cons (base : Nat) (c : Char) (digits : List Char) :
    positional base (c :: digits) =
      digitValue c * base ^ digits.length + positional base digits := by
  rw [positional, List.reverse_cons, List.map_append, Nat.ofDigits_append,
    List.length_map, List.length_reverse, Nat.add_comm, Nat.mul_comm]
  simp [positional]

theorem toNat_lt_of_isHexDigit {c : Char} (h : Category.isHexDigit c) :
    c.toNat < 128 := by
  simp only [Category.isHexDigit, Char.isDigit, Bool.or_eq_true, Bool.and_eq_true,
    decide_eq_true_eq] at h
  rcases h with (⟨_, h⟩ | ⟨_, h⟩) | ⟨_, h⟩
  all_goals
    have hle := UInt32.le_iff_toNat_le.1 h
    exact Nat.lt_of_le_of_lt hle (by decide)

/-- Digits are read at their values, small letters and capitals alike. -/
theorem digitValue?_eq {c : Char} (h : Category.isHexDigit c) :
    digitValue? c = some (digitValue c) ∧ digitValue c < 16 ∧
      (c.isDigit → digitValue c < 10) := by
  have hall : ∀ n < 128, Category.isHexDigit (.ofNat n) →
      digitValue? (.ofNat n) = some (digitValue (.ofNat n)) ∧
        digitValue (.ofNat n) < 16 ∧
          ((Char.ofNat n).isDigit → digitValue (.ofNat n) < 10) := by decide
  have hchar := hall c.toNat (toNat_lt_of_isHexDigit h)
  rw [Char.ofNat_toNat] at hchar
  exact hchar h

theorem isHexDigit_of_isDigit {c : Char} (h : c.isDigit) : Category.isHexDigit c := by
  simp [Category.isHexDigit, h]

/-- Digits that are read after a number are put behind it. -/
theorem readOn_eq {base : Nat} {digits : List Char}
    (h : ∀ c ∈ digits, digitValue? c = some (digitValue c) ∧ digitValue c < base)
    (value : Nat) :
    readOn base value digits =
      some (value * base ^ digits.length + positional base digits) := by
  induction digits generalizing value with
  | nil => simp [readOn, positional]
  | cons c digits ih =>
      obtain ⟨⟨hvalue, hlt⟩, hrest⟩ := List.forall_mem_cons.1 h
      rw [readOn, hvalue]
      dsimp only
      rw [if_pos hlt, ih hrest, positional_cons, List.length_cons, pow_succ']
      congr 1
      ring

theorem natural?_eq {base : Nat} {digits : List Char} (hne : digits ≠ [])
    (h : ∀ c ∈ digits, digitValue? c = some (digitValue c) ∧ digitValue c < base) :
    natural? base digits = some (positional base digits) := by
  obtain ⟨c, more, rfl⟩ := List.exists_cons_of_ne_nil hne
  rw [natural?, readOn_eq h]
  · simp
  · exact List.cons_ne_nil c more

/-- Without a mark, digits are all that there is. -/
theorem splitBase_decimal {digits : List Char} (h : ∀ c ∈ digits, c.isDigit) :
    splitBase digits = (10, digits) := by
  unfold splitBase
  split
  · exact absurd (h 'x' (by simp)) (by decide)
  · exact absurd (h 'X' (by simp)) (by decide)
  · rfl

/-- Behind the mark that a numeral may have, its digits are read as the number that
it denotes. -/
theorem Spells.natural? {text : List Char} {n : Nat} (h : Spells text n) :
    ∃ base c digits, splitBase text = (base, c :: digits) ∧
      Category.isHexDigit c ∧ Numeral.natural? base (c :: digits) = some n := by
  cases h with
  | decimal hne hdigits =>
      obtain ⟨c, more, rfl⟩ := List.exists_cons_of_ne_nil hne
      have hhex := isHexDigit_of_isDigit (hdigits c List.mem_cons_self)
      refine ⟨10, c, more, splitBase_decimal hdigits, hhex, natural?_eq hne ?_⟩
      intro d hd
      obtain ⟨hvalue, _, hlt⟩ := digitValue?_eq (isHexDigit_of_isDigit (hdigits d hd))
      exact ⟨hvalue, hlt (hdigits d hd)⟩
  | hexadecimal hx hne hdigits =>
      obtain ⟨c, more, rfl⟩ := List.exists_cons_of_ne_nil hne
      refine ⟨16, c, more, ?_, hdigits c List.mem_cons_self, natural?_eq hne ?_⟩
      · rcases hx with rfl | rfl <;> rfl
      · intro d hd
        obtain ⟨hvalue, hlt, _⟩ := digitValue?_eq (hdigits d hd)
        exact ⟨hvalue, hlt⟩

theorem signed?_eq {base : Nat} {c : Char} {digits : List Char}
    (h : Category.isHexDigit c) :
    signed? base (c :: digits) = (Numeral.natural? base (c :: digits)).map Int.ofNat := by
  unfold signed?
  split
  · next hcons =>
    obtain ⟨rfl, _⟩ := List.cons.inj hcons
    exact absurd h (by decide)
  · next hcons =>
    obtain ⟨rfl, _⟩ := List.cons.inj hcons
    exact absurd h (by decide)
  · rfl

/-- The number that a numeral denotes is read where a signed word can hold it. -/
theorem Spells.integer?_eq {text : List Char} {n : Nat} (h : Spells text n) :
    integer? text = if n ≤ 2 ^ 63 - 1 then some (n : Int) else none := by
  obtain ⟨base, c, digits, hsplit, hc, hvalue⟩ := h.natural?
  have hrange : (-(Nat.pow 2 63 : Int) ≤ Int.ofNat n ∧ Int.ofNat n < Nat.pow 2 63) ↔
      n ≤ 2 ^ 63 - 1 := by
    change -((2 ^ 63 : Nat) : Int) ≤ (n : Int) ∧ (n : Int) < ((2 ^ 63 : Nat) : Int) ↔ _
    omega
  simp only [integer?, hsplit, signed?_eq hc, hvalue, Option.map_some,
    Option.filter_some, hrange, decide_eq_true_eq]
  rfl

/-- A numeral ends with a digit. -/
theorem Spells.exists_last {text : List Char} {n : Nat} (h : Spells text n) :
    ∃ front c, text = front ++ [c] ∧ Category.isHexDigit c := by
  cases h with
  | decimal hne hdigits =>
      refine ⟨text.dropLast, text.getLast hne,
        (List.dropLast_append_getLast hne).symm, ?_⟩
      exact isHexDigit_of_isDigit (hdigits _ (List.getLast_mem hne))
  | @hexadecimal x digits _ hne hdigits =>
      refine ⟨'0' :: x :: digits.dropLast, digits.getLast hne, ?_,
        hdigits _ (List.getLast_mem hne)⟩
      rw [List.cons_append, List.cons_append, List.dropLast_append_getLast hne]

/-- The number that an unsigned numeral denotes is read where an unsigned word can hold
it. -/
theorem SpellsUnsigned.unsigned?_eq {text : List Char} {n : Nat}
    (h : SpellsUnsigned text n) :
    unsigned? text = if n ≤ 2 ^ 64 - 1 then some n else none := by
  obtain ⟨front, u, rfl, hu, hspells⟩ := h
  have hdrop : dropRight (fun c => c == 'u' || c == 'U') (front ++ [u]) = front := by
    rw [dropRight_append_self (by simpa using hu)]
    obtain ⟨front, c, rfl, hc⟩ := hspells.exists_last
    apply dropRight_append_other
    by_contra hletter
    simp only [Bool.not_eq_false, Bool.or_eq_true, beq_iff_eq] at hletter
    rcases hletter with rfl | rfl <;> exact absurd hc (by decide)
  obtain ⟨base, c, digits, hsplit, hc, hvalue⟩ := hspells.natural?
  have hsign : c ≠ '+' := by
    rintro rfl
    exact absurd hc (by decide)
  simp only [unsigned?, hdrop, hsplit]
  split
  · next hcons => exact absurd (List.cons.inj hcons).1 hsign
  · have hrange : n < Nat.pow 2 64 ↔ n ≤ 2 ^ 64 - 1 := by
      change n < 2 ^ 64 ↔ _
      omega
    simp only [hvalue, Option.filter_some, hrange, decide_eq_true_eq]

/-- The digits of a numeral say which number it denotes. -/
theorem Spells.unique {text : List Char} {n m : Nat} (h : Spells text n)
    (h' : Spells text m) : n = m := by
  have hmark : ∀ x, x = 'x' ∨ x = 'X' → x.isDigit = false := by
    rintro x (rfl | rfl) <;> rfl
  cases h with
  | decimal _ hdigits =>
      cases h' with
      | decimal => rfl
      | @hexadecimal x _ hx =>
          have hdigit := hdigits x (by simp)
          rw [hmark x hx] at hdigit
          cases hdigit
  | @hexadecimal x _ hx =>
      cases h' with
      | decimal _ hdigits =>
          have hdigit := hdigits x (by simp)
          rw [hmark x hx] at hdigit
          cases hdigit
      | hexadecimal => rfl

theorem SpellsUnsigned.unique {text : List Char} {n m : Nat} (h : SpellsUnsigned text n)
    (h' : SpellsUnsigned text m) : n = m := by
  obtain ⟨front, u, rfl, _, hspells⟩ := h
  obtain ⟨front', u', htext, _, hspells'⟩ := h'
  obtain ⟨rfl, _⟩ := List.append_inj' htext rfl
  exact hspells.unique hspells'

end MiniC.Numeral

namespace MiniC.Pattern

/-- Lexemes of whole numbers are numerals. -/
theorem exists_spells {text : List Char} (h : text ∈ whole) :
    ∃ n, Numeral.Spells text n := by
  rcases h with ⟨_, ⟨zero, rfl, hzero⟩, _, ⟨_, ⟨x, rfl, hx⟩, digits, hdigits, rfl⟩, rfl⟩ |
    hdigits
  · obtain rfl := eq_of_beq hzero
    obtain ⟨hne, hall⟩ := mem_someOf.1 hdigits
    exact ⟨_, .hexadecimal (by simpa using hx) hne hall⟩
  · obtain ⟨hne, hall⟩ := mem_someOf.1 hdigits
    exact ⟨_, .decimal hne hall⟩

/-- The same of lexemes of unsigned literals. -/
theorem exists_spellsUnsigned {text : List Char}
    (h : text ∈ whole * one fun c => c == 'u' || c == 'U') :
    ∃ n, Numeral.SpellsUnsigned text n := by
  obtain ⟨front, hfront, _, ⟨u, rfl, hu⟩, rfl⟩ := h
  obtain ⟨n, hn⟩ := exists_spells hfront
  exact ⟨n, front, u, rfl, by simpa using hu, hn⟩

end MiniC.Pattern
