/-
Floating literals: whatever is written as one is read, and what is read is a number.
-/
import MiniC.Numeral.Decimal
import MiniC.Proofs.Numeral.Whole

namespace MiniC

open Numeral

theorem Binary64.nearestMagnitude_le (numerator denominator : Nat) :
    nearestMagnitude numerator denominator ≤ infinite :=
  Nat.min_le_right _ _

/-- A decimal number is rounded to a number, zero and the infinities included. -/
theorem Decimal.toBinary64_isNaN (x : Decimal) : x.toBinary64.isNaN = false := by
  unfold Decimal.toBinary64
  dsimp only
  split
  · rfl
  split
  · exact decide_eq_false (Nat.lt_irrefl _)
  split
  · exact decide_eq_false (Nat.not_lt.2 (Binary64.nearestMagnitude_le _ _))
  · exact decide_eq_false (Nat.not_lt.2 (Binary64.nearestMagnitude_le _ _))

namespace Pattern

/-- A number with a point or an exponent, as it is written without a suffix. -/
def fractional : Language Char := pointed + digits * exponent

theorem endsIn_exponent : EndsIn Char.isDigit exponent :=
  (endsIn_someOf _).mul.mul

theorem endsIn_fractional : EndsIn Char.isDigit fractional :=
  ((endsIn_someOf _).mul_optional endsIn_exponent).mul.mul.add endsIn_exponent.mul

end Pattern

namespace Decimal

/-- Digits have no sign in front. -/
theorem splitSign_digit {c : Char} {text : List Char} (h : c.isDigit) :
    splitSign (c :: text) = (false, c :: text) := by
  unfold splitSign
  split
  · next hcons =>
    obtain ⟨rfl, _⟩ := List.cons.inj hcons
    exact absurd h (by decide)
  · next hcons =>
    obtain ⟨rfl, _⟩ := List.cons.inj hcons
    exact absurd h (by decide)
  · rfl

theorem exists_splitSign {sign digits : List Char}
    (hsign : sign ∈ Pattern.optional (Pattern.one fun c => c == '+' || c == '-'))
    (hdigits : digits ∈ Pattern.digits) :
    ∃ negative, splitSign (sign ++ digits) = (negative, digits) := by
  rcases Pattern.mem_optional.1 hsign with rfl | ⟨c, rfl, hc⟩
  · obtain ⟨_, ⟨c, rfl, hc⟩, more, _, rfl⟩ := hdigits
    exact ⟨false, splitSign_digit hc⟩
  · simp only [Bool.or_eq_true, beq_iff_eq] at hc
    rcases hc with rfl | rfl
    · exact ⟨false, rfl⟩
    · exact ⟨true, rfl⟩

/-- An exponent, or none, is read. -/
theorem exists_exponent? {text : List Char} (h : text ∈ Pattern.optional Pattern.exponent) :
    ∃ n, exponent? text = some n := by
  rcases Pattern.mem_optional.1 h with rfl |
    ⟨_, ⟨e, rfl, he⟩, _, ⟨sign, hsign, digits, hdigits, rfl⟩, rfl⟩
  · exact ⟨0, rfl⟩
  · obtain ⟨negative, hsplit⟩ := exists_splitSign hsign hdigits
    obtain ⟨hne, hall⟩ := Pattern.mem_someOf.1 hdigits
    have hletter : e = 'e' ∨ e = 'E' := by simpa using he
    have hread : exponent? (e :: (sign ++ digits)) = some
        (if negative then -(exponentValue digits : Int) else exponentValue digits) := by
      cases negative <;> simp [exponent?, hletter, hsplit, hne] <;> exact hall
    exact ⟨_, hread⟩

/-- No digit begins what may stand behind the digits. -/
theorem head_optional_exponent {text : List Char}
    (h : text ∈ Pattern.optional Pattern.exponent) :
    ∀ c ∈ text.head?, c.isDigit = false := by
  rcases Pattern.mem_optional.1 h with rfl | ⟨_, ⟨e, rfl, he⟩, _, _, rfl⟩
  · simp
  · have hletter : e = 'e' ∨ e = 'E' := by simpa using he
    rcases hletter with rfl | rfl <;> simp

/-- The digits on both sides of a point count together, and as many places as there
are digits behind it are taken off the exponent. -/
theorem unsigned?_pointed {whole fraction mark : List Char} (negative : Bool)
    (hwhole : whole ∈ Pattern.digits) (hfraction : fraction ∈ Pattern.digits)
    (hmark : mark ∈ Pattern.optional Pattern.exponent) :
    unsigned? negative (whole ++ '.' :: (fraction ++ mark)) =
      (exponent? mark).map fun n =>
        ⟨negative, valueOf (whole ++ fraction), n - fraction.length⟩ := by
  obtain ⟨hne, hall⟩ := Pattern.mem_someOf.1 hwhole
  obtain ⟨_, hfractions⟩ := Pattern.mem_someOf.1 hfraction
  obtain ⟨hfront, hback⟩ := Pattern.span_append ('.' :: (fraction ++ mark)) hall (by simp)
  obtain ⟨hdigits, hrest⟩ := Pattern.span_append mark hfractions (head_optional_exponent hmark)
  cases hn : exponent? mark <;>
    simp [unsigned?, hfront, hback, hdigits, hrest, hne, hn]

/-- Without a point the digits are a whole number. -/
theorem unsigned?_plain {whole mark : List Char} (negative : Bool)
    (hwhole : whole ∈ Pattern.digits) (hmark : mark ∈ Pattern.exponent) :
    unsigned? negative (whole ++ mark) =
      (exponent? mark).map fun n => ⟨negative, valueOf whole, n⟩ := by
  obtain ⟨hne, hall⟩ := Pattern.mem_someOf.1 hwhole
  have hhead := head_optional_exponent (Pattern.mem_optional.2 (.inr hmark))
  obtain ⟨hfront, hback⟩ := Pattern.span_append mark hall hhead
  obtain ⟨_, ⟨e, rfl, he⟩, more, _, rfl⟩ := hmark
  have hletter : e = 'e' ∨ e = 'E' := by simpa using he
  -- Neither letter is a point.
  rcases hletter with rfl | rfl
  all_goals
    dsimp only at hfront hback ⊢
    rw [List.singleton_append] at hfront hback ⊢
    cases hn : exponent? (_ :: more) <;> simp [unsigned?, hfront, hback, hne, hn]

/-- What is written as a number with a point or an exponent is read as one. -/
theorem exists_unsigned? {text : List Char} (h : text ∈ Pattern.fractional)
    (negative : Bool) : ∃ x, unsigned? negative text = some x := by
  rcases h with ⟨whole, hwhole, _, ⟨_, ⟨point, rfl, hpoint⟩, _,
    ⟨fraction, hfraction, mark, hmark, rfl⟩, rfl⟩, rfl⟩ | ⟨whole, hwhole, mark, hmark, rfl⟩
  · obtain rfl := eq_of_beq hpoint
    obtain ⟨n, hn⟩ := exists_exponent? hmark
    have hread := unsigned?_pointed negative hwhole hfraction hmark
    rw [hn, Option.map_some] at hread
    exact ⟨_, hread⟩
  · obtain ⟨n, hn⟩ := exists_exponent? (Pattern.mem_optional.2 (.inr hmark))
    have hread := unsigned?_plain negative hwhole hmark
    rw [hn, Option.map_some] at hread
    exact ⟨_, hread⟩

end Decimal

/-- Every floating literal is read, and the value is a number. -/
theorem Numeral.exists_floating? {text : List Char}
    (h : text ∈ Category.floating.lexemes) :
    ∃ x, floating? text = some x ∧ x.isNaN = false := by
  obtain ⟨body, hbody, suffix, hsuffix, rfl⟩ := h
  change body ∈ Pattern.fractional at hbody
  obtain ⟨front, last, hlast, hdigit⟩ := Pattern.endsIn_fractional body hbody
  have hletter : (last == 'f' || last == 'F') = false := by
    by_contra hletter
    simp only [Bool.not_eq_false, Bool.or_eq_true, beq_iff_eq] at hletter
    rcases hletter with rfl | rfl <;> exact absurd hdigit (by decide)
  have hdrop : dropRight (fun c => c == 'f' || c == 'F') (body ++ suffix) = body := by
    rcases Pattern.mem_optional.1 hsuffix with rfl | ⟨f, rfl, hf⟩
    · rw [List.append_nil, hlast, dropRight_append_other hletter]
    · rw [dropRight_append_self hf, hlast, dropRight_append_other hletter]
  have hsign : Decimal.splitSign body = (false, body) := by
    rcases hbody with ⟨_, ⟨_, ⟨c, rfl, hc⟩, _, _, rfl⟩, _, _, rfl⟩ |
      ⟨_, ⟨_, ⟨c, rfl, hc⟩, _, _, rfl⟩, _, _, rfl⟩
    · exact Decimal.splitSign_digit hc
    · exact Decimal.splitSign_digit hc
  obtain ⟨x, hx⟩ := Decimal.exists_unsigned? hbody false
  refine ⟨x.toBinary64, ?_, x.toBinary64_isNaN⟩
  simp only [floating?, hdrop, hsign, hx]

end MiniC
