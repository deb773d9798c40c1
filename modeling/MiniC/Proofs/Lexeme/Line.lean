/-
Forms that stay within a line: what stands behind a line feed has no part in how
far they reach.
-/
import Mathlib.Data.List.Find
import MiniC.Proofs.Lexeme.Category

namespace MiniC

namespace Extent

/-- The form takes a line feed behind a text for the end of the text. -/
def WithinLine (form : Extent) : Prop :=
  ∀ text more, form (text ++ '\n' :: more) = form text

variable {first second form : Extent}

theorem withinLine_one {p : Char → Bool} (h : p '\n' = false) :
    (one p).WithinLine := by
  intro text more
  cases text with
  | nil => simp [one, h]
  | cons c text => rfl

theorem withinLine_run {p : Char → Bool} (h : p '\n' = false) :
    (run p).WithinLine := by
  intro text more
  have hstop : ('\n' :: more).takeWhile p = [] := by simp [h]
  unfold run
  rw [List.takeWhile_append, hstop]
  split <;> simp_all

/-- No word without a line feed begins in a text and ends behind its line. -/
theorem isPrefixOf_append_lineFeed (word : List Char) (h : '\n' ∉ word)
    (text more : List Char) :
    word.isPrefixOf (text ++ '\n' :: more) = word.isPrefixOf text := by
  induction word generalizing text with
  | nil => rfl
  | cons c word ih =>
      rw [List.mem_cons, not_or] at h
      cases text with
      | nil =>
          have hc : (c == '\n') = false := by simpa using Ne.symm h.1
          simp [List.isPrefixOf, hc]
      | cons d text =>
          rw [List.cons_append, List.isPrefixOf, List.isPrefixOf, ih h.2]

theorem withinLine_exactly {word : List Char} (h : '\n' ∉ word) :
    (exactly word).WithinLine := by
  intro text more
  rw [exactly, exactly, isPrefixOf_append_lineFeed word h]

theorem WithinLine.followedBy (hfirst : first.WithinLine) (hfits : first.Fits)
    (hsecond : second.WithinLine) : (first.followedBy second).WithinLine := by
  intro text more
  unfold Extent.followedBy
  rw [hfirst]
  cases hrun : first text with
  | none => rfl
  | some n =>
      obtain ⟨lexeme, rest, rfl, rfl, _⟩ := hfits text n hrun
      simp only [Option.bind_eq_bind, Option.bind_some]
      rw [List.append_assoc, List.drop_left, List.drop_left, hsecond]

theorem WithinLine.orElse (hfirst : first.WithinLine) (hsecond : second.WithinLine) :
    (first.orElse second).WithinLine := by
  intro text more
  rw [Extent.orElse, Extent.orElse, hfirst, hsecond]

theorem WithinLine.optional (h : form.WithinLine) : form.optional.WithinLine := by
  intro text more
  rw [Extent.optional, Extent.optional, h]

theorem withinLine_someOf {p : Char → Bool} (h : p '\n' = false) :
    (someOf p).WithinLine :=
  (withinLine_one h).followedBy (fits_one p) (withinLine_run h)

end Extent

namespace Category

open Extent

theorem withinLine_digits : digits.WithinLine := withinLine_someOf rfl

theorem withinLine_hexadecimal : hexadecimal.WithinLine :=
  (withinLine_one rfl).followedBy (fits_one _)
    ((withinLine_one rfl).followedBy (fits_one _) (withinLine_someOf rfl))

theorem withinLine_exponent : exponent.WithinLine :=
  (withinLine_one rfl).followedBy (fits_one _)
    ((withinLine_one rfl).optional.followedBy (fits_one _).optional withinLine_digits)

theorem withinLine_floatingForm : floatingForm.WithinLine := by
  have hpoint : (digits.followedBy <| (one (· == '.')).followedBy <|
      digits.followedBy exponent.optional).WithinLine :=
    withinLine_digits.followedBy consumes_digits.fits
      ((withinLine_one rfl).followedBy (fits_one _)
        (withinLine_digits.followedBy consumes_digits.fits withinLine_exponent.optional))
  have hplain : (digits.followedBy exponent).WithinLine :=
    withinLine_digits.followedBy consumes_digits.fits withinLine_exponent
  refine (hpoint.orElse hplain).followedBy (Reads.orElse ?_ ?_)
    (withinLine_one rfl).optional
  · exact consumes_digits.fits.followedBy ((fits_one _).followedBy
      (consumes_digits.fits.followedBy fits_exponent.optional))
  · exact consumes_digits.fits.followedBy fits_exponent

theorem withinLine_wholeForm : wholeForm.WithinLine :=
  withinLine_hexadecimal.orElse withinLine_digits

theorem withinLine_throughQuote (escaped : Bool) (n : Nat) :
    (throughQuote escaped n).WithinLine := by
  intro text more
  fun_induction throughQuote escaped n text <;> simp_all [throughQuote]

theorem withinLine_escapeForm : escapeForm.WithinLine := by
  have hoctal := withinLine_one (p := isOctalDigit) rfl
  have hdigits : ((one isOctalDigit).followedBy <|
      (one isOctalDigit).optional.followedBy (one isOctalDigit).optional).WithinLine :=
    hoctal.followedBy (fits_one _)
      (hoctal.optional.followedBy (fits_one _).optional hoctal.optional)
  have hcode : ((one (· == 'x')).followedBy (someOf isHexDigit)).WithinLine :=
    (withinLine_one rfl).followedBy (fits_one _) (withinLine_someOf rfl)
  exact (withinLine_one rfl).followedBy (fits_one _)
    (hcode.orElse (hdigits.orElse (withinLine_one rfl)))

theorem withinLine_characterForm : characterForm.WithinLine := by
  have hbody : (escapeForm.orElse
      (one fun c => c != '\\' && c != '\'' && c != '\n')).WithinLine :=
    withinLine_escapeForm.orElse (withinLine_one rfl)
  exact (withinLine_one rfl).followedBy (fits_one _)
    (hbody.followedBy (Reads.orElse fits_escapeForm (fits_one _)) (withinLine_one rfl))

theorem withinLine_headerForm {opening closing : Char} (hopening : opening ≠ '\n')
    (hclosing : closing ≠ '\n') : (headerForm opening closing).WithinLine :=
  (withinLine_one (by simpa using hopening.symm)).followedBy (fits_one _)
    ((withinLine_run (by simp)).followedBy (fits_run _)
      (withinLine_one (by simpa using hclosing.symm)))

theorem withinLine_fixed : (extent fixed).WithinLine := by
  intro text more
  have hword : ∀ entry ∈ Vocabulary.fixed, '\n' ∉ entry.1.toList := by decide
  have hsame : Vocabulary.fixedAt? (text ++ '\n' :: more) =
      Vocabulary.fixedAt? text := by
    apply List.find?_congr
    exact fun entry hentry => isPrefixOf_append_lineFeed _ (hword entry hentry) text more
  exact congrArg (Option.map fun entry => entry.1.length) hsame

/-- Blanks and block comments apart, lexemes stay within a line, or end where
their line does. -/
theorem extent_withinLine {category : Category} (hblank : category ≠ blank)
    (hcomment : category ≠ blockComment) : category.extent.WithinLine := by
  cases category with
  | blank => exact absurd rfl hblank
  | blockComment => exact absurd rfl hcomment
  | lineComment =>
      exact (withinLine_exactly (by decide)).followedBy (reads_exactly _).fits
        (withinLine_run rfl)
  | floating => exact withinLine_floatingForm
  | unsignedInteger =>
      exact withinLine_wholeForm.followedBy consumes_wholeForm.fits
        (withinLine_one rfl)
  | integer => exact withinLine_wholeForm
  | string =>
      exact (withinLine_one rfl).followedBy (fits_one _)
        (withinLine_throughQuote false 0)
  | character => exact withinLine_characterForm
  | includeDirective =>
      exact (withinLine_exactly (by decide)).followedBy (reads_exactly _).fits
        ((withinLine_run rfl).followedBy (fits_run _)
          ((withinLine_headerForm (by decide) (by decide)).orElse
            (withinLine_headerForm (by decide) (by decide))))
  | word =>
      exact (withinLine_one rfl).followedBy (fits_one _) (withinLine_run rfl)
  | fixed => exact withinLine_fixed

end Category

end MiniC
