/-
What extents read: the text before an extent, and how it lies to the text behind
it.
-/
import MiniC.Lexeme.Extent

namespace MiniC.Extent

/-- Where the form fits, it cuts a text into a lexeme and a rest for which `P`
holds. -/
def Reads (form : Extent) (P : List Char → List Char → Prop) : Prop :=
  ∀ text n, form text = some n →
    ∃ lexeme rest, text = lexeme ++ rest ∧ lexeme.length = n ∧ P lexeme rest

variable {first second form : Extent} {P Q : List Char → List Char → Prop}

theorem Reads.mono (h : form.Reads P) (hPQ : ∀ lexeme rest, P lexeme rest →
    Q lexeme rest) : form.Reads Q := by
  intro text n hform
  obtain ⟨lexeme, rest, htext, hlength, hP⟩ := h text n hform
  exact ⟨lexeme, rest, htext, hlength, hPQ lexeme rest hP⟩

theorem reads_one (p : Char → Bool) :
    (one p).Reads fun lexeme _ => ∃ c, lexeme = [c] ∧ p c := by
  intro text n hform
  cases text with
  | nil => cases hform
  | cons c rest =>
      rw [one_cons] at hform
      by_cases hc : p c = true
      · rw [if_pos hc] at hform
        cases hform
        exact ⟨[c], rest, rfl, rfl, c, rfl, hc⟩
      · rw [if_neg hc] at hform
        cases hform

theorem reads_run (p : Char → Bool) :
    (run p).Reads fun lexeme rest =>
      (∀ c ∈ lexeme, p c) ∧ ∀ c ∈ rest.head?, p c = false := by
  intro text n hform
  cases hform
  refine ⟨_, _, List.takeWhile_append_dropWhile.symm, rfl, ?_, ?_⟩
  · exact List.all_eq_true.1 List.all_takeWhile
  · intro c hc
    have hhead := List.head?_dropWhile_not p text
    rw [Option.mem_def.1 hc] at hhead
    simpa using hhead

theorem reads_exactly (word : List Char) :
    (exactly word).Reads fun lexeme _ => lexeme = word := by
  intro text n hform
  unfold exactly at hform
  by_cases hfits : word.isPrefixOf text = true
  · rw [if_pos hfits] at hform
    cases hform
    obtain ⟨rest, hrest⟩ := List.isPrefixOf_iff_prefix.1 hfits
    exact ⟨word, rest, hrest.symm, rfl, rfl⟩
  · rw [if_neg hfits] at hform
    cases hform

/-- Two forms cut the text twice. -/
theorem Reads.followedBy (hfirst : first.Reads P) (hsecond : second.Reads Q) :
    (first.followedBy second).Reads fun lexeme rest =>
      ∃ front back, lexeme = front ++ back ∧ P front (back ++ rest) ∧
        Q back rest := by
  intro text k hform
  obtain ⟨n, m, hn, hm, rfl⟩ := followedBy_eq_some.1 hform
  obtain ⟨front, middle, rfl, rfl, hP⟩ := hfirst text n hn
  rw [List.drop_left] at hm
  obtain ⟨back, rest, rfl, rfl, hQ⟩ := hsecond middle m hm
  refine ⟨front ++ back, rest, ?_, ?_, front, back, rfl, hP, hQ⟩
  · rw [List.append_assoc]
  · rw [List.length_append]

theorem Reads.orElse (hfirst : first.Reads P) (hsecond : second.Reads P) :
    (first.orElse second).Reads P := by
  intro text n hform
  cases hrun : first text with
  | some m =>
      have heq : some m = some n := by simpa [Extent.orElse, hrun] using hform
      exact hfirst text n (hrun.trans heq)
  | none =>
      have heq : second text = some n := by
        simpa [Extent.orElse, hrun] using hform
      exact hsecond text n heq

theorem Reads.optional (h : form.Reads P) :
    form.optional.Reads fun lexeme rest => lexeme = [] ∨ P lexeme rest := by
  intro text n hform
  cases hrun : form text with
  | some m =>
      have heq : m = n := by simpa [Extent.optional, hrun] using hform
      obtain ⟨lexeme, rest, htext, hlength, hP⟩ := h text n (hrun.trans (by rw [heq]))
      exact ⟨lexeme, rest, htext, hlength, Or.inr hP⟩
  | none =>
      have heq : 0 = n := by simpa [Extent.optional, hrun] using hform
      exact ⟨[], text, rfl, heq, Or.inl rfl⟩

/-- Where the form fits, it fits inside the text. -/
abbrev Fits (form : Extent) : Prop :=
  form.Reads fun _ _ => True

/-- Where the form fits, it takes up characters. -/
abbrev Consumes (form : Extent) : Prop :=
  form.Reads fun lexeme _ => lexeme ≠ []

theorem Reads.fits (h : form.Reads P) : form.Fits :=
  h.mono fun _ _ _ => trivial

theorem fits_one (p : Char → Bool) : (one p).Fits := (reads_one p).fits

theorem fits_run (p : Char → Bool) : (run p).Fits := (reads_run p).fits

theorem consumes_one (p : Char → Bool) : (one p).Consumes := by
  apply (reads_one p).mono
  intro _ rest hread
  obtain ⟨c, rfl, _⟩ := hread
  exact List.cons_ne_nil c []

theorem Fits.followedBy (hfirst : first.Fits) (hsecond : second.Fits) :
    (first.followedBy second).Fits :=
  (Reads.followedBy hfirst hsecond).fits

theorem Fits.optional (h : form.Fits) : form.optional.Fits :=
  (Reads.optional h).fits

/-- A lexeme that begins with characters is not empty, whatever follows. -/
theorem Consumes.followedBy (hfirst : first.Consumes) (hsecond : second.Fits) :
    (first.followedBy second).Consumes := by
  apply (Reads.followedBy hfirst hsecond).mono
  intro _ rest hread hnil
  obtain ⟨front, back, rfl, hfront, _⟩ := hread
  exact hfront (List.append_eq_nil_iff.1 hnil).1

theorem consumes_someOf (p : Char → Bool) : (someOf p).Consumes :=
  (consumes_one p).followedBy (fits_run p)

/-- Characters in `p`, all of them that there are. -/
theorem reads_someOf (p : Char → Bool) :
    (someOf p).Reads fun lexeme rest => lexeme ≠ [] ∧ (∀ c ∈ lexeme, p c) ∧
      ∀ c ∈ rest.head?, p c = false := by
  apply ((reads_one p).followedBy (reads_run p)).mono
  intro _ rest hread
  obtain ⟨_, back, rfl, ⟨c, rfl, hc⟩, hback, hrest⟩ := hread
  refine ⟨List.cons_ne_nil c back, ?_, hrest⟩
  intro d hd
  rcases List.mem_cons.1 hd with rfl | hd
  · exact hc
  · exact hback d hd

end MiniC.Extent
