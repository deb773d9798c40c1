/-
Patterns: forms as languages, which say what a lexeme is and nothing about how
far to read.  An extent reads a pattern when it takes lexemes of the pattern only
and never less than the longest of them.
-/
import Mathlib.Computability.Language
import MiniC.Proofs.Lexeme.Extent

namespace MiniC

namespace Pattern

/-- One character in `p`. -/
def one (p : Char → Bool) : Language Char := {w | ∃ c, w = [c] ∧ p c}

/-- Characters in `p`, perhaps none. -/
def run (p : Char → Bool) : Language Char := {w | ∀ c ∈ w, p c}

/-- Characters in `p`, at least one. -/
def someOf (p : Char → Bool) : Language Char := one p * run p

/-- The given characters and nothing else. -/
def exactly (word : List Char) : Language Char := {word}

/-- The pattern, or nothing at all. -/
def optional (L : Language Char) : Language Char := 1 + L

theorem mem_optional {L : Language Char} {w : List Char} :
    w ∈ optional L ↔ w = [] ∨ w ∈ L := by
  rw [optional, Language.mem_add, Language.mem_one]

theorem mem_someOf {p : Char → Bool} {w : List Char} :
    w ∈ someOf p ↔ w ≠ [] ∧ ∀ c ∈ w, p c := by
  constructor
  · rintro ⟨_, ⟨c, rfl, hc⟩, more, hmore, rfl⟩
    exact ⟨List.cons_ne_nil _ _, List.forall_mem_cons.2 ⟨hc, hmore⟩⟩
  · rintro ⟨hne, hall⟩
    obtain ⟨c, more, rfl⟩ := List.exists_cons_of_ne_nil hne
    obtain ⟨hc, hmore⟩ := List.forall_mem_cons.1 hall
    exact ⟨[c], ⟨c, rfl, hc⟩, more, hmore, rfl⟩

/-- Characters in `p` that none in `p` follows are split off whole. -/
theorem span_append {p : Char → Bool} {front : List Char} (rest : List Char)
    (hfront : ∀ c ∈ front, p c) (hrest : ∀ c ∈ rest.head?, p c = false) :
    (front ++ rest).takeWhile p = front ∧ (front ++ rest).dropWhile p = rest := by
  rw [List.takeWhile_append_of_pos hfront, List.dropWhile_append_of_pos hfront]
  cases rest with
  | nil => simp
  | cons c rest => simp [hrest c rfl]

/-- No text of the language is empty or begins with a character in `p`. -/
def StartsOutside (p : Char → Bool) (L : Language Char) : Prop :=
  ∀ w ∈ L, ∃ c more, w = c :: more ∧ p c = false

theorem startsOutside_one {p q : Char → Bool} (h : ∀ c, q c → p c = false) :
    StartsOutside p (one q) := by
  rintro _ ⟨c, rfl, hc⟩
  exact ⟨c, [], rfl, h c hc⟩

theorem StartsOutside.mul {p : Char → Bool} {L M : Language Char}
    (h : StartsOutside p L) : StartsOutside p (L * M) := by
  rintro _ ⟨front, hfront, back, _, rfl⟩
  obtain ⟨c, more, rfl, hc⟩ := h front hfront
  exact ⟨c, more ++ back, rfl, hc⟩

theorem StartsOutside.add {p : Char → Bool} {L M : Language Char}
    (hL : StartsOutside p L) (hM : StartsOutside p M) : StartsOutside p (L + M) := by
  rintro w (hw | hw)
  · exact hL w hw
  · exact hM w hw

theorem startsOutside_someOf {p q : Char → Bool} (h : ∀ c, q c → p c = false) :
    StartsOutside p (someOf q) :=
  (startsOutside_one h).mul

/-- Every text of the language ends with a character in `p`. -/
def EndsIn (p : Char → Bool) (L : Language Char) : Prop :=
  ∀ w ∈ L, ∃ front c, w = front ++ [c] ∧ p c

theorem endsIn_someOf (p : Char → Bool) : EndsIn p (someOf p) := by
  intro w hw
  obtain ⟨hne, hall⟩ := mem_someOf.1 hw
  exact ⟨w.dropLast, w.getLast hne, (List.dropLast_append_getLast hne).symm,
    hall _ (List.getLast_mem hne)⟩

theorem EndsIn.mul {p : Char → Bool} {L M : Language Char} (h : EndsIn p M) :
    EndsIn p (L * M) := by
  rintro _ ⟨first, _, second, hsecond, rfl⟩
  obtain ⟨front, c, rfl, hc⟩ := h second hsecond
  exact ⟨first ++ front, c, by simp, hc⟩

theorem EndsIn.mul_optional {p : Char → Bool} {L M : Language Char} (hL : EndsIn p L)
    (hM : EndsIn p M) : EndsIn p (L * optional M) := by
  rintro _ ⟨first, hfirst, second, hsecond, rfl⟩
  rcases mem_optional.1 hsecond with rfl | hsecond
  · simpa using hL first hfirst
  · exact hM.mul _ ⟨first, hfirst, second, hsecond, rfl⟩

theorem EndsIn.add {p : Char → Bool} {L M : Language Char} (hL : EndsIn p L)
    (hM : EndsIn p M) : EndsIn p (L + M) := by
  rintro w (hw | hw)
  · exact hL w hw
  · exact hM w hw

end Pattern

namespace Extent

open Pattern

variable {first second form : Extent} {L M : Language Char}

/-- All that the form takes is of the pattern. -/
abbrev ReadsIn (form : Extent) (L : Language Char) : Prop :=
  form.Reads fun lexeme _ => lexeme ∈ L

theorem ReadsIn.followedBy (hfirst : first.ReadsIn L) (hsecond : second.ReadsIn M) :
    (first.followedBy second).ReadsIn (L * M) := by
  apply (Reads.followedBy hfirst hsecond).mono
  rintro _ _ ⟨front, back, rfl, hfront, hback⟩
  exact Language.append_mem_mul hfront hback

theorem ReadsIn.orElse (hfirst : first.ReadsIn L) (hsecond : second.ReadsIn M) :
    (first.orElse second).ReadsIn (L + M) :=
  Reads.orElse (hfirst.mono fun _ _ => Or.inl) (hsecond.mono fun _ _ => Or.inr)

theorem ReadsIn.optional (h : form.ReadsIn L) :
    form.optional.ReadsIn (Pattern.optional L) :=
  (Reads.optional h).mono fun _ _ => mem_optional.2

theorem readsIn_run (p : Char → Bool) : (run p).ReadsIn (Pattern.run p) :=
  (reads_run p).mono fun _ _ h => h.1

theorem readsIn_someOf (p : Char → Bool) :
    (someOf p).ReadsIn (Pattern.someOf p) :=
  ReadsIn.followedBy (reads_one p) (readsIn_run p)

/-- The form stops no earlier than a text of the pattern does that stands at the
front. -/
def Covers (form : Extent) (L : Language Char) : Prop :=
  ∀ lexeme ∈ L, ∀ rest, ∃ n, form (lexeme ++ rest) = some n ∧ lexeme.length ≤ n

/-- The form takes a text of the pattern and no more, where a text of `next`
follows. -/
def StopsBefore (form : Extent) (L next : Language Char) : Prop :=
  ∀ lexeme ∈ L, ∀ following ∈ next, ∀ rest,
    form (lexeme ++ (following ++ rest)) = some lexeme.length

theorem covers_one (p : Char → Bool) : (one p).Covers (Pattern.one p) := by
  rintro _ ⟨c, rfl, hc⟩ rest
  exact ⟨1, by simp [one, hc], Nat.le_refl 1⟩

theorem covers_run (p : Char → Bool) : (run p).Covers (Pattern.run p) := by
  intro lexeme hlexeme rest
  refine ⟨_, rfl, ?_⟩
  rw [List.takeWhile_append_of_pos hlexeme, List.length_append]
  exact Nat.le_add_right _ _

theorem stopsBefore_one (p : Char → Bool) (next : Language Char) :
    (one p).StopsBefore (Pattern.one p) next := by
  rintro _ ⟨c, rfl, hc⟩ following _ rest
  simp [one, hc]

theorem stopsBefore_exactly (word : List Char) (next : Language Char) :
    (exactly word).StopsBefore (Pattern.exactly word) next := by
  rintro _ rfl following _ rest
  simp [exactly]

/-- Characters in `p` are taken up to one that is not in `p`. -/
theorem stopsBefore_run {p : Char → Bool} {next : Language Char}
    (h : StartsOutside p next) : (run p).StopsBefore (Pattern.run p) next := by
  intro lexeme hlexeme following hfollowing rest
  obtain ⟨c, more, rfl, hc⟩ := h following hfollowing
  rw [run, List.takeWhile_append_of_pos hlexeme]
  simp [hc]

/-- Where the first form stops before the second pattern, it leaves to the second
form what belongs to it. -/
theorem Covers.followedBy (hfirst : first.StopsBefore L M) (hsecond : second.Covers M) :
    (first.followedBy second).Covers (L * M) := by
  rintro _ ⟨front, hfront, back, hback, rfl⟩ rest
  obtain ⟨m, hm, hle⟩ := hsecond back hback rest
  refine ⟨front.length + m, followedBy_eq_some.2 ⟨front.length, m, ?_, ?_, rfl⟩, ?_⟩
  · simpa using hfirst front hfront back hback rest
  · simpa using hm
  · simpa using hle

theorem StopsBefore.followedBy {next : Language Char} (hfirst : first.StopsBefore L M)
    (hsecond : second.StopsBefore M next) :
    (first.followedBy second).StopsBefore (L * M) next := by
  rintro _ ⟨front, hfront, back, hback, rfl⟩ following hfollowing rest
  refine followedBy_eq_some.2 ⟨front.length, back.length, ?_, ?_, ?_⟩
  · simpa using hfirst front hfront back hback (following ++ rest)
  · simpa using hsecond back hback following hfollowing rest
  · simp

/-- Where both forms fit, the first has to reach at least as far. -/
theorem Covers.orElse (hfirst : first.Covers L) (hsecond : second.Covers M)
    (hle : ∀ text n m, first text = some n → second text = some m → m ≤ n) :
    (first.orElse second).Covers (L + M) := by
  rintro lexeme (hlexeme | hlexeme) rest
  · obtain ⟨n, hn, hlength⟩ := hfirst lexeme hlexeme rest
    exact ⟨n, by simp [Extent.orElse, hn], hlength⟩
  · obtain ⟨m, hm, hlength⟩ := hsecond lexeme hlexeme rest
    cases hrun : first (lexeme ++ rest) with
    | none => exact ⟨m, by simp [Extent.orElse, hrun, hm], hlength⟩
    | some n =>
        refine ⟨n, by simp [Extent.orElse, hrun], ?_⟩
        exact Nat.le_trans hlength (hle _ _ _ hrun hm)

theorem Covers.optional (h : form.Covers L) :
    form.optional.Covers (Pattern.optional L) := by
  intro lexeme hlexeme rest
  rcases mem_optional.1 hlexeme with rfl | hlexeme
  · exact ⟨_, rfl, Nat.zero_le _⟩
  · obtain ⟨n, hn, hlength⟩ := h lexeme hlexeme rest
    exact ⟨n, by simp [Extent.optional, hn], hlength⟩

/-- Of two forms, the first may only come in the way of the second where it takes
as much. -/
theorem StopsBefore.orElse {next : Language Char} (hfirst : first.StopsBefore L next)
    (hsecond : second.StopsBefore M next)
    (hsame : ∀ lexeme ∈ M, ∀ following ∈ next, ∀ rest n,
      first (lexeme ++ (following ++ rest)) = some n → n = lexeme.length) :
    (first.orElse second).StopsBefore (L + M) next := by
  rintro lexeme (hlexeme | hlexeme) following hfollowing rest
  · simp [Extent.orElse, hfirst lexeme hlexeme following hfollowing rest]
  · cases hrun : first (lexeme ++ (following ++ rest)) with
    | none =>
        simp [Extent.orElse, hrun, hsecond lexeme hlexeme following hfollowing rest]
    | some n =>
        have hn := hsame lexeme hlexeme following hfollowing rest n hrun
        simp [Extent.orElse, hrun, hn]

theorem StopsBefore.optional {next : Language Char} (h : form.StopsBefore L next)
    (hnone : ∀ following ∈ next, ∀ rest, form (following ++ rest) = none) :
    form.optional.StopsBefore (Pattern.optional L) next := by
  intro lexeme hlexeme following hfollowing rest
  rcases mem_optional.1 hlexeme with rfl | hlexeme
  · simp [Extent.optional, hnone following hfollowing rest]
  · simp [Extent.optional, h lexeme hlexeme following hfollowing rest]

theorem one_startsOutside {p : Char → Bool} (h : StartsOutside p L) :
    ∀ lexeme ∈ L, ∀ rest, one p (lexeme ++ rest) = none := by
  intro lexeme hlexeme rest
  obtain ⟨c, more, rfl, hc⟩ := h lexeme hlexeme
  simp [one, hc]

theorem covers_someOf (p : Char → Bool) : (someOf p).Covers (Pattern.someOf p) :=
  Covers.followedBy (stopsBefore_one p _) (covers_run p)

theorem stopsBefore_someOf {p : Char → Bool} {next : Language Char}
    (h : StartsOutside p next) : (someOf p).StopsBefore (Pattern.someOf p) next :=
  (stopsBefore_one p _).followedBy (stopsBefore_run h)

/-- What may be left out at the end is taken where it is there. -/
theorem Covers.followedBy_optional (hfirst : first.Covers L)
    (hstops : first.StopsBefore L M) (hsecond : second.Covers M) :
    (first.followedBy second.optional).Covers (L * Pattern.optional M) := by
  rintro _ ⟨front, hfront, back, hback, rfl⟩ rest
  rcases mem_optional.1 hback with rfl | hback
  · obtain ⟨n, hn, hle⟩ := hfirst front hfront rest
    refine ⟨_, followedBy_eq_some.2 ⟨n, _, by simpa using hn, rfl, rfl⟩, ?_⟩
    simp only [List.append_nil]
    exact Nat.le_add_right_of_le hle
  · have hrest : second.optional.Covers M := fun w hw =>
      hsecond.optional w (mem_optional.2 (.inr hw))
    exact Covers.followedBy hstops hrest _ ⟨front, hfront, back, hback, rfl⟩ rest

/-- Where the first form may reach farther than a text of its pattern, one
character more is made up for. -/
theorem Covers.followedBy_optional_one (h : first.Covers L) (p : Char → Bool) :
    (first.followedBy (one p).optional).Covers
      (L * Pattern.optional (Pattern.one p)) := by
  rintro _ ⟨front, hfront, back, hback, rfl⟩ rest
  obtain ⟨n, hn, hle⟩ := h front hfront (back ++ rest)
  rw [← List.append_assoc] at hn
  refine ⟨_, followedBy_eq_some.2 ⟨n, _, hn, rfl, rfl⟩, ?_⟩
  rw [List.length_append]
  rcases Nat.eq_or_lt_of_le hle with rfl | hlt
  · rcases mem_optional.1 hback with rfl | ⟨c, rfl, hc⟩
    · simp
    · simp [one, hc]
  · rcases mem_optional.1 hback with rfl | ⟨c, rfl, hc⟩
    · rw [List.length_nil]
      omega
    · rw [List.length_singleton]
      omega

end Extent

end MiniC
