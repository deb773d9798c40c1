/-
How a walk goes on: over a blank, over a lexeme, and up to an error.
-/
import MiniC.Proofs.Scanner.Tokenize

namespace MiniC

namespace Category

theorem extent_blank_of_isBlank {c : Char} (h : isBlank c) (text : List Char) :
    blank.extent (c :: text) = some (1 + (text.takeWhile isBlank).length) := by
  simp [extent, Extent.someOf, Extent.followedBy, Extent.one, Extent.run, h]

theorem extent_blank_of_not {c : Char} (h : isBlank c = false) (text : List Char) :
    blank.extent (c :: text) = none := by
  simp [extent, Extent.someOf, Extent.followedBy, Extent.one, h]

end Category

/-- Where nothing is opened that is not closed, the first category that fits is
at the front. -/
theorem Front.of_of_closed {text : List Char}
    (hcomment : ['/', '*'].isPrefixOf text → (Category.blockComment.extent text).isSome)
    (hstring : ['"'].isPrefixOf text → (Category.string.extent text).isSome) :
    Front.of text =
      ((Category.all.findSome? fun category =>
        (category.extent text).map (Front.lexeme category)).getD .unknown) := by
  have hcomment' : (['/', '*'].isPrefixOf text &&
      (Category.blockComment.extent text).isNone) = false := by
    rw [Bool.and_eq_false_imp]
    exact fun h => by simpa using hcomment h
  have hstring' : (['"'].isPrefixOf text &&
      (Category.string.extent text).isNone) = false := by
    rw [Bool.and_eq_false_imp]
    exact fun h => by simpa using hstring h
  rw [Front.of, hcomment', hstring', if_neg Bool.false_ne_true,
    if_neg Bool.false_ne_true]
  cases Category.all.findSome? fun category =>
    (category.extent text).map (Front.lexeme category) <;> rfl

theorem Front.of_of_isBlank {c : Char} (h : isBlank c) (text : List Char) :
    Front.of (c :: text) = .lexeme .blank (1 + (text.takeWhile isBlank).length) := by
  have hslash : '/' ≠ c := by
    rintro rfl
    exact absurd h (by decide)
  have hquote : '"' ≠ c := by
    rintro rfl
    exact absurd h (by decide)
  rw [Front.of_of_closed]
  · rw [Category.all, List.findSome?_cons, Category.extent_blank_of_isBlank h]
    rfl
  · simp [hslash]
  · simp [hquote]

/-- The token that a lexeme stands for, if it stands for one. -/
def Category.token? (keepComments : Bool) (location : Location)
    (lexeme : List Char) (category : Category) : Option Token :=
  (category.kind? keepComments lexeme).map fun kind =>
    ⟨kind, String.ofList (category.content lexeme), location⟩

namespace Scanner

variable {keepComments : Bool} {here : Position} {found : Findings}

/-- What still belongs to the lexeme found last is passed over. -/
theorem walk_pending (lexeme rest : List Char) :
    walk keepComments lexeme.length here found (lexeme ++ rest) =
      walk keepComments 0 (here.after lexeme) found rest := by
  induction lexeme generalizing here with
  | nil => rfl
  | cons c lexeme ih => exact ih

/-- One lexeme: it is passed over, and the token that it stands for is found. -/
theorem walk_lexeme {category : Category} {lexeme rest : List Char}
    (hfront : Front.of (lexeme ++ rest) = .lexeme category lexeme.length)
    (hne : lexeme ≠ []) :
    walk keepComments 0 here found (lexeme ++ rest) =
      walk keepComments 0 (here.after lexeme)
        ((category.token? keepComments here.location lexeme).elim found found.push)
        rest := by
  have htoken : token? keepComments here.location category lexeme.length
      (lexeme ++ rest) = category.token? keepComments here.location lexeme :=
    token?_append _ _ _ _ _
  obtain ⟨c, lexeme, rfl⟩ := List.exists_cons_of_ne_nil hne
  rw [List.cons_append] at hfront htoken ⊢
  rw [walk, hfront]
  dsimp only
  rw [htoken, List.length_cons, Nat.add_sub_cancel, walk_pending, Position.after_cons]

/-- One lexeme that stands for no token: it is passed over. -/
theorem walk_of_kind?_eq_none {category : Category} {lexeme rest : List Char}
    (hfront : Front.of (lexeme ++ rest) = .lexeme category lexeme.length)
    (hne : lexeme ≠ []) (hkind : category.kind? keepComments lexeme = none) :
    walk keepComments 0 here found (lexeme ++ rest) =
      walk keepComments 0 (here.after lexeme) found rest := by
  rw [walk_lexeme hfront hne, Category.token?, hkind]
  rfl

/-- One blank: the walk begins anew behind it. -/
theorem walk_blank {c : Char} (h : isBlank c) (text : List Char) :
    walk keepComments 0 here found (c :: text) =
      walk keepComments 0 (here.next c) found text := by
  have hblanks : ∀ here, walk keepComments (text.takeWhile isBlank).length here found
      text = walk keepComments 0 here found text := by
    intro here
    cases text with
    | nil => rfl
    | cons d text =>
        by_cases hd : isBlank d = true
        · rw [List.takeWhile_cons_of_pos hd, List.length_cons, walk, walk,
            Front.of_of_isBlank hd]
          dsimp only
          rw [Nat.add_sub_cancel_left]
          rfl
        · rw [List.takeWhile_cons_of_neg hd, List.length_nil]
  rw [walk, Front.of_of_isBlank h]
  dsimp only
  rw [Nat.add_sub_cancel_left]
  exact hblanks _

theorem walk_unterminated {c : Char} {text : List Char} {what : String}
    (h : Front.of (c :: text) = .unterminated what) :
    walk keepComments 0 here found (c :: text) =
      ⟨found, .error (.unterminated here what), ⟨here, c :: text⟩⟩ := by
  rw [walk, h]

theorem walk_unknown {c : Char} {text : List Char}
    (h : Front.of (c :: text) = .unknown) :
    walk keepComments 0 here found (c :: text) =
      ⟨found, .error (.noMatch here (String.ofList (c :: text))),
        ⟨here, c :: text⟩⟩ := by
  rw [walk, h]

/-- The course of a walk: what holds of a text if it holds of the text behind its
first blank or its first lexeme, and of a text that cannot be walked over, holds
of all texts. -/
@[elab_as_elim]
theorem walk_induction {motive : List Char → Prop} (nil : motive [])
    (blank : ∀ c text, isBlank c → motive text → motive (c :: text))
    (lexeme : ∀ category lexeme rest, category ≠ .blank →
      category.Shape lexeme rest →
      Front.of (lexeme ++ rest) = .lexeme category lexeme.length →
      motive rest → motive (lexeme ++ rest))
    (unterminated : ∀ c text what, Front.of (c :: text) = .unterminated what →
      motive (c :: text))
    (unknown : ∀ c text, Front.of (c :: text) = .unknown → motive (c :: text))
    (text : List Char) : motive text := by
  induction hlength : text.length using Nat.strongRecOn generalizing text with
  | ind n ih =>
      cases text with
      | nil => exact nil
      | cons c text =>
          -- Blanks are taken one by one, though they make up one lexeme: where it
          -- ends is for the text behind it to say.
          by_cases hc : isBlank c = true
          · exact blank c text hc (ih _ (by simp [← hlength]) text rfl)
          cases hfront : Front.of (c :: text) with
          | unterminated what => exact unterminated c text what hfront
          | unknown => exact unknown c text hfront
          | lexeme category length =>
              obtain ⟨word, rest, htext, rfl, hshape⟩ := Front.of_eq_lexeme hfront
              have hpos := List.length_pos_iff.2 hshape.ne_nil
              rw [htext] at hfront hlength ⊢
              rw [List.length_append] at hlength
              refine lexeme category word rest ?_ hshape hfront
                (ih _ (by omega) rest rfl)
              rintro rfl
              obtain ⟨d, word, rfl⟩ := List.exists_cons_of_ne_nil hshape.ne_nil
              obtain ⟨rfl, _⟩ := List.cons.inj htext
              exact hc (hshape.2 c List.mem_cons_self)

end Scanner

end MiniC
