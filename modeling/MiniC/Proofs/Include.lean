/-
What an include directive says, read off its text as a whole: the word, the blanks
around the header name, and the name between its delimiters.
-/
import Mathlib.Data.List.Induction
import Mathlib.Data.List.TakeWhile
import MiniC.Stmt.Parse

namespace MiniC

/-- What is dropped from the right of a text is in `p`, and what stays does not end in
`p`. -/
theorem exists_dropRight (p : Char → Bool) (text : List Char) :
    ∃ back, text = dropRight p text ++ back ∧ (∀ c ∈ back, p c = true) ∧
      ∀ c ∈ (dropRight p text).getLast?, p c = false := by
  induction text using List.reverseRecOn with
  | nil => exact ⟨[], rfl, by simp, by simp [dropRight]⟩
  | append_singleton front c ih =>
      by_cases hc : p c = true
      · obtain ⟨back, hfront, hback, hlast⟩ := ih
        rw [dropRight_append_self hc]
        refine ⟨back ++ [c], ?_, ?_, hlast⟩
        · rw [← List.append_assoc, ← hfront]
        · simpa [or_imp, forall_and, hc] using hback
      · rw [Bool.not_eq_true] at hc
        rw [dropRight_append_other hc]
        exact ⟨[], by simp, by simp, by simpa using hc⟩

/-- Everything in `p` is dropped from the right of a text that does not end in `p`
itself. -/
theorem dropRight_append_all {p : Char → Bool} {front back : List Char}
    (hback : ∀ c ∈ back, p c = true) (hfront : ∀ c ∈ front.getLast?, p c = false) :
    dropRight p (front ++ back) = front := by
  induction back using List.reverseRecOn with
  | nil =>
      rw [List.append_nil]
      cases front using List.reverseRecOn with
      | nil => rfl
      | append_singleton front c _ => exact dropRight_append_other (hfront c (by simp))
  | append_singleton back c ih =>
      rw [← List.append_assoc, dropRight_append_self (hback c (by simp))]
      exact ih fun c hc => hback c (List.mem_append_left _ hc)

namespace Include

/-- `rest` stands behind the word of the directive, however often that is written. -/
inductive AfterWord : (text rest : List Char) → Prop
  | done {rest : List Char} : ¬ "#include".toList <+: rest → AfterWord rest rest
  | word {text rest : List Char} :
      AfterWord text rest → AfterWord ("#include".toList ++ text) rest

/-- `inner` is what stands between the blanks at the two ends of `text`. -/
structure Trimmed (text inner : List Char) : Prop where
  around : ∃ front back, text = front ++ (inner ++ back) ∧
    (∀ c ∈ front, isBlank c = true) ∧ ∀ c ∈ back, isBlank c = true
  first : ∀ c ∈ inner.head?, isBlank c = false
  last : ∀ c ∈ inner.getLast?, isBlank c = false

/-- The name in a header is what two delimiters stand around, which take one byte each.
A header without them has no name. -/
inductive Named : (header name : List Char) → Prop
  | between {opening closing : Char} {name : List Char} :
      opening.utf8Size = 1 → closing.utf8Size = 1 →
      Named (opening :: (name ++ [closing])) name
  | nothing {header : List Char} :
      (∀ opening closing name, opening.utf8Size = 1 → closing.utf8Size = 1 →
        header ≠ opening :: (name ++ [closing])) →
      Named header []

/-- The parts of a directive are those of its text, whatever the text is: a header
between blanks behind the word, the name in it, and how the header begins. -/
def TakenApart (directive : Include) : Prop :=
  ∃ rest header, AfterWord directive.text.toList rest ∧ Trimmed rest header ∧
    Named header directive.target.toList ∧
    (directive.isSystem = true ↔ header.head? = some '<')

theorem dropKeyword_word (text : List Char) :
    dropKeyword ("#include".toList ++ text) = dropKeyword text := rfl

theorem dropKeyword_of_no_word {text : List Char} (h : ¬ "#include".toList <+: text) :
    dropKeyword text = text := by
  unfold dropKeyword
  split
  · exact absurd (List.prefix_append _ _) h
  · rfl

theorem afterWord_dropKeyword (text : List Char) : AfterWord text (dropKeyword text) := by
  induction hlength : text.length using Nat.strongRecOn generalizing text with
  | ind n ih =>
      by_cases hword : "#include".toList <+: text
      · obtain ⟨rest, rfl⟩ := hword
        rw [dropKeyword_word]
        refine .word (ih _ ?_ rest rfl)
        rw [← hlength, List.length_append]
        exact Nat.lt_add_of_pos_left (by decide)
      · rw [dropKeyword_of_no_word hword]
        exact .done hword

theorem AfterWord.eq_dropKeyword {text rest : List Char} (h : AfterWord text rest) :
    rest = dropKeyword text := by
  induction h with
  | done hnone => exact (dropKeyword_of_no_word hnone).symm
  | word _ ih => rw [ih, dropKeyword_word]

theorem trimmed_trimBlanks (text : List Char) : Trimmed text (trimBlanks text) := by
  obtain ⟨back, hrest, hback, hlast⟩ := exists_dropRight isBlank (text.dropWhile isBlank)
  refine ⟨⟨text.takeWhile isBlank, back, ?_, fun c hc => List.mem_takeWhile_imp hc, hback⟩,
    ?_, hlast⟩
  · rw [trimBlanks, ← hrest, List.takeWhile_append_dropWhile]
  · intro c hc
    have hinner : (dropRight isBlank (text.dropWhile isBlank)).head? = some c := hc
    have hhead : (text.dropWhile isBlank).head? = some c := by
      rw [hrest, List.head?_append, hinner]
      rfl
    have hfirst := List.head?_dropWhile_not isBlank text
    rwa [hhead] at hfirst

theorem Trimmed.eq_trimBlanks {text inner : List Char} (h : Trimmed text inner) :
    inner = trimBlanks text := by
  obtain ⟨⟨front, back, rfl, hfront, hback⟩, hfirst, hlast⟩ := h
  rw [trimBlanks, List.dropWhile_append_of_pos hfront]
  cases inner with
  | nil =>
      rw [List.nil_append, List.dropWhile_eq_nil_iff.2 hback]
      rfl
  | cons c inner =>
      have hc : ¬ isBlank c = true := by simp [hfirst c rfl]
      rw [List.cons_append, List.dropWhile_cons_of_neg hc, ← List.cons_append,
        dropRight_append_all hback hlast]

theorem betweenEnds_delimited {name : List Char} {opening closing : Char}
    (hopening : opening.utf8Size = 1) (hclosing : closing.utf8Size = 1) :
    betweenEnds (opening :: (name ++ [closing])) = name := by
  simp [betweenEnds, hopening, hclosing]

theorem named_betweenEnds (header : List Char) : Named header (betweenEnds header) := by
  cases header with
  | nil => exact .nothing (by simp)
  | cons opening tail =>
      cases tail using List.reverseRecOn with
      | nil => exact .nothing (by simp)
      | append_singleton name closing _ =>
        by_cases hsizes : opening.utf8Size = 1 ∧ closing.utf8Size = 1
        · rw [betweenEnds_delimited hsizes.1 hsizes.2]
          exact .between hsizes.1 hsizes.2
        · have hnone : betweenEnds (opening :: (name ++ [closing])) = [] := by
            simp [betweenEnds, hsizes]
          rw [hnone]
          refine .nothing fun opening' closing' name' hopening hclosing heq => hsizes ?_
          obtain ⟨rfl, hrest⟩ := List.cons.inj heq
          obtain ⟨rfl, hlast⟩ := List.append_inj' hrest rfl
          obtain ⟨rfl, _⟩ := List.cons.inj hlast
          exact ⟨hopening, hclosing⟩

/-- A header has no more than one name. -/
theorem Named.unique {header name name' : List Char} (h : Named header name)
    (h' : Named header name') : name = name' := by
  cases h with
  | between hopening hclosing =>
      generalize hheader : _ :: (name ++ [_]) = header at h'
      cases h' with
      | between _ _ =>
          have hnames := (List.cons.inj hheader).2
          exact (List.append_inj' hnames rfl).1
      | nothing hnone => exact absurd hheader.symm (hnone _ _ _ hopening hclosing)
  | nothing hnone =>
      cases h' with
      | between hopening hclosing => exact absurd rfl (hnone _ _ _ hopening hclosing)
      | nothing _ => rfl

/-- Reading the text takes a directive apart. -/
theorem takenApart_ofText (text : String) : (ofText text).TakenApart := by
  refine ⟨_, _, afterWord_dropKeyword _, trimmed_trimBlanks _, ?_, ?_⟩
  · rw [ofText, String.toList_ofList]
    exact named_betweenEnds _
  · simp [ofText]

/-- There is one way only to take a text apart. -/
theorem TakenApart.unique {first second : Include} (hfirst : first.TakenApart)
    (hsecond : second.TakenApart) (h : first.text = second.text) : first = second := by
  obtain ⟨rest, header, hrest, hheader, hname, hsystem⟩ := hfirst
  obtain ⟨rest', header', hrest', hheader', hname', hsystem'⟩ := hsecond
  obtain rfl : rest = rest' := by
    rw [hrest.eq_dropKeyword, hrest'.eq_dropKeyword, h]
  obtain rfl : header = header' := by
    rw [hheader.eq_trimBlanks, hheader'.eq_trimBlanks]
  have htarget : first.target = second.target :=
    String.toList_inj.1 (hname.unique hname')
  have hflag : first.isSystem = second.isSystem :=
    Bool.eq_iff_iff.2 (hsystem.trans hsystem'.symm)
  cases first
  cases second
  simp_all

theorem TakenApart.eq_ofText {directive : Include} (h : directive.TakenApart) :
    directive = ofText directive.text :=
  h.unique (takenApart_ofText _) rfl

/-- What the name of a header stands behind. -/
def opening (directive : Include) : Char := if directive.isSystem then '<' else '"'

/-- What the name of a header stands before. -/
def closing (directive : Include) : Char := if directive.isSystem then '>' else '"'

/-- The directive as its parts describe it: behind its word there are spaces and tabs,
or nothing, and then the name between its delimiters.  The name is on one line, and the
first closing delimiter is the one behind it. -/
structure Written (directive : Include) : Prop where
  text_eq : ∃ blanks : String, (∀ c ∈ blanks.toList, c = ' ' ∨ c = '\t') ∧
    directive.text = "#include" ++ blanks ++ directive.opening.toString ++
      directive.target ++ directive.closing.toString
  line : '\n' ∉ directive.target.toList
  closes : directive.closing ∉ directive.target.toList

theorem opening_ne (directive : Include) :
    isBlank directive.opening = false ∧ directive.opening ≠ '#' ∧
      directive.opening.utf8Size = 1 := by
  unfold opening
  cases directive.isSystem <;> decide

theorem closing_ne (directive : Include) :
    isBlank directive.closing = false ∧ directive.closing.utf8Size = 1 := by
  unfold closing
  cases directive.isSystem <;> decide

/-- The characters of a directive, with the name and its delimiters apart. -/
theorem Written.toList_text {directive : Include} (h : directive.Written) :
    ∃ blanks : List Char, (∀ c ∈ blanks, c = ' ' ∨ c = '\t') ∧
      directive.text.toList = "#include".toList ++ (blanks ++ directive.opening ::
        (directive.target.toList ++ [directive.closing])) := by
  obtain ⟨blanks, hblanks, htext⟩ := h.text_eq
  refine ⟨blanks.toList, hblanks, ?_⟩
  rw [htext]
  simp

/-- A directive that is written as its parts describe it is taken apart into them. -/
theorem Written.takenApart {directive : Include} (h : directive.Written) :
    directive.TakenApart := by
  obtain ⟨blanks, hblanks, htext⟩ := h.toList_text
  obtain ⟨hopening, hpound, hopeningSize⟩ := directive.opening_ne
  obtain ⟨hclosing, hclosingSize⟩ := directive.closing_ne
  have hafter : AfterWord directive.text.toList (blanks ++ directive.opening ::
      (directive.target.toList ++ [directive.closing])) := by
    rw [htext]
    refine .word (.done ?_)
    cases blanks with
    | nil => simp [hpound.symm]
    | cons c blanks =>
        rcases hblanks c List.mem_cons_self with rfl | rfl <;> simp
  have htrimmed : Trimmed (blanks ++ directive.opening ::
      (directive.target.toList ++ [directive.closing]))
      (directive.opening :: (directive.target.toList ++ [directive.closing])) := by
    refine ⟨⟨blanks, [], by simp, ?_, by simp⟩, by simpa using hopening, ?_⟩
    · intro c hc
      rcases hblanks c hc with rfl | rfl <;> decide
    · simpa [List.getLast?_cons] using hclosing
  refine ⟨_, _, hafter, htrimmed, .between hopeningSize hclosingSize, ?_⟩
  unfold opening
  cases directive.isSystem <;> simp

/-- The parts of a directive are found in its text. -/
theorem Written.ofText_eq {directive : Include} (h : directive.Written) :
    ofText directive.text = directive :=
  h.takenApart.eq_ofText.symm

end Include

end MiniC
