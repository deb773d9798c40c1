/-
The parser with the guard and the parser without it: each is the only one that calls
itself for what stands inside, behind the guard or not, and neither ever comes to the
end of the levels that it is written with.
-/
import MiniC.Proofs.Nesting.Counting
import MiniC.Proofs.Nesting.Shallow

namespace MiniC

open Parse

variable {α : Type} {registry : Registry}

/-- A result that is not an error about depth. -/
def Settled (result : Except ParseError α) : Prop :=
  ∀ e, result = .error e → e.isTooDeep = false

namespace Simulation

/-- Computations that do the same when so many are open, and keep the counter. -/
def agreeAt (depth : Nat) : Simulation Counting Counting where
  related x y := ∀ c, c.depth = depth → x.run c = y.run c ∧ (x.run c).2.depth = depth
  pure a c hc := ⟨rfl, hc⟩
  lift p c hc := by
    rw [Counting.run_lift]
    exact ⟨rfl, hc⟩
  bind := by
    intro _ _ x y f g hx hf c hc
    obtain ⟨hsame, hdepth⟩ := hx c hc
    rw [Counting.run_bind, Counting.run_bind, ← hsame]
    cases hrun : x.run c with
    | mk result c' =>
        rw [hrun] at hdepth
        cases result with
        | error e => exact ⟨rfl, hdepth⟩
        | ok a => exact hf a c' hdepth

/-- The second computation does the same wherever the first does not fail for depth. -/
def outlasts : Simulation Counting Counting where
  related x y := ∀ c, Settled (x.run c).1 → y.run c = x.run c
  pure _ _ _ := rfl
  lift _ _ _ := rfl
  bind := by
    intro _ _ x y f g hx hf c hsettled
    rw [Counting.run_bind] at hsettled ⊢
    rw [Counting.run_bind]
    cases hrun : x.run c with
    | mk result c' =>
        rw [hrun] at hsettled
        cases result with
        | error e =>
            have hfirst : Settled (x.run c).1 := by
              rw [hrun]
              intro e' he
              cases he
              exact hsettled e rfl
            rw [hx c hfirst, hrun]
        | ok a =>
            have hfirst : Settled (x.run c).1 := by
              rw [hrun]
              exact fun _ he => nomatch he
            rw [hx c hfirst, hrun]
            exact hf a c' hsettled

theorem agreeAt_opening {depth : Nat} {x y : Counting α}
    (h : (agreeAt (depth + 1)).related x y) :
    (agreeAt depth).related (Counting.opening x) (Counting.opening y) := by
  rintro c rfl
  obtain ⟨hsame, hdepth⟩ :=
    h ⟨c.state, c.depth + 1, c.history ++ [(c.depth + 1, c.state.cursor)]⟩ rfl
  rw [Counting.run_opening, Counting.run_opening, hsame]
  refine ⟨rfl, ?_⟩
  rw [← hsame]
  exact congrArg (· - 1) hdepth

/-- Behind the guard, what begins with none too many open opens one more. -/
theorem agreeAt_nested {depth : Nat} (hdepth : depth < maxNesting) {x y : Counting α}
    (h : (agreeAt (depth + 1)).related x y) :
    (agreeAt depth).related (Counting.opening x) (Counting.nested y) := by
  rintro c rfl
  have hopens : Counting.nested y c = Counting.opening y c :=
    if_neg (Nat.not_le_of_lt hdepth)
  obtain ⟨hsame, hkept⟩ := agreeAt_opening h c rfl
  refine ⟨?_, hkept⟩
  rw [hsame, Counting.run, Counting.run, hopens]

/-- With the most open that may be, what is behind the guard fails. -/
theorem agreeAt_tooDeep {depth : Nat} (hdepth : maxNesting ≤ depth) (y : Counting α) :
    (agreeAt depth).related (liftM (tooDeep : Parse α)) (Counting.nested y) := by
  rintro c rfl
  have hfails : Counting.nested y c = (liftM (tooDeep : Parse α) : Counting α) c :=
    if_pos hdepth
  refine ⟨?_, by rw [Counting.run_lift]⟩
  rw [Counting.run, Counting.run, hfails]

/-- What fails for depth at once is outlasted by everything. -/
theorem outlasts_tooDeep (y : Counting α) :
    outlasts.related (liftM (tooDeep : Parse α)) y := by
  intro c hsettled
  rw [Counting.run_lift] at hsettled
  exact nomatch hsettled _ rfl

theorem outlasts_opening {x y : Counting α} (h : outlasts.related x y) :
    outlasts.related (Counting.opening x) (Counting.opening y) := by
  intro c hsettled
  rw [Counting.run_opening] at hsettled ⊢
  rw [Counting.run_opening, h _ hsettled]

end Simulation

open Simulation

/-- A parser that counts with as many levels as the one that it follows does the same. -/
theorem Simulation.run_of_follows {levels : Nat} {x : Counting α} {p : Parse α}
    (h : (follows levels levels).related x p) (c : Counted) :
    ∃ opened, x.run c =
        ((p.run c.state).1, ⟨(p.run c.state).2, c.depth, c.history ++ opened⟩) ∧
      ∀ entry ∈ opened, entry.1 ≤ c.depth + levels := by
  obtain ⟨result, s, opened, hrun, hle, hfind⟩ := h c
  have hnone : (opened.find? fun entry => c.depth + levels < entry.1) = none := by
    rw [List.find?_eq_none]
    intro entry hentry
    simpa using hle entry hentry
  rw [hnone] at hfind
  exact ⟨opened, by rw [hrun, hfind], hle⟩

namespace Calls

/-- With more levels nothing changes, as long as there were enough. -/
theorem counted_outlasts {levels more : Nat} (hle : levels ≤ more) :
    outlasts.OnCalls (counted registry levels) (counted registry more) := by
  induction levels generalizing more with
  | zero => exact ⟨outlasts_tooDeep _, fun _ => outlasts_tooDeep _⟩
  | succ levels ih =>
      obtain ⟨more, rfl⟩ : ∃ n, more = n + 1 := ⟨more - 1, by omega⟩
      exact (ih (Nat.le_of_succ_le_succ hle)).behind outlasts_opening

/-- At every depth, the guarded parser goes on with the levels that are left. -/
theorem guarded_agrees (registry : Registry) (depth : Nat) :
    (agreeAt depth).OnCalls (counted registry (maxNesting - depth))
      (guarded registry) := by
  have hfollows := counted_follows registry (Nat.le_refl (maxNesting - depth))
  constructor
  · rintro c rfl
    obtain ⟨opened, hrun, _⟩ := run_of_follows hfollows.statement c
    exact ⟨rfl, by rw [hrun]⟩
  · rintro floor c rfl
    obtain ⟨opened, hrun, _⟩ := run_of_follows (hfollows.expression floor) c
    exact ⟨rfl, by rw [hrun]⟩

/-- There is no other parser that goes on so. -/
theorem eq_guarded_of_agrees {calls : Calls Counting}
    (h : ∀ depth,
      (agreeAt depth).OnCalls (counted registry (maxNesting - depth)) calls) :
    calls = guarded registry := by
  obtain ⟨statement, expression⟩ := calls
  unfold guarded
  congr 1
  · funext c
    exact Counting.eq_of_run_eq ((h c.depth).statement c rfl).1.symm
  · funext floor c
    exact Counting.eq_of_run_eq (((h c.depth).expression floor) c rfl).1.symm

/-- Behind the guard there is one level more to go on with, or there was none left. -/
theorem behind_nested_agrees {calls : Calls Counting} {depth : Nat}
    (h : depth < maxNesting →
      (agreeAt (depth + 1)).OnCalls (counted registry (maxNesting - (depth + 1))) calls) :
    (agreeAt depth).OnCalls (counted registry (maxNesting - depth))
      (calls.behind Counting.nested registry) := by
  by_cases hdepth : depth < maxNesting
  · have hlevels : maxNesting - depth = maxNesting - (depth + 1) + 1 := by omega
    rw [hlevels]
    exact (h hdepth).behind (agreeAt_nested hdepth)
  · have hle := Nat.le_of_not_lt hdepth
    rw [Nat.sub_eq_zero_of_le hle]
    exact ⟨agreeAt_tooDeep hle _, fun _ => agreeAt_tooDeep hle _⟩

/-- The guarded parser calls itself behind the guard, and it is the only one to do so.
The induction is on the levels that are left. -/
theorem eq_behind_nested_iff (registry : Registry) (calls : Calls Counting) :
    calls = calls.behind Counting.nested registry ↔ calls = guarded registry := by
  constructor
  · intro hcalls
    have hagrees : ∀ levels depth, maxNesting - depth = levels →
        (agreeAt depth).OnCalls (counted registry (maxNesting - depth)) calls := by
      intro levels
      induction levels with
      | zero =>
          intro depth hdepth
          rw [hcalls]
          exact behind_nested_agrees fun hlt => absurd hlt (by omega)
      | succ levels ih =>
          intro depth hdepth
          rw [hcalls]
          exact behind_nested_agrees fun _ => ih (depth + 1) (by omega)
    exact eq_guarded_of_agrees fun depth => hagrees _ depth rfl
  · rintro rfl
    exact (eq_guarded_of_agrees fun depth =>
      behind_nested_agrees fun _ => guarded_agrees registry (depth + 1)).symm

end Calls

theorem Parse.Shallow.settled {ahead : Nat} {p : Parse α} (h : Shallow ahead p)
    {s : ParseState} (hs : s.cursor.ahead.length ≤ ahead) : Settled (p.run s).1 := by
  have hensures := h s hs
  unfold run
  cases hrun : p s with
  | ok a s' => exact fun _ he => nomatch he
  | error e s' =>
      rintro e' he
      cases he
      exact hensures.of_error hrun

namespace Calls

/-- With two levels more than there are tokens ahead, none is missing. -/
theorem counted_settled (registry : Registry) {levels : Nat} {c : Counted}
    (h : c.state.cursor.ahead.length + 2 ≤ levels) :
    Settled ((counted registry levels).statement.run c).1 ∧
      ∀ floor, Settled (((counted registry levels).expression floor).run c).1 := by
  have hfollows := counted_follows registry (Nat.le_refl levels)
  have hsuffices := Inner.ofLevels_suffices registry levels
  constructor
  · obtain ⟨_, hrun, _⟩ := run_of_follows hfollows.statement c
    rw [hrun]
    exact (hsuffices.statement _ h).settled (Nat.le_refl _)
  · intro floor
    obtain ⟨_, hrun, _⟩ := run_of_follows (hfollows.expression floor) c
    rw [hrun]
    exact (hsuffices.expression _ (by omega) floor).settled (Nat.le_refl _)

/-- The parser without the guard does what counting does with any number of levels that
is enough. -/
theorem unguarded_outlasts (registry : Registry) (levels : Nat) :
    outlasts.OnCalls (counted registry levels) (unguarded registry) := by
  constructor
  · intro c hsettled
    rcases Nat.le_total levels (c.state.cursor.ahead.length + 2) with hle | hle
    · exact (counted_outlasts hle).statement c hsettled
    · have henough := counted_settled registry (c := c) (Nat.le_refl _)
      exact ((counted_outlasts hle).statement c henough.1).symm
  · intro floor c hsettled
    rcases Nat.le_total levels (c.state.cursor.ahead.length + 2) with hle | hle
    · exact (counted_outlasts hle).expression floor c hsettled
    · have henough := counted_settled registry (c := c) (Nat.le_refl _)
      exact ((counted_outlasts hle).expression floor c (henough.2 floor)).symm

/-- There is no other parser that does so. -/
theorem eq_unguarded_of_outlasts {calls : Calls Counting}
    (h : ∀ levels, outlasts.OnCalls (counted registry levels) calls) :
    calls = unguarded registry := by
  obtain ⟨statement, expression⟩ := calls
  have henough := fun c : Counted => counted_settled registry (c := c) (Nat.le_refl _)
  unfold unguarded
  congr 1
  · funext c
    exact Counting.eq_of_run_eq ((h _).statement c (henough c).1)
  · funext floor c
    exact Counting.eq_of_run_eq ((h _).expression floor c ((henough c).2 floor))

/-- The parser without the guard calls itself, and nothing else stops it.  It is the only
one to do so. -/
theorem eq_behind_opening_iff (registry : Registry) (calls : Calls Counting) :
    calls = calls.behind Counting.opening registry ↔ calls = unguarded registry := by
  constructor
  · intro hcalls
    refine eq_unguarded_of_outlasts fun levels => ?_
    induction levels with
    | zero => exact ⟨outlasts_tooDeep _, fun _ => outlasts_tooDeep _⟩
    | succ levels ih =>
        rw [hcalls]
        exact ih.behind outlasts_opening
  · rintro rfl
    refine (eq_unguarded_of_outlasts fun levels => ?_).symm
    cases levels with
    | zero => exact ⟨outlasts_tooDeep _, fun _ => outlasts_tooDeep _⟩
    | succ levels => exact (unguarded_outlasts registry levels).behind outlasts_opening

end Calls

end MiniC
