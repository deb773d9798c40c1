/-
Counting what is open: the scripts of the grammar performed with a counter that goes
up where a statement or an expression begins and down where it ends.
-/
import MiniC.Proofs.Nesting.Script

namespace MiniC

open Parse

/-- What parses that count share: the state of reading, how many statements and
expressions are open, and for each that was ever opened how many were open then, itself
among them, and where it began. -/
structure Counted where
  state : ParseState
  depth : Nat
  history : List (Nat × Cursor)

/-- With nothing open yet. -/
def Counted.ofState (s : ParseState) : Counted := ⟨s, 0, []⟩

/-- A computation that reads tokens and counts. -/
abbrev Counting (α : Type) := EStateM ParseError Counted α

namespace Counting

variable {α β : Type}

/-- Reading tokens does not change the count. -/
instance : MonadLift Parse Counting where
  monadLift p c :=
    match p c.state with
    | .ok a s => .ok a { c with state := s }
    | .error e s => .error e { c with state := s }

/-- Count one more while `x` runs, and one less after it, whether it fails or not. -/
def opening (x : Counting α) : Counting α := fun c =>
  match x ⟨c.state, c.depth + 1, c.history ++ [(c.depth + 1, c.state.cursor)]⟩ with
  | .ok a c' => .ok a { c' with depth := c'.depth - 1 }
  | .error e c' => .error e { c' with depth := c'.depth - 1 }

/-- The same behind a guard: with the most open that may be, fail instead. -/
def nested (x : Counting α) : Counting α := fun c =>
  if maxNesting ≤ c.depth then (liftM (tooDeep : Parse α) : Counting α) c else opening x c

/-- The result of a computation that counts, and what it leaves. -/
def run (x : Counting α) (c : Counted) : Except ParseError α × Counted :=
  match x c with
  | .ok a c' => (.ok a, c')
  | .error e c' => (.error e, c')

theorem run_bind (x : Counting α) (f : α → Counting β) (c : Counted) :
    run (x >>= f) c =
      match x.run c with
      | (.ok a, c') => (f a).run c'
      | (.error e, c') => (.error e, c') := by
  change (match EStateM.bind x f c with
    | .ok b c' => (Except.ok b, c')
    | .error e c' => (.error e, c')) = _
  unfold run EStateM.bind
  cases x c <;> rfl

theorem run_lift (p : Parse α) (c : Counted) :
    run (liftM p : Counting α) c =
      ((p.run c.state).1, { c with state := (p.run c.state).2 }) := by
  change (match (match p c.state with
    | .ok a s => EStateM.Result.ok a { c with state := s }
    | .error e s => .error e { c with state := s }) with
    | .ok b c' => (Except.ok b, c')
    | .error e c' => (.error e, c')) = _
  unfold Parse.run
  cases p c.state <;> rfl

theorem run_opening (x : Counting α) (c : Counted) :
    (opening x).run c =
      let r := x.run
        ⟨c.state, c.depth + 1, c.history ++ [(c.depth + 1, c.state.cursor)]⟩
      (r.1, { r.2 with depth := r.2.depth - 1 }) := by
  unfold run opening
  cases x ⟨c.state, c.depth + 1, c.history ++ [(c.depth + 1, c.state.cursor)]⟩ <;> rfl

/-- Computations with the same runs are the same. -/
theorem eq_of_run_eq {x y : Counting α} {c c' : Counted} (h : x.run c = y.run c') :
    x c = y c' := by
  unfold run at h
  cases hx : x c <;> cases hy : y c' <;> simp_all

end Counting

open Counting

/-- The calls that perform the scripts of a statement and of an expression behind `guard`,
and leave to others what stands inside. -/
def Calls.behind (guard : {α : Type} → Counting α → Counting α) (registry : Registry)
    (calls : Calls Counting) : Calls Counting where
  statement := guard ((Stmt.script registry).perform calls)
  expression := fun floor => guard ((Expr.script registry floor).perform calls)

/-- The calls when `levels` more levels may be opened, with the counter kept. -/
def Calls.counted (registry : Registry) : (levels : Nat) → Calls Counting
  | 0 => ⟨liftM (tooDeep : Parse Stmt), fun _ => liftM (tooDeep : Parse Expr)⟩
  | levels + 1 => (counted registry levels).behind opening registry

/-- The parser with the guard: as many levels may be opened as the counter leaves. -/
def Calls.guarded (registry : Registry) : Calls Counting where
  statement := fun c => (counted registry (maxNesting - c.depth)).statement c
  expression := fun floor c => (counted registry (maxNesting - c.depth)).expression floor c

/-- The parser without the guard: there are more levels than tokens to open them. -/
def Calls.unguarded (registry : Registry) : Calls Counting where
  statement := fun c =>
    (counted registry (c.state.cursor.ahead.length + 2)).statement c
  expression := fun floor c =>
    (counted registry (c.state.cursor.ahead.length + 2)).expression floor c

/-- A relation between computations that putting them together keeps. -/
structure Simulation (m n : Type → Type) [Monad m] [Monad n] [MonadLiftT Parse m]
    [MonadLiftT Parse n] where
  related : {α : Type} → m α → n α → Prop
  pure : ∀ {α : Type} (a : α), related (pure a) (pure a)
  lift : ∀ {α : Type} (p : Parse α), related (liftM p) (liftM p)
  bind : ∀ {α β : Type} {x : m α} {y : n α} {f : α → m β} {g : α → n β},
    related x y → (∀ a, related (f a) (g a)) → related (x >>= f) (y >>= g)

/-- The calls of two parsers are related where both calls are. -/
structure Simulation.OnCalls {m n : Type → Type} [Monad m] [Monad n] [MonadLiftT Parse m]
    [MonadLiftT Parse n] (S : Simulation m n) (calls : Calls m) (calls' : Calls n) :
    Prop where
  statement : S.related calls.statement calls'.statement
  expression : ∀ floor, S.related (calls.expression floor) (calls'.expression floor)

/-- Where the calls are related, so are the performances of any script. -/
theorem Simulation.OnCalls.perform {m n : Type → Type} [Monad m] [Monad n]
    [MonadLiftT Parse m] [MonadLiftT Parse n] {S : Simulation m n} {calls : Calls m}
    {calls' : Calls n} (h : S.OnCalls calls calls') {α : Type} (script : Script α) :
    S.related (script.perform calls) (script.perform calls') := by
  induction script with
  | done a => exact S.pure a
  | step p next ih => exact S.bind (S.lift p) ih
  | statement next ih => exact S.bind h.statement ih
  | expression floor next ih => exact S.bind (h.expression floor) ih

/-- Behind guards that keep them related, calls stay related one level further out. -/
theorem Simulation.OnCalls.behind {S S' : Simulation Counting Counting}
    {guard guard' : {α : Type} → Counting α → Counting α}
    (hguard : ∀ {α : Type} {x y : Counting α},
      S.related x y → S'.related (guard x) (guard' y))
    {registry : Registry} {calls calls' : Calls Counting} (h : S.OnCalls calls calls') :
    S'.OnCalls (calls.behind guard registry) (calls'.behind guard' registry) :=
  ⟨hguard (h.perform _), fun _ => hguard (h.perform _)⟩

namespace Simulation

/-- What `x` does from `c` on, and `p` with a limit to how many may be open.  The counter
is kept, at most `levels` more are ever open, and as long as there are no more than the
limit allows, `p` does the same.  Where the first one too many begins, `p` fails. -/
def FollowsAt {α : Type} (levels limit : Nat) (x : Counting α) (p : Parse α)
    (c : Counted) : Prop :=
  ∃ result s opened,
    x.run c = (result, ⟨s, c.depth, c.history ++ opened⟩) ∧
    (∀ entry ∈ opened, entry.1 ≤ c.depth + levels) ∧
    match opened.find? fun entry => c.depth + limit < entry.1 with
    | none => p.run c.state = (result, s)
    | some (active, place) => active = c.depth + limit + 1 ∧
        ∃ s', p.run c.state =
          (.error (.nestingTooDeep maxNesting place.current.location), s') ∧
          s'.cursor = place

theorem FollowsAt.bind {α β : Type} {levels limit : Nat} {x : Counting α} {p : Parse α}
    {f : α → Counting β} {g : α → Parse β} {c : Counted}
    (hx : FollowsAt levels limit x p c)
    (hf : ∀ a c', FollowsAt levels limit (f a) (g a) c') :
    FollowsAt levels limit (x >>= f) (p >>= g) c := by
  obtain ⟨result, s, opened, hrun, hle, hfind⟩ := hx
  unfold FollowsAt
  rw [Counting.run_bind, Parse.run_bind, hrun]
  cases result with
  | error e =>
      refine ⟨_, s, opened, rfl, hle, ?_⟩
      cases hover : opened.find? fun entry => c.depth + limit < entry.1 with
      | none =>
          rw [hover] at hfind
          simp only [hfind]
      | some entry =>
          rw [hover] at hfind
          obtain ⟨hactive, s', hfails, hplace⟩ := hfind
          exact ⟨hactive, s', by rw [hfails], hplace⟩
  | ok a =>
      obtain ⟨result', s', opened', hrun', hle', hfind'⟩ :=
        hf a ⟨s, c.depth, c.history ++ opened⟩
      refine ⟨result', s', opened ++ opened', ?_, ?_, ?_⟩
      · rw [← List.append_assoc]
        exact hrun'
      · exact List.forall_mem_append.2 ⟨hle, hle'⟩
      · rw [List.find?_append]
        cases hover : opened.find? fun entry => c.depth + limit < entry.1 with
        | none =>
            rw [hover] at hfind
            simpa only [Option.none_or, hfind] using hfind'
        | some entry =>
            rw [hover] at hfind
            obtain ⟨hactive, s', hfails, hplace⟩ := hfind
            exact ⟨hactive, s', by rw [hfails], hplace⟩

/-- Performances follow each other when the calls do. -/
def follows (levels limit : Nat) : Simulation Counting Parse where
  related x p := ∀ c, FollowsAt levels limit x p c
  pure a c := ⟨.ok a, c.state, [], by simp [Counting.run]; rfl, by simp, rfl⟩
  lift p c := ⟨(p.run c.state).1, (p.run c.state).2, [], by simp [Counting.run_lift],
    by simp, rfl⟩
  bind hx hf c := (hx c).bind hf

/-- One more level is counted, whatever is the limit for `p`. -/
theorem FollowsAt.run_opening {α : Type} {levels limit : Nat} {x : Counting α}
    {p : Parse α} {c : Counted}
    (h : FollowsAt levels limit x p
      ⟨c.state, c.depth + 1, c.history ++ [(c.depth + 1, c.state.cursor)]⟩) :
    ∃ result s opened,
      (Counting.opening x).run c =
        (result, ⟨s, c.depth, c.history ++ (c.depth + 1, c.state.cursor) :: opened⟩) ∧
      (∀ entry ∈ (c.depth + 1, c.state.cursor) :: opened,
        entry.1 ≤ c.depth + (levels + 1)) ∧
      match opened.find? fun entry => c.depth + 1 + limit < entry.1 with
      | none => p.run c.state = (result, s)
      | some (active, place) => active = c.depth + 1 + limit + 1 ∧
          ∃ s', p.run c.state =
            (.error (.nestingTooDeep maxNesting place.current.location), s') ∧
            s'.cursor = place := by
  obtain ⟨result, s, opened, hrun, hle, hfind⟩ := h
  refine ⟨result, s, opened, ?_, ?_, hfind⟩
  · rw [Counting.run_opening, hrun]
    simp
  · rw [List.forall_mem_cons]
    refine ⟨by omega, fun entry hentry => ?_⟩
    have hentry' := hle entry hentry
    dsimp only at hentry'
    omega

/-- One more level for both. -/
theorem follows_opening {α : Type} {levels limit : Nat} {x : Counting α} {p : Parse α}
    (h : (follows levels limit).related x p) :
    (follows (levels + 1) (limit + 1)).related (Counting.opening x) p := by
  intro c
  obtain ⟨result, s, opened, hrun, hle, hfind⟩ := FollowsAt.run_opening (h _)
  refine ⟨result, s, _, hrun, hle, ?_⟩
  have hlimit : c.depth + (limit + 1) = c.depth + 1 + limit := by omega
  rw [hlimit, List.find?_cons_of_neg]
  · exact hfind
  · rw [decide_eq_true_eq, Nat.not_lt]
    exact Nat.le_add_right _ _

/-- No more level for the parser with the limit. -/
theorem follows_tooDeep {α : Type} {levels limit : Nat} {x : Counting α} {p : Parse α}
    (h : (follows levels limit).related x p) :
    (follows (levels + 1) 0).related (Counting.opening x) tooDeep := by
  intro c
  obtain ⟨result, s, opened, hrun, hle, _⟩ := FollowsAt.run_opening (h _)
  refine ⟨result, s, _, hrun, hle, ?_⟩
  rw [List.find?_cons_of_pos]
  · exact ⟨rfl, c.state, rfl, rfl⟩
  · simp

end Simulation

/-- With at least as many levels to open, counting follows the parser.  The induction is
on the levels of the one that counts. -/
theorem Calls.counted_follows (registry : Registry) {levels limit : Nat}
    (hle : limit ≤ levels) :
    (Simulation.follows levels limit).OnCalls (counted registry levels)
      (Inner.ofLevels registry limit).calls := by
  induction levels generalizing limit with
  | zero =>
      obtain rfl := Nat.le_zero.1 hle
      exact ⟨(Simulation.follows 0 0).lift tooDeep,
        fun _ => (Simulation.follows 0 0).lift tooDeep⟩
  | succ levels ih =>
      cases limit with
      | zero =>
          have hinner := ih (Nat.zero_le levels)
          exact ⟨Simulation.follows_tooDeep (hinner.perform _),
            fun _ => Simulation.follows_tooDeep (hinner.perform _)⟩
      | succ limit =>
          have hinner := ih (Nat.le_of_succ_le_succ hle)
          constructor
          · change (Simulation.follows _ _).related _
              (Stmt.parse registry (Inner.ofLevels registry limit))
            rw [← Stmt.perform_script]
            exact Simulation.follows_opening (hinner.perform _)
          · intro floor
            change (Simulation.follows _ _).related _
              (Expr.parse registry (Inner.ofLevels registry limit) floor)
            rw [← Expr.perform_script]
            exact Simulation.follows_opening (hinner.perform _)

end MiniC
