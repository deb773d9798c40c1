/-
The guard against nesting: it is exact, it leaves the counter as it was, and length alone
never makes it fail.
-/
import MiniC.Proofs.Nesting.Length
import MiniC.Proofs.Nesting.Recursion

namespace MiniC

open Parse

variable {registry : Registry}

/-- With two levels more than there are tokens ahead, no operation misses one. -/
theorem Operation.parseWithin_shallow {levels ahead : Nat} (hlt : ahead + 1 < levels)
    (operation : Operation) :
    Shallow ahead (operation.parseWithin registry (.ofLevels registry levels)) := by
  have hinner := Inner.ofLevels_suffices registry levels
  have hadvances := Inner.ofLevels_advances registry levels
  have hless : ahead < levels := Nat.lt_of_succ_lt hlt
  cases operation with
  | program =>
      refine Shallow.map _ (Shallow.bind ?_ (forward_untilEnd hadvances)
        fun _ => shallow_pure _)
      exact collectUntil_shallow hinner hadvances (shallow_check _) (forward_check _)
        (programTurn_advances hadvances) hlt
  | statement => exact (hinner.statement ahead hlt).map _
  | expression floor => exact (hinner.expression ahead hless floor).map _
  | prefixForm form =>
      exact (form.parse_shallow hinner hadvances (Nat.le_of_lt hless)).map _
  | infixForm form left => exact (form.parse_shallow hinner hadvances hless left).map _
  | statementForm form => exact (form.parse_shallow hinner hadvances hless).map _

namespace Operation

/-- Carry out an operation with the guarded parser, from some count on. -/
def runGuarded (registry : Registry) (operation : Operation) :
    Counted → Except ParseError Node × Counted :=
  ((operation.script registry).perform (.guarded registry)).run

/-- Carry out an operation with the parser without the guard, with nothing open yet. -/
def runUnguarded (registry : Registry) (operation : Operation) (s : ParseState) :
    Except ParseError Node × Counted :=
  ((operation.script registry).perform (.unguarded registry)).run (.ofState s)

end Operation

/-- Where the first statement or expression began that was one too many, and how many
were open then. -/
def Counted.firstTooMany (c : Counted) : Option (Nat × Cursor) :=
  c.history.find? fun entry => maxNesting < entry.1

/-- Carry out operations in turn with the guarded parser, the counter going on from one
to the next. -/
def Registry.countedSession (registry : Registry) :
    Counted → List Operation → List (Except ParseError Node) × Counted
  | c, [] => ([], c)
  | c, operation :: operations =>
      let (result, next) := operation.runGuarded registry c
      let (results, last) := registry.countedSession next operations
      (result :: results, last)

/-- One operation of the guarded parser reads what is read with the levels that the
counter leaves.  The counter is kept, and it never goes beyond the limit. -/
theorem Operation.run_guarded (registry : Registry) (operation : Operation)
    (c : Counted) :
    ∃ opened,
      operation.runGuarded registry c =
        (let p := operation.parseWithin registry (.ofLevels registry (maxNesting - c.depth))
        ((p.run c.state).1, ⟨(p.run c.state).2, c.depth, c.history ++ opened⟩)) ∧
      ∀ entry ∈ opened, entry.1 ≤ max c.depth maxNesting := by
  have hagrees :=
    (Calls.guarded_agrees registry c.depth).perform (operation.script registry)
  have hfollows := (Calls.counted_follows registry
    (Nat.le_refl (maxNesting - c.depth))).perform (operation.script registry)
  rw [operation.perform_script] at hfollows
  obtain ⟨opened, hrun, hle⟩ := Simulation.run_of_follows hfollows c
  refine ⟨opened, ?_, fun entry hentry => ?_⟩
  · rw [runGuarded, ← (hagrees c rfl).1, hrun]
  · have hentry' := hle entry hentry
    omega

/-- A whole session of the guarded parser, by induction over its operations. -/
theorem Registry.countedSession_eq (registry : Registry) (operations : List Operation)
    (s : ParseState) (history : List (Nat × Cursor)) :
    ∃ opened,
      registry.countedSession ⟨s, 0, history⟩ operations =
        (registry.session s operations,
          ⟨registry.stateAfter s operations, 0, history ++ opened⟩) ∧
      ∀ entry ∈ opened, entry.1 ≤ maxNesting := by
  induction operations generalizing s history with
  | nil => exact ⟨[], by rw [List.append_nil]; rfl, by simp⟩
  | cons operation operations ih =>
      obtain ⟨opened, hrun, hle⟩ := operation.run_guarded registry ⟨s, 0, history⟩
      obtain ⟨more, hsession, hmore⟩ :=
        ih ((operation.parse registry).run s).2 (history ++ opened)
      refine ⟨opened ++ more, ?_, List.forall_mem_append.2 ⟨by simpa using hle, hmore⟩⟩
      have hoperation : operation.runGuarded registry ⟨s, 0, history⟩ =
          (((operation.parse registry).run s).1,
            ⟨((operation.parse registry).run s).2, 0, history ++ opened⟩) := by
        rw [operation.parse_eq_parseWithin registry]
        exact hrun
      rw [countedSession, hoperation]
      dsimp only
      rw [hsession, List.append_assoc]
      rfl

/-- What the parser with the guard does, by what the one without it comes to: the same
where no more are ever open at once than the limit allows.  Otherwise it fails at the
token where the first one too many would begin, and the cursor stays there. -/
structure Operation.GuardedBy (registry : Registry) (operation : Operation)
    (s : ParseState) (outcome : Except ParseError Node × Counted) : Prop where
  same : outcome.2.firstTooMany = none →
    (operation.parse registry).run s = (outcome.1, outcome.2.state)
  fails : ∀ active place, outcome.2.firstTooMany = some (active, place) →
    active = maxNesting + 1 ∧ ∃ s', s'.cursor = place ∧
      (operation.parse registry).run s =
        (.error (.nestingTooDeep maxNesting place.current.location), s')

/-- With two levels more than there are tokens ahead, counting misses none. -/
theorem Operation.counted_settled (registry : Registry) (operation : Operation)
    {levels : Nat} {s : ParseState} (h : s.cursor.ahead.length + 2 ≤ levels) :
    Settled (((operation.script registry).perform (.counted registry levels)).run
      (.ofState s)).1 := by
  have hfollows := (Calls.counted_follows registry
    (Nat.le_refl levels)).perform (operation.script registry)
  rw [operation.perform_script] at hfollows
  obtain ⟨_, hrun, _⟩ := Simulation.run_of_follows hfollows (.ofState s)
  rw [hrun]
  exact (operation.parseWithin_shallow h).settled (Nat.le_refl _)

/-- With enough levels, counting is the parser without the guard, and the parser with the
guard follows it. -/
theorem Operation.guardedBy_unguarded (registry : Registry) (operation : Operation)
    (s : ParseState) :
    operation.GuardedBy registry s (operation.runUnguarded registry s) := by
  have hsettled := operation.counted_settled registry
    (Nat.le_max_right maxNesting (s.cursor.ahead.length + 2))
  rw [runUnguarded, (Calls.unguarded_outlasts registry _).perform _ _ hsettled]
  have hfollows := (Calls.counted_follows registry
    (Nat.le_max_left maxNesting (s.cursor.ahead.length + 2))).perform
      (operation.script registry)
  rw [operation.perform_script] at hfollows
  obtain ⟨result, s', opened, hrun, _, hfind⟩ := hfollows (.ofState s)
  rw [hrun]
  simp only [Counted.ofState, Nat.zero_add, List.nil_append] at hfind ⊢
  have hparse := operation.parse_eq_parseWithin registry
  constructor
  case same =>
    intro hnone
    rw [Counted.firstTooMany] at hnone
    rw [hnone] at hfind
    exact hparse ▸ hfind
  case fails =>
    intro active place hfirst
    rw [Counted.firstTooMany] at hfirst
    rw [hfirst] at hfind
    obtain ⟨hactive, s₁, hfails, hplace⟩ := hfind
    exact ⟨hactive, s₁, hplace, hparse ▸ hfails⟩

/-- What the guard against nesting does and does not do.  The two parsers that count are
those that call themselves, behind the guard and without it.  Operations read the same
with the counter, which each of them leaves as it was and none raises beyond the limit.
The guard fails just where the parser without it would have one too many open.  And how
long a row of statements or a chain of operators is has nothing to do with it. -/
structure Registry.GuardsNesting (registry : Registry) : Prop where
  guarded : ∀ calls : Calls Counting,
    calls = calls.behind Counting.nested registry ↔ calls = .guarded registry
  unguarded : ∀ calls : Calls Counting,
    calls = calls.behind Counting.opening registry ↔ calls = .unguarded registry
  operation : ∀ (operation : Operation) (c : Counted), ∃ opened,
    operation.runGuarded registry c =
      (let p := operation.parseWithin registry (.ofLevels registry (maxNesting - c.depth))
      ((p.run c.state).1, ⟨(p.run c.state).2, c.depth, c.history ++ opened⟩)) ∧
    ∀ entry ∈ opened, entry.1 ≤ max c.depth maxNesting
  session : ∀ (tokens : List Token) (operations : List Operation),
    let (results, c) := registry.countedSession (.ofState (.ofTokens tokens)) operations
    results = registry.session (.ofTokens tokens) operations ∧
    c.state = registry.stateAfter (.ofTokens tokens) operations ∧ c.depth = 0 ∧
    ∀ entry ∈ c.history, entry.1 ≤ maxNesting
  limit : ∀ (operation : Operation) (s : ParseState),
    operation.GuardedBy registry s (operation.runUnguarded registry s)
  program : ∀ levels s e s',
    collectUntil (check .eof) (Inner.ofLevels registry levels).statement s = .error e s' →
    ∃ s₁, s.cursor.Reaches s₁.cursor ∧
      (Inner.ofLevels registry levels).statement s₁ = .error e s'
  body : ∀ levels s e s', Stmt.parseBody (.ofLevels registry levels) s = .error e s' →
    ∃ s₁, s.cursor.Reaches s₁.cursor ∧
      (Inner.ofLevels registry levels).statement s₁ = .error e s'
  operators : ∀ levels floor left s e s', e.isTooDeep →
    Expr.extend registry (.ofLevels registry levels) floor left s = .error e s' →
    ∃ s₁, s.cursor.Reaches s₁.cursor ∧
      registry.OperandFails (.ofLevels registry levels) floor s₁ e s'
  chain : ∀ levels floor s e s', Power.primary.rank < levels + floor.rank → e.isTooDeep →
    (Inner.ofLevels registry levels).expression floor s = .error e s' →
    registry.NestsBetween s.cursor s'.cursor

/-- Whatever is registered for whatever kind of token, the guard is exact. -/
theorem nesting_guard_exact (registry : Registry) : registry.GuardsNesting := by
  have hadvances := Inner.ofLevels_advances registry
  constructor
  case guarded => exact Calls.eq_behind_nested_iff registry
  case unguarded => exact Calls.eq_behind_opening_iff registry
  case operation => exact Operation.run_guarded registry
  case session =>
    intro tokens operations
    obtain ⟨opened, hsession, hle⟩ :=
      registry.countedSession_eq operations (.ofTokens tokens) []
    rw [Counted.ofState, hsession]
    exact ⟨rfl, rfl, rfl, hle⟩
  case limit => exact Operation.guardedBy_unguarded registry
  case program =>
    intro levels s e s' herror
    exact (untilEnd_fails (hadvances levels) s).of_error herror
  case body =>
    intro levels s e s' herror
    exact (Stmt.parseBody_fails (hadvances levels) s).of_error herror
  case operators =>
    intro levels floor left s e s' hdeep herror
    exact (Expr.extend_fails (hadvances levels) floor left s).of_error herror hdeep
  case chain =>
    intro levels floor s e s' hlevels hdeep herror
    exact (Expr.nests_of_tooDeep hlevels).of_error herror hdeep

/-- So many opening parentheses, and nothing behind them. -/
def ParseState.groupings (n : Nat) : ParseState :=
  .ofTokens (List.replicate n (.sample .leftParen))

/-- As many parentheses as levels: behind the last of them an expression would be one too
many, and there is the end marker. -/
theorem nesting_guard_exact_groupings :
    ∃ s', ((Operation.expression .default).parse .standard).run (.groupings 256) =
        (.error (.nestingTooDeep 256 s'.cursor.current.location), s') ∧
      s'.cursor.rest = [.sample .eof] := by
  have hlimit :=
    (nesting_guard_exact .standard).limit (.expression .default) (.groupings 256)
  have hplace : ((Operation.runUnguarded .standard (.expression .default)
      (.groupings 256)).2.firstTooMany.map fun entry => (entry.1, entry.2.rest)) =
      some (257, [.sample .eof]) := by decide +kernel
  obtain ⟨⟨active, place⟩, hfirst, hentry⟩ := Option.map_eq_some_iff.1 hplace
  obtain ⟨_, s', rfl, hrun⟩ := hlimit.fails active place hfirst
  exact ⟨s', hrun, congrArg Prod.snd hentry⟩

end MiniC
