/-
What a parse notes in its log: rules for parses that succeed, and the account that a
stretch of the log gives.
-/
import MiniC.Proofs.Declarator
import MiniC.Registry.Standard

namespace MiniC

namespace Parse

variable {α β : Type} {s : ParseState}

/-- Whatever value the parse succeeds with, and in whatever state, they are in `Q`. -/
def Yields (p : Parse α) (s : ParseState) (Q : α → ParseState → Prop) : Prop :=
  Ensures p s Q fun _ _ => True

section Rules

variable {p : Parse α} {f : α → Parse β} {Q Q' : α → ParseState → Prop}
  {R : β → ParseState → Prop}

theorem Ensures.yields {E : ParseError → ParseState → Prop} (h : Ensures p s Q E) :
    Yields p s Q :=
  h.mono (fun _ _ h => h) fun _ _ _ => trivial

@[simp] theorem yields_pure {a : α} : Yields (pure a) s Q ↔ Q a s := Iff.rfl

theorem Yields.mono (h : Yields p s Q) (hQ : ∀ a s', Q a s' → Q' a s') : Yields p s Q' :=
  Ensures.mono h hQ fun _ _ h => h

theorem Yields.and (h : Yields p s Q) (h' : Yields p s Q') :
    Yields p s fun a s' => Q a s' ∧ Q' a s' :=
  (Ensures.and h h').yields

theorem Yields.bind (h : Yields p s Q) (hnext : ∀ a s', Q a s' → Yields (f a) s' R) :
    Yields (p >>= f) s R :=
  Ensures.bind h (fun _ _ h => h) hnext

/-- A loop keeps what each of its turns keeps, also where it takes none. -/
theorem yields_loop {step : β → Parse (Option β)} (Inv : β → ParseState → Prop)
    (hturn : ∀ value s, Inv value s →
      Yields (step value) s fun next s' => Inv (next.getD value) s')
    {value : β} (hinv : Inv value s) : Yields (loop step value) s Inv := by
  have within : ∀ (bound : List Token) (value : β) (s : ParseState), Inv value s →
      Yields (repeatWithin step bound value) s Inv := by
    intro bound
    induction bound with
    | nil =>
        intro value s hinv
        exact (hturn value s hinv).bind fun _ _ h => h
    | cons token bound ih =>
        intro value s hinv
        refine (hturn value s hinv).bind ?_
        rintro (_ | next) s' hnext
        · exact hnext
        · exact ih next s' hnext
  exact within s.cursor.rest value s hinv

/-- Values that are collected keep what each of them keeps. -/
theorem yields_collectUntil {stop : Parse Bool} {parse : Parse α} {test : ParseState → Bool}
    (hstop : ∀ s, stop s = .ok (test s) s) (Inv : List α → ParseState → Prop)
    (hnext : ∀ found s, Inv found s → Yields parse s fun a s' => Inv (found ++ [a]) s')
    (hinv : Inv [] s) : Yields (collectUntil stop parse) s Inv := by
  have hturn : ∀ found s, Inv found.toList s → Yields (collectTurn stop parse found) s
      fun next s' => Inv (next.getD found).toList s' := by
    intro found s hfound
    rw [Yields, collectTurn, ensures_bind, ensures_test hstop, ensures_ite]
    split
    · exact hfound
    · refine (hnext _ _ hfound).bind fun a s' ha => ?_
      have hpush : Inv (found.push a).toList s' := by rwa [Array.toList_push]
      exact hpush
  rw [collectUntil_eq]
  refine (yields_loop (fun found s => Inv found.toList s) hturn hinv).bind ?_
  intro found s' hfound
  exact hfound

/-- The parse adds nothing to the log. -/
def Quiet (p : Parse α) : Prop :=
  ∀ s, Yields p s fun _ s' => s'.log = s.log

theorem quiet_pure (a : α) : Quiet (pure a : Parse α) := fun _ => rfl

theorem quiet_throw (e : ParseError) : Quiet (throw e : Parse α) := fun _ => trivial

theorem quiet_check (kind : TokenKind) : Quiet (check kind) := fun _ => rfl

theorem quiet_current : Quiet current := fun _ => rfl

theorem quiet_advance : Quiet advance := fun _ => rfl

theorem quiet_takeWhile (q : TokenKind → Bool) : Quiet (takeWhile q) := fun _ => rfl

theorem Quiet.bind (h : Quiet p) (hf : ∀ a, Quiet (f a)) : Quiet (p >>= f) := by
  intro s
  refine (h s).bind fun a s' hlog => (hf a s').mono fun _ _ hlog' => ?_
  exact hlog'.trans hlog

theorem Quiet.ite {c : Prop} [Decidable c] {q : Parse α} (hp : Quiet p) (hq : Quiet q) :
    Quiet (if c then p else q) := by
  split
  · exact hp
  · exact hq

theorem quiet_expect (kind : TokenKind) (context : String) : Quiet (expect kind context) :=
  (quiet_check kind).bind fun _ =>
    quiet_advance.ite (quiet_current.bind fun _ => quiet_throw _)

theorem Quiet.loop {step : β → Parse (Option β)} (h : ∀ value, Quiet (step value))
    (value : β) : Quiet (loop step value) := by
  intro s
  refine yields_loop (fun _ s' => s'.log = s.log) ?_ rfl
  exact fun value s' hlog => (h value s').mono fun _ _ hlog' => hlog'.trans hlog

end Rules

theorem quiet_declarator : Quiet declarator :=
  (quiet_takeWhile _).bind fun _ => (quiet_expect _ _).bind fun _ => quiet_pure _

theorem quiet_param : Quiet param :=
  quiet_declarator.bind fun _ => quiet_pure _

theorem quiet_moreParams (found : Array Param) : Quiet (moreParams found) := by
  refine (quiet_check _).bind fun _ => Quiet.ite ?_ (quiet_pure _)
  exact quiet_advance.bind fun _ => quiet_param.bind fun _ => quiet_pure _

theorem quiet_params : Quiet params := by
  rw [params_eq]
  refine (quiet_check _).bind fun _ => (quiet_pure _).ite ?_
  intro s
  rw [Yields, ensures_voidOrSomeParams]
  split
  · rfl
  · refine quiet_param.bind (fun _ => ?_) s
    exact (Quiet.loop quiet_moreParams _).bind fun _ => quiet_pure _

end Parse

namespace Record

/-- The operator that an expression went on with. -/
def operator? : Record → Option TokenKind
  | continuing kind _ _ => some kind
  | _ => none

/-- Whether a statement of its own form begins. -/
def announces : Record → Bool
  | statement _ _ => true
  | _ => false

/-- Whether a name was declared. -/
def declares : Record → Bool
  | uninitialized _ | function _ => true
  | _ => false

/-- The record is made by a parse, and where it shows an operator, it shows the power
of that operator, and that the operator binds more tightly than the floor. -/
def Sound : Record → Prop
  | lexed _ => False
  | continuing kind power floor => power = Registry.standard.power kind ∧ floor < power
  | statement _ _ | uninitialized _ | function _ => True

end Record

/-- What the records say in all, each sort of them in its order. -/
structure Account (records : List Record) (operators : List TokenKind)
    (announced declared : List Record) : Prop where
  operators_eq : records.filterMap Record.operator? = operators
  announced_eq : records.filter Record.announces = announced
  declared_eq : records.filter Record.declares = declared
  sound : ∀ record ∈ records, record.Sound

namespace Account

variable {operators operators' : List TokenKind}
  {records records' announced announced' declared declared' : List Record}

theorem nil : Account [] [] [] [] :=
  ⟨rfl, rfl, rfl, fun _ h => absurd h List.not_mem_nil⟩

theorem append (h : Account records operators announced declared)
    (h' : Account records' operators' announced' declared') :
    Account (records ++ records') (operators ++ operators') (announced ++ announced')
      (declared ++ declared') where
  operators_eq := by rw [List.filterMap_append, h.operators_eq, h'.operators_eq]
  announced_eq := by rw [List.filter_append, h.announced_eq, h'.announced_eq]
  declared_eq := by rw [List.filter_append, h.declared_eq, h'.declared_eq]
  sound := List.forall_mem_append.2 ⟨h.sound, h'.sound⟩

end Account

/-- Between two states of a parse, the log grew by records that give this account. -/
def Notes (s s' : ParseState) (operators : List TokenKind) (announced declared : List Record) :
    Prop :=
  ∃ records, s'.log.toList = s.log.toList ++ records ∧
    Account records operators announced declared

namespace Notes

variable {s s' s'' : ParseState} {operators operators' : List TokenKind}
  {announced announced' declared declared' : List Record}

theorem of_log_eq (h : s'.log = s.log) : Notes s s' [] [] [] :=
  ⟨[], by rw [h, List.append_nil], .nil⟩

theorem trans (h : Notes s s' operators announced declared)
    (h' : Notes s' s'' operators' announced' declared') :
    Notes s s'' (operators ++ operators') (announced ++ announced') (declared ++ declared') := by
  obtain ⟨records, hlog, haccount⟩ := h
  obtain ⟨records', hlog', haccount'⟩ := h'
  exact ⟨records ++ records', by rw [hlog', hlog, List.append_assoc],
    haccount.append haccount'⟩

theorem within {start s' : ParseState} (hbefore : s.log = start.log)
    (h : Notes s s'' operators announced declared) (hbehind : s'.log = s''.log) :
    Notes start s' operators announced declared := by
  obtain ⟨records, hlog, haccount⟩ := h
  exact ⟨records, by rw [hbehind, hlog, hbefore], haccount⟩

/-- One record gives the account of the sort that it is of. -/
theorem push {record : Record} {cursor : Cursor} (h : record.Sound) :
    Notes s ⟨cursor, s.log.push record⟩ ([record].filterMap Record.operator?)
      ([record].filter Record.announces) ([record].filter Record.declares) :=
  ⟨[record], Array.toList_push, rfl, rfl, rfl, List.forall_mem_singleton.2 h⟩

end Notes

end MiniC
