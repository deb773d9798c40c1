/-
Passing tokens: how the cursors of one token list lie to each other.
-/
import MiniC.Token.Cursor

namespace MiniC.Cursor

/-- A cursor is determined by the tokens that it has not passed. -/
theorem eq_of_rest_eq {first second : Cursor} (h : first.rest = second.rest) :
    first = second := by
  cases first
  cases second
  simp_all

theorem rest_eq_cons (cursor : Cursor) :
    cursor.rest = cursor.current :: cursor.rest.tail :=
  (List.cons_head_tail cursor.rest_ne_nil).symm

theorem current_eq_of_rest_eq {cursor : Cursor} {token : Token}
    {more : List Token} (h : cursor.rest = token :: more) :
    cursor.current = token := by
  simp [current, h]

/-- At the end marker, advancing does nothing. -/
theorem advance_of_kind_eq_eof {cursor : Cursor} (h : cursor.kind = .eof) :
    cursor.advance = cursor :=
  dif_pos h

theorem rest_advance {cursor : Cursor} (h : cursor.kind ≠ .eof) :
    cursor.advance.rest = cursor.rest.tail := by
  simp [advance, h]

/-- `stop` is where one comes to from `start` by passing `tokens`, no more and
no less.  An end marker is never passed. -/
def Passes (start : Cursor) (tokens : List Token) (stop : Cursor) : Prop :=
  start.rest = tokens ++ stop.rest ∧ ∀ token ∈ tokens, token.kind ≠ .eof

theorem Passes.refl (cursor : Cursor) : cursor.Passes [] cursor :=
  ⟨rfl, by simp⟩

theorem passes_nil_iff {start stop : Cursor} :
    start.Passes [] stop ↔ stop = start := by
  constructor
  · rintro ⟨hrest, _⟩
    exact eq_of_rest_eq hrest.symm
  · rintro rfl
    exact Passes.refl stop

theorem Passes.trans {start middle stop : Cursor} {first second : List Token}
    (hfirst : start.Passes first middle) (hsecond : middle.Passes second stop) :
    start.Passes (first ++ second) stop := by
  constructor
  · rw [hfirst.1, hsecond.1, List.append_assoc]
  · rw [List.forall_mem_append]
    exact ⟨hfirst.2, hsecond.2⟩

/-- No end marker is ever passed. -/
theorem Passes.kind_ne_eof {start stop : Cursor} {tokens : List Token}
    (h : start.Passes tokens stop) {token : Token} (htoken : token ∈ tokens) :
    token.kind ≠ .eof :=
  h.2 token htoken

/-- Away from the end marker, advancing passes the token shown. -/
theorem passes_advance {cursor : Cursor} (h : cursor.kind ≠ .eof) :
    cursor.Passes [cursor.current] cursor.advance := by
  constructor
  · rw [rest_advance h]
    exact cursor.rest_eq_cons
  · simpa [kind] using h

/-- The first token passed is the one that the cursor showed. -/
theorem Passes.current_eq {start stop : Cursor} {token : Token}
    {tokens : List Token} (h : start.Passes (token :: tokens) stop) :
    start.current = token :=
  current_eq_of_rest_eq h.1

theorem Passes.kind_eq {start stop : Cursor} {token : Token}
    {tokens : List Token} (h : start.Passes (token :: tokens) stop) :
    start.kind = token.kind := by
  rw [kind, h.current_eq]

theorem Passes.advance {start stop : Cursor} {token : Token}
    {tokens : List Token} (h : start.Passes (token :: tokens) stop) :
    start.advance.Passes tokens stop := by
  have hkind : start.kind ≠ .eof := by
    rw [h.kind_eq]
    exact h.kind_ne_eof List.mem_cons_self
  constructor
  · rw [rest_advance hkind, h.1]
    rfl
  · exact fun token htoken => h.2 token (List.mem_cons_of_mem _ htoken)

/-- Where one token is passed, the stop is the next place. -/
theorem Passes.advance_eq {start stop : Cursor} {token : Token}
    (h : start.Passes [token] stop) : start.advance = stop :=
  (passes_nil_iff.1 h.advance).symm

/-- The tokens passed say how far the cursor has come. -/
theorem Passes.eq_drop {start stop : Cursor} {tokens : List Token}
    (h : start.Passes tokens stop) : stop = start.drop tokens.length := by
  induction tokens generalizing start with
  | nil => exact passes_nil_iff.1 h
  | cons token tokens ih => exact ih h.advance

/-- What stands before the end marker is still ahead, or it has been passed. -/
theorem Passes.ahead_eq {start stop : Cursor} {tokens : List Token}
    (h : start.Passes tokens stop) : start.ahead = tokens ++ stop.ahead := by
  rw [ahead, h.1, List.takeWhile_append_of_pos]
  · rfl
  · simpa [isEnd] using h.2

/-- Tokens before the end marker can be passed one after the other. -/
theorem exists_passes {cursor : Cursor} {tokens more : List Token}
    (hrest : cursor.rest = tokens ++ more)
    (hkinds : ∀ token ∈ tokens, token.kind ≠ .eof) :
    ∃ stop : Cursor, cursor.Passes tokens stop ∧ stop.rest = more := by
  have hmore : ∃ token ∈ more, token.kind = .eof := by
    obtain ⟨token, htoken, hkind⟩ := cursor.exists_eof
    rw [hrest] at htoken
    rcases List.mem_append.1 htoken with htoken | htoken
    · exact absurd hkind (hkinds token htoken)
    · exact ⟨token, htoken, hkind⟩
  exact ⟨⟨more, hmore⟩, ⟨hrest, hkinds⟩, rfl⟩

/-- Passing all that is ahead leads to the end marker. -/
theorem passes_ahead (cursor : Cursor) :
    ∃ stop : Cursor, cursor.Passes cursor.ahead stop ∧ stop.kind = .eof := by
  have hsplit := List.takeWhile_append_dropWhile
    (p := fun token => !isEnd token) (l := cursor.rest)
  have hkinds : ∀ token ∈ cursor.ahead, token.kind ≠ .eof := by
    intro token htoken
    have hall := List.all_eq_true.1
      (List.all_takeWhile (l := cursor.rest) (p := fun token => !isEnd token))
      token htoken
    simpa [isEnd] using hall
  obtain ⟨stop, hpasses, hstop⟩ := exists_passes hsplit.symm hkinds
  refine ⟨stop, hpasses, ?_⟩
  have hhead := List.head?_dropWhile_not (fun token => !isEnd token) cursor.rest
  rw [← hstop, stop.rest_eq_cons] at hhead
  simpa [isEnd, kind] using hhead

/-- A cursor shows the end marker exactly when nothing is ahead. -/
theorem kind_eq_eof_iff (cursor : Cursor) :
    cursor.kind = .eof ↔ cursor.ahead = [] := by
  rw [ahead, cursor.rest_eq_cons, kind]
  by_cases h : cursor.current.kind = .eof <;> simp [isEnd, h]

/-- Who comes to the end marker has passed all that was ahead. -/
theorem Passes.eq_ahead {start stop : Cursor} {tokens : List Token}
    (h : start.Passes tokens stop) (hstop : stop.kind = .eof) :
    tokens = start.ahead := by
  rw [h.ahead_eq, stop.kind_eq_eof_iff.1 hstop, List.append_nil]

/-- Passing some number of tokens is passing the first ones that are ahead. -/
theorem passes_take_drop (cursor : Cursor) (n : Nat) :
    cursor.Passes (cursor.ahead.take n) (cursor.drop n) := by
  induction n generalizing cursor with
  | zero => exact Passes.refl cursor
  | succ n ih =>
      by_cases h : cursor.kind = .eof
      · have hahead := cursor.kind_eq_eof_iff.1 h
        have hrest := ih cursor
        simp only [hahead, List.take_nil] at hrest ⊢
        rwa [drop, advance_of_kind_eq_eof h]
      · have hfirst := passes_advance h
        rw [hfirst.ahead_eq]
        exact hfirst.trans (ih cursor.advance)

theorem ahead_drop (cursor : Cursor) (n : Nat) :
    (cursor.drop n).ahead = cursor.ahead.drop n := by
  have hsplit := (cursor.passes_take_drop n).ahead_eq
  have hsame := List.take_append_drop n cursor.ahead
  exact List.append_cancel_left (hsplit.symm.trans hsame.symm)

theorem drop_drop (cursor : Cursor) (n m : Nat) :
    (cursor.drop n).drop m = cursor.drop (n + m) := by
  induction n generalizing cursor with
  | zero => rw [Nat.zero_add, drop]
  | succ n ih => rw [Nat.succ_add, drop, drop, ih]

theorem length_ahead_le (cursor : Cursor) :
    cursor.ahead.length ≤ cursor.rest.length :=
  (List.takeWhile_sublist _).length_le

/-- A way through the tokens may be halted anywhere. -/
theorem Passes.split {start stop : Cursor} {first second : List Token}
    (h : start.Passes (first ++ second) stop) :
    ∃ middle : Cursor, start.Passes first middle ∧ middle.Passes second stop := by
  obtain ⟨hrest, hkinds⟩ := h
  rw [List.append_assoc] at hrest
  rw [List.forall_mem_append] at hkinds
  obtain ⟨middle, hfirst, hmiddle⟩ := exists_passes hrest hkinds.1
  exact ⟨middle, hfirst, hmiddle, hkinds.2⟩

/-- From one place to another, the way leads over the same tokens always. -/
theorem Passes.unique {start stop : Cursor} {tokens tokens' : List Token}
    (h : start.Passes tokens stop) (h' : start.Passes tokens' stop) :
    tokens = tokens' :=
  List.append_cancel_right (h.1.symm.trans h'.1)

theorem Passes.length_lt {start stop : Cursor} {token : Token}
    {tokens : List Token} (h : start.Passes (token :: tokens) stop) :
    stop.ahead.length < start.ahead.length := by
  rw [h.ahead_eq, List.length_append, List.length_cons]
  omega

/-- `stop` is at `start` or behind it. -/
def Reaches (start stop : Cursor) : Prop :=
  ∃ tokens, start.Passes tokens stop

/-- `stop` is behind `start`. -/
def Leaves (start stop : Cursor) : Prop :=
  ∃ token tokens, start.Passes (token :: tokens) stop

theorem Reaches.refl (cursor : Cursor) : cursor.Reaches cursor :=
  ⟨[], Passes.refl cursor⟩

theorem Reaches.trans {start middle stop : Cursor}
    (hfirst : start.Reaches middle) (hsecond : middle.Reaches stop) :
    start.Reaches stop := by
  obtain ⟨first, hfirst⟩ := hfirst
  obtain ⟨second, hsecond⟩ := hsecond
  exact ⟨first ++ second, hfirst.trans hsecond⟩

theorem Leaves.reaches {start stop : Cursor} (h : start.Leaves stop) :
    start.Reaches stop := by
  obtain ⟨token, tokens, h⟩ := h
  exact ⟨token :: tokens, h⟩

theorem Leaves.trans_reaches {start middle stop : Cursor}
    (hfirst : start.Leaves middle) (hsecond : middle.Reaches stop) :
    start.Leaves stop := by
  obtain ⟨token, tokens, hfirst⟩ := hfirst
  obtain ⟨second, hsecond⟩ := hsecond
  exact ⟨token, tokens ++ second, hfirst.trans hsecond⟩

theorem Reaches.trans_leaves {start middle stop : Cursor}
    (hfirst : start.Reaches middle) (hsecond : middle.Leaves stop) :
    start.Leaves stop := by
  obtain ⟨first, hfirst⟩ := hfirst
  obtain ⟨token, tokens, hsecond⟩ := hsecond
  cases first with
  | nil => exact ⟨token, tokens, hfirst.trans hsecond⟩
  | cons token' first => exact ⟨token', _, hfirst.trans hsecond⟩

theorem Leaves.length_lt {start stop : Cursor} (h : start.Leaves stop) :
    stop.ahead.length < start.ahead.length := by
  obtain ⟨token, tokens, h⟩ := h
  exact h.length_lt

theorem Leaves.ne_nil {start stop : Cursor} (h : start.Leaves stop)
    {tokens : List Token} (hpasses : start.Passes tokens stop) : tokens ≠ [] := by
  rintro rfl
  rw [passes_nil_iff] at hpasses
  rw [hpasses] at h
  exact Nat.lt_irrefl _ h.length_lt

/-- Whether advancing moves the cursor or not, it goes no way but forward. -/
theorem reaches_advance (cursor : Cursor) : cursor.Reaches cursor.advance :=
  ⟨_, cursor.passes_take_drop 1⟩

theorem leaves_advance {cursor : Cursor} (h : cursor.kind ≠ .eof) :
    cursor.Leaves cursor.advance :=
  ⟨_, [], passes_advance h⟩

/-- Away from the end marker, the kind behind the cursor is the one to come
next. -/
theorem Passes.nextKind_eq {start stop : Cursor} {token : Token}
    {tokens : List Token} (h : start.Passes (token :: tokens) stop) :
    start.nextKind = start.advance.kind := by
  rw [nextKind, h.1, List.cons_append, List.getElem?_cons_succ, ← h.advance.1,
    start.advance.rest_eq_cons]
  rfl

end MiniC.Cursor
