/-
Cursors: places in a list of tokens.
-/
import MiniC.Token.Basic

namespace MiniC

/-- The tokens that are read when a list is given.  An end marker is put behind
a list that does not end with one, where its last token stands. -/
def Token.terminated (tokens : List Token) : List Token :=
  if tokens.getLast?.map Token.kind = some .eof then tokens
  else tokens ++
    [.endMarker ((tokens.getLast?.map Token.location).getD .nowhere)]

/-- A place in a list of tokens: the token there and all that stand behind it.
An end marker is among them, and so there is a token at every place. -/
structure Cursor where
  rest : List Token
  exists_eof : ∃ token ∈ rest, token.kind = .eof

namespace Cursor

theorem rest_ne_nil (cursor : Cursor) : cursor.rest ≠ [] := by
  obtain ⟨token, htoken, _⟩ := cursor.exists_eof
  exact List.ne_nil_of_mem htoken

/-- Whether a token is an end marker. -/
def isEnd (token : Token) : Bool := token.kind = .eof

theorem exists_eof_terminated (tokens : List Token) :
    ∃ token ∈ Token.terminated tokens, token.kind = .eof := by
  unfold Token.terminated
  split
  case isTrue hlast =>
    obtain ⟨last, hlast, hkind⟩ := Option.map_eq_some_iff.1 hlast
    exact ⟨last, List.mem_of_getLast? hlast, hkind⟩
  case isFalse => exact ⟨_, List.mem_append_right _ List.mem_cons_self, rfl⟩

/-- A cursor at the start of a list of tokens. -/
def ofTokens (tokens : List Token) : Cursor :=
  ⟨Token.terminated tokens, exists_eof_terminated tokens⟩

/-- The token at the cursor. -/
def current (cursor : Cursor) : Token :=
  cursor.rest.head cursor.rest_ne_nil

/-- The kind of the token at the cursor. -/
def kind (cursor : Cursor) : TokenKind := cursor.current.kind

/-- The kind of the token after the one at the cursor.  Behind the last token it
is that of an end marker. -/
def nextKind (cursor : Cursor) : TokenKind :=
  (cursor.rest[1]?.map Token.kind).getD .eof

theorem exists_eof_tail {cursor : Cursor} (h : cursor.kind ≠ .eof) :
    ∃ token ∈ cursor.rest.tail, token.kind = .eof := by
  obtain ⟨token, htoken, hkind⟩ := cursor.exists_eof
  rw [← List.cons_head_tail cursor.rest_ne_nil] at htoken
  rcases List.mem_cons.1 htoken with rfl | htail
  · exact absurd hkind h
  · exact ⟨token, htail, hkind⟩

/-- Pass the token at the cursor.  An end marker is not passed, whatever stands
behind it. -/
def advance (cursor : Cursor) : Cursor :=
  if h : cursor.kind = .eof then cursor
  else ⟨cursor.rest.tail, exists_eof_tail h⟩

/-- Pass `n` tokens, or as many as there are before the next end marker. -/
def drop (cursor : Cursor) : Nat → Cursor
  | 0 => cursor
  | n + 1 => cursor.advance.drop n

/-- The tokens before the next end marker. -/
def ahead (cursor : Cursor) : List Token :=
  cursor.rest.takeWhile fun token => !isEnd token

end Cursor

end MiniC
