/-
What a run of specifiers describes, said of the run as a whole and not of one specifier
after the other: the last base type in it, the last signedness, whether it is constant,
and the number of its stars.
-/
import Mathlib.Data.List.Induction
import MiniC.DeclType

namespace MiniC.DeclType

/-- The signedness that a keyword names. -/
def signedness? : TokenKind → Option Bool
  | .kwSigned => some true
  | .kwUnsigned => some false
  | _ => none

/-- The type that a run of specifiers describes.  Without a base type it is `int`, and
without a signedness it is signed. -/
def described (kinds : List TokenKind) : DeclType where
  base := (kinds.filterMap BaseType.ofKind?).getLast?.getD .int
  isConst := decide (.kwConst ∈ kinds)
  isSigned := (kinds.filterMap signedness?).getLast?.getD true
  pointerLevel := kinds.count .star

/-- A specifier changes what it speaks of and nothing else. -/
theorem specify_eq (type : DeclType) (kind : TokenKind) :
    type.specify kind =
      ⟨(BaseType.ofKind? kind).getD type.base, decide (kind = .kwConst) || type.isConst,
        (signedness? kind).getD type.isSigned,
        type.pointerLevel + if kind = .star then 1 else 0⟩ := by
  cases kind <;> rfl

/-- Of a list that grows at its end, the last value is the one put there, if one is. -/
theorem getLast?_filterMap_concat {α β : Type} (f : α → Option β) (xs : List α) (x : α)
    (default : β) :
    ((xs ++ [x]).filterMap f).getLast?.getD default =
      (f x).getD ((xs.filterMap f).getLast?.getD default) := by
  cases hx : f x <;> simp [hx]

/-- One more specifier behind a run. -/
theorem described_concat (kinds : List TokenKind) (kind : TokenKind) :
    described (kinds ++ [kind]) = (described kinds).specify kind := by
  have hconst : decide (.kwConst ∈ kinds ++ [kind]) =
      (decide (kind = .kwConst) || decide (.kwConst ∈ kinds)) := by
    simp [eq_comm, or_comm]
  have hstar : (kinds ++ [kind]).count .star =
      kinds.count .star + if kind = .star then 1 else 0 := by
    simp [List.count_append, List.count_singleton]
  rw [specify_eq, described, getLast?_filterMap_concat, getLast?_filterMap_concat, hconst,
    hstar]
  rfl

/-- Reading the specifiers one by one comes to what the run describes. -/
theorem ofSpecifiers_eq_described (kinds : List TokenKind) :
    ofSpecifiers kinds = described kinds := by
  induction kinds using List.reverseRecOn with
  | nil => rfl
  | append_singleton kinds kind ih =>
      rw [described_concat, ← ih, ofSpecifiers, List.foldl_append, List.foldl_cons,
        List.foldl_nil, ofSpecifiers]

/-- The specifiers of a run among which the order matters: all but stars and `const`. -/
def ordered (kinds : List TokenKind) : List TokenKind :=
  kinds.filter fun kind => kind ≠ .star ∧ kind ≠ .kwConst

theorem filterMap_ordered {β : Type} {f : TokenKind → Option β} (hstar : f .star = none)
    (hconst : f .kwConst = none) (kinds : List TokenKind) :
    (ordered kinds).filterMap f = kinds.filterMap f := by
  rw [ordered, List.filterMap_filter]
  congr 1
  funext kind
  by_cases h : kind ≠ .star ∧ kind ≠ .kwConst
  · simp [h]
  · obtain rfl | rfl : kind = .star ∨ kind = .kwConst := by
      by_contra hnone
      exact h (not_or.1 hnone)
    · simp [hstar]
    · simp [hconst]

/-- Stars and `const` may stand anywhere in a run, and `const` any number of times. -/
theorem described_eq_of_ordered {kinds kinds' : List TokenKind}
    (hordered : ordered kinds = ordered kinds')
    (hconst : .kwConst ∈ kinds ↔ .kwConst ∈ kinds')
    (hstars : kinds.count .star = kinds'.count .star) : described kinds = described kinds' := by
  have hbase : kinds.filterMap BaseType.ofKind? = kinds'.filterMap BaseType.ofKind? := by
    rw [← filterMap_ordered rfl rfl kinds, hordered, filterMap_ordered rfl rfl]
  have hsign : kinds.filterMap signedness? = kinds'.filterMap signedness? := by
    rw [← filterMap_ordered rfl rfl kinds, hordered, filterMap_ordered rfl rfl]
  simp only [described, hbase, hsign, hconst, hstars]

/-- A specifier of the class `f` may move over those of `between` without a change to what
is last in its class: one of the class stands behind, or the last of them that it passes
says what it says itself. -/
def MayPass {β : Type} (f : TokenKind → Option β) (kind : TokenKind)
    (between after : List TokenKind) : Prop :=
  after.filterMap f ≠ [] ∨ ∀ last ∈ (between.filterMap f).getLast?, f kind = some last

section Swap

variable {between after : List TokenKind}

theorem getLast?_filterMap_swap_iff {β : Type} {f : TokenKind → Option β} {x y : TokenKind}
    (before : List TokenKind) (hx : (f x).isSome) (hy : f y = none) :
    ((before ++ x :: (between ++ y :: after)).filterMap f).getLast? =
        ((before ++ y :: (between ++ x :: after)).filterMap f).getLast? ↔
      MayPass f x between after := by
  obtain ⟨own, hown⟩ := Option.isSome_iff_exists.1 hx
  cases hafter : (after.filterMap f).getLast? with
  | some last =>
      have hne : after.filterMap f ≠ [] := List.ne_nil_of_mem (List.mem_of_getLast? hafter)
      simp [MayPass, hown, hy, hafter, hne, List.getLast?_cons]
  | none =>
      rw [List.getLast?_eq_none_iff] at hafter
      cases hbetween : (between.filterMap f).getLast? <;>
        simp [MayPass, hown, hy, hafter, hbetween, List.getLast?_cons, eq_comm]

theorem ofKind?_eq_none_of_signedness {kind : TokenKind} (h : (signedness? kind).isSome) :
    BaseType.ofKind? kind = none := by
  revert h
  cases kind <;> decide

theorem signedness?_eq_none_of_base {kind : TokenKind} (h : (BaseType.ofKind? kind).isSome) :
    signedness? kind = none := by
  revert h
  cases kind <;> decide

/-- Where a list has a value, a default for it makes no difference. -/
theorem getLast?_getD_inj {β : Type} {xs ys : List β} {default : β} (hxs : xs ≠ [])
    (hys : ys ≠ []) :
    xs.getLast?.getD default = ys.getLast?.getD default ↔ xs.getLast? = ys.getLast? := by
  rw [List.getLast?_eq_some_getLast hxs, List.getLast?_eq_some_getLast hys]
  simp

open scoped List in
/-- A base type and a signedness may change places just where each may pass what stands
between them. -/
theorem described_swap_iff {before : List TokenKind} {base sign : TokenKind}
    (hbase : (BaseType.ofKind? base).isSome) (hsign : (signedness? sign).isSome) :
    described (before ++ base :: (between ++ sign :: after)) =
        described (before ++ sign :: (between ++ base :: after)) ↔
      MayPass BaseType.ofKind? base between after ∧ MayPass signedness? sign between after := by
  have hperm : before ++ base :: (between ++ sign :: after) ~
      before ++ sign :: (between ++ base :: after) :=
    calc before ++ base :: (between ++ sign :: after)
        ~ before ++ base :: sign :: (between ++ after) :=
          (List.perm_middle.cons base).append_left before
      _ ~ before ++ sign :: base :: (between ++ after) :=
          (List.Perm.swap sign base _).append_left before
      _ ~ before ++ sign :: (between ++ base :: after) :=
          (List.perm_middle.symm.cons sign).append_left before
  have hmem : ∀ {β : Type} {f : TokenKind → Option β} {kind : TokenKind}
      {kinds : List TokenKind}, kind ∈ kinds → (f kind).isSome → kinds.filterMap f ≠ [] := by
    intro β f kind kinds hkind hvalue hnil
    rw [List.filterMap_eq_nil_iff.1 hnil kind hkind] at hvalue
    cases hvalue
  rw [← getLast?_filterMap_swap_iff before hbase (ofKind?_eq_none_of_signedness hsign),
    ← getLast?_filterMap_swap_iff before hsign (signedness?_eq_none_of_base hbase)]
  simp only [described, DeclType.mk.injEq, hperm.mem_iff, hperm.count_eq, true_and, and_true]
  rw [getLast?_getD_inj (hmem (by simp) hbase) (hmem (by simp) hbase),
    getLast?_getD_inj (hmem (by simp) hsign) (hmem (by simp) hsign)]
  exact and_congr_right fun _ => eq_comm

end Swap

end MiniC.DeclType
