import Mathlib.Data.List.Basic

/-!
# One Pass or Two

Two searches `f` and `g` over one list can be combined in two ways: in one pass,
which takes the first element on which either of them hits, or by preference,
which takes the first hit of `f` and looks for a hit of `g` only if `f` has none.
This module says when the two agree.
-/

namespace SmtCacheBenchmarks.Library.FirstHit

universe u v

variable {α : Type u} {β : Type v}

/-- One pass: the first element on which `f`, or else `g`, hits. -/
def onePass (f g : α → Option β) (l : List α) : Option β :=
  l.findSome? fun a => (f a).or (g a)

/-- By preference: the first hit of `f`, or else the first hit of `g`. -/
def preferred (f g : α → Option β) (l : List α) : Option β :=
  (l.findSome? f).or (l.findSome? g)

/-- The elements before the first hit of `f`. -/
def before (f : α → Option β) (l : List α) : List α :=
  l.takeWhile fun a => (f a).isNone

/-- **One pass agrees with the preference** exactly when a hit of `g` that comes
before the first hit of `f` happens to have the same value. -/
theorem onePass_eq_preferred_iff (f g : α → Option β) (l : List α) :
    onePass f g l = preferred f g l ↔
      ∀ v w, l.findSome? f = some v → (before f l).findSome? g = some w → w = v := by
  induction l with
  | nil => simp [onePass, preferred]
  | cons a l ih =>
      cases hf : f a with
      | some v => simp [onePass, preferred, before, hf]
      | none =>
          cases hg : g a with
          | none =>
              simpa [onePass, preferred, before, hf, hg] using ih
          | some w =>
              -- `g` hits here: the pass stops, and only the tail can hold a hit of `f`
              cases hl : l.findSome? f with
              | none => simp [onePass, preferred, before, hf, hg, hl]
              | some v => simp [onePass, preferred, before, hf, hg, hl]

end SmtCacheBenchmarks.Library.FirstHit
