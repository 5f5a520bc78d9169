import Mathlib.Computability.StateTransition

/-!
# Proof Rules for Loops

A loop is a state transition `f : σ → Option σ`: one iteration of the body while
the condition holds, and `none` when the loop is left.  Mathlib's
`StateTransition.eval f s` is the partial state in which the loop started in `s`
ends.  This module adds what a verification of a concrete loop needs:

- `runFor`: the same loop with an iteration budget, which evaluates
- `mem_eval_of_invariant`: total correctness from an invariant and a measure
-/

namespace SmtCacheBenchmarks.Library.Loop

open StateTransition

universe u

variable {σ : Type u} {f : σ → Option σ}

/-! ## Budgeted execution -/

/-- Run the loop with a budget of `n` evaluations of its condition; `none` when
the budget runs out before the loop is left. -/
def runFor (f : σ → Option σ) : ℕ → σ → Option σ
  | 0, _ => none
  | n + 1, s =>
      match f s with
      | none => some s
      | some s' => runFor f n s'

/-- A budgeted run that ends has ended where the loop ends. -/
theorem mem_eval_of_runFor {n : ℕ} {s r : σ} (h : runFor f n s = some r) :
    r ∈ eval f s := by
  induction n generalizing s with
  | zero => simp [runFor] at h
  | succ n ih =>
      cases hs : f s with
      | none =>
          have hr : s = r := by simpa [runFor, hs] using h
          subst hr
          exact mem_eval.mpr ⟨Relation.ReflTransGen.refl, hs⟩
      | some s' =>
          have hrun : runFor f n s' = some r := by simpa [runFor, hs] using h
          obtain ⟨hreach, hend⟩ := mem_eval.mp (ih hrun)
          exact mem_eval.mpr ⟨Relation.ReflTransGen.head hs hreach, hend⟩

/-! ## The invariant rule -/

/-- **Total correctness**: a preserved invariant and a measure that every
iteration decreases give an end state, and the invariant holds there. -/
theorem mem_eval_of_invariant {I : σ → Prop} (m : σ → ℕ)
    (hstep : ∀ s s', I s → f s = some s' → I s' ∧ m s' < m s)
    {s : σ} (hs : I s) : ∃ r ∈ eval f s, I r ∧ f r = none := by
  -- induction on a bound of the measure, which the body brings below the bound
  have hbound : ∀ k s, m s < k → I s → ∃ r ∈ eval f s, I r ∧ f r = none := by
    intro k
    induction k with
    | zero => intro s hk; exact absurd hk (Nat.not_lt_zero _)
    | succ k ih =>
        intro s hk hI
        cases hfs : f s with
        | none => exact ⟨s, mem_eval.mpr ⟨Relation.ReflTransGen.refl, hfs⟩, hI, hfs⟩
        | some s' =>
            obtain ⟨hI', hm⟩ := hstep s s' hI hfs
            obtain ⟨r, hr, hpost⟩ := ih s' (by omega) hI'
            have hreach : Reaches f s s' := Relation.ReflTransGen.single hfs
            exact ⟨r, by rwa [reaches_eval hreach], hpost⟩
  exact hbound (m s + 1) s (Nat.lt_succ_self _) hs

end SmtCacheBenchmarks.Library.Loop
