import Mathlib.Data.List.Basic

/-!
# Simulation of Machines by Specifications

A machine reads inputs and gives outputs, and it may crash.  A specification says which
outputs a state may give and what state comes after them.  A machine that simulates a
specification never crashes, and all that it outputs over a whole run is allowed.

- `run`: the outputs of a machine over a list of inputs
- `SpecRun`: a run that a specification allows, and its parts (`SpecRun.of_append`)
- `SpecRun.keeps`, `SpecRun.origin`: what a run keeps, and where it has something from
- `Simulates.run`: what holds of each step holds of whole runs
- `Observed`: outputs together with what the environment answered, for specifications that
  depend on it

Steps are numbered, so that the simulation relation can bound what has been used up so
far (`R n`), and a machine can be given different answers of its environment at each step.
-/

namespace SmtCacheBenchmarks.Library.Simulation

universe u v w x y

variable {σ : Type u} {τ : Type v} {ι : Type w} {ο : Type x}

/-! ## Machines and specifications -/

/-- One step of a machine: its number, the state and the input give the next state and
the output, or `none` when the machine crashes. -/
abbrev Machine (σ : Type u) (ι : Type w) (ο : Type x) := ℕ → σ → ι → Option (σ × ο)

/-- The outputs and the states that may come after an input. -/
abbrev Spec (τ : Type v) (ι : Type w) (ο : Type x) := τ → ι → ο → τ → Prop

/-- The output of a step, and what the environment answered in it. -/
structure Observed (ε : Type y) (ο : Type x) where
  output : ο
  answer : ε
deriving DecidableEq

/-- A specification that depends on the environment. -/
def Spec.observed {ε : Type y} (spec : ε → Spec τ ι ο) : Spec τ ι (Observed ε ο) :=
  fun t i o t' => spec o.answer t i o.output t'

/-- Run a machine from step `n` on. -/
def run (step : Machine σ ι ο) : ℕ → σ → List ι → Option (σ × List ο)
  | _, s, [] => some (s, [])
  | n, s, i :: is =>
      match step n s i with
      | none => none
      | some (s', o) =>
          match run step (n + 1) s' is with
          | none => none
          | some (s'', os) => some (s'', o :: os)

/-- The runs that a specification allows. -/
inductive SpecRun (spec : Spec τ ι ο) : τ → List ι → List ο → τ → Prop where
  | nil (t : τ) : SpecRun spec t [] [] t
  | cons {t t' t'' : τ} {i : ι} {o : ο} {is : List ι} {os : List ο} :
      spec t i o t' → SpecRun spec t' is os t'' → SpecRun spec t (i :: is) (o :: os) t''

/-- **Simulation**: from related states, each of the first `bound` steps does not crash,
and what it does is allowed and leads to related states. -/
structure Simulates (step : Machine σ ι ο) (spec : Spec τ ι ο) (R : ℕ → σ → τ → Prop)
    (bound : ℕ) : Prop where
  step : ∀ n < bound, ∀ s t i, R n s t →
    ∃ s' o t', step n s i = some (s', o) ∧ spec t i o t' ∧ R (n + 1) s' t'

/-! ## Whole runs -/

/-- A run is allowed part by part. -/
theorem SpecRun.of_append {spec : Spec τ ι ο} {t t'' : τ} {is js : List ι} {os : List ο}
    (h : SpecRun spec t (is ++ js) os t'') :
    ∃ t' os₁ os₂, os = os₁ ++ os₂ ∧ SpecRun spec t is os₁ t' ∧ SpecRun spec t' js os₂ t'' := by
  induction is generalizing t os with
  | nil => exact ⟨t, [], os, rfl, .nil t, h⟩
  | cons i is ih =>
      cases h with
      | cons hstep hrest =>
          obtain ⟨t', os₁, os₂, rfl, his, hjs⟩ := ih hrest
          exact ⟨t', _ :: os₁, os₂, rfl, .cons hstep his, hjs⟩

/-- A run gives one output for each input. -/
theorem SpecRun.length_eq {spec : Spec τ ι ο} {t t' : τ} {is : List ι} {os : List ο}
    (h : SpecRun spec t is os t') : os.length = is.length := by
  induction h with
  | nil => rfl
  | cons _ _ ih => rw [List.length_cons, List.length_cons, ih]

/-- What the inputs of a run keep, the run keeps. -/
theorem SpecRun.keeps {spec : Spec τ ι ο} {P : τ → Prop} {t t' : τ} {is : List ι} {os : List ο}
    (h : SpecRun spec t is os t')
    (hkeeps : ∀ i ∈ is, ∀ t o t', spec t i o t' → P t → P t') (hP : P t) : P t' := by
  induction h with
  | nil => exact hP
  | cons hstep _ ih =>
      exact ih (fun i hi => hkeeps i (List.mem_cons_of_mem _ hi))
        (hkeeps _ List.mem_cons_self _ _ _ hstep hP)

/-- What holds after a run held before it, or one of its steps has brought it about. -/
theorem SpecRun.origin {spec : Spec τ ι ο} {P : τ → Prop} {Q : ι → ο → Prop} {t t' : τ}
    {is : List ι} {os : List ο} (h : SpecRun spec t is os t')
    (horigin : ∀ t i o t', spec t i o t' → P t' → P t ∨ Q i o) (hP : P t') :
    P t ∨ ∃ s ∈ is.zip os, Q s.1 s.2 := by
  induction h with
  | nil => exact .inl hP
  | cons hstep _ ih =>
      rcases ih hP with hmiddle | ⟨s, hs, hQ⟩
      · rcases horigin _ _ _ _ hstep hmiddle with hfirst | hQ
        · exact .inl hfirst
        · exact .inr ⟨_, List.mem_cons_self, hQ⟩
      · exact .inr ⟨s, List.mem_cons_of_mem _ hs, hQ⟩

/-- **The simulation lifts to runs**: a run within the bound does not crash, and the
specification allows its outputs. -/
theorem Simulates.run {step : Machine σ ι ο} {spec : Spec τ ι ο} {R : ℕ → σ → τ → Prop}
    {bound : ℕ} (hsim : Simulates step spec R bound) {n : ℕ} {s : σ} {t : τ} (is : List ι)
    (hn : n + is.length ≤ bound) (h : R n s t) :
    ∃ s' os t', Simulation.run step n s is = some (s', os) ∧ SpecRun spec t is os t' ∧
      R (n + is.length) s' t' := by
  induction is generalizing n s t with
  | nil => exact ⟨s, [], t, rfl, .nil t, h⟩
  | cons i is ih =>
      rw [List.length_cons] at hn
      obtain ⟨s', o, t', hstep, hspec, hR⟩ := hsim.step n (by omega) s t i h
      obtain ⟨s'', os, t'', hrun, hspecs, hR'⟩ := ih (n := n + 1) (by omega) hR
      refine ⟨s'', o :: os, t'', ?_, .cons hspec hspecs, ?_⟩
      · simp only [Simulation.run, hstep, hrun]
      · have hcount : n + (i :: is).length = n + 1 + is.length := by
          rw [List.length_cons]
          omega
        rw [hcount]
        exact hR'

end SmtCacheBenchmarks.Library.Simulation
