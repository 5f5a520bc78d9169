import Mathlib.Data.List.Basic

/-!
# Jobs that Write to Outputs

Jobs run one after the other over a store of outputs.  A job changes the outputs that it
writes to, each from what it finds there, and leaves the others alone.

- `runAll_apply`: an output is what the jobs that write to it have made of it
- `runAll_of_kept`: when no job touches an output that exists, the first job that creates
  it decides
-/

namespace SmtCacheBenchmarks.Library.Outputs

universe u v w

variable {J : Type u} {K : Type v} {C : Type w}

/-- One job. -/
def run (writes : J → K → Bool) (step : J → C → C) (store : K → C) (j : J) : K → C :=
  fun k => if writes j k then step j (store k) else store k

/-- A list of jobs. -/
def runAll (writes : J → K → Bool) (step : J → C → C) (store : K → C) (js : List J) : K → C :=
  js.foldl (run writes step) store

variable {writes : J → K → Bool}

/-- An output is what the jobs that write to it make of it. -/
theorem runAll_apply {step : J → C → C} (store : K → C) (js : List J) (k : K) :
    runAll writes step store js k =
      (js.filter (writes · k)).foldl (fun c j => step j c) (store k) := by
  induction js generalizing store with
  | nil => rfl
  | cons j js ih =>
      rw [runAll, List.foldl_cons, ← runAll, ih]
      by_cases hj : writes j k = true
      · simp [run, hj]
      · simp [run, hj]

/-- Jobs that leave alone what exists. -/
theorem foldl_of_kept {step : J → Option C → Option C}
    (hkept : ∀ j c, step j (some c) = some c) (js : List J) (o : Option C) :
    js.foldl (fun c j => step j c) o = o.or (js.findSome? fun j => step j none) := by
  induction js generalizing o with
  | nil => simp
  | cons j js ih =>
      rw [List.foldl_cons, ih]
      cases o with
      | some c => rw [hkept, Option.some_or, Option.some_or]
      | none =>
          rw [Option.none_or, List.findSome?_cons]
          cases step j none <;> rfl

/-- **The first job decides**: an output that exists stays as it is, and otherwise it is what
the first job makes that creates it. -/
theorem runAll_of_kept {step : J → Option C → Option C}
    (hkept : ∀ j c, step j (some c) = some c) (store : K → Option C) (js : List J) (k : K) :
    runAll writes step store js k =
      (store k).or ((js.filter (writes · k)).findSome? fun j => step j none) := by
  rw [runAll_apply, foldl_of_kept hkept]

end SmtCacheBenchmarks.Library.Outputs
