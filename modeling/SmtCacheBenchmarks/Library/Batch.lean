import Mathlib.Data.List.Basic

/-!
# Batches of Jobs over a Shared State

A batch runs jobs one after the other over one shared state.  A job may reset the
state to `base` before it starts; what it leaves behind is what the next job
finds.  Isolation means that every job starts in `base`, and this module says
exactly when a batch has it and what follows.

- `exec`: the records of a batch, each with the state its job started in
- `Handover`: every job resets the state or finds it as `base`
- `forall_start_eq_iff`: isolation is exactly `Handover`
- `out_eq_of_forall_start`: in isolated batches the same task has the same output
- `handover_pairs_iff`, `handover_of_no_reset_iff`: the two shapes of a batch that
  resets at every other job, and of a batch that never resets
-/

namespace SmtCacheBenchmarks.Library.Batch

universe u v w

variable {ι : Type u} {σ : Type v} {ο : Type w}

/-- A job: its task, and whether the state is reset before it starts. -/
structure Job (ι : Type u) where
  resets : Bool
  task : ι

/-- What is recorded of a job that ran. -/
structure Record (ι : Type u) (σ : Type v) (ο : Type w) where
  task : ι
  start : σ
  out : ο

/-! ## Execution -/

/-- Run a batch from the state `s`; `run` gives the output of a task and the state
it leaves behind. -/
def exec (run : ι → σ → ο × σ) (base : σ) : σ → List (Job ι) → List (Record ι σ ο)
  | _, [] => []
  | s, j :: js =>
      let start := if j.resets then base else s
      ⟨j.task, start, (run j.task start).1⟩ :: exec run base (run j.task start).2 js

/-- Every job resets the state, or finds it as `base` after the jobs before it. -/
def Handover (run : ι → σ → ο × σ) (base : σ) : σ → List (Job ι) → Prop
  | _, [] => True
  | s, j :: js => (j.resets = true ∨ s = base) ∧ Handover run base (run j.task base).2 js

variable {run : ι → σ → ο × σ} {base : σ}

/-- The tasks of a batch run in order, each once. -/
theorem map_task_exec (s : σ) (js : List (Job ι)) :
    (exec run base s js).map Record.task = js.map Job.task := by
  induction js generalizing s with
  | nil => rfl
  | cons j js ih => simp [exec, ih]

/-! ## Isolation -/

/-- **Isolation**: all jobs start in `base` exactly when every job resets the state
or is handed over `base`. -/
theorem forall_start_eq_iff (s : σ) (js : List (Job ι)) :
    (∀ r ∈ exec run base s js, r.start = base) ↔ Handover run base s js := by
  induction js generalizing s with
  | nil => simp [exec, Handover]
  | cons j js ih =>
      simp only [exec, Handover, List.forall_mem_cons]
      have hstart : (if j.resets then base else s) = base ↔ (j.resets = true ∨ s = base) := by
        cases j.resets <;> simp
      constructor
      · rintro ⟨h, hrest⟩
        rw [h] at hrest
        exact ⟨hstart.mp h, (ih _).mp hrest⟩
      · rintro ⟨h, hrest⟩
        have hbase := hstart.mpr h
        refine ⟨hbase, ?_⟩
        rw [hbase]
        exact (ih _).mpr hrest

/-- The output of a record is the output of its task from its start. -/
theorem out_eq_run {s : σ} {js : List (Job ι)} {r : Record ι σ ο}
    (hr : r ∈ exec run base s js) : r.out = (run r.task r.start).1 := by
  induction js generalizing s with
  | nil => simp [exec] at hr
  | cons j js ih =>
      rcases List.mem_cons.mp hr with rfl | hr
      · rfl
      · exact ih hr

/-- **Noninterference**: in two isolated batches, the same task has the same
output, whatever the other jobs are and in whatever state the batches began. -/
theorem out_eq_of_forall_start {s₁ s₂ : σ} {js₁ js₂ : List (Job ι)}
    (h₁ : ∀ r ∈ exec run base s₁ js₁, r.start = base)
    (h₂ : ∀ r ∈ exec run base s₂ js₂, r.start = base)
    {r₁ r₂ : Record ι σ ο} (hr₁ : r₁ ∈ exec run base s₁ js₁) (hr₂ : r₂ ∈ exec run base s₂ js₂)
    (htask : r₁.task = r₂.task) : r₁.out = r₂.out := by
  rw [out_eq_run hr₁, out_eq_run hr₂, h₁ r₁ hr₁, h₂ r₂ hr₂, htask]

/-! ## Two shapes of batches -/

/-- When every other job resets the state, isolation asks only the resetting jobs
to leave `base` behind. -/
theorem handover_pairs_iff {τ : Type u} (a b : τ → ι) (s : σ) (ts : List τ) :
    Handover run base s (ts.flatMap fun t => [⟨true, a t⟩, ⟨false, b t⟩]) ↔
      ∀ t ∈ ts, (run (a t) base).2 = base := by
  induction ts generalizing s with
  | nil => simp [Handover]
  | cons t ts ih => simp [Handover, ih]

/-- When no job resets the state, isolation asks for `base` at the beginning and
of every job but the last. -/
theorem handover_of_no_reset_iff (s : σ) {js : List (Job ι)}
    (hjs : ∀ j ∈ js, j.resets = false) :
    Handover run base s js ↔
      js = [] ∨ (s = base ∧ ∀ j ∈ js.dropLast, (run j.task base).2 = base) := by
  induction js generalizing s with
  | nil => simp [Handover]
  | cons j js ih =>
      have hj : j.resets = false := hjs j (List.mem_cons_self ..)
      have ih' := ih (run j.task base).2 fun i hi => hjs i (List.mem_cons_of_mem _ hi)
      cases js with
      | nil => simp [Handover, hj]
      | cons i js =>
          have hhead : Handover run base s (j :: i :: js) ↔
              s = base ∧ Handover run base (run j.task base).2 (i :: js) := by
            rw [Handover, hj]
            simp
          rw [hhead, ih']
          simp

end SmtCacheBenchmarks.Library.Batch
