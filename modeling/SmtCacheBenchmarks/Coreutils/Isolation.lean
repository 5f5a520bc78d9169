import SmtCacheBenchmarks.Coreutils.InstFile
import SmtCacheBenchmarks.Library.Batch

/-!
# Isolation of the Runs

Two runs are compared as if they had started in the same sandbox, the one in
`sandbox.tgz`.  Only `run_klee` unpacks it; the other run functions start in whatever the
run before them has left.

With KLEE as a function of its command line and of the sandbox, a loop is a batch of jobs
over the sandbox: `runs_eq_exec` connects the two, and the results on batches say exactly
when all runs start in the contents of the archive.
-/

namespace SmtCacheBenchmarks.Coreutils

open SmtCacheBenchmarks.Library

/-! ## KLEE as a function -/

/-- A run of KLEE: from its command line and the sandbox it starts in, its output directory
and exit status, and the sandbox that it leaves behind. -/
abbrev Klee := List Text → Sandbox → (Files × UInt8) × Sandbox

/-- Runs that leave the standard input alone. -/
def Klee.env (klee : Klee) : Env := fun _ argv s _ =>
  { output := (klee argv s).1.1, status := (klee argv s).1.2, sandbox := (klee argv s).2, read := 0 }

/-- The lines that the loop reads from a file that nobody else reads. -/
def lines (stdin : Text) : List Text :=
  match _h : readLine stdin with
  | none => []
  | some (line, rest) => line :: lines rest
termination_by stdin.length
decreasing_by
  have := length_of_readLine _h
  omega

section Batch

variable (cfg : Config) (klee : Klee) (l : LimitLoop)

/-- One run of a command. -/
def Klee.step (cmd : KleeCmd) (s : Sandbox) : (Files × UInt8) × Sandbox := klee (cmd.argv cfg) s

/-- The run of a command in the contents of the archive leaves them as they are. -/
def Klee.Leaves (cmd : KleeCmd) : Prop :=
  (klee.step cfg cmd (some cfg.archive)).2 = some cfg.archive

/-- The commands that a loop starts for the lines of a file. -/
def LimitLoop.cmds (file : Text) : List KleeCmd :=
  (lines file).flatMap fun line => [l.baselineCmd cfg line, l.cacheCmd cfg line]

/-- The loop as a batch. -/
def LimitLoop.jobs (file : Text) : List (Batch.Job KleeCmd) :=
  (lines file).flatMap fun line =>
    [⟨l.baseline.resets, l.baselineCmd cfg line⟩, ⟨l.cache.resets, l.cacheCmd cfg line⟩]

/-- What a batch records of a run. -/
def Run.record (r : Run) : Batch.Record KleeCmd Sandbox (Files × UInt8) :=
  ⟨r.cmd, r.start, (r.outcome.output, r.outcome.status)⟩

/-- **Isolation of two experiments**: every run starts in the contents of the archive, and
runs of the same command have the same results. -/
structure Isolated (result₁ result₂ : Result) : Prop where
  start : ∀ r ∈ result₁.runs ++ result₂.runs, r.start = some cfg.archive
  output : ∀ r₁ ∈ result₁.runs, ∀ r₂ ∈ result₂.runs, r₁.cmd = r₂.cmd →
    r₁.outcome.output = r₂.outcome.output ∧ r₁.outcome.status = r₂.outcome.status

end Batch

/-! ## The loop is a batch -/

section Refinement

variable {cfg : Config} {klee : Klee} {l : LimitLoop}

theorem lines_of_readLine_none {file : Text} (h : readLine file = none) : lines file = [] := by
  rw [lines]
  split
  · rfl
  · rename_i h'
    rw [h] at h'
    cases h'

theorem lines_of_readLine_some {file line rest : Text} (h : readLine file = some (line, rest)) :
    lines file = line :: lines rest := by
  rw [lines]
  split
  · rename_i h'
    rw [h] at h'
    cases h'
  · rename_i h'
    rw [h] at h'
    obtain ⟨rfl, rfl⟩ := Prod.mk.inj (Option.some.inj h')
    rfl

theorem jobs_of_readLine_none {file : Text} (h : readLine file = none) :
    l.jobs cfg file = [] := by
  rw [LimitLoop.jobs, lines_of_readLine_none h]
  rfl

theorem jobs_of_readLine_some {file line rest : Text} (h : readLine file = some (line, rest)) :
    l.jobs cfg file =
      ⟨l.baseline.resets, l.baselineCmd cfg line⟩ ::
        ⟨l.cache.resets, l.cacheCmd cfg line⟩ :: l.jobs cfg rest := by
  rw [LimitLoop.jobs, lines_of_readLine_some h]
  rfl

/-- **The loop refines the batch**: what it records of its runs is what the batch does. -/
theorem runs_eq_exec (cfg : Config) (klee : Klee) (l : LimitLoop) (s : State) :
    (Result.ofIterations (l.iterations cfg klee.env s)).runs.map Run.record =
      Batch.exec (klee.step cfg) (some cfg.archive) s.sandbox (l.jobs cfg s.stdin) := by
  obtain ⟨started, sandbox, stdin⟩ := s
  induction stdin using lines.induct generalizing started sandbox with
  | case1 stdin hread =>
      rw [iterations_of_readLine_none hread, jobs_of_readLine_none hread]
      rfl
  | case2 stdin line rest hread ih =>
      rw [iterations_of_readLine_some hread, jobs_of_readLine_some hread]
      -- the runs read nothing, so the rest of the file is left to the rest of the loop
      have hrest := ih (started + 2)
        (l.iteration cfg klee.env line ⟨started, sandbox, rest⟩).2.sandbox
      simp only [Result.ofIterations, List.flatMap_cons, List.map_cons, List.cons_append,
        List.nil_append] at hrest ⊢
      simp only [LimitLoop.iteration, State.run, Klee.env, List.drop_zero, reset_eq] at hrest ⊢
      rw [hrest]
      rfl

theorem map_task_jobs (cfg : Config) (l : LimitLoop) (file : Text) :
    (l.jobs cfg file).map Batch.Job.task = l.cmds cfg file := by
  simp [LimitLoop.jobs, LimitLoop.cmds, List.map_flatMap]

/-- The commands that are started depend on the file only, not on what the runs do. -/
theorem map_cmd_eq (s : State) :
    (Result.ofIterations (l.iterations cfg klee.env s)).runs.map Run.cmd = l.cmds cfg s.stdin := by
  have hrecords := congrArg (List.map Batch.Record.task) (runs_eq_exec cfg klee l s)
  rw [Batch.map_task_exec, map_task_jobs, List.map_map] at hrecords
  exact hrecords

/-- **Isolation is a matter of handing over**: of two experiments, exactly when in both of
them every run resets the sandbox or finds the contents of the archive. -/
theorem isolated_iff (sandbox₁ sandbox₂ : Sandbox) (file₁ file₂ : Text) :
    Isolated cfg (l.result cfg klee.env sandbox₁ file₁) (l.result cfg klee.env sandbox₂ file₂) ↔
      Batch.Handover (klee.step cfg) (some cfg.archive) sandbox₁ (l.jobs cfg file₁) ∧
      Batch.Handover (klee.step cfg) (some cfg.archive) sandbox₂ (l.jobs cfg file₂) := by
  -- what is said of the runs is said of the records of two batches
  have hexec₁ := runs_eq_exec cfg klee l ⟨0, sandbox₁, file₁⟩
  have hexec₂ := runs_eq_exec cfg klee l ⟨0, sandbox₂, file₂⟩
  dsimp only at hexec₁ hexec₂
  rw [← Batch.forall_start_eq_iff, ← Batch.forall_start_eq_iff, ← hexec₁, ← hexec₂]
  constructor
  · rintro ⟨hstart, -⟩
    rw [List.forall_mem_append] at hstart
    exact ⟨List.forall_mem_map.mpr hstart.1, List.forall_mem_map.mpr hstart.2⟩
  · rintro ⟨h₁, h₂⟩
    refine ⟨List.forall_mem_append.mpr ⟨List.forall_mem_map.mp h₁, List.forall_mem_map.mp h₂⟩, ?_⟩
    intro r₁ hr₁ r₂ hr₂ hcmd
    rw [hexec₁] at h₁
    rw [hexec₂] at h₂
    have hmem₁ := List.mem_map_of_mem (f := Run.record) hr₁
    have hmem₂ := List.mem_map_of_mem (f := Run.record) hr₂
    have hout := Batch.out_eq_of_forall_start h₁ h₂ (hexec₁ ▸ hmem₁) (hexec₂ ▸ hmem₂) hcmd
    exact Prod.mk.inj hout

/-! ## The two loops -/

/-- In `run_with_limit` every other run resets the sandbox. -/
theorem handover_fmm_iff (sandbox : Sandbox) (file : Text) :
    Batch.Handover (klee.step cfg) (some cfg.archive) sandbox (fmmLoop.jobs cfg file) ↔
      ∀ line ∈ lines file, klee.Leaves cfg (fmmLoop.baselineCmd cfg line) :=
  Batch.handover_pairs_iff (fmmLoop.baselineCmd cfg) (fmmLoop.cacheCmd cfg) sandbox (lines file)

/-- In `run_with_limit_dsmm` no run resets the sandbox. -/
theorem handover_dsmm_iff (sandbox : Sandbox) (file : Text) :
    Batch.Handover (klee.step cfg) (some cfg.archive) sandbox (dsmmLoop.jobs cfg file) ↔
      lines file = [] ∨ (sandbox = some cfg.archive ∧
        ∀ cmd ∈ (dsmmLoop.cmds cfg file).dropLast, klee.Leaves cfg cmd) := by
  -- neither of the two functions resets
  have hreset : ∀ j ∈ dsmmLoop.jobs cfg file, j.resets = false := by
    intro j hj
    obtain ⟨line, -, hj⟩ := List.mem_flatMap.mp hj
    rcases List.mem_pair.mp hj with rfl | rfl <;> rfl
  have hempty : dsmmLoop.jobs cfg file = [] ↔ lines file = [] := by
    unfold LimitLoop.jobs
    cases lines file <;> simp
  rw [Batch.handover_of_no_reset_iff sandbox hreset, hempty, ← map_task_jobs,
    ← List.map_dropLast, List.forall_mem_map]
  exact Iff.rfl

end Refinement

/-- **When the runs are isolated**: for any two instruction files, any two sandboxes to
begin with and every behaviour of KLEE, in `run_with_limit` exactly when every baseline
run leaves the contents of the archive as they are; in `run_with_limit_dsmm` exactly when
no run is started, or the sandbox is unpacked to begin with and every run but the last
leaves it so. -/
theorem runWithLimit_isolated_iff (cfg : Config) (klee : Klee) (sandbox₁ sandbox₂ : Sandbox)
    (entries₁ entries₂ : List Entry) (final₁ final₂ : Bool) :
    (Isolated cfg (runWithLimit cfg klee.env sandbox₁ (instFile entries₁ final₁))
        (runWithLimit cfg klee.env sandbox₂ (instFile entries₂ final₂)) ↔
      (∀ line ∈ lines (instFile entries₁ final₁),
        klee.Leaves cfg (fmmLoop.baselineCmd cfg line)) ∧
      ∀ line ∈ lines (instFile entries₂ final₂),
        klee.Leaves cfg (fmmLoop.baselineCmd cfg line)) ∧
    (Isolated cfg (runWithLimitDsmm cfg klee.env sandbox₁ (instFile entries₁ final₁))
        (runWithLimitDsmm cfg klee.env sandbox₂ (instFile entries₂ final₂)) ↔
      (lines (instFile entries₁ final₁) = [] ∨ (sandbox₁ = some cfg.archive ∧
        ∀ cmd ∈ (dsmmLoop.cmds cfg (instFile entries₁ final₁)).dropLast,
          klee.Leaves cfg cmd)) ∧
      (lines (instFile entries₂ final₂) = [] ∨ (sandbox₂ = some cfg.archive ∧
        ∀ cmd ∈ (dsmmLoop.cmds cfg (instFile entries₂ final₂)).dropLast,
          klee.Leaves cfg cmd))) := by
  refine ⟨?_, ?_⟩
  · rw [← handover_fmm_iff sandbox₁, ← handover_fmm_iff sandbox₂]
    exact isolated_iff sandbox₁ sandbox₂ _ _
  · rw [← handover_dsmm_iff sandbox₁, ← handover_dsmm_iff sandbox₂]
    exact isolated_iff sandbox₁ sandbox₂ _ _

/-- A baseline run that leaves a file behind is followed by a run in another sandbox. -/
theorem runWithLimit_left_behind :
    ¬ ∀ (cfg : Config) (klee : Klee) (sandbox₁ sandbox₂ : Sandbox)
        (entries₁ entries₂ : List Entry) (final₁ final₂ : Bool),
      Isolated cfg (runWithLimit cfg klee.env sandbox₁ (instFile entries₁ final₁))
        (runWithLimit cfg klee.env sandbox₂ (instFile entries₂ final₂)) ∧
      Isolated cfg (runWithLimitDsmm cfg klee.env sandbox₁ (instFile entries₁ final₁))
        (runWithLimitDsmm cfg klee.env sandbox₂ (instFile entries₂ final₂)) := by
  intro hclaim
  let cfg : Config := ⟨".".toList, by decide, by decide, "klee".toList, "klee".toList,
    "out".toList, fun _ => none, noFiles⟩
  let entry : Entry := ⟨"touch".toList, "1000".toList, by decide, by decide, by decide⟩
  -- the archive is empty, and every run leaves files behind
  let klee : Klee := fun _ _ => ((fun _ => none, 0), some fun _ => some "left behind".toList)
  have hlines : lines (instFile [entry] true) = ["touch 1000".toList] := by decide +kernel
  have hisolated := (hclaim cfg klee none none [entry] [entry] true true).1
  have hleaves := (handover_fmm_iff none _).mp ((isolated_iff none none _ _).mp hisolated).1
  rw [hlines] at hleaves
  have hsandbox := Option.some.inj (hleaves _ (List.mem_singleton_self _))
  cases congrFun hsandbox []

end SmtCacheBenchmarks.Coreutils
