import SmtCacheBenchmarks.Coreutils.Shell

/-!
# The Coreutils Driver

Model of `run_with_limit` and `run_with_limit_dsmm` in `coreutils/run.sh`.  Both read the
instruction file line by line as their standard input, and start two KLEE runs for each
line.  The runs inherit the standard input, and they share the sandbox directory, which
only `run_klee` unpacks again.

The runs themselves are a parameter: an `Env` says what the n-th run does.  So are the
files that the unquoted expansions may match, which the runs leave alone.
-/

namespace SmtCacheBenchmarks.Coreutils

/-! ## The sandbox -/

/-- The files of a directory, by path. -/
abbrev Files := Text → Option Text

/-- `SANDBOX_DIR`; `none` when there is no such directory. -/
abbrev Sandbox := Option Files

/-- `rm -rf`. -/
def rmRf (_ : Sandbox) : Sandbox := none

/-- `mkdir -p`, which leaves an existing directory as it is. -/
def mkdirP (s : Sandbox) : Sandbox := some (s.getD fun _ => none)

/-- `tar xf … -C`, which writes the files of the archive over those in the directory. -/
def tarXf (archive : Files) (s : Sandbox) : Sandbox :=
  s.map fun files path => (archive path).or (files path)

/-- `reset`. -/
def reset (archive : Files) (s : Sandbox) : Sandbox := tarXf archive (mkdirP (rmRf s))

/-- Whatever was there before, `reset` leaves the contents of the archive. -/
@[simp] theorem reset_eq (archive : Files) (s : Sandbox) : reset archive s = some archive := by
  simp [reset, rmRf, mkdirP, tarXf]

/-! ## The environment of the script -/

/-- What the script takes from its surroundings: where it is, the two KLEE binaries, the
directory for the results, the files in `sandbox.tgz`, and those that patterns match. -/
structure Config where
  currentDir : Text
  currentDir_word : IsWord currentDir
  currentDir_noGlob : currentDir.any isGlob = false
  vanillaKlee : Text
  klee : Text
  artifactDir : Text
  archive : Files
  glob : Glob

/-- `FLAGS`. -/
def flags (cfg : Config) : Text :=
  "--max-memory=4000 ".toList ++ "--allocate-determ ".toList ++
  "--allocate-determ-start-address=0x0 ".toList ++ "--allocate-determ-size=4000 ".toList ++
  "--search=dfs ".toList ++ "--use-forked-solver=1 ".toList ++ "--disable-inlining ".toList ++
  "--libc=uclibc ".toList ++ "--posix-runtime ".toList ++ "--external-calls=all ".toList ++
  "--only-output-states-covering-new ".toList ++
  "--env-file=".toList ++ cfg.currentDir ++ "/test.env ".toList ++
  "--run-in-dir=/tmp/env/sandbox ".toList ++ "--watchdog ".toList ++
  "--switch-type=internal ".toList ++ "--simplify-sym-indices ".toList

/-- `CACHE_FLAGS`. -/
def cacheFlags : Text := "-use-node-cache-stp=1 -use-global-id=1 ".toList

/-- `ARGS`. -/
def symArgs : Text :=
  "--sym-args 0 1 10 --sym-args 0 2 2 --sym-files 1 8 --sym-stdin 8 --sym-stdout".toList

/-- `MAX_TIME`. -/
def maxTime : Text := "3600".toList

/-- `MAX_TIME_INCREASED`. -/
def maxTimeIncreased : Text := "5400".toList

/-! ## The run functions -/

/-- The two binaries. -/
inductive Tool where
  | vanillaKlee
  | klee
deriving DecidableEq

/-- What the run functions differ in: the binary, whether `CACHE_FLAGS` are given, whether
`reset` is called, and the options before the bitcode file. -/
structure RunFunction where
  tool : Tool
  cacheFlags : Bool
  resets : Bool
  options : Text
deriving DecidableEq

/-- `run_klee`. -/
def runKlee : RunFunction :=
  { tool := .vanillaKlee, cacheFlags := false, resets := true, options := [] }

/-- `run_cache`. -/
def runCache : RunFunction :=
  { tool := .klee, cacheFlags := true, resets := false
    options := "-use-sym-addr -use-branch-cache=0 -use-iso-cache=1".toList }

/-- `run_dsmm`. -/
def runDsmm : RunFunction :=
  { tool := .klee, cacheFlags := true, resets := false
    options := ("-use-sym-addr -use-rebase=1 -use-recursive-rebase=1 -reuse-segments " ++
      "-use-cex-cache=1 -use-branch-cache=1").toList }

/-- `run_dsmm_cache`. -/
def runDsmmCache : RunFunction :=
  { tool := .klee, cacheFlags := true, resets := false
    options := ("-use-sym-addr -use-rebase=1 -use-recursive-rebase=1 -use-cex-cache=1 " ++
      "-use-branch-cache=0 -use-iso-cache=1").toList }

/-- A KLEE command, with the values of the variables in it. -/
structure KleeCmd where
  function : RunFunction
  outputDir : Text
  maxTime : Text
  maxInst : Text
  bcFile : Text
deriving DecidableEq

/-- The words of a KLEE command. -/
def KleeCmd.argv (cfg : Config) (c : KleeCmd) : List Text :=
  cfg.glob.expansion (match c.function.tool with
    | .vanillaKlee => cfg.vanillaKlee
    | .klee => cfg.klee) ++
  cfg.glob.expansion (flags cfg) ++
  -- `run_klee` is the only one without them
  (if c.function.cacheFlags then cfg.glob.expansion cacheFlags else []) ++
  cfg.glob.expansion ("-output-dir=".toList ++ c.outputDir) ++
  cfg.glob.expansion ("-max-time=".toList ++ c.maxTime) ++
  cfg.glob.expansion ("-max-instructions=".toList ++ c.maxInst) ++
  words c.function.options ++
  cfg.glob.expansion c.bcFile ++
  cfg.glob.expansion symArgs

/-! ## Runs -/

/-- What a run does: its output directory, its exit status, the sandbox it leaves behind,
and how much of the standard input it reads. -/
structure Outcome where
  output : Files
  status : UInt8
  sandbox : Sandbox
  read : ℕ

/-- The behaviour of the n-th run, from its command line, the sandbox it starts in and
the standard input that it inherits. -/
abbrev Env := ℕ → List Text → Sandbox → Text → Outcome

/-- A run that the script started. -/
structure Run where
  cmd : KleeCmd
  start : Sandbox
  outcome : Outcome

/-- What the loop and the runs share: the number of runs so far, the sandbox, and what is
left of the standard input. -/
structure State where
  started : ℕ
  sandbox : Sandbox
  stdin : Text

section Script

variable (cfg : Config) (env : Env)

/-- The body of a run function: it resets the sandbox or not, and starts KLEE. -/
def State.run (cmd : KleeCmd) (s : State) : Run × State :=
  let start := if cmd.function.resets then reset cfg.archive s.sandbox else s.sandbox
  -- KLEE inherits the standard input of the loop
  let o := env s.started (cmd.argv cfg) start s.stdin
  (⟨cmd, start, o⟩, ⟨s.started + 1, o.sandbox, s.stdin.drop o.read⟩)

/-! ## The loops -/

/-- The variables that a run function sets, and that keep their values behind it. -/
structure Vars where
  bcFile : Text
  name : Text
  maxTime : Text
  maxInst : Text

/-- `bc_file=$1`, `name=$2`, `max_time=$3` and `max_inst=$4`. -/
def Vars.ofArgs (args : List Text) : Vars :=
  ⟨args.getD 0 [], args.getD 1 [], args.getD 2 [], args.getD 3 []⟩

/-- `run_… ${bc_file} ${name} ${MAX_TIME} ${max_inst}`: every expansion is split, and its
patterns are replaced by the files that match them. -/
def callVars (bcFile name maxTime maxInst : Text) : Vars :=
  .ofArgs (cfg.glob.expansion bcFile ++ cfg.glob.expansion name ++
    cfg.glob.expansion maxTime ++ cfg.glob.expansion maxInst)

/-- `name=$(echo ${line} | awk '{ print $1 }')`. -/
def nameOf (line : Text) : Text := commandSubst (awkPrint 1 (echo (cfg.glob.expansion line)))

/-- `max_inst=$(echo ${line} | awk '{ print $2 }')`. -/
def maxInstOf (line : Text) : Text := commandSubst (awkPrint 2 (echo (cfg.glob.expansion line)))

/-- `bc_file=${CURRENT_DIR}/build/src/${name}.bc`. -/
def bcFileOf (name : Text) : Text :=
  cfg.currentDir ++ "/build/src/".toList ++ name ++ ".bc".toList

/-- What the two loops differ in: the functions for the baseline run and for the run with
the cache, and the directory for their results. -/
structure LimitLoop where
  baseline : RunFunction
  cache : RunFunction
  results : Text

variable (l : LimitLoop)

/-- `OUTPUT_DIR` for a run: `out-klee-${name}` or `out-cache-${name}`. -/
def LimitLoop.outputDir (kind : String) (name : Text) : Text :=
  cfg.artifactDir ++ '/' :: l.results ++ "/out-".toList ++ kind.toList ++ '-' :: name

/-- The variables behind the call of the baseline function. -/
def baselineVars (line : Text) : Vars :=
  callVars cfg (bcFileOf cfg (nameOf cfg line)) (nameOf cfg line) maxTimeIncreased
    (maxInstOf cfg line)

/-- The variables behind the call of the cache function. -/
def cacheVars (line : Text) : Vars :=
  let v := baselineVars cfg line
  callVars cfg v.bcFile v.name maxTimeIncreased v.maxInst

/-- The first command for a line. -/
def LimitLoop.baselineCmd (line : Text) : KleeCmd :=
  let v := baselineVars cfg line
  ⟨l.baseline, l.outputDir cfg "klee" (nameOf cfg line), v.maxTime, v.maxInst, v.bcFile⟩

/-- The second command for a line. -/
def LimitLoop.cacheCmd (line : Text) : KleeCmd :=
  let v := cacheVars cfg line
  ⟨l.cache, l.outputDir cfg "cache" (baselineVars cfg line).name, v.maxTime, v.maxInst, v.bcFile⟩

/-- `echo "${name}: … status = $?"`. -/
def statusLine (name : Text) (kind : String) (status : UInt8) : Text :=
  echo [name ++ ": ".toList ++ kind.toList ++ " status = ".toList ++ decimal status.toNat]

/-- What an iteration leaves: its two runs, and what it appends to `status.log`. -/
structure Iteration where
  baseline : Run
  cache : Run
  log : Text

/-- The body of the loop. -/
def LimitLoop.iteration (line : Text) (s : State) : Iteration × State :=
  -- the second run finds the sandbox and the standard input as the first one left them
  let r₁ := s.run cfg env (l.baselineCmd cfg line)
  let r₂ := r₁.2.run cfg env (l.cacheCmd cfg line)
  (⟨r₁.1, r₂.1,
    statusLine (baselineVars cfg line).name "klee" r₁.1.outcome.status ++
      statusLine (cacheVars cfg line).name "mm" r₂.1.outcome.status⟩, r₂.2)

theorem length_stdin_iteration_le (line : Text) (s : State) :
    (l.iteration cfg env line s).2.stdin.length ≤ s.stdin.length := by
  simp only [LimitLoop.iteration, State.run, List.length_drop]
  omega

/-- `while IFS= read -r line; do … done < ${INST_FILE}`. -/
def LimitLoop.iterations (s : State) : List Iteration :=
  match _h : readLine s.stdin with
  | none => []
  -- the body runs with the rest of the file as its standard input
  | some (line, rest) =>
      let step := l.iteration cfg env line { s with stdin := rest }
      step.1 :: iterations step.2
termination_by s.stdin.length
decreasing_by
  have hbody := length_stdin_iteration_le cfg env l line { s with stdin := rest }
  have hline := length_of_readLine _h
  simp only at hbody ⊢
  omega

/-- The runs of a whole loop, and `status.log`, which starts empty. -/
structure Result where
  runs : List Run
  statusLog : Text

/-- What the iterations leave together. -/
def Result.ofIterations (its : List Iteration) : Result :=
  ⟨its.flatMap fun i => [i.baseline, i.cache], its.flatMap Iteration.log⟩

/-- The loop over an instruction file. -/
def LimitLoop.result (sandbox : Sandbox) (instFile : Text) : Result :=
  .ofIterations (l.iterations cfg env ⟨0, sandbox, instFile⟩)

/-- The loop of `run_with_limit`. -/
def fmmLoop : LimitLoop := ⟨runKlee, runCache, "overhead_fmm".toList⟩

/-- The loop of `run_with_limit_dsmm`. -/
def dsmmLoop : LimitLoop := ⟨runDsmm, runDsmmCache, "overhead_dsmm".toList⟩

/-- `run_with_limit`. -/
def runWithLimit (sandbox : Sandbox) (instFile : Text) : Result :=
  fmmLoop.result cfg env sandbox instFile

/-- `run_with_limit_dsmm`. -/
def runWithLimitDsmm (sandbox : Sandbox) (instFile : Text) : Result :=
  dsmmLoop.result cfg env sandbox instFile

end Script

/-! ## One round of a loop -/

section Rounds

variable {cfg : Config} {env : Env} {l : LimitLoop} {s : State} {line rest : Text}

theorem iterations_of_readLine_none (h : readLine s.stdin = none) :
    l.iterations cfg env s = [] := by
  rw [LimitLoop.iterations]
  split
  · rfl
  · rename_i h'
    rw [h] at h'
    cases h'

theorem iterations_of_readLine_some (h : readLine s.stdin = some (line, rest)) :
    l.iterations cfg env s =
      (l.iteration cfg env line { s with stdin := rest }).1 ::
        l.iterations cfg env (l.iteration cfg env line { s with stdin := rest }).2 := by
  rw [LimitLoop.iterations]
  split
  · rename_i h'
    rw [h] at h'
    cases h'
  · rename_i h'
    rw [h] at h'
    obtain ⟨rfl, rfl⟩ := Prod.mk.inj (Option.some.inj h')
    rfl

end Rounds

/-! ## Calls with plain arguments -/

section Calls

variable {cfg : Config}

/-- The bitcode file of a word is a word. -/
theorem isWord_bcFileOf {name : Text} (hname : IsWord name) : IsWord (bcFileOf cfg name) := by
  have hdir : IsWord "/build/src/".toList := by decide
  have hext : IsWord ".bc".toList := by decide
  refine ⟨by simp [bcFileOf], fun c hc => ?_⟩
  simp only [bcFileOf, List.mem_append] at hc
  rcases hc with ((hc | hc) | hc) | hc
  · exact cfg.currentDir_word.2 c hc
  · exact hdir.2 c hc
  · exact hname.2 c hc
  · exact hext.2 c hc

theorem noGlob_bcFileOf {name : Text} (hname : name.any isGlob = false) :
    (bcFileOf cfg name).any isGlob = false := by
  have hdir : "/build/src/".toList.any isGlob = false := by decide
  have hext : ".bc".toList.any isGlob = false := by decide
  rw [bcFileOf, List.any_append, List.any_append, List.any_append, cfg.currentDir_noGlob, hdir,
    hname, hext]
  rfl

/-- The variables behind a call whose name is a word without glob characters. -/
theorem callVars_word {name maxTime : Text} (hname : IsWord name)
    (hglob : name.any isGlob = false) (htime : IsWord maxTime)
    (htimeGlob : maxTime.any isGlob = false) (maxInst : Text) :
    callVars cfg (bcFileOf cfg name) name maxTime maxInst =
      ⟨bcFileOf cfg name, name, maxTime, (cfg.glob.expansion maxInst).getD 0 []⟩ := by
  rw [callVars, cfg.glob.expansion_eq_singleton (isWord_bcFileOf hname) (noGlob_bcFileOf hglob),
    cfg.glob.expansion_eq_singleton hname hglob, cfg.glob.expansion_eq_singleton htime htimeGlob]
  rfl

theorem isWord_maxTimeIncreased : IsWord maxTimeIncreased := by decide

theorem noGlob_maxTimeIncreased : maxTimeIncreased.any isGlob = false := by decide

/-- `echo` takes no message with a colon for an option. -/
theorem isEchoOption_of_colon_mem {w : Text} (h : ':' ∈ w) : isEchoOption w = false := by
  unfold isEchoOption
  split
  · rename_i c cs
    apply Bool.eq_false_iff.mpr
    intro hall
    rcases List.mem_cons.mp h with hdash | hmem
    · revert hdash
      decide
    · have hletter := List.all_eq_true.mp hall ':' hmem
      revert hletter
      decide
  · rfl

end Calls

end SmtCacheBenchmarks.Coreutils
