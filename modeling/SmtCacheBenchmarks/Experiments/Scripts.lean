import SmtCacheBenchmarks.Coreutils.Shell
import SmtCacheBenchmarks.Library.ShellScript

/-!
# The Scripts of the Experiments

The scripts that start the KLEE runs of the eight programs: `config.sh`, `common.sh`, and
for each program `run.sh`, which sets its flags, and the scripts `run_qc.sh`,
`run_qc_merge.sh`, `run_validation.sh` and `run_qc_all.sh`.  They are written down as they
stand in the repository; `source` splices a script in.  No word of a command is a pattern
that pathname expansion would replace, unless a setting brings one in.

Left out are the commands that neither set a variable of the scripts nor start KLEE:
`mkdir -p` for the directory of the results, `ulimit`, and the `export` of
`KLEE_TEMPLATE`.
-/

namespace SmtCacheBenchmarks.Experiments

open SmtCacheBenchmarks.Library.ShellScript

/-! ## Names -/

/-- The programs, in the order of the drivers and of the tables. -/
inductive Program where
  | m4 | make | sqlite | apr | libxml2 | expat | bash | json
deriving DecidableEq

/-- The directory of a program. -/
def Program.name : Program → Text
  | .m4 => "m4".toList
  | .make => "make".toList
  | .sqlite => "sqlite".toList
  | .apr => "apr".toList
  | .libxml2 => "libxml2".toList
  | .expat => "expat".toList
  | .bash => "bash".toList
  | .json => "json".toList

/-- `PROGRAMS`, and the lines of the drivers. -/
def programs : List Program := [.m4, .make, .sqlite, .apr, .libxml2, .expat, .bash, .json]

theorem mem_programs (p : Program) : p ∈ programs := by
  cases p <;> decide

/-- The variables of the scripts. -/
inductive Var where
  | vanillaKlee | klee | artifactDir | currentDir | programDir | outputDir
  | flags | cacheFlags | search | maxMemory | bcFile | args | n
deriving DecidableEq

/-- The functions of `common.sh`. -/
inductive Fn where
  | runValidation | runMergeValidation | runKlee | runCache | runMerge | runMergeCache
deriving DecidableEq

/-- What the user writes into `config.sh`. -/
inductive Setting where
  | vanillaKlee | klee | artifactDir
deriving DecidableEq

abbrev Script := List (Cmd Var Fn Setting)

/-- A shell that runs the scripts. -/
abbrev Shell := State Var Fn Setting

/-- A command line before its expansion. -/
abbrev Body := List (Word Var Setting)

/-- Text in a word. -/
def lit (s : String) : Part Var Setting := .lit s.toList

/-- `FLAGS+="s"`. -/
def flag (s : String) : Cmd Var Fn Setting := .append .flags [lit s]

/-- `CURRENT_DIR=$(dirname ${BASH_SOURCE[0]})`, in a script of the program that a driver
has started as `./p/…`. -/
def setCurrentDir (p : Program) : Cmd Var Fn Setting := .assign .currentDir [lit "./", .lit p.name]

/-! ## Shared scripts -/

/-- `config.sh`. -/
def configSh : Script :=
  [.assign .vanillaKlee [.hole .vanillaKlee],
   .assign .klee [.hole .klee],
   .assign .artifactDir [.hole .artifactDir]]

/-- The beginning of the commands that run the modified KLEE. -/
def cacheCommand : Body :=
  [[.var .klee], [.var .flags], [.var .cacheFlags], [.var .search],
   [lit "-output-dir=", .var .outputDir], [lit "-use-sym-addr"]]

/-- The end of all commands. -/
def bitcodeArgs : Body := [[.var .bcFile], [.var .args]]

def runValidationBody : Body :=
  cacheCommand ++ [[lit "-use-cex-cache=1"], [lit "-use-branch-cache=0"], [lit "-use-iso-cache=1"],
    [lit "-collect-query-stats"], [lit "-validate-caching"]] ++ bitcodeArgs

def runMergeValidationBody : Body :=
  cacheCommand ++ [[lit "-use-rebase=1"], [lit "-use-recursive-rebase=1"], [lit "-use-cex-cache=1"],
    [lit "-use-branch-cache=0"], [lit "-use-iso-cache=1"], [lit "-collect-query-stats"],
    [lit "-validate-caching"]] ++ bitcodeArgs

def runKleeBody : Body :=
  [[.var .vanillaKlee], [.var .flags], [.var .search], [lit "-output-dir=", .var .outputDir],
   [lit "-use-cex-cache=1"], [lit "-use-branch-cache=1"]] ++ bitcodeArgs

def runCacheBody : Body :=
  cacheCommand ++ [[lit "-use-cex-cache=1"], [lit "-use-branch-cache=0"],
    [lit "-use-iso-cache=1"]] ++ bitcodeArgs

/-- `run_merge`, with the value of `-use-cex-cache`. -/
def runMergeBody (cexCache : String) : Body :=
  cacheCommand ++ [[lit "-use-rebase=1"], [lit "-use-recursive-rebase=1"], [lit "-reuse-segments"],
    [lit cexCache], [lit "-use-branch-cache=1"]] ++ bitcodeArgs

/-- `run_merge_cache`, with the value of `-use-cex-cache`. -/
def runMergeCacheBody (cexCache : String) : Body :=
  cacheCommand ++ [[lit "-use-rebase=1"], [lit "-use-recursive-rebase=1"], [lit cexCache],
    [lit "-use-branch-cache=0"], [lit "-use-iso-cache=1"]] ++ bitcodeArgs

/-- `common.sh`. -/
def commonSh : Script :=
  [.assign .flags [],
   .assign .cacheFlags [],
   .append .cacheFlags [lit "-use-node-cache-stp=1 "],
   .append .cacheFlags [lit "-use-global-id=1 "],
   .define .runValidation runValidationBody,
   .define .runMergeValidation runMergeValidationBody,
   .define .runKlee runKleeBody,
   .define .runCache runCacheBody,
   .define .runMerge (runMergeBody "-use-cex-cache=1"),
   .define .runMergeCache (runMergeCacheBody "-use-cex-cache=1")]

/-! ## `run.sh` of the programs -/

/-- `MAX_MEMORY=s`. -/
def setMaxMemory (s : String) : Cmd Var Fn Setting := .assign .maxMemory [lit s]

/-- `FLAGS+="-max-memory=${MAX_MEMORY} "`. -/
def maxMemoryFlag : Cmd Var Fn Setting := .append .flags [lit "-max-memory=", .var .maxMemory, lit " "]

/-- A file in the directory of the program. -/
def fileWord (s : String) : Word Var Setting := [.var .currentDir, lit s]

/-- The settings in `run.sh`, behind the two scripts that it sources. -/
def settings : Program → Script
  | .m4 =>
      [setMaxMemory "8000",
       flag "-libc=uclibc ",
       flag "-posix-runtime ",
       maxMemoryFlag,
       flag "-use-forked-solver=0 ",
       flag "-only-output-states-covering-new ",
       flag "-switch-type=internal ",
       flag "-simplify-sym-indices ",
       flag "-allocate-determ ",
       flag "-allocate-determ-start-address=0x0 ",
       flag "-allocate-determ-size=4000 ",
       .assign .search [lit "--search=dfs "],
       .assign .bcFile (fileWord "/build/src/m4.bc"),
       .assign .args [lit "-sym-stdin ", .var .currentDir, lit "/m4.input -H37 -G"]]
  | .make =>
      [setMaxMemory "8000",
       flag "-libc=uclibc ",
       flag "-posix-runtime ",
       flag "-use-forked-solver=0 ",
       flag "-only-output-states-covering-new ",
       maxMemoryFlag,
       flag "-allocate-determ ",
       flag "-allocate-determ-start-address=0x0 ",
       flag "-allocate-determ-size=4000 ",
       flag "-switch-type=internal ",
       .assign .search [lit "--search=dfs"],
       .assign .bcFile (fileWord "/build/make.bc"),
       .assign .args [lit "--sym-files 1 1 -sym-stdin ", .var .currentDir,
         lit "/make.input -r -n -R -f A"]]
  | .sqlite =>
      [setMaxMemory "8000",
       flag "-libc=uclibc ",
       flag "-posix-runtime ",
       maxMemoryFlag,
       flag "-use-forked-solver=0 ",
       flag "-only-output-states-covering-new ",
       flag "-allocate-determ ",
       flag "-allocate-determ-start-address=0x0 ",
       flag "-allocate-determ-size=4000 ",
       .assign .search [lit "-search=dfs "],
       .assign .bcFile (fileWord "/build/test_driver.bc"),
       .assign .args [lit "15"],
       -- the two functions of `common.sh` are replaced
       .define .runMerge (runMergeBody "-use-cex-cache=0"),
       .define .runMergeCache (runMergeCacheBody "-use-cex-cache=0")]
  | .apr =>
      [setMaxMemory "8000",
       flag "-use-forked-solver=0 ",
       flag "-libc=uclibc ",
       maxMemoryFlag,
       flag "-allocate-determ ",
       flag "-allocate-determ-start-address=0x0 ",
       flag "-only-output-states-covering-new ",
       .assign .search [lit "-search=dfs "],
       .assign .args [lit "15"],
       .assign .bcFile (fileWord "/test_driver.bc")]
  | .libxml2 =>
      [.assign .bcFile (fileWord "/test_driver.bc"),
       setMaxMemory "16000",
       maxMemoryFlag,
       flag "-libc=uclibc ",
       flag "-posix-runtime ",
       flag "-use-forked-solver=0 ",
       flag "-only-output-states-covering-new ",
       flag "-simplify-sym-indices ",
       flag "-allocate-determ ",
       flag "-allocate-determ-start-address=0x0 ",
       flag "-allocate-determ-size=4000 ",
       .assign .search [lit "-search=dfs"],
       .assign .args [lit "3"]]
  | .expat =>
      [.assign .bcFile (fileWord "/test_driver.bc"),
       setMaxMemory "8000",
       maxMemoryFlag,
       flag "-libc=uclibc ",
       flag "-posix-runtime ",
       flag "-use-forked-solver=0 ",
       flag "-only-output-states-covering-new ",
       flag "-simplify-sym-indices ",
       flag "-allocate-determ ",
       flag "-allocate-determ-start-address=0x0 ",
       flag "-allocate-determ-size=4000 ",
       .assign .search [lit "-search=dfs"],
       .assign .args [lit "10"]]
  | .bash =>
      [setMaxMemory "8000",
       flag "-libc=uclibc ",
       flag "-posix-runtime ",
       flag "-use-forked-solver=0 ",
       flag "-only-output-states-covering-new ",
       maxMemoryFlag,
       flag "-allocate-determ ",
       flag "-allocate-determ-start-address=0x0 ",
       .assign .search [lit "-search=dfs "],
       .assign .args [lit "A --sym-files 1 100"],
       .assign .bcFile (fileWord "/build/bash.bc")]
  | .json =>
      -- `ARGS` is not set here
      [setMaxMemory "8000",
       flag "-use-forked-solver=0 ",
       flag "-libc=uclibc ",
       maxMemoryFlag,
       flag "-allocate-determ ",
       flag "-allocate-determ-start-address=0x0 ",
       flag "-only-output-states-covering-new ",
       .assign .search [lit "-search=dfs "],
       .assign .bcFile (fileWord "/test_driver.bc"),
       .assign .n [lit "4"]]

/-- `run.sh`. -/
def runSh (p : Program) : Script :=
  setCurrentDir p :: (configSh ++ commonSh ++ settings p)

/-! ## The scripts that start KLEE -/

/-- A script that starts two runs: `PROGRAM_DIR=${ARTIFACT_DIR}/suite/p`, and the two
functions with their directories in `PROGRAM_DIR`. -/
def startTwo (suite : String) (p : Program) (fn₁ fn₂ : Fn) (dir₁ dir₂ : String) : Script :=
  setCurrentDir p :: runSh p ++
  [.assign .programDir [.var .artifactDir, lit suite, .lit p.name],
   .call .outputDir [.var .programDir, lit dir₁] fn₁,
   .call .outputDir [.var .programDir, lit dir₂] fn₂]

/-- `run_qc.sh`. -/
def runQcSh (p : Program) : Script :=
  startTwo "/qc_fmm/" p .runKlee .runCache "/out-klee" "/out-cache"

/-- `run_qc_merge.sh`. -/
def runQcMergeSh (p : Program) : Script :=
  startTwo "/qc_dsmm/" p .runMerge .runMergeCache "/out-klee" "/out-cache"

/-- `run_validation.sh`. -/
def runValidationSh (p : Program) : Script :=
  startTwo "/validation/" p .runValidation .runMergeValidation "/out-fmm" "/out-dsmm"

/-- `run_qc_all.sh` of a program: both scripts in one shell. -/
def runQcAllSh (p : Program) : Script := setCurrentDir p :: runQcSh p ++ runQcMergeSh p

/-! ## The drivers -/

/-- The drivers: `run_qc_all.sh`, `run_qc_fmm_all.sh`, `run_qc_dsmm_all.sh` and
`run_validation_all.sh`. -/
inductive Driver where
  | qcAll | qcFmmAll | qcDsmmAll | validationAll
deriving DecidableEq

/-- The script of a program that a driver starts. -/
def Driver.script : Driver → Program → Script
  | .qcAll => runQcAllSh
  | .qcFmmAll => runQcSh
  | .qcDsmmAll => runQcMergeSh
  | .validationAll => runValidationSh

/-- The commands that a driver starts: every script runs in a shell of its own, with the
environment of the driver. -/
def Driver.commands (cfg : Setting → Text) (env : Shell) (d : Driver) : List (List Text) :=
  programs.flatMap fun p => Library.ShellScript.commands cfg env (d.script p)

end SmtCacheBenchmarks.Experiments
