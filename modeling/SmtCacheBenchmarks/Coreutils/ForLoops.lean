import SmtCacheBenchmarks.Coreutils.InstFile

/-!
# The Loops over `utils.txt`

Model of `run_klee_all`, `run_symaddr_all` and `run_validation_all` in `coreutils/run.sh`.
They run one function for every name in a file, too, but they read the file before the
loop begins: `for name in $(cat ${UTILS_FILE})`.  So neither a missing newline nor a run
that reads its standard input makes a difference, and with `run_klee`, which resets the
sandbox, all runs start in the contents of the archive.
-/

namespace SmtCacheBenchmarks.Coreutils

open SmtCacheBenchmarks.Library

/-- `$(cat …)`, split into words. -/
def catWords (cfg : Config) (file : Text) : List Text :=
  cfg.glob.expansion (commandSubst file)

/-- `run_validation`. -/
def runValidation : RunFunction :=
  { tool := .klee, cacheFlags := true, resets := false
    options := ("-use-sym-addr -use-branch-cache=0 -use-iso-cache=1 " ++
      "-validate-caching=1").toList }

/-- What the loops differ in: the function, and where it puts the results for a name. -/
structure ForLoop where
  function : RunFunction
  outputDir : Text → Text

section Script

variable (cfg : Config) (env : Env) (l : ForLoop)

/-- The variables behind the call of the function. -/
def forVars (name : Text) : Vars := callVars cfg (bcFileOf cfg name) name maxTime ['0']

/-- The command for a name. -/
def ForLoop.cmd (name : Text) : KleeCmd :=
  let v := forVars cfg name
  ⟨l.function, l.outputDir v.name, v.maxTime, v.maxInst, v.bcFile⟩

/-- The loop: its runs, and for each what it appends to `status.log`. -/
def ForLoop.iterations : List Text → State → List (Run × Text)
  | [], _ => []
  | name :: names, s =>
      let r := s.run cfg env (l.cmd cfg name)
      let log := echo [(forVars cfg name).name ++ ": status = ".toList ++
        decimal r.1.outcome.status.toNat]
      (r.1, log) :: iterations names r.2

/-- The loop over a file of names; the standard input is the one of the script. -/
def ForLoop.result (s : State) (file : Text) : Result :=
  let its := l.iterations cfg env (catWords cfg file) s
  ⟨its.map Prod.fst, its.flatMap Prod.snd⟩

/-- `run_klee_all`, with the value of `OUTPUT_DIR` that the script was started with. -/
def runKleeAll (outputDir : Text) : ForLoop := ⟨runKlee, fun _ => outputDir⟩

/-- `run_symaddr_all`. -/
def runSymaddrAll (outputDir : Text) : ForLoop := ⟨runCache, fun _ => outputDir⟩

/-- `run_validation_all`. -/
def runValidationAll : ForLoop :=
  ⟨runValidation, fun name => cfg.currentDir ++ "/build/src/out-cache-".toList ++ name⟩

end Script

/-! ## No name is lost -/

section NoLoss

variable {cfg : Config} {env : Env} {l : ForLoop}

/-- The command that a name should be run with. -/
def ForLoop.nameCmd (cfg : Config) (l : ForLoop) (name : Text) : KleeCmd :=
  ⟨l.function, l.outputDir name, maxTime, ['0'], bcFileOf cfg name⟩

/-- One line for each name, with the exit status of its run. -/
def namesLog (names : List Text) (statuses : List UInt8) : Text :=
  (names.zip statuses).flatMap fun p =>
    p.1 ++ ": status = ".toList ++ decimal p.2.toNat ++ ['\n']

/-- A name that the call of a function leaves alone. -/
def IsName (name : Text) : Prop := IsWord name ∧ name.any isGlob = false

theorem isName_maxTime : IsName maxTime := ⟨by decide, by decide⟩

theorem forVars_word {name : Text} (hname : IsName name) :
    forVars cfg name = ⟨bcFileOf cfg name, name, maxTime, ['0']⟩ := by
  have hzero : cfg.glob.expansion ['0'] = [['0']] :=
    cfg.glob.expansion_eq_singleton (by decide) (by decide)
  rw [forVars, callVars_word hname.1 hname.2 isName_maxTime.1 isName_maxTime.2, hzero]
  rfl

/-- Every iteration makes the run of its name, whatever the runs before it have done. -/
theorem iterations_words {names : List Text} (hnames : ∀ name ∈ names, IsName name) (s : State) :
    (l.iterations cfg env names s).map (fun it => it.1.cmd) = names.map (l.nameCmd cfg) ∧
      (l.iterations cfg env names s).flatMap Prod.snd =
        namesLog names ((l.iterations cfg env names s).map fun it => it.1.outcome.status) := by
  induction names generalizing s with
  | nil => exact ⟨rfl, rfl⟩
  | cons name names ih =>
      obtain ⟨hname, hrest⟩ := List.forall_mem_cons.mp hnames
      obtain ⟨hcmds, hlog⟩ := ih hrest (s.run cfg env (l.cmd cfg name)).2
      have hcmd : l.cmd cfg name = l.nameCmd cfg name := by
        rw [ForLoop.cmd, forVars_word hname]
        rfl
      refine ⟨?_, ?_⟩
      · rw [ForLoop.iterations, List.map_cons, List.map_cons, hcmds, ← hcmd]
        rfl
      · -- the message has a colon, so `echo` writes it as it is
        have hecho : ∀ status : Text,
            echo [name ++ ": status = ".toList ++ status] =
              name ++ ": status = ".toList ++ status ++ ['\n'] := by
          intro status
          rw [echo_of_not_option (isEchoOption_of_colon_mem (by simp))]
          rfl
        rw [ForLoop.iterations, forVars_word hname]
        dsimp only
        rw [List.flatMap_cons, hlog, List.map_cons, hecho]
        rfl

/-- The words of a file without glob characters are names. -/
theorem catWords_eq {file : Text} (hglob : file.any isGlob = false) :
    catWords cfg file = words (commandSubst file) ∧ ∀ name ∈ catWords cfg file, IsName name := by
  have hsub : (commandSubst file).Sublist file :=
    (List.rdropWhile_prefix _ _).sublist.trans List.filter_sublist
  have hnone : (commandSubst file).any isGlob = false :=
    List.any_eq_false.mpr fun c hc => List.any_eq_false.mp hglob c (hsub.subset hc)
  rw [catWords, cfg.glob.expansion_eq_words hnone]
  refine ⟨rfl, fun name hname => ⟨isWord_of_mem_words hname, ?_⟩⟩
  apply List.any_eq_false.mpr
  intro c hc
  exact List.any_eq_false.mp hnone c ((Lexer.infix_of_mem_fields hname).subset hc)

/-- **No name is lost or repeated**: for every file without glob characters and every
behaviour of the runs, the runs are those of the words of the file, in order, and so are
the lines of the log. -/
theorem forLoop_noLoss (s : State) {file : Text} (hglob : file.any isGlob = false) :
    (l.result cfg env s file).runs.map Run.cmd =
        (words (commandSubst file)).map (l.nameCmd cfg) ∧
      (l.result cfg env s file).statusLog =
        namesLog (words (commandSubst file))
          ((l.result cfg env s file).runs.map fun r => r.outcome.status) := by
  obtain ⟨hwords, hnames⟩ := @catWords_eq cfg _ hglob
  rw [hwords] at hnames
  unfold ForLoop.result
  dsimp only
  rw [List.map_map, List.map_map, hwords]
  exact iterations_words hnames s

/-- The words of a file with one name in each line are the names, whether or not the last
line ends with a newline. -/
theorem words_fileOfLines {names : List Text}
    (hnames : ∀ name ∈ names, IsWord name ∧ '\x00' ∉ name) (final : Bool) :
    words (commandSubst (fileOfLines names final)) = names := by
  have hwords : words (fileOfLines names final) = names ∧ '\x00' ∉ fileOfLines names final := by
    induction names with
    | nil => exact ⟨by simp [fileOfLines, words], by simp [fileOfLines]⟩
    | cons name names ih =>
        obtain ⟨⟨hname, hnul⟩, hrest⟩ := List.forall_mem_cons.mp hnames
        obtain ⟨hwords, hnuls⟩ := ih hrest
        by_cases hlast : names ≠ [] ∨ final = true
        · rw [fileOfLines_cons hlast, words_append_newline, words_eq_singleton hname, hwords]
          exact ⟨rfl, by simp [hnul, hnuls]⟩
        · -- the last line without a newline is its name
          obtain ⟨rfl, hfinal⟩ : names = [] ∧ final = false := by simpa using hlast
          have hfile : fileOfLines [name] final = name := by simp [fileOfLines, hfinal]
          rw [hfile]
          exact ⟨words_eq_singleton hname, hnul⟩
  rw [words_commandSubst, filter_of_notMem hwords.2, hwords.1]

end NoLoss

/-! ## Isolation -/

/-- **The runs of `run_klee_all` are isolated**: every one of them starts in the contents of
the archive, whatever the runs before it have left behind. -/
theorem runKleeAll_start {cfg : Config} {env : Env} {outputDir : Text} {s : State} {file : Text} :
    ∀ r ∈ ((runKleeAll outputDir).result cfg env s file).runs, r.start = some cfg.archive := by
  unfold ForLoop.result
  dsimp only
  induction catWords cfg file generalizing s with
  | nil => simp [ForLoop.iterations]
  | cons name names ih =>
      rw [ForLoop.iterations, List.map_cons, List.forall_mem_cons]
      exact ⟨reset_eq cfg.archive s.sandbox, ih⟩

end SmtCacheBenchmarks.Coreutils
