import SmtCacheBenchmarks.Experiments.Scripts
import SmtCacheBenchmarks.Library.Occurrence
import SmtCacheBenchmarks.Library.Outputs
import Mathlib.Data.List.Nodup

/-!
# The Runs of the Experiments

Every run has a slot: its suite, its program, and whether it is the first or the second
run of the suite's script.  A driver starts, for each program in turn, the two runs of its
suites, with the same command lines as if every script ran in a fresh shell: `run.sh` is
sourced again and again, but `common.sh` sets back what it appends to.

A run writes to the directory that its `-output-dir` option names, and no two slots have
the same one.  So the runs do not disturb each other, in whatever order and however often a
user starts the drivers.
-/

namespace SmtCacheBenchmarks.Experiments

open SmtCacheBenchmarks.Library SmtCacheBenchmarks.Library.ShellScript
open SmtCacheBenchmarks.Coreutils (words)

/-! ## Slots -/

/-- The suites of runs. -/
inductive Suite where
  | qcFmm | qcDsmm | validation
deriving DecidableEq

/-- The script of a suite. -/
def Suite.script : Suite → Program → Script
  | .qcFmm => runQcSh
  | .qcDsmm => runQcMergeSh
  | .validation => runValidationSh

/-- Where the results of a suite are, in `ARTIFACT_DIR`. -/
def Suite.dir : Suite → String
  | .qcFmm => "/qc_fmm/"
  | .qcDsmm => "/qc_dsmm/"
  | .validation => "/validation/"

/-- The directories of the two runs. -/
def Suite.out : Suite → Bool → String
  | .qcFmm, false => "/out-klee"
  | .qcFmm, true => "/out-cache"
  | .qcDsmm, false => "/out-klee"
  | .qcDsmm, true => "/out-cache"
  | .validation, false => "/out-fmm"
  | .validation, true => "/out-dsmm"

/-- The suites that a driver runs. -/
def Driver.suites : Driver → List Suite
  | .qcAll => [.qcFmm, .qcDsmm]
  | .qcFmmAll => [.qcFmm]
  | .qcDsmmAll => [.qcDsmm]
  | .validationAll => [.validation]

/-- A run of a suite. -/
structure Slot where
  suite : Suite
  program : Program
  second : Bool
deriving DecidableEq

/-- A shell in which only `ARGS` has a value. -/
def freshShell (args : Text) : Shell :=
  { vars := fun x => if x = .args then args else [], funs := fun _ => none }

variable (cfg : Setting → Text) (args : Text)

/-- The command line of a run, when the script of its suite runs alone in a fresh shell. -/
def Slot.command (r : Slot) : List Text :=
  (commands cfg (freshShell args) (r.suite.script r.program)).getD (if r.second then 1 else 0) []

/-- The words of the command line. -/
def Slot.argv (r : Slot) : List Text := (r.command cfg args).flatMap words

/-- The directory of a run in `ARTIFACT_DIR`. -/
def Slot.subdir (r : Slot) : Text :=
  r.suite.dir.toList ++ r.program.name ++ (r.suite.out r.second).toList

/-- The directory of a run. -/
def Slot.outputDir (r : Slot) : Text := cfg .artifactDir ++ r.subdir

/-! ## Hygiene -/

/-- The only variable that a program's scripts take from their surroundings. -/
def inherited (p : Program) (x : Var) : Bool := p = .json && x = .args

private theorem closed_script (u : Suite) (p : Program) :
    Closed (inherited p) (u.script p) = true := by
  cases u <;> cases p <;> decide +kernel

private theorem keeps_script (p : Program) : p = .json → ∀ u : Suite,
    Keeps .args (setCurrentDir p :: u.script p) = true := by
  rintro rfl u
  cases u <;> decide +kernel

variable {cfg args}

/-- The command lines of a suite do not depend on the shell, except for `ARGS` with
`json`. -/
theorem commands_script {u : Suite} {p : Program} {s t : Shell}
    (h : p = .json → s.vars .args = t.vars .args) :
    commands cfg s (u.script p) = commands cfg t (u.script p) := by
  apply commands_congr cfg (closed_script u p)
  intro x hx
  simp only [inherited, Bool.and_eq_true, decide_eq_true_eq] at hx
  rw [hx.2]
  exact h hx.1

/-- The script of a program that runs two suites in one shell. -/
theorem commands_runQcAllSh {p : Program} {s t : Shell}
    (h : p = .json → s.vars .args = t.vars .args) :
    commands cfg s (runQcAllSh p) =
      commands cfg t (runQcSh p) ++ commands cfg t (runQcMergeSh p) := by
  have hsplit : runQcAllSh p = (setCurrentDir p :: runQcSh p) ++ runQcMergeSh p := rfl
  have hfirst : commands cfg s (setCurrentDir p :: runQcSh p) = commands cfg t (runQcSh p) := by
    have hcons : commands cfg s (setCurrentDir p :: runQcSh p) =
        commands cfg ((setCurrentDir p).exec cfg s).2 (runQcSh p) := rfl
    rw [hcons]
    refine commands_script (u := .qcFmm) fun hp => ?_
    rw [← h hp]
    have hkeeps : Keeps .args [setCurrentDir p] = true := by cases p <;> rfl
    exact vars_of_keeps cfg hkeeps s
  -- the first suite has not touched what the second one takes from the shell
  have hsecond : commands cfg (exec cfg s (setCurrentDir p :: runQcSh p)).2 (runQcMergeSh p) =
      commands cfg t (runQcMergeSh p) := by
    refine commands_script (u := .qcDsmm) fun hp => ?_
    rw [← h hp]
    exact vars_of_keeps cfg (keeps_script p hp .qcFmm) s
  rw [hsplit, commands_append, hfirst, hsecond]

/-- **Hygiene of the drivers**: in every environment, a driver starts, for each program in
turn, the commands that the scripts of its suites start each in a shell of its own. -/
theorem driver_commands (env : Shell) (d : Driver) :
    d.commands cfg env = programs.flatMap fun p =>
      d.suites.flatMap fun u => commands cfg (freshShell (env.vars .args)) (u.script p) := by
  have hargs : ∀ p : Program, p = .json →
      env.vars .args = (freshShell (env.vars .args)).vars .args := fun _ _ => rfl
  rw [Driver.commands]
  refine congrArg (programs.flatMap ·) (funext fun p => ?_)
  cases d with
  | qcAll =>
      rw [Driver.script, commands_runQcAllSh (hargs p)]
      exact (congrArg _ (List.append_nil _)).symm
  | qcFmmAll => exact (commands_script (u := .qcFmm) (hargs p)).trans (List.append_nil _).symm
  | qcDsmmAll => exact (commands_script (u := .qcDsmm) (hargs p)).trans (List.append_nil _).symm
  | validationAll =>
      exact (commands_script (u := .validation) (hargs p)).trans (List.append_nil _).symm

/-! ## The output directories -/

/-- `-output-dir=`. -/
def outputOption : Text := ['-', 'o', 'u', 't', 'p', 'u', 't', '-', 'd', 'i', 'r', '=']

/-- The word of the option in the command line of a run. -/
def Slot.outputWord (r : Slot) : Word Var Setting :=
  [.lit outputOption, .hole .artifactDir, .lit r.suite.dir.toList, .lit r.program.name,
    .lit (r.suite.out r.second).toList]

/-- The text of a word that is fixed by the scripts. -/
def fixedText : Word Var Setting → Option Text
  | [] => some []
  | .lit text :: w => (fixedText w).map (text ++ ·)
  | _ :: _ => none

/-- A word that the scripts fix, and that has no option `-output-dir`. -/
def isHarmless (w : Word Var Setting) : Bool :=
  (fixedText w).any fun text => (Occurrence.findAfter outputOption text).isNone

/-- A word that is not fixed by the scripts: a KLEE binary, or the inherited `ARGS`. -/
def isForeign (w : Word Var Setting) : Bool :=
  w = [.hole .vanillaKlee] || w = [.hole .klee] || w = [.var .args]

/-- A single word of the command line names an output directory, and it is the one of the
run. -/
def checkLine (r : Slot) (l : Body) : Bool :=
  (l.filter fun w => !isForeign w && !isHarmless w) = [r.outputWord]

/-- The two lines of a suite's script. -/
def checkScript (u : Suite) (p : Program) : Bool :=
  match lines (fun _ => none) (u.script p) with
  | some [l₁, l₂] => checkLine ⟨u, p, false⟩ l₁ && checkLine ⟨u, p, true⟩ l₂
  | _ => false

private theorem checkScripts :
    ([Suite.qcFmm, .qcDsmm, .validation].all fun u => programs.all (checkScript u)) = true := by
  decide +kernel

theorem checkScript_eq_true (u : Suite) (p : Program) : checkScript u p = true := by
  have hall := List.all_eq_true.mp checkScripts u (by cases u <;> decide)
  exact List.all_eq_true.mp hall p (mem_programs p)

/-- The line of a run in terms of the variables before its script. -/
theorem exists_line (r : Slot) : ∃ l, checkLine r l = true ∧
    r.command cfg args = expandAll cfg (freshShell args).vars l := by
  obtain ⟨u, p, second⟩ := r
  have hcheck := checkScript_eq_true u p
  unfold checkScript at hcheck
  split at hcheck
  next l₁ l₂ hlines =>
    rw [Bool.and_eq_true] at hcheck
    have hcommands := commands_eq_lines cfg (s := freshShell args)
      (fun f body h => by cases h) hlines
    cases second with
    | false => exact ⟨l₁, hcheck.1, by rw [Slot.command, hcommands]; rfl⟩
    | true => exact ⟨l₂, hcheck.2, by rw [Slot.command, hcommands]; rfl⟩
  next => cases hcheck

/-- Both runs of a suite, and no others, are started by its script. -/
theorem commands_script_eq (u : Suite) (p : Program) :
    commands cfg (freshShell args) (u.script p) =
      [Slot.command cfg args ⟨u, p, false⟩, Slot.command cfg args ⟨u, p, true⟩] := by
  have hcheck := checkScript_eq_true u p
  unfold checkScript at hcheck
  split at hcheck
  next l₁ l₂ hlines =>
    have hcommands := commands_eq_lines cfg (s := freshShell args)
      (fun f body h => by cases h) hlines
    rw [Slot.command, Slot.command, hcommands]
    rfl
  next => cases hcheck

/-- A configuration that names no output directory by itself, with a directory for the
results that word splitting leaves alone, and with nothing for pathname expansion, which
the scripts here are run without. -/
structure Sane (cfg : Setting → Text) (args : Text) : Prop where
  noGlob : ∀ s, (cfg s).any Coreutils.isGlob = false
  args_noGlob : args.any Coreutils.isGlob = false
  artifactDir : ∀ c ∈ cfg .artifactDir, Coreutils.isIfs c = false
  vanillaKlee : ∀ w ∈ words (cfg .vanillaKlee), ¬ outputOption <+: w
  klee : ∀ w ∈ words (cfg .klee), ¬ outputOption <+: w
  args : ∀ w ∈ words args, ¬ outputOption <+: w

private theorem slot_chars (r : Slot) :
    ((outputOption ++ r.subdir).all fun c => !Coreutils.isIfs c) = true := by
  obtain ⟨u, p, second⟩ := r
  cases u <;> cases p <;> cases second <;> decide +kernel

/-- The option with the directory of a run is one word. -/
theorem isWord_outputDir (hsane : Sane cfg args) (r : Slot) :
    Coreutils.IsWord (outputOption ++ r.outputDir cfg) := by
  refine ⟨by simp [outputOption], fun c hc => ?_⟩
  have hslot := List.all_eq_true.mp (slot_chars r) c
  rw [Slot.outputDir, List.mem_append, List.mem_append] at hc
  rw [List.mem_append] at hslot
  rcases hc with hc | hc | hc
  · simpa using hslot (.inl hc)
  · exact hsane.artifactDir c hc
  · simpa using hslot (.inr hc)

theorem expand_fixedText {vars : Var → Text} {w : Word Var Setting} {text : Text}
    (h : fixedText w = some text) : expand cfg vars w = text := by
  induction w generalizing text with
  | nil => exact Option.some.inj h
  | cons p w ih =>
      cases p with
      | lit t =>
          obtain ⟨t', ht', rfl⟩ := Option.map_eq_some_iff.mp h
          rw [← ih ht']
          rfl
      | var x => cases h
      | hole k => cases h

/-- **One output directory**: the command line of a run names its own directory, and no
other. -/
theorem mem_argv_iff (hsane : Sane cfg args) (r : Slot) (d : Text) :
    outputOption ++ d ∈ r.argv cfg args ↔ d = r.outputDir cfg := by
  obtain ⟨l, hcheck, hcommand⟩ := @exists_line cfg args r
  have hfilter : (l.filter fun w => !isForeign w && !isHarmless w) = [r.outputWord] := by
    simpa [checkLine] using hcheck
  have hword : words (expand cfg (freshShell args).vars r.outputWord) =
      [outputOption ++ r.outputDir cfg] := by
    have hexpand : expand cfg (freshShell args).vars r.outputWord =
        outputOption ++ r.outputDir cfg := by
      simp [expand, Slot.outputWord, Part.text, Slot.outputDir, Slot.subdir]
    rw [hexpand, Coreutils.words_eq_singleton (isWord_outputDir hsane r)]
  rw [Slot.argv, hcommand, expandAll, List.mem_flatMap]
  constructor
  · rintro ⟨text, htext, hd⟩
    obtain ⟨w, hw, rfl⟩ := List.mem_map.mp htext
    by_cases hforeign : isForeign w = true
    · -- a KLEE binary or the inherited arguments
      exfalso
      simp only [isForeign, Bool.or_eq_true, decide_eq_true_eq] at hforeign
      rcases hforeign with (rfl | rfl) | rfl
      · exact hsane.vanillaKlee _ (by simpa [expand, Part.text] using hd)
          (List.prefix_append _ _)
      · exact hsane.klee _ (by simpa [expand, Part.text] using hd) (List.prefix_append _ _)
      · exact hsane.args _ (by simpa [expand, Part.text, freshShell] using hd)
          (List.prefix_append _ _)
    · by_cases hharmless : isHarmless w = true
      · -- a word that the scripts fix
        exfalso
        obtain ⟨t, ht, hnone⟩ : ∃ t, fixedText w = some t ∧
            Occurrence.findAfter outputOption t = none := by
          rw [isHarmless] at hharmless
          cases ht : fixedText w with
          | none => simp [ht] at hharmless
          | some t => exact ⟨t, rfl, by simpa [ht] using hharmless⟩
        rw [expand_fixedText ht] at hd
        exact (Occurrence.findAfter_eq_none_iff _ _).mp hnone
          ((List.prefix_append _ _).isInfix.trans (Lexer.infix_of_mem_fields hd))
      · -- the option
        have hmem : w ∈ l.filter fun w => !isForeign w && !isHarmless w := by
          rw [List.mem_filter]
          exact ⟨hw, by simp [hforeign, hharmless]⟩
        rw [hfilter, List.mem_singleton] at hmem
        subst hmem
        rw [hword, List.mem_singleton] at hd
        exact List.append_cancel_left hd
  · rintro rfl
    have hmem : r.outputWord ∈ l := by
      have : r.outputWord ∈ l.filter fun w => !isForeign w && !isHarmless w := by
        rw [hfilter]
        exact List.mem_singleton_self _
      exact (List.mem_filter.mp this).1
    exact ⟨_, List.mem_map_of_mem hmem, by rw [hword]; exact List.mem_singleton_self _⟩

/-- All slots. -/
def allSlots : List Slot :=
  [Suite.qcFmm, .qcDsmm, .validation].flatMap fun u =>
    programs.flatMap fun p => [⟨u, p, false⟩, ⟨u, p, true⟩]

theorem mem_allSlots (r : Slot) : r ∈ allSlots := by
  obtain ⟨u, p, second⟩ := r
  cases u <;> cases p <;> cases second <;> decide

private theorem nodup_subdirs : (allSlots.map Slot.subdir).Nodup := by
  decide +kernel

/-- No two runs have the same directory. -/
theorem outputDir_injective {r r' : Slot} (h : r.outputDir cfg = r'.outputDir cfg) : r = r' :=
  List.inj_on_of_nodup_map nodup_subdirs (mem_allSlots r) (mem_allSlots r')
    (List.append_cancel_left h)

/-- The command line of a run names the directory of no other run. -/
theorem outputDir_mem_argv_iff (hsane : Sane cfg args) {r r' : Slot} :
    outputOption ++ r.outputDir cfg ∈ r'.argv cfg args ↔ r' = r := by
  rw [mem_argv_iff hsane]
  exact ⟨fun h => (outputDir_injective h).symm, fun h => by rw [h]⟩

/-! ## Drivers one after the other -/

/-- The runs that a driver starts, in order. -/
def Driver.slots (d : Driver) : List Slot :=
  programs.flatMap fun p => d.suites.flatMap fun u => [⟨u, p, false⟩, ⟨u, p, true⟩]

/-- The command lines of a driver are those of its runs. -/
theorem commands_eq_slots (env : Shell) (d : Driver) :
    d.commands cfg env = d.slots.map (Slot.command cfg (env.vars .args)) := by
  rw [driver_commands, Driver.slots, List.map_flatMap]
  refine congrArg (programs.flatMap ·) (funext fun p => ?_)
  rw [List.map_flatMap]
  exact congrArg (d.suites.flatMap ·) (funext fun u => commands_script_eq u p)

/-- A process that a driver starts: its words, and how many were started before it. -/
abbrev Process := List Text × ℕ

/-- The processes of the drivers that a user starts in one environment, one after the
other. -/
def processes (cfg : Setting → Text) (env : Shell) (ds : List Driver) : List Process :=
  ((ds.flatMap fun d => d.commands cfg env).map fun texts => texts.flatMap words).zipIdx

/-- The process has the directory as its output directory. -/
def WritesTo (q : Process) (dir : Text) : Bool := outputOption ++ dir ∈ q.1

/-- The numbers of the processes that are runs of a slot. -/
def starts (r : Slot) (ds : List Driver) : List ℕ :=
  ((ds.flatMap Driver.slots).zipIdx.filter fun q => q.1 = r).map Prod.snd

theorem processes_eq (env : Shell) (ds : List Driver) :
    processes cfg env ds =
      (ds.flatMap Driver.slots).zipIdx.map fun q => (q.1.argv cfg (env.vars .args), q.2) := by
  have hslots : (ds.flatMap fun d => d.commands cfg env) =
      (ds.flatMap Driver.slots).map (Slot.command cfg (env.vars .args)) := by
    rw [List.map_flatMap]
    exact congrArg (ds.flatMap ·) (funext fun d => commands_eq_slots env d)
  rw [processes, hslots, List.map_map, List.zipIdx_map]
  rfl

/-- The processes that write to the directory of a run are its own. -/
theorem filter_processes {env : Shell} (hsane : Sane cfg (env.vars .args)) (ds : List Driver)
    (r : Slot) :
    (processes cfg env ds).filter (WritesTo · (r.outputDir cfg)) =
      (starts r ds).map fun n => (r.argv cfg (env.vars .args), n) := by
  rw [processes_eq, starts, List.filter_map, List.map_map]
  have hiff : ∀ q : Slot × ℕ,
      WritesTo (q.1.argv cfg (env.vars .args), q.2) (r.outputDir cfg) = decide (q.1 = r) := by
    intro q
    exact decide_eq_decide.mpr (outputDir_mem_argv_iff hsane)
  have hfilter : ((WritesTo · (r.outputDir cfg)) ∘
      fun q : Slot × ℕ => (q.1.argv cfg (env.vars .args), q.2)) = fun q => decide (q.1 = r) :=
    funext hiff
  rw [hfilter]
  refine List.map_congr_left fun q hq => ?_
  have hq' : q.1 = r := by simpa using (List.mem_filter.mp hq).2
  simp [hq']

section Klee

variable {C : Type}

/-- The output directories after the drivers; `klee` gives for a process what it makes of
what it finds at its output directory. -/
def outputsAfter (klee : Process → Option C → Option C) (cfg : Setting → Text) (env : Shell)
    (disk : Text → Option C) (ds : List Driver) : Text → Option C :=
  Outputs.runAll WritesTo klee disk (processes cfg env ds)

/-- **The runs do not meet**: when KLEE does not touch an output directory that exists, the
drivers may run in any order and any number of times.  The directory of a run is what the
first of its own processes made that created it. -/
theorem outputsAfter_outputDir {klee : Process → Option C → Option C} {env : Shell}
    (hkept : ∀ q c, klee q (some c) = some c) (hsane : Sane cfg (env.vars .args))
    (disk : Text → Option C) (ds : List Driver) (r : Slot) :
    outputsAfter klee cfg env disk ds (r.outputDir cfg) =
      (disk (r.outputDir cfg)).or
        ((starts r ds).findSome? fun n => klee (r.argv cfg (env.vars .args), n) none) := by
  rw [outputsAfter, Outputs.runAll_of_kept hkept, filter_processes hsane, List.findSome?_map]
  rfl

/-- A configuration. -/
def sampleConfig : Setting → Text
  | .vanillaKlee => "/vanilla/bin/klee".toList
  | .klee => "/qc/bin/klee".toList
  | .artifactDir => "/traces".toList

private theorem notIfs_of_all {t : Text} (h : (t.all fun c => !Coreutils.isIfs c) = true) :
    ∀ c ∈ t, Coreutils.isIfs c = false := by
  intro c hc
  simpa using List.all_eq_true.mp h c hc

theorem sane_sampleConfig : Sane sampleConfig [] where
  noGlob := by
    intro s
    cases s
    all_goals decide +kernel
  args_noGlob := rfl
  artifactDir := notIfs_of_all (by decide +kernel)
  vanillaKlee := by
    rw [Coreutils.words_eq_singleton ⟨by decide +kernel, notIfs_of_all (by decide +kernel)⟩,
      List.forall_mem_singleton]
    decide +kernel
  klee := by
    rw [Coreutils.words_eq_singleton ⟨by decide +kernel, notIfs_of_all (by decide +kernel)⟩,
      List.forall_mem_singleton]
    decide +kernel
  args := by simp [words]

/-- When every process leaves its number, the directory of the cache run of `m4` has the
number of the first one behind the sixteen validation runs and the baseline run. -/
theorem outputsAfter_outputDir_seventeen :
    outputsAfter (fun q o => o.or (some q.2)) sampleConfig (freshShell []) (fun _ => none)
      [.validationAll, .qcAll, .qcAll] (Slot.outputDir sampleConfig ⟨.qcFmm, .m4, true⟩) =
      some 17 := by
  have hstarts : starts ⟨.qcFmm, .m4, true⟩ [.validationAll, .qcAll, .qcAll] = [17, 49] := by
    decide
  rw [outputsAfter_outputDir (fun q c => rfl) sane_sampleConfig, hstarts]
  rfl

end Klee

end SmtCacheBenchmarks.Experiments
