import SmtCacheBenchmarks.Experiments.Runs
import SmtCacheBenchmarks.KleeOut.Tables

/-!
# From the Drivers to the Tables

The scripts for the tables look for the directories of the runs under
`ARTIFACT_DIR/suite`.  These are the directories that the command lines of the drivers
name, so a table shows for every program what its own two runs have recorded, whatever
else was run before, in between and afterwards.  Without a driver for the suite the
scripts stop at the first program.
-/

namespace SmtCacheBenchmarks.Experiments

open SmtCacheBenchmarks.Library
open SmtCacheBenchmarks.KleeOut

/-! ## Directories -/

/-- The argument of the table scripts, in `ARTIFACT_DIR`. -/
def Suite.root : Suite → String
  | .qcFmm => "/qc_fmm"
  | .qcDsmm => "/qc_dsmm"
  | .validation => "/validation"

/-- The argument of the table scripts for a suite. -/
def Suite.rootDir (cfg : Setting → Text) (u : Suite) : Text := cfg .artifactDir ++ u.root.toList

/-- The scripts for the tables and the drivers have the same programs. -/
theorem programNames_eq : programNames = programs.map Program.name := rfl

theorem osPathJoin_append {a b name : Text} (hb : b ≠ []) (hlast : b.getLast? ≠ some '/')
    (hname : name.head? ≠ some '/') : osPathJoin (a ++ b) name = a ++ b ++ '/' :: name := by
  have hne : a ++ b ≠ [] := fun h => hb (List.append_eq_nil_iff.mp h).2
  have hlast' : (a ++ b).getLast? ≠ some '/' := by
    rwa [List.getLast?_append_of_ne_nil _ hb]
  rw [osPathJoin, if_neg hname, if_neg (not_or.mpr ⟨hne, hlast'⟩)]

variable {cfg : Setting → Text}

private theorem name_head (p : Program) : p.name.head? ≠ some '/' := by
  cases p <;> decide +kernel

/-- A table script looks for a run where the run has its output directory. -/
theorem join_rootDir (u : Suite) (p : Program) (second : Bool) :
    osPathJoin (u.rootDir cfg) p.name ++ (u.out second).toList =
      Slot.outputDir cfg ⟨u, p, second⟩ := by
  have hjoin : osPathJoin (u.rootDir cfg) p.name =
      cfg .artifactDir ++ u.root.toList ++ '/' :: p.name := by
    apply osPathJoin_append
    · cases u <;> decide +kernel
    · cases u <;> decide +kernel
    · exact name_head p
  have hdir : u.dir.toList = u.root.toList ++ ['/'] := by cases u <;> decide +kernel
  rw [hjoin, Slot.outputDir, Slot.subdir, hdir]
  simp only [List.append_assoc, List.cons_append, List.nil_append]

/-! ## Which runs there are -/

theorem mem_slots_iff {d : Driver} {r : Slot} : r ∈ d.slots ↔ r.suite ∈ d.suites := by
  obtain ⟨u, p, second⟩ := r
  rw [Driver.slots, List.mem_flatMap]
  constructor
  · rintro ⟨q, -, hr⟩
    obtain ⟨u', hu', hr⟩ := List.mem_flatMap.mp hr
    have heq : u = u' := by
      rcases List.mem_cons.mp hr with h | h
      · exact congrArg Slot.suite h
      · exact congrArg Slot.suite (List.mem_singleton.mp h)
    exact heq ▸ hu'
  · intro hu
    refine ⟨p, mem_programs p, List.mem_flatMap.mpr ⟨u, hu, ?_⟩⟩
    cases second <;> simp

/-- A slot has been run when a driver with its suite has. -/
theorem starts_eq_nil_iff {r : Slot} {ds : List Driver} :
    starts r ds = [] ↔ ∀ d ∈ ds, r.suite ∉ d.suites := by
  rw [starts, List.map_eq_nil_iff, List.filter_eq_nil_iff]
  constructor
  · intro h d hd hu
    have hmem : r ∈ ds.flatMap Driver.slots := List.mem_flatMap.mpr ⟨d, hd, mem_slots_iff.mpr hu⟩
    obtain ⟨n, hn⟩ := List.getElem?_of_mem hmem
    exact h (r, n) (List.mk_mem_zipIdx_iff_getElem?.mpr hn) (by simp)
  · rintro h ⟨r', n⟩ hq
    have hmem : r' ∈ ds.flatMap Driver.slots := List.fst_mem_of_mem_zipIdx hq
    obtain ⟨d, hd, hr'⟩ := List.mem_flatMap.mp hmem
    intro heq
    have hr : r' = r := by simpa using heq
    exact h d hd (mem_slots_iff.mp (hr ▸ hr'))

/-! ## The tables -/

/-- The first run of the slot finishes, if there is one, and its results are as `P` says. -/
def FirstRun (klee : Process → Option Results → Option Results) (cfg : Setting → Text)
    (env : Shell) (ds : List Driver) (r : Slot) (P : Results → Prop) : Prop :=
  ∀ n, (starts r ds).head? = some n →
    ∃ res, klee (r.argv cfg (env.vars .args), n) none = some res ∧ P res

/-- The table of one value of the two runs of each program. -/
def pairTable (u : Suite) (value : Measurement → Text) (measure : Slot → Measurement) : Output :=
  ⟨programs.flatMap fun p =>
    pairLines p.name (value (measure ⟨u, p, false⟩)) (value (measure ⟨u, p, true⟩)), none⟩

/-- The table of the query statistics. -/
def statsTable (counts : Program → Counts) : Output :=
  ⟨programs.flatMap fun p =>
    [p.name, statsLine (some (counts p).all) (some (counts p).relevant)
      (some (counts p).addressDependent) ((counts p).addressDependent - (counts p).unhandled)],
    none⟩

/-- The output of a script that does not find a directory of the first program. -/
def missing : Output := ⟨[], some .assertionError⟩

section Runs

variable {klee : Process → Option Results → Option Results} {env : Shell} {disk : Disk}
variable {ds : List Driver} {u : Suite} {P : Results → Prop}
variable {measure : Slot → Measurement} {counts : Program → Counts}

/-- What stands in the directory of a run, when nothing was there before. -/
theorem outputsAfter_of_fresh (hkept : ∀ q c, klee q (some c) = some c)
    (hsane : Sane cfg (env.vars .args)) (hfresh : ∀ r : Slot, disk (r.outputDir cfg) = none)
    (r : Slot) :
    outputsAfter klee cfg env disk ds (r.outputDir cfg) =
      (starts r ds).findSome? fun n => klee (r.argv cfg (env.vars .args), n) none := by
  rw [outputsAfter_outputDir hkept hsane, hfresh, Option.none_or]

/-- The directory of a run that has been started. -/
theorem exists_results (hkept : ∀ q c, klee q (some c) = some c)
    (hsane : Sane cfg (env.vars .args)) (hfresh : ∀ r : Slot, disk (r.outputDir cfg) = none)
    {p : Program} {second : Bool} (hfirst : FirstRun klee cfg env ds ⟨u, p, second⟩ P)
    (hran : ∃ d ∈ ds, u ∈ d.suites) :
    ∃ res, outputsAfter klee cfg env disk ds
        (osPathJoin (u.rootDir cfg) p.name ++ (u.out second).toList) = some res ∧ P res := by
  have hstarts : starts ⟨u, p, second⟩ ds ≠ [] := by
    obtain ⟨d, hd, hu⟩ := hran
    exact fun h => starts_eq_nil_iff.mp h d hd hu
  obtain ⟨n, ns, hns⟩ := List.exists_cons_of_ne_nil hstarts
  obtain ⟨res, hklee, hres⟩ := hfirst n (by rw [hns]; rfl)
  refine ⟨res, ?_, hres⟩
  rw [join_rootDir, outputsAfter_of_fresh hkept hsane hfresh, hns, List.findSome?_cons, hklee]

/-- The directory of a run that has not been started. -/
theorem no_results (hkept : ∀ q c, klee q (some c) = some c)
    (hsane : Sane cfg (env.vars .args)) (hfresh : ∀ r : Slot, disk (r.outputDir cfg) = none)
    (hran : ¬ ∃ d ∈ ds, u ∈ d.suites) (p : Program) (second : Bool) :
    outputsAfter klee cfg env disk ds
        (osPathJoin (u.rootDir cfg) p.name ++ (u.out second).toList) = none := by
  have hstarts : starts ⟨u, p, second⟩ ds = [] :=
    starts_eq_nil_iff.mpr fun d hd hu => hran ⟨d, hd, hu⟩
  rw [join_rootDir, outputsAfter_of_fresh hkept hsane hfresh, hstarts]
  rfl

/-- A table of pairs, for the suites with baseline and cache. -/
theorem dumpPairs_after (hu : u = .qcFmm ∨ u = .qcDsmm)
    (hkept : ∀ q c, klee q (some c) = some c) (hsane : Sane cfg (env.vars .args))
    (hfresh : ∀ r : Slot, disk (r.outputDir cfg) = none)
    (hfirst : ∀ r : Slot, r.suite = u → FirstRun klee cfg env ds r (Records · (measure r)))
    (format : KLEEOut → Text) :
    dumpPairs format (outputsAfter klee cfg env disk ds) (u.rootDir cfg) =
      if ∃ d ∈ ds, u ∈ d.suites then
        pairTable u (fun m => format (m.kleeOut none)) measure
      else missing := by
  have hout : (u.out false) = "/out-klee" ∧ (u.out true) = "/out-cache" := by
    rcases hu with rfl | rfl <;> exact ⟨rfl, rfl⟩
  rw [dumpPairs, programNames_eq]
  by_cases hran : ∃ d ∈ ds, u ∈ d.suites
  · rw [if_pos hran]
    have hrow : ∀ p : Program,
        dumpPair format (outputsAfter klee cfg env disk ds) (u.rootDir cfg) p.name =
          ⟨pairLines p.name (format ((measure ⟨u, p, false⟩).kleeOut none))
            (format ((measure ⟨u, p, true⟩).kleeOut none)), none⟩ := by
      intro p
      obtain ⟨res₁, hres₁, h₁⟩ :=
        exists_results hkept hsane hfresh (hfirst ⟨u, p, false⟩ rfl) hran
      obtain ⟨res₂, hres₂, h₂⟩ :=
        exists_results hkept hsane hfresh (hfirst ⟨u, p, true⟩ rfl) hran
      rw [hout.1] at hres₁
      rw [hout.2] at hres₂
      exact dumpPair_of_records hres₁ hres₂ h₁ h₂
    exact forPrograms_map_of_ok hrow programs
  · -- the loop stops in its first round
    rw [if_neg hran]
    have hnone := no_results hkept hsane hfresh hran .m4 false
    rw [hout.1] at hnone
    exact forPrograms_of_first (dumpPair_of_missing hnone)

/-- **The tables of pairs**: for the suites with baseline and cache, and when the first runs
have finished, the four scripts show what these runs have recorded, whatever drivers the
user has started and in whatever order; without a driver for the suite they show nothing. -/
theorem pairTables_after (hu : u = .qcFmm ∨ u = .qcDsmm)
    (hkept : ∀ q c, klee q (some c) = some c) (hsane : Sane cfg (env.vars .args))
    (hfresh : ∀ r : Slot, disk (r.outputDir cfg) = none)
    (hfirst : ∀ r : Slot, r.suite = u → FirstRun klee cfg env ds r (Records · (measure r))) :
    (checkTime (outputsAfter klee cfg env disk ds) (u.rootDir cfg) =
      if ∃ d ∈ ds, u ∈ d.suites then pairTable u (·.elapsed) measure else missing) ∧
    (checkQueries (outputsAfter klee cfg env disk ds) (u.rootDir cfg) =
      if ∃ d ∈ ds, u ∈ d.suites then pairTable u (decimal ·.queries) measure else missing) ∧
    (checkCacheSize (outputsAfter klee cfg env disk ds) (u.rootDir cfg) =
      if ∃ d ∈ ds, u ∈ d.suites then pairTable u (formatOption ·.cacheSize) measure
      else missing) ∧
    (checkMemoryUsage (outputsAfter klee cfg env disk ds) (u.rootDir cfg) =
      if ∃ d ∈ ds, u ∈ d.suites then pairTable u (decimalInt ·.stats.memory) measure
      else missing) :=
  ⟨dumpPairs_after hu hkept hsane hfresh hfirst _,
    dumpPairs_after hu hkept hsane hfresh hfirst _,
    dumpPairs_after hu hkept hsane hfresh hfirst _,
    dumpPairs_after hu hkept hsane hfresh hfirst _⟩

/-- The results of a short run. -/
def sampleResults : Results :=
  { dir :=
      { info := some ("KLEE: done: total queries = 34\n".toList ++ "Elapsed: 00:12\n".toList ++
          "KLEE: done: completed paths = 120\n".toList)
        messages := some ("KLEE: - All queries: 34\n".toList ++
          "KLEE: - Relevant queries: 20\n".toList ++
          "KLEE: - Relevant address dependent queries: 9\n".toList ++
          "KLEE: - Unhandled queries: 2\n".toList ++ "KLEE: Query cache size: 7\n".toList) }
    stats := .ok ⟨1000, 12, 80⟩ }

/-- What the run has recorded. -/
def sampleMeasurement : Measurement :=
  { paths := 120, queries := 34, elapsed := "00:12".toList, cacheSize := some 7,
    stats := ⟨1000, 12, 80⟩ }

private theorem records_sample : Records sampleResults sampleMeasurement where
  elapsed := by
    have hall : ("00:12".toList.all fun c => c.isDigit || c = ':') = true := by decide +kernel
    intro c hc
    simpa using List.all_eq_true.mp hall c hc
  info := by
    refine ⟨_, rfl, ["KLEE: done: total queries = 34\n".toList, "Elapsed: 00:12\n".toList,
      "KLEE: done: completed paths = 120\n".toList], [], ?_, ?_, by simp⟩
    · simp only [List.flatten_cons, List.flatten_nil, List.append_nil, List.append_assoc]
    · decide +kernel
  messages := by
    refine ⟨_, rfl, by decide +kernel, by decide +kernel, fun total size' htotal => ?_⟩
    -- the log has no total
    revert htotal
    have hnone : (readlines ("KLEE: - All queries: 34\n".toList ++
        "KLEE: - Relevant queries: 20\n".toList ++
        "KLEE: - Relevant address dependent queries: 9\n".toList ++
        "KLEE: - Unhandled queries: 2\n".toList ++
        "KLEE: Query cache size: 7\n".toList)).findSome? nonzeroTotal = none := by decide +kernel
    rw [hnone]
    rintro ⟨⟩
  stats := rfl

private theorem readable_sample : Readable sampleResults :=
  ⟨sampleMeasurement.kleeOut none, by decide +kernel⟩

private theorem recordsCounts_sample : RecordsCounts sampleResults ⟨34, 20, 9, 2⟩ := by
  refine ⟨_, rfl, ["KLEE: - All queries: 34\n".toList, "KLEE: - Relevant queries: 20\n".toList,
    "KLEE: - Relevant address dependent queries: 9\n".toList,
    "KLEE: - Unhandled queries: 2\n".toList, "KLEE: Query cache size: 7\n".toList],
    ["KLEE: Query cache size: 7\n".toList], ?_, ?_, ?_⟩
  · simp only [List.flatten_cons, List.flatten_nil, List.append_nil, List.append_assoc]
  · decide +kernel
  · intro l hl
    obtain rfl := List.mem_singleton.mp hl
    exact ⟨⟨"KLEE: Query cache size: 7".toList, by decide +kernel, by decide +kernel⟩,
      by decide +kernel⟩

/-- Three drivers, of which the last ones repeat a suite. -/
theorem pairTables_after_repeated :
    checkQueries (outputsAfter (fun _ o => o.or (some sampleResults)) sampleConfig
      (freshShell []) (fun _ => none) [.validationAll, .qcAll, .qcDsmmAll])
      (Suite.rootDir sampleConfig .qcDsmm) =
      pairTable .qcDsmm (decimal ·.queries) fun _ => sampleMeasurement := by
  have htables := @pairTables_after sampleConfig (fun _ o => o.or (some sampleResults))
    (freshShell []) (fun _ => none) [.validationAll, .qcAll, .qcDsmmAll] .qcDsmm
    (fun _ => sampleMeasurement) (Or.inr rfl) (fun _ _ => rfl) sane_sampleConfig (fun _ => rfl)
    (fun _ _ _ _ => ⟨sampleResults, rfl, records_sample⟩)
  exact htables.2.1.trans (if_pos (by decide))

/-- **The table of query statistics** shows the counts of the validation runs, and as `C3`
the queries that depend on addresses and were handled. -/
theorem checkStats_after (hkept : ∀ q c, klee q (some c) = some c)
    (hsane : Sane cfg (env.vars .args)) (hfresh : ∀ r : Slot, disk (r.outputDir cfg) = none)
    (hfirst : ∀ p, FirstRun klee cfg env ds ⟨.validation, p, false⟩ fun res =>
      Readable res ∧ RecordsCounts res (counts p)) :
    checkStats (outputsAfter klee cfg env disk ds) (Suite.rootDir cfg .validation) =
      if ∃ d ∈ ds, Suite.validation ∈ d.suites then statsTable counts else missing := by
  rw [checkStats, programNames_eq]
  by_cases hran : ∃ d ∈ ds, Suite.validation ∈ d.suites
  · rw [if_pos hran]
    apply forPrograms_map_of_ok
    intro p
    obtain ⟨res, hres, hread, hcounts⟩ := exists_results hkept hsane hfresh (hfirst p) hran
    exact dumpStatsOf_of_records hres hread hcounts
  · rw [if_neg hran]
    have hnone := no_results hkept hsane hfresh hran .m4 false
    exact forPrograms_of_first (dumpStatsOf_of_missing hnone)

/-- The validation runs among others. -/
theorem checkStats_after_sample :
    checkStats (outputsAfter (fun _ o => o.or (some sampleResults)) sampleConfig
      (freshShell []) (fun _ => none) [.qcAll, .validationAll])
      (Suite.rootDir sampleConfig .validation) = statsTable fun _ => ⟨34, 20, 9, 2⟩ := by
  have htable := @checkStats_after sampleConfig (fun _ o => o.or (some sampleResults))
    (freshShell []) (fun _ => none) [.qcAll, .validationAll] (fun _ => ⟨34, 20, 9, 2⟩)
    (fun _ _ => rfl) sane_sampleConfig (fun _ => rfl)
    (fun _ _ _ => ⟨sampleResults, rfl, readable_sample, recordsCounts_sample⟩)
  exact htable.trans (if_pos (by decide))

end Runs

end SmtCacheBenchmarks.Experiments
