import SmtCacheBenchmarks.KleeOut.Parser

/-!
# The Overhead Table

Model of `check_overhead.py`: the comparison of the baseline run and the cache run of
one program.  A row of the table is meant to stand for two finished runs that explored
the same number of paths and executed the same number of instructions.

`validate` compares the two path counts as they are stored, and a run without a final
report is stored as `None`.  So two unfinished runs with equal instruction counts are
taken for consistent: that is the only input on which a row is not backed.
-/

namespace SmtCacheBenchmarks.KleeOut

/-! ## The comparison -/

def validate (ko1 ko2 : KLEEOut) : Bool :=
  decide (ko1.instructions = ko2.instructions) && decide (ko1.paths = ko2.paths)

/-- The CSV row of a pair. -/
def csvRow (program : Text) (ko1 ko2 : KLEEOut) : Text :=
  [','].intercalate
    [program, decimalInt ko1.time, decimalInt ko2.time, decimalInt ko1.memory,
      decimalInt ko2.memory]

/-- The report of a pair that does not agree. -/
def inconsistencyReport (ko1 ko2 : KLEEOut) : List Text :=
  "Inconsistent result:".toList :: (ko1.dump ++ ko2.dump)

/-- `compare(ko1, ko2, program)`, as the lines it prints. -/
def compare (ko1 ko2 : KLEEOut) (program : Text) : List Text :=
  if validate ko1 ko2 then [csvRow program ko1 ko2] else inconsistencyReport ko1 ko2

/-! ## What backs a row -/

/-- Both info files report a number of completed paths, the first such numbers are
equal, and so are the instruction counts. -/
def Backed (info1 info2 : Text) (ko1 ko2 : KLEEOut) : Prop :=
  ∃ paths, firstNumber completedPathsMarker (readlines info1) = some paths ∧
    firstNumber completedPathsMarker (readlines info2) = some paths ∧
    ko1.instructions = ko2.instructions

/-- The comparison prints the row of a backed pair, and for every other pair the
inconsistency report and no row. -/
def PrintsBackedRow (info1 info2 : Text) (ko1 ko2 : KLEEOut) (program : Text) : Prop :=
  (Backed info1 info2 ko1 ko2 → compare ko1 ko2 program = [csvRow program ko1 ko2]) ∧
  (¬ Backed info1 info2 ko1 ko2 → compare ko1 ko2 program = inconsistencyReport ko1 ko2)

theorem validate_iff {ko1 ko2 : KLEEOut} :
    validate ko1 ko2 = true ↔ ko1.instructions = ko2.instructions ∧ ko1.paths = ko2.paths := by
  simp [validate]

/-- The report is not a row: it has more lines. -/
theorem inconsistencyReport_ne_row (ko1 ko2 : KLEEOut) (program : Text) :
    inconsistencyReport ko1 ko2 ≠ [csvRow program ko1 ko2] := by
  simp [inconsistencyReport, KLEEOut.dump]

/-- What is printed tells whether the pair was validated. -/
theorem compare_eq_report_iff {ko1 ko2 : KLEEOut} {program : Text} :
    compare ko1 ko2 program = inconsistencyReport ko1 ko2 ↔ ¬ validate ko1 ko2 = true := by
  unfold compare
  by_cases hv : validate ko1 ko2 = true
  · simp [hv, Ne.symm (inconsistencyReport_ne_row ko1 ko2 program)]
  · simp [hv]

/-- **When rows are backed**: for every pair of output directories, the comparison
meets its purpose exactly when not both runs lack the report of completed paths while
their instruction counts agree. -/
theorem printsBackedRow_iff {path1 path2 info1 info2 program : Text} {dir1 dir2 : Dir}
    {stats1 stats2 : Except PyError Stats} {ko1 ko2 : KLEEOut}
    (hinfo1 : dir1.info = some info1) (hinfo2 : dir2.info = some info2)
    (h1 : KLEEOut.init path1 (some dir1) stats1 false = .ok ko1)
    (h2 : KLEEOut.init path2 (some dir2) stats2 false = .ok ko2) :
    PrintsBackedRow info1 info2 ko1 ko2 program ↔
      ¬ (firstNumber completedPathsMarker (readlines info1) = none ∧
        firstNumber completedPathsMarker (readlines info2) = none ∧
        ko1.instructions = ko2.instructions) := by
  have hpaths1 := KLEEOut.paths_of_init hinfo1 h1
  have hpaths2 := KLEEOut.paths_of_init hinfo2 h2
  rw [← hpaths1, ← hpaths2]
  unfold PrintsBackedRow Backed
  rw [← hpaths1, ← hpaths2, compare_eq_report_iff, validate_iff]
  constructor
  · -- both unfinished: nothing backs the pair, and yet it is validated
    rintro ⟨-, hreport⟩ ⟨hnone1, hnone2, hinst⟩
    refine hreport ?_ ⟨hinst, hnone1.trans hnone2.symm⟩
    rintro ⟨paths, hp, -⟩
    simp [hnone1] at hp
  · intro hfinished
    refine ⟨?_, ?_⟩
    · rintro ⟨paths, hp1, hp2, hinst⟩
      have hvalid : validate ko1 ko2 = true := validate_iff.mpr ⟨hinst, hp1.trans hp2.symm⟩
      rw [compare, if_pos hvalid]
    · rintro hback ⟨hinst, hpaths⟩
      cases hp : ko1.paths with
      | none => exact hfinished ⟨hp, hpaths ▸ hp, hinst⟩
      | some paths => exact hback ⟨paths, hp, hpaths ▸ hp, hinst⟩

/-- Two finished runs with four completed paths each. -/
theorem printsBackedRow_sample :
    PrintsBackedRow "KLEE: done: completed paths = 4\n".toList
      "KLEE: done: total queries = 9\nKLEE: done: completed paths = 4\n".toList
      { paths := some 4, queries := none, elapsed := none, cacheSize := none,
        queryStats := none, instructions := 1000, time := 12, memory := 80 }
      { paths := some 4, queries := some 9, elapsed := none, cacheSize := none,
        queryStats := none, instructions := 1000, time := 10, memory := 85 }
      "cat".toList := by
  have h1 : KLEEOut.init "out-klee-cat".toList
      (some ⟨some "KLEE: done: completed paths = 4\n".toList, some []⟩)
      (.ok ⟨1000, 12, 80⟩) false
      = .ok { paths := some 4, queries := none, elapsed := none, cacheSize := none,
              queryStats := none, instructions := 1000, time := 12, memory := 80 } := by
    decide +kernel
  have h2 : KLEEOut.init "out-cache-cat".toList
      (some ⟨some "KLEE: done: total queries = 9\nKLEE: done: completed paths = 4\n".toList,
        some []⟩)
      (.ok ⟨1000, 10, 85⟩) false
      = .ok { paths := some 4, queries := some 9, elapsed := none, cacheSize := none,
              queryStats := none, instructions := 1000, time := 10, memory := 85 } := by
    decide +kernel
  refine (printsBackedRow_iff (by rfl) (by rfl) h1 h2).mpr ?_
  decide +kernel

/-- Two runs that were killed before their final report, with equal instruction counts,
get a row. -/
theorem compare_unfinished_runs :
    ¬ ∀ (path1 path2 info1 info2 program : Text) (dir1 dir2 : Dir)
      (stats1 stats2 : Except PyError Stats) (ko1 ko2 : KLEEOut),
      dir1.info = some info1 → dir2.info = some info2 →
      KLEEOut.init path1 (some dir1) stats1 false = .ok ko1 →
      KLEEOut.init path2 (some dir2) stats2 false = .ok ko2 →
      PrintsBackedRow info1 info2 ko1 ko2 program := by
  intro hclaim
  let ko : KLEEOut :=
    { paths := none, queries := none, elapsed := none, cacheSize := none, queryStats := none,
      instructions := 1000, time := 5400, memory := 80 }
  have h := hclaim "out-klee-cat".toList "out-cache-cat".toList [] [] "cat".toList
    ⟨some [], some []⟩ ⟨some [], some []⟩ (.ok ⟨1000, 5400, 80⟩) (.ok ⟨1000, 5400, 80⟩) ko ko
    rfl rfl (by decide +kernel) (by decide +kernel)
  have hback : ¬ Backed [] [] ko ko := by
    rintro ⟨paths, hp, -⟩
    have hnone : firstNumber completedPathsMarker (readlines []) = none := by decide +kernel
    rw [hnone] at hp
    cases hp
  have hreport := h.2 hback
  revert hreport
  decide +kernel

end SmtCacheBenchmarks.KleeOut
