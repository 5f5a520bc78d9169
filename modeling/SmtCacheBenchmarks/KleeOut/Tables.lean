import SmtCacheBenchmarks.KleeOut.CacheSize
import SmtCacheBenchmarks.KleeOut.Statistics

/-!
# The Tables of the Evaluation

Model of the scripts that print the tables: `check_time.py`, `check_queries.py`,
`check_cache_size.py` and `check_memory_usage.py`, which show one attribute of the two runs
of each program, and `check_stats.py`, which shows the query statistics of one run.

A script prints as it goes and stops at the first exception.  On the directories of
finished runs no exception is raised, and the table shows what the runs have recorded.
-/

namespace SmtCacheBenchmarks.KleeOut

open SmtCacheBenchmarks.Library

/-! ## Directories -/

/-- An output directory: its files, and what `parse_stats` makes of the output of
`klee-stats` for it. -/
structure Results where
  dir : Dir
  stats : Except PyError Stats

/-- The directories on the disk, by their paths. -/
abbrev Disk := Text → Option Results

/-- `KLEEOut(dir_path, parse_query_stats)`. -/
def Disk.kleeOut (disk : Disk) (dirPath : Text) (queryStats : Bool) : Except PyError KLEEOut :=
  KLEEOut.init dirPath ((disk dirPath).map Results.dir)
    ((disk dirPath).elim (.error .indexError) Results.stats) queryStats

/-- `os.path.join(a, b)`. -/
def osPathJoin (a b : Text) : Text :=
  if b.head? = some '/' then b
  else if a = [] ∨ a.getLast? = some '/' then a ++ b
  else a ++ '/' :: b

/-- `PROGRAMS`. -/
def programNames : List Text :=
  ["m4".toList, "make".toList, "sqlite".toList, "apr".toList, "libxml2".toList, "expat".toList,
    "bash".toList, "json".toList]

/-! ## Printing -/

/-- The exceptions that end a script. -/
inductive DumpError where
  /-- raised by `KLEEOut` -/
  | klee (e : PyError)
  /-- `assert(False)` -/
  | assertionError
  /-- an attribute that `parse_info` has not set -/
  | attributeError
  /-- a difference with `None` -/
  | typeError
deriving Repr, DecidableEq

/-- What a script has printed, and the exception that has ended it, if one has. -/
structure Output where
  lines : List Text
  error : Option DumpError
deriving Repr, DecidableEq

/-- The output of one statement and then of what follows it. -/
def Output.andThen (o o' : Output) : Output :=
  match o.error with
  | some e => ⟨o.lines, some e⟩
  | none => ⟨o.lines ++ o'.lines, o'.error⟩

/-- `for p in PROGRAMS`. -/
def forPrograms (body : Text → Output) : List Text → Output
  | [] => ⟨[], none⟩
  | p :: ps => (body p).andThen (forPrograms body ps)

/-- `"{}".format(elapsed)`. -/
def formatText : Option Text → Text
  | some t => t
  | none => "None".toList

/-! ## Tables of pairs -/

/-- The three lines of a program; `v` and `w` are the attributes of its two runs. -/
def pairLines (p v w : Text) : List Text :=
  [p ++ ":".toList, "- klee: ".toList ++ v, "- cache: ".toList ++ w]

/-- The body of the loop of `dump`, for the attribute `format`. -/
def dumpPair (format : KLEEOut → Text) (disk : Disk) (rootDir p : Text) : Output :=
  let kleeOutDir := osPathJoin rootDir p ++ "/out-klee".toList
  let cacheOutDir := osPathJoin rootDir p ++ "/out-cache".toList
  if (disk kleeOutDir).isSome && (disk cacheOutDir).isSome then
    match disk.kleeOut kleeOutDir false with
    | .error e => ⟨[], some (.klee e)⟩
    | .ok kleeKo =>
        match disk.kleeOut cacheOutDir false with
        | .error e => ⟨[], some (.klee e)⟩
        | .ok cacheKo => ⟨pairLines p (format kleeKo) (format cacheKo), none⟩
  else ⟨[], some .assertionError⟩

/-- `dump(root_dir)` of the scripts for pairs. -/
def dumpPairs (format : KLEEOut → Text) (disk : Disk) (rootDir : Text) : Output :=
  forPrograms (dumpPair format disk rootDir) programNames

/-- `check_time.py`. -/
def checkTime : Disk → Text → Output := dumpPairs fun ko => formatText ko.elapsed

/-- `check_queries.py`. -/
def checkQueries : Disk → Text → Output := dumpPairs fun ko => formatOption ko.queries

/-- `check_cache_size.py`. -/
def checkCacheSize : Disk → Text → Output := dumpPairs fun ko => formatOption ko.cacheSize

/-- `check_memory_usage.py`. -/
def checkMemoryUsage : Disk → Text → Output := dumpPairs fun ko => decimalInt ko.memory

/-! ## The table of query statistics -/

/-- The second line of a program. -/
def statsLine (total c1 c2 : Option ℕ) (c3 : ℤ) : Text :=
  "- Total: ".toList ++ formatOption total ++ " C1: ".toList ++ formatOption c1 ++
    " C2: ".toList ++ formatOption c2 ++ " C3: ".toList ++ decimalInt c3

/-- The second `print` of the loop body, of which the arguments come first. -/
def printStats (ko : KLEEOut) : Output :=
  match ko.queryStats with
  | none => ⟨[], some .attributeError⟩
  | some qs =>
      match qs.relevantAddressDependentQueries, qs.unhandledQueries with
      | some d, some u =>
          ⟨[statsLine qs.allQueries qs.relevantQueries (some d) (d - u)], none⟩
      | _, _ => ⟨[], some .typeError⟩

/-- The body of the loop of `dump` in `check_stats.py`. -/
def dumpStatsOf (disk : Disk) (rootDir p : Text) : Output :=
  let kleeOutDir := osPathJoin rootDir p ++ "/out-fmm".toList
  if (disk kleeOutDir).isSome then
    match disk.kleeOut kleeOutDir true with
    | .error e => ⟨[], some (.klee e)⟩
    | .ok kleeKo => Output.andThen ⟨[p], none⟩ (printStats kleeKo)
  else ⟨[], some .assertionError⟩

/-- `check_stats.py`. -/
def checkStats (disk : Disk) (rootDir : Text) : Output :=
  forPrograms (dumpStatsOf disk rootDir) programNames

/-! ## Loops -/

/-- Without an exception, the loop prints what its rounds print. -/
theorem forPrograms_map_of_ok {α : Type} {body : Text → Output} {name : α → Text}
    {rows : α → List Text} (h : ∀ p, body (name p) = ⟨rows p, none⟩) (ps : List α) :
    forPrograms body (ps.map name) = ⟨ps.flatMap rows, none⟩ := by
  induction ps with
  | nil => rfl
  | cons p ps ih =>
      rw [List.map_cons, forPrograms, ih, h p]
      rfl

/-- An exception ends the loop. -/
theorem forPrograms_of_first {body : Text → Output} {p : Text} {ps ls : List Text}
    {e : DumpError} (h : body p = ⟨ls, some e⟩) : forPrograms body (p :: ps) = ⟨ls, some e⟩ := by
  rw [forPrograms, h]
  rfl

/-- Without the baseline directory, the assertion fails. -/
theorem dumpPair_of_missing {format : KLEEOut → Text} {disk : Disk} {rootDir p : Text}
    (h : disk (osPathJoin rootDir p ++ "/out-klee".toList) = none) :
    dumpPair format disk rootDir p = ⟨[], some .assertionError⟩ := by
  simp only [dumpPair, h, Option.isSome_none, Bool.false_and, Bool.false_eq_true, if_false]

theorem dumpStatsOf_of_missing {disk : Disk} {rootDir p : Text}
    (h : disk (osPathJoin rootDir p ++ "/out-fmm".toList) = none) :
    dumpStatsOf disk rootDir p = ⟨[], some .assertionError⟩ := by
  simp only [dumpStatsOf, h, Option.isSome_none, Bool.false_eq_true, if_false]

/-! ## Finished runs -/

/-- What a finished run has recorded. -/
structure Measurement where
  paths : ℕ
  queries : ℕ
  elapsed : Text
  cacheSize : Option ℕ
  stats : Stats

/-- The attributes of a `KLEEOut` for a measurement. -/
def Measurement.kleeOut (m : Measurement) (qs : Option QueryStats) : KLEEOut :=
  { paths := some m.paths, queries := some m.queries, elapsed := some m.elapsed,
    cacheSize := m.cacheSize, queryStats := qs, toStats := m.stats }

/-- The cache size that a log reports: the first nonzero total, or else the first query cache
size.  No other query cache size stands before the first nonzero total, which the loop of
`get_cache_size` would return instead. -/
structure RecordsCacheSize (lines : List Text) (size : Option ℕ) : Prop where
  reports : ∀ line ∈ lines, CacheReportLine line
  preferred : size = FirstHit.preferred nonzeroTotal queryCacheSize lines
  first : ∀ total size', lines.findSome? nonzeroTotal = some total →
    (FirstHit.before nonzeroTotal lines).findSome? queryCacheSize = some size' → size' = total

/-- The output directory of a finished run: the info file is a log of the measurement,
messages.txt reports the cache size, and `klee-stats` succeeds. -/
structure Records (res : Results) (m : Measurement) : Prop where
  elapsed : ∀ c ∈ m.elapsed, c.isDigit = true ∨ c = ':'
  info : ∃ info, res.dir.info = some info ∧ IsLog (infoReports m.paths m.queries m.elapsed) info
  messages : ∃ messages, res.dir.messages = some messages ∧
    RecordsCacheSize (readlines messages) m.cacheSize
  stats : res.stats = .ok m.stats

/-- The numbers of the query statistics. -/
structure Counts where
  all : ℕ
  relevant : ℕ
  addressDependent : ℕ
  unhandled : ℕ

/-- What `parse_query_stats` makes of them. -/
def Counts.queryStats (n : Counts) : QueryStats :=
  { allQueries := some n.all, relevantQueries := some n.relevant,
    relevantAddressDependentQueries := some n.addressDependent,
    unhandledQueries := some n.unhandled }

/-- messages.txt is a log of the query statistics. -/
def RecordsCounts (res : Results) (n : Counts) : Prop :=
  ∃ messages, res.dir.messages = some messages ∧
    IsLog (queryStatsReports n.all n.relevant n.addressDependent n.unhandled) messages

section Reports

variable {p q a r d u : ℕ} {e : Text}

theorem wellFormed_infoReports (he : ∀ c ∈ e, c.isDigit = true ∨ c = ':') :
    ∀ x ∈ infoReports p q e, x.WellFormed := by
  intro x hx
  have hmarkers : ∀ m ∈ infoMarkers, m ∈ infoMarkers ++ queryStatsMarkers :=
    fun _ hm => List.mem_append_left _ hm
  have hcases : x = .number completedPathsMarker p ∨ x = .number totalQueriesMarker q ∨
      x = ⟨elapsedMarker, e⟩ := by simpa [infoReports] using hx
  rcases hcases with rfl | rfl | rfl
  · exact Report.wellFormed_number p (hmarkers _ (by simp [infoMarkers]))
  · exact Report.wellFormed_number q (hmarkers _ (by simp [infoMarkers]))
  · exact ⟨hmarkers _ (by simp [infoMarkers]), he⟩

theorem wellFormed_queryStatsReports : ∀ x ∈ queryStatsReports a r d u, x.WellFormed := by
  intro x hx
  have hmarkers : ∀ m ∈ queryStatsMarkers, m ∈ infoMarkers ++ queryStatsMarkers :=
    fun _ hm => List.mem_append_right _ hm
  have hcases : ∃ m ∈ queryStatsMarkers, ∃ n, x = .number m n := by
    simp only [queryStatsReports, List.mem_cons, List.not_mem_nil, or_false] at hx
    rcases hx with rfl | rfl | rfl | rfl
    all_goals exact ⟨_, by simp [queryStatsMarkers], _, rfl⟩
  obtain ⟨m, hm, n, rfl⟩ := hcases
  exact Report.wellFormed_number n (hmarkers m hm)

theorem nodup_infoReports : ((infoReports p q e).map Report.marker).Nodup := by
  show infoMarkers.Nodup
  decide +kernel

theorem nodup_queryStatsReports : ((queryStatsReports a r d u).map Report.marker).Nodup := by
  show queryStatsMarkers.Nodup
  decide +kernel

end Reports

/-- The query statistics are read back from the log. -/
theorem RecordsCounts.parseQueryStats {res : Results} {n : Counts} {messages : Text}
    (h : RecordsCounts res n) (hmessages : res.dir.messages = some messages) :
    KleeOut.parseQueryStats (readlines messages) = .ok n.queryStats := by
  obtain ⟨messages', hmessages', hlog⟩ := h
  obtain rfl : messages' = messages := Option.some.inj (hmessages'.symm.trans hmessages)
  have hget : ∀ {marker : Text} {k : ℕ}, Report.number marker k ∈
      queryStatsReports n.all n.relevant n.addressDependent n.unhandled →
      getInt marker (readlines messages') = .ok (some k) :=
    fun hr => hlog.getInt_eq wellFormed_queryStatsReports nodup_queryStatsReports hr
  rw [KleeOut.parseQueryStats, getAllQueries, getRelevantQueries,
    getRelevantAddressDependentQueries, getUnhandledQueries,
    hget (k := n.all) (by simp [queryStatsReports]),
    hget (k := n.relevant) (by simp [queryStatsReports]),
    hget (k := n.addressDependent) (by simp [queryStatsReports]),
    hget (k := n.unhandled) (by simp [queryStatsReports])]
  rfl

/-- The directory of a finished run is read without an exception, and every attribute is
what the run has recorded. -/
theorem Records.kleeOut {disk : Disk} {dirPath : Text} {res : Results} {m : Measurement}
    {queryStats : Bool} {qs : Option QueryStats} (h : Records res m)
    (hdisk : disk dirPath = some res)
    (hqs : ∀ messages, res.dir.messages = some messages →
      optionalQueryStats queryStats (readlines messages) = .ok qs) :
    disk.kleeOut dirPath queryStats = .ok (m.kleeOut qs) := by
  obtain ⟨info, hinfo, hlog⟩ := h.info
  obtain ⟨messages, hmessages, hsize⟩ := h.messages
  have hwf := wellFormed_infoReports (p := m.paths) (q := m.queries) h.elapsed
  -- what the getters return
  have hpaths : getCompletedPaths (readlines info) = .ok (some m.paths) :=
    hlog.getInt_eq hwf nodup_infoReports (by simp [infoReports])
  have hqueries : getQueries (readlines info) = .ok (some m.queries) :=
    hlog.getInt_eq hwf nodup_infoReports (by simp [infoReports])
  have helapsed : getElapsedTime (readlines info) = some m.elapsed :=
    hlog.getElapsedTime_eq hwf nodup_infoReports (by simp [infoReports])
  have hcache : getCacheSize (readlines messages) = .ok m.cacheSize := by
    rw [hsize.preferred]
    exact (getCacheSize_eq_preferred_iff hsize.reports).mpr hsize.first
  rw [Disk.kleeOut, hdisk, Option.map_some, Option.elim_some, h.stats, KLEEOut.init,
    parseInfo, hinfo, hmessages]
  simp only [openFile, hpaths, hqueries, helapsed, hcache, hqs messages hmessages, bind,
    Except.bind, pure, Except.pure]
  rfl

/-- The table row of two finished runs. -/
theorem dumpPair_of_records {format : KLEEOut → Text} {disk : Disk} {rootDir p : Text}
    {res₁ res₂ : Results} {m₁ m₂ : Measurement}
    (hdisk₁ : disk (osPathJoin rootDir p ++ "/out-klee".toList) = some res₁)
    (hdisk₂ : disk (osPathJoin rootDir p ++ "/out-cache".toList) = some res₂)
    (h₁ : Records res₁ m₁) (h₂ : Records res₂ m₂) :
    dumpPair format disk rootDir p =
      ⟨pairLines p (format (m₁.kleeOut none)) (format (m₂.kleeOut none)), none⟩ := by
  have hko₁ : disk.kleeOut _ false = .ok (m₁.kleeOut none) := h₁.kleeOut hdisk₁ fun _ _ => rfl
  have hko₂ : disk.kleeOut _ false = .ok (m₂.kleeOut none) := h₂.kleeOut hdisk₂ fun _ _ => rfl
  simp only [dumpPair, hdisk₁, hdisk₂, hko₁, hko₂, Option.isSome_some, Bool.and_self, if_true]

/-- The directory can be read: `KLEEOut` raises no exception on it, whatever its path is. -/
def Readable (res : Results) : Prop :=
  ∃ ko, KLEEOut.init [] (some res.dir) res.stats false = .ok ko

/-- With the query statistics nothing else is read differently. -/
theorem Readable.kleeOut {disk : Disk} {dirPath : Text} {res : Results} {n : Counts}
    (h : Readable res) (hdisk : disk dirPath = some res) (hn : RecordsCounts res n) :
    ∃ ko, disk.kleeOut dirPath true = .ok ko ∧ ko.queryStats = some n.queryStats := by
  obtain ⟨ko, hko⟩ := h
  obtain ⟨dir, hdir, hparse, hstats⟩ := KLEEOut.init_eq_ok hko
  obtain rfl := Option.some.inj hdir
  obtain ⟨info, messages, hinfo, hmessages, hpaths, hqueries, -, hcache⟩ := parseInfo_eq_ok hparse
  have hqs : optionalQueryStats true (readlines messages) = .ok (some n.queryStats) := by
    rw [optionalQueryStats, if_pos rfl, hn.parseQueryStats hmessages]
    rfl
  refine ⟨{ ko with elapsed := getElapsedTime (readlines info), queryStats := some n.queryStats },
    ?_, rfl⟩
  rw [Disk.kleeOut, hdisk, Option.map_some, Option.elim_some, hstats, KLEEOut.init, parseInfo,
    hinfo, hmessages]
  simp only [openFile, hpaths, hqueries, hcache, hqs, bind, Except.bind, pure, Except.pure]

/-- The two lines of a run that has recorded its query statistics. -/
theorem dumpStatsOf_of_records {disk : Disk} {rootDir p : Text} {res : Results} {n : Counts}
    (hdisk : disk (osPathJoin rootDir p ++ "/out-fmm".toList) = some res)
    (h : Readable res) (hn : RecordsCounts res n) :
    dumpStatsOf disk rootDir p =
      ⟨[p, statsLine (some n.all) (some n.relevant) (some n.addressDependent)
        (n.addressDependent - n.unhandled)], none⟩ := by
  obtain ⟨ko, hko, hqs⟩ := h.kleeOut hdisk hn
  simp only [dumpStatsOf, hdisk, hko, printStats, hqs, Option.isSome_some, if_true]
  rfl

end SmtCacheBenchmarks.KleeOut
