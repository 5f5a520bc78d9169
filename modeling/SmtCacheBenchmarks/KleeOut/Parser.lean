import SmtCacheBenchmarks.Library.Lines
import SmtCacheBenchmarks.Library.Occurrence
import SmtCacheBenchmarks.Text

/-!
# Reading a KLEE Output Directory

Model of `klee_out_parser.py`: the class `KLEEOut`, which reads the statistics of one
KLEE run out of the directory the run wrote.  Every statistic is found by an
unanchored search for a marker text, line by line.

The values of `klee-stats`, a program of KLEE, enter as the result of `parse_stats`.
-/

namespace SmtCacheBenchmarks.KleeOut

open SmtCacheBenchmarks.Library

/-! ## The pieces of Python the parser is built from -/

/-- The exceptions the parser can raise. -/
inductive PyError where
  /-- `raise Exception(message)` -/
  | exception (message : Text)
  /-- `open` of a file that does not exist -/
  | ioError (name : Text)
  /-- `int` of a text that is not a number -/
  | valueError (literal : Text)
  /-- a missing line or column in the output of `klee-stats` -/
  | indexError
  deriving Repr, DecidableEq

/-- The class `\w` of a byte pattern: letters, digits and the underscore. -/
def isWord (c : Char) : Bool := c.isAlphanum || c == '_'

/-- The class `[\w:]`. -/
def isWordOrColon (c : Char) : Bool := isWord c || c == ':'

/-- `re.search(literal + "(class*)", line)`: group 1 of the leftmost match, which is
the longest run of the class after the leftmost occurrence of the literal. -/
def searchGroup (literal : Text) (cls : Char → Bool) (line : Text) : Option Text :=
  (Occurrence.findAfter literal line).map fun rest => rest.takeWhile cls

/-- `int(w)` for a match `w` of `\w*`, in which neither signs nor blanks occur. -/
def int (w : Text) : Except PyError ℕ :=
  match ofDecimal w with
  | some n => .ok n
  | none => .error (.valueError w)

/-- `f.readlines()`. -/
def readlines (contents : Text) : List Text := Lines.splitLines '\n' contents

/-! ## The getters -/

/-- The loop of the numeric getters: the number after the marker in the first line
that has the marker. -/
def getInt (marker : Text) : List Text → Except PyError (Option ℕ)
  | [] => .ok none
  | line :: lines =>
      match searchGroup marker isWord line with
      | some w => (int w).map some
      | none => getInt marker lines

def completedPathsMarker : Text := "KLEE: done: completed paths = ".toList
def totalQueriesMarker : Text := "KLEE: done: total queries = ".toList
def elapsedMarker : Text := "Elapsed: ".toList
def totalCacheMarker : Text := "KLEE: - Total cache: ".toList
def queryCacheMarker : Text := "KLEE: Query cache size: ".toList
def allQueriesMarker : Text := "KLEE: - All queries: ".toList
def relevantQueriesMarker : Text := "KLEE: - Relevant queries: ".toList
def relevantAddressDependentQueriesMarker : Text :=
  "KLEE: - Relevant address dependent queries: ".toList
def unhandledQueriesMarker : Text := "KLEE: - Unhandled queries: ".toList

def getCompletedPaths : List Text → Except PyError (Option ℕ) := getInt completedPathsMarker

def getQueries : List Text → Except PyError (Option ℕ) := getInt totalQueriesMarker

def getAllQueries : List Text → Except PyError (Option ℕ) := getInt allQueriesMarker

def getRelevantQueries : List Text → Except PyError (Option ℕ) := getInt relevantQueriesMarker

def getRelevantAddressDependentQueries : List Text → Except PyError (Option ℕ) :=
  getInt relevantAddressDependentQueriesMarker

def getUnhandledQueries : List Text → Except PyError (Option ℕ) := getInt unhandledQueriesMarker

/-- The elapsed time is kept as text. -/
def getElapsedTime : List Text → Option Text
  | [] => none
  | line :: lines =>
      match searchGroup elapsedMarker isWordOrColon line with
      | some e => some e
      | none => getElapsedTime lines

/-- The second search of the loop body of `get_cache_size`. -/
def queryCacheOfLine (line : Text) : Except PyError (Option ℕ) :=
  match searchGroup queryCacheMarker isWord line with
  | some w => (int w).map some
  | none => .ok none

/-- The loop body of `get_cache_size`: the number to return, if the line ends the
loop.  A total of zero falls through to the second search. -/
def cacheSizeOfLine (line : Text) : Except PyError (Option ℕ) :=
  match searchGroup totalCacheMarker isWord line with
  | some w =>
      match int w with
      | .error e => .error e
      | .ok qs => if qs ≠ 0 then .ok (some qs) else queryCacheOfLine line
  | none => queryCacheOfLine line

def getCacheSize : List Text → Except PyError (Option ℕ)
  | [] => .ok none
  | line :: lines =>
      match cacheSizeOfLine line with
      | .error e => .error e
      | .ok (some n) => .ok (some n)
      | .ok none => getCacheSize lines

/-! ## The class -/

/-- The files of an output directory that the parser opens. -/
structure Dir where
  info : Option Text
  messages : Option Text

/-- What `parse_stats` reads off the table that `klee-stats` prints. -/
structure Stats where
  instructions : ℤ
  time : ℤ
  memory : ℤ
  deriving Repr, DecidableEq

/-- The attributes that only `parse_query_stats=True` sets. -/
structure QueryStats where
  allQueries : Option ℕ
  relevantQueries : Option ℕ
  relevantAddressDependentQueries : Option ℕ
  unhandledQueries : Option ℕ
  deriving Repr, DecidableEq

/-- What `parse_info` sets. -/
structure Info where
  paths : Option ℕ
  queries : Option ℕ
  elapsed : Option Text
  cacheSize : Option ℕ
  queryStats : Option QueryStats
  deriving Repr, DecidableEq

structure KLEEOut extends Info, Stats
  deriving Repr, DecidableEq

def openFile (name : Text) : Option Text → Except PyError Text
  | some contents => .ok contents
  | none => .error (.ioError name)

theorem openFile_eq_ok {name : Text} {file : Option Text} {contents : Text}
    (h : openFile name file = .ok contents) : file = some contents := by
  cases file with
  | none => simp [openFile] at h
  | some c => exact congrArg some (Except.ok.inj h)

def parseQueryStats (lines : List Text) : Except PyError QueryStats := do
  let allQueries ← getAllQueries lines
  let relevantQueries ← getRelevantQueries lines
  let relevantAddressDependentQueries ← getRelevantAddressDependentQueries lines
  let unhandledQueries ← getUnhandledQueries lines
  return { allQueries, relevantQueries, relevantAddressDependentQueries, unhandledQueries }

/-- The branch on `parse_query_stats`. -/
def optionalQueryStats (queryStats : Bool) (lines : List Text) :
    Except PyError (Option QueryStats) :=
  if queryStats then (parseQueryStats lines).map some else .ok none

def parseInfo (dir : Dir) (queryStats : Bool) : Except PyError Info := do
  let info ← openFile "info".toList dir.info
  let paths ← getCompletedPaths (readlines info)
  let queries ← getQueries (readlines info)
  let elapsed := getElapsedTime (readlines info)
  let messages ← openFile "messages.txt".toList dir.messages
  let cacheSize ← getCacheSize (readlines messages)
  let stats ← optionalQueryStats queryStats (readlines messages)
  return { paths, queries, elapsed, cacheSize, queryStats := stats }

/-- `KLEEOut(dir_path, parse_query_stats)`; `dir` is what is at the path, and `stats`
is what `parse_stats` makes of the output of `klee-stats`. -/
def KLEEOut.init (dirPath : Text) (dir : Option Dir) (stats : Except PyError Stats)
    (queryStats : Bool) : Except PyError KLEEOut :=
  match dir with
  | none => .error (.exception ("missing directory: ".toList ++ dirPath))
  | some dir => do
      let info ← parseInfo dir queryStats
      let stats ← stats
      return { toInfo := info, toStats := stats }

/-- `"{}".format(paths)`. -/
def formatOption : Option ℕ → Text
  | some n => decimal n
  | none => "None".toList

/-- The lines that the method `dump` prints. -/
def KLEEOut.dump (ko : KLEEOut) : List Text :=
  ["Time: ".toList ++ decimalInt ko.time,
    "Instructions: ".toList ++ decimalInt ko.instructions,
    "Paths: ".toList ++ formatOption ko.paths]

/-! ## What a line reports -/

/-- The number that a line reports after a marker: the decimal number after the
leftmost occurrence of the marker text. -/
def numberAfter (marker : Text) (line : Text) : Option ℕ :=
  (searchGroup marker isWord line).bind ofDecimal

/-- The first number that the lines report after a marker. -/
def firstNumber (marker : Text) (lines : List Text) : Option ℕ :=
  lines.findSome? (numberAfter marker)

/-- A line without the marker is passed over. -/
theorem searchGroup_eq_none_iff {literal : Text} {cls : Char → Bool} {line : Text} :
    searchGroup literal cls line = none ↔ ¬ literal <:+: line := by
  simp [searchGroup, Occurrence.findAfter_eq_none_iff]

theorem int_of_ofDecimal {w : Text} {n : ℕ} (h : ofDecimal w = some n) : int w = .ok n := by
  simp [int, h]

theorem bind_eq_ok {ε α β : Type} {x : Except ε α} {f : α → Except ε β} {b : β} :
    (x >>= f) = .ok b ↔ ∃ a, x = .ok a ∧ f a = .ok b := by
  cases x <;> simp [bind, Except.bind]

/-- **The getters**: what a numeric getter returns is the first number that the lines
report after its marker. -/
theorem getInt_eq_firstNumber {marker : Text} {lines : List Text} {v : Option ℕ}
    (h : getInt marker lines = .ok v) : v = firstNumber marker lines := by
  induction lines with
  | nil => simpa [getInt, firstNumber] using h.symm
  | cons line lines ih =>
      cases hs : searchGroup marker isWord line with
      | none =>
          have hnone : numberAfter marker line = none := by simp [numberAfter, hs]
          rw [getInt, hs] at h
          simpa [firstNumber, hnone] using ih h
      | some w =>
          rw [getInt, hs] at h
          cases hw : ofDecimal w with
          | none => simp [int, hw, Except.map] at h
          | some n =>
              have hn : numberAfter marker line = some n := by simp [numberAfter, hs, hw]
              have hv : v = some n := by simpa [int, hw, Except.map] using h.symm
              simp [firstNumber, hn, hv]

/-- The files of a directory that was read, and the value of each attribute. -/
theorem parseInfo_eq_ok {dir : Dir} {queryStats : Bool} {i : Info}
    (h : parseInfo dir queryStats = .ok i) :
    ∃ info messages, dir.info = some info ∧ dir.messages = some messages ∧
      getCompletedPaths (readlines info) = .ok i.paths ∧
      getQueries (readlines info) = .ok i.queries ∧
      getElapsedTime (readlines info) = i.elapsed ∧
      getCacheSize (readlines messages) = .ok i.cacheSize := by
  obtain ⟨info, hinfo, h⟩ := bind_eq_ok.mp h
  obtain ⟨paths, hpaths, h⟩ := bind_eq_ok.mp h
  obtain ⟨queries, hqueries, h⟩ := bind_eq_ok.mp h
  obtain ⟨messages, hmessages, h⟩ := bind_eq_ok.mp h
  obtain ⟨cacheSize, hcacheSize, h⟩ := bind_eq_ok.mp h
  obtain ⟨stats, -, h⟩ := bind_eq_ok.mp h
  have hi : i = { paths, queries, elapsed := getElapsedTime (readlines info), cacheSize,
                  queryStats := stats } := (Except.ok.inj h).symm
  subst hi
  exact ⟨info, messages, openFile_eq_ok hinfo, openFile_eq_ok hmessages, hpaths, hqueries, rfl,
    hcacheSize⟩

/-- A constructed `KLEEOut` has the attributes that `parse_info` and `parse_stats` set. -/
theorem KLEEOut.init_eq_ok {dirPath : Text} {dir : Option Dir}
    {stats : Except PyError Stats} {queryStats : Bool} {ko : KLEEOut}
    (h : KLEEOut.init dirPath dir stats queryStats = .ok ko) :
    ∃ d, dir = some d ∧ parseInfo d queryStats = .ok ko.toInfo ∧ stats = .ok ko.toStats := by
  cases dir with
  | none => simp [KLEEOut.init] at h
  | some d =>
      obtain ⟨info, hinfo, h⟩ := bind_eq_ok.mp h
      obtain ⟨s, hs, h⟩ := bind_eq_ok.mp h
      have hko : ko = { toInfo := info, toStats := s } := (Except.ok.inj h).symm
      subst hko
      exact ⟨d, rfl, hinfo, hs⟩

/-- The paths of a constructed `KLEEOut` are the first number of completed paths that
its info file reports. -/
theorem KLEEOut.paths_of_init {dirPath : Text} {dir : Dir} {info : Text}
    {stats : Except PyError Stats} {queryStats : Bool} {ko : KLEEOut}
    (hinfo : dir.info = some info)
    (h : KLEEOut.init dirPath (some dir) stats queryStats = .ok ko) :
    ko.paths = firstNumber completedPathsMarker (readlines info) := by
  obtain ⟨d, hd, hparse, -⟩ := KLEEOut.init_eq_ok h
  obtain ⟨info', _, hinfo', -, hpaths, -⟩ := parseInfo_eq_ok hparse
  have heq : info' = info := by
    rw [← Option.some.inj hd, hinfo] at hinfo'
    exact (Option.some.inj hinfo').symm
  rw [heq] at hpaths
  exact getInt_eq_firstNumber hpaths

end SmtCacheBenchmarks.KleeOut
