import Mathlib.Data.List.Nodup
import SmtCacheBenchmarks.KleeOut.Parser

/-!
# The Statistics Survive the Log

The getters of `KLEEOut` search seven marker texts that share long prefixes and
suffixes, in logs whose lines come in any order.  This module shows that no line of
one statistic is ever read as another's: a log that reports a set of statistics gives
exactly these statistics back.

The argument is about pairs of markers.  Laid over a report line of another marker, a
marker cannot begin inside that other marker (`Occurrence.clashes`, a finite check),
and it cannot begin in the value, which has no blanks.
-/

namespace SmtCacheBenchmarks.KleeOut

open SmtCacheBenchmarks.Library

/-! ## Logs -/

/-- One reported statistic: its marker text and its value. -/
structure Report where
  marker : Text
  value : Text

/-- The line that reports a statistic. -/
def Report.line (r : Report) : Text := r.marker ++ (r.value ++ ['\n'])

/-- The contents of a log that reports the given statistics, each on a line of its own,
among other lines without their markers, all in any order. -/
def IsLog (reports : List Report) (contents : Text) : Prop :=
  ∃ lines others : List Text,
    contents = lines.flatten ∧
    lines.Perm (reports.map Report.line ++ others) ∧
    ∀ l ∈ others, Lines.IsLine '\n' l ∧ ∀ r ∈ reports, ¬ r.marker <:+: l

/-- The markers of the info file. -/
def infoMarkers : List Text := [completedPathsMarker, totalQueriesMarker, elapsedMarker]

/-- The markers of the query statistics in messages.txt. -/
def queryStatsMarkers : List Text :=
  [allQueriesMarker, relevantQueriesMarker, relevantAddressDependentQueriesMarker,
    unhandledQueriesMarker]

/-- The values are numbers or times: digits and colons. -/
def Report.WellFormed (r : Report) : Prop :=
  r.marker ∈ infoMarkers ++ queryStatsMarkers ∧
    ∀ c ∈ r.value, c.isDigit = true ∨ c = ':'

/-! ## One marker is not read as another -/

/-- No marker begins inside another one, whatever follows it. -/
theorem clashes_of_ne :
    ∀ m ∈ infoMarkers ++ queryStatsMarkers, ∀ m' ∈ infoMarkers ++ queryStatsMarkers,
      m ≠ m' → Occurrence.clashes m m' = true := by
  decide +kernel

private theorem blank_mem_marker :
    ∀ m ∈ infoMarkers ++ queryStatsMarkers, ' ' ∈ m ∧ '\n' ∉ m := by
  decide +kernel

private theorem not_mem_value {r : Report} (hr : r.WellFormed) {c : Char}
    (hc : c.isDigit = false) (hcolon : c ≠ ':') : c ∉ r.value := by
  intro hmem
  rcases hr.2 c hmem with h | h
  · simp [h] at hc
  · exact hcolon h

/-- A report line does not have the marker of another statistic. -/
theorem Report.not_infix_line {m : Text} {r : Report}
    (hm : m ∈ infoMarkers ++ queryStatsMarkers) (hr : r.WellFormed) (hne : m ≠ r.marker) :
    ¬ m <:+: r.line := by
  have hclash : Occurrence.clashes m r.marker = true := clashes_of_ne m hm _ hr.1 hne
  refine Occurrence.not_infix_append_of_clashes hclash ?_
  -- every marker has a blank, a value and a newline have none
  refine Occurrence.not_infix_of_not_mem (blank_mem_marker m hm).1 ?_
  simp [not_mem_value hr (c := ' ') (by decide) (by decide)]

/-- A report line is a line. -/
theorem Report.isLine_line {r : Report} (hr : r.WellFormed) : Lines.IsLine '\n' r.line := by
  refine ⟨r.marker ++ r.value, ?_, by simp [Report.line]⟩
  have hmarker := (blank_mem_marker _ hr.1).2
  have hvalue := not_mem_value hr (c := '\n') (by decide) (by decide)
  simp [hmarker, hvalue]

/-- The search for its own marker gives the value of a report line, for every class
that contains the value but not the newline. -/
theorem Report.searchGroup_line {r : Report} {cls : Char → Bool}
    (hcls : ∀ c ∈ r.value, cls c = true) (hnl : cls '\n' = false) :
    searchGroup r.marker cls r.line = some r.value := by
  simp [searchGroup, Report.line, List.takeWhile_append_of_pos hcls, hnl]

/-! ## Reading a log -/

section Log

variable {reports : List Report} {contents : Text}

/-- The lines of a log are report lines or lines without the markers. -/
theorem IsLog.readlines_eq (hreports : ∀ r ∈ reports, r.WellFormed)
    (h : IsLog reports contents) :
    ∃ others, (readlines contents).Perm (reports.map Report.line ++ others) ∧
      ∀ l ∈ others, ∀ r ∈ reports, ¬ r.marker <:+: l := by
  obtain ⟨lines, others, rfl, hperm, hothers⟩ := h
  have hlines : ∀ l ∈ lines, Lines.IsLine '\n' l := by
    intro l hl
    rcases List.mem_append.mp (hperm.mem_iff.mp hl) with hmem | hmem
    · obtain ⟨r, hr, rfl⟩ := List.mem_map.mp hmem
      exact Report.isLine_line (hreports r hr)
    · exact (hothers l hmem).1
  refine ⟨others, ?_, fun l hl => (hothers l hl).2⟩
  rwa [readlines, Lines.splitLines_flatten hlines]

/-- **In a log, a marker leads to its own report line only.** -/
theorem IsLog.eq_line_or_not_infix (hreports : ∀ r ∈ reports, r.WellFormed)
    (hmarkers : (reports.map Report.marker).Nodup)
    (h : IsLog reports contents) {r : Report} (hr : r ∈ reports) :
    r.line ∈ readlines contents ∧
      ∀ l ∈ readlines contents, l = r.line ∨ ¬ r.marker <:+: l := by
  obtain ⟨others, hperm, hothers⟩ := h.readlines_eq hreports
  have hline : r.line ∈ reports.map Report.line := List.mem_map_of_mem hr
  refine ⟨hperm.mem_iff.mpr (List.mem_append_left _ hline), fun l hl => ?_⟩
  rcases List.mem_append.mp (hperm.mem_iff.mp hl) with hmem | hmem
  · obtain ⟨r', hr', rfl⟩ := List.mem_map.mp hmem
    by_cases heq : r = r'
    · exact Or.inl (congrArg Report.line heq.symm)
    · have hne : r.marker ≠ r'.marker := fun hm =>
        heq (List.inj_on_of_nodup_map hmarkers hr hr' hm)
      exact Or.inr (Report.not_infix_line (hreports r hr).1 (hreports r' hr') hne)
  · exact Or.inr (hothers l hmem r hr)

end Log

/-- A numeric getter that finds its marker in one line only returns the number there. -/
theorem getInt_eq_of_unique {marker line : Text} {n : ℕ} {lines : List Text}
    (hmem : line ∈ lines) (hvalue : searchGroup marker isWord line = some (decimal n))
    (hunique : ∀ l ∈ lines, l = line ∨ ¬ marker <:+: l) :
    getInt marker lines = .ok (some n) := by
  induction lines with
  | nil => simp at hmem
  | cons l lines ih =>
      by_cases hl : l = line
      · subst hl
        simp [getInt, hvalue, int_of_ofDecimal (ofDecimal_decimal n), Except.map]
      · have hmem' : line ∈ lines := (List.mem_cons.mp hmem).resolve_left (Ne.symm hl)
        have hnone : searchGroup marker isWord l = none :=
          searchGroup_eq_none_iff.mpr ((hunique l (List.mem_cons_self ..)).resolve_left hl)
        rw [getInt, hnone]
        exact ih hmem' fun l' hl' => hunique l' (List.mem_cons_of_mem _ hl')

/-- The same for the elapsed time. -/
theorem getElapsedTime_eq_of_unique {line e : Text} {lines : List Text}
    (hmem : line ∈ lines) (hvalue : searchGroup elapsedMarker isWordOrColon line = some e)
    (hunique : ∀ l ∈ lines, l = line ∨ ¬ elapsedMarker <:+: l) :
    getElapsedTime lines = some e := by
  induction lines with
  | nil => simp at hmem
  | cons l lines ih =>
      by_cases hl : l = line
      · subst hl
        simp [getElapsedTime, hvalue]
      · have hmem' : line ∈ lines := (List.mem_cons.mp hmem).resolve_left (Ne.symm hl)
        have hnone : searchGroup elapsedMarker isWordOrColon l = none :=
          searchGroup_eq_none_iff.mpr ((hunique l (List.mem_cons_self ..)).resolve_left hl)
        rw [getElapsedTime, hnone]
        exact ih hmem' fun l' hl' => hunique l' (List.mem_cons_of_mem _ hl')

/-- A report of a number. -/
def Report.number (marker : Text) (n : ℕ) : Report := ⟨marker, decimal n⟩

theorem isWord_of_isDigit {c : Char} (h : c.isDigit = true) : isWord c = true := by
  simp [isWord, Char.isAlphanum, h]

/-- **A numeric getter reads back the number that a log reports.** -/
theorem IsLog.getInt_eq {reports : List Report} {contents marker : Text} {n : ℕ}
    (hreports : ∀ r ∈ reports, r.WellFormed)
    (hmarkers : (reports.map Report.marker).Nodup)
    (h : IsLog reports contents) (hr : Report.number marker n ∈ reports) :
    getInt marker (readlines contents) = .ok (some n) := by
  obtain ⟨hmem, hunique⟩ := h.eq_line_or_not_infix hreports hmarkers hr
  have hword : ∀ c ∈ (Report.number marker n).value, isWord c = true :=
    fun c hc => isWord_of_isDigit (isDigit_of_mem_decimal hc)
  have hvalue : searchGroup marker isWord (Report.number marker n).line = some (decimal n) :=
    Report.searchGroup_line hword (by decide)
  exact getInt_eq_of_unique hmem hvalue hunique

/-- The elapsed time is read back, too. -/
theorem IsLog.getElapsedTime_eq {reports : List Report} {contents e : Text}
    (hreports : ∀ r ∈ reports, r.WellFormed)
    (hmarkers : (reports.map Report.marker).Nodup)
    (h : IsLog reports contents) (hr : ⟨elapsedMarker, e⟩ ∈ reports) :
    getElapsedTime (readlines contents) = some e := by
  obtain ⟨hmem, hunique⟩ := h.eq_line_or_not_infix hreports hmarkers hr
  have hclass : ∀ c ∈ (Report.mk elapsedMarker e).value, isWordOrColon c = true := by
    intro c hc
    rcases (hreports _ hr).2 c hc with hd | rfl
    · simp [isWordOrColon, isWord_of_isDigit hd]
    · decide
  have hvalue : searchGroup elapsedMarker isWordOrColon (Report.mk elapsedMarker e).line = some e :=
    Report.searchGroup_line hclass (by decide)
  exact getElapsedTime_eq_of_unique hmem hvalue hunique

theorem Report.wellFormed_number {marker : Text} (n : ℕ)
    (hm : marker ∈ infoMarkers ++ queryStatsMarkers) : (Report.number marker n).WellFormed :=
  ⟨hm, fun _ hc => Or.inl (isDigit_of_mem_decimal hc)⟩

/-- The reports of the info file. -/
def infoReports (p q : ℕ) (e : Text) : List Report :=
  [.number completedPathsMarker p, .number totalQueriesMarker q, ⟨elapsedMarker, e⟩]

/-- The reports of the query statistics in messages.txt. -/
def queryStatsReports (a r d u : ℕ) : List Report :=
  [.number allQueriesMarker a, .number relevantQueriesMarker r,
    .number relevantAddressDependentQueriesMarker d, .number unhandledQueriesMarker u]

/-- **Reading a log gives back the statistics written in it**, in whatever order the
lines come and whatever other lines there are. -/
theorem statistics_roundtrip (p q a r d u : ℕ) {e info messages : Text}
    (he : ∀ c ∈ e, c.isDigit = true ∨ c = ':')
    (hinfo : IsLog (infoReports p q e) info)
    (hmessages : IsLog (queryStatsReports a r d u) messages) :
    getCompletedPaths (readlines info) = .ok (some p) ∧
    getQueries (readlines info) = .ok (some q) ∧
    getElapsedTime (readlines info) = some e ∧
    getAllQueries (readlines messages) = .ok (some a) ∧
    getRelevantQueries (readlines messages) = .ok (some r) ∧
    getRelevantAddressDependentQueries (readlines messages) = .ok (some d) ∧
    getUnhandledQueries (readlines messages) = .ok (some u) := by
  have hwf : ∀ x ∈ infoReports p q e, x.WellFormed := by
    intro x hx
    simp only [infoReports, List.mem_cons, List.not_mem_nil, or_false] at hx
    rcases hx with rfl | rfl | rfl
    · exact Report.wellFormed_number p (by decide +kernel)
    · exact Report.wellFormed_number q (by decide +kernel)
    · have hm : elapsedMarker ∈ infoMarkers ++ queryStatsMarkers := by decide +kernel
      exact ⟨hm, he⟩
  have hwf' : ∀ x ∈ queryStatsReports a r d u, x.WellFormed := by
    intro x hx
    simp only [queryStatsReports, List.mem_cons, List.not_mem_nil, or_false] at hx
    rcases hx with rfl | rfl | rfl | rfl
    all_goals exact Report.wellFormed_number _ (by decide +kernel)
  have hmarkers : ((infoReports p q e).map Report.marker).Nodup := by
    show infoMarkers.Nodup
    decide +kernel
  have hmarkers' : ((queryStatsReports a r d u).map Report.marker).Nodup := by
    show queryStatsMarkers.Nodup
    decide +kernel
  exact ⟨hinfo.getInt_eq hwf hmarkers (by simp [infoReports]),
    hinfo.getInt_eq hwf hmarkers (by simp [infoReports]),
    hinfo.getElapsedTime_eq hwf hmarkers (by simp [infoReports]),
    hmessages.getInt_eq hwf' hmarkers' (by simp [queryStatsReports]),
    hmessages.getInt_eq hwf' hmarkers' (by simp [queryStatsReports]),
    hmessages.getInt_eq hwf' hmarkers' (by simp [queryStatsReports]),
    hmessages.getInt_eq hwf' hmarkers' (by simp [queryStatsReports])⟩

/-- A log with a progress line and with the reports in another order. -/
theorem statistics_roundtrip_sample :
    getCompletedPaths (readlines
      "Elapsed: 01:05\nKLEE: done: total queries = 34\nusing cex cache\nKLEE: done: completed paths = 120\n".toList)
      = .ok (some 120) := by
  have hinfo : IsLog (infoReports 120 34 "01:05".toList)
      "Elapsed: 01:05\nKLEE: done: total queries = 34\nusing cex cache\nKLEE: done: completed paths = 120\n".toList := by
    refine ⟨["Elapsed: 01:05\n".toList, "KLEE: done: total queries = 34\n".toList,
      "using cex cache\n".toList, "KLEE: done: completed paths = 120\n".toList],
      ["using cex cache\n".toList], by decide +kernel, by decide +kernel, ?_⟩
    intro l hl
    obtain rfl := List.mem_singleton.mp hl
    exact ⟨⟨"using cex cache".toList, by decide +kernel, by decide +kernel⟩, by decide +kernel⟩
  have hmessages : IsLog (queryStatsReports 7 5 3 1)
      "KLEE: - Unhandled queries: 1\nKLEE: - Relevant queries: 5\nKLEE: - All queries: 7\nKLEE: - Relevant address dependent queries: 3\n".toList := by
    refine ⟨["KLEE: - Unhandled queries: 1\n".toList, "KLEE: - Relevant queries: 5\n".toList,
      "KLEE: - All queries: 7\n".toList, "KLEE: - Relevant address dependent queries: 3\n".toList],
      [], by decide +kernel, by decide +kernel, by simp⟩
  exact (statistics_roundtrip 120 34 7 5 3 1 (by simp) hinfo hmessages).1

end SmtCacheBenchmarks.KleeOut
