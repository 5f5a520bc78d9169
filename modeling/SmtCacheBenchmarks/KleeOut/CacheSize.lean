import SmtCacheBenchmarks.KleeOut.Parser
import SmtCacheBenchmarks.Library.FirstHit

/-!
# The Cache Size and the Order of the Log

`get_cache_size` merges two report formats in one pass over messages.txt: a total cache
size, which counts unless it is zero, and a query cache size, on which the loop returns
at once.  The total is meant to come first: a line with a nonzero total wins over the
query cache sizes, which are the fallback.  The loop decides line by line, so it meets
this preference exactly when no other query cache size stands before the first nonzero
total.
-/

namespace SmtCacheBenchmarks.KleeOut

open SmtCacheBenchmarks.Library

/-! ## Lines with cache reports -/

/-- Each occurrence of the marker in the line is followed by a decimal number. -/
def MarkedNumber (marker line : Text) : Prop :=
  ∀ s ∈ line.tails, marker <+: s →
    (ofDecimal ((s.drop marker.length).takeWhile isWord)).isSome = true

instance (marker line : Text) : Decidable (MarkedNumber marker line) :=
  inferInstanceAs (Decidable (∀ s ∈ line.tails, marker <+: s →
    (ofDecimal ((s.drop marker.length).takeWhile isWord)).isSome = true))

/-- A line of messages.txt whose cache reports, if it has any, are well formed. -/
structure CacheReportLine (line : Text) : Prop where
  total : MarkedNumber totalCacheMarker line
  query : MarkedNumber queryCacheMarker line
  notBoth : ¬ (totalCacheMarker <:+: line ∧ queryCacheMarker <:+: line)

instance (line : Text) : Decidable (CacheReportLine line) :=
  decidable_of_iff
    (MarkedNumber totalCacheMarker line ∧ MarkedNumber queryCacheMarker line ∧
      ¬ (totalCacheMarker <:+: line ∧ queryCacheMarker <:+: line))
    ⟨fun ⟨ht, hq, hb⟩ => ⟨ht, hq, hb⟩, fun h => ⟨h.total, h.query, h.notBoth⟩⟩

/-- The total cache size that a line reports, if it is not zero. -/
def nonzeroTotal (line : Text) : Option ℕ :=
  (numberAfter totalCacheMarker line).filter (· ≠ 0)

/-- The query cache size that a line reports. -/
def queryCacheSize (line : Text) : Option ℕ := numberAfter queryCacheMarker line

/-- A marked number is read without an exception. -/
theorem MarkedNumber.searchGroup_cases {marker line : Text} (h : MarkedNumber marker line) :
    searchGroup marker isWord line = none ∧ numberAfter marker line = none ∨
    ∃ w n, searchGroup marker isWord line = some w ∧ int w = .ok n ∧
      numberAfter marker line = some n := by
  cases hfind : Occurrence.findAfter marker line with
  | none => exact Or.inl ⟨by simp [searchGroup, hfind], by simp [numberAfter, searchGroup, hfind]⟩
  | some rest =>
      obtain ⟨p, hp⟩ := Occurrence.exists_append_of_findAfter hfind
      have hsuffix : marker ++ rest ∈ line.tails :=
        (List.mem_tails _ _).mpr ⟨p, hp.symm⟩
      have hsome := h _ hsuffix (List.prefix_append marker rest)
      rw [List.drop_left] at hsome
      obtain ⟨n, hn⟩ := Option.isSome_iff_exists.mp hsome
      refine Or.inr ⟨rest.takeWhile isWord, n, by simp [searchGroup, hfind],
        int_of_ofDecimal hn, ?_⟩
      simp [numberAfter, searchGroup, hfind, hn]

/-! ## The loop is a single pass -/

theorem queryCacheOfLine_eq {line : Text} (h : CacheReportLine line) :
    queryCacheOfLine line = .ok (queryCacheSize line) := by
  rcases h.query.searchGroup_cases with ⟨hs, hn⟩ | ⟨w, n, hs, hw, hn⟩
  · rw [queryCacheOfLine, hs, queryCacheSize, hn]
  · rw [queryCacheOfLine, hs, queryCacheSize, hn]
    simp [hw, Except.map]

/-- One iteration: a nonzero total, or else a query cache size, ends the loop. -/
theorem cacheSizeOfLine_eq {line : Text} (h : CacheReportLine line) :
    cacheSizeOfLine line = .ok ((nonzeroTotal line).or (queryCacheSize line)) := by
  rcases h.total.searchGroup_cases with ⟨hs, hn⟩ | ⟨w, n, hs, hw, hn⟩
  · have htotal : nonzeroTotal line = none := by simp [nonzeroTotal, hn]
    rw [cacheSizeOfLine, hs, queryCacheOfLine_eq h, htotal, Option.none_or]
  · by_cases hzero : n = 0
    · have htotal : nonzeroTotal line = none := by simp [nonzeroTotal, hn, hzero]
      simp [cacheSizeOfLine, hs, hw, hzero, queryCacheOfLine_eq h, htotal]
    · have htotal : nonzeroTotal line = some n := by simp [nonzeroTotal, hn, hzero]
      simp [cacheSizeOfLine, hs, hw, hzero, htotal]

/-- The loop returns the first nonzero total or query cache size, whichever comes first. -/
theorem getCacheSize_eq_onePass {lines : List Text}
    (h : ∀ line ∈ lines, CacheReportLine line) :
    getCacheSize lines = .ok (FirstHit.onePass nonzeroTotal queryCacheSize lines) := by
  induction lines with
  | nil => rfl
  | cons line lines ih =>
      have hrest := ih fun l hl => h l (List.mem_cons_of_mem _ hl)
      rw [getCacheSize, cacheSizeOfLine_eq (h line (List.mem_cons_self ..))]
      cases hline : (nonzeroTotal line).or (queryCacheSize line) with
      | none => simp [hrest, FirstHit.onePass, hline]
      | some n => simp [FirstHit.onePass, hline]

/-! ## When the order does not matter -/

/-- **The preference for the total is met** exactly when a query cache size that stands
before the first nonzero total happens to be the same number. -/
theorem getCacheSize_eq_preferred_iff {lines : List Text}
    (h : ∀ line ∈ lines, CacheReportLine line) :
    getCacheSize lines = .ok (FirstHit.preferred nonzeroTotal queryCacheSize lines) ↔
      ∀ total size, lines.findSome? nonzeroTotal = some total →
        (FirstHit.before nonzeroTotal lines).findSome? queryCacheSize = some size →
        size = total := by
  rw [getCacheSize_eq_onePass h, Except.ok.injEq]
  exact FirstHit.onePass_eq_preferred_iff nonzeroTotal queryCacheSize lines

/-- A zero total, a nonzero total and a query cache size, in this order. -/
theorem getCacheSize_eq_preferred_sample :
    getCacheSize ["KLEE: - Total cache: 0\n".toList, "KLEE: - Total cache: 5\n".toList,
        "KLEE: Query cache size: 7\n".toList]
      = .ok (FirstHit.preferred nonzeroTotal queryCacheSize
          ["KLEE: - Total cache: 0\n".toList, "KLEE: - Total cache: 5\n".toList,
            "KLEE: Query cache size: 7\n".toList]) := by
  refine (getCacheSize_eq_preferred_iff (by decide +kernel)).mpr ?_
  intro total size _ hsize
  have hnone : (FirstHit.before nonzeroTotal
      ["KLEE: - Total cache: 0\n".toList, "KLEE: - Total cache: 5\n".toList,
        "KLEE: Query cache size: 7\n".toList]).findSome? queryCacheSize = none := by
    decide +kernel
  rw [hnone] at hsize
  cases hsize

/-- With the query cache size first, the loop returns it and never sees the total. -/
theorem getCacheSize_query_first :
    ¬ ∀ lines : List Text, (∀ line ∈ lines, CacheReportLine line) →
      getCacheSize lines = .ok (FirstHit.preferred nonzeroTotal queryCacheSize lines) := by
  intro hclaim
  have h := hclaim ["KLEE: Query cache size: 7\n".toList, "KLEE: - Total cache: 5\n".toList]
    (by decide +kernel)
  revert h
  decide +kernel

end SmtCacheBenchmarks.KleeOut
