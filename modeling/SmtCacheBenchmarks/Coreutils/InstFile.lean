import SmtCacheBenchmarks.Coreutils.RunScript

/-!
# Instruction Files

The files that the loops of `coreutils/run.sh` read: one line for each entry, with or
without a newline at the end.  What a run reads of its standard input is cut off at the
front, so the lemmas here are also about the ends of such files (`suffix_instFile`).
-/

namespace SmtCacheBenchmarks.Coreutils

/-- A file with the given lines; `final` tells whether the last line ends with a newline. -/
def fileOfLines : List Text → Bool → Text
  | [], _ => []
  | [line], final => line ++ if final then ['\n'] else []
  | line :: line' :: rest, final => line ++ '\n' :: fileOfLines (line' :: rest) final

/-- The file goes on behind its first line, unless the newline is missing. -/
theorem fileOfLines_cons {line : Text} {rest : List Text} {final : Bool}
    (h : rest ≠ [] ∨ final = true) :
    fileOfLines (line :: rest) final = line ++ '\n' :: fileOfLines rest final := by
  cases rest with
  | nil =>
      have hfinal : final = true := h.resolve_left fun hne => hne rfl
      simp [fileOfLines, hfinal]
  | cons line' rest => rfl

/-! ## Entries -/

/-- An entry of the instruction file: `name max_inst`, both free of blanks and of shell
glob characters. -/
structure Entry where
  name : Text
  maxInst : Text
  name_word : IsWord name
  maxInst_word : IsWord maxInst
  noGlob : (name ++ maxInst).any isGlob = false

/-- The line of an entry, without the newline. -/
def Entry.line (e : Entry) : Text := e.name ++ ' ' :: e.maxInst

/-- A file with one line for each entry. -/
def instFile (entries : List Entry) (final : Bool) : Text :=
  fileOfLines (entries.map Entry.line) final

theorem newline_notMem_of_isWord {w : Text} (hw : IsWord w) : '\n' ∉ w := by
  intro h
  have hifs := hw.2 _ h
  rw [isIfs_newline] at hifs
  cases hifs

theorem Entry.newline_notMem_line (e : Entry) : '\n' ∉ e.line := by
  have hname := newline_notMem_of_isWord e.name_word
  have hmax := newline_notMem_of_isWord e.maxInst_word
  simp [Entry.line, hname, hmax]

theorem Entry.words_line (e : Entry) : words e.line = [e.name, e.maxInst] :=
  words_pair e.name_word e.maxInst_word

theorem Entry.noGlob_name (e : Entry) : e.name.any isGlob = false := by
  have h := e.noGlob
  rw [List.any_append, Bool.or_eq_false_iff] at h
  exact h.1

theorem Entry.noGlob_maxInst (e : Entry) : e.maxInst.any isGlob = false := by
  have h := e.noGlob
  rw [List.any_append, Bool.or_eq_false_iff] at h
  exact h.2

theorem Entry.noGlob_line (e : Entry) : e.line.any isGlob = false := by
  have hblank : isGlob ' ' = false := by decide
  simp [Entry.line, e.noGlob_name, e.noGlob_maxInst, hblank]

/-! ## The ends of a file -/

theorem instFile_cons {e : Entry} {es : List Entry} {final : Bool} (h : es ≠ [] ∨ final = true) :
    instFile (e :: es) final = e.line ++ '\n' :: instFile es final := by
  apply fileOfLines_cons
  simpa using h

theorem instFile_ne_nil {e : Entry} {es : List Entry} {final : Bool} :
    instFile (e :: es) final ≠ [] := by
  have hline : e.line ≠ [] := by simp [Entry.line]
  cases es <;> simp [instFile, fileOfLines, hline]

/-- A file has at most one newline for each entry. -/
theorem count_instFile_le (entries : List Entry) (final : Bool) :
    (instFile entries final).count '\n' ≤ entries.length := by
  induction entries with
  | nil => simp [instFile, fileOfLines]
  | cons e es ih =>
      have hline : e.line.count '\n' = 0 := List.count_eq_zero.mpr e.newline_notMem_line
      by_cases hlast : es ≠ [] ∨ final = true
      · rw [instFile_cons hlast, List.count_append, List.count_cons_self, hline, List.length_cons]
        omega
      · obtain ⟨rfl, hfinal⟩ : es = [] ∧ final = false := by simpa using hlast
        simp [instFile, fileOfLines, hfinal, hline]

/-- The end of two lists one after the other is one of the second list, or goes back into
the first. -/
theorem suffix_append_cases {α : Type} {t l r : List α} (h : t <:+ l ++ r) :
    t <:+ r ∨ ∃ u, u <:+ l ∧ t = u ++ r := by
  induction l with
  | nil => exact .inl h
  | cons a l ih =>
      rcases List.suffix_cons_iff.mp h with rfl | h
      · exact .inr ⟨a :: l, List.suffix_rfl, rfl⟩
      · rcases ih h with hr | ⟨u, hu, rfl⟩
        · exact .inl hr
        · exact .inr ⟨u, hu.trans (List.suffix_cons a l), rfl⟩

/-- **The end of a file** that has a newline for each entry lacks at most the beginning of
the first line. -/
theorem suffix_instFile {e : Entry} {es : List Entry} {final : Bool} {t : Text}
    (h : t <:+ instFile (e :: es) final) (hcount : es.length < t.count '\n') :
    (es ≠ [] ∨ final = true) ∧ ∃ u, u <:+ e.line ∧ t = u ++ '\n' :: instFile es final := by
  have hlast : es ≠ [] ∨ final = true := by
    by_contra hneither
    obtain ⟨rfl, hfinal⟩ : es = [] ∧ final = false := by simpa using hneither
    have hfile : instFile [e] final = e.line := by simp [instFile, fileOfLines, hfinal]
    rw [hfile] at h
    have hnone := List.count_eq_zero.mpr fun hmem => e.newline_notMem_line (h.subset hmem)
    omega
  refine ⟨hlast, ?_⟩
  rw [instFile_cons hlast] at h
  rcases suffix_append_cases h with hrest | hline
  · rcases List.suffix_cons_iff.mp hrest with rfl | hrest
    · exact ⟨[], List.nil_suffix, rfl⟩
    · -- too short: the other entries have too few newlines
      have hfew := hrest.sublist.count_le '\n'
      have hes := count_instFile_le es final
      omega
  · exact hline

end SmtCacheBenchmarks.Coreutils
