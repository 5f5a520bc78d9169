import SmtCacheBenchmarks.Coreutils.InstFile

/-!
# No Benchmark Is Lost

Every entry of the instruction file should get one baseline run and one run with the
cache.  The loops have the file as their standard input, and so have the runs: what a run
reads, the loop does not see.  And `read` fails on a last line without a newline, so that
the loop ends before it.

That the condition is needed is a matter of counting newlines: every round of the loop
takes one, so a loop that starts all the runs has read in every line of the file, and the
end of a line gives the commands of its entry only when it is the whole line.
-/

namespace SmtCacheBenchmarks.Coreutils

open SmtCacheBenchmarks.Library

/-! ## What the loops should do -/

section Spec

variable (cfg : Config) (env : Env) (l : LimitLoop)

/-- The baseline run of an entry. -/
def LimitLoop.entryBaseline (e : Entry) : KleeCmd :=
  ⟨l.baseline, l.outputDir cfg "klee" e.name, maxTimeIncreased, e.maxInst, bcFileOf cfg e.name⟩

/-- The run of an entry with the cache. -/
def LimitLoop.entryCache (e : Entry) : KleeCmd :=
  ⟨l.cache, l.outputDir cfg "cache" e.name, maxTimeIncreased, e.maxInst, bcFileOf cfg e.name⟩

/-- The two commands of each entry, in file order. -/
def LimitLoop.entryCmds (entries : List Entry) : List KleeCmd :=
  entries.flatMap fun e => [l.entryBaseline cfg e, l.entryCache cfg e]

/-- `NAME: KIND status = STATUS`. -/
def statusText (name : Text) (kind : String) (status : UInt8) : Text :=
  name ++ ": ".toList ++ kind.toList ++ " status = ".toList ++ decimal status.toNat ++ ['\n']

/-- Two lines for each entry, with the exit statuses of its runs. -/
def entriesLog : List Entry → List UInt8 → Text
  | e :: entries, st₁ :: st₂ :: statuses =>
      statusText e.name "klee" st₁ ++ statusText e.name "mm" st₂ ++ entriesLog entries statuses
  | _, _ => []

/-- **No benchmark is lost or repeated**: the runs are the two of each entry, and so are
the lines of `status.log`. -/
structure NoLoss (entries : List Entry) (result : Result) : Prop where
  runs : result.runs.map Run.cmd = l.entryCmds cfg entries
  statusLog : result.statusLog = entriesLog entries (result.runs.map fun r => r.outcome.status)

/-- No run but those of the last entry reads from the standard input, when the runs start
one after the other from the state `s`. -/
def LimitLoop.Quiet : State → List Entry → Prop
  | _, [] => True
  | _, [_] => True
  -- while the runs of `e` are going on, the lines behind it are still to be read
  | s, e :: e' :: es =>
      let r₁ := { s with stdin := instFile (e' :: es) true }.run cfg env (l.entryBaseline cfg e)
      let r₂ := r₁.2.run cfg env (l.entryCache cfg e)
      r₁.1.outcome.read = 0 ∧ r₂.1.outcome.read = 0 ∧ Quiet r₂.2 (e' :: es)

/-- The condition under which no benchmark is lost: the last line ends with a newline,
`echo` takes no name for an option, `read` drops no byte, and no run disturbs the loop. -/
structure LimitLoop.Undisturbed (s : State) (entries : List Entry) (final : Bool) : Prop where
  newline : entries = [] ∨ final = true
  names : ∀ e ∈ entries, isEchoOption e.name = false
  bytes : ∀ e ∈ entries, '\x00' ∉ e.line
  quiet : l.Quiet cfg env s entries

end Spec

/-! ## The line of an entry -/

section Line

variable {cfg : Config} {env : Env} {l : LimitLoop}

/-- awk finds the name and the limit in the line of an entry. -/
theorem nameOf_line (cfg : Config) {e : Entry} (hname : isEchoOption e.name = false)
    (hnul : '\x00' ∉ e.line) :
    nameOf cfg e.line = e.name ∧ maxInstOf cfg e.line = e.maxInst := by
  have hnul' : '\x00' ∉ e.name ++ e.maxInst := by simpa [Entry.line] using hnul
  rw [nameOf, maxInstOf, cfg.glob.expansion_eq_words e.noGlob_line, e.words_line]
  exact commandSubst_awkPrint_echo e.name_word e.maxInst_word hname hnul'

/-- **The commands of an entry**: its line gives exactly them. -/
theorem cmds_line (cfg : Config) (l : LimitLoop) {e : Entry}
    (hname : isEchoOption e.name = false) (hnul : '\x00' ∉ e.line) :
    l.baselineCmd cfg e.line = l.entryBaseline cfg e ∧
      l.cacheCmd cfg e.line = l.entryCache cfg e ∧
      (baselineVars cfg e.line).name = e.name ∧ (cacheVars cfg e.line).name = e.name := by
  obtain ⟨hn, hm⟩ := nameOf_line cfg hname hnul
  have hvars : callVars cfg (bcFileOf cfg e.name) e.name maxTimeIncreased e.maxInst =
      ⟨bcFileOf cfg e.name, e.name, maxTimeIncreased, e.maxInst⟩ := by
    rw [callVars_word e.name_word e.noGlob_name isWord_maxTimeIncreased noGlob_maxTimeIncreased,
      cfg.glob.expansion_eq_singleton e.maxInst_word e.noGlob_maxInst]
    rfl
  have hv₁ : baselineVars cfg e.line =
      ⟨bcFileOf cfg e.name, e.name, maxTimeIncreased, e.maxInst⟩ := by
    rw [baselineVars, hn, hm, hvars]
  have hv₂ : cacheVars cfg e.line =
      ⟨bcFileOf cfg e.name, e.name, maxTimeIncreased, e.maxInst⟩ := by
    rw [cacheVars, hv₁]
    exact hvars
  refine ⟨?_, ?_, by rw [hv₁], by rw [hv₂]⟩
  · rw [LimitLoop.baselineCmd, hv₁, hn]
    rfl
  · rw [LimitLoop.cacheCmd, hv₁, hv₂]
    rfl

/-- What a line must give when its first command is the baseline run of an entry. -/
theorem vars_of_baselineCmd {line : Text} {e : Entry}
    (h : l.baselineCmd cfg line = l.entryBaseline cfg e) :
    nameOf cfg line = e.name ∧ e.maxInst ∈ cfg.glob.expansion (maxInstOf cfg line) := by
  -- the output directory holds the name as the loop has read it, before any splitting
  have hname : nameOf cfg line = e.name := by
    have hdir := congrArg KleeCmd.outputDir h
    exact (List.cons.inj (List.append_cancel_left hdir)).2
  refine ⟨hname, ?_⟩
  -- so the name is one word, and the limit is the fourth argument
  have hmax : (cfg.glob.expansion (maxInstOf cfg line)).getD 0 [] = e.maxInst := by
    have hvars := congrArg KleeCmd.maxInst h
    rw [LimitLoop.baselineCmd, baselineVars, hname, callVars_word e.name_word e.noGlob_name
      isWord_maxTimeIncreased noGlob_maxTimeIncreased] at hvars
    exact hvars
  -- an entry's limit is not empty, so the fourth argument is there
  cases hws : cfg.glob.expansion (maxInstOf cfg line) with
  | nil =>
      rw [hws] at hmax
      exact absurd hmax.symm e.maxInst_word.1
  | cons w ws =>
      rw [hws] at hmax
      exact hmax ▸ List.mem_cons_self

/-- A name that is an option leaves no name to be written: `echo` writes the limit only, and
its escapes do not make two fields out of it that are the name and the limit. -/
theorem not_option_of_baselineCmd {e : Entry} {line n m : Text}
    (hline : cfg.glob.expansion line = [n, m]) (hn : IsWord n) (hm : IsWord m)
    (hsub : m.Sublist e.maxInst) (h : l.baselineCmd cfg line = l.entryBaseline cfg e) :
    isEchoOption n = false := by
  by_contra hoption
  rw [Bool.not_eq_false] at hoption
  obtain ⟨hname, hmax⟩ := vars_of_baselineCmd h
  obtain ⟨w, hw, hmax⟩ := cfg.glob.exists_of_mem_expansion hmax
  rw [maxInstOf, hline] at hw
  -- what is left for `echo` to write is the limit, or nothing
  have hrest : (joinWords ([n, m].dropWhile isEchoOption)).Sublist m ∧
      ([n, m].dropWhile isEchoOption).length ≤ 1 := by
    rw [List.dropWhile_cons_of_pos hoption]
    by_cases hm' : isEchoOption m = true
    · simp [hm', joinWords]
    · simp [hm', joinWords]
  by_cases hback : '\\' ∈ e.maxInst
  · -- two fields with the name and the limit would be longer than the limit
    obtain rfl := hmax.resolve_right (not_not_intro hback)
    have hname' : e.name ∈ words (commandSubst (awkPrint 1 (echo [n, m]))) := by
      show e.name ∈ words (commandSubst (awkPrint 1 (echo [n, m])))
      rw [nameOf, hline] at hname
      rw [hname, words_eq_singleton e.name_word]
      exact List.mem_singleton_self _
    have hfit := weight_add_weight_le hname' hw
    have hwords := wordsWeight_words_le (echoText [n, m]).1
    have hout := weight_echoText_le [n, m]
    have hlimit := weight_le_of_sublist (hrest.1.trans hsub)
    rw [words_echo] at hfit
    omega
  · -- without escapes there is a single word
    have hout : (echoText [n, m]).1 = joinWords ([n, m].dropWhile isEchoOption) :=
      echoText_of_notMem fun hmem => hback (hsub.subset (hrest.1.subset hmem))
    have hone := @length_words_echo_le [n, m]
      (List.forall_mem_cons.mpr ⟨hn, List.forall_mem_singleton.mpr hm⟩) hout hrest.2
    have htwo := two_le_length_words hw
    omega

/-- The end of a text that gives all of it without its NUL bytes is the text. -/
theorem eq_of_filter_eq {x y : Text} (hy : y <:+ x) (h : y.filter (· ≠ '\x00') = x) :
    y = x ∧ '\x00' ∉ x := by
  have hfilter := List.length_filter_le (· ≠ '\x00') y
  rw [h] at hfilter
  obtain rfl := hy.eq_of_length_le hfilter
  refine ⟨rfl, fun hmem => ?_⟩
  rw [← h] at hmem
  simp at hmem

/-- Fewer than two words are no commands: there is no second field. -/
theorem two_le_of_baselineCmd {e : Entry} {line : Text}
    (hglob : cfg.glob.expansion line = words line)
    (h : l.baselineCmd cfg line = l.entryBaseline cfg e) : 2 ≤ (words line).length := by
  obtain ⟨-, hmax⟩ := vars_of_baselineCmd h
  obtain ⟨w, hw, -⟩ := cfg.glob.exists_of_mem_expansion hmax
  rw [maxInstOf, hglob] at hw
  by_contra hshort
  have hout : (echoText (words line)).1 =
      joinWords ((words line).dropWhile isEchoOption) := by
    match hargs : words line with
    | [] => exact echoText_of_notMem (by simp [joinWords])
    | [w] => exact echoText_singleton w
    | _ :: _ :: _ =>
        rw [hargs] at hshort
        simp at hshort
  have hone := length_words_echo_le (fun w hw => isWord_of_mem_words hw) hout
    (Nat.le_trans (List.dropWhile_sublist _).length_le (by omega))
  have := two_le_length_words hw
  omega

/-- The end of a line with two words is the end of the name and the whole limit. -/
theorem words_of_suffix_line {e : Entry} {u : Text} (hu : u <:+ e.line)
    (htwo : 2 ≤ (words (u.filter (· ≠ '\x00'))).length) :
    ∃ n, n <:+ e.name ∧ u = n ++ ' ' :: e.maxInst ∧
      words (u.filter (· ≠ '\x00')) =
        [n.filter (· ≠ '\x00'), e.maxInst.filter (· ≠ '\x00')] ∧
      IsWord (n.filter (· ≠ '\x00')) ∧ IsWord (e.maxInst.filter (· ≠ '\x00')) := by
  have hpart : ∀ {x y : Text}, IsWord x → y <:+ x →
      words (y.filter (· ≠ '\x00')) = [] ∨
        words (y.filter (· ≠ '\x00')) = [y.filter (· ≠ '\x00')] ∧
          IsWord (y.filter (· ≠ '\x00')) :=
    fun hx hy => words_of_forall_not fun c hc => hx.2 c (hy.subset (List.mem_filter.mp hc).1)
  have hblank : ∀ x y : Text, words ((x ++ ' ' :: y).filter (· ≠ '\x00')) =
      words (x.filter (· ≠ '\x00')) ++ words (y.filter (· ≠ '\x00')) := by
    intro x y
    rw [List.filter_append, List.filter_cons_of_pos (by decide)]
    exact Lexer.fields_append_sep isIfs_blank _ _
  rcases suffix_append_cases hu with hlimit | ⟨n, hn, rfl⟩
  · -- the blank and the limit are at most one word
    exfalso
    have hone : ∃ y, y <:+ e.maxInst ∧
        words (u.filter (· ≠ '\x00')) = words (y.filter (· ≠ '\x00')) := by
      rcases List.suffix_cons_iff.mp hlimit with rfl | hlimit
      · refine ⟨e.maxInst, List.suffix_rfl, (hblank [] e.maxInst).trans ?_⟩
        simp [words]
      · exact ⟨u, hlimit, rfl⟩
    obtain ⟨y, hy, hwords⟩ := hone
    rcases hpart e.maxInst_word hy with hnone | ⟨hone, -⟩
    · rw [hwords, hnone] at htwo
      cases htwo
    · rw [hwords, hone, List.length_singleton] at htwo
      omega
  · rw [hblank] at htwo ⊢
    -- each of the two is a word, or there would be fewer than two
    rcases hpart e.name_word hn with hnone | ⟨hname, hword⟩
    all_goals rcases hpart e.maxInst_word (List.suffix_refl _) with hnone' | ⟨hlimit, hword'⟩
    · rw [hnone, hnone'] at htwo
      cases htwo
    · rw [hnone, hlimit, List.nil_append, List.length_singleton] at htwo
      omega
    · rw [hname, hnone', List.append_nil, List.length_singleton] at htwo
      omega
    · exact ⟨n, hn, rfl, by rw [hname, hlimit, List.singleton_append], hword, hword'⟩

/-- **The end of a line**: if what `read` makes of it gives the commands of the entry, it is
the whole line, `read` has dropped no byte of it, and `echo` has not taken the name for an
option. -/
theorem line_of_baselineCmd {e : Entry} {u : Text} (hu : u <:+ e.line)
    (h : l.baselineCmd cfg (u.filter (· ≠ '\x00')) = l.entryBaseline cfg e) :
    u = e.line ∧ '\x00' ∉ e.line ∧ isEchoOption e.name = false := by
  have hglob : ∀ x : Text, x.Sublist e.line → cfg.glob.expansion x = words x := by
    intro x hx
    apply cfg.glob.expansion_eq_words
    apply List.any_eq_false.mpr
    intro c hc
    exact List.any_eq_false.mp e.noGlob_line c (hx.subset hc)
  have hline := hglob (u.filter (· ≠ '\x00')) (List.filter_sublist.trans hu.sublist)
  obtain ⟨n, hn, rfl, hwords, hword, hlimitWord⟩ :=
    words_of_suffix_line hu (two_le_of_baselineCmd hline h)
  rw [hwords] at hline
  have hoption := not_option_of_baselineCmd hline hword hlimitWord List.filter_sublist h
  -- so both are read as they stand in the line, without their NUL bytes
  have hnul : '\x00' ∉ n.filter (· ≠ '\x00') ++ e.maxInst.filter (· ≠ '\x00') := by simp
  obtain ⟨hn', hm'⟩ := commandSubst_awkPrint_echo hword hlimitWord hoption hnul
  obtain ⟨hname, hmax⟩ := vars_of_baselineCmd h
  rw [nameOf, hline, hn'] at hname
  have hlimit : (e.maxInst.filter (· ≠ '\x00')).Sublist e.line :=
    List.filter_sublist.trans (List.sublist_append_of_sublist_right (List.sublist_cons_self ..))
  rw [maxInstOf, hline, hm', hglob _ hlimit, words_eq_singleton hlimitWord,
    List.mem_singleton] at hmax
  obtain ⟨rfl, hnul₁⟩ := eq_of_filter_eq hn hname
  obtain ⟨-, hnul₂⟩ := eq_of_filter_eq (List.suffix_refl _) hmax.symm
  refine ⟨rfl, ?_, hname ▸ hoption⟩
  simp [Entry.line, hnul₁, hnul₂]

end Line

/-! ## The loop over the entries -/

section Loop

variable {cfg : Config} {env : Env} {l : LimitLoop} {s : State}

theorem map_cmd_cons (it : Iteration) (its : List Iteration) :
    (Result.ofIterations (it :: its)).runs.map Run.cmd =
      it.baseline.cmd :: it.cache.cmd :: (Result.ofIterations its).runs.map Run.cmd := by
  simp [Result.ofIterations]

theorem entryCmds_cons (e : Entry) (es : List Entry) :
    l.entryCmds cfg (e :: es) =
      l.entryBaseline cfg e :: l.entryCache cfg e :: l.entryCmds cfg es := by
  simp [LimitLoop.entryCmds]

/-- What a loop that starts the runs of some entries has read: a line, which gives the
commands of the first entry, and after it the loop starts the runs of the others. -/
theorem readLine_of_cmds_cons {e : Entry} {es : List Entry}
    (h : (Result.ofIterations (l.iterations cfg env s)).runs.map Run.cmd =
      l.entryCmds cfg (e :: es)) :
    ∃ line rest, readLine s.stdin = some (line, rest) ∧
      l.baselineCmd cfg line = l.entryBaseline cfg e ∧
      (Result.ofIterations (l.iterations cfg env
        (l.iteration cfg env line { s with stdin := rest }).2)).runs.map Run.cmd =
        l.entryCmds cfg es := by
  cases hread : readLine s.stdin with
  | none =>
      rw [iterations_of_readLine_none hread, entryCmds_cons] at h
      cases h
  | some read =>
      obtain ⟨line, rest⟩ := read
      rw [iterations_of_readLine_some hread, map_cmd_cons, entryCmds_cons] at h
      obtain ⟨hbaseline, h⟩ := List.cons.inj h
      obtain ⟨-, hrest⟩ := List.cons.inj h
      exact ⟨line, rest, rfl, hbaseline, hrest⟩

/-- Every round of the loop takes a newline. -/
theorem length_iterations_le : (l.iterations cfg env s).length ≤ s.stdin.count '\n' := by
  induction s using LimitLoop.iterations.induct cfg env l with
  | case1 s hread =>
      rw [iterations_of_readLine_none hread]
      exact Nat.zero_le _
  | case2 s line rest hread _ ih =>
      rw [iterations_of_readLine_some hread, List.length_cons]
      obtain ⟨body, -, hstdin, -⟩ := eq_append_of_readLine hread
      -- what the runs have left is an end of the rest
      have hbody : (l.iteration cfg env line { s with stdin := rest }).2.stdin <:+ rest := by
        simp only [LimitLoop.iteration, State.run, List.drop_drop]
        exact List.drop_suffix ..
      have hfew : (l.iterations cfg env
          (l.iteration cfg env line { s with stdin := rest }).2).length ≤ rest.count '\n' :=
        Nat.le_trans ih (hbody.sublist.count_le '\n')
      rw [hstdin, List.count_append, List.count_cons_self]
      omega

/-- **Counting newlines**: a loop that starts the runs of some entries had a newline to read
for each of them. -/
theorem length_le_count {entries : List Entry}
    (h : (Result.ofIterations (l.iterations cfg env s)).runs.map Run.cmd =
      l.entryCmds cfg entries) :
    entries.length ≤ s.stdin.count '\n' := by
  have hrounds : ∀ its : List Iteration,
      ((Result.ofIterations its).runs.map Run.cmd).length = 2 * its.length := by
    intro its
    simp [Result.ofIterations, List.length_flatMap, Nat.mul_comm]
  have hcmds : (l.entryCmds cfg entries).length = 2 * entries.length := by
    simp [LimitLoop.entryCmds, List.length_flatMap, Nat.mul_comm]
  have hlength := congrArg List.length h
  rw [hrounds, hcmds] at hlength
  have hlines : (l.iterations cfg env s).length ≤ s.stdin.count '\n' := length_iterations_le
  omega

theorem statusLine_eq (name : Text) (kind : String) (status : UInt8) :
    statusLine name kind status = statusText name kind status := by
  unfold statusLine
  rw [echo_of_not_option (isEchoOption_of_colon_mem (by simp))]
  rfl

/-- An iteration over the line of an entry makes the two runs of the entry. -/
theorem iteration_line {e : Entry} (hname : isEchoOption e.name = false)
    (hnul : '\x00' ∉ e.line) (s : State) :
    let r₁ := s.run cfg env (l.entryBaseline cfg e)
    let r₂ := r₁.2.run cfg env (l.entryCache cfg e)
    l.iteration cfg env e.line s =
      (⟨r₁.1, r₂.1, statusText e.name "klee" r₁.1.outcome.status ++
        statusText e.name "mm" r₂.1.outcome.status⟩, r₂.2) := by
  obtain ⟨hbaseline, hcache, hname₁, hname₂⟩ := cmds_line cfg l hname hnul
  simp only [LimitLoop.iteration, hbaseline, hcache, hname₁, hname₂, statusLine_eq]

theorem stdin_run (cmd : KleeCmd) (s : State) :
    (s.run cfg env cmd).2.stdin = s.stdin.drop (s.run cfg env cmd).1.outcome.read := rfl

/-- Of a text that is not empty, something is lost unless nothing is dropped. -/
private theorem drop_drop_eq_self {t : Text} {a b : ℕ} (h : (t.drop a).drop b = t) (ht : t ≠ []) :
    a = 0 ∧ b = 0 := by
  have hlength := congrArg List.length h
  rw [List.length_drop, List.length_drop] at hlength
  have hpos := List.length_pos_iff.mpr ht
  omega

/-- If no benchmark is lost, the loop began at the beginning of the file and was not
disturbed. -/
theorem undisturbed_of_cmds {entries : List Entry} {final : Bool}
    (hs : s.stdin <:+ instFile entries final)
    (h : (Result.ofIterations (l.iterations cfg env s)).runs.map Run.cmd =
      l.entryCmds cfg entries) :
    s.stdin = instFile entries final ∧ l.Undisturbed cfg env s entries final := by
  induction entries generalizing s with
  | nil => exact ⟨List.suffix_nil.mp hs, Or.inl rfl, by simp, by simp, trivial⟩
  | cons e es ih =>
      obtain ⟨line, rest, hread, hbaseline, hrest⟩ := readLine_of_cmds_cons h
      -- all newlines are there, so what has been read is the end of the first line
      obtain ⟨hlast, u, hu, hstdin⟩ := suffix_instFile hs (length_le_count h)
      have hbody : '\n' ∉ u := fun hmem => e.newline_notMem_line (hu.subset hmem)
      rw [hstdin, readLine_append hbody] at hread
      obtain ⟨rfl, rfl⟩ := Prod.mk.inj (Option.some.inj hread)
      obtain ⟨rfl, hnul, hname⟩ := line_of_baselineCmd hu hbaseline
      rw [filter_of_notMem hnul, iteration_line hname hnul] at hrest
      -- the runs have left all the other lines, so they have read nothing
      have hes := ih (s := _) ?_ hrest
      · obtain ⟨hkeep, hes⟩ := hes
        have hfinal : final = true := by
          rcases hes.newline with rfl | hfinal
          · exact hlast.resolve_left fun hne => hne rfl
          · exact hfinal
        refine ⟨hstdin.trans (instFile_cons hlast).symm, Or.inr hfinal, ?_, ?_, ?_⟩
        · exact List.forall_mem_cons.mpr ⟨hname, hes.names⟩
        · exact List.forall_mem_cons.mpr ⟨hnul, hes.bytes⟩
        · cases es with
          | nil => trivial
          | cons e' es =>
              rw [stdin_run, stdin_run] at hkeep
              obtain ⟨hread₁, hread₂⟩ := drop_drop_eq_self hkeep instFile_ne_nil
              subst hfinal
              exact ⟨hread₁, hread₂, hes.quiet⟩
      · rw [stdin_run, stdin_run, List.drop_drop]
        exact List.drop_suffix ..

/-- What an undisturbed loop leaves behind the first entry: the file with the other ones,
and it goes on undisturbed. -/
theorem undisturbed_tail {e : Entry} {es : List Entry}
    (h : l.Undisturbed cfg env s (e :: es) true) :
    (l.iteration cfg env e.line { s with stdin := instFile es true }).2.stdin =
        instFile es true ∧
      l.Undisturbed cfg env
        (l.iteration cfg env e.line { s with stdin := instFile es true }).2 es true := by
  obtain ⟨hname, hnames⟩ := List.forall_mem_cons.mp h.names
  obtain ⟨hnul, hbytes⟩ := List.forall_mem_cons.mp h.bytes
  rw [iteration_line hname hnul]
  dsimp only
  rw [stdin_run, stdin_run]
  cases es with
  | nil =>
      -- behind the last entry nothing is left that could be read
      exact ⟨by simp [instFile, fileOfLines], Or.inl rfl, hnames, hbytes, trivial⟩
  | cons e' es =>
      obtain ⟨hread₁, hread₂, hquiet⟩ := h.quiet
      refine ⟨?_, Or.inr rfl, hnames, hbytes, hquiet⟩
      rw [hread₁, hread₂]
      rfl

/-- A loop that is not disturbed loses no benchmark. -/
theorem noLoss_of_undisturbed {entries : List Entry} {final : Bool}
    (hs : s.stdin = instFile entries final) (h : l.Undisturbed cfg env s entries final) :
    NoLoss cfg l entries (.ofIterations (l.iterations cfg env s)) := by
  induction entries generalizing s with
  | nil =>
      have hread : readLine s.stdin = none := by
        rw [hs]
        rfl
      rw [iterations_of_readLine_none hread]
      exact ⟨rfl, rfl⟩
  | cons e es ih =>
      have hfinal : final = true := h.newline.resolve_left (List.cons_ne_nil e es)
      subst hfinal
      have hname := h.names e (List.mem_cons_self ..)
      have hnul := h.bytes e (List.mem_cons_self ..)
      have hread : readLine s.stdin = some (e.line, instFile es true) := by
        rw [hs, instFile_cons (Or.inr rfl), readLine_append e.newline_notMem_line,
          filter_of_notMem hnul]
      obtain ⟨hstdin, hes⟩ := undisturbed_tail h
      have hnext := ih hstdin hes
      rw [iterations_of_readLine_some hread]
      rw [iteration_line hname hnul] at hnext ⊢
      refine ⟨?_, ?_⟩
      · rw [map_cmd_cons, entryCmds_cons, hnext.runs]
        rfl
      · have hlog := hnext.statusLog
        simp only [Result.ofIterations, List.flatMap_cons, List.cons_append, List.nil_append,
          List.map_cons, entriesLog] at hlog ⊢
        rw [hlog]

/-- **When no benchmark is lost**, for either loop and from any state. -/
theorem noLoss_iff {entries : List Entry} {final : Bool}
    (hs : s.stdin = instFile entries final) :
    NoLoss cfg l entries (.ofIterations (l.iterations cfg env s)) ↔
      l.Undisturbed cfg env s entries final :=
  ⟨fun h => (undisturbed_of_cmds (hs ▸ List.suffix_rfl) h.runs).2, noLoss_of_undisturbed hs⟩

end Loop

/-! ## The two loops -/

/-- **When no benchmark is lost**: for every file of entries and every behaviour of the
runs, exactly when the loop is not disturbed, in `run_with_limit` and in
`run_with_limit_dsmm`. -/
theorem runWithLimit_noLoss_iff (cfg : Config) (env : Env) (sandbox : Sandbox)
    (entries : List Entry) (final : Bool) :
    (NoLoss cfg fmmLoop entries (runWithLimit cfg env sandbox (instFile entries final)) ↔
      fmmLoop.Undisturbed cfg env ⟨0, sandbox, instFile entries final⟩ entries final) ∧
    (NoLoss cfg dsmmLoop entries (runWithLimitDsmm cfg env sandbox (instFile entries final)) ↔
      dsmmLoop.Undisturbed cfg env ⟨0, sandbox, instFile entries final⟩ entries final) :=
  ⟨noLoss_iff rfl, noLoss_iff rfl⟩

/-- Without a newline at its end, a file with one entry starts no run. -/
theorem runWithLimit_last_line :
    ¬ ∀ (cfg : Config) (env : Env) (sandbox : Sandbox) (entries : List Entry) (final : Bool),
      NoLoss cfg fmmLoop entries (runWithLimit cfg env sandbox (instFile entries final)) ∧
      NoLoss cfg dsmmLoop entries (runWithLimitDsmm cfg env sandbox (instFile entries final)) := by
  intro hclaim
  let cfg : Config := ⟨".".toList, by decide, by decide, "klee".toList, "klee".toList,
    "out".toList, fun _ => none, noFiles⟩
  let entry : Entry := ⟨"cat".toList, "1000".toList, by decide, by decide, by decide⟩
  have hread : readLine (instFile [entry] false) = none := by decide +kernel
  have hruns := (hclaim cfg (fun _ _ s _ => ⟨fun _ => none, 0, s, 0⟩) none [entry] false).1.runs
  rw [runWithLimit, LimitLoop.result, iterations_of_readLine_none hread] at hruns
  cases hruns

end SmtCacheBenchmarks.Coreutils
