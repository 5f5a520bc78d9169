import Mathlib.Data.List.Basic
import SmtCacheBenchmarks.Library.Loop

/-!
# The Symbolic CREATE TRIGGER Statement

Model of the loop of `symbolic_create_trigger` in `trigger_hashtable.c`.  The buffer
`sql1` has room for the statement and its terminator, and starts with arbitrary bytes.
The loop copies the statement into it, except for the name of the trigger, which stays
symbolic and is constrained by two assumptions.

The loop stops at the terminator of the statement it copies from, without copying it.
So the last byte of the buffer stays symbolic too, and `sql1` is the intended C string
exactly when that byte happens to be NUL.
-/

namespace SmtCacheBenchmarks.Sqlite

open SmtCacheBenchmarks.Library StateTransition

/-! ## C strings in memory -/

/-- The bytes of a string literal, without its terminator. -/
def literal (s : String) : List UInt8 := s.toList.map fun c => UInt8.ofNat c.toNat

/-- `s[i]` for a string literal `s`, whose terminator is NUL. -/
def charAt (s : List UInt8) (i : ℕ) : UInt8 := s.getD i 0

/-- The value of a `char` in a comparison; `char` is signed. -/
def charValue (c : UInt8) : ℤ := c.toInt8.toInt

/-- The text that a reader of the C string at the start of a buffer sees; `none` when
it runs past the end of the allocation. -/
def readCString : List UInt8 → Option (List UInt8)
  | [] => none
  | c :: buffer => if c = 0 then some [] else (readCString buffer).map (c :: ·)

/-! ## The loop -/

/-- The statement `s`. -/
def triggerText : List UInt8 :=
  literal "create trigger   after insert on tbl begin insert into tbl values(1,2); end;"

/-- The index of the name of the trigger. -/
def nameIndex : ℕ := 15

/-- The state of the loop; `pruned` is a path on which an assumption fails. -/
inductive CopyState where
  | running (i : ℕ) (sql1 : List UInt8)
  | pruned
deriving DecidableEq

/-- `klee_assume(c > 'a')` and `klee_assume(c < 'z')`. -/
def nameAssumption (c : UInt8) : Prop :=
  charValue c > ('a'.toNat : ℤ) ∧ charValue c < ('z'.toNat : ℤ)

instance (c : UInt8) : Decidable (nameAssumption c) :=
  inferInstanceAs (Decidable (charValue c > ('a'.toNat : ℤ) ∧ charValue c < ('z'.toNat : ℤ)))

/-- One iteration of `for (int i = 0; s[i] != '\0'; i++)`. -/
def copyStep (s : List UInt8) (hole : ℕ) : CopyState → Option CopyState
  | .pruned => none
  | .running i sql1 =>
      if charAt s i = 0 then none
      else if i = hole then
        if nameAssumption (charAt sql1 i) then some (.running (i + 1) sql1) else some .pruned
      else some (.running (i + 1) (sql1.set i (charAt s i)))

/-- `symbolic_create_trigger` up to the call of `sqlite3_prepare_v2`: the state in which
the loop ends, from the bytes that `klee_make_symbolic` gives `sql1`. -/
def symbolicCreateTrigger (sql1 : List UInt8) : Part CopyState :=
  eval (copyStep triggerText nameIndex) (.running 0 sql1)

/-- A statement of the intended family, with the name `c`. -/
def triggerNamed (c : UInt8) : List UInt8 := triggerText.set nameIndex c

/-- The buffer is a proper C string of the intended family: its first NUL is at index
`strlen(s)`, the text before it is the statement with a name between `'a'` and `'z'`, and
a reader of the string sees that text and stays inside the allocation. -/
def ProperStatement (sql1 : List UInt8) : Prop :=
  ∃ c, nameAssumption c ∧ sql1.findIdx (· = 0) = triggerText.length ∧
    sql1[triggerText.length]? = some 0 ∧ sql1.take triggerText.length = triggerNamed c ∧
    readCString sql1 = some (triggerNamed c)

/-! ## What the loop leaves in the buffer -/

section Copy

variable {s init : List UInt8} {hole : ℕ} {c : UInt8}

/-- What holds whenever the condition is evaluated: the bytes below the counter are the
statement with the name of the initial contents, the others are the initial ones. -/
def CopyInv (s init : List UInt8) (hole : ℕ) (c : UInt8) : CopyState → Prop
  | .pruned => False
  | .running i sql1 => i ≤ s.length ∧ sql1 = (s.set hole c).take i ++ init.drop i

/-- The iterations that are left. -/
def copyMeasure (s : List UInt8) : CopyState → ℕ
  | .pruned => 0
  | .running i _ => s.length - i

theorem charAt_eq_zero_iff (hs : (0 : UInt8) ∉ s) {i : ℕ} (hi : i ≤ s.length) :
    charAt s i = 0 ↔ i = s.length := by
  rcases Nat.lt_or_eq_of_le hi with hlt | heq
  · have hne : s[i] ≠ 0 := fun h => hs (h ▸ List.getElem_mem hlt)
    simp [charAt, List.getD_eq_getElem?_getD, hlt, hne, Nat.ne_of_lt hlt]
  · simp [charAt, List.getD_eq_getElem?_getD, heq]

/-- Writing the next byte, or finding it there, moves the seam between the two lists. -/
private theorem take_append_drop_succ {l m : List UInt8} {i : ℕ} (hl : i < l.length)
    (hm : i < m.length) (heq : m[i] = l[i]) :
    l.take i ++ m.drop i = l.take (i + 1) ++ m.drop (i + 1) := by
  rw [List.drop_eq_getElem_cons hm, heq, List.take_succ_eq_append_getElem hl,
    List.append_assoc, List.singleton_append]

private theorem set_take_append_drop {l m : List UInt8} {i : ℕ} (hl : i < l.length)
    (hm : i < m.length) :
    (l.take i ++ m.drop i).set i l[i] = l.take (i + 1) ++ m.drop (i + 1) := by
  have hlen : (l.take i).length = i := by simp [Nat.le_of_lt hl]
  rw [List.drop_eq_getElem_cons hm, List.set_append_right _ _ (Nat.le_of_eq hlen), hlen,
    Nat.sub_self, List.set_cons_zero, List.take_succ_eq_append_getElem hl,
    List.append_assoc, List.singleton_append]

/-- One iteration keeps the invariant, and never prunes the path. -/
theorem CopyInv.step (hs : (0 : UInt8) ∉ s) (hlen : init.length = s.length + 1)
    (hc : init[hole]? = some c) (hname : nameAssumption c) {t t' : CopyState}
    (ht : CopyInv s init hole c t) (hstep : copyStep s hole t = some t') :
    CopyInv s init hole c t' ∧ copyMeasure s t' < copyMeasure s t := by
  cases t with
  | pruned => exact absurd ht id
  | running i sql1 =>
      obtain ⟨hi, hsql1⟩ := ht
      by_cases hend : charAt s i = 0
      · simp [copyStep, hend] at hstep
      have hlt : i < s.length := by
        have hne := mt (charAt_eq_zero_iff hs hi).mpr hend
        omega
      have hset : i < (s.set hole c).length := by simpa using hlt
      have hinit : i < init.length := by omega
      by_cases hhole : i = hole
      · -- the name: nothing is written, and the byte is the initial one
        subst hhole
        have hget : init[i] = c := by
          have := List.getElem?_eq_getElem hinit
          rw [hc] at this
          exact (Option.some.inj this).symm
        have hchar : charAt sql1 i = c := by
          rw [hsql1, charAt, List.getD_eq_getElem?_getD, List.getElem?_append_right (by simp)]
          simp [Nat.min_eq_left (Nat.le_of_lt hlt), hc]
        have ht' : t' = .running (i + 1) sql1 := by
          simpa [copyStep, hend, hchar, hname, eq_comm] using hstep
        subst ht'
        refine ⟨⟨hlt, ?_⟩, show s.length - (i + 1) < s.length - i by omega⟩
        rw [hsql1]
        exact take_append_drop_succ hset hinit (by rw [hget, List.getElem_set_self])
      · have hchar : charAt s i = (s.set hole c)[i] := by
          simp [charAt, List.getD_eq_getElem?_getD, hlt, List.getElem_set_ne (Ne.symm hhole)]
        have ht' : t' = .running (i + 1) (sql1.set i (charAt s i)) := by
          simpa [copyStep, hend, hhole, eq_comm] using hstep
        subst ht'
        refine ⟨⟨hlt, ?_⟩, show s.length - (i + 1) < s.length - i by omega⟩
        rw [hsql1, hchar]
        exact set_take_append_drop hset hinit

/-- **The loop ends** with the named statement and, behind it, the byte that the buffer
held there at the start. -/
theorem mem_eval_copyStep (hs : (0 : UInt8) ∉ s) (hlen : init.length = s.length + 1)
    (hc : init[hole]? = some c) (hname : nameAssumption c) :
    .running s.length (s.set hole c ++ init.drop s.length) ∈
      eval (copyStep s hole) (.running 0 init) := by
  have hinit : CopyInv s init hole c (.running 0 init) := ⟨Nat.zero_le _, by simp⟩
  obtain ⟨t, ht, hinv, hend⟩ := Loop.mem_eval_of_invariant (copyMeasure s)
    (fun _ _ hinv hstep => hinv.step hs hlen hc hname hstep) hinit
  cases t with
  | pruned => exact absurd hinv id
  | running i sql1 =>
      obtain ⟨hi, hsql1⟩ := hinv
      have hterm : charAt s i = 0 := by
        by_contra hne
        simp only [copyStep, if_neg hne] at hend
        split_ifs at hend
      have hlast : i = s.length := (charAt_eq_zero_iff hs hi).mp hterm
      subst hlast
      have htake : (s.set hole c).take s.length = s.set hole c :=
        List.take_of_length_le (by simp)
      rwa [hsql1, htake] at ht

/-- Reading a text that is followed by one more byte: it ends there if that byte is NUL,
and runs out of the allocation otherwise. -/
theorem readCString_append_singleton {t : List UInt8} (ht : (0 : UInt8) ∉ t) (b : UInt8) :
    readCString (t ++ [b]) = if b = 0 then some t else none := by
  induction t with
  | nil => by_cases hb : b = 0 <;> simp [readCString, hb]
  | cons a t ih =>
      obtain ⟨ha, ht⟩ : (0 : UInt8) ≠ a ∧ (0 : UInt8) ∉ t := by simpa using ht
      rw [List.cons_append, readCString, if_neg (Ne.symm ha), ih ht]
      by_cases hb : b = 0 <;> simp [hb]

end Copy

/-! ## The statement that SQLite is given -/

theorem zero_not_mem_triggerText : (0 : UInt8) ∉ triggerText := by decide +kernel

theorem nameIndex_lt : nameIndex < triggerText.length := by decide +kernel

theorem ne_zero_of_nameAssumption {c : UInt8} (hc : nameAssumption c) : c ≠ 0 := by
  rintro rfl
  revert hc
  decide

theorem zero_not_mem_triggerNamed {c : UInt8} (hc : nameAssumption c) :
    (0 : UInt8) ∉ triggerNamed c := by
  intro hmem
  rcases List.mem_or_eq_of_mem_set hmem with h | h
  · exact zero_not_mem_triggerText h
  · exact ne_zero_of_nameAssumption hc h.symm

@[simp] theorem length_triggerNamed (c : UInt8) :
    (triggerNamed c).length = triggerText.length := List.length_set ..

/-- The named statement with one more byte behind it is proper exactly when that byte is
its terminator. -/
theorem properStatement_iff {c : UInt8} (hc : nameAssumption c) (b : UInt8) :
    ProperStatement (triggerNamed c ++ [b]) ↔ b = 0 := by
  have hread := readCString_append_singleton (zero_not_mem_triggerNamed hc) b
  constructor
  · rintro ⟨c', -, -, -, -, hstring⟩
    by_contra hb
    rw [hread, if_neg hb] at hstring
    cases hstring
  · rintro rfl
    have hnul : (triggerNamed c).findIdx (· = 0) = triggerText.length := by
      rw [List.findIdx_eq_length_of_false, length_triggerNamed]
      intro a ha
      have hne : a ≠ 0 := fun h => zero_not_mem_triggerNamed hc (h ▸ ha)
      simpa using hne
    refine ⟨c, hc, ?_, ?_, ?_, by rw [hread, if_pos rfl]⟩
    · rw [List.findIdx_append, hnul]
      simp
    · rw [← length_triggerNamed c]
      exact List.getElem?_concat_length ..
    · rw [← length_triggerNamed c, List.take_left]

/-- **The loop of the benchmark**: it ends with the named statement and the initial last
byte. -/
theorem mem_symbolicCreateTrigger {sql1 : List UInt8}
    (hlen : sql1.length = triggerText.length + 1)
    (hname : nameAssumption (charAt sql1 nameIndex)) :
    .running triggerText.length
      (triggerNamed (charAt sql1 nameIndex) ++ [charAt sql1 triggerText.length]) ∈
      symbolicCreateTrigger sql1 := by
  have hidx : nameIndex < sql1.length := by
    have := nameIndex_lt
    omega
  have hc : sql1[nameIndex]? = some (charAt sql1 nameIndex) := by
    simp [charAt, List.getD_eq_getElem?_getD, hidx]
  have hlast : sql1.drop triggerText.length = [charAt sql1 triggerText.length] := by
    have hlt : triggerText.length < sql1.length := by omega
    rw [List.drop_eq_getElem_cons hlt, List.drop_of_length_le (by omega)]
    simp [charAt, List.getD_eq_getElem?_getD, hlt]
  have h := mem_eval_copyStep zero_not_mem_triggerText hlen hc hname
  rwa [hlast] at h

/-- A buffer that holds `'b'` everywhere: the statement is copied around the name, and no
terminator behind it. -/
example : .running triggerText.length (triggerNamed 98 ++ [98]) ∈
    symbolicCreateTrigger (List.replicate (triggerText.length + 1) 98) :=
  Loop.mem_eval_of_runFor (n := 100) (by decide +kernel)

/-- **When the statement is a proper C string**: for every initial contents of the buffer
that satisfy the two assumptions, exactly when its last byte is NUL from the start. -/
theorem symbolicCreateTrigger_proper_iff {sql1 : List UInt8}
    (hlen : sql1.length = triggerText.length + 1)
    (hname : nameAssumption (charAt sql1 nameIndex)) :
    (∃ i result, .running i result ∈ symbolicCreateTrigger sql1 ∧ ProperStatement result) ↔
      charAt sql1 triggerText.length = 0 := by
  have hend := mem_symbolicCreateTrigger hlen hname
  rw [← properStatement_iff hname]
  constructor
  · rintro ⟨i, result, hresult, hproper⟩
    have heq := Part.mem_unique hresult hend
    obtain ⟨-, rfl⟩ := CopyState.running.inj heq
    exact hproper
  · intro hproper
    exact ⟨_, _, hend, hproper⟩

/-- A buffer that was zero before the copy. -/
theorem symbolicCreateTrigger_proper_zeroed :
    ∃ i result, .running i result ∈
        symbolicCreateTrigger ((List.replicate (triggerText.length + 1) 0).set nameIndex 98) ∧
      ProperStatement result :=
  (symbolicCreateTrigger_proper_iff (by decide +kernel) (by decide +kernel)).mpr
    (by decide +kernel)

/-- A buffer that holds `'b'` everywhere satisfies the assumptions, and is left without a
terminator. -/
theorem symbolicCreateTrigger_unterminated :
    ¬ ∀ sql1 : List UInt8, sql1.length = triggerText.length + 1 →
      nameAssumption (charAt sql1 nameIndex) →
      ∃ i result, .running i result ∈ symbolicCreateTrigger sql1 ∧ ProperStatement result := by
  intro hclaim
  have hlen : (List.replicate (triggerText.length + 1) (98 : UInt8)).length
      = triggerText.length + 1 := by decide +kernel
  have hname : nameAssumption
      (charAt (List.replicate (triggerText.length + 1) 98) nameIndex) := by decide +kernel
  obtain ⟨i, result, hresult, hproper⟩ := hclaim _ hlen hname
  obtain ⟨-, rfl⟩ := CopyState.running.inj
    (Part.mem_unique hresult (mem_symbolicCreateTrigger hlen hname))
  have hlast := (properStatement_iff hname _).mp hproper
  revert hlast
  decide +kernel

end SmtCacheBenchmarks.Sqlite
