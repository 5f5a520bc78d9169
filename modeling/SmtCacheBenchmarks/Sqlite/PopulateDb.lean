import Mathlib.Data.Finset.Card
import Mathlib.Data.Finset.Image
import Mathlib.Order.Interval.Finset.Nat
import SmtCacheBenchmarks.Library.Loop
import SmtCacheBenchmarks.Sqlite.Create
import SmtCacheBenchmarks.Sqlite.SymbolicTrigger

/-!
# Filling the Trigger Table

Model of `populate_db` in `trigger_hashtable.c`: a table, the trigger `t`, and the
triggers `trig1`, `trig2`, … up to the requested number, each created by a statement
that is written into a buffer of 100 bytes.
-/

namespace SmtCacheBenchmarks.Sqlite

open SmtCacheBenchmarks.Library StateTransition

/-! ## The function -/

/-- `snprintf(buf, size, …)`: the C string in the buffer afterwards. -/
def snprintf (size : ℕ) (s : Text) : Text := s.take (size - 1)

/-- `"trig%d"`. -/
def trigName (i : Int32) : Text := "trig".toList ++ decimalInt i.toInt

/-- The format of the statement for the trigger `i`. -/
def createTrig (i : Int32) : Text :=
  "CREATE TRIGGER".toList ++ ' ' :: (trigName i ++
    ' ' :: "AFTER INSERT ON tbl BEGIN insert into tbl values(1,2); END;".toList)

/-- `CREATE TABLE tbl (a int, b int)`. -/
def createTbl : Text := "CREATE TABLE tbl (a int, b int)".toList

/-- The statement for the trigger `t`. -/
def createT : Text :=
  "CREATE TRIGGER t AFTER INSERT ON tbl BEGIN  insert into tbl values (1,2); END;".toList

/-- The state of the loop: the counter, the database, what has been printed, and whether
the function has returned 1. -/
structure FillState (DB : Type*) where
  i : Int32
  db : DB
  out : Text
  failed : Bool

/-- The result of the function: its return value, the database, and what it printed. -/
structure Populated (DB : Type*) where
  status : ℤ
  db : DB
  out : Text

section Model

variable {DB : Type*} (api : SqliteApi DB)

/-- One iteration of `for (int i = 1; i < triggers_number; i++)`. -/
def fillStep (triggersNumber : Int32) (s : FillState DB) : Option (FillState DB) :=
  if s.failed then none
  else if s.i < triggersNumber then
    let out := s.out ++ "Creating trigger #".toList ++ decimalInt s.i.toInt ++ "\n".toList
    let sql := snprintf 100 (createTrig s.i)
    let r := api.exec s.db sql
    if r.rc ≠ 0 then
      some { s with
        db := r.db
        out := out ++ "ERROR creating triggers: ".toList ++ r.errMsg ++ "\n".toList
        failed := true }
    else some { s with i := s.i + 1, db := r.db, out := out }
  else none

/-- `populate_db(db, triggers_number)`. -/
def populateDb (db : DB) (triggersNumber : Int32) : Part (Populated DB) :=
  let r := api.exec db createTbl
  if r.rc ≠ 0 then
    Part.some ⟨1, r.db, "ERROR creating table: ".toList ++ r.errMsg ++ "\n".toList⟩
  else
    let out := "Creating trigger t\n".toList
    let r := api.exec r.db createT
    if r.rc ≠ 0 then
      Part.some ⟨1, r.db, out ++ "ERROR: ".toList ++ r.errMsg ++ "\n".toList⟩
    else
      (eval (fillStep api triggersNumber) { i := 1, db := r.db, out := out, failed := false }).map
        fun s => ⟨if s.failed then 1 else 0, s.db, s.out⟩

end Model

/-! ## The statements -/

/-- The name of the trigger with a counter that is not negative. -/
theorem trigName_eq {i : Int32} (hi : 0 ≤ i.toInt) :
    trigName i = "trig".toList ++ decimal i.toInt.toNat := by
  have hneg : ¬ i.toInt < 0 := by omega
  rw [trigName, decimalInt, if_neg hneg]
  congr 2
  omega

/-- No counter is longer than eleven characters. -/
theorem length_decimalInt_le (i : Int32) : (decimalInt i.toInt).length ≤ 11 := by
  have hlow := Int32.le_toInt i
  have hhigh := Int32.toInt_lt i
  have hdigits : (decimal i.toInt.natAbs).length ≤ 10 :=
    length_decimal_le (by decide) (by omega)
  unfold decimalInt
  split_ifs
  · rw [List.length_cons]
    omega
  · omega

private theorem length_between_blanks (a b c d : Text) :
    (a ++ ' ' :: (b ++ c ++ ' ' :: d)).length =
      a.length + b.length + d.length + 2 + c.length := by
  simp only [List.length_append, List.length_cons]
  omega

/-- **No truncation**: the statement fits into the buffer for every counter. -/
theorem snprintf_createTrig (i : Int32) : snprintf 100 (createTrig i) = createTrig i := by
  have hlen : (createTrig i).length = 79 + (decimalInt i.toInt).length :=
    length_between_blanks ..
  have hcounter := length_decimalInt_le i
  have hfits : (createTrig i).length ≤ 100 - 1 := by omega
  exact List.take_of_length_le hfits

private theorem keywords_without_digits :
    (keywords.all fun w => w.all fun c => !c.isDigit) = true := by decide +kernel

/-- No keyword has a digit in it. -/
theorem not_isDigit_of_mem_keywords {w : Text} (hw : w ∈ keywords) {c : Char} (hc : c ∈ w) :
    c.isDigit = false := by
  have h := List.all_eq_true.mp (List.all_eq_true.mp keywords_without_digits w hw) c hc
  simpa using h

theorem isIdChar_of_isDigit {c : Char} (hc : c.isDigit = true) : isIdChar c = true := by
  simp [isIdChar, Char.isAlphanum, hc]

theorem toLower_of_isDigit {c : Char} (hc : c.isDigit = true) : c.toLower = c := by
  have hlt : c.toNat < 58 := by
    simp only [Char.isDigit, Bool.and_eq_true, decide_eq_true_eq, UInt32.le_iff_toNat_le] at hc
    exact Nat.lt_of_le_of_lt hc.2 (by decide)
  -- below the letters nothing changes
  have hall : ∀ k < 58, (Char.ofNat k).toLower = Char.ofNat k := by decide
  have h := hall c.toNat hlt
  rwa [Char.ofNat_toNat] at h

theorem lower_decimal (n : ℕ) : lower (decimal n) = decimal n := by
  unfold lower
  conv_rhs => rw [← List.map_id (decimal n)]
  exact List.map_congr_left fun c hc => toLower_of_isDigit (isDigit_of_mem_decimal hc)

/-- The names of the triggers need no quotes. -/
theorem isIdentifier_trig (n : ℕ) : isIdentifier ("trig".toList ++ decimal n) = true := by
  have hlower : lower ("trig".toList ++ decimal n) = "trig".toList ++ decimal n := by
    rw [lower_append, lower_decimal]
    rfl
  have hid : ("trig".toList ++ decimal n).all isIdChar = true := by
    rw [List.all_append, Bool.and_eq_true]
    exact ⟨by decide, List.all_eq_true.mpr fun c hc =>
      isIdChar_of_isDigit (isDigit_of_mem_decimal hc)⟩
  have hhead : (("trig".toList ++ decimal n).head?.any fun c => c.isAlpha || c = '_') = true :=
    rfl
  have hreserved : "sqlite_".toList.isPrefixOf ("trig".toList ++ decimal n) = false := rfl
  have hfree : keywords.contains ("trig".toList ++ decimal n) = false := by
    apply Bool.eq_false_iff.mpr
    intro hmem
    -- the last digit would be a letter of a keyword
    obtain ⟨c, hc⟩ := List.exists_mem_of_ne_nil _ (decimal_ne_nil n)
    have hdigit := not_isDigit_of_mem_keywords (List.contains_iff_mem.mp hmem)
      (List.mem_append_right _ hc)
    rw [isDigit_of_mem_decimal hc] at hdigit
    cases hdigit
  rw [isIdentifier, hlower, hid, hhead, hfree, hreserved]
  rfl

/-- The statement for `trig` and a number is complete. -/
theorem parseCreate_createTrig {i : Int32} (hi : 0 ≤ i.toInt) :
    parseCreate (createTrig i) = some ⟨.trigger, trigName i⟩ := by
  have hname : isIdentifier (trigName i) = true := by
    rw [trigName_eq hi]
    exact isIdentifier_trig _
  exact parseCreate_trigger hname (by decide +kernel) (by decide +kernel)

theorem parseCreate_createTbl : parseCreate createTbl = some ⟨.table, "tbl".toList⟩ := by
  decide +kernel

theorem parseCreate_createT : parseCreate createT = some ⟨.trigger, "t".toList⟩ := by
  decide +kernel

/-! ## The names -/

/-- The names of the triggers when the counter is `k`. -/
def triggerNames (k : ℕ) : Finset Text :=
  insert "t".toList ((Finset.Ico 1 k).image fun j => "trig".toList ++ decimal j)

theorem lower_trig (j : ℕ) : lower ("trig".toList ++ decimal j) = "trig".toList ++ decimal j := by
  rw [lower_append, lower_decimal]
  rfl

theorem trig_injective : Function.Injective fun j : ℕ => "trig".toList ++ decimal j := by
  intro i j h
  exact decimal_injective (List.append_cancel_left h)

/-- The name of the trigger outside of the loop is no other one's. -/
theorem lower_ne_of_length_le_one {v : Text} (hv : v.length ≤ 1) (j : ℕ) :
    lower v ≠ "trig".toList ++ decimal j := by
  intro h
  have hlen := congrArg List.length h
  have h4 : "trig".toList.length = 4 := by decide
  rw [lower, List.length_map, List.length_append, h4] at hlen
  omega

theorem triggerNames_succ {k : ℕ} (hk : 1 ≤ k) :
    triggerNames (k + 1) = insert ("trig".toList ++ decimal k) (triggerNames k) := by
  rw [triggerNames, Nat.Ico_succ_right_eq_insert_Ico hk, Finset.image_insert,
    Finset.insert_comm]
  rfl

/-- **Freshness**: the next name differs from all names before it, in any case. -/
theorem not_sameName_trig {k : ℕ} {v : Text} (hv : v ∈ triggerNames k) :
    ¬ sameName v ("trig".toList ++ decimal k) := by
  intro hsame
  rw [sameName, lower_trig] at hsame
  rcases Finset.mem_insert.mp hv with rfl | hv
  · exact lower_ne_of_length_le_one (by decide) k hsame
  · obtain ⟨j, hj, rfl⟩ := Finset.mem_image.mp hv
    rw [lower_trig] at hsame
    have hjk : j = k := trig_injective hsame
    have := (Finset.mem_Ico.mp hj).2
    omega

/-- The names are pairwise distinct, also without regard to case. -/
theorem eq_of_sameName {k : ℕ} {v w : Text} (hv : v ∈ triggerNames k) (hw : w ∈ triggerNames k)
    (hsame : sameName v w) : v = w := by
  unfold sameName at hsame
  rcases Finset.mem_insert.mp hv with rfl | hv <;> rcases Finset.mem_insert.mp hw with rfl | hw
  · rfl
  · obtain ⟨j, -, rfl⟩ := Finset.mem_image.mp hw
    rw [lower_trig] at hsame
    exact absurd hsame (lower_ne_of_length_le_one (by decide) j)
  · obtain ⟨i, -, rfl⟩ := Finset.mem_image.mp hv
    rw [lower_trig] at hsame
    exact absurd hsame.symm (lower_ne_of_length_le_one (by decide) i)
  · obtain ⟨i, -, rfl⟩ := Finset.mem_image.mp hv
    obtain ⟨j, -, rfl⟩ := Finset.mem_image.mp hw
    rwa [lower_trig, lower_trig] at hsame

theorem card_triggerNames (k : ℕ) : (triggerNames k).card = max 1 k := by
  have hnew : "t".toList ∉ (Finset.Ico 1 k).image fun j => "trig".toList ++ decimal j := by
    intro hmem
    obtain ⟨j, -, hj⟩ := Finset.mem_image.mp hmem
    exact lower_ne_of_length_le_one (v := "t".toList) (by decide) j hj.symm
  rw [triggerNames, Finset.card_insert_of_notMem hnew,
    Finset.card_image_of_injective _ trig_injective, Nat.card_Ico]
  omega

/-! ## The loop -/

section Fill

variable {DB : Type*} {api : SqliteApi DB} {triggersNumber : Int32}

/-- What holds whenever the condition is evaluated: the database has the triggers below
the counter, and the table that they are on. -/
structure FillInv (api : SqliteApi DB) (triggersNumber : Int32) (s : FillState DB) : Prop where
  running : s.failed = false
  one_le : 1 ≤ s.i.toInt
  le_max : s.i.toInt ≤ max 1 triggersNumber.toInt
  tbl : "tbl".toList ∈ api.names s.db .table
  triggers : api.names s.db .trigger = triggerNames s.i.toInt.toNat

/-- The counter does not wrap below another counter. -/
theorem toInt_succ {i n : Int32} (h : i.toInt < n.toInt) : (i + 1).toInt = i.toInt + 1 := by
  have hlow := Int32.le_toInt i
  have hhigh := Int32.toInt_lt n
  rw [Int32.toInt_add, Int32.toInt_one]
  exact Int.bmod_eq_of_le (by omega) (by omega)

/-- The loop is left by the `return` in its body, or by its condition. -/
theorem fillStep_eq_none_iff {s : FillState DB} :
    fillStep api triggersNumber s = none ↔ s.failed = true ∨ ¬ s.i < triggersNumber := by
  by_cases hfailed : s.failed = true
  · simp [fillStep, hfailed]
  · by_cases hlt : s.i < triggersNumber
    · simp only [fillStep, if_neg hfailed, if_pos hlt]
      split_ifs <;> simp [hfailed, hlt]
    · simp [fillStep, hlt]

/-- The statement of an iteration creates the next trigger. -/
theorem FillInv.exec (hapi : ExecutesCreate api) {s : FillState DB}
    (hs : FillInv api triggersNumber s) :
    (api.exec s.db (snprintf 100 (createTrig s.i))).rc = 0 ∧
      api.names (api.exec s.db (snprintf 100 (createTrig s.i))).db .trigger =
        triggerNames (s.i.toInt.toNat + 1) ∧
      api.names (api.exec s.db (snprintf 100 (createTrig s.i))).db .table =
        api.names s.db .table := by
  have hi := hs.one_le
  have hname := trigName_eq (i := s.i) (by omega)
  have hparse := parseCreate_createTrig (i := s.i) (by omega)
  have hfresh : ¬ api.Taken s.db ⟨.trigger, trigName s.i⟩ := by
    rintro ⟨v, hv, hsame⟩
    rw [hs.triggers] at hv
    rw [hname] at hsame
    exact not_sameName_trig hv hsame
  rw [snprintf_createTrig]
  obtain ⟨hrc, hadd, hkeep⟩ := hapi.creates s.db _ _ hparse hfresh fun _ => hs.tbl
  refine ⟨hrc, ?_, hkeep .table nofun⟩
  rw [hadd, hs.triggers, hname, triggerNames_succ (by omega)]

/-- One iteration keeps the invariant, and brings the counter closer to its bound. -/
theorem FillInv.step (hapi : ExecutesCreate api) {s s' : FillState DB}
    (hs : FillInv api triggersNumber s) (hstep : fillStep api triggersNumber s = some s') :
    FillInv api triggersNumber s' ∧
      (triggersNumber.toInt - s'.i.toInt).toNat < (triggersNumber.toInt - s.i.toInt).toNat := by
  obtain ⟨hrc, htriggers, htable⟩ := hs.exec hapi
  have hlt : s.i < triggersNumber := by
    by_contra hge
    rw [fillStep_eq_none_iff.mpr (Or.inr hge)] at hstep
    cases hstep
  have hnext : s'.i = s.i + 1 ∧ s'.failed = false ∧
      s'.db = (api.exec s.db (snprintf 100 (createTrig s.i))).db := by
    simp only [fillStep, hs.running, hlt, hrc] at hstep
    obtain rfl := Option.some.inj hstep
    exact ⟨rfl, rfl, rfl⟩
  obtain ⟨hi, hfailed, hdb⟩ := hnext
  have hlt' : s.i.toInt < triggersNumber.toInt := Int32.lt_iff_toInt_lt.mp hlt
  have hsucc := toInt_succ hlt'
  have hone := hs.one_le
  have hcount : (s.i + 1).toInt.toNat = s.i.toInt.toNat + 1 := by omega
  refine ⟨⟨hfailed, ?_, ?_, ?_, ?_⟩, ?_⟩
  · rw [hi]
    omega
  · rw [hi]
    omega
  · rw [hdb, htable]
    exact hs.tbl
  · rw [hdb, hi, hcount]
    exact htriggers
  · rw [hi]
    omega

/-- The loop ends without a failure, with all triggers in the database. -/
theorem mem_eval_fillStep (hapi : ExecutesCreate api) {s : FillState DB}
    (hs : FillInv api triggersNumber s) :
    ∃ r ∈ eval (fillStep api triggersNumber) s, r.failed = false ∧
      api.names r.db .trigger = triggerNames triggersNumber.toInt.toNat := by
  obtain ⟨r, hr, hinv, hend⟩ := Loop.mem_eval_of_invariant
    (fun s : FillState DB => (triggersNumber.toInt - s.i.toInt).toNat)
    (fun _ _ hinv hstep => hinv.step hapi hstep) hs
  have hge : ¬ r.i < triggersNumber := by
    rcases fillStep_eq_none_iff.mp hend with hfailed | hge
    · rw [hinv.running] at hfailed
      cases hfailed
    · exact hge
  refine ⟨r, hr, hinv.running, ?_⟩
  have hone := hinv.one_le
  have hmax := hinv.le_max
  have hge' : triggersNumber.toInt ≤ r.i.toInt :=
    Int.not_lt.mp (mt Int32.lt_iff_toInt_lt.mpr hge)
  rw [hinv.triggers]
  rcases Int.lt_or_le triggersNumber.toInt 1 with hsmall | hbig
  · -- no iteration: the counter is 1, and there is no number from 1 to below it
    have hi : r.i.toInt.toNat = 1 := by omega
    have hnone : Finset.Ico 1 triggersNumber.toInt.toNat = ∅ := Finset.Ico_eq_empty (by omega)
    rw [hi, triggerNames, triggerNames, hnone, Finset.Ico_self]
  · have hi : r.i.toInt = triggersNumber.toInt := by omega
    rw [hi]

end Fill

/-! ## The name that the symbolic step tries -/

/-- The characters of a C string. -/
def asText (s : List UInt8) : Text := s.map fun c => Char.ofNat c.toNat

theorem asText_triggerNamed (c : UInt8) :
    asText (triggerNamed c) =
      "create trigger".toList ++ ' ' :: (asText [c] ++
        ' ' :: "after insert on tbl begin insert into tbl values(1,2); end;".toList) := rfl

/-- What holds of every symbolic name holds of finitely many bytes. -/
private theorem forall_nameAssumption {P : UInt8 → Prop}
    (h : ∀ k < 256, nameAssumption (UInt8.ofNat k) → P (UInt8.ofNat k)) (c : UInt8)
    (hc : nameAssumption c) : P c := by
  have heq : UInt8.ofNat c.toNat = c := UInt8.ofNat_toNat
  have hP := h c.toNat c.toNat_lt
  rw [heq] at hP
  exact hP hc

theorem isIdentifier_symbolic {c : UInt8} (hc : nameAssumption c) :
    isIdentifier (asText [c]) = true :=
  forall_nameAssumption (P := fun c => isIdentifier (asText [c]) = true) (by decide +kernel) c hc

theorem sameName_t_iff {c : UInt8} (hc : nameAssumption c) :
    sameName "t".toList (asText [c]) ↔ asText [c] = "t".toList :=
  forall_nameAssumption (P := fun c => sameName "t".toList (asText [c]) ↔ asText [c] = "t".toList)
    (by decide +kernel) c hc

/-- The statement of the symbolic step is complete, whatever its name is. -/
theorem parseCreate_triggerNamed {c : UInt8} (hc : nameAssumption c) :
    parseCreate (asText (triggerNamed c)) = some ⟨.trigger, asText [c]⟩ := by
  rw [asText_triggerNamed]
  exact parseCreate_trigger (isIdentifier_symbolic hc) (by decide +kernel) (by decide +kernel)

/-- Only the trigger outside of the loop has a name of one letter. -/
theorem exists_sameName_symbolic_iff {c : UInt8} (hc : nameAssumption c) (k : ℕ) :
    (∃ v ∈ triggerNames k, sameName v (asText [c])) ↔ asText [c] = "t".toList := by
  rw [← sameName_t_iff hc]
  constructor
  · rintro ⟨v, hv, hsame⟩
    rcases Finset.mem_insert.mp hv with rfl | hv
    · exact hsame
    · obtain ⟨j, -, rfl⟩ := Finset.mem_image.mp hv
      rw [sameName, lower_trig] at hsame
      exact absurd hsame.symm (lower_ne_of_length_le_one (v := asText [c]) (Nat.le_refl 1) j)
  · intro hsame
    exact ⟨_, Finset.mem_insert_self .., hsame⟩

/-! ## The filled table -/

/-- What the benchmark needs of the filled database: the triggers are `t` and the
numbered ones, all different, and of the names that the symbolic step tries only `t` is
taken. -/
structure Filled {DB : Type*} (api : SqliteApi DB) (triggersNumber : Int32) (db : DB) : Prop where
  triggers : api.names db .trigger =
    insert "t".toList
      ((Finset.Ico 1 triggersNumber.toInt.toNat).image fun j => "trig".toList ++ decimal j)
  count : ((api.names db .trigger).card : ℤ) = max 1 triggersNumber.toInt
  distinct : ∀ v ∈ api.names db .trigger, ∀ w ∈ api.names db .trigger, sameName v w → v = w
  symbolic : ∀ c, nameAssumption c →
    parseCreate (asText (triggerNamed c)) = some ⟨.trigger, asText [c]⟩ ∧
      (api.Taken db ⟨.trigger, asText [c]⟩ ↔ asText [c] = "t".toList)

/-- The first statement creates the table, and no trigger. -/
theorem exec_createTbl {DB : Type*} {api : SqliteApi DB} (hapi : ExecutesCreate api) {db : DB}
    (hempty : ∀ kind, api.names db kind = ∅) :
    (api.exec db createTbl).rc = 0 ∧
      "tbl".toList ∈ api.names (api.exec db createTbl).db .table ∧
      api.names (api.exec db createTbl).db .trigger = ∅ := by
  have hfree : ¬ api.Taken db ⟨.table, "tbl".toList⟩ := by
    rintro ⟨v, hv, -⟩
    simp [hempty] at hv
  obtain ⟨hrc, htable, hother⟩ := hapi.creates db _ _ parseCreate_createTbl hfree nofun
  refine ⟨hrc, ?_, ?_⟩
  · rw [htable]
    exact Finset.mem_insert_self ..
  · rw [hother .trigger nofun]
    exact hempty .trigger

/-- The second statement creates the trigger outside of the loop, which begins with it. -/
theorem exec_createT {DB : Type*} {api : SqliteApi DB} (hapi : ExecutesCreate api) {db : DB}
    (htbl : "tbl".toList ∈ api.names db .table) (hnone : api.names db .trigger = ∅)
    (triggersNumber : Int32) (out : Text) :
    (api.exec db createT).rc = 0 ∧
      FillInv api triggersNumber
        { i := 1, db := (api.exec db createT).db, out := out, failed := false } := by
  have hfree : ¬ api.Taken db ⟨.trigger, "t".toList⟩ := by
    rintro ⟨v, hv, -⟩
    simp [hnone] at hv
  obtain ⟨hrc, htriggers, hother⟩ :=
    hapi.creates db _ _ parseCreate_createT hfree fun _ => htbl
  refine ⟨hrc, rfl, Int.le_refl 1, Int.le_max_left .., ?_, ?_⟩
  · show "tbl".toList ∈ api.names (api.exec db createT).db .table
    rw [hother .table nofun]
    exact htbl
  · show api.names (api.exec db createT).db .trigger = triggerNames 1
    rw [htriggers, hnone]
    rfl

/-- **The trigger table is filled exactly**: from every database without tables and
triggers and for every number, `populate_db` ends and returns 0, no statement is
truncated, and the database is filled. -/
theorem populateDb_fills {DB : Type*} {api : SqliteApi DB} (hapi : ExecutesCreate api) {db : DB}
    (hempty : ∀ kind, api.names db kind = ∅) (triggersNumber : Int32) :
    (∀ i, snprintf 100 (createTrig i) = createTrig i) ∧
      ∃ r ∈ populateDb api db triggersNumber, r.status = 0 ∧ Filled api triggersNumber r.db := by
  refine ⟨snprintf_createTrig, ?_⟩
  obtain ⟨hrc₁, htbl, hnone⟩ := exec_createTbl hapi hempty
  obtain ⟨hrc₂, hinit⟩ :=
    exec_createT hapi htbl hnone triggersNumber "Creating trigger t\n".toList
  obtain ⟨r, hr, hrunning, hnames⟩ := mem_eval_fillStep hapi hinit
  -- no statement has failed, so the function returns 0 behind the loop
  have hresult : (⟨0, r.db, r.out⟩ : Populated DB) ∈ populateDb api db triggersNumber := by
    have hmap := Part.mem_map (fun s : FillState DB =>
      (⟨if s.failed then 1 else 0, s.db, s.out⟩ : Populated DB)) hr
    rw [hrunning] at hmap
    simpa [populateDb, hrc₁, hrc₂] using hmap
  refine ⟨_, hresult, rfl, ⟨hnames, ?_, ?_, ?_⟩⟩
  · show ((api.names r.db .trigger).card : ℤ) = max 1 triggersNumber.toInt
    rw [hnames, card_triggerNames]
    omega
  · intro v hv w hw hsame
    rw [hnames] at hv hw
    exact eq_of_sameName hv hw hsame
  · intro c hc
    refine ⟨parseCreate_triggerNamed hc, ?_⟩
    rw [← exists_sameName_symbolic_iff hc triggersNumber.toInt.toNat, ← hnames]
    exact Iff.rfl

/-! ## A database in memory -/

/-- A catalog of the names of tables and triggers, which executes the CREATE statements
of the benchmark and nothing else. -/
def catalogApi : SqliteApi (ObjectKind → Finset Text) where
  names db := db
  exec db sql :=
    match parseCreate sql with
    | none => ⟨db, 1, "near \"\": syntax error".toList⟩
    | some c =>
        if ∃ v ∈ db c.kind, sameName v c.name then
          ⟨db, 1, c.name ++ " already exists".toList⟩
        else if c.kind = .trigger ∧ "tbl".toList ∉ db .table then
          ⟨db, 1, "no such table: main.tbl".toList⟩
        else ⟨Function.update db c.kind (insert c.name (db c.kind)), 0, []⟩

theorem executesCreate_catalogApi : ExecutesCreate catalogApi where
  creates := by
    intro db sql c hparse hfresh htable
    have hfree : ¬ ∃ v ∈ db c.kind, sameName v c.name := hfresh
    have htbl : ¬ (c.kind = .trigger ∧ "tbl".toList ∉ db .table) :=
      fun h => h.2 (htable h.1)
    have hexec : catalogApi.exec db sql =
        ⟨Function.update db c.kind (insert c.name (db c.kind)), 0, []⟩ := by
      simp only [catalogApi, hparse, if_neg hfree, if_neg htbl]
    rw [hexec]
    refine ⟨rfl, Function.update_self .., fun kind hkind => ?_⟩
    exact Function.update_of_ne hkind ..
  refuses := by
    intro db sql c hparse htaken
    have hfree : ∃ v ∈ db c.kind, sameName v c.name := htaken
    have hexec : catalogApi.exec db sql = ⟨db, 1, c.name ++ " already exists".toList⟩ := by
      simp only [catalogApi, hparse, if_pos hfree]
    rw [hexec]
    exact ⟨Int.one_ne_zero, fun _ => rfl⟩

/-- The table of the benchmark's default, twenty triggers. -/
theorem populateDb_fills_default :
    (∀ i, snprintf 100 (createTrig i) = createTrig i) ∧
      ∃ r ∈ populateDb catalogApi (fun _ => ∅) 20, r.status = 0 ∧ Filled catalogApi 20 r.db :=
  populateDb_fills executesCreate_catalogApi (fun _ => rfl) 20

end SmtCacheBenchmarks.Sqlite
