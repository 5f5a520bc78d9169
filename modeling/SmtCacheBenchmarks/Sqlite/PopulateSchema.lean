import SmtCacheBenchmarks.Sqlite.Keyword
import SmtCacheBenchmarks.Sqlite.PopulateDb
import SmtCacheBenchmarks.Sqlite.SchemaRefinement

/-!
# Filling the Schema

`populate_db` on the functions of `Trigger.lean` in place of a catalog that is assumed:
each of its statements, when it is complete, is one step of the schema of the database
main.  What is shown of the filled table is what the benchmark is about, the triggers that
an INSERT has to look through.

The allocations that can fail are those of the objects of the schema and of their hash
tables.  The function does not look at what `malloc(100)` gives for its buffer, and prints
`err_msg` without a look at it; both are taken to be allocated, and so is all that a
statement needs besides the objects it creates.
-/

namespace SmtCacheBenchmarks.Sqlite

open SmtCacheBenchmarks.Library StateTransition Simulation

/-! ## Statements on the schema -/

/-- The C string in a buffer. -/
def cString (w : Text) : CString :=
  ⟨w.takeWhile (· ≠ '\x00'), fun h => by simpa using List.mem_takeWhile_imp h⟩

/-- The database main. -/
def Databases.main (dbs : Databases) : Fin dbs.names.length :=
  ⟨0, Nat.lt_of_lt_of_le Nat.zero_lt_two dbs.two⟩

/-- The table `tbl` as it is looked up. -/
def tblName : TableName := ⟨cString "tbl".toList, by decide⟩

/-- A trigger with the body of `triggerBody`: AFTER INSERT ON tbl. -/
def onTbl (name : Text) : NewTrigger :=
  { pName := name, zName := cString name, zDatabase := none, table := tblName, time := .after,
    op := .insert, pColumns := none }

/-- What a complete statement does to the schema. -/
def Create.schemaOp (dbs : Databases) (c : Create) : SchemaOp dbs.names.length :=
  match c.kind with
  | .table => .createTable dbs.main ⟨c.name, cString c.name, .table⟩
  | .trigger => .createTrigger dbs.main (onTbl c.name)

theorem Create.schemaOp_isQuery {dbs : Databases} (c : Create) :
    (c.schemaOp dbs).isQuery = false := by
  unfold Create.schemaOp
  cases c.kind
  all_goals rfl

theorem Create.schemaOp_creates {dbs : Databases} (c : Create) :
    (c.schemaOp dbs).creates = true := by
  unfold Create.schemaOp
  cases c.kind
  all_goals rfl

/-- The names of the objects of one kind in main. -/
def Db.mainNames (db : Db) : ObjectKind → Finset Text
  | .table => (((db.hashEach (0, .tbl)).getD []).filterMap fun p =>
      (db.tables p).map fun t => t.zName.1).toFinset
  | .trigger => (((db.hashEach (0, .trig)).getD []).filterMap fun p =>
      (db.triggers p).map fun t => t.zName.1).toFinset

/-- A connection between two statements: `none` after a step that follows a bad pointer or
violates an assertion; and whether there has been memory for all objects so far. -/
structure Session where
  db : Option Db
  served : Bool

/-- `sqlite3_exec` on the schema, for complete CREATE statements. -/
def schemaApi (mem : Memory) (dbs : Databases) : SqliteApi Session where
  exec s sql :=
    match s.db, parseCreate sql with
    | some db, some c =>
        let served := s.served && mem.room db (c.schemaOp dbs)
        match schemaCall mem dbs db (c.schemaOp dbs) with
        | some (db, .done) => ⟨⟨some db, served⟩, 0, []⟩
        | some (db, .error e) => ⟨⟨some db, served⟩, 1, e⟩
        | some (db, .noMemory) => ⟨⟨some db, served⟩, 7, "out of memory".toList⟩
        -- only a question or DROP is answered so
        | some (db, _) => ⟨⟨some db, served⟩, 0, []⟩
        | none => ⟨⟨none, served⟩, 11, []⟩
    -- other statements are not executed
    | _, _ => ⟨s, 1, "syntax error".toList⟩
  names s kind := s.db.elim ∅ fun db => db.mainNames kind

/-- A statement that the catalog accepts is done, exactly when there is memory for it. -/
theorem exec_schemaApi {mem : Memory} (hmem : mem.Sound) {m : ℕ} (hm : m < 2 ^ 31 - 1)
    {dbs : Databases} {db : Db} {c c' : Catalog} (h : SchemaHolds dbs.names.length m db c)
    {sql : Text} {x : Create} (hparse : parseCreate sql = some x)
    (hchange : c.change dbs (x.schemaOp dbs) = (c', .done)) :
    ∃ db', ((schemaApi mem dbs).exec ⟨some db, true⟩ sql = ⟨⟨some db', true⟩, 0, []⟩ ∧
        SchemaHolds dbs.names.length (m + 1) db' c') ∨
      (schemaApi mem dbs).exec ⟨some db, true⟩ sql =
        ⟨⟨some db', false⟩, 7, "out of memory".toList⟩ := by
  obtain ⟨db', r, c'', hcall, hspec, hholds⟩ := schemaCall_spec hmem hm h (x.schemaOp dbs)
  have hstatement := hspec.eq_statement x.schemaOp_isQuery
  rw [Catalog.statement, hchange, x.schemaOp_creates] at hstatement
  refine ⟨db', ?_⟩
  cases hroom : mem.room db (x.schemaOp dbs) with
  | true =>
      rw [hroom] at hstatement
      obtain ⟨rfl, rfl⟩ := Prod.mk.inj hstatement
      exact .inl ⟨by simp [schemaApi, hparse, hcall, hroom], hholds⟩
  | false =>
      rw [hroom] at hstatement
      obtain ⟨rfl, rfl⟩ := Prod.mk.inj hstatement
      exact .inr (by simp [schemaApi, hparse, hcall, hroom])

/-- A statement that the catalog refuses is refused. -/
theorem exec_schemaApi_error {mem : Memory} (hmem : mem.Sound) {m : ℕ} (hm : m < 2 ^ 31 - 1)
    {dbs : Databases} {db : Db} {c c' : Catalog} (h : SchemaHolds dbs.names.length m db c)
    {sql : Text} {x : Create} (hparse : parseCreate sql = some x) {e : Text}
    (hchange : c.change dbs (x.schemaOp dbs) = (c', .error e)) (s : Bool) :
    ((schemaApi mem dbs).exec ⟨some db, s⟩ sql).rc = 1 := by
  obtain ⟨db', r, c'', hcall, hspec, -⟩ := schemaCall_spec hmem hm h (x.schemaOp dbs)
  have hstatement := hspec.eq_statement x.schemaOp_isQuery
  rw [Catalog.statement, hchange, if_neg (by simp)] at hstatement
  obtain ⟨-, rfl⟩ := Prod.mk.inj hstatement
  simp [schemaApi, hparse, hcall]

/-! ## The names -/

theorem cString_val {w : Text} (hw : isIdentifier w = true) : (cString w).1 = w := by
  refine List.takeWhile_eq_self_iff.mpr fun c hc => ?_
  have hid := ((mem_isIdentifier hw).2 c hc).2
  refine decide_eq_true fun heq => ?_
  rw [heq] at hid
  exact absurd hid (by decide)

/-- The hash tables compare names as the statements do. -/
theorem foldKey_cString_iff {v w : Text} (hv : isIdentifier v = true)
    (hw : isIdentifier w = true) : foldKey (cString v) = foldKey (cString w) ↔ sameName v w := by
  have hfold : ∀ c : Char, upperToLower c = c.toLower.toNat := fun c => (toNat_toLower c).symm
  have hlower : ∀ u : Text, u.map upperToLower = (lower u).map Char.toNat := by
    intro u
    rw [lower, List.map_map]
    exact List.map_congr_left fun c _ => hfold c
  rw [foldKey, foldKey, cString_val hv, cString_val hw, hlower, hlower, sameName]
  exact (List.map_injective_iff.mpr fun _ _ => Char.toNat_inj.mp).eq_iff

/-- The triggers below the counter, the latest first. -/
def filledNames (k : ℕ) : List Text :=
  (List.range k).reverse.map fun j => if j = 0 then "t".toList else "trig".toList ++ decimal j

theorem filledNames_succ {k : ℕ} (hk : 1 ≤ k) :
    filledNames (k + 1) = ("trig".toList ++ decimal k) :: filledNames k := by
  rw [filledNames, List.range_succ, List.reverse_append, List.reverse_singleton,
    List.singleton_append, List.map_cons, if_neg (by omega)]
  rfl

theorem filledNames_ne_nil {k : ℕ} (hk : 1 ≤ k) : filledNames k ≠ [] := by
  intro hnil
  have hlength := congrArg List.length hnil
  rw [filledNames, List.length_map, List.length_reverse, List.length_range] at hlength
  exact absurd hlength (Nat.ne_of_gt hk)

theorem mem_filledNames {k : ℕ} {w : Text} (hw : w ∈ filledNames k) :
    w ∈ triggerNames k ∧ isIdentifier w = true := by
  obtain ⟨j, hj, rfl⟩ := List.mem_map.mp hw
  have hlt : j < k := by simpa using hj
  split_ifs with hzero
  · exact ⟨Finset.mem_insert_self .., by decide +kernel⟩
  · refine ⟨Finset.mem_insert_of_mem (Finset.mem_image_of_mem _ ?_), isIdentifier_trig j⟩
    exact Finset.mem_Ico.mpr ⟨by omega, hlt⟩

theorem toFinset_filledNames {k : ℕ} (hk : 1 ≤ k) : (filledNames k).toFinset = triggerNames k := by
  ext w
  rw [List.mem_toFinset]
  constructor
  · exact fun hw => (mem_filledNames hw).1
  · intro hw
    rcases Finset.mem_insert.mp hw with rfl | hw
    · exact List.mem_map.mpr ⟨0, by simpa using Nat.lt_of_succ_le hk, rfl⟩
    · obtain ⟨j, hj, rfl⟩ := Finset.mem_image.mp hw
      obtain ⟨hone, hlt⟩ := Finset.mem_Ico.mp hj
      exact List.mem_map.mpr ⟨j, by simpa using hlt, if_neg (Nat.ne_of_gt hone)⟩

/-- The triggers in the hash table of main are those of the catalog. -/
theorem mainNames_trigger {n m : ℕ} {db : Db} {c : Catalog} (h : SchemaHolds n m db c) :
    db.mainNames .trigger =
      ((c.triggers.filter fun g => g.pSchema = 0).map fun g => g.zName.1).toFinset := by
  obtain ⟨T, tl, gl, hT, hobj, -, -, rfl⟩ := h
  obtain ⟨entries, heach, hnodup, hentries⟩ := hT.each (0, .trig)
  obtain ⟨ys, hdata, hys⟩ := hobj.triggers.each hnodup hentries
  have hptrs : db.hashEach (0, .trig) = some (ys.map Prod.fst) := by
    rw [Db.hashEach, heach, hdata]
  have hnames : ((ys.map Prod.fst).filterMap fun p => (db.triggers p).map fun t => t.zName.1) =
      ys.map fun y => y.2.zName.1 := by
    rw [List.filterMap_map, ← List.filterMap_eq_map]
    refine List.filterMap_congr fun y hy => ?_
    obtain ⟨next, htrig, -⟩ :=
      Db.triggers_eq (hobj.triggers.object y (List.mem_filter.mp (hys.subset hy)).1)
    simp [htrig]
  have hcatalog : ((catalogOf db.loaded tl gl).triggers.filter fun g => g.pSchema = 0) =
      (gl.filter fun y => y.2.pSchema = 0).map Prod.snd := List.filter_map ..
  rw [Db.mainNames, hptrs, Option.getD_some, hnames, hcatalog, List.map_map]
  exact List.toFinset_eq_of_perm _ _ (hys.map _)

/-! ## The filled catalog -/

/-- All schemas have been read, and there is nothing but the tables of the schemas. -/
structure Opened (dbs : Databases) (c : Catalog) : Prop where
  loaded : c.isLoaded dbs = true
  masters : ∀ t ∈ c.tables, t.zName = masterName ∨ t.zName = tempMasterName
  triggers : c.triggers = []

/-- The table `tbl`. -/
def tbl : TableInfo := ⟨⟨tblName.z, 0⟩, .table⟩

/-- With `tbl`, and with triggers of these names. -/
def Catalog.withTbl (c : Catalog) (names : List Text) : Catalog :=
  { c with tables := tbl :: c.tables, triggers := names.map fun w => (onTbl w).info 0 0 }

section Filled

variable {dbs : Databases} {c : Catalog} (h : Opened dbs c)

include h

/-- The tables of the schemas have other names. -/
theorem Opened.foldKey_ne {t : TableInfo} (ht : t ∈ c.tables) :
    foldKey t.zName ≠ foldKey tblName.z := by
  rcases h.masters t ht with hname | hname
  · rw [hname]
    decide +kernel
  · rw [hname]
    decide +kernel

theorem Opened.findTable_tbl {names : List Text} {zDatabase : Option CString}
    (hmain : 0 ∈ Catalog.searched dbs zDatabase) :
    (c.withTbl names).findTable dbs tblName.z zDatabase = some tbl := by
  refine Catalog.findTable_unique List.mem_cons_self hmain rfl fun u hu hname => ?_
  rcases List.mem_cons.mp hu with rfl | hu
  · rfl
  · exact absurd hname (h.foldKey_ne hu)

omit h in
theorem main_mem_searched (dbs : Databases) :
    0 ∈ Catalog.searched dbs (some (dbs.zDbSName dbs.main)) :=
  (Catalog.mem_searched_zDbSName dbs.main.isLt).mpr rfl

/-- The first statement. -/
theorem Opened.change_createTbl :
    c.change dbs ((⟨.table, "tbl".toList⟩ : Create).schemaOp dbs) = (c.withTbl [], .done) := by
  have hname : sqlite3StrICmp tblName.z masterName ≠ 0 := by decide +kernel
  have hmaster : isTempMaster dbs tblName.z (some (dbs.zDbSName dbs.main)) = false := by
    simp [isTempMaster, hname]
  have hnone : c.findTable dbs tblName.z (some (dbs.zDbSName dbs.main)) = none :=
    Catalog.findTable_eq_none hmaster fun u hu => h.foldKey_ne hu
  have hinfo : (⟨"tbl".toList, tblName.z, .table⟩ : NewTable).info dbs.main = tbl := rfl
  have hop : (⟨.table, "tbl".toList⟩ : Create).schemaOp dbs =
      .createTable dbs.main ⟨"tbl".toList, tblName.z, .table⟩ := rfl
  simp only [hop, Catalog.change, Catalog.createTable, hnone, hinfo, Catalog.withTbl, h.triggers,
    List.map_nil]

/-- A trigger with a new name comes first. -/
theorem Opened.change_createTrigger {names : List Text} {w : Text}
    (hnames : ∀ v ∈ names, isIdentifier v = true) (hw : isIdentifier w = true)
    (hnew : ∀ v ∈ names, ¬ sameName v w) :
    (c.withTbl names).change dbs ((⟨.trigger, w⟩ : Create).schemaOp dbs) =
      (c.withTbl (w :: names), .done) := by
  have hfind : (c.withTbl names).findTable dbs (onTbl w).table.z
      ((onTbl w).tableDb dbs dbs.main) = some tbl := h.findTable_tbl (main_mem_searched dbs)
  have hmissing : (c.withTbl names).trigger? dbs.main (onTbl w).zName = none := by
    refine List.find?_eq_none.mpr fun g hg => ?_
    obtain ⟨v, hv, rfl⟩ := List.mem_map.mp hg
    have hne := mt (foldKey_cString_iff (hnames v hv) hw).mp (hnew v hv)
    rw [decide_eq_true_eq]
    exact fun hsame => hne hsame.2
  have herror : (onTbl w).error dbs.main tbl false = none := rfl
  simp only [Create.schemaOp, Catalog.change, Catalog.createTrigger, hfind, hmissing,
    Option.isSome_none, herror]
  rfl

/-- A trigger whose name is taken is refused. -/
theorem Opened.change_createTrigger_taken {names : List Text} {v w : Text} (hv : v ∈ names)
    (hid : isIdentifier v = true) (hw : isIdentifier w = true) (hsame : sameName v w) :
    (c.withTbl names).change dbs ((⟨.trigger, w⟩ : Create).schemaOp dbs) =
      (c.withTbl names, .error ("trigger ".toList ++ w ++ " already exists".toList)) := by
  have hfind : (c.withTbl names).findTable dbs (onTbl w).table.z
      ((onTbl w).tableDb dbs dbs.main) = some tbl := h.findTable_tbl (main_mem_searched dbs)
  have htaken : ((c.withTbl names).trigger? dbs.main (onTbl w).zName).isSome = true := by
    refine List.find?_isSome.mpr ⟨_, List.mem_map_of_mem hv, ?_⟩
    exact decide_eq_true ⟨rfl, (foldKey_cString_iff hid hw).mpr hsame⟩
  have herror : (onTbl w).error dbs.main tbl true =
      some ("trigger ".toList ++ w ++ " already exists".toList) := rfl
  simp only [Create.schemaOp, Catalog.change, Catalog.createTrigger, hfind, htaken, herror]

omit h in
/-- All triggers fire for an INSERT. -/
theorem triggerMask_onTbl {names : List Text} (hne : names ≠ []) :
    triggerMask .insert none (names.map fun w => (onTbl w).info 0 0) = triggerAfter := by
  have hfires : ∀ w, ((onTbl w).info 0 0).fires .insert none = true := fun _ => rfl
  have hafter : ∀ w, ((onTbl w).info 0 0).trTm = triggerAfter := fun _ => rfl
  have hrest : ∀ names : List Text, ((names.map fun w => (onTbl w).info 0 0).foldl (fun mask g =>
      if g.fires .insert none then mask ||| g.trTm else mask) triggerAfter) = triggerAfter := by
    intro names
    induction names with
    | nil => rfl
    | cons w names ih =>
        rw [List.map_cons, List.foldl_cons, if_pos (hfires w), hafter w, Nat.or_self]
        exact ih
  obtain ⟨w, names, rfl⟩ := List.exists_cons_of_ne_nil hne
  rw [triggerMask, List.map_cons, List.foldl_cons, if_pos (hfires w), Nat.zero_or]
  exact hrest names

/-- What an INSERT has to look through. -/
theorem Opened.triggersExist {names : List Text} (hne : names ≠ []) {room : Bool}
    {r : SchemaResult} {c' : Catalog}
    (hspec : CatalogSpec dbs room (c.withTbl names) (.triggersExist none tblName .insert none)
      r c') :
    r = .triggers triggerAfter (names.map fun w => (onTbl w).info 0 0) := by
  have hfind : (c.withTbl names).findTable dbs tblName.z none = some tbl :=
    h.findTable_tbl (List.mem_filter.mpr ⟨Databases.mem_order.mpr dbs.main.isLt, rfl⟩)
  have htemp : (c.withTbl names).tempTriggers tbl = [] := by
    refine List.filter_eq_nil_iff.mpr fun g hg => ?_
    obtain ⟨w, -, rfl⟩ := List.mem_map.mp hg
    simp [NewTrigger.info]
  have hown : (c.withTbl names).ownTriggers tbl = names.map fun w => (onTbl w).info 0 0 := by
    refine List.filter_eq_self.mpr fun g hg => ?_
    obtain ⟨w, -, rfl⟩ := List.mem_map.mp hg
    simp [NewTrigger.info, TriggerInfo.on, tbl, onTbl]
  cases hspec with
  | statement op hop => cases hop
  | notRead _ _ _ _ hnot => cases hnot.symm.trans h.loaded
  | noTable _ _ _ _ _ hnone =>
      rw [hfind] at hnone
      cases hnone
  | triggers _ _ _ _ t l _ ht hl =>
      -- there are no TEMP triggers, and all others fire
      obtain rfl := Option.some.inj (hfind.symm.trans ht)
      rw [htemp] at hl
      obtain rfl := hl.eq_nil
      rw [List.nil_append, hown, triggerMask_onTbl hne, if_pos (by decide)]

omit h in
theorem mainNames_withTbl {n m k : ℕ} {db : Db} (hk : 1 ≤ k)
    (hholds : SchemaHolds n m db (c.withTbl (filledNames k))) :
    db.mainNames .trigger = triggerNames k := by
  have hmain : ((c.withTbl (filledNames k)).triggers.filter fun g => g.pSchema = 0) =
      (c.withTbl (filledNames k)).triggers := by
    refine List.filter_eq_self.mpr fun g hg => ?_
    obtain ⟨w, -, rfl⟩ := List.mem_map.mp hg
    rfl
  have hnames : ((c.withTbl (filledNames k)).triggers.map fun g => g.zName.1) =
      filledNames k := by
    rw [Catalog.withTbl, List.map_map]
    refine (List.map_congr_left fun w hw => ?_).trans (List.map_id _)
    exact cString_val (mem_filledNames hw).2
  rw [mainNames_trigger hholds, hmain, hnames, toFinset_filledNames hk]

end Filled

/-- An INSERT into `tbl` finds the triggers of these names, in this order. -/
def InsertFinds (dbs : Databases) (db : Db) (names : List Text) : Prop :=
  ∃ db', sqlite3TriggersExist dbs db none tblName .insert none =
    some (db', .triggers triggerAfter (names.map fun w => (onTbl w).info 0 0))

theorem Opened.insertFinds {dbs : Databases} {c : Catalog} (h : Opened dbs c) {m : ℕ} {db : Db}
    {names : List Text} (hne : names ≠ [])
    (hholds : SchemaHolds dbs.names.length m db (c.withTbl names)) : InsertFinds dbs db names := by
  obtain ⟨db', r, c', hexist, hspec, -⟩ :=
    sqlite3TriggersExist_spec hholds true none tblName .insert none
  obtain rfl := h.triggersExist hne hspec
  exact ⟨db', hexist⟩

/-- The schemas of an empty database have been read. -/
theorem opened_readSchemas {results : List (Observed Bool SchemaResult)} {c : Catalog}
    (hspec : SpecRun (Spec.observed (CatalogSpec mainAndTemp)) .empty readSchemas results c)
    (hdone : ∀ o ∈ results, o.output = .done) : Opened mainAndTemp c := by
  have hcreate : ∀ {c c' : Catalog} {i : Fin mainAndTemp.names.length} {x : NewTable},
      c.change mainAndTemp (.createTable i x) = (c', .done) →
      c' = { c with tables := x.info i :: c.tables } := by
    intro c c' i x h
    simp only [Catalog.change, Catalog.createTable] at h
    split at h
    · cases (Prod.mk.inj h).2
    · exact (Prod.mk.inj h).1.symm
  cases hspec with | cons h₁ hspec =>
  cases hspec with | cons h₂ hspec =>
  cases hspec with | cons h₃ hspec =>
  cases hspec with | cons h₄ hspec =>
  cases hspec with | nil =>
  simp only [List.forall_mem_cons] at hdone
  obtain ⟨hdone₁, hdone₂, hdone₃, hdone₄, -⟩ := hdone
  simp only [Spec.observed, hdone₁, hdone₂, hdone₃, hdone₄] at h₁ h₂ h₃ h₄
  -- every step has made its change
  obtain rfl := hcreate (h₁.eq_change rfl)
  obtain rfl := (Prod.mk.inj (h₂.eq_change rfl)).1
  obtain rfl := hcreate (h₃.eq_change rfl)
  obtain rfl := (Prod.mk.inj (h₄.eq_change rfl)).1
  refine ⟨by decide, ?_, rfl⟩
  intro t ht
  simp only [List.mem_cons] at ht
  rcases ht with rfl | rfl | ht
  · exact .inr rfl
  · exact .inl rfl
  · cases ht

/-! ## The loop -/

section Fill

variable {mem : Memory} {dbs : Databases} {c : Catalog} {m : ℕ} {triggersNumber : Int32}

/-- What holds whenever the condition is evaluated: the schema has the triggers below the
counter, or there was no memory for the last one. -/
structure SchemaFill (dbs : Databases) (c : Catalog) (m : ℕ) (triggersNumber : Int32)
    (s : FillState Session) : Prop where
  one_le : 1 ≤ s.i.toInt
  le_max : s.i.toInt ≤ max 1 triggersNumber.toInt
  holds : s.failed = false → ∃ db, s.db = ⟨some db, true⟩ ∧ SchemaHolds dbs.names.length
    (m + 1 + s.i.toInt.toNat) db (c.withTbl (filledNames s.i.toInt.toNat))
  noMemory : s.failed = true →
    (∃ db, s.db = ⟨some db, false⟩) ∧ "out of memory".toList ++ "\n".toList <:+ s.out

/-- The number of iterations that are left, and the return. -/
def fillMeasure (triggersNumber : Int32) (s : FillState Session) : ℕ :=
  if s.failed then 0 else (triggersNumber.toInt - s.i.toInt).toNat + 1

theorem SchemaFill.step (hmem : mem.Sound) (h : Opened dbs c)
    (hn : m + triggersNumber.toInt < 2 ^ 31 - 2) {s s' : FillState Session}
    (hs : SchemaFill dbs c m triggersNumber s)
    (hstep : fillStep (schemaApi mem dbs) triggersNumber s = some s') :
    SchemaFill dbs c m triggersNumber s' ∧
      fillMeasure triggersNumber s' < fillMeasure triggersNumber s := by
  have hcontinue : s.failed = false ∧ s.i < triggersNumber := by
    constructor
    · by_contra hfailed
      rw [fillStep_eq_none_iff.mpr (.inl (Bool.of_not_eq_false hfailed))] at hstep
      cases hstep
    · by_contra hge
      rw [fillStep_eq_none_iff.mpr (.inr hge)] at hstep
      cases hstep
  obtain ⟨hfailed, hlt⟩ := hcontinue
  have hlt' : s.i.toInt < triggersNumber.toInt := Int32.lt_iff_toInt_lt.mp hlt
  have hone := hs.one_le
  have hmeasure : fillMeasure triggersNumber s = (triggersNumber.toInt - s.i.toInt).toNat + 1 := by
    simp [fillMeasure, hfailed]
  obtain ⟨db, hdb, hholds⟩ := hs.holds hfailed
  have hname := trigName_eq (i := s.i) (by omega)
  have hparse : parseCreate (snprintf 100 (createTrig s.i)) =
      some ⟨.trigger, "trig".toList ++ decimal s.i.toInt.toNat⟩ := by
    rw [snprintf_createTrig, parseCreate_createTrig (by omega), hname]
  have hchange := h.change_createTrigger (fun v hv => (mem_filledNames hv).2)
    (isIdentifier_trig s.i.toInt.toNat) (fun v hv => not_sameName_trig (mem_filledNames hv).1)
  rw [← filledNames_succ (by omega)] at hchange
  obtain ⟨db', ⟨hexec, hholds'⟩ | hexec⟩ :=
    exec_schemaApi hmem (by omega) hholds hparse hchange
  · -- the trigger is created, and the loop goes on
    have hs' : s' = { s with
        i := s.i + 1
        db := ⟨some db', true⟩
        out := s.out ++ "Creating trigger #".toList ++ decimalInt s.i.toInt ++ "\n".toList
        failed := false } := by
      simp only [fillStep, hfailed, hlt, hdb, hexec] at hstep
      exact (Option.some.inj hstep).symm
    subst hs'
    have hsucc := toInt_succ hlt'
    have hcount : (s.i + 1).toInt.toNat = s.i.toInt.toNat + 1 := by omega
    refine ⟨⟨?_, ?_, ?_, ?_⟩, ?_⟩
    · show 1 ≤ (s.i + 1).toInt
      omega
    · show (s.i + 1).toInt ≤ max 1 triggersNumber.toInt
      omega
    · intro _
      refine ⟨db', rfl, ?_⟩
      show SchemaHolds dbs.names.length (m + 1 + (s.i + 1).toInt.toNat) db'
        (c.withTbl (filledNames (s.i + 1).toInt.toNat))
      rw [hcount]
      exact hholds'
    · intro hf
      cases hf
    · rw [hmeasure]
      show (triggersNumber.toInt - (s.i + 1).toInt).toNat + 1 < _
      omega
  · -- the function prints the error and returns 1
    have hs' : s' = { s with
        db := ⟨some db', false⟩
        out := s.out ++ "Creating trigger #".toList ++ decimalInt s.i.toInt ++ "\n".toList ++
          "ERROR creating triggers: ".toList ++ "out of memory".toList ++ "\n".toList
        failed := true } := by
      simp only [fillStep, hfailed, hlt, hdb, hexec] at hstep
      exact (Option.some.inj hstep).symm
    subst hs'
    refine ⟨⟨hone, hs.le_max, fun hf => ?_, fun _ => ⟨⟨db', rfl⟩, ?_⟩⟩, ?_⟩
    · cases hf
    · exact ⟨_, (List.append_assoc ..).symm⟩
    · rw [hmeasure]
      exact Nat.succ_pos _

/-- What the symbolic statement does on a schema with these triggers: it is refused for the
name `t`, and else its trigger comes first, unless there is no memory for it. -/
def SymbolicCreates (mem : Memory) (dbs : Databases) (db : Db) (names : List Text) : Prop :=
  ∀ c, nameAssumption c →
    asText [c] = "t".toList ∧
        ((schemaApi mem dbs).exec ⟨some db, true⟩ (asText (triggerNamed c))).rc = 1 ∨
      asText [c] ≠ "t".toList ∧ ∃ db',
        ((schemaApi mem dbs).exec ⟨some db, true⟩ (asText (triggerNamed c)) =
            ⟨⟨some db', true⟩, 0, []⟩ ∧ InsertFinds dbs db' (asText [c] :: names)) ∨
          (schemaApi mem dbs).exec ⟨some db, true⟩ (asText (triggerNamed c)) =
            ⟨⟨some db', false⟩, 7, "out of memory".toList⟩

theorem Opened.symbolicCreates (hmem : mem.Sound) (h : Opened dbs c) (hm : m < 2 ^ 31 - 1)
    {db : Db} {k : ℕ} (hk : 1 ≤ k)
    (hholds : SchemaHolds dbs.names.length m db (c.withTbl (filledNames k))) :
    SymbolicCreates mem dbs db (filledNames k) := by
  intro b hb
  have hparse := parseCreate_triggerNamed hb
  have hid := isIdentifier_symbolic hb
  by_cases ht : asText [b] = "t".toList
  · have hmem_t : "t".toList ∈ filledNames k :=
      List.mem_map.mpr ⟨0, by simpa using Nat.lt_of_succ_le hk, rfl⟩
    have hchange := h.change_createTrigger_taken hmem_t (mem_filledNames hmem_t).2 hid
      ((sameName_t_iff hb).mpr ht)
    exact .inl ⟨ht, exec_schemaApi_error hmem hm hholds hparse hchange true⟩
  · -- no trigger of the loop has a name of one letter
    have hnew : ∀ v ∈ filledNames k, ¬ sameName v (asText [b]) := fun v hv hsame =>
      ht ((exists_sameName_symbolic_iff hb k).mp ⟨v, (mem_filledNames hv).1, hsame⟩)
    have hchange := h.change_createTrigger (fun v hv => (mem_filledNames hv).2) hid hnew
    obtain ⟨db', ⟨hexec, hholds'⟩ | hexec⟩ := exec_schemaApi hmem hm hholds hparse hchange
    · exact .inr ⟨ht, db', .inl ⟨hexec, h.insertFinds (List.cons_ne_nil _ _) hholds'⟩⟩
    · exact .inr ⟨ht, db', .inr hexec⟩

/-- The state of the loop behind the first two statements. -/
def beginFill {DB : Type} (api : SqliteApi DB) (db : DB) : FillState DB where
  i := 1
  db := (api.exec (api.exec db createTbl).db createT).db
  out := "Creating trigger t\n".toList
  failed := false

/-- When the first two statements succeed, the function ends where its loop does. -/
theorem mem_populateDb {DB : Type} {api : SqliteApi DB} {db : DB}
    (h₁ : (api.exec db createTbl).rc = 0)
    (h₂ : (api.exec (api.exec db createTbl).db createT).rc = 0) {s : FillState DB}
    (hs : s ∈ eval (fillStep api triggersNumber) (beginFill api db)) :
    (⟨if s.failed then 1 else 0, s.db, s.out⟩ : Populated DB) ∈
      populateDb api db triggersNumber := by
  have hmap := Part.mem_map (fun s : FillState DB =>
    (⟨if s.failed then 1 else 0, s.db, s.out⟩ : Populated DB)) hs
  simpa [populateDb, beginFill, h₁, h₂] using hmap

/-- What `populate_db` leaves: all triggers, or the message that there was no memory. -/
def PopulateResult (mem : Memory) (dbs : Databases) (k : ℕ) (r : Populated Session) : Prop :=
  ∃ db, r.db.db = some db ∧
    (r.db.served = false ∧ r.status = 1 ∧ "out of memory".toList ++ "\n".toList <:+ r.out ∨
      r.db.served = true ∧ r.status = 0 ∧
        (schemaApi mem dbs).names r.db .trigger = triggerNames k ∧
        InsertFinds dbs db (filledNames k) ∧ SymbolicCreates mem dbs db (filledNames k))

/-- From schemas that have been read the loop fills them. -/
theorem Opened.populateDb (hmem : mem.Sound) (h : Opened dbs c) {db₀ : Db}
    (hholds : SchemaHolds dbs.names.length m db₀ c)
    (hn : m + max 1 triggersNumber.toInt < 2 ^ 31 - 2) :
    ∃ r ∈ populateDb (schemaApi mem dbs) ⟨some db₀, true⟩ triggersNumber,
      PopulateResult mem dbs (max 1 triggersNumber.toInt).toNat r := by
  obtain ⟨db₁, ⟨hexec₁, hholds₁⟩ | hexec₁⟩ := exec_schemaApi hmem (by omega) hholds
    parseCreate_createTbl h.change_createTbl
  swap
  · -- there is no memory for the table
    refine ⟨⟨1, ⟨some db₁, false⟩, "ERROR creating table: ".toList ++ "out of memory".toList ++
      "\n".toList⟩, ?_, db₁, rfl, .inl ⟨rfl, rfl, _, (List.append_assoc ..).symm⟩⟩
    simp [Sqlite.populateDb, hexec₁]
  have hchange : (c.withTbl []).change dbs ((⟨.trigger, "t".toList⟩ : Create).schemaOp dbs) =
      (c.withTbl ["t".toList], .done) :=
    h.change_createTrigger (by simp) (by decide +kernel) (by simp)
  obtain ⟨db₂, ⟨hexec₂, hholds₂⟩ | hexec₂⟩ :=
    exec_schemaApi hmem (by omega) hholds₁ parseCreate_createT hchange
  swap
  · -- or for the trigger `t`
    refine ⟨⟨1, ⟨some db₂, false⟩, "Creating trigger t\n".toList ++ "ERROR: ".toList ++
      "out of memory".toList ++ "\n".toList⟩, ?_, db₂, rfl, .inl ⟨rfl, rfl, _,
      (List.append_assoc ..).symm⟩⟩
    simp [Sqlite.populateDb, hexec₁, hexec₂]
  have hbegin : (beginFill (schemaApi mem dbs) ⟨some db₀, true⟩).db = ⟨some db₂, true⟩ := by
    rw [beginFill, hexec₁, hexec₂]
  have hinit : SchemaFill dbs c m triggersNumber
      (beginFill (schemaApi mem dbs) ⟨some db₀, true⟩) := by
    refine ⟨le_rfl, le_max_left .., fun _ => ⟨db₂, hbegin, hholds₂⟩, fun hf => ?_⟩
    cases hf
  obtain ⟨s, hs, hinv, hend⟩ := Loop.mem_eval_of_invariant (fillMeasure triggersNumber)
    (fun _ _ hinv hstep => hinv.step hmem h (by omega) hstep) hinit
  refine ⟨_, mem_populateDb (by rw [hexec₁]) (by rw [hexec₁, hexec₂]) hs, ?_⟩
  cases hfailed : s.failed with
  | true =>
      obtain ⟨⟨db, hdb⟩, hout⟩ := hinv.noMemory hfailed
      exact ⟨db, by rw [hdb], .inl ⟨by rw [hdb], rfl, hout⟩⟩
  | false =>
      obtain ⟨db, hdb, hholds'⟩ := hinv.holds hfailed
      have hge : ¬ s.i < triggersNumber := by
        rcases fillStep_eq_none_iff.mp hend with hf | hge
        · rw [hfailed] at hf
          cases hf
        · exact hge
      have hone := hinv.one_le
      have hmax := hinv.le_max
      have hge' : triggersNumber.toInt ≤ s.i.toInt :=
        Int.not_lt.mp (mt Int32.lt_iff_toInt_lt.mpr hge)
      have hi : s.i.toInt = max 1 triggersNumber.toInt := by omega
      rw [hi] at hholds'
      have hk : 1 ≤ (max 1 triggersNumber.toInt).toNat := by omega
      refine ⟨db, by rw [hdb], .inr ⟨by rw [hdb], rfl, ?_, h.insertFinds (filledNames_ne_nil hk)
        hholds', h.symbolicCreates hmem (by omega) hk hholds'⟩⟩
      show (schemaApi mem dbs).names s.db .trigger = _
      rw [hdb]
      exact mainNames_withTbl hk hholds'

end Fill

/-- **The benchmark on SQLite's schema**: on a new database whose schemas have been read,
`populate_db` ends without a bad pointer.  It returns 1, with the message that there is no
memory, exactly when there was none for one of the objects.  Else the hash table has the
triggers that the loop is to create, an INSERT looks through them from the last one down
to `t`, and of the symbolic statements only the one for `t` is refused. -/
theorem populateDb_schema {mem : Memory} (hmem : mem.Sound) {db₀ : Db}
    {results : List (Observed Bool SchemaResult)}
    (hread : Simulation.run (schemaStep mem mainAndTemp) 0 Db.init readSchemas =
      some (db₀, results))
    (hdone : ∀ o ∈ results, o.output = .done) {triggersNumber : Int32}
    (hn : triggersNumber.toInt < 2 ^ 31 - 6) :
    ∃ r ∈ populateDb (schemaApi mem mainAndTemp) ⟨some db₀, true⟩ triggersNumber,
      PopulateResult mem mainAndTemp (max 1 triggersNumber.toInt).toNat r := by
  obtain ⟨db, results', c, hrun, hspec, hholds⟩ := (schemaStep_simulates hmem mainAndTemp).run
    readSchemas (by decide) (schemaHolds_init mainAndTemp.names.length)
  rw [hread] at hrun
  obtain ⟨rfl, rfl⟩ := Prod.mk.inj (Option.some.inj hrun)
  have hlength : 0 + readSchemas.length = 4 := rfl
  rw [hlength] at hholds
  exact (opened_readSchemas hspec hdone).populateDb hmem hholds (by omega)

/-- The benchmark's default of twenty triggers: there is memory for all of them, and for the
trigger `b` of a symbolic statement. -/
theorem populateDb_schema_default :
    ∃ db₀ results, Simulation.run (schemaStep memoryNth mainAndTemp) 0 Db.init readSchemas =
        some (db₀, results) ∧
      ∃ r ∈ populateDb (schemaApi memoryNth mainAndTemp) ⟨some db₀, true⟩ 20,
        PopulateResult memoryNth mainAndTemp 20 r ∧ r.status = 0 ∧
          ((schemaApi memoryNth mainAndTemp).exec r.db (asText (triggerNamed 98))).rc = 0 := by
  have hread : ∃ db₀ results, Simulation.run (schemaStep memoryNth mainAndTemp) 0 Db.init
      readSchemas = some (db₀, results) ∧ ∀ o ∈ results, o.output = .done :=
    ⟨_, _, rfl, by decide⟩
  obtain ⟨db₀, results, hread, hdone⟩ := hread
  have hn : (20 : Int32).toInt < 2 ^ 31 - 6 := by decide
  obtain ⟨r, hr, hresult⟩ := populateDb_schema memoryNth_sound hread hdone hn
  have hrun : ((Simulation.run (schemaStep memoryNth mainAndTemp) 0 Db.init readSchemas).bind
      fun (db, _) =>
        let api := schemaApi memoryNth mainAndTemp
        let opened : Session := ⟨some db, true⟩
        (Loop.runFor (fillStep api 20) 21 (beginFill api opened)).map fun s =>
          ((api.exec opened createTbl).rc, (api.exec (api.exec opened createTbl).db createT).rc,
            s.failed, (api.exec s.db (asText (triggerNamed 98))).rc)) =
      some (0, 0, false, 0) := by decide +kernel
  rw [hread, Option.bind_some, Option.map_eq_some_iff] at hrun
  obtain ⟨s, hs, hrun⟩ := hrun
  simp only [Prod.mk.injEq] at hrun
  obtain ⟨h₁, h₂, hfailed, hsymbolic⟩ := hrun
  -- the function has this result and no other
  obtain rfl := Part.mem_unique hr (mem_populateDb h₁ h₂ (Loop.mem_eval_of_runFor hs))
  exact ⟨db₀, results, hread, _, hr, hresult, by rw [hfailed]; rfl, hsymbolic⟩

end SmtCacheBenchmarks.Sqlite
