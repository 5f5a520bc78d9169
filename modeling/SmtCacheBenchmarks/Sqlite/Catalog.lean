import SmtCacheBenchmarks.Sqlite.Trigger

/-!
# What the Schema of a Connection Is For

The specification of the functions in `Trigger.lean`: a catalog of tables and triggers,
without hash tables and pointers.  A name is looked up by its database and without regard
to case, a table takes its triggers with it when it is dropped, and TEMP does not outlive
the schemas that its triggers may be about.

The triggers that can fire for a table are those in its own schema and those in TEMP, the
latter first, and within its own schema the latest first.

What a statement may do depends on whether there is memory for what it creates, and
without it nothing changes.
-/

namespace SmtCacheBenchmarks.Sqlite

open SmtCacheBenchmarks.Library Simulation

/-- Which schemas have been read, and the tables and the triggers, the latest first. -/
structure Catalog where
  loaded : ℕ → Bool
  tables : List TableInfo
  triggers : List TriggerInfo

namespace Catalog

/-- All schemas have been read. -/
def isLoaded (dbs : Databases) (c : Catalog) : Bool :=
  (List.range dbs.names.length).all c.loaded

/-- The table of a name in one schema. -/
def table? (c : Catalog) (i : ℕ) (zName : CString) : Option TableInfo :=
  c.tables.find? fun t => t.pSchema = i ∧ foldKey t.zName = foldKey zName

/-- The trigger of a name in one schema. -/
def trigger? (c : Catalog) (i : ℕ) (zName : CString) : Option TriggerInfo :=
  c.triggers.find? fun g => g.pSchema = i ∧ foldKey g.zName = foldKey zName

/-- The databases in which a name is looked up. -/
def searched (dbs : Databases) (zDatabase : Option CString) : List ℕ :=
  dbs.order.filter fun j => zDatabase.all fun z => foldKey z = foldKey (dbs.zDbSName j)

/-- The table of a name. -/
def findTable (dbs : Databases) (c : Catalog) (zName : CString) (zDatabase : Option CString) :
    Option TableInfo :=
  ((searched dbs zDatabase).findSome? (c.table? · zName)).or
    (if isTempMaster dbs zName zDatabase then
      (searched dbs zDatabase).findSome? (c.table? · tempMasterName)
    else none)

/-- The trigger of a name. -/
def findTrigger (dbs : Databases) (c : Catalog) (zName : CString) (zDatabase : Option CString) :
    Option TriggerInfo :=
  (searched dbs zDatabase).findSome? (c.trigger? · zName)

end Catalog

theorem Databases.mem_order {dbs : Databases} {j : ℕ} : j ∈ dbs.order ↔ j < dbs.names.length := by
  have htwo := dbs.two
  have hxor : ∀ i < 2, i ^^^ 1 < 2 ∧ i ^^^ 1 ^^^ 1 = i := by decide
  simp only [Databases.order, List.mem_map, List.mem_range]
  constructor
  · rintro ⟨i, hi, rfl⟩
    split_ifs with hlt
    · exact (hxor i hlt).1.trans_le htwo
    · exact hi
  · intro hj
    by_cases hlt : j < 2
    · refine ⟨j ^^^ 1, (hxor j hlt).1.trans_le htwo, ?_⟩
      rw [if_pos (hxor j hlt).1, (hxor j hlt).2]
    · exact ⟨j, hj, if_neg hlt⟩

/-- The name of a database is its own. -/
theorem Catalog.mem_searched_zDbSName {dbs : Databases} {i j : ℕ} (hi : i < dbs.names.length) :
    j ∈ searched dbs (some (dbs.zDbSName i)) ↔ j = i := by
  have hname : ∀ {k} (hk : k < dbs.names.length),
      (dbs.names.map foldKey)[k]? = some (foldKey (dbs.zDbSName k)) := by
    intro k hk
    simp [Databases.zDbSName, hk]
  simp only [searched, List.mem_filter, Databases.mem_order, Option.all_some, decide_eq_true_eq]
  constructor
  · rintro ⟨hj, hsame⟩
    exact (List.getElem?_inj (by simpa using hj) dbs.distinct).mp
      ((hname hj).trans (hsame ▸ (hname hi).symm))
  · rintro rfl
    exact ⟨hi, rfl⟩

/-- A table is found in one of the databases that are searched. -/
theorem Catalog.mem_searched_of_findTable {dbs : Databases} {c : Catalog} {zName : CString}
    {zDatabase : Option CString} {t : TableInfo} (h : c.findTable dbs zName zDatabase = some t) :
    t.pSchema ∈ searched dbs zDatabase := by
  have hloop : ∀ z, (searched dbs zDatabase).findSome? (c.table? · z) = some t →
      t.pSchema ∈ searched dbs zDatabase := by
    intro z hz
    obtain ⟨i, hi, ht⟩ := List.exists_of_findSome?_eq_some hz
    have hschema := List.find?_some ht
    simp only [decide_eq_true_eq] at hschema
    exact hschema.1 ▸ hi
  rcases Option.or_eq_some_iff.mp h with hfound | ⟨-, hmaster⟩
  · exact hloop zName hfound
  · split_ifs at hmaster
    exact hloop tempMasterName hmaster

/-- How a name begins does not depend on the case. -/
theorem hasPrefix_of_foldKey {y z : CString} (h : foldKey y = foldKey z) (text : Text) :
    hasPrefix y text = hasPrefix z text := by
  have hprefix : (y.1.take text.length).map upperToLower =
      (z.1.take text.length).map upperToLower := by
    rw [List.map_take, List.map_take]
    exact congrArg (List.take text.length) h
  rw [hasPrefix, hasPrefix, hprefix]

/-- The search finds tables of the name. -/
theorem Catalog.foldKey_of_findSome? {c : Catalog} {zName : CString} {is : List ℕ} {t : TableInfo}
    (h : is.findSome? (c.table? · zName) = some t) : foldKey t.zName = foldKey zName := by
  obtain ⟨i, -, ht⟩ := List.exists_of_findSome?_eq_some h
  have hname := List.find?_some ht
  simp only [decide_eq_true_eq] at hname
  exact hname.2

/-- A table is found under its own name, or it is `sqlite_temp_master`. -/
theorem Catalog.foldKey_of_findTable {dbs : Databases} {c : Catalog} {zName : CString}
    {zDatabase : Option CString} {t : TableInfo} (h : c.findTable dbs zName zDatabase = some t)
    (hsystem : hasPrefix t.zName "sqlite_".toList = false) : foldKey t.zName = foldKey zName := by
  rcases Option.or_eq_some_iff.mp h with hfound | ⟨-, hmaster⟩
  · exact foldKey_of_findSome? hfound
  · split_ifs at hmaster
    rw [hasPrefix_of_foldKey (foldKey_of_findSome? hmaster)] at hsystem
    exact absurd hsystem (by decide)

/-- The table of a name in a database other than TEMP. -/
theorem Catalog.findTable_zDbSName {dbs : Databases} {c : Catalog} {i : ℕ}
    (hi : i < dbs.names.length) (htemp : i ≠ 1) {zName : CString} {t : TableInfo}
    (h : c.findTable dbs zName (some (dbs.zDbSName i)) = some t) :
    t.pSchema = i ∧ foldKey t.zName = foldKey zName := by
  refine ⟨(mem_searched_zDbSName hi).mp (mem_searched_of_findTable h), ?_⟩
  rcases Option.or_eq_some_iff.mp h with hfound | ⟨-, hmaster⟩
  · exact foldKey_of_findSome? hfound
  · -- only TEMP has a table `sqlite_temp_master`
    split_ifs at hmaster with hname
    simp only [isTempMaster, Option.any_some, Bool.and_eq_true, decide_eq_true_eq,
      sqlite3StrICmp_eq_zero_iff] at hname
    have hone : 1 ∈ searched dbs (some (dbs.zDbSName i)) :=
      List.mem_filter.mpr ⟨Databases.mem_order.mpr dbs.two, decide_eq_true hname.2⟩
    exact absurd ((mem_searched_zDbSName hi).mp hone).symm htemp

/-- When no table is found, none of the databases has one of the name. -/
theorem Catalog.table?_eq_none {dbs : Databases} {c : Catalog} {zName : CString}
    {zDatabase : Option CString} (h : c.findTable dbs zName zDatabase = none) {i : ℕ}
    (hi : i ∈ searched dbs zDatabase) : c.table? i zName = none :=
  List.findSome?_eq_none_iff.mp (Option.or_eq_none_iff.mp h).1 i hi

/-- A name that no table has is not found. -/
theorem Catalog.findTable_eq_none {dbs : Databases} {c : Catalog} {zName : CString}
    {zDatabase : Option CString} (hmaster : isTempMaster dbs zName zDatabase = false)
    (hnone : ∀ u ∈ c.tables, foldKey u.zName ≠ foldKey zName) :
    c.findTable dbs zName zDatabase = none := by
  have htable : ∀ i, c.table? i zName = none := fun i =>
    List.find?_eq_none.mpr fun u hu => by simp [hnone u hu]
  simp [findTable, htable, hmaster]

/-- The only table of its name is found. -/
theorem Catalog.findTable_unique {dbs : Databases} {c : Catalog} {t : TableInfo}
    (ht : t ∈ c.tables) {zName : CString} {zDatabase : Option CString}
    (hschema : t.pSchema ∈ searched dbs zDatabase) (hname : foldKey t.zName = foldKey zName)
    (hunique : ∀ u ∈ c.tables, foldKey u.zName = foldKey zName → u = t) :
    c.findTable dbs zName zDatabase = some t := by
  have htable : ∀ i u, c.table? i zName = some u → u = t := by
    intro i u hu
    have hcond := List.find?_some hu
    simp only [decide_eq_true_eq] at hcond
    exact hunique u (List.mem_of_find?_eq_some hu) hcond.2
  have hhere : (c.table? t.pSchema zName).isSome = true :=
    List.find?_isSome.mpr ⟨t, ht, decide_eq_true ⟨rfl, hname⟩⟩
  cases hfound : (searched dbs zDatabase).findSome? (c.table? · zName) with
  | none =>
      rw [List.findSome?_eq_none_iff.mp hfound t.pSchema hschema] at hhere
      cases hhere
  | some u =>
      obtain ⟨i, -, hu⟩ := List.exists_of_findSome?_eq_some hfound
      rw [findTable, hfound, Option.some_or, htable i u hu]

/-- The trigger is on the table. -/
def TriggerInfo.on (g : TriggerInfo) (t : TableInfo) : Bool :=
  g.pTabSchema = t.pSchema ∧ foldKey g.table = foldKey t.zName

/-- The objects of one name in one schema are the same. -/
def SchemaObject.same (x y : SchemaObject) : Bool :=
  x.pSchema = y.pSchema ∧ foldKey x.zName = foldKey y.zName

namespace Catalog

/-- The triggers in the schema of a table. -/
def ownTriggers (c : Catalog) (t : TableInfo) : List TriggerInfo :=
  c.triggers.filter fun g => g.pSchema = t.pSchema && g.on t

/-- The TEMP triggers on a table that is not in TEMP. -/
def tempTriggers (c : Catalog) (t : TableInfo) : List TriggerInfo :=
  if t.pSchema = 1 then [] else c.triggers.filter fun g => g.pSchema = 1 && g.on t

/-! ## Changes -/

def createTable (dbs : Databases) (c : Catalog) (iDb : ℕ) (x : NewTable) :
    Catalog × SchemaResult :=
  match c.findTable dbs x.zName (some (dbs.zDbSName iDb)) with
  | some _ => (c, .error x.existsError)
  | none => ({ c with tables := x.info iDb :: c.tables }, .done)

def createTrigger (dbs : Databases) (c : Catalog) (iDb : ℕ) (x : NewTrigger) :
    Catalog × SchemaResult :=
  match c.findTable dbs x.table.z (x.tableDb dbs iDb) with
  | none => (c, .error (x.noTableError dbs iDb))
  | some t =>
      match x.error iDb t (c.trigger? iDb x.zName).isSome with
      | some e => (c, .error e)
      | none => ({ c with triggers := x.info iDb t.pSchema :: c.triggers }, .done)

def dropTrigger (dbs : Databases) (c : Catalog) (zDb : Option CString) (zName : CString)
    (noErr : Bool) : Catalog × SchemaResult :=
  if c.isLoaded dbs then
    match c.findTrigger dbs zName zDb with
    | none => (c, if noErr then .done else .error (noSuchTriggerError zDb zName))
    | some g =>
        ({ c with triggers := c.triggers.filter fun g' => !g'.same g.toSchemaObject }, .done)
  else (c, .readSchema)

def dropTable (dbs : Databases) (c : Catalog) (zDb : Option CString) (zName : TableName)
    (isView noErr : Bool) : Catalog × SchemaResult :=
  if c.isLoaded dbs then
    match c.findTable dbs zName.z zDb with
    | none => (c, if noErr then .done else .error (noSuchTableError isView zDb zName))
    | some t =>
        match dropTableError t isView with
        | some e => (c, .error e)
        | none =>
            ({ c with
                tables := c.tables.filter fun t' => !t'.same t.toSchemaObject
                triggers := c.triggers.filter fun g => !g.on t }, .done)
  else (c, .readSchema)

/-- Some schemas are reset. -/
def reset (c : Catalog) (gone : ℕ → Bool) : Catalog where
  loaded i := c.loaded i && !gone i
  tables := c.tables.filter fun t => !gone t.pSchema
  triggers := c.triggers.filter fun g => !gone g.pSchema

/-- A change, when there is memory for it. -/
def change (dbs : Databases) (c : Catalog) :
    SchemaOp dbs.names.length → Catalog × SchemaResult
  | .createTable iDb x => c.createTable dbs iDb x
  | .createTrigger iDb x => c.createTrigger dbs iDb x
  | .schemaLoaded iDb => ({ c with loaded := Function.update c.loaded iDb true }, .done)
  | .dropTrigger zDb zName noErr => c.dropTrigger dbs zDb zName noErr
  | .dropTable zDb zName isView noErr => c.dropTable dbs zDb zName isView noErr
  | .triggersExist _ _ _ _ => (c, .done)
  | .resetOneSchema iDb => (c.reset fun i => i = iDb || i = 1, .done)
  | .resetAllSchemas => (c.reset fun i => i < dbs.names.length, .done)

end Catalog

/-- A question, which changes nothing. -/
def SchemaOp.isQuery {n : ℕ} : SchemaOp n → Bool
  | .triggersExist _ _ _ _ => true
  | _ => false

/-- A statement that needs memory. -/
def SchemaOp.creates {n : ℕ} : SchemaOp n → Bool
  | .createTable _ _ => true
  | .createTrigger _ _ => true
  | _ => false

/-- A statement.  Without memory for it nothing is created. -/
def Catalog.statement (dbs : Databases) (room : Bool) (c : Catalog)
    (op : SchemaOp dbs.names.length) : Catalog × SchemaResult :=
  if op.creates && !room && (c.change dbs op).2 = .done then (c, .noMemory) else c.change dbs op

/-- **The specification**: what an operation returns, and the catalog afterwards, by whether
there is memory for what is created. -/
inductive CatalogSpec (dbs : Databases) (room : Bool) :
    Catalog → SchemaOp dbs.names.length → SchemaResult → Catalog → Prop where
  | statement (c : Catalog) (op : SchemaOp dbs.names.length) : op.isQuery = false →
      CatalogSpec dbs room c op (c.statement dbs room op).2 (c.statement dbs room op).1
  | notRead (c : Catalog) (zDb : Option CString) (zName : TableName) (op : TriggerOp)
      (pChanges : Option (List CString)) : c.isLoaded dbs = false →
      CatalogSpec dbs room c (.triggersExist zDb zName op pChanges) .readSchema c
  | noTable (c : Catalog) (zDb : Option CString) (zName : TableName) (op : TriggerOp)
      (pChanges : Option (List CString)) : c.isLoaded dbs = true →
      c.findTable dbs zName.z zDb = none →
      CatalogSpec dbs room c (.triggersExist zDb zName op pChanges)
        (.error (noSuchTableError false zDb zName)) c
  -- the TEMP triggers come first, in any order; the list counts if one of its triggers fires
  | triggers (c : Catalog) (zDb : Option CString) (zName : TableName) (op : TriggerOp)
      (pChanges : Option (List CString)) (t : TableInfo) (l : List TriggerInfo) :
      c.isLoaded dbs = true → c.findTable dbs zName.z zDb = some t → l.Perm (c.tempTriggers t) →
      CatalogSpec dbs room c (.triggersExist zDb zName op pChanges)
        (.triggers (triggerMask op pChanges (l ++ c.ownTriggers t))
          (if triggerMask op pChanges (l ++ c.ownTriggers t) ≠ 0 then l ++ c.ownTriggers t
            else [])) c

namespace CatalogSpec

variable {dbs : Databases} {room : Bool} {c c' : Catalog} {op : SchemaOp dbs.names.length}
  {r : SchemaResult}

theorem of_statement (h : c.statement dbs room op = (c', r)) (hop : op.isQuery = false) :
    CatalogSpec dbs room c op r c' := by
  have hstatement : CatalogSpec dbs room c op _ _ := .statement c op hop
  rw [h] at hstatement
  exact hstatement

/-- A change for which there is memory, or which needs none. -/
theorem of_change (h : c.change dbs op = (c', r)) (hop : op.isQuery = false)
    (hroom : op.creates = false ∨ room = true ∨ r ≠ .done) : CatalogSpec dbs room c op r c' := by
  refine of_statement ?_ hop
  rw [Catalog.statement, h, if_neg]
  rcases hroom with hcreates | hroom | hr
  · simp [hcreates]
  · simp [hroom]
  · simp [hr]

/-- A change for which there is none. -/
theorem of_noMemory (h : c.change dbs op = (c', .done)) (hcreates : op.creates = true)
    (hroom : room = false) : CatalogSpec dbs room c op .noMemory c := by
  have hop : op.isQuery = false := by
    cases op
    case triggersExist => cases hcreates
    all_goals rfl
  refine of_statement ?_ hop
  rw [Catalog.statement, h, if_pos (by simp [hcreates, hroom])]

/-- What a statement does is determined. -/
theorem eq_statement (h : CatalogSpec dbs room c op r c') (hop : op.isQuery = false) :
    c.statement dbs room op = (c', r) := by
  cases h with
  | statement => rfl
  | notRead => cases hop
  | noTable => cases hop
  | triggers => cases hop

/-- A statement that is done has made its change. -/
theorem eq_change (h : CatalogSpec dbs room c op .done c') (hop : op.isQuery = false) :
    c.change dbs op = (c', .done) := by
  have heq := h.eq_statement hop
  rw [Catalog.statement] at heq
  split_ifs at heq
  · cases (Prod.mk.inj heq).2
  · exact heq

end CatalogSpec

end SmtCacheBenchmarks.Sqlite
