import SmtCacheBenchmarks.Library.SinglyLinked
import SmtCacheBenchmarks.Sqlite.HashRefinement

/-!
# SQLite's Triggers

Model of the functions that keep the tables and the triggers of a connection: from
`trigger.c` and `build.c` in the vendored `sqlite3.c`, and the part of the benchmark that
`populate_db` fills and the symbolic statement searches.

Every schema has a hash table for its tables and one for its triggers, both by name.
Moreover the triggers of a table are on a list: those in the schema of the table by their
`pNext` from the `pTrigger` of the table on, and a TEMP trigger on a table of another
schema is put before them by `sqlite3TriggerList` whenever the list is needed.

As in `Hash.lean`, the functions fail (`none`) where the C code would follow a pointer
that is NULL or freed or violate an assertion, and what the allocations answer is a
parameter.  Tables and triggers are heap blocks of their own, without the names, columns
and steps that they own.

The statements that create something are modelled as the parser runs them for an entry of
the schema table (`db->init.busy`), which is when they change the schema.  Reading a
schema (`sqlite3InitOne`) is a series of such steps, of which the first enters the table
`sqlite_master` itself, and then the flag `DB_SchemaLoaded` is set.  A statement that
finds a schema that has not been read says so (`SchemaResult.readSchema`) and changes
nothing: what `sqlite3ReadSchema` does then are steps of their own.

The connection has no indexes, no authorizer, no locked schemas and no statement that holds
a table.  Its triggers are enabled, their steps name objects of their own database, and its
virtual tables can be connected and are not eponymous.
-/

namespace SmtCacheBenchmarks.Sqlite

open SmtCacheBenchmarks.Library Simulation SinglyLinked

/-! ## The data structures -/

/-- `TK_INSERT`, `TK_UPDATE` and `TK_DELETE`. -/
inductive TriggerOp where
  | insert | update | delete
deriving DecidableEq

/-- `TK_BEFORE`, `TK_AFTER` and `TK_INSTEAD`. -/
inductive TriggerTime where
  | before | after | instead
deriving DecidableEq

/-- Tables, views (`pSelect!=0`) and virtual tables. -/
inductive TableKind where
  | table | view | virtual
deriving DecidableEq

/-- What tables and triggers have in common.  A schema is given by the index of its
database. -/
structure SchemaObject where
  zName : CString
  pSchema : ℕ
deriving DecidableEq

/-- What a `struct Trigger` holds besides its link. -/
structure TriggerInfo extends SchemaObject where
  table : CString
  op : TriggerOp
  trTm : ℕ
  pColumns : Option (List CString)
  pTabSchema : ℕ
deriving DecidableEq

/-- `struct Trigger`. -/
structure Trigger extends TriggerInfo where
  pNext : Option Ptr

/-- What a `struct Table` holds besides its triggers. -/
structure TableInfo extends SchemaObject where
  kind : TableKind
deriving DecidableEq

/-- `struct Table`. -/
structure SchemaTable extends TableInfo where
  pTrigger : Option Ptr

/-- `TRIGGER_BEFORE`. -/
def triggerBefore : ℕ := 1

/-- `TRIGGER_AFTER`. -/
def triggerAfter : ℕ := 2

/-- The hash tables of a schema. -/
inductive HashKind where
  | tbl | trig
deriving DecidableEq

/-- The hash tables of a connection: `aDb[i].pSchema->tblHash` and `->trigHash`. -/
abbrev HashId := ℕ × HashKind

/-- The names of the databases: main, temp, and those that are attached.  `ATTACH` does not
accept a name that is in use. -/
structure Databases where
  names : List CString
  two : 2 ≤ names.length
  distinct : (names.map foldKey).Nodup

/-- `aDb[i].zDbSName`. -/
def Databases.zDbSName (dbs : Databases) (i : ℕ) : CString := dbs.names.getD i ⟨[], by simp⟩

/-- The hash tables of a connection, how often one of them has been changed, which schemas
have been read (`DB_SchemaLoaded`), and the objects that the entries point to. -/
structure Db where
  calls : ℕ
  hashes : World HashId Ptr
  loaded : ℕ → Bool
  tables : Ptr → Option SchemaTable
  triggers : Ptr → Option Trigger

/-- What the allocations answer. -/
structure Memory where
  malloc : ℕ → HashHeap Ptr → Malloc
  table : ℕ → (Ptr → Option SchemaTable) → Option Ptr
  trigger : ℕ → (Ptr → Option Trigger) → Option Ptr

/-! ## Objects -/

def Db.setTable (db : Db) (p : Ptr) (t : SchemaTable) : Db :=
  { db with tables := Function.update db.tables p (some t) }

def Db.setTrigger (db : Db) (p : Ptr) (t : Trigger) : Db :=
  { db with triggers := Function.update db.triggers p (some t) }

/-- `sqlite3DeleteTable`; none may be deleted twice. -/
def Db.deleteTable (db : Db) (p : Ptr) : Option Db :=
  (db.tables p).map fun _ => { db with tables := Function.update db.tables p none }

/-- `sqlite3DeleteTrigger`. -/
def Db.deleteTrigger (db : Db) (p : Ptr) : Option Db :=
  (db.triggers p).map fun _ => { db with triggers := Function.update db.triggers p none }

/-- The `pNext` of a trigger. -/
def Db.next (db : Db) (p : Ptr) : Option (Option Ptr) := (db.triggers p).map Trigger.pNext

/-! ## Hash tables -/

def Db.hashFind (db : Db) (i : HashId) (pKey : CString) : Option (Option Ptr) :=
  sqlite3HashFind db.hashes.heap (db.hashes.tables i) pKey

def Db.hashEach (db : Db) (i : HashId) : Option (List Ptr) :=
  sqliteHashEach db.hashes.heap (db.hashes.tables i).count.toNat (db.hashes.tables i).first

/-- The hash tables after a call that may have changed them. -/
def Db.withHashes (db : Db) (w : World HashId Ptr) : Db :=
  { db with calls := db.calls + 1, hashes := w }

def Db.hashInsert (mem : Memory) (db : Db) (i : HashId) (pKey : CString) (data : Option Ptr) :
    Option (Db × Option Ptr) :=
  match hashCall (mem.malloc db.calls db.hashes.heap) db.hashes (.insert i pKey data) with
  | some (w, .data r) => some (db.withHashes w, r)
  | _ => none

def Db.hashClear (mem : Memory) (db : Db) (i : HashId) : Option Db :=
  match hashCall (mem.malloc db.calls db.hashes.heap) db.hashes (.clear i) with
  | some (w, .done) => some (db.withHashes w)
  | _ => none

/-! ## Looking for names -/

/-- The order of the databases in a search: `j = (i<2) ? i^1 : i`, TEMP before MAIN. -/
def Databases.order (dbs : Databases) : List ℕ :=
  (List.range dbs.names.length).map fun i => if i < 2 then i ^^^ 1 else i

/-- The loop of a search through the databases, or through one of them. -/
def searchLoop (dbs : Databases) (db : Db) (kind : HashKind) (zName : CString)
    (zDatabase : Option CString) : List ℕ → Option (Option Ptr)
  | [] => some none
  | j :: js =>
      if zDatabase.all fun z => sqlite3StrICmp z (dbs.zDbSName j) = 0 then do
        let p ← db.hashFind (j, kind) zName
        match p with
        | some p => return some p
        | none => searchLoop dbs db kind zName zDatabase js
      else searchLoop dbs db kind zName zDatabase js

/-- `MASTER_NAME`. -/
def masterName : CString := ⟨"sqlite_master".toList, by decide +kernel⟩

/-- `TEMP_MASTER_NAME`. -/
def tempMasterName : CString := ⟨"sqlite_temp_master".toList, by decide +kernel⟩

/-- The name is temp.sqlite_master. -/
def isTempMaster (dbs : Databases) (zName : CString) (zDatabase : Option CString) : Bool :=
  sqlite3StrICmp zName masterName = 0 &&
    zDatabase.any fun z => sqlite3StrICmp z (dbs.zDbSName 1) = 0

/-- `sqlite3FindTable`. -/
def sqlite3FindTable (dbs : Databases) (db : Db) (zName : CString)
    (zDatabase : Option CString) : Option (Option Ptr) := do
  let p ← searchLoop dbs db .tbl zName zDatabase dbs.order
  match p with
  | some p => return some p
  | none =>
      if isTempMaster dbs zName zDatabase then
        searchLoop dbs db .tbl tempMasterName zDatabase dbs.order
      else return none

/-- `%S`: a name as it was written. -/
def qualifiedName (zDatabase : Option CString) (zName : CString) : Text :=
  (zDatabase.elim [] fun z => z.1 ++ ".".toList) ++ zName.1

/-- The name begins with a text, without regard to case (`sqlite3StrNICmp`). -/
def hasPrefix (z : CString) (text : Text) : Bool :=
  (z.1.take text.length).map upperToLower = text.map upperToLower

/-- The name of a table that is looked up.  A name that begins with `pragma_` is left out,
because `sqlite3LocateTable` makes a virtual table for it. -/
structure TableName where
  z : CString
  plain : hasPrefix z "pragma_".toList = false
deriving DecidableEq

/-- `sqlite3ReadSchema` has nothing to do. -/
def Db.schemasLoaded (dbs : Databases) (db : Db) : Bool :=
  (List.range dbs.names.length).all db.loaded

/-! ## Creating -/

/-- What a statement on the schema returns. -/
inductive SchemaResult where
  | done
  | noMemory
  | error (zErrMsg : Text)
  | triggers (mask : ℕ) (list : List TriggerInfo)
  | readSchema
deriving DecidableEq

/-- An entry that creates a table: the token of its name, and the name without quotes. -/
structure NewTable where
  pName : Text
  zName : CString
  kind : TableKind
deriving DecidableEq

/-- The `Table` in the schema `pSchema`. -/
def NewTable.info (x : NewTable) (pSchema : ℕ) : TableInfo :=
  { zName := x.zName, pSchema, kind := x.kind }

/-- `"table %T already exists"`. -/
def NewTable.existsError (x : NewTable) : Text :=
  "table ".toList ++ x.pName ++ " already exists".toList

/-- The entry of a table is parsed: the check in `sqlite3StartTable`, and the end of
`sqlite3EndTable`. -/
def createTable (mem : Memory) (dbs : Databases) (db : Db) (iDb : ℕ) (x : NewTable) :
    Option (Db × SchemaResult) := do
  let old ← sqlite3FindTable dbs db x.zName (some (dbs.zDbSName iDb))
  match old with
  | some _ => return (db, .error x.existsError)
  | none =>
      match mem.table db.calls db.tables with
      | none => return (db, .noMemory)
      | some p => do
          let db := db.setTable p ⟨x.info iDb, none⟩
          let (db, pOld) ← db.hashInsert mem (iDb, .tbl) x.zName (some p)
          match pOld with
          | none => return (db, .done)
          | some q => do
              -- `assert( p==pOld )`; the parser deletes `pNewTable` in the end
              let db ← if p = q then db.deleteTable q else none
              return (db, .noMemory)

/-- An entry that creates a trigger. -/
structure NewTrigger where
  pName : Text
  zName : CString
  /-- the database of the table, if it is given -/
  zDatabase : Option CString
  table : TableName
  time : TriggerTime
  op : TriggerOp
  pColumns : Option (List CString)
deriving DecidableEq

/-- Where the table of a trigger is looked for.  Out of TEMP the name of the database is
ignored, and `sqlite3FixSrcList` sets the schema of the trigger. -/
def NewTrigger.tableDb (dbs : Databases) (iDb : ℕ) (x : NewTrigger) : Option CString :=
  if iDb = 1 then x.zDatabase else some (dbs.zDbSName iDb)

/-- The text of the name of the table in an error. -/
def NewTrigger.target (iDb : ℕ) (x : NewTrigger) : Text :=
  qualifiedName (if iDb = 1 then x.zDatabase else none) x.table.z

/-- The errors of `sqlite3BeginTrigger` for a table that exists. -/
def NewTrigger.error (x : NewTrigger) (iDb : ℕ) (t : TableInfo) (taken : Bool) : Option Text :=
  if t.kind = .virtual then some "cannot create triggers on virtual tables".toList
  else if taken then some ("trigger ".toList ++ x.pName ++ " already exists".toList)
  else if hasPrefix t.zName "sqlite_".toList then
    some "cannot create trigger on system table".toList
  else if t.kind = .view ∧ x.time ≠ .instead then
    some ("cannot create ".toList ++ (if x.time = .before then "BEFORE" else "AFTER").toList ++
      " trigger on view: ".toList ++ x.target iDb)
  else if t.kind ≠ .view ∧ x.time = .instead then
    some ("cannot create INSTEAD OF trigger on table: ".toList ++ x.target iDb)
  else none

/-- `"no such table: …"`, for the table of a trigger. -/
def NewTrigger.noTableError (dbs : Databases) (iDb : ℕ) (x : NewTrigger) : Text :=
  "no such table: ".toList ++ qualifiedName (x.tableDb dbs iDb) x.table.z

/-- The `Trigger` for a table in the schema `pTabSchema`. -/
def NewTrigger.info (x : NewTrigger) (iDb pTabSchema : ℕ) : TriggerInfo :=
  { zName := x.zName, table := x.table.z, op := x.op,
    trTm := if x.time = .after then triggerAfter else triggerBefore,
    pColumns := x.pColumns, pSchema := iDb, pTabSchema }

/-- `sqlite3BeginTrigger`: the trigger, or an error.  For an entry neither is a schema read
nor are the names of system objects refused. -/
def sqlite3BeginTrigger (dbs : Databases) (db : Db) (iDb : ℕ) (x : NewTrigger) :
    Option (Except Text TriggerInfo) := do
  let pTab ← sqlite3FindTable dbs db x.table.z (x.tableDb dbs iDb)
  match pTab with
  | none => return .error (x.noTableError dbs iDb)
  | some pTab => do
      let t ← db.tables pTab
      let old ← db.hashFind (iDb, .trig) x.zName
      match x.error iDb t.toTableInfo old.isSome with
      | some e => return .error e
      | none => return .ok (x.info iDb t.pSchema)

/-- `tableOfTrigger`. -/
def tableOfTrigger (db : Db) (pTrigger : TriggerInfo) : Option (Option Ptr) :=
  db.hashFind (pTrigger.pTabSchema, .tbl) pTrigger.table

/-- `sqlite3FinishTrigger`, for the trigger at the address `p`. -/
def sqlite3FinishTrigger (mem : Memory) (db : Db) (p : Ptr) (pTrig : TriggerInfo) :
    Option (Db × SchemaResult) := do
  let (db, r) ← db.hashInsert mem (pTrig.pSchema, .trig) pTrig.zName (some p)
  match r with
  | some q => do
      let db ← db.deleteTrigger q
      return (db, .noMemory)
  | none =>
      if pTrig.pSchema = pTrig.pTabSchema then do
        let found ← tableOfTrigger db pTrig
        -- `assert( pTab!=0 )`
        let pTab ← found
        let t ← db.tables pTab
        let db := db.setTrigger p ⟨pTrig, t.pTrigger⟩
        return (db.setTable pTab ⟨t.toTableInfo, some p⟩, .done)
      else return (db, .done)

/-- The entry of a trigger is parsed. -/
def createTrigger (mem : Memory) (dbs : Databases) (db : Db) (iDb : ℕ) (x : NewTrigger) :
    Option (Db × SchemaResult) := do
  let r ← sqlite3BeginTrigger dbs db iDb x
  match r with
  | .error e => return (db, .error e)
  | .ok pTrig =>
      match mem.trigger db.calls db.triggers with
      | none => return (db, .noMemory)
      | some p => sqlite3FinishTrigger mem (db.setTrigger p ⟨pTrig, none⟩) p pTrig

/-! ## Dropping a trigger -/

/-- `*pp = (*pp)->pNext`, where `pp` is the `pTrigger` of a table or the `pNext` of a
trigger. -/
def setLink (db : Db) (pTab : Ptr) (pp : Link Ptr) (next : Option Ptr) : Option Db :=
  match pp with
  | .head => (db.tables pTab).map fun t => db.setTable pTab ⟨t.toTableInfo, next⟩
  | .next q => (db.triggers q).map fun t => db.setTrigger q ⟨t.toTriggerInfo, next⟩

/-- The part of `sqlite3UnlinkAndDeleteTrigger` that takes the trigger off the list of its
table. -/
def unlinkTrigger (db : Db) (p : Ptr) (pTrigger : Trigger) : Option Db := do
  let found ← tableOfTrigger db pTrigger.toTriggerInfo
  let pTab ← found
  let t ← db.tables pTab
  let pp ← linkTo db.next p db.calls .head t.pTrigger
  setLink db pTab pp pTrigger.pNext

/-- `sqlite3UnlinkAndDeleteTrigger`. -/
def sqlite3UnlinkAndDeleteTrigger (mem : Memory) (db : Db) (iDb : ℕ) (zName : CString) :
    Option Db := do
  let (db, r) ← db.hashInsert mem (iDb, .trig) zName none
  match r with
  | none => return db
  | some p => do
      let pTrigger ← db.triggers p
      let db ← if pTrigger.pSchema = pTrigger.pTabSchema then unlinkTrigger db p pTrigger
        else some db
      db.deleteTrigger p

/-- `sqlite3DropTriggerPtr`: the database and the name in the `OP_DropTrigger`. -/
def sqlite3DropTriggerPtr (db : Db) (p : Ptr) : Option (ℕ × CString) := do
  let pTrigger ← db.triggers p
  let found ← tableOfTrigger db pTrigger.toTriggerInfo
  -- `assert( pTable )`
  let pTable ← found
  let t ← db.tables pTable
  -- `assert( pTable->pSchema==pTrigger->pSchema || iDb==1 )`
  if t.pSchema = pTrigger.pSchema ∨ pTrigger.pSchema = 1 then
    return (pTrigger.pSchema, pTrigger.zName)
  else none

/-- `"no such trigger: %S"`. -/
def noSuchTriggerError (zDb : Option CString) (zName : CString) : Text :=
  "no such trigger: ".toList ++ qualifiedName zDb zName

/-- `sqlite3DropTrigger`, and the `OP_DropTrigger` that it generates. -/
def sqlite3DropTrigger (mem : Memory) (dbs : Databases) (db : Db) (zDb : Option CString)
    (zName : CString) (noErr : Bool) : Option (Db × SchemaResult) :=
  if db.schemasLoaded dbs then do
    let r ← searchLoop dbs db .trig zName zDb dbs.order
    match r with
    | none =>
        if noErr then return (db, .done)
        else return (db, .error (noSuchTriggerError zDb zName))
    | some p => do
        let (iDb, zName) ← sqlite3DropTriggerPtr db p
        let db ← sqlite3UnlinkAndDeleteTrigger mem db iDb zName
        return (db, .done)
  else some (db, .readSchema)

/-! ## The triggers of a table -/

/-- The loop of `sqlite3TriggerList` over the TEMP triggers. -/
def triggerListLoop (t : SchemaTable) : Db → Option Ptr → List Ptr → Option (Db × Option Ptr)
  | db, pList, [] => some (db, pList)
  | db, pList, p :: ps => do
      let pTrig ← db.triggers p
      if pTrig.pTabSchema = t.pSchema ∧ sqlite3StrICmp pTrig.table t.zName = 0 then
        triggerListLoop t (db.setTrigger p ⟨pTrig.toTriggerInfo, pList.or t.pTrigger⟩) (some p) ps
      else triggerListLoop t db pList ps

/-- `sqlite3TriggerList`. -/
def sqlite3TriggerList (db : Db) (t : SchemaTable) : Option (Db × Option Ptr) :=
  if t.pSchema ≠ 1 then do
    let ps ← db.hashEach (1, .trig)
    let (db, pList) ← triggerListLoop t db none ps
    return (db, pList.or t.pTrigger)
  else some (db, t.pTrigger)

/-- `checkColumnOverlap`. -/
def checkColumnOverlap (pIdList pEList : Option (List CString)) : Bool :=
  match pIdList, pEList with
  | some ids, some es => es.any fun e => ids.any fun c => sqlite3StrICmp c e = 0
  | _, _ => true

/-- The trigger fires for an operation that changes these columns. -/
def TriggerInfo.fires (op : TriggerOp) (pChanges : Option (List CString)) (g : TriggerInfo) :
    Bool :=
  g.op = op && checkColumnOverlap g.pColumns pChanges

/-- The `mask` of `sqlite3TriggersExist`. -/
def triggerMask (op : TriggerOp) (pChanges : Option (List CString)) (l : List TriggerInfo) : ℕ :=
  l.foldl (fun mask g => if g.fires op pChanges then mask ||| g.trTm else mask) 0

/-- The triggers along the list. -/
def triggersFrom (db : Db) (first : Option Ptr) : Option (List TriggerInfo) := do
  let ps ← walk db.next db.calls first
  ps.mapM fun p => (db.triggers p).map Trigger.toTriggerInfo

/-- `"no such table"`, or `"no such view"`. -/
def noSuchTableError (isView : Bool) (zDb : Option CString) (zName : TableName) : Text :=
  (if isView then "no such view: " else "no such table: ").toList ++ qualifiedName zDb zName.z

/-- `sqlite3TriggersExist` for the table that `sqlite3LocateTable` finds. -/
def sqlite3TriggersExist (dbs : Databases) (db : Db) (zDb : Option CString) (zName : TableName)
    (op : TriggerOp) (pChanges : Option (List CString)) : Option (Db × SchemaResult) :=
  if db.schemasLoaded dbs then do
    let pTab ← sqlite3FindTable dbs db zName.z zDb
    match pTab with
    | none => return (db, .error (noSuchTableError false zDb zName))
    | some pTab => do
        let t ← db.tables pTab
        let (db, pList) ← sqlite3TriggerList db t
        -- `assert( pList==0 || IsVirtual(pTab)==0 )`
        if pList = none ∨ t.kind ≠ .virtual then do
          let l ← triggersFrom db pList
          let mask := triggerMask op pChanges l
          return (db, .triggers mask (if mask ≠ 0 then l else []))
        else none
  else some (db, .readSchema)

/-! ## Dropping a table -/

/-- The loop of `sqlite3CodeDropTable` over the triggers of the table: what its
`OP_DropTrigger`s name. -/
def codeDropTriggers (db : Db) (t : SchemaTable) (ps : List Ptr) : Option (List (ℕ × CString)) :=
  ps.mapM fun p => do
    let pTrigger ← db.triggers p
    -- `assert( pTrigger->pSchema==pTab->pSchema || pTrigger->pSchema==db->aDb[1].pSchema )`
    if pTrigger.pSchema = t.pSchema ∨ pTrigger.pSchema = 1 then sqlite3DropTriggerPtr db p
    else none

/-- The `OP_DropTrigger`s are executed. -/
def runDropTriggers (mem : Memory) : Db → List (ℕ × CString) → Option Db
  | db, [] => some db
  | db, (iDb, zName) :: ops => do
      let db ← sqlite3UnlinkAndDeleteTrigger mem db iDb zName
      runDropTriggers mem db ops

/-- `sqlite3UnlinkAndDeleteTable`. -/
def sqlite3UnlinkAndDeleteTable (mem : Memory) (db : Db) (iDb : ℕ) (zTabName : CString) :
    Option Db := do
  let (db, r) ← db.hashInsert mem (iDb, .tbl) zTabName none
  match r with
  | none => return db
  | some p => db.deleteTable p

/-- `sqlite3CodeDropTable`, and the opcodes that it generates. -/
def sqlite3CodeDropTable (mem : Memory) (db : Db) (t : SchemaTable) : Option Db := do
  let (db, first) ← sqlite3TriggerList db t
  let ps ← walk db.next db.calls first
  let ops ← codeDropTriggers db t ps
  let db ← runDropTriggers mem db ops
  sqlite3UnlinkAndDeleteTable mem db t.pSchema t.zName

/-- The errors of `sqlite3DropTable` for a table that exists. -/
def dropTableError (t : TableInfo) (isView : Bool) : Option Text :=
  if hasPrefix t.zName "sqlite_".toList ∧ ¬ hasPrefix t.zName "sqlite_stat".toList then
    some ("table ".toList ++ t.zName.1 ++ " may not be dropped".toList)
  else if isView ∧ t.kind ≠ .view then
    some ("use DROP TABLE to delete table ".toList ++ t.zName.1)
  else if ¬ isView ∧ t.kind = .view then
    some ("use DROP VIEW to delete view ".toList ++ t.zName.1)
  else none

/-- `sqlite3DropTable`. -/
def sqlite3DropTable (mem : Memory) (dbs : Databases) (db : Db) (zDb : Option CString)
    (zName : TableName) (isView noErr : Bool) : Option (Db × SchemaResult) :=
  if db.schemasLoaded dbs then do
    let pTab ← sqlite3FindTable dbs db zName.z zDb
    match pTab with
    | none =>
        if noErr then return (db, .done)
        else return (db, .error (noSuchTableError isView zDb zName))
    | some pTab => do
        let t ← db.tables pTab
        match dropTableError t.toTableInfo isView with
        | some e => return (db, .error e)
        | none => do
            let db ← sqlite3CodeDropTable mem db t
            return (db, .done)
  else some (db, .readSchema)

/-! ## Resetting schemas -/

/-- The deletions in `sqlite3SchemaClear`. -/
def deleteAll (delete : Db → Ptr → Option Db) : Db → List Ptr → Option Db
  | db, [] => some db
  | db, p :: ps => do
      let db ← delete db p
      deleteAll delete db ps

/-- `DbSetProperty` and `DbClearProperty` for `DB_SchemaLoaded`. -/
def Db.setLoaded (db : Db) (i : ℕ) (b : Bool) : Db :=
  { db with loaded := Function.update db.loaded i b }

/-- `sqlite3SchemaClear`. -/
def sqlite3SchemaClear (mem : Memory) (db : Db) (i : ℕ) : Option Db := do
  let trigs ← db.hashEach (i, .trig)
  let db ← deleteAll Db.deleteTrigger db trigs
  let db ← db.hashClear mem (i, .trig)
  let tabs ← db.hashEach (i, .tbl)
  let db ← deleteAll Db.deleteTable db tabs
  let db ← db.hashClear mem (i, .tbl)
  return db.setLoaded i false

/-- The schemas in a list are cleared. -/
def clearSchemas (mem : Memory) : Db → List ℕ → Option Db
  | db, [] => some db
  | db, i :: is => do
      let db ← sqlite3SchemaClear mem db i
      clearSchemas mem db is

/-- `sqlite3ResetOneSchema`, which also resets TEMP. -/
def sqlite3ResetOneSchema (mem : Memory) (dbs : Databases) (db : Db) (iDb : ℕ) : Option Db :=
  clearSchemas mem db ((List.range dbs.names.length).filter fun i => i = iDb ∨ i = 1)

/-- `sqlite3ResetAllSchemasOfConnection`. -/
def sqlite3ResetAllSchemas (mem : Memory) (dbs : Databases) (db : Db) : Option Db :=
  clearSchemas mem db (List.range dbs.names.length)

/-! ## The machine -/

/-- What can happen to the schema of a connection with `n` databases. -/
inductive SchemaOp (n : ℕ) where
  | createTable (iDb : Fin n) (x : NewTable)
  | createTrigger (iDb : Fin n) (x : NewTrigger)
  | schemaLoaded (iDb : Fin n)
  | dropTrigger (zDb : Option CString) (zName : CString) (noErr : Bool)
  | dropTable (zDb : Option CString) (zName : TableName) (isView noErr : Bool)
  | triggersExist (zDb : Option CString) (zName : TableName) (op : TriggerOp)
      (pChanges : Option (List CString))
  | resetOneSchema (iDb : Fin n)
  | resetAllSchemas

/-- One operation. -/
def schemaCall (mem : Memory) (dbs : Databases) (db : Db) :
    SchemaOp dbs.names.length → Option (Db × SchemaResult)
  | .createTable iDb x => createTable mem dbs db iDb x
  | .createTrigger iDb x => createTrigger mem dbs db iDb x
  | .schemaLoaded iDb => some (db.setLoaded iDb true, .done)
  | .dropTrigger zDb zName noErr => sqlite3DropTrigger mem dbs db zDb zName noErr
  | .dropTable zDb zName isView noErr => sqlite3DropTable mem dbs db zDb zName isView noErr
  | .triggersExist zDb zName op pChanges => sqlite3TriggersExist dbs db zDb zName op pChanges
  | .resetOneSchema iDb => (sqlite3ResetOneSchema mem dbs db iDb).map fun db => (db, .done)
  | .resetAllSchemas => (sqlite3ResetAllSchemas mem dbs db).map fun db => (db, .done)

/-- There is memory for what an operation would create: the object, and its element of the
hash table. -/
def Memory.room (mem : Memory) {n : ℕ} (db : Db) : SchemaOp n → Bool
  | .createTable _ _ =>
      (mem.table db.calls db.tables).isSome && (mem.malloc db.calls db.hashes.heap).elem.isSome
  | .createTrigger _ _ =>
      (mem.trigger db.calls db.triggers).isSome && (mem.malloc db.calls db.hashes.heap).elem.isSome
  | _ => true

/-- One step, with what the allocations answer. -/
def schemaStep (mem : Memory) (dbs : Databases) :
    Machine Db (SchemaOp dbs.names.length) (Observed Bool SchemaResult) := fun _ db op => do
  let (db', r) ← schemaCall mem dbs db op
  return (db', ⟨r, mem.room db op⟩)

/-- A connection that has read nothing. -/
def Db.init : Db where
  calls := 0
  hashes := initialWorld
  loaded := fun _ => false
  tables := fun _ => none
  triggers := fun _ => none

end SmtCacheBenchmarks.Sqlite
