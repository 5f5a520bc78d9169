import SmtCacheBenchmarks.Sqlite.TriggerLists

/-!
# Dropping Tables and Resetting Schemas

The operations that remove many objects at once.  `DROP TABLE` removes the triggers on its
list one by one and then the table, and resetting a schema deletes what its hash tables
have.  A trigger can be on a table that is gone only in between.
-/

namespace SmtCacheBenchmarks.Sqlite

open SmtCacheBenchmarks.Library Simulation SinglyLinked

/-- What is left when one more key is taken away. -/
theorem filter_notMem_cons {α κ : Type} [DecidableEq κ] (l : List α) (key : α → κ) (k : κ)
    (ks : List κ) : ((l.filter fun x => key x ≠ k).filter fun x => key x ∉ ks) =
      l.filter fun x => key x ∉ k :: ks := by
  rw [List.filter_filter]
  refine List.filter_congr fun x _ => ?_
  rw [← Bool.decide_and]
  exact decide_eq_decide.mpr (by rw [List.mem_cons, not_or, and_comm])

/-! ## Dropping a table -/

section DropTable

variable {n m : ℕ} {db : Db} {T : HashId → Table Ptr} {tl : List (Ptr × TableInfo)}
  {gl : List (Ptr × TriggerInfo)}

/-- What the opcodes of `DROP TABLE` name. -/
theorem codeDropTriggers_eq (hT : Holds m db.hashes T) (hobj : Objects n db T tl gl)
    (hatt : Attached tl gl) {t : SchemaTable} {ys : List (Ptr × TriggerInfo)}
    (hys : ∀ y ∈ ys, y ∈ gl ∧ y.2.on t.toTableInfo = true ∧
      (y.2.pSchema = t.pSchema ∨ y.2.pSchema = 1)) :
    codeDropTriggers db t (ys.map Prod.fst) =
      some (ys.map fun y => (y.2.pSchema, y.2.zName)) := by
  refine mapM_map fun y hy => ?_
  obtain ⟨hgl, -, hassert⟩ := hys y hy
  obtain ⟨next, htrig, -⟩ := Db.triggers_eq (hobj.triggers.object y hgl)
  simp [htrig, hassert, sqlite3DropTriggerPtr_eq hT hobj hatt hgl]

/-- The triggers are removed one after the other. -/
theorem runDropTriggers_spec {mem : Memory} (hmem : mem.Sound) (hm : m < 2 ^ 31 - 1)
    {ys : List (Ptr × TriggerInfo)} (hnodup : (ys.map Prod.fst).Nodup)
    (hT : Holds m db.hashes T) (hobj : Objects n db T tl gl) (hlists : Lists db tl gl)
    (hatt : Attached tl gl) (hys : ∀ y ∈ ys, y ∈ gl) :
    ∃ db' T', runDropTriggers mem db (ys.map fun y => (y.2.pSchema, y.2.zName)) = some db' ∧
      db'.loaded = db.loaded ∧ Holds m db'.hashes T' ∧ Objects n db' T' tl (gl.filter fun z => z.1 ∉ ys.map Prod.fst) ∧
      Lists db' tl (gl.filter fun z => z.1 ∉ ys.map Prod.fst) := by
  induction ys generalizing db T gl with
  | nil =>
      have hall : (gl.filter fun z => z.1 ∉ ([] : List (Ptr × TriggerInfo)).map Prod.fst) = gl :=
        List.filter_eq_self.mpr fun z _ => by simp
      rw [hall]
      exact ⟨db, T, rfl, rfl, hT, hobj, hlists⟩
  | cons y ys ih =>
      rw [List.map_cons, List.nodup_cons] at hnodup
      obtain ⟨db₁, T₁, hunlink, hloaded₁, hT₁, hobj₁, hlists₁, hatt₁⟩ :=
        sqlite3UnlinkAndDeleteTrigger_spec hobj hlists hmem hm hT hatt (hys y List.mem_cons_self)
      obtain ⟨db', T', hrun, hloaded', hT', hobj', hlists'⟩ := ih hnodup.2 hT₁ hobj₁ hlists₁ hatt₁
        fun z hz => List.mem_filter.mpr ⟨hys z (List.mem_cons_of_mem _ hz),
          decide_eq_true fun heq => hnodup.1 (heq ▸ List.mem_map_of_mem hz)⟩
      rw [filter_notMem_cons gl Prod.fst] at hobj' hlists'
      refine ⟨db', T', ?_, hloaded'.trans hloaded₁, hT', hobj', hlists'⟩
      simp only [List.map_cons, runDropTriggers, hunlink, Option.bind_eq_bind, Option.bind_some]
      exact hrun

/-- A table without triggers is removed. -/
theorem sqlite3UnlinkAndDeleteTable_spec {mem : Memory} (hmem : mem.Sound)
    (hm : m < 2 ^ 31 - 1) (hT : Holds m db.hashes T) (hobj : Objects n db T tl gl)
    (hlists : Lists db tl gl) {x : Ptr × TableInfo} (hx : x ∈ tl) :
    ∃ db' T', sqlite3UnlinkAndDeleteTable mem db x.2.pSchema x.2.zName = some db' ∧
      db'.loaded = db.loaded ∧ Holds m db'.hashes T' ∧ Objects n db' T' (tl.filter fun z => z.1 ≠ x.1) gl ∧
      Lists db' (tl.filter fun z => z.1 ≠ x.1) gl := by
  obtain ⟨w, hremove, hw⟩ := hashInsert_none hmem hm hT (x.2.pSchema, .tbl) x.2.zName
  have hentry : T (x.2.pSchema, .tbl) (foldKey x.2.zName) = some ⟨x.1, x.2.zName⟩ :=
    (hobj.tables.entry _ _ _).mpr ⟨x, hx, rfl, rfl, rfl⟩
  rw [hentry, Option.map_some] at hremove
  obtain ⟨first, htab, -⟩ := Db.tables_eq (hobj.tables.object x hx)
  have htab' : (db.withHashes w).tables x.1 = some ⟨x.2, first⟩ := htab
  refine ⟨{ db.withHashes w with tables := Function.update db.tables x.1 none }, _, ?_, rfl, hw,
    ⟨?_, ?_, hobj.length.trans (Nat.le_succ _)⟩, ?_⟩
  · simp only [sqlite3UnlinkAndDeleteTable, hremove, Option.bind_eq_bind, Option.bind_some,
      Db.deleteTable, htab', Option.map_some]
    rfl
  · have hinfo : ({ db.withHashes w with tables := Function.update db.tables x.1 none } : Db).tableInfo =
        Function.update db.tableInfo x.1 none :=
      Function.comp_update (Option.map SchemaTable.toTableInfo) db.tables x.1 none
    rw [hinfo]
    refine hobj.tables.remove hx fun i k => ?_
    simp only [update_update_apply, Prod.mk.injEq, and_true]
  · rw [update_tbl_trig]
    exact hobj.triggers
  · refine hlists.frame (fun z hz => (List.mem_filter.mp hz).1) (fun z _ => rfl)
      (fun z hz => ?_) fun z _ u _ => rfl
    have hne : z.1 ≠ x.1 := by simpa using (List.mem_filter.mp hz).2
    show (Function.update db.tables x.1 none z.1).map SchemaTable.pTrigger = _
    rw [Function.update_of_ne hne]
    rfl

/-- A table is dropped with its triggers. -/
theorem sqlite3CodeDropTable_spec {mem : Memory} (hmem : mem.Sound) (hm : m < 2 ^ 31 - 1)
    (hT : Holds m db.hashes T) (hobj : Objects n db T tl gl) (hlists : Lists db tl gl)
    (hatt : Attached tl gl) {x : Ptr × TableInfo} (hx : x ∈ tl) {first : Option Ptr}
    (hfirst : db.head x.1 = some first) :
    ∃ db', sqlite3CodeDropTable mem db ⟨x.2, first⟩ = some db' ∧
      SchemaHolds n m db' (catalogOf db.loaded (tl.filter fun z => z.1 ≠ x.1)
        (gl.filter fun y => !y.2.on x.2)) := by
  obtain ⟨db₁, first', temps, hlist, hperm, hwalk, hhashes, -, hloaded₁, hobj₁, hlists₁⟩ :=
    sqlite3TriggerList_spec hT hobj hlists hx hfirst
  have hT₁ : Holds m db₁.hashes T := hhashes ▸ hT
  have hmems : ∀ y ∈ temps ++ own gl x.2, y ∈ gl ∧ y.2.on x.2 = true ∧
      (y.2.pSchema = x.2.pSchema ∨ y.2.pSchema = 1) :=
    fun y hy => mem_of_mem_temp_append_own hperm hy
  have hcode : codeDropTriggers db₁ ⟨x.2, first⟩ ((temps ++ own gl x.2).map Prod.fst) =
      some ((temps ++ own gl x.2).map fun y => (y.2.pSchema, y.2.zName)) :=
    codeDropTriggers_eq hT₁ hobj₁ hatt hmems
  obtain ⟨db₂, T₂, hrun, hloaded₂, hT₂, hobj₂, hlists₂⟩ := runDropTriggers_spec hmem hm
    (nodup_temp_append_own hobj hperm) hT₁ hobj₁ hlists₁ hatt fun y hy => (hmems y hy).1
  -- all triggers on the table are on the list
  have hgone : (gl.filter fun z => z.1 ∉ (temps ++ own gl x.2).map Prod.fst) =
      gl.filter fun y => !y.2.on x.2 := by
    refine List.filter_congr fun z hz => ?_
    have hiff : z.1 ∈ (temps ++ own gl x.2).map Prod.fst ↔ z.2.on x.2 = true := by
      constructor
      · intro hin
        obtain ⟨u, hu, huz⟩ := List.mem_map.mp hin
        obtain ⟨hugl, huon, -⟩ := hmems u hu
        obtain rfl := hobj.triggers.eq_of_ptr hugl hz huz
        exact huon
      · intro hon
        refine List.mem_map_of_mem (List.mem_append.mpr ?_)
        by_cases hown : z.2.pSchema = x.2.pSchema
        · exact .inr (mem_own_iff.mpr ⟨hz, hown, hon⟩)
        · have htemp : z.2.pSchema = 1 := (hatt z hz).1.resolve_left fun heq =>
            hown (heq.trans (on_iff.mp hon).1)
          exact .inl (hperm.symm.subset (mem_temp_iff.mpr
            ⟨fun hone => hown (htemp.trans hone.symm), hz, htemp, hon⟩))
    cases hon : z.2.on x.2 with
    | true => simpa using hiff.mpr hon
    | false => simpa [hon] using hiff
  rw [hgone] at hobj₂ hlists₂
  -- so the table can go without leaving one behind
  obtain ⟨db', T', hdelete, hloaded', hT', hobj', hlists'⟩ :=
    sqlite3UnlinkAndDeleteTable_spec hmem hm hT₂ hobj₂ hlists₂ hx
  refine ⟨db', ?_, T', _, _, hT', hobj', hlists', ?_, by rw [hloaded', hloaded₂, hloaded₁]⟩
  · simp only [sqlite3CodeDropTable, hlist, hwalk, hcode, hrun, Option.bind_eq_bind,
      Option.bind_some]
    exact hdelete
  · intro y hy
    obtain ⟨hgl, hnot⟩ := List.mem_filter.mp hy
    obtain ⟨hschema, z, hz, hon, hkind⟩ := hatt y hgl
    refine ⟨hschema, z, List.mem_filter.mpr ⟨hz, decide_eq_true fun heq => ?_⟩, hon, hkind⟩
    obtain rfl := hobj.tables.eq_of_ptr hz hx heq
    rw [hon] at hnot
    cases hnot

theorem sqlite3DropTable_spec {mem : Memory} (hmem : mem.Sound) (hm : m < 2 ^ 31 - 1)
    {dbs : Databases} {c : Catalog} (h : SchemaHolds dbs.names.length m db c) (room : Bool)
    (zDb : Option CString) (zName : TableName) (isView noErr : Bool) :
    ∃ db' r c', sqlite3DropTable mem dbs db zDb zName isView noErr = some (db', r) ∧
      CatalogSpec dbs room c (.dropTable zDb zName isView noErr) r c' ∧
      SchemaHolds dbs.names.length (m + 1) db' c' := by
  have hmono := h.mono (Nat.le_succ m)
  have hloaded : c.isLoaded dbs = db.schemasLoaded dbs := h.isLoaded
  cases hread : db.schemasLoaded dbs with
  | false =>
      rw [hread] at hloaded
      refine ⟨db, .readSchema, c, ?_, .of_change ?_ rfl (.inl rfl), hmono⟩
      · simp [sqlite3DropTable, hread]
      · simp [Catalog.change, Catalog.dropTable, hloaded]
  | true =>
      rw [hread] at hloaded
      obtain ⟨T, tl, gl, hT, hobj, hlists, hatt, rfl⟩ := h
      obtain ⟨o, hfind, hcat, htl⟩ := sqlite3FindTable_spec hT hobj dbs zName.z zDb
      cases o with
      | none =>
          refine ⟨db, if noErr then .done else .error (noSuchTableError isView zDb zName), _, ?_,
            .of_change ?_ rfl (.inl rfl), hmono⟩
          · cases noErr
            all_goals simp [sqlite3DropTable, hread, hfind]
          · simp [Catalog.change, Catalog.dropTable, hloaded, hcat]
      | some x =>
          have hx : x ∈ tl := htl x rfl
          obtain ⟨first, htab, hfirst⟩ := Db.tables_eq (hobj.tables.object x hx)
          cases herror : dropTableError x.2 isView with
          | some e =>
              refine ⟨db, .error e, _, ?_, .of_change ?_ rfl (.inl rfl), hmono⟩
              · simp [sqlite3DropTable, hread, hfind, htab, herror]
              · simp [Catalog.change, Catalog.dropTable, hloaded, hcat, herror]
          | none =>
              obtain ⟨db', hdrop, hholds⟩ :=
                sqlite3CodeDropTable_spec hmem hm hT hobj hlists hatt hx hfirst
              have hchange : (catalogOf db.loaded tl gl).change dbs
                  (.dropTable zDb zName isView noErr) =
                  (catalogOf db.loaded (tl.filter fun z => z.1 ≠ x.1)
                    (gl.filter fun y => !y.2.on x.2), .done) := by
                have htriggers : (gl.map Prod.snd).filter (fun g => !g.on x.2) =
                    (gl.filter fun y => !y.2.on x.2).map Prod.snd := List.filter_map ..
                simp only [Catalog.change, Catalog.dropTable, hloaded, if_true, hcat,
                  Option.map_some, herror]
                rw [catalogOf, catalogOf, hobj.tables.map_snd_remove hx, ← htriggers]
              refine ⟨db', _, _, ?_, .of_change hchange rfl (.inl rfl),
                hholds.mono (Nat.le_succ m)⟩
              simp [sqlite3DropTable, hread, hfind, htab, herror, hdrop]

end DropTable

/-! ## Resetting schemas -/

/-- Every object on the list is deleted once. -/
theorem deleteAll_spec {α : Type} {delete : Db → Ptr → Option Db} {get : Db → Ptr → Option α}
    (set : Db → (Ptr → Option α) → Db)
    (hdelete : ∀ db p, delete db p = (get db p).map fun _ => set db (Function.update (get db) p none))
    (hget : ∀ db f, get (set db f) = f) (hset : ∀ db f g, set (set db f) g = set db g)
    (hself : ∀ db, set db (get db) = db) {ps : List Ptr} (hnodup : ps.Nodup) {db : Db}
    (hsome : ∀ p ∈ ps, (get db p).isSome) :
    ∃ f, deleteAll delete db ps = some (set db f) ∧
      ∀ p, f p = if p ∈ ps then none else get db p := by
  induction ps generalizing db with
  | nil => exact ⟨get db, by rw [hself]; rfl, fun p => rfl⟩
  | cons p ps ih =>
      rw [List.nodup_cons] at hnodup
      obtain ⟨x, hx⟩ := Option.isSome_iff_exists.mp (hsome p List.mem_cons_self)
      have hone : delete db p = some (set db (Function.update (get db) p none)) := by
        rw [hdelete, hx]
        rfl
      have hne : ∀ q ∈ ps, q ≠ p := fun q hq heq => hnodup.1 (heq ▸ hq)
      have hsome' : ∀ q ∈ ps, (get (set db (Function.update (get db) p none)) q).isSome := by
        intro q hq
        rw [hget, Function.update_of_ne (hne q hq)]
        exact hsome q (List.mem_cons_of_mem _ hq)
      obtain ⟨f, hall, hf⟩ := ih hnodup.2 hsome'
      refine ⟨f, ?_, fun q => ?_⟩
      · rw [hset] at hall
        simp only [deleteAll, hone, Option.bind_eq_bind, Option.bind_some, hall]
      · rw [hf, hget]
        by_cases hqp : q = p
        · simp [hqp]
        · simp [hqp]

/-- Whether an object is one of those that a loop over a hash table visits. -/
theorem Directory.mem_each_iff {α : Type} {f : α → SchemaObject} {n : ℕ} {M : ℕ → Table Ptr}
    {info : Ptr → Option α} {l ys : List (Ptr × α)} (h : Directory f n M info l) {i : ℕ}
    (hperm : ys.Perm (l.filter fun x => (f x.2).pSchema = i)) {x : Ptr × α} (hx : x ∈ l) :
    x.1 ∈ ys.map Prod.fst ↔ (f x.2).pSchema = i := by
  constructor
  · intro hin
    obtain ⟨y, hy, hyx⟩ := List.mem_map.mp hin
    obtain ⟨hyl, hschema⟩ := List.mem_filter.mp (hperm.subset hy)
    obtain rfl := h.eq_of_ptr hyl hx hyx
    simpa using hschema
  · intro hschema
    exact List.mem_map_of_mem (hperm.symm.subset (List.mem_filter.mpr ⟨hx, by simpa using hschema⟩))

/-- The objects of one schema are deleted, and their hash table is cleared. -/
theorem Directory.deleted {α β : Type} {f : α → SchemaObject} {n : ℕ} {M M' : ℕ → Table Ptr}
    {objects objects' : Ptr → Option β} {get : β → α} {l ys : List (Ptr × α)}
    (h : Directory f n M (fun p => (objects p).map get) l) {i : ℕ}
    (hperm : ys.Perm (l.filter fun x => (f x.2).pSchema = i))
    (hM : ∀ j k, M' j k = if j = i then none else M j k)
    (hobjects : ∀ p, objects' p = if p ∈ ys.map Prod.fst then none else objects p) :
    Directory f n M' (fun p => (objects' p).map get) (l.filter fun x => (f x.2).pSchema ≠ i) := by
  apply h.clear hM
  · intro x hx
    rw [hobjects]
    by_cases hschema : (f x.2).pSchema = i
    · rw [if_pos ((h.mem_each_iff hperm hx).mpr hschema), if_pos hschema]
      rfl
    · rw [if_neg fun hin => hschema ((h.mem_each_iff hperm hx).mp hin), if_neg hschema]
  · intro p hp
    rw [hobjects, if_neg fun hin => hp ?_]
    obtain ⟨y, hy, rfl⟩ := List.mem_map.mp hin
    exact List.mem_map_of_mem (List.mem_filter.mp (hperm.subset hy)).1

/-- The objects of one schema are deleted, in the order of their hash table. -/
theorem Directory.deleteAll_each {α β : Type} {f : α → SchemaObject} {object : β → α} {n m : ℕ}
    {db : Db} {T : HashId → Table Ptr} (hT : Holds m db.hashes T) {kind : HashKind}
    (delete : Db → Ptr → Option Db) (get : Db → Ptr → Option β) (set : Db → (Ptr → Option β) → Db)
    (hdelete : ∀ db p, delete db p = (get db p).map fun _ => set db (Function.update (get db) p none))
    (hget : ∀ db f, get (set db f) = f) (hset : ∀ db f g, set (set db f) g = set db g)
    (hself : ∀ db, set db (get db) = db) {l : List (Ptr × α)}
    (h : Directory f n (fun j => T (j, kind)) (fun p => (get db p).map object) l) (i : ℕ) :
    ∃ (ys : List (Ptr × α)) (objects : Ptr → Option β),
      ys.Perm (l.filter fun x => (f x.2).pSchema = i) ∧
      db.hashEach (i, kind) = some (ys.map Prod.fst) ∧
      deleteAll delete db (ys.map Prod.fst) = some (set db objects) ∧
      ∀ p, objects p = if p ∈ ys.map Prod.fst then none else get db p := by
  obtain ⟨entries, heach, hnodup, hentries⟩ := hT.each (i, kind)
  obtain ⟨ys, hdata, hys⟩ := h.each hnodup hentries
  have hptrs : (ys.map Prod.fst).Nodup := (hys.map Prod.fst).nodup_iff.mpr
    ((List.filter_sublist.map Prod.fst).nodup h.nodup)
  have hsome : ∀ p ∈ ys.map Prod.fst, (get db p).isSome := by
    intro p hp
    obtain ⟨y, hy, rfl⟩ := List.mem_map.mp hp
    have hobject := h.object y (List.mem_filter.mp (hys.subset hy)).1
    rw [← Option.isSome_map, hobject]
    rfl
  obtain ⟨objects, hall, hobjects⟩ := deleteAll_spec set hdelete hget hset hself hptrs hsome
  exact ⟨ys, objects, hys, by rw [Db.hashEach, heach, hdata], hall, hobjects⟩

/-- The maps after one of the hash tables is cleared. -/
theorem update_clear_apply (T : HashId → Table Ptr) (i j : ℕ) (kind : HashKind) (k : List ℕ) :
    Function.update T (i, kind) (fun _ => none) (j, kind) k =
      if j = i then none else T (j, kind) k := by
  by_cases hj : j = i
  · simp [hj]
  · simp [hj]

section Reset

variable {mem : Memory} (hmem : mem.Sound) {n m : ℕ} (hm : m < 2 ^ 31 - 1) {db : Db}
  {T : HashId → Table Ptr} {tl : List (Ptr × TableInfo)} {gl : List (Ptr × TriggerInfo)}

include hmem hm

/-- `sqlite3SchemaClear` deletes the objects of one schema. -/
theorem sqlite3SchemaClear_spec (hT : Holds m db.hashes T) (hobj : Objects n db T tl gl)
    (hlists : Lists db tl gl) (i : ℕ) :
    ∃ db' T', sqlite3SchemaClear mem db i = some db' ∧
      db'.loaded = Function.update db.loaded i false ∧ Holds m db'.hashes T' ∧
      Objects n db' T' (tl.filter fun x => x.2.pSchema ≠ i) (gl.filter fun y => y.2.pSchema ≠ i) ∧
      Lists db' (tl.filter fun x => x.2.pSchema ≠ i) (gl.filter fun y => y.2.pSchema ≠ i) := by
  -- the triggers
  obtain ⟨ys, triggers, hys, htrigs, hdeleteTrigs, htriggers⟩ :=
    Directory.deleteAll_each hT Db.deleteTrigger Db.triggers
      (fun db triggers => { db with triggers }) (fun _ _ => rfl) (fun _ _ => rfl)
      (fun _ _ _ => rfl) (fun _ => rfl) hobj.triggers i
  have hT₁ : Holds m ({ db with triggers } : Db).hashes T := hT
  obtain ⟨w₁, hclear₁, hw₁⟩ := hashClear_spec hmem hm hT₁ (i, .trig)
  -- the tables
  have hT₂ : Holds m (({ db with triggers } : Db).withHashes w₁).hashes
      (Function.update T (i, .trig) fun _ => none) := hw₁
  have htablesDirectory : Directory TableInfo.toSchemaObject n
      (fun j => Function.update T (i, .trig) (fun _ => none) (j, .tbl)) db.tableInfo tl := by
    rw [update_trig_tbl]
    exact hobj.tables
  obtain ⟨zs, tables, hzs, htabs, hdeleteTabs, htables⟩ :=
    Directory.deleteAll_each hT₂ Db.deleteTable Db.tables
      (fun db tables => { db with tables }) (fun _ _ => rfl) (fun _ _ => rfl)
      (fun _ _ _ => rfl) (fun _ => rfl) htablesDirectory i
  have hT₃ : Holds m ({ ({ db with triggers } : Db).withHashes w₁ with tables } : Db).hashes
      (Function.update T (i, .trig) fun _ => none) := hw₁
  obtain ⟨w₂, hclear₂, hw₂⟩ := hashClear_spec hmem hm hT₃ (i, .tbl)
  refine ⟨(({ ({ db with triggers } : Db).withHashes w₁ with tables } : Db).withHashes
    w₂).setLoaded i false, _, ?_, rfl, hw₂, ⟨?_, ?_, ?_⟩, ?_⟩
  · simp only [sqlite3SchemaClear, htrigs, hdeleteTrigs, hclear₁, htabs, hdeleteTabs,
      Option.bind_eq_bind, Option.bind_some, hclear₂]
    rfl
  · exact htablesDirectory.deleted hzs (fun j k => update_clear_apply ..) htables
  · refine hobj.triggers.deleted hys (fun j k => ?_) htriggers
    rw [congrFun update_tbl_trig j]
    exact update_clear_apply ..
  · have hlength : gl.length ≤ db.calls + 1 + 1 := hobj.length.trans (by omega)
    exact (List.length_filter_le ..).trans hlength
  · apply hlists.frame
    · exact fun x hx => (List.mem_filter.mp hx).1
    · -- the lists of the other tables have triggers of their own schemas only
      intro x hx
      refine own_filter_of_keep fun y hy => ?_
      rw [(mem_own_iff.mp hy).2.1]
      exact (List.mem_filter.mp hx).2
    · intro x hx
      obtain ⟨hxtl, hschema⟩ := List.mem_filter.mp hx
      have hkept : tables x.1 = db.tables x.1 := by
        rw [htables, if_neg fun hin => ?_]
        · rfl
        · simp [(hobj.tables.mem_each_iff hzs hxtl).mp hin] at hschema
      show (tables x.1).map SchemaTable.pTrigger = _
      rw [hkept]
      rfl
    · intro x hx y hy
      obtain ⟨hxtl, hschema⟩ := List.mem_filter.mp hx
      obtain ⟨hygl, hysch, -⟩ := mem_own_iff.mp hy
      have hkept : triggers y.1 = db.triggers y.1 := by
        rw [htriggers, if_neg fun hin => ?_]
        have hcleared := (hobj.triggers.mem_each_iff hys hygl).mp hin
        simp [← hysch, hcleared] at hschema
      show (triggers y.1).map Trigger.pNext = _
      rw [hkept]
      rfl

/-- The schemas are cleared one after the other. -/
theorem clearSchemas_spec (hT : Holds m db.hashes T) (hobj : Objects n db T tl gl)
    (hlists : Lists db tl gl) (is : List ℕ) :
    ∃ db' T', clearSchemas mem db is = some db' ∧
      (∀ i, db'.loaded i = (db.loaded i && !decide (i ∈ is))) ∧ Holds m db'.hashes T' ∧
      Objects n db' T' (tl.filter fun x => x.2.pSchema ∉ is)
        (gl.filter fun y => y.2.pSchema ∉ is) ∧
      Lists db' (tl.filter fun x => x.2.pSchema ∉ is) (gl.filter fun y => y.2.pSchema ∉ is) := by
  induction is generalizing db T tl gl with
  | nil =>
      have htl : (tl.filter fun x => x.2.pSchema ∉ []) = tl :=
        List.filter_eq_self.mpr fun x _ => by simp
      have hgl : (gl.filter fun y => y.2.pSchema ∉ []) = gl :=
        List.filter_eq_self.mpr fun y _ => by simp
      rw [htl, hgl]
      exact ⟨db, T, rfl, fun i => by simp, hT, hobj, hlists⟩
  | cons i is ih =>
      obtain ⟨db₁, T₁, hclear, hloaded₁, hT₁, hobj₁, hlists₁⟩ :=
        sqlite3SchemaClear_spec hmem hm hT hobj hlists i
      obtain ⟨db', T', hrest, hloaded', hT', hobj', hlists'⟩ := ih hT₁ hobj₁ hlists₁
      rw [filter_notMem_cons tl fun x => x.2.pSchema,
        filter_notMem_cons gl fun y => y.2.pSchema] at hobj' hlists'
      refine ⟨db', T', ?_, fun k => ?_, hT', hobj', hlists'⟩
      · simp only [clearSchemas, hclear, Option.bind_eq_bind, Option.bind_some, hrest]
      · rw [hloaded', hloaded₁]
        by_cases hk : k = i
        · simp [hk]
        · simp [hk]

omit hmem hm in
/-- No trigger is left on a table that is gone, since TEMP is cleared too. -/
theorem Attached.clear (h : Attached tl gl) {is : List ℕ} (htemp : 1 ∈ is) :
    Attached (tl.filter fun x => x.2.pSchema ∉ is) (gl.filter fun y => y.2.pSchema ∉ is) := by
  intro y hy
  obtain ⟨hgl, hnot⟩ := List.mem_filter.mp hy
  have hkept : y.2.pSchema ∉ is := by simpa using hnot
  obtain ⟨hschema, x, hx, hon, hkind⟩ := h y hgl
  have hown : y.2.pSchema = y.2.pTabSchema :=
    hschema.resolve_right fun hone => hkept (hone ▸ htemp)
  refine ⟨hschema, x, List.mem_filter.mpr ⟨hx, ?_⟩, hon, hkind⟩
  rw [← (on_iff.mp hon).1, ← hown]
  simpa using hkept

/-- A reset leaves the objects of the other schemas. -/
theorem clearSchemas_holds {c : Catalog} (h : SchemaHolds n m db c) {is : List ℕ}
    (htemp : 1 ∈ is) :
    ∃ db', clearSchemas mem db is = some db' ∧
      SchemaHolds n m db' (c.reset fun i => decide (i ∈ is)) := by
  obtain ⟨T, tl, gl, hT, hobj, hlists, hatt, rfl⟩ := h
  obtain ⟨db', T', hclear, hloaded', hT', hobj', hlists'⟩ :=
    clearSchemas_spec hmem hm hT hobj hlists is
  refine ⟨db', hclear, T', _, _, hT', hobj', hlists', hatt.clear htemp, ?_⟩
  simp only [catalogOf, Catalog.reset, List.filter_map, decide_not, funext hloaded']
  rfl

end Reset

end SmtCacheBenchmarks.Sqlite
