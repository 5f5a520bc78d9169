import SmtCacheBenchmarks.Sqlite.SchemaReset

/-!
# The Schema Refines the Catalog

The functions of `Trigger.lean` do what the specification in `Catalog.lean` allows, over
whole runs: no pointer is followed that is NULL or freed, no assertion is violated, and
the triggers that are found for a table are those that the statements left behind.
-/

namespace SmtCacheBenchmarks.Sqlite

open SmtCacheBenchmarks.Library Simulation SinglyLinked

section Step

variable {mem : Memory} (hmem : mem.Sound) {m : ℕ} (hm : m < 2 ^ 31 - 1) {dbs : Databases}
  {db : Db} {c : Catalog} (h : SchemaHolds dbs.names.length m db c)

include h in
/-- The schema of an object is one of the databases. -/
theorem SchemaHolds.pSchema_lt :
    (∀ t ∈ c.tables, t.pSchema < dbs.names.length) ∧
      ∀ g ∈ c.triggers, g.pSchema < dbs.names.length := by
  obtain ⟨T, tl, gl, -, hobj, -, -, rfl⟩ := h
  constructor
  · intro t ht
    obtain ⟨x, hx, rfl⟩ := List.mem_map.mp ht
    exact hobj.tables.bounded x hx
  · intro g hg
    obtain ⟨y, hy, rfl⟩ := List.mem_map.mp hg
    exact hobj.triggers.bounded y hy

include hmem hm h

theorem sqlite3ResetOneSchema_spec (iDb : Fin dbs.names.length) :
    ∃ db', sqlite3ResetOneSchema mem dbs db iDb = some db' ∧
      SchemaHolds dbs.names.length m db' (c.reset fun i => i = iDb || i = 1) := by
  obtain ⟨is, his⟩ : ∃ is, is = (List.range dbs.names.length).filter fun i =>
    i = (iDb : ℕ) ∨ i = 1 := ⟨_, rfl⟩
  have hcleared : ∀ k, k ∈ is ↔ k = iDb ∨ k = 1 := by
    intro k
    simp only [his, List.mem_filter, List.mem_range, decide_eq_true_eq, and_iff_right_iff_imp]
    rintro (rfl | rfl)
    · exact iDb.isLt
    · exact dbs.two
  obtain ⟨db', hclear, hholds⟩ := clearSchemas_holds hmem hm h ((hcleared 1).mpr (.inr rfl))
  refine ⟨db', by rw [sqlite3ResetOneSchema, ← his, hclear], ?_⟩
  have hgone : (fun k => decide (k ∈ is)) = fun k : ℕ => decide (k = iDb) || decide (k = 1) := by
    funext k
    rw [← Bool.decide_or]
    exact decide_eq_decide.mpr (hcleared k)
  rwa [hgone] at hholds

theorem sqlite3ResetAllSchemas_spec :
    ∃ db', sqlite3ResetAllSchemas mem dbs db = some db' ∧
      SchemaHolds dbs.names.length m db' (c.reset fun i => i < dbs.names.length) := by
  obtain ⟨db', hclear, hholds⟩ :=
    clearSchemas_holds hmem hm h (List.mem_range.mpr (Nat.lt_of_succ_le dbs.two))
  simp only [List.mem_range] at hholds
  exact ⟨db', hclear, hholds⟩

omit hmem hm in
/-- A schema has been read. -/
theorem SchemaHolds.setLoaded (iDb : ℕ) :
    SchemaHolds dbs.names.length m (db.setLoaded iDb true)
      { c with loaded := Function.update c.loaded iDb true } := by
  obtain ⟨T, tl, gl, hT, hobj, hlists, hatt, rfl⟩ := h
  exact ⟨T, tl, gl, hT, hobj.frame rfl rfl le_rfl, hlists, hatt, rfl⟩

/-- **Each operation is allowed** by the specification. -/
theorem schemaCall_spec (op : SchemaOp dbs.names.length) :
    ∃ db' r c', schemaCall mem dbs db op = some (db', r) ∧
      CatalogSpec dbs (mem.room db op) c op r c' ∧
      SchemaHolds dbs.names.length (m + 1) db' c' := by
  cases op with
  | createTable iDb x => exact createTable_spec hmem hm h iDb x
  | createTrigger iDb x => exact createTrigger_spec hmem hm h iDb x
  | schemaLoaded iDb =>
      exact ⟨_, _, _, rfl, .of_change rfl rfl (.inl rfl),
        (h.setLoaded iDb).mono (Nat.le_succ m)⟩
  | dropTrigger zDb zName noErr => exact sqlite3DropTrigger_spec hmem hm h _ zDb zName noErr
  | dropTable zDb zName isView noErr =>
      exact sqlite3DropTable_spec hmem hm h _ zDb zName isView noErr
  | triggersExist zDb zName op pChanges =>
      exact sqlite3TriggersExist_spec h _ zDb zName op pChanges
  | resetOneSchema iDb =>
      obtain ⟨db', hreset, hholds⟩ := sqlite3ResetOneSchema_spec hmem hm h iDb
      refine ⟨db', .done, _, ?_, .of_change rfl rfl (.inl rfl), hholds.mono (Nat.le_succ m)⟩
      rw [schemaCall, hreset]
      rfl
  | resetAllSchemas =>
      obtain ⟨db', hreset, hholds⟩ := sqlite3ResetAllSchemas_spec hmem hm h
      refine ⟨db', .done, _, ?_, .of_change rfl rfl (.inl rfl), hholds.mono (Nat.le_succ m)⟩
      rw [schemaCall, hreset]
      rfl

end Step

/-! ## Whole runs -/

/-- The schema simulates the catalog. -/
theorem schemaStep_simulates {mem : Memory} (hmem : mem.Sound) (dbs : Databases) :
    Simulates (schemaStep mem dbs) (Spec.observed (CatalogSpec dbs))
      (SchemaHolds dbs.names.length) (2 ^ 31 - 1) := by
  refine ⟨fun n hn db c op h => ?_⟩
  obtain ⟨db', r, c', hcall, hspec, hholds⟩ := schemaCall_spec hmem hn h op
  refine ⟨db', ⟨r, mem.room db op⟩, c', ?_, hspec, hholds⟩
  simp only [schemaStep, hcall, Option.bind_eq_bind, Option.bind_some]
  rfl

/-- The catalog of a connection that has read nothing. -/
def Catalog.empty : Catalog := ⟨fun _ => false, [], []⟩

/-- Empty schemas stand for the empty catalog. -/
theorem schemaHolds_init (n : ℕ) : SchemaHolds n 0 Db.init .empty := by
  refine ⟨fun _ _ => none, [], [], holds_initialWorld, ⟨?_, ?_, le_rfl⟩, ?_, ?_, rfl⟩
  · exact ⟨by simp, by simp, List.nodup_nil, fun p hp => absurd hp Bool.false_ne_true, by simp⟩
  · exact ⟨by simp, by simp, List.nodup_nil, fun p hp => absurd hp Bool.false_ne_true, by simp⟩
  · intro x hx
    cases hx
  · intro y hy
    cases hy

/-- **The schema refines the catalog**: a run of entries that are read, of statements and of
questions on any number of databases, in any order and with any allocations failing,
follows no bad pointer, frees nothing twice and violates no assertion, and all its answers
are those of the catalog; nothing is refused for which there was memory. -/
theorem schema_refines {mem : Memory} (hmem : mem.Sound) (dbs : Databases)
    (ops : List (SchemaOp dbs.names.length)) (hops : ops.length < 2 ^ 31) :
    ∃ db results c, Simulation.run (schemaStep mem dbs) 0 Db.init ops = some (db, results) ∧
      SpecRun (Spec.observed (CatalogSpec dbs)) .empty ops results c := by
  obtain ⟨db, results, c, hrun, hspec, -⟩ := (schemaStep_simulates hmem dbs).run ops
    (by omega) (schemaHolds_init dbs.names.length)
  exact ⟨db, results, c, hrun, hspec⟩

/-- A connection that stands for a catalog without objects uses no memory. -/
theorem SchemaHolds.released {n m : ℕ} {db : Db} {c : Catalog} (h : SchemaHolds n m db c)
    (htables : c.tables = []) (htriggers : c.triggers = []) :
    (∀ p, db.tables p = none) ∧ (∀ p, db.triggers p = none) ∧
      (∀ p, db.hashes.heap.elems p = none) ∧ ∀ a, db.hashes.heap.arrays a = none := by
  obtain ⟨T, tl, gl, hT, hobj, -, -, rfl⟩ := h
  obtain rfl := List.map_eq_nil_iff.mp htables
  obtain rfl := List.map_eq_nil_iff.mp htriggers
  have hmaps : ∀ i k, T i k = none := by
    rintro ⟨i, kind⟩ k
    rw [Option.eq_none_iff_forall_ne_some]
    intro e he
    cases kind with
    | tbl =>
        obtain ⟨x, hx, -⟩ := (hobj.tables.entry i k e).mp he
        cases hx
    | trig =>
        obtain ⟨y, hy, -⟩ := (hobj.triggers.entry i k e).mp he
        cases hy
  refine ⟨fun p => ?_, fun p => ?_, hT.released hmaps⟩
  · cases htab : db.tables p with
    | none => rfl
    | some t => cases hobj.tables.allocated p (by simp [Db.tableInfo, htab])
  · cases htrig : db.triggers p with
    | none => rfl
    | some t => cases hobj.triggers.allocated p (by simp [Db.trigInfo, htrig])

/-- An allocator that uses an address for each call, as long as it is free. -/
def memoryNth : Memory where
  malloc := mallocNth
  table n heap := if (heap n).isNone then some n else none
  trigger n heap := if (heap n).isNone then some n else none

theorem memoryNth_sound : memoryNth.Sound where
  malloc := mallocNth_sound
  table n heap p hp := by
    simp only [memoryNth, Option.ite_none_right_eq_some, Option.some.injEq] at hp
    obtain ⟨hfree, rfl⟩ := hp
    simpa using hfree
  trigger n heap p hp := by
    simp only [memoryNth, Option.ite_none_right_eq_some, Option.some.injEq] at hp
    obtain ⟨hfree, rfl⟩ := hp
    simpa using hfree

/-- A connection with the databases main and temp. -/
def mainAndTemp : Databases where
  names := [⟨"main".toList, by decide⟩, ⟨"temp".toList, by decide⟩]
  two := le_rfl
  distinct := by decide

/-- The schemas are read when nothing has been created yet. -/
def readSchemas : List (SchemaOp mainAndTemp.names.length) :=
  [.createTable (0 : Fin 2) ⟨"x".toList, masterName, .table⟩,
    .schemaLoaded (0 : Fin 2),
    .createTable (1 : Fin 2) ⟨"x".toList, tempMasterName, .table⟩,
    .schemaLoaded (1 : Fin 2)]

/-- The table `t`. -/
def tableT : TableName := ⟨⟨"t".toList, by decide⟩, by decide⟩

/-- A trigger AFTER INSERT. -/
def triggerA : NewTrigger :=
  ⟨"a".toList, ⟨"a".toList, by decide⟩, none, ⟨⟨"T".toList, by decide⟩, by decide⟩, .after,
    .insert, none⟩

/-- A trigger BEFORE INSERT, with its name in brackets. -/
def triggerB : NewTrigger :=
  ⟨"[b]".toList, ⟨"b".toList, by decide⟩, none, tableT, .before, .insert, none⟩

/-- A trigger of its own schema and a TEMP trigger on one table. -/
def twoTriggers : List (SchemaOp mainAndTemp.names.length) :=
  [.dropTable none tableT false false] ++ readSchemas ++
    [.createTable (0 : Fin 2) ⟨"t".toList, tableT.z, .table⟩,
      .createTrigger (0 : Fin 2) triggerA,
      .createTrigger (1 : Fin 2) triggerB,
      .createTrigger (1 : Fin 2) triggerB,
      .triggersExist none tableT .insert none,
      .dropTable none tableT false false,
      .triggersExist none tableT .insert none]

/-- What they answer. -/
def twoTriggersResults : List SchemaResult :=
  [.readSchema, .done, .done, .done, .done, .done, .done, .done,
    .error "trigger [b] already exists".toList,
    .triggers 3 [triggerB.info 1 0, triggerA.info 0 0], .done,
    .error "no such table: t".toList]

theorem schema_refines_twoTriggers : ∃ db results c,
    Simulation.run (schemaStep memoryNth mainAndTemp) 0 Db.init twoTriggers = some (db, results) ∧
      SpecRun (Spec.observed (CatalogSpec mainAndTemp)) .empty twoTriggers results c ∧
      results = twoTriggersResults.map fun r => ⟨r, true⟩ := by
  obtain ⟨db, results, c, hrun, hspec⟩ :=
    schema_refines memoryNth_sound mainAndTemp twoTriggers (by decide)
  have hresults : (Simulation.run (schemaStep memoryNth mainAndTemp) 0 Db.init twoTriggers).map
      Prod.snd = some (twoTriggersResults.map fun r => ⟨r, true⟩) := by decide +kernel
  rw [hrun] at hresults
  exact ⟨db, results, c, hrun, hspec, Option.some.inj hresults⟩

/-- **No leak**: when all schemas are reset after any run, every table, trigger, hash
element and bucket array that was allocated has been released. -/
theorem schema_noLeak {mem : Memory} (hmem : mem.Sound) (dbs : Databases)
    (ops : List (SchemaOp dbs.names.length)) (hops : ops.length + 1 < 2 ^ 31) :
    ∃ db results, Simulation.run (schemaStep mem dbs) 0 Db.init (ops ++ [.resetAllSchemas]) =
        some (db, results) ∧
      (∀ p, db.tables p = none) ∧ (∀ p, db.triggers p = none) ∧
      (∀ p, db.hashes.heap.elems p = none) ∧ ∀ a, db.hashes.heap.arrays a = none := by
  have hlength : 0 + (ops ++ [SchemaOp.resetAllSchemas]).length ≤ 2 ^ 31 - 1 := by
    rw [List.length_append, List.length_singleton]
    omega
  obtain ⟨db, results, c, hrun, hspec, hholds⟩ := (schemaStep_simulates hmem dbs).run
    (ops ++ [SchemaOp.resetAllSchemas]) hlength (schemaHolds_init dbs.names.length)
  obtain ⟨htables, htriggers⟩ := hholds.pSchema_lt
  -- the last step takes away the objects of all databases, and there are no others
  obtain ⟨c', os₁, os₂, -, -, hlast⟩ := hspec.of_append
  cases hlast with
  | cons hstep hnil =>
      cases hnil
      obtain rfl := (Prod.mk.inj (hstep.eq_statement rfl)).1
      refine ⟨db, results, hrun, hholds.released ?_ ?_⟩
      · refine List.eq_nil_iff_forall_not_mem.mpr fun t ht => ?_
        have hkept := (List.mem_filter.mp ht).2
        simp [htables t ht] at hkept
      · refine List.eq_nil_iff_forall_not_mem.mpr fun g hg => ?_
        have hkept := (List.mem_filter.mp hg).2
        simp [htriggers g hg] at hkept

/-- The objects of the run above are still there before the reset. -/
theorem schema_noLeak_twoTriggers :
    ∃ db₁ r₁ db results, Simulation.run (schemaStep memoryNth mainAndTemp) 0 Db.init
        (twoTriggers.take 9) = some (db₁, r₁) ∧
      (db₁.triggers 3).isSome ∧ (db₁.tables 2).isSome ∧ (db₁.hashes.heap.elems 3).isSome ∧
      Simulation.run (schemaStep memoryNth mainAndTemp) 0 Db.init
        (twoTriggers.take 9 ++ [.resetAllSchemas]) = some (db, results) ∧
      (∀ p, db.tables p = none) ∧ (∀ p, db.triggers p = none) ∧
      (∀ p, db.hashes.heap.elems p = none) ∧ ∀ a, db.hashes.heap.arrays a = none := by
  obtain ⟨db₁, r₁, hrun, htrigger, htable, helem⟩ : ∃ db₁ r₁, Simulation.run
      (schemaStep memoryNth mainAndTemp) 0 Db.init (twoTriggers.take 9) = some (db₁, r₁) ∧
      (db₁.triggers 3).isSome ∧ (db₁.tables 2).isSome ∧ (db₁.hashes.heap.elems 3).isSome :=
    ⟨_, _, rfl, rfl, rfl, rfl⟩
  obtain ⟨db, results, hrun', hreleased⟩ :=
    schema_noLeak memoryNth_sound mainAndTemp (twoTriggers.take 9) (by decide)
  exact ⟨db₁, r₁, db, results, hrun, htrigger, htable, helem, hrun', hreleased⟩

end SmtCacheBenchmarks.Sqlite
