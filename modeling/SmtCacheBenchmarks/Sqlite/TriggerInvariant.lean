import SmtCacheBenchmarks.Sqlite.Catalog

/-!
# The Invariant of the Schema

What holds between any two operations of `Trigger.lean`: the entries of the hash tables are
the tables and the triggers that are allocated, and from every table the triggers of its
schema that are on it can be reached by their links, the latest first.

The objects (`Objects`) and the links (`Lists`) are kept apart: what takes a trigger off a
list, or puts the TEMP triggers before it, does not change an object.
-/

namespace SmtCacheBenchmarks.Sqlite

open SmtCacheBenchmarks.Library Simulation SinglyLinked

/-! ## Objects and links -/

namespace Db

variable (db : Db)

/-- What a trigger holds besides its link. -/
def trigInfo (p : Ptr) : Option TriggerInfo := (db.triggers p).map Trigger.toTriggerInfo

/-- What a table holds besides its triggers. -/
def tableInfo (p : Ptr) : Option TableInfo := (db.tables p).map SchemaTable.toTableInfo

/-- The `pTrigger` of a table. -/
def head (p : Ptr) : Option (Option Ptr) := (db.tables p).map SchemaTable.pTrigger

variable {db}

theorem triggers_eq {p : Ptr} {g : TriggerInfo} (h : db.trigInfo p = some g) :
    ∃ next, db.triggers p = some ⟨g, next⟩ ∧ db.next p = some next := by
  obtain ⟨t, ht, rfl⟩ := Option.map_eq_some_iff.mp h
  exact ⟨t.pNext, ht, by rw [Db.next, ht]; rfl⟩

theorem next_eq_some {p : Ptr} {next : Option Ptr} (h : db.next p = some next) :
    ∃ g, db.triggers p = some ⟨g, next⟩ := by
  obtain ⟨t, ht, rfl⟩ := Option.map_eq_some_iff.mp h
  exact ⟨t.toTriggerInfo, ht⟩

theorem head_eq_some {p : Ptr} {first : Option Ptr} (h : db.head p = some first) :
    ∃ x, db.tables p = some ⟨x, first⟩ := by
  obtain ⟨t, ht, rfl⟩ := Option.map_eq_some_iff.mp h
  exact ⟨t.toTableInfo, ht⟩

theorem tables_eq {p : Ptr} {x : TableInfo} (h : db.tableInfo p = some x) :
    ∃ first, db.tables p = some ⟨x, first⟩ ∧ db.head p = some first := by
  obtain ⟨t, ht, rfl⟩ := Option.map_eq_some_iff.mp h
  exact ⟨t.pTrigger, ht, by rw [Db.head, ht]; rfl⟩

variable (db)

@[simp] theorem trigInfo_setTrigger (p : Ptr) (g : TriggerInfo) (next : Option Ptr) :
    (db.setTrigger p ⟨g, next⟩).trigInfo = Function.update db.trigInfo p (some g) := by
  funext q
  by_cases hq : q = p
  · subst hq
    simp [trigInfo, setTrigger]
  · simp [trigInfo, setTrigger, hq]

@[simp] theorem next_setTrigger (p : Ptr) (g : TriggerInfo) (next : Option Ptr) :
    (db.setTrigger p ⟨g, next⟩).next = Function.update db.next p (some next) := by
  funext q
  by_cases hq : q = p
  · subst hq
    simp [Db.next, setTrigger]
  · simp [Db.next, setTrigger, hq]

@[simp] theorem tableInfo_setTable (p : Ptr) (x : TableInfo) (first : Option Ptr) :
    (db.setTable p ⟨x, first⟩).tableInfo = Function.update db.tableInfo p (some x) := by
  funext q
  by_cases hq : q = p
  · subst hq
    simp [tableInfo, setTable]
  · simp [tableInfo, setTable, hq]

@[simp] theorem head_setTable (p : Ptr) (x : TableInfo) (first : Option Ptr) :
    (db.setTable p ⟨x, first⟩).head = Function.update db.head p (some first) := by
  funext q
  by_cases hq : q = p
  · subst hq
    simp [head, setTable]
  · simp [head, setTable, hq]

@[simp] theorem tableInfo_setTrigger (p : Ptr) (t : Trigger) :
    (db.setTrigger p t).tableInfo = db.tableInfo := rfl

@[simp] theorem head_setTrigger (p : Ptr) (t : Trigger) : (db.setTrigger p t).head = db.head := rfl

@[simp] theorem trigInfo_setTable (p : Ptr) (t : SchemaTable) :
    (db.setTable p t).trigInfo = db.trigInfo := rfl

@[simp] theorem next_setTable (p : Ptr) (t : SchemaTable) : (db.setTable p t).next = db.next := rfl

@[simp] theorem trigInfo_withHashes (w : World HashId Ptr) :
    (db.withHashes w).trigInfo = db.trigInfo := rfl

@[simp] theorem next_withHashes (w : World HashId Ptr) : (db.withHashes w).next = db.next := rfl

@[simp] theorem tableInfo_withHashes (w : World HashId Ptr) :
    (db.withHashes w).tableInfo = db.tableInfo := rfl

@[simp] theorem head_withHashes (w : World HashId Ptr) : (db.withHashes w).head = db.head := rfl

end Db

/-! ## Directories -/

section Directory

variable {α : Type}

/-- The entries of the maps `M`, one for each schema, are the objects at the addresses in
`l`, and no other object is allocated. -/
structure Directory (f : α → SchemaObject) (n : ℕ) (M : ℕ → Table Ptr) (info : Ptr → Option α)
    (l : List (Ptr × α)) : Prop where
  entry : ∀ i k e, M i k = some e ↔
    ∃ x ∈ l, e = ⟨x.1, (f x.2).zName⟩ ∧ (f x.2).pSchema = i ∧ foldKey (f x.2).zName = k
  object : ∀ x ∈ l, info x.1 = some x.2
  nodup : (l.map Prod.fst).Nodup
  allocated : ∀ p, (info p).isSome → p ∈ l.map Prod.fst
  bounded : ∀ x ∈ l, (f x.2).pSchema < n

/-- The object of a name in one schema, with its address. -/
def objectAt (f : α → SchemaObject) (l : List (Ptr × α)) (zName : CString) (i : ℕ) :
    Option (Ptr × α) :=
  l.find? fun x => (f x.2).pSchema = i ∧ foldKey (f x.2).zName = foldKey zName

theorem objectAt_eq_some {f : α → SchemaObject} {l : List (Ptr × α)} {zName : CString} {i : ℕ}
    {x : Ptr × α} (h : objectAt f l zName i = some x) :
    x ∈ l ∧ (f x.2).pSchema = i ∧ foldKey (f x.2).zName = foldKey zName :=
  ⟨List.mem_of_find?_eq_some h, by simpa using List.find?_some h⟩

namespace Directory

variable {f : α → SchemaObject} {n : ℕ} {M M' : ℕ → Table Ptr} {info info' : Ptr → Option α}
  {l : List (Ptr × α)} (h : Directory f n M info l)

include h

/-- An object is determined by its address. -/
theorem eq_of_ptr {x y : Ptr × α} (hx : x ∈ l) (hy : y ∈ l) (heq : x.1 = y.1) : x = y := by
  have hinfo : some x.2 = some y.2 := by rw [← h.object x hx, ← h.object y hy, heq]
  exact Prod.ext heq (Option.some.inj hinfo)

/-- And by its schema and name. -/
theorem unique {x y : Ptr × α} (hx : x ∈ l) (hy : y ∈ l)
    (hschema : (f x.2).pSchema = (f y.2).pSchema)
    (hname : foldKey (f x.2).zName = foldKey (f y.2).zName) : x = y := by
  have hex := (h.entry _ _ _).mpr ⟨x, hx, rfl, rfl, rfl⟩
  have hey := (h.entry _ _ _).mpr ⟨y, hy, rfl, rfl, rfl⟩
  rw [hschema, hname, hey] at hex
  exact h.eq_of_ptr hx hy (congrArg Entry.data (Option.some.inj hex)).symm

/-- What is not allocated is not in the directory. -/
theorem ne_of_fresh {p : Ptr} (hfresh : info p = none) {x : Ptr × α} (hx : x ∈ l) : x.1 ≠ p := by
  rintro rfl
  have hsome := h.object x hx
  rw [hfresh] at hsome
  cases hsome

/-- A lookup in the maps finds the object of the name. -/
theorem lookup (i : ℕ) (zName : CString) :
    M i (foldKey zName) = (objectAt f l zName i).map fun x => ⟨x.1, (f x.2).zName⟩ := by
  cases hx : objectAt f l zName i with
  | some x =>
      obtain ⟨hmem, hschema, hname⟩ := objectAt_eq_some hx
      exact (h.entry _ _ _).mpr ⟨x, hmem, rfl, hschema, hname⟩
  | none =>
      rw [Option.map_none, Option.eq_none_iff_forall_ne_some]
      intro e he
      obtain ⟨x, hmem, -, hschema, hname⟩ := (h.entry _ _ _).mp he
      have hnot := List.find?_eq_none.mp hx x hmem
      simp [hschema, hname] at hnot

/-- An object with a new name is added. -/
theorem add {p : Ptr} {x : α} (hfresh : info p = none)
    (hmissing : M (f x).pSchema (foldKey (f x).zName) = none) (hschema : (f x).pSchema < n)
    (hM : ∀ i k, M' i k = if i = (f x).pSchema ∧ k = foldKey (f x).zName then
      some ⟨p, (f x).zName⟩ else M i k) :
    Directory f n M' (Function.update info p (some x)) ((p, x) :: l) where
  entry := by
    intro i k e
    rw [hM, List.exists_mem_cons_iff]
    split_ifs with hkey
    · obtain ⟨rfl, rfl⟩ := hkey
      constructor
      · rintro ⟨⟩
        exact .inl ⟨rfl, rfl, rfl⟩
      · rintro (⟨rfl, -, -⟩ | ⟨y, hy, -, hys, hyk⟩)
        · rfl
        · -- the name was free
          have hsome := (h.entry _ _ _).mpr ⟨y, hy, rfl, hys, hyk⟩
          rw [hmissing] at hsome
          cases hsome
    · rw [h.entry]
      constructor
      · exact .inr
      · rintro (⟨-, rfl, rfl⟩ | hold)
        · exact absurd ⟨rfl, rfl⟩ hkey
        · exact hold
  object := by
    intro y hy
    rcases List.mem_cons.mp hy with rfl | hy
    · exact Function.update_self ..
    · rw [Function.update_of_ne (h.ne_of_fresh hfresh hy)]
      exact h.object y hy
  nodup := by
    rw [List.map_cons, List.nodup_cons]
    refine ⟨fun hmem => ?_, h.nodup⟩
    obtain ⟨y, hy, heq⟩ := List.mem_map.mp hmem
    exact h.ne_of_fresh hfresh hy heq
  allocated := by
    intro q hq
    rw [List.map_cons, List.mem_cons]
    by_cases heq : q = p
    · exact .inl heq
    · rw [Function.update_of_ne heq] at hq
      exact .inr (h.allocated q hq)
  bounded := by
    intro y hy
    rcases List.mem_cons.mp hy with rfl | hy
    · exact hschema
    · exact h.bounded y hy

/-- Some objects are removed. -/
theorem filter {keep : Ptr × α → Bool}
    (hM : ∀ i k e, M' i k = some e ↔ ∃ x ∈ l, keep x = true ∧
      e = ⟨x.1, (f x.2).zName⟩ ∧ (f x.2).pSchema = i ∧ foldKey (f x.2).zName = k)
    (hinfo : ∀ x ∈ l, info' x.1 = if keep x then info x.1 else none)
    (hframe : ∀ p, p ∉ l.map Prod.fst → info' p = info p) :
    Directory f n M' info' (l.filter keep) where
  entry := by
    intro i k e
    rw [hM]
    simp only [List.mem_filter, and_assoc]
  object := by
    intro x hx
    obtain ⟨hmem, hkeep⟩ := List.mem_filter.mp hx
    rw [hinfo x hmem, if_pos hkeep]
    exact h.object x hmem
  nodup := (List.filter_sublist.map Prod.fst).nodup h.nodup
  allocated := by
    intro p hp
    by_cases hmem : p ∈ l.map Prod.fst
    · obtain ⟨x, hx, rfl⟩ := List.mem_map.mp hmem
      rw [hinfo x hx] at hp
      split_ifs at hp with hkeep
      · exact List.mem_map_of_mem (List.mem_filter.mpr ⟨hx, hkeep⟩)
      · cases hp
    · rw [hframe p hmem] at hp
      exact absurd (h.allocated p hp) hmem
  bounded := fun x hx => h.bounded x (List.mem_filter.mp hx).1

/-- One object is removed. -/
theorem remove {x : Ptr × α} (hx : x ∈ l)
    (hM : ∀ i k, M' i k = if i = (f x.2).pSchema ∧ k = foldKey (f x.2).zName then none
      else M i k) :
    Directory f n M' (Function.update info x.1 none) (l.filter fun y => y.1 ≠ x.1) := by
  apply h.filter
  · intro i k e
    rw [hM]
    split_ifs with hkey
    · obtain ⟨rfl, rfl⟩ := hkey
      constructor
      · rintro ⟨⟩
      · rintro ⟨y, hy, hne, -, hys, hyk⟩
        have hyx := h.unique hy hx hys hyk
        exact absurd (congrArg Prod.fst hyx) (by simpa using hne)
    · rw [h.entry]
      constructor
      · rintro ⟨y, hy, he, hys, hyk⟩
        refine ⟨y, hy, decide_eq_true fun heq => ?_, he, hys, hyk⟩
        obtain rfl := h.eq_of_ptr hy hx heq
        exact hkey ⟨hys.symm, hyk.symm⟩
      · rintro ⟨y, hy, -, he, hys, hyk⟩
        exact ⟨y, hy, he, hys, hyk⟩
  · intro y hy
    by_cases heq : y.1 = x.1
    · simp [heq]
    · simp [heq]
  · intro p hp
    refine Function.update_of_ne (fun heq => hp ?_) ..
    rw [heq]
    exact List.mem_map_of_mem hx

/-- The others, by their names. -/
theorem map_snd_remove {x : Ptr × α} (hx : x ∈ l) :
    (l.filter fun z => z.1 ≠ x.1).map Prod.snd =
      (l.map Prod.snd).filter fun o => !(f o).same (f x.2) := by
  rw [List.filter_map]
  refine congrArg (List.map Prod.snd) (List.filter_congr fun z hz => ?_)
  by_cases heq : z.1 = x.1
  · obtain rfl := h.eq_of_ptr hz hx heq
    simp [SchemaObject.same]
  · have hnot : (f z.2).same (f x.2) = false := decide_eq_false fun hsame =>
      heq (congrArg Prod.fst (h.unique hz hx hsame.1 hsame.2))
    simp [heq, hnot]

/-- The objects of one schema are removed. -/
theorem clear {i : ℕ} (hM : ∀ j k, M' j k = if j = i then none else M j k)
    (hinfo : ∀ x ∈ l, info' x.1 = if (f x.2).pSchema = i then none else info x.1)
    (hframe : ∀ p, p ∉ l.map Prod.fst → info' p = info p) :
    Directory f n M' info' (l.filter fun x => (f x.2).pSchema ≠ i) := by
  refine h.filter (fun j k e => ?_) (fun x hx => ?_) hframe
  · rw [hM]
    split_ifs with hj
    · subst hj
      constructor
      · rintro ⟨⟩
      · rintro ⟨x, -, hne, -, hxs, -⟩
        exact absurd hxs (by simpa using hne)
    · rw [h.entry]
      constructor
      · rintro ⟨x, hx, he, hxs, hxk⟩
        exact ⟨x, hx, decide_eq_true fun heq => hj (hxs.symm.trans heq), he, hxs, hxk⟩
      · rintro ⟨x, hx, -, he, hxs, hxk⟩
        exact ⟨x, hx, he, hxs, hxk⟩
  · rw [hinfo x hx]
    by_cases hxs : (f x.2).pSchema = i
    · simp [hxs]
    · simp [hxs]

end Directory

end Directory

/-! ## The invariant -/

/-- The triggers in the schema of a table that are on it. -/
def own (gl : List (Ptr × TriggerInfo)) (t : TableInfo) : List (Ptr × TriggerInfo) :=
  gl.filter fun y => y.2.pSchema = t.pSchema && y.2.on t

/-- Their addresses. -/
def ownPtrs (gl : List (Ptr × TriggerInfo)) (t : TableInfo) : List Ptr :=
  (own gl t).map Prod.fst

/-- The hash tables `T` have the tables at the addresses in `tl` and the triggers at those in
`gl` as their entries. -/
structure Objects (n : ℕ) (db : Db) (T : HashId → Table Ptr) (tl : List (Ptr × TableInfo))
    (gl : List (Ptr × TriggerInfo)) : Prop where
  tables : Directory TableInfo.toSchemaObject n (fun i => T (i, .tbl)) db.tableInfo tl
  triggers : Directory TriggerInfo.toSchemaObject n (fun i => T (i, .trig)) db.trigInfo gl
  length : gl.length ≤ db.calls

/-- From every table its own triggers can be reached. -/
def Lists (db : Db) (tl : List (Ptr × TableInfo)) (gl : List (Ptr × TriggerInfo)) : Prop :=
  ∀ x ∈ tl, ∃ first, db.head x.1 = some first ∧ Chain db.next first (ownPtrs gl x.2)

/-- Every trigger is on a table that is not virtual, in its own schema or from TEMP. -/
def Attached (tl : List (Ptr × TableInfo)) (gl : List (Ptr × TriggerInfo)) : Prop :=
  ∀ y ∈ gl, (y.2.pSchema = y.2.pTabSchema ∨ y.2.pSchema = 1) ∧
    ∃ x ∈ tl, y.2.on x.2 = true ∧ x.2.kind ≠ .virtual

/-- The catalog of the objects. -/
def catalogOf (loaded : ℕ → Bool) (tl : List (Ptr × TableInfo))
    (gl : List (Ptr × TriggerInfo)) : Catalog :=
  ⟨loaded, tl.map Prod.snd, gl.map Prod.snd⟩

/-- **The invariant**: the connection stands for the catalog, with at most `m` entries in
each hash table. -/
def SchemaHolds (n m : ℕ) (db : Db) (c : Catalog) : Prop :=
  ∃ T tl gl, Holds m db.hashes T ∧ Objects n db T tl gl ∧ Lists db tl gl ∧ Attached tl gl ∧
    c = catalogOf db.loaded tl gl

theorem SchemaHolds.mono {n m k : ℕ} {db : Db} {c : Catalog} (h : SchemaHolds n m db c)
    (hmk : m ≤ k) : SchemaHolds n k db c := by
  obtain ⟨T, tl, gl, hT, hrest⟩ := h
  exact ⟨T, tl, gl, hT.mono hmk, hrest⟩

/-- The catalog knows which schemas have been read. -/
theorem SchemaHolds.isLoaded {dbs : Databases} {n m : ℕ} {db : Db} {c : Catalog}
    (h : SchemaHolds n m db c) : c.isLoaded dbs = db.schemasLoaded dbs := by
  obtain ⟨T, tl, gl, -, -, -, -, rfl⟩ := h
  rfl

theorem on_iff {g : TriggerInfo} {t : TableInfo} :
    g.on t = true ↔ g.pTabSchema = t.pSchema ∧ foldKey g.table = foldKey t.zName := by
  simp [TriggerInfo.on]

theorem mem_own_iff {gl : List (Ptr × TriggerInfo)} {t : TableInfo} {y : Ptr × TriggerInfo} :
    y ∈ own gl t ↔ y ∈ gl ∧ y.2.pSchema = t.pSchema ∧ y.2.on t = true := by
  simp [own]

/-- A trigger that is not on the list of a table does not count. -/
theorem own_cons_of_not {gl : List (Ptr × TriggerInfo)} {t : TableInfo} {y : Ptr × TriggerInfo}
    (h : ¬ (y.2.pSchema = t.pSchema ∧ y.2.on t = true)) : own (y :: gl) t = own gl t := by
  rw [own, List.filter_cons, if_neg (by simpa using h), own]

/-- One of the triggers is gone. -/
theorem ownPtrs_filter_ne (gl : List (Ptr × TriggerInfo)) (t : TableInfo) (p : Ptr) :
    ownPtrs (gl.filter fun y => y.1 ≠ p) t = (ownPtrs gl t).filter (· ≠ p) := by
  rw [ownPtrs, own, List.filter_comm, ownPtrs, own, List.filter_map]
  rfl

/-- The triggers of a table, when some triggers of other tables are gone. -/
theorem own_filter_of_keep {gl : List (Ptr × TriggerInfo)} {t : TableInfo}
    {keep : Ptr × TriggerInfo → Bool} (h : ∀ y ∈ own gl t, keep y = true) :
    own (gl.filter keep) t = own gl t := by
  rw [own, List.filter_comm]
  exact List.filter_eq_self.mpr h

/-! ## What does not count -/

section Frame

variable {n : ℕ} {db db' : Db} {T : HashId → Table Ptr} {tl tl' : List (Ptr × TableInfo)}
  {gl gl' : List (Ptr × TriggerInfo)}

/-- The links do not count for the objects. -/
theorem Objects.frame (h : Objects n db T tl gl) (htables : db'.tableInfo = db.tableInfo)
    (htriggers : db'.trigInfo = db.trigInfo) (hcalls : db.calls ≤ db'.calls) :
    Objects n db' T tl gl where
  tables := htables ▸ h.tables
  triggers := htriggers ▸ h.triggers
  length := h.length.trans hcalls

/-- Only the triggers on lists count for the links. -/
theorem Lists.frame (h : Lists db tl gl) (htables : ∀ x ∈ tl', x ∈ tl)
    (htriggers : ∀ x ∈ tl', own gl' x.2 = own gl x.2)
    (hhead : ∀ x ∈ tl', db'.head x.1 = db.head x.1)
    (hnext : ∀ x ∈ tl', ∀ y ∈ own gl x.2, db'.next y.1 = db.next y.1) : Lists db' tl' gl' := by
  intro x hx
  obtain ⟨first, hfirst, hchain⟩ := h x (htables x hx)
  refine ⟨first, (hhead x hx).trans hfirst, ?_⟩
  rw [ownPtrs, htriggers x hx]
  apply hchain.frame
  intro p hp
  obtain ⟨y, hy, rfl⟩ := List.mem_map.mp hp
  exact hnext x hx y hy

end Frame

section Find

variable {n m : ℕ} {db : Db} {T : HashId → Table Ptr} {tl : List (Ptr × TableInfo)}
  {gl : List (Ptr × TriggerInfo)}

/-- A trigger is on one table. -/
theorem Objects.on_unique (h : Objects n db T tl gl) {x x' : Ptr × TableInfo} (hx : x ∈ tl)
    (hx' : x' ∈ tl) {g : TriggerInfo} (hon : g.on x.2 = true) (hon' : g.on x'.2 = true) :
    x = x' := by
  rw [on_iff] at hon hon'
  exact h.tables.unique hx hx' (hon.1.symm.trans hon'.1) (hon.2.symm.trans hon'.2)

/-- No trigger is twice on a list. -/
theorem Objects.nodup_ownPtrs (h : Objects n db T tl gl) (t : TableInfo) :
    (ownPtrs gl t).Nodup :=
  (List.filter_sublist.map Prod.fst).nodup h.triggers.nodup

/-- The table that a trigger is on is found. -/
theorem tableOfTrigger_eq {info : Ptr → Option TableInfo} (hT : Holds m db.hashes T)
    (h : Directory TableInfo.toSchemaObject n (fun i => T (i, .tbl)) info tl)
    {g : TriggerInfo} {x : Ptr × TableInfo} (hx : x ∈ tl) (hon : g.on x.2 = true) :
    tableOfTrigger db g = some (some x.1) := by
  rw [on_iff] at hon
  have hentry : T (g.pTabSchema, .tbl) (foldKey g.table) = some ⟨x.1, x.2.zName⟩ :=
    (h.entry _ _ _).mpr ⟨x, hx, rfl, hon.1.symm, hon.2.symm⟩
  rw [tableOfTrigger, Db.hashFind, hT.find, hentry]
  rfl

/-! ## Looking for names -/

/-- The search through the databases. -/
theorem searchLoop_eq {α : Type} {dbs : Databases} {kind : HashKind} {zName : CString}
    {f : ℕ → Option (Ptr × α)} (hf : ∀ j, db.hashFind (j, kind) zName = some ((f j).map Prod.fst))
    (zDatabase : Option CString) :
    searchLoop dbs db kind zName zDatabase dbs.order =
      some (((Catalog.searched dbs zDatabase).findSome? f).map Prod.fst) := by
  rw [Catalog.searched]
  generalize dbs.order = js
  induction js with
  | nil => rfl
  | cons j js ih =>
      have hcond : (zDatabase.all fun z => decide (sqlite3StrICmp z (dbs.zDbSName j) = 0)) =
          zDatabase.all fun z => decide (foldKey z = foldKey (dbs.zDbSName j)) := by
        refine congrArg (zDatabase.all ·) (funext fun z => ?_)
        exact decide_eq_decide.mpr sqlite3StrICmp_eq_zero_iff
      rw [searchLoop, hcond, List.filter_cons]
      split
      · rw [hf j, List.findSome?_cons]
        cases hj : f j with
        | some x => rfl
        | none => simpa using ih
      · exact ih

/-- What the search finds is in the list. -/
theorem mem_of_findSome? {α : Type} {f : α → SchemaObject} {l : List (Ptr × α)}
    {zName : CString} {js : List ℕ} {x : Ptr × α}
    (hx : js.findSome? (objectAt f l zName) = some x) : x ∈ l := by
  obtain ⟨i, -, hi⟩ := List.exists_of_findSome?_eq_some hx
  exact (objectAt_eq_some hi).1

variable (hT : Holds m db.hashes T) (h : Objects n db T tl gl)

include hT h

theorem hashFind_tbl (i : ℕ) (zName : CString) :
    db.hashFind (i, .tbl) zName =
      some ((objectAt TableInfo.toSchemaObject tl zName i).map Prod.fst) := by
  rw [Db.hashFind, hT.find, h.tables.lookup i zName, Option.map_map]
  rfl

theorem hashFind_trig (i : ℕ) (zName : CString) :
    db.hashFind (i, .trig) zName =
      some ((objectAt TriggerInfo.toSchemaObject gl zName i).map Prod.fst) := by
  rw [Db.hashFind, hT.find, h.triggers.lookup i zName, Option.map_map]
  rfl

/-- `sqlite3FindTable` finds the table of the catalog, or none. -/
theorem sqlite3FindTable_spec (dbs : Databases) (zName : CString) (zDatabase : Option CString) :
    ∃ o : Option (Ptr × TableInfo),
      sqlite3FindTable dbs db zName zDatabase = some (o.map Prod.fst) ∧
      (catalogOf db.loaded tl gl).findTable dbs zName zDatabase = o.map Prod.snd ∧
      ∀ x, o = some x → x ∈ tl := by
  have hloop : ∀ z, searchLoop dbs db .tbl z zDatabase dbs.order =
      some (((Catalog.searched dbs zDatabase).findSome?
        (objectAt TableInfo.toSchemaObject tl z)).map Prod.fst) :=
    fun z => searchLoop_eq (fun j => hashFind_tbl hT h j z) zDatabase
  have hcatalog : ∀ z, (Catalog.searched dbs zDatabase).findSome?
      ((catalogOf db.loaded tl gl).table? · z) = ((Catalog.searched dbs zDatabase).findSome?
        (objectAt TableInfo.toSchemaObject tl z)).map Prod.snd := by
    intro z
    have htable : ((catalogOf db.loaded tl gl).table? · z) =
        fun i => (objectAt TableInfo.toSchemaObject tl z i).map Prod.snd :=
      funext fun i => List.find?_map
    rw [htable]
    exact List.map_findSome?.symm
  cases hfound : (Catalog.searched dbs zDatabase).findSome?
      (objectAt TableInfo.toSchemaObject tl zName) with
  | some x =>
      refine ⟨some x, ?_, ?_, ?_⟩
      · simp [sqlite3FindTable, hloop, hfound]
      · simp [Catalog.findTable, hcatalog, hfound]
      · rintro _ ⟨⟩
        exact mem_of_findSome? hfound
  | none =>
      by_cases hmaster : isTempMaster dbs zName zDatabase = true
      · refine ⟨(Catalog.searched dbs zDatabase).findSome?
          (objectAt TableInfo.toSchemaObject tl tempMasterName), ?_, ?_,
          fun x hx => mem_of_findSome? hx⟩
        · simp [sqlite3FindTable, hloop, hfound, hmaster]
        · simp [Catalog.findTable, hcatalog, hfound, hmaster]
      · refine ⟨none, ?_, ?_, fun x hx => by cases hx⟩
        · simp [sqlite3FindTable, hloop, hfound, hmaster]
        · simp [Catalog.findTable, hcatalog, hfound, hmaster]

/-- The search for a trigger finds the trigger of the catalog, or none. -/
theorem searchLoop_trig_spec (dbs : Databases) (zName : CString) (zDatabase : Option CString) :
    ∃ o : Option (Ptr × TriggerInfo),
      searchLoop dbs db .trig zName zDatabase dbs.order = some (o.map Prod.fst) ∧
      (catalogOf db.loaded tl gl).findTrigger dbs zName zDatabase = o.map Prod.snd ∧
      ∀ y, o = some y → y ∈ gl := by
  refine ⟨(Catalog.searched dbs zDatabase).findSome?
    (objectAt TriggerInfo.toSchemaObject gl zName),
    searchLoop_eq (fun j => hashFind_trig hT h j zName) zDatabase, ?_,
    fun y hy => mem_of_findSome? hy⟩
  have htrigger : ((catalogOf db.loaded tl gl).trigger? · zName) =
      fun i => (objectAt TriggerInfo.toSchemaObject gl zName i).map Prod.snd :=
    funext fun i => List.find?_map
  rw [Catalog.findTrigger, htrigger]
  exact List.map_findSome?.symm

end Find

end SmtCacheBenchmarks.Sqlite
