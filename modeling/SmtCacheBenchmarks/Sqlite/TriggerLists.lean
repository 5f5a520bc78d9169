import Mathlib.Data.List.Perm.Subperm
import SmtCacheBenchmarks.Sqlite.TriggerOperations

/-!
# All Triggers of a Table

What `sqlite3TriggerList` builds: the TEMP triggers on the table in some order, and behind
them the list in the schema of the table, which stays as it is.  Both the question which
triggers fire and `DROP TABLE` walk along it.
-/

namespace SmtCacheBenchmarks.Sqlite

open SmtCacheBenchmarks.Library Simulation SinglyLinked

/-! ## Lists of objects -/

/-- A rearrangement of the values is a rearrangement of what they come from. -/
theorem exists_map_of_perm {α β : Type} {f : α → β} {bs : List β} {l : List α}
    (h : bs.Perm (l.map f)) : ∃ l' : List α, bs = l'.map f ∧ l'.Perm l := by
  induction bs generalizing l with
  | nil =>
      obtain rfl := List.map_eq_nil_iff.mp h.nil_eq.symm
      exact ⟨[], rfl, .nil⟩
  | cons b bs ih =>
      obtain ⟨a, ha, rfl⟩ := List.mem_map.mp (h.subset List.mem_cons_self)
      obtain ⟨s, t, rfl⟩ := List.append_of_mem ha
      have hmiddle : (s ++ a :: t).Perm (a :: (s ++ t)) := List.perm_middle
      obtain ⟨l', rfl, hl'⟩ := ih (h.trans (hmiddle.map f)).cons_inv
      exact ⟨a :: l', rfl, (hl'.cons a).trans hmiddle.symm⟩

/-- A loop that reads something at each address. -/
theorem mapM_map {α β γ : Type} {f : α → β} {read : β → Option γ} {g : α → γ} {l : List α}
    (h : ∀ x ∈ l, read (f x) = some (g x)) : (l.map f).mapM read = some (l.map g) := by
  induction l with
  | nil => rfl
  | cons x l ih =>
      have hx := h x List.mem_cons_self
      have hl := ih fun y hy => h y (List.mem_cons_of_mem _ hy)
      simp [hx, hl]

/-- A loop over one of the hash tables visits the objects of one schema. -/
theorem Directory.each {α : Type} {f : α → SchemaObject} {n : ℕ} {M : ℕ → Table Ptr}
    {info : Ptr → Option α} {l : List (Ptr × α)} (h : Directory f n M info l) {i : ℕ}
    {entries : List (Entry Ptr)} (hnodup : (entries.map fun e => foldKey e.pKey).Nodup)
    (hentries : ∀ e, M i (foldKey e.pKey) = some e ↔ e ∈ entries) :
    ∃ ys : List (Ptr × α), entries.map Entry.data = ys.map Prod.fst ∧
      ys.Perm (l.filter fun x => (f x.2).pSchema = i) := by
  have hperm : entries.Perm ((l.filter fun x => (f x.2).pSchema = i).map
      fun x => ⟨x.1, (f x.2).zName⟩) := by
    refine (List.perm_ext_iff_of_nodup (List.Nodup.of_map _ hnodup) ?_).mpr fun e => ?_
    · refine List.Nodup.of_map Entry.data ?_
      rw [List.map_map]
      exact (List.filter_sublist.map Prod.fst).nodup h.nodup
    · rw [← hentries, h.entry]
      simp only [List.mem_map, List.mem_filter, decide_eq_true_eq]
      constructor
      · rintro ⟨x, hx, he, hschema, -⟩
        exact ⟨x, ⟨hx, hschema⟩, he.symm⟩
      · rintro ⟨x, ⟨hx, hschema⟩, rfl⟩
        exact ⟨x, hx, rfl, hschema, rfl⟩
  obtain ⟨ys, rfl, hys⟩ := exists_map_of_perm hperm
  exact ⟨ys, by rw [List.map_map]; rfl, hys⟩

/-! ## The loop over the TEMP triggers -/

/-- The loop puts the triggers that are on the table before the list, the last one first,
and changes nothing but their links. -/
theorem triggerListLoop_spec {t : SchemaTable} {ys : List (Ptr × TriggerInfo)}
    (hnodup : (ys.map Prod.fst).Nodup) {db : Db} (hys : ∀ y ∈ ys, db.trigInfo y.1 = some y.2)
    {pList : Option Ptr} {l : List Ptr} (hchain : Chain db.next (pList.or t.pTrigger) l)
    (hl : ∀ y ∈ ys, y.1 ∉ l) :
    ∃ db' pList', triggerListLoop t db pList (ys.map Prod.fst) = some (db', pList') ∧
      db'.tables = db.tables ∧ db'.hashes = db.hashes ∧ db'.calls = db.calls ∧
      db'.loaded = db.loaded ∧ db'.trigInfo = db.trigInfo ∧
      (∀ p, (∀ y ∈ ys, y.2.on t.toTableInfo = true → y.1 ≠ p) → db'.next p = db.next p) ∧
      Chain db'.next (pList'.or t.pTrigger)
        (((ys.filter fun y => y.2.on t.toTableInfo).map Prod.fst).reverse ++ l) := by
  induction ys generalizing db pList l with
  | nil => exact ⟨db, pList, rfl, rfl, rfl, rfl, rfl, rfl, fun _ _ => rfl, hchain⟩
  | cons y ys ih =>
      rw [List.map_cons, List.nodup_cons] at hnodup
      have hy := hys y List.mem_cons_self
      obtain ⟨next, htrig, -⟩ := Db.triggers_eq hy
      have hcond : (y.2.pTabSchema = t.pSchema ∧ sqlite3StrICmp y.2.table t.zName = 0) ↔
          y.2.on t.toTableInfo = true := by
        rw [on_iff, sqlite3StrICmp_eq_zero_iff]
      by_cases hon : y.2.on t.toTableInfo = true
      · -- the trigger is put before what has been collected so far
        have hne : ∀ z ∈ ys, z.1 ≠ y.1 := fun z hz heq =>
          hnodup.1 (heq ▸ List.mem_map_of_mem hz)
        have hinfo : (db.setTrigger y.1 ⟨y.2, pList.or t.pTrigger⟩).trigInfo = db.trigInfo := by
          rw [Db.trigInfo_setTrigger, Function.update_eq_self_iff.mpr hy.symm]
        have hchain' : Chain (db.setTrigger y.1 ⟨y.2, pList.or t.pTrigger⟩).next
            ((some y.1).or t.pTrigger) (y.1 :: l) := by
          rw [Db.next_setTrigger]
          refine ⟨rfl, pList.or t.pTrigger, Function.update_self .., hchain.frame fun p hp => ?_⟩
          refine Function.update_of_ne (fun heq => ?_) ..
          exact hl y List.mem_cons_self (heq ▸ hp)
        obtain ⟨db', pList', hloop, htables, hhashes, hcalls, hloaded, hinfo', hframe, hchain''⟩ :=
          ih hnodup.2 (fun z hz => by rw [hinfo]; exact hys z (List.mem_cons_of_mem _ hz)) hchain'
            fun z hz hmem => (List.mem_cons.mp hmem).elim (hne z hz)
              (hl z (List.mem_cons_of_mem _ hz))
        refine ⟨db', pList', ?_, htables, hhashes, hcalls, hloaded, hinfo'.trans hinfo, ?_, ?_⟩
        · simp only [List.map_cons, triggerListLoop, htrig, Option.bind_eq_bind, Option.bind_some,
            if_pos (hcond.mpr hon)]
          exact hloop
        · intro p hp
          rw [hframe p fun z hz => hp z (List.mem_cons_of_mem _ hz), Db.next_setTrigger]
          exact Function.update_of_ne (hp y List.mem_cons_self hon).symm ..
        · simpa [List.filter_cons, hon] using hchain''
      · obtain ⟨db', pList', hloop, htables, hhashes, hcalls, hloaded, hinfo', hframe, hchain'⟩ :=
          ih hnodup.2 (fun z hz => hys z (List.mem_cons_of_mem _ hz)) hchain
            fun z hz => hl z (List.mem_cons_of_mem _ hz)
        refine ⟨db', pList', ?_, htables, hhashes, hcalls, hloaded, hinfo', ?_, ?_⟩
        · simp only [List.map_cons, triggerListLoop, htrig, Option.bind_eq_bind, Option.bind_some,
            if_neg fun hc => hon (hcond.mp hc)]
          exact hloop
        · exact fun p hp => hframe p fun z hz => hp z (List.mem_cons_of_mem _ hz)
        · simpa [List.filter_cons, hon] using hchain'

/-! ## The list -/

/-- The TEMP triggers on a table that is not in TEMP. -/
def temp (gl : List (Ptr × TriggerInfo)) (t : TableInfo) : List (Ptr × TriggerInfo) :=
  if t.pSchema = 1 then [] else gl.filter fun y => y.2.pSchema = 1 && y.2.on t

theorem mem_temp_iff {gl : List (Ptr × TriggerInfo)} {t : TableInfo} {y : Ptr × TriggerInfo} :
    y ∈ temp gl t ↔ t.pSchema ≠ 1 ∧ y ∈ gl ∧ y.2.pSchema = 1 ∧ y.2.on t = true := by
  unfold temp
  split_ifs with htemp
  · simp [htemp]
  · simp [htemp]

section List

variable {n m : ℕ} {db : Db} {T : HashId → Table Ptr} {tl : List (Ptr × TableInfo)}
  {gl : List (Ptr × TriggerInfo)} (hT : Holds m db.hashes T) (hobj : Objects n db T tl gl)
  (hlists : Lists db tl gl)

include hobj in
/-- No trigger is twice on the list. -/
theorem nodup_temp_append_own {temps : List (Ptr × TriggerInfo)} {t : TableInfo}
    (hperm : temps.Perm (temp gl t)) : ((temps ++ own gl t).map Prod.fst).Nodup := by
  have hgl := hobj.triggers.nodup
  rw [((hperm.append_right _).map Prod.fst).nodup_iff, List.map_append, List.nodup_append]
  refine ⟨?_, (List.filter_sublist.map Prod.fst).nodup hgl, ?_⟩
  · unfold temp
    split_ifs
    · exact List.nodup_nil
    · exact (List.filter_sublist.map Prod.fst).nodup hgl
  · -- the TEMP triggers on the list are from another schema
    rintro p hp q hq rfl
    obtain ⟨y, hy, rfl⟩ := List.mem_map.mp hp
    obtain ⟨z, hz, hzy⟩ := List.mem_map.mp hq
    obtain ⟨hne, hygl, hone, -⟩ := mem_temp_iff.mp hy
    obtain ⟨hzgl, hzsch, -⟩ := mem_own_iff.mp hz
    obtain rfl := hobj.triggers.eq_of_ptr hzgl hygl hzy
    exact hne (hzsch.symm.trans hone)

include hobj in
/-- So it is no longer than there are triggers. -/
theorem length_temp_append_own {temps : List (Ptr × TriggerInfo)} {t : TableInfo}
    (hperm : temps.Perm (temp gl t)) : (temps ++ own gl t).length ≤ gl.length := by
  refine ((nodup_temp_append_own hobj hperm).of_map.subperm ?_).length_le
  intro y hy
  rcases List.mem_append.mp hy with hy | hy
  · exact (mem_temp_iff.mp (hperm.subset hy)).2.1
  · exact (mem_own_iff.mp hy).1

include hT hobj hlists

/-- Along the list of `sqlite3TriggerList` are the TEMP triggers, and then those on the list
of the table. -/
theorem sqlite3TriggerList_spec {x : Ptr × TableInfo} (hx : x ∈ tl) {first : Option Ptr}
    (hfirst : db.head x.1 = some first) :
    ∃ db' first' temps, sqlite3TriggerList db ⟨x.2, first⟩ = some (db', first') ∧
      temps.Perm (temp gl x.2) ∧
      walk db'.next db'.calls first' = some ((temps ++ own gl x.2).map Prod.fst) ∧
      db'.hashes = db.hashes ∧ db'.calls = db.calls ∧ db'.loaded = db.loaded ∧
      Objects n db' T tl gl ∧ Lists db' tl gl := by
  obtain ⟨first', hfirst', hchain⟩ := hlists x hx
  obtain rfl := Option.some.inj (hfirst.symm.trans hfirst')
  by_cases htemp : x.2.pSchema = 1
  · have hperm : ([] : List (Ptr × TriggerInfo)).Perm (temp gl x.2) := by simp [temp, htemp]
    refine ⟨db, first, [], ?_, hperm, walk_spec hchain ?_, rfl, rfl, rfl, hobj, hlists⟩
    · simp [sqlite3TriggerList, htemp]
    · rw [ownPtrs, List.length_map]
      exact (length_temp_append_own hobj hperm).trans hobj.length
  · obtain ⟨entries, heach, hnodup, hentries⟩ := hT.each (1, .trig)
    obtain ⟨ys, hdata, hperm⟩ := hobj.triggers.each hnodup hentries
    have hmem : ∀ y ∈ ys, y ∈ gl ∧ y.2.pSchema = 1 := by
      intro y hy
      simpa using hperm.subset hy
    have hys : (ys.map Prod.fst).Nodup :=
      (hperm.map Prod.fst).nodup_iff.mpr
        ((List.filter_sublist.map Prod.fst).nodup hobj.triggers.nodup)
    -- a TEMP trigger is not on the list of the table
    have hdisjoint : ∀ y ∈ ys, y.1 ∉ ownPtrs gl x.2 := by
      intro y hy hin
      obtain ⟨u, hu, huy⟩ := List.mem_map.mp hin
      obtain ⟨hugl, husch, -⟩ := mem_own_iff.mp hu
      obtain rfl := hobj.triggers.eq_of_ptr hugl (hmem y hy).1 huy
      exact htemp (husch.symm.trans (hmem u hy).2)
    have hbegin : Chain db.next ((none : Option Ptr).or (SchemaTable.mk x.2 first).pTrigger)
        (ownPtrs gl x.2) := hchain
    obtain ⟨db', pList', hloop, htables, hhashes, hcalls, hloaded, hinfo, hframe, hchain'⟩ :=
      triggerListLoop_spec hys (fun y hy => hobj.triggers.object y (hmem y hy).1) hbegin hdisjoint
    have htemps : (ys.filter fun y => y.2.on x.2).reverse.Perm (temp gl x.2) := by
      refine (List.reverse_perm _).trans ((hperm.filter _).trans ?_)
      rw [List.filter_filter, temp, if_neg htemp]
      exact .of_eq (List.filter_congr fun y _ => Bool.and_comm ..)
    refine ⟨db', pList'.or first, (ys.filter fun y => y.2.on x.2).reverse, ?_, htemps, ?_,
      hhashes, hcalls, hloaded, hobj.frame ?_ hinfo hcalls.ge, ?_⟩
    · have heach' : db.hashEach (1, .trig) = some (ys.map Prod.fst) := by
        rw [Db.hashEach, heach, hdata]
      simp [sqlite3TriggerList, htemp, heach', hloop]
    · refine walk_spec ?_ ?_
      · rw [List.map_append, List.map_reverse]
        exact hchain'
      · rw [List.length_map, hcalls]
        exact (length_temp_append_own hobj htemps).trans hobj.length
    · funext p
      rw [Db.tableInfo, htables, Db.tableInfo]
    · refine hlists.frame (fun z hz => hz) (fun z hz => rfl)
        (fun z hz => by rw [Db.head, htables, Db.head]) fun z hz u hu => ?_
      -- the triggers that got other links are on no list
      apply hframe
      intro y hy hon heq
      obtain ⟨hugl, husch, huon⟩ := mem_own_iff.mp hu
      obtain rfl := hobj.triggers.eq_of_ptr (hmem y hy).1 hugl heq
      obtain rfl := hobj.on_unique hz hx huon hon
      exact htemp (husch.symm.trans (hmem y hy).2)

end List

/-! ## The triggers that fire -/

theorem ownTriggers_catalogOf (loaded : ℕ → Bool) (tl : List (Ptr × TableInfo)) (gl : List (Ptr × TriggerInfo))
    (t : TableInfo) : (catalogOf loaded tl gl).ownTriggers t = (own gl t).map Prod.snd :=
  List.filter_map ..

theorem tempTriggers_catalogOf (loaded : ℕ → Bool) (tl : List (Ptr × TableInfo)) (gl : List (Ptr × TriggerInfo))
    (t : TableInfo) : (catalogOf loaded tl gl).tempTriggers t = (temp gl t).map Prod.snd := by
  unfold Catalog.tempTriggers temp
  split_ifs
  · rfl
  · exact List.filter_map ..

theorem mem_of_mem_temp_append_own {gl temps : List (Ptr × TriggerInfo)} {t : TableInfo}
    (hperm : temps.Perm (temp gl t)) {y : Ptr × TriggerInfo} (hy : y ∈ temps ++ own gl t) :
    y ∈ gl ∧ y.2.on t = true ∧ (y.2.pSchema = t.pSchema ∨ y.2.pSchema = 1) := by
  rcases List.mem_append.mp hy with hy | hy
  · obtain ⟨-, hgl, hschema, hon⟩ := mem_temp_iff.mp (hperm.subset hy)
    exact ⟨hgl, hon, .inr hschema⟩
  · obtain ⟨hgl, hschema, hon⟩ := mem_own_iff.mp hy
    exact ⟨hgl, hon, .inl hschema⟩

theorem sqlite3TriggersExist_spec {dbs : Databases} {m : ℕ} {db : Db} {c : Catalog}
    (h : SchemaHolds dbs.names.length m db c) (room : Bool) (zDb : Option CString)
    (zName : TableName) (op : TriggerOp) (pChanges : Option (List CString)) :
    ∃ db' r c', sqlite3TriggersExist dbs db zDb zName op pChanges = some (db', r) ∧
      CatalogSpec dbs room c (.triggersExist zDb zName op pChanges) r c' ∧
      SchemaHolds dbs.names.length (m + 1) db' c' := by
  have hmono := h.mono (Nat.le_succ m)
  have hloaded : c.isLoaded dbs = db.schemasLoaded dbs := h.isLoaded
  cases hread : db.schemasLoaded dbs with
  | false =>
      refine ⟨db, _, c, ?_, .notRead c zDb zName op pChanges (hloaded.trans hread), hmono⟩
      simp [sqlite3TriggersExist, hread]
  | true =>
      rw [hread] at hloaded
      obtain ⟨T, tl, gl, hT, hobj, hlists, hatt, rfl⟩ := h
      obtain ⟨o, hfind, hcat, htl⟩ := sqlite3FindTable_spec hT hobj dbs zName.z zDb
      cases o with
      | none =>
          refine ⟨db, _, _, ?_, .noTable _ zDb zName op pChanges hloaded hcat, hmono⟩
          simp [sqlite3TriggersExist, hread, hfind]
      | some x =>
          have hx : x ∈ tl := htl x rfl
          obtain ⟨first, htab, hfirst⟩ := Db.tables_eq (hobj.tables.object x hx)
          obtain ⟨db', first', temps, hlist, hperm, hwalk, hhashes, hcalls, hloaded', hobj',
            hlists'⟩ := sqlite3TriggerList_spec hT hobj hlists hx hfirst
          have hfrom : triggersFrom db' first' = some ((temps ++ own gl x.2).map Prod.snd) := by
            rw [triggersFrom, hwalk]
            exact mapM_map fun y hy =>
              hobj'.triggers.object y (mem_of_mem_temp_append_own hperm hy).1
          -- no trigger is on a virtual table
          have hassert : first' = none ∨ x.2.kind ≠ .virtual := by
            cases hl : temps ++ own gl x.2 with
            | nil =>
                rw [hl] at hwalk
                exact .inl (eq_none_of_walk hwalk)
            | cons y l =>
                have hy : y ∈ temps ++ own gl x.2 := hl ▸ List.mem_cons_self
                obtain ⟨hgl, hon, -⟩ := mem_of_mem_temp_append_own hperm hy
                obtain ⟨-, z, hz, honz, hkind⟩ := hatt y hgl
                obtain rfl := hobj.on_unique hz hx honz hon
                exact .inr hkind
          have htemps : (temps.map Prod.snd).Perm
              ((catalogOf db.loaded tl gl).tempTriggers x.2) := by
            rw [tempTriggers_catalogOf]
            exact hperm.map Prod.snd
          have hspec : CatalogSpec dbs room (catalogOf db.loaded tl gl)
              (.triggersExist zDb zName op pChanges) _ _ :=
            .triggers _ zDb zName op pChanges x.2 (temps.map Prod.snd) hloaded hcat htemps
          rw [ownTriggers_catalogOf, ← List.map_append] at hspec
          refine ⟨db', _, _, ?_, hspec, T, tl, gl, ?_, hobj', hlists', hatt, by rw [hloaded']⟩
          · simp only [sqlite3TriggersExist, hread, if_true, hfind, Option.map_some,
              Option.bind_eq_bind, Option.bind_some, htab, hlist, if_pos hassert, hfrom]
            rfl
          · rw [hhashes]
            exact hT.mono (Nat.le_succ m)

end SmtCacheBenchmarks.Sqlite
