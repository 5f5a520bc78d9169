import SmtCacheBenchmarks.Sqlite.SchemaRefinement

/-!
# Which Triggers Are Found

What the triggers that are found for a table have to do with the statements of the run: a
trigger whose CREATE has succeeded is found, once, until a statement takes it away, and
whatever is found with it has been created by the run on the same table.
-/

namespace SmtCacheBenchmarks.Sqlite

open SmtCacheBenchmarks.Library Simulation

/-! ## Statements and triggers -/

/-- A statement that can take a trigger away: by its name, with its table, or with its
schema. -/
def SchemaOp.removes {n : ℕ} (g : TriggerInfo) : SchemaOp n → Bool
  | .dropTrigger _ zName _ => foldKey zName = foldKey g.zName
  | .dropTable _ zName _ _ => foldKey zName.z = foldKey g.table
  | .resetOneSchema iDb => g.pSchema = iDb || g.pSchema = 1
  | .resetAllSchemas => true
  | _ => false

/-- A statement has created a trigger. -/
def SchemaOp.hasCreated {n : ℕ} (g : TriggerInfo) (op : SchemaOp n) (r : SchemaResult) : Prop :=
  ∃ iDb x, op = .createTrigger iDb x ∧ r = .done ∧ g = x.info iDb g.pTabSchema

section Step

variable {dbs : Databases} {room : Bool} {c c' : Catalog} {g : TriggerInfo}

/-- A CREATE TRIGGER that is done puts its trigger in front. -/
theorem CatalogSpec.createTrigger {iDb : Fin dbs.names.length} {x : NewTrigger}
    (h : CatalogSpec dbs room c (.createTrigger iDb x) .done c') :
    ∃ t, c.findTable dbs x.table.z (x.tableDb dbs iDb) = some t ∧
      c' = { c with triggers := x.info iDb t.pSchema :: c.triggers } := by
  have hchange := h.eq_change rfl
  simp only [Catalog.change, Catalog.createTrigger] at hchange
  split at hchange
  · cases (Prod.mk.inj hchange).2
  · next t ht =>
      split at hchange
      · cases (Prod.mk.inj hchange).2
      · exact ⟨t, ht, (Prod.mk.inj hchange).1.symm⟩

/-- A table that may be dropped has been found under its own name. -/
theorem foldKey_of_dropTableError {zName : CString} {zDb : Option CString} {t : TableInfo}
    {isView : Bool} (hfind : c.findTable dbs zName zDb = some t)
    (hdrop : dropTableError t isView = none) : foldKey t.zName = foldKey zName := by
  rcases Option.or_eq_some_iff.mp hfind with hfound | ⟨-, hmaster⟩
  · exact Catalog.foldKey_of_findSome? hfound
  · -- `sqlite_temp_master` may not be dropped
    split_ifs at hmaster
    have hname := Catalog.foldKey_of_findSome? hmaster
    have hsystem := hasPrefix_of_foldKey hname "sqlite_".toList
    have hstat := hasPrefix_of_foldKey hname "sqlite_stat".toList
    rw [dropTableError, if_pos] at hdrop
    · cases hdrop
    · rw [hsystem, hstat]
      decide +kernel

/-- What a change does to the triggers: it adds one, or takes away some that it names. -/
theorem Catalog.change_triggers (dbs : Databases) (c : Catalog)
    (op : SchemaOp dbs.names.length) :
    (∃ iDb x t, op = .createTrigger iDb x ∧ (c.change dbs op).2 = .done ∧
        (c.change dbs op).1.triggers = x.info iDb t :: c.triggers) ∨
      ∃ keep : TriggerInfo → Bool, (c.change dbs op).1.triggers = c.triggers.filter keep ∧
        ∀ g, op.removes g = false → keep g = true := by
  have hsame : ∀ {c' : Catalog}, c'.triggers = c.triggers →
      ∃ keep : TriggerInfo → Bool, c'.triggers = c.triggers.filter keep ∧
        ∀ g, op.removes g = false → keep g = true :=
    fun h => ⟨fun _ => true, by rw [h, List.filter_true], fun _ _ => rfl⟩
  cases op with
  | createTable iDb x =>
      refine .inr (hsame ?_)
      simp only [Catalog.change, Catalog.createTable]
      split
      all_goals rfl
  | createTrigger iDb x =>
      simp only [Catalog.change, Catalog.createTrigger]
      split
      · exact .inr (hsame rfl)
      · next t ht =>
          split
          · exact .inr (hsame rfl)
          · exact .inl ⟨iDb, x, t.pSchema, rfl, rfl, rfl⟩
  | schemaLoaded iDb => exact .inr (hsame rfl)
  | dropTrigger zDb zName noErr =>
      simp only [Catalog.change, Catalog.dropTrigger]
      split
      · split
        · exact .inr (hsame rfl)
        · next y hy =>
            -- the trigger that is dropped has the name of the statement
            obtain ⟨i, -, hi⟩ := List.exists_of_findSome?_eq_some hy
            have hname := List.find?_some hi
            simp only [decide_eq_true_eq] at hname
            refine .inr ⟨_, rfl, fun g hg => ?_⟩
            have hne : ¬ foldKey zName = foldKey g.zName := of_decide_eq_false hg
            have hnot : g.same y.toSchemaObject = false := decide_eq_false fun hsame =>
              hne (hname.2.symm.trans hsame.2.symm)
            rw [hnot]
            rfl
      · exact .inr (hsame rfl)
  | dropTable zDb zName isView noErr =>
      simp only [Catalog.change, Catalog.dropTable]
      split
      · split
        · exact .inr (hsame rfl)
        · next t ht =>
            split
            · exact .inr (hsame rfl)
            · next hdrop =>
                -- and the table that is dropped has the name that the statement gives
                have hname := foldKey_of_dropTableError ht hdrop
                refine .inr ⟨_, rfl, fun g hg => ?_⟩
                have hne : ¬ foldKey zName.z = foldKey g.table := of_decide_eq_false hg
                have hnot : g.on t = false := decide_eq_false fun hon =>
                  hne (hname.symm.trans hon.2.symm)
                rw [hnot]
                rfl
      · exact .inr (hsame rfl)
  | triggersExist => exact .inr (hsame rfl)
  | resetOneSchema iDb =>
      refine .inr ⟨_, rfl, fun g hg => ?_⟩
      have hnot : (decide (g.pSchema = iDb) || decide (g.pSchema = 1)) = false := hg
      show (!(decide (g.pSchema = iDb) || decide (g.pSchema = 1))) = true
      rw [hnot]
      rfl
  | resetAllSchemas => exact .inr ⟨_, rfl, fun g hg => by cases hg⟩

/-- A step leaves the catalog, or makes its change. -/
theorem CatalogSpec.catalog {op : SchemaOp dbs.names.length} {r : SchemaResult}
    (h : CatalogSpec dbs room c op r c') : c' = c ∨ c.change dbs op = (c', r) := by
  cases h with
  | statement op hop =>
      rw [Catalog.statement]
      split_ifs
      · exact .inl rfl
      · exact .inr rfl
  | notRead => exact .inl rfl
  | noTable => exact .inl rfl
  | triggers => exact .inl rfl

/-- **One step keeps** the triggers that it cannot take away. -/
theorem CatalogSpec.keeps {op : SchemaOp dbs.names.length} {r : SchemaResult}
    (h : CatalogSpec dbs room c op r c') (hkeep : op.removes g = false) (hg : g ∈ c.triggers) :
    g ∈ c'.triggers := by
  rcases h.catalog with rfl | hchange
  · exact hg
  · rcases c.change_triggers dbs op with ⟨iDb, x, t, -, -, hcons⟩ | ⟨keep, hfilter, hkeeps⟩
    · rw [hchange] at hcons
      rw [hcons]
      exact List.mem_cons_of_mem _ hg
    · rw [hchange] at hfilter
      rw [hfilter]
      exact List.mem_filter.mpr ⟨hg, hkeeps g hkeep⟩

/-- **One step invents nothing**: a trigger that it has not created was there before. -/
theorem CatalogSpec.origin {op : SchemaOp dbs.names.length} {r : SchemaResult}
    (h : CatalogSpec dbs room c op r c') (hg : g ∈ c'.triggers) :
    g ∈ c.triggers ∨ op.hasCreated g r := by
  rcases h.catalog with rfl | hchange
  · exact .inl hg
  · rcases c.change_triggers dbs op with ⟨iDb, x, t, hop, hdone, hcons⟩ | ⟨keep, hfilter, -⟩
    · rw [hchange] at hdone hcons
      rw [hcons] at hg
      rcases List.mem_cons.mp hg with rfl | hold
      · exact .inr ⟨iDb, x, hop, hdone, rfl⟩
      · exact .inl hold
    · rw [hchange] at hfilter
      rw [hfilter] at hg
      exact .inl (List.mem_filter.mp hg).1

end Step

/-! ## The triggers of a table -/

/-- A trigger that fires is in the mask. -/
theorem triggerMask_ne_zero {op : TriggerOp} {pChanges : Option (List CString)}
    {l : List TriggerInfo} {g : TriggerInfo} (hg : g ∈ l) (hfires : g.fires op pChanges = true)
    (htime : g.trTm ≠ 0) : triggerMask op pChanges l ≠ 0 := by
  have hrest : ∀ (l : List TriggerInfo) (mask : ℕ), mask ≠ 0 → l.foldl (fun mask g =>
      if g.fires op pChanges then mask ||| g.trTm else mask) mask ≠ 0 := by
    intro l
    induction l with
    | nil => exact fun _ hmask => hmask
    | cons y l ih =>
        intro mask hmask
        rw [List.foldl_cons]
        apply ih
        split_ifs
        · exact fun hzero => hmask (Nat.or_eq_zero_iff.mp hzero).1
        · exact hmask
  obtain ⟨s, t, rfl⟩ := List.append_of_mem hg
  rw [triggerMask, List.foldl_append, List.foldl_cons, if_pos hfires]
  exact hrest t _ fun hzero => htime (Nat.or_eq_zero_iff.mp hzero).2

theorem NewTrigger.trTm_ne_zero (x : NewTrigger) (iDb p : ℕ) : (x.info iDb p).trTm ≠ 0 := by
  show (if x.time = .after then triggerAfter else triggerBefore) ≠ 0
  split_ifs
  all_goals decide

section Found

variable {dbs : Databases} {m : ℕ} {db : Db} {c : Catalog}
  (h : SchemaHolds dbs.names.length m db c)

include h

/-- Every trigger is on a table. -/
theorem SchemaHolds.attached {g : TriggerInfo} (hg : g ∈ c.triggers) :
    (g.pSchema = g.pTabSchema ∨ g.pSchema = 1) ∧ ∃ t ∈ c.tables, g.on t = true := by
  obtain ⟨T, tl, gl, -, -, -, hatt, rfl⟩ := h
  obtain ⟨y, hy, rfl⟩ := List.mem_map.mp hg
  obtain ⟨hschema, x, hx, hon, -⟩ := hatt y hy
  exact ⟨hschema, x.2, List.mem_map_of_mem hx, hon⟩

/-- No two triggers of a schema have one name. -/
theorem SchemaHolds.distinct :
    c.triggers.Pairwise fun g g' => g.same g'.toSchemaObject = false := by
  obtain ⟨T, tl, gl, -, hobj, -, -, rfl⟩ := h
  refine List.pairwise_map.mpr (hobj.triggers.nodup.of_map.imp_of_mem ?_)
  intro y z hy hz hne
  exact decide_eq_false fun hsame => hne (hobj.triggers.unique hy hz hsame.1 hsame.2)

/-- The table of a trigger is found in its database. -/
theorem SchemaHolds.findTable_of_mem {g : TriggerInfo} (hg : g ∈ c.triggers) {zName : CString}
    (hname : foldKey zName = foldKey g.table) :
    g.pTabSchema < dbs.names.length ∧ ∃ t,
      c.findTable dbs zName (some (dbs.zDbSName g.pTabSchema)) = some t ∧ g.on t = true ∧
        t.pSchema = g.pTabSchema := by
  obtain ⟨-, t, ht, hon⟩ := h.attached hg
  obtain ⟨hschema, htable⟩ := on_iff.mp hon
  have hlt : g.pTabSchema < dbs.names.length := by
    rw [hschema]
    exact h.pSchema_lt.1 t ht
  have hsome : (c.table? g.pTabSchema zName).isSome = true :=
    List.find?_isSome.mpr ⟨t, ht, decide_eq_true ⟨hschema.symm, htable.symm.trans hname.symm⟩⟩
  refine ⟨hlt, ?_⟩
  -- no other database is searched
  cases hfound : (Catalog.searched dbs (some (dbs.zDbSName g.pTabSchema))).findSome?
      (c.table? · zName) with
  | none =>
      rw [List.findSome?_eq_none_iff.mp hfound _
        ((Catalog.mem_searched_zDbSName hlt).mpr rfl)] at hsome
      cases hsome
  | some u =>
      obtain ⟨i, hi, hu⟩ := List.exists_of_findSome?_eq_some hfound
      obtain rfl := (Catalog.mem_searched_zDbSName hlt).mp hi
      have hcond := List.find?_some hu
      simp only [decide_eq_true_eq] at hcond
      refine ⟨u, by rw [Catalog.findTable, hfound, Option.some_or], ?_, hcond.1⟩
      exact on_iff.mpr ⟨hcond.1.symm, hname.symm.trans hcond.2.symm⟩

/-- The TEMP triggers and the own triggers of a table are different. -/
theorem SchemaHolds.pairwise_temp_append_own {t : TableInfo} {l : List TriggerInfo}
    (hperm : l.Perm (c.tempTriggers t)) :
    (l ++ c.ownTriggers t).Pairwise fun g g' => g.same g'.toSchemaObject = false := by
  have hsymm : ∀ {g g' : TriggerInfo}, g.same g'.toSchemaObject = false →
      g'.same g.toSchemaObject = false := by
    intro g g' hne
    refine decide_eq_false fun hsame => of_decide_eq_false hne ⟨hsame.1.symm, hsame.2.symm⟩
  have hdistinct := h.distinct
  refine List.pairwise_append.mpr ⟨?_, hdistinct.sublist List.filter_sublist, ?_⟩
  · rw [hperm.pairwise_iff hsymm, Catalog.tempTriggers]
    split_ifs
    · exact .nil
    · exact hdistinct.sublist List.filter_sublist
  · intro g hg g' hg'
    have htemp := hperm.subset hg
    rw [Catalog.tempTriggers] at htemp
    split_ifs at htemp with hone
    · cases htemp
    · have hschema := (List.mem_filter.mp htemp).2
      have hown := (List.mem_filter.mp hg').2
      simp only [Bool.and_eq_true, decide_eq_true_eq] at hschema hown
      refine decide_eq_false fun hsame => hone ?_
      rw [← hown.1, ← hsame.1, hschema.1]

end Found

/-- The triggers that can fire for a table are on it. -/
theorem Catalog.on_of_mem {c : Catalog} {t : TableInfo} {g : TriggerInfo}
    (h : g ∈ c.tempTriggers t ∨ g ∈ c.ownTriggers t) : g ∈ c.triggers ∧ g.on t = true := by
  rcases h with htemp | hown
  · rw [Catalog.tempTriggers] at htemp
    split_ifs at htemp
    · cases htemp
    · obtain ⟨hg, hcond⟩ := List.mem_filter.mp htemp
      simp only [Bool.and_eq_true] at hcond
      exact ⟨hg, hcond.2⟩
  · obtain ⟨hg, hcond⟩ := List.mem_filter.mp hown
    simp only [Bool.and_eq_true] at hcond
    exact ⟨hg, hcond.2⟩

/-- And all that are on it can fire. -/
theorem Catalog.mem_temp_or_own {c : Catalog} {t : TableInfo} {g : TriggerInfo}
    (hschema : g.pSchema = g.pTabSchema ∨ g.pSchema = 1) (hg : g ∈ c.triggers)
    (hon : g.on t = true) : g ∈ c.tempTriggers t ∨ g ∈ c.ownTriggers t := by
  by_cases hown : g.pSchema = t.pSchema
  · exact .inr (List.mem_filter.mpr ⟨hg, by simp [hown, hon]⟩)
  · have hone : g.pSchema = 1 :=
      hschema.resolve_left fun heq => hown (heq.trans (on_iff.mp hon).1)
    refine .inl ?_
    rw [Catalog.tempTriggers, if_neg fun htemp => hown (hone.trans htemp.symm)]
    exact List.mem_filter.mpr ⟨hg, by simp [hone, hon]⟩

/-! ## Whole runs -/

/-- **No trigger is lost, invented or doubled**: when a CREATE TRIGGER of a run has
succeeded and no later statement takes its trigger away, every statement on its table that
it fires for finds it.  The triggers that are found with it are different ones, they are
on the same table, and the run has created all of them. -/
theorem trigger_found {mem : Memory} (hmem : mem.Sound) (dbs : Databases)
    (before after : List (SchemaOp dbs.names.length)) (iDb : Fin dbs.names.length)
    (x : NewTrigger) (hops : before.length + after.length + 1 < 2 ^ 31)
    (hkeeps : ∀ op ∈ after, op.removes (x.info iDb 0) = false) :
    ∃ db results₁ o results₂,
      Simulation.run (schemaStep mem dbs) 0 Db.init (before ++ .createTrigger iDb x :: after) =
        some (db, results₁ ++ o :: results₂) ∧ results₁.length = before.length ∧
      (o.output = .done → db.schemasLoaded dbs = true →
        ∃ p < dbs.names.length, ((iDb : ℕ) ≠ 1 → p = iDb) ∧
          ∀ zName : TableName, foldKey zName.z = foldKey x.table.z →
          ∀ op pChanges, (x.info iDb p).fires op pChanges = true →
          ∃ db' l, sqlite3TriggersExist dbs db (some (dbs.zDbSName p)) zName op pChanges =
              some (db', .triggers (triggerMask op pChanges l) l) ∧
            x.info iDb p ∈ l ∧ (l.Pairwise fun g g' => g.same g'.toSchemaObject = false) ∧
            ∀ g ∈ l, g.pTabSchema = p ∧ foldKey g.table = foldKey x.table.z ∧
              ∃ s ∈ (before ++ .createTrigger iDb x :: after).zip (results₁ ++ o :: results₂),
                s.1.hasCreated g s.2.output) := by
  obtain ⟨ops, hopsEq⟩ : ∃ ops, ops = before ++ SchemaOp.createTrigger iDb x :: after := ⟨_, rfl⟩
  have hlength : 0 + ops.length ≤ 2 ^ 31 - 1 := by
    rw [hopsEq, List.length_append, List.length_cons]
    omega
  obtain ⟨db, results, c, hrun, hspec, hholds⟩ := (schemaStep_simulates hmem dbs).run ops
    hlength (schemaHolds_init dbs.names.length)
  rw [← hopsEq]
  -- what is in the catalog in the end comes from the run
  have horigin : ∀ g ∈ c.triggers, ∃ s ∈ ops.zip results, s.1.hasCreated g s.2.output := by
    intro g hg
    have hfrom := hspec.origin (P := fun c => g ∈ c.triggers)
      (Q := fun op o => op.hasCreated g o.output) (fun _ _ _ _ hstep => hstep.origin) hg
    exact hfrom.resolve_left List.not_mem_nil
  rw [hopsEq] at hspec
  obtain ⟨c₁, results₁, rest, rfl, hbefore, hrest⟩ := hspec.of_append
  cases hrest with
  | @cons _ c₂ _ _ o _ results₂ hstep hafter =>
  refine ⟨db, results₁, o, results₂, hrun, hbefore.length_eq, fun hdone hloaded => ?_⟩
  rw [Spec.observed, hdone] at hstep
  obtain ⟨t, hfind, rfl⟩ := hstep.createTrigger
  -- from its CREATE on the trigger stays
  have hg : x.info iDb t.pSchema ∈ c.triggers := by
    refine hafter.keeps (P := fun c => x.info iDb t.pSchema ∈ c.triggers)
      (fun op hop c o c' hstep hg => CatalogSpec.keeps hstep ?_ hg) List.mem_cons_self
    cases op
    all_goals exact hkeeps _ hop
  refine ⟨t.pSchema, (hholds.findTable_of_mem hg rfl).1, fun htemp => ?_, ?_⟩
  · have hsearched := Catalog.mem_searched_of_findTable hfind
    rw [NewTrigger.tableDb, if_neg htemp] at hsearched
    exact (Catalog.mem_searched_zDbSName iDb.isLt).mp hsearched
  intro zName hname op pChanges hfires
  obtain ⟨-, u, hu, hon, hschema⟩ := hholds.findTable_of_mem hg hname
  obtain ⟨db', r, c', hexist, hquestion, -⟩ := sqlite3TriggersExist_spec hholds true
    (some (dbs.zDbSName t.pSchema)) zName op pChanges
  have hread : c.isLoaded dbs = true := hholds.isLoaded.trans hloaded
  cases hquestion with
  | statement op hop => cases hop
  | notRead _ _ _ _ hnot => cases hnot.symm.trans hread
  | noTable _ _ _ _ _ hnone => cases hnone.symm.trans hu
  | triggers _ _ _ _ v temps _ hv hperm =>
      obtain rfl := Option.some.inj (hu.symm.trans hv)
      have hfound : x.info iDb t.pSchema ∈ temps ++ c.ownTriggers u := by
        rw [List.mem_append, hperm.mem_iff]
        exact Catalog.mem_temp_or_own (hholds.attached hg).1 hg hon
      -- it fires, so the list is what the question gives
      have hmask := triggerMask_ne_zero hfound hfires (x.trTm_ne_zero iDb t.pSchema)
      rw [if_pos hmask] at hexist
      refine ⟨db', _, hexist, hfound, hholds.pairwise_temp_append_own hperm, fun g hgl => ?_⟩
      rw [List.mem_append, hperm.mem_iff] at hgl
      obtain ⟨hgc, hgon⟩ := Catalog.on_of_mem hgl
      obtain ⟨hgschema, hgtable⟩ := on_iff.mp hgon
      exact ⟨hgschema.trans hschema, hgtable.trans (on_iff.mp hon).2.symm, horigin g hgc⟩

/-- A trigger of main is found behind the one in TEMP that has been created after it. -/
theorem trigger_found_twoTriggers :
    let before := readSchemas ++ [.createTable (0 : Fin 2) ⟨"t".toList, tableT.z, .table⟩]
    let after : List (SchemaOp mainAndTemp.names.length) := [.createTrigger (1 : Fin 2) triggerB]
    let found := [triggerB.info 1 0, triggerA.info 0 0]
    ∃ db results₁ o results₂, Simulation.run (schemaStep memoryNth mainAndTemp) 0 Db.init
        (before ++ .createTrigger (0 : Fin 2) triggerA :: after) =
          some (db, results₁ ++ o :: results₂) ∧ results₁.length = before.length ∧
      o.output = .done ∧
      (∃ db', sqlite3TriggersExist mainAndTemp db (some (mainAndTemp.zDbSName 0)) tableT .insert
        none = some (db', .triggers 3 found)) ∧
      triggerA.info 0 0 ∈ found ∧
      (found.Pairwise fun g g' => g.same g'.toSchemaObject = false) ∧
      ∀ g ∈ found, g.pTabSchema = 0 ∧ foldKey g.table = foldKey triggerA.table.z ∧
        ∃ s ∈ (before ++ .createTrigger (0 : Fin 2) triggerA :: after).zip
          (results₁ ++ o :: results₂), s.1.hasCreated g s.2.output := by
  intro before after found
  obtain ⟨db, results₁, o, results₂, hrun, hlength, hfound⟩ := trigger_found memoryNth_sound
    mainAndTemp before after (0 : Fin 2) triggerA (by decide) (by decide)
  have hanswers : (Simulation.run (schemaStep memoryNth mainAndTemp) 0 Db.init
      (before ++ .createTrigger (0 : Fin 2) triggerA :: after)).map (fun (db, results) =>
        (results[before.length]?.map Observed.output, db.schemasLoaded mainAndTemp,
          (sqlite3TriggersExist mainAndTemp db (some (mainAndTemp.zDbSName 0)) tableT .insert
            none).map Prod.snd)) =
      some (some .done, true, some (.triggers 3 found)) := by decide +kernel
  rw [hrun] at hanswers
  simp only [Option.map_some, Option.some.injEq, Prod.mk.injEq] at hanswers
  obtain ⟨hdone, hloaded, hlist⟩ := hanswers
  rw [← hlength, List.getElem?_append_right le_rfl, Nat.sub_self, List.getElem?_cons_zero,
    Option.map_some, Option.some.injEq] at hdone
  obtain ⟨p, -, hp, hanswer⟩ := hfound hdone hloaded
  obtain rfl : p = 0 := hp Nat.zero_ne_one
  obtain ⟨db', l, hexist, hmem, hpairwise, hcreated⟩ := hanswer tableT (by decide) .insert none rfl
  rw [hexist, Option.map_some, Option.some.injEq] at hlist
  obtain ⟨hmask, rfl⟩ := SchemaResult.triggers.inj hlist
  rw [hmask] at hexist
  exact ⟨db, results₁, o, results₂, hrun, hlength, hdone, ⟨db', hexist⟩, hmem, hpairwise, hcreated⟩

end SmtCacheBenchmarks.Sqlite
