import SmtCacheBenchmarks.Library.Simulation
import SmtCacheBenchmarks.Sqlite.HashOperations

/-!
# SQLite's Hash Tables Are Maps

A connection has many hash tables whose elements and bucket arrays are on one heap: the
tables, indexes, triggers and foreign keys of each schema, the functions, the collations.
Any sequence of calls on such a family of tables behaves as it would on a family of maps,
whatever the order of the calls.  An entry is missing only when its element could not be
allocated, so each call comes with the answer of that allocation.

- `Table`: what a table is for, a map from keys without regard to case
- `Allowed`: what a call may return, and what it does to the maps
- `hashTables_refine`: no run fails, and all that it returns is allowed
- `hashTables_noLeak`: when the maps are empty, no element and no bucket array is allocated
-/

namespace SmtCacheBenchmarks.Sqlite

open SmtCacheBenchmarks.Library DoublyLinked Simulation

/-! ## Tables as maps -/

/-- A table: the entry of each key, where keys that differ in case are the same.  An entry
has the key as it was given last. -/
abbrev Table (δ : Type) := List ℕ → Option (Entry δ)

variable {δ : Type}

/-- The map that a list of entries stands for. -/
def tableOf (l : List (Ptr × Entry δ)) : Table δ :=
  fun k => (l.find? fun x => foldKey x.2.pKey = k).map Prod.snd

theorem lookup_map (l : List (Ptr × Entry δ)) (pKey : CString) :
    (lookup l pKey).map Prod.snd = tableOf l (foldKey pKey) := rfl

@[simp] theorem tableOf_nil : tableOf ([] : List (Ptr × Entry δ)) = fun _ => none := rfl

theorem tableOf_cons (x : Ptr × Entry δ) (l : List (Ptr × Entry δ)) (k : List ℕ) :
    tableOf (x :: l) k = if foldKey x.2.pKey = k then some x.2 else tableOf l k := by
  by_cases hk : foldKey x.2.pKey = k
  · simp [tableOf, hk]
  · simp [tableOf, hk]

theorem tableOf_append (s t : List (Ptr × Entry δ)) (k : List ℕ) :
    tableOf (s ++ t) k = (tableOf s k).or (tableOf t k) := by
  rw [tableOf, List.find?_append, Option.map_or]
  rfl

theorem tableOf_eq_none {l : List (Ptr × Entry δ)} {k : List ℕ}
    (h : ∀ x ∈ l, foldKey x.2.pKey ≠ k) : tableOf l k = none := by
  rw [tableOf, Option.map_eq_none_iff, List.find?_eq_none]
  simpa using h

/-- The keys of a list are different. -/
def DistinctKeys (l : List (Ptr × Entry δ)) : Prop :=
  l.Pairwise fun x y => foldKey x.2.pKey ≠ foldKey y.2.pKey

/-- The entries of the map are the entries of the list. -/
theorem tableOf_eq_some_iff {l : List (Ptr × Entry δ)} (hkeys : DistinctKeys l) {k : List ℕ}
    {e : Entry δ} : tableOf l k = some e ↔ foldKey e.pKey = k ∧ e ∈ l.map Prod.snd := by
  induction l with
  | nil => simp
  | cons x l ih =>
      obtain ⟨hx, hl⟩ := List.pairwise_cons.mp hkeys
      rw [tableOf_cons, List.map_cons, List.mem_cons]
      split_ifs with hk
      · constructor
        · rintro ⟨⟩
          exact ⟨hk, Or.inl rfl⟩
        · rintro ⟨hke, rfl | hmem⟩
          · rfl
          · obtain ⟨y, hy, rfl⟩ := List.mem_map.mp hmem
            exact absurd (hk.trans hke.symm) (hx y hy)
      · rw [ih hl]
        constructor
        · exact fun h => ⟨h.1, Or.inr h.2⟩
        · rintro ⟨hke, rfl | hmem⟩
          · exact absurd hke hk
          · exact ⟨hke, hmem⟩

/-- The order of the list does not matter. -/
theorem tableOf_perm {l l' : List (Ptr × Entry δ)} (hperm : l'.Perm l)
    (hkeys : DistinctKeys l) : tableOf l' = tableOf l := by
  have hkeys' : DistinctKeys l' := (hperm.pairwise_iff fun hxy => Ne.symm hxy).mpr hkeys
  funext k
  apply Option.ext
  intro e
  rw [tableOf_eq_some_iff hkeys', tableOf_eq_some_iff hkeys, (hperm.map _).mem_iff]

/-- Different keys before and behind an element of the list. -/
theorem DistinctKeys.around {s t : List (Ptr × Entry δ)} {x : Ptr × Entry δ}
    (h : DistinctKeys (s ++ x :: t)) : ∀ y ∈ s ++ t, foldKey y.2.pKey ≠ foldKey x.2.pKey := by
  obtain ⟨-, ht, hst⟩ := List.pairwise_append.mp h
  intro y hy
  rcases List.mem_append.mp hy with hy | hy
  · exact hst y hy x (List.mem_cons_self ..)
  · exact Ne.symm ((List.pairwise_cons.mp ht).1 y hy)

/-- An entry is replaced. -/
theorem tableOf_replace {s t : List (Ptr × Entry δ)} {x : Ptr × Entry δ} {e : Entry δ}
    (h : DistinctKeys (s ++ x :: t)) (hkey : foldKey e.pKey = foldKey x.2.pKey) :
    tableOf (s ++ (x.1, e) :: t) =
      Function.update (tableOf (s ++ x :: t)) (foldKey e.pKey) (some e) := by
  funext k
  by_cases hk : k = foldKey e.pKey
  · subst hk
    have hs : tableOf s (foldKey e.pKey) = none :=
      tableOf_eq_none fun y hy => hkey ▸ h.around y (List.mem_append_left _ hy)
    rw [Function.update_self, tableOf_append, hs, tableOf_cons, if_pos rfl, Option.none_or]
  · have hx : foldKey x.2.pKey ≠ k := fun heq => hk (heq.symm.trans hkey.symm)
    rw [Function.update_of_ne hk, tableOf_append, tableOf_append, tableOf_cons, tableOf_cons,
      if_neg (Ne.symm hk), if_neg hx]

/-- An entry is removed. -/
theorem tableOf_remove {s t : List (Ptr × Entry δ)} {x : Ptr × Entry δ}
    (h : DistinctKeys (s ++ x :: t)) :
    tableOf (s ++ t) = Function.update (tableOf (s ++ x :: t)) (foldKey x.2.pKey) none := by
  funext k
  by_cases hk : k = foldKey x.2.pKey
  · subst hk
    rw [Function.update_self, tableOf_eq_none h.around]
  · rw [Function.update_of_ne hk, tableOf_append, tableOf_append, tableOf_cons,
      if_neg (Ne.symm hk)]

/-- An entry with a new key is added. -/
theorem tableOf_add (x : Ptr × Entry δ) (l : List (Ptr × Entry δ)) :
    tableOf (x :: l) = Function.update (tableOf l) (foldKey x.2.pKey) (some x.2) := by
  funext k
  by_cases hk : k = foldKey x.2.pKey
  · subst hk
    rw [Function.update_self, tableOf_cons, if_pos rfl]
  · rw [Function.update_of_ne hk, tableOf_cons, if_neg (Ne.symm hk)]

/-! ## Calls on a family of tables -/

variable {κ : Type} [DecidableEq κ]

/-- A call of the interface, or a loop over all entries, on one of the tables. -/
inductive HashCall (κ δ : Type) where
  | insert (table : κ) (pKey : CString) (data : Option δ)
  | find (table : κ) (pKey : CString)
  | clear (table : κ)
  | each (table : κ)

/-- How many entries a call may add. -/
def HashCall.growth : HashCall κ δ → ℕ
  | .insert _ _ (some _) => 1
  | _ => 0

/-- What a call returns. -/
inductive HashResult (δ : Type) where
  | data (data : Option δ)
  | visited (data : List δ)
  | done

/-- **The specification**: what a call may return, and the maps afterwards, depending on
whether there is `room` for one more element. -/
inductive Allowed (room : Bool) :
    (κ → Table δ) → HashCall κ δ → HashResult δ → (κ → Table δ) → Prop where
  | insert (T : κ → Table δ) (i : κ) (pKey : CString) (data : δ) :
      room = true ∨ (T i (foldKey pKey)).isSome →
      Allowed room T (.insert i pKey (some data)) (.data ((T i (foldKey pKey)).map Entry.data))
        (Function.update T i (Function.update (T i) (foldKey pKey) (some ⟨data, pKey⟩)))
  -- without memory nothing is added
  | noMemory (T : κ → Table δ) (i : κ) (pKey : CString) (data : δ) :
      room = false → T i (foldKey pKey) = none →
      Allowed room T (.insert i pKey (some data)) (.data (some data)) T
  | remove (T : κ → Table δ) (i : κ) (pKey : CString) :
      Allowed room T (.insert i pKey none) (.data ((T i (foldKey pKey)).map Entry.data))
        (Function.update T i (Function.update (T i) (foldKey pKey) none))
  | find (T : κ → Table δ) (i : κ) (pKey : CString) :
      Allowed room T (.find i pKey) (.data ((T i (foldKey pKey)).map Entry.data)) T
  | clear (T : κ → Table δ) (i : κ) :
      Allowed room T (.clear i) .done (Function.update T i fun _ => none)
  -- every entry is visited, and none twice
  | each (T : κ → Table δ) (i : κ) (entries : List (Entry δ)) :
      (entries.map fun e => foldKey e.pKey).Nodup →
      (∀ e, T i (foldKey e.pKey) = some e ↔ e ∈ entries) →
      Allowed room T (.each i) (.visited (entries.map Entry.data)) T

/-- The heap and the tables. -/
structure World (κ δ : Type) where
  heap : HashHeap δ
  tables : κ → Hash

/-- One call. -/
def hashCall (malloc : Malloc) (w : World κ δ) :
    HashCall κ δ → Option (World κ δ × HashResult δ)
  | .insert i pKey data => do
      let ((heap, pH), r) ← sqlite3HashInsert malloc w.heap (w.tables i) pKey data
      return (⟨heap, Function.update w.tables i pH⟩, .data r)
  | .find i pKey => do
      let r ← sqlite3HashFind w.heap (w.tables i) pKey
      return (w, .data r)
  | .clear i => do
      let (heap, pH) ← sqlite3HashClear w.heap (w.tables i)
      return (⟨heap, Function.update w.tables i pH⟩, .done)
  | .each i => do
      let l ← sqliteHashEach w.heap (w.tables i).count.toNat (w.tables i).first
      return (w, .visited l)

/-- A step is a call, and it is observed whether an element could be allocated; `malloc`
answers the allocations of the `n`-th call. -/
def hashStep (malloc : ℕ → HashHeap δ → Malloc) :
    Machine (World κ δ) (HashCall κ δ) (Observed Bool (HashResult δ)) := fun n w call => do
  let (w', r) ← hashCall (malloc n w.heap) w call
  return (w', ⟨r, (malloc n w.heap).elem.isSome⟩)

/-! ## The simulation -/

/-- Where the entries of the tables are: each table holds its own, and every element and
every bucket array that is allocated belongs to one table. -/
structure Layout (w : World κ δ) (l : κ → List (Ptr × Entry δ)) : Prop where
  represents : ∀ i, Represents w.heap (w.tables i) (l i)
  elems : Owned w.heap.elems fun i => addrs (l i)
  arrays : Owned w.heap.arrays fun i => (w.tables i).ht.toList

/-- The tables hold the maps `T`, with at most `n` entries each. -/
def Holds (n : ℕ) (w : World κ δ) (T : κ → Table δ) : Prop :=
  ∃ l, Layout w l ∧ (∀ i, T i = tableOf (l i)) ∧ ∀ i, (l i).length ≤ n

omit [DecidableEq κ] in
/-- Tables without entries use no memory. -/
theorem Layout.released {w : World κ δ} {l : κ → List (Ptr × Entry δ)} (h : Layout w l)
    (hnil : ∀ i, l i = []) : (∀ p, w.heap.elems p = none) ∧ ∀ a, w.heap.arrays a = none := by
  refine ⟨h.elems.released fun i => ?_, h.arrays.released fun i => ?_⟩
  · rw [hnil i]
    rfl
  · rw [(h.represents i).empty (hnil i)]
    rfl

/-- One table changes, and exchanges elements and bucket arrays. -/
theorem Layout.update {w : World κ δ} {l : κ → List (Ptr × Entry δ)} (h : Layout w l) {i : κ}
    {heap : HashHeap δ} {pH : Hash} {li : List (Ptr × Entry δ)} (hli : Represents heap pH li)
    (helems : Exchanged w.heap.elems heap.elems (addrs (l i)) (addrs li))
    (harrays : Exchanged w.heap.arrays heap.arrays (w.tables i).ht.toList pH.ht.toList) :
    Layout ⟨heap, Function.update w.tables i pH⟩ (Function.update l i li) := by
  refine ⟨?_, ?_, ?_⟩
  · intro j
    by_cases hj : j = i
    · subst hj
      simpa using hli
    · simp only [Function.update_of_ne hj]
      refine (h.represents j).frame (fun x hx => ?_) fun ht hht => ?_
      · exact h.elems.frame helems hj (mem_addrs_of_mem hx)
      · exact h.arrays.frame harrays hj (by simpa using hht)
  · have hown : (fun j => addrs (Function.update l i li j)) =
        Function.update (fun j => addrs (l j)) i (addrs li) := Function.comp_update addrs l i li
    rw [hown]
    exact h.elems.exchange helems fun p hp => hli.linked.isSome hp
  · have hown : (fun j => (Function.update w.tables i pH j).ht.toList) =
        Function.update (fun j => (w.tables j).ht.toList) i pH.ht.toList :=
      Function.comp_update (fun pH : Hash => pH.ht.toList) w.tables i pH
    rw [hown]
    exact h.arrays.exchange harrays fun a ha => hli.array_isSome (by simpa using ha)

/-- The maps after one table has changed. -/
theorem Holds.update {n m : ℕ} {w : World κ δ} {l : κ → List (Ptr × Entry δ)}
    {T : κ → Table δ} (hT : ∀ i, T i = tableOf (l i)) (hlen : ∀ i, (l i).length ≤ n) {i : κ}
    {heap : HashHeap δ} {pH : Hash} {li : List (Ptr × Entry δ)}
    (h : Layout (⟨heap, Function.update w.tables i pH⟩ : World κ δ) (Function.update l i li))
    (hli : li.length ≤ m) (hnm : n ≤ m) :
    Holds m ⟨heap, Function.update w.tables i pH⟩ (Function.update T i (tableOf li)) := by
  refine ⟨Function.update l i li, h, ?_, ?_⟩
  · intro j
    by_cases hj : j = i
    · subst hj
      rw [Function.update_self, Function.update_self]
    · rw [Function.update_of_ne hj, Function.update_of_ne hj, hT j]
  · intro j
    by_cases hj : j = i
    · subst hj
      rwa [Function.update_self]
    · rw [Function.update_of_ne hj]
      exact (hlen j).trans hnm

omit [DecidableEq κ] in
/-- The bound may be larger. -/
theorem Holds.mono {n m : ℕ} {w : World κ δ} {T : κ → Table δ} (h : Holds n w T)
    (hnm : n ≤ m) : Holds m w T := by
  obtain ⟨l, hlayout, hT, hlen⟩ := h
  exact ⟨l, hlayout, hT, fun i => (hlen i).trans hnm⟩

/-- The maps give what a lookup in the list gives. -/
private theorem map_lookup {T : Table δ} {l : List (Ptr × Entry δ)} (hT : T = tableOf l)
    (pKey : CString) :
    (T (foldKey pKey)).map Entry.data = (lookup l pKey).map fun x => x.2.data := by
  rw [hT, ← lookup_map, Option.map_map]
  rfl

section Insert

variable {malloc : Malloc} {m : ℕ} {w : World κ δ} {l : κ → List (Ptr × Entry δ)}
  {T : κ → Table δ} (hlayout : Layout w l) (hT : ∀ i, T i = tableOf (l i))
  (hlen : ∀ i, (l i).length ≤ m)

include hlayout hT hlen

/-- Nothing is removed. -/
private theorem insert_call_ignores {i : κ} {pKey : CString}
    (hmissing : lookup (l i) pKey = none) :
    ∃ w' r T', hashCall malloc w (.insert i pKey none) = some (w', r) ∧
      Allowed malloc.elem.isSome T (.insert i pKey none) r T' ∧ Holds m w' T' := by
  have hnone : T i (foldKey pKey) = none := by
    rw [hT i, ← lookup_map, hmissing]
    rfl
  have hkept : Function.update (T i) (foldKey pKey) none = T i :=
    Function.update_eq_self_iff.mpr hnone.symm
  have hallowed : Allowed malloc.elem.isSome T (.insert i pKey none) _ _ := .remove T i pKey
  rw [hkept, Function.update_eq_self, hnone] at hallowed
  refine ⟨w, .data none, T, ?_, hallowed, l, hlayout, hT, hlen⟩
  simp [hashCall, sqlite3HashInsert_ignores (hlayout.represents i) hmissing]

/-- An entry is added, or there is no memory for it. -/
private theorem insert_call_adds (hsound : malloc.Sound w.heap) (hm : m < 2 ^ 31 - 1) {i : κ}
    {pKey : CString} (hmissing : lookup (l i) pKey = none) (data : δ) :
    ∃ w' r T', hashCall malloc w (.insert i pKey (some data)) = some (w', r) ∧
      Allowed malloc.elem.isSome T (.insert i pKey (some data)) r T' ∧ Holds (m + 1) w' T' := by
  have hi := hlayout.represents i
  have hleni := hlen i
  have hnone : T i (foldKey pKey) = none := by
    rw [hT i, ← lookup_map, hmissing]
    rfl
  rcases sqlite3HashInsert_adds hsound hi hmissing (by omega) data with
    ⟨hroom, hfail⟩ | ⟨p, heap', pH', l', hp, hinsert, hperm, hrepresents, helems, harrays⟩
  · refine ⟨w, .data (some data), T, ?_, .noMemory T i pKey data (by rw [hroom]; rfl) hnone,
      Holds.mono ⟨l, hlayout, hT, hlen⟩ (Nat.le_succ m)⟩
    simp [hashCall, hfail]
  · have hkeys : DistinctKeys ((p, (⟨data, pKey⟩ : Entry δ)) :: l i) :=
      (hperm.pairwise_iff fun hxy => Ne.symm hxy).mp hrepresents.keys
    have hlayout' := hlayout.update hrepresents helems harrays
    have hallowed : Allowed malloc.elem.isSome T (.insert i pKey (some data)) _ _ :=
      .insert T i pKey data (.inl (by rw [hp]; rfl))
    rw [hnone, hT i, Option.map_none, ← tableOf_add (p, ⟨data, pKey⟩) (l i),
      ← tableOf_perm hperm hkeys] at hallowed
    refine ⟨_, .data none, _, ?_, hallowed, Holds.update hT hlen hlayout' ?_ (Nat.le_succ m)⟩
    · simp [hashCall, hinsert]
    · rw [hperm.length_eq, List.length_cons]
      omega

/-- An entry is removed. -/
private theorem insert_call_removes {i : κ} {pKey : CString} {x : Ptr × Entry δ}
    (hfound : lookup (l i) pKey = some x) :
    ∃ w' r T', hashCall malloc w (.insert i pKey none) = some (w', r) ∧
      Allowed malloc.elem.isSome T (.insert i pKey none) r T' ∧ Holds m w' T' := by
  have hi := hlayout.represents i
  have hleni := hlen i
  obtain ⟨hkey, s, t, hl⟩ := lookup_eq_some hfound
  have hold : (T i (foldKey pKey)).map Entry.data = some x.2.data := by
    rw [map_lookup (hT i), hfound]
    rfl
  rw [hl] at hi hfound hleni
  obtain ⟨heap', pH', hremove, hrepresents, helems, harrays⟩ :=
    sqlite3HashInsert_removes malloc hi hfound
  rw [← hl] at helems
  have hlayout' := hlayout.update hrepresents helems harrays
  have hallowed : Allowed malloc.elem.isSome T (.insert i pKey none) _ _ := .remove T i pKey
  rw [hold, hT i, hl, ← hkey, ← tableOf_remove hi.keys] at hallowed
  refine ⟨_, .data (some x.2.data), _, ?_, hallowed, Holds.update hT hlen hlayout' ?_ le_rfl⟩
  · simp [hashCall, hremove]
  · simp only [List.length_append, List.length_cons] at hleni ⊢
    omega

/-- An entry is replaced. -/
private theorem insert_call_replaces {i : κ} {pKey : CString} {x : Ptr × Entry δ}
    (hfound : lookup (l i) pKey = some x) (data : δ) :
    ∃ w' r T', hashCall malloc w (.insert i pKey (some data)) = some (w', r) ∧
      Allowed malloc.elem.isSome T (.insert i pKey (some data)) r T' ∧ Holds (m + 1) w' T' := by
  have hi := hlayout.represents i
  have hleni := hlen i
  obtain ⟨hkey, s, t, hl⟩ := lookup_eq_some hfound
  have hold : (T i (foldKey pKey)).map Entry.data = some x.2.data := by
    rw [map_lookup (hT i), hfound]
    rfl
  have hthere : (T i (foldKey pKey)).isSome = true := by
    rw [← Option.isSome_map, hold]
    rfl
  rw [hl] at hi hfound hleni
  obtain ⟨elems, hreplace, hrepresents, hframe⟩ := sqlite3HashInsert_replaces malloc hi hfound data
  have haddrs : addrs (s ++ (x.1, (⟨data, pKey⟩ : Entry δ)) :: t) = addrs (l i) := by
    rw [hl]
    simp
  have helems : Exchanged w.heap.elems elems (addrs (l i))
      (addrs (s ++ (x.1, (⟨data, pKey⟩ : Entry δ)) :: t)) := by
    rw [haddrs]
    refine .of_frame fun q hq => hframe q fun heq => hq ?_
    rw [hl, heq]
    simp
  have hlayout' := hlayout.update hrepresents helems (.refl ..)
  have hallowed : Allowed malloc.elem.isSome T (.insert i pKey (some data)) _ _ :=
    .insert T i pKey data (.inr hthere)
  have hreplaced := tableOf_replace hi.keys (e := ⟨data, pKey⟩) hkey.symm
  rw [hold, hT i, hl, ← hreplaced] at hallowed
  refine ⟨_, .data (some x.2.data), _, ?_, hallowed,
    Holds.update hT hlen hlayout' ?_ (Nat.le_succ m)⟩
  · simp [hashCall, hreplace]
  · simp only [List.length_append, List.length_cons] at hleni ⊢
    omega

end Insert

omit [DecidableEq κ] in
/-- A lookup gives what the map has. -/
theorem Holds.find {m : ℕ} {w : World κ δ} {T : κ → Table δ} (h : Holds m w T) (i : κ)
    (pKey : CString) :
    sqlite3HashFind w.heap (w.tables i) pKey = some ((T i (foldKey pKey)).map Entry.data) := by
  obtain ⟨l, hlayout, hT, -⟩ := h
  rw [sqlite3HashFind_spec (hlayout.represents i), map_lookup (hT i)]

omit [DecidableEq κ] in
/-- Tables that hold empty maps use no memory. -/
theorem Holds.released {m : ℕ} {w : World κ δ} {T : κ → Table δ} (h : Holds m w T)
    (hT : ∀ i k, T i k = none) :
    (∀ p, w.heap.elems p = none) ∧ ∀ a, w.heap.arrays a = none := by
  obtain ⟨l, hlayout, hmaps, -⟩ := h
  apply hlayout.released
  intro i
  refine List.eq_nil_iff_forall_not_mem.mpr fun x hx => ?_
  have hentry := (tableOf_eq_some_iff (hlayout.represents i).keys).mpr
    ⟨rfl, List.mem_map_of_mem hx⟩
  rw [← hmaps i, hT] at hentry
  cases hentry

omit [DecidableEq κ] in
/-- A loop over all entries visits each of them once. -/
theorem Holds.each {m : ℕ} {w : World κ δ} {T : κ → Table δ} (h : Holds m w T) (i : κ) :
    ∃ entries : List (Entry δ),
      sqliteHashEach w.heap (w.tables i).count.toNat (w.tables i).first =
        some (entries.map Entry.data) ∧
      (entries.map fun e => foldKey e.pKey).Nodup ∧
      ∀ e, T i (foldKey e.pKey) = some e ↔ e ∈ entries := by
  obtain ⟨l, hlayout, hT, -⟩ := h
  have hi := hlayout.represents i
  refine ⟨(l i).map Prod.snd, ?_, ?_, ?_⟩
  · rw [sqliteHashEach_spec hi.linked.chained hi.count.ge, List.map_map]
    rfl
  · rw [List.map_map]
    exact List.pairwise_map.mpr hi.keys
  · intro e
    rw [hT i, tableOf_eq_some_iff hi.keys]
    simp

/-- **Each call is allowed**, and leaves tables that hold the maps. -/
theorem hashCall_spec {malloc : Malloc} {m : ℕ} (hm : m < 2 ^ 31 - 1) {w : World κ δ}
    (hsound : malloc.Sound w.heap) {T : κ → Table δ} (h : Holds m w T) (call : HashCall κ δ) :
    ∃ w' r T', hashCall malloc w call = some (w', r) ∧
      Allowed malloc.elem.isSome T call r T' ∧ Holds (m + call.growth) w' T' := by
  cases call with
  | insert i pKey data =>
      obtain ⟨l, hlayout, hT, hlen⟩ := h
      cases hfound : lookup (l i) pKey with
      | none =>
          cases data with
          | none => exact insert_call_ignores hlayout hT hlen hfound
          | some data => exact insert_call_adds hlayout hT hlen hsound hm hfound data
      | some x =>
          cases data with
          | none => exact insert_call_removes hlayout hT hlen hfound
          | some data => exact insert_call_replaces hlayout hT hlen hfound data
  | find i pKey =>
      refine ⟨w, _, T, ?_, .find T i pKey, h⟩
      simp [hashCall, h.find i pKey]
  | clear i =>
      obtain ⟨l, hlayout, hT, hlen⟩ := h
      have hi := hlayout.represents i
      obtain ⟨heap', hclear, helems, harrays⟩ := sqlite3HashClear_spec hi.toEntries hi.count.ge
      have hlayout' := hlayout.update (represents_init heap') helems harrays
      refine ⟨_, .done, _, ?_, ?_, Holds.update hT hlen hlayout' (Nat.zero_le m) le_rfl⟩
      · simp [hashCall, hclear]
      · exact .clear T i
  | each i =>
      obtain ⟨entries, heach, hnodup, hentries⟩ := h.each i
      refine ⟨w, _, T, ?_, .each T i entries hnodup hentries, h⟩
      simp [hashCall, heach]

/-- The tables simulate the maps. -/
theorem hashStep_simulates {malloc : ℕ → HashHeap δ → Malloc}
    (hsound : ∀ n heap, (malloc n heap).Sound heap) :
    Simulates (hashStep malloc) (Spec.observed (Allowed (κ := κ))) Holds (2 ^ 31 - 1) := by
  refine ⟨fun n hn w T call h => ?_⟩
  obtain ⟨w', r, T', hcall, hallowed, hholds⟩ := hashCall_spec hn (hsound n w.heap) h call
  have hgrowth : call.growth ≤ 1 := by
    rcases call with ⟨i, pKey, _ | data⟩ | ⟨i, pKey⟩ | i | i
    all_goals simp [HashCall.growth]
  refine ⟨w', ⟨r, (malloc n w.heap).elem.isSome⟩, T', ?_, hallowed, hholds.mono (by omega)⟩
  simp only [hashStep, hcall, Option.bind_eq_bind, Option.bind_some]
  rfl

/-! ## Single calls -/

section Calls

variable {malloc : Malloc} {m : ℕ} (hm : m < 2 ^ 31 - 1) {w : World κ δ}
  (hsound : malloc.Sound w.heap) {T : κ → Table δ} (h : Holds m w T)

include hsound hm h

/-- A new key is added, unless there is no memory for it. -/
theorem Holds.insert {i : κ} {pKey : CString} (hmissing : T i (foldKey pKey) = none)
    (data : δ) :
    ∃ w', (malloc.elem.isSome = false ∧
        hashCall malloc w (.insert i pKey (some data)) = some (w', .data (some data)) ∧
        Holds (m + 1) w' T) ∨
      (malloc.elem.isSome = true ∧
        hashCall malloc w (.insert i pKey (some data)) = some (w', .data none) ∧
        Holds (m + 1) w'
          (Function.update T i (Function.update (T i) (foldKey pKey) (some ⟨data, pKey⟩)))) := by
  obtain ⟨w', r, T', hcall, hallowed, hholds⟩ :=
    hashCall_spec hm hsound h (.insert i pKey (some data))
  cases hallowed with
  | insert _ _ _ hroom =>
      rw [hmissing] at hcall hroom
      exact ⟨w', .inr ⟨hroom.resolve_right Bool.false_ne_true, hcall, hholds⟩⟩
  | noMemory _ _ _ hroom => exact ⟨w', .inl ⟨hroom, hcall, hholds⟩⟩

/-- A key is removed, if it is there. -/
theorem Holds.remove (i : κ) (pKey : CString) :
    ∃ w', hashCall malloc w (.insert i pKey none) =
        some (w', .data ((T i (foldKey pKey)).map Entry.data)) ∧
      Holds m w' (Function.update T i (Function.update (T i) (foldKey pKey) none)) := by
  obtain ⟨w', r, T', hcall, hallowed, hholds⟩ := hashCall_spec hm hsound h (.insert i pKey none)
  cases hallowed
  exact ⟨w', hcall, hholds⟩

/-- All keys are removed. -/
theorem Holds.clear (i : κ) :
    ∃ w', hashCall malloc w (.clear i) = some (w', .done) ∧
      Holds m w' (Function.update T i fun _ => none) := by
  obtain ⟨w', r, T', hcall, hallowed, hholds⟩ := hashCall_spec hm hsound h (.clear i)
  cases hallowed
  exact ⟨w', hcall, hholds⟩

end Calls

/-! ## Whole runs -/

/-- A heap on which nothing is allocated. -/
def HashHeap.empty : HashHeap δ := ⟨fun _ => none, fun _ => none⟩

/-- Tables that have been initialized, on the empty heap. -/
def initialWorld : World κ δ := ⟨.empty, fun _ => sqlite3HashInit⟩

omit [DecidableEq κ] in
/-- Initialized tables hold empty maps. -/
theorem holds_initialWorld : Holds 0 (initialWorld : World κ δ) fun _ _ => none := by
  refine ⟨fun _ => [], ⟨fun _ => represents_init _, ⟨by simp, by simp, ?_⟩,
    ⟨by simp [initialWorld, sqlite3HashInit], by simp [initialWorld, sqlite3HashInit], ?_⟩⟩,
    fun _ => rfl, by simp⟩
  · intro p hp
    cases hp
  · intro a ha
    cases ha

/-- An allocator that uses an address for each call. -/
def mallocNth (n : ℕ) (heap : HashHeap δ) : Malloc where
  elem := if (heap.elems n).isNone then some n else none
  buckets k := if (heap.arrays n).isNone then some (n, k) else none

theorem mallocNth_sound (n : ℕ) (heap : HashHeap δ) : (mallocNth n heap).Sound heap := by
  refine ⟨?_, ?_⟩
  · intro p hp
    simp only [mallocNth, Option.ite_none_right_eq_some, Option.some.injEq] at hp
    obtain ⟨hfree, rfl⟩ := hp
    simpa using hfree
  · intro k a k' hk
    simp only [mallocNth, Option.ite_none_right_eq_some, Option.some.injEq, Prod.mk.injEq] at hk
    obtain ⟨hfree, rfl, rfl⟩ := hk
    exact ⟨by simpa using hfree, UInt32.le_refl k⟩

/-- **Hash tables are maps**: a run of calls on any number of tables, in any order and with
any allocations failing, follows no bad pointer, frees nothing twice and violates no
assertion, and what it returns is what calls on maps return; an entry is refused only when
its element could not be allocated. -/
theorem hashTables_refine {malloc : ℕ → HashHeap δ → Malloc}
    (hsound : ∀ n heap, (malloc n heap).Sound heap) (calls : List (HashCall κ δ))
    (hcalls : calls.length < 2 ^ 31) :
    ∃ w results T, Simulation.run (hashStep malloc) 0 initialWorld calls = some (w, results) ∧
      SpecRun (Spec.observed Allowed) (fun _ _ => none) calls results T := by
  obtain ⟨w, results, T, hrun, hspec, -⟩ :=
    (hashStep_simulates hsound).run calls (by omega) (holds_initialWorld (κ := κ))
  exact ⟨w, results, T, hrun, hspec⟩

/-- With an entry that is stored in one table, and found only there. -/
theorem hashTables_refine_two :
    let calls : List (HashCall Bool ℕ) :=
      [.insert true ⟨"trig1".toList, by decide⟩ (some 7), .find true ⟨"TRIG1".toList, by decide⟩,
        .find false ⟨"trig1".toList, by decide⟩, .each true]
    let results : List (Observed Bool (HashResult ℕ)) :=
      [⟨.data none, true⟩, ⟨.data (some 7), true⟩, ⟨.data none, true⟩, ⟨.visited [7], true⟩]
    ∃ w T, Simulation.run (hashStep mallocNth) 0 initialWorld calls = some (w, results) ∧
      SpecRun (Spec.observed Allowed) (fun _ _ => none) calls results T := by
  intro calls results
  obtain ⟨w, results', T, hrun, hspec⟩ := hashTables_refine mallocNth_sound calls (by decide)
  have hresults : ∃ w, Simulation.run (hashStep mallocNth) 0 initialWorld calls =
    some (w, results) := ⟨_, rfl⟩
  obtain ⟨w', hrun'⟩ := hresults
  obtain ⟨-, rfl⟩ := Prod.mk.inj (Option.some.inj (hrun.symm.trans hrun'))
  exact ⟨w, T, hrun, hspec⟩

/-- **No leak**: when a run leaves every table without entries, all elements and all
bucket arrays that it allocated have been released. -/
theorem hashTables_noLeak {malloc : ℕ → HashHeap δ → Malloc}
    (hsound : ∀ n heap, (malloc n heap).Sound heap) {calls : List (HashCall κ δ)}
    (hcalls : calls.length < 2 ^ 31) {w : World κ δ}
    {results : List (Observed Bool (HashResult δ))}
    (hrun : Simulation.run (hashStep malloc) 0 initialWorld calls = some (w, results))
    (hempty : ∀ i, (w.tables i).count = 0) :
    (∀ p, w.heap.elems p = none) ∧ ∀ a, w.heap.arrays a = none := by
  obtain ⟨w', results', T, hrun', -, l, hlayout, -, -⟩ :=
    (hashStep_simulates hsound).run calls (by omega) (holds_initialWorld (κ := κ))
  rw [hrun] at hrun'
  obtain ⟨rfl, -⟩ := Prod.mk.inj (Option.some.inj hrun')
  apply hlayout.released
  intro i
  have hcount := (hlayout.represents i).count
  rw [hempty i] at hcount
  exact List.eq_nil_of_length_eq_zero hcount.symm

/-- The keys of the entries that are inserted and removed below. -/
def elevenKeys : List CString :=
  (List.range 11).map fun k => ⟨List.replicate k 'a', by simp⟩

/-- The eleventh entry needs a bucket array, which is released with the last entry. -/
theorem hashTables_noLeak_eleven :
    let inserts : List (HashCall Unit ℕ) := elevenKeys.map fun key => .insert () key (some 1)
    let calls := inserts ++ elevenKeys.map fun key => .insert () key none
    ∃ w₁ r₁ w results, Simulation.run (hashStep mallocNth) 0 initialWorld inserts =
        some (w₁, r₁) ∧ (w₁.tables ()).ht.isSome ∧
      Simulation.run (hashStep mallocNth) 0 initialWorld calls = some (w, results) ∧
      (∀ p, w.heap.elems p = none) ∧ ∀ a, w.heap.arrays a = none := by
  intro inserts calls
  have hrun : ∃ w₁ r₁, Simulation.run (hashStep mallocNth) 0 initialWorld inserts =
      some (w₁, r₁) ∧ (w₁.tables ()).ht.isSome := ⟨_, _, rfl, rfl⟩
  have hrun' : ∃ w results, Simulation.run (hashStep mallocNth) 0 initialWorld calls =
      some (w, results) ∧ ∀ i, (w.tables i).count = 0 := ⟨_, _, rfl, fun _ => rfl⟩
  obtain ⟨w₁, r₁, hrun₁, harray⟩ := hrun
  obtain ⟨w, results, hrun, hempty⟩ := hrun'
  exact ⟨w₁, r₁, w, results, hrun₁, harray, hrun,
    hashTables_noLeak mallocNth_sound (by decide) hrun hempty⟩

end SmtCacheBenchmarks.Sqlite
