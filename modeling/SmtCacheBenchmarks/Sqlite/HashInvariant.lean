import SmtCacheBenchmarks.Library.Grouped
import SmtCacheBenchmarks.Library.Ownership
import SmtCacheBenchmarks.Sqlite.Hash

/-!
# The Invariant of SQLite's Hash Table

What `hash.h` says of its data structure: all entries are on one doubly linked list, and
a bucket is the element that it points to and the elements behind it, as many as it counts.
So the entries of one bucket stand together on the list.  A bucket that counts no entries
may point anywhere, also at an element that has been freed.

One specification for each function of `hash.c`: it does not fail, it keeps the invariant,
and of the heap it changes only the table's own elements and its own bucket array.  They
are used by `HashRefinement`.
-/

namespace SmtCacheBenchmarks.Sqlite

open SmtCacheBenchmarks.Library DoublyLinked

variable {δ : Type}

/-! ## The invariant -/

/-- The bucket of a key in a table with `htsize` buckets. -/
def slotOf (htsize : UInt32) (key : CString) : ℕ := (strHash key % htsize).toNat

/-- The bucket that an element is in. -/
def slot (htsize : UInt32) (x : Ptr × Entry δ) : ℕ := slotOf htsize x.2.pKey

/-- The entries of a bucket. -/
def entriesOf (htsize : UInt32) (i : ℕ) (l : List (Ptr × Entry δ)) : List (Ptr × Entry δ) :=
  l.filter fun x => slot htsize x = i

/-- A bucket counts its entries, and points at the first of them if it has any. -/
structure Bucket.Holds (b : Bucket) (entries : List (Ptr × Entry δ)) : Prop where
  count : b.count.toInt = entries.length
  chain : ∀ x ∈ entries.head?, b.chain = some x.1

/-- The bucket array of a table whose entries are on the list `l`. -/
structure Buckets (htsize : UInt32) (ht : List Bucket) (l : List (Ptr × Entry δ)) : Prop where
  length : ht.length = htsize.toNat
  pos : 0 < htsize.toNat
  grouped : Grouped (l.map (slot htsize))
  holds : ∀ (i : ℕ) (b : Bucket), ht[i]? = some b → b.Holds (entriesOf htsize i l)

/-- The entries of a table are on the list `l`, and in the buckets of its array. -/
structure Entries (heap : HashHeap δ) (pH : Hash) (l : List (Ptr × Entry δ)) : Prop where
  linked : Linked heap.elems pH.first l
  buckets : ∀ ht, pH.ht = some ht →
    ∃ buckets, heap.arrays ht = some buckets ∧ Buckets pH.htsize buckets l

/-- **The invariant**: the entries are on the list `l`, they are counted, no two have the
same key, and a table without entries has no buckets. -/
structure Represents (heap : HashHeap δ) (pH : Hash) (l : List (Ptr × Entry δ)) : Prop
    extends Entries heap pH l where
  count : pH.count.toNat = l.length
  keys : l.Pairwise fun x y => foldKey x.2.pKey ≠ foldKey y.2.pKey
  empty : l = [] → pH.ht = none

theorem slotOf_lt {htsize : UInt32} (hpos : 0 < htsize.toNat) (key : CString) :
    slotOf htsize key < htsize.toNat := by
  rw [slotOf, UInt32.toNat_mod]
  exact Nat.mod_lt _ hpos

theorem slotOf_eq_of_foldKey {htsize : UInt32} {x y : CString} (h : foldKey x = foldKey y) :
    slotOf htsize x = slotOf htsize y := by
  rw [slotOf, slotOf, strHash_eq_of_foldKey h]

/-- The entries of a bucket are a segment of the list. -/
theorem Buckets.segment {htsize : UInt32} {ht : List Bucket} {l : List (Ptr × Entry δ)}
    (h : Buckets htsize ht l) (i : ℕ) :
    ∃ s t, l = s ++ entriesOf htsize i l ++ t ∧ (∀ x ∈ s, slot htsize x ≠ i) ∧
      ∀ x ∈ t, slot htsize x ≠ i :=
  eq_append_filter (slot htsize) h.grouped i

/-- An initialized table has no entries. -/
theorem represents_init (heap : HashHeap δ) : Represents heap sqlite3HashInit [] :=
  { linked := linked_nil heap.elems
    buckets := by
      intro ht hht
      cases hht
    count := rfl
    keys := List.Pairwise.nil
    empty := fun _ => rfl }

/-- A heap that agrees on the entries of a table and on its array holds the table. -/
theorem Represents.frame {heap heap' : HashHeap δ} {pH : Hash} {l : List (Ptr × Entry δ)}
    (h : Represents heap pH l) (hsame : ∀ x ∈ l, heap'.elems x.1 = heap.elems x.1)
    (harray : ∀ ht, pH.ht = some ht → heap'.arrays ht = heap.arrays ht) :
    Represents heap' pH l :=
  { h with
    linked := h.linked.frame hsame
    buckets := by
      intro ht hht
      rw [harray ht hht]
      exact h.buckets ht hht }

/-- The array of a table is allocated. -/
theorem Entries.array_isSome {heap : HashHeap δ} {pH : Hash} {l : List (Ptr × Entry δ)}
    (h : Entries heap pH l) {ht : Ptr} (hht : pH.ht = some ht) : (heap.arrays ht).isSome := by
  obtain ⟨buckets, harray, -⟩ := h.buckets ht hht
  rw [harray]
  rfl

/-! ## Counters -/

private theorem toInt_add_one {c : Int32} {n : ℕ} (hc : c.toInt = n) (hn : n + 1 < 2 ^ 31) :
    (c + 1).toInt = (n + 1 : ℕ) := by
  rw [Int32.toInt_add, Int32.toInt_one, hc]
  push_cast
  exact Int.bmod_eq_of_le (by omega) (by omega)

private theorem toNat_toUInt32 {c : Int32} {n : ℕ} (hc : c.toInt = n) : c.toUInt32.toNat = n := by
  have hpos : 0 ≤ c := by
    rw [Int32.le_iff_toInt_le, Int32.toInt_zero, hc]
    omega
  rw [Int32.toNat_toUInt32_of_le hpos, ← Int32.toNat_toInt, hc]
  rfl

private theorem ne_zero_iff {c : Int32} {n : ℕ} (hc : c.toInt = n) : c ≠ 0 ↔ n ≠ 0 := by
  rw [ne_eq, ← Int32.toInt_inj, hc, Int32.toInt_zero]
  omega

/-! ## Linking an element -/

/-- What comes of an element that is added in front of its bucket. -/
private theorem Buckets.enter {htsize : UInt32} {ht : List Bucket} {s t : List (Ptr × Entry δ)}
    {x : Ptr × Entry δ} {b : Bucket} (h : Buckets htsize ht (s ++ t))
    (hb : ht[slot htsize x]? = some b) (hlen : (s ++ t).length + 1 < 2 ^ 31)
    (hs : ∀ y ∈ s, slot htsize y ≠ slot htsize x)
    (hgrouped : Grouped ((s ++ x :: t).map (slot htsize))) :
    Buckets htsize (ht.set (slot htsize x) ⟨b.count + 1, some x.1⟩) (s ++ x :: t) := by
  refine ⟨by rw [List.length_set, h.length], h.pos, hgrouped, ?_⟩
  intro i b' hb'
  have hs' : s.filter (fun y => slot htsize y = slot htsize x) = [] := by
    apply List.filter_eq_nil_iff.mpr
    intro y hy
    simpa using hs y hy
  by_cases hi : slot htsize x = i
  · subst hi
    have hlt := (List.getElem?_eq_some_iff.mp hb).1
    rw [List.getElem?_set_self hlt] at hb'
    obtain rfl := (Option.some.inj hb').symm
    have hold := h.holds _ b hb
    have hentries : entriesOf htsize (slot htsize x) (s ++ x :: t) =
        x :: entriesOf htsize (slot htsize x) (s ++ t) := by
      simp [entriesOf, List.filter_append, hs']
    have hcount : (entriesOf htsize (slot htsize x) (s ++ t)).length + 1 < 2 ^ 31 := by
      have hle : (entriesOf htsize (slot htsize x) (s ++ t)).length ≤ (s ++ t).length :=
        List.length_filter_le ..
      omega
    rw [hentries]
    refine ⟨?_, by simp⟩
    rw [List.length_cons]
    exact toInt_add_one hold.count hcount
  · rw [List.getElem?_set_ne hi] at hb'
    have hentries : entriesOf htsize i (s ++ x :: t) = entriesOf htsize i (s ++ t) := by
      simp [entriesOf, List.filter_append, hi]
    rw [hentries]
    exact h.holds i b' hb'

/-- An element enters its bucket: it will come before the first entry of the bucket, or
before all entries when the bucket is empty. -/
theorem enterBucket_spec {arrays : Arrays} {pH : Hash} {ht : Ptr} {buckets : List Bucket}
    {l : List (Ptr × Entry δ)} (hht : pH.ht = some ht) (harray : arrays ht = some buckets)
    (h : Buckets pH.htsize buckets l) (x : Ptr × Entry δ) (hlen : l.length + 1 < 2 ^ 31) :
    ∃ s t pHead buckets', enterBucket arrays pH (some (slot pH.htsize x)) x.1 =
        some (pHead, Function.update arrays ht (some buckets')) ∧
      l = s ++ t ∧ ((∃ y ∈ t.head?, pHead = some y.1) ∨ pHead = none ∧ s = []) ∧
      Buckets pH.htsize buckets' (s ++ x :: t) := by
  have hslot : slot pH.htsize x < buckets.length := by
    rw [h.length]
    exact slotOf_lt h.pos _
  obtain ⟨b, hb⟩ : ∃ b, buckets[slot pH.htsize x]? = some b :=
    ⟨_, List.getElem?_eq_getElem hslot⟩
  have hholds := h.holds _ b hb
  have henter : enterBucket arrays pH (some (slot pH.htsize x)) x.1 =
      some (if b.count ≠ 0 then b.chain else none, Function.update arrays ht
        (some (buckets.set (slot pH.htsize x) ⟨b.count + 1, some x.1⟩))) := by
    simp [enterBucket, hht, harray, hb]
  obtain ⟨s, t, hl, hs, -⟩ := h.segment (slot pH.htsize x)
  cases hentries : entriesOf pH.htsize (slot pH.htsize x) l with
  | nil =>
      -- an empty bucket, whatever it points at
      have hzero : b.count = 0 := by
        by_contra hne
        rw [← ne_eq, ne_zero_iff hholds.count, hentries] at hne
        exact hne rfl
      have hnone : slot pH.htsize x ∉ l.map (slot pH.htsize) := by
        intro hmem
        obtain ⟨y, hy, hyx⟩ := List.mem_map.mp hmem
        have hmem' : y ∈ entriesOf pH.htsize (slot pH.htsize x) l :=
          List.mem_filter.mpr ⟨hy, by simpa using hyx⟩
        rw [hentries] at hmem'
        cases hmem'
      refine ⟨[], l, _, _, henter, rfl, Or.inr ⟨by simp [hzero], rfl⟩, ?_⟩
      exact h.enter (s := []) hb hlen (by simp) (h.grouped.cons_of_notMem hnone)
  | cons y m =>
      have hpos : b.count ≠ 0 := by
        rw [ne_zero_iff hholds.count, hentries]
        exact Nat.succ_ne_zero _
      have hchain : b.chain = some y.1 := hholds.chain y (by rw [hentries]; rfl)
      have hl' : l = s ++ (y :: m ++ t) := by
        rw [← hentries, ← List.append_assoc]
        exact hl
      refine ⟨s, y :: m ++ t, _, _, henter, hl', Or.inl ⟨y, rfl, by simp [hpos, hchain]⟩, ?_⟩
      have hy : slot pH.htsize y = slot pH.htsize x := by
        have hmem : y ∈ entriesOf pH.htsize (slot pH.htsize x) l := by simp [hentries]
        simpa using (List.mem_filter.mp hmem).2
      rw [hl'] at h hlen
      refine h.enter hb hlen hs ?_
      have hgrouped := h.grouped
      simp only [List.map_append, List.map_cons, List.cons_append, hy] at hgrouped ⊢
      exact hgrouped.insert_same

/-- An element is linked in before `pHead`, or before all elements. -/
theorem linkElement_spec {heap : Heap Ptr (Entry δ)} {pH : Hash} {s t : List (Ptr × Entry δ)}
    {x : Ptr × Entry δ} {pHead : Option Ptr} (hl : Linked heap pH.first (s ++ t))
    (hx : x.1 ∉ addrs (s ++ t)) {next prev : Option Ptr}
    (hnode : heap x.1 = some ⟨next, prev, x.2⟩)
    (hhead : (∃ y ∈ t.head?, pHead = some y.1) ∨ pHead = none ∧ s = []) :
    ∃ heap', linkElement heap pH pHead x.1 =
        some (heap', { pH with first := addr (s ++ x :: t).head? }) ∧
      Linked heap' (addr (s ++ x :: t).head?) (s ++ x :: t) ∧
      ∀ q ∉ addrs (s ++ x :: t), heap' q = heap q := by
  rcases hhead with ⟨y, hy, rfl⟩ | ⟨rfl, rfl⟩
  · obtain ⟨t, rfl⟩ := List.head?_eq_some_iff.mp hy
    have hynode := hl.node s y t rfl
    have hyx : y.1 ≠ x.1 := fun heq => hx (by simp [heq])
    rcases List.eq_nil_or_concat s with rfl | ⟨s, z, rfl⟩
    · -- `pHead` is the first of all elements
      have hlink : linkElement heap pH (some y.1) x.1 =
          some (Function.update (Function.update heap x.1 (some ⟨some y.1, none, x.2⟩))
            y.1 (some ⟨addr t.head?, some x.1, y.2⟩), { pH with first := some x.1 }) := by
        simp [linkElement, Heap.modify, hynode, hnode, hyx]
      refine ⟨_, hlink, hl.insert hx (v := x.2) ?_ ?_ ?_ ?_, ?_⟩
      · simp [Function.update_of_ne (Ne.symm hyx)]
      · simp
      · simp [hynode]
      · intro q hq _ hqy
        have hqx : q ≠ x.1 := fun heq => hx (heq ▸ hq)
        have hqy' : q ≠ y.1 := fun heq => hqy (by simp [heq])
        simp [Function.update_of_ne hqx, Function.update_of_ne hqy']
      · intro q hq
        simp only [List.nil_append, addrs_cons, List.mem_cons, not_or] at hq
        simp [Function.update_of_ne hq.1, Function.update_of_ne hq.2.1]
    · -- there is an element before `pHead`
      simp only [List.concat_eq_append] at hl hx hynode ⊢
      have hznode := hl.node s z (y :: t) (by simp)
      have hzx : z.1 ≠ x.1 := fun heq => hx (by simp [heq])
      have hzy : z.1 ≠ y.1 := addr_ne_of_nodup hl.nodup (by simp) (by simp)
      have hlink : linkElement heap pH (some y.1) x.1 =
          some (Function.update (Function.update (Function.update heap
            x.1 (some ⟨some y.1, some z.1, x.2⟩)) z.1 (some ⟨some x.1, addr s.getLast?, z.2⟩))
            y.1 (some ⟨addr t.head?, some x.1, y.2⟩), pH) := by
        simp [linkElement, Heap.modify, hynode, hznode, hnode, hyx, hzx, Ne.symm hzy]
      have hfirst : addr (s ++ [z] ++ x :: y :: t).head? = pH.first := by
        rw [hl.first_eq]
        cases s <;> simp
      refine ⟨_, by rw [hfirst]; exact hlink, hl.insert hx (v := x.2) ?_ ?_ ?_ ?_, ?_⟩
      · simp [Function.update_of_ne (Ne.symm hyx), Function.update_of_ne (Ne.symm hzx)]
      · simp [Function.update_of_ne hzy, hznode]
      · simp [hynode]
      · intro q hq hqz hqy
        have hqx : q ≠ x.1 := fun heq => hx (heq ▸ hq)
        have hqz' : q ≠ z.1 := fun heq => hqz (by simp [heq])
        have hqy' : q ≠ y.1 := fun heq => hqy (by simp [heq])
        simp [Function.update_of_ne hqx, Function.update_of_ne hqy', Function.update_of_ne hqz']
      · intro q hq
        simp only [addrs_append, addrs_cons, addrs_nil, List.mem_append, List.mem_cons,
          List.not_mem_nil, or_false, not_or] at hq
        simp [Function.update_of_ne hq.2.1, Function.update_of_ne hq.2.2.1,
          Function.update_of_ne hq.1.2]
  · -- `pHead` is NULL, and the element comes before all others
    have hfirst : pH.first = addr t.head? := hl.first_eq
    cases t with
    | nil =>
        have hlink : linkElement heap pH none x.1 =
            some (Function.update heap x.1 (some ⟨none, none, x.2⟩),
              { pH with first := some x.1 }) := by
          simp [linkElement, Heap.modify, hnode, hfirst]
        refine ⟨_, hlink, hl.insert hx (v := x.2) ?_ ?_ ?_ ?_, ?_⟩
        · simp
        · simp
        · simp
        · simp
        · intro q hq
          have hqx : q ≠ x.1 := fun heq => hq (by simp [heq])
          simp [Function.update_of_ne hqx]
    | cons y t =>
        have hynode := hl.node [] y t rfl
        have hyx : y.1 ≠ x.1 := fun heq => hx (by simp [heq])
        have hlink : linkElement heap pH none x.1 =
            some (Function.update (Function.update heap
              y.1 (some ⟨addr t.head?, some x.1, y.2⟩)) x.1 (some ⟨some y.1, none, x.2⟩),
              { pH with first := some x.1 }) := by
          -- the element itself is written twice, before and behind the write to `y`
          simp [linkElement, Heap.modify, hnode, hfirst, hynode, hyx,
            Function.update_comm (Ne.symm hyx)]
        refine ⟨_, hlink, hl.insert hx (v := x.2) ?_ ?_ ?_ ?_, ?_⟩
        · simp
        · simp
        · simp [Function.update_of_ne hyx, hynode]
        · intro q hq _ hqy
          have hqx : q ≠ x.1 := fun heq => hx (heq ▸ hq)
          have hqy' : q ≠ y.1 := fun heq => hqy (by simp [heq])
          simp [Function.update_of_ne hqx, Function.update_of_ne hqy']
        · intro q hq
          simp only [List.nil_append, addrs_cons, List.mem_cons, not_or] at hq
          simp [Function.update_of_ne hq.1, Function.update_of_ne hq.2.1]

/-- **Linking**: an allocated element that is not in a table comes into its bucket and onto
the list; nothing else on the heap changes. -/
theorem insertElement_spec {heap : HashHeap δ} {pH : Hash} {l : List (Ptr × Entry δ)}
    (h : Entries heap pH l) {x : Ptr × Entry δ} (hx : x.1 ∉ addrs l) {next prev : Option Ptr}
    (hnode : heap.elems x.1 = some ⟨next, prev, x.2⟩) (hlen : l.length + 1 < 2 ^ 31) :
    ∃ heap' pH' s t,
      insertElement heap pH (pH.ht.map fun _ => slot pH.htsize x) x.1 = some (heap', pH') ∧
      l = s ++ t ∧ Entries heap' pH' (s ++ x :: t) ∧ pH'.count = pH.count ∧
      pH'.htsize = pH.htsize ∧ pH'.ht = pH.ht ∧
      (∀ q ∉ addrs (s ++ x :: t), heap'.elems q = heap.elems q) ∧
      ∀ a, pH.ht ≠ some a → heap'.arrays a = heap.arrays a := by
  cases hht : pH.ht with
  | none =>
      have hhead : (∃ y ∈ l.head?, (none : Option Ptr) = some y.1) ∨
          (none : Option Ptr) = none ∧ ([] : List (Ptr × Entry δ)) = [] := Or.inr ⟨rfl, rfl⟩
      obtain ⟨elems, hlink, hlinked, hframe⟩ :=
        linkElement_spec (s := []) h.linked hx hnode hhead
      refine ⟨⟨elems, heap.arrays⟩, { pH with first := addr (x :: l).head? }, [], l, ?_, rfl,
        ⟨hlinked, ?_⟩, rfl, rfl, hht, hframe, fun _ _ => rfl⟩
      · simp [insertElement, enterBucket, hlink]
      · intro ht hht'
        rw [hht] at hht'
        cases hht'
  | some ht =>
      obtain ⟨buckets, harray, hbuckets⟩ := h.buckets ht hht
      obtain ⟨s, t, pHead, buckets', henter, rfl, hhead, hbuckets'⟩ :=
        enterBucket_spec hht harray hbuckets x hlen
      obtain ⟨elems, hlink, hlinked, hframe⟩ := linkElement_spec h.linked hx hnode hhead
      refine ⟨⟨elems, Function.update heap.arrays ht (some buckets')⟩,
        { pH with first := addr (s ++ x :: t).head? }, s, t, ?_, rfl, ⟨hlinked, ?_⟩, rfl, rfl,
        hht, hframe, ?_⟩
      · simp [insertElement, henter, hlink]
      · intro ht' hht'
        obtain rfl := Option.some.inj (hht.symm.trans hht')
        exact ⟨buckets', Function.update_self .., hbuckets'⟩
      · intro a ha
        exact Function.update_of_ne (fun heq => ha (congrArg some heq.symm)) ..

/-! ## Resizing -/

/-- A fresh bucket array, of a table without entries. -/
theorem buckets_replicate {htsize : UInt32} (hpos : 0 < htsize.toNat) :
    Buckets htsize (List.replicate htsize.toNat ⟨0, none⟩) ([] : List (Ptr × Entry δ)) := by
  refine ⟨by simp, hpos, trivial, ?_⟩
  intro i b hb
  obtain rfl := List.eq_of_mem_replicate (List.mem_of_getElem? hb)
  exact ⟨Int32.toInt_zero, by simp [entriesOf]⟩

/-- The loop of `rehash` moves the elements of a chain into the table, one by one. -/
theorem rehashLoop_spec {n : ℕ} {heap : HashHeap δ} {pH : Hash} {elem : Option Ptr}
    {l rest : List (Ptr × Entry δ)} (h : Entries heap pH l) (hht : pH.ht.isSome)
    (hrest : Chained heap.elems elem rest) (hdisj : ∀ x ∈ rest, x.1 ∉ addrs l)
    (hn : rest.length ≤ n) (hlen : l.length + rest.length < 2 ^ 31) :
    ∃ heap' pH' l', rehashLoop pH.htsize n heap pH elem = some (heap', pH') ∧
      l'.Perm (l ++ rest) ∧ Entries heap' pH' l' ∧ pH'.count = pH.count ∧
      pH'.htsize = pH.htsize ∧ pH'.ht = pH.ht ∧
      (∀ q ∉ addrs (l ++ rest), heap'.elems q = heap.elems q) ∧
      ∀ a, pH.ht ≠ some a → heap'.arrays a = heap.arrays a := by
  induction rest generalizing n heap pH elem l with
  | nil =>
      have helem : elem = none := hrest.first_eq
      subst helem
      refine ⟨heap, pH, l, ?_, by simp, h, rfl, rfl, rfl, fun _ _ => rfl, fun _ _ => rfl⟩
      cases n <;> rfl
  | cons x rest ih =>
      obtain ⟨n, rfl⟩ : ∃ m, n = m + 1 := ⟨n - 1, by simp at hn; omega⟩
      have helem : elem = some x.1 := hrest.first_eq
      subst helem
      obtain ⟨prev, hnode⟩ := hrest.node [] x rest rfl
      rw [List.length_cons] at hn hlen
      obtain ⟨heap₁, pH₁, s, t, hinsert, rfl, hentries, hcount, hsize, hht₁, hframe, harrays⟩ :=
        insertElement_spec h (hdisj x (List.mem_cons_self ..)) hnode (by omega)
      obtain ⟨ht, hht'⟩ := Option.isSome_iff_exists.mp hht
      rw [hht', Option.map_some] at hinsert
      have hxrest : x.1 ∉ addrs rest := (List.nodup_cons.mp hrest.nodup).1
      -- the rest of the chain is neither in the old table nor the moved element
      have houtside : ∀ y ∈ rest, y.1 ∉ addrs (s ++ x :: t) := by
        intro y hy hmem
        have hyl := hdisj y (List.mem_cons_of_mem _ hy)
        have hyx : y.1 ≠ x.1 := fun heq => hxrest (heq ▸ mem_addrs_of_mem hy)
        simp only [addrs_append, addrs_cons, List.mem_append, List.mem_cons] at hmem hyl
        tauto
      have hrest₁ : Chained heap₁.elems (addr rest.head?) rest :=
        hrest.tail.frame fun y hy => hframe y.1 (houtside y hy)
      obtain ⟨heap', pH', l', hloop, hperm, hentries', hcount', hsize', hht₂, hframe',
        harrays'⟩ := ih hentries (by rw [hht₁, hht]) hrest₁ houtside (n := n) (by omega)
          (by simp only [List.length_append, List.length_cons] at hlen ⊢; omega)
      refine ⟨heap', pH', l', ?_, ?_, hentries', hcount'.trans hcount, hsize'.trans hsize,
        hht₂.trans hht₁, ?_, ?_⟩
      · rw [hsize] at hloop
        simp only [rehashLoop, hnode, Option.bind_eq_bind, Option.bind_some]
        show (insertElement heap pH (some (slot pH.htsize x)) x.1).bind _ = _
        rw [hinsert]
        exact hloop
      · refine hperm.trans ?_
        simp only [List.append_assoc, List.cons_append]
        exact List.Perm.append_left s List.perm_middle.symm
      · intro q hq
        rw [hframe' q ?_, hframe q ?_]
        · simp only [addrs_append, addrs_cons, List.mem_append, List.mem_cons] at hq ⊢
          tauto
        · simp only [addrs_append, addrs_cons, List.mem_append, List.mem_cons] at hq ⊢
          tauto
      · intro a ha
        rw [harrays' a (hht₁.symm ▸ ha), harrays a ha]

/-- `sqlite3_free` releases the array of a table, if it has one. -/
theorem freeArray_spec {arrays : Arrays} {ht : Option Ptr}
    (hsome : ∀ a, ht = some a → (arrays a).isSome) :
    ∃ arrays', freeArray arrays ht = some arrays' ∧ (∀ a, ht = some a → arrays' a = none) ∧
      ∀ a, ht ≠ some a → arrays' a = arrays a := by
  cases ht with
  | none => exact ⟨arrays, rfl, by simp, fun _ _ => rfl⟩
  | some ht =>
      obtain ⟨buckets, harray⟩ := Option.isSome_iff_exists.mp (hsome ht rfl)
      refine ⟨Function.update arrays ht none, by rw [freeArray, harray]; rfl, ?_, ?_⟩
      · rintro a ⟨⟩
        exact Function.update_self ..
      · intro a ha
        exact Function.update_of_ne (fun heq => ha (congrArg some heq.symm)) ..

/-- What the code relies on: a new block is not one that is in use, and it has at least the
size that was asked for. -/
structure Malloc.Sound (malloc : Malloc) (heap : HashHeap δ) : Prop where
  elem : ∀ p, malloc.elem = some p → heap.elems p = none
  buckets : ∀ n a k, malloc.buckets n = some (a, k) → heap.arrays a = none ∧ n ≤ k

/-- **Resizing**: all elements come into buckets of a new array in place of the old one, or
nothing happens. -/
theorem rehash_spec {malloc : Malloc} {heap : HashHeap δ} {pH : Hash} {l : List (Ptr × Entry δ)}
    (h : Entries heap pH l)
    (hmalloc : ∀ n a k, malloc.buckets n = some (a, k) → heap.arrays a = none ∧ n ≤ k)
    {newSize : UInt32} (hsize : newSize ≠ 0)
    (hcount : l.length ≤ pH.count.toNat) (hlen : l.length < 2 ^ 31) :
    ∃ heap' pH' l' resized, rehash malloc heap pH newSize = some ((heap', pH'), resized) ∧
      l'.Perm l ∧ Entries heap' pH' l' ∧ pH'.count = pH.count ∧
      (resized = true → pH'.ht.isSome) ∧ (resized = false → pH' = pH) ∧
      (∀ q ∉ addrs l, heap'.elems q = heap.elems q) ∧
      Exchanged heap.arrays heap'.arrays pH.ht.toList pH'.ht.toList := by
  have hsame : ∃ heap' pH' l' resized,
      some ((heap, pH), false) = some ((heap', pH'), resized) ∧
      l'.Perm l ∧ Entries heap' pH' l' ∧ pH'.count = pH.count ∧
      (resized = true → pH'.ht.isSome) ∧ (resized = false → pH' = pH) ∧
      (∀ q ∉ addrs l, heap'.elems q = heap.elems q) ∧
      Exchanged heap.arrays heap'.arrays pH.ht.toList pH'.ht.toList :=
    ⟨heap, pH, l, false, rfl, .rfl, h, rfl, by simp, fun _ => rfl, fun _ _ => rfl, .refl ..⟩
  obtain ⟨size, hdef, hpos⟩ : ∃ size, (if newSize.toNat * sizeofHt > mallocSoftLimit then
      UInt32.ofNat (mallocSoftLimit / sizeofHt) else newSize) = size ∧ size ≠ 0 := by
    refine ⟨_, rfl, ?_⟩
    split_ifs
    · decide
    · exact hsize
  simp only [rehash, hdef]
  split_ifs with heq
  · exact hsame
  · cases hb : malloc.buckets size with
    | none => exact hsame
    | some block =>
        obtain ⟨newHt, k⟩ := block
        obtain ⟨hfree, hle⟩ := hmalloc size newHt k hb
        have hk : 0 < k.toNat := by
          have hle := UInt32.le_iff_toNat_le.mp hle
          have hne : size.toNat ≠ 0 := fun h0 => hpos (UInt32.toNat_inj.mp h0)
          omega
        obtain ⟨arrays, hold, hfreed, hkept⟩ :=
          freeArray_spec fun _ ha => h.array_isSome ha
        -- the new table is empty, and its array is clean
        obtain ⟨arrays₁, hclean⟩ : ∃ arrays₁, arrays₁ =
          Function.update arrays newHt (some (List.replicate k.toNat ⟨0, none⟩)) := ⟨_, rfl⟩
        have hempty : Entries (⟨heap.elems, arrays₁⟩ : HashHeap δ)
            { pH with ht := some newHt, htsize := k, first := none } [] := by
          refine ⟨linked_nil heap.elems, ?_⟩
          rintro ht ⟨⟩
          exact ⟨_, by rw [hclean]; exact Function.update_self .., buckets_replicate hk⟩
        obtain ⟨heap', pH', l', hloop, hperm, hentries, hcount', hsize', hht', hframe,
          harrays⟩ :=
          rehashLoop_spec hempty rfl h.linked.chained (by simp) hcount (by simpa using hlen)
        have hswap : Exchanged heap.arrays arrays₁ pH.ht.toList [newHt] := by
          rw [hclean]
          refine ⟨?_, ?_, ?_⟩
          · intro a ha _
            rwa [List.mem_singleton.mp ha]
          · intro a ha hne
            rw [Function.update_of_ne (by simpa using hne)]
            exact hfreed a (by simpa using ha)
          · intro a ha hne
            rw [Function.update_of_ne (by simpa using hne)]
            exact hkept a (by simpa using ha)
        refine ⟨heap', pH', l', true, ?_, hperm, hentries, hcount', ?_, by simp, hframe, ?_⟩
        · rw [hclean] at hloop
          simp only [hold, hloop, Option.bind_eq_bind, Option.bind_some]
          rfl
        · intro _
          rw [hht']
          rfl
        · rw [hht']
          refine hswap.within fun a ha => harrays a ?_
          simpa using fun heq => ha (by simp [heq])

/-! ## Looking an element up -/

/-- An element with the key, if there is one. -/
def lookup (l : List (Ptr × Entry δ)) (pKey : CString) : Option (Ptr × Entry δ) :=
  l.find? fun x => foldKey x.2.pKey = foldKey pKey

/-- The loop looks at the elements of a segment of the list. -/
theorem findLoop_spec {heap : Heap Ptr (Entry δ)} {first chain : Option Ptr}
    {s m t : List (Ptr × Entry δ)} (hl : Linked heap first (s ++ m ++ t))
    (hchain : ∀ x ∈ m.head?, chain = some x.1) (pKey : CString) :
    findLoop heap pKey m.length chain = some (addr (lookup m pKey)) := by
  induction m generalizing s chain with
  | nil => rfl
  | cons x m ih =>
      obtain rfl := hchain x rfl
      have hnode := hl.node s x (m ++ t) (by simp)
      simp only [List.length_cons, findLoop, hnode, Option.bind_eq_bind, Option.bind_some,
        sqlite3StrICmp_eq_zero_iff, lookup, List.find?_cons]
      by_cases hkey : foldKey x.2.pKey = foldKey pKey
      · simp [hkey]
      · simp only [hkey, if_false, decide_false]
        have hl' : Linked heap first ((s ++ [x]) ++ m ++ t) := by simpa using hl
        refine ih hl' ?_
        intro y hy
        obtain ⟨m, rfl⟩ := List.head?_eq_some_iff.mp hy
        rfl

/-- Only the entries of its bucket can have a key. -/
theorem lookup_entriesOf {htsize : UInt32} (l : List (Ptr × Entry δ)) (pKey : CString) :
    lookup (entriesOf htsize (slotOf htsize pKey) l) pKey = lookup l pKey := by
  rw [lookup, lookup, entriesOf, List.find?_filter]
  congr 1
  funext x
  rw [Bool.eq_iff_iff]
  simp only [decide_eq_true_eq, and_iff_right_iff_imp]
  exact fun hkey => slotOf_eq_of_foldKey hkey

/-- **Lookup**: the search finds the element with the key, in the table with buckets and
in the table without. -/
theorem findElementWithHash_spec {heap : HashHeap δ} {pH : Hash} {l : List (Ptr × Entry δ)}
    (h : Represents heap pH l) (pKey : CString) :
    ∃ k, findElementWithHash heap pH pKey = some (addr (lookup l pKey), k) ∧
      (pH.ht.isSome → k.toNat = slotOf pH.htsize pKey) := by
  cases hht : pH.ht with
  | none =>
      have hl : Linked heap.elems pH.first ([] ++ l ++ []) := by simpa using h.linked
      have hchain : ∀ x ∈ l.head?, pH.first = some x.1 := by
        intro x hx
        rw [h.linked.first_eq, hx]
        rfl
      refine ⟨0, ?_, by simp⟩
      simp [findElementWithHash, hht, h.count, findLoop_spec hl hchain pKey]
  | some ht =>
      obtain ⟨buckets, harray, hbuckets⟩ := h.buckets ht hht
      have hslot : slotOf pH.htsize pKey < buckets.length := by
        rw [hbuckets.length]
        exact slotOf_lt hbuckets.pos _
      obtain ⟨b, hb⟩ : ∃ b, buckets[slotOf pH.htsize pKey]? = some b :=
        ⟨_, List.getElem?_eq_getElem hslot⟩
      have hholds := hbuckets.holds _ b hb
      obtain ⟨s, t, hl, -, -⟩ := hbuckets.segment (slotOf pH.htsize pKey)
      have hlinked := h.linked
      rw [hl] at hlinked
      have hfind := findLoop_spec hlinked hholds.chain pKey
      rw [lookup_entriesOf] at hfind
      refine ⟨strHash pKey % pH.htsize, ?_, fun _ => rfl⟩
      simp only [findElementWithHash, hht, harray, Option.bind_eq_bind, Option.bind_some]
      show (buckets[slotOf pH.htsize pKey]?).bind _ = _
      rw [hb, Option.bind_some, toNat_toUInt32 hholds.count, hfind]
      rfl

end SmtCacheBenchmarks.Sqlite
