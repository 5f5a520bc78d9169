import SmtCacheBenchmarks.Sqlite.HashInvariant

/-!
# Operations of SQLite's Hash Table

The specifications of the functions that remove, replace and add an entry, of the one that
clears a table and of the loop that visits all entries.  Each keeps the invariant, and what
it does to the list of the entries is said up to the order of the list.
-/

namespace SmtCacheBenchmarks.Sqlite

open SmtCacheBenchmarks.Library DoublyLinked

variable {δ : Type}

/-! ## Removing an element -/

private theorem toInt_sub_one {c : Int32} {n : ℕ} (hc : c.toInt = (n + 1 : ℕ)) :
    (c - 1).toInt = n := by
  have hbound := Int32.toInt_lt c
  rw [Int32.toInt_sub, Int32.toInt_one, hc]
  push_cast
  rw [hc] at hbound
  push_cast at hbound
  have hsub : (n : ℤ) + 1 - 1 = n := by omega
  rw [hsub]
  exact Int.bmod_eq_of_le (by omega) (by omega)

/-- An element is taken off the list. -/
theorem unlinkElement_spec {heap : Heap Ptr (Entry δ)} {pH : Hash} {s t : List (Ptr × Entry δ)}
    {x : Ptr × Entry δ} (hl : Linked heap pH.first (s ++ x :: t)) :
    ∃ heap', unlinkElement heap pH x.1 =
        some (heap', { pH with first := addr (s ++ t).head? }) ∧
      Linked heap' (addr (s ++ t).head?) (s ++ t) ∧ heap' x.1 = heap x.1 ∧
      ∀ q ∉ addrs (s ++ t), heap' q = heap q := by
  have hnode := hl.node s x t rfl
  rcases List.eq_nil_or_concat s with rfl | ⟨s, z, rfl⟩
  · cases t with
    | nil =>
        refine ⟨heap, ?_, linked_nil heap, rfl, fun _ _ => rfl⟩
        simp [unlinkElement, hnode]
    | cons y t =>
        have hynode := hl.node [x] y t rfl
        have hxy : x.1 ≠ y.1 := addr_ne_of_nodup (s := [x]) hl.nodup (by simp) (by simp)
        refine ⟨Function.update heap y.1 (some ⟨addr t.head?, none, y.2⟩), ?_, hl.erase ?_ ?_ ?_,
          ?_, ?_⟩
        · simp [unlinkElement, Heap.modify, hnode, hynode]
        · simp
        · simp [hynode]
        · intro q _ _ hq
          have hqy : q ≠ y.1 := fun heq => hq (by simp [heq])
          simp [Function.update_of_ne hqy]
        · simp [Function.update_of_ne hxy]
        · intro q hq
          simp only [List.nil_append, addrs_cons, List.mem_cons, not_or] at hq
          simp [Function.update_of_ne hq.1]
  · simp only [List.concat_eq_append] at hl hnode ⊢
    have hznode := hl.node s z (x :: t) (by simp)
    have hzx : z.1 ≠ x.1 := addr_ne_of_nodup hl.nodup (by simp) (by simp)
    have hfirst : addr (s ++ [z] ++ t).head? = pH.first := by
      rw [hl.first_eq]
      cases s <;> simp
    cases t with
    | nil =>
        have hunlink : unlinkElement heap pH x.1 =
            some (Function.update heap z.1 (some ⟨none, addr s.getLast?, z.2⟩), pH) := by
          simp [unlinkElement, Heap.modify, hnode, hznode]
        refine ⟨_, by rw [hfirst]; exact hunlink, hl.erase ?_ ?_ ?_, ?_, ?_⟩
        · simp [hznode]
        · simp
        · intro q _ hq _
          have hqz : q ≠ z.1 := fun heq => hq (by simp [heq])
          simp [Function.update_of_ne hqz]
        · simp [Function.update_of_ne (Ne.symm hzx)]
        · intro q hq
          have hqz : q ≠ z.1 := fun heq => hq (by simp [heq])
          simp [Function.update_of_ne hqz]
    | cons y t =>
        have hynode := hl.node (s ++ [z] ++ [x]) y t (by simp)
        have hzy : z.1 ≠ y.1 := addr_ne_of_nodup hl.nodup (by simp) (by simp)
        have hxy : x.1 ≠ y.1 := by
          refine addr_ne_of_nodup (s := s ++ [z] ++ [x]) (t := y :: t) ?_ (by simp) (by simp)
          simpa using hl.nodup
        have hunlink : unlinkElement heap pH x.1 =
            some (Function.update (Function.update heap
              z.1 (some ⟨some y.1, addr s.getLast?, z.2⟩))
              y.1 (some ⟨addr t.head?, some z.1, y.2⟩), pH) := by
          simp [unlinkElement, Heap.modify, hnode, hznode, hynode, Ne.symm hzy]
        refine ⟨_, by rw [hfirst]; exact hunlink, hl.erase ?_ ?_ ?_, ?_, ?_⟩
        · simp [Function.update_of_ne hzy, hznode]
        · simp [hynode]
        · intro q _ hqz hqy
          have hqz' : q ≠ z.1 := fun heq => hqz (by simp [heq])
          have hqy' : q ≠ y.1 := fun heq => hqy (by simp [heq])
          simp [Function.update_of_ne hqz', Function.update_of_ne hqy']
        · simp [Function.update_of_ne (Ne.symm hzx), Function.update_of_ne hxy]
        · intro q hq
          have hqz : q ≠ z.1 := fun heq => hq (by simp [heq])
          have hqy : q ≠ y.1 := fun heq => hq (by simp [heq])
          simp [Function.update_of_ne hqz, Function.update_of_ne hqy]

/-- An element is taken out of its bucket: if the bucket points at it, the next element on
the list is the next of the bucket, or the bucket is empty. -/
theorem Buckets.leave {htsize : UInt32} {ht : List Bucket} {s t : List (Ptr × Entry δ)}
    {x : Ptr × Entry δ} {b : Bucket} (h : Buckets htsize ht (s ++ x :: t))
    (hnodup : (addrs (s ++ x :: t)).Nodup) (hb : ht[slot htsize x]? = some b) :
    0 ≤ b.count - 1 ∧
    Buckets htsize (ht.set (slot htsize x)
      ⟨b.count - 1, if b.chain = some x.1 then addr t.head? else b.chain⟩) (s ++ t) := by
  have hholds := h.holds _ b hb
  have hcount : (b.count - 1).toInt = (entriesOf htsize (slot htsize x) (s ++ t)).length := by
    refine toInt_sub_one ?_
    rw [hholds.count]
    simp [entriesOf, List.filter_append, Nat.add_assoc]
  refine ⟨?_, by rw [List.length_set, h.length], h.pos, ?_, ?_⟩
  · rw [Int32.le_iff_toInt_le, Int32.toInt_zero, hcount]
    omega
  · have hgrouped := h.grouped
    rw [List.map_append, List.map_cons] at hgrouped
    rw [List.map_append]
    exact hgrouped.erase
  · intro i b' hb'
    by_cases hi : slot htsize x = i
    · subst hi
      rw [List.getElem?_set_self (List.getElem?_eq_some_iff.mp hb).1] at hb'
      obtain rfl := (Option.some.inj hb').symm
      refine ⟨hcount, ?_⟩
      intro y hy
      have hchain := hholds.chain
      cases hs : entriesOf htsize (slot htsize x) s with
      | cons z m =>
          -- an element before `x` is the first of the bucket, and remains so
          have hz : z ∈ s := (List.mem_filter.mp (hs ▸ List.mem_cons_self ..)).1
          have hzx : z.1 ≠ x.1 := addr_ne_of_nodup hnodup (mem_addrs_of_mem hz) (by simp)
          have hcb : b.chain = some z.1 := by
            refine hchain z ?_
            rw [entriesOf, List.filter_append]
            show z ∈ (entriesOf htsize (slot htsize x) s ++ _).head?
            rw [hs]
            rfl
          have hyz : y = z := by
            rw [entriesOf, List.filter_append] at hy
            change y ∈ (entriesOf htsize (slot htsize x) s ++ _).head? at hy
            rw [hs] at hy
            exact (Option.some.inj hy).symm
          simp [hcb, hzx, hyz]
      | nil =>
          -- `x` is the first of the bucket, and the next one is the next on the list
          have hcb : b.chain = some x.1 := by
            refine hchain x ?_
            rw [entriesOf, List.filter_append]
            show x ∈ (entriesOf htsize (slot htsize x) s ++ _).head?
            rw [hs]
            simp
          have hyt : y ∈ (entriesOf htsize (slot htsize x) t).head? := by
            rw [entriesOf, List.filter_append] at hy
            change y ∈ (entriesOf htsize (slot htsize x) s ++ _).head? at hy
            rw [hs] at hy
            exact hy
          have hmem : y ∈ entriesOf htsize (slot htsize x) t := List.mem_of_head? hyt
          have hgrouped : Grouped ((x :: t).map (slot htsize)) := by
            have hall := h.grouped
            rw [List.map_append] at hall
            exact hall.of_append
          have hhead : (t.map (slot htsize)).head? = some (slot htsize x) := by
            refine hgrouped.1 (List.mem_map.mpr ⟨y, (List.mem_filter.mp hmem).1, ?_⟩)
            simpa using (List.mem_filter.mp hmem).2
          rw [List.head?_map, Option.map_eq_some_iff] at hhead
          obtain ⟨z, hz, hslot⟩ := hhead
          obtain ⟨t, rfl⟩ := List.head?_eq_some_iff.mp hz
          have hyz : y = z := by
            rw [entriesOf, List.filter_cons_of_pos (by simpa using hslot)] at hyt
            exact (Option.some.inj hyt).symm
          simp [hcb, hyz]
    · rw [List.getElem?_set_ne hi] at hb'
      have hentries : entriesOf htsize i (s ++ t) = entriesOf htsize i (s ++ x :: t) := by
        simp [entriesOf, List.filter_append, hi]
      rw [hentries]
      exact h.holds i b' hb'

/-- The bucket array, if there is one, after an element has left. -/
theorem leaveBucket_spec {arrays : Arrays} {pH : Hash} {s t : List (Ptr × Entry δ)}
    {x : Ptr × Entry δ}
    (h : ∀ ht, pH.ht = some ht →
      ∃ buckets, arrays ht = some buckets ∧ Buckets pH.htsize buckets (s ++ x :: t))
    (hnodup : (addrs (s ++ x :: t)).Nodup) {k : UInt32}
    (hk : pH.ht.isSome → k.toNat = slot pH.htsize x) :
    ∃ arrays', leaveBucket arrays pH x.1 (addr t.head?) k = some arrays' ∧
      (∀ ht, pH.ht = some ht →
        ∃ buckets, arrays' ht = some buckets ∧ Buckets pH.htsize buckets (s ++ t)) ∧
      ∀ a, pH.ht ≠ some a → arrays' a = arrays a := by
  cases hht : pH.ht with
  | none => exact ⟨arrays, by rw [leaveBucket, hht], by simp, fun _ _ => rfl⟩
  | some ht =>
      obtain ⟨buckets, harray, hbuckets⟩ := h ht hht
      have hslot : slot pH.htsize x < buckets.length := by
        rw [hbuckets.length]
        exact slotOf_lt hbuckets.pos _
      obtain ⟨b, hb⟩ : ∃ b, buckets[slot pH.htsize x]? = some b :=
        ⟨_, List.getElem?_eq_getElem hslot⟩
      obtain ⟨hpos, hleave⟩ := hbuckets.leave hnodup hb
      have hneg : ¬ b.count - 1 < 0 := Int32.not_lt.mpr hpos
      have heq : leaveBucket arrays pH x.1 (addr t.head?) k =
          some (Function.update arrays ht (some (buckets.set (slot pH.htsize x)
            ⟨b.count - 1, if b.chain = some x.1 then addr t.head? else b.chain⟩))) := by
        simp [leaveBucket, hht, harray, hk (by simp [hht]), hb, hneg]
      refine ⟨_, heq, ?_, ?_⟩
      · rintro ht' ⟨⟩
        exact ⟨_, Function.update_self .., hleave⟩
      · intro a ha
        exact Function.update_of_ne (fun heq => ha (congrArg some heq.symm)) ..

/-! ## Clearing a table -/

/-- The loop releases the elements of a chain. -/
theorem clearLoop_spec {n : ℕ} {heap : Heap Ptr (Entry δ)} {elem : Option Ptr}
    {l : List (Ptr × Entry δ)} (hl : Chained heap elem l) (hn : l.length ≤ n) :
    ∃ heap', clearLoop n heap elem = some heap' ∧ (∀ p ∈ addrs l, heap' p = none) ∧
      ∀ q ∉ addrs l, heap' q = heap q := by
  induction l generalizing n heap elem with
  | nil =>
      obtain rfl : elem = none := hl.first_eq
      refine ⟨heap, ?_, by simp, fun _ _ => rfl⟩
      cases n <;> rfl
  | cons x l ih =>
      obtain ⟨n, rfl⟩ : ∃ m, n = m + 1 := ⟨n - 1, by simp at hn; omega⟩
      obtain rfl : elem = some x.1 := hl.first_eq
      obtain ⟨prev, hnode⟩ := hl.node [] x l rfl
      have hx : x.1 ∉ addrs l := (List.nodup_cons.mp hl.nodup).1
      have hrest : Chained (Function.update heap x.1 none) (addr l.head?) l := by
        refine hl.tail.frame fun y hy => ?_
        have hyx : y.1 ≠ x.1 := fun heq => hx (heq ▸ mem_addrs_of_mem hy)
        simp [Function.update_of_ne hyx]
      obtain ⟨heap', hloop, hfreed, hframe⟩ := ih hrest (n := n) (by simpa using hn)
      refine ⟨heap', ?_, ?_, ?_⟩
      · simp [clearLoop, hnode, Heap.release, hloop]
      · intro p hp
        rw [addrs_cons, List.mem_cons] at hp
        rcases hp with rfl | hp
        · rw [hframe _ hx, Function.update_self]
        · exact hfreed p hp
      · intro q hq
        rw [addrs_cons, List.mem_cons, not_or] at hq
        rw [hframe q hq.2, Function.update_of_ne hq.1]

/-- **Clearing**: all elements and the array are released, and the table has no entries. -/
theorem sqlite3HashClear_spec {heap : HashHeap δ} {pH : Hash} {l : List (Ptr × Entry δ)}
    (h : Entries heap pH l) (hcount : l.length ≤ pH.count.toNat) :
    ∃ heap', sqlite3HashClear heap pH = some (heap', sqlite3HashInit) ∧
      Exchanged heap.elems heap'.elems (addrs l) [] ∧
      Exchanged heap.arrays heap'.arrays pH.ht.toList [] := by
  obtain ⟨arrays, hfree, hreleased, hkept⟩ :=
    freeArray_spec fun _ ha => h.array_isSome ha
  obtain ⟨elems, hloop, hfreed, hframe⟩ := clearLoop_spec h.linked.chained hcount
  refine ⟨⟨elems, arrays⟩, by simp [sqlite3HashClear, hfree, hloop], ?_, ?_⟩
  · exact ⟨by simp, fun p hp _ => hfreed p hp, fun p hp _ => hframe p hp⟩
  · exact ⟨by simp, fun a ha _ => hreleased a (by simpa using ha),
      fun a ha _ => hkept a (by simpa using ha)⟩

/-- **Removing**: the entry is no longer in the table, and its element is released. -/
theorem removeElementGivenHash_spec {heap : HashHeap δ} {pH : Hash}
    {s t : List (Ptr × Entry δ)} {x : Ptr × Entry δ} (h : Represents heap pH (s ++ x :: t))
    {k : UInt32} (hk : pH.ht.isSome → k.toNat = slot pH.htsize x) :
    ∃ heap' pH', removeElementGivenHash heap pH x.1 k = some (heap', pH') ∧
      Represents heap' pH' (s ++ t) ∧
      Exchanged heap.elems heap'.elems (addrs (s ++ x :: t)) (addrs (s ++ t)) ∧
      Exchanged heap.arrays heap'.arrays pH.ht.toList pH'.ht.toList := by
  have hnode := h.linked.node s x t rfl
  have hxst : x.1 ∉ addrs (s ++ t) := by
    have hnodup := h.linked.nodup
    rw [addrs_append, addrs_cons] at hnodup
    rw [addrs_append]
    exact (List.nodup_cons.mp (List.nodup_middle.mp hnodup)).1
  have hmem : ∀ q, q ∈ addrs (s ++ x :: t) ↔ q = x.1 ∨ q ∈ addrs (s ++ t) := by
    intro q
    simp only [addrs_append, addrs_cons, List.mem_append, List.mem_cons]
    tauto
  obtain ⟨elems, hunlink, hlinked, hx, hframe⟩ := unlinkElement_spec h.linked
  obtain ⟨arrays, hleave, hbuckets, harrays⟩ :=
    @leaveBucket_spec δ heap.arrays { pH with first := addr (s ++ t).head? } s t x h.buckets
      h.linked.nodup k hk
  have hcount : (pH.count - 1).toNat = (s ++ t).length := by
    have hlen := h.count
    simp only [List.length_append, List.length_cons] at hlen ⊢
    have hle : (1 : UInt32) ≤ pH.count := UInt32.le_iff_toNat_le.mpr (by
      rw [UInt32.toNat_one]
      omega)
    rw [UInt32.toNat_sub_of_le _ _ hle, UInt32.toNat_one]
    omega
  have hremoved : Exchanged heap.elems (Function.update elems x.1 none)
      (addrs (s ++ x :: t)) (addrs (s ++ t)) := by
    refine ⟨fun q hq hnot => absurd ((hmem q).mpr (.inr hq)) hnot, ?_, ?_⟩
    · intro q hq hnot
      rw [((hmem q).mp hq).resolve_right hnot, Function.update_self]
    · intro q hq hnot
      have hqx : q ≠ x.1 := fun heq => hq ((hmem q).mpr (.inl heq))
      rw [Function.update_of_ne hqx, hframe q hnot]
  have hlinked' : Linked (Function.update elems x.1 none) (addr (s ++ t).head?) (s ++ t) := by
    refine hlinked.frame fun y hy => ?_
    have hyx : y.1 ≠ x.1 := fun heq => hxst (heq ▸ mem_addrs_of_mem hy)
    rw [Function.update_of_ne hyx]
  have hentries : Entries (⟨Function.update elems x.1 none, arrays⟩ : HashHeap δ)
      { pH with first := addr (s ++ t).head?, count := pH.count - 1 } (s ++ t) :=
    ⟨hlinked', hbuckets⟩
  have hchanged : ∀ a, a ∉ pH.ht.toList → arrays a = heap.arrays a :=
    fun a ha => harrays a (by simpa using ha)
  have hkeys : (s ++ t).Pairwise fun y z => foldKey y.2.pKey ≠ foldKey z.2.pKey :=
    h.keys.sublist (List.Sublist.append_left (List.sublist_cons_self ..) s)
  have hremove : removeElementGivenHash heap pH x.1 k =
      (if pH.count - 1 = 0 then
        if addr (s ++ t).head? ≠ none then none
        else sqlite3HashClear ⟨Function.update elems x.1 none, arrays⟩
          { pH with first := addr (s ++ t).head?, count := pH.count - 1 }
      else some (⟨Function.update elems x.1 none, arrays⟩,
        { pH with first := addr (s ++ t).head?, count := pH.count - 1 })) := by
    simp only [removeElementGivenHash, hnode, hunlink, Option.bind_eq_bind, Option.bind_some,
      hleave, Heap.release, hx, Option.map_some]
    rfl
  rw [hremove]
  by_cases hzero : pH.count - 1 = 0
  · -- the last entry is gone, and the table is cleared
    have hnil : s ++ t = [] := by
      rw [hzero] at hcount
      exact List.eq_nil_of_length_eq_zero hcount.symm
    obtain ⟨heap', hclear, helems, hcleared⟩ := sqlite3HashClear_spec hentries hcount.ge
    rw [hnil] at hremoved helems hclear ⊢
    rw [if_pos hzero, if_neg (by simp)]
    refine ⟨heap', sqlite3HashInit, hclear, represents_init heap', ?_, ?_⟩
    · exact hremoved.within fun q _ => helems.frame q (by simp) (by simp)
    · exact .of_change hchanged hcleared
  · rw [if_neg hzero]
    refine ⟨_, _, rfl, ?_, hremoved, .of_frame hchanged⟩
    refine { hentries with count := hcount, keys := hkeys, empty := ?_ }
    intro hnil
    rw [hnil] at hcount
    exact absurd (UInt32.toNat_inj.mp hcount) hzero

/-! ## Replacing and adding an entry -/

/-- The data of an entry are replaced, and its key by one that is equal without regard to
case: the entry stays in its bucket. -/
theorem Represents.replace {heap : HashHeap δ} {pH : Hash} {s t : List (Ptr × Entry δ)}
    {x : Ptr × Entry δ} (h : Represents heap pH (s ++ x :: t)) {e : Entry δ}
    (hkey : foldKey e.pKey = foldKey x.2.pKey) :
    ∃ elems, heap.elems.modify x.1 (fun n => { n with val := e }) = some elems ∧
      Represents { heap with elems } pH (s ++ (x.1, e) :: t) ∧
      ∀ q, q ≠ x.1 → elems q = heap.elems q := by
  have hnode := h.linked.node s x t rfl
  have hslot : ∀ htsize, slot htsize (x.1, e) = slot htsize x :=
    fun htsize => slotOf_eq_of_foldKey hkey
  refine ⟨_, Heap.modify_of_eq hnode _, ?_, fun q hq => Function.update_of_ne hq ..⟩
  refine { linked := ?_, buckets := ?_, count := ?_, keys := ?_, empty := by simp }
  · refine h.linked.set (by simp [hnode]) ?_
    intro q hq
    have hqx : q ≠ x.1 := by
      rintro rfl
      have hnodup := h.linked.nodup
      rw [addrs_append, addrs_cons] at hnodup
      rw [addrs_append] at hq
      exact (List.nodup_cons.mp (List.nodup_middle.mp hnodup)).1 hq
    simp [Function.update_of_ne hqx]
  · intro ht hht
    obtain ⟨buckets, harray, hbuckets⟩ := h.buckets ht hht
    refine ⟨buckets, harray, hbuckets.length, hbuckets.pos, ?_, ?_⟩
    · have hgrouped := hbuckets.grouped
      simpa only [List.map_append, List.map_cons, hslot] using hgrouped
    · intro i b hb
      have hholds := hbuckets.holds i b hb
      by_cases hi : slot pH.htsize x = i
      · have hi' : slot pH.htsize (x.1, e) = i := (hslot _).trans hi
        refine ⟨?_, ?_⟩
        · rw [hholds.count]
          simp [entriesOf, List.filter_append, hi, hi']
        · intro y hy
          have hchain := hholds.chain
          simp only [entriesOf, List.filter_append, List.filter_cons, hi, hi', decide_true,
            if_true] at hy hchain
          cases hs : s.filter fun x => slot pH.htsize x = i with
          | nil =>
              rw [hs] at hy hchain
              obtain rfl : (x.1, e) = y := Option.some.inj hy
              exact hchain x rfl
          | cons z m =>
              rw [hs] at hy hchain
              obtain rfl : z = y := Option.some.inj hy
              exact hchain z rfl
      · have hi' : slot pH.htsize (x.1, e) ≠ i := fun heq => hi ((hslot _).symm.trans heq)
        have hentries : entriesOf pH.htsize i (s ++ (x.1, e) :: t) =
            entriesOf pH.htsize i (s ++ x :: t) := by
          simp [entriesOf, List.filter_append, hi, hi']
        rw [hentries]
        exact hholds
  · simpa using h.count
  · have hkeys := h.keys
    simpa only [List.pairwise_append, List.pairwise_cons, List.forall_mem_cons, hkey] using hkeys

/-- A table that has become too full may be resized. -/
theorem growTable_spec {malloc : Malloc} {heap : HashHeap δ} {pH : Hash}
    {l : List (Ptr × Entry δ)} (h : Entries heap pH l)
    (hmalloc : ∀ n a k, malloc.buckets n = some (a, k) → heap.arrays a = none ∧ n ≤ k)
    (hcount : pH.count.toNat = l.length + 1) (hlen : l.length + 1 < 2 ^ 31) :
    ∃ heap' pH' l' resized, growTable malloc heap pH = some ((heap', pH'), resized) ∧
      l'.Perm l ∧ Entries heap' pH' l' ∧ pH'.count = pH.count ∧
      (resized = true → pH'.ht.isSome) ∧ (resized = false → pH' = pH) ∧
      (∀ q ∉ addrs l, heap'.elems q = heap.elems q) ∧
      Exchanged heap.arrays heap'.arrays pH.ht.toList pH'.ht.toList := by
  unfold growTable
  split_ifs with hgrow
  · refine rehash_spec h hmalloc ?_ (by omega) (by omega)
    intro hzero
    have hge : 10 ≤ l.length + 1 := by
      rw [← hcount]
      exact UInt32.le_iff_toNat_le.mp hgrow.1
    have hmul : (l.length + 1) * 2 % 2 ^ 32 = 0 := by
      rw [← hcount]
      exact (UInt32.toNat_mul pH.count 2).symm.trans (congrArg UInt32.toNat hzero)
    rw [Nat.mod_eq_of_lt (by omega)] at hmul
    omega
  · exact ⟨heap, pH, l, false, rfl, .rfl, h, rfl, by simp, fun _ => rfl, fun _ _ => rfl,
      .refl ..⟩

/-- **Adding**: an entry with a new key comes into the table, and the table may be resized;
only without memory for the element nothing changes. -/
theorem insertNew_spec {malloc : Malloc} {heap : HashHeap δ} {pH : Hash}
    {l : List (Ptr × Entry δ)} (hmalloc : malloc.Sound heap) (h : Represents heap pH l)
    {e : Entry δ} (hkey : ∀ x ∈ l, foldKey x.2.pKey ≠ foldKey e.pKey) {k : UInt32}
    (hk : pH.ht.isSome → k.toNat = slotOf pH.htsize e.pKey) (hlen : l.length + 1 < 2 ^ 31) :
    (malloc.elem = none ∧
      insertNew malloc heap pH e.pKey e.data k = some ((heap, pH), some e.data)) ∨
    ∃ p heap' pH' l', malloc.elem = some p ∧
      insertNew malloc heap pH e.pKey e.data k = some ((heap', pH'), none) ∧
      l'.Perm ((p, e) :: l) ∧ Represents heap' pH' l' ∧
      Exchanged heap.elems heap'.elems (addrs l) (addrs l') ∧
      Exchanged heap.arrays heap'.arrays pH.ht.toList pH'.ht.toList := by
  cases helem : malloc.elem with
  | none =>
      refine Or.inl ⟨rfl, ?_⟩
      simp [insertNew, helem]
  | some p =>
      have hp : heap.elems p = none := hmalloc.elem p helem
      have hpl : p ∉ addrs l := by
        intro hmem
        have hsome := h.linked.isSome hmem
        rw [hp] at hsome
        cases hsome
      have hcount : (pH.count + 1).toNat = l.length + 1 := by
        rw [UInt32.toNat_add, UInt32.toNat_one, h.count, Nat.mod_eq_of_lt (by omega)]
      -- the element is filled, and counted
      have hentries : Entries
          { heap with elems := Function.update heap.elems p (some ⟨none, none, e⟩) }
          { pH with count := pH.count + 1 } l := by
        refine ⟨h.linked.frame fun x hx => ?_, h.buckets⟩
        have hxp : x.1 ≠ p := fun heq => hpl (heq ▸ mem_addrs_of_mem hx)
        simp [Function.update_of_ne hxp]
      obtain ⟨heap₂, pH₂, l₂, resized, hgrow, hperm, hentries₂, hcount₂, hresized, hkept,
        hframe₂, harrays₂⟩ := growTable_spec hentries hmalloc.buckets hcount hlen
      have hpl₂ : p ∉ addrs l₂ := fun hmem => hpl ((hperm.map Prod.fst).mem_iff.mp hmem)
      have hnode : heap₂.elems p = some ⟨none, none, e⟩ := by
        rw [hframe₂ p hpl]
        exact Function.update_self ..
      have hlen₂ : l₂.length + 1 < 2 ^ 31 := by rw [hperm.length_eq]; exact hlen
      obtain ⟨heap', pH', s, t, hinsert, rfl, hentries', hcount', hsize', hht', hframe',
        harrays'⟩ := insertElement_spec hentries₂ (x := (p, e)) hpl₂ hnode hlen₂
      have hperm' : (s ++ (p, e) :: t).Perm ((p, e) :: l) :=
        List.perm_middle.trans (hperm.cons _)
      have hmem : ∀ q, q ∈ addrs (s ++ (p, e) :: t) ↔ q = p ∨ q ∈ addrs l := by
        intro q
        rw [addrs, (hperm'.map Prod.fst).mem_iff]
        simp [addrs]
      -- the bucket of the element, in the new array or in the old one
      have hslot : (pH₂.ht.map fun _ => (if resized then strHash e.pKey % pH₂.htsize
          else k).toNat) = pH₂.ht.map fun _ => slot pH₂.htsize (p, e) := by
        cases hres : resized with
        | true => rfl
        | false =>
            obtain rfl := hkept hres
            cases hht : pH.ht with
            | none => rfl
            | some ht => exact congrArg some (hk (by simp [hht]))
      have hassert : ¬ (resized = true ∧ pH₂.htsize = 0) := by
        rintro ⟨hres, hzero⟩
        obtain ⟨ht, hht⟩ := Option.isSome_iff_exists.mp (hresized hres)
        obtain ⟨buckets, -, hbuckets⟩ := hentries₂.buckets ht hht
        have hpos := hbuckets.pos
        rw [hzero] at hpos
        exact absurd hpos (by decide)
      refine Or.inr ⟨p, heap', pH', s ++ (p, e) :: t, rfl, ?_, hperm', ?_, ?_, ?_⟩
      · simp only [insertNew, helem, Option.bind_eq_bind, hgrow, Option.bind_some,
          if_neg hassert, hslot, hinsert]
        rfl
      · refine { hentries' with count := ?_, keys := ?_, empty := by simp }
        · rw [hcount', hcount₂, hcount, hperm'.length_eq, List.length_cons]
        · refine (hperm'.pairwise_iff fun hxy => Ne.symm hxy).mpr ?_
          exact List.pairwise_cons.mpr ⟨fun x hx => Ne.symm (hkey x hx), h.keys⟩
      · refine ⟨?_, fun q hq hnot => absurd ((hmem q).mpr (.inr hq)) hnot, ?_⟩
        · intro q hq hnot
          rw [((hmem q).mp hq).resolve_right hnot]
          exact hp
        · intro q hq hnot
          have hqp : q ≠ p := fun heq => hnot ((hmem q).mpr (.inl heq))
          rw [hframe' q hnot, hframe₂ q hq]
          exact Function.update_of_ne hqp ..
      · rw [hht']
        exact harrays₂.within fun a ha => harrays' a (by simpa using ha)

/-! ## The interface -/

/-- What a successful lookup says about the list. -/
theorem lookup_eq_some {l : List (Ptr × Entry δ)} {pKey : CString} {x : Ptr × Entry δ}
    (h : lookup l pKey = some x) : foldKey x.2.pKey = foldKey pKey ∧ ∃ s t, l = s ++ x :: t := by
  obtain ⟨hx, s, t, rfl, -⟩ := List.find?_eq_some_iff_append.mp h
  exact ⟨by simpa using hx, s, t, rfl⟩

/-- What an unsuccessful lookup says about the list. -/
theorem lookup_eq_none {l : List (Ptr × Entry δ)} {pKey : CString} (h : lookup l pKey = none) :
    ∀ x ∈ l, foldKey x.2.pKey ≠ foldKey pKey := by
  intro x hx
  simpa using List.find?_eq_none.mp h x hx

/-- `sqlite3HashFind` gives the data of the entry with the key. -/
theorem sqlite3HashFind_spec {heap : HashHeap δ} {pH : Hash} {l : List (Ptr × Entry δ)}
    (h : Represents heap pH l) (pKey : CString) :
    sqlite3HashFind heap pH pKey = some ((lookup l pKey).map fun x => x.2.data) := by
  obtain ⟨k, hfind, -⟩ := findElementWithHash_spec h pKey
  cases hl : lookup l pKey with
  | none => simp [sqlite3HashFind, hfind, hl, dataOf]
  | some x =>
      obtain ⟨-, s, t, rfl⟩ := lookup_eq_some hl
      have hnode := h.linked.node s x t rfl
      simp [sqlite3HashFind, hfind, hl, dataOf, hnode]

/-- `sqlite3HashInsert` with data, for a key that is in the table. -/
theorem sqlite3HashInsert_replaces (malloc : Malloc) {heap : HashHeap δ} {pH : Hash}
    {s t : List (Ptr × Entry δ)} {x : Ptr × Entry δ} {pKey : CString}
    (h : Represents heap pH (s ++ x :: t)) (hfound : lookup (s ++ x :: t) pKey = some x)
    (data : δ) :
    ∃ elems, sqlite3HashInsert malloc heap pH pKey (some data) =
        some (({ heap with elems }, pH), some x.2.data) ∧
      Represents { heap with elems } pH (s ++ (x.1, ⟨data, pKey⟩) :: t) ∧
      ∀ q, q ≠ x.1 → elems q = heap.elems q := by
  obtain ⟨k, hfind, -⟩ := findElementWithHash_spec h pKey
  have hkey := (lookup_eq_some hfound).1.symm
  obtain ⟨elems, hmodify, hrepresents, hframe⟩ := h.replace (e := ⟨data, pKey⟩) hkey
  have hnode := h.linked.node s x t rfl
  refine ⟨elems, ?_, hrepresents, hframe⟩
  simp only [sqlite3HashInsert, hfind, hfound, addr_some, Option.bind_eq_bind, Option.bind_some,
    hnode, hmodify]
  rfl

/-- `sqlite3HashInsert` without data, for a key that is in the table. -/
theorem sqlite3HashInsert_removes (malloc : Malloc) {heap : HashHeap δ} {pH : Hash}
    {s t : List (Ptr × Entry δ)} {x : Ptr × Entry δ} {pKey : CString}
    (h : Represents heap pH (s ++ x :: t)) (hfound : lookup (s ++ x :: t) pKey = some x) :
    ∃ heap' pH', sqlite3HashInsert malloc heap pH pKey none =
        some ((heap', pH'), some x.2.data) ∧
      Represents heap' pH' (s ++ t) ∧
      Exchanged heap.elems heap'.elems (addrs (s ++ x :: t)) (addrs (s ++ t)) ∧
      Exchanged heap.arrays heap'.arrays pH.ht.toList pH'.ht.toList := by
  obtain ⟨k, hfind, hk⟩ := findElementWithHash_spec h pKey
  have hslot : slotOf pH.htsize pKey = slot pH.htsize x :=
    slotOf_eq_of_foldKey (lookup_eq_some hfound).1.symm
  obtain ⟨heap', pH', hremove, hrepresents, helems, harrays⟩ :=
    removeElementGivenHash_spec h fun hht => (hk hht).trans hslot
  have hnode := h.linked.node s x t rfl
  refine ⟨heap', pH', ?_, hrepresents, helems, harrays⟩
  simp only [sqlite3HashInsert, hfind, hfound, addr_some, Option.bind_eq_bind, Option.bind_some,
    hnode, hremove]
  rfl

/-- `sqlite3HashInsert` without data, for a key that is not in the table. -/
theorem sqlite3HashInsert_ignores {malloc : Malloc} {heap : HashHeap δ} {pH : Hash}
    {l : List (Ptr × Entry δ)} {pKey : CString} (h : Represents heap pH l)
    (hmissing : lookup l pKey = none) :
    sqlite3HashInsert malloc heap pH pKey none = some ((heap, pH), none) := by
  obtain ⟨k, hfind, -⟩ := findElementWithHash_spec h pKey
  simp [sqlite3HashInsert, hfind, hmissing]

/-- `sqlite3HashInsert` with data, for a key that is not in the table. -/
theorem sqlite3HashInsert_adds {malloc : Malloc} {heap : HashHeap δ} {pH : Hash}
    {l : List (Ptr × Entry δ)} {pKey : CString} (hmalloc : malloc.Sound heap)
    (h : Represents heap pH l) (hmissing : lookup l pKey = none) (hlen : l.length + 1 < 2 ^ 31)
    (data : δ) :
    (malloc.elem = none ∧
      sqlite3HashInsert malloc heap pH pKey (some data) = some ((heap, pH), some data)) ∨
    ∃ p heap' pH' l', malloc.elem = some p ∧
      sqlite3HashInsert malloc heap pH pKey (some data) = some ((heap', pH'), none) ∧
      l'.Perm ((p, ⟨data, pKey⟩) :: l) ∧ Represents heap' pH' l' ∧
      Exchanged heap.elems heap'.elems (addrs l) (addrs l') ∧
      Exchanged heap.arrays heap'.arrays pH.ht.toList pH'.ht.toList := by
  obtain ⟨k, hfind, hk⟩ := findElementWithHash_spec h pKey
  have hinsert : sqlite3HashInsert malloc heap pH pKey (some data) =
      insertNew malloc heap pH pKey data k := by
    simp [sqlite3HashInsert, hfind, hmissing]
  rw [hinsert]
  exact insertNew_spec (e := ⟨data, pKey⟩) hmalloc h (lookup_eq_none hmissing) hk hlen

/-- The loop over all entries visits the data of the list, one after another. -/
theorem sqliteHashEach_spec {n : ℕ} {heap : HashHeap δ} {first : Option Ptr}
    {l : List (Ptr × Entry δ)} (hl : Chained heap.elems first l) (hn : l.length ≤ n) :
    sqliteHashEach heap n first = some (l.map fun x => x.2.data) := by
  induction l generalizing n first with
  | nil =>
      obtain rfl : first = none := hl.first_eq
      cases n <;> rfl
  | cons x l ih =>
      obtain ⟨n, rfl⟩ : ∃ m, n = m + 1 := ⟨n - 1, by simp at hn; omega⟩
      obtain rfl : first = some x.1 := hl.first_eq
      obtain ⟨prev, hnode⟩ := hl.node [] x l rfl
      have hrest := ih hl.tail (n := n) (by simpa using hn)
      simp [sqliteHashEach, hnode, hrest]

end SmtCacheBenchmarks.Sqlite
