import SmtCacheBenchmarks.Library.DoublyLinked
import SmtCacheBenchmarks.Text

/-!
# SQLite's Hash Table

Model of `hash.c` in the vendored `sqlite3.c`, the table that the trigger benchmark is
about: `populate_db` fills one with triggers, and the symbolic statement looks a name up
in it.  All entries are on one doubly linked list; a bucket is a pointer into that list and
a number of entries.

The functions work on a heap of `HashElem`s and bucket arrays, and they fail (`none`) where
the C code would follow a pointer that is NULL or freed, free a block that is not
allocated, index outside of a bucket array or violate an assertion.  What `sqlite3Malloc`
answers is a parameter.
-/

namespace SmtCacheBenchmarks.Sqlite

open SmtCacheBenchmarks.Library DoublyLinked

/-! ## Keys -/

/-- A C string, without the NUL behind its last character. -/
abbrev CString := { z : Text // '\x00' ∉ z }

/-- The table `sqlite3UpperToLower`. -/
def upperToLower (c : Char) : ℕ := if 65 ≤ c.toNat ∧ c.toNat ≤ 90 then c.toNat + 32 else c.toNat

/-- The loop of `sqlite3StrICmp`, which ends at the NUL of its first string. -/
def strICmpLoop : Text → Text → ℤ
  | [], b => (upperToLower '\x00' : ℤ) - upperToLower (b.headD '\x00')
  | a :: as, b =>
      let c := (upperToLower a : ℤ) - upperToLower (b.headD '\x00')
      if c ≠ 0 then c else strICmpLoop as b.tail

/-- `sqlite3StrICmp`. -/
def sqlite3StrICmp (zLeft zRight : CString) : ℤ := strICmpLoop zLeft.1 zRight.1

/-- `strHash`: Knuth's multiplicative hashing. -/
def strHash (z : CString) : UInt32 :=
  z.1.foldl (fun h c => (h + UInt32.ofNat (upperToLower c)) * 0x9e3779b1) 0

/-! ## The data structures -/

/-- An address that is not NULL. -/
abbrev Ptr := ℕ

/-- What a `HashElem` holds besides its links. -/
structure Entry (δ : Type) where
  data : δ
  pKey : CString
deriving DecidableEq

/-- `struct HashElem`; the data of an element are never NULL. -/
abbrev HashElem (δ : Type) := Node Ptr (Entry δ)

/-- `struct _ht`. -/
structure Bucket where
  count : Int32
  chain : Option Ptr
deriving DecidableEq

/-- The bucket arrays by address. -/
abbrev Arrays := Ptr → Option (List Bucket)

/-- The blocks that are allocated. -/
structure HashHeap (δ : Type) where
  elems : Heap Ptr (Entry δ)
  arrays : Arrays

/-- `struct Hash`. -/
structure Hash where
  htsize : UInt32
  count : UInt32
  first : Option Ptr
  ht : Option Ptr

/-- What `sqlite3Malloc` answers during one call: the address for a `HashElem`, and for a
requested number of buckets the address of the block and how many fit into it. -/
structure Malloc where
  elem : Option Ptr
  buckets : UInt32 → Option (Ptr × UInt32)

variable {δ : Type}

/-- `sqlite3HashInit`. -/
def sqlite3HashInit : Hash := { htsize := 0, count := 0, first := none, ht := none }

/-! ## Clearing a table -/

/-- `sqlite3_free` of a bucket array: NULL is ignored, and none may be freed twice. -/
def freeArray (arrays : Arrays) : Option Ptr → Option Arrays
  | none => some arrays
  | some ht => (arrays ht).map fun _ => Function.update arrays ht none

/-- The loop of `sqlite3HashClear`.  The number bounds the elements that are visited. -/
def clearLoop : ℕ → Heap Ptr (Entry δ) → Option Ptr → Option (Heap Ptr (Entry δ))
  | _, elems, none => some elems
  | 0, _, some _ => none
  | n + 1, elems, some elem => do
      let e ← elems elem
      let elems ← elems.release elem
      clearLoop n elems e.next

/-- `sqlite3HashClear`. -/
def sqlite3HashClear (heap : HashHeap δ) (pH : Hash) : Option (HashHeap δ × Hash) := do
  let arrays ← freeArray heap.arrays pH.ht
  let elems ← clearLoop pH.count.toNat heap.elems pH.first
  return (⟨elems, arrays⟩, sqlite3HashInit)

/-! ## Linking an element -/

/-- The first `if` of `insertElement`: the element that is first in the bucket, and the
arrays with the bucket updated. -/
def enterBucket (arrays : Arrays) (pH : Hash) (pEntry : Option ℕ) (pNew : Ptr) :
    Option (Option Ptr × Arrays) :=
  match pEntry with
  | none => some (none, arrays)
  | some i => do
      let ht ← pH.ht
      let buckets ← arrays ht
      let e ← buckets[i]?
      let pHead := if e.count ≠ 0 then e.chain else none
      let buckets := buckets.set i ⟨e.count + 1, some pNew⟩
      return (pHead, Function.update arrays ht (some buckets))

/-- The second `if` of `insertElement`: `pNew` comes before `pHead`, or before all
elements. -/
def linkElement (elems : Heap Ptr (Entry δ)) (pH : Hash) (pHead : Option Ptr) (pNew : Ptr) :
    Option (Heap Ptr (Entry δ) × Hash) :=
  match pHead with
  | some head => do
      let n ← elems head
      let elems ← elems.modify pNew fun e => { e with next := some head, prev := n.prev }
      match n.prev with
      | some p => do
          let elems ← elems.modify p fun e => { e with next := some pNew }
          let elems ← elems.modify head fun e => { e with prev := some pNew }
          return (elems, pH)
      | none => do
          let elems ← elems.modify head fun e => { e with prev := some pNew }
          return (elems, { pH with first := some pNew })
  | none => do
      let elems ← elems.modify pNew fun e => { e with next := pH.first }
      let elems ← match pH.first with
        | some f => elems.modify f fun e => { e with prev := some pNew }
        | none => some elems
      let elems ← elems.modify pNew fun e => { e with prev := none }
      return (elems, { pH with first := some pNew })

/-- `insertElement`; `pEntry` is the index of a bucket. -/
def insertElement (heap : HashHeap δ) (pH : Hash) (pEntry : Option ℕ) (pNew : Ptr) :
    Option (HashHeap δ × Hash) := do
  let (pHead, arrays) ← enterBucket heap.arrays pH pEntry pNew
  let (elems, pH) ← linkElement heap.elems pH pHead pNew
  return (⟨elems, arrays⟩, pH)

/-! ## Resizing -/

/-- `sizeof(struct _ht)`. -/
def sizeofHt : ℕ := 16

/-- `SQLITE_MALLOC_SOFT_LIMIT`. -/
def mallocSoftLimit : ℕ := 1024

/-- The loop of `rehash`, which links every element into its new bucket.  The number
bounds the elements that are visited. -/
def rehashLoop (newSize : UInt32) :
    ℕ → HashHeap δ → Hash → Option Ptr → Option (HashHeap δ × Hash)
  | _, heap, pH, none => some (heap, pH)
  | 0, _, _, some _ => none
  | n + 1, heap, pH, some elem => do
      let e ← heap.elems elem
      let h := strHash e.val.pKey % newSize
      let (heap, pH) ← insertElement heap pH (some h.toNat) elem
      rehashLoop newSize n heap pH e.next

/-- `rehash`; the `Bool` tells whether the table was resized. -/
def rehash (malloc : Malloc) (heap : HashHeap δ) (pH : Hash) (newSize : UInt32) :
    Option ((HashHeap δ × Hash) × Bool) :=
  let newSize := if newSize.toNat * sizeofHt > mallocSoftLimit then
    UInt32.ofNat (mallocSoftLimit / sizeofHt) else newSize
  if newSize = pH.htsize then some ((heap, pH), false)
  else
    match malloc.buckets newSize with
    | none => some ((heap, pH), false)
    | some (newHt, newSize) => do
        -- `sqlite3_free(pH->ht)`, and `memset` of the new array
        let arrays ← freeArray heap.arrays pH.ht
        let arrays := Function.update arrays newHt (some (List.replicate newSize.toNat ⟨0, none⟩))
        let r ← rehashLoop newSize pH.count.toNat ⟨heap.elems, arrays⟩
          { pH with ht := some newHt, htsize := newSize, first := none } pH.first
        return (r, true)

/-! ## Looking an element up -/

/-- The loop of `findElementWithHash`; `none` inside is the null element. -/
def findLoop (elems : Heap Ptr (Entry δ)) (pKey : CString) :
    ℕ → Option Ptr → Option (Option Ptr)
  | 0, _ => some none
  -- `assert( elem!=0 )`
  | _ + 1, none => none
  | count + 1, some elem => do
      let e ← elems elem
      if sqlite3StrICmp e.val.pKey pKey = 0 then return some elem
      else findLoop elems pKey count e.next

/-- `findElementWithHash`: the element, and the hash of the key. -/
def findElementWithHash (heap : HashHeap δ) (pH : Hash) (pKey : CString) :
    Option (Option Ptr × UInt32) :=
  match pH.ht with
  | some ht => do
      let h := strHash pKey % pH.htsize
      let buckets ← heap.arrays ht
      let pEntry ← buckets[h.toNat]?
      -- `count` is an `int`, and counts down to zero
      let elem ← findLoop heap.elems pKey pEntry.count.toUInt32.toNat pEntry.chain
      return (elem, h)
  | none => do
      let elem ← findLoop heap.elems pKey pH.count.toNat pH.first
      return (elem, 0)

/-- The data of an element, NULL for the null element. -/
def dataOf (heap : HashHeap δ) : Option Ptr → Option (Option δ)
  | none => some none
  | some elem => (heap.elems elem).map fun e => some e.val.data

/-- `sqlite3HashFind`. -/
def sqlite3HashFind (heap : HashHeap δ) (pH : Hash) (pKey : CString) : Option (Option δ) := do
  let (elem, _) ← findElementWithHash heap pH pKey
  dataOf heap elem

/-! ## Removing an element -/

/-- The part of `removeElementGivenHash` that takes the element off the list. -/
def unlinkElement (elems : Heap Ptr (Entry δ)) (pH : Hash) (elem : Ptr) :
    Option (Heap Ptr (Entry δ) × Hash) := do
  let e ← elems elem
  let (elems, pH) ← match e.prev with
    | some p => (elems.modify p fun n => { n with next := e.next }).map fun elems => (elems, pH)
    | none => some (elems, { pH with first := e.next })
  match e.next with
  | some q => (elems.modify q fun n => { n with prev := e.prev }).map fun elems => (elems, pH)
  | none => some (elems, pH)

/-- The part that takes it out of its bucket; `next` is `elem->next`. -/
def leaveBucket (arrays : Arrays) (pH : Hash) (elem : Ptr) (next : Option Ptr) (h : UInt32) :
    Option Arrays :=
  match pH.ht with
  | none => some arrays
  | some ht => do
      let buckets ← arrays ht
      let e ← buckets[h.toNat]?
      let chain := if e.chain = some elem then next else e.chain
      let count := e.count - 1
      -- `assert( pEntry->count>=0 )`
      if count < 0 then none
      else return Function.update arrays ht (some (buckets.set h.toNat ⟨count, chain⟩))

/-- `removeElementGivenHash`. -/
def removeElementGivenHash (heap : HashHeap δ) (pH : Hash) (elem : Ptr) (h : UInt32) :
    Option (HashHeap δ × Hash) := do
  let e ← heap.elems elem
  let (elems, pH) ← unlinkElement heap.elems pH elem
  let arrays ← leaveBucket heap.arrays pH elem e.next h
  let elems ← elems.release elem
  let pH := { pH with count := pH.count - 1 }
  if pH.count = 0 then
    -- `assert( pH->first==0 )`
    if pH.first ≠ none then none else sqlite3HashClear ⟨elems, arrays⟩ pH
  else return (⟨elems, arrays⟩, pH)

/-! ## Inserting -/

/-- The part of `sqlite3HashInsert` that resizes a table that has become too full. -/
def growTable (malloc : Malloc) (heap : HashHeap δ) (pH : Hash) :
    Option ((HashHeap δ × Hash) × Bool) :=
  if pH.count ≥ 10 ∧ pH.count > 2 * pH.htsize then rehash malloc heap pH (pH.count * 2)
  else some ((heap, pH), false)

/-- The last part of `sqlite3HashInsert`: a new element for a key that is not in the
table, whose hash is `h`. -/
def insertNew (malloc : Malloc) (heap : HashHeap δ) (pH : Hash) (pKey : CString) (data : δ)
    (h : UInt32) : Option ((HashHeap δ × Hash) × Option δ) :=
  match malloc.elem with
  | none => some ((heap, pH), some data)
  | some newElem => do
      let elems := Function.update heap.elems newElem (some ⟨none, none, data, pKey⟩)
      let heap := { heap with elems }
      let pH := { pH with count := pH.count + 1 }
      let ((heap, pH), resized) ← growTable malloc heap pH
      -- `assert( pH->htsize>0 )`
      if resized ∧ pH.htsize = 0 then none
      else
        let h := if resized then strHash pKey % pH.htsize else h
        let r ← insertElement heap pH (pH.ht.map fun _ => h.toNat) newElem
        return (r, none)

/-- `sqlite3HashInsert`: an entry is added or replaced, and removed when `data` is NULL.
The result is the data of an entry that was replaced or removed, or the new data when
there was no memory for them. -/
def sqlite3HashInsert (malloc : Malloc) (heap : HashHeap δ) (pH : Hash) (pKey : CString)
    (data : Option δ) : Option ((HashHeap δ × Hash) × Option δ) := do
  let (elem, h) ← findElementWithHash heap pH pKey
  match elem with
  | some elem => do
      let oldData ← heap.elems elem
      match data with
      | none => do
          let r ← removeElementGivenHash heap pH elem h
          return (r, some oldData.val.data)
      | some data => do
          let elems ← heap.elems.modify elem fun e => { e with val := ⟨data, pKey⟩ }
          return (({ heap with elems }, pH), some oldData.val.data)
  | none =>
      match data with
      | none => some ((heap, pH), none)
      | some data => insertNew malloc heap pH pKey data h

/-! ## Visiting all entries -/

/-- The loop `for(p=sqliteHashFirst(&h); p; p=sqliteHashNext(p))`: the data it visits.  The
number bounds the elements that are visited. -/
def sqliteHashEach (heap : HashHeap δ) : ℕ → Option Ptr → Option (List δ)
  | _, none => some []
  | 0, some _ => none
  | n + 1, some p => do
      let e ← heap.elems p
      let rest ← sqliteHashEach heap n e.next
      return e.val.data :: rest

/-! ## Keys without regard to case -/

/-- What two names of one object have in common. -/
def foldKey (z : CString) : List ℕ := z.1.map upperToLower

theorem upperToLower_nul : upperToLower '\x00' = 0 := by decide

theorem upperToLower_eq_zero_iff {c : Char} : upperToLower c = 0 ↔ c = '\x00' := by
  constructor
  · intro h
    have hnat : c.toNat = 0 := by
      unfold upperToLower at h
      split_ifs at h with hupper
      exact h
    exact Char.toNat_inj.mp hnat
  · rintro rfl
    exact upperToLower_nul

private theorem strICmpLoop_cons (c d : Char) (a b : Text) :
    strICmpLoop (c :: a) (d :: b) =
      if upperToLower c = upperToLower d then strICmpLoop a b
      else (upperToLower c : ℤ) - upperToLower d := by
  show (if (upperToLower c : ℤ) - upperToLower d ≠ 0 then (upperToLower c : ℤ) - upperToLower d
    else strICmpLoop a b) = _
  split_ifs <;> first | rfl | omega

private theorem strICmpLoop_eq_zero_iff {a b : Text} (ha : '\x00' ∉ a) (hb : '\x00' ∉ b) :
    strICmpLoop a b = 0 ↔ a.map upperToLower = b.map upperToLower := by
  induction a generalizing b with
  | nil =>
      cases b with
      | nil => simp [strICmpLoop]
      | cons c b =>
          have hc : upperToLower c ≠ 0 := by
            intro h
            exact hb (upperToLower_eq_zero_iff.mp h ▸ List.mem_cons_self ..)
          simp [strICmpLoop, upperToLower_nul, hc]
  | cons c a ih =>
      have hc : upperToLower c ≠ 0 := by
        intro h
        exact ha (upperToLower_eq_zero_iff.mp h ▸ List.mem_cons_self ..)
      rw [List.mem_cons, not_or] at ha
      cases b with
      | nil => simp [strICmpLoop, upperToLower_nul, hc]
      | cons d b =>
          rw [List.mem_cons, not_or] at hb
          rw [strICmpLoop_cons, List.map_cons, List.map_cons, List.cons.injEq]
          by_cases hcd : upperToLower c = upperToLower d
          · rw [if_pos hcd, ih ha.2 hb.2]
            simp [hcd]
          · have hdiff : (upperToLower c : ℤ) - upperToLower d ≠ 0 := by omega
            simp [hcd, hdiff]

/-- The comparison finds two keys equal when they differ in case at most. -/
theorem sqlite3StrICmp_eq_zero_iff {x y : CString} :
    sqlite3StrICmp x y = 0 ↔ foldKey x = foldKey y :=
  strICmpLoop_eq_zero_iff x.2 y.2

/-- Such keys have the same hash. -/
theorem strHash_eq_of_foldKey {x y : CString} (h : foldKey x = foldKey y) :
    strHash x = strHash y := by
  have hfold : ∀ z : CString, strHash z =
      (foldKey z).foldl (fun h c => (h + UInt32.ofNat c) * 0x9e3779b1) 0 := by
    intro z
    rw [foldKey, List.foldl_map]
    rfl
  rw [hfold, hfold, h]

end SmtCacheBenchmarks.Sqlite
