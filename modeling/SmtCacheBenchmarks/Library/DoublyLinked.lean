import Mathlib.Data.List.Nodup
import Mathlib.Logic.Function.Basic

/-!
# Doubly Linked Lists in a Heap

A heap of nodes, each with a pointer to the next and to the previous node, and what it
means that a list stands in the heap: every node of the list points at its neighbours.

- `Linked`: the list with these addresses and values starts at `first`
- `Linked.splice`: how a list changes when a few pointers do, with the cases
  `Linked.insert`, `Linked.erase` and `Linked.set`
- `Linked.frame`: a heap that agrees on the nodes of a list holds the list
- `Linked.unique`: a heap holds only one list at an address
- `Chained`: the same with the pointers to the next node only
-/

namespace SmtCacheBenchmarks.Library.DoublyLinked

universe u v

/-- A node; a pointer is `none` when it is NULL. -/
structure Node (ι : Type u) (α : Type v) where
  next : Option ι
  prev : Option ι
  val : α

/-- The nodes by address; `none` where none is allocated. -/
abbrev Heap (ι : Type u) (α : Type v) := ι → Option (Node ι α)

variable {ι : Type u} {α : Type v}

/-- Change the node at an address; nothing can be changed where none is. -/
def Heap.modify [DecidableEq ι] (h : Heap ι α) (p : ι) (f : Node ι α → Node ι α) :
    Option (Heap ι α) :=
  (h p).map fun n => Function.update h p (some (f n))

/-- Release the node at an address; none may be released twice. -/
def Heap.release [DecidableEq ι] (h : Heap ι α) (p : ι) : Option (Heap ι α) :=
  (h p).map fun _ => Function.update h p none

theorem Heap.modify_of_eq [DecidableEq ι] {h : Heap ι α} {p : ι} {n : Node ι α}
    (hn : h p = some n) (f : Node ι α → Node ι α) :
    h.modify p f = some (Function.update h p (some (f n))) := by
  rw [Heap.modify, hn]
  rfl

theorem Heap.release_of_eq [DecidableEq ι] {h : Heap ι α} {p : ι} {n : Node ι α}
    (hn : h p = some n) : h.release p = some (Function.update h p none) := by
  rw [Heap.release, hn]
  rfl

/-- The address of an element, NULL when there is none. -/
def addr (x : Option (ι × α)) : Option ι := x.map Prod.fst

@[simp] theorem addr_none : addr (none : Option (ι × α)) = none := rfl

@[simp] theorem addr_some (x : ι × α) : addr (some x) = some x.1 := rfl

/-- The addresses of a list. -/
def addrs (l : List (ι × α)) : List ι := l.map Prod.fst

@[simp] theorem addrs_nil : addrs ([] : List (ι × α)) = [] := rfl

@[simp] theorem addrs_cons (x : ι × α) (l : List (ι × α)) : addrs (x :: l) = x.1 :: addrs l := rfl

@[simp] theorem addrs_append (s t : List (ι × α)) : addrs (s ++ t) = addrs s ++ addrs t :=
  List.map_append ..

theorem mem_addrs_of_mem {x : ι × α} {l : List (ι × α)} (hx : x ∈ l) : x.1 ∈ addrs l :=
  List.mem_map_of_mem hx

theorem mem_addrs_of_addr_head {l : List (ι × α)} {p : ι} (hp : addr l.head? = some p) :
    p ∈ addrs l := by
  cases l with
  | nil => cases hp
  | cons x l => simpa using Or.inl (Option.some.inj hp).symm

theorem mem_addrs_of_addr_getLast {l : List (ι × α)} {p : ι} (hp : addr l.getLast? = some p) :
    p ∈ addrs l := by
  rcases List.eq_nil_or_concat l with rfl | ⟨s, x, rfl⟩
  · cases hp
  · simpa using Or.inr (Option.some.inj (by simpa using hp)).symm

/-- The list `l` stands in the heap and starts at `first`: its addresses are different, and
each node points at its neighbours. -/
structure Linked (h : Heap ι α) (first : Option ι) (l : List (ι × α)) : Prop where
  first_eq : first = addr l.head?
  nodup : (addrs l).Nodup
  node : ∀ s x t, l = s ++ x :: t → h x.1 = some ⟨addr t.head?, addr s.getLast?, x.2⟩

/-- The nodes of `l` follow one another from `first` on, whatever they are preceded by. -/
structure Chained (h : Heap ι α) (first : Option ι) (l : List (ι × α)) : Prop where
  first_eq : first = addr l.head?
  nodup : (addrs l).Nodup
  node : ∀ s x t, l = s ++ x :: t → ∃ p, h x.1 = some ⟨addr t.head?, p, x.2⟩

theorem linked_nil (h : Heap ι α) : Linked h none [] :=
  ⟨rfl, List.nodup_nil, by simp⟩

/-- A doubly linked list is a chain. -/
theorem Linked.chained {h : Heap ι α} {first : Option ι} {l : List (ι × α)}
    (hl : Linked h first l) : Chained h first l :=
  ⟨hl.first_eq, hl.nodup, fun s x t heq => ⟨_, hl.node s x t heq⟩⟩

/-- The rest of a chain is a chain. -/
theorem Chained.tail {h : Heap ι α} {first : Option ι} {x : ι × α} {l : List (ι × α)}
    (hl : Chained h first (x :: l)) : Chained h (addr l.head?) l := by
  refine ⟨rfl, (List.nodup_cons.mp hl.nodup).2, ?_⟩
  intro s y t heq
  exact hl.node (x :: s) y t (by rw [heq]; rfl)

theorem Chained.frame {h h' : Heap ι α} {first : Option ι} {l : List (ι × α)}
    (hl : Chained h first l) (hsame : ∀ x ∈ l, h' x.1 = h x.1) : Chained h' first l := by
  refine ⟨hl.first_eq, hl.nodup, ?_⟩
  intro s x t heq
  rw [hsame x (by simp [heq])]
  exact hl.node s x t heq

/-- **Frame**: a heap that agrees on the nodes of a list holds the list. -/
theorem Linked.frame {h h' : Heap ι α} {first : Option ι} {l : List (ι × α)}
    (hl : Linked h first l) (hsame : ∀ x ∈ l, h' x.1 = h x.1) : Linked h' first l := by
  refine ⟨hl.first_eq, hl.nodup, ?_⟩
  intro s x t heq
  rw [hsame x (by simp [heq])]
  exact hl.node s x t heq

/-- The nodes of a list are allocated. -/
theorem Linked.isSome {h : Heap ι α} {first : Option ι} {l : List (ι × α)}
    (hl : Linked h first l) {p : ι} (hp : p ∈ addrs l) : (h p).isSome := by
  obtain ⟨x, hx, rfl⟩ := List.mem_map.mp hp
  obtain ⟨s, t, heq⟩ := List.append_of_mem hx
  rw [hl.node s x t heq]
  rfl

/-- The value at an address of a list. -/
theorem Linked.eq_of_addr {h : Heap ι α} {first : Option ι} {l : List (ι × α)}
    (hl : Linked h first l) {x y : ι × α} (hx : x ∈ l) (hy : y ∈ l) (heq : x.1 = y.1) :
    x = y :=
  List.inj_on_of_nodup_map hl.nodup hx hy heq

/-! ## Changing a list -/

/-- An address of one part of a list is not one of the other part. -/
theorem addr_ne_of_nodup {s t : List (ι × α)} (h : (addrs (s ++ t)).Nodup) {p q : ι}
    (hp : p ∈ addrs s) (hq : q ∈ addrs t) : p ≠ q := by
  rw [addrs_append] at h
  exact fun heq => (List.nodup_append.mp h).2.2 p hp q hq heq

/-- **Splicing**: the segment `m` between `s` and `t` is replaced by `m'`.  Of the other
nodes only the last of `s` and the first of `t` change, to point at the new neighbours. -/
theorem Linked.splice {h h' : Heap ι α} {first : Option ι} {s m m' t : List (ι × α)}
    (hl : Linked h first (s ++ m ++ t)) (hnodup : (addrs (s ++ m' ++ t)).Nodup)
    (hmid : ∀ a x b, m' = a ++ x :: b →
      h' x.1 = some ⟨addr (b ++ t).head?, addr (s ++ a).getLast?, x.2⟩)
    (hprev : ∀ x ∈ s.getLast?,
      h' x.1 = (h x.1).map fun n => { n with next := addr (m' ++ t).head? })
    (hnext : ∀ x ∈ t.head?,
      h' x.1 = (h x.1).map fun n => { n with prev := addr (s ++ m').getLast? })
    (hsame : ∀ q ∈ addrs (s ++ t), addr s.getLast? ≠ some q → addr t.head? ≠ some q →
      h' q = h q) :
    Linked h' (addr (s ++ m' ++ t).head?) (s ++ m' ++ t) := by
  refine ⟨rfl, hnodup, ?_⟩
  intro s₁ x t₁ heq
  have hst : (addrs (s ++ t)).Nodup := by
    refine List.Nodup.sublist ?_ hnodup
    simp only [addrs_append, List.append_assoc]
    exact List.Sublist.append_left (List.sublist_append_right ..) _
  rw [List.append_assoc] at heq
  rcases List.append_eq_append_iff.mp heq with ⟨a, rfl, hrest⟩ | ⟨c, rfl, hrest⟩
  · rcases List.append_eq_append_iff.mp hrest with ⟨d, rfl, ht⟩ | ⟨b, rfl, hb⟩
    · -- the node is one of `t`
      have hold := hl.node (s ++ m ++ d) x t₁ (by rw [ht]; simp)
      have hx : x.1 ∈ addrs t := mem_addrs_of_mem (by simp [ht])
      by_cases hd : d = []
      · subst hd
        obtain rfl : t = x :: t₁ := by simpa using ht
        rw [hnext x (by simp), hold]
        simp
      · rw [hsame x.1 (by simp [hx]), hold, ← List.append_assoc,
          List.getLast?_append_of_ne_nil _ hd, List.getLast?_append_of_ne_nil _ hd]
        · intro hlast
          exact addr_ne_of_nodup hst (mem_addrs_of_addr_getLast hlast) hx rfl
        · intro hhead
          rw [ht, List.head?_append_of_ne_nil _ hd] at hhead
          rw [ht, addrs_append] at hst
          have hdx := (List.nodup_append.mp hst).2.1
          exact addr_ne_of_nodup hdx (mem_addrs_of_addr_head hhead) (by simp) rfl
    · -- the node is one of `m'`, unless it is the first of `t`
      cases b with
      | nil =>
          obtain rfl : t = x :: t₁ := by simpa using hb.symm
          have hold := hl.node (s ++ m) x t₁ (by simp)
          rw [hnext x (by simp), hold]
          simp
      | cons y b =>
          obtain ⟨rfl, rfl⟩ := List.cons.inj hb
          exact hmid a x b rfl
  · cases c with
    | nil =>
        cases m' with
        | nil =>
            obtain rfl : t = x :: t₁ := by simpa using hrest.symm
            have hold := hl.node (s₁ ++ m) x t₁ (by simp)
            rw [hnext x (by simp), hold]
            simp
        | cons y m' =>
            obtain ⟨rfl, rfl⟩ : x = y ∧ t₁ = m' ++ t := by simpa using hrest
            have hmid' := hmid [] x m' rfl
            simpa using hmid'
    | cons y c =>
        -- the node is one of `s`
        obtain ⟨rfl, rfl⟩ : x = y ∧ t₁ = c ++ (m' ++ t) := by simpa using hrest
        have hold := hl.node s₁ x (c ++ m ++ t) (by simp)
        have hx : x.1 ∈ addrs (s₁ ++ x :: c) := mem_addrs_of_mem (by simp)
        by_cases hc : c = []
        · subst hc
          rw [hprev x (by simp), hold]
          simp
        · rw [hsame x.1 (by simp), hold, List.append_assoc, List.head?_append_of_ne_nil _ hc,
            List.head?_append_of_ne_nil _ hc]
          · intro hlast
            have hsplit : s₁ ++ x :: c ++ t = (s₁ ++ [x]) ++ (c ++ t) := by simp
            rw [hsplit] at hst
            rw [List.append_cons, List.getLast?_append_of_ne_nil _ hc] at hlast
            have hxc : x.1 ∈ addrs (c ++ t) := by simp [mem_addrs_of_addr_getLast hlast]
            exact addr_ne_of_nodup hst (by simp) hxc rfl
          · intro hhead
            exact addr_ne_of_nodup hst hx (mem_addrs_of_addr_head hhead) rfl

/-- A node that was not in the list is linked in between `s` and `t`. -/
theorem Linked.insert {h h' : Heap ι α} {first : Option ι} {s t : List (ι × α)} {p : ι} {v : α}
    (hl : Linked h first (s ++ t)) (hp : p ∉ addrs (s ++ t))
    (hnew : h' p = some ⟨addr t.head?, addr s.getLast?, v⟩)
    (hprev : ∀ x ∈ s.getLast?, h' x.1 = (h x.1).map fun n => { n with next := some p })
    (hnext : ∀ x ∈ t.head?, h' x.1 = (h x.1).map fun n => { n with prev := some p })
    (hsame : ∀ q ∈ addrs (s ++ t), addr s.getLast? ≠ some q → addr t.head? ≠ some q →
      h' q = h q) :
    Linked h' (addr (s ++ (p, v) :: t).head?) (s ++ (p, v) :: t) := by
  have hlist : s ++ (p, v) :: t = s ++ [(p, v)] ++ t := by simp
  have hl' : Linked h first (s ++ [] ++ t) := by simpa using hl
  rw [hlist]
  apply hl'.splice
  · have hst := hl.nodup
    rw [addrs_append] at hp hst
    rw [List.append_assoc, addrs_append, List.singleton_append, addrs_cons]
    exact List.nodup_middle.mpr (List.nodup_cons.mpr ⟨hp, hst⟩)
  · intro a x b heq
    obtain ⟨rfl, rfl, rfl⟩ : a = [] ∧ x = (p, v) ∧ b = [] := by
      cases a with
      | nil => simpa [eq_comm] using heq
      | cons y a => simp at heq
    simpa using hnew
  · simpa using hprev
  · simpa using hnext
  · exact hsame

/-- A node is linked out. -/
theorem Linked.erase {h h' : Heap ι α} {first : Option ι} {s t : List (ι × α)} {x : ι × α}
    (hl : Linked h first (s ++ x :: t))
    (hprev : ∀ y ∈ s.getLast?, h' y.1 = (h y.1).map fun n => { n with next := addr t.head? })
    (hnext : ∀ y ∈ t.head?, h' y.1 = (h y.1).map fun n => { n with prev := addr s.getLast? })
    (hsame : ∀ q ∈ addrs (s ++ t), addr s.getLast? ≠ some q → addr t.head? ≠ some q →
      h' q = h q) :
    Linked h' (addr (s ++ t).head?) (s ++ t) := by
  have hlist : s ++ t = s ++ [] ++ t := by simp
  have hl' : Linked h first (s ++ [x] ++ t) := by simpa using hl
  rw [hlist]
  apply hl'.splice
  · have hst := hl.nodup
    rw [addrs_append, addrs_cons] at hst
    rw [List.append_nil, addrs_append]
    exact (List.nodup_cons.mp (List.nodup_middle.mp hst)).2
  · simp
  · simpa using hprev
  · simpa using hnext
  · exact hsame

/-- The value of a node is changed. -/
theorem Linked.set {h h' : Heap ι α} {first : Option ι} {s t : List (ι × α)} {x : ι × α} {v : α}
    (hl : Linked h first (s ++ x :: t))
    (hval : h' x.1 = (h x.1).map fun n => { n with val := v })
    (hsame : ∀ q ∈ addrs (s ++ t), h' q = h q) :
    Linked h' first (s ++ (x.1, v) :: t) := by
  have hnode := hl.node s x t rfl
  rw [hnode] at hval
  have hlist : s ++ (x.1, v) :: t = s ++ [(x.1, v)] ++ t := by simp
  have hfirst : first = addr (s ++ [(x.1, v)] ++ t).head? := by
    rw [hl.first_eq]
    cases s <;> simp
  have hl' : Linked h first (s ++ [x] ++ t) := by simpa using hl
  rw [hlist, hfirst]
  apply hl'.splice
  · simpa using hl.nodup
  · intro a y b heq
    obtain ⟨rfl, rfl, rfl⟩ : a = [] ∧ y = (x.1, v) ∧ b = [] := by
      cases a with
      | nil => simpa [eq_comm] using heq
      | cons z a => simp at heq
    simpa using hval
  · intro y hy
    obtain ⟨s, rfl⟩ := List.getLast?_eq_some_iff.mp hy
    rw [hsame y.1 (by simp), hl.node s y (x :: t) (by simp)]
    simp
  · intro y hy
    obtain ⟨t, rfl⟩ := List.head?_eq_some_iff.mp hy
    rw [hsame y.1 (by simp), hl.node (s ++ [x]) y t (by simp)]
    simp
  · exact fun q hq _ _ => hsame q hq

/-! ## What stands in a heap -/

/-- **Uniqueness**: a heap holds at most one chain at an address. -/
theorem Chained.unique {h : Heap ι α} {first : Option ι} {l l' : List (ι × α)}
    (hl : Chained h first l) (hl' : Chained h first l') : l = l' := by
  induction l generalizing first l' with
  | nil =>
      cases l' with
      | nil => rfl
      | cons x l' =>
          have hfirst := hl.first_eq.symm.trans hl'.first_eq
          cases hfirst
  | cons x l ih =>
      cases l' with
      | nil =>
          have hfirst := hl'.first_eq.symm.trans hl.first_eq
          cases hfirst
      | cons y l' =>
          have hfirst : x.1 = y.1 := Option.some.inj (hl.first_eq.symm.trans hl'.first_eq)
          obtain ⟨p, hx⟩ := hl.node [] x l rfl
          obtain ⟨q, hy⟩ := hl'.node [] y l' rfl
          -- the node is the same, and so are its value and the pointer to the rest
          rw [hfirst, hy] at hx
          obtain ⟨hnext, -, hval⟩ := Node.mk.inj (Option.some.inj hx)
          have hrest := hl'.tail
          rw [hnext] at hrest
          rw [ih hl.tail hrest, Prod.ext hfirst hval.symm]

end SmtCacheBenchmarks.Library.DoublyLinked
