import Mathlib.Data.List.Nodup
import Mathlib.Logic.Function.Basic

/-!
# Singly Linked Lists

Nodes that have a pointer to the next node.  The heap appears only through `next`: for the
address of a node it gives the pointer that stands in the node, and `none` when there is no
node.

- `Chain`: the nodes of the list follow one another from `first` on
- `walk_spec`: a loop along the pointers visits the list, and `eq_none_of_walk`
- `linkTo_spec`: the loop that looks for the pointer to a node finds it, in the head or in
  the node before
- `Chain.unlink`: a node is taken off by changing this pointer
-/

namespace SmtCacheBenchmarks.Library.SinglyLinked

universe u

variable {ι : Type u}

/-- The nodes of the list follow one another from `first` on, and the last one points to
NULL. -/
def Chain (next : ι → Option (Option ι)) : Option ι → List ι → Prop
  | first, [] => first = none
  | first, p :: l => first = some p ∧ ∃ q, next p = some q ∧ Chain next q l

/-- **Frame**: only the nodes of the list count. -/
theorem Chain.frame {next next' : ι → Option (Option ι)} {first : Option ι} {l : List ι}
    (h : Chain next first l) (hsame : ∀ p ∈ l, next' p = next p) : Chain next' first l := by
  induction l generalizing first with
  | nil => exact h
  | cons p l ih =>
      obtain ⟨hfirst, q, hq, htail⟩ := h
      refine ⟨hfirst, q, ?_, ih htail fun p' hp' => hsame p' (List.mem_cons_of_mem _ hp')⟩
      rw [hsame p List.mem_cons_self, hq]

/-- The nodes of the list are allocated. -/
theorem Chain.isSome {next : ι → Option (Option ι)} {first : Option ι} {l : List ι}
    (h : Chain next first l) {p : ι} (hp : p ∈ l) : (next p).isSome := by
  induction l generalizing first with
  | nil => cases hp
  | cons p' l ih =>
      obtain ⟨-, q, hq, htail⟩ := h
      rcases List.mem_cons.mp hp with rfl | hmem
      · rw [hq]
        rfl
      · exact ih htail hmem

/-! ## Walking along the list -/

/-- The nodes that a loop visits.  The number bounds them. -/
def walk (next : ι → Option (Option ι)) : ℕ → Option ι → Option (List ι)
  | _, none => some []
  | 0, some _ => none
  | n + 1, some p => do
      let q ← next p
      let rest ← walk next n q
      return p :: rest

theorem walk_spec {next : ι → Option (Option ι)} {first : Option ι} {l : List ι}
    (h : Chain next first l) {n : ℕ} (hn : l.length ≤ n) : walk next n first = some l := by
  induction l generalizing first n with
  | nil =>
      obtain rfl : first = none := h
      cases n <;> rfl
  | cons p l ih =>
      obtain ⟨rfl, q, hq, htail⟩ := h
      obtain ⟨n, rfl⟩ : ∃ m, n = m + 1 := Nat.exists_eq_add_one_of_ne_zero (by
        rintro rfl
        exact absurd hn (Nat.not_succ_le_zero _))
      have hrest := ih htail (Nat.le_of_succ_le_succ hn)
      simp [walk, hq, hrest]

/-- A loop that visits no node starts at NULL. -/
theorem eq_none_of_walk {next : ι → Option (Option ι)} {n : ℕ} {first : Option ι}
    (h : walk next n first = some []) : first = none := by
  cases first with
  | none => rfl
  | some p =>
      cases n with
      | zero => cases h
      | succ n =>
          simp only [walk, Option.bind_eq_bind, Option.bind_eq_some_iff] at h
          obtain ⟨q, -, rest, -, hcons⟩ := h
          cases hcons

/-! ## The pointer to a node -/

/-- A place where a pointer stands: the head of the list, or a node. -/
inductive Link (ι : Type u) where
  | head
  | next (p : ι)
deriving DecidableEq

/-- `for(pp=&head; *pp!=target; pp=&(*pp)->pNext)`, from the place `pp` on, where `first`
stands.  It fails where it would follow NULL.  The number bounds the nodes that are
visited. -/
def linkTo [DecidableEq ι] (next : ι → Option (Option ι)) (target : ι) :
    ℕ → Link ι → Option ι → Option (Link ι)
  | _, _, none => none
  | 0, pp, some q => if q = target then some pp else none
  | n + 1, pp, some q =>
      if q = target then some pp
      else (next q).bind fun first => linkTo next target n (.next q) first

/-- The place of the pointer to what comes behind a list of nodes. -/
def Link.behind (pp : Link ι) (s : List ι) : Link ι := (s.getLast?.map Link.next).getD pp

/-- **The loop ends** at the pointer to the node that it looks for. -/
theorem linkTo_spec [DecidableEq ι] {next : ι → Option (Option ι)} {target : ι}
    {first : Option ι} {s t : List ι} (h : Chain next first (s ++ target :: t))
    (hs : target ∉ s) {n : ℕ} (hn : s.length ≤ n) (pp : Link ι) :
    linkTo next target n pp first = some (pp.behind s) := by
  induction s generalizing first n pp with
  | nil =>
      obtain ⟨rfl, -⟩ := h
      cases n <;> simp [linkTo, Link.behind]
  | cons p s ih =>
      obtain ⟨rfl, q, hq, htail⟩ := h
      obtain ⟨n, rfl⟩ : ∃ m, n = m + 1 := Nat.exists_eq_add_one_of_ne_zero (by
        rintro rfl
        exact absurd hn (Nat.not_succ_le_zero _))
      have hne : p ≠ target := fun heq => hs (heq ▸ List.mem_cons_self)
      have hrest := ih htail (fun hmem => hs (List.mem_cons_of_mem _ hmem))
        (Nat.le_of_succ_le_succ hn) (.next p)
      have hbehind : Link.behind pp (p :: s) = Link.behind (.next p) s := by
        cases hlast : s.getLast? <;> simp [Link.behind, List.getLast?_cons, hlast]
      rw [hbehind]
      simp [linkTo, hne, hq, hrest]

/-- The place is the head, or in a node of the list. -/
theorem Link.head_behind_cases (s : List ι) :
    Link.head.behind s = .head ∨ ∃ p ∈ s, Link.head.behind s = .next p := by
  rcases s.eq_nil_or_concat' with rfl | ⟨s, p, rfl⟩
  · exact .inl rfl
  · exact .inr ⟨p, by simp, by simp [Link.behind]⟩

/-! ## Taking a node off -/

/-- The head and the nodes after `*pp = q`. -/
def Link.write [DecidableEq ι] (q first : Option ι) (next : ι → Option (Option ι)) :
    Link ι → Option ι × (ι → Option (Option ι))
  | .head => (q, next)
  | .next p => (first, Function.update next p (some q))

/-- Only one node can change. -/
theorem Link.write_frame [DecidableEq ι] (q first : Option ι) (next : ι → Option (Option ι))
    {pp : Link ι} {p : ι} (h : pp ≠ .next p) : (pp.write q first next).2 p = next p := by
  cases pp with
  | head => rfl
  | next p' => exact Function.update_of_ne (fun heq => h (congrArg Link.next heq.symm)) ..

/-- A node behind another one. -/
private theorem Chain.erase_next [DecidableEq ι] {next : ι → Option (Option ι)} {first : Option ι}
    {target p : ι} {s t : List ι} (h : Chain next first (s ++ p :: target :: t))
    (hnodup : (s ++ p :: target :: t).Nodup) :
    ∃ q, next target = some q ∧
      Chain (Function.update next p (some q)) first (s ++ p :: t) := by
  induction s generalizing first with
  | nil =>
      obtain ⟨hfirst, q', hq', -, q, hq, htail⟩ := h
      refine ⟨q, hq, hfirst, q, Function.update_self .., htail.frame fun p' hp' => ?_⟩
      refine Function.update_of_ne (fun heq => ?_) ..
      subst heq
      exact (List.nodup_cons.mp hnodup).1 (List.mem_cons_of_mem _ hp')
  | cons p' s ih =>
      obtain ⟨hfirst, q', hq', htail⟩ := h
      rw [List.cons_append, List.nodup_cons] at hnodup
      obtain ⟨q, hq, hchain⟩ := ih htail hnodup.2
      refine ⟨q, hq, hfirst, q', ?_, hchain⟩
      refine (Function.update_of_ne (fun heq => ?_) ..).trans hq'
      subst heq
      exact hnodup.1 (by simp)

/-- **The node is taken off** by `*pp = target->pNext`. -/
theorem Chain.unlink [DecidableEq ι] {next : ι → Option (Option ι)} {first : Option ι}
    {target : ι} {s t : List ι} (h : Chain next first (s ++ target :: t))
    (hnodup : (s ++ target :: t).Nodup) :
    ∃ q, next target = some q ∧
      Chain ((Link.head.behind s).write q first next).2
        ((Link.head.behind s).write q first next).1 (s ++ t) := by
  rcases s.eq_nil_or_concat' with rfl | ⟨s, p, rfl⟩
  · exact h.2
  · rw [List.append_assoc, List.singleton_append] at h hnodup ⊢
    obtain ⟨q, hq, hchain⟩ := h.erase_next hnodup
    refine ⟨q, hq, ?_⟩
    simpa [Link.behind, Link.write] using hchain

end SmtCacheBenchmarks.Library.SinglyLinked
