import Mathlib.Data.List.Basic
import Mathlib.Logic.Function.Basic

/-!
# Owners of the Blocks of a Heap

Several owners share a heap, and every block that is allocated belongs to exactly one of
them.  An operation of one owner takes blocks that were free and releases blocks of its
own; when no owner has a block left, nothing is allocated.

- `Exchanged`: what such an operation does to the heap
- `Owned`: whose blocks are whose, and that there are no others
- `Owned.exchange`: the operation of one owner leaves the blocks of the others alone
- `Owned.released`: without owners there are no blocks
-/

namespace SmtCacheBenchmarks.Library

universe u v w

variable {ι : Type u} {β : Type v} {κ : Type w}

/-! ## Exchanging blocks -/

/-- An owner that had the blocks `s` has the blocks `s'`: the new ones were free, the others
are released, and nothing else has changed. -/
structure Exchanged (f f' : ι → Option β) (s s' : List ι) : Prop where
  new : ∀ p ∈ s', p ∉ s → f p = none
  freed : ∀ p ∈ s, p ∉ s' → f' p = none
  frame : ∀ p, p ∉ s → p ∉ s' → f' p = f p

namespace Exchanged

variable {f f' f'' : ι → Option β} {s s' : List ι}

theorem refl (f : ι → Option β) (s : List ι) : Exchanged f f s s :=
  ⟨fun _ hp hnot => absurd hp hnot, fun _ hp hnot => absurd hp hnot, fun _ _ _ => rfl⟩

/-- The owner changes what is in its blocks. -/
theorem of_frame (h : ∀ p, p ∉ s → f' p = f p) : Exchanged f f' s s :=
  ⟨fun _ hp hnot => absurd hp hnot, fun _ hp hnot => absurd hp hnot, fun p hp _ => h p hp⟩

/-- And it does so after an exchange. -/
theorem within (h : Exchanged f f' s s') (hframe : ∀ p, p ∉ s' → f'' p = f' p) :
    Exchanged f f'' s s' where
  new := h.new
  freed := by
    intro p hp hnot
    rw [hframe p hnot]
    exact h.freed p hp hnot
  frame := by
    intro p hp hnot
    rw [hframe p hnot]
    exact h.frame p hp hnot

/-- Or before it. -/
theorem of_change (hframe : ∀ p, p ∉ s → f' p = f p) (h : Exchanged f' f'' s s') :
    Exchanged f f'' s s' where
  new := by
    intro p hp hnot
    rw [← hframe p hnot]
    exact h.new p hp hnot
  freed := h.freed
  frame := by
    intro p hp hnot
    rw [h.frame p hp hnot, hframe p hp]

end Exchanged

/-! ## Owners -/

/-- Every block that is allocated is one of those of exactly one owner. -/
structure Owned (f : ι → Option β) (own : κ → List ι) : Prop where
  isSome : ∀ i, ∀ p ∈ own i, (f p).isSome
  disjoint : ∀ i j, i ≠ j → ∀ p ∈ own i, p ∉ own j
  allocated : ∀ p, (f p).isSome → ∃ i, p ∈ own i

namespace Owned

variable {f f' : ι → Option β} {own : κ → List ι} {i : κ} {s : List ι}

/-- Without owners there are no blocks. -/
theorem released (h : Owned f own) (hnil : ∀ i, own i = []) : ∀ p, f p = none := by
  intro p
  rw [← Option.not_isSome_iff_eq_none]
  intro hsome
  obtain ⟨i, hp⟩ := h.allocated p hsome
  rw [hnil i] at hp
  cases hp

/-- What one owner takes was not another's. -/
theorem notMem_of_exchanged (h : Owned f own) (hx : Exchanged f f' (own i) s) {j : κ}
    (hj : j ≠ i) {p : ι} (hp : p ∈ own j) : p ∉ s := by
  intro hps
  have hfree := hx.new p hps (h.disjoint j i hj p hp)
  have hsome := h.isSome j p hp
  rw [hfree] at hsome
  cases hsome

/-- **Frame**: the blocks of the other owners are as they were. -/
theorem frame (h : Owned f own) (hx : Exchanged f f' (own i) s) {j : κ} (hj : j ≠ i) {p : ι}
    (hp : p ∈ own j) : f' p = f p :=
  hx.frame p (h.disjoint j i hj p hp) (h.notMem_of_exchanged hx hj hp)

/-- **Exchange**: one owner exchanges blocks, and all blocks still have their owners. -/
theorem exchange [DecidableEq κ] (h : Owned f own) (hx : Exchanged f f' (own i) s)
    (hs : ∀ p ∈ s, (f' p).isSome) : Owned f' (Function.update own i s) where
  isSome := by
    intro j p hp
    by_cases hj : j = i
    · subst hj
      rw [Function.update_self] at hp
      exact hs p hp
    · rw [Function.update_of_ne hj] at hp
      rw [h.frame hx hj hp]
      exact h.isSome j p hp
  disjoint := by
    intro j k hjk p hp
    by_cases hj : j = i
    · subst hj
      rw [Function.update_self] at hp
      rw [Function.update_of_ne (Ne.symm hjk)]
      exact fun hpk => h.notMem_of_exchanged hx (Ne.symm hjk) hpk hp
    · rw [Function.update_of_ne hj] at hp
      by_cases hk : k = i
      · subst hk
        rw [Function.update_self]
        exact h.notMem_of_exchanged hx hj hp
      · rw [Function.update_of_ne hk]
        exact h.disjoint j k hjk p hp
  allocated := by
    intro p hp
    by_cases hps : p ∈ s
    · exact ⟨i, by rwa [Function.update_self]⟩
    · by_cases hpi : p ∈ own i
      · -- a block that the owner has given up is not allocated
        rw [hx.freed p hpi hps] at hp
        cases hp
      · rw [hx.frame p hpi hps] at hp
        obtain ⟨j, hj⟩ := h.allocated p hp
        have hji : j ≠ i := fun heq => hpi (heq ▸ hj)
        exact ⟨j, by rwa [Function.update_of_ne hji]⟩

end Owned

end SmtCacheBenchmarks.Library
