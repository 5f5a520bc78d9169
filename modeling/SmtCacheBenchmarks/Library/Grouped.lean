import Mathlib.Data.List.Basic

/-!
# Grouped Lists

A list is grouped when equal elements stand next to each other.  The elements of a chained
hash table that keeps all its entries on one list are grouped by their buckets: a bucket
then is a segment of the list.

- `Grouped.cons_of_notMem`, `Grouped.insert_same`: where an element may be added
- `Grouped.erase`: any element may be removed
- `eq_append_filter`: the elements of one class are a segment
-/

namespace SmtCacheBenchmarks.Library

universe u v

variable {α : Type u} {κ : Type v}

/-- Equal elements stand next to each other: one that occurs again behind its place is
the next one. -/
def Grouped : List κ → Prop
  | [] => True
  | k :: l => (k ∈ l → l.head? = some k) ∧ Grouped l

namespace Grouped

theorem cons_of_notMem {k : κ} {l : List κ} (hk : k ∉ l) (hl : Grouped l) : Grouped (k :: l) :=
  ⟨fun hmem => absurd hmem hk, hl⟩

/-- The rest of a grouped list is grouped. -/
theorem of_append {s t : List κ} (h : Grouped (s ++ t)) : Grouped t := by
  induction s with
  | nil => exact h
  | cons x s ih => exact ih h.2

/-- An element may be added in front of an equal one. -/
theorem insert_same {s t : List κ} {k : κ} (h : Grouped (s ++ k :: t)) :
    Grouped (s ++ k :: k :: t) := by
  induction s with
  | nil => exact ⟨fun _ => rfl, h⟩
  | cons x s ih =>
      refine ⟨?_, ih h.2⟩
      intro hmem
      have hmem' : x ∈ s ++ k :: t := by simpa using hmem
      have hhead := h.1 hmem'
      cases s with
      | nil => simpa using hhead
      | cons y s => simpa using hhead

/-- Removing an element leaves the others grouped. -/
theorem erase {s t : List κ} {k : κ} (h : Grouped (s ++ k :: t)) : Grouped (s ++ t) := by
  induction s with
  | nil => exact h.2
  | cons x s ih =>
      refine ⟨?_, ih h.2⟩
      intro hmem
      have hmem' : x ∈ s ++ k :: t := by
        rcases List.mem_append.mp hmem with hs | ht
        · exact List.mem_append_left _ hs
        · exact List.mem_append_right _ (List.mem_cons_of_mem _ ht)
      have hhead := h.1 hmem'
      cases s with
      | cons y s => simpa using hhead
      | nil =>
          -- the element behind `x` is the removed one, and equals `x`; the next one is behind it
          obtain rfl : k = x := by simpa using hhead
          have hnext : Grouped (k :: t) := h.2
          exact hnext.1 (by simpa using hmem)

end Grouped

variable [DecidableEq κ] (f : α → κ)

/-- **A class is a segment**: in a list that is grouped by `f`, the elements of one class
stand together, with none of them before or behind. -/
theorem eq_append_filter {l : List α} (h : Grouped (l.map f)) (k : κ) :
    ∃ s t, l = s ++ l.filter (fun a => f a = k) ++ t ∧
      (∀ a ∈ s, f a ≠ k) ∧ ∀ a ∈ t, f a ≠ k := by
  induction l with
  | nil => exact ⟨[], [], rfl, by simp, by simp⟩
  | cons a l ih =>
      obtain ⟨s, t, heq, hs, ht⟩ := ih h.2
      by_cases hk : f a = k
      · by_cases hmem : k ∈ l.map f
        · -- the class goes on behind `a`, so nothing stands before it in `l`
          have hhead : (l.map f).head? = some k := hk ▸ h.1 (hk ▸ hmem)
          have hnil : s = [] := by
            cases s with
            | nil => rfl
            | cons b s =>
                rw [heq] at hhead
                have hb : f b = k := by simpa using hhead
                exact absurd hb (hs b (List.mem_cons_self ..))
          refine ⟨[], t, ?_, by simp, ht⟩
          rw [hnil, List.nil_append] at heq
          rw [List.filter_cons_of_pos (by simpa using hk), List.nil_append, List.cons_append,
            ← heq]
        · have hnone : l.filter (fun a => f a = k) = [] := by
            rw [List.filter_eq_nil_iff]
            intro b hb hfb
            exact hmem (List.mem_map.mpr ⟨b, hb, by simpa using hfb⟩)
          refine ⟨[], l, ?_, by simp, ?_⟩
          · rw [List.filter_cons_of_pos (by simpa using hk), hnone]
            rfl
          · intro b hb hfb
            exact hmem (List.mem_map.mpr ⟨b, hb, hfb⟩)
      · refine ⟨a :: s, t, ?_, ?_, ht⟩
        · rw [List.filter_cons_of_neg (by simpa using hk), List.cons_append, List.cons_append,
            ← heq]
        · intro b hb
          rcases List.mem_cons.mp hb with rfl | hb
          · exact hk
          · exact hs b hb

end SmtCacheBenchmarks.Library
