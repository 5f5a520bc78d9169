import Mathlib.Data.List.Infix

/-!
# Leftmost Occurrences

Searching a list for a fixed word, as text search does it: the leftmost
occurrence counts, and the search hands back what follows it.

- `findAfter m l`: the rest of `l` after the leftmost occurrence of `m`
- `findAfter_eq_none_iff`: the search fails exactly when `m` does not occur
- `clashes m p`: a decidable test that no occurrence of `m` begins inside `p`,
  whatever follows `p`
-/

namespace SmtCacheBenchmarks.Library.Occurrence

universe u

variable {α : Type u} [DecidableEq α]

/-! ## The search -/

/-- The rest of a list after the leftmost occurrence of `m`, if `m` occurs. -/
def findAfter (m : List α) : List α → Option (List α)
  | [] => if m = [] then some [] else none
  | a :: l =>
      if m <+: a :: l then some ((a :: l).drop m.length) else findAfter m l

/-- The search fails exactly when the word does not occur. -/
theorem findAfter_eq_none_iff (m l : List α) : findAfter m l = none ↔ ¬ m <:+: l := by
  induction l with
  | nil => simp [findAfter]
  | cons a l ih =>
      by_cases hm : m <+: a :: l
      · simp [findAfter, hm, hm.isInfix]
      · simp [findAfter, hm, ih, List.infix_cons_iff]

/-- What the search hands back follows an occurrence of the word. -/
theorem exists_append_of_findAfter {m l r : List α} (h : findAfter m l = some r) :
    ∃ p, l = p ++ (m ++ r) := by
  induction l with
  | nil =>
      by_cases hm : m = []
      · exact ⟨[], by simp_all [findAfter]⟩
      · simp [findAfter, hm] at h
  | cons a l ih =>
      by_cases hm : m <+: a :: l
      · obtain ⟨r', hr'⟩ := hm
        have hr : r' = r := by
          rw [findAfter, if_pos ⟨r', hr'⟩, ← hr', List.drop_left] at h
          exact Option.some.inj h
        exact ⟨[], by rw [← hr, hr', List.nil_append]⟩
      · obtain ⟨p, hp⟩ := ih (by simpa [findAfter, hm] using h)
        exact ⟨a :: p, by simp [hp]⟩

/-- A word at the very front is the leftmost occurrence. -/
@[simp] theorem findAfter_append_self (m r : List α) : findAfter m (m ++ r) = some r := by
  cases h : m ++ r with
  | nil =>
      obtain ⟨hm, hr⟩ := List.append_eq_nil_iff.mp h
      simp [findAfter, hm, hr]
  | cons a l =>
      have hpre : m <+: a :: l := h ▸ List.prefix_append m r
      rw [findAfter, if_pos hpre, ← h, List.drop_left]

/-! ## Where an occurrence cannot begin -/

/-- No occurrence of `m` begins inside `p`: laid over any nonempty suffix of `p`,
the word `m` disagrees with it in a position both have. -/
def clashes (m : List α) : List α → Bool
  | [] => true
  | a :: p =>
      decide (m.take (p.length + 1) ≠ (a :: p).take m.length) && clashes m p

omit [DecidableEq α] in
private theorem take_eq_take_of_prefix_append {m p d : List α} (h : m <+: p ++ d) :
    m.take p.length = p.take m.length := by
  obtain ⟨t, ht⟩ := h
  calc m.take p.length = (m ++ t).take (min p.length m.length) := by
        rw [← List.take_take, List.take_left]
    _ = (p ++ d).take (min m.length p.length) := by rw [ht, min_comm]
    _ = p.take m.length := by rw [← List.take_take, List.take_left]

/-- If no occurrence of `m` begins in `p` and none lies in `d`, none lies in `p ++ d`. -/
theorem not_infix_append_of_clashes {m p d : List α} (hp : clashes m p = true)
    (hd : ¬ m <:+: d) : ¬ m <:+: p ++ d := by
  induction p with
  | nil => simpa using hd
  | cons a p ih =>
      simp only [clashes, Bool.and_eq_true, decide_eq_true_eq] at hp
      rw [List.cons_append, List.infix_cons_iff, not_or]
      refine ⟨fun hpre => hp.1 ?_, ih hp.2⟩
      exact take_eq_take_of_prefix_append (p := a :: p) hpre

omit [DecidableEq α] in
/-- A word with a letter that `d` lacks does not occur in `d`. -/
theorem not_infix_of_not_mem {m d : List α} {a : α} (ha : a ∈ m) (hd : a ∉ d) :
    ¬ m <:+: d :=
  fun h => hd (h.subset ha)

end SmtCacheBenchmarks.Library.Occurrence
