import Mathlib.Algebra.GroupWithZero.Nat
import Mathlib.Data.List.TakeWhile

/-!
# Lexing by Character Classes

The shape that word splitting, field splitting and a simple tokenizer share:
elements of the class `sep` separate and are dropped, maximal runs of the class
`word` are one token each, and any other element is a token by itself.

- `tokens sep word l`: the tokens of `l`
- `tokens_append_word`: a run of word elements in front is the first token
- `sum_fields_le`: with nothing but separators and words, the tokens with one
  separator between any two of them fit into the list, also when only some elements count
-/

namespace SmtCacheBenchmarks.Library.Lexer

universe u

variable {α : Type u} (sep word : α → Bool)

/-- The tokens of a list. -/
def tokens : List α → List (List α)
  | [] => []
  | a :: l =>
      if sep a then tokens l
      else if word a then (a :: l.takeWhile word) :: tokens (l.dropWhile word)
      else [a] :: tokens l
termination_by l => l.length
decreasing_by
  all_goals simp only [List.length_cons]
  · omega
  · have := (List.dropWhile_sublist (l := l) word).length_le
    omega
  · omega

variable {sep word}

@[simp] theorem tokens_nil : tokens sep word [] = [] := by
  rw [tokens]

/-- A separator in front is dropped. -/
theorem tokens_cons_sep {a : α} (ha : sep a = true) (l : List α) :
    tokens sep word (a :: l) = tokens sep word l := by
  rw [tokens, if_pos ha]

/-- An element that neither separates nor belongs to words is a token by itself. -/
theorem tokens_cons_single {a : α} (hs : sep a = false) (hw : word a = false) (l : List α) :
    tokens sep word (a :: l) = [a] :: tokens sep word l := by
  rw [tokens, if_neg (by simp [hs]), if_neg (by simp [hw])]

/-- A run of word elements in front, ended by the end of the list or by an element
of another class, is the first token. -/
theorem tokens_append_word {w l : List α} (hne : w ≠ [])
    (hw : ∀ a ∈ w, sep a = false ∧ word a = true)
    (hl : ∀ b r, l = b :: r → word b = false) :
    tokens sep word (w ++ l) = w :: tokens sep word l := by
  cases w with
  | nil => exact absurd rfl hne
  | cons a w =>
      obtain ⟨hs, ha⟩ := hw a (List.mem_cons_self ..)
      have hrest : ∀ b ∈ w, word b = true := fun b hb => (hw b (List.mem_cons_of_mem _ hb)).2
      have htake : l.takeWhile word = [] ∧ l.dropWhile word = l := by
        cases l with
        | nil => simp
        | cons b r => simp [hl b r rfl]
      rw [List.cons_append, tokens, if_neg (by simp [hs]), if_pos ha,
        List.takeWhile_append_of_pos hrest, List.dropWhile_append_of_pos hrest,
        htake.1, htake.2, List.append_nil]

/-- Where no word runs across the seam, the tokens of two lists are put together. -/
theorem tokens_append {l r : List α} (hr : ∀ b t, r = b :: t → word b = false) :
    tokens sep word (l ++ r) = tokens sep word l ++ tokens sep word r := by
  have hseam : r.takeWhile word = [] ∧ r.dropWhile word = r := by
    cases r with
    | nil => simp
    | cons b t => simp [hr b t rfl]
  induction l using tokens.induct sep word with
  | case1 => simp
  | case2 a l hs ih =>
      rw [List.cons_append, tokens_cons_sep hs, tokens_cons_sep hs, ih]
  | case3 a l hs hw ih =>
      have htake : (l ++ r).takeWhile word = l.takeWhile word := by
        rw [List.takeWhile_append, hseam.1]
        split_ifs with hlen
        · have hl : l.takeWhile word = l :=
            List.IsPrefix.eq_of_length (List.takeWhile_prefix word) hlen
          rw [List.append_nil, hl]
        · rfl
      have hdrop : (l ++ r).dropWhile word = l.dropWhile word ++ r := by
        rw [List.dropWhile_append, hseam.2]
        split_ifs with hempty
        · rw [List.isEmpty_iff.mp hempty, List.nil_append]
        · rfl
      have htokens : tokens sep word (a :: l) =
          (a :: l.takeWhile word) :: tokens sep word (l.dropWhile word) := by
        rw [tokens, if_neg hs, if_pos hw]
      rw [List.cons_append, tokens, if_neg hs, if_pos hw, htake, hdrop, ih, htokens,
        List.cons_append]
  | case4 a l hs hw ih =>
      have hs' : sep a = false := by simpa using hs
      have hw' : word a = false := by simpa using hw
      rw [List.cons_append, tokens_cons_single hs' hw', tokens_cons_single hs' hw', ih,
        List.cons_append]

/-- A list with separators only has no tokens. -/
theorem tokens_eq_nil_of_forall_sep {l : List α} (h : ∀ a ∈ l, sep a = true) :
    tokens sep word l = [] := by
  induction l with
  | nil => exact tokens_nil
  | cons a l ih =>
      rw [tokens_cons_sep (h a (List.mem_cons_self ..))]
      exact ih fun b hb => h b (List.mem_cons_of_mem _ hb)

/-- A single run of word elements is one token. -/
theorem tokens_eq_singleton {w : List α} (hne : w ≠ [])
    (hw : ∀ a ∈ w, sep a = false ∧ word a = true) : tokens sep word w = [w] := by
  have h := tokens_append_word (l := []) hne hw (by simp)
  simpa using h

/-! ## Words between separators -/

/-- The tokens of a list whose elements are either separators or word elements. -/
abbrev fields (sep : α → Bool) : List α → List (List α) :=
  tokens sep fun a => !sep a

/-- Every field consists of elements that do not separate, and is not empty. -/
theorem mem_fields {l w : List α} (h : w ∈ fields sep l) :
    w ≠ [] ∧ ∀ a ∈ w, sep a = false := by
  unfold fields at h
  induction l using tokens.induct sep (fun a => !sep a) with
  | case1 => simp at h
  | case2 a l hs ih =>
      rw [tokens_cons_sep hs] at h
      exact ih h
  | case3 a l hs hw ih =>
      rw [tokens, if_neg hs, if_pos hw, List.mem_cons] at h
      rcases h with rfl | h
      · refine ⟨List.cons_ne_nil _ _, fun b hb => ?_⟩
        rcases List.mem_cons.mp hb with rfl | hb
        · simpa using hs
        · simpa using List.mem_takeWhile_imp hb
      · exact ih h
  | case4 a l hs hw ih => simp [hs] at hw

/-- A field stands in the list. -/
theorem infix_of_mem_fields {l w : List α} (h : w ∈ fields sep l) : w <:+: l := by
  unfold fields at h
  induction l using tokens.induct sep (fun a => !sep a) with
  | case1 => simp at h
  | case2 a l hs ih =>
      rw [tokens_cons_sep hs] at h
      exact (ih h).trans (List.suffix_cons a l).isInfix
  | case3 a l hs hw ih =>
      rw [tokens, if_neg hs, if_pos hw, List.mem_cons] at h
      rcases h with rfl | h
      · exact (List.cons_prefix_cons.mpr ⟨rfl, List.takeWhile_prefix _⟩).isInfix
      · exact (ih h).trans ((List.dropWhile_suffix _).trans (List.suffix_cons a l)).isInfix
  | case4 a l hs hw ih => simp [hs] at hw

/-- A separator cuts a list in two. -/
theorem fields_append_sep {s : α} (hs : sep s = true) (l r : List α) :
    fields sep (l ++ s :: r) = fields sep l ++ fields sep r := by
  have hseam : ∀ b t, s :: r = b :: t → (!sep b) = false := by
    intro b t h
    obtain ⟨rfl, -⟩ := List.cons.inj h
    simp [hs]
  unfold fields
  rw [tokens_append hseam, tokens_cons_sep hs]

/-- Separators at the end do not matter. -/
theorem fields_append_of_forall_sep (l : List α) {r : List α} (hr : ∀ a ∈ r, sep a = true) :
    fields sep (l ++ r) = fields sep l := by
  have hseam : ∀ b t, r = b :: t → (!sep b) = false := by
    rintro b t rfl
    simp [hr b (List.mem_cons_self ..)]
  unfold fields
  rw [tokens_append hseam, tokens_eq_nil_of_forall_sep hr, List.append_nil]

/-- Dropping elements that do not separate shortens the fields, and may empty some. -/
theorem exists_of_mem_fields_filter {p : α → Bool} (hp : ∀ a, sep a = true → p a = true)
    {l w : List α} (h : w ∈ fields sep (l.filter p)) :
    ∃ v ∈ fields sep l, w = v.filter p := by
  unfold fields at h ⊢
  induction l using tokens.induct sep (fun a => !sep a) with
  | case1 => simp at h
  | case2 a l hs ih =>
      rw [List.filter_cons_of_pos (hp a hs), tokens_cons_sep hs] at h
      rw [tokens_cons_sep hs]
      exact ih h
  | case3 a l hs hw ih =>
      have hrun : ∀ b ∈ a :: l.takeWhile (fun a => !sep a), sep b = false := by
        intro b hb
        rcases List.mem_cons.mp hb with rfl | hb
        · simpa using hs
        · simpa using List.mem_takeWhile_imp hb
      have hsplit : (a :: l).filter p =
          (a :: l.takeWhile fun a => !sep a).filter p ++
            (l.dropWhile fun a => !sep a).filter p := by
        rw [← List.filter_append, List.cons_append, List.takeWhile_append_dropWhile]
      -- behind the first run the list is empty or goes on with a separator, which is kept
      have hseam : ∀ b t, (l.dropWhile fun a => !sep a).filter p = b :: t →
          (!sep b) = false := by
        intro b t hbt
        cases hd : l.dropWhile fun a => !sep a with
        | nil => simp [hd] at hbt
        | cons d r =>
            have hd' : sep d = true := by
              have := List.dropWhile_get_zero_not (fun a => !sep a) l (by simp [hd])
              simpa [hd] using this
            rw [hd, List.filter_cons_of_pos (hp d hd')] at hbt
            obtain ⟨rfl, -⟩ := List.cons.inj hbt
            simp [hd']
      rw [hsplit, tokens_append hseam, List.mem_append] at h
      rw [tokens, if_neg hs, if_pos hw]
      rcases h with h | h
      · refine ⟨_, List.mem_cons_self .., ?_⟩
        by_cases hempty : (a :: l.takeWhile fun a => !sep a).filter p = []
        · simp [hempty] at h
        · rw [tokens_eq_singleton hempty fun b hb => by
            simp [hrun b (List.mem_filter.mp hb).1]] at h
          exact List.mem_singleton.mp h
      · obtain ⟨v, hv, rfl⟩ := ih h
        exact ⟨v, List.mem_cons_of_mem _ hv, rfl⟩
  | case4 a l hs hw ih => simp [hs] at hw

/-- **The fields fit**: of the elements with a property that all separators have, the fields
have, with one more for each field, at most as many as the list and one more. -/
theorem sum_fields_le {p : α → Bool} (hp : ∀ a, sep a = true → p a = true) (l : List α) :
    ((fields sep l).map fun w => w.countP p + 1).sum ≤ l.countP p + 1 := by
  -- a list that begins with a separator has room for it, which the induction needs
  suffices h : ((fields sep l).map fun w => w.countP p + 1).sum ≤ l.countP p + 1 ∧
      ∀ a r, l = a :: r → sep a = true →
        ((fields sep l).map fun w => w.countP p + 1).sum ≤ l.countP p from h.1
  unfold fields
  induction l using tokens.induct sep (fun a => !sep a) with
  | case1 => simp
  | case2 a l hs ih =>
      rw [tokens_cons_sep hs, List.countP_cons_of_pos (hp a hs)]
      exact ⟨Nat.le_succ_of_le ih.1, fun _ _ _ _ => ih.1⟩
  | case3 a l hs hw ih =>
      rw [tokens, if_neg hs, if_pos hw]
      refine ⟨?_, fun b r hl hb => ?_⟩
      · have hcount : (a :: l.takeWhile fun a => !sep a).countP p +
            (l.dropWhile fun a => !sep a).countP p = (a :: l).countP p := by
          rw [← List.countP_append, List.cons_append, List.takeWhile_append_dropWhile]
        have hrest : ((tokens sep (fun a => !sep a) (l.dropWhile fun a => !sep a)).map
            fun w => w.countP p + 1).sum ≤ (l.dropWhile fun a => !sep a).countP p := by
          cases hd : l.dropWhile fun a => !sep a with
          | nil => simp
          | cons b r =>
              have hb : sep b = true := by
                have := List.dropWhile_get_zero_not (fun a => !sep a) l (by simp [hd])
                simpa [hd] using this
              simpa [hd] using ih.2 b r hd hb
        simp only [List.map_cons, List.sum_cons]
        omega
      · obtain ⟨rfl, rfl⟩ := List.cons.inj hl
        exact absurd hb hs
  | case4 a l hs hw ih => simp [hs] at hw

end SmtCacheBenchmarks.Library.Lexer
