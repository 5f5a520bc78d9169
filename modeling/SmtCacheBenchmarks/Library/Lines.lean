import Mathlib.Data.List.Basic

/-!
# Lines of a Text

Cutting a list at a terminator `nl`, each line keeping its terminator; the last
line may lack it.  Cutting undoes the concatenation of lines, and `induction_on`
goes through a text line by line.
-/

namespace SmtCacheBenchmarks.Library.Lines

universe u

variable {α : Type u} [DecidableEq α]

/-- The lines of a text, each with its terminator. -/
def splitLines (nl : α) : List α → List (List α)
  | [] => []
  | a :: l =>
      if a = nl then [nl] :: splitLines nl l
      else
        match splitLines nl l with
        | [] => [[a]]
        | line :: lines => (a :: line) :: lines

/-- A line: a body without the terminator, then the terminator. -/
def IsLine (nl : α) (line : List α) : Prop :=
  ∃ body, nl ∉ body ∧ line = body ++ [nl]

/-- The first line is cut off at the first terminator. -/
theorem splitLines_append {nl : α} {body : List α} (hbody : nl ∉ body) (l : List α) :
    splitLines nl (body ++ nl :: l) = (body ++ [nl]) :: splitLines nl l := by
  induction body with
  | nil => simp [splitLines]
  | cons a body ih =>
      obtain ⟨ha, hrest⟩ : nl ≠ a ∧ nl ∉ body := by simpa using hbody
      simp [splitLines, Ne.symm ha, ih hrest]

/-- A text without the terminator is a single line that lacks it. -/
theorem splitLines_of_notMem {nl : α} {l : List α} (hne : l ≠ []) (hl : nl ∉ l) :
    splitLines nl l = [l] := by
  induction l with
  | nil => exact absurd rfl hne
  | cons a l ih =>
      obtain ⟨ha, hrest⟩ : nl ≠ a ∧ nl ∉ l := by simpa using hl
      cases l with
      | nil => simp [splitLines, Ne.symm ha]
      | cons b l => rw [splitLines, if_neg (Ne.symm ha), ih (List.cons_ne_nil b l) hrest]

/-- **Induction over the lines** of a text. -/
@[elab_as_elim]
theorem induction_on (nl : α) {motive : List α → Prop} (l : List α)
    (last : ∀ l, nl ∉ l → motive l)
    (line : ∀ body rest, nl ∉ body → motive rest → motive (body ++ nl :: rest)) :
    motive l := by
  -- on a bound of the length: the text after the first line is shorter
  have hbound : ∀ k l, l.length < k → motive l := by
    intro k
    induction k with
    | zero => intro l hk; exact absurd hk (Nat.not_lt_zero _)
    | succ k ih =>
        intro l hk
        by_cases hmem : nl ∈ l
        · obtain ⟨body, rest, rfl, hbody⟩ := List.eq_append_cons_of_mem hmem
          refine line body rest hbody (ih rest ?_)
          simp only [List.length_append, List.length_cons] at hk
          omega
        · exact last l hmem
  exact hbound (l.length + 1) l (Nat.lt_succ_self _)

/-- Cutting undoes the concatenation of lines. -/
theorem splitLines_flatten {nl : α} {lines : List (List α)}
    (h : ∀ line ∈ lines, IsLine nl line) : splitLines nl lines.flatten = lines := by
  induction lines with
  | nil => rfl
  | cons line lines ih =>
      obtain ⟨body, hbody, rfl⟩ := h line (List.mem_cons_self ..)
      have hrest := ih fun l hl => h l (List.mem_cons_of_mem _ hl)
      simp [splitLines_append hbody, hrest]

end SmtCacheBenchmarks.Library.Lines
