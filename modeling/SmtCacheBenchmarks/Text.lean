import Mathlib.Data.Nat.Digits.Defs

/-!
# Texts and Decimal Numbers

The scripts of this repository work on bytes: KLEE's log files, the instruction
file, SQL statements.  A text is the list of its characters, and a number in a text
is in decimal.
-/

namespace SmtCacheBenchmarks

/-- The contents of a file, a shell variable or a C string. -/
abbrev Text := List Char

/-- The number written in decimal, as `%d`, `str` and `$?` write it. -/
def decimal (n : ℕ) : Text := Nat.toDigits 10 n

/-- The integer written in decimal, with a sign when it is negative. -/
def decimalInt (n : ℤ) : Text :=
  if n < 0 then '-' :: decimal n.natAbs else decimal n.natAbs

/-- The value of a nonempty row of digits. -/
def ofDecimal (w : Text) : Option ℕ :=
  if w ≠ [] ∧ w.all Char.isDigit then some (Nat.ofDigitChars 10 w 0) else none

/-! ## The decimal round trip -/

theorem isDigit_of_mem_decimal {n : ℕ} {c : Char} (h : c ∈ decimal n) : c.isDigit = true :=
  Nat.isDigit_of_mem_toDigits (by decide) (by decide) h

theorem decimal_ne_nil (n : ℕ) : decimal n ≠ [] := Nat.toDigits_ne_nil

/-- Reading back what was written gives the number: no digit is lost. -/
@[simp] theorem ofDecimal_decimal (n : ℕ) : ofDecimal (decimal n) = some n := by
  have hdigits : (decimal n).all Char.isDigit = true :=
    List.all_eq_true.mpr fun _ hc => isDigit_of_mem_decimal hc
  rw [ofDecimal, if_pos ⟨decimal_ne_nil n, hdigits⟩]
  exact congrArg some Nat.ofDigitChars_ten_toDigits

/-- Different numbers are written differently. -/
theorem decimal_injective : Function.Injective decimal := by
  intro m n h
  have hread := congrArg ofDecimal h
  simpa using hread

/-- A number below `10 ^ k` has at most `k` digits. -/
theorem length_decimal_le {n k : ℕ} (hk : 0 < k) (h : n < 10 ^ k) :
    (decimal n).length ≤ k :=
  (Nat.length_toDigits_le_iff (by decide) hk).mpr h

end SmtCacheBenchmarks
