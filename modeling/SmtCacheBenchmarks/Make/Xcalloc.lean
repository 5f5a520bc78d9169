import Mathlib.Data.List.Range
import SmtCacheBenchmarks.Library.Loop

/-!
# The Zeroing Loop in make's `xcalloc`

`make.patch` makes `xcalloc` write the zeros of the block itself, so that KLEE sees the
writes.  In make 4.2 the parameter of `xcalloc` is an `unsigned int`, like the counter of
the loop, so the counter reaches it for every size and every byte is written once.  A
caller's `size_t` is cut to 32 bits before the loop begins: of a block of 4 GiB nothing is
zeroed.
-/

namespace SmtCacheBenchmarks.Make

open SmtCacheBenchmarks.Library StateTransition

/-! ## The loop -/

/-- The state of the loop: the counter, the bytes by their index in the block, and the
indexes written so far. -/
structure ZeroState where
  i : UInt32
  bytes : ℕ → UInt8
  writes : List ℕ

/-- One iteration of `for(unsigned i = 0; i < size; i++) ((unsigned char *)result)[i] = 0`. -/
def zeroStep (size : UInt32) (s : ZeroState) : Option ZeroState :=
  if s.i < size then
    some { i := s.i + 1
           bytes := Function.update s.bytes s.i.toNat 0
           writes := s.writes ++ [s.i.toNat] }
  else none

/-- `xcalloc(size)` up to its `return`: `none` is the exit through `OUT_OF_MEM`, and
otherwise the state in which the loop ends, if it ends. -/
def xcalloc (calloc : UInt64 → UInt64 → Option (ℕ → UInt8)) (size : UInt32) :
    Option (Part ZeroState) :=
  -- the parameters of `calloc` are of type `size_t`
  match calloc (if size ≠ 0 then size else 1).toUInt64 1 with
  | none => none
  | some block => some (eval (zeroStep size) { i := 0, bytes := block, writes := [] })

/-- The loop ends, after writing each of the first `size` bytes exactly once and no other
byte, and leaves them all zero. -/
def ZeroesBlock (size : ℕ) (run : Part ZeroState) : Prop :=
  ∃ s ∈ run, s.writes.Nodup ∧ (∀ k, k ∈ s.writes ↔ k < size) ∧ ∀ k, k < size → s.bytes k = 0

/-! ## The counter reaches the size -/

/-- What holds whenever the condition is evaluated: the bytes below the counter have
been written, in order, and are zero. -/
structure ZeroInv (size : UInt32) (s : ZeroState) : Prop where
  le_size : s.i.toNat ≤ size.toNat
  writes_eq : s.writes = List.range s.i.toNat
  bytes_eq : ∀ k, k < s.i.toNat → s.bytes k = 0

theorem zeroStep_eq_some_iff {size : UInt32} {s s' : ZeroState} :
    zeroStep size s = some s' ↔
      s.i.toNat < size.toNat ∧
        s' = { i := s.i + 1, bytes := Function.update s.bytes s.i.toNat 0,
               writes := s.writes ++ [s.i.toNat] } := by
  unfold zeroStep
  by_cases h : s.i < size
  · have hlt : s.i.toNat < size.toNat := UInt32.lt_iff_toNat_lt.mp h
    simp [h, hlt, eq_comm]
  · have hge : ¬ s.i.toNat < size.toNat := fun hlt => h (UInt32.lt_iff_toNat_lt.mpr hlt)
    simp [h, hge]

/-- The counter does not wrap below the size. -/
theorem toNat_succ {size i : UInt32} (hi : i.toNat < size.toNat) :
    (i + 1).toNat = i.toNat + 1 := by
  have hsize : size.toNat < 2 ^ 32 := size.toNat_lt
  rw [UInt32.toNat_add, UInt32.toNat_one]
  exact Nat.mod_eq_of_lt (by omega)

/-- One iteration keeps the invariant and brings the counter closer to the size. -/
theorem ZeroInv.step {size : UInt32} {s s' : ZeroState} (hs : ZeroInv size s)
    (hstep : zeroStep size s = some s') :
    ZeroInv size s' ∧ size.toNat - s'.i.toNat < size.toNat - s.i.toNat := by
  obtain ⟨hi, rfl⟩ := zeroStep_eq_some_iff.mp hstep
  have hsucc := toNat_succ hi
  refine ⟨⟨?_, ?_, ?_⟩, ?_⟩
  · show (s.i + 1).toNat ≤ size.toNat
    omega
  · show s.writes ++ [s.i.toNat] = List.range (s.i + 1).toNat
    rw [hsucc, List.range_succ, hs.writes_eq]
  · intro k hk
    -- the byte that has just been written, or one of those before it
    by_cases hki : k = s.i.toNat
    · simp [hki]
    · have hlt : k < s.i.toNat := by
        have : k < s.i.toNat + 1 := hsucc ▸ hk
        omega
      simp [hki, hs.bytes_eq k hlt]
  · show size.toNat - (s.i + 1).toNat < size.toNat - s.i.toNat
    omega

/-- **The zeroing loop**: for every size that `xcalloc` can be called with and that `calloc`
can serve, and every contents of the block, the loop ends and zeroes the whole block, each
byte once. -/
theorem xcalloc_zeroesBlock {calloc : UInt64 → UInt64 → Option (ℕ → UInt8)} {size : UInt32}
    {block : ℕ → UInt8}
    (hcalloc : calloc (if size ≠ 0 then size else 1).toUInt64 1 = some block) :
    ∃ run, xcalloc calloc size = some run ∧ ZeroesBlock size.toNat run := by
  have hinit : ZeroInv size { i := 0, bytes := block, writes := [] } :=
    ⟨by simp, by simp, by simp⟩
  obtain ⟨s, hs, hinv, hend⟩ := Loop.mem_eval_of_invariant (fun s => size.toNat - s.i.toNat)
    (fun _ _ hinv hstep => hinv.step hstep) hinit
  -- the condition fails only when the counter has reached the size
  have hi : s.i.toNat = size.toNat := by
    have hge : ¬ s.i.toNat < size.toNat := by
      intro hlt
      rw [zeroStep_eq_some_iff.mpr ⟨hlt, rfl⟩] at hend
      cases hend
    have := hinv.le_size
    omega
  refine ⟨_, by rw [xcalloc, hcalloc], s, hs, ?_, ?_, ?_⟩
  · rw [hinv.writes_eq]
    exact List.nodup_range
  · intro k
    rw [hinv.writes_eq, List.mem_range, hi]
  · intro k hk
    exact hinv.bytes_eq k (hi ▸ hk)

/-- A block of three bytes with arbitrary contents. -/
theorem xcalloc_zeroesBlock_three :
    ∃ run, xcalloc (fun _ _ => some fun _ => 7) 3 = some run ∧ ZeroesBlock 3 run :=
  xcalloc_zeroesBlock rfl

/-- Of a size of 4 GiB, `xcalloc` gets only the lower 32 bits. -/
theorem xcalloc_four_gib :
    ¬ ∀ (calloc : UInt64 → UInt64 → Option (ℕ → UInt8)) (size : UInt64) (block : ℕ → UInt8),
      calloc (if size ≠ 0 then size else 1) 1 = some block →
      ∃ run, xcalloc calloc size.toUInt32 = some run ∧ ZeroesBlock size.toNat run := by
  intro hclaim
  obtain ⟨run, hrun, s, hs, -, hwrites, -⟩ :=
    hclaim (fun _ _ => some fun _ => 7) (2 ^ 32) (fun _ => 7) rfl
  obtain rfl := Option.some.inj hrun
  -- the loop is over before it has written a byte
  have hstop : zeroStep (2 ^ 32 : UInt64).toUInt32 ⟨0, fun _ => 7, []⟩ = none := by decide
  obtain rfl := Part.mem_unique hs
    (mem_eval.mpr ⟨Relation.ReflTransGen.refl, hstop⟩)
  have hwritten := (hwrites 0).mpr (by decide)
  cases hwritten

end SmtCacheBenchmarks.Make
