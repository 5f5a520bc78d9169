import Mathlib.Algebra.Order.BigOperators.Group.List
import Mathlib.Data.List.DropRight
import SmtCacheBenchmarks.Library.Lexer
import SmtCacheBenchmarks.Library.Lines
import SmtCacheBenchmarks.Text

/-!
# The Shell Commands of the Coreutils Driver

The parts of bash and awk that `run.sh` is written with: word splitting, pathname
expansion, the builtins `read` and `echo`, `awk '{ print $k }'` and command substitution.
The locale is C, where every byte is a character, and a text is a list of bytes.  The
files that pathname expansion finds are a parameter.

- `Glob`: the names that a pattern stands for
- `readLine`: `IFS= read -r line`, which fails on a last line without a newline
- `echo`: with its options, which it takes from its arguments
- `words_awkPrint`: the words that `awk` prints are fields of its input
- `weight_echoText_le`: escapes make the text longer by zeros only
-/

namespace SmtCacheBenchmarks.Coreutils

open SmtCacheBenchmarks.Library

/-! ## Words -/

/-- The characters of the default `IFS`, which are also awk's blanks. -/
def isIfs (c : Char) : Bool := c = ' ' || c = '\t' || c = '\n'

/-- The words that an unquoted expansion is split into. -/
def words (s : Text) : List Text := Lexer.fields isIfs s

/-- A text that word splitting leaves alone. -/
def IsWord (w : Text) : Prop := w ≠ [] ∧ ∀ c ∈ w, isIfs c = false

instance (w : Text) : Decidable (IsWord w) :=
  decidable_of_iff (w ≠ [] ∧ (w.all fun c => !isIfs c) = true) (by simp [IsWord])

/-- The characters that pathname expansion looks for. -/
def isGlob (c : Char) : Bool := c = '*' || c = '?' || c = '['

/-- Pathname expansion: a pattern becomes the names of the files that match it, or stays as
it is when there are none.  No file has a backslash in its name. -/
structure Glob where
  expand : Text → List Text
  noBackslash : ∀ pattern, ∀ name ∈ expand pattern, name = pattern ∨ '\\' ∉ name

/-- No pattern matches a file. -/
def noFiles : Glob := ⟨fun pattern => [pattern], fun _ _ h => .inl (List.mem_singleton.mp h)⟩

/-- The words of an unquoted expansion, after pathname expansion. -/
def Glob.expansion (g : Glob) (s : Text) : List Text :=
  (words s).flatMap fun w => if w.any isGlob then g.expand w else [w]

/-- Words with a blank between any two of them. -/
def joinWords : List Text → Text
  | [] => []
  | [w] => w
  | w :: ws => w ++ ' ' :: joinWords ws

/-! ## `read` -/

/-- `IFS= read -r line`: the line and the rest of the standard input.  At the end of the
file `read` fails, also when characters without a newline were left.  NUL bytes are
dropped from the line. -/
def readLine (stdin : Text) : Option (Text × Text) :=
  match stdin.dropWhile (· ≠ '\n') with
  -- the end of the file: what is left, if anything, is no line
  | [] => none
  | _ :: rest => some ((stdin.takeWhile (· ≠ '\n')).filter (· ≠ '\x00'), rest)

/-! ## `echo` -/

/-- An option of `echo`: a dash and a row of the letters `n`, `e` and `E`. -/
def isEchoOption : Text → Bool
  | '-' :: c :: cs => (c :: cs).all fun c => c = 'n' || c = 'e' || c = 'E'
  | _ => false

def isOctal (c : Char) : Bool := '0' ≤ c && c ≤ '7'

def isHex (c : Char) : Bool := c.isDigit || ('a' ≤ c && c ≤ 'f') || ('A' ≤ c && c ≤ 'F')

/-- The value of a hexadecimal digit. -/
def hexValue (c : Char) : ℕ := if c.isDigit then c.toNat - 48 else c.toLower.toNat - 87

/-- The number that a row of digits writes. -/
def ofDigits (base : ℕ) (digits : Text) : ℕ :=
  digits.foldl (fun n c => base * n + hexValue c) 0

/-- One byte. -/
def byte (n : ℕ) : Text := [Char.ofNat (n % 256)]

/-- The last `k` hexadecimal digits of a number, as `%0kX` writes them. -/
def hexDigits : ℕ → ℕ → Text
  | 0, _ => []
  | k + 1, n => hexDigits k (n / 16) ++ [(Nat.digitChar (n % 16)).toUpper]

/-- A code point in the locale C: ASCII is written as it is, and any other code point as an
escape of four or eight digits. -/
def codePoint (n : ℕ) : Text :=
  if n < 0x80 then byte n
  else if n < 0x10000 then '\\' :: 'u' :: hexDigits 4 n
  else if n < 0x80000000 then '\\' :: 'U' :: hexDigits 8 n
  else []

/-- The escapes with hexadecimal digits stand for themselves when they have none. -/
def hexEscape (letter : Char) (encode : ℕ → Text) (digits : Text) : Text × ℕ :=
  (if digits = [] then ['\\', letter] else encode (ofDigits 16 digits), digits.length)

/-- The escapes of one letter. -/
def letterEscape : Char → Option Char
  | '\\' => some '\\'
  | 'a' => some '\x07'
  | 'b' => some '\x08'
  | 'e' => some '\x1b'
  | 'E' => some '\x1b'
  | 'f' => some '\x0c'
  | 'n' => some '\n'
  | 'r' => some '\r'
  | 't' => some '\t'
  | 'v' => some '\x0b'
  | _ => none

/-- What a backslash and `c` stand for in `echo -e`, and how many characters behind `c`
belong to it; `none` for `\c`, which ends the output. -/
def escape (c : Char) (rest : Text) : Option (Text × ℕ) :=
  let octal := (rest.take 3).takeWhile isOctal
  let hex k := (rest.take k).takeWhile isHex
  match c with
  | 'c' => none
  -- up to three octal digits, up to two, four or eight hexadecimal ones
  | '0' => some (byte (ofDigits 8 octal), octal.length)
  | 'x' => some (hexEscape 'x' byte (hex 2))
  | 'u' => some (hexEscape 'u' codePoint (hex 4))
  | 'U' => some (hexEscape 'U' codePoint (hex 8))
  | c => some ((letterEscape c).elim ['\\', c] fun d => [d], 0)

/-- The text that `echo -e` writes, and whether `\c` ended it. -/
def interpretEscapes : Text → Text × Bool
  | [] => ([], false)
  | [c] => ([c], false)
  | c :: d :: rest =>
      if c = '\\' then
        match escape d rest with
        | none => ([], true)
        | some (out, used) =>
            let tail := interpretEscapes (rest.drop used)
            (out ++ tail.1, tail.2)
      else
        let tail := interpretEscapes (d :: rest)
        (c :: tail.1, tail.2)
termination_by s => s.length
decreasing_by
  · simp only [List.length_cons, List.length_drop]
    omega
  · simp only [List.length_cons]
    omega

/-- What `echo` writes before the newline, and whether it leaves the newline out. -/
def echoText (args : List Text) : Text × Bool :=
  -- the first argument that is no option ends the options
  let options := (args.takeWhile isEchoOption).flatten
  let text := joinWords (args.dropWhile isEchoOption)
  -- of `e` and `E` the last one counts
  let escapes := (options.filter fun c => c = 'e' || c = 'E').getLast? = some 'e'
  let out := if escapes then interpretEscapes text else (text, false)
  (out.1, out.2 || options.contains 'n')

/-- `echo args`. -/
def echo (args : List Text) : Text :=
  let out := echoText args
  if out.2 then out.1 else out.1 ++ ['\n']

/-! ## `awk` and command substitution -/

/-- `$k` of a record. -/
def field (k : ℕ) (record : Text) : Text := (words record).getD (k - 1) []

/-- `awk '{ print $k }'`. -/
def awkPrint (k : ℕ) (input : Text) : Text :=
  (Lines.splitLines '\n' input).flatMap fun record => field k record ++ ['\n']

/-- `$(…)`: the output without NUL bytes and trailing newlines. -/
def commandSubst (output : Text) : Text :=
  (output.filter (· ≠ '\x00')).rdropWhile (· = '\n')

example : commandSubst (awkPrint 2 (echo (words "cat  100".toList))) = "100".toList := by
  decide +kernel

/-! ## Word splitting -/

@[simp] theorem isIfs_newline : isIfs '\n' = true := by decide

@[simp] theorem isIfs_blank : isIfs ' ' = true := by decide

/-- Splitting leaves a word alone. -/
theorem words_eq_singleton {w : Text} (hw : IsWord w) : words w = [w] := by
  apply Lexer.tokens_eq_singleton hw.1
  intro c hc
  simp [hw.2 c hc]

/-- A text without separators is a word, or empty. -/
theorem words_of_forall_not {x : Text} (h : ∀ c ∈ x, isIfs c = false) :
    words x = [] ∨ words x = [x] ∧ IsWord x := by
  by_cases hnil : x = []
  · exact .inl (by simp [hnil, words])
  · exact .inr ⟨words_eq_singleton ⟨hnil, h⟩, hnil, h⟩

/-- Every word that splitting gives is left alone by splitting. -/
theorem isWord_of_mem_words {s w : Text} (hw : w ∈ words s) : IsWord w :=
  Lexer.mem_fields hw

/-- An entry of the instruction file has two words. -/
theorem words_pair {v w : Text} (hv : IsWord v) (hw : IsWord w) :
    words (v ++ ' ' :: w) = [v, w] := by
  have h := Lexer.fields_append_sep isIfs_blank v w
  unfold words
  rw [h, ← words, ← words, words_eq_singleton hv, words_eq_singleton hw, List.singleton_append]

theorem words_append_newline (s t : Text) : words (s ++ '\n' :: t) = words s ++ words t :=
  Lexer.fields_append_sep isIfs_newline s t

/-- What has no glob characters is only split. -/
theorem Glob.expansion_eq_words (g : Glob) {s : Text} (h : s.any isGlob = false) :
    g.expansion s = words s := by
  have hkeep : ∀ w ∈ words s, (if w.any isGlob then g.expand w else [w]) = [w] := by
    intro w hw
    have hnone : w.any isGlob = false := by
      apply List.any_eq_false.mpr
      intro c hc
      exact List.any_eq_false.mp h c ((Lexer.infix_of_mem_fields hw).subset hc)
    rw [hnone]
    rfl
  rw [Glob.expansion, List.flatMap_congr hkeep, List.flatMap_singleton']

/-- A word without glob characters is left alone. -/
theorem Glob.expansion_eq_singleton (g : Glob) {w : Text} (hw : IsWord w)
    (h : w.any isGlob = false) : g.expansion w = [w] := by
  rw [g.expansion_eq_words h, words_eq_singleton hw]

/-- What an expansion gives is a word of the text, or the name of a file. -/
theorem Glob.exists_of_mem_expansion (g : Glob) {s v : Text} (h : v ∈ g.expansion s) :
    ∃ w ∈ words s, v = w ∨ '\\' ∉ v := by
  obtain ⟨w, hw, hv⟩ := List.mem_flatMap.mp h
  refine ⟨w, hw, ?_⟩
  split_ifs at hv with hglob
  · exact g.noBackslash w v hv
  · exact .inl (List.mem_singleton.mp hv)

/-- The number of characters other than zeros.  An escape of `echo -e` may become longer, but
only by zeros. -/
def weight (s : Text) : ℕ := s.countP (· ≠ '0')

@[simp] theorem weight_nil : weight [] = 0 := rfl

@[simp] theorem weight_append (s t : Text) : weight (s ++ t) = weight s + weight t :=
  List.countP_append

theorem weight_cons_of_ne {c : Char} (hc : c ≠ '0') (s : Text) :
    weight (c :: s) = weight s + 1 :=
  List.countP_cons_of_pos (by simp [hc])

theorem weight_singleton_le (c : Char) : weight [c] ≤ 1 :=
  List.countP_le_length

theorem weight_le_of_sublist {s t : Text} (h : s.Sublist t) : weight s ≤ weight t :=
  h.countP_le

/-- The weight of some words, with one behind each word. -/
def wordsWeight (ws : List Text) : ℕ := (ws.map fun w => weight w + 1).sum

theorem wordsWeight_words_le (s : Text) : wordsWeight (words s) ≤ weight s + 1 := by
  apply Lexer.sum_fields_le
  intro c hc
  have hne : c ≠ '0' := by
    rintro rfl
    revert hc
    decide
  simp [hne]

/-- A text without NUL bytes is kept as it is. -/
theorem filter_of_notMem {s : Text} (h : '\x00' ∉ s) : s.filter (· ≠ '\x00') = s := by
  apply List.filter_eq_self.mpr
  intro c hc
  simp [ne_of_mem_of_not_mem hc h]

/-! ## Reading lines -/

/-- A line that is ended by a newline is read. -/
theorem readLine_append {body : Text} (hbody : '\n' ∉ body) (rest : Text) :
    readLine (body ++ '\n' :: rest) = some (body.filter (· ≠ '\x00'), rest) := by
  have hrun : ∀ c ∈ body, decide (c ≠ '\n') = true := by
    intro c hc
    simp [ne_of_mem_of_not_mem hc hbody]
  rw [readLine, List.dropWhile_append_of_pos hrun, List.takeWhile_append_of_pos hrun]
  simp

/-- Without a newline nothing is read, whatever is left in the file. -/
theorem readLine_of_notMem {stdin : Text} (h : '\n' ∉ stdin) : readLine stdin = none := by
  have hall : stdin.dropWhile (· ≠ '\n') = [] := by
    apply List.dropWhile_eq_nil_iff.mpr
    intro c hc
    simp [ne_of_mem_of_not_mem hc h]
  rw [readLine, hall]

/-- What was read is a line of the file, except for its NUL bytes. -/
theorem eq_append_of_readLine {stdin line rest : Text} (h : readLine stdin = some (line, rest)) :
    ∃ body, '\n' ∉ body ∧ stdin = body ++ '\n' :: rest ∧
      line = body.filter (· ≠ '\x00') := by
  by_cases hmem : '\n' ∈ stdin
  · obtain ⟨body, rest', rfl, hbody⟩ := List.eq_append_cons_of_mem hmem
    rw [readLine_append hbody] at h
    obtain ⟨rfl, rfl⟩ := Prod.mk.inj (Option.some.inj h)
    exact ⟨body, hbody, rfl, rfl⟩
  · rw [readLine_of_notMem hmem] at h
    cases h

theorem length_of_readLine {stdin line rest : Text} (h : readLine stdin = some (line, rest)) :
    line.length + 1 + rest.length ≤ stdin.length := by
  obtain ⟨body, -, rfl, rfl⟩ := eq_append_of_readLine h
  have := List.length_filter_le (· ≠ '\x00') body
  simp only [List.length_append, List.length_cons]
  omega

/-! ## The output of `echo` -/

theorem hexValue_lt {c : Char} (hc : isHex c = true) : hexValue c < 16 := by
  -- a digit is an ASCII character, and of these there are few enough to look at all
  have hascii : c.toNat < 128 := by
    simp only [isHex, Char.isDigit, Bool.or_eq_true, Bool.and_eq_true, decide_eq_true_eq,
      Char.le_def, UInt32.le_iff_toNat_le] at hc
    have hbound : c.toNat ≤ 102 := by
      rcases hc with (⟨-, h⟩ | ⟨-, h⟩) | ⟨-, h⟩ <;> exact Nat.le_trans h (by decide)
    omega
  have hall : ∀ k < 128, isHex (Char.ofNat k) = true → hexValue (Char.ofNat k) < 16 := by
    decide +kernel
  have h := hall c.toNat hascii
  rw [Char.ofNat_toNat] at h
  exact h hc

/-- Only the zeros count for nothing when a number is written again. -/
theorem weight_digit_le (d : Char) :
    weight [(Nat.digitChar (hexValue d % 16)).toUpper] ≤ weight [d] := by
  by_cases hzero : d = '0'
  · subst hzero
    decide
  · rw [weight_cons_of_ne hzero]
    exact weight_singleton_le _

/-- Writing a number again adds no digit but zeros. -/
theorem weight_hexDigits_le {digits : Text} (hdigits : ∀ c ∈ digits, isHex c = true) (k : ℕ) :
    weight (hexDigits k (ofDigits 16 digits)) ≤ weight digits := by
  induction k generalizing digits with
  | zero => exact Nat.zero_le _
  | succ k ih =>
      rw [hexDigits, weight_append]
      -- on the last digit, which is the last one of the number
      rcases List.eq_nil_or_concat digits with rfl | ⟨init, d, rfl⟩
      · exact Nat.add_le_add (ih hdigits) (by decide : weight ['0'] ≤ 0)
      · rw [List.concat_eq_append] at hdigits ⊢
        have hinit := ih fun c hc => hdigits c (List.mem_append_left _ hc)
        have hd := hexValue_lt (hdigits d (by simp))
        have hvalue : ofDigits 16 (init ++ [d]) = 16 * ofDigits 16 init + hexValue d := by
          simp [ofDigits]
        have hdiv : ofDigits 16 (init ++ [d]) / 16 = ofDigits 16 init := by omega
        have hmod : ofDigits 16 (init ++ [d]) % 16 = hexValue d % 16 := by omega
        rw [hdiv, hmod, weight_append]
        exact Nat.add_le_add hinit (weight_digit_le d)

theorem weight_codePoint_le {digits : Text} (hdigits : ∀ c ∈ digits, isHex c = true) :
    weight (codePoint (ofDigits 16 digits)) ≤ weight digits + 2 := by
  have hfour := weight_hexDigits_le hdigits 4
  have height := weight_hexDigits_le hdigits 8
  unfold codePoint
  split_ifs
  · exact Nat.le_trans (weight_singleton_le _) (by omega)
  · rw [weight_cons_of_ne (by decide), weight_cons_of_ne (by decide)]
    omega
  · rw [weight_cons_of_ne (by decide), weight_cons_of_ne (by decide)]
    omega
  · exact Nat.zero_le _

theorem weight_byte_le (n k : ℕ) : weight (byte n) ≤ k + 1 :=
  Nat.le_trans (weight_singleton_le _) (Nat.le_add_left 1 k)

/-- An escape with hexadecimal digits, against the characters that it is written with. -/
theorem weight_hexEscape_le {letter : Char} (hletter : letter ≠ '0') {encode : ℕ → Text}
    {digits : Text} (h : weight (encode (ofDigits 16 digits)) ≤ weight digits + 2) :
    weight (hexEscape letter encode digits).1 ≤ weight ('\\' :: letter :: digits) := by
  rw [weight_cons_of_ne (by decide), weight_cons_of_ne hletter]
  unfold hexEscape
  split_ifs with hne
  · rw [weight_cons_of_ne (by decide), weight_cons_of_ne hletter, hne]
  · exact h

/-- The digits of an escape are what it takes from the text behind it. -/
theorem take_length_takeWhile (p : Char → Bool) (k : ℕ) (rest : Text) :
    rest.take ((rest.take k).takeWhile p).length = (rest.take k).takeWhile p :=
  (List.prefix_iff_eq_take.mp
    ((List.takeWhile_prefix p).trans (List.take_prefix k rest))).symm

/-- An escape stands for no more than it is written with, up to zeros. -/
theorem weight_escape_le {c : Char} {rest out : Text} {used : ℕ}
    (h : escape c rest = some (out, used)) :
    weight out ≤ weight ('\\' :: c :: rest.take used) := by
  have hhex : ∀ k, ∀ d ∈ (rest.take k).takeWhile isHex, isHex d = true :=
    fun k d hd => List.mem_takeWhile_imp hd
  unfold escape at h
  split at h
  -- `\c` gives nothing; the others are an octal, three hexadecimal and the letter escapes
  case h_1 => cases h
  all_goals obtain ⟨rfl, rfl⟩ := h
  case h_2 =>
    rw [weight_cons_of_ne (by decide)]
    exact weight_byte_le ..
  case h_3 =>
    simp only [take_length_takeWhile]
    exact weight_hexEscape_le (by decide) (weight_byte_le ..)
  case h_4 =>
    simp only [take_length_takeWhile]
    exact weight_hexEscape_le (by decide) (weight_codePoint_le (hhex 4))
  case h_5 =>
    simp only [take_length_takeWhile]
    exact weight_hexEscape_le (by decide) (weight_codePoint_le (hhex 8))
  case h_6 =>
    cases letterEscape c with
    | none => exact Nat.le_refl _
    | some d =>
        rw [weight_cons_of_ne (by decide)]
        exact Nat.le_trans (weight_singleton_le d) (Nat.le_add_left ..)

/-- Escapes never make a text longer, except by zeros. -/
theorem weight_interpretEscapes_le (s : Text) : weight (interpretEscapes s).1 ≤ weight s := by
  induction s using interpretEscapes.induct with
  | case1 => simp [interpretEscapes]
  | case2 c => simp [interpretEscapes]
  | case3 d rest hesc => simp [interpretEscapes, hesc]
  | case4 d rest out used hesc ih =>
      have hsplit : weight ('\\' :: d :: rest) =
          weight ('\\' :: d :: rest.take used) + weight (rest.drop used) := by
        rw [← weight_append, List.cons_append, List.cons_append, List.take_append_drop]
      simp only [interpretEscapes, hesc, if_true, weight_append, hsplit]
      exact Nat.add_le_add (weight_escape_le hesc) ih
  | case5 c d rest hc ih =>
      have hout : weight (c :: (interpretEscapes (d :: rest)).1) =
          weight [c] + weight (interpretEscapes (d :: rest)).1 := weight_append [c] _
      have hin : weight (c :: d :: rest) = weight [c] + weight (d :: rest) := weight_append [c] _
      simp only [interpretEscapes, if_neg hc, hout, hin]
      exact Nat.add_le_add_left ih _

theorem weight_echoText_le (args : List Text) :
    weight (echoText args).1 ≤ weight (joinWords (args.dropWhile isEchoOption)) := by
  unfold echoText
  dsimp only
  split_ifs
  · exact weight_interpretEscapes_le _
  · exact Nat.le_refl _

/-- Without a backslash there are no escapes. -/
theorem interpretEscapes_of_notMem {s : Text} (h : '\\' ∉ s) :
    (interpretEscapes s).1 = s := by
  induction s with
  | nil => rw [interpretEscapes]
  | cons c s ih =>
      obtain ⟨hc, hs⟩ : '\\' ≠ c ∧ '\\' ∉ s := by simpa using h
      cases s with
      | nil => rw [interpretEscapes]
      | cons d s =>
          rw [interpretEscapes, if_neg (Ne.symm hc)]
          exact congrArg (c :: ·) (ih hs)

theorem echoText_of_notMem {args : List Text}
    (h : '\\' ∉ joinWords (args.dropWhile isEchoOption)) :
    (echoText args).1 = joinWords (args.dropWhile isEchoOption) := by
  unfold echoText
  dsimp only
  split_ifs
  · exact interpretEscapes_of_notMem h
  · rfl

/-- Without options `echo` writes its arguments. -/
theorem echo_of_not_option {w : Text} (hw : isEchoOption w = false) (ws : List Text) :
    echo (w :: ws) = joinWords (w :: ws) ++ ['\n'] := by
  simp [echo, echoText, hw]

/-- A single argument is written as it is, or as an option not at all. -/
theorem echoText_singleton (w : Text) :
    (echoText [w]).1 = joinWords ([w].dropWhile isEchoOption) := by
  by_cases hoption : isEchoOption w = true
  · apply echoText_of_notMem
    simp [hoption, joinWords]
  · simp [echoText, hoption]

/-- The newline at the end is not part of any word. -/
theorem words_echo (args : List Text) : words (echo args) = words (echoText args).1 := by
  unfold echo
  dsimp only
  split_ifs
  · rfl
  · rw [words_append_newline]
    simp [words]

/-- Where `echo` writes at most one argument as it is, there is at most one word. -/
theorem length_words_echo_le {args : List Text} (hwords : ∀ w ∈ args, IsWord w)
    (hout : (echoText args).1 = joinWords (args.dropWhile isEchoOption))
    (hone : (args.dropWhile isEchoOption).length ≤ 1) : (words (echo args)).length ≤ 1 := by
  rw [words_echo, hout]
  match hrest : args.dropWhile isEchoOption with
  | [] => simp [joinWords, words]
  | [w] =>
      have hw : w ∈ args := (List.dropWhile_suffix _).subset (hrest ▸ List.mem_singleton_self w)
      rw [joinWords, words_eq_singleton (hwords w hw)]
      exact Nat.le_refl _
  | _ :: _ :: _ =>
      rw [hrest] at hone
      simp at hone

/-! ## The fields that `awk` prints -/

theorem isWord_field {k : ℕ} {record : Text} (h : field k record ≠ []) :
    IsWord (field k record) := by
  unfold field at h ⊢
  rw [List.getD_eq_getElem?_getD] at h ⊢
  cases hget : (words record)[k - 1]? with
  | none => simp [hget] at h
  | some w => exact isWord_of_mem_words (List.mem_of_getElem? hget)

/-- The words of a text are those of its lines. -/
theorem flatMap_words_splitLines (s : Text) :
    (Lines.splitLines '\n' s).flatMap words = words s := by
  induction s using Lines.induction_on '\n' with
  | last l hl =>
      by_cases hne : l = []
      · simp [hne, Lines.splitLines, words]
      · simp [Lines.splitLines_of_notMem hne hl]
  | line body rest hbody ih =>
      rw [Lines.splitLines_append hbody, List.flatMap_cons, ih, words_append_newline,
        words_append_newline]
      simp [words]

/-- What `awk '{ print $k }'` prints has one word for each record that has the field. -/
theorem words_awkPrint (k : ℕ) (input : Text) :
    words (awkPrint k input) =
      ((Lines.splitLines '\n' input).map (field k)).filter (· ≠ []) := by
  unfold awkPrint
  induction Lines.splitLines '\n' input with
  | nil => simp [words]
  | cons record records ih =>
      rw [List.flatMap_cons, List.append_assoc, List.singleton_append, words_append_newline, ih]
      by_cases hne : field k record = []
      · simp [hne, words]
      · simp [hne, words_eq_singleton (isWord_field hne)]

/-- The newlines that command substitution drops separate nothing. -/
theorem words_commandSubst (output : Text) :
    words (commandSubst output) = words (output.filter (· ≠ '\x00')) := by
  have hsplit := List.rdropWhile_append_rtakeWhile (p := fun c => decide (c = '\n'))
    (l := output.filter (· ≠ '\x00'))
  rw [commandSubst, words, words, ← hsplit]
  rw [Lexer.fields_append_of_forall_sep, hsplit]
  intro c hc
  have hnl := List.mem_rtakeWhile_imp hc
  rw [of_decide_eq_true hnl]
  exact isIfs_newline

/-- Command substitution shortens words by their NUL bytes. -/
theorem exists_of_mem_words_commandSubst {output w : Text} (h : w ∈ words (commandSubst output)) :
    ∃ v ∈ words output, weight w ≤ weight v := by
  rw [words_commandSubst] at h
  -- no separator is a NUL byte
  have hkeep : ∀ c, isIfs c = true → decide (c ≠ '\x00') = true := by
    intro c hc
    have hne : c ≠ '\x00' := by
      rintro rfl
      revert hc
      decide
    simp [hne]
  obtain ⟨v, hv, rfl⟩ := Lexer.exists_of_mem_fields_filter hkeep h
  exact ⟨v, hv, weight_le_of_sublist List.filter_sublist⟩

/-- The weight of `$k` in a record. -/
def fieldWeight (k : ℕ) (record : Text) : ℕ :=
  if field k record = [] then 0 else weight (field k record) + 1

/-- The first two fields of a record fit into it. -/
theorem fieldWeight_add_le (record : Text) :
    fieldWeight 1 record + fieldWeight 2 record ≤ wordsWeight (words record) := by
  have hle : ∀ w : Text, (if w = [] then 0 else weight w + 1) ≤ weight w + 1 := by
    intro w
    split_ifs <;> omega
  unfold fieldWeight field wordsWeight
  match words record with
  | [] => simp
  | [v] => simpa using hle v
  | v :: w :: ws =>
      have hv := hle v
      have hw := hle w
      simp only [Nat.sub_self, Nat.reduceSub, List.getD_cons_zero, List.getD_cons_succ,
        List.map_cons, List.sum_cons]
      omega

theorem sum_fieldWeight_add_le (records : List Text) :
    (records.map (fieldWeight 1)).sum + (records.map (fieldWeight 2)).sum ≤
      wordsWeight (records.flatMap words) := by
  induction records with
  | nil => simp [wordsWeight]
  | cons record records ih =>
      have hrecord := fieldWeight_add_le record
      have hsize : wordsWeight ((record :: records).flatMap words) =
          wordsWeight (words record) + wordsWeight (records.flatMap words) := by
        simp [wordsWeight]
      simp only [List.map_cons, List.sum_cons]
      omega

/-- A word that was read through awk has a field to itself. -/
theorem weight_lt_sum_fieldWeight {k : ℕ} {input w : Text}
    (h : w ∈ words (commandSubst (awkPrint k input))) :
    weight w < ((Lines.splitLines '\n' input).map (fieldWeight k)).sum := by
  obtain ⟨v, hv, hlen⟩ := exists_of_mem_words_commandSubst h
  rw [words_awkPrint, List.mem_filter, List.mem_map] at hv
  obtain ⟨⟨record, hrecord, rfl⟩, hne⟩ := hv
  have hsize : fieldWeight k record = weight (field k record) + 1 := if_neg (by simpa using hne)
  have hmem : fieldWeight k record ≤ ((Lines.splitLines '\n' input).map (fieldWeight k)).sum :=
    List.le_sum_of_mem (List.mem_map_of_mem hrecord)
  omega

/-- **Two fields of a text** that are read through awk fit into it together. -/
theorem weight_add_weight_le {input v w : Text}
    (hv : v ∈ words (commandSubst (awkPrint 1 input)))
    (hw : w ∈ words (commandSubst (awkPrint 2 input))) :
    weight v + weight w + 2 ≤ wordsWeight (words input) := by
  have hv' := weight_lt_sum_fieldWeight hv
  have hw' := weight_lt_sum_fieldWeight hw
  have hfields := sum_fieldWeight_add_le (Lines.splitLines '\n' input)
  rw [flatMap_words_splitLines] at hfields
  omega

/-- Whose second field awk prints has two words. -/
theorem two_le_length_words {input w : Text} (h : w ∈ words (commandSubst (awkPrint 2 input))) :
    2 ≤ (words input).length := by
  obtain ⟨v, hv, -⟩ := exists_of_mem_words_commandSubst h
  rw [words_awkPrint, List.mem_filter, List.mem_map] at hv
  obtain ⟨⟨record, hrecord, rfl⟩, hne⟩ := hv
  have hrecordWords : 2 ≤ (words record).length := by
    by_contra hshort
    have hnone : field 2 record = [] := by
      rw [field, List.getD_eq_getElem?_getD, List.getElem?_eq_none (by omega)]
      rfl
    simp [hnone] at hne
  have hall : (words record).length ≤ (words input).length := by
    rw [← flatMap_words_splitLines input, List.length_flatMap]
    exact List.le_sum_of_mem (List.mem_map_of_mem hrecord)
  exact Nat.le_trans hrecordWords hall

/-- A field of a single line, as `$(echo … | awk '{ print $k }')` gives it. -/
theorem commandSubst_awkPrint_line {k : ℕ} {body w : Text} (hbody : '\n' ∉ body)
    (hfield : field k (body ++ ['\n']) = w) (hw : IsWord w) (hnul : '\x00' ∉ w) :
    commandSubst (awkPrint k (body ++ ['\n'])) = w := by
  -- a single record
  have hprint : awkPrint k (body ++ ['\n']) = w ++ ['\n'] := by
    have hline : Lines.splitLines '\n' (body ++ ['\n']) = [body ++ ['\n']] :=
      Lines.splitLines_append hbody []
    simp [awkPrint, hline, hfield]
  have hkeep : (w ++ ['\n']).filter (· ≠ '\x00') = w ++ ['\n'] := by
    apply filter_of_notMem
    simp [hnul]
  -- the last character of a word is no newline, so only the one behind the word is dropped
  have hlast : w.rdropWhile (· = '\n') = w := by
    apply List.rdropWhile_eq_self_iff.mpr
    intro hne hlast
    have hifs := hw.2 _ (List.getLast_mem hne)
    rw [of_decide_eq_true hlast, isIfs_newline] at hifs
    cases hifs
  rw [hprint, commandSubst, hkeep, List.rdropWhile_concat_pos _ _ _ (by decide), hlast]

/-- **Name and limit**: `echo` writes two words, and awk finds them again. -/
theorem commandSubst_awkPrint_echo {v w : Text} (hv : IsWord v) (hw : IsWord w)
    (hoption : isEchoOption v = false) (hnul : '\x00' ∉ v ++ w) :
    commandSubst (awkPrint 1 (echo [v, w])) = v ∧ commandSubst (awkPrint 2 (echo [v, w])) = w := by
  obtain ⟨hnul₁, hnul₂⟩ : '\x00' ∉ v ∧ '\x00' ∉ w := by simpa using hnul
  have hecho : echo [v, w] = v ++ ' ' :: w ++ ['\n'] := echo_of_not_option hoption [w]
  have hwords : words (v ++ ' ' :: w ++ ['\n']) = [v, w] := by
    rw [words_append_newline, words_pair hv hw]
    simp [words]
  have hline : '\n' ∉ v ++ ' ' :: w := by
    intro hmem
    rcases List.mem_append.mp hmem with hmem | hmem
    · simpa using hv.2 _ hmem
    · rcases List.mem_cons.mp hmem with hblank | hmem
      · revert hblank
        decide
      · simpa using hw.2 _ hmem
  have hfield₁ : field 1 (v ++ ' ' :: w ++ ['\n']) = v := by rw [field, hwords]; rfl
  have hfield₂ : field 2 (v ++ ' ' :: w ++ ['\n']) = w := by rw [field, hwords]; rfl
  rw [hecho]
  exact ⟨commandSubst_awkPrint_line hline hfield₁ hv hnul₁,
    commandSubst_awkPrint_line hline hfield₂ hw hnul₂⟩

end SmtCacheBenchmarks.Coreutils
