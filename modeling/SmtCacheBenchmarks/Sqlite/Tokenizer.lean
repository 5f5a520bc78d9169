import SmtCacheBenchmarks.Sqlite.Keyword

/-!
# SQLite's Tokenizer

Model of `sqlite3GetToken` in `tokenize.c`.  The function gets a pointer into memory; the
memory from there on is a list of characters, in which the NUL that ends the statement is
an ordinary character and may have others behind it.  A read beyond the end of the list
fails (`none`).  The `int` that counts the bytes of the token is a natural number here; the
parser loop fails when it has overflowed.
-/

namespace SmtCacheBenchmarks.Sqlite

/-! ## Character classes -/

/-- The `CC_` classes. -/
inductive CharClass where
  | x | kywd | id | digit | dollar | varalpha | varnum | space | quote | quote2 | pipe | minus
  | lt | gt | eq | bang | slash | lp | rp | semi | plus | star | percent | comma | and | tilda
  | dot | illegal
deriving DecidableEq

/-- The class with a code. -/
def CharClass.ofCode (code : ℕ) : CharClass :=
  [.x, .kywd, .id, .digit, .dollar, .varalpha, .varnum, .space, .quote, .quote2, .pipe, .minus,
   .lt, .gt, .eq, .bang, .slash, .lp, .rp, .semi, .plus, .star, .percent, .comma, .and, .tilda,
   .dot].getD code .illegal

/-- `aiClass` for ASCII. -/
def aiClassTable : List ℕ :=
  [27, 27, 27, 27, 27, 27, 27, 27, 27,  7,  7, 27,  7,  7, 27, 27,
   27, 27, 27, 27, 27, 27, 27, 27, 27, 27, 27, 27, 27, 27, 27, 27,
    7, 15,  8,  5,  4, 22, 24,  8, 17, 18, 21, 20, 23, 11, 26, 16,
    3,  3,  3,  3,  3,  3,  3,  3,  3,  3,  5, 19, 12, 14, 13,  6,
    5,  1,  1,  1,  1,  1,  1,  1,  1,  1,  1,  1,  1,  1,  1,  1,
    1,  1,  1,  1,  1,  1,  1,  1,  0,  1,  1,  9, 27, 27, 27,  1,
    8,  1,  1,  1,  1,  1,  1,  1,  1,  1,  1,  1,  1,  1,  1,  1,
    1,  1,  1,  1,  1,  1,  1,  1,  0,  1,  1, 27, 10, 27, 25, 27]

/-- `aiClass`; all characters outside of ASCII are of the class 2. -/
def aiClass (c : Char) : CharClass := .ofCode (aiClassTable.getD c.toNat 2)

/-- `sqlite3Isspace`. -/
def sqlite3Isspace (c : Char) : Bool := c = ' ' || 9 ≤ c.toNat && c.toNat ≤ 13

/-- `sqlite3Isdigit`. -/
def sqlite3Isdigit (c : Char) : Bool := c.isDigit

/-- `sqlite3Isxdigit`. -/
def sqlite3Isxdigit (c : Char) : Bool :=
  c.isDigit || 97 ≤ c.toNat && c.toNat ≤ 102 || 65 ≤ c.toNat && c.toNat ≤ 70

/-- `aiClass[c]<=CC_KYWD`. -/
def isKywdClass (c : Char) : Bool := aiClass c = .x || aiClass c = .kywd

/-! ## The loops -/

/-- `while( p(z[i]) ) i++`: how far the loop goes. -/
def skip (p : Char → Bool) : Text → Option ℕ
  | [] => none
  | c :: z => if p c then (skip p z).map (· + 1) else some 0

/-- The loop of a comment, from `z[i]` on: how far it goes, and whether it ended before
the NUL.  `c` is the character before. -/
def commentLoop : Char → Text → Option (ℕ × Bool)
  | _, [] => none
  | c, d :: z =>
      if c = '*' ∧ d = '/' then some (0, true)
      else if d = '\x00' then some (0, false)
      else (commentLoop d z).map fun r => (r.1 + 1, r.2)

/-- The loop of a quoted string, from `z[i]` on: how far it goes, and whether it ended at
a delimiter.  Two delimiters stand for one in the string. -/
def quoteLoop (delim : Char) : Text → Option (ℕ × Bool)
  | [] => none
  | c :: z =>
      if c = '\x00' then some (0, false)
      else if c = delim then
        match z with
        | [] => none
        | d :: z =>
            if d = delim then (quoteLoop delim z).map fun r => (r.1 + 2, r.2) else some (0, true)
      else (quoteLoop delim z).map fun r => (r.1 + 1, r.2)

/-- The loop of an identifier in brackets, from `z[i]` on: how far it goes, and whether
it has passed the closing bracket. -/
def bracketLoop : Text → Option (ℕ × Bool)
  | [] => none
  | c :: z =>
      if c = '\x00' then some (0, false)
      else if c = ']' then some (1, true)
      else (bracketLoop z).map fun r => (r.1 + 1, r.2)

/-- The loop of a variable, from `z[i]` on: how far it goes, the number of characters of
its name, and whether the parameters of a TCL variable are not closed. -/
def variableLoop : ℕ → Text → Option (ℕ × ℕ × Bool)
  | _, [] => none
  | n, c :: z =>
      if c = '\x00' then some (0, n, false)
      else if isIdChar c then (variableLoop (n + 1) z).map fun r => (r.1 + 1, r.2)
      else if c = '(' ∧ 0 < n then do
        let k ← skip (fun c => c ≠ '\x00' && !sqlite3Isspace c && c ≠ ')') z
        let c ← z[k]?
        if c = ')' then return (1 + k + 1, n, false) else return (1 + k, n, true)
      else if c = ':' then
        match z with
        | [] => none
        | d :: z =>
            if d = ':' then (variableLoop n z).map fun r => (r.1 + 2, r.2)
            else some (0, n, false)
      else some (0, n, false)

theorem quoteLoop_cons (delim c : Char) (z : Text) :
    quoteLoop delim (c :: z) =
      if c = '\x00' then some (0, false)
      else if c = delim then
        z.head?.bind fun d =>
          if d = delim then (quoteLoop delim z.tail).map fun r => (r.1 + 2, r.2)
          else some (0, true)
      else (quoteLoop delim z).map fun r => (r.1 + 1, r.2) := by
  rw [quoteLoop.eq_def]
  cases z <;> rfl

theorem variableLoop_cons (n : ℕ) (c : Char) (z : Text) :
    variableLoop n (c :: z) =
      if c = '\x00' then some (0, n, false)
      else if isIdChar c then (variableLoop (n + 1) z).map fun r => (r.1 + 1, r.2)
      else if c = '(' ∧ 0 < n then do
        let k ← skip (fun c => c ≠ '\x00' && !sqlite3Isspace c && c ≠ ')') z
        let c ← z[k]?
        if c = ')' then return (1 + k + 1, n, false) else return (1 + k, n, true)
      else if c = ':' then
        z.head?.bind fun d =>
          if d = ':' then (variableLoop n z.tail).map fun r => (r.1 + 2, r.2)
          else some (0, n, false)
      else some (0, n, false) := by
  rw [variableLoop.eq_def]
  cases z <;> rfl

/-! ## Numbers -/

/-- `z[0]=='0' && (z[1]=='x' || z[1]=='X') && sqlite3Isxdigit(z[2])`. -/
def isHexNumber : Text → Option Bool
  | [] => none
  | c :: z =>
      if c ≠ '0' then some false
      else
        match z with
        | [] => none
        | d :: z => if d = 'x' ∨ d = 'X' then z.head?.map sqlite3Isxdigit else some false

/-- Does an exponent begin here? -/
def isExponent : Text → Option Bool
  | [] => none
  | c :: z =>
      if c ≠ 'e' ∧ c ≠ 'E' then some false
      else
        match z with
        | [] => none
        | d :: z =>
            if sqlite3Isdigit d then some true
            else if d = '+' ∨ d = '-' then z.head?.map sqlite3Isdigit
            else some false

/-- The digits behind a decimal point: the index behind them. -/
def skipFraction (z : Text) (i : ℕ) : Option (ℕ × TokenType) := do
  let c ← z[i]?
  if c = '.' then do
    let k ← skip sqlite3Isdigit (z.drop (i + 1))
    return (i + 1 + k, .tkFloat)
  else return (i, .tkInteger)

/-- The exponent: the index behind it. -/
def skipExponent (z : Text) (i : ℕ) (type : TokenType) : Option (ℕ × TokenType) := do
  let exponent ← isExponent (z.drop i)
  if exponent then do
    let k ← skip sqlite3Isdigit (z.drop (i + 2))
    return (i + 2 + k, .tkFloat)
  else return (i, type)

/-- The case `CC_DIGIT`. -/
def numberToken (z : Text) : Option (ℕ × TokenType) := do
  let hex ← isHexNumber z
  if hex then do
    let k ← skip sqlite3Isxdigit (z.drop 3)
    return (3 + k, .tkInteger)
  else do
    let i ← skip sqlite3Isdigit z
    let (i, type) ← skipFraction z i
    let (i, type) ← skipExponent z i type
    let k ← skip isIdChar (z.drop i)
    return (i + k, if k = 0 then type else .tkIllegal)

/-! ## Words -/

/-- The end of the function: an identifier, of which `i` characters are known. -/
def idToken (z : Text) (i : ℕ) : Option (ℕ × TokenType) := do
  let k ← skip isIdChar (z.drop i)
  return (i + k, .tkId)

/-- The case `CC_KYWD`. -/
def wordToken (z : Text) : Option (ℕ × TokenType) := do
  let k ← skip isKywdClass (z.drop 1)
  let c ← z[1 + k]?
  if isIdChar c then idToken z (1 + k + 1)
  else return (1 + k, sqlite3KeywordCode (z.take (1 + k)))

/-- The case of a BLOB literal. -/
def blobToken (z : Text) : Option (ℕ × TokenType) := do
  let k ← skip sqlite3Isxdigit (z.drop 2)
  let c ← z[2 + k]?
  if c ≠ '\'' ∨ (2 + k) % 2 = 1 then do
    let j ← skip (fun c => c ≠ '\x00' && c ≠ '\'') (z.drop (2 + k))
    let c ← z[2 + k + j]?
    return (if c = '\x00' then 2 + k + j else 2 + k + j + 1, .tkIllegal)
  else return (2 + k + 1, .tkBlob)

/-! ## The function -/

/-- A token of one or two characters, by the second one. -/
def operatorToken (z : Text) (type : TokenType) (second : Char → Option TokenType) :
    Option (ℕ × TokenType) :=
  (z[1]?).map fun c =>
    match second c with
    | some type => (2, type)
    | none => (1, type)

/-- `sqlite3GetToken`: the length and the type of the token at `z[0]`. -/
def sqlite3GetToken (z : Text) : Option (ℕ × TokenType) := do
  let c ← z[0]?
  match aiClass c with
  | .space => do
      let k ← skip sqlite3Isspace (z.drop 1)
      return (1 + k, .tkSpace)
  | .minus => do
      let d ← z[1]?
      if d = '-' then do
        let k ← skip (fun c => c ≠ '\x00' && c ≠ '\n') (z.drop 2)
        return (2 + k, .tkSpace)
      else return (1, .tkMinus)
  | .lp => return (1, .tkLp)
  | .rp => return (1, .tkRp)
  | .semi => return (1, .tkSemi)
  | .plus => return (1, .tkPlus)
  | .star => return (1, .tkStar)
  | .slash => do
      let d ← z[1]?
      if d ≠ '*' then return (1, .tkSlash)
      else do
        let e ← z[2]?
        if e = '\x00' then return (1, .tkSlash)
        else do
          let (k, closed) ← commentLoop e (z.drop 3)
          return (if closed then 3 + k + 1 else 3 + k, .tkSpace)
  | .percent => return (1, .tkRem)
  | .eq => operatorToken z .tkEq fun c => if c = '=' then some .tkEq else none
  | .lt => operatorToken z .tkLt fun c =>
      if c = '=' then some .tkLe else if c = '>' then some .tkNe
      else if c = '<' then some .tkLshift else none
  | .gt => operatorToken z .tkGt fun c =>
      if c = '=' then some .tkGe else if c = '>' then some .tkRshift else none
  | .bang => operatorToken z .tkIllegal fun c => if c = '=' then some .tkNe else none
  | .pipe => operatorToken z .tkBitor fun c => if c = '|' then some .tkConcat else none
  | .comma => return (1, .tkComma)
  | .and => return (1, .tkBitand)
  | .tilda => return (1, .tkBitnot)
  | .quote => do
      let (k, closed) ← quoteLoop c (z.drop 1)
      return if closed then (1 + k + 1, if c = '\'' then .tkString else .tkId)
        else (1 + k, .tkIllegal)
  | .dot => do
      let d ← z[1]?
      if sqlite3Isdigit d then numberToken z else return (1, .tkDot)
  | .digit => numberToken z
  | .quote2 => do
      let (k, closed) ← bracketLoop (z.drop 1)
      return (1 + k, if closed then .tkId else .tkIllegal)
  | .varnum => do
      let k ← skip sqlite3Isdigit (z.drop 1)
      return (1 + k, .tkVariable)
  | .dollar | .varalpha => do
      let (k, n, illegal) ← variableLoop 0 (z.drop 1)
      return (1 + k, if illegal ∨ n = 0 then .tkIllegal else .tkVariable)
  | .kywd => wordToken z
  | .x => do
      let d ← z[1]?
      if d = '\'' then blobToken z else idToken z 1
  | .id => idToken z 1
  | .illegal => return (1, .tkIllegal)

example : sqlite3GetToken "trigger t\x00".toList = some (7, .tkTrigger) := by decide +kernel

/-! ## Reading inside of a statement -/

/-- The memory of a statement that is followed by its NUL and anything else. -/
def memory (z rest : Text) : Text := z ++ '\x00' :: rest

@[simp] theorem memory_nil (rest : Text) : memory [] rest = '\x00' :: rest := rfl

@[simp] theorem memory_cons (c : Char) (z rest : Text) :
    memory (c :: z) rest = c :: memory z rest := rfl

theorem getElem?_memory {z : Text} {i : ℕ} (hi : i ≤ z.length) (rest : Text) :
    (memory z rest)[i]? = some (z.getD i '\x00') := by
  rw [memory, List.getD_eq_getElem?_getD]
  by_cases hlt : i < z.length
  · rw [List.getElem?_append_left hlt, List.getElem?_eq_getElem hlt]
    rfl
  · obtain rfl : i = z.length := by omega
    rw [List.getElem?_append_right (Nat.le_refl _), Nat.sub_self,
      List.getElem?_eq_none (Nat.le_refl _)]
    rfl

theorem drop_memory {z : Text} {i : ℕ} (hi : i ≤ z.length) (rest : Text) :
    (memory z rest).drop i = memory (z.drop i) rest :=
  List.drop_append_of_le_length hi

theorem take_memory {z : Text} {i : ℕ} (hi : i ≤ z.length) (rest : Text) :
    (memory z rest).take i = z.take i :=
  List.take_append_of_le_length hi

/-- A character that is not the NUL stands inside of the statement. -/
theorem lt_length_of_getD {z : Text} {i : ℕ} (h : z.getD i '\x00' ≠ '\x00') : i < z.length := by
  by_contra hlt
  rw [List.getD_eq_getElem?_getD, List.getElem?_eq_none (by omega)] at h
  exact h rfl

/-- A loop that stops at the NUL passes over the characters that it accepts. -/
theorem skip_memory {p : Char → Bool} (hp : p '\x00' = false) (z rest : Text) :
    skip p (memory z rest) = some (z.takeWhile p).length := by
  induction z with
  | nil => simp [skip, hp]
  | cons c z ih =>
      rw [memory_cons, skip, ih]
      by_cases hc : p c = true
      · simp [hc]
      · simp [hc]

theorem length_takeWhile_drop_le (p : Char → Bool) (z : Text) (i : ℕ) :
    ((z.drop i).takeWhile p).length ≤ z.length - i := by
  rw [← List.length_drop]
  exact (List.takeWhile_sublist p).length_le

/-! ## The loops stay inside -/

/-- The loop of a comment ends inside of the statement or at its NUL. -/
theorem commentLoop_memory (c : Char) (z : Text) :
    ∃ k closed, k + (if closed then 1 else 0) ≤ z.length ∧
      ∀ rest, commentLoop c (memory z rest) = some (k, closed) := by
  induction z generalizing c with
  | nil => exact ⟨0, false, Nat.le_refl _, fun rest => by simp [commentLoop]⟩
  | cons d z ih =>
      obtain ⟨k, closed, hk, hloop⟩ := ih d
      by_cases hend : c = '*' ∧ d = '/'
      · exact ⟨0, true, by simp, fun rest => by simp [commentLoop, hend]⟩
      · by_cases hd : d = '\x00'
        · exact ⟨0, false, by simp, fun rest => by simp [commentLoop, hd]⟩
        · refine ⟨k + 1, closed, ?_, fun rest => ?_⟩
          · rw [List.length_cons]
            omega
          · rw [memory_cons, commentLoop, if_neg hend, if_neg hd, hloop rest]
            rfl

/-- The loop of a quoted string ends at a delimiter of the statement or at its NUL. -/
theorem quoteLoop_memory {delim : Char} (hdelim : delim ≠ '\x00') (z : Text) :
    ∃ k closed, k + (if closed then 1 else 0) ≤ z.length ∧
      ∀ rest, quoteLoop delim (memory z rest) = some (k, closed) := by
  have hnul : ∀ rest, quoteLoop delim ('\x00' :: rest) = some (0, false) := by
    intro rest
    rw [quoteLoop_cons, if_pos rfl]
  -- two characters may be passed over at once
  induction z using List.twoStepInduction with
  | nil => exact ⟨0, false, Nat.le_refl _, hnul⟩
  | singleton c =>
      by_cases hc : c = '\x00'
      · exact ⟨0, false, by simp, fun rest => by simp [quoteLoop_cons, hc]⟩
      · by_cases hd : c = delim
        · exact ⟨0, true, by simp, fun rest => by
            simp [quoteLoop_cons, hd, hdelim, Ne.symm hdelim]⟩
        · exact ⟨1, false, by simp, fun rest => by simp [quoteLoop_cons, hc, hd]⟩
  | cons_cons c d z ih ih' =>
      obtain ⟨k, closed, hk, hloop⟩ := ih
      obtain ⟨k', closed', hk', hloop'⟩ := ih' d
      by_cases hc : c = '\x00'
      · exact ⟨0, false, by simp, fun rest => by simp [quoteLoop_cons, hc]⟩
      · by_cases hcd : c = delim
        · by_cases hd : d = delim
          · refine ⟨k + 2, closed, ?_, fun rest => ?_⟩
            · simp only [List.length_cons]
              omega
            · rw [memory_cons, quoteLoop_cons]
              simp [hcd, hd, hdelim, hloop rest]
          · refine ⟨0, true, by simp, fun rest => ?_⟩
            rw [memory_cons, quoteLoop_cons]
            simp [hcd, hd, hdelim]
        · refine ⟨k' + 1, closed', ?_, fun rest => ?_⟩
          · rw [List.length_cons]
            omega
          · rw [memory_cons, quoteLoop_cons, if_neg hc, if_neg hcd, hloop' rest]
            rfl

/-- The loop of an identifier in brackets ends inside of the statement or at its NUL. -/
theorem bracketLoop_memory (z : Text) :
    ∃ k closed, k ≤ z.length ∧ ∀ rest, bracketLoop (memory z rest) = some (k, closed) := by
  induction z with
  | nil => exact ⟨0, false, Nat.le_refl _, fun rest => by simp [bracketLoop]⟩
  | cons c z ih =>
      obtain ⟨k, closed, hk, hloop⟩ := ih
      by_cases hc : c = '\x00'
      · exact ⟨0, false, by simp, fun rest => by simp [bracketLoop, hc]⟩
      · by_cases hend : c = ']'
        · exact ⟨1, true, by simp, fun rest => by simp [bracketLoop, hend]⟩
        · refine ⟨k + 1, closed, by simpa using hk, fun rest => ?_⟩
          rw [memory_cons, bracketLoop, if_neg hc, if_neg hend, hloop rest]
          rfl

/-- The parameters of a TCL variable end inside of the statement or at its NUL. -/
private theorem parameters_memory (n : ℕ) (z : Text) :
    ∃ k r, k ≤ z.length + 1 ∧ ∀ rest, (do
      let k ← skip (fun c => c ≠ '\x00' && !sqlite3Isspace c && c ≠ ')') (memory z rest)
      let c ← (memory z rest)[k]?
      if c = ')' then return (1 + k + 1, n, false) else return (1 + k, n, true)) =
        some ((k, r) : ℕ × ℕ × Bool) := by
  have hskip := skip_memory (p := fun c => c ≠ '\x00' && !sqlite3Isspace c && c ≠ ')')
    (by decide) z
  have hk := (List.takeWhile_sublist (l := z)
    fun c => c ≠ '\x00' && !sqlite3Isspace c && c ≠ ')').length_le
  generalize (z.takeWhile fun c => c ≠ '\x00' && !sqlite3Isspace c && c ≠ ')').length = k
    at hskip hk
  by_cases hclosed : z.getD k '\x00' = ')'
  · have hlt : k < z.length := lt_length_of_getD (by rw [hclosed]; decide)
    refine ⟨1 + k + 1, (n, false), by omega, fun rest => ?_⟩
    simp only [hskip, getElem?_memory hk, Option.bind_eq_bind, Option.bind_some, if_pos hclosed]
    rfl
  · refine ⟨1 + k, (n, true), by omega, fun rest => ?_⟩
    simp only [hskip, getElem?_memory hk, Option.bind_eq_bind, Option.bind_some, if_neg hclosed]
    rfl

/-- The loop of a variable ends inside of the statement or at its NUL. -/
theorem variableLoop_memory (n : ℕ) (z : Text) :
    ∃ k r, k ≤ z.length ∧ ∀ rest, variableLoop n (memory z rest) = some (k, r) := by
  -- two characters may be passed over at once
  induction hlen : z.length using Nat.strong_induction_on generalizing n z with
  | _ len ih =>
      cases z with
      | nil =>
          refine ⟨0, (n, false), Nat.zero_le _, fun rest => ?_⟩
          rw [memory_nil, variableLoop_cons, if_pos rfl]
      | cons c z =>
          rw [List.length_cons] at hlen
          by_cases hc : c = '\x00'
          · refine ⟨0, (n, false), Nat.zero_le _, fun rest => ?_⟩
            rw [memory_cons, variableLoop_cons, if_pos hc]
          · by_cases hid : isIdChar c = true
            · obtain ⟨k, r, hk, hloop⟩ := ih z.length (by omega) (n + 1) z rfl
              refine ⟨k + 1, r, by omega, fun rest => ?_⟩
              rw [memory_cons, variableLoop_cons, if_neg hc, if_pos hid, hloop rest]
              rfl
            · by_cases hopen : c = '(' ∧ 0 < n
              · obtain ⟨k, r, hk, hparameters⟩ := parameters_memory n z
                refine ⟨k, r, by omega, fun rest => ?_⟩
                rw [memory_cons, variableLoop_cons, if_neg hc, if_neg hid, if_pos hopen]
                exact hparameters rest
              · by_cases hcolon : c = ':'
                · cases z with
                  | nil =>
                      refine ⟨0, (n, false), Nat.zero_le _, fun rest => ?_⟩
                      rw [memory_cons, variableLoop_cons, if_neg hc, if_neg hid, if_neg hopen,
                        if_pos hcolon]
                      rfl
                  | cons d z =>
                      rw [List.length_cons] at hlen
                      obtain ⟨k, r, hk, hloop⟩ := ih z.length (by omega) n z rfl
                      by_cases hd : d = ':'
                      · refine ⟨k + 2, r, by omega, fun rest => ?_⟩
                        rw [memory_cons, variableLoop_cons, if_neg hc, if_neg hid, if_neg hopen,
                          if_pos hcolon]
                        simp [hd, hloop rest]
                      · refine ⟨0, (n, false), Nat.zero_le _, fun rest => ?_⟩
                        rw [memory_cons, variableLoop_cons, if_neg hc, if_neg hid, if_neg hopen,
                          if_pos hcolon]
                        simp [hd]
                · refine ⟨0, (n, false), Nat.zero_le _, fun rest => ?_⟩
                  rw [memory_cons, variableLoop_cons, if_neg hc, if_neg hid, if_neg hopen,
                    if_neg hcolon]

/-! ## Numbers and words stay inside -/

/-- A loop behind the first `i` characters. -/
theorem skip_drop_memory {p : Char → Bool} (hp : p '\x00' = false) {z : Text} {i : ℕ}
    (hi : i ≤ z.length) (rest : Text) :
    skip p ((memory z rest).drop i) = some ((z.drop i).takeWhile p).length := by
  rw [drop_memory hi, skip_memory hp]

theorem isHexNumber_memory (z : Text) :
    ∃ hex, (hex = true → 3 ≤ z.length) ∧ ∀ rest, isHexNumber (memory z rest) = some hex := by
  match z with
  | [] => exact ⟨false, by simp, fun rest => by simp [isHexNumber]⟩
  | [c] => exact ⟨false, by simp, fun rest => by simp [isHexNumber]⟩
  | [c, d] =>
      refine ⟨false, by simp, fun rest => ?_⟩
      have hnul : sqlite3Isxdigit '\x00' = false := by decide
      by_cases hc : c = '0' <;> by_cases hd : d = 'x' ∨ d = 'X' <;>
        simp [isHexNumber, hc, hd, hnul]
  | c :: d :: e :: z =>
      refine ⟨decide (c = '0') && (decide (d = 'x' ∨ d = 'X') && sqlite3Isxdigit e), by simp,
        fun rest => ?_⟩
      by_cases hc : c = '0' <;> by_cases hd : d = 'x' ∨ d = 'X' <;>
        simp [isHexNumber, hc, hd]

theorem isExponent_memory (z : Text) :
    ∃ exponent, (exponent = true → 2 ≤ z.length) ∧
      ∀ rest, isExponent (memory z rest) = some exponent := by
  have hnul : sqlite3Isdigit '\x00' = false := by decide
  match z with
  | [] => exact ⟨false, by simp, fun rest => by simp [isExponent]⟩
  | [c] =>
      refine ⟨false, by simp, fun rest => ?_⟩
      by_cases hc : c ≠ 'e' ∧ c ≠ 'E' <;> simp [isExponent, hc, hnul]
  | [c, d] =>
      refine ⟨!decide (c ≠ 'e' ∧ c ≠ 'E') && sqlite3Isdigit d, by simp, fun rest => ?_⟩
      by_cases hc : c ≠ 'e' ∧ c ≠ 'E' <;> by_cases hdigit : sqlite3Isdigit d = true <;>
        by_cases hsign : d = '+' ∨ d = '-' <;> simp [isExponent, hc, hdigit, hsign, hnul]
  | c :: d :: e :: z =>
      refine ⟨!decide (c ≠ 'e' ∧ c ≠ 'E') &&
        (sqlite3Isdigit d || decide (d = '+' ∨ d = '-') && sqlite3Isdigit e), by simp,
        fun rest => ?_⟩
      by_cases hc : c ≠ 'e' ∧ c ≠ 'E' <;> by_cases hdigit : sqlite3Isdigit d = true <;>
        by_cases hsign : d = '+' ∨ d = '-' <;> simp [isExponent, hc, hdigit, hsign]

theorem skipFraction_memory {z : Text} {i : ℕ} (hi : i ≤ z.length) :
    ∃ j type, i ≤ j ∧ j ≤ z.length ∧ (z.getD i '\x00' = '.' → i < j) ∧
      ∀ rest, skipFraction (memory z rest) i = some (j, type) := by
  by_cases hdot : z.getD i '\x00' = '.'
  · have hlt : i < z.length := lt_length_of_getD (by rw [hdot]; decide)
    have hk := length_takeWhile_drop_le sqlite3Isdigit z (i + 1)
    have hskip := skip_drop_memory (p := sqlite3Isdigit) (by decide) hlt
    generalize ((z.drop (i + 1)).takeWhile sqlite3Isdigit).length = k at hk hskip
    refine ⟨i + 1 + k, .tkFloat, by omega, by omega, fun _ => by omega, fun rest => ?_⟩
    simp only [skipFraction, getElem?_memory hi, Option.bind_eq_bind, Option.bind_some,
      if_pos hdot, hskip]
    rfl
  · refine ⟨i, .tkInteger, Nat.le_refl _, hi, fun h => absurd h hdot, fun rest => ?_⟩
    simp only [skipFraction, getElem?_memory hi, Option.bind_eq_bind, Option.bind_some,
      if_neg hdot]
    rfl

theorem skipExponent_memory {z : Text} {i : ℕ} (hi : i ≤ z.length) (type : TokenType) :
    ∃ j type', i ≤ j ∧ j ≤ z.length ∧
      ∀ rest, skipExponent (memory z rest) i type = some (j, type') := by
  obtain ⟨exponent, hlen, hexponent⟩ := isExponent_memory (z.drop i)
  rw [List.length_drop] at hlen
  cases exponent with
  | true =>
      have hi' : i + 2 ≤ z.length := by
        have := hlen rfl
        omega
      have hk := length_takeWhile_drop_le sqlite3Isdigit z (i + 2)
      have hskip := skip_drop_memory (p := sqlite3Isdigit) (by decide) hi'
      generalize ((z.drop (i + 2)).takeWhile sqlite3Isdigit).length = k at hk hskip
      refine ⟨i + 2 + k, .tkFloat, by omega, by omega, fun rest => ?_⟩
      rw [skipExponent, hskip, drop_memory hi, hexponent]
      rfl
  | false =>
      refine ⟨i, type, Nat.le_refl _, hi, fun rest => ?_⟩
      simp [skipExponent, drop_memory hi, hexponent]

/-- A number begins with a digit or with a point, and ends inside of the statement. -/
theorem numberToken_memory {c : Char} (z : Text) (hc : sqlite3Isdigit c = true ∨ c = '.') :
    ∃ n type, 0 < n ∧ n ≤ (c :: z).length ∧
      ∀ rest, numberToken (memory (c :: z) rest) = some (n, type) := by
  obtain ⟨hex, hlen, hhex⟩ := isHexNumber_memory (c :: z)
  cases hex with
  | true =>
      have hk := length_takeWhile_drop_le sqlite3Isxdigit (c :: z) 3
      have hlen := hlen rfl
      have hskip := skip_drop_memory (p := sqlite3Isxdigit) (by decide) hlen
      generalize (((c :: z).drop 3).takeWhile sqlite3Isxdigit).length = k at hk hskip
      refine ⟨3 + k, .tkInteger, by omega, by omega, fun rest => ?_⟩
      rw [numberToken, hhex, hskip]
      rfl
  | false =>
      have hdigits := (List.takeWhile_sublist (l := c :: z) sqlite3Isdigit).length_le
      obtain ⟨i, type, hi, hilen, hdot, hfraction⟩ := skipFraction_memory hdigits
      obtain ⟨j, type', hj, hjlen, hexponent⟩ := skipExponent_memory hilen type
      have hk := length_takeWhile_drop_le isIdChar (c :: z) j
      have hpos : 0 < i := by
        rcases hc with hdigit | rfl
        · rw [List.takeWhile_cons_of_pos hdigit, List.length_cons] at hi
          omega
        · have hnone : ('.' :: z).takeWhile sqlite3Isdigit = [] := by
            rw [List.takeWhile_cons_of_neg (by decide)]
          rw [hnone] at hdot
          exact Nat.lt_of_le_of_lt (Nat.zero_le _) (hdot rfl)
      have hskip := skip_drop_memory (p := isIdChar) (by decide) hjlen
      generalize (((c :: z).drop j).takeWhile isIdChar).length = k at hk hskip
      refine ⟨j + k, if k = 0 then type' else .tkIllegal, by omega, by omega, fun rest => ?_⟩
      simp only [numberToken, hhex, Option.bind_eq_bind, Option.bind_some, Bool.false_eq_true,
        if_false, skip_memory (p := sqlite3Isdigit) (by decide) (c :: z), hfraction, hexponent,
        hskip]
      rfl

/-- The rest of an identifier ends inside of the statement. -/
theorem idToken_memory {z : Text} {i : ℕ} (hi : i ≤ z.length) :
    ∃ n, i ≤ n ∧ n ≤ z.length ∧ ∀ rest, idToken (memory z rest) i = some (n, .tkId) := by
  have hk := length_takeWhile_drop_le isIdChar z i
  have hskip := skip_drop_memory (p := isIdChar) (by decide) hi
  generalize ((z.drop i).takeWhile isIdChar).length = k at hk hskip
  refine ⟨i + k, by omega, by omega, fun rest => ?_⟩
  rw [idToken, hskip]
  rfl

theorem wordToken_memory (c : Char) (z : Text) :
    ∃ n type, 0 < n ∧ n ≤ (c :: z).length ∧
      ∀ rest, wordToken (memory (c :: z) rest) = some (n, type) := by
  have hk := length_takeWhile_drop_le isKywdClass (c :: z) 1
  have hskip := skip_drop_memory (p := isKywdClass) (by decide) (z := c :: z) (i := 1) (by simp)
  generalize (((c :: z).drop 1).takeWhile isKywdClass).length = k at hk hskip
  rw [List.length_cons] at hk
  have hi : 1 + k ≤ (c :: z).length := by
    rw [List.length_cons]
    omega
  by_cases hid : isIdChar ((c :: z).getD (1 + k) '\x00') = true
  · have hlt : 1 + k < (c :: z).length := by
      apply lt_length_of_getD
      intro hnul
      rw [hnul] at hid
      exact absurd hid (by decide)
    obtain ⟨n, hn, hnlen, htoken⟩ := idToken_memory hlt
    refine ⟨n, .tkId, by omega, hnlen, fun rest => ?_⟩
    simp only [wordToken, hskip, getElem?_memory hi, Option.bind_eq_bind, Option.bind_some,
      if_pos hid]
    exact htoken rest
  · refine ⟨1 + k, sqlite3KeywordCode ((c :: z).take (1 + k)), by omega, hi, fun rest => ?_⟩
    simp only [wordToken, hskip, getElem?_memory hi, Option.bind_eq_bind, Option.bind_some,
      if_neg hid, take_memory hi]
    rfl

theorem blobToken_memory {z : Text} (hlen : 2 ≤ z.length) :
    ∃ n type, 0 < n ∧ n ≤ z.length ∧ ∀ rest, blobToken (memory z rest) = some (n, type) := by
  have hk := length_takeWhile_drop_le sqlite3Isxdigit z 2
  have hskip := skip_drop_memory (p := sqlite3Isxdigit) (by decide) hlen
  generalize ((z.drop 2).takeWhile sqlite3Isxdigit).length = k at hk hskip
  have hi : 2 + k ≤ z.length := by omega
  by_cases hbad : z.getD (2 + k) '\x00' ≠ '\'' ∨ (2 + k) % 2 = 1
  · have hj := length_takeWhile_drop_le (fun c => c ≠ '\x00' && c ≠ '\'') z (2 + k)
    have hskip' := skip_drop_memory (p := fun c => c ≠ '\x00' && c ≠ '\'') (by decide) hi
    generalize ((z.drop (2 + k)).takeWhile fun c => c ≠ '\x00' && c ≠ '\'').length = j
      at hj hskip'
    have hij : 2 + k + j ≤ z.length := by omega
    refine ⟨if z.getD (2 + k + j) '\x00' = '\x00' then 2 + k + j else 2 + k + j + 1,
      .tkIllegal, ?_, ?_, fun rest => ?_⟩
    · split_ifs <;> omega
    · split_ifs with hnul
      · exact hij
      · exact lt_length_of_getD hnul
    · simp only [blobToken, hskip, getElem?_memory hi, Option.bind_eq_bind, Option.bind_some,
        if_pos hbad, hskip', getElem?_memory hij]
      rfl
  · have hlt : 2 + k < z.length := by
      apply lt_length_of_getD
      rw [not_or, not_not] at hbad
      rw [hbad.1]
      decide
    refine ⟨2 + k + 1, .tkBlob, by omega, hlt, fun rest => ?_⟩
    simp only [blobToken, hskip, getElem?_memory hi, Option.bind_eq_bind, Option.bind_some,
      if_neg hbad]
    rfl

theorem operatorToken_memory (c : Char) (z : Text) (type : TokenType)
    {second : Char → Option TokenType} (hnul : second '\x00' = none) :
    ∃ n type', 0 < n ∧ n ≤ (c :: z).length ∧
      ∀ rest, operatorToken (memory (c :: z) rest) type second = some (n, type') := by
  cases z with
  | nil =>
      refine ⟨1, type, Nat.one_pos, Nat.le_refl _, fun rest => ?_⟩
      simp [operatorToken, hnul]
  | cons d z =>
      cases hsecond : second d with
      | none =>
          refine ⟨1, type, Nat.one_pos, by simp, fun rest => ?_⟩
          simp [operatorToken, hsecond]
      | some type' =>
          refine ⟨2, type', by decide, by simp, fun rest => ?_⟩
          simp [operatorToken, hsecond]

/-- A comment in `/*` and `*/`, or the operator `/`. -/
theorem slashToken_memory {c : Char} (hclass : aiClass c = .slash) (z : Text) :
    ∃ n type, 0 < n ∧ n ≤ (c :: z).length ∧
      ∀ rest, sqlite3GetToken (memory (c :: z) rest) = some (n, type) := by
  match z with
  | [] =>
      refine ⟨1, .tkSlash, Nat.one_pos, Nat.le_refl _, fun rest => ?_⟩
      simp [sqlite3GetToken, hclass]
  | [d] =>
      refine ⟨1, .tkSlash, Nat.one_pos, by simp, fun rest => ?_⟩
      simp [sqlite3GetToken, hclass]
  | d :: e :: z =>
      by_cases hd : d = '*'
      · by_cases he : e = '\x00'
        · refine ⟨1, .tkSlash, Nat.one_pos, by simp, fun rest => ?_⟩
          simp [sqlite3GetToken, hclass, he]
        · obtain ⟨k, closed, hk, hloop⟩ := commentLoop_memory e z
          refine ⟨if closed then 3 + k + 1 else 3 + k, .tkSpace, ?_, ?_, fun rest => ?_⟩
          · split_ifs <;> omega
          · simp only [List.length_cons]
            split_ifs at hk ⊢ <;> omega
          · simp [sqlite3GetToken, hclass, hd, he, hloop rest]
      · refine ⟨1, .tkSlash, Nat.one_pos, by simp, fun rest => ?_⟩
        simp [sqlite3GetToken, hclass, hd]

/-- A comment behind `--`, or the operator `-`. -/
theorem minusToken_memory {c : Char} (hclass : aiClass c = .minus) (z : Text) :
    ∃ n type, 0 < n ∧ n ≤ (c :: z).length ∧
      ∀ rest, sqlite3GetToken (memory (c :: z) rest) = some (n, type) := by
  cases z with
  | nil =>
      refine ⟨1, .tkMinus, Nat.one_pos, Nat.le_refl _, fun rest => ?_⟩
      simp [sqlite3GetToken, hclass]
  | cons d z =>
      by_cases hd : d = '-'
      · have hk := (List.takeWhile_sublist (l := z) fun c => c ≠ '\x00' && c ≠ '\n').length_le
        have hskip := skip_memory (p := fun c => c ≠ '\x00' && c ≠ '\n') (by decide) z
        generalize (z.takeWhile fun c => c ≠ '\x00' && c ≠ '\n').length = k at hk hskip
        refine ⟨2 + k, .tkSpace, by omega, by simp only [List.length_cons]; omega,
          fun rest => ?_⟩
        simp only [sqlite3GetToken, memory_cons, List.getElem?_cons_zero, Option.bind_eq_bind,
          Option.bind_some, hclass, List.getElem?_cons_succ, if_pos hd, List.drop_succ_cons,
          List.drop_zero, hskip]
        rfl
      · refine ⟨1, .tkMinus, Nat.one_pos, by simp, fun rest => ?_⟩
        simp [sqlite3GetToken, hclass, hd]

theorem toNat_lt_of_aiClass {c : Char} (h : aiClass c ≠ .id) : c.toNat < 128 := by
  by_contra hlt
  apply h
  rw [aiClass, List.getD_eq_getElem?_getD, List.getElem?_eq_none (by
    have : aiClassTable.length = 128 := rfl
    omega)]
  rfl

theorem isdigit_of_aiClass {c : Char} (h : aiClass c = .digit) : sqlite3Isdigit c = true := by
  have htable : ∀ i < 128, CharClass.ofCode (aiClassTable.getD i 2) = .digit →
      48 ≤ i ∧ i ≤ 57 := by decide
  have hrange := htable c.toNat (toNat_lt_of_aiClass (by rw [h]; decide)) h
  simp only [sqlite3Isdigit, Char.isDigit, Bool.and_eq_true, decide_eq_true_eq]
  exact hrange

theorem eq_dot_of_aiClass {c : Char} (h : aiClass c = .dot) : c = '.' := by
  have htable : ∀ i < 128, CharClass.ofCode (aiClassTable.getD i 2) = .dot → i = 46 := by decide
  have hcode := htable c.toNat (toNat_lt_of_aiClass (by rw [h]; decide)) h
  exact Char.ext (UInt32.toNat_inj.mp hcode)

/-- `sqlite3GetToken` of a statement that is not empty gives a token of at least one
character that ends inside of the statement, and what stands behind the NUL of the statement is
not read. -/
theorem sqlite3GetToken_memory {z : Text} (hz : z ≠ []) :
    ∃ n type, 0 < n ∧ n ≤ z.length ∧
      ∀ rest, sqlite3GetToken (memory z rest) = some (n, type) := by
  obtain ⟨c, z, rfl⟩ := List.exists_cons_of_ne_nil hz
  have hget : ∀ rest, (memory (c :: z) rest)[0]? = some c := fun rest => rfl
  -- the loop behind the first character
  have htail : ∀ p : Char → Bool, p '\x00' = false → ∀ rest,
      skip p ((memory (c :: z) rest).drop 1) = some (z.takeWhile p).length :=
    fun p hp rest => skip_memory hp z rest
  cases hclass : aiClass c with
  | space =>
      have hk := (List.takeWhile_sublist (l := z) sqlite3Isspace).length_le
      refine ⟨1 + (z.takeWhile sqlite3Isspace).length, .tkSpace, by omega,
        by rw [List.length_cons]; omega, fun rest => ?_⟩
      simp only [sqlite3GetToken, hget, Option.bind_eq_bind, Option.bind_some, hclass,
        htail sqlite3Isspace (by decide)]
      rfl
  | varnum =>
      have hk := (List.takeWhile_sublist (l := z) sqlite3Isdigit).length_le
      refine ⟨1 + (z.takeWhile sqlite3Isdigit).length, .tkVariable, by omega,
        by rw [List.length_cons]; omega, fun rest => ?_⟩
      simp only [sqlite3GetToken, hget, Option.bind_eq_bind, Option.bind_some, hclass,
        htail sqlite3Isdigit (by decide)]
      rfl
  | minus => exact minusToken_memory hclass z
  | slash => exact slashToken_memory hclass z
  | quote =>
      have hc : c ≠ '\x00' := by
        rintro rfl
        exact absurd hclass (by decide)
      obtain ⟨k, closed, hk, hloop⟩ := quoteLoop_memory hc z
      refine ⟨if closed then 1 + k + 1 else 1 + k,
        if closed then (if c = '\'' then .tkString else .tkId) else .tkIllegal, ?_, ?_,
        fun rest => ?_⟩
      · split_ifs <;> omega
      · rw [List.length_cons]
        split_ifs at hk ⊢ <;> omega
      · cases closed <;> simp [sqlite3GetToken, hclass, hloop rest]
  | quote2 =>
      obtain ⟨k, closed, hk, hloop⟩ := bracketLoop_memory z
      refine ⟨1 + k, if closed then .tkId else .tkIllegal, by omega,
        by rw [List.length_cons]; omega, fun rest => ?_⟩
      simp [sqlite3GetToken, hclass, hloop rest]
  | dollar | varalpha =>
      obtain ⟨k, ⟨n, illegal⟩, hk, hloop⟩ := variableLoop_memory 0 z
      refine ⟨1 + k, if illegal ∨ n = 0 then .tkIllegal else .tkVariable, by omega,
        by rw [List.length_cons]; omega, fun rest => ?_⟩
      simp [sqlite3GetToken, hclass, hloop rest]
  | dot =>
      obtain rfl := eq_dot_of_aiClass hclass
      by_cases hdigit : sqlite3Isdigit (z.getD 0 '\x00') = true
      · obtain ⟨n, type, hn, hlen, htoken⟩ := numberToken_memory z (c := '.') (.inr rfl)
        refine ⟨n, type, hn, hlen, fun rest => ?_⟩
        have hnext : (memory ('.' :: z) rest)[1]? = some (z.getD 0 '\x00') :=
          getElem?_memory (Nat.zero_le _) rest
        simp only [sqlite3GetToken, hget, hnext, Option.bind_eq_bind, Option.bind_some, hclass,
          if_pos hdigit]
        exact htoken rest
      · refine ⟨1, .tkDot, Nat.one_pos, by simp, fun rest => ?_⟩
        have hnext : (memory ('.' :: z) rest)[1]? = some (z.getD 0 '\x00') :=
          getElem?_memory (Nat.zero_le _) rest
        simp only [sqlite3GetToken, hget, hnext, Option.bind_eq_bind, Option.bind_some, hclass,
          if_neg hdigit]
        rfl
  | digit =>
      obtain ⟨n, type, hn, hlen, htoken⟩ :=
        numberToken_memory z (.inl (isdigit_of_aiClass hclass))
      refine ⟨n, type, hn, hlen, fun rest => ?_⟩
      simp only [sqlite3GetToken, hget, Option.bind_eq_bind, Option.bind_some, hclass]
      exact htoken rest
  | kywd =>
      obtain ⟨n, type, hn, hlen, htoken⟩ := wordToken_memory c z
      refine ⟨n, type, hn, hlen, fun rest => ?_⟩
      simp only [sqlite3GetToken, hget, Option.bind_eq_bind, Option.bind_some, hclass]
      exact htoken rest
  | id =>
      obtain ⟨n, hn, hlen, htoken⟩ := idToken_memory (z := c :: z) (i := 1) (by simp)
      refine ⟨n, .tkId, by omega, hlen, fun rest => ?_⟩
      simp only [sqlite3GetToken, hget, Option.bind_eq_bind, Option.bind_some, hclass]
      exact htoken rest
  | x =>
      have hnext : ∀ rest, (memory (c :: z) rest)[1]? = some (z.getD 0 '\x00') :=
        fun rest => getElem?_memory (Nat.zero_le _) rest
      by_cases hquote : z.getD 0 '\x00' = '\''
      · have hpos : 0 < z.length := lt_length_of_getD (by rw [hquote]; decide)
        obtain ⟨n, type, hn, hlen, htoken⟩ :=
          blobToken_memory (z := c :: z) (by rw [List.length_cons]; omega)
        refine ⟨n, type, hn, hlen, fun rest => ?_⟩
        simp only [sqlite3GetToken, hget, hnext, Option.bind_eq_bind, Option.bind_some, hclass,
          if_pos hquote]
        exact htoken rest
      · obtain ⟨n, hn, hlen, htoken⟩ := idToken_memory (z := c :: z) (i := 1) (by simp)
        refine ⟨n, .tkId, by omega, hlen, fun rest => ?_⟩
        simp only [sqlite3GetToken, hget, hnext, Option.bind_eq_bind, Option.bind_some, hclass,
          if_neg hquote]
        exact htoken rest
  | eq | lt | gt | bang | pipe =>
      simp only [sqlite3GetToken, hget, Option.bind_eq_bind, Option.bind_some, hclass]
      exact operatorToken_memory c z _ (by decide)
  | lp | rp | semi | plus | star | percent | comma | and | tilda | illegal =>
      simp only [sqlite3GetToken, hget, Option.bind_eq_bind, Option.bind_some, hclass]
      exact ⟨1, _, Nat.one_pos, by simp, fun rest => rfl⟩

end SmtCacheBenchmarks.Sqlite
