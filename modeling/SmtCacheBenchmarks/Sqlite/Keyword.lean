import Mathlib.Data.List.Find
import SmtCacheBenchmarks.Sqlite.Create
import SmtCacheBenchmarks.Sqlite.Hash

/-!
# SQLite's Keyword Table

Model of `keywordCode` in the generated `keywordhash.h`.  The keywords overlap in one
text of 553 characters, and a word is looked up by a hash of its first character, its last
character and its length, along a chain of collisions.  The lookup gives what a search in
the plain list of keywords gives, which has the keywords with their codes.
-/

namespace SmtCacheBenchmarks.Sqlite

/-! ## Token types -/

/-- The `TK_` codes that the tokenizer gives. -/
inductive TokenType where
  -- the codes that are not for keywords
  | tkId | tkSpace | tkIllegal | tkMinus | tkLp | tkRp | tkSemi | tkPlus | tkStar | tkSlash
  | tkRem | tkEq | tkLe | tkNe | tkLshift | tkLt | tkGe | tkRshift | tkGt | tkBitor | tkConcat
  | tkComma | tkBitand | tkBitnot | tkString | tkDot | tkInteger | tkFloat | tkVariable | tkBlob
  -- the codes of keywords; several keywords share one
  | tkReindex | tkIndexed | tkIndex | tkDesc | tkEscape | tkEach | tkCheck | tkKey | tkBefore
  | tkForeign | tkFor | tkIgnore | tkLikeKw | tkExplain | tkInstead | tkAdd | tkDatabase | tkAs
  | tkSelect | tkTable | tkJoinKw | tkThen | tkEnd | tkDeferrable | tkElse | tkExcept
  | tkTransaction | tkAction | tkOn | tkAlter | tkRaise | tkExclusive | tkExists | tkSavepoint
  | tkIntersect | tkTrigger | tkReferences | tkConstraint | tkInto | tkOffset | tkOf | tkSet
  | tkTemp | tkOr | tkUnique | tkQuery | tkWithout | tkWith | tkRelease | tkAttach | tkHaving
  | tkGroup | tkUpdate | tkBegin | tkRecursive | tkBetween | tkNotnull | tkNot | tkNo | tkNull
  | tkCascade | tkAsc | tkDelete | tkCase | tkCollate | tkCreate | tkCtimeKw | tkDetach
  | tkImmediate | tkJoin | tkInsert | tkMatch | tkPlan | tkAnalyze | tkPragma | tkAbort
  | tkValues | tkVirtual | tkLimit | tkWhen | tkWhere | tkRename | tkAfter | tkReplace | tkAnd
  | tkDefault | tkAutoincr | tkTo | tkIn | tkCast | tkColumnkw | tkCommit | tkConflict
  | tkPrimary | tkDeferred | tkDistinct | tkIs | tkDrop | tkFail | tkFrom | tkBy | tkIf
  | tkIsnull | tkOrder | tkRestrict | tkRollback | tkRow | tkUnion | tkUsing | tkVacuum | tkView
  | tkInitially | tkAll
deriving DecidableEq

/-! ## The tables -/

/-- `zKWText`. -/
def zKWText : Text :=
  ['R', 'E', 'I', 'N', 'D', 'E', 'X', 'E', 'D', 'E', 'S', 'C', 'A', 'P', 'E', 'A', 'C', 'H', 'E',
   'C', 'K', 'E', 'Y', 'B', 'E', 'F', 'O', 'R', 'E', 'I', 'G', 'N', 'O', 'R', 'E', 'G', 'E', 'X',
   'P', 'L', 'A', 'I', 'N', 'S', 'T', 'E', 'A', 'D', 'D', 'A', 'T', 'A', 'B', 'A', 'S', 'E', 'L',
   'E', 'C', 'T', 'A', 'B', 'L', 'E', 'F', 'T', 'H', 'E', 'N', 'D', 'E', 'F', 'E', 'R', 'R', 'A',
   'B', 'L', 'E', 'L', 'S', 'E', 'X', 'C', 'E', 'P', 'T', 'R', 'A', 'N', 'S', 'A', 'C', 'T', 'I',
   'O', 'N', 'A', 'T', 'U', 'R', 'A', 'L', 'T', 'E', 'R', 'A', 'I', 'S', 'E', 'X', 'C', 'L', 'U',
   'S', 'I', 'V', 'E', 'X', 'I', 'S', 'T', 'S', 'A', 'V', 'E', 'P', 'O', 'I', 'N', 'T', 'E', 'R',
   'S', 'E', 'C', 'T', 'R', 'I', 'G', 'G', 'E', 'R', 'E', 'F', 'E', 'R', 'E', 'N', 'C', 'E', 'S',
   'C', 'O', 'N', 'S', 'T', 'R', 'A', 'I', 'N', 'T', 'O', 'F', 'F', 'S', 'E', 'T', 'E', 'M', 'P',
   'O', 'R', 'A', 'R', 'Y', 'U', 'N', 'I', 'Q', 'U', 'E', 'R', 'Y', 'W', 'I', 'T', 'H', 'O', 'U',
   'T', 'E', 'R', 'E', 'L', 'E', 'A', 'S', 'E', 'A', 'T', 'T', 'A', 'C', 'H', 'A', 'V', 'I', 'N',
   'G', 'R', 'O', 'U', 'P', 'D', 'A', 'T', 'E', 'B', 'E', 'G', 'I', 'N', 'N', 'E', 'R', 'E', 'C',
   'U', 'R', 'S', 'I', 'V', 'E', 'B', 'E', 'T', 'W', 'E', 'E', 'N', 'O', 'T', 'N', 'U', 'L', 'L',
   'I', 'K', 'E', 'C', 'A', 'S', 'C', 'A', 'D', 'E', 'L', 'E', 'T', 'E', 'C', 'A', 'S', 'E', 'C',
   'O', 'L', 'L', 'A', 'T', 'E', 'C', 'R', 'E', 'A', 'T', 'E', 'C', 'U', 'R', 'R', 'E', 'N', 'T',
   '_', 'D', 'A', 'T', 'E', 'D', 'E', 'T', 'A', 'C', 'H', 'I', 'M', 'M', 'E', 'D', 'I', 'A', 'T',
   'E', 'J', 'O', 'I', 'N', 'S', 'E', 'R', 'T', 'M', 'A', 'T', 'C', 'H', 'P', 'L', 'A', 'N', 'A',
   'L', 'Y', 'Z', 'E', 'P', 'R', 'A', 'G', 'M', 'A', 'B', 'O', 'R', 'T', 'V', 'A', 'L', 'U', 'E',
   'S', 'V', 'I', 'R', 'T', 'U', 'A', 'L', 'I', 'M', 'I', 'T', 'W', 'H', 'E', 'N', 'W', 'H', 'E',
   'R', 'E', 'N', 'A', 'M', 'E', 'A', 'F', 'T', 'E', 'R', 'E', 'P', 'L', 'A', 'C', 'E', 'A', 'N',
   'D', 'E', 'F', 'A', 'U', 'L', 'T', 'A', 'U', 'T', 'O', 'I', 'N', 'C', 'R', 'E', 'M', 'E', 'N',
   'T', 'C', 'A', 'S', 'T', 'C', 'O', 'L', 'U', 'M', 'N', 'C', 'O', 'M', 'M', 'I', 'T', 'C', 'O',
   'N', 'F', 'L', 'I', 'C', 'T', 'C', 'R', 'O', 'S', 'S', 'C', 'U', 'R', 'R', 'E', 'N', 'T', '_',
   'T', 'I', 'M', 'E', 'S', 'T', 'A', 'M', 'P', 'R', 'I', 'M', 'A', 'R', 'Y', 'D', 'E', 'F', 'E',
   'R', 'R', 'E', 'D', 'I', 'S', 'T', 'I', 'N', 'C', 'T', 'D', 'R', 'O', 'P', 'F', 'A', 'I', 'L',
   'F', 'R', 'O', 'M', 'F', 'U', 'L', 'L', 'G', 'L', 'O', 'B', 'Y', 'I', 'F', 'I', 'S', 'N', 'U',
   'L', 'L', 'O', 'R', 'D', 'E', 'R', 'E', 'S', 'T', 'R', 'I', 'C', 'T', 'R', 'I', 'G', 'H', 'T',
   'R', 'O', 'L', 'L', 'B', 'A', 'C', 'K', 'R', 'O', 'W', 'U', 'N', 'I', 'O', 'N', 'U', 'S', 'I',
   'N', 'G', 'V', 'A', 'C', 'U', 'U', 'M', 'V', 'I', 'E', 'W', 'I', 'N', 'I', 'T', 'I', 'A', 'L',
   'L', 'Y']

/-- `aKWHash`: for each hash, one more than the index of the first keyword. -/
def aKWHash : List ℕ :=
  [76, 105, 117, 74, 0, 45, 0, 0, 82, 0, 77, 0, 0, 42, 12, 78, 15, 0, 116, 85, 54, 112, 0, 19, 0,
   0, 121, 0, 119, 115, 0, 22, 93, 0, 9, 0, 0, 70, 71, 0, 69, 6, 0, 48, 90, 102, 0, 118, 101, 0,
   0, 44, 0, 103, 24, 0, 17, 0, 122, 53, 23, 0, 5, 110, 25, 96, 0, 0, 124, 106, 60, 123, 57, 28,
   55, 0, 91, 0, 100, 26, 0, 99, 0, 0, 0, 95, 92, 97, 88, 109, 14, 39, 108, 0, 81, 0, 18, 89,
   111, 32, 0, 120, 80, 113, 62, 46, 84, 0, 0, 94, 40, 59, 114, 0, 36, 0, 0, 29, 0, 86, 63, 64,
   0, 20, 61, 0, 56]

/-- `aKWNext`: one more than the index of the next keyword with the same hash. -/
def aKWNext : List ℕ :=
  [0, 0, 0, 0, 4, 0, 0, 0, 0, 0, 0, 0, 0, 0, 2, 0, 0, 0, 0, 0, 0, 13, 0, 0, 0, 0, 0, 7, 0, 0, 0,
   0, 0, 0, 0, 0, 0, 0, 0, 0, 0, 0, 0, 33, 0, 21, 0, 0, 0, 0, 0, 50, 0, 43, 3, 47, 0, 0, 0, 0,
   30, 0, 58, 0, 38, 0, 0, 0, 1, 66, 0, 0, 67, 0, 41, 0, 0, 0, 0, 0, 0, 49, 65, 0, 0, 0, 0, 31,
   52, 16, 34, 10, 0, 0, 0, 0, 0, 0, 0, 11, 72, 79, 0, 8, 0, 104, 98, 0, 107, 0, 87, 0, 75, 51,
   0, 27, 37, 73, 83, 0, 35, 68, 0, 0]

/-- `aKWLen`. -/
def aKWLen : List ℕ :=
  [7, 7, 5, 4, 6, 4, 5, 3, 6, 7, 3, 6, 6, 7, 7, 3, 8, 2, 6, 5, 4, 4, 3, 10, 4, 6, 11, 6, 2, 7, 5,
   5, 9, 6, 9, 9, 7, 10, 10, 4, 6, 2, 3, 9, 4, 2, 6, 5, 7, 4, 5, 7, 6, 6, 5, 6, 5, 5, 9, 7, 7, 3,
   2, 4, 4, 7, 3, 6, 4, 7, 6, 12, 6, 9, 4, 6, 5, 4, 7, 6, 5, 6, 7, 5, 4, 5, 6, 5, 7, 3, 7, 13, 2,
   2, 4, 6, 6, 8, 5, 17, 12, 7, 8, 8, 2, 4, 4, 4, 4, 4, 2, 2, 6, 5, 8, 5, 8, 3, 5, 5, 6, 4, 9, 3]

/-- `aKWOffset`: where a keyword begins in `zKWText`. -/
def aKWOffset : List ℕ :=
  [0, 2, 2, 8, 9, 14, 16, 20, 23, 25, 25, 29, 33, 36, 41, 46, 48, 53, 54, 59, 62, 65, 67, 69, 78,
   81, 86, 91, 95, 96, 101, 105, 109, 117, 122, 128, 136, 142, 152, 159, 162, 162, 165, 167, 167,
   171, 176, 179, 184, 184, 188, 192, 199, 204, 209, 212, 218, 221, 225, 234, 240, 240, 240, 243,
   246, 250, 251, 255, 261, 265, 272, 278, 290, 296, 305, 307, 313, 318, 320, 327, 332, 337, 343,
   349, 354, 358, 361, 367, 371, 378, 380, 387, 389, 391, 400, 404, 410, 416, 424, 429, 429, 445,
   452, 459, 460, 467, 471, 475, 479, 483, 486, 488, 490, 496, 500, 508, 513, 521, 524, 529, 534,
   540, 544, 549]

/-- `aKWCode`. -/
def aKWCode : List TokenType :=
  [.tkReindex, .tkIndexed, .tkIndex, .tkDesc, .tkEscape, .tkEach, .tkCheck, .tkKey, .tkBefore,
   .tkForeign, .tkFor, .tkIgnore, .tkLikeKw, .tkExplain, .tkInstead, .tkAdd, .tkDatabase, .tkAs,
   .tkSelect, .tkTable, .tkJoinKw, .tkThen, .tkEnd, .tkDeferrable, .tkElse, .tkExcept,
   .tkTransaction, .tkAction, .tkOn, .tkJoinKw, .tkAlter, .tkRaise, .tkExclusive, .tkExists,
   .tkSavepoint, .tkIntersect, .tkTrigger, .tkReferences, .tkConstraint, .tkInto, .tkOffset,
   .tkOf, .tkSet, .tkTemp, .tkTemp, .tkOr, .tkUnique, .tkQuery, .tkWithout, .tkWith, .tkJoinKw,
   .tkRelease, .tkAttach, .tkHaving, .tkGroup, .tkUpdate, .tkBegin, .tkJoinKw, .tkRecursive,
   .tkBetween, .tkNotnull, .tkNot, .tkNo, .tkNull, .tkLikeKw, .tkCascade, .tkAsc, .tkDelete,
   .tkCase, .tkCollate, .tkCreate, .tkCtimeKw, .tkDetach, .tkImmediate, .tkJoin, .tkInsert,
   .tkMatch, .tkPlan, .tkAnalyze, .tkPragma, .tkAbort, .tkValues, .tkVirtual, .tkLimit, .tkWhen,
   .tkWhere, .tkRename, .tkAfter, .tkReplace, .tkAnd, .tkDefault, .tkAutoincr, .tkTo, .tkIn,
   .tkCast, .tkColumnkw, .tkCommit, .tkConflict, .tkJoinKw, .tkCtimeKw, .tkCtimeKw, .tkPrimary,
   .tkDeferred, .tkDistinct, .tkIs, .tkDrop, .tkFail, .tkFrom, .tkJoinKw, .tkLikeKw, .tkBy,
   .tkIf, .tkIsnull, .tkOrder, .tkRestrict, .tkJoinKw, .tkRollback, .tkRow, .tkUnion, .tkUsing,
   .tkVacuum, .tkView, .tkInitially, .tkAll]

/-! ## The keywords -/

/-- The keywords and their codes, the list from which the tables are generated. -/
def keywordCodes : List (Text × TokenType) :=
  [("reindex", .tkReindex), ("indexed", .tkIndexed), ("index", .tkIndex), ("desc", .tkDesc),
   ("escape", .tkEscape), ("each", .tkEach), ("check", .tkCheck), ("key", .tkKey),
   ("before", .tkBefore), ("foreign", .tkForeign), ("for", .tkFor), ("ignore", .tkIgnore),
   ("regexp", .tkLikeKw), ("explain", .tkExplain), ("instead", .tkInstead), ("add", .tkAdd),
   ("database", .tkDatabase), ("as", .tkAs), ("select", .tkSelect), ("table", .tkTable),
   ("left", .tkJoinKw), ("then", .tkThen), ("end", .tkEnd), ("deferrable", .tkDeferrable),
   ("else", .tkElse), ("except", .tkExcept), ("transaction", .tkTransaction),
   ("action", .tkAction), ("on", .tkOn), ("natural", .tkJoinKw), ("alter", .tkAlter),
   ("raise", .tkRaise), ("exclusive", .tkExclusive), ("exists", .tkExists),
   ("savepoint", .tkSavepoint), ("intersect", .tkIntersect), ("trigger", .tkTrigger),
   ("references", .tkReferences), ("constraint", .tkConstraint), ("into", .tkInto),
   ("offset", .tkOffset), ("of", .tkOf), ("set", .tkSet), ("temporary", .tkTemp),
   ("temp", .tkTemp), ("or", .tkOr), ("unique", .tkUnique), ("query", .tkQuery),
   ("without", .tkWithout), ("with", .tkWith), ("outer", .tkJoinKw), ("release", .tkRelease),
   ("attach", .tkAttach), ("having", .tkHaving), ("group", .tkGroup), ("update", .tkUpdate),
   ("begin", .tkBegin), ("inner", .tkJoinKw), ("recursive", .tkRecursive),
   ("between", .tkBetween), ("notnull", .tkNotnull), ("not", .tkNot), ("no", .tkNo),
   ("null", .tkNull), ("like", .tkLikeKw), ("cascade", .tkCascade), ("asc", .tkAsc),
   ("delete", .tkDelete), ("case", .tkCase), ("collate", .tkCollate), ("create", .tkCreate),
   ("current_date", .tkCtimeKw), ("detach", .tkDetach), ("immediate", .tkImmediate),
   ("join", .tkJoin), ("insert", .tkInsert), ("match", .tkMatch), ("plan", .tkPlan),
   ("analyze", .tkAnalyze), ("pragma", .tkPragma), ("abort", .tkAbort), ("values", .tkValues),
   ("virtual", .tkVirtual), ("limit", .tkLimit), ("when", .tkWhen), ("where", .tkWhere),
   ("rename", .tkRename), ("after", .tkAfter), ("replace", .tkReplace), ("and", .tkAnd),
   ("default", .tkDefault), ("autoincrement", .tkAutoincr), ("to", .tkTo), ("in", .tkIn),
   ("cast", .tkCast), ("column", .tkColumnkw), ("commit", .tkCommit), ("conflict", .tkConflict),
   ("cross", .tkJoinKw), ("current_timestamp", .tkCtimeKw), ("current_time", .tkCtimeKw),
   ("primary", .tkPrimary), ("deferred", .tkDeferred), ("distinct", .tkDistinct), ("is", .tkIs),
   ("drop", .tkDrop), ("fail", .tkFail), ("from", .tkFrom), ("full", .tkJoinKw),
   ("glob", .tkLikeKw), ("by", .tkBy), ("if", .tkIf), ("isnull", .tkIsnull), ("order", .tkOrder),
   ("restrict", .tkRestrict), ("right", .tkJoinKw), ("rollback", .tkRollback), ("row", .tkRow),
   ("union", .tkUnion), ("using", .tkUsing), ("vacuum", .tkVacuum), ("view", .tkView),
   ("initially", .tkInitially), ("all", .tkAll)].map fun p => (p.1.toList, p.2)

/-- The list has the keywords, and each of them with the code that the tables hold. -/
theorem keywordCodes_eq : keywordCodes = keywords.zip aKWCode := by decide +kernel

/-! ## The lookup -/

/-- `charMap`. -/
def charMap (c : Char) : ℕ := upperToLower c

/-- The hash of a word. -/
def keywordHash (z : Text) : ℕ :=
  ((charMap (z.headD '\x00') * 4) ^^^ (charMap (z.getLastD '\x00') * 3) ^^^ z.length) % 127

/-- `c & ~0x20`. -/
def clearCase (c : Char) : ℕ := if c.toNat.testBit 5 then c.toNat - 32 else c.toNat

/-- `while( j<n && (z[j]&~0x20)==zKW[j] )`: does it get to the end of the word? -/
def matchesText : Text → Text → Bool
  | [], _ => true
  | _ :: _, [] => false
  | c :: z, k :: zKW => decide (clearCase c = k.toNat) && matchesText z zKW

/-- The body of the loop: is the word the `i`-th keyword? -/
def matchesKeyword (z : Text) (i : ℕ) : Bool :=
  decide (aKWLen.getD i 0 = z.length) && matchesText z (zKWText.drop (aKWOffset.getD i 0))

/-- The chains of collisions go down. -/
theorem aKWNext_le (i : ℕ) : aKWNext.getD i 0 ≤ i := by
  have hall : ∀ i < 124, aKWNext.getD i 0 ≤ i := by decide +kernel
  by_cases hi : i < 124
  · exact hall i hi
  · have hnone : aKWNext[i]? = none := List.getElem?_eq_none (by simpa [aKWNext] using hi)
    simp [List.getD_eq_getElem?_getD, hnone]

/-- `for(i=((int)aKWHash[i])-1; i>=0; i=((int)aKWNext[i])-1)`: the keyword that the word
is; the number is one more than `i`. -/
def keywordLoop (z : Text) : ℕ → Option ℕ
  | 0 => none
  | i + 1 => if matchesKeyword z i then some i else keywordLoop z (aKWNext.getD i 0)
termination_by k => k
decreasing_by exact Nat.lt_succ_of_le (aKWNext_le i)

/-- `sqlite3KeywordCode`. -/
def sqlite3KeywordCode (z : Text) : TokenType :=
  if 2 ≤ z.length then
    match keywordLoop z (aKWHash.getD (keywordHash z) 0) with
    | some i => aKWCode.getD i .tkId
    | none => .tkId
  else .tkId

/-! ## Words that match a keyword -/

/-- The characters of `zKWText`. -/
def isKeywordChar (k : Char) : Bool := k.isUpper || k = '_'

theorem toNat_toLower (c : Char) : c.toLower.toNat = upperToLower c := by
  unfold upperToLower Char.toLower
  by_cases h : 65 ≤ c.toNat ∧ c.toNat ≤ 90
  · have hval : c.val ≥ 'A'.val ∧ c.val ≤ 'Z'.val := by
      rw [ge_iff_le, UInt32.le_iff_toNat_le, UInt32.le_iff_toNat_le]
      exact h
    rw [dif_pos hval, if_pos h]
    show (c.val + ('a'.val - 'A'.val)).toNat = c.toNat + 32
    rw [UInt32.toNat_add]
    exact Nat.mod_eq_of_lt (by
      show c.toNat + 32 < 2 ^ 32
      omega)
  · have hval : ¬ (c.val ≥ 'A'.val ∧ c.val ≤ 'Z'.val) := by
      rw [ge_iff_le, UInt32.le_iff_toNat_le, UInt32.le_iff_toNat_le]
      exact h
    rw [dif_neg hval, if_neg h]

theorem toLower_eq_iff {c d : Char} : c.toLower = d.toLower ↔ upperToLower c = upperToLower d := by
  rw [← toNat_toLower, ← toNat_toLower, Char.toNat_inj]

private theorem isUpper_iff {c : Char} : c.isUpper = true ↔ 65 ≤ c.toNat ∧ c.toNat ≤ 90 := by
  have hbounds : c.isUpper = true ↔ 'A'.val ≤ c.val ∧ c.val ≤ 'Z'.val := decide_eq_true_iff
  rw [hbounds, UInt32.le_iff_toNat_le, UInt32.le_iff_toNat_le]
  exact Iff.rfl

/-- Clearing the bit makes an identifier's character a keyword's character exactly when
they are the same letter. -/
theorem clearCase_eq_iff {c k : Char} (hc : isIdChar c = true) (hk : isKeywordChar k = true) :
    clearCase c = k.toNat ↔ c.toLower = k.toLower := by
  have hk' : (65 ≤ k.toNat ∧ k.toNat ≤ 90) ∨ k.toNat = 95 := by
    simp only [isKeywordChar, Bool.or_eq_true, isUpper_iff, decide_eq_true_eq] at hk
    rcases hk with hk | rfl
    · exact Or.inl hk
    · exact Or.inr rfl
  -- `DEL` has the bit of `_`, and no identifier has it
  have hc' : c.toNat ≠ 127 := by
    intro h
    obtain rfl : c = '\x7f' := Char.toNat_inj.mp h
    revert hc
    decide
  rw [toLower_eq_iff]
  unfold clearCase upperToLower
  rw [Nat.testBit_eq_decide_div_mod_eq]
  simp only [decide_eq_true_eq]
  split_ifs <;> omega

/-- The loop over the text of a keyword compares without regard to case. -/
theorem matchesText_iff {z zKW : Text} (hz : ∀ c ∈ z, isIdChar c = true)
    (hKW : ∀ k ∈ zKW, isKeywordChar k = true) (hlen : z.length ≤ zKW.length) :
    matchesText z zKW = true ↔ lower z = lower (zKW.take z.length) := by
  induction z generalizing zKW with
  | nil => simp [matchesText, lower]
  | cons c z ih =>
      cases zKW with
      | nil => simp at hlen
      | cons k zKW =>
          have hrest := ih (fun c hc => hz c (List.mem_cons_of_mem _ hc))
            (fun k hk => hKW k (List.mem_cons_of_mem _ hk)) (by simpa using hlen)
          have hhead := clearCase_eq_iff (hz c (List.mem_cons_self ..))
            (hKW k (List.mem_cons_self ..))
          simp only [lower] at hrest
          simp [matchesText, lower, hhead, hrest]

/-- The `i`-th keyword, as it stands in `zKWText`. -/
def keywordText (i : ℕ) : Text := (zKWText.drop (aKWOffset.getD i 0)).take (aKWLen.getD i 0)

private theorem zKWText_chars : (zKWText.all isKeywordChar) = true := by decide +kernel

/-- The tables hold the keywords of the plain list, in its order. -/
private theorem keywordText_eq : ∀ i < 124, aKWLen.getD i 0 = (keywordText i).length ∧
    lower (keywordText i) = keywords.getD i [] := by decide +kernel

/-- A word of identifier characters matches the keyword that it is. -/
theorem matchesKeyword_iff {z : Text} (hz : ∀ c ∈ z, isIdChar c = true) {i : ℕ}
    (hi : i < 124) : matchesKeyword z i = true ↔ lower z = keywords.getD i [] := by
  obtain ⟨hlen, htext⟩ := keywordText_eq i hi
  have hchars : ∀ k ∈ zKWText.drop (aKWOffset.getD i 0), isKeywordChar k = true :=
    fun k hk => List.all_eq_true.mp zKWText_chars k (List.mem_of_mem_drop hk)
  simp only [matchesKeyword, Bool.and_eq_true, decide_eq_true_eq]
  constructor
  · rintro ⟨heq, hmatch⟩
    have hle : z.length ≤ (zKWText.drop (aKWOffset.getD i 0)).length := by
      rw [← heq, hlen, keywordText]
      exact List.length_take_le' ..
    rw [matchesText_iff hz hchars hle, ← heq] at hmatch
    exact hmatch.trans htext
  · intro heq
    have hlen' : aKWLen.getD i 0 = z.length := by
      have hlower := congrArg List.length (heq.trans htext.symm)
      rw [lower, lower, List.length_map, List.length_map] at hlower
      rw [hlen, hlower]
    have hle : z.length ≤ (zKWText.drop (aKWOffset.getD i 0)).length := by
      rw [← hlen', hlen, keywordText]
      exact List.length_take_le' ..
    refine ⟨hlen', ?_⟩
    rw [matchesText_iff hz hchars hle, ← hlen']
    exact heq.trans htext.symm

/-! ## The chains of collisions -/

/-- The keywords of a chain; the first number bounds them. -/
def chainOf : ℕ → ℕ → List ℕ
  | 0, _ => []
  | _ + 1, 0 => []
  | n + 1, i + 1 => i :: chainOf n (aKWNext.getD i 0)

/-- The loop finds the first keyword of the chain that the word is. -/
theorem keywordLoop_eq_find {z : Text} {n k : ℕ} (hk : k ≤ n) :
    keywordLoop z k = (chainOf n k).find? (matchesKeyword z) := by
  induction n generalizing k with
  | zero =>
      obtain rfl : k = 0 := by omega
      rw [keywordLoop]
      rfl
  | succ n ih =>
      cases k with
      | zero =>
          rw [keywordLoop]
          rfl
      | succ i =>
          have hnext := aKWNext_le i
          rw [keywordLoop, chainOf, List.find?_cons, ih (by omega)]
          cases matchesKeyword z i <;> rfl

/-- Every chain holds keywords, and is bounded by their number. -/
private theorem chainOf_lt : ∀ h < 127, aKWHash.getD h 0 ≤ 124 ∧
    ((chainOf 124 (aKWHash.getD h 0)).all fun i => decide (i < 124)) = true := by
  decide +kernel

/-- Every keyword is in the chain of its hash, behind no keyword of the same text. -/
private theorem find_chainOf : ∀ i < 124,
    2 ≤ (keywords.getD i []).length ∧
    (chainOf 124 (aKWHash.getD (keywordHash (keywords.getD i [])) 0)).find?
      (fun j => decide (keywords.getD i [] = keywords.getD j [])) = some i := by
  decide +kernel

theorem charMap_toLower (c : Char) : charMap c.toLower = charMap c := by
  have htwice : upperToLower c.toLower =
      if 65 ≤ upperToLower c ∧ upperToLower c ≤ 90 then upperToLower c + 32
      else upperToLower c := by
    rw [← toNat_toLower c]
    rfl
  rw [charMap, charMap, htwice, if_neg]
  unfold upperToLower
  split_ifs <;> omega

/-- The hash does not depend on the case. -/
theorem keywordHash_lower (z : Text) : keywordHash (lower z) = keywordHash z := by
  have hhead : charMap ((lower z).headD '\x00') = charMap (z.headD '\x00') := by
    cases z with
    | nil => rfl
    | cons c z => exact charMap_toLower c
  have hlast : charMap ((lower z).getLastD '\x00') = charMap (z.getLastD '\x00') := by
    rcases List.eq_nil_or_concat z with rfl | ⟨z, c, rfl⟩
    · rfl
    · simp [lower, charMap_toLower]
  rw [keywordHash, keywordHash, hhead, hlast, lower, List.length_map]

/-! ## The lookup agrees with the list -/

private theorem length_keywords : keywords.length = 124 := by decide

/-- The codes in the order of the keywords; none is the code of an identifier. -/
private theorem lookup_keywords : ∀ i < 124,
    keywordCodes.lookup (keywords.getD i []) = some (aKWCode.getD i .tkId) ∧
    aKWCode.getD i .tkId ≠ .tkId := by
  decide +kernel

private theorem exists_index_of_mem {w : Text} (hw : w ∈ keywords) :
    ∃ i < 124, w = keywords.getD i [] := by
  obtain ⟨i, hi, rfl⟩ := List.mem_iff_getElem.mp hw
  refine ⟨i, by rwa [length_keywords] at hi, ?_⟩
  rw [List.getD_eq_getElem?_getD, List.getElem?_eq_getElem hi]
  rfl

theorem lookup_keywordCodes_eq_none {w : Text} (hw : w ∉ keywords) :
    keywordCodes.lookup w = none := by
  rw [keywordCodes_eq, List.lookup_eq_none_iff]
  intro entry hentry
  rw [bne_iff_ne]
  exact fun heq => hw (heq ▸ (List.of_mem_zip hentry).1)

/-- The loop finds the keyword that a word is. -/
theorem keywordLoop_eq {z : Text} (hz : ∀ c ∈ z, isIdChar c = true) :
    keywordLoop z (aKWHash.getD (keywordHash z) 0) =
      (chainOf 124 (aKWHash.getD (keywordHash (lower z)) 0)).find?
        fun i => decide (lower z = keywords.getD i []) := by
  have hhash : keywordHash z < 127 := Nat.mod_lt _ (by decide)
  obtain ⟨hbound, hchain⟩ := chainOf_lt (keywordHash z) hhash
  rw [keywordLoop_eq_find hbound, keywordHash_lower]
  apply List.find?_congr
  intro i hi
  have hlt : i < 124 := by simpa using List.all_eq_true.mp hchain i hi
  rw [Bool.eq_iff_iff, matchesKeyword_iff hz hlt, decide_eq_true_eq]

/-- The hash lookup is a search in the list. -/
theorem sqlite3KeywordCode_eq_lookup {z : Text} (hz : ∀ c ∈ z, isIdChar c = true) :
    sqlite3KeywordCode z = (keywordCodes.lookup (lower z)).getD .tkId := by
  have hlength : (lower z).length = z.length := List.length_map ..
  by_cases hmem : lower z ∈ keywords
  · -- a keyword
    obtain ⟨i, hi, hget⟩ := exists_index_of_mem hmem
    obtain ⟨hlen, hfind⟩ := find_chainOf i hi
    rw [← hget] at hlen hfind
    rw [sqlite3KeywordCode, if_pos (by omega), keywordLoop_eq hz, hfind, hget,
      (lookup_keywords i hi).1]
    rfl
  · -- no keyword
    have hnone : (chainOf 124 (aKWHash.getD (keywordHash (lower z)) 0)).find?
        (fun i => decide (lower z = keywords.getD i [])) = none := by
      have hhash : keywordHash (lower z) < 127 := Nat.mod_lt _ (by decide)
      rw [List.find?_eq_none]
      intro i hi heq
      have hlt : i < 124 := by
        simpa using List.all_eq_true.mp (chainOf_lt _ hhash).2 i hi
      rw [decide_eq_true_eq, List.getD_eq_getElem?_getD,
        List.getElem?_eq_getElem (by rwa [length_keywords])] at heq
      exact hmem (heq ▸ List.getElem_mem _)
    rw [lookup_keywordCodes_eq_none hmem, sqlite3KeywordCode]
    split_ifs
    · rw [keywordLoop_eq hz, hnone]
      rfl
    · rfl

/-- A word is reserved exactly when the lookup gives it a code of its own. -/
theorem sqlite3KeywordCode_eq_tkId_iff {z : Text} (hz : ∀ c ∈ z, isIdChar c = true) :
    sqlite3KeywordCode z = .tkId ↔ lower z ∉ keywords := by
  rw [sqlite3KeywordCode_eq_lookup hz]
  constructor
  · intro h hmem
    obtain ⟨i, hi, hget⟩ := exists_index_of_mem hmem
    obtain ⟨hlookup, hne⟩ := lookup_keywords i hi
    rw [hget, hlookup] at h
    exact hne h
  · intro h
    rw [lookup_keywordCodes_eq_none h]
    rfl

/-- **The keyword table is complete and sound**: every word of identifier characters gets the
code that it has in the list of keywords, without regard to case, and exactly the words that
are not in the list are identifiers. -/
theorem sqlite3KeywordCode_spec {z : Text} (hz : ∀ c ∈ z, isIdChar c = true) :
    sqlite3KeywordCode z = (keywordCodes.lookup (lower z)).getD .tkId ∧
      (sqlite3KeywordCode z = .tkId ↔ lower z ∉ keywords) :=
  ⟨sqlite3KeywordCode_eq_lookup hz, sqlite3KeywordCode_eq_tkId_iff hz⟩

/-- A keyword in mixed case. -/
theorem sqlite3KeywordCode_spec_trigger :
    sqlite3KeywordCode "TrIgGeR".toList = .tkTrigger ∧
      (sqlite3KeywordCode "TrIgGeR".toList = .tkId ↔ lower "TrIgGeR".toList ∉ keywords) := by
  have hspec := @sqlite3KeywordCode_spec "TrIgGeR".toList (List.all_eq_true.mp (by decide))
  have hlookup : (keywordCodes.lookup (lower "TrIgGeR".toList)).getD .tkId = .tkTrigger := by
    decide +kernel
  exact ⟨hspec.1.trans hlookup, hspec.2⟩

end SmtCacheBenchmarks.Sqlite
