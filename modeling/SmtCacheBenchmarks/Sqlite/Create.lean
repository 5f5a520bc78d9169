import Mathlib.Data.Finset.Insert
import SmtCacheBenchmarks.Library.Lexer
import SmtCacheBenchmarks.Text

/-!
# The CREATE Statements of the SQLite Benchmark

What the benchmark relies on when it hands a statement to `sqlite3_exec`.  The tokens
are those of SQLite's tokenizer on statements without quotes and comments, and only the
forms that the benchmark uses are recognized as complete statements, so that
`ExecutesCreate` asks no more of SQLite than these.
-/

namespace SmtCacheBenchmarks.Sqlite

open SmtCacheBenchmarks.Library

/-! ## Tokens -/

/-- The characters that the tokenizer skips. -/
def isSqlSpace (c : Char) : Bool := [' ', '\t', '\n', '\x0c', '\r'].contains c

/-- `IdChar`: alphanumerics, `_`, `$`, and everything outside ASCII. -/
def isIdChar (c : Char) : Bool := c.isAlphanum || c = '_' || c = '$' || 128 ≤ c.toNat

/-- The tokens of a statement. -/
def sqlTokens (sql : Text) : List Text := Lexer.tokens isSqlSpace isIdChar sql

/-- Keywords and names are compared without regard to case. -/
def lower (w : Text) : Text := w.map Char.toLower

/-- The keywords, in the order of SQLite's keyword table. -/
def keywords : List Text :=
  ["reindex", "indexed", "index", "desc", "escape", "each", "check", "key", "before", "foreign",
   "for", "ignore", "regexp", "explain", "instead", "add", "database", "as", "select", "table",
   "left", "then", "end", "deferrable", "else", "except", "transaction", "action", "on",
   "natural", "alter", "raise", "exclusive", "exists", "savepoint", "intersect", "trigger",
   "references", "constraint", "into", "offset", "of", "set", "temporary", "temp", "or",
   "unique", "query", "without", "with", "outer", "release", "attach", "having", "group",
   "update", "begin", "inner", "recursive", "between", "notnull", "not", "no", "null", "like",
   "cascade", "asc", "delete", "case", "collate", "create", "current_date", "detach",
   "immediate", "join", "insert", "match", "plan", "analyze", "pragma", "abort", "values",
   "virtual", "limit", "when", "where", "rename", "after", "replace", "and", "default",
   "autoincrement", "to", "in", "cast", "column", "commit", "conflict", "cross",
   "current_timestamp", "current_time", "primary", "deferred", "distinct", "is", "drop", "fail",
   "from", "full", "glob", "by", "if", "isnull", "order", "restrict", "right", "rollback",
   "row", "union", "using", "vacuum", "view", "initially", "all"].map String.toList

/-- A name that needs no quotes and is not reserved. -/
def isIdentifier (w : Text) : Bool :=
  w.all isIdChar && (w.head?.any fun c => c.isAlpha || c = '_') &&
    !keywords.contains (lower w) && !"sqlite_".toList.isPrefixOf (lower w)

/-! ## Statements -/

/-- The kinds of objects that the benchmark creates. -/
inductive ObjectKind where
  | table
  | trigger
deriving DecidableEq

/-- A complete CREATE statement. -/
structure Create where
  kind : ObjectKind
  name : Text
deriving DecidableEq

/-- The definition of a table with the two columns of `tbl`. -/
def tableBody : List Text := sqlTokens "(a int, b int)".toList

/-- What a trigger of the benchmark does. -/
def triggerBody : List Text :=
  sqlTokens "after insert on tbl begin insert into tbl values(1,2); end;".toList

/-- The complete statement that a text is, if it is one of the benchmark's forms. -/
def parseCreate (sql : Text) : Option Create :=
  match sqlTokens sql with
  | create :: kind :: name :: body =>
      if lower create = "create".toList ∧ isIdentifier name then
        if lower kind = "table".toList ∧ body.map lower = tableBody then
          some ⟨.table, name⟩
        else if lower kind = "trigger".toList ∧ body.map lower = triggerBody then
          some ⟨.trigger, name⟩
        else none
      else none
  | _ => none

/-- Two names of one object. -/
def sameName (v w : Text) : Prop := lower v = lower w

instance (v w : Text) : Decidable (sameName v w) :=
  inferInstanceAs (Decidable (lower v = lower w))

/-! ## The database -/

/-- What `sqlite3_exec` gives: the database afterwards, the result code, and the text
behind `errmsg`. -/
structure ExecResult (DB : Type*) where
  db : DB
  rc : ℤ
  errMsg : Text

/-- `sqlite3_exec`, and the names of the objects that a database holds. -/
structure SqliteApi (DB : Type*) where
  exec : DB → Text → ExecResult DB
  names : DB → ObjectKind → Finset Text

variable {DB : Type*}

/-- An object of this kind and name exists. -/
def SqliteApi.Taken (api : SqliteApi DB) (db : DB) (c : Create) : Prop :=
  ∃ v ∈ api.names db c.kind, sameName v c.name

instance (api : SqliteApi DB) (db : DB) (c : Create) : Decidable (api.Taken db c) :=
  inferInstanceAs (Decidable (∃ v ∈ api.names db c.kind, sameName v c.name))

/-- A complete CREATE statement is executed: it adds its object, and fails when the name
is taken.  A trigger needs the table that it is on. -/
structure ExecutesCreate (api : SqliteApi DB) : Prop where
  creates : ∀ db sql c, parseCreate sql = some c → ¬ api.Taken db c →
    (c.kind = .trigger → "tbl".toList ∈ api.names db .table) →
    (api.exec db sql).rc = 0 ∧
      api.names (api.exec db sql).db c.kind = insert c.name (api.names db c.kind) ∧
      ∀ kind, kind ≠ c.kind → api.names (api.exec db sql).db kind = api.names db kind
  refuses : ∀ db sql c, parseCreate sql = some c → api.Taken db c →
    (api.exec db sql).rc ≠ 0 ∧
      ∀ kind, api.names (api.exec db sql).db kind = api.names db kind

/-! ## Recognizing a statement -/

theorem lower_append (v w : Text) : lower (v ++ w) = lower v ++ lower w :=
  List.map_append ..

/-- An identifier is one token. -/
theorem mem_isIdentifier {w : Text} (hw : isIdentifier w = true) :
    w ≠ [] ∧ ∀ c ∈ w, isSqlSpace c = false ∧ isIdChar c = true := by
  simp only [isIdentifier, Bool.and_eq_true, List.all_eq_true] at hw
  obtain ⟨⟨⟨hid, hhead⟩, -⟩, -⟩ := hw
  refine ⟨by rintro rfl; simp at hhead, fun c hc => ⟨?_, hid c hc⟩⟩
  have hc := hid c hc
  by_contra hspace
  have hmem : c ∈ [' ', '\t', '\n', '\x0c', '\r'] := by
    rw [Bool.not_eq_false] at hspace
    exact List.elem_iff.mp hspace
  have hall : ([' ', '\t', '\n', '\x0c', '\r'].all fun c => !isIdChar c) = true := by decide
  have hnone := List.all_eq_true.mp hall c hmem
  simp [hc] at hnone

/-- The tokens of a statement that names an object between two blanks. -/
theorem sqlTokens_name {before name after : Text} (hname : isIdentifier name = true) :
    sqlTokens (before ++ ' ' :: (name ++ ' ' :: after)) =
      sqlTokens before ++ name :: sqlTokens after := by
  have hblank : ∀ (r : Text) b t, ' ' :: r = b :: t → isIdChar b = false := by
    intro r b t h
    obtain ⟨rfl, -⟩ := List.cons.inj h
    decide
  obtain ⟨hne, hword⟩ := mem_isIdentifier hname
  unfold sqlTokens
  rw [Lexer.tokens_append (hblank _), Lexer.tokens_cons_sep (by decide),
    Lexer.tokens_append_word hne hword (hblank _), Lexer.tokens_cons_sep (by decide)]

/-- A CREATE TRIGGER statement of the benchmark's form is complete. -/
theorem parseCreate_trigger {before name after : Text} (hname : isIdentifier name = true)
    (hbefore : (sqlTokens before).map lower = ["create".toList, "trigger".toList])
    (hafter : (sqlTokens after).map lower = triggerBody) :
    parseCreate (before ++ ' ' :: (name ++ ' ' :: after)) = some ⟨.trigger, name⟩ := by
  obtain ⟨create, rest, hpair, hcreate, hrest⟩ := List.map_eq_cons_iff.mp hbefore
  obtain ⟨kind, rest, rfl, hkind, hnil⟩ := List.map_eq_cons_iff.mp hrest
  obtain rfl := List.map_eq_nil_iff.mp hnil
  have hne : ("trigger".toList : Text) ≠ "table".toList := by decide
  simp [parseCreate, sqlTokens_name hname, hpair, hcreate, hkind, hname, hafter]

end SmtCacheBenchmarks.Sqlite
