import SmtCacheBenchmarks.Sqlite.Tokenizer

/-!
# SQLite's Parser Loop

Model of `sqlite3RunParser` in `tokenize.c`, which cuts a statement into tokens and hands
them to the generated parser.  The parser is a parameter: it takes the tokens one by one,
and may stop the loop after each of them.

The loop walks over the memory of the statement with a pointer, and steps back by one
token when it makes up a semicolon and an end marker at the end of the statement.  The
specification knows no pointers: the statement is cut into pieces, and the parser gets the
tokens among them in order.
-/

namespace SmtCacheBenchmarks.Sqlite

/-! ## The cut of a statement -/

/-- A piece of a statement, with the type that the tokenizer gives it. -/
structure Piece where
  text : Text
  type : TokenType
deriving DecidableEq

/-- The length and the type of the first piece. -/
def firstToken (z : Text) : ℕ × TokenType := (sqlite3GetToken (memory z [])).getD (1, .tkIllegal)

/-- The tokenizer finds the first piece, whatever stands behind the statement. -/
theorem sqlite3GetToken_eq_firstToken {z : Text} (hz : z ≠ []) :
    0 < (firstToken z).1 ∧ (firstToken z).1 ≤ z.length ∧
      ∀ rest, sqlite3GetToken (memory z rest) = some (firstToken z) := by
  obtain ⟨n, type, hn, hlen, htoken⟩ := sqlite3GetToken_memory hz
  have hfirst : firstToken z = (n, type) := by rw [firstToken, htoken]; rfl
  rw [hfirst]
  exact ⟨hn, hlen, htoken⟩

/-- The pieces of a statement. -/
def pieces : Text → List Piece
  | [] => []
  | c :: z =>
      ⟨(c :: z).take (firstToken (c :: z)).1, (firstToken (c :: z)).2⟩ ::
        pieces ((c :: z).drop (firstToken (c :: z)).1)
termination_by z => z.length
decreasing_by
  have hpos := (sqlite3GetToken_eq_firstToken (List.cons_ne_nil c z)).1
  rw [List.length_drop, List.length_cons]
  omega

theorem pieces_nil : pieces [] = [] := by
  rw [pieces]

theorem pieces_of_ne_nil {z : Text} (hz : z ≠ []) :
    pieces z = ⟨z.take (firstToken z).1, (firstToken z).2⟩ :: pieces (z.drop (firstToken z).1) := by
  obtain ⟨c, z, rfl⟩ := List.exists_cons_of_ne_nil hz
  rw [pieces]

/-- The text of some pieces. -/
def cutText (ps : List Piece) : Text := (ps.map Piece.text).flatten

@[simp] theorem cutText_nil : cutText [] = [] := rfl

@[simp] theorem cutText_cons (x : Piece) (ps : List Piece) :
    cutText (x :: ps) = x.text ++ cutText ps := rfl

@[simp] theorem cutText_append (ps qs : List Piece) :
    cutText (ps ++ qs) = cutText ps ++ cutText qs := by
  rw [cutText, List.map_append, List.flatten_append]
  rfl

/-- The pieces put together are the statement. -/
theorem cutText_pieces (z : Text) : cutText (pieces z) = z := by
  induction z using pieces.induct with
  | case1 => rw [pieces_nil, cutText_nil]
  | case2 c z ih =>
      rw [pieces_of_ne_nil (List.cons_ne_nil c z), cutText_cons, ih]
      exact List.take_append_drop ..

/-- No piece is empty. -/
theorem length_pieces_le (z : Text) : (pieces z).length ≤ z.length := by
  induction z using pieces.induct with
  | case1 => simp [pieces_nil]
  | case2 c z ih =>
      have hpos := (sqlite3GetToken_eq_firstToken (List.cons_ne_nil c z)).1
      rw [pieces_of_ne_nil (List.cons_ne_nil c z), List.length_cons]
      rw [List.length_drop] at ih
      simp only [List.length_cons] at ih ⊢
      omega

/-! ## The loop -/

/-- What the parser is called with: a token, or 0 at the end of the input. -/
inductive ParserCode where
  | token (type : TokenType)
  | endOfInput
deriving DecidableEq

/-- The generated parser, and the conditions on the `Parse` object and the connection
that the loop tests. -/
structure ParserApi (P : Type*) where
  /-- `sqlite3Parser(pEngine, tokenType, pParse->sLastToken, pParse)`. -/
  feed : P → ParserCode → Text → P
  /-- `pParse->rc!=SQLITE_OK || db->mallocFailed`. -/
  stopped : P → Bool
  /-- `db->u1.isInterrupted`. -/
  interrupted : P → Bool

/-- Why the loop was left. -/
inductive RunEnd where
  | tooBig
  | interrupted
  | unrecognized (token : Text)
  | stopped
  | complete
deriving DecidableEq

/-- The variables of the loop; `zSql` is an index into the memory. -/
structure RunState (P : Type*) where
  parser : P
  zSql : ℕ
  n : ℕ
  mxSqlLen : ℤ
  lastTokenParsed : Option ParserCode

/-- What the loop leaves behind. -/
structure RunResult (P : Type*) where
  parser : P
  reason : RunEnd
  zTail : ℕ

variable {P : Type*} (api : ParserApi P)

/-- The call of the parser with the token at `zSql`. -/
def feedToken (z : Text) (s : RunState P) (code : ParserCode) : RunState P ⊕ RunResult P :=
  let parser := api.feed s.parser code ((z.drop s.zSql).take s.n)
  if api.stopped parser then .inr ⟨parser, .stopped, s.zSql + s.n⟩
  else .inl { s with parser, zSql := s.zSql + s.n, lastTokenParsed := some code }

/-- A round in front of a piece of length `n`. -/
def pieceRound (z : Text) (s : RunState P) (n : ℕ) (tokenType : TokenType) :
    RunState P ⊕ RunResult P :=
  let s := { s with n, mxSqlLen := s.mxSqlLen - n }
  if s.mxSqlLen < 0 then .inr ⟨s.parser, .tooBig, s.zSql⟩
  else if tokenType = .tkSpace ∨ tokenType = .tkIllegal then
    if api.interrupted s.parser then .inr ⟨s.parser, .interrupted, s.zSql⟩
    else if tokenType = .tkIllegal then
      .inr ⟨s.parser, .unrecognized ((z.drop s.zSql).take n), s.zSql⟩
    else .inl { s with zSql := s.zSql + n }
  else feedToken api z s (.token tokenType)

/-- A round at the end of the statement.  A pointer in front of the memory is an error. -/
def endRound (z : Text) (s : RunState P) : Option (RunState P ⊕ RunResult P) :=
  if s.lastTokenParsed = some .endOfInput then some (.inr ⟨s.parser, .complete, s.zSql⟩)
  else if s.n ≤ s.zSql then
    let code := if s.lastTokenParsed = some (.token .tkSemi) then .endOfInput else .token .tkSemi
    some (feedToken api z { s with zSql := s.zSql - s.n } code)
  else none

/-- One round of the loop. -/
def parserRound (z : Text) (s : RunState P) : Option (RunState P ⊕ RunResult P) :=
  match z[s.zSql]? with
  | none => none
  | some c =>
      if c ≠ '\x00' then
        -- the length of a token is an `int`, and must not have overflowed
        (sqlite3GetToken (z.drop s.zSql)).bind fun r =>
          if r.1 < 2 ^ 31 then some (pieceRound api z s r.1 r.2) else none
      else endRound api z s

/-- The loop, with a bound on its rounds. -/
def parserLoop (z : Text) : ℕ → RunState P → Option (RunResult P)
  | 0, _ => none
  | fuel + 1, s =>
      match parserRound api z s with
      | none => none
      | some (.inl s) => parserLoop z fuel s
      | some (.inr r) => some r

/-- `sqlite3RunParser`: the loop over the statement at the beginning of the memory. -/
def sqlite3RunParser (z : Text) (mxSqlLen fuel : ℕ) (parser : P) : Option (RunResult P) :=
  parserLoop api z fuel ⟨parser, 0, 0, mxSqlLen, none⟩

/-! ## What the parser gets -/

/-- The tokens among the pieces. -/
def tokensOf (ps : List Piece) : List Piece := ps.filter (·.type ≠ .tkSpace)

theorem tokensOf_cons_token {x : Piece} (hx : x.type ≠ .tkSpace) (ps : List Piece) :
    tokensOf (x :: ps) = x :: tokensOf ps := by
  simp [tokensOf, hx]

theorem tokensOf_cons_space {x : Piece} (hx : x.type = .tkSpace) (ps : List Piece) :
    tokensOf (x :: ps) = tokensOf ps := by
  simp [tokensOf, hx]

/-- A call of the parser. -/
abbrev Feed := ParserCode × Text

/-- The calls for some pieces. -/
def feeds (ps : List Piece) : List Feed := (tokensOf ps).map fun x => (.token x.type, x.text)

/-- The text of the last piece. -/
def lastText (ps : List Piece) : Text := (ps.getLast?.map Piece.text).getD []

/-- The code of the last token. -/
def lastCode (ps : List Piece) : Option ParserCode :=
  (tokensOf ps).getLast?.map fun x => .token x.type

/-- The calls at the end of the statement: a semicolon, unless there is one, and the end
marker. -/
def endFeeds (ps : List Piece) : List Feed :=
  (if lastCode ps = some (.token .tkSemi) then [] else [(.token .tkSemi, lastText ps)]) ++
    [(.endOfInput, lastText ps)]

/-- The parser after some calls. -/
def feedAll (p : P) (fs : List Feed) : P := fs.foldl (fun p f => api.feed p f.1 f.2) p

/-- No call but possibly the last one stops the parser. -/
def GoesThrough (p : P) (fs : List Feed) : Prop :=
  ∀ gs, gs ≠ [] → gs <+: fs → gs ≠ fs → api.stopped (feedAll api p gs) = false

/-- How a run that has passed over the pieces `done`, with the pieces `todo` left, has
come to its end. -/
def Ended (limit : ℕ) (done todo : List Piece) (ends : List Feed) (r : RunResult P) : Prop :=
  match r.reason with
  | .tooBig => ends = [] ∧ ∃ x xs, todo = x :: xs ∧ limit < (cutText (done ++ [x])).length
  | .interrupted => ends = [] ∧ api.interrupted r.parser = true ∧
      ∃ x xs, todo = x :: xs ∧ (x.type = .tkSpace ∨ x.type = .tkIllegal)
  | .unrecognized token => ends = [] ∧ ∃ xs, todo = ⟨token, .tkIllegal⟩ :: xs
  | .stopped => feeds done ++ ends ≠ [] ∧ api.stopped r.parser = true ∧
      (ends = [] ∨ todo = [] ∧ ends <+: endFeeds done)
  | .complete => todo = [] ∧ ends = endFeeds done ∧ api.stopped r.parser = false

/-- The specification of a run over a statement with the pieces `ps`: some pieces are
passed over, and the parser has been called for the tokens among them in order, and
possibly for the end. -/
def RunSpec (limit : ℕ) (p : P) (ps : List Piece) (r : RunResult P) : Prop :=
  ∃ done todo ends, ps = done ++ todo ∧ r.zTail = (cutText done).length ∧
    (cutText done).length ≤ limit ∧ r.parser = feedAll api p (feeds done ++ ends) ∧
    GoesThrough api p (feeds done ++ ends) ∧ Ended api limit done todo ends r

/-! ## Calls that do not stop the parser -/

variable {api}

/-- No call stops the parser. -/
def Live (api : ParserApi P) (p : P) (fs : List Feed) : Prop :=
  ∀ gs, gs ≠ [] → gs <+: fs → api.stopped (feedAll api p gs) = false

theorem feedAll_append (p : P) (fs gs : List Feed) :
    feedAll api p (fs ++ gs) = feedAll api (feedAll api p fs) gs :=
  List.foldl_append

theorem Live.goesThrough {p : P} {fs : List Feed} (h : Live api p fs) : GoesThrough api p fs :=
  fun gs hne hpre _ => h gs hne hpre

theorem Live.goesThrough_concat {p : P} {fs : List Feed} (h : Live api p fs) (f : Feed) :
    GoesThrough api p (fs ++ [f]) := by
  intro gs hne hpre hproper
  rcases List.prefix_concat_iff.mp hpre with heq | hpre
  · exact absurd heq hproper
  · exact h gs hne hpre

theorem Live.concat {p : P} {fs : List Feed} (h : Live api p fs) {f : Feed}
    (hf : api.stopped (feedAll api p (fs ++ [f])) = false) : Live api p (fs ++ [f]) := by
  intro gs hne hpre
  rcases List.prefix_concat_iff.mp hpre with rfl | hpre
  · exact hf
  · exact h gs hne hpre

theorem live_nil (p : P) : Live api p [] := by
  intro gs hne hpre
  exact absurd (List.prefix_nil.mp hpre) hne

/-! ## The tokens of one piece more -/

theorem feeds_concat_token (ps : List Piece) {x : Piece} (hx : x.type ≠ .tkSpace) :
    feeds (ps ++ [x]) = feeds ps ++ [(.token x.type, x.text)] := by
  simp [feeds, tokensOf, hx]

theorem feeds_concat_space (ps : List Piece) {x : Piece} (hx : x.type = .tkSpace) :
    feeds (ps ++ [x]) = feeds ps := by
  simp [feeds, tokensOf, hx]

theorem lastCode_concat_token (ps : List Piece) {x : Piece} (hx : x.type ≠ .tkSpace) :
    lastCode (ps ++ [x]) = some (.token x.type) := by
  simp [lastCode, tokensOf, hx]

theorem lastCode_concat_space (ps : List Piece) {x : Piece} (hx : x.type = .tkSpace) :
    lastCode (ps ++ [x]) = lastCode ps := by
  simp [lastCode, tokensOf, hx]

@[simp] theorem lastText_concat (ps : List Piece) (x : Piece) :
    lastText (ps ++ [x]) = x.text := by
  simp [lastText]

theorem lastCode_ne_endOfInput (ps : List Piece) : lastCode ps ≠ some .endOfInput := by
  rw [lastCode]
  cases (tokensOf ps).getLast? <;> simp

/-- The last piece stands at the end of the text. -/
theorem exists_cutText_eq (ps : List Piece) : ∃ t, cutText ps = t ++ lastText ps := by
  rcases List.eq_nil_or_concat ps with rfl | ⟨ps, x, rfl⟩
  · exact ⟨[], rfl⟩
  · exact ⟨cutText ps, by simp⟩

/-! ## The end of the statement -/

/-- The loop at the end of the statement, after the calls `fs`. -/
structure AtEnd (api : ParserApi P) (p : P) (ps : List Piece) (fs : List Feed)
    (s : RunState P) : Prop where
  parser : s.parser = feedAll api p fs
  zSql : s.zSql = (cutText ps).length
  n : s.n = (lastText ps).length

/-- At the end of the statement the round is the one for the end. -/
theorem AtEnd.round {p : P} {ps : List Piece} {fs : List Feed} {s : RunState P}
    (hs : AtEnd api p ps fs s) (rest : Text) :
    parserRound api (memory (cutText ps) rest) s = endRound api (memory (cutText ps) rest) s := by
  have hget : (memory (cutText ps) rest)[s.zSql]? = some '\x00' := by
    rw [hs.zSql, getElem?_memory (Nat.le_refl _)]
    simp
  simp [parserRound, hget]

/-- The token of a call at the end is the last piece. -/
theorem AtEnd.feedToken {p : P} {ps : List Piece} {fs : List Feed} {s : RunState P}
    (hs : AtEnd api p ps fs s) (rest : Text) (code : ParserCode) :
    s.n ≤ s.zSql ∧
    (api.stopped (feedAll api p (fs ++ [(code, lastText ps)])) = true →
      feedToken api (memory (cutText ps) rest) { s with zSql := s.zSql - s.n } code =
        .inr ⟨feedAll api p (fs ++ [(code, lastText ps)]), .stopped, (cutText ps).length⟩) ∧
    (api.stopped (feedAll api p (fs ++ [(code, lastText ps)])) = false →
      ∃ s', feedToken api (memory (cutText ps) rest) { s with zSql := s.zSql - s.n } code =
          .inl s' ∧
        AtEnd api p ps (fs ++ [(code, lastText ps)]) s' ∧ s'.lastTokenParsed = some code) := by
  obtain ⟨t, ht⟩ := exists_cutText_eq ps
  have hlen : (cutText ps).length = t.length + (lastText ps).length := by
    rw [ht, List.length_append]
  have hback : s.zSql - s.n = t.length := by
    rw [hs.zSql, hs.n, hlen]
    omega
  -- the pointer has stepped back to the last piece
  have htext : ((memory (cutText ps) rest).drop (s.zSql - s.n)).take s.n = lastText ps := by
    rw [hback, drop_memory (by omega), ht, List.drop_left, hs.n, take_memory (Nat.le_refl _),
      List.take_length]
  have hparser : api.feed s.parser code (lastText ps) =
      feedAll api p (fs ++ [(code, lastText ps)]) := by
    rw [feedAll_append, hs.parser]
    rfl
  have hzSql : s.zSql - s.n + s.n = (cutText ps).length := by
    rw [hback, hs.n, hlen]
  refine ⟨by rw [hs.zSql, hs.n]; omega, fun hstop => ?_, fun hstop => ?_⟩
  · simp only [Sqlite.feedToken, htext, hparser, hstop, if_true, hzSql]
  · refine ⟨⟨feedAll api p (fs ++ [(code, lastText ps)]), s.zSql - s.n + s.n, s.n, s.mxSqlLen,
      some code⟩, ?_, ⟨rfl, hzSql, hs.n⟩, rfl⟩
    simp only [Sqlite.feedToken, htext, hparser, hstop, Bool.false_eq_true, if_false]

/-- After the end marker the loop is left. -/
theorem AtEnd.complete {p : P} {ps : List Piece} {fs : List Feed} {s : RunState P}
    (hs : AtEnd api p ps fs s) (hlast : s.lastTokenParsed = some .endOfInput) (rest : Text)
    (fuel : ℕ) :
    parserLoop api (memory (cutText ps) rest) (fuel + 1) s =
      some ⟨feedAll api p fs, .complete, (cutText ps).length⟩ := by
  rw [parserLoop, hs.round rest, endRound, if_pos hlast, hs.parser, hs.zSql]

/-- The end marker is the last call. -/
theorem AtEnd.endOfInput {p : P} {ps : List Piece} {fs : List Feed} {s : RunState P}
    (hs : AtEnd api p ps fs s) (hlast : s.lastTokenParsed = some (.token .tkSemi)) (rest : Text)
    (fuel : ℕ) :
    parserLoop api (memory (cutText ps) rest) (fuel + 2) s =
      some ⟨feedAll api p (fs ++ [(.endOfInput, lastText ps)]),
        if api.stopped (feedAll api p (fs ++ [(.endOfInput, lastText ps)])) then .stopped
        else .complete, (cutText ps).length⟩ := by
  obtain ⟨hback, hstopped, hlive⟩ := hs.feedToken rest .endOfInput
  have hround : endRound api (memory (cutText ps) rest) s = some (Sqlite.feedToken api
      (memory (cutText ps) rest) { s with zSql := s.zSql - s.n } .endOfInput) := by
    rw [endRound, if_neg (by rw [hlast]; decide), if_pos hback, if_pos hlast]
  by_cases hstop : api.stopped (feedAll api p (fs ++ [(.endOfInput, lastText ps)])) = true
  · rw [parserLoop, hs.round rest, hround, hstopped hstop, if_pos hstop]
  · obtain ⟨s', hfeed, hs', hlast'⟩ := hlive (by simpa using hstop)
    rw [parserLoop, hs.round rest, hround, hfeed, if_neg hstop]
    exact hs'.complete hlast' rest fuel

/-- The result of a run with all calls. -/
theorem ended_endFeeds (limit : ℕ) (p : P) (ps : List Piece) (zTail : ℕ) :
    Ended api limit ps [] (endFeeds ps) ⟨feedAll api p (feeds ps ++ endFeeds ps),
      if api.stopped (feedAll api p (feeds ps ++ endFeeds ps)) then .stopped else .complete,
      zTail⟩ := by
  by_cases hstop : api.stopped (feedAll api p (feeds ps ++ endFeeds ps)) = true
  · rw [if_pos hstop]
    exact ⟨by simp [endFeeds], hstop, .inr ⟨rfl, List.prefix_rfl⟩⟩
  · rw [if_neg hstop]
    exact ⟨rfl, rfl, by simpa using hstop⟩

/-- The run after the last piece. -/
theorem AtEnd.loop (limit : ℕ) {p : P} {ps : List Piece} {s : RunState P}
    (hs : AtEnd api p ps (feeds ps) s) (hlast : s.lastTokenParsed = lastCode ps)
    (hlive : Live api p (feeds ps)) (rest : Text) (fuel : ℕ) :
    ∃ r ends, parserLoop api (memory (cutText ps) rest) (fuel + 3) s = some r ∧
      r.zTail = (cutText ps).length ∧ r.parser = feedAll api p (feeds ps ++ ends) ∧
      GoesThrough api p (feeds ps ++ ends) ∧ Ended api limit ps [] ends r := by
  by_cases hsemi : lastCode ps = some (.token .tkSemi)
  · -- the statement ends with a semicolon
    have hends : endFeeds ps = [(.endOfInput, lastText ps)] := by simp [endFeeds, hsemi]
    have hloop := hs.endOfInput (hlast.trans hsemi) rest (fuel + 1)
    rw [← hends] at hloop
    refine ⟨_, endFeeds ps, hloop, rfl, rfl, ?_, ended_endFeeds limit p ps _⟩
    rw [hends]
    exact hlive.goesThrough_concat _
  · -- a semicolon is made up
    have hends : endFeeds ps =
        [(.token .tkSemi, lastText ps), (.endOfInput, lastText ps)] := by
      simp [endFeeds, hsemi]
    obtain ⟨hback, hstopped, hgoes⟩ := hs.feedToken rest (.token .tkSemi)
    have hround : endRound api (memory (cutText ps) rest) s = some (Sqlite.feedToken api
        (memory (cutText ps) rest) { s with zSql := s.zSql - s.n } (.token .tkSemi)) := by
      rw [endRound, hlast, if_neg (lastCode_ne_endOfInput ps), if_pos hback, if_neg hsemi]
    by_cases hstop : api.stopped (feedAll api p
        (feeds ps ++ [(.token .tkSemi, lastText ps)])) = true
    · have hloop : parserLoop api (memory (cutText ps) rest) (fuel + 3) s =
          some ⟨feedAll api p (feeds ps ++ [(.token .tkSemi, lastText ps)]), .stopped,
            (cutText ps).length⟩ := by
        rw [parserLoop, hs.round rest, hround, hstopped hstop]
      refine ⟨_, [(.token .tkSemi, lastText ps)], hloop, rfl, rfl, hlive.goesThrough_concat _, ?_⟩
      refine ⟨by simp, hstop, .inr ⟨rfl, ?_⟩⟩
      rw [hends]
      exact ⟨[(.endOfInput, lastText ps)], rfl⟩
    · have hstop : api.stopped (feedAll api p
          (feeds ps ++ [(.token .tkSemi, lastText ps)])) = false := by simpa using hstop
      obtain ⟨s', hfeed, hs', hlast'⟩ := hgoes hstop
      have hall : feeds ps ++ [(.token .tkSemi, lastText ps)] ++ [(.endOfInput, lastText ps)] =
          feeds ps ++ endFeeds ps := by
        rw [hends, List.append_assoc]
        rfl
      have hfirst : parserLoop api (memory (cutText ps) rest) (fuel + 3) s =
          parserLoop api (memory (cutText ps) rest) (fuel + 2) s' := by
        rw [parserLoop, hs.round rest, hround, hfeed]
      have hloop := hfirst.trans (hs'.endOfInput hlast' rest fuel)
      rw [hall] at hloop
      refine ⟨_, endFeeds ps, hloop, rfl, rfl, ?_, ended_endFeeds limit p ps _⟩
      rw [← hall]
      exact (hlive.concat hstop).goesThrough_concat _

/-! ## The run over the pieces -/

/-- The loop behind the pieces `ps`, none of which has stopped the parser. -/
structure Reading (api : ParserApi P) (limit : ℕ) (p : P) (ps : List Piece)
    (s : RunState P) : Prop extends AtEnd api p ps (feeds ps) s where
  mxSqlLen : s.mxSqlLen = (limit : ℤ) - (cutText ps).length
  lastTokenParsed : s.lastTokenParsed = lastCode ps
  fits : (cutText ps).length ≤ limit
  live : Live api p (feeds ps)

/-- The round in front of the piece `x`: the run ends, or `x` is passed over. -/
theorem Reading.pieceRound {limit : ℕ} {p : P} {ps : List Piece} {s : RunState P}
    (hs : Reading api limit p ps s) (x : Piece) (todo : List Piece) (rest : Text) :
    (∃ r, pieceRound api (memory (cutText (ps ++ x :: todo)) rest) s x.text.length x.type =
        .inr r ∧ RunSpec api limit p (ps ++ x :: todo) r) ∨
    (∃ s', pieceRound api (memory (cutText (ps ++ x :: todo)) rest) s x.text.length x.type =
        .inl s' ∧ Reading api limit p (ps ++ [x]) s') := by
  have hlen : (cutText (ps ++ [x])).length = (cutText ps).length + x.text.length := by simp
  -- the pointer is at the piece
  have htext : ((memory (cutText (ps ++ x :: todo)) rest).drop s.zSql).take x.text.length =
      x.text := by
    rw [hs.zSql, drop_memory (by simp), cutText_append, List.drop_left, cutText_cons,
      take_memory (by simp), List.take_left]
  generalize memory (cutText (ps ++ x :: todo)) rest = z at htext ⊢
  have hgoes : GoesThrough api p (feeds ps ++ []) := by
    rw [List.append_nil]
    exact hs.live.goesThrough
  have hparser : s.parser = feedAll api p (feeds ps ++ []) := by
    rw [List.append_nil]
    exact hs.parser
  by_cases hbig : limit < (cutText (ps ++ [x])).length
  · -- too big
    have hneg : s.mxSqlLen - (x.text.length : ℤ) < 0 := by
      have := hs.mxSqlLen
      omega
    refine .inl ⟨⟨s.parser, .tooBig, s.zSql⟩, by simp [Sqlite.pieceRound, hneg], ?_⟩
    exact ⟨ps, x :: todo, [], rfl, hs.zSql, hs.fits, hparser, hgoes, rfl, x, todo, rfl, hbig⟩
  have hfits : ¬ s.mxSqlLen - (x.text.length : ℤ) < 0 := by
    have := hs.mxSqlLen
    omega
  have hrest : s.mxSqlLen - (x.text.length : ℤ) = (limit : ℤ) - (cutText (ps ++ [x])).length := by
    have := hs.mxSqlLen
    omega
  by_cases hblank : x.type = .tkSpace ∨ x.type = .tkIllegal
  · by_cases hinterrupted : api.interrupted s.parser = true
    · refine .inl ⟨⟨s.parser, .interrupted, s.zSql⟩,
        by simp [Sqlite.pieceRound, hfits, hblank, hinterrupted], ?_⟩
      exact ⟨ps, x :: todo, [], rfl, hs.zSql, hs.fits, hparser, hgoes, rfl, hinterrupted, x, todo,
        rfl, hblank⟩
    · by_cases hillegal : x.type = .tkIllegal
      · refine .inl ⟨⟨s.parser, .unrecognized x.text, s.zSql⟩,
          by simp [Sqlite.pieceRound, hfits, hinterrupted, hillegal, htext], ?_⟩
        refine ⟨ps, x :: todo, [], rfl, hs.zSql, hs.fits, hparser, hgoes, rfl, todo, ?_⟩
        rw [← hillegal]
      · -- a space is passed over
        have hspace : x.type = .tkSpace := hblank.resolve_right hillegal
        refine .inr ⟨⟨s.parser, s.zSql + x.text.length, x.text.length,
          s.mxSqlLen - x.text.length, s.lastTokenParsed⟩,
          by simp [Sqlite.pieceRound, hfits, hinterrupted, hspace], ?_⟩
        have hfeeds := feeds_concat_space ps hspace
        refine ⟨⟨?_, ?_, ?_⟩, hrest, ?_, by omega, ?_⟩
        · rw [hfeeds]
          exact hs.parser
        · rw [hlen, ← hs.zSql]
        · rw [lastText_concat]
        · rw [lastCode_concat_space ps hspace]
          exact hs.lastTokenParsed
        · rw [hfeeds]
          exact hs.live
  · -- a token
    rw [not_or] at hblank
    have hfeeds := feeds_concat_token ps hblank.1
    have hfeed : api.feed s.parser (.token x.type) x.text =
        feedAll api p (feeds (ps ++ [x])) := by
      rw [hfeeds, feedAll_append, hs.parser]
      rfl
    have hsplit : ps ++ x :: todo = (ps ++ [x]) ++ todo := by simp
    by_cases hstop : api.stopped (feedAll api p (feeds (ps ++ [x]))) = true
    · refine .inl ⟨⟨feedAll api p (feeds (ps ++ [x])), .stopped, s.zSql + x.text.length⟩, ?_, ?_⟩
      · simp [Sqlite.pieceRound, hfits, hblank, feedToken, htext, hfeed, hstop]
      · refine ⟨ps ++ [x], todo, [], hsplit, ?_, by omega, ?_, ?_, by simp [hfeeds], hstop,
          .inl rfl⟩
        · rw [hlen, ← hs.zSql]
        · rw [List.append_nil]
        · rw [List.append_nil, hfeeds]
          exact hs.live.goesThrough_concat _
    · refine .inr ⟨⟨feedAll api p (feeds (ps ++ [x])), s.zSql + x.text.length, x.text.length,
        s.mxSqlLen - x.text.length, some (.token x.type)⟩, ?_, ?_⟩
      · simp [Sqlite.pieceRound, hfits, hblank, feedToken, htext, hfeed, hstop]
      · refine ⟨⟨rfl, ?_, ?_⟩, hrest, (lastCode_concat_token ps hblank.1).symm, by omega, ?_⟩
        · rw [hlen, ← hs.zSql]
        · rw [lastText_concat]
        · rw [hfeeds]
          apply hs.live.concat
          rw [← hfeeds]
          simpa using hstop

/-- In front of the rest `u` of the statement, the round is the one for its first piece. -/
theorem Reading.round {limit : ℕ} {p : P} {ps : List Piece} {s : RunState P}
    (hs : Reading api limit p ps s) {u : Text} (hu : u ≠ []) (hnul : '\x00' ∉ u)
    (hint : u.length < 2 ^ 31) (rest : Text) :
    ∃ x, pieces u = x :: pieces (u.drop x.text.length) ∧
      parserRound api (memory (cutText ps ++ u) rest) s =
        some (Sqlite.pieceRound api (memory (cutText ps ++ u) rest) s x.text.length x.type) := by
  obtain ⟨hpos, hlen, htoken⟩ := sqlite3GetToken_eq_firstToken hu
  have htake : (u.take (firstToken u).1).length = (firstToken u).1 := by
    rw [List.length_take]
    omega
  refine ⟨⟨u.take (firstToken u).1, (firstToken u).2⟩, ?_, ?_⟩
  · rw [htake]
    exact pieces_of_ne_nil hu
  · have hget : (memory (cutText ps ++ u) rest)[s.zSql]? = some (u.getD 0 '\x00') := by
      rw [hs.zSql, getElem?_memory (by simp), List.getD_eq_getElem?_getD,
        List.getElem?_append_right (Nat.le_refl _), Nat.sub_self, ← List.getD_eq_getElem?_getD]
    have hdrop : (memory (cutText ps ++ u) rest).drop s.zSql = memory u rest := by
      rw [hs.zSql, drop_memory (by simp), List.drop_left]
    have hne : u.getD 0 '\x00' ≠ '\x00' := by
      obtain ⟨c, u, rfl⟩ := List.exists_cons_of_ne_nil hu
      exact fun h => hnul (h ▸ List.mem_cons_self)
    have hfits : (firstToken u).1 < 2 ^ 31 := Nat.lt_of_le_of_lt hlen hint
    rw [parserRound, hget, hdrop, htoken rest]
    simp only [if_pos hne, Option.bind_some, if_pos hfits, htake]

/-- The loop behind the pieces `ps`, with the rest `u` of the statement left. -/
theorem Reading.loop {limit : ℕ} {p : P} {ps : List Piece} {s : RunState P}
    (hs : Reading api limit p ps s) {u : Text} (hnul : '\x00' ∉ u)
    (hint : u.length < 2 ^ 31) (rest : Text) {fuel : ℕ}
    (hfuel : (pieces u).length + 3 ≤ fuel) :
    ∃ r, parserLoop api (memory (cutText ps ++ u) rest) fuel s = some r ∧
      RunSpec api limit p (ps ++ pieces u) r := by
  -- induction on the pieces that are left
  induction htodo : pieces u generalizing ps s u fuel with
  | nil =>
      obtain rfl : u = [] := by rw [← cutText_pieces u, htodo, cutText_nil]
      obtain ⟨fuel, rfl⟩ : ∃ k, fuel = k + 3 := ⟨fuel - 3, by omega⟩
      rw [List.append_nil, List.append_nil]
      obtain ⟨r, ends, hloop, htail, hparser, hgoes, hended⟩ :=
        hs.toAtEnd.loop limit hs.lastTokenParsed hs.live rest fuel
      exact ⟨r, hloop, ps, [], ends, (List.append_nil ps).symm, htail, hs.fits, hparser, hgoes,
        hended⟩
  | cons x todo ih =>
      have hu : u ≠ [] := by
        rintro rfl
        rw [pieces_nil] at htodo
        exact absurd htodo (by simp)
      obtain ⟨x', hpieces, hround⟩ := hs.round hu hnul hint rest
      obtain ⟨rfl, rfl⟩ : x = x' ∧ todo = pieces (u.drop x'.text.length) := by
        rw [htodo] at hpieces
        exact List.cons.inj hpieces
      have hcut : cutText (ps ++ x :: pieces (u.drop x.text.length)) = cutText ps ++ u := by
        rw [cutText_append, ← htodo, cutText_pieces]
      obtain ⟨fuel, rfl⟩ : ∃ k, fuel = k + 1 := ⟨fuel - 1, by omega⟩
      rcases hs.pieceRound x (pieces (u.drop x.text.length)) rest with
        ⟨r, hr, hspec⟩ | ⟨s', hs', hreading⟩
      · rw [hcut] at hr
        exact ⟨r, by rw [parserLoop, hround, hr], hspec⟩
      · rw [hcut] at hs'
        rw [htodo, List.length_cons] at hfuel
        have hdrop : u = x.text ++ u.drop x.text.length := by
          rw [← cutText_pieces (u.drop x.text.length), ← cutText_cons, ← htodo, cutText_pieces]
        have hfuel' : (pieces (u.drop x.text.length)).length + 3 ≤ fuel := by omega
        have hint' : (u.drop x.text.length).length < 2 ^ 31 :=
          Nat.lt_of_le_of_lt (List.drop_sublist ..).length_le hint
        obtain ⟨r, hloop, hspec⟩ :=
          ih hreading (fun h => hnul (List.mem_of_mem_drop h)) hint' hfuel' rfl
        refine ⟨r, ?_, by simpa using hspec⟩
        rw [parserLoop, hround, hs']
        rw [cutText_append, cutText_cons, cutText_nil, List.append_nil, List.append_assoc,
          ← hdrop] at hloop
        exact hloop

/-- The loop before the first piece. -/
theorem reading_start (limit : ℕ) (p : P) :
    Reading api limit p [] (⟨p, 0, 0, limit, none⟩ : RunState P) :=
  ⟨⟨rfl, rfl, rfl⟩, by simp, rfl, Nat.zero_le _, live_nil p⟩

/-- **The loop hands over the tokens of the statement**: for every parser, limit and
statement without a NUL whose length is an `int`, and whatever stands behind it in the
memory, the loop ends without a read beyond the NUL, and the run is one over the pieces of
the statement. -/
theorem sqlite3RunParser_spec {z : Text} (hnul : '\x00' ∉ z) (hint : z.length < 2 ^ 31)
    (rest : Text) (limit : ℕ) (p : P) {fuel : ℕ} (hfuel : z.length + 3 ≤ fuel) :
    cutText (pieces z) = z ∧
      ∃ r, sqlite3RunParser api (memory z rest) limit fuel p = some r ∧
        RunSpec api limit p (pieces z) r := by
  have hlen := length_pieces_le z
  exact ⟨cutText_pieces z, (reading_start limit p).loop hnul hint rest (by omega)⟩

/-- A parser that counts its calls, on a statement of three tokens. -/
theorem sqlite3RunParser_spec_three :
    cutText (pieces ['a', ' ', '<', '=', '7']) = ['a', ' ', '<', '=', '7'] ∧
      ∃ r, sqlite3RunParser (⟨fun k _ _ => k + 1, fun _ => false, fun _ => false⟩ : ParserApi ℕ)
          (memory ['a', ' ', '<', '=', '7'] ['?']) 100 9 0 = some r ∧
        RunSpec ⟨fun k _ _ => k + 1, fun _ => false, fun _ => false⟩ 100 0
          (pieces ['a', ' ', '<', '=', '7']) r :=
  sqlite3RunParser_spec (by decide) (by decide) ['?'] 100 0 (by decide)

/-! ## Runs that only the parser ends -/

/-- The parser after the calls up to the first that stops it. -/
def feedUntil (api : ParserApi P) (p : P) : List Feed → P
  | [] => p
  | f :: fs =>
      if api.stopped (api.feed p f.1 f.2) then api.feed p f.1 f.2
      else feedUntil api (api.feed p f.1 f.2) fs

theorem feedUntil_eq {p : P} {fs script : List Feed} (hgoes : GoesThrough api p fs)
    (hpre : fs <+: script)
    (hend : fs = script ∨ fs ≠ [] ∧ api.stopped (feedAll api p fs) = true) :
    feedUntil api p script = feedAll api p fs := by
  induction script generalizing p fs with
  | nil =>
      obtain rfl := List.prefix_nil.mp hpre
      rfl
  | cons f script ih =>
      cases fs with
      | nil => simp at hend
      | cons g fs =>
          obtain ⟨rfl, htail⟩ := List.cons_prefix_cons.mp hpre
          by_cases hstop : api.stopped (api.feed p g.1 g.2) = true
          · -- the call is the last one
            have hlast : [g] = g :: fs := by
              by_contra hne
              have := hgoes [g] (by simp) (by simp) hne
              exact absurd hstop (by simpa [feedAll] using this)
            rw [feedUntil, if_pos hstop, ← hlast]
            rfl
          · rw [feedUntil, if_neg hstop]
            apply ih
            · intro gs hne hgs hproper
              exact hgoes (g :: gs) (by simp) (List.cons_prefix_cons.mpr ⟨rfl, hgs⟩)
                (by simpa using hproper)
            · exact htail
            · rcases hend with heq | ⟨-, hstopped⟩
              · exact .inl (List.cons.inj heq).2
              · refine .inr ⟨?_, hstopped⟩
                rintro rfl
                exact hstop hstopped

/-- A statement without unrecognized tokens, within the limit, and without an interrupt
reaches the parser whole. -/
theorem RunSpec.feedUntil {limit : ℕ} {p : P} {ps : List Piece} {r : RunResult P}
    (hspec : RunSpec api limit p ps r) (hlimit : (cutText ps).length ≤ limit)
    (hlegal : ∀ x ∈ ps, x.type ≠ .tkIllegal) (hquiet : ∀ p, api.interrupted p = false) :
    r.parser = feedUntil api p (feeds ps ++ endFeeds ps) ∧
      (r.reason = .stopped ∨ r.reason = .complete) := by
  obtain ⟨done, todo, ends, rfl, -, -, hparser, hgoes, hended⟩ := hspec
  have hpre : todo = [] ∧ ends <+: endFeeds done ∨ ends = [] →
      feeds done ++ ends <+: feeds (done ++ todo) ++ endFeeds (done ++ todo) := by
    rintro (⟨rfl, hends⟩ | rfl)
    · rw [List.append_nil]
      exact (List.prefix_append_right_inj _).mpr hends
    · rw [List.append_nil, feeds, feeds, tokensOf, tokensOf, List.filter_append, List.map_append,
        List.append_assoc]
      exact List.prefix_append ..
  unfold Ended at hended
  cases hreason : r.reason with
  | tooBig =>
      rw [hreason] at hended
      obtain ⟨-, x, xs, rfl, hbig⟩ := hended
      simp at hbig hlimit
      omega
  | interrupted =>
      rw [hreason] at hended
      exact absurd hended.2.1 (by simp [hquiet])
  | unrecognized token =>
      rw [hreason] at hended
      obtain ⟨-, xs, rfl⟩ := hended
      exact absurd rfl (hlegal ⟨token, .tkIllegal⟩ (by simp))
  | stopped =>
      rw [hreason] at hended
      obtain ⟨hne, hstop, hends⟩ := hended
      refine ⟨?_, .inl rfl⟩
      rw [hparser] at hstop ⊢
      exact (feedUntil_eq hgoes (hpre hends.symm) (.inr ⟨hne, hstop⟩)).symm
  | complete =>
      rw [hreason] at hended
      obtain ⟨rfl, rfl, -⟩ := hended
      refine ⟨?_, .inr rfl⟩
      rw [hparser, List.append_nil]
      exact (feedUntil_eq hgoes List.prefix_rfl (.inl rfl)).symm

end SmtCacheBenchmarks.Sqlite
