import SmtCacheBenchmarks.Sqlite.RunParser

/-!
# The Tokens of the Benchmark's Statements

`sqlTokens` cuts a statement by classes of characters, and knows neither quotes nor
comments nor numbers.  On statements whose tokens are plain, SQLite's tokenizer finds the
same tokens, and their types depend on their text alone.  So the statements that
`parseCreate` recognizes reach the parser as the tokens of a CREATE TRIGGER statement.
-/

namespace SmtCacheBenchmarks.Sqlite

open SmtCacheBenchmarks.Library

/-! ## Plain tokens -/

/-- The type of a token that is a single character of its own. -/
def singleType (c : Char) : Option TokenType :=
  match aiClass c with
  | .lp => some .tkLp
  | .rp => some .tkRp
  | .semi => some .tkSemi
  | .plus => some .tkPlus
  | .star => some .tkStar
  | .percent => some .tkRem
  | .comma => some .tkComma
  | .and => some .tkBitand
  | .tilda => some .tkBitnot
  | _ => none

/-- The type of a word: its code in the list of keywords. -/
def wordType (w : Text) : TokenType := (keywordCodes.lookup (lower w)).getD .tkId

/-- The type of a plain token: a number of digits only, a word that does not begin with
`$`, or one of some single characters. -/
def plainType : Text → Option TokenType
  | [] => none
  | c :: w =>
      if isIdChar c then
        if c.isDigit then if w.all Char.isDigit then some .tkInteger else none
        else if c = '$' then none
        else some (wordType (c :: w))
      else singleType c

/-- A statement whose tokens are all plain. -/
def PlainStatement (z : Text) : Prop := ∀ w ∈ sqlTokens z, (plainType w).isSome = true

private theorem keywordCodes_ne :
    (keywordCodes.all fun p => decide (p.2 ≠ .tkSpace ∧ p.2 ≠ .tkIllegal)) = true := by
  decide +kernel

theorem wordType_ne (w : Text) : wordType w ≠ .tkSpace ∧ wordType w ≠ .tkIllegal := by
  rw [wordType]
  cases hlookup : keywordCodes.lookup (lower w) with
  | none => decide
  | some type =>
      have hpair : (lower w, type) ∈ keywordCodes := by
        obtain ⟨l, r, hsplit, -⟩ := List.lookup_eq_some_iff.mp hlookup
        rw [hsplit]
        simp
      simpa using List.all_eq_true.mp keywordCodes_ne (lower w, type) hpair

/-- No token is a space or unrecognized. -/
theorem plainType_ne {w : Text} {type : TokenType} (h : plainType w = some type) :
    type ≠ .tkSpace ∧ type ≠ .tkIllegal := by
  cases w with
  | nil => exact absurd h (by simp [plainType])
  | cons c w =>
      rw [plainType] at h
      split_ifs at h with hid hdigit hall hdollar
      · cases h
        decide
      · rw [← Option.some.inj h]
        exact wordType_ne _
      · unfold singleType at h
        cases hclass : aiClass c <;> simp only [hclass] at h <;> cases h <;> decide

/-! ## Characters -/

/-- A property of all ASCII characters. -/
private theorem of_ascii {p : Char → Bool}
    (h : ((List.range 128).all fun i => p (Char.ofNat i)) = true) {c : Char}
    (hc : c.toNat < 128) : p c = true := by
  have := List.all_eq_true.mp h c.toNat (List.mem_range.mpr hc)
  rwa [Char.ofNat_toNat] at this

/-- Outside of ASCII, a character is one of identifiers, and has no case. -/
private theorem not_ascii {c : Char} (hc : ¬ c.toNat < 128) :
    aiClass c = .id ∧ isIdChar c = true ∧ isSqlSpace c = false ∧ c.toLower = c ∧
      c.isDigit = false := by
  refine ⟨?_, ?_, ?_, ?_, ?_⟩
  · by_contra h
    exact hc (toNat_lt_of_aiClass h)
  · simp only [isIdChar, Bool.or_eq_true, decide_eq_true_eq]
    exact .inr (by omega)
  · by_contra h
    rw [Bool.not_eq_false] at h
    have hmem : c ∈ [' ', '\t', '\n', '\x0c', '\r'] := List.elem_iff.mp h
    have hall : ([' ', '\t', '\n', '\x0c', '\r'].all fun c => decide (c.toNat < 128)) = true := by
      decide
    exact hc (by simpa using List.all_eq_true.mp hall c hmem)
  · apply Char.toNat_inj.mp
    rw [toNat_toLower, upperToLower, if_neg (by omega)]
  · by_contra h
    rw [Bool.not_eq_false] at h
    simp only [Char.isDigit, Bool.and_eq_true, decide_eq_true_eq, UInt32.le_iff_toNat_le] at h
    have h57 : c.toNat ≤ 57 := h.2
    omega

/-- The classes of the characters of identifiers. -/
theorem aiClass_of_isIdChar {c : Char} (hid : isIdChar c = true) (hdigit : c.isDigit = false)
    (hdollar : c ≠ '$') : aiClass c = .kywd ∨ aiClass c = .x ∨ aiClass c = .id := by
  by_cases hc : c.toNat < 128
  · have := of_ascii (p := fun c => !isIdChar c || c.isDigit || decide (c = '$') ||
      decide (aiClass c = .kywd ∨ aiClass c = .x ∨ aiClass c = .id)) (by decide +kernel) hc
    simpa [hid, hdigit, hdollar] using this
  · exact .inr (.inr (not_ascii hc).1)

/-- A digit is of the class of digits, and belongs to identifiers. -/
theorem aiClass_of_isDigit {c : Char} (hdigit : c.isDigit = true) :
    aiClass c = .digit ∧ isIdChar c = true := by
  by_cases hc : c.toNat < 128
  · have := of_ascii (p := fun c => !c.isDigit || decide (aiClass c = .digit) && isIdChar c)
      (by decide +kernel) hc
    simpa [hdigit] using this
  · rw [(not_ascii hc).2.2.2.2] at hdigit
    exact absurd hdigit (by decide)

/-- A space is of the class of spaces. -/
theorem aiClass_of_isSqlSpace {c : Char} (hspace : isSqlSpace c = true) :
    aiClass c = .space ∧ sqlite3Isspace c = true ∧ isIdChar c = false := by
  by_cases hc : c.toNat < 128
  · have := of_ascii (p := fun c => !isSqlSpace c || decide (aiClass c = .space) &&
      (sqlite3Isspace c && !isIdChar c)) (by decide +kernel) hc
    simpa [hspace] using this
  · rw [(not_ascii hc).2.2.1] at hspace
    exact absurd hspace (by decide)

/-- No token of a plain statement begins with a character that the tokenizer skips. -/
theorem not_token_of_isspace {c : Char} (hspace : sqlite3Isspace c = true) :
    isIdChar c = false ∧ singleType c = none := by
  have hc : c.toNat < 128 := by
    simp only [sqlite3Isspace, Bool.or_eq_true, Bool.and_eq_true, decide_eq_true_eq] at hspace
    rcases hspace with rfl | hrange
    · decide
    · omega
  have := of_ascii (p := fun c => !sqlite3Isspace c || !isIdChar c && (singleType c).isNone)
    (by decide +kernel) hc
  simpa [hspace] using this

/-- The characters of keywords belong to identifiers. -/
theorem isIdChar_of_isKywdClass {c : Char} (hkywd : isKywdClass c = true) :
    isIdChar c = true := by
  by_cases hc : c.toNat < 128
  · have := of_ascii (p := fun c => !isKywdClass c || isIdChar c) (by decide +kernel) hc
    simpa [hkywd] using this
  · exact (not_ascii hc).2.1

/-- What may follow a plain token without being a part of it. -/
theorem follows_plain {c : Char} (hid : isIdChar c = false)
    (hplain : isSqlSpace c = true ∨ (singleType c).isSome = true) : c ≠ '\'' ∧ c ≠ '.' := by
  constructor
  · rintro rfl
    exact absurd hplain (by decide)
  · rintro rfl
    exact absurd hplain (by decide)

/-- The case of a character changes nothing of what the tokenizer looks at. -/
theorem toLower_classes (c : Char) :
    aiClass c.toLower = aiClass c ∧ isIdChar c.toLower = isIdChar c ∧
      c.toLower.isDigit = c.isDigit ∧ (c.toLower = '$' ↔ c = '$') ∧
      c.toLower.toLower = c.toLower := by
  by_cases hc : c.toNat < 128
  · have := of_ascii (p := fun c => decide (aiClass c.toLower = aiClass c ∧
      isIdChar c.toLower = isIdChar c ∧ c.toLower.isDigit = c.isDigit ∧
      (c.toLower = '$' ↔ c = '$') ∧ c.toLower.toLower = c.toLower)) (by decide +kernel) hc
    simpa using this
  · have hlower := (not_ascii hc).2.2.2.1
    simp [hlower]

/-! ## Words that are no keywords -/

theorem lower_lower (w : Text) : lower (lower w) = lower w := by
  rw [lower, lower, List.map_map]
  exact List.map_congr_left fun c _ => (toLower_classes c).2.2.2.2

/-- A word that is no keyword is an identifier. -/
theorem wordType_eq_tkId {w : Text} (hw : lower w ∉ keywords) : wordType w = .tkId := by
  rw [wordType, lookup_keywordCodes_eq_none hw]
  rfl

private theorem keywords_chars : (keywords.all fun w => w.all isKywdClass &&
    w.head?.all fun c => decide (aiClass c ≠ .x)) = true := by decide +kernel

/-- A word with another character is no keyword. -/
theorem not_keyword_of_char {w : Text} {c : Char} (hc : c ∈ w) (hkywd : isKywdClass c = false) :
    lower w ∉ keywords := by
  intro hmem
  have hall := List.all_eq_true.mp keywords_chars _ hmem
  rw [Bool.and_eq_true, List.all_eq_true] at hall
  have hlower := hall.1 c.toLower (List.mem_map_of_mem hc)
  rw [isKywdClass, (toLower_classes c).1] at hlower
  rw [isKywdClass, hlower] at hkywd
  exact absurd hkywd (by decide)

/-- A word that begins with `x` is no keyword. -/
theorem not_keyword_of_x {c : Char} {w : Text} (hclass : aiClass c = .x) :
    lower (c :: w) ∉ keywords := by
  intro hmem
  have hall := List.all_eq_true.mp keywords_chars _ hmem
  rw [Bool.and_eq_true] at hall
  have hhead := hall.2
  simp [lower, (toLower_classes c).1, hclass] at hhead

/-! ## The first token of a plain statement -/

/-- A run of characters in front of the memory. -/
private theorem skip_append {p : Char → Bool} (hp : p '\x00' = false) {u v : Text}
    (hu : ∀ d ∈ u, p d = true) (hv : ∀ d r, v = d :: r → p d = false) (rest : Text) :
    skip p (memory (u ++ v) rest) = some u.length := by
  rw [skip_memory hp, List.takeWhile_append_of_pos hu]
  have hnone : v.takeWhile p = [] := by
    cases v with
    | nil => rfl
    | cons d r => rw [List.takeWhile_cons_of_neg (by simp [hv d r rfl])]
  rw [hnone, List.append_nil]

theorem idToken_eq (c : Char) {u v : Text} (hu : ∀ d ∈ u, isIdChar d = true)
    (hv : ∀ d r, v = d :: r → isIdChar d = false) (rest : Text) :
    idToken (memory (c :: (u ++ v)) rest) 1 = some (1 + u.length, .tkId) := by
  have hskip := skip_append (p := isIdChar) (by decide) hu hv rest
  rw [idToken, memory_cons, List.drop_succ_cons, List.drop_zero, hskip]
  rfl

/-- A word of letters, which may go on with other characters of identifiers. -/
theorem wordToken_eq (c : Char) {u v : Text} (hu : ∀ d ∈ u, isIdChar d = true)
    (hv : ∀ d r, v = d :: r → isIdChar d = false) (rest : Text) (hc : isKywdClass c = true) :
    wordToken (memory (c :: (u ++ v)) rest) = some (1 + u.length, wordType (c :: u)) := by
  have hid : isIdChar c = true := isIdChar_of_isKywdClass hc
  obtain ⟨a, b, hab, ha, hb⟩ : ∃ a b, u = a ++ b ∧ (∀ d ∈ a, isKywdClass d = true) ∧
      ∀ d r, b = d :: r → isKywdClass d = false := by
    refine ⟨u.takeWhile isKywdClass, u.dropWhile isKywdClass, List.takeWhile_append_dropWhile.symm,
      fun d hd => List.mem_takeWhile_imp hd, fun d r hdrop => ?_⟩
    have := List.head?_dropWhile_not isKywdClass u
    rw [hdrop] at this
    simpa using this
  subst hab
  have hskip : skip isKywdClass ((memory (c :: (a ++ b ++ v)) rest).drop 1) = some a.length := by
    rw [memory_cons, List.drop_succ_cons, List.drop_zero, List.append_assoc]
    apply skip_append (by decide) ha
    intro d r hbv
    cases b with
    | nil =>
        by_contra hkywd
        rw [Bool.not_eq_false] at hkywd
        have := hv d r hbv
        rw [isIdChar_of_isKywdClass hkywd] at this
        exact absurd this (by decide)
    | cons d' b =>
        obtain ⟨rfl, -⟩ := List.cons.inj hbv
        exact hb d' b rfl
  have hnext : (memory (c :: (a ++ b ++ v)) rest)[1 + a.length]? =
      some ((b ++ v).getD 0 '\x00') := by
    rw [getElem?_memory (by simp; omega), List.append_assoc, Nat.add_comm, List.getD_cons_succ,
      List.getD_eq_getElem?_getD, List.getElem?_append_right (Nat.le_refl _), Nat.sub_self,
      ← List.getD_eq_getElem?_getD]
  cases b with
  | nil =>
      -- the word ends with the letters
      rw [List.append_nil] at hskip hnext ⊢
      have hend : isIdChar (([] ++ v).getD 0 '\x00') = false := by
        cases v with
        | nil => decide
        | cons d r => exact hv d r rfl
      have htake : (memory (c :: (a ++ v)) rest).take (1 + a.length) = c :: a := by
        rw [take_memory (by simp; omega), Nat.add_comm, List.take_succ_cons, List.take_left]
      have hcode : sqlite3KeywordCode (c :: a) = wordType (c :: a) :=
        sqlite3KeywordCode_eq_lookup (List.forall_mem_cons.mpr
          ⟨hid, fun d hd => hu d (List.mem_append_left _ hd)⟩)
      simp only [wordToken, hskip, hnext, Option.bind_eq_bind, Option.bind_some, hend,
        Bool.false_eq_true, if_false, htake, hcode]
      rfl
  | cons d b =>
      -- the word goes on with a character of no keyword
      have hd : isIdChar d = true := hu d (by simp)
      have hb' : skip isIdChar ((memory (c :: (a ++ d :: b ++ v)) rest).drop (1 + a.length + 1)) =
          some b.length := by
        have hsplit : (c :: (a ++ d :: b ++ v)).drop (1 + a.length + 1) = b ++ v := by
          rw [Nat.add_comm 1, List.drop_succ_cons, List.append_assoc, List.cons_append,
            List.drop_append]
          simp
        rw [drop_memory (by simp; omega), hsplit]
        exact skip_append (by decide) (fun e he => hu e (by simp [he])) hv rest
      have hid' : isIdChar ((d :: b ++ v).getD 0 '\x00') = true := hd
      have htype : wordType (c :: (a ++ d :: b)) = .tkId :=
        wordType_eq_tkId (not_keyword_of_char (by simp : d ∈ c :: (a ++ d :: b)) (hb d b rfl))
      simp only [wordToken, idToken, hskip, hnext, Option.bind_eq_bind, Option.bind_some, hid',
        if_true, hb', htype, List.length_append, List.length_cons]
      exact congrArg some (congrArg (·, TokenType.tkId) (by omega))

/-- A number that has digits only. -/
theorem numberToken_eq {c : Char} {u v : Text} (hc : c.isDigit = true)
    (hu : ∀ d ∈ u, d.isDigit = true)
    (hv : ∀ d r, v = d :: r → isIdChar d = false ∧ d ≠ '.') (rest : Text) :
    numberToken (memory (c :: (u ++ v)) rest) = some (1 + u.length, .tkInteger) := by
  -- the character behind the digits, which may be the NUL
  have hnext : isIdChar (v.getD 0 '\x00') = false ∧ v.getD 0 '\x00' ≠ '.' := by
    cases v with
    | nil => decide
    | cons d r => exact hv d r rfl
  have hnone : ∀ d, isIdChar d = true → v.getD 0 '\x00' ≠ d := by
    rintro d hd rfl
    rw [hnext.1] at hd
    exact absurd hd (by decide)
  have hhex : isHexNumber (memory (c :: (u ++ v)) rest) = some false := by
    have hsecond : ∃ d r, memory (u ++ v) rest = d :: r ∧ d ≠ 'x' ∧ d ≠ 'X' := by
      cases u with
      | nil =>
          refine ⟨v.getD 0 '\x00', (memory v rest).tail, ?_, hnone 'x' (by decide),
            hnone 'X' (by decide)⟩
          cases v <;> rfl
      | cons d u =>
          have hd := hu d List.mem_cons_self
          refine ⟨d, memory (u ++ v) rest, rfl, ?_, ?_⟩
          · rintro rfl
            exact absurd hd (by decide)
          · rintro rfl
            exact absurd hd (by decide)
    obtain ⟨d, r, hr, hx, hX⟩ := hsecond
    by_cases hzero : c = '0'
    · simp [isHexNumber, hzero, hr, hx, hX]
    · simp [isHexNumber, hzero]
  have hskip : skip sqlite3Isdigit (memory (c :: (u ++ v)) rest) = some (1 + u.length) := by
    rw [← List.cons_append, skip_append (p := sqlite3Isdigit) (by decide)
      (List.forall_mem_cons.mpr ⟨hc, hu⟩), List.length_cons, Nat.add_comm]
    intro d r hd
    by_contra hdigit
    have := (hv d r hd).1
    rw [(aiClass_of_isDigit (by simpa [sqlite3Isdigit] using hdigit)).2] at this
    exact absurd this (by decide)
  have hget : (memory (c :: (u ++ v)) rest)[1 + u.length]? = some (v.getD 0 '\x00') := by
    rw [getElem?_memory (by simp; omega), Nat.add_comm, List.getD_cons_succ,
      List.getD_eq_getElem?_getD, List.getElem?_append_right (Nat.le_refl _), Nat.sub_self,
      ← List.getD_eq_getElem?_getD]
  have hdrop : (memory (c :: (u ++ v)) rest).drop (1 + u.length) = memory v rest := by
    rw [drop_memory (by simp; omega), Nat.add_comm, List.drop_succ_cons, List.drop_left]
  have hexponent : isExponent (memory v rest) = some false := by
    have he := hnone 'e' (by decide)
    have hE := hnone 'E' (by decide)
    cases v with
    | nil => rfl
    | cons d r => exact if_pos ⟨he, hE⟩
  have hid : skip isIdChar (memory v rest) = some 0 :=
    skip_append (u := []) (by decide) (by simp) (fun d r hd => (hv d r hd).1) rest
  simp only [numberToken, skipFraction, skipExponent, hhex, hskip, hget, hdrop, hexponent, hid,
    Option.bind_eq_bind, Option.bind_some, Option.pure_def, Bool.false_eq_true, if_false,
    if_neg hnext.2]
  rfl

/-- The first token of a plain statement: a maximal run of characters of identifiers, with
the type that it has by itself. -/
theorem firstToken_word {c : Char} {u v : Text} {type : TokenType} (hid : isIdChar c = true)
    (hu : ∀ d ∈ u, isIdChar d = true)
    (hv : ∀ d r, v = d :: r → isIdChar d = false ∧ d ≠ '\'' ∧ d ≠ '.')
    (htype : plainType (c :: u) = some type) :
    firstToken (c :: (u ++ v)) = (1 + u.length, type) := by
  have hv' : ∀ d r, v = d :: r → isIdChar d = false := fun d r h => (hv d r h).1
  rw [plainType, if_pos hid] at htype
  have hget : (memory (c :: (u ++ v)) [])[0]? = some c := rfl
  by_cases hdigit : c.isDigit = true
  · -- a number
    rw [if_pos hdigit] at htype
    by_cases hall : u.all Char.isDigit = true
    · rw [if_pos hall] at htype
      obtain rfl := Option.some.inj htype
      have hnumber := numberToken_eq hdigit (List.all_eq_true.mp hall)
        (fun d r h => ⟨(hv d r h).1, (hv d r h).2.2⟩) []
      simp only [firstToken, sqlite3GetToken, hget, Option.bind_eq_bind, Option.bind_some,
        (aiClass_of_isDigit hdigit).1, hnumber]
      rfl
    · rw [if_neg hall] at htype
      exact absurd htype (by simp)
  · -- a word
    rw [if_neg hdigit] at htype
    by_cases hdollar : c = '$'
    · rw [if_pos hdollar] at htype
      exact absurd htype (by simp)
    rw [if_neg hdollar] at htype
    obtain rfl := Option.some.inj htype
    have hrest := idToken_eq c hu hv' []
    rcases aiClass_of_isIdChar hid (by simpa using hdigit) hdollar with hclass | hclass | hclass
    · have hword := wordToken_eq c hu hv' [] (by simp [isKywdClass, hclass])
      simp only [firstToken, sqlite3GetToken, hget, Option.bind_eq_bind, Option.bind_some, hclass,
        hword]
      rfl
    · have hnext : (memory (c :: (u ++ v)) [])[1]? = some ((u ++ v).getD 0 '\x00') :=
        getElem?_memory (Nat.zero_le _) []
      have hquote : (u ++ v).getD 0 '\x00' ≠ '\'' := by
        cases u with
        | nil =>
            cases v with
            | nil => decide
            | cons d r => exact (hv d r rfl).2.1
        | cons d u =>
            rintro rfl
            exact absurd (hu '\'' (by simp)) (by decide)
      have htype : wordType (c :: u) = .tkId := wordType_eq_tkId (not_keyword_of_x hclass)
      simp only [firstToken, sqlite3GetToken, hget, hnext, Option.bind_eq_bind, Option.bind_some,
        hclass, if_neg hquote, hrest, htype]
      rfl
    · have htype : wordType (c :: u) = .tkId :=
        wordType_eq_tkId (not_keyword_of_char (List.mem_cons_self) (by simp [isKywdClass, hclass]))
      simp only [firstToken, sqlite3GetToken, hget, Option.bind_eq_bind, Option.bind_some, hclass,
        hrest, htype]
      rfl

theorem firstToken_single {c : Char} {type : TokenType} (htype : singleType c = some type)
    (v : Text) : firstToken (c :: v) = (1, type) := by
  have hget : (memory (c :: v) [])[0]? = some c := rfl
  simp only [firstToken, sqlite3GetToken, hget, Option.bind_eq_bind, Option.bind_some]
  cases hclass : aiClass c <;> simp only [singleType, hclass] at htype <;> cases htype <;> rfl

theorem firstToken_space {c : Char} (hspace : isSqlSpace c = true) (v : Text) :
    firstToken (c :: v) = (1 + (v.takeWhile sqlite3Isspace).length, .tkSpace) := by
  have hget : (memory (c :: v) [])[0]? = some c := rfl
  have hskip : skip sqlite3Isspace ((memory (c :: v) []).drop 1) =
      some (v.takeWhile sqlite3Isspace).length := skip_memory (by decide) v []
  simp only [firstToken, sqlite3GetToken, hget, Option.bind_eq_bind, Option.bind_some,
    (aiClass_of_isSqlSpace hspace).1, hskip]
  rfl

/-! ## The tokens of a plain statement -/

theorem sqlTokens_space {c : Char} (hspace : isSqlSpace c = true) (z : Text) :
    sqlTokens (c :: z) = sqlTokens z :=
  Lexer.tokens_cons_sep hspace z

/-- The first token, with what follows it. -/
theorem sqlTokens_cons {c : Char} (hspace : isSqlSpace c = false) (z : Text) :
    ∃ u v, z = u ++ v ∧ sqlTokens (c :: z) = (c :: u) :: sqlTokens v ∧
      (isIdChar c = true → (∀ d ∈ u, isIdChar d = true) ∧
        ∀ d r, v = d :: r → isIdChar d = false) ∧
      (isIdChar c = false → u = []) := by
  by_cases hid : isIdChar c = true
  · have hsplit : z = z.takeWhile isIdChar ++ z.dropWhile isIdChar :=
      List.takeWhile_append_dropWhile.symm
    have hu : ∀ d ∈ z.takeWhile isIdChar, isIdChar d = true := fun d hd =>
      List.mem_takeWhile_imp hd
    have hv : ∀ d r, z.dropWhile isIdChar = d :: r → isIdChar d = false := by
      intro d r hdrop
      have := List.head?_dropWhile_not isIdChar z
      rw [hdrop] at this
      simpa using this
    have hword : ∀ d ∈ c :: z.takeWhile isIdChar, isSqlSpace d = false ∧ isIdChar d = true := by
      intro d hd
      have hd' : isIdChar d = true :=
        (List.forall_mem_cons (p := fun d => isIdChar d = true)).mpr ⟨hid, hu⟩ d hd
      refine ⟨?_, hd'⟩
      by_contra hblank
      rw [(aiClass_of_isSqlSpace (by simpa using hblank)).2.2] at hd'
      exact absurd hd' (by decide)
    refine ⟨z.takeWhile isIdChar, z.dropWhile isIdChar, hsplit, ?_, fun _ => ⟨hu, hv⟩,
      fun h => absurd hid (by simp [h])⟩
    have htokens := Lexer.tokens_append_word (List.cons_ne_nil c _) hword hv
    rwa [List.cons_append, ← hsplit] at htokens
  · have hid : isIdChar c = false := by simpa using hid
    exact ⟨[], z, rfl, Lexer.tokens_cons_single hspace hid z, fun h => absurd h (by simp [hid]),
      fun _ => rfl⟩

/-- The first character of a plain statement, if it is not of an identifier. -/
theorem PlainStatement.head {c : Char} {z : Text} (hz : PlainStatement (c :: z))
    (hid : isIdChar c = false) : isSqlSpace c = true ∨ (singleType c).isSome = true := by
  by_cases hspace : isSqlSpace c = true
  · exact .inl hspace
  · right
    obtain ⟨u, v, -, htokens, -, -⟩ := sqlTokens_cons (by simpa using hspace) z
    have hplain := hz (c :: u) (by rw [htokens]; exact List.mem_cons_self)
    simpa [plainType, hid] using hplain

/-- A space in front belongs to no token. -/
theorem tokensOf_pieces_space {c : Char} (hspace : isSqlSpace c = true) {z : Text}
    (hz : PlainStatement z) : tokensOf (pieces (c :: z)) = tokensOf (pieces z) := by
  have hfirst := firstToken_space hspace z
  rw [pieces_of_ne_nil (List.cons_ne_nil c z), hfirst]
  cases z with
  | nil =>
      rw [tokensOf_cons_space rfl]
      rfl
  | cons d z =>
      by_cases hd : sqlite3Isspace d = true
      · -- the two spaces are in one piece
        have hd' : isSqlSpace d = true := by
          obtain ⟨hid, hnone⟩ := not_token_of_isspace hd
          refine (hz.head hid).resolve_right ?_
          rw [hnone]
          exact Bool.false_ne_true
        rw [pieces_of_ne_nil (List.cons_ne_nil d z), firstToken_space hd' z,
          List.takeWhile_cons_of_pos hd, tokensOf_cons_space rfl, tokensOf_cons_space rfl,
          List.length_cons, ← Nat.add_assoc, List.drop_succ_cons]
      · rw [List.takeWhile_cons_of_neg hd, tokensOf_cons_space rfl]
        rfl

/-- A plain statement is empty, or begins with a space, or begins with a plain token. -/
theorem PlainStatement.induction {motive : Text → Prop} (nil : motive [])
    (space : ∀ c z, isSqlSpace c = true → PlainStatement z → motive z → motive (c :: z))
    (token : ∀ c u v type, plainType (c :: u) = some type →
      sqlTokens (c :: (u ++ v)) = (c :: u) :: sqlTokens v →
      (isIdChar c = true → (∀ d ∈ u, isIdChar d = true) ∧
        ∀ d r, v = d :: r → isIdChar d = false) →
      (isIdChar c = false → u = []) → PlainStatement v → motive v → motive (c :: (u ++ v)))
    {z : Text} (hz : PlainStatement z) : motive z := by
  induction hlen : z.length using Nat.strong_induction_on generalizing z with
  | _ len ih =>
    cases z with
    | nil => exact nil
    | cons c z =>
        by_cases hspace : isSqlSpace c = true
        · have hz' : PlainStatement z := by
            rw [PlainStatement, sqlTokens_space hspace] at hz
            exact hz
          exact space c z hspace hz' (ih z.length (by simp [← hlen]) hz' rfl)
        · obtain ⟨u, v, rfl, htokens, hword, hsingle⟩ :=
            sqlTokens_cons (by simpa using hspace) z
          have hv : PlainStatement v := by
            intro w hw
            apply hz
            rw [htokens]
            exact List.mem_cons_of_mem _ hw
          obtain ⟨type, htype⟩ := Option.isSome_iff_exists.mp
            (hz (c :: u) (by rw [htokens]; exact List.mem_cons_self))
          exact token c u v type htype htokens hword hsingle hv
            (ih v.length (by simp at hlen; omega) hv rfl)

/-- **Two tokenizers agree**: on a plain statement, SQLite's tokenizer finds the tokens of
`sqlTokens`, with the types that they have by themselves. -/
theorem tokensOf_pieces {z : Text} (hz : PlainStatement z) :
    (tokensOf (pieces z)).map (fun x => (x.text, some x.type)) =
      (sqlTokens z).map fun w => (w, plainType w) := by
  refine PlainStatement.induction (motive := fun z =>
    (tokensOf (pieces z)).map (fun x => (x.text, some x.type)) =
      (sqlTokens z).map fun w => (w, plainType w)) ?_ ?_ ?_ hz
  · simp [pieces_nil, tokensOf, sqlTokens]
  · intro c z hspace hz ih
    rw [tokensOf_pieces_space hspace hz, sqlTokens_space hspace]
    exact ih
  · intro c u v type htype htokens hword hsingle hv ih
    have hfirst : firstToken (c :: (u ++ v)) = (1 + u.length, type) := by
      by_cases hid : isIdChar c = true
      · refine firstToken_word hid (hword hid).1 (fun d r hd => ?_) htype
        subst hd
        have hd := (hword hid).2 d r rfl
        exact ⟨hd, follows_plain hd (hv.head hd)⟩
      · have hid : isIdChar c = false := by simpa using hid
        obtain rfl := hsingle hid
        rw [plainType, hid] at htype
        exact firstToken_single htype v
    have htake : (c :: (u ++ v)).take (1 + u.length) = c :: u := by
      rw [Nat.add_comm, List.take_succ_cons, List.take_left]
    have hdrop : (c :: (u ++ v)).drop (1 + u.length) = v := by
      rw [Nat.add_comm, List.drop_succ_cons, List.drop_left]
    rw [pieces_of_ne_nil (List.cons_ne_nil c _), hfirst, htokens,
      tokensOf_cons_token (plainType_ne htype).1, List.map_cons, List.map_cons, htake, hdrop, ih,
      htype]

/-- There is no NUL in a plain statement. -/
theorem PlainStatement.not_nul {z : Text} (hz : PlainStatement z) : '\x00' ∉ z := by
  have hnul : isIdChar '\x00' = false := by decide
  refine PlainStatement.induction (motive := fun z => '\x00' ∉ z) (by simp) ?_ ?_ hz
  · intro c z hspace _ ih
    rw [List.mem_cons, not_or]
    refine ⟨?_, ih⟩
    rintro rfl
    exact absurd hspace (by decide)
  · intro c u v type htype _ hword hsingle _ ih
    rw [List.mem_cons, List.mem_append, not_or, not_or]
    refine ⟨?_, ?_, ih⟩
    · rintro rfl
      have hsingle : singleType '\x00' = none := by decide
      rw [plainType, hnul, if_neg Bool.false_ne_true, hsingle] at htype
      exact absurd htype (by simp)
    · intro hmem
      by_cases hid : isIdChar c = true
      · exact absurd ((hword hid).1 _ hmem) (by simp [hnul])
      · rw [hsingle (by simpa using hid)] at hmem
        exact absurd hmem (by simp)

/-! ## CREATE statements -/

theorem plainType_lower (w : Text) : plainType (lower w) = plainType w := by
  cases w with
  | nil => rfl
  | cons c w =>
      obtain ⟨hclass, hid, hdigit, hdollar, -⟩ := toLower_classes c
      have hall : (lower w).all Char.isDigit = w.all Char.isDigit := by
        rw [lower, List.all_map]
        exact congrArg (w.all ·) (funext fun d => (toLower_classes d).2.2.1)
      have hword : wordType (lower (c :: w)) = wordType (c :: w) := by
        rw [wordType, wordType, lower_lower]
      have hsingle : singleType c.toLower = singleType c := by
        rw [singleType, singleType, hclass]
      have hcons : lower (c :: w) = c.toLower :: lower w := rfl
      rw [plainType, hcons, plainType, hid, hdigit, hall, hsingle, ← hcons, hword]
      simp only [hdollar]

/-- The keyword of a kind of objects. -/
def kindWord : ObjectKind → Text
  | .table => "table".toList
  | .trigger => "trigger".toList

/-- What stands behind the name in a CREATE statement. -/
def createBody : ObjectKind → List Text
  | .table => tableBody
  | .trigger => triggerBody

/-- The texts of the tokens of a CREATE statement, in lower case. -/
def createTokens (c : Create) : List Text :=
  "create".toList :: kindWord c.kind :: lower c.name :: createBody c.kind

/-- The types of the tokens of a CREATE statement. -/
def createTypes : ObjectKind → List TokenType
  | .table => [.tkCreate, .tkTable, .tkId, .tkLp, .tkId, .tkId, .tkComma, .tkId, .tkId, .tkRp]
  | .trigger =>
      [.tkCreate, .tkTrigger, .tkId, .tkAfter, .tkInsert, .tkOn, .tkId, .tkBegin, .tkInsert,
       .tkInto, .tkId, .tkValues, .tkLp, .tkInteger, .tkComma, .tkInteger, .tkRp, .tkSemi,
       .tkEnd, .tkSemi]

/-- The codes that the parser gets for a CREATE statement. -/
def createCodes (kind : ObjectKind) : List ParserCode :=
  (createTypes kind).map .token ++
    match kind with
    | .table => [.token .tkSemi, .endOfInput]
    | .trigger => [.endOfInput]

/-- An identifier is no keyword. -/
theorem plainType_isIdentifier {w : Text} (hw : isIdentifier w = true) :
    plainType w = some .tkId := by
  obtain ⟨hne, hchars⟩ := mem_isIdentifier hw
  simp only [isIdentifier, Bool.and_eq_true] at hw
  obtain ⟨⟨⟨-, hhead⟩, hkeyword⟩, -⟩ := hw
  obtain ⟨c, w, rfl⟩ := List.exists_cons_of_ne_nil hne
  have hdigit : c.isDigit = false ∧ c ≠ '$' := by
    simp only [List.head?_cons, Option.any_some, Bool.or_eq_true, decide_eq_true_eq] at hhead
    by_cases hc : c.toNat < 128
    · have := of_ascii (p := fun c => !(c.isAlpha || decide (c = '_')) ||
        !c.isDigit && decide (c ≠ '$')) (by decide +kernel) hc
      rcases Bool.or_eq_true_iff.mp this with hnone | hc
      · simp at hnone
        exact absurd hhead (by simp [hnone])
      · simpa using hc
    · refine ⟨(not_ascii hc).2.2.2.2, ?_⟩
      rintro rfl
      exact hc (by decide)
  have hword : wordType (c :: w) = .tkId := by
    apply wordType_eq_tkId
    simpa using hkeyword
  rw [plainType, if_pos (hchars c List.mem_cons_self).2, if_neg (by simp [hdigit.1]),
    if_neg hdigit.2, hword]

/-- The types of everything but the name are fixed. -/
private theorem map_plainType_fixed : ∀ kind,
    ["create".toList, kindWord kind].map plainType = ((createTypes kind).take 2).map some ∧
      (createTypes kind)[2]? = some .tkId ∧
      (createBody kind).map plainType = ((createTypes kind).drop 3).map some
  | .table => by decide +kernel
  | .trigger => by decide +kernel

theorem map_plainType_createTokens {c : Create} (hname : isIdentifier c.name = true) :
    (createTokens c).map plainType = (createTypes c.kind).map some := by
  obtain ⟨hfront, hthird, hbody⟩ := map_plainType_fixed c.kind
  have hid : plainType (lower c.name) = some .tkId := by
    rw [plainType_lower]
    exact plainType_isIdentifier hname
  have hsplit : createTypes c.kind =
      (createTypes c.kind).take 2 ++ .tkId :: (createTypes c.kind).drop 3 := by
    cases c.kind <;> rfl
  have htokens : createTokens c =
      ["create".toList, kindWord c.kind] ++ lower c.name :: createBody c.kind := rfl
  rw [htokens, List.map_append, hfront, List.map_cons, hid, hbody, hsplit]
  cases c.kind <;> rfl

/-- The tokens of a recognized statement. -/
theorem sqlTokens_of_parseCreate {sql : Text} {c : Create} (h : parseCreate sql = some c) :
    isIdentifier c.name = true ∧ (sqlTokens sql).map lower = createTokens c ∧
      (sqlTokens sql)[2]? = some c.name := by
  unfold parseCreate at h
  split at h
  next create kind name body htokens =>
    have hmap : (sqlTokens sql).map lower =
        lower create :: lower kind :: lower name :: body.map lower := by
      rw [htokens]
      rfl
    have hthird : (sqlTokens sql)[2]? = some name := by
      rw [htokens]
      rfl
    by_cases hcreate : lower create = "create".toList ∧ isIdentifier name = true
    · rw [if_pos hcreate] at h
      by_cases htable : lower kind = "table".toList ∧ body.map lower = tableBody
      · rw [if_pos htable] at h
        obtain rfl := Option.some.inj h
        refine ⟨hcreate.2, ?_, hthird⟩
        rw [hmap, hcreate.1, htable.1, htable.2]
        rfl
      · rw [if_neg htable] at h
        by_cases htrigger : lower kind = "trigger".toList ∧ body.map lower = triggerBody
        · rw [if_pos htrigger] at h
          obtain rfl := Option.some.inj h
          refine ⟨hcreate.2, ?_, hthird⟩
          rw [hmap, hcreate.1, htrigger.1, htrigger.2]
          rfl
        · rw [if_neg htrigger] at h
          cases h
    · rw [if_neg hcreate] at h
      cases h
  next => cases h

/-- A recognized statement is plain. -/
theorem plainStatement_of_parseCreate {sql : Text} {c : Create} (h : parseCreate sql = some c) :
    PlainStatement sql := by
  obtain ⟨hname, htokens, -⟩ := sqlTokens_of_parseCreate h
  intro w hw
  have hmem : plainType (lower w) ∈ (createTokens c).map plainType := by
    rw [← htokens]
    exact List.mem_map_of_mem (List.mem_map_of_mem hw)
  rw [map_plainType_createTokens hname, plainType_lower] at hmem
  obtain ⟨type, -, htype⟩ := List.mem_map.mp hmem
  rw [← htype]
  rfl

/-- The tokens that the tokenizer finds in a recognized statement. -/
theorem tokensOf_pieces_create {sql : Text} {c : Create} (h : parseCreate sql = some c) :
    (tokensOf (pieces sql)).map Piece.text = sqlTokens sql ∧
      (tokensOf (pieces sql)).map Piece.type = createTypes c.kind := by
  obtain ⟨hname, htokens, -⟩ := sqlTokens_of_parseCreate h
  have hpieces := tokensOf_pieces (plainStatement_of_parseCreate h)
  constructor
  · have := congrArg (List.map Prod.fst) hpieces
    rwa [List.map_map, List.map_map, Function.comp_def, Function.comp_def, List.map_id'] at this
  · have htypes := congrArg (List.map Prod.snd) hpieces
    rw [List.map_map, List.map_map] at htypes
    have hlower : (sqlTokens sql).map plainType = (createTypes c.kind).map some := by
      rw [← map_plainType_createTokens hname, ← htokens, List.map_map]
      exact List.map_congr_left fun w _ => (plainType_lower w).symm
    apply List.map_injective_iff.mpr (Option.some_injective _)
    rw [List.map_map, ← hlower]
    exact htypes

/-- The codes that the parser gets for a recognized statement. -/
theorem map_fst_feeds_create {sql : Text} {c : Create} (h : parseCreate sql = some c) :
    (feeds (pieces sql) ++ endFeeds (pieces sql)).map Prod.fst = createCodes c.kind := by
  obtain ⟨-, htypes⟩ := tokensOf_pieces_create h
  have hfeeds : (feeds (pieces sql)).map Prod.fst = (createTypes c.kind).map .token := by
    rw [feeds, List.map_map, ← htypes, List.map_map]
    rfl
  have hlast : lastCode (pieces sql) = (createTypes c.kind).getLast?.map .token := by
    rw [lastCode, ← htypes, List.getLast?_map, Option.map_map]
    rfl
  rw [List.map_append, hfeeds, endFeeds, hlast]
  cases c.kind <;> rfl

/-- **A recognized statement is a CREATE statement to the parser**: on a connection that is
not interrupted, and when the statement is not longer than the limit, the parser gets the
tokens of the statement, with the name as it is written, in order, until it stops the loop,
whatever it does with them. -/
theorem sqlite3RunParser_create {P : Type*} {api : ParserApi P} {sql : Text} {c : Create}
    (h : parseCreate sql = some c) (hquiet : ∀ p, api.interrupted p = false) (rest : Text)
    {limit fuel : ℕ} (hlimit : sql.length ≤ limit) (hint : limit < 2 ^ 31)
    (hfuel : sql.length + 3 ≤ fuel) (p : P) :
    ∃ r script, sqlite3RunParser api (memory sql rest) limit fuel p = some r ∧
      script.map Prod.fst = createCodes c.kind ∧
      ((script.map Prod.snd).take (createTokens c).length).map lower = createTokens c ∧
      (script.map Prod.snd)[2]? = some c.name ∧
      r.parser = feedUntil api p script ∧ (r.reason = .stopped ∨ r.reason = .complete) := by
  obtain ⟨-, htokens, hthird⟩ := sqlTokens_of_parseCreate h
  obtain ⟨htexts, htypes⟩ := tokensOf_pieces_create h
  have hlength : (createTokens c).length = (sqlTokens sql).length := by
    rw [← htokens, List.length_map]
  have hsnd : (feeds (pieces sql)).map Prod.snd = sqlTokens sql := by
    rw [feeds, List.map_map, ← htexts]
    rfl
  have hlegal : ∀ x ∈ pieces sql, x.type ≠ .tkIllegal := by
    intro x hx hillegal
    have hmem : x.type ∈ createTypes c.kind := by
      rw [← htypes]
      exact List.mem_map_of_mem (List.mem_filter.mpr ⟨hx, by rw [hillegal]; rfl⟩)
    rw [hillegal] at hmem
    cases hkind : c.kind <;> rw [hkind] at hmem <;> exact absurd hmem (by decide)
  have hlen := length_pieces_le sql
  have hnul := (plainStatement_of_parseCreate h).not_nul
  have hstart : Reading api limit p [] _ := reading_start limit p
  have hfuel' : (pieces sql).length + 3 ≤ fuel := by omega
  obtain ⟨r, hrun, hspec⟩ := hstart.loop hnul (by omega) rest hfuel'
  rw [List.nil_append] at hspec
  obtain ⟨hparser, hreason⟩ := hspec.feedUntil (by rwa [cutText_pieces]) hlegal hquiet
  refine ⟨r, feeds (pieces sql) ++ endFeeds (pieces sql), hrun, map_fst_feeds_create h, ?_, ?_,
    hparser, hreason⟩
  · rw [List.map_append, hsnd, List.take_append_of_le_length (by rw [hlength]), hlength,
      List.take_length, htokens]
  · rw [List.map_append, hsnd, List.getElem?_append_left, hthird]
    by_contra hlt
    rw [List.getElem?_eq_none (by omega)] at hthird
    cases hthird

/-- A parser that keeps the codes it gets, on a statement in mixed case. -/
theorem sqlite3RunParser_create_mixed : ∃ r script,
    sqlite3RunParser (⟨fun codes code _ => code :: codes, fun _ => false, fun _ => false⟩ :
        ParserApi (List ParserCode))
      (memory "CREATE Table\t Ab(A INT, b int)".toList []) 100 50 [] = some r ∧
    script.map Prod.fst = createCodes .table ∧
    ((script.map Prod.snd).take (createTokens ⟨.table, "Ab".toList⟩).length).map lower =
      createTokens ⟨.table, "Ab".toList⟩ ∧
    (script.map Prod.snd)[2]? = some "Ab".toList ∧
    r.parser = feedUntil ⟨fun codes code _ => code :: codes, fun _ => false, fun _ => false⟩ []
      script ∧ (r.reason = .stopped ∨ r.reason = .complete) :=
  sqlite3RunParser_create (c := ⟨.table, "Ab".toList⟩) (by decide +kernel) (fun _ => rfl) []
    (by decide) (by decide) (by decide) []

end SmtCacheBenchmarks.Sqlite
