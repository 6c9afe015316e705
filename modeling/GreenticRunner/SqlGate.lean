import GreenticRunner.Lexing

/-! # The gate in front of SQLite

    `check_sqlite_read_only_sql` walks over a query byte by byte and lets it pass when it sees one
    statement that starts with `SELECT`, `WITH` or `VALUES`.  What SQLite will run is decided by SQLite's
    own tokens, and the two have to agree on where a quoted text, a comment and A PARAMETER end.  Its tokens
    are ASSUMED to be these: blanks, the two kinds of comments, texts in the three quotes with the quote
    doubled inside, names in brackets, the parameters `?N`, `:name`, `@name` and `$name` — of which the last
    three may hold `::` and end in a suffix in parentheses without a blank —, words, and `;`.

    * `sqlite true` — these tokens, and `sqlite false`, a reading in which no parameter has a suffix;
    * `check_iff` — the gate accepts what is one query in the second reading;
    * `query_gate_iff` — so it is right about SQLite unless a suffix HIDES the end of the statement, or the
      first word goes on with a letter the gate does not know. -/

namespace Greentic.SqlGate

open Lexing

abbrev Text := List Char

/-! ## The gate -/

/-- `u8::is_ascii_whitespace`. -/
def isAsciiWhitespace (c : Char) : Bool :=
  c == ' ' || c == '\t' || c == '\n' || c == '\x0c' || c == '\r'

def toAsciiLowercase (s : Text) : Text := s.map Char.toLower

def ALLOWED_START : List Text := ["select".toList, "with".toList, "values".toList]

/-- A byte of the first word. -/
def isWordByte (c : Char) : Bool := c.isAlphanum || c == '_'

/-- The variables of the loop, besides the place in the text. -/
structure Scan where
  firstWord : Option Text
  statementEnded : Bool

/-- Behind the end of a comment, from behind its opening. -/
def skipComment : Text → Text
  | [] => []
  | c :: s => if c = '*' ∧ s.head? = some '/' then s.tail else skipComment s

/-- Behind the end of a quoted text, from behind its opening. -/
def skipQuoted (close : Char) : Text → Text
  | [] => []
  | [_] => []
  | c :: d :: s =>
      if c = close then
        -- a doubled quote is an escaped quote
        if close ≠ ']' ∧ d = close then skipQuoted close s else d :: s
      else skipQuoted close (d :: s)

def singleStatement : String := "only a single SQL statement is allowed"

def selectOnly : String := "only SELECT queries are allowed"

/-- One round of the loop, at the text `c :: s`. -/
def scanStep (st : Scan) (c : Char) (s : Text) : Except String (Scan × Text) :=
  if c = '-' ∧ s.head? = some '-' then .ok (st, (c :: s).dropWhile (· != '\n'))
  else if c = '/' ∧ s.head? = some '*' then .ok (st, skipComment s.tail)
  else if c = '\'' ∨ c = '"' ∨ c = '`' ∨ c = '[' then
    if st.statementEnded then .error singleStatement
    else if st.firstWord.isNone then .error selectOnly
    else .ok (st, skipQuoted (if c = '[' then ']' else c) s)
  else if c = ';' then .ok ({ st with statementEnded := true }, s)
  else if isAsciiWhitespace c then .ok (st, s)
  else if st.statementEnded then .error singleStatement
  else if st.firstWord.isNone then
    if (c :: s).takeWhile isWordByte = [] then .error selectOnly
    else if toAsciiLowercase ((c :: s).takeWhile isWordByte) ∉ ALLOWED_START then .error selectOnly
    else .ok ({ st with firstWord := some (toAsciiLowercase ((c :: s).takeWhile isWordByte)) },
      (c :: s).dropWhile isWordByte)
  else .ok (st, s)

/-- At most `n` rounds of the loop. -/
def scanUpTo : Nat → Scan → Text → Except String Scan
  | 0, st, _ => .ok st
  | _ + 1, st, [] => .ok st
  | n + 1, st, c :: s =>
      match scanStep st c s with
      | .error e => .error e
      | .ok (st', rest) => scanUpTo n st' rest

/-- The loop: a round takes a letter at least (`scanStep_shorter`). -/
def scan (st : Scan) (s : Text) : Except String Scan := scanUpTo s.length st s

/-- `check_sqlite_read_only_sql`. -/
def checkSqliteReadOnlySql (sql : Text) : Except String Unit :=
  match scan ⟨none, false⟩ sql with
  | .error e => .error e
  | .ok st => if st.firstWord.isNone then .error "empty SQL statement" else .ok ()

/-! ## The tokens of SQLite -/

inductive Token where
  | space
  | comment (closed : Bool)
  | quoted (closed : Bool)
  | semicolon
  | parameter (suffixed : Bool)
  | word (w : Text)
  | sign (c : Char)
  deriving DecidableEq

/-- A letter of an identifier, of a keyword and of a parameter's name. -/
def isIdChar (c : Char) : Bool := c.isAlphanum || c == '_' || c == '$' || 0x80 ≤ c.toNat

/-- Whether a comment is closed, and the text behind it. -/
def commentEnd : Text → Bool × Text
  | [] => (false, [])
  | c :: s => if c = '*' ∧ s.head? = some '/' then (true, s.tail) else commentEnd s

/-- A text in quotes, with the quote escaped by doubling. -/
def quotedEnd (quote : Char) : Text → Bool × Text
  | [] => (false, [])
  | [c] => (c == quote, [])
  | c :: d :: s =>
      if c = quote then if d = quote then quotedEnd quote s else (true, d :: s)
      else quotedEnd quote (d :: s)

/-- A name in brackets, without escape. -/
def bracketEnd : Text → Bool × Text
  | [] => (false, [])
  | c :: s => if c = ']' then (true, s) else bracketEnd s

/-- The name of a parameter, letters and `::`: whether there is a letter, and the text behind it. -/
def nameEnd (named : Bool) : Text → Bool × Text
  | [] => (named, [])
  | [c] => if isIdChar c then (true, []) else (named, [c])
  | c :: d :: s =>
      if isIdChar c then nameEnd true (d :: s)
      else if c = ':' ∧ d = ':' then nameEnd named s
      else (named, c :: d :: s)

/-- The text behind a suffix `(` … `)` that holds neither a space nor a `)`. -/
def suffixEnd : Text → Option Text
  | [] => none
  | c :: s =>
      if c = '(' then
        match s.dropWhile fun d => !isAsciiWhitespace d && d != ')' with
        | [] => none
        | d :: rest => if d = ')' then some rest else none
      else none

/-- A parameter `$…`, `@…` or `:…`, from behind its first letter. -/
def parameterToken (suffixes : Bool) (c : Char) (s : Text) : Token × Text :=
  if (nameEnd false s).1 then
    match if suffixes then suffixEnd (nameEnd false s).2 else none with
    | some rest => (.parameter true, rest)
    | none => (.parameter false, (nameEnd false s).2)
  else (.sign c, s)

/-- The first token of `c :: s`.  Without `suffixes` a parameter ends with its name. -/
def nextToken (suffixes : Bool) (c : Char) (s : Text) : Token × Text :=
  if isAsciiWhitespace c then (.space, s)
  else if c = '-' ∧ s.head? = some '-' then (.comment true, s.dropWhile (· != '\n'))
  else if c = '/' ∧ s.head? = some '*' then (.comment (commentEnd s.tail).1, (commentEnd s.tail).2)
  else if c = '\'' ∨ c = '"' ∨ c = '`' then (.quoted (quotedEnd c s).1, (quotedEnd c s).2)
  else if c = '[' then (.quoted (bracketEnd s).1, (bracketEnd s).2)
  else if c = ';' then (.semicolon, s)
  else if c = '?' then (.parameter false, s.dropWhile Char.isDigit)
  else if c = ':' ∨ c = '@' ∨ c = '$' then parameterToken suffixes c s
  else if isIdChar c then (.word (c :: s.takeWhile isIdChar), s.dropWhile isIdChar)
  else (.sign c, s)

section Lengths

variable {quote c : Char} {suffixes : Bool} {s rest : Text}

/-- What is behind a comment is no longer than the text. -/
theorem commentEnd_length (s : Text) : (commentEnd s).2.length ≤ s.length := by
  induction s with
  | nil => exact Nat.le_refl _
  | cons c s ih =>
      rw [commentEnd]
      split
      · simp only [List.length_tail, List.length_cons]
        omega
      · exact ih.trans (Nat.le_succ _)

/-- Nor what is behind a quote. -/
theorem quotedEnd_length (s : Text) : (quotedEnd quote s).2.length ≤ s.length := by
  fun_induction quotedEnd quote s with
  | case1 => exact Nat.le_refl _
  | case2 => exact Nat.zero_le _
  | case3 s ih => exact ih.trans ((Nat.le_succ _).trans (Nat.le_succ _))
  | case4 d s h => simp
  | case5 c d s h ih => exact ih.trans (by simp)

/-- Nor what is behind a bracket. -/
theorem bracketEnd_length (s : Text) : (bracketEnd s).2.length ≤ s.length := by
  induction s with
  | nil => exact Nat.le_refl _
  | cons c s ih =>
      rw [bracketEnd]
      split
      · exact Nat.le_succ _
      · exact ih.trans (Nat.le_succ _)

/-- No letter that opens anything. -/
def isPlain (c : Char) : Bool := !(['-', '/', '\'', '"', '`', '[', ';'] : Text).contains c

/-- A character of an identifier is plain. -/
theorem isPlain_of_idChar (h : isIdChar c = true) : isPlain c = true := by
  cases hplain : isPlain c with
  | true => rfl
  | false =>
      simp only [isPlain, Bool.not_eq_false', List.contains_eq_mem, decide_eq_true_eq, List.mem_cons,
        List.not_mem_nil, or_false] at hplain
      rcases hplain with rfl | rfl | rfl | rfl | rfl | rfl | rfl <;> cases h

/-- So is a digit. -/
theorem isPlain_of_digit (h : c.isDigit = true) : isPlain c = true := by
  refine isPlain_of_idChar ?_
  simp [isIdChar, Char.isAlphanum, h]

/-- The letters of a name are plain. -/
theorem nameEnd_run (named : Bool) (s : Text) : ∃ run, s = run ++ (nameEnd named s).2 ∧ ∀ d ∈ run, isPlain d = true := by
  fun_induction nameEnd named s with
  | case1 => exact ⟨[], rfl, by simp⟩
  | case2 named c h => exact ⟨[c], rfl, by simpa using isPlain_of_idChar h⟩
  | case3 => exact ⟨[], rfl, by simp⟩
  | case4 named c d s h ih =>
      obtain ⟨run, heq, hrun⟩ := ih
      exact ⟨c :: run, congrArg (c :: ·) heq, List.forall_mem_cons.mpr ⟨isPlain_of_idChar h, hrun⟩⟩
  | case5 named c d s h hcolon ih =>
      obtain ⟨run, heq, hrun⟩ := ih
      obtain ⟨rfl, rfl⟩ := hcolon
      exact ⟨':' :: ':' :: run, congrArg (':' :: ':' :: ·) heq, by simpa [isPlain] using hrun⟩
  | case6 => exact ⟨[], rfl, by simp⟩

/-- The end of a suffix is within the text. -/
theorem suffixEnd_length (h : suffixEnd s = some rest) : rest.length ≤ s.length := by
  cases s with
  | nil => cases h
  | cons c s =>
      rw [suffixEnd] at h
      split at h
      · have hdrop := (List.dropWhile_sublist (l := s) fun d => !isAsciiWhitespace d && d != ')').length_le
        split at h
        · cases h
        · rename_i d r heq
          rw [heq] at hdrop
          split at h
          · cases h
            simp only [List.length_cons] at hdrop ⊢
            omega
          · cases h
      · cases h

/-- So is the end of a parameter. -/
theorem parameterToken_length : (parameterToken suffixes c s).2.length ≤ s.length := by
  obtain ⟨run, heq, -⟩ := nameEnd_run false s
  have hname : (nameEnd false s).2.length ≤ s.length := by
    have hlength := congrArg List.length heq
    rw [List.length_append] at hlength
    omega
  rw [parameterToken]
  split
  · split
    · next rest hrest =>
        cases suffixes with
        | false => cases hrest
        | true => exact (suffixEnd_length hrest).trans hname
    · exact hname
  · exact Nat.le_refl _

theorem dropWhile_length (p : Char → Bool) (s : Text) : (s.dropWhile p).length ≤ s.length :=
  (List.dropWhile_sublist p).length_le

/-- A token ends within the text. -/
theorem nextToken_shorter (suffixes : Bool) (c : Char) (s : Text) :
    (nextToken suffixes c s).2.length ≤ s.length := by
  unfold nextToken
  split
  · exact Nat.le_refl _
  split
  · exact dropWhile_length _ s
  split
  · exact (commentEnd_length _).trans (by simp)
  split
  · exact quotedEnd_length s
  split
  · exact bracketEnd_length s
  split
  · exact Nat.le_refl _
  split
  · exact dropWhile_length _ s
  split
  · exact parameterToken_length
  split
  · exact dropWhile_length _ s
  · exact Nat.le_refl _

/-- The tokens assumed of SQLite; without `suffixes`, those of a reading in which no parameter has a suffix. -/
def sqlite (suffixes : Bool) : Lexer Char Token := ⟨nextToken suffixes, nextToken_shorter suffixes⟩

/-- The gate skips a comment as the tokenizer does. -/
theorem skipComment_eq (s : Text) : skipComment s = (commentEnd s).2 := by
  induction s with
  | nil => rfl
  | cons c s ih =>
      rw [skipComment, commentEnd]
      split
      · rfl
      · exact ih

/-- The same for quotes. -/
theorem skipQuoted_quote (h : quote ≠ ']') (s : Text) : skipQuoted quote s = (quotedEnd quote s).2 := by
  fun_induction quotedEnd quote s with
  | case1 => rfl
  | case2 => rfl
  | case3 s ih => rw [skipQuoted, if_pos rfl, if_pos ⟨h, rfl⟩, ih]
  | case4 d s hd => rw [skipQuoted, if_pos rfl, if_neg fun hc => hd hc.2]
  | case5 c d s hc ih => rw [skipQuoted, if_neg hc, ih]

/-- And for brackets. -/
theorem skipQuoted_bracket (s : Text) : skipQuoted ']' s = (bracketEnd s).2 := by
  induction s with
  | nil => rfl
  | cons c s ih =>
      rw [bracketEnd]
      cases s with
      | nil => split <;> rfl
      | cons d s =>
          rw [skipQuoted]
          split
          · rw [if_neg fun h => h.1 rfl]
          · exact ih

end Lengths

/-! ## One token and one round -/

section Rounds

variable {c : Char} {s rest : Text} {t : Token} {st : Scan} {w : Text}

def Token.isBlank : Token → Bool
  | .space => true
  | .comment _ => true
  | _ => false

/-- A blank or the end of a statement. -/
def Token.isIdle (t : Token) : Bool := t.isBlank || t == .semicolon

/-- Nothing that the gate looks for stands at `c :: s`. -/
structure Free (c : Char) (s : Text) : Prop where
  space : isAsciiWhitespace c = false
  line : ¬ (c = '-' ∧ s.head? = some '-')
  block : ¬ (c = '/' ∧ s.head? = some '*')
  quote : ¬ (c = '\'' ∨ c = '"' ∨ c = '`' ∨ c = '[')
  semicolon : c ≠ ';'

/-- What the first token can be, where parameters have no suffix. -/
inductive Cut (c : Char) (s : Text) : Token → Text → Prop where
  | space (h : isAsciiWhitespace c = true) : Cut c s .space s
  | line (hc : c = '-') (hs : s.head? = some '-') : Cut c s (.comment true) (s.dropWhile (· != '\n'))
  | block (hc : c = '/') (hs : s.head? = some '*') :
      Cut c s (.comment (commentEnd s.tail).1) (commentEnd s.tail).2
  | quote (hc : c = '\'' ∨ c = '"' ∨ c = '`') : Cut c s (.quoted (quotedEnd c s).1) (quotedEnd c s).2
  | bracket (hc : c = '[') : Cut c s (.quoted (bracketEnd s).1) (bracketEnd s).2
  | semicolon (hc : c = ';') : Cut c s .semicolon s
  | word (h : Free c s) (hc : isIdChar c = true) :
      Cut c s (.word (c :: s.takeWhile isIdChar)) (s.dropWhile isIdChar)
  | free {t run rest} (h : Free c s) (hc : isWordByte c = false) (hidle : t.isIdle = false)
      (hword : ∀ w, t ≠ .word w) (hrun : s = run ++ rest) (hplain : ∀ d ∈ run, isPlain d = true) : Cut c s t rest

theorem takeWhile_cut {p : Char → Bool} (hp : ∀ d, p d = true → isPlain d = true) (s : Text) :
    s = s.takeWhile p ++ s.dropWhile p ∧ ∀ d ∈ s.takeWhile p, isPlain d = true :=
  ⟨List.takeWhile_append_dropWhile.symm, fun d hd => hp d (List.mem_takeWhile_imp hd)⟩

/-- A parameter is such a run. -/
theorem parameterToken_cut (h : Free c s) (hc : isWordByte c = false) :
    Cut c s (parameterToken false c s).1 (parameterToken false c s).2 := by
  obtain ⟨run, heq, hrun⟩ := nameEnd_run false s
  rw [parameterToken]
  split
  · exact .free h hc rfl (by simp) heq hrun
  · exact .free h hc rfl (by simp) (List.nil_append s).symm (by simp)

/-- So is every token that is neither quoted nor a comment. -/
theorem nextToken_cut : Cut c s (nextToken false c s).1 (nextToken false c s).2 := by
  unfold nextToken
  split
  next h => exact .space h
  next hspace =>
  split
  next h => exact .line h.1 h.2
  next hline =>
  split
  next h => exact .block h.1 h.2
  next hblock =>
  split
  next h => exact .quote h
  next hquote =>
  split
  next h => exact .bracket h
  next hbracket =>
  split
  next h => exact .semicolon h
  next hsemicolon =>
  have hfree : Free c s := ⟨Bool.eq_false_iff.mpr hspace, hline, hblock, by tauto, hsemicolon⟩
  split
  next hc =>
    obtain ⟨heq, hrun⟩ := takeWhile_cut (fun d => isPlain_of_digit) s
    exact .free hfree (by rw [hc]; rfl) rfl (by simp) heq hrun
  split
  next hc =>
    refine parameterToken_cut hfree ?_
    rcases hc with rfl | rfl | rfl <;> rfl
  split
  next hc => exact .word hfree hc
  next hc =>
    refine .free hfree ?_ rfl (by simp) (List.nil_append s).symm (by simp)
    simp only [isIdChar, Bool.or_eq_true, not_or, Bool.not_eq_true] at hc
    simp only [isWordByte, hc.1.1.1, hc.1.1.2, Bool.or_self]

/-- Blanks and ends of statements, and quoted texts behind the first word: the gate cuts where SQLite does. -/
theorem scanStep_idle (h : Cut c s t rest) (ht : t.isIdle = true) :
    scanStep st c s = .ok (⟨st.firstWord, st.statementEnded || t == .semicolon⟩, rest) := by
  cases h with
  | space h =>
      have hne : c ≠ '-' ∧ c ≠ '/' ∧ ¬ (c = '\'' ∨ c = '"' ∨ c = '`' ∨ c = '[') ∧ c ≠ ';' := by
        simp only [isAsciiWhitespace, Bool.or_eq_true, beq_iff_eq] at h
        rcases h with (((rfl | rfl) | rfl) | rfl) | rfl <;> decide
      obtain ⟨h1, h2, h3, h4⟩ := hne
      rw [scanStep, if_neg fun hc => h1 hc.1, if_neg fun hc => h2 hc.1, if_neg h3, if_neg h4, if_pos h]
      show Except.ok (st, s) = .ok (⟨st.firstWord, st.statementEnded || false⟩, s)
      rw [Bool.or_false]
  | line hc hs =>
      subst hc
      rw [scanStep, if_pos ⟨rfl, hs⟩]
      show Except.ok (st, s.dropWhile (· != '\n')) = .ok (⟨st.firstWord, st.statementEnded || false⟩, _)
      rw [Bool.or_false]
  | block hc hs =>
      subst hc
      rw [scanStep, if_neg fun hc => absurd hc.1 (by decide), if_pos ⟨rfl, hs⟩, skipComment_eq]
      show Except.ok (st, _) = .ok (⟨st.firstWord, st.statementEnded || false⟩, _)
      rw [Bool.or_false]
  | quote hc => cases ht
  | bracket hc => cases ht
  | semicolon hc =>
      subst hc
      rw [scanStep, if_neg (by simp), if_neg (by simp), if_neg (by decide), if_pos rfl]
      simp
  | word _ _ => cases ht
  | free _ _ hidle _ _ _ =>
      rw [hidle] at ht
      cases ht

/-- What the gate does at a character outside quotes and comments. -/
theorem scanStep_free (h : Free c s) : scanStep st c s =
    if st.statementEnded then .error singleStatement
    else if st.firstWord.isNone then
      if (c :: s).takeWhile isWordByte = [] then .error selectOnly
      else if toAsciiLowercase ((c :: s).takeWhile isWordByte) ∉ ALLOWED_START then .error selectOnly
      else .ok ({ st with firstWord := some (toAsciiLowercase ((c :: s).takeWhile isWordByte)) },
        (c :: s).dropWhile isWordByte)
    else .ok (st, s) := by
  rw [scanStep, if_neg h.line, if_neg h.block, if_neg h.quote, if_neg h.semicolon, if_neg (by simp [h.space])]

/-- What it does at a quote. -/
theorem scanStep_quoted {quote : Char} (h : quote = '\'' ∨ quote = '"' ∨ quote = '`' ∨ quote = '[') :
    scanStep st quote s =
      if st.statementEnded then .error singleStatement
      else if st.firstWord.isNone then .error selectOnly
      else .ok (st, skipQuoted (if quote = '[' then ']' else quote) s) := by
  have hne : quote ≠ '-' ∧ quote ≠ '/' := by
    rcases h with rfl | rfl | rfl | rfl <;> decide
  rw [scanStep, if_neg fun hc => hne.1 hc.1, if_neg fun hc => hne.2 hc.1, if_pos h]

/-- After the end of the statement everything else is refused. -/
theorem scanStep_ended (h : Cut c s t rest) (ht : t.isIdle = false) (hst : st.statementEnded = true) :
    scanStep st c s = .error singleStatement := by
  cases h with
  | space h => cases ht
  | line hc hs => cases ht
  | block hc hs => cases ht
  | quote hc => rw [scanStep_quoted (by tauto), if_pos hst]
  | bracket hc => rw [scanStep_quoted (by tauto), if_pos hst]
  | semicolon hc => cases ht
  | word h _ => rw [scanStep_free h, if_pos hst]
  | free h _ _ _ _ _ => rw [scanStep_free h, if_pos hst]

/-- Behind the first word a plain letter is skipped. -/
theorem scanStep_plain (h : isPlain c = true) : scanStep ⟨some w, false⟩ c s = .ok (⟨some w, false⟩, s) := by
  have hne : c ≠ '-' ∧ c ≠ '/' ∧ ¬ (c = '\'' ∨ c = '"' ∨ c = '`' ∨ c = '[') ∧ c ≠ ';' := by
    refine ⟨?_, ?_, ?_, ?_⟩
    · rintro rfl
      cases h
    · rintro rfl
      cases h
    · rintro (rfl | rfl | rfl | rfl) <;> cases h
    · rintro rfl
      cases h
  obtain ⟨h1, h2, h3, h4⟩ := hne
  rw [scanStep, if_neg fun hc => h1 hc.1, if_neg fun hc => h2 hc.1, if_neg h3, if_neg h4]
  split <;> rfl

/-- It goes on within the text. -/
theorem scanStep_free_shorter {st' : Scan} (hfree : Free c s) (h : scanStep st c s = .ok (st', rest)) :
    rest.length ≤ s.length := by
  rw [scanStep_free hfree] at h
  split at h
  · cases h
  split at h
  · split at h
    · cases h
    split at h
    · cases h
    next hne _ =>
      cases h
      have hpos : 0 < ((c :: s).takeWhile isWordByte).length := List.length_pos_iff.mpr hne
      have hsplit := congrArg List.length (List.takeWhile_append_dropWhile (p := isWordByte) (l := c :: s))
      simp only [List.length_append, List.length_cons] at hsplit
      omega
  · cases h
    exact Nat.le_refl _

/-- At any character. -/
theorem scanStep_shorter {st' : Scan} (h : scanStep st c s = .ok (st', rest)) : rest.length ≤ s.length := by
  have hcut : Cut c s (nextToken false c s).1 (nextToken false c s).2 := nextToken_cut
  cases hidle : (nextToken false c s).1.isIdle with
  | true =>
      rw [scanStep_idle hcut hidle] at h
      cases h
      exact nextToken_shorter false c s
  | false =>
      generalize (nextToken false c s).1 = t, (nextToken false c s).2 = r at hcut hidle
      cases hcut with
      | space _ => cases hidle
      | line _ _ => cases hidle
      | block _ _ => cases hidle
      | semicolon _ => cases hidle
      | quote hc =>
          rw [scanStep_quoted (by tauto)] at h
          have hclose : (if c = '[' then ']' else c) ≠ ']' := by
            rcases hc with rfl | rfl | rfl <;> decide
          rw [skipQuoted_quote hclose] at h
          split at h
          · cases h
          split at h
          · cases h
          · cases h
            exact quotedEnd_length s
      | bracket hc =>
          rw [scanStep_quoted (by tauto), if_pos hc, skipQuoted_bracket] at h
          split at h
          · cases h
          split at h
          · cases h
          · cases h
            exact bracketEnd_length s
      | word hfree _ => exact scanStep_free_shorter hfree h
      | free hfree _ _ _ _ _ => exact scanStep_free_shorter hfree h

end Rounds

/-! ## The loop against the tokens -/

section Loop

variable {c : Char} {s rest run : Text} {t : Token} {ts us : List Token} {st : Scan} {w : Text}

/-- The length of the text is fuel enough. -/
theorem scanUpTo_enough {n : Nat} (h : s.length ≤ n) : scanUpTo n st s = scan st s := by
  induction n using Nat.strongRecOn generalizing s st with
  | ind n ih =>
      cases s with
      | nil => cases n <;> rfl
      | cons c s =>
          obtain ⟨n, rfl⟩ : ∃ m, n = m + 1 := ⟨n - 1, by simp only [List.length_cons] at h; omega⟩
          have hle : s.length ≤ n := Nat.le_of_succ_le_succ h
          show scanUpTo (n + 1) st (c :: s) = scanUpTo (s.length + 1) st (c :: s)
          rw [scanUpTo, scanUpTo]
          split
          · rfl
          · next st' rest hstep =>
              have hrest := scanStep_shorter hstep
              rw [ih n (by omega) (hrest.trans hle), ih s.length (by omega) hrest]

theorem scan_nil : scan st [] = .ok st := rfl

theorem scan_error {e : String} (h : scanStep st c s = .error e) : scan st (c :: s) = .error e := by
  show scanUpTo (s.length + 1) st (c :: s) = _
  rw [scanUpTo, h]

/-- One step, and on. -/
theorem scan_step {st' : Scan} (h : scanStep st c s = .ok (st', rest)) : scan st (c :: s) = scan st' rest := by
  show scanUpTo (s.length + 1) st (c :: s) = _
  rw [scanUpTo, h]
  exact scanUpTo_enough (scanStep_shorter h)

/-- Plain characters in a statement change nothing. -/
theorem scan_plain (h : ∀ d ∈ run, isPlain d = true) :
    scan ⟨some w, false⟩ (run ++ rest) = scan ⟨some w, false⟩ rest := by
  induction run with
  | nil => rfl
  | cons d run ih =>
      obtain ⟨hd, hrun⟩ := List.forall_mem_cons.mp h
      rw [List.cons_append, scan_step (scanStep_plain hd), ih hrun]

/-- Behind the first word the gate goes from token to token. -/
theorem scan_token (h : Cut c s t rest) (ht : t ≠ .semicolon) :
    scan ⟨some w, false⟩ (c :: s) = scan ⟨some w, false⟩ rest := by
  cases h with
  | space h => exact scan_step (scanStep_idle (.space h) rfl)
  | line hc hs => exact scan_step (scanStep_idle (.line hc hs) rfl)
  | block hc hs => exact scan_step (scanStep_idle (.block hc hs) rfl)
  | semicolon hc => exact absurd rfl ht
  | quote hc =>
      have hclose : (if c = '[' then ']' else c) = c ∧ c ≠ ']' := by
        rcases hc with rfl | rfl | rfl <;> decide
      refine scan_step ?_
      rw [scanStep_quoted (by tauto), hclose.1, skipQuoted_quote hclose.2]
      rfl
  | bracket hc =>
      refine scan_step ?_
      rw [scanStep_quoted (by tauto), if_pos hc, skipQuoted_bracket]
      rfl
  | word h _ =>
      obtain ⟨heq, hrun⟩ := takeWhile_cut (fun d => isPlain_of_idChar) s
      rw [scan_step (scanStep_free h)]
      exact (congrArg (scan _) heq).trans (scan_plain hrun)
  | free h _ _ _ hrun hplain =>
      rw [scan_step (scanStep_free h), hrun]
      exact scan_plain hplain

/-- Behind a `;` there are only blanks, comments and further `;`. -/
def EndsOnce : List Token → Prop
  | [] => True
  | t :: ts => if t = .semicolon then ∀ u ∈ ts, u.isIdle = true else EndsOnce ts

/-- Nothing but idle tokens stands behind the semicolon. -/
theorem EndsOnce.behind (h : EndsOnce (ts ++ .semicolon :: us)) : ∀ u ∈ us, u.isIdle = true := by
  induction ts with
  | nil => simpa [EndsOnce] using h
  | cons t ts ih =>
      rw [List.cons_append, EndsOnce] at h
      split at h
      · exact fun u hu => h u (by simp [hu])
      · exact ih h

/-- That is what ending once means. -/
theorem endsOnce_of (h : ∀ pre post, ts = pre ++ .semicolon :: post → ∀ u ∈ post, u.isIdle = true) : EndsOnce ts := by
  induction ts with
  | nil => trivial
  | cons t ts ih =>
      rw [EndsOnce]
      split
      next heq => exact h [] ts (by rw [heq]; rfl)
      next => exact ih fun pre post heq => h (t :: pre) post (by rw [heq]; rfl)

/-- The loop does not fail. -/
def Passes (st : Scan) (s : Text) : Prop := ∃ st', scan st s = .ok st' ∧ st'.firstWord.isSome = true

theorem passes_step {st' : Scan} (h : scanStep st c s = .ok (st', rest)) : Passes st (c :: s) ↔ Passes st' rest := by
  rw [Passes, scan_step h, Passes]

/-- An error does not pass. -/
theorem not_passes_error {e : String} (h : scanStep st c s = .error e) : ¬ Passes st (c :: s) := by
  rintro ⟨st', hst', -⟩
  rw [scan_error h] at hst'
  cases hst'

theorem exists_cut (c : Char) (s : Text) : ∃ t rest, nextToken false c s = (t, rest) ∧ Cut c s t rest ∧
    rest.length ≤ s.length :=
  ⟨_, _, rfl, nextToken_cut, nextToken_shorter false c s⟩

theorem tokens_of_next {suffixes : Bool} (h : nextToken suffixes c s = (t, rest)) :
    (sqlite suffixes).tokens (c :: s) = t :: (sqlite suffixes).tokens rest := by
  rw [Lexer.tokens_cons, show (sqlite suffixes).next c s = (t, rest) from h]

/-- **THE END OF THE STATEMENT.**  After its `;` the gate accepts what idles to the end. -/
theorem passes_ended (s : Text) :
    Passes ⟨some w, true⟩ s ↔ ∀ t ∈ (sqlite false).tokens s, t.isIdle = true := by
  induction hn : s.length using Nat.strongRecOn generalizing s with
  | ind n ih =>
      cases s with
      | nil => exact ⟨fun _ t ht => absurd ht (by simp), fun _ => ⟨_, scan_nil, rfl⟩⟩
      | cons c s =>
          obtain ⟨t, rest, hnext, hcut, hlength⟩ := exists_cut c s
          rw [tokens_of_next hnext, List.forall_mem_cons]
          cases ht : t.isIdle with
          | true =>
              rw [passes_step (scanStep_idle hcut ht), Bool.true_or,
                ih rest.length (by simp only [List.length_cons] at hn; omega) rest rfl]
              exact (and_iff_right rfl).symm
          | false =>
              constructor
              · exact fun h => absurd h (not_passes_error (scanStep_ended hcut ht rfl))
              · exact fun h => nomatch h.1

/-- **BEHIND THE FIRST WORD** the gate accepts what ends once. -/
theorem passes_word (s : Text) : Passes ⟨some w, false⟩ s ↔ EndsOnce ((sqlite false).tokens s) := by
  induction hn : s.length using Nat.strongRecOn generalizing s with
  | ind n ih =>
      cases s with
      | nil => exact ⟨fun _ => trivial, fun _ => ⟨_, scan_nil, rfl⟩⟩
      | cons c s =>
          obtain ⟨t, rest, hnext, hcut, hlength⟩ := exists_cut c s
          rw [tokens_of_next hnext, EndsOnce]
          split
          next heq =>
            subst heq
            rw [passes_step (scanStep_idle hcut rfl)]
            exact passes_ended rest
          next hne =>
            rw [Passes, scan_token hcut hne]
            exact ih rest.length (by simp only [List.length_cons] at hn; omega) rest rfl

end Loop

/-! ## What the gate accepts -/

section Accepts

variable {c : Char} {s rest : Text} {t : Token} {ts us : List Token} {w : Text}

/-- Read without suffixes, `s` is one statement that starts with one of the three words. -/
def ReadsAsQuery (s : Text) : Prop := ∃ ts w rest,
  Reads (sqlite false) s (ts ++ [.word w]) rest ∧ (∀ t ∈ ts, t.isBlank = true) ∧
    toAsciiLowercase (w.takeWhile isWordByte) ∈ ALLOWED_START ∧ EndsOnce ((sqlite false).tokens rest)

/-- The empty text is no query. -/
theorem not_readsAsQuery_nil : ¬ ReadsAsQuery [] := by
  rintro ⟨ts, w, rest, hread, -⟩
  have htokens := hread.tokens_eq
  exact absurd htokens (by simp)

/-- A blank in front does not matter. -/
theorem readsAsQuery_blank (hnext : nextToken false c s = (t, rest)) (ht : t.isBlank = true) :
    ReadsAsQuery (c :: s) ↔ ReadsAsQuery rest := by
  constructor
  · rintro ⟨ts, w, r, hread, hblank, hword, hends⟩
    rcases (Reads.snoc_cons hnext).mp hread with ⟨-, rfl, -⟩ | ⟨us, rfl, hbehind⟩
    · cases ht
    · exact ⟨us, w, r, hbehind, fun u hu => hblank u (List.mem_cons_of_mem _ hu), hword, hends⟩
  · rintro ⟨ts, w, r, hread, hblank, hword, hends⟩
    exact ⟨t :: ts, w, r, (Reads.snoc_cons hnext).mpr (.inr ⟨ts, rfl, hread⟩),
      List.forall_mem_cons.mpr ⟨ht, hblank⟩, hword, hends⟩

/-- A text that starts with a word is a query by its word and its end. -/
theorem readsAsQuery_word (hnext : nextToken false c s = (.word w, rest)) : ReadsAsQuery (c :: s) ↔
    toAsciiLowercase (w.takeWhile isWordByte) ∈ ALLOWED_START ∧ EndsOnce ((sqlite false).tokens rest) := by
  constructor
  · rintro ⟨ts, w', r, hread, hblank, hword, hends⟩
    rcases (Reads.snoc_cons hnext).mp hread with ⟨-, heq, rfl⟩ | ⟨us, rfl, -⟩
    · cases heq
      exact ⟨hword, hends⟩
    · exact absurd (hblank _ List.mem_cons_self) (by simp [Token.isBlank])
  · rintro ⟨hword, hends⟩
    exact ⟨[], w, rest, (Reads.snoc_cons hnext).mpr (.inl ⟨rfl, rfl, rfl⟩), by simp, hword, hends⟩

/-- Nothing else stands in front of the first word. -/
theorem not_readsAsQuery (hnext : nextToken false c s = (t, rest)) (ht : t.isBlank = false)
    (hword : ∀ w, t ≠ .word w) : ¬ ReadsAsQuery (c :: s) := by
  rintro ⟨ts, w, r, hread, hblank, -⟩
  rcases (Reads.snoc_cons hnext).mp hread with ⟨-, heq, -⟩ | ⟨us, rfl, -⟩
  · exact hword w heq.symm
  · rw [hblank t List.mem_cons_self] at ht
    cases ht

/-- A statement that has ended before it began does not pass. -/
theorem not_passes_unstarted (s : Text) : ¬ Passes ⟨none, true⟩ s := by
  induction hn : s.length using Nat.strongRecOn generalizing s with
  | ind n ih =>
      cases s with
      | nil =>
          rintro ⟨st', hst', hsome⟩
          cases hst'
          cases hsome
      | cons c s =>
          obtain ⟨t, rest, -, hcut, hlength⟩ := exists_cut c s
          cases ht : t.isIdle with
          | true =>
              rw [passes_step (scanStep_idle hcut ht), Bool.true_or]
              exact ih rest.length (by simp only [List.length_cons] at hn; omega) rest rfl
          | false => exact not_passes_error (scanStep_ended hcut ht rfl)

theorem isIdChar_of_wordByte (h : isWordByte c = true) : isIdChar c = true := by
  rw [isWordByte, Bool.or_eq_true] at h
  rcases h with h | h <;> simp [isIdChar, h]

/-- The gate's word is the front of SQLite's, and what is left of it is plain. -/
theorem word_front (hc : isIdChar c = true) :
    (c :: s).takeWhile isWordByte = (c :: s.takeWhile isIdChar).takeWhile isWordByte ∧
      ∃ run, (c :: s).dropWhile isWordByte = run ++ s.dropWhile isIdChar ∧ ∀ d ∈ run, isPlain d = true := by
  have hword : (c :: s).takeWhile isIdChar = c :: s.takeWhile isIdChar := List.takeWhile_cons_of_pos hc
  have hrest : (c :: s).dropWhile isIdChar = s.dropWhile isIdChar := List.dropWhile_cons_of_pos hc
  rw [← hword, ← hrest]
  generalize c :: s = l
  induction l with
  | nil => exact ⟨rfl, [], rfl, by simp⟩
  | cons d l ih =>
      cases hd : isWordByte d with
      | true =>
          have hid := isIdChar_of_wordByte hd
          rw [List.takeWhile_cons_of_pos hid, List.dropWhile_cons_of_pos hid, List.takeWhile_cons_of_pos hd,
            List.takeWhile_cons_of_pos hd, List.dropWhile_cons_of_pos hd]
          exact ⟨congrArg (d :: ·) ih.1, ih.2⟩
      | false =>
          have hneg : ¬ isWordByte d = true := Bool.eq_false_iff.mp hd
          obtain ⟨heq, hrun⟩ := takeWhile_cut (fun d => isPlain_of_idChar) (d :: l)
          rw [List.takeWhile_cons_of_neg hneg, List.dropWhile_cons_of_neg hneg]
          refine ⟨?_, _, heq, hrun⟩
          rw [List.takeWhile_cons]
          split
          · rw [List.takeWhile_cons_of_neg hneg]
          · rfl

/-- **THE FIRST WORD.**  At a word the gate goes on if it starts with one of the three. -/
theorem passes_start_word (hfree : Free c s) (hc : isIdChar c = true) : Passes ⟨none, false⟩ (c :: s) ↔
    toAsciiLowercase ((c :: s.takeWhile isIdChar).takeWhile isWordByte) ∈ ALLOWED_START ∧
      EndsOnce ((sqlite false).tokens (s.dropWhile isIdChar)) := by
  obtain ⟨hfront, run, hrest, hrun⟩ := word_front (s := s) hc
  have hstep : scanStep ⟨none, false⟩ c s = _ := scanStep_free hfree
  rw [← hfront]
  by_cases hallowed : toAsciiLowercase ((c :: s).takeWhile isWordByte) ∈ ALLOWED_START
  · have hne : (c :: s).takeWhile isWordByte ≠ [] := by
      intro hnil
      rw [hnil] at hallowed
      exact absurd hallowed (by decide)
    rw [if_neg Bool.false_ne_true, if_pos (show (none : Option Text).isNone = true from rfl), if_neg hne, if_neg (not_not.mpr hallowed)] at hstep
    rw [passes_step hstep, hrest, Passes, scan_plain hrun]
    exact (passes_word _).trans (and_iff_right hallowed).symm
  · rw [if_neg Bool.false_ne_true, if_pos (show (none : Option Text).isNone = true from rfl), if_pos hallowed, ite_self] at hstep
    exact iff_of_false (not_passes_error hstep) fun h => hallowed h.1

/-- The gate passes exactly the queries. -/
theorem passes_start (s : Text) : Passes ⟨none, false⟩ s ↔ ReadsAsQuery s := by
  induction hn : s.length using Nat.strongRecOn generalizing s with
  | ind n ih =>
      cases s with
      | nil =>
          refine iff_of_false ?_ not_readsAsQuery_nil
          rintro ⟨st', hst', hsome⟩
          cases hst'
          cases hsome
      | cons c s =>
          obtain ⟨t, rest, hnext, hcut, hlength⟩ := exists_cut c s
          have hrec : Passes ⟨none, false⟩ rest ↔ ReadsAsQuery rest :=
            ih rest.length (by simp only [List.length_cons] at hn; omega) rest rfl
          cases hcut with
          | space h =>
              rw [passes_step (scanStep_idle (.space h) rfl), readsAsQuery_blank hnext rfl, ← hrec]
              rfl
          | line hc hs =>
              rw [passes_step (scanStep_idle (.line hc hs) rfl), readsAsQuery_blank hnext rfl, ← hrec]
              rfl
          | block hc hs =>
              rw [passes_step (scanStep_idle (.block hc hs) rfl), readsAsQuery_blank hnext rfl, ← hrec]
              rfl
          | quote hc =>
              exact iff_of_false (not_passes_error (scanStep_quoted (by tauto)))
                (not_readsAsQuery hnext rfl (by simp))
          | bracket hc =>
              exact iff_of_false (not_passes_error (scanStep_quoted (by tauto)))
                (not_readsAsQuery hnext rfl (by simp))
          | semicolon hc =>
              rw [passes_step (scanStep_idle (.semicolon hc) rfl)]
              exact iff_of_false (not_passes_unstarted _) (not_readsAsQuery hnext rfl (by simp))
          | word hfree hc => rw [passes_start_word hfree hc, readsAsQuery_word hnext]
          | free hfree hc hidle hword hrun hplain =>
              have hstep : scanStep ⟨none, false⟩ c s = _ := scanStep_free hfree
              rw [List.takeWhile_cons_of_neg (Bool.eq_false_iff.mp hc)] at hstep
              refine iff_of_false (not_passes_error hstep) (not_readsAsQuery hnext ?_ hword)
              rw [Token.isIdle, Bool.or_eq_false_iff] at hidle
              exact hidle.1

/-- **WHAT THE GATE ACCEPTS** is one query in the reading without suffixes. -/
theorem check_iff (s : Text) : checkSqliteReadOnlySql s = .ok () ↔ ReadsAsQuery s := by
  rw [← passes_start, checkSqliteReadOnlySql, Passes]
  cases scan ⟨none, false⟩ s with
  | error e => simp
  | ok st => cases hst : st.firstWord <;> simp [hst]

end Accepts

/-! ## What SQLite runs -/

section Statements

variable {c : Char} {s rest : Text} {t : Token} {current pre ts us : List Token} {w : Text}

/-- A statement, if it has a token. -/
def emit (current : List Token) : List (List Token) := if current = [] then [] else [current]

/-- The statements of a list of tokens, `current` being the tokens of the one that is open. -/
def statementsFrom (current : List Token) : List Token → List (List Token)
  | [] => emit current
  | t :: ts =>
      if t = .semicolon then emit current ++ statementsFrom [] ts
      else if t.isBlank then statementsFrom current ts
      else statementsFrom (current ++ [t]) ts

/-- The non-empty statements. -/
def statements (ts : List Token) : List (List Token) := statementsFrom [] ts

/-- At most one non-empty statement, and it starts with `SELECT`, `WITH` or `VALUES`. -/
def OneQuery (ts : List Token) : Prop :=
  (statements ts).length ≤ 1 ∧
    ∀ statement ∈ statements ts, ∃ w, statement.head? = some (.word w) ∧ toAsciiLowercase w ∈ ALLOWED_START

theorem emit_eq_nil : emit current = [] ↔ current = [] := by
  rw [emit]
  split <;> simp [*]

/-- There is no statement only if all tokens are idle. -/
theorem statementsFrom_eq_nil : statementsFrom current ts = [] ↔ current = [] ∧ ∀ t ∈ ts, t.isIdle = true := by
  induction ts generalizing current with
  | nil => simp [statementsFrom, emit_eq_nil]
  | cons t ts ih =>
      rw [statementsFrom, List.forall_mem_cons]
      split
      next heq =>
        subst heq
        rw [List.append_eq_nil_iff, emit_eq_nil, ih]
        exact and_congr_right fun _ => and_congr_left fun _ => iff_of_true rfl rfl
      next hne =>
        split
        next hblank =>
          rw [ih, Token.isIdle, hblank]
          simp
        next hblank =>
          rw [ih]
          simp [Token.isIdle, hblank, hne]

/-- Blanks in front of a statement change nothing. -/
theorem statementsFrom_blank (h : ∀ t ∈ pre, t.isBlank = true) :
    statementsFrom current (pre ++ ts) = statementsFrom current ts := by
  induction pre with
  | nil => rfl
  | cons t pre ih =>
      obtain ⟨ht, hpre⟩ := List.forall_mem_cons.mp h
      have hne : t ≠ .semicolon := by
        rintro rfl
        cases ht
      rw [List.cons_append, statementsFrom, if_neg hne, if_pos ht, ih hpre]

/-- An open statement that starts with `w`. -/
theorem oneQuery_open : ((statementsFrom (.word w :: current) ts).length ≤ 1 ∧
    ∀ statement ∈ statementsFrom (.word w :: current) ts,
      ∃ v, statement.head? = some (.word v) ∧ toAsciiLowercase v ∈ ALLOWED_START) ↔
    toAsciiLowercase w ∈ ALLOWED_START ∧ EndsOnce ts := by
  induction ts generalizing current with
  | nil => simp [statementsFrom, emit, EndsOnce]
  | cons t ts ih =>
      rw [statementsFrom, EndsOnce]
      split
      next =>
        have hemit : emit (.word w :: current) = [.word w :: current] := if_neg (by simp)
        have hrest : statementsFrom [] ts = [] ↔ ∀ u ∈ ts, u.isIdle = true :=
          statementsFrom_eq_nil.trans (and_iff_right rfl)
        rw [hemit, ← hrest]
        constructor
        · rintro ⟨hlength, hstart⟩
          obtain ⟨v, hv, hallowed⟩ := hstart _ List.mem_cons_self
          cases hv
          refine ⟨hallowed, List.eq_nil_of_length_eq_zero ?_⟩
          simp only [List.cons_append, List.nil_append, List.length_cons] at hlength
          omega
        · rintro ⟨hallowed, hnil⟩
          rw [hnil]
          exact ⟨Nat.le_refl _, fun statement hmem => ⟨w, by rw [List.mem_singleton.mp hmem]; rfl, hallowed⟩⟩
      next =>
        split
        · exact ih
        · exact ih

/-- The first word and the end of its statement decide. -/
theorem oneQuery_word (h : ∀ t ∈ pre, t.isBlank = true) :
    OneQuery (pre ++ .word w :: ts) ↔ toAsciiLowercase w ∈ ALLOWED_START ∧ EndsOnce ts := by
  have hstart : statements (pre ++ .word w :: ts) = statementsFrom [.word w] ts := by
    rw [statements, statementsFrom_blank h]
    rfl
  rw [OneQuery, hstart]
  exact oneQuery_open

/-! ## The two readings -/

/-- They differ at a parameter only. -/
theorem nextToken_or (a b : Bool) (c : Char) (s : Text) : nextToken a c s = nextToken b c s ∨
    (nextToken a c s = parameterToken a c s ∧ nextToken b c s = parameterToken b c s) := by
  unfold nextToken
  split
  · exact .inl rfl
  split
  · exact .inl rfl
  split
  · exact .inl rfl
  split
  · exact .inl rfl
  split
  · exact .inl rfl
  split
  · exact .inl rfl
  split
  · exact .inl rfl
  split
  · exact .inr ⟨rfl, rfl⟩
  · exact .inl rfl

/-- Without a name there is no parameter. -/
theorem parameterToken_cases (a : Bool) (c : Char) (s : Text) :
    (∃ suffixed, (parameterToken a c s).1 = .parameter suffixed) ∨ ∀ b, parameterToken b c s = (.sign c, s) := by
  cases hname : (nameEnd false s).1 with
  | true =>
      left
      rw [parameterToken, if_pos hname]
      split
      · exact ⟨true, rfl⟩
      · exact ⟨false, rfl⟩
  | false =>
      right
      intro b
      rw [parameterToken, hname, if_neg Bool.false_ne_true]

/-- The two tokenizers differ in suffixed parameters only. -/
theorem nextToken_congr {a b : Bool} (h : ∀ suffixed, (nextToken a c s).1 ≠ .parameter suffixed) :
    nextToken b c s = nextToken a c s := by
  rcases nextToken_or a b c s with heq | ⟨ha, hb⟩
  · exact heq.symm
  · rcases parameterToken_cases a c s with ⟨suffixed, hparameter⟩ | hsign
    · exact absurd hparameter (ha ▸ h suffixed)
    · rw [ha, hb, hsign, hsign]

/-- And at a suffix only. -/
theorem nextToken_unsuffixed (h : (nextToken true c s).1 ≠ .parameter true) :
    nextToken false c s = nextToken true c s := by
  rcases nextToken_or true false c s with heq | ⟨ha, hb⟩
  · exact heq.symm
  · rw [ha] at h
    rw [ha, hb]
    unfold parameterToken at h ⊢
    cases hname : (nameEnd false s).1 with
    | false => rfl
    | true =>
        rw [hname, if_pos rfl, if_pos rfl] at h
        simp only [if_pos] at h ⊢
        cases hsuffix : suffixEnd (nameEnd false s).2 with
        | none => rfl
        | some rest =>
            rw [hsuffix] at h
            exact absurd rfl h

theorem Reads.unsuffixed (h : Reads (sqlite true) s ts rest) (hts : ∀ t ∈ ts, t ≠ .parameter true) :
    Reads (sqlite false) s ts rest :=
  h.transfer (p := (· ≠ .parameter true)) (fun _ _ => nextToken_unsuffixed) hts

theorem Reads.reread {a b : Bool} (h : Reads (sqlite a) s ts rest)
    (hts : ∀ t ∈ ts, ∀ suffixed, t ≠ .parameter suffixed) : Reads (sqlite b) s ts rest :=
  h.transfer (p := fun t => ∀ suffixed, t ≠ .parameter suffixed) (fun _ _ => nextToken_congr) hts

theorem ne_parameter_of_idle (h : t.isIdle = true) (suffixed : Bool) : t ≠ .parameter suffixed := by
  rintro rfl
  cases h

theorem idle_of_blank (h : t.isBlank = true) : t.isIdle = true := by
  rw [Token.isIdle, h, Bool.true_or]

/-- The text that idles is read alike. -/
theorem tokens_idle {a b : Bool} (h : ∀ t ∈ (sqlite a).tokens s, t.isIdle = true) :
    (sqlite b).tokens s = (sqlite a).tokens s := by
  have hread : Reads (sqlite b) s ((sqlite a).tokens s) [] :=
    Reads.reread Reads.all fun t ht => ne_parameter_of_idle (h t ht)
  rw [hread.tokens_eq, Lexer.tokens_nil, List.append_nil]

/-- A semicolon is one character. -/
theorem next_semicolon {a : Bool} (h : (nextToken a c s).1 = .semicolon) : c = ';' ∧ (nextToken a c s).2 = s := by
  have hsame : nextToken false c s = nextToken a c s := nextToken_congr (by simp [h])
  have hcut : Cut c s (nextToken false c s).1 (nextToken false c s).2 := nextToken_cut
  rw [hsame] at hcut
  rw [h] at hcut
  generalize (nextToken a c s).2 = r at hcut
  cases hcut with
  | semicolon hc => exact ⟨hc, rfl⟩
  | free _ _ hidle _ _ _ => cases hidle

/-- A `;` among the tokens stands in the text. -/
theorem read_semicolon {a : Bool} (h : (sqlite a).tokens s = ts ++ .semicolon :: us) :
    ∃ r, Reads (sqlite a) s ts (';' :: r) ∧ (sqlite a).tokens r = us := by
  obtain ⟨rest, hread, hrest⟩ := Reads.split h
  cases rest with
  | nil => exact absurd hrest (by simp)
  | cons c rest =>
      rw [Lexer.tokens_cons] at hrest
      obtain ⟨hhead, htail⟩ := List.cons.inj hrest
      obtain ⟨rfl, hnext⟩ := next_semicolon hhead
      refine ⟨rest, hread, ?_⟩
      rw [← htail]
      exact congrArg _ hnext.symm

theorem tokens_semicolon {a : Bool} : (sqlite a).tokens (';' :: s) = .semicolon :: (sqlite a).tokens s :=
  Lexer.tokens_cons

end Statements

/-! ## The gate and SQLite -/

section Gate

variable {s rest : Text} {pre ts : List Token} {w : Text}

/-- The end of a quoted text or of a comment is there. -/
def Token.isClosed : Token → Bool
  | .comment closed => closed
  | .quoted closed => closed
  | _ => true

/-- Blanks and closed comments, one statement without suffixes and with its quotes and comments closed, and
    then `;`, blanks and comments. -/
def PlainQuery (ts : List Token) : Prop := ∃ pre w body post, ts = pre ++ .word w :: (body ++ post) ∧
  (∀ t ∈ pre, t.isBlank = true ∧ t.isClosed = true) ∧ toAsciiLowercase w ∈ ALLOWED_START ∧
  (∀ t ∈ body, t ≠ .semicolon ∧ t ≠ .parameter true ∧ t.isClosed = true) ∧ ∀ t ∈ post, t.isIdle = true

/-- The first word has no `$` and no letter beyond ASCII. -/
def FirstWordPlain (s : Text) : Prop := ∀ pre w rest, Reads (sqlite true) s (pre ++ [.word w]) rest →
  (∀ t ∈ pre, t.isBlank = true) → ∀ c ∈ w, isWordByte c = true

/-- SQLite ends a statement, with something behind it, where the reading without suffixes has no token's
    beginning: inside a quoted text or a comment that was opened in a suffix. -/
def HidesEnd (s : Text) : Prop := ∃ pre rest, Reads (sqlite true) s pre (';' :: rest) ∧
  (∃ t ∈ (sqlite true).tokens rest, t.isIdle = false) ∧ ∀ pre', ¬ Reads (sqlite false) s pre' (';' :: rest)

/-- The allowed words have letters only. -/
theorem isLower_of_allowed (h : toAsciiLowercase w ∈ ALLOWED_START) {c : Char} (hc : c ∈ w) :
    c.toLower.isLower = true := by
  have hall : (ALLOWED_START.all fun v => v.all Char.isLower) = true := by rfl
  exact List.all_eq_true.mp (List.all_eq_true.mp hall _ h) _ (List.mem_map_of_mem hc)

/-- A letter is a character of a word. -/
theorem isWordByte_of_lower {c : Char} (h : c.toLower.isLower = true) : isWordByte c = true := by
  by_cases hupper : c.isUpper = true
  · simp [isWordByte, Char.isAlphanum, Char.isAlpha, hupper]
  · have hsame : c.toLower = c := by
      rw [Char.toLower, dif_neg]
      simpa [Char.isUpper] using hupper
    rw [hsame] at h
    simp [isWordByte, Char.isAlphanum, Char.isAlpha, h]

theorem takeWhile_allowed (h : toAsciiLowercase w ∈ ALLOWED_START) : w.takeWhile isWordByte = w :=
  List.takeWhile_eq_self_iff.mpr fun _ hc => isWordByte_of_lower (isLower_of_allowed h hc)

/-- A statement with one semicolon and idle tokens behind it. -/
theorem endsOnce_append {body post : List Token} (hbody : ∀ t ∈ body, t ≠ .semicolon)
    (hpost : ∀ t ∈ post, t.isIdle = true) : EndsOnce (body ++ post) := by
  induction body with
  | nil =>
      refine endsOnce_of fun pre post' heq u hu => hpost u ?_
      rw [← List.nil_append post, heq]
      simp [hu]
  | cons t body ih =>
      obtain ⟨ht, hrest⟩ := List.forall_mem_cons.mp hbody
      rw [List.cons_append, EndsOnce, if_neg ht]
      exact ih hrest

/-- A plain query is one in the reading without suffixes too. -/
theorem PlainQuery.reads (h : PlainQuery ((sqlite true).tokens s)) : ReadsAsQuery s := by
  obtain ⟨pre, w, body, post, htokens, hpre, hallowed, hbody, hpost⟩ := h
  have hsplit : (sqlite true).tokens s = (pre ++ [.word w]) ++ (body ++ post) := by
    rw [htokens, List.append_assoc]
    rfl
  obtain ⟨rest, hread, hrest⟩ := Reads.split hsplit
  have hhead : ∀ t ∈ pre ++ [.word w], t ≠ .parameter true := by
    intro t ht
    rcases List.mem_append.mp ht with ht | ht
    · exact ne_parameter_of_idle (idle_of_blank (hpre t ht).1) true
    · rw [List.mem_singleton.mp ht]
      exact Token.noConfusion
  have htail : ∀ t ∈ body ++ post, t ≠ .parameter true := by
    intro t ht
    rcases List.mem_append.mp ht with ht | ht
    · exact (hbody t ht).2.1
    · exact ne_parameter_of_idle (hpost t ht) true
  have hall : Reads (sqlite false) rest (body ++ post) [] := by
    rw [← hrest] at htail ⊢
    exact Reads.unsuffixed Reads.all htail
  refine ⟨pre, w, rest, Reads.unsuffixed hread hhead, fun t ht => (hpre t ht).1, ?_, ?_⟩
  · rwa [takeWhile_allowed hallowed]
  · rw [hall.tokens_eq, Lexer.tokens_nil, List.append_nil]
    exact endsOnce_append (fun t ht => (hbody t ht).1) hpost

/-- Behind the first word the two readings agree on where the statement ends unless the end is hidden. -/
theorem endsOnce_iff (hfalse : Reads (sqlite false) s (pre ++ [.word w]) rest)
    (htrue : Reads (sqlite true) s (pre ++ [.word w]) rest) (hpre : ∀ t ∈ pre, t.isBlank = true)
    (hends : EndsOnce ((sqlite false).tokens rest)) : EndsOnce ((sqlite true).tokens rest) ↔ ¬ HidesEnd s := by
  have hfront : ∀ t ∈ pre ++ [.word w], t ≠ .semicolon := by
    intro t ht
    rcases List.mem_append.mp ht with ht | ht
    · rintro rfl
      exact nomatch hpre _ ht
    · rw [List.mem_singleton.mp ht]
      exact Token.noConfusion
  -- a `;` of either reading lies behind the first word
  have hbehind : ∀ (a : Bool) (ts' : List Token) (r : Text), Reads (sqlite a) s (pre ++ [.word w]) rest →
      Reads (sqlite a) s ts' (';' :: r) →
      ∃ mid, (sqlite a).tokens rest = mid ++ .semicolon :: (sqlite a).tokens r := by
    intro a ts' r hword hread
    have heq : (pre ++ [.word w]) ++ (sqlite a).tokens rest = ts' ++ .semicolon :: (sqlite a).tokens r := by
      rw [← hword.tokens_eq, hread.tokens_eq, tokens_semicolon]
    rcases List.append_eq_append_iff.mp heq with ⟨mid, -, hmid⟩ | ⟨mid, hmid, hrest⟩
    · exact ⟨mid, hmid⟩
    · cases mid with
      | nil => exact ⟨[], by rw [← List.nil_append ((sqlite a).tokens rest)]; exact hrest.symm⟩
      | cons t mid =>
          rw [List.cons_append] at hrest
          have ht := (List.cons.inj hrest).1
          exact absurd ht.symm (hfront t (by rw [hmid]; simp))
  constructor
  · rintro hends ⟨ts', r, hread, ⟨t, ht, hidle⟩, -⟩
    obtain ⟨mid, hmid⟩ := hbehind true ts' r htrue hread
    rw [hmid] at hends
    rw [hends.behind t ht] at hidle
    cases hidle
  · intro hhides
    refine endsOnce_of fun before post heq => ?_
    obtain ⟨r, hread, hr⟩ := read_semicolon heq
    by_contra hpost
    have hsome : ∃ t ∈ (sqlite true).tokens r, t.isIdle = false := by
      rw [hr]
      simpa using hpost
    refine hhides ⟨_, r, htrue.append hread, hsome, fun pre' hread' => ?_⟩
    obtain ⟨mid, hmid⟩ := hbehind false pre' r hfalse hread'
    rw [hmid] at hends
    obtain ⟨t, ht, hidle⟩ := hsome
    rw [tokens_idle hends.behind] at ht
    rw [hends.behind t ht] at hidle
    cases hidle

/-- The first word is the keyword itself if it has no other letters. -/
theorem firstWordPlain_iff (htrue : Reads (sqlite true) s (pre ++ [.word w]) rest)
    (hpre : ∀ t ∈ pre, t.isBlank = true) (hword : toAsciiLowercase (w.takeWhile isWordByte) ∈ ALLOWED_START) :
    toAsciiLowercase w ∈ ALLOWED_START ↔ FirstWordPlain s := by
  constructor
  · intro hallowed pre' w' rest' hread hpre'
    have hsame : w' = w := by
      have heq : pre' ++ .word w' :: (sqlite true).tokens rest' = pre ++ .word w :: (sqlite true).tokens rest := by
        have h := hread.tokens_eq.symm.trans htrue.tokens_eq
        simpa using h
      rcases List.append_eq_append_iff.mp heq with ⟨mid, hmid, hrest⟩ | ⟨mid, hmid, hrest⟩
      · cases mid with
        | nil => exact Token.word.inj (List.cons.inj hrest).1
        | cons t mid =>
            have ht := (List.cons.inj hrest).1
            exact nomatch ht ▸ hpre t (by rw [hmid]; simp)
      · cases mid with
        | nil => exact (Token.word.inj (List.cons.inj hrest).1).symm
        | cons t mid =>
            have ht := (List.cons.inj hrest).1
            exact nomatch ht ▸ hpre' t (by rw [hmid]; simp)
    subst hsame
    exact fun c hc => isWordByte_of_lower (isLower_of_allowed hallowed hc)
  · intro hplain
    have hself : w.takeWhile isWordByte = w := List.takeWhile_eq_self_iff.mpr (hplain pre w rest htrue hpre)
    rwa [hself] at hword

/-- **THE GATE IS RIGHT ABOUT THESE TOKENS** unless a suffix hides the end of the statement or the first word goes
    on: then, and only then, what it accepts is not one query.  Plain queries it always accepts. -/
theorem query_gate_iff (s : Text) :
    ((checkSqliteReadOnlySql s = .ok () → OneQuery ((sqlite true).tokens s)) ∧
      (PlainQuery ((sqlite true).tokens s) → checkSqliteReadOnlySql s = .ok ())) ↔
    (ReadsAsQuery s → FirstWordPlain s ∧ ¬ HidesEnd s) := by
  have hplain : PlainQuery ((sqlite true).tokens s) → checkSqliteReadOnlySql s = .ok () :=
    fun h => (check_iff s).mpr h.reads
  rw [and_iff_left hplain, check_iff]
  refine forall_congr' fun hreads => ?_
  obtain ⟨pre, w, rest, hfalse, hpre, hword, hends⟩ := hreads
  have htrue : Reads (sqlite true) s (pre ++ [.word w]) rest := by
    refine Reads.reread hfalse fun t ht suffixed => ?_
    rcases List.mem_append.mp ht with ht | ht
    · exact ne_parameter_of_idle (idle_of_blank (hpre t ht)) suffixed
    · rw [List.mem_singleton.mp ht]
      exact Token.noConfusion
  have htokens : (sqlite true).tokens s = pre ++ .word w :: (sqlite true).tokens rest := by
    rw [htrue.tokens_eq, List.append_assoc]
    rfl
  rw [htokens, oneQuery_word hpre, firstWordPlain_iff htrue hpre hword, endsOnce_iff hfalse htrue hpre hends]

/-- **A SECOND STATEMENT PASSES**: the suffix of `$a` holds a quote, and what the gate takes for a quoted text
    holds the end of the statement and another one. -/
theorem suffix_hides_statement :
    checkSqliteReadOnlySql "SELECT $a('); DROP TABLE t --')".toList = .ok () ∧
      ¬ OneQuery ((sqlite true).tokens "SELECT $a('); DROP TABLE t --')".toList) := by
  refine ⟨by rfl, ?_⟩
  rintro ⟨hlength, -⟩
  exact absurd hlength (by decide)

end Gate

end Greentic.SqlGate
