import GreenticRunner.AgentModel
import GreenticRunner.TextCodec
import GreenticRunner.TextScan

/-! # Credentials in the URLs of error texts

    The error text of a run outcome is sent to the admin only after what looks like a credential
    was replaced by a marker.  `redact_urls` is the pass over the URLs: it hides the userinfo and
    the query of each.

    * `redactUrls_append` — it works WORD BY WORD: what stands in other words does not change what
      it does;
    * `redactUrlsFrom_eq` — the walk back over a scheme never reaches the URL before it.

    A text is the list of its characters, and the rest of a text stands for an offset into it.
    The words that are searched for and the characters a scan stops at are all ASCII, so the byte
    offsets of the source lie between characters. -/

namespace Greentic.ErrorExcerpt

open TextScan

abbrev Text := List Char

/-- `REDACTED`. -/
def REDACTED : Text := "[redacted]".toList

/-! ## Tokens -/

/-- `is_token_end`. -/
def isTokenEnd (c : Char) : Bool :=
  Aw.isWhitespace c ||
    ['"', '\'', '`', '<', '>', ')', ']', '}', ',', ';'].contains c

/-- The characters before the next `token_end`. -/
def isTokenChar (c : Char) : Bool := !isTokenEnd c

/-! ## URLs -/

/-- `UrlParts`. -/
structure UrlParts where
  schemePrefix : Text
  host : Text
  hadUserinfo : Bool
  remainder : Text
  ambiguous : Bool

/-- A letter of a scheme. -/
def isSchemeChar (c : Char) : Bool := c.isAlphanum || c == '+' || c == '-' || c == '.'

/-- The characters that end an authority. -/
def isAuthorityEnd (c : Char) : Bool := c == '/' || c == '?' || c == '#'

/-- `s.find("://")`: the text before it, and the text from it on. -/
def findSeparator (s : Text) : Option (Text × Text) := find (startsWith (· == ·) "://".toList) s

/-- `scheme_prefix_len`. -/
def schemePrefixLen (s : Text) : Option Nat :=
  match findSeparator s with
  | none => none
  | some (scheme, _) =>
      if scheme.head?.any Char.isAlpha && scheme.tail.all isSchemeChar then
        some (scheme.length + 3)
      else none

/-- The text after the last `@`, where there is one. -/
def afterLastAt (authority : Text) : Text := (authority.reverse.takeWhile (· != '@')).reverse

/-- `split_url`. -/
def splitUrl (url : Text) : Option UrlParts :=
  match schemePrefixLen url with
  | none => none
  | some prefixLen =>
      let schemePrefix := url.take prefixLen
      let rest := url.drop prefixLen
      let authority := rest.takeWhile (!isAuthorityEnd ·)
      let remainder := rest.dropWhile (!isAuthorityEnd ·)
      if remainder.contains '@' then some ⟨schemePrefix, [], true, remainder, true⟩
      else if authority.contains '@' then
        some ⟨schemePrefix, afterLastAt authority, true, remainder, false⟩
      else some ⟨schemePrefix, authority, false, remainder, false⟩

/-- `redact_one_url`. -/
def redactOneUrl (url : Text) : Text :=
  match splitUrl url with
  | none => REDACTED
  | some parts =>
      if parts.ambiguous then parts.schemePrefix ++ REDACTED
      else
        let host := if parts.hadUserinfo then REDACTED ++ '@' :: parts.host else parts.host
        let path := parts.remainder.takeWhile fun c => !(c == '?' || c == '#')
        let query := parts.remainder.dropWhile fun c => !(c == '?' || c == '#')
        let query := if query.isEmpty then [] else '?' :: REDACTED
        parts.schemePrefix ++ host ++ path ++ query

/-- `url_end`, as the length of the URL behind `scheme://`. -/
def urlEnd (rest : Text) : Nat :=
  let tokenEnd := (rest.takeWhile isTokenChar).length
  let region := rest.takeWhile (!Aw.isWhitespace ·)
  let authority := region.takeWhile (!isAuthorityEnd ·)
  if authority.length > tokenEnd && authority.contains '@' then region.length else tokenEnd

/-- The longest text of scheme letters right before the separator. -/
def schemeBefore (text : Text) : Text := (text.reverse.takeWhile isSchemeChar).reverse

/-- The loop of `redact_urls`: `before` is the text up to `pos`, `rest` the text from it on. -/
def redactUrlsFrom (before rest : Text) : Text :=
  match h : findSeparator rest with
  | none => rest
  | some (x, y) =>
      let scheme := schemeBefore (before ++ x)
      let n := urlEnd (y.drop 3)
      x.take (x.length - scheme.length) ++ redactOneUrl (scheme ++ y.take (3 + n)) ++
        redactUrlsFrom (before ++ x ++ y.take (3 + n)) (y.drop (3 + n))
termination_by rest.length
decreasing_by
  obtain ⟨rfl, hy⟩ := find_eq h
  have hlen : 3 ≤ y.length := startsWith_length hy
  rw [List.length_drop, List.length_append]
  omega

/-- `redact_urls`. -/
def redactUrls (text : Text) : Text := redactUrlsFrom [] text

/-! ## One URL after the other -/

/-- Text without a separator is unchanged. -/
theorem redactUrlsFrom_none {before rest : Text} (h : findSeparator rest = none) :
    redactUrlsFrom before rest = rest := by
  rw [redactUrlsFrom]
  split
  · rfl
  · rename_i h'
    rw [h] at h'
    cases h'

/-- The first URL is replaced, and so are those behind it. -/
theorem redactUrlsFrom_some {before rest x y : Text} (h : findSeparator rest = some (x, y)) :
    redactUrlsFrom before rest =
      x.take (x.length - (schemeBefore (before ++ x)).length) ++
        redactOneUrl (schemeBefore (before ++ x) ++ y.take (3 + urlEnd (y.drop 3))) ++
        redactUrlsFrom (before ++ x ++ y.take (3 + urlEnd (y.drop 3)))
          (y.drop (3 + urlEnd (y.drop 3))) := by
  rw [redactUrlsFrom]
  split
  · rename_i h'
    rw [h] at h'
    cases h'
  · rename_i h'
    rw [h] at h'
    cases h'
    rfl

theorem isTokenEnd_of_whitespace {c : Char} (h : Aw.isWhitespace c = true) :
    isTokenEnd c = true := by
  rw [isTokenEnd, h, Bool.true_or]

/-! ## URLs, word by word -/

/-- A URL ends where a token ends, or with its word. -/
theorem urlEnd_head (rest : Text) : ∀ d ∈ (rest.drop (urlEnd rest)).head?, isTokenEnd d = true := by
  intro d hd
  simp only [urlEnd] at hd
  split at hd
  · rw [drop_takeWhile_length] at hd
    have hw := head_dropWhile (q := fun x => !Aw.isWhitespace x) hd
    exact isTokenEnd_of_whitespace (by simpa using hw)
  · rw [drop_takeWhile_length] at hd
    have hw : isTokenChar d = false := head_dropWhile hd
    simpa [isTokenChar] using hw

/-- No character both ends a token and stands in a scheme. -/
theorem schemeChar_token {c : Char} (h : isTokenEnd c = true) : isSchemeChar c = false := by
  refine TextCodec.ascii_cases (P := fun c => isTokenEnd c = true → isSchemeChar c = false)
    (by decide) (fun c hc _ => ?_) c h
  rw [isSchemeChar, TextCodec.isAlphanum_nonAscii hc, TextCodec.beq_nonAscii hc (d := '+') (by decide),
    TextCodec.beq_nonAscii hc (d := '-') (by decide),
    TextCodec.beq_nonAscii hc (d := '.') (by decide)]
  rfl

/-- The scheme does not go over a character that is in none. -/
theorem schemeBefore_append_stop {c : Char} (hc : isSchemeChar c = false) (a x : Text) :
    schemeBefore (a ++ c :: x) = schemeBefore x := by
  rw [schemeBefore, List.reverse_append, List.reverse_cons, List.append_assoc,
    List.singleton_append, takeWhile_append_stop hc, schemeBefore]

/-- **THE WALK BACK STAYS BEHIND THE LAST URL**: from the end of a URL on, the text before it is
    not looked at, so no slice of the text ends before it starts. -/
theorem redactUrlsFrom_eq (before rest : Text) (h : ∀ d ∈ rest.head?, isTokenEnd d = true) :
    redactUrlsFrom before rest = redactUrls rest := by
  induction hn : rest.length using Nat.strongRecOn generalizing before rest with
  | _ n ih =>
      cases hf : findSeparator rest with
      | none => rw [redactUrls, redactUrlsFrom_none hf, redactUrlsFrom_none hf]
      | some r =>
          obtain ⟨x, y⟩ := r
          obtain ⟨rfl, hy⟩ := find_eq hf
          have hlen : 3 ≤ y.length := startsWith_length hy
          cases x with
          | nil =>
              -- a token does not end with the colon of a separator
              cases y with
              | nil => cases hlen
              | cons d y =>
                  have hd : (':' == d) = true := (Bool.and_eq_true_iff.mp hy).1
                  have he := h d rfl
                  rw [← beq_iff_eq.mp hd] at he
                  exact absurd he (by decide)
          | cons d x =>
              have hd : isSchemeChar d = false := schemeChar_token (h d rfl)
              have hs : schemeBefore (before ++ d :: x) = schemeBefore ([] ++ d :: x) := by
                rw [schemeBefore_append_stop hd, schemeBefore_append_stop hd]
              have hhead : ∀ e ∈ (y.drop (3 + urlEnd (y.drop 3))).head?, isTokenEnd e = true := by
                rw [← List.drop_drop]
                exact urlEnd_head _
              have hlt : (y.drop (3 + urlEnd (y.drop 3))).length < n := by
                rw [← hn, List.length_drop, List.length_append]
                omega
              rw [redactUrls, redactUrlsFrom_some hf, redactUrlsFrom_some hf, hs,
                ih _ hlt _ _ hhead rfl, ih _ hlt _ _ hhead rfl]

/-- A URL ends within its text. -/
theorem urlEnd_le (rest : Text) : urlEnd rest ≤ rest.length := by
  simp only [urlEnd]
  split
  · exact (List.takeWhile_prefix _).length_le
  · exact (List.takeWhile_prefix _).length_le

theorem redactUrls_none {text : Text} (h : findSeparator text = none) : redactUrls text = text :=
  redactUrlsFrom_none h

/-- What is left of the text before a separator without the scheme. -/
def stem (x : Text) : Text := x.take (x.length - (schemeBefore x).length)

theorem take_of_append {x d t : Text} (h : x = d ++ t) : x.take (x.length - t.length) = d := by
  subst h
  rw [List.length_append, Nat.add_sub_cancel, List.take_left]

/-- The first URL is replaced, and so are those behind it. -/
theorem redactUrls_some {text x y : Text} (h : findSeparator text = some (x, y)) :
    redactUrls text = stem x ++ redactOneUrl (schemeBefore x ++ y.take (3 + urlEnd (y.drop 3))) ++
      redactUrls (y.drop (3 + urlEnd (y.drop 3))) := by
  have hhead : ∀ e ∈ (y.drop (3 + urlEnd (y.drop 3))).head?, isTokenEnd e = true := by
    rw [← List.drop_drop]
    exact urlEnd_head _
  rw [redactUrls, redactUrlsFrom_some h, redactUrlsFrom_eq _ _ hhead]
  rfl

/-- The text in front of a separator is a stem and a scheme. -/
theorem stem_append_scheme (x : Text) : stem x ++ schemeBefore x = x := by
  have h := congrArg List.reverse
    (List.takeWhile_append_dropWhile (p := isSchemeChar) (l := x.reverse))
  rw [List.reverse_append, List.reverse_reverse] at h
  have hx : x = (x.reverse.dropWhile isSchemeChar).reverse ++ schemeBefore x := h.symm
  rw [stem, take_of_append hx]
  exact h

/-- The stem goes over a character that is in no scheme. -/
theorem stem_append_stop {c : Char} (hc : isSchemeChar c = false) (a x : Text) :
    stem (a ++ c :: x) = a ++ c :: stem x := by
  have h := stem_append_scheme (a ++ c :: x)
  rw [schemeBefore_append_stop hc] at h
  have h' : stem (a ++ c :: x) ++ schemeBefore x = (a ++ c :: stem x) ++ schemeBefore x := by
    rw [h, List.append_assoc, List.cons_append, stem_append_scheme]
  exact List.append_cancel_right h'

section Whitespace

variable {c : Char} (hc : Aw.isWhitespace c = true)

include hc

/-- A URL ends in front of the stop, whatever is behind it. -/
theorem urlEnd_append (r b : Text) : urlEnd (r ++ c :: b) = urlEnd r := by
  have htoken : isTokenChar c = false := by
    rw [isTokenChar, isTokenEnd_of_whitespace hc, Bool.not_true]
  have hword : (!Aw.isWhitespace c) = false := by rw [hc, Bool.not_true]
  rw [urlEnd, urlEnd, takeWhile_append_stop htoken,
    takeWhile_append_stop (q := fun d => !Aw.isWhitespace d) hword]

/-- What stands behind the stop makes no separator. -/
theorem separator_append (b s : Text) :
    startsWith (· == ·) "://".toList (s ++ c :: b) = startsWith (· == ·) "://".toList s := by
  refine startsWith_append (fun n hn => ?_) s b
  rw [beq_eq_false_iff_ne]
  rintro rfl
  have hall : "://".toList.all (!Aw.isWhitespace ·) = true := by decide
  have h := List.all_eq_true.mp hall n hn
  rw [hc] at h
  cases h

/-- **URLS, WORD BY WORD**: what stands in other words does not change what is done to a URL. -/
theorem redactUrls_append (a b : Text) :
    redactUrls (a ++ c :: b) = redactUrls a ++ c :: redactUrls b := by
  induction hn : a.length using Nat.strongRecOn generalizing a with
  | _ n ih =>
      cases ha : findSeparator a with
      | none =>
          have hfind : findSeparator (a ++ c :: b) = _ := find_append_none (separator_append hc b) ha
          have hscheme : isSchemeChar c = false := schemeChar_token (isTokenEnd_of_whitespace hc)
          rw [redactUrls_none ha]
          cases hb : find (startsWith (· == ·) "://".toList) b with
          | none =>
              rw [hb] at hfind
              rw [redactUrls_none hfind, redactUrls_none hb]
          | some r =>
              obtain ⟨x, y⟩ := r
              rw [hb] at hfind
              rw [redactUrls_some hfind, redactUrls_some hb, stem_append_stop hscheme,
                schemeBefore_append_stop hscheme]
              simp only [List.append_assoc, List.cons_append]
      | some r =>
          obtain ⟨x, y⟩ := r
          have hfind : findSeparator (a ++ c :: b) = _ :=
            find_append_some (separator_append hc b) (by decide) ha
          obtain ⟨rfl, hy⟩ := find_eq ha
          have hlen : 3 ≤ y.length := startsWith_length hy
          have hdrop : (y ++ c :: b).drop 3 = y.drop 3 ++ c :: b := List.drop_append_of_le_length hlen
          have hle : 3 + urlEnd (y.drop 3) ≤ y.length := by
            have h := urlEnd_le (y.drop 3)
            rw [List.length_drop] at h
            omega
          rw [redactUrls_some ha, redactUrls_some hfind, hdrop, urlEnd_append hc,
            List.take_append_of_le_length hle, List.drop_append_of_le_length hle,
            ih _ (by rw [← hn, List.length_drop, List.length_append]; omega) _ rfl]
          simp only [List.append_assoc]

end Whitespace

end Greentic.ErrorExcerpt
