import Mathlib

/-! # Bytes as text

    Lowercase hexadecimal, and the URL-safe base64 alphabet without padding, each with its
    strict decoder: decoding an encoded text gives the bytes back.

    * `encode64_urlSafe` — what an encoded text consists of;
    * `decodeText_encodeText` — a text through its UTF-8 bytes. -/

namespace TextCodec

/-! ## Hexadecimal -/

/-- The digit of a value below 16. -/
def hexDigit (n : Nat) : Char := if n < 10 then Char.ofNat (48 + n) else Char.ofNat (87 + n)

/-- The value of a digit of either case. -/
def hexValue (c : Char) : Option Nat :=
  if 48 ≤ c.toNat ∧ c.toNat ≤ 57 then some (c.toNat - 48)
  else if 97 ≤ c.toNat ∧ c.toNat ≤ 102 then some (c.toNat - 87)
  else if 65 ≤ c.toNat ∧ c.toNat ≤ 70 then some (c.toNat - 55)
  else none

def hexEncode (bytes : List UInt8) : List Char :=
  bytes.flatMap fun b => [hexDigit (b.toNat / 16), hexDigit (b.toNat % 16)]

def hexDecode : List Char → Option (List UInt8)
  | [] => some []
  | [_] => none
  | h :: l :: rest => do
      let high ← hexValue h
      let low ← hexValue l
      let bytes ← hexDecode rest
      some (UInt8.ofNat (high * 16 + low) :: bytes)

theorem hexValue_digit : ∀ n < 16, hexValue (hexDigit n) = some n := by decide

/-- What was written in hexadecimal is read back. -/
theorem hexDecode_encode (bytes : List UInt8) : hexDecode (hexEncode bytes) = some bytes := by
  induction bytes with
  | nil => rfl
  | cons b bytes ih =>
      have hb := b.toNat_lt
      have hhigh : hexValue (hexDigit (b.toNat / 16)) = some (b.toNat / 16) :=
        hexValue_digit _ (by omega)
      have hlow : hexValue (hexDigit (b.toNat % 16)) = some (b.toNat % 16) :=
        hexValue_digit _ (by omega)
      have hrest : hexEncode (b :: bytes) =
          hexDigit (b.toNat / 16) :: hexDigit (b.toNat % 16) :: hexEncode bytes := rfl
      have hbyte : b.toNat / 16 * 16 + b.toNat % 16 = b.toNat := by omega
      rw [hrest, hexDecode, hhigh, hlow, ih]
      simp only [Option.bind_eq_bind, Option.bind_some]
      rw [hbyte, UInt8.ofNat_toNat]

/-- Only ASCII letters have another lower case. -/
theorem toLower_nonAscii {c : Char} (h : 128 ≤ c.toNat) : c.toLower = c := by
  unfold Char.toLower
  refine dif_neg ?_
  rintro ⟨-, hle⟩
  have hle : c.toNat ≤ 90 := UInt32.le_iff_toNat_le.mp hle
  omega

/-- A fact about characters holds when it holds of the ASCII ones and of all others. -/
theorem ascii_cases {P : Char → Prop} (h : ∀ n < 128, P (Char.ofNat n))
    (h' : ∀ c : Char, 128 ≤ c.toNat → P c) (c : Char) : P c := by
  by_cases hlt : c.toNat < 128
  · have hc := h c.toNat hlt
    rwa [Char.ofNat_toNat] at hc
  · exact h' c (by omega)

/-- A character beyond ASCII is none of ASCII. -/
theorem beq_nonAscii {c : Char} (h : 128 ≤ c.toNat) {d : Char} (hd : d.toNat < 128) :
    (c == d) = false := by
  rw [beq_eq_false_iff_ne]
  rintro rfl
  omega

/-- Letters and digits are ASCII. -/
theorem isAlphanum_nonAscii {c : Char} (h : 128 ≤ c.toNat) : c.isAlphanum = false := by
  have hval : 128 ≤ c.val.toNat := h
  simp only [Char.isAlphanum, Char.isAlpha, Char.isUpper, Char.isLower, Char.isDigit,
    Bool.or_eq_false_iff, Bool.and_eq_false_iff, decide_eq_false_iff_not, UInt32.le_iff_toNat_le,
    ge_iff_le]
  refine ⟨⟨?_, Or.inr ?_⟩, Or.inr ?_⟩
  · rintro ⟨-, hle⟩
    have hle : c.val.toNat ≤ 90 := hle
    omega
  · show ¬ c.val.toNat ≤ 122
    omega
  · show ¬ c.val.toNat ≤ 57
    omega

/-- What does not see the case of ASCII letters does not see the case of any character. -/
theorem apply_toLower {β : Type} {f : Char → β}
    (h : ∀ n < 128, f (Char.ofNat n).toLower = f (Char.ofNat n)) (c : Char) :
    f c.toLower = f c :=
  ascii_cases h (fun _ hc => congrArg f (toLower_nonAscii hc)) c

/-- A lowercase digit. -/
def hexLower (c : Char) : Bool :=
  (48 ≤ c.toNat && c.toNat ≤ 57) || (97 ≤ c.toNat && c.toNat ≤ 102)

theorem hexDigit_lower : ∀ n < 16, hexLower (hexDigit n) = true := by decide

/-- So is all that is written. -/
theorem hexEncode_lower (bytes : List UInt8) : ∀ c ∈ hexEncode bytes, hexLower c = true := by
  intro c hc
  obtain ⟨b, -, hb⟩ := List.mem_flatMap.mp hc
  have hlt := b.toNat_lt
  rcases List.mem_pair.mp hb with rfl | rfl
  · exact hexDigit_lower _ (by omega)
  · exact hexDigit_lower _ (by omega)

/-- Two digits for every byte. -/
theorem hexEncode_length (bytes : List UInt8) : (hexEncode bytes).length = 2 * bytes.length := by
  induction bytes with
  | nil => rfl
  | cons b bytes ih =>
      have hrest : hexEncode (b :: bytes) =
          hexDigit (b.toNat / 16) :: hexDigit (b.toNat % 16) :: hexEncode bytes := rfl
      rw [hrest]
      simp only [List.length_cons]
      omega

/-- Every lower case digit is the digit of some value. -/
theorem exists_hexDigit {c : Char} (h : hexLower c = true) : ∃ n < 16, hexDigit n = c := by
  unfold hexLower at h
  simp only [Bool.or_eq_true, Bool.and_eq_true, decide_eq_true_eq] at h
  rcases h with ⟨h1, h2⟩ | ⟨h1, h2⟩
  · refine ⟨c.toNat - 48, by omega, ?_⟩
    rw [hexDigit, if_pos (by omega), Nat.add_sub_cancel' h1, Char.ofNat_toNat]
  · refine ⟨c.toNat - 87, by omega, ?_⟩
    rw [hexDigit, if_neg (by omega), Nat.add_sub_cancel' (by omega), Char.ofNat_toNat]

/-- Every lowercase text of even length is the encoding of some bytes. -/
theorem exists_hexEncode {text : List Char} (k : Nat) (hlen : text.length = 2 * k)
    (hlower : ∀ c ∈ text, hexLower c = true) :
    ∃ bytes : List UInt8, bytes.length = k ∧ hexEncode bytes = text := by
  induction k generalizing text with
  | zero => exact ⟨[], rfl, (List.length_eq_zero_iff.mp hlen).symm⟩
  | succ k ih =>
      match text, hlen with
      | h :: l :: rest, hlen =>
          obtain ⟨high, hhigh, rfl⟩ := exists_hexDigit (hlower h List.mem_cons_self)
          obtain ⟨low, hlow, rfl⟩ :=
            exists_hexDigit (hlower l (List.mem_cons_of_mem _ List.mem_cons_self))
          have hrestLen : rest.length = 2 * k := by
            simp only [List.length_cons] at hlen
            omega
          obtain ⟨bytes, hbytes, hrest⟩ := ih hrestLen
            fun c hc => hlower c (List.mem_cons_of_mem _ (List.mem_cons_of_mem _ hc))
          refine ⟨UInt8.ofNat (high * 16 + low) :: bytes, by rw [List.length_cons, hbytes], ?_⟩
          have hbyte : (UInt8.ofNat (high * 16 + low)).toNat = high * 16 + low := by
            rw [UInt8.toNat_ofNat']
            omega
          show hexDigit _ :: hexDigit _ :: hexEncode bytes = _
          rw [hbyte, hrest]
          have h1 : (high * 16 + low) / 16 = high := by omega
          have h2 : (high * 16 + low) % 16 = low := by omega
          rw [h1, h2]

/-! ## Base64 -/

/-- The digit of a value below 64. -/
def digit64 (n : Nat) : Char :=
  if n < 26 then Char.ofNat (65 + n)
  else if n < 52 then Char.ofNat (71 + n)
  else if n < 62 then Char.ofNat (n - 4)
  else if n = 62 then '-' else '_'

/-- The value of a digit. -/
def value64 (c : Char) : Option Nat :=
  if 65 ≤ c.toNat ∧ c.toNat ≤ 90 then some (c.toNat - 65)
  else if 97 ≤ c.toNat ∧ c.toNat ≤ 122 then some (c.toNat - 71)
  else if 48 ≤ c.toNat ∧ c.toNat ≤ 57 then some (c.toNat + 4)
  else if c = '-' then some 62
  else if c = '_' then some 63
  else none

/-- Three bytes are four digits; one or two bytes at the end are two or three. -/
def encode64 : List UInt8 → List Char
  | [] => []
  | [a] => [digit64 (a.toNat / 4), digit64 (a.toNat % 4 * 16)]
  | [a, b] => [digit64 (a.toNat / 4), digit64 (a.toNat % 4 * 16 + b.toNat / 16),
      digit64 (b.toNat % 16 * 4)]
  | a :: b :: c :: rest =>
      digit64 (a.toNat / 4) :: digit64 (a.toNat % 4 * 16 + b.toNat / 16) ::
        digit64 (b.toNat % 16 * 4 + c.toNat / 64) :: digit64 (c.toNat % 64) :: encode64 rest

/-- The bits that the last digit has left over must be zero. -/
def decode64 : List Char → Option (List UInt8)
  | [] => some []
  | [_] => none
  | [w, x] => do
      let w ← value64 w
      let x ← value64 x
      if x % 16 = 0 then some [UInt8.ofNat (w * 4 + x / 16)] else none
  | [w, x, y] => do
      let w ← value64 w
      let x ← value64 x
      let y ← value64 y
      if y % 4 = 0 then
        some [UInt8.ofNat (w * 4 + x / 16), UInt8.ofNat (x % 16 * 16 + y / 4)]
      else none
  | w :: x :: y :: z :: rest => do
      let w ← value64 w
      let x ← value64 x
      let y ← value64 y
      let z ← value64 z
      let bytes ← decode64 rest
      some (UInt8.ofNat (w * 4 + x / 16) :: UInt8.ofNat (x % 16 * 16 + y / 4) ::
        UInt8.ofNat (y % 4 * 64 + z) :: bytes)

theorem value64_digit : ∀ n < 64, value64 (digit64 n) = some n := by decide

/-- What was written in base64 is read back. -/
theorem decode64_encode (bytes : List UInt8) : decode64 (encode64 bytes) = some bytes := by
  -- The digits are in range, and the bytes are put together again from their parts.
  induction bytes using encode64.induct with
  | case1 => rfl
  | case2 a =>
      have ha := a.toNat_lt
      rw [encode64, decode64, value64_digit _ (by omega), value64_digit _ (by omega)]
      have hbits : a.toNat % 4 * 16 % 16 = 0 := by omega
      have hbyte : a.toNat / 4 * 4 + a.toNat % 4 * 16 / 16 = a.toNat := by omega
      simp only [Option.bind_eq_bind, Option.bind_some, if_pos hbits, hbyte, UInt8.ofNat_toNat]
  | case3 a b =>
      have ha := a.toNat_lt
      have hb := b.toNat_lt
      rw [encode64, decode64, value64_digit _ (by omega), value64_digit _ (by omega),
        value64_digit _ (by omega)]
      have hbits : b.toNat % 16 * 4 % 4 = 0 := by omega
      have hfirst : a.toNat / 4 * 4 + (a.toNat % 4 * 16 + b.toNat / 16) / 16 = a.toNat := by omega
      have hsecond : (a.toNat % 4 * 16 + b.toNat / 16) % 16 * 16 + b.toNat % 16 * 4 / 4 = b.toNat :=
        by omega
      simp only [Option.bind_eq_bind, Option.bind_some, if_pos hbits, hfirst, hsecond,
        UInt8.ofNat_toNat]
  | case4 a b c rest ih =>
      have ha := a.toNat_lt
      have hb := b.toNat_lt
      have hc := c.toNat_lt
      rw [encode64, decode64, value64_digit _ (by omega), value64_digit _ (by omega),
        value64_digit _ (by omega), value64_digit _ (by omega), ih]
      have hfirst : a.toNat / 4 * 4 + (a.toNat % 4 * 16 + b.toNat / 16) / 16 = a.toNat := by omega
      have hsecond : (a.toNat % 4 * 16 + b.toNat / 16) % 16 * 16 +
          (b.toNat % 16 * 4 + c.toNat / 64) / 4 = b.toNat := by omega
      have hthird : (b.toNat % 16 * 4 + c.toNat / 64) % 4 * 64 + c.toNat % 64 = c.toNat := by omega
      simp only [Option.bind_eq_bind, Option.bind_some, hfirst, hsecond, hthird,
        UInt8.ofNat_toNat]

/-- A letter, a digit, `-` or `_`. -/
def urlSafe (c : Char) : Bool :=
  ('a' ≤ c && c ≤ 'z') || ('A' ≤ c && c ≤ 'Z') || ('0' ≤ c && c ≤ '9') || c == '-' || c == '_'

theorem digit64_urlSafe : ∀ n < 64, urlSafe (digit64 n) = true := by decide

/-- So is all that is written. -/
theorem encode64_urlSafe (bytes : List UInt8) : ∀ c ∈ encode64 bytes, urlSafe c = true := by
  induction bytes using encode64.induct with
  | case1 => exact fun c hc => nomatch hc
  | case2 a =>
      have ha := a.toNat_lt
      rw [encode64, List.forall_mem_cons, List.forall_mem_singleton]
      exact ⟨digit64_urlSafe _ (by omega), digit64_urlSafe _ (by omega)⟩
  | case3 a b =>
      have ha := a.toNat_lt
      have hb := b.toNat_lt
      rw [encode64, List.forall_mem_cons, List.forall_mem_cons, List.forall_mem_singleton]
      exact ⟨digit64_urlSafe _ (by omega), digit64_urlSafe _ (by omega),
        digit64_urlSafe _ (by omega)⟩
  | case4 a b c rest ih =>
      have ha := a.toNat_lt
      have hb := b.toNat_lt
      have hc := c.toNat_lt
      rw [encode64]
      simp only [List.forall_mem_cons]
      exact ⟨digit64_urlSafe _ (by omega), digit64_urlSafe _ (by omega),
        digit64_urlSafe _ (by omega), digit64_urlSafe _ (by omega), ih⟩

/-- Something is written for some bytes. -/
theorem encode64_ne_nil {bytes : List UInt8} (h : bytes ≠ []) : encode64 bytes ≠ [] := by
  cases bytes using encode64.fun_cases with
  | case1 => exact absurd rfl h
  | case2 a => exact List.cons_ne_nil _ _
  | case3 a b => exact List.cons_ne_nil _ _
  | case4 a b c rest => exact List.cons_ne_nil _ _

/-! ## Texts -/

/-- A text as the base64 of its UTF-8 bytes. -/
def encodeText (s : String) : List Char := encode64 s.toUTF8.data.toList

/-- The text whose UTF-8 bytes are encoded, if they are UTF-8. -/
def decodeText (cs : List Char) : Option String := do
  let bytes ← decode64 cs
  String.fromUTF8? ⟨bytes.toArray⟩

/-- A character outside the alphabet is not decoded. -/
theorem decode64_eq_none {cs : List Char} {c : Char} (hc : c ∈ cs) (hv : value64 c = none) :
    decode64 cs = none := by
  induction cs using decode64.induct with
  | case1 => exact nomatch hc
  | case2 a => rfl
  | case3 a b =>
      rcases List.mem_pair.mp hc with rfl | rfl
      · simp [decode64, hv]
      · cases ha : value64 a <;> simp [decode64, hv, ha]
  | case4 a b d =>
      simp only [List.mem_cons, List.not_mem_nil, or_false] at hc
      rcases hc with rfl | rfl | rfl
      · simp [decode64, hv]
      · cases ha : value64 a <;> simp [decode64, hv, ha]
      · cases ha : value64 a <;> cases hb : value64 b <;> simp [decode64, hv, ha, hb]
  | case5 a b d e rest ih =>
      simp only [List.mem_cons] at hc
      rcases hc with rfl | rfl | rfl | rfl | hc
      · simp [decode64, hv]
      · cases ha : value64 a <;> simp [decode64, hv, ha]
      · cases ha : value64 a <;> cases hb : value64 b <;> simp [decode64, hv, ha, hb]
      · cases ha : value64 a <;> cases hb : value64 b <;> cases hd : value64 d <;>
          simp [decode64, hv, ha, hb, hd]
      · simp [decode64, ih hc]

/-- A character that is no digit is refused. -/
theorem decodeText_eq_none {cs : List Char} {c : Char} (hc : c ∈ cs) (hv : value64 c = none) :
    decodeText cs = none := by
  rw [decodeText, decode64_eq_none hc hv]
  rfl

/-- A text comes back. -/
theorem decodeText_encodeText (s : String) : decodeText (encodeText s) = some s := by
  rw [decodeText, encodeText, decode64_encode]
  have hbytes : ByteArray.mk s.toUTF8.data.toList.toArray = s.toByteArray := by
    rw [Array.toArray_toList]
    rfl
  simp only [Option.bind_eq_bind, Option.bind_some, hbytes]
  rw [String.fromUTF8?, dif_pos s.isValidUTF8]
  rfl

/-- Something is written for some text. -/
theorem encodeText_ne_nil {s : String} (h : s ≠ "") : encodeText s ≠ [] := by
  refine encode64_ne_nil ?_
  intro hnil
  refine h (String.toByteArray_inj.mp ?_)
  have hdata : s.toByteArray.data = #[] := Array.toList_eq_nil_iff.mp hnil
  exact ByteArray.ext hdata

end TextCodec
