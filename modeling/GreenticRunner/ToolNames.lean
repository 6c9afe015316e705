import GreenticRunner.ToolListing
import GreenticRunner.Markers
import GreenticRunner.KeyModel
import GreenticRunner.TextCodec

/-! # Tool names on the wire

    `tool_wire_name.rs` and the codec of `llm_openai.rs`: a provider takes tool names of at
    most 64 letters, digits, `_` and `-`.  A name the escape codec makes is kept when it is
    such a name and splits back; any other is made of slugs and a digest of the pair, and is
    read back through a map of the tools that were shown.  Texts are lists of characters;
    SHA-256 is a parameter.

    * `sluggedName_ends` — a slugged name ends in its digest;
    * `Kept`, `inverts_iff` — decoding inverts the names of a list of tools, unless one keeps a
      name that is the slugged name of another. -/

namespace Greentic.Tools

open Aw (isAsciiAlphanumeric)
open Markers (splitOnce)
open TextCodec (hexEncode hexEncode_length hexEncode_lower hexLower)

/-! ## The escape codec -/

/-- `str::len`. -/
def byteLen (s : List Char) : Nat := (s.map Char.utf8Size).sum

/-- `str::replace` with a text that is not empty; `skip` characters of a match are left. -/
def replaceFrom (pattern by_ : List Char) : Nat → List Char → List Char
  | _, [] => []
  | skip + 1, _ :: s => replaceFrom pattern by_ skip s
  | 0, c :: s =>
      if pattern.isPrefixOf (c :: s) then by_ ++ replaceFrom pattern by_ (pattern.length - 1) s
      else c :: replaceFrom pattern by_ 0 s

/-- `str::replace`. -/
def replace (pattern by_ s : List Char) : List Char := replaceFrom pattern by_ 0 s

/-- `SEPARATOR`. -/
def separator : List Char := "_FN_".toList

/-- `encode_tool_name`. -/
def encodeToolName (extensionId toolName : List Char) : List Char :=
  if extensionId.isEmpty then toolName
  else replace ".".toList "_DOT_".toList extensionId ++ separator ++ toolName

/-- `split_tool_name`. -/
def splitToolName (name : List Char) : List Char × List Char :=
  match splitOnce separator name with
  | some (ext, tool) => (replace "_DOT_".toList ".".toList ext, tool)
  | none => ([], name)

/-! ## Slugs -/

/-- `MAX_WIRE_LEN`. -/
def maxWireLen : Nat := 64

/-- `DIGEST_LEN`. -/
def digestLen : Nat := 8

/-- `MIN_EXT_SLUG`. -/
def minExtSlug : Nat := 8

/-- A character of a tool name on the wire. -/
def wireChar (c : Char) : Bool := isAsciiAlphanumeric c || c == '_' || c == '-'

/-- `is_wire_safe`; a byte of a character that is not ASCII is no letter, digit, `_` or `-`. -/
def isWireSafe (name : List Char) : Bool :=
  !name.isEmpty && byteLen name ≤ maxWireLen && name.all wireChar

/-- The loop of `slug`; `underscore` says whether the last character pushed was an underscore for
    characters the provider does not take. -/
def slugChars : Bool → List Char → List Char
  | _, [] => []
  | underscore, c :: rest =>
      if isAsciiAlphanumeric c || c == '-' then c :: slugChars false rest
      else if underscore then slugChars true rest
      else '_' :: slugChars true rest

/-- `str::trim_end_matches`. -/
def trimEndMatches (p : Char → Bool) (s : List Char) : List Char :=
  (s.reverse.dropWhile p).reverse

/-- `slug`. -/
def slug (raw : List Char) : List Char :=
  trimEndMatches (· == '_') ((slugChars false raw).dropWhile (· == '_'))

/-- `clamp`; a slug is ASCII, so its bytes are its characters. -/
def clamp (s : List Char) (max : Nat) : List Char :=
  if s.length ≤ max then s else trimEndMatches (fun c => c == '_' || c == '-') (s.take max)

/-- `compose`. -/
def compose (extSlug toolSlug : List Char) (budget : Nat) : List Char :=
  if extSlug.isEmpty then clamp toolSlug budget
  else
    let reserved := min extSlug.length minExtSlug
    let tool := clamp toolSlug (budget - (separator.length + reserved))
    let ext := clamp extSlug (budget - (separator.length + tool.length))
    if ext.isEmpty then tool
    else if tool.isEmpty then ext
    else ext ++ separator ++ tool

/-- The UTF-8 bytes of a text. -/
def utf8Bytes (s : List Char) : List UInt8 := s.flatMap String.utf8EncodeChar

section Sha

variable (sha256 : List UInt8 → Vector UInt8 32)

/-- `pair_digest`. -/
def pairDigest (extensionId toolName : List Char) : List Char :=
  let bytes := sha256 (utf8Bytes extensionId ++ [0x1f] ++ utf8Bytes toolName)
  hexEncode (bytes.toList.take (digestLen / 2))

/-- The name `wire_tool_name` makes when it does not keep the codec's. -/
def sluggedName (extensionId toolName : List Char) : List Char :=
  let digest := pairDigest sha256 extensionId toolName
  let budget := maxWireLen - digestLen - 1
  let body := compose (slug extensionId) (slug toolName) budget
  if body.isEmpty then digest else body ++ '_' :: digest

/-- The codec's name is kept: it is safe and splits back to the pair. -/
def Kept (extensionId toolName : List Char) : Prop :=
  isWireSafe (encodeToolName extensionId toolName) = true ∧
    splitToolName (encodeToolName extensionId toolName) = (extensionId, toolName)

instance (extensionId toolName : List Char) : Decidable (Kept extensionId toolName) :=
  inferInstanceAs (Decidable (_ ∧ _))

/-- `wire_tool_name`. -/
def wireToolName (extensionId toolName : List Char) : List Char :=
  if Kept extensionId toolName then encodeToolName extensionId toolName
  else sluggedName sha256 extensionId toolName

/-! ## The codec of a request -/

/-- `ToolNameCodec`. -/
structure ToolNameCodec where
  byWire : List Char → Option (List Char × List Char)

/-- The pair a tool is dispatched by. -/
def LlmToolSchema.pair (t : LlmToolSchema) : List Char × List Char :=
  (t.extensionId.toList, t.toolName.toList)

/-- The wire name of a tool. -/
def LlmToolSchema.wire (t : LlmToolSchema) : List Char := wireToolName sha256 t.pair.1 t.pair.2

/-- One more tool: of two tools with one name the first is kept. -/
def ToolNameCodec.add (codec : ToolNameCodec) (t : LlmToolSchema) : ToolNameCodec :=
  match codec.byWire (t.wire sha256) with
  | some existing =>
      if existing ≠ t.pair then codec
      else ⟨Function.update codec.byWire (t.wire sha256) (some t.pair)⟩
  | none => ⟨Function.update codec.byWire (t.wire sha256) (some t.pair)⟩

/-- `ToolNameCodec::for_tools`. -/
def ToolNameCodec.forTools (tools : List LlmToolSchema) : ToolNameCodec :=
  tools.foldl (fun codec t => codec.add sha256 t) ⟨fun _ => none⟩

/-- `ToolNameCodec::decode`. -/
def ToolNameCodec.decode (codec : ToolNameCodec) (wire : List Char) : List Char × List Char :=
  (codec.byWire wire).getD (splitToolName wire)

/-! ## Safe names -/

/-- A character of the wire is one byte. -/
theorem wireChar_utf8Size {c : Char} (h : wireChar c = true) : c.utf8Size = 1 := by
  -- the largest one is `z`
  have hz : ∀ d : Char, d ≤ 'z' → c ≤ d → c.utf8Size = 1 := by
    intro d hd hc
    refine Char.utf8Size_eq_one_iff.mpr ?_
    exact UInt32.le_trans (UInt32.le_trans hc hd) (by decide)
  simp only [wireChar, isAsciiAlphanumeric, Bool.or_eq_true, Bool.and_eq_true, decide_eq_true_eq,
    beq_iff_eq] at h
  rcases h with ((((⟨-, h⟩ | ⟨-, h⟩) | ⟨-, h⟩) | rfl) | rfl)
  · exact hz '9' (by decide) h
  · exact hz 'z' (by decide) h
  · exact hz 'Z' (by decide) h
  · rfl
  · rfl

/-- The bytes of safe characters. -/
theorem byteLen_eq {s : List Char} (h : ∀ c ∈ s, wireChar c = true) : byteLen s = s.length := by
  induction s with
  | nil => rfl
  | cons c s ih =>
      have hc := wireChar_utf8Size (h c (List.mem_cons_self ..))
      have hs := ih fun d hd => h d (List.mem_cons_of_mem _ hd)
      simp only [byteLen, List.map_cons, List.sum_cons, List.length_cons] at hs ⊢
      omega

/-- A slug has only such characters. -/
theorem slugChars_safe (raw : List Char) :
    ∀ underscore, ∀ c ∈ slugChars underscore raw, wireChar c = true := by
  induction raw with
  | nil => exact fun _ _ hc => nomatch hc
  | cons d rest ih =>
      intro underscore c hc
      rw [slugChars] at hc
      split at hc
      · rename_i hd
        rcases List.mem_cons.mp hc with rfl | hc
        · simp only [wireChar, Bool.or_eq_true] at hd ⊢
          rcases hd with hd | hd
          · exact .inl (.inl hd)
          · exact .inr hd
        · exact ih _ c hc
      · split at hc
        · exact ih _ c hc
        · rcases List.mem_cons.mp hc with rfl | hc
          · rfl
          · exact ih _ c hc

/-- Trimming adds no character. -/
theorem mem_of_trimEndMatches {p : Char → Bool} {s : List Char} {c : Char}
    (h : c ∈ trimEndMatches p s) : c ∈ s := by
  have := (List.dropWhile_sublist p).mem (List.mem_reverse.mp h)
  exact List.mem_reverse.mp this

/-- The whole slug. -/
theorem slug_safe (raw : List Char) : ∀ c ∈ slug raw, wireChar c = true := by
  intro c hc
  exact slugChars_safe raw false c ((List.dropWhile_sublist _).mem (mem_of_trimEndMatches hc))

/-- The characters of a clamped slug are the slug's. -/
theorem mem_of_clamp {s : List Char} {max : Nat} {c : Char} (h : c ∈ clamp s max) : c ∈ s := by
  rw [clamp] at h
  split at h
  · exact h
  · exact List.mem_of_mem_take (mem_of_trimEndMatches h)

/-- A clamped name is within its bound. -/
theorem length_clamp (s : List Char) (max : Nat) : (clamp s max).length ≤ max := by
  rw [clamp]
  split
  · assumption
  · have hdrop := (List.dropWhile_sublist (fun c => c == '_' || c == '-')
      (l := (s.take max).reverse)).length_le
    rw [trimEndMatches, List.length_reverse]
    rw [List.length_reverse] at hdrop
    exact hdrop.trans (List.length_take_le ..)

/-- Two names composed have only characters of the wire. -/
theorem compose_safe {e t : List Char} {budget : Nat} (he : ∀ c ∈ e, wireChar c = true)
    (ht : ∀ c ∈ t, wireChar c = true) : ∀ c ∈ compose e t budget, wireChar c = true := by
  have hclamp : ∀ max, ∀ c ∈ clamp t max, wireChar c = true := fun _ c hc => ht c (mem_of_clamp hc)
  have hclamp' : ∀ max, ∀ c ∈ clamp e max, wireChar c = true := fun _ c hc => he c (mem_of_clamp hc)
  have hsep : ∀ c ∈ separator, wireChar c = true := List.all_eq_true.mp (by decide +kernel)
  intro c hc
  unfold compose at hc
  dsimp only at hc
  split at hc
  · exact hclamp _ c hc
  · split at hc
    · exact hclamp _ c hc
    · split at hc
      · exact hclamp' _ c hc
      · rcases List.mem_append.mp hc with hc | hc
        · rcases List.mem_append.mp hc with hc | hc
          · exact hclamp' _ c hc
          · exact hsep c hc
        · exact hclamp _ c hc

/-- And fit the budget. -/
theorem length_compose {e t : List Char} {budget : Nat} (h : separator.length + minExtSlug ≤ budget) :
    (compose e t budget).length ≤ budget := by
  unfold compose
  dsimp only
  split
  · exact length_clamp _ _
  · have htool := length_clamp t (budget - (separator.length + min e.length minExtSlug))
    have hext := length_clamp e (budget - (separator.length +
      (clamp t (budget - (separator.length + min e.length minExtSlug))).length))
    split
    · omega
    · split
      · omega
      · simp only [List.length_append]
        have := Nat.min_le_right e.length minExtSlug
        omega

/-! ## Slugged names -/

theorem length_pairDigest (e t : List Char) : (pairDigest sha256 e t).length = digestLen := by
  rw [pairDigest, hexEncode_length, List.length_take, Vector.length_toList]
  rfl

/-- Its digits are characters of the wire. -/
theorem hexLower_safe {c : Char} (h : hexLower c = true) : wireChar c = true := by
  simp only [hexLower, Bool.or_eq_true, Bool.and_eq_true, decide_eq_true_eq] at h
  simp only [wireChar, isAsciiAlphanumeric, Bool.or_eq_true, Bool.and_eq_true, decide_eq_true_eq]
  refine .inl (.inl (.inl ?_))
  rcases h with ⟨h₁, h₂⟩ | ⟨h₁, h₂⟩
  · exact .inl ⟨h₁, h₂⟩
  · exact .inr ⟨h₁, Nat.le_trans h₂ (by decide)⟩

theorem pairDigest_safe (e t : List Char) : ∀ c ∈ pairDigest sha256 e t, wireChar c = true :=
  fun c hc => hexLower_safe (hexEncode_lower _ c hc)

/-- A slugged name ends in its digest. -/
theorem sluggedName_ends (e t : List Char) : ∃ body, sluggedName sha256 e t =
    body ++ pairDigest sha256 e t := by
  unfold sluggedName
  dsimp only
  split
  · exact ⟨[], rfl⟩
  · exact ⟨compose (slug e) (slug t) (maxWireLen - digestLen - 1) ++ ['_'], by simp⟩

/-- And so is a slugged name. -/
theorem sluggedName_safe (e t : List Char) : isWireSafe (sluggedName sha256 e t) = true := by
  have hdigest := pairDigest_safe sha256 e t
  have hlen := length_pairDigest sha256 e t
  have hbody : ∀ c ∈ compose (slug e) (slug t) (maxWireLen - digestLen - 1), wireChar c = true :=
    compose_safe (slug_safe e) (slug_safe t)
  have hshort : (compose (slug e) (slug t) (maxWireLen - digestLen - 1)).length ≤
      maxWireLen - digestLen - 1 := length_compose (by decide)
  have hsafe : ∀ c ∈ sluggedName sha256 e t, wireChar c = true := by
    intro c hc
    unfold sluggedName at hc
    dsimp only at hc
    split at hc
    · exact hdigest c hc
    · rcases List.mem_append.mp hc with hc | hc
      · exact hbody c hc
      · rcases List.mem_cons.mp hc with rfl | hc
        · rfl
        · exact hdigest c hc
  have hle : (sluggedName sha256 e t).length ≤ maxWireLen := by
    unfold sluggedName
    dsimp only
    split
    · rw [hlen]
      decide
    · rw [List.length_append, List.length_cons, hlen]
      simp only [maxWireLen, digestLen] at hshort ⊢
      omega
  have hne : sluggedName sha256 e t ≠ [] := by
    obtain ⟨body, hends⟩ := sluggedName_ends sha256 e t
    rw [hends]
    intro h
    have hnil := (List.append_eq_nil_iff.mp h).2
    rw [hnil] at hlen
    exact nomatch hlen
  rw [isWireSafe, byteLen_eq hsafe]
  simp only [Bool.and_eq_true, Bool.not_eq_true', List.isEmpty_eq_false_iff, decide_eq_true_eq,
    List.all_eq_true]
  exact ⟨⟨hne, hle⟩, hsafe⟩

/-- Every wire name is safe. -/
theorem wireToolName_safe (e t : List Char) : isWireSafe (wireToolName sha256 e t) = true := by
  rw [wireToolName]
  split
  · rename_i hkept
    exact hkept.1
  · exact sluggedName_safe sha256 e t

/-- Slugged names of two pairs with different digests differ. -/
theorem sluggedName_digest {e t e' t' : List Char}
    (h : sluggedName sha256 e t = sluggedName sha256 e' t') :
    pairDigest sha256 e t = pairDigest sha256 e' t' := by
  obtain ⟨body, hends⟩ := sluggedName_ends sha256 e t
  obtain ⟨body', hends'⟩ := sluggedName_ends sha256 e' t'
  rw [hends, hends'] at h
  refine (List.append_inj_right' h ?_)
  rw [length_pairDigest, length_pairDigest]

/-! ## Decoding -/

theorem wireToolName_kept {e t : List Char} (h : Kept e t) :
    wireToolName sha256 e t = encodeToolName e t := if_pos h

theorem wireToolName_slugged {e t : List Char} (h : ¬ Kept e t) :
    wireToolName sha256 e t = sluggedName sha256 e t := if_neg h

theorem Kept.pair_eq {e t e' t' : List Char} (h : Kept e t) (h' : Kept e' t')
    (heq : encodeToolName e t = encodeToolName e' t') : (e, t) = (e', t') := by
  rw [← h.2, ← h'.2, heq]

/-- The names of the tools tell them apart. -/
def Separates (tools : List LlmToolSchema) : Prop :=
  ∀ s ∈ tools, ∀ t ∈ tools, s.wire sha256 = t.wire sha256 → s.pair = t.pair

/-- What is known of the map once the tools were added: it maps their names to their pairs, and
    holds no other name. -/
structure Holds (codec : ToolNameCodec) (tools : List LlmToolSchema) : Prop where
  known : ∀ t ∈ tools, codec.byWire (t.wire sha256) = some t.pair
  only : ∀ w p, codec.byWire w = some p → ∃ t ∈ tools, t.wire sha256 = w ∧ t.pair = p

/-- One more tool whose name is its own. -/
theorem Holds.add {codec : ToolNameCodec} {seen : List LlmToolSchema} {t : LlmToolSchema}
    (h : Holds sha256 codec seen) (hsep : Separates sha256 (seen ++ [t])) :
    Holds sha256 (codec.add sha256 t) (seen ++ [t]) := by
  have hupdate : codec.add sha256 t =
      ⟨Function.update codec.byWire (t.wire sha256) (some t.pair)⟩ := by
    rw [ToolNameCodec.add]
    cases hget : codec.byWire (t.wire sha256) with
    | none => rfl
    | some existing =>
        -- a name that is already there is the tool's own
        obtain ⟨s, hs, hwire, hpair⟩ := h.only _ _ hget
        have hsame := hsep s (List.mem_append_left _ hs) t (by simp) hwire
        dsimp only
        rw [if_neg]
        rw [← hpair, hsame]
        exact not_not.mpr rfl
  rw [hupdate]
  constructor
  · intro s hs
    by_cases hwire : s.wire sha256 = t.wire sha256
    · dsimp only
      rw [hwire, Function.update_self, hsep s hs t (by simp) hwire]
    · dsimp only
      rw [Function.update_of_ne hwire]
      rcases List.mem_append.mp hs with hs | hs
      · exact h.known s hs
      · rw [List.mem_singleton.mp hs] at hwire
        exact absurd rfl hwire
  · intro w p hp
    by_cases hwire : w = t.wire sha256
    · subst hwire
      dsimp only at hp
      rw [Function.update_self] at hp
      exact ⟨t, by simp, rfl, Option.some.inj hp⟩
    · dsimp only at hp
      rw [Function.update_of_ne hwire] at hp
      obtain ⟨s, hs, hs'⟩ := h.only w p hp
      exact ⟨s, List.mem_append_left _ hs, hs'⟩

/-- All tools. -/
theorem Holds.forTools {tools : List LlmToolSchema} (hsep : Separates sha256 tools) :
    Holds sha256 (.forTools sha256 tools) tools := by
  have hrun : ∀ (rest seen : List LlmToolSchema) (codec : ToolNameCodec), Holds sha256 codec seen →
      Separates sha256 (seen ++ rest) →
      Holds sha256 (rest.foldl (fun codec t => codec.add sha256 t) codec) (seen ++ rest) := by
    intro rest
    induction rest with
    | nil =>
        intro seen codec h _
        rw [List.append_nil]
        exact h
    | cons t rest ih =>
        intro seen codec h hsep
        have hsplit : seen ++ t :: rest = (seen ++ [t]) ++ rest := by simp
        rw [hsplit] at hsep ⊢
        refine ih _ _ (h.add sha256 ?_) hsep
        intro a ha b hb
        exact hsep a (List.mem_append_left _ ha) b (List.mem_append_left _ hb)
  refine hrun tools [] _ ⟨(fun _ ht => nomatch ht), ?_⟩ hsep
  intro w p hp
  exact nomatch hp

/-- Every name is safe, and the names of the tools decode to the tools. -/
structure Inverts (tools : List LlmToolSchema) : Prop where
  safe : ∀ e t, isWireSafe (wireToolName sha256 e t) = true
  decode : ∀ t ∈ tools, (ToolNameCodec.forTools sha256 tools).decode
    (wireToolName sha256 t.pair.1 t.pair.2) = t.pair

/-- Names with distinct digests separate the tools, unless a kept name is a slugged one. -/
theorem separates {tools : List LlmToolSchema}
    (hdigests : (tools.map fun t => pairDigest sha256 t.pair.1 t.pair.2).Nodup)
    (h : ∀ s ∈ tools, ∀ t ∈ tools, Kept s.pair.1 s.pair.2 → ¬ Kept t.pair.1 t.pair.2 →
      encodeToolName s.pair.1 s.pair.2 ≠ sluggedName sha256 t.pair.1 t.pair.2) :
    Separates sha256 tools := by
  intro s hs t ht hwire
  unfold LlmToolSchema.wire at hwire
  by_cases hks : Kept s.pair.1 s.pair.2
  · by_cases hkt : Kept t.pair.1 t.pair.2
    · rw [wireToolName_kept sha256 hks, wireToolName_kept sha256 hkt] at hwire
      exact hks.pair_eq hkt hwire
    · rw [wireToolName_kept sha256 hks, wireToolName_slugged sha256 hkt] at hwire
      exact absurd hwire (h s hs t ht hks hkt)
  · by_cases hkt : Kept t.pair.1 t.pair.2
    · rw [wireToolName_slugged sha256 hks, wireToolName_kept sha256 hkt] at hwire
      exact absurd hwire.symm (h t ht s hs hkt hks)
    · rw [wireToolName_slugged sha256 hks, wireToolName_slugged sha256 hkt] at hwire
      have hsame : s = t := List.inj_on_of_nodup_map hdigests hs ht (sluggedName_digest sha256 hwire)
      rw [hsame]

/-- WIRE NAMES: over every list of tools with pairwise distinct digests (and so pairs), all names
    are safe, and decoding inverts them exactly when no tool keeps a name of the escape codec that
    is the slugged name of another. -/
theorem inverts_iff {tools : List LlmToolSchema}
    (hdigests : (tools.map fun t => pairDigest sha256 t.pair.1 t.pair.2).Nodup) :
    Inverts sha256 tools ↔
      ∀ s ∈ tools, ∀ t ∈ tools, Kept s.pair.1 s.pair.2 → ¬ Kept t.pair.1 t.pair.2 →
        encodeToolName s.pair.1 s.pair.2 ≠ sluggedName sha256 t.pair.1 t.pair.2 := by
  constructor
  · intro h s hs t ht hks hkt heq
    have hdecode := h.decode s hs
    rw [wireToolName_kept sha256 hks, heq, ← wireToolName_slugged sha256 hkt, h.decode t ht] at hdecode
    rw [hdecode] at hkt
    exact hkt hks
  · intro h
    have hholds := Holds.forTools sha256 (separates sha256 hdigests h)
    refine ⟨wireToolName_safe sha256, ?_⟩
    intro t ht
    have hknown := hholds.known t ht
    unfold LlmToolSchema.wire at hknown
    rw [ToolNameCodec.decode, hknown]
    rfl

end Sha

/-- A tool by its pair. -/
def named (extensionId toolName : String) : LlmToolSchema := ⟨extensionId, toolName, "", .obj []⟩

/-- A tool whose name is slugged, and one that keeps a name. -/
def quoteTools : List LlmToolSchema := [named "mcp:srv-1" "quote", named "mcp_srv-1" "quote_44ff69df"]

/-- The digests of the two tools, and of a third. -/
def quoteSha (bytes : List UInt8) : Vector UInt8 32 :=
  if bytes = utf8Bytes "mcp:srv-1\u001fquote".toList then
    (#v[68, 255, 105, 223, 214, 166, 101, 201, 214, 91, 82, 56, 176, 87, 123, 4, 100, 131, 20, 36,
      15, 165, 6, 4, 196, 30, 218, 129, 115, 8, 245, 148])
  else if bytes = utf8Bytes "mcp_srv-1\u001fquote_44ff69df".toList then
    (#v[5, 226, 124, 158, 12, 205, 17, 177, 32, 22, 195, 166, 234, 197, 186, 63, 209, 26, 244, 120,
      76, 102, 112, 223, 78, 126, 180, 20, 118, 12, 212, 120])
  else if bytes = utf8Bytes "http\u001ffetch".toList then
    (#v[221, 186, 198, 197, 220, 222, 197, 138, 1, 157, 182, 82, 69, 17, 62, 65, 166, 240, 117, 88,
      12, 121, 152, 107, 21, 145, 219, 139, 213, 57, 27, 236])
  else Vector.replicate 32 0

/-- A tool with a slugged name and one with a kept name decode back. -/
theorem inverts_iff_fetch : Inverts quoteSha [named "mcp:srv-1" "quote", named "http" "fetch"] := by
  refine (inverts_iff quoteSha (by decide +kernel)).mpr ?_
  decide +kernel

/-- The second tool keeps the name that the first one is given. -/
theorem quoteTools_collide :
    (quoteTools.map fun t => pairDigest quoteSha t.pair.1 t.pair.2).Nodup ∧
      ¬ Inverts quoteSha quoteTools := by
  constructor
  · decide +kernel
  · intro h
    have hdecode := h.decode (named "mcp_srv-1" "quote_44ff69df") (by simp [quoteTools])
    revert hdecode
    decide +kernel

end Greentic.Tools
