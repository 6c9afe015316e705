import GreenticRunner.TextCodec

/-! # Packs and their cache

    `packs/mod.rs`, `packs/cache.rs` and `packs/index.rs`: an index entry names a pack, its version
    or digest and where it is fetched from.  `resolve_entry` finds the archive in the cache or
    fetches it, checks its digest and its signature and opens it.

    * `Cache`, `lookup`, `store`, `pruneStale` — the cache, keyed by name, version and digest;
    * `verifySignature`, `resolveEntry`;
    * `SpellingFree`, `spellingFree_iff`, `signedPin_rejected`. -/

namespace Greentic.Packs

open TextCodec

/-- A text. -/
abbrev Text : Type := List Char

/-- `str::to_ascii_lowercase`. -/
def lower (s : Text) : Text := s.map Char.toLower

/-- `str::eq_ignore_ascii_case`. -/
def eqIgnoreCase (a b : Text) : Bool := decide (lower a = lower b)

/-! ## Entries -/

/-- `PackDigest`. -/
structure PackDigest where
  raw : Text
  algorithm : Text
  value : Text
  deriving DecidableEq

/-- `PackDigest::parse`. -/
def PackDigest.parse (raw : Text) : Except String PackDigest :=
  if ':' ∈ raw then
    let algorithm := raw.takeWhile (· ≠ ':')
    let value := (raw.dropWhile (· ≠ ':')).drop 1
    if algorithm = [] ∨ value = [] then
      .error ("invalid digest format `" ++ String.ofList raw ++ "`")
    else .ok ⟨raw, lower algorithm, value⟩
  else .error ("invalid digest `" ++ String.ofList raw ++ "`; expected algo:value")

/-- `PackDigest::cache_label`. -/
def PackDigest.cacheLabel (d : PackDigest) : Text := d.raw.map fun c => if c = ':' then '_' else c

/-- `PackVersion`; a version is its canonical text. -/
inductive PackVersion where
  | semver (text : Text)
  | digest (d : PackDigest)
  deriving DecidableEq

/-- `PackVersion::cache_label`. -/
def PackVersion.cacheLabel : PackVersion → Text
  | .semver text => text
  | .digest d => d.cacheLabel

/-- `PackVersion::as_digest`. -/
def PackVersion.asDigest : PackVersion → Option PackDigest
  | .digest d => some d
  | .semver _ => none

/-- `PackRef`. -/
structure PackRef where
  name : Text
  version : PackVersion
  deriving DecidableEq

/-- `PackEntry`. -/
structure PackEntry where
  reference : PackRef
  locator : Text
  contentDigest : Option PackDigest
  signature : Option String

/-- The digest an entry pins. -/
def PackEntry.pinned (e : PackEntry) : Option PackDigest :=
  e.contentDigest.or e.reference.version.asDigest

/-- `RawPackEntry`. -/
structure RawPackEntry where
  name : Text
  version : Option Text
  digest : Option Text
  locator : Text
  signature : Option String

/-- `validate_pack_name`. -/
def validPackName (name : Text) : Bool :=
  !(name.isEmpty || decide (name = ['.']) || decide (name = ['.', '.']) || name.contains '\x00')

/-- `parse_version_and_digest`; `semver` is `Version::parse` with the text of the version. -/
def parseVersionAndDigest (semver : Text → Option Text) (version digest : Option Text) :
    Except String (PackVersion × Option PackDigest) :=
  match version, digest with
  | some v, digest =>
      match semver v with
      | none => .error ("invalid semver version `" ++ String.ofList v ++ "`")
      | some text =>
          match digest with
          | none => .ok (.semver text, none)
          | some d => (PackDigest.parse d).map fun parsed => (.semver text, some parsed)
  | none, some d => (PackDigest.parse d).map fun parsed => (.digest parsed, some parsed)
  | none, none => .error "pack entry is missing version or digest pin"

/-- `RawPackEntry::into_entry`, with the locator already joined to the directory of the index. -/
def RawPackEntry.intoEntry (semver : Text → Option Text) (raw : RawPackEntry) :
    Except String PackEntry :=
  if validPackName raw.name then
    (parseVersionAndDigest semver raw.version raw.digest).map fun (version, digest) =>
      ⟨⟨raw.name, version⟩, raw.locator, digest, raw.signature⟩
  else .error ("invalid pack name `" ++ String.ofList raw.name ++
    "`: must be non-empty, not `.`/`..`, and contain no NUL")

/-! ## The cache -/

/-- A directory below the root of the cache. -/
abbrev Dir : Type := List Text

/-- A `pack.gtpack`. -/
structure Archive where
  bytes : List UInt8
  readable : Bool
  mtime : Nat

/-- A directory with its archive. -/
structure Slot where
  dir : Dir
  archive : Option Archive
  dirTime : Nat

/-- The directories of the cache, in the order in which they are listed. -/
abbrev Cache : Type := List Slot

/-- `last_used`. -/
def Slot.lastUsed (s : Slot) : Nat := s.archive.elim s.dirTime Archive.mtime

/-- `is_idle`. -/
def isIdle (used now minIdle : Nat) : Bool := decide (minIdle < now - used)

/-- `PRUNE_MIN_IDLE`, in nanoseconds. -/
def pruneMinIdleDefault : Nat := 60 * 60 * 10 ^ 9

/-- `prune_min_idle`. -/
def pruneMinIdle : Option Nat → Nat
  | some interval => max pruneMinIdleDefault (interval * 2)
  | none => pruneMinIdleDefault

/-- `KEEP_RECENT_SIBLINGS`. -/
def keepRecentSiblings : Nat := 2

/-- A directory of one digest. -/
def isDigestDir (dir : Dir) : Bool :=
  match dir.getLast? with
  | some name => "sha256_".toList.isPrefixOf name
  | none => false

namespace Cache

/-- The directory `dir`. -/
def slot? (c : Cache) (dir : Dir) : Option Slot := c.find? fun s => decide (s.dir = dir)

/-- The archive in `dir`. -/
def archive? (c : Cache) (dir : Dir) : Option Archive := (c.slot? dir).bind Slot.archive

/-- A directory is written. -/
def put (c : Cache) (slot : Slot) : Cache := c.filter (fun s => decide (s.dir ≠ slot.dir)) ++ [slot]

/-- `touch`. -/
def touch (c : Cache) (dir : Dir) (now : Nat) : Cache :=
  c.map fun s =>
    if s.dir = dir then { s with archive := s.archive.map fun a => { a with mtime := now } } else s

/-- The digest directories next to `current`. -/
def siblings (c : Cache) (current : Dir) : List Slot :=
  c.filter fun s => decide (s.dir ≠ current) && decide (s.dir.dropLast = current.dropLast) &&
    decide (s.dir.length = current.length) && isDigestDir s.dir

/-- The directories that `prune_stale` removes. -/
def stale (c : Cache) (current : Dir) (now minIdle : Nat) : List Dir :=
  let newestFirst := (c.siblings current).insertionSort fun a b => b.lastUsed ≤ a.lastUsed
  ((newestFirst.drop keepRecentSiblings).filter fun s => isIdle s.lastUsed now minIdle).map Slot.dir

/-- `prune_stale`. -/
def pruneStale (c : Cache) (current : Dir) (now minIdle : Nat) : Cache :=
  let removed := c.stale current now minIdle
  -- the archive of the layout without digests lies in the parent
  let dropLegacy := fun s : Slot =>
    if s.dir = current.dropLast && !isDigestDir s.dir && isIdle s.lastUsed now minIdle then
      { s with archive := none }
    else s
  (c.map dropLegacy).filter fun s => decide (s.dir ∉ removed)

end Cache

/-! ## Resolving an entry -/

/-- `PackPolicy`, as far as resolving reads it. -/
structure PackPolicy where
  verifyStrict : Bool
  allowLegacySignatures : Bool

/-- `PackSource`: the file system or a remote one. -/
inductive PackSource where
  | fs
  | remote

/-- `PackManager`: SHA-256, the keys with their verification (an error text, or none), `open_pack`,
    the policy and the idle threshold of the cache. -/
structure Manager (κ μ : Type) where
  sha256 : List UInt8 → Vector UInt8 32
  keys : List κ
  verify : κ → Text → String → Option String
  openPack : List UInt8 → Except String μ
  policy : PackPolicy
  source : PackSource
  minIdle : Nat

/-- What the outside does while one entry is resolved: the resolvers, the clock, and a write of the
    cache that fails. -/
structure Outside where
  fetch : Text → Except String (List UInt8)
  now : Nat
  storeFault : Option String

/-- `ResolvedPack`. -/
structure ResolvedPack (μ : Type) where
  reference : PackRef
  locator : Text
  path : Dir
  manifest : μ
  digest : PackDigest

section Resolve

variable {κ μ : Type} (m : Manager κ μ)

/-- `compute_digest`. -/
def computeDigest (bytes : List UInt8) : PackDigest :=
  let hex := hexEncode (m.sha256 bytes).toList
  ⟨"sha256:".toList ++ hex, "sha256".toList, hex⟩

/-- `sanitize_segment`. -/
def sanitizeSegment (value : Text) : Text :=
  let mapped :=
    if value = ['.'] ∨ value = ['.', '.'] then ['_']
    else value.map fun c => if c = '/' ∨ c = '\\' ∨ c = ':' then '_' else c
  if mapped = value then mapped
  else mapped ++ ['-'] ++
    hexEncode ((m.sha256 (String.ofList value).toUTF8.data.toList).toList.take 4)

/-- `dir_for`. -/
def dirFor (reference : PackRef) (content : PackDigest) : Dir :=
  match reference.version with
  | .semver version => [sanitizeSegment m reference.name, version, lower content.cacheLabel]
  | .digest d => [sanitizeSegment m reference.name, lower d.cacheLabel]

/-- `lookup`: a hit is used now, and has the digest of its bytes. -/
def lookup (c : Cache) (reference : PackRef) (digest : PackDigest) : Option (Dir × List UInt8) :=
  let dir := dirFor m reference digest
  match c.archive? dir with
  | none => none
  | some a =>
      if a.readable && eqIgnoreCase (computeDigest m a.bytes).raw digest.raw then some (dir, a.bytes)
      else none

/-- `create_dir_all`. -/
def Cache.created (c : Cache) (dir : Dir) (now : Nat) : Cache :=
  if (c.slot? dir).isSome then c else c.put ⟨dir, none, now⟩

/-- `copy_atomic` and the pruning after it. -/
def copyIn (c : Cache) (out : Outside) (dir : Dir) (source : List UInt8) : Except String Dir × Cache :=
  match out.storeFault with
  | some fault => (.error fault, c)
  | none =>
      (.ok dir,
        (c.put ⟨dir, some ⟨source, true, out.now⟩, out.now⟩).pruneStale dir out.now m.minIdle)

/-- `store`, for the bytes at `source`. -/
def store (c : Cache) (out : Outside) (entry : PackEntry) (source : List UInt8) (digest : PackDigest) :
    Except String Dir × Cache :=
  let dir := dirFor m entry.reference digest
  let c := c.created dir out.now
  match c.archive? dir with
  | none => copyIn m c out dir source
  | some a =>
      if !a.readable then (.error "failed to open the cached pack for hashing", c)
      else if eqIgnoreCase (computeDigest m a.bytes).raw digest.raw then
        (.ok dir, c.touch dir out.now)
      else copyIn m c out dir source

/-- `canonical_signing_message`. -/
def canonicalSigningMessage (reference : PackRef) (digest : PackDigest) : Text :=
  "greentic-pack-sig-v1\nname=".toList ++ reference.name ++ "\nversion=".toList ++
    reference.version.cacheLabel ++ "\ndigest=".toList ++ digest.raw

/-- Some key verifies the message. -/
def verifies (message : Text) (signature : String) : Bool :=
  m.keys.any fun key => (m.verify key message signature).isNone

/-- `verify_signature`. -/
def verifySignature (entry : PackEntry) (digest : PackDigest) : Except String Unit :=
  if m.keys.isEmpty then .ok ()
  else
    match entry.signature with
    | none => .error ("signature missing for pack " ++ String.ofList entry.reference.name ++
        " but a public key is configured")
    | some signature =>
        if verifies m (canonicalSigningMessage entry.reference digest) signature then .ok ()
        else if verifies m digest.raw signature then
          if m.policy.verifyStrict && !m.policy.allowLegacySignatures then
            .error ("pack " ++ String.ofList entry.reference.name ++
              " carries a legacy digest-only signature; re-sign with the canonical \x7bname, version, digest\x7d message or set PACK_ALLOW_LEGACY_SIGNATURES=1")
          else .ok ()
        else .error ("no configured public key verified the signature for pack " ++
          String.ofList entry.reference.name)

/-- `PackLocator::with_fallback`. -/
def withFallback (source : PackSource) (locator : Text) : Except String Text :=
  if "://".toList <:+: locator then .ok locator
  else
    match source with
    | .fs => .ok ("fs://".toList ++ locator)
    | .remote => .error "pack locator missing scheme"

/-- `open_resolved`. -/
def openResolved (entry : PackEntry) (locator : Text) (dir : Dir) (bytes : List UInt8)
    (digest : PackDigest) : Except String (ResolvedPack μ) :=
  match m.openPack bytes with
  | .error message => .error ("failed to open cached pack " ++
      String.ofList (List.intercalate ['/'] dir) ++ ": " ++ message)
  | .ok manifest => .ok ⟨entry.reference, locator, dir, manifest, digest⟩

/-- The archive is fetched. -/
def fetchEntry (c : Cache) (out : Outside) (entry : PackEntry) (locator : Text) :
    Except String (ResolvedPack μ) × Cache :=
  match out.fetch locator with
  | .error _ => (.error ("resolver failed for " ++ String.ofList locator), c)
  | .ok bytes =>
      let fetched := computeDigest m bytes
      match entry.pinned.filter fun expected => !eqIgnoreCase expected.raw fetched.raw with
      | some expected =>
          (.error ("digest mismatch for " ++ String.ofList entry.reference.name ++ ": expected " ++
            String.ofList expected.raw ++ ", found " ++ String.ofList fetched.raw), c)
      | none =>
          match verifySignature m entry fetched with
          | .error e => (.error e, c)
          | .ok () =>
              match store m c out entry bytes fetched with
              | (.error e, c') => (.error e, c')
              | (.ok dir, c') =>
                  match c'.archive? dir with
                  | some a => (openResolved m entry locator dir a.bytes fetched, c')
                  | none => (.error "failed to open cached pack", c')

/-- `resolve_entry`. -/
def resolveEntry (c : Cache) (out : Outside) (entry : PackEntry) :
    Except String (ResolvedPack μ) × Cache :=
  match withFallback m.source entry.locator with
  | .error e => (.error e, c)
  | .ok locator =>
      if m.policy.verifyStrict && entry.pinned.isNone &&
          !"fs://".toList.isPrefixOf (lower locator) then
        (.error ("strict verification requires a pinned digest for remote pack " ++
          String.ofList entry.reference.name), c)
      else
        match entry.pinned.bind (lookup m c entry.reference) with
        | some (dir, bytes) =>
            let c' := c.touch dir out.now
            match verifySignature m entry (computeDigest m bytes) with
            | .error e => (.error e, c')
            | .ok () => (openResolved m entry locator dir bytes (computeDigest m bytes), c')
        | none => fetchEntry m c out entry locator

end Resolve

/-! ## The cache after an operation -/

namespace Cache

variable {c : Cache} {dir current : Dir} {now minIdle : Nat}

theorem slot?_dir {s : Slot} (h : c.slot? dir = some s) : s.dir = dir := by
  rw [slot?] at h
  have htest := List.find?_some h
  exact of_decide_eq_true htest

/-- A filter that lets `dir` through. -/
theorem slot?_filter (c : Cache) {keep : Slot → Bool} (hk : ∀ s : Slot, s.dir = dir → keep s = true) :
    Cache.slot? (c.filter keep) dir = c.slot? dir := by
  rw [slot?, slot?, List.find?_filter]
  congr 1
  funext s
  by_cases hs : s.dir = dir
  · simp [hs, hk s hs]
  · simp [hs]

/-- A slot is found where it was written. -/
theorem slot?_put_self (c : Cache) (slot : Slot) : (c.put slot).slot? slot.dir = some slot := by
  have hnone : (c.filter fun s => decide (s.dir ≠ slot.dir)).find?
      (fun s => decide (s.dir = slot.dir)) = none := by
    rw [List.find?_eq_none]
    intro s hs
    have hne := of_decide_eq_true (List.mem_filter.mp hs).2
    rw [decide_eq_false hne]
    exact Bool.false_ne_true
  rw [slot?, put, List.find?_append, hnone, Option.none_or, List.find?_singleton,
    if_pos (decide_eq_true rfl)]

/-- The others are where they were. -/
theorem slot?_put_of_ne (c : Cache) {slot : Slot} (hne : dir ≠ slot.dir) :
    (c.put slot).slot? dir = c.slot? dir := by
  have hlast : ([slot] : List Slot).find? (fun s => decide (s.dir = dir)) = none := by
    rw [List.find?_eq_none]
    intro s hs
    rw [List.mem_singleton.mp hs, decide_eq_false (Ne.symm hne)]
    exact Bool.false_ne_true
  rw [slot?, put, List.find?_append, hlast, Option.or_none]
  exact slot?_filter c fun s hs => decide_eq_true (hs ▸ hne)

/-- A change of every directory that keeps the names. -/
theorem slot?_map (c : Cache) {f : Slot → Slot} (hf : ∀ s, (f s).dir = s.dir) :
    Cache.slot? (c.map f) dir = (c.slot? dir).map f := by
  rw [slot?, slot?, List.find?_map]
  congr 2
  funext s
  rw [Function.comp_apply, hf]

/-- A touch sets the time of its own archive. -/
theorem archive?_touch (c : Cache) (touched : Dir) :
    (c.touch touched now).archive? dir =
      if dir = touched then (c.archive? dir).map fun a => { a with mtime := now }
      else c.archive? dir := by
  have hmap : (c.touch touched now).slot? dir = (c.slot? dir).map fun s =>
      if s.dir = touched then
        { s with archive := s.archive.map fun a => { a with mtime := now } } else s := by
    refine slot?_map c fun s => ?_
    split <;> rfl
  rw [archive?, hmap, archive?]
  cases hs : c.slot? dir with
  | none => split <;> rfl
  | some s =>
      have hdir : s.dir = dir := slot?_dir hs
      rw [Option.map_some, Option.bind_some, Option.bind_some, hdir]
      split <;> rfl

/-- What is pruned lies next to the current directory, is not one of the newest and is idle. -/
theorem mem_stale (h : dir ∈ c.stale current now minIdle) :
    ∃ s ∈ c, s.dir = dir ∧ dir ≠ current ∧ dir.length = current.length ∧
      isIdle s.lastUsed now minIdle = true := by
  obtain ⟨s, hs, rfl⟩ := List.mem_map.mp h
  obtain ⟨hdrop, hidle⟩ := List.mem_filter.mp hs
  have hsib := (List.mem_insertionSort _).mp (List.mem_of_mem_drop hdrop)
  obtain ⟨hc, htest⟩ := List.mem_filter.mp hsib
  simp only [Bool.and_eq_true, decide_eq_true_eq] at htest
  exact ⟨s, hc, rfl, htest.1.1.1, htest.1.2, hidle⟩

/-- A directory that is not pruned stays as it is, unless it is an idle one without a digest. -/
theorem slot?_pruneStale (hkept : dir ∉ c.stale current now minIdle)
    (hlegacy : dir ≠ current.dropLast ∨
      ∀ s, c.slot? dir = some s → isIdle s.lastUsed now minIdle = false) :
    (c.pruneStale current now minIdle).slot? dir = c.slot? dir := by
  unfold pruneStale
  dsimp only
  rw [slot?_filter _ fun s hs => decide_eq_true (hs ▸ hkept), slot?_map c fun s => by split <;> rfl]
  cases hs : c.slot? dir with
  | none => rfl
  | some s =>
      have hdir : s.dir = dir := slot?_dir hs
      rw [Option.map_some, hdir]
      rcases hlegacy with hparent | hlive
      · rw [decide_eq_false hparent]
        rfl
      · rw [hlive s hs, Bool.and_false]
        rfl

end Cache

/-! ## Spellings of one digest -/

theorem toLower_ascii : ∀ n < 128, ((Char.ofNat n).toLower = ':' ↔ Char.ofNat n = ':') ∧
    (hexLower (Char.ofNat n) = true → (Char.ofNat n).toLower = Char.ofNat n) := by decide

theorem toLower_colon (c : Char) : (c.toLower = ':') ↔ c = ':' := by
  by_cases hlt : c.toNat < 128
  · have h := (toLower_ascii c.toNat hlt).1
    rwa [Char.ofNat_toNat] at h
  · rw [toLower_nonAscii (by omega)]

/-- The cache label of a spelling in lower case. -/
theorem lower_cacheLabel (d : PackDigest) :
    lower d.cacheLabel = (lower d.raw).map fun c => if c = ':' then '_' else c := by
  unfold lower PackDigest.cacheLabel
  rw [List.map_map, List.map_map]
  refine List.map_congr_left fun c _ => ?_
  rw [Function.comp_apply, Function.comp_apply]
  by_cases hc : c = ':'
  · rw [if_pos hc, if_pos ((toLower_colon c).mpr hc)]
    rfl
  · rw [if_neg hc, if_neg fun h => hc ((toLower_colon c).mp h)]

theorem hexLower_toLower {c : Char} (h : hexLower c = true) : c.toLower = c := by
  have hlt : c.toNat < 128 := by
    simp only [hexLower, Bool.or_eq_true, Bool.and_eq_true, decide_eq_true_eq] at h
    omega
  have hascii := (toLower_ascii c.toNat hlt).2
  rw [Char.ofNat_toNat] at hascii
  exact hascii h

section Same

variable {κ μ : Type} {m : Manager κ μ}

/-- A computed digest is spelled in lower case. -/
theorem lower_computeDigest (bytes : List UInt8) :
    lower (computeDigest m bytes).raw = (computeDigest m bytes).raw := by
  have hhex : lower (hexEncode (m.sha256 bytes).toList) = hexEncode (m.sha256 bytes).toList :=
    (List.map_congr_left fun c hc => hexLower_toLower (hexEncode_lower _ c hc)).trans (List.map_id _)
  unfold computeDigest
  dsimp only
  rw [lower, List.map_append]
  rw [lower] at hhex
  rw [hhex]
  rfl

/-- Digests that agree up to case are the same computed digest. -/
theorem computeDigest_eq {a b : List UInt8}
    (h : lower (computeDigest m a).raw = lower (computeDigest m b).raw) :
    computeDigest m a = computeDigest m b := by
  rw [lower_computeDigest, lower_computeDigest] at h
  have hhex : hexEncode (m.sha256 a).toList = hexEncode (m.sha256 b).toList :=
    List.append_cancel_left h
  unfold computeDigest
  dsimp only
  rw [hhex]

/-- Archives of one digest have one hash. -/
theorem sha256_eq {a b : List UInt8} (h : computeDigest m a = computeDigest m b) :
    m.sha256 a = m.sha256 b := by
  have hhex : hexEncode (m.sha256 a).toList = hexEncode (m.sha256 b).toList :=
    congrArg PackDigest.value h
  have hdec := congrArg hexDecode hhex
  rw [hexDecode_encode, hexDecode_encode] at hdec
  exact Vector.toList_inj.mp (Option.some.inj hdec)

/-- Two entries of one identity, whose pins differ in case at most. -/
structure SamePin (e e' : PackEntry) (p p' : PackDigest) : Prop where
  name : e'.reference.name = e.reference.name
  locator : e'.locator = e.locator
  signature : e'.signature = e.signature
  pin : e.contentDigest = some p
  pin' : e'.contentDigest = some p'
  spelled : lower p'.raw = lower p.raw
  version : (∃ v, e.reference.version = .semver v ∧ e'.reference.version = .semver v) ∨
    e.reference.version = .digest p ∧ e'.reference.version = .digest p'

/-- A digest is kept as it was written. -/
theorem parse_raw {raw : Text} {d : PackDigest} (h : PackDigest.parse raw = .ok d) : d.raw = raw := by
  unfold PackDigest.parse at h
  split at h
  · dsimp only at h
    split at h
    · exact nomatch h
    · cases h
      rfl
  · exact nomatch h

/-- Entries of an index that differ in the case of their digest. -/
theorem SamePin.of_raw {semver : Text → Option Text} {raw : RawPackEntry} {d d' : Text}
    {e e' : PackEntry} (hd : raw.digest = some d) (hcase : eqIgnoreCase d d' = true)
    (h : raw.intoEntry semver = .ok e) (h' : { raw with digest := some d' }.intoEntry semver = .ok e') :
    ∃ p p', SamePin e e' p p' := by
  have hspell : ∀ {p p' : PackDigest}, PackDigest.parse d = .ok p → PackDigest.parse d' = .ok p' →
      lower p'.raw = lower p.raw := by
    intro p p' hp hp'
    rw [parse_raw hp, parse_raw hp']
    exact (of_decide_eq_true hcase).symm
  obtain ⟨name, version, digest, locator, signature⟩ := raw
  dsimp only at hd
  subst hd
  unfold RawPackEntry.intoEntry at h h'
  dsimp only at h h'
  split at h
  · rename_i hname
    rw [if_pos hname] at h'
    unfold parseVersionAndDigest at h h'
    cases version with
    | some v =>
        dsimp only at h h'
        cases hv : semver v with
        | none =>
            rw [hv] at h
            exact nomatch h
        | some text =>
            rw [hv] at h h'
            dsimp only at h h'
            cases hp : PackDigest.parse d with
            | error _ =>
                rw [hp] at h
                exact nomatch h
            | ok p =>
                cases hp' : PackDigest.parse d' with
                | error _ =>
                    rw [hp'] at h'
                    exact nomatch h'
                | ok p' =>
                    rw [hp] at h
                    rw [hp'] at h'
                    cases h
                    cases h'
                    exact ⟨p, p', rfl, rfl, rfl, rfl, rfl, hspell hp hp', .inl ⟨text, rfl, rfl⟩⟩
    | none =>
        dsimp only at h h'
        cases hp : PackDigest.parse d with
        | error _ =>
            rw [hp] at h
            exact nomatch h
        | ok p =>
            cases hp' : PackDigest.parse d' with
            | error _ =>
                rw [hp'] at h'
                exact nomatch h'
            | ok p' =>
                rw [hp] at h
                rw [hp'] at h'
                cases h
                cases h'
                exact ⟨p, p', rfl, rfl, rfl, rfl, rfl, hspell hp hp', .inr ⟨rfl, rfl⟩⟩
  · exact nomatch h

/-- The place of an archive does not depend on the spelling. -/
theorem SamePin.dirFor_eq {e e' : PackEntry} {p p' x x' : PackDigest} (h : SamePin e e' p p')
    (hx : lower x'.raw = lower x.raw) : dirFor m e'.reference x' = dirFor m e.reference x := by
  unfold dirFor
  rcases h.version with ⟨v, hv, hv'⟩ | ⟨hv, hv'⟩
  · rw [hv, hv', h.name]
    dsimp only
    rw [lower_cacheLabel, lower_cacheLabel, hx]
  · rw [hv, hv', h.name]
    dsimp only
    rw [lower_cacheLabel, lower_cacheLabel, h.spelled]

/-- A resolver serves bytes that hash to the pin of the entry, the cache can be written, and bytes
    in its place with the same hash are the same. -/
structure Serves (m : Manager κ μ) (c : Cache) (out : Outside) (e : PackEntry) (p : PackDigest)
    (locator : Text) (bytes : List UInt8) : Prop where
  located : withFallback m.source e.locator = .ok locator
  fetch : out.fetch locator = .ok bytes
  pinned : lower (computeDigest m bytes).raw = lower p.raw
  writes : out.storeFault = none
  collisionFree : ∀ a, c.archive? (dirFor m e.reference p) = some a →
    m.sha256 a.bytes = m.sha256 bytes → a.bytes = bytes

/-- The file in `dir` cannot be read. -/
def Cache.unreadable (c : Cache) (dir : Dir) : Bool := (c.archive? dir).any fun a => !a.readable

/-- What becomes of an entry whose bytes are there or served. -/
def verdict (m : Manager κ μ) (e : PackEntry) (locator : Text) (dir : Dir) (bytes : List UInt8)
    (unreadable : Bool) : Except String (ResolvedPack μ) :=
  match verifySignature m e (computeDigest m bytes) with
  | .error x => .error x
  | .ok () =>
      if unreadable then .error "failed to open the cached pack for hashing"
      else openResolved m e locator dir bytes (computeDigest m bytes)

variable {c : Cache} {out : Outside} {e e' : PackEntry} {p p' : PackDigest} {locator : Text}
  {bytes : List UInt8}

theorem SamePin.refl (h : SamePin e e' p p') : SamePin e e p p :=
  ⟨rfl, rfl, rfl, h.pin, h.pin, rfl,
    h.version.imp (fun ⟨v, hv, _⟩ => ⟨v, hv, hv⟩) (fun hv => ⟨hv.1, hv.1⟩)⟩

theorem dirFor_length (reference : PackRef) (x : PackDigest) : dirFor m reference x ≠ [] := by
  unfold dirFor
  split
  · exact List.cons_ne_nil _ _
  · exact List.cons_ne_nil _ _

/-- A copy is in its place after the cache is pruned. -/
theorem archive?_copied (c : Cache) (slot : Slot) (hne : slot.dir ≠ []) (now minIdle : Nat) :
    ((c.put slot).pruneStale slot.dir now minIdle).archive? slot.dir = slot.archive := by
  have hkept : slot.dir ∉ (c.put slot).stale slot.dir now minIdle := by
    intro hmem
    obtain ⟨_, _, _, hself, _⟩ := Cache.mem_stale hmem
    exact hself rfl
  have hparent : slot.dir ≠ slot.dir.dropLast := by
    intro heq
    have hlen := congrArg List.length heq
    have hpos := List.length_pos_of_ne_nil hne
    rw [List.length_dropLast] at hlen
    omega
  rw [Cache.archive?, Cache.slot?_pruneStale hkept (.inl hparent), Cache.slot?_put_self]
  rfl

theorem archive?_created (c : Cache) (dir : Dir) (now : Nat) :
    (c.created dir now).archive? dir = c.archive? dir := by
  unfold Cache.created
  split
  · rfl
  · rename_i hno
    rw [Cache.archive?, Cache.slot?_put_self, Cache.archive?, Option.not_isSome_iff_eq_none.mp hno]
    rfl

/-- A copy that was made is there. -/
theorem copyIn_ok (hw : out.storeFault = none) {dir : Dir} (hne : dir ≠ []) (c : Cache) :
    (copyIn m c out dir bytes).1 = .ok dir ∧
      (copyIn m c out dir bytes).2.archive? dir = some ⟨bytes, true, out.now⟩ := by
  unfold copyIn
  rw [hw]
  exact ⟨rfl, archive?_copied c ⟨dir, _, _⟩ hne _ _⟩

/-- `store` into a place with nothing that matches. -/
theorem store_copies (hw : out.storeFault = none) {digest : PackDigest} {dir : Dir}
    (hdir : dirFor m e.reference digest = dir)
    (hmiss : ∀ a, c.archive? dir = some a → a.readable = true ∧
      eqIgnoreCase (computeDigest m a.bytes).raw digest.raw = false) :
    (store m c out e bytes digest).1 = .ok dir ∧
      (store m c out e bytes digest).2.archive? dir = some ⟨bytes, true, out.now⟩ := by
  have hne : dir ≠ [] := hdir ▸ dirFor_length _ _
  unfold store
  dsimp only
  rw [hdir, archive?_created]
  cases ha : c.archive? dir with
  | none => exact copyIn_ok hw hne _
  | some a =>
      obtain ⟨hr, hm⟩ := hmiss a ha
      dsimp only
      rw [hr, hm]
      exact copyIn_ok hw hne _

/-- An entry that cannot be read is an error. -/
theorem store_unreadable {digest : PackDigest} {dir : Dir} (hdir : dirFor m e.reference digest = dir)
    (hun : c.unreadable dir = true) :
    (store m c out e bytes digest).1 = .error "failed to open the cached pack for hashing" := by
  unfold store
  dsimp only
  rw [hdir, archive?_created]
  unfold Cache.unreadable at hun
  cases ha : c.archive? dir with
  | none =>
      rw [ha] at hun
      exact nomatch hun
  | some a =>
      rw [ha] at hun
      dsimp only [Option.any_some] at hun ⊢
      rw [hun]
      rfl

/-- The entry is fetched. -/
theorem fetchEntry_served (hp : e.pinned = some p) (hs : Serves m c out e p locator bytes)
    (hdir : dirFor m e.reference (computeDigest m bytes) = dirFor m e.reference p)
    (hmiss : ∀ a, c.archive? (dirFor m e.reference p) = some a → a.readable = true →
      eqIgnoreCase (computeDigest m a.bytes).raw (computeDigest m bytes).raw = false) :
    (fetchEntry m c out e locator).1 =
        verdict m e locator (dirFor m e.reference p) bytes (c.unreadable (dirFor m e.reference p)) ∧
      ∀ pack, (fetchEntry m c out e locator).1 = .ok pack →
        ((fetchEntry m c out e locator).2.archive? (dirFor m e.reference p)).map Archive.bytes =
          some bytes := by
  have hmatch : eqIgnoreCase p.raw (computeDigest m bytes).raw = true :=
    decide_eq_true hs.pinned.symm
  have hpass : e.pinned.filter (fun expected => !eqIgnoreCase expected.raw (computeDigest m bytes).raw) =
      none := by
    rw [hp, Option.filter_some, hmatch]
    rfl
  unfold fetchEntry
  rw [hs.fetch]
  dsimp only
  rw [hpass]
  dsimp only
  unfold verdict
  cases hv : verifySignature m e (computeDigest m bytes) with
  | error x => exact ⟨rfl, fun _ h => nomatch h⟩
  | ok u =>
      dsimp only
      cases hun : c.unreadable (dirFor m e.reference p) with
      | true =>
          have herr : (store m c out e bytes (computeDigest m bytes)).1 =
              .error "failed to open the cached pack for hashing" := store_unreadable hdir hun
          cases hst : store m c out e bytes (computeDigest m bytes) with
          | mk r c' =>
              rw [hst] at herr
              dsimp only at herr
              subst herr
              exact ⟨rfl, fun _ h => nomatch h⟩
      | false =>
          have hread : ∀ a, c.archive? (dirFor m e.reference p) = some a → a.readable = true := by
            intro a ha
            rw [Cache.unreadable, ha] at hun
            simpa using hun
          have hok : (store m c out e bytes (computeDigest m bytes)).1 = .ok (dirFor m e.reference p) ∧
              (store m c out e bytes (computeDigest m bytes)).2.archive? (dirFor m e.reference p) =
                some ⟨bytes, true, out.now⟩ :=
            store_copies hs.writes hdir fun a ha => ⟨hread a ha, hmiss a ha (hread a ha)⟩
          cases hst : store m c out e bytes (computeDigest m bytes) with
          | mk r c' =>
              rw [hst] at hok
              obtain ⟨hr, ha⟩ := hok
              dsimp only at hr ha
              subst hr
              dsimp only
              rw [ha]
              refine ⟨rfl, fun _ _ => ?_⟩
              dsimp only
              rw [ha]
              rfl

/-- A pinned entry whose bytes are served: the VERDICT does not depend on the cache but for a file
    that cannot be read. -/
theorem resolveEntry_served (h : SamePin e e p p) (hs : Serves m c out e p locator bytes) :
    (resolveEntry m c out e).1 =
        verdict m e locator (dirFor m e.reference p) bytes (c.unreadable (dirFor m e.reference p)) ∧
      ∀ pack, (resolveEntry m c out e).1 = .ok pack →
        ((resolveEntry m c out e).2.archive? (dirFor m e.reference p)).map Archive.bytes =
          some bytes := by
  have hp : e.pinned = some p := by
    rw [PackEntry.pinned, h.pin]
    rfl
  have hdir : dirFor m e.reference (computeDigest m bytes) = dirFor m e.reference p :=
    h.dirFor_eq hs.pinned
  unfold resolveEntry
  rw [hs.located, hp]
  dsimp only [Option.isNone_some, Option.bind_some]
  simp only [Bool.and_false, Bool.false_and, Bool.false_eq_true, if_false]
  cases hl : lookup m c e.reference p with
  | none =>
      refine fetchEntry_served hp hs hdir fun a ha hr => ?_
      unfold lookup at hl
      dsimp only at hl
      rw [ha] at hl
      dsimp only at hl
      rw [hr, Bool.true_and] at hl
      split at hl
      · exact nomatch hl
      · rename_i hne
        rw [eqIgnoreCase, hs.pinned]
        exact Bool.not_eq_true _ ▸ hne
  | some hit =>
      obtain ⟨dir, found⟩ := hit
      unfold lookup at hl
      dsimp only at hl
      cases ha : c.archive? (dirFor m e.reference p) with
      | none =>
          rw [ha] at hl
          exact nomatch hl
      | some a =>
          rw [ha] at hl
          dsimp only at hl
          split at hl
          · rename_i hmatch
            cases hl
            rw [Bool.and_eq_true] at hmatch
            obtain ⟨hr, hm⟩ := hmatch
            have hsame : computeDigest m a.bytes = computeDigest m bytes :=
              computeDigest_eq ((of_decide_eq_true hm).trans hs.pinned.symm)
            have hb : a.bytes = bytes := hs.collisionFree a ha (sha256_eq hsame)
            have hun : c.unreadable (dirFor m e.reference p) = false := by
              rw [Cache.unreadable, ha, Option.any_some, hr]
              rfl
            dsimp only
            rw [hb, hun]
            unfold verdict
            cases hv : verifySignature m e (computeDigest m bytes) with
            | error x => exact ⟨rfl, fun _ h => nomatch h⟩
            | ok u =>
                refine ⟨rfl, fun _ _ => ?_⟩
                dsimp only
                rw [Cache.archive?_touch, if_pos rfl, ha, ← hb]
                rfl
          · exact nomatch hl

/-! ## One verdict for every spelling -/

/-- Both are accepted or both are not, with one digest and one archive. -/
def Agree (r r' : Except String (ResolvedPack μ) × Cache) : Prop :=
  r.1.isOk = r'.1.isOk ∧ ∀ pack pack', r.1 = .ok pack → r'.1 = .ok pack' →
    pack.digest.raw = pack'.digest.raw ∧
      (r.2.archive? pack.path).map Archive.bytes = (r'.2.archive? pack'.path).map Archive.bytes

/-- The cache with the archive in its place. -/
def Cache.holding (c : Cache) (dir : Dir) (bytes : List UInt8) (mtime : Nat) : Cache :=
  c.put ⟨dir, some ⟨bytes, true, mtime⟩, mtime⟩

/-- A VERDICT DEPENDS ONLY ON IDENTITY AND BYTES: two spellings of one pin agree, and each gives the
    result it gives where its archive is in the cache. -/
def SpellingFree (m : Manager κ μ) (c : Cache) (out : Outside) (e e' : PackEntry) (dir : Dir)
    (bytes : List UInt8) : Prop :=
  Agree (resolveEntry m c out e) (resolveEntry m c out e') ∧ ∀ mtime,
    (resolveEntry m c out e).1.toOption =
        (resolveEntry m (c.holding dir bytes mtime) out e).1.toOption ∧
      (resolveEntry m c out e').1.toOption =
        (resolveEntry m (c.holding dir bytes mtime) out e').1.toOption

/-- A digest-only signature is accepted. -/
def acceptsLegacy (m : Manager κ μ) (digest : PackDigest) (signature : String) : Bool :=
  verifies m digest.raw signature && !(m.policy.verifyStrict && !m.policy.allowLegacySignatures)

/-- The signature is valid for the messages of both spellings or of neither, or is accepted for the
    digest alone. -/
def SignatureBlind (m : Manager κ μ) (e e' : PackEntry) (digest : PackDigest) : Prop :=
  ∀ signature, e.signature = some signature → m.keys.isEmpty = false →
    acceptsLegacy m digest signature = true ∨
      verifies m (canonicalSigningMessage e.reference digest) signature =
        verifies m (canonicalSigningMessage e'.reference digest) signature

theorem verifySignature_isOk (e : PackEntry) (digest : PackDigest) :
    (verifySignature m e digest).isOk = (m.keys.isEmpty || e.signature.any fun signature =>
      verifies m (canonicalSigningMessage e.reference digest) signature ||
        acceptsLegacy m digest signature) := by
  unfold verifySignature acceptsLegacy
  cases m.keys.isEmpty with
  | true => rfl
  | false =>
      cases e.signature with
      | none => rfl
      | some signature =>
          dsimp only [Option.any_some]
          rw [Bool.false_or, if_neg Bool.false_ne_true]
          cases verifies m (canonicalSigningMessage e.reference digest) signature with
          | true => rfl
          | false =>
              cases verifies m digest.raw signature with
              | false => rfl
              | true =>
                  cases m.policy.verifyStrict && !m.policy.allowLegacySignatures with
                  | true => rfl
                  | false => rfl

theorem signatureBlind_iff (h : SamePin e e' p p') (digest : PackDigest) :
    (verifySignature m e digest).isOk = (verifySignature m e' digest).isOk ↔
      SignatureBlind m e e' digest := by
  rw [verifySignature_isOk, verifySignature_isOk, h.signature]
  unfold SignatureBlind
  cases m.keys.isEmpty with
  | true => exact ⟨(fun _ _ _ hk => nomatch hk), fun _ => rfl⟩
  | false =>
      cases e.signature with
      | none => exact ⟨(fun _ _ hs => nomatch hs), fun _ => rfl⟩
      | some signature =>
          dsimp only [Option.any_some]
          rw [Bool.false_or, Bool.false_or]
          constructor
          · rintro heq _ ⟨⟩ _
            cases hl : acceptsLegacy m digest signature with
            | true => exact .inl rfl
            | false =>
                rw [hl, Bool.or_false, Bool.or_false] at heq
                exact .inr heq
          · intro hblind
            rcases hblind signature rfl rfl with hl | heq
            · rw [hl, Bool.or_true, Bool.or_true]
            · rw [heq]

theorem verdict_isOk (e : PackEntry) (locator : Text) (dir : Dir) (bytes : List UInt8)
    (unreadable : Bool) :
    (verdict m e locator dir bytes unreadable).isOk =
      ((verifySignature m e (computeDigest m bytes)).isOk && !unreadable &&
        (m.openPack bytes).isOk) := by
  unfold verdict openResolved
  cases verifySignature m e (computeDigest m bytes) with
  | error x => rfl
  | ok u =>
      cases unreadable with
      | true => rfl
      | false =>
          cases m.openPack bytes with
          | error x => rfl
          | ok x => rfl

/-- A pack that was opened has its digest. -/
theorem verdict_ok {unreadable : Bool} {dir : Dir} {pack : ResolvedPack μ}
    (h : verdict m e locator dir bytes unreadable = .ok pack) :
    pack.digest = computeDigest m bytes ∧ pack.path = dir := by
  unfold verdict openResolved at h
  split at h
  · exact nomatch h
  · split at h
    · exact nomatch h
    · split at h
      · exact nomatch h
      · cases h
        exact ⟨rfl, rfl⟩

/-- A result is the one of a readable cache unless it would have been accepted there. -/
theorem verdict_readable_iff (e : PackEntry) (locator : Text) (dir : Dir) (bytes : List UInt8)
    (unreadable : Bool) :
    (verdict m e locator dir bytes unreadable).toOption =
        (verdict m e locator dir bytes false).toOption ↔
      (unreadable = true → (verdict m e locator dir bytes false).isOk = false) := by
  cases unreadable with
  | false => exact ⟨(fun _ h => nomatch h), fun _ => rfl⟩
  | true =>
      have hnone : (verdict m e locator dir bytes true).toOption = none := by
        have hbad : (verdict m e locator dir bytes true).isOk = false := by
          rw [verdict_isOk, Bool.not_true, Bool.and_false, Bool.false_and]
        cases hv : verdict m e locator dir bytes true with
        | error x => rfl
        | ok x =>
            rw [hv] at hbad
            exact nomatch hbad
      rw [hnone]
      cases verdict m e locator dir bytes false with
      | error x => exact ⟨fun _ _ => rfl, fun _ => rfl⟩
      | ok x => exact ⟨fun h => (nomatch h), fun h => nomatch h rfl⟩

theorem SamePin.serves (h : SamePin e e' p p') (hs : Serves m c out e p locator bytes) :
    Serves m c out e' p' locator bytes := by
  constructor
  · rw [h.locator]
    exact hs.located
  · exact hs.fetch
  · exact hs.pinned.trans h.spelled.symm
  · exact hs.writes
  · rw [h.dirFor_eq h.spelled]
    exact hs.collisionFree

theorem Serves.holding (hs : Serves m c out e p locator bytes) (mtime : Nat) :
    Serves m (c.holding (dirFor m e.reference p) bytes mtime) out e p locator bytes := by
  refine ⟨hs.located, hs.fetch, hs.pinned, hs.writes, fun a ha _ => ?_⟩
  rw [Cache.archive?, Cache.holding, Cache.slot?_put_self] at ha
  cases ha
  rfl

theorem unreadable_holding (c : Cache) (dir : Dir) (bytes : List UInt8) (mtime : Nat) :
    (c.holding dir bytes mtime).unreadable dir = false := by
  rw [Cache.unreadable, Cache.archive?, Cache.holding, Cache.slot?_put_self]
  rfl

theorem SamePin.flip (h : SamePin e e' p p') : SamePin e' e' p' p' :=
  ⟨rfl, rfl, rfl, h.pin', h.pin', rfl,
    h.version.imp (fun ⟨v, _, hv⟩ => ⟨v, hv, hv⟩) (fun hv => ⟨hv.2, hv.2⟩)⟩

/-- For every manager, every cache, and all entries of an index that differ in the case of their
    digest: they have one verdict, and the same whether the archive is cached or fetched, exactly
    if the archive does not open, or the signature does not see the spelling and no unreadable
    file stands in the way of an accepted entry. -/
theorem spellingFree_iff {semver : Text → Option Text} {raw : RawPackEntry} {d d' : Text}
    (hd : raw.digest = some d) (hcase : eqIgnoreCase d d' = true)
    (he : raw.intoEntry semver = .ok e) (he' : { raw with digest := some d' }.intoEntry semver = .ok e')
    (hp : e.contentDigest = some p) (hs : Serves m c out e p locator bytes) :
    SpellingFree m c out e e' (dirFor m e.reference p) bytes ↔
      (m.openPack bytes).isOk = false ∨
        SignatureBlind m e e' (computeDigest m bytes) ∧
          (c.unreadable (dirFor m e.reference p) = true →
            (verifySignature m e (computeDigest m bytes)).isOk = false ∧
              (verifySignature m e' (computeDigest m bytes)).isOk = false) := by
  obtain ⟨q, p', h⟩ := SamePin.of_raw hd hcase he he'
  obtain rfl : q = p := Option.some.inj (h.pin.symm.trans hp)
  have hdir : dirFor m e'.reference p' = dirFor m e.reference q := h.dirFor_eq h.spelled
  obtain ⟨hr, hb⟩ := resolveEntry_served h.refl hs
  obtain ⟨hr', hb'⟩ := resolveEntry_served h.flip (h.serves hs)
  rw [hdir] at hr' hb'
  have hheld : ∀ mtime, (resolveEntry m (c.holding (dirFor m e.reference q) bytes mtime) out e).1 =
      verdict m e locator (dirFor m e.reference q) bytes false := by
    intro mtime
    have hv := (resolveEntry_served h.refl (hs.holding mtime)).1
    rwa [unreadable_holding] at hv
  have hheld' : ∀ mtime, (resolveEntry m (c.holding (dirFor m e.reference q) bytes mtime) out e').1 =
      verdict m e' locator (dirFor m e.reference q) bytes false := by
    intro mtime
    have hv := (resolveEntry_served h.flip ((h.serves hs).holding mtime)).1
    rwa [hdir, unreadable_holding] at hv
  -- what is accepted has the served bytes and their digest
  have hagree : Agree (resolveEntry m c out e) (resolveEntry m c out e') ↔
      (resolveEntry m c out e).1.isOk = (resolveEntry m c out e').1.isOk := by
    refine ⟨fun ha => ha.1, fun heq => ⟨heq, fun pack pack' hok hok' => ?_⟩⟩
    have hpack := verdict_ok (hr.symm.trans hok)
    have hpack' := verdict_ok (hr'.symm.trans hok')
    rw [hpack.1, hpack'.1, hpack.2, hpack'.2, hb pack hok, hb' pack' hok']
    exact ⟨rfl, rfl⟩
  rw [SpellingFree, hagree, hr, hr']
  simp only [hheld, hheld', forall_const]
  rw [verdict_readable_iff, verdict_readable_iff, ← signatureBlind_iff h, verdict_isOk, verdict_isOk,
    verdict_isOk, verdict_isOk]
  cases (verifySignature m e (computeDigest m bytes)).isOk <;>
    cases (verifySignature m e' (computeDigest m bytes)).isOk <;>
    cases c.unreadable (dirFor m e.reference q) <;> cases (m.openPack bytes).isOk <;> simp

/-- A version hides the spelling from the signature. -/
theorem signatureBlind_of_semver (h : SamePin e e' p p') {v : Text}
    (hv : e.reference.version = .semver v) (digest : PackDigest) : SignatureBlind m e e' digest := by
  intro signature _ _
  refine .inr ?_
  rcases h.version with ⟨w, hw, hw'⟩ | ⟨hd, -⟩
  · unfold canonicalSigningMessage
    rw [hw, hw', h.name]
  · rw [hv] at hd
    exact nomatch hd

end Same

/-! ## A signed pin -/

/-- The SHA-256 of `zipBytes`. -/
def zipSha256 : Vector UInt8 32 :=
  #v[0x8d, 0xcc, 0x7e, 0x60, 0x16, 0x06, 0x21, 0x7f, 0x3b, 0x75, 0x47, 0x66, 0x51, 0x11, 0x82, 0xa9,
    0x16, 0xb1, 0x7e, 0x9a, 0x26, 0xa9, 0x4c, 0x9d, 0x88, 0x71, 0x04, 0xeb, 0xa9, 0x2e, 0x9b, 0xb2]

/-- The first bytes of an archive. -/
def zipBytes : List UInt8 := [0x50, 0x4b, 0x03, 0x04]

/-- The digest of `zipBytes`. -/
def zipDigest : Text := "sha256:8dcc7e601606217f3b754766511182a916b17e9a26a94c9d887104eba92e9bb2".toList

/-- The same, with the algorithm in capitals. -/
def zipDigestCapital : Text := "SHA256:8dcc7e601606217f3b754766511182a916b17e9a26a94c9d887104eba92e9bb2".toList

/-- The entry of a pack, by its digest alone or with a version. -/
def zipEntry (version : Option Text) : RawPackEntry where
  name := "demo".toList
  version := version
  digest := some zipDigest
  locator := "oci://registry/demo".toList
  signature := some "sig"

/-- The parsed pin. -/
def zipPin (raw : Text) : PackDigest := ⟨raw, "sha256".toList, zipDigest.drop 7⟩

/-- The entry as parsed, under one spelling. -/
def zipPack (version : PackVersion) (raw : Text) : PackEntry where
  reference := ⟨"demo".toList, version⟩
  locator := "oci://registry/demo".toList
  contentDigest := some (zipPin raw)
  signature := some "sig"

/-- One key, whose signature is for the canonical message of `reference`. -/
def zipManager (reference : PackRef) : Manager Unit Unit where
  sha256 := fun _ => zipSha256
  keys := [()]
  verify := fun _ message _ =>
    if message = canonicalSigningMessage reference (zipPin zipDigest) then none else some "bad signature"
  openPack := fun _ => .ok ()
  policy := ⟨true, false⟩
  source := .remote
  minIdle := pruneMinIdle none

/-- The registry serves the archive. -/
def zipOutside : Outside := ⟨fun _ => .ok zipBytes, 0, none⟩

theorem zip_serves (reference : PackRef) (version : PackVersion) :
    Serves (zipManager reference) [] zipOutside (zipPack version zipDigest) (zipPin zipDigest)
      "oci://registry/demo".toList zipBytes := by
  constructor
  · show withFallback .remote "oci://registry/demo".toList = _
    decide +kernel
  · rfl
  · show lower ("sha256:".toList ++ hexEncode zipSha256.toList) = lower zipDigest
    decide +kernel
  · rfl
  · exact fun a ha => nomatch ha

/-- The pin of a signed pack without a version is written `SHA256:…` instead of `sha256:…`: the same
    bytes under the same signature are rejected. -/
theorem signedPin_rejected :
    (zipEntry none).intoEntry (fun _ => none) = .ok (zipPack (.digest (zipPin zipDigest)) zipDigest) ∧
    { zipEntry none with digest := some zipDigestCapital }.intoEntry (fun _ => none) =
      .ok (zipPack (.digest (zipPin zipDigestCapital)) zipDigestCapital) ∧
    eqIgnoreCase zipDigest zipDigestCapital = true ∧
    Serves (zipManager ⟨"demo".toList, .digest (zipPin zipDigest)⟩) [] zipOutside
      (zipPack (.digest (zipPin zipDigest)) zipDigest) (zipPin zipDigest)
      "oci://registry/demo".toList zipBytes ∧
    ¬ SpellingFree (zipManager ⟨"demo".toList, .digest (zipPin zipDigest)⟩) [] zipOutside
      (zipPack (.digest (zipPin zipDigest)) zipDigest)
      (zipPack (.digest (zipPin zipDigestCapital)) zipDigestCapital)
      (dirFor (zipManager ⟨"demo".toList, .digest (zipPin zipDigest)⟩)
        ⟨"demo".toList, .digest (zipPin zipDigest)⟩ (zipPin zipDigest)) zipBytes := by
  refine ⟨by rfl, by rfl, by decide +kernel, zip_serves _ _, ?_⟩
  rintro ⟨⟨hok, -⟩, -⟩
  revert hok
  decide +kernel

/-- With a version both spellings have one verdict. -/
theorem spellingFree_iff_versioned :
    SpellingFree (zipManager ⟨"demo".toList, .semver "1.0.0".toList⟩) [] zipOutside
      (zipPack (.semver "1.0.0".toList) zipDigest)
      (zipPack (.semver "1.0.0".toList) zipDigestCapital)
      (dirFor (zipManager ⟨"demo".toList, .semver "1.0.0".toList⟩)
        ⟨"demo".toList, .semver "1.0.0".toList⟩ (zipPin zipDigest)) zipBytes := by
  have hd : (zipEntry (some "1.0.0".toList)).digest = some zipDigest := rfl
  have he : (zipEntry (some "1.0.0".toList)).intoEntry some =
      .ok (zipPack (.semver "1.0.0".toList) zipDigest) := by rfl
  have he' : { zipEntry (some "1.0.0".toList) with digest := some zipDigestCapital }.intoEntry some =
      .ok (zipPack (.semver "1.0.0".toList) zipDigestCapital) := by rfl
  have hcase : eqIgnoreCase zipDigest zipDigestCapital = true := by decide +kernel
  obtain ⟨q, q', hsame⟩ := SamePin.of_raw hd hcase he he'
  refine (spellingFree_iff hd hcase he he' rfl (zip_serves _ _)).mpr (.inr ⟨?_, fun h => nomatch h⟩)
  exact signatureBlind_of_semver hsame rfl _

end Greentic.Packs
