import GreenticRunner.StorePull

/-! # Concurrent pulls and dispatches of one component

    Any number of `ensure_cached` calls and dispatches of one component reference, pinned to
    any digests, interleaved at their file operations and cut at any moment, over one cache
    directory that was empty at first.

    * `FromArchive` — wasm and sidecar come from an archive with the pinned digest;
    * `Undisturbed` — what keeps the pulls apart;
    * `PullInv`, `pinned_runs` — what is cached and run then is what was pinned. -/

namespace Greentic.StorePull

open Resumption Aw

/-! ## Digests -/

/-- A digest as it is compared: trimmed and in lower case. -/
def normal (digest : String) : List Char := (trim digest.toList).map Char.toLower

theorem markerMatches_iff {a b : String} : markerMatches a b = true ↔ normal a = normal b := by
  unfold markerMatches Engine.eqIgnoreAsciiCase Engine.trimmed normal
  rw [beq_iff_eq, String.toList_ofList, String.toList_ofList]

theorem isWhitespace_toLower (c : Char) : isWhitespace c.toLower = isWhitespace c :=
  TextCodec.apply_toLower (by decide) c

/-- So blanks are dropped before or after it. -/
theorem dropWhile_lower (s : List Char) :
    (s.dropWhile isWhitespace).map Char.toLower = (s.map Char.toLower).dropWhile isWhitespace := by
  induction s with
  | nil => rfl
  | cons c s ih =>
      rw [List.map_cons, List.dropWhile_cons, List.dropWhile_cons, isWhitespace_toLower]
      split
      · exact ih
      · rfl

theorem trim_lower (s : List Char) :
    (trim s).map Char.toLower = trim (s.map Char.toLower) := by
  unfold trim
  rw [List.map_reverse, dropWhile_lower, List.map_reverse, dropWhile_lower]

/-- What agrees up to case agrees as a digest. -/
theorem markerMatches_of_eq {a b : String} (h : Engine.eqIgnoreAsciiCase a b = true) :
    markerMatches a b = true := by
  rw [markerMatches_iff, normal, normal, trim_lower, trim_lower]
  rw [Engine.eqIgnoreAsciiCase, beq_iff_eq] at h
  rw [h]

theorem markerMatches_trans {a b c : String} (hab : markerMatches a b = true)
    (hbc : markerMatches b c = true) : markerMatches a c = true := by
  rw [markerMatches_iff] at *
  exact hab.trans hbc

/-- A hexadecimal digest has no blanks to trim. -/
theorem trimmed_hex (t : Tools) (bytes : Bytes) :
    Engine.trimmed (t.hexSha256 bytes) = t.hexSha256 bytes := by
  have hblank : ∀ c, TextCodec.hexLower c = true → isWhitespace c = false := by
    intro c hc
    unfold TextCodec.hexLower at hc
    simp only [Bool.or_eq_true, Bool.and_eq_true, decide_eq_true_eq] at hc
    unfold isWhitespace
    simp only [Bool.or_eq_false_iff, Bool.and_eq_false_iff, decide_eq_false_iff_not, beq_eq_false_iff_ne]
    omega
  have hdrop : ∀ s : List Char, (∀ c ∈ s, isWhitespace c = false) → s.dropWhile isWhitespace = s := by
    intro s hs
    cases s with
    | nil => rfl
    | cons c s =>
        rw [List.dropWhile_cons, hs c (List.mem_cons_self ..)]
        rfl
  have hall : ∀ c ∈ TextCodec.hexEncode (t.sha256 bytes), isWhitespace c = false :=
    fun c hc => hblank c (TextCodec.hexEncode_lower _ c hc)
  unfold Engine.trimmed Tools.hexSha256 trim
  rw [String.toList_ofList, hdrop _ hall, hdrop _ (fun c hc => hall c (List.mem_reverse.mp hc)),
    List.reverse_reverse]

/-- No wasm hashes to the digest that fails closed. -/
theorem hex_ne_unusable (t : Tools) (bytes : Bytes) : t.hexSha256 bytes ≠ unusableDigest := by
  intro h
  have hmem : 'u' ∈ (t.hexSha256 bytes).toList := by
    rw [h]
    decide +kernel
  unfold Tools.hexSha256 at hmem
  rw [String.toList_ofList] at hmem
  exact absurd (TextCodec.hexEncode_lower _ _ hmem) (by decide)

/-- Bytes with one digest are the same bytes. -/
theorem hexSha256_inj {t : Tools} (ht : Function.Injective t.sha256) {a b : Bytes}
    (h : t.hexSha256 a = t.hexSha256 b) : a = b := by
  have hchars := congrArg String.toList h
  rw [Tools.hexSha256, Tools.hexSha256, String.toList_ofList, String.toList_ofList] at hchars
  have hbytes := congrArg TextCodec.hexDecode hchars
  rw [TextCodec.hexDecode_encode, TextCodec.hexDecode_encode] at hbytes
  exact ht (Option.some.inj hbytes)

/-! ## The cache -/

/-- The three files of the component; `unfinished` tells whether a sidecar was written
    since the marker was. -/
structure Files where
  wasm : Option Bytes
  sidecar : Option String
  marker : Option String
  unfinished : Bool

/-- The files, and the describe documents whose authenticity was verified. -/
structure Cache where
  files : Files
  verified : List Json

/-- An empty cache directory. -/
def Cache.empty : Cache := ⟨⟨none, none, none, false⟩, []⟩

/-- The executor runs a wasm that has the required digest, or any where none is required. -/
def VerifyPolicy.Permits (t : Tools) (policy : VerifyPolicy) (wasm : Bytes) : Prop :=
  policy.allowUnverified = true ∨ policy.requiredDigest = some (t.hexSha256 wasm)

/-- One operation over the cache.  A write is atomic: it fails without a trace or replaces
    the file; a look at a file may fail at any time. -/
def pullStep (t : Tools) : (i : PullOp) → Cache → i.Res → Cache → Prop
  | .wasmExists, c, found, c' => (found = true → c.files.wasm.isSome = true) ∧ c' = c
  | .sidecarExists, c, found, c' => (found = true → c.files.sidecar.isSome = true) ∧ c' = c
  | .readMarker, c, r, c' => (∀ contents, r = some contents → c.files.marker = some contents) ∧ c' = c
  | .verifyAuthenticity describe, c, .ok _, c' => c' = { c with verified := describe :: c.verified }
  | .writeSidecar text, c, .ok _, c' =>
      c' = { c with files := { c.files with sidecar := some text, unfinished := true } }
  | .writeWasm wasm, c, .ok _, c' => c' = { c with files := { c.files with wasm := some wasm } }
  | .writeMarker text, c, .ok _, c' =>
      c' = { c with files := { c.files with marker := some text, unfinished := false } }
  | .readSidecar, c, r, c' => (∀ text, r = .content text → c.files.sidecar = some text) ∧
      (r = .notFound → c.files.sidecar = none) ∧ c' = c
  | .exec policy, c, r, c' =>
      (∀ wasm, r.1 = some wasm → c.files.wasm = some wasm ∧ policy.Permits t wasm) ∧ c' = c
  | _, c, _, c' => c' = c

/-- A call with its events. -/
structure CallMemory where
  call : Call
  log : List PullEvent

/-- One operation of a call. -/
def execPull (t : Tools) (i : PullOp) (s : Cache × CallMemory) (r : i.Res)
    (s' : Cache × CallMemory) : Prop :=
  pullStep t i s.1 r s'.1 ∧ s'.2 = ⟨s.2.call, s.2.log ++ [⟨i, r⟩]⟩

/-- A call as a thread. -/
abbrev CallThread : Type := Main PullOp PullOp.Res String Unit (Option Json)

/-- The calls of one component. -/
inductive Calling (t : Tools) (componentRef : String) : CallMemory × CallThread → Prop where
  | intro (c : Call) : Calling t componentRef (⟨c, []⟩, Main.lift (c.program t componentRef))

/-- The cache and any number of calls. -/
abbrev PullSystem : Type := Pool Cache CallMemory PullOp PullOp.Res String Unit (Option Json)

/-- `pull_lock`: it is granted while no other call holds it; a call that is cut gives it up. -/
def PullLock (c : PullSystem) (j : Nat) : PullEvent → Prop
  | ⟨.lockPull, _⟩ => ∀ i m p, i ≠ j → c.threads[i]? = some (some (m, p)) → locked m.log = false
  | _ => True

/-- The wasm of a verified archive with the digest. -/
def OfArchive (t : Tools) (digest : String) (verified : List Json) (wasm : Bytes) : Prop :=
  ∃ archive describe, t.unzipDescribeAndWasm archive = .ok (describe, wasm) ∧ describe ∈ verified
    ∧ markerMatches (t.hexSha256 archive) digest = true

/-- Wasm and sidecar come from a verified archive with the digest. -/
def FromArchive (t : Tools) (digest : String) (c : Cache) : Prop :=
  ∃ wasm, OfArchive t digest c.verified wasm ∧ c.files.wasm = some wasm
    ∧ c.files.sidecar = some (t.hexSha256 wasm)

/-- The sidecar comes from a verified archive with the digest. -/
def SidecarFrom (t : Tools) (digest : String) (c : Cache) : Prop :=
  ∃ wasm, OfArchive t digest c.verified wasm ∧ c.files.sidecar = some (t.hexSha256 wasm)

/-- What keeps the pulls apart, on one operation of the call `j`:
    a marker that matches is read while no install has begun and not come to its marker;
    no write but the first of an install fails;
    no pull of another digest writes its sidecar while a dispatch is between the return of its
    `ensure_cached` and its reading of the sidecar. -/
def Undisturbed (t : Tools) (componentRef : String) (c : PullSystem) (j : Nat) : PullEvent → Prop
  | ⟨.readMarker, some contents⟩ => ∀ m p, c.threads[j]? = some (some (m, p)) →
      markerMatches contents m.call.digest = true → c.store.files.unfinished = false
  | ⟨.writeSidecar _, .ok _⟩ => ∀ m p, c.threads[j]? = some (some (m, p)) →
      ∀ i n q, i ≠ j → c.threads[i]? = some (some (n, q)) → n.call.dispatched = true →
        (n.call.ensuring t componentRef).Ran n.log (.ok ()) →
        markerMatches m.call.digest n.call.digest = true
  | ⟨.writeWasm _, .error _⟩ => False
  | ⟨.writeMarker _, .error _⟩ => False
  | _ => True

/-! ## What one operation changes -/

/-- The cache before and after an event. -/
inductive Moves (c : Cache) : PullEvent → Cache → Prop where
  | kept {ev : PullEvent} (hw : ¬ Wrote ev)
      (hv : ∀ describe u, ev ≠ ⟨.verifyAuthenticity describe, .ok u⟩) : Moves c ev c
  | verified (describe : Json) (u : Unit) : Moves c ⟨.verifyAuthenticity describe, .ok u⟩
      { c with verified := describe :: c.verified }
  | sidecar (text : String) (u : Unit) : Moves c ⟨.writeSidecar text, .ok u⟩
      { c with files := { c.files with sidecar := some text, unfinished := true } }
  | wasm (bytes : Bytes) (u : Unit) : Moves c ⟨.writeWasm bytes, .ok u⟩
      { c with files := { c.files with wasm := some bytes } }
  | marker (text : String) (u : Unit) : Moves c ⟨.writeMarker text, .ok u⟩
      { c with files := { c.files with marker := some text, unfinished := false } }

/-- An operation moves the cache in one of the ways of `Moves`. -/
theorem pullStep_moves {t : Tools} {i : PullOp} {r : i.Res} {c c' : Cache}
    (h : pullStep t i c r c') : Moves c ⟨i, r⟩ c' := by
  have hkept : c' = c → ¬ Wrote ⟨i, r⟩ →
      (∀ describe u, (⟨i, r⟩ : PullEvent) ≠ ⟨.verifyAuthenticity describe, .ok u⟩) →
      Moves c ⟨i, r⟩ c' := by
    rintro rfl hw hv
    exact .kept hw hv
  cases i with
  | wasmExists => exact hkept h.2 (fun hw => hw) (by rintro _ _ ⟨⟩)
  | sidecarExists => exact hkept h.2 (fun hw => hw) (by rintro _ _ ⟨⟩)
  | readMarker => exact hkept h.2 (fun hw => hw) (by rintro _ _ ⟨⟩)
  | readSidecar => exact hkept h.2.2 (fun hw => hw) (by rintro _ _ ⟨⟩)
  | exec policy => exact hkept h.2 (fun hw => hw) (by rintro _ _ ⟨⟩)
  | verifyAuthenticity describe =>
      cases r with
      | ok u => cases h; exact .verified describe u
      | error e => exact hkept h (fun hw => hw) (by rintro _ _ ⟨⟩)
  | writeSidecar text =>
      cases r with
      | ok u => cases h; exact .sidecar text u
      | error e => exact hkept h (fun hw => hw) (by rintro _ _ ⟨⟩)
  | writeWasm wasm =>
      cases r with
      | ok u => cases h; exact .wasm wasm u
      | error e => exact hkept h (fun hw => hw) (by rintro _ _ ⟨⟩)
  | writeMarker text =>
      cases r with
      | ok u => cases h; exact .marker text u
      | error e => exact hkept h (fun hw => hw) (by rintro _ _ ⟨⟩)
  | _ => exact hkept h (fun hw => hw) (by rintro _ _ ⟨⟩)

section Moves

variable {c c' : Cache} {ev : PullEvent}

theorem Moves.verified_mono (h : Moves c ev c') : c.verified ⊆ c'.verified := by
  cases h with
  | verified describe u => exact List.subset_cons_self _ _
  | _ => exact fun _ hd => hd

/-- An operation that does not write leaves the files. -/
theorem Moves.files (h : Moves c ev c') (hw : ¬ Wrote ev) : c'.files = c.files := by
  cases h with
  | kept => rfl
  | verified => rfl
  | _ => exact absurd trivial hw

/-- The sidecar is changed by writing it only. -/
theorem Moves.sidecar_kept (h : Moves c ev c') (hw : ∀ text u, ev ≠ ⟨.writeSidecar text, .ok u⟩) :
    c'.files.sidecar = c.files.sidecar := by
  cases h with
  | sidecar text u => exact absurd rfl (hw text u)
  | _ => rfl

end Moves

theorem OfArchive.mono {t : Tools} {digest : String} {v v' : List Json} {wasm : Bytes}
    (h : OfArchive t digest v wasm) (hv : v ⊆ v') : OfArchive t digest v' wasm := by
  obtain ⟨archive, describe, hunzip, hmem, hsha⟩ := h
  exact ⟨archive, describe, hunzip, hv hmem, hsha⟩

/-- Under every spelling of the digest. -/
theorem OfArchive.digest {t : Tools} {digest digest' : String} {v : List Json} {wasm : Bytes}
    (h : OfArchive t digest v wasm) (hd : markerMatches digest digest' = true) :
    OfArchive t digest' v wasm := by
  obtain ⟨archive, describe, hunzip, hmem, hsha⟩ := h
  exact ⟨archive, describe, hunzip, hmem, markerMatches_trans hsha hd⟩

/-- The same for the whole entry. -/
theorem FromArchive.digest {t : Tools} {digest digest' : String} {c : Cache}
    (h : FromArchive t digest c) (hd : markerMatches digest digest' = true) :
    FromArchive t digest' c := by
  obtain ⟨wasm, hof, hfiles⟩ := h
  exact ⟨wasm, hof.digest hd, hfiles⟩

/-- An entry of the archive stays so until it is written. -/
theorem FromArchive.moves {t : Tools} {digest : String} {c c' : Cache} {ev : PullEvent}
    (h : FromArchive t digest c) (hm : Moves c ev c') (hw : ¬ Wrote ev) :
    FromArchive t digest c' := by
  obtain ⟨wasm, hof, hfiles⟩ := h
  refine ⟨wasm, hof.mono hm.verified_mono, ?_⟩
  rw [hm.files hw]
  exact hfiles

theorem FromArchive.sidecar {t : Tools} {digest : String} {c : Cache}
    (h : FromArchive t digest c) : SidecarFrom t digest c := by
  obtain ⟨wasm, hof, -, hside⟩ := h
  exact ⟨wasm, hof, hside⟩

/-! ## The invariant -/

/-- What a call under the lock knows of the files at each stage. -/
def StageInv (t : Tools) (digest : String) (c : Cache) : Stage → Prop
  | .idle => True
  | .current contents => markerMatches contents digest = true → FromArchive t digest c
  | .sidecar text => c.files.sidecar = some text ∧ c.files.unfinished = true
  | .wasm text bytes => c.files.sidecar = some text ∧ c.files.wasm = some bytes
  | .marked => FromArchive t digest c

/-- What holds of one call. -/
structure CallInv (t : Tools) (componentRef : String) (c : Cache) (m : CallMemory) : Prop where
  verified : ∀ describe, ⟨.verifyAuthenticity describe, .ok ()⟩ ∈ m.log → describe ∈ c.verified
  held : locked m.log = true → StageInv t m.call.digest c (stage m.log)
  ensured : m.call.dispatched = true → (m.call.ensuring t componentRef).Ran m.log (.ok ()) →
    SidecarFrom t m.call.digest c
  read : ∀ r, ⟨.readSidecar, r⟩ ∈ m.log → r = .failed ∨
    ∃ wasm, OfArchive t m.call.digest c.verified wasm ∧ r = .content (t.hexSha256 wasm)
  intact : ∀ ev ∈ m.log, ¬ FailedLate ev

/-- What holds of the cache and its calls: a marker under which no install has begun is that
    of the files, and one call at a time holds the lock. -/
structure PullInv (t : Tools) (componentRef : String) (c : PullSystem) : Prop where
  whole : c.store.files.unfinished = false → ∀ digest, c.store.files.marker = some digest →
    FromArchive t digest c.store
  exclusive : ∀ (i j : Nat) (m n : CallMemory) (p q : CallThread),
    c.threads[i]? = some (some (m, p)) → c.threads[j]? = some (some (n, q)) →
      locked m.log = true → locked n.log = true → i = j
  threads : ∀ (i : Nat) (m : CallMemory) (p : CallThread),
    c.threads[i]? = some (some (m, p)) → CallInv t componentRef c.store m

/-- A stage stays what it is until something is written. -/
theorem StageInv.moves {t : Tools} {digest : String} {c c' : Cache} {ev : PullEvent} {s : Stage}
    (h : StageInv t digest c s) (hm : Moves c ev c') (hw : ¬ Wrote ev) :
    StageInv t digest c' s := by
  cases s with
  | idle => exact trivial
  | current contents => exact fun hmatch => (h hmatch).moves hm hw
  | sidecar text =>
      show c'.files.sidecar = some text ∧ c'.files.unfinished = true
      rw [hm.files hw]
      exact h
  | wasm text bytes =>
      show c'.files.sidecar = some text ∧ c'.files.wasm = some bytes
      rw [hm.files hw]
      exact h
  | marked => exact FromArchive.moves h hm hw

/-- A marker is reached from where it was read, or kept by the release of the lock. -/
theorem stage_current {s : Stage} {ev : PullEvent} {contents : String}
    (h : s.next ev = .current contents) :
    ev = ⟨.readMarker, some contents⟩ ∨ ∃ u, ev = ⟨.unlockPull, u⟩ ∧ s = .current contents := by
  obtain ⟨i, r⟩ := ev
  cases i with
  | readMarker =>
      cases r with
      | none => exact nomatch h
      | some c =>
          cases h
          exact .inl rfl
  | unlockPull => exact .inr ⟨r, rfl, h⟩
  | writeSidecar text => cases r <;> exact nomatch h
  | writeWasm wasm =>
      cases r with
      | error e => exact nomatch h
      | ok u => cases s <;> exact nomatch h
  | writeMarker text =>
      cases r with
      | error e => exact nomatch h
      | ok u => cases s <;> exact nomatch h
  | _ => exact nomatch h

/-- The last stage is entered by writing the marker. -/
theorem stage_marked {s : Stage} {ev : PullEvent} (h : s.next ev = .marked) :
    (∃ text u, ev = ⟨.writeMarker text, .ok u⟩) ∨ ∃ u, ev = ⟨.unlockPull, u⟩ ∧ s = .marked := by
  obtain ⟨i, r⟩ := ev
  cases i with
  | readMarker => cases r <;> exact nomatch h
  | unlockPull => exact .inr ⟨r, rfl, h⟩
  | writeSidecar text => cases r <;> exact nomatch h
  | writeWasm wasm =>
      cases r with
      | error e => exact nomatch h
      | ok u => cases s <;> exact nomatch h
  | writeMarker text =>
      cases r with
      | error e => exact nomatch h
      | ok u => exact .inl ⟨text, u, rfl⟩
  | _ => exact nomatch h

/-- Who writes holds the lock. -/
theorem locked_of_wrote {t : Tools} {componentRef : String} {c : Call} {h : List PullEvent}
    {ev : PullEvent} (hg : CallGuard t componentRef c h ev) (hw : Wrote ev) : locked h = true := by
  obtain ⟨i, r⟩ := ev
  cases i with
  | writeSidecar text => exact hg.1
  | writeWasm wasm => exact hg.1
  | writeMarker text => exact hg.1
  | _ => exact False.elim hw

/-- Bytes that were checked are those of the archive. -/
theorem Checked.ofArchive {t : Tools} {digest : String} {h : List PullEvent} {wasm : Bytes}
    {v : List Json} (hc : Checked t digest h wasm)
    (hv : ∀ describe, ⟨.verifyAuthenticity describe, .ok ()⟩ ∈ h → describe ∈ v) :
    OfArchive t digest v wasm := by
  obtain ⟨archive, describe, hunzip, hsha, hmem⟩ := hc
  exact ⟨archive, describe, hunzip, hv describe hmem, markerMatches_of_eq hsha⟩

section OneStep

variable {t : Tools} {componentRef : String} {st st' : Cache}
  {ts : List (Option (CallMemory × CallThread))} (hinv : PullInv t componentRef ⟨st, ts⟩) {j : Nat}
  {m : CallMemory} {p : CallThread} (hj : ts[j]? = some (some (m, p))) {i : PullOp} {r : i.Res}
  (hs : pullStep t i st r st') (hu : Undisturbed t componentRef ⟨st, ts⟩ j ⟨i, r⟩)
  (hg : CallGuard t componentRef m.call m.log ⟨i, r⟩)

include hinv hj hs hu in
/-- A marker that matches is that of the files. -/
theorem marker_current {contents : String} (hev : (⟨i, r⟩ : PullEvent) = ⟨.readMarker, some contents⟩)
    (hmatch : markerMatches contents m.call.digest = true) :
    FromArchive t m.call.digest st' := by
  cases hev
  obtain ⟨hmarker, rfl⟩ := hs
  exact (hinv.whole (hu m p hj hmatch) contents (hmarker contents rfl)).digest hmatch

include hinv hj hs hu hg in
/-- When `ensure_cached` returns, the files are those of the pinned archive. -/
theorem cached_of_ran (hran : (m.call.ensuring t componentRef).Ran (m.log ++ [⟨i, r⟩]) (.ok ())) :
    FromArchive t m.call.digest st' := by
  have hm := hinv.threads j m p hj
  have hend : EnsureEnd m.call.digest false (m.log ++ [⟨i, r⟩]) (.ok ()) :=
    Prog.Traced.ran hran (ensureCached_traced t componentRef m.call.version m.call.digest)
  obtain ⟨hfree, hsettled⟩ := hend
  -- the lock is released as the last step: the files are as the call left or found them
  have hreleased : ∀ u s, (⟨i, r⟩ : PullEvent) = ⟨.unlockPull, u⟩ → stage m.log = s →
      StageInv t m.call.digest st' s := by
    rintro u s hev rfl
    cases hev
    have hst : st' = st := hs
    rw [hst]
    exact hm.held hg
  rcases hsettled with ⟨contents, hstage, hmatch⟩ | hstage
  · rw [stage_snoc] at hstage
    rcases stage_current hstage with hev | ⟨u, hev, hkept⟩
    · exact marker_current hinv hj hs hu hev hmatch
    · exact hreleased u _ hev hkept hmatch
  · rw [stage_snoc] at hstage
    rcases stage_marked hstage with ⟨text, u, hev⟩ | ⟨u, hev, hkept⟩
    · -- the marker is written under the lock, which the call still holds
      cases hev
      rw [locked_snoc] at hfree
      exact absurd (hfree.symm.trans hg.1) (by decide)
    · exact hreleased u _ hev hkept

include hinv hj hs hu hg in

/-- The call that moved, if it holds the lock. -/
theorem held_self (hlocked : locked (m.log ++ [⟨i, r⟩]) = true) :
    StageInv t m.call.digest st' (stage (m.log ++ [⟨i, r⟩])) := by
  have hm := hinv.threads j m p hj
  rw [stage_snoc]
  rw [locked_snoc] at hlocked
  cases i with
  | readMarker =>
      cases r with
      | none => exact trivial
      | some contents => exact fun hmatch => marker_current hinv hj hs hu rfl hmatch
  | unlockPull => exact nomatch hlocked
  | writeSidecar text =>
      cases r with
      | error e => exact trivial
      | ok u =>
          cases hs
          exact ⟨rfl, rfl⟩
  | writeWasm wasm =>
      cases r with
      | error e => exact False.elim hu
      | ok u =>
          obtain ⟨hheld, -, hstage⟩ := hg
          have hside := hm.held hheld
          rw [hstage] at hside ⊢
          cases hs
          exact ⟨hside.1, rfl⟩
  | writeMarker text =>
      cases r with
      | error e => exact False.elim hu
      | ok u =>
          obtain ⟨hheld, -, wasm, hchecked, hstage⟩ := hg
          have hfiles := hm.held hheld
          rw [hstage] at hfiles ⊢
          cases hs
          exact ⟨wasm, hchecked.ofArchive hm.verified, hfiles.2, hfiles.1⟩
  | _ => exact trivial

include hinv hj hs hg hu in

/-- The call that moved. -/
theorem callInv_self : CallInv t componentRef st' ⟨m.call, m.log ++ [⟨i, r⟩]⟩ := by
  have hm := hinv.threads j m p hj
  have hmoves := pullStep_moves hs
  refine ⟨?_, held_self hinv hj hs hu hg, ?_, ?_, ?_⟩
  · intro describe hmem
    rcases List.mem_append.mp hmem with hmem | hmem
    · exact hmoves.verified_mono (hm.verified describe hmem)
    · cases List.mem_singleton.mp hmem
      cases hs
      exact List.mem_cons_self ..
  · intro _ hran
    exact (cached_of_ran hinv hj hs hu hg hran).sidecar
  · intro read hmem
    rcases List.mem_append.mp hmem with hmem | hmem
    · rcases hm.read read hmem with hfailed | ⟨wasm, hof, hread⟩
      · exact .inl hfailed
      · exact .inr ⟨wasm, hof.mono hmoves.verified_mono, hread⟩
    · -- the sidecar is read: it still is that of the pinned archive
      cases List.mem_singleton.mp hmem
      obtain ⟨hd, hran⟩ := hg
      obtain ⟨wasm, hof, hside⟩ := hm.ensured hd hran
      obtain ⟨hcontent, hmissing, rfl⟩ := hs
      cases read with
      | failed => exact .inl rfl
      | notFound =>
          rw [hmissing rfl] at hside
          exact nomatch hside
      | content text =>
          refine .inr ⟨wasm, hof, ?_⟩
          rw [hcontent text rfl] at hside
          rw [Option.some.inj hside]
  · intro ev hmem
    rcases List.mem_append.mp hmem with hmem | hmem
    · exact hm.intact ev hmem
    · rw [List.mem_singleton.mp hmem]
      intro hlate
      cases i with
      | writeWasm wasm =>
          cases r with
          | ok u => exact hlate
          | error e => exact hu
      | writeMarker text =>
          cases r with
          | ok u => exact hlate
          | error e => exact hu
      | _ => exact hlate

include hinv hj hs hg hu in

/-- Another call. -/
theorem callInv_other {k : Nat} {n : CallMemory} {q : CallThread} (hne : k ≠ j)
    (hk : ts[k]? = some (some (n, q))) : CallInv t componentRef st' n := by
  have hn := hinv.threads k n q hk
  have hm := hinv.threads j m p hj
  have hmoves := pullStep_moves hs
  refine ⟨fun describe hmem => hmoves.verified_mono (hn.verified describe hmem), ?_, ?_, ?_,
    hn.intact⟩
  · intro hlocked
    refine (hn.held hlocked).moves hmoves ?_
    intro hw
    exact hne (hinv.exclusive k j n m q p hk hj hlocked (locked_of_wrote hg hw))
  · intro hd hran
    obtain ⟨wasm, hof, hside⟩ := hn.ensured hd hran
    by_cases hw : ∃ text u, (⟨i, r⟩ : PullEvent) = ⟨.writeSidecar text, .ok u⟩
    · -- another sidecar: by the condition, of the same digest
      obtain ⟨text, u, hev⟩ := hw
      cases hev
      obtain ⟨-, wasm', hchecked, rfl⟩ := hg
      have hsame := hu m p hj k n q hne hk hd hran
      cases hs
      exact ⟨wasm', (hchecked.ofArchive hm.verified).digest hsame, rfl⟩
    · refine ⟨wasm, hof.mono hmoves.verified_mono, ?_⟩
      rw [hmoves.sidecar_kept fun text u hev => hw ⟨text, u, hev⟩]
      exact hside
  · intro read hmem
    rcases hn.read read hmem with hfailed | ⟨wasm, hof, hread⟩
    · exact .inl hfailed
    · exact .inr ⟨wasm, hof.mono hmoves.verified_mono, hread⟩

include hinv hj hs hg in

/-- An entry whose install is not open is whole. -/
theorem whole_step (hfin : st'.files.unfinished = false) (digest : String)
    (hmarker : st'.files.marker = some digest) : FromArchive t digest st' := by
  have hm := hinv.threads j m p hj
  have hold : ∀ ev, Moves st ev st' → ¬ Wrote ev → FromArchive t digest st' := by
    intro ev hmoves hw
    have hfiles := hmoves.files hw
    rw [hfiles] at hfin hmarker
    exact (hinv.whole hfin digest hmarker).moves hmoves hw
  by_cases hw : Wrote ⟨i, r⟩
  · cases i with
    | writeSidecar text =>
        cases r with
        | error e => exact False.elim hw
        | ok u =>
            cases hs
            exact nomatch hfin
    | writeWasm wasm =>
        cases r with
        | error e => exact False.elim hw
        | ok u =>
            -- the wasm follows a sidecar, so its install is not finished
            obtain ⟨hheld, -, hstage⟩ := hg
            have hside := hm.held hheld
            rw [hstage] at hside
            cases hs
            exact absurd (hside.2.symm.trans hfin) (by decide)
    | writeMarker text =>
        cases r with
        | error e => exact False.elim hw
        | ok u =>
            obtain ⟨hheld, rfl, wasm, hchecked, hstage⟩ := hg
            have hfiles := hm.held hheld
            rw [hstage] at hfiles
            cases hs
            cases hmarker
            exact ⟨wasm, hchecked.ofArchive hm.verified, hfiles.2, hfiles.1⟩
    | _ => exact False.elim hw
  · exact hold _ (pullStep_moves hs) hw

end OneStep

/-! ## Every run -/

theorem PullInv.empty (t : Tools) (componentRef : String) :
    PullInv t componentRef ⟨.empty, []⟩ :=
  ⟨(fun _ _ hmarker => nomatch hmarker), (fun _ _ _ _ _ _ hi => nomatch hi),
    fun _ _ _ hi => nomatch hi⟩

/-- One more call. -/
theorem PullInv.spawn {t : Tools} {componentRef : String} {st : Cache}
    {ts : List (Option (CallMemory × CallThread))} {x : CallMemory × CallThread}
    (h : PullInv t componentRef ⟨st, ts⟩) (hn : Calling t componentRef x) :
    PullInv t componentRef ⟨st, ts ++ [some x]⟩ := by
  obtain ⟨c⟩ := hn
  refine ⟨h.whole, ?_, ?_⟩
  · intro i j m n p q hi hj hm hn
    rcases Transition.getElem?_of_snoc hi with ⟨-, heq⟩ | hi
    · cases heq
      exact nomatch hm
    · rcases Transition.getElem?_of_snoc hj with ⟨-, heq⟩ | hj
      · cases heq
        exact nomatch hn
      · exact h.exclusive i j m n p q hi hj hm hn
  · intro i m p hi
    rcases Transition.getElem?_of_snoc hi with ⟨-, heq⟩ | hi
    · cases heq
      refine ⟨(fun _ hmem => nomatch hmem), (fun hl => nomatch hl), ?_,
        (fun _ hmem => nomatch hmem), (fun _ hmem => nomatch hmem)⟩
      -- `ensure_cached` does not return before its first operation
      intro _ hran
      have hend : EnsureEnd c.digest false [] (.ok ()) :=
        Prog.Traced.ran hran (ensureCached_traced t componentRef c.version c.digest)
      rcases hend.2 with ⟨contents, hstage, -⟩ | hstage
      · exact nomatch hstage
      · exact nomatch hstage
    · exact h.threads i m p hi

/-- A call that dies. -/
theorem PullInv.crash {t : Tools} {componentRef : String} {st : Cache}
    {ts : List (Option (CallMemory × CallThread))} (h : PullInv t componentRef ⟨st, ts⟩) (k : Nat) :
    PullInv t componentRef ⟨st, ts.set k none⟩ := by
  have hback : ∀ {i : Nat} {x : CallMemory × CallThread},
      (ts.set k none)[i]? = some (some x) → ts[i]? = some (some x) := by
    intro i x hi
    rcases Transition.getElem?_of_set hi with ⟨-, heq⟩ | ⟨-, hi⟩
    · exact nomatch heq
    · exact hi
  refine ⟨h.whole, ?_, ?_⟩
  · intro i j m n p q hi hj
    exact h.exclusive i j m n p q (hback hi) (hback hj)
  · intro i m p hi
    exact h.threads i m p (hback hi)

/-- The condition on every operation: the lock is granted to one call at a time, and the
    pulls are kept apart. -/
def Guarded (t : Tools) (componentRef : String) (c : PullSystem) (j : Nat) (ev : PullEvent) : Prop :=
  PullLock c j ev ∧ Undisturbed t componentRef c j ev

/-- **ONE STEP** keeps the invariant. -/
theorem PullInv.step {t : Tools} {componentRef : String} {st st' : Cache}
    {ts : List (Option (CallMemory × CallThread))} (h : PullInv t componentRef ⟨st, ts⟩) {j : Nat}
    {m m' : CallMemory} {p p' : CallThread} {i : PullOp} {r : i.Res}
    (hj : ts[j]? = some (some (m, p))) (he : execPull t i (st, m) r (st', m'))
    (hc : Guarded t componentRef ⟨st, ts⟩ j ⟨i, r⟩)
    (hg : CallGuard t componentRef m.call m.log ⟨i, r⟩) :
    PullInv t componentRef ⟨st', ts.set j (some (m', p'))⟩ := by
  obtain ⟨hs, rfl⟩ := he
  obtain ⟨hlock, hu⟩ := hc
  refine ⟨?_, ?_, ?_⟩
  · exact fun hfin digest hmarker => whole_step h hj hs hg hfin digest hmarker
  · -- a call that holds the lock now held it before, or took it while nobody did
    have hself : locked (m.log ++ [⟨i, r⟩]) = true → locked m.log = true ∨
        ∀ k n q, k ≠ j → ts[k]? = some (some (n, q)) → locked n.log = false := by
      intro hl
      rw [locked_snoc] at hl
      cases i with
      | lockPull => exact .inr hlock
      | unlockPull => exact nomatch hl
      | _ => exact .inl hl
    have hother : ∀ k n q, k ≠ j → ts[k]? = some (some (n, q)) → locked n.log = true →
        locked (m.log ++ [⟨i, r⟩]) = true → False := by
      intro k n q hne hk hn hl
      rcases hself hl with hm | hnone
      · exact hne (h.exclusive k j n m q p hk hj hn hm)
      · exact absurd (hn.symm.trans (hnone k n q hne hk)) (by decide)
    intro a b n o q q' ha hb hn ho
    rcases Transition.getElem?_of_set ha with ⟨hja, heq⟩ | ⟨hane, ha⟩
    · cases heq
      rcases Transition.getElem?_of_set hb with ⟨hjb, -⟩ | ⟨hbne, hb⟩
      · exact hja.trans hjb.symm
      · exact False.elim (hother b o q' hbne hb ho hn)
    · rcases Transition.getElem?_of_set hb with ⟨-, heq⟩ | ⟨-, hb⟩
      · cases heq
        exact False.elim (hother a n q hane ha hn ho)
      · exact h.exclusive a b n o q q' ha hb hn ho
  · intro k n q hk
    rcases Transition.getElem?_of_set hk with ⟨-, heq⟩ | ⟨hne, hk⟩
    · cases heq
      exact callInv_self h hj hs hu hg
    · exact callInv_other h hj hs hu hg hne hk

/-- A call remembers its events and what it was called with. -/
theorem execPull_log (t : Tools) (i : PullOp) (s : Cache × CallMemory) (r : i.Res)
    (s' : Cache × CallMemory) (h : execPull t i s r s') :
    s'.2.log = s.2.log ++ [⟨i, r⟩] ∧ s'.2.call = s.2.call := by
  rw [h.2]
  exact ⟨rfl, rfl⟩

/-- A new call is guarded to its end. -/
theorem Calling.traced {t : Tools} {componentRef : String} (m : CallMemory) (p : CallThread)
    (hn : Calling t componentRef (m, p)) : ∃ q, p = Main.lift q ∧
      q.Traced (CallGuard t componentRef m.call) (fun _ _ => True) m.log := by
  obtain ⟨c⟩ := hn
  exact ⟨_, rfl, program_traced t componentRef c⟩

/-- The systems reachable from an empty cache where the pulls are kept apart. -/
abbrev PullReach (t : Tools) (componentRef : String) (c : PullSystem) : Prop :=
  Pool.ReachIf (execPull t) (Calling t componentRef) (Guarded t componentRef) ⟨.empty, []⟩ c

/-- **EVERY REACHABLE SYSTEM** keeps the invariant. -/
theorem pullInv_reach {t : Tools} {componentRef : String} {c : PullSystem}
    (hc : PullReach t componentRef c) : PullInv t componentRef c := by
  refine Pool.ReachIf.traced (G := CallGuard t componentRef) (R := fun _ _ _ => True)
    (execPull_log t) Calling.traced ?_ ?_ ?_ .refl (PullInv.empty t componentRef) hc
  · intro st ts x h hn
    exact h.spawn hn
  · intro st ts j m p i r st' m' p' h hj _ he hC hg
    exact h.step hj he hC hg
  · intro st ts j h
    exact h.crash j

/-! ## The pinned component runs -/

/-- What is asked of an operation of a call, which it has just performed. -/
structure Pinned (t : Tools) (componentRef : String) (c : Cache) (m : CallMemory) (ev : PullEvent) :
    Prop where
  cached : (m.call.ensuring t componentRef).Ran m.log (.ok ()) → FromArchive t m.call.digest c
  runs : ∀ policy wasm out, ev = ⟨.exec policy, (some wasm, out)⟩ →
    OfArchive t m.call.digest c.verified wasm
  untouched : ∀ e, (m.call.ensuring t componentRef).Ran m.log (.error e) →
    ∀ ev ∈ m.log, ¬ Wrote ev

/-- A wasm that runs under the policy read from a sidecar is the one the sidecar was
    written for. -/
theorem permitted_of_read {t : Tools} (ht : Function.Injective t.sha256) {digest : String}
    {v : List Json} {read : SidecarRead} (hread : read = .failed ∨
      ∃ wasm, OfArchive t digest v wasm ∧ read = .content (t.hexSha256 wasm)) {wasm : Bytes}
    (hp : (policyFor read).Permits t wasm) : OfArchive t digest v wasm := by
  have hunusable : ¬ (VerifyPolicy.mk false (some unusableDigest)).Permits t wasm := by
    rintro (h | h)
    · exact nomatch h
    · exact hex_ne_unusable t wasm (Option.some.inj h).symm
  rcases hread with rfl | ⟨wasm', hof, rfl⟩
  · exact absurd hp hunusable
  · rw [policyFor, trimmed_hex] at hp
    split at hp
    · exact absurd hp hunusable
    · rcases hp with hp | hp
      · exact nomatch hp
      · rw [← hexSha256_inj ht (Option.some.inj hp)]
        exact hof

/-- **THE PINNED COMPONENT RUNS**: in every run in which the pulls are kept apart, a call
    whose `ensure_cached` returns leaves the files of an archive with its digest, a dispatch
    runs only wasm of an archive with its digest, and an `ensure_cached` that fails has
    written nothing. -/
theorem pinned_runs (t : Tools) (ht : Function.Injective t.sha256) (componentRef : String)
    (c c' : PullSystem) (hc : PullReach t componentRef c) (j : Nat) (ev : PullEvent)
    (hstep : Pool.Step (execPull t) (Calling t componentRef) c (.run j (some ev)) c')
    (hguarded : Guarded t componentRef c j ev) :
    ∃ m p, c'.threads[j]? = some (some (m, p)) ∧ Pinned t componentRef c'.store m ev := by
  have hinv := pullInv_reach hc
  obtain ⟨m, m', p, p', hj, hthreads, ⟨hs, hm'⟩, hg⟩ := Pool.Reach.moved
    (G := CallGuard t componentRef) (R := fun _ _ _ => True) (execPull_log t) Calling.traced
    hc.reach hstep
  obtain ⟨i, r⟩ := ev
  obtain ⟨-, hu⟩ := hguarded
  replace hm' : m' = ⟨m.call, m.log ++ [⟨i, r⟩]⟩ := hm'
  have hlt := (List.getElem?_eq_some_iff.mp hj).1
  have hself : CallInv t componentRef c'.store m' := by
    rw [hm']
    exact callInv_self hinv hj hs hu hg
  have hget : c'.threads[j]? = some (some (m', p')) := by
    rw [hthreads]
    exact List.getElem?_set_self hlt
  refine ⟨m', p', hget, ?_, ?_, ?_⟩
  · intro hran
    rw [hm'] at hran ⊢
    have hfiles : FromArchive t m.call.digest c'.store := cached_of_ran hinv hj hs hu hg hran
    exact hfiles
  · intro policy wasm out hev
    cases hev
    obtain ⟨read, hmem, rfl⟩ := hg
    obtain ⟨hran, -⟩ := hs
    obtain ⟨-, hpermits⟩ := hran wasm rfl
    have hread : ⟨.readSidecar, read⟩ ∈ m'.log := by
      rw [hm']
      exact List.mem_append_left _ hmem
    exact permitted_of_read ht (hself.read read hread) hpermits
  · intro e hran
    have hend : EnsureEnd m'.call.digest false m'.log (.error e) :=
      Prog.Traced.ran hran (ensureCached_traced t componentRef m'.call.version m'.call.digest)
    rcases hend.2 with hno | ⟨ev, hev, hlate⟩
    · exact hno
    · exact absurd hlate (hself.intact ev hev)

/-! ## Two pins of one component -/

/-- A digest that tells all texts apart, and archives that hold their wasm as it is. -/
def plainTools : Tools where
  sha256 := id
  unzipDescribeAndWasm archive := .ok (.null, archive)
  debugText := id

/-- The store answers with the archive, every signature is trusted and every file operation
    succeeds. -/
def pulling (archive : Bytes) : Handler PullOp PullOp.Res (Cache × CallMemory)
  | .wasmExists, (c, m) =>
      (c.files.wasm.isSome, (c, ⟨m.call, m.log ++ [⟨.wasmExists, c.files.wasm.isSome⟩]⟩))
  | .sidecarExists, (c, m) =>
      (c.files.sidecar.isSome, (c, ⟨m.call, m.log ++ [⟨.sidecarExists, c.files.sidecar.isSome⟩]⟩))
  | .readMarker, (c, m) =>
      (c.files.marker, (c, ⟨m.call, m.log ++ [⟨.readMarker, c.files.marker⟩]⟩))
  | .lockPull, (c, m) => ((), (c, ⟨m.call, m.log ++ [⟨.lockPull, ()⟩]⟩))
  | .unlockPull, (c, m) => ((), (c, ⟨m.call, m.log ++ [⟨.unlockPull, ()⟩]⟩))
  | .storeUrl, (c, m) => (some "https://store.test",
      (c, ⟨m.call, m.log ++ [⟨.storeUrl, some "https://store.test"⟩]⟩))
  | .download url, (c, m) =>
      (.ok archive, (c, ⟨m.call, m.log ++ [⟨.download url, .ok archive⟩]⟩))
  | .verifyAuthenticity describe, (c, m) => (.ok (), ({ c with verified := describe :: c.verified },
      ⟨m.call, m.log ++ [⟨.verifyAuthenticity describe, .ok ()⟩]⟩))
  | .writeSidecar text, (c, m) => (.ok (),
      ({ c with files := { c.files with sidecar := some text, unfinished := true } },
        ⟨m.call, m.log ++ [⟨.writeSidecar text, .ok ()⟩]⟩))
  | .writeWasm wasm, (c, m) => (.ok (), ({ c with files := { c.files with wasm := some wasm } },
      ⟨m.call, m.log ++ [⟨.writeWasm wasm, .ok ()⟩]⟩))
  | .writeMarker text, (c, m) => (.ok (),
      ({ c with files := { c.files with marker := some text, unfinished := false } },
        ⟨m.call, m.log ++ [⟨.writeMarker text, .ok ()⟩]⟩))
  | .readSidecar, (c, m) =>
      let read := match c.files.sidecar with
        | some text => SidecarRead.content text
        | none => SidecarRead.notFound
      (read, (c, ⟨m.call, m.log ++ [⟨.readSidecar, read⟩]⟩))
  | .exec policy, (c, m) =>
      let ran := c.files.wasm.filter fun wasm =>
        policy.allowUnverified || policy.requiredDigest == some (plainTools.hexSha256 wasm)
      let answer : Option Bytes × Executed := (ran, .value .null)
      (answer, (c, ⟨m.call, m.log ++ [⟨.exec policy, answer⟩]⟩))

/-- The fixed answers are answers the cache may give. -/
theorem pulling_exec (archive : Bytes) (i : PullOp) (s : Cache × CallMemory) :
    execPull plainTools i s (pulling archive i s).1 (pulling archive i s).2 := by
  obtain ⟨c, m⟩ := s
  cases i with
  | wasmExists => exact ⟨⟨fun h => h, rfl⟩, rfl⟩
  | sidecarExists => exact ⟨⟨fun h => h, rfl⟩, rfl⟩
  | readMarker => exact ⟨⟨fun _ h => h, rfl⟩, rfl⟩
  | readSidecar =>
      refine ⟨⟨?_, ?_, rfl⟩, rfl⟩
      · intro text h
        cases hside : c.files.sidecar with
        | none => simp [pulling, hside] at h
        | some text' => simpa [pulling, hside] using h
      · intro h
        cases hside : c.files.sidecar with
        | none => rfl
        | some text => simp [pulling, hside] at h
  | exec policy =>
      refine ⟨⟨?_, rfl⟩, rfl⟩
      intro wasm h
      obtain ⟨hwasm, hperm⟩ := Option.filter_eq_some_iff.mp h
      refine ⟨hwasm, ?_⟩
      simpa [VerifyPolicy.Permits] using hperm
  | _ => exact ⟨rfl, rfl⟩

/-- A dispatch through a route pinned to the first version. -/
def firstCall : Call := ⟨true, "1", "01"⟩

/-- A pull of the second version. -/
def secondPull : Call := ⟨false, "2", "02"⟩

/-- A call before its first operation. -/
def called (c : Call) : CallMemory × CallThread :=
  (⟨c, []⟩, Main.lift (c.program plainTools "echo"))

theorem called_new (c : Call) : Calling plainTools "echo" (called c) := .intro c

/-- The dispatch has its component cached. -/
def firstCached : CallThread × Cache × CallMemory :=
  plays (pulling [1]) 10 ((called firstCall).2, (.empty, (called firstCall).1))

/-- The second version is pulled. -/
def secondCached : CallThread × Cache × CallMemory :=
  plays (pulling [2]) 14 ((called secondPull).2, (firstCached.2.1, (called secondPull).1))

/-- The dispatch reads the sidecar. -/
def sidecarRead : CallThread × Cache × CallMemory :=
  plays (pulling [1]) 1 (firstCached.1, (secondCached.2.1, firstCached.2.2))

/-- All live calls but the `j`-th. -/
def others (ts : List (Option (CallMemory × CallThread))) (j : Nat) (f : CallMemory → Bool) : Bool :=
  (List.range ts.length).all fun k => k == j || match ts[k]? with
    | some (some (n, _)) => f n
    | _ => true

/-- What the test says of the others. -/
theorem others_get {ts : List (Option (CallMemory × CallThread))} {j : Nat} {f : CallMemory → Bool}
    (h : others ts j f = true) {k : Nat} {n : CallMemory} {q : CallThread} (hne : k ≠ j)
    (hk : ts[k]? = some (some (n, q))) : f n = true := by
  have hlt := (List.getElem?_eq_some_iff.mp hk).1
  have hone := List.all_eq_true.mp h k (List.mem_range.mpr hlt)
  rw [hk, beq_eq_false_iff_ne.mpr hne] at hone
  exact hone

/-- The call is not between the return of its `ensure_cached` and its reading of the
    sidecar. -/
def elsewhere (n : CallMemory) : Bool :=
  !n.call.dispatched || locked n.log || match stage n.log with
    | .current _ | .marked => false
    | _ => true

/-- A call that passes the test has not ensured its entry. -/
theorem elsewhere_not_ran {t : Tools} {componentRef : String} {n : CallMemory}
    (h : elsewhere n = true) (hd : n.call.dispatched = true) :
    ¬ (n.call.ensuring t componentRef).Ran n.log (.ok ()) := by
  intro hran
  have hend : EnsureEnd n.call.digest false n.log (.ok ()) :=
    Prog.Traced.ran hran (ensureCached_traced t componentRef n.call.version n.call.digest)
  obtain ⟨hfree, hsettled⟩ := hend
  rw [elsewhere, hd, hfree] at h
  rcases hsettled with ⟨contents, hstage, -⟩ | hstage
  · rw [hstage] at h
    exact absurd h Bool.false_ne_true
  · rw [hstage] at h
    exact absurd h Bool.false_ne_true

/-- `Guarded`, as a test on one event of the call `j`. -/
def guarded? (ts : List (Option (CallMemory × CallThread))) (j : Nat) (s : Cache × CallMemory) :
    PullEvent → Bool
  | ⟨.lockPull, _⟩ => others ts j fun n => !locked n.log
  | ⟨.readMarker, some contents⟩ =>
      !markerMatches contents s.2.call.digest || !s.1.files.unfinished
  | ⟨.writeSidecar _, .ok _⟩ =>
      others ts j fun n => elsewhere n || markerMatches s.2.call.digest n.call.digest
  | ⟨.writeWasm _, .error _⟩ => false
  | ⟨.writeMarker _, .error _⟩ => false
  | _ => true

/-- The test of an operation is sound. -/
theorem guarded_of_test {ts : List (Option (CallMemory × CallThread))} {j : Nat}
    {s : Cache × CallMemory} {ev : PullEvent} (h : guarded? ts j s ev = true) (p : CallThread) :
    Guarded plainTools "echo" ⟨s.1, ts.set j (some (s.2, p))⟩ j ev := by
  obtain ⟨i, r⟩ := ev
  have hother : ∀ {k : Nat} {n : CallMemory} {q : CallThread}, k ≠ j →
      (ts.set j (some (s.2, p)))[k]? = some (some (n, q)) → ts[k]? = some (some (n, q)) := by
    intro k n q hne hk
    rwa [List.getElem?_set_ne (Ne.symm hne)] at hk
  have hown : ∀ {m : CallMemory} {q : CallThread},
      (ts.set j (some (s.2, p)))[j]? = some (some (m, q)) → m = s.2 := by
    intro m q hj
    rcases Transition.getElem?_of_set hj with ⟨-, heq⟩ | ⟨hne, -⟩
    · cases heq
      rfl
    · exact absurd rfl hne
  constructor
  · cases i with
    | lockPull =>
        intro k n q hne hk
        simpa using others_get h hne (hother hne hk)
    | _ => exact trivial
  · cases i with
    | readMarker =>
        cases r with
        | none => exact trivial
        | some contents =>
            intro m q hj hmatch
            rw [hown hj] at hmatch
            simpa [guarded?, hmatch] using h
    | writeSidecar text =>
        cases r with
        | error e => exact trivial
        | ok u =>
            intro m q hj k n q' hne hk hd hran
            rw [hown hj]
            rcases Bool.or_eq_true_iff.mp (others_get h hne (hother hne hk)) with haway | hsame
            · exact absurd hran (elsewhere_not_ran haway hd)
            · exact hsame
    | writeWasm wasm =>
        cases r with
        | error e => exact absurd h Bool.false_ne_true
        | ok u => exact trivial
    | writeMarker text =>
        cases r with
        | error e => exact absurd h Bool.false_ne_true
        | ok u => exact trivial
    | _ => exact trivial

/-- The call `j` moves on by `n` operations while the others wait. -/
def moved (h : Handler PullOp PullOp.Res (Cache × CallMemory)) (j n : Nat) (c : PullSystem) :
    PullSystem :=
  match c.threads[j]? with
  | some (some (m, p)) =>
      let d := plays h n (p, (c.store, m))
      ⟨d.2.1, c.threads.set j (some (d.2.2, d.1))⟩
  | _ => c

/-- These operations are guarded. -/
def apart? (h : Handler PullOp PullOp.Res (Cache × CallMemory)) (j n : Nat) (c : PullSystem) : Bool :=
  match c.threads[j]? with
  | some (some (m, p)) =>
      playMeets? (fun i s => guarded? c.threads j s ⟨i, (h i s).1⟩) (List.replicate n (0, h))
        (p, (c.store, m))
  | _ => true

/-- The handler answers as the cache does. -/
def Answers (h : Handler PullOp PullOp.Res (Cache × CallMemory)) : Prop :=
  ∀ i s, execPull plainTools i s (h i s).1 (h i s).2

/-- A call that moves under the test. -/
theorem PullReach.moved {c : PullSystem} (hc : PullReach plainTools "echo" c) (j n : Nat)
    {h : Handler PullOp PullOp.Res (Cache × CallMemory)} (hh : Answers h)
    (ht : apart? h j n c = true) :
    PullReach plainTools "echo" (moved h j n c) := by
  unfold StorePull.moved
  unfold apart? at ht
  split
  · rename_i m p hj
    rw [hj] at ht
    refine Pool.ReachIf.plays hh j n hc hj ?_ ?_
    · exact hc.reach.sequential (fun m p hn => (Calling.traced m p hn).imp fun _ hq => hq.1) j m p hj
    · exact playMeets_of_test (fun i s h p => guarded_of_test h p) _ _ ht
  · exact hc

/-- A new call. -/
def joined (x : Call) (c : PullSystem) : PullSystem := ⟨c.store, c.threads ++ [some (called x)]⟩

theorem PullReach.joined {c : PullSystem} (hc : PullReach plainTools "echo" c) (x : Call) :
    PullReach plainTools "echo" (joined x c) :=
  .tail hc (.spawn (called_new x)) (by rintro j ev ⟨⟩)

/-- What the call `j` does next. -/
def eventOf (h : Handler PullOp PullOp.Res (Cache × CallMemory)) (j : Nat) (c : PullSystem) :
    Option PullEvent :=
  match c.threads[j]? with
  | some (some (m, .call i _)) => some ⟨i, (h i (c.store, m)).1⟩
  | _ => none

/-- The next operation of a call is a guarded step of the system. -/
theorem moved_guarded {h : Handler PullOp PullOp.Res (Cache × CallMemory)} (hh : Answers h)
    {c : PullSystem} {j : Nat} {ev : PullEvent} (hev : eventOf h j c = some ev)
    (ht : apart? h j 1 c = true) :
    Pool.Step (execPull plainTools) (Calling plainTools "echo") c (.run j (some ev)) (moved h j 1 c)
      ∧ Guarded plainTools "echo" c j ev := by
  obtain ⟨st, ts⟩ := c
  unfold eventOf at hev
  split at hev
  · rename_i m i k hj
    cases hev
    replace hj : ts[j]? = some (some (m, .call i k)) := hj
    have hset : ts.set j (some (m, .call i k)) = ts := by
      obtain ⟨hlt, hx⟩ := List.getElem?_eq_some_iff.mp hj
      rw [← hx]
      exact List.set_getElem_self hlt
    constructor
    · have hmoved : moved h j 1 ⟨st, ts⟩ =
          ⟨(h i (st, m)).2.1, ts.set j (some ((h i (st, m)).2.2, k (h i (st, m)).1))⟩ := by
        unfold moved
        rw [hj]
        rfl
      rw [hmoved]
      exact .run hj (.call (hh i (st, m)))
    · unfold apart? at ht
      rw [hj] at ht
      have hguarded := guarded_of_test (s := (st, m)) (Bool.and_eq_true_iff.mp ht).1 (.call i k)
      rwa [hset] at hguarded
  · cases hev

/-- The store answers, but its disk takes no new file. -/
def diskFull (archive : Bytes) : Handler PullOp PullOp.Res (Cache × CallMemory)
  | .writeSidecar text, (c, m) =>
      (.error "disk full", (c, ⟨m.call, m.log ++ [⟨.writeSidecar text, .error "disk full"⟩]⟩))
  | i, s => pulling archive i s

/-- Answers of a disk that is full. -/
theorem diskFull_answers (archive : Bytes) : Answers (diskFull archive) := by
  intro i s
  cases i with
  | writeSidecar text => exact ⟨rfl, rfl⟩
  | _ => exact pulling_exec archive _ s

/-- The wasm that an event ran. -/
def ran : PullEvent → Option Bytes
  | ⟨.exec _, answer⟩ => answer.1
  | _ => none

/-- Two dispatches with two pins: both have found the cache empty, the first has its component
    cached and its sidecar read, the second has written a sidecar over it. -/
def crossing : PullSystem :=
  moved (pulling [2]) 1 8 (moved (pulling [1]) 0 10 (moved (pulling [2]) 1 1
    (moved (pulling [1]) 0 1 (joined ⟨true, "2", "02"⟩ (joined firstCall ⟨.empty, []⟩)))))

/-- The first has run its component, the second has its own cached and its sidecar read. -/
def crossed : PullSystem :=
  moved (pulling [2]) 1 4 (moved (pulling [1]) 0 1 crossing)

/-- The second has run; a pull of a third version could not write its sidecar. -/
def refused : PullSystem :=
  moved (diskFull [3]) 2 11 (joined ⟨false, "3", "03"⟩ (moved (pulling [2]) 1 1 crossed))

/-- A pull of a fourth version was cut behind its sidecar, and a dispatch of the first version
    has cached that again. -/
def recovered : PullSystem :=
  let cut := moved (pulling [4]) 3 11 (joined ⟨false, "4", "04"⟩ (moved (diskFull [3]) 2 1 refused))
  moved (pulling [1]) 4 15 (joined firstCall ⟨cut.store, cut.threads.set 3 none⟩)

/-- The call `j` has just done its operation `ev` and is pinned. -/
def PinnedCall (c : PullSystem) (j : Nat) (digest : String) (ev : PullEvent) : Prop :=
  ∃ m p, c.threads[j]? = some (some (m, p)) ∧ m.call.digest = digest
    ∧ Pinned plainTools "echo" c.store m ev

/-- A pinned call asks for its digest. -/
theorem pinnedCall_digest {c : PullSystem} {j : Nat} {digest : String}
    (h : (c.threads[j]?.map fun t => t.map fun x => x.1.call.digest) = some (some digest))
    {m : CallMemory} {p : CallThread} (hj : c.threads[j]? = some (some (m, p))) :
    m.call.digest = digest := by
  rw [hj] at h
  exact Option.some.inj (Option.some.inj h)

/-- The pull of the third version on its own, where the second left the files. -/
def refusedRun : List PullEvent × Except StorePullError Unit :=
  (Call.ensuring ⟨false, "3", "03"⟩ plainTools "echo").served (diskFull [3])
    ((moved (pulling [2]) 1 1 crossed).store, ⟨⟨false, "3", "03"⟩, []⟩)

/-- Three pins of one component, a pull that cannot write and one that is cut: both dispatches
    run what they are pinned to, the failed pull has written nothing, and a later dispatch runs
    its own version again. -/
theorem pinned_runs_crossing :
    (∃ ev, ran ev = some [1] ∧ PinnedCall (moved (pulling [1]) 0 1 crossing) 0 "01" ev)
      ∧ (∃ ev, ran ev = some [2] ∧ PinnedCall (moved (pulling [2]) 1 1 crossed) 1 "02" ev)
      ∧ (∃ ev, PinnedCall (moved (diskFull [3]) 2 1 refused) 2 "03" ev
        ∧ refusedRun.2 = .error (.io "write wasm sidecar: disk full")
        ∧ ∀ ev ∈ refusedRun.1, ¬ Wrote ev)
      ∧ ∃ ev, ran ev = some [1] ∧ PinnedCall (moved (pulling [1]) 4 1 recovered) 4 "01" ev := by
  have hempty : PullReach plainTools "echo" ⟨.empty, []⟩ := .refl
  have hcrossing : PullReach plainTools "echo" crossing :=
    (((((hempty.joined firstCall).joined ⟨true, "2", "02"⟩).moved 0 1 (pulling_exec [1])
      (by decide +kernel)).moved 1 1 (pulling_exec [2]) (by decide +kernel)).moved 0 10
      (pulling_exec [1]) (by decide +kernel)).moved 1 8 (pulling_exec [2]) (by decide +kernel)
  have hcrossed : PullReach plainTools "echo" crossed :=
    (hcrossing.moved 0 1 (pulling_exec [1]) (by decide +kernel)).moved 1 4 (pulling_exec [2])
      (by decide +kernel)
  have hrefused : PullReach plainTools "echo" refused :=
    ((hcrossed.moved 1 1 (pulling_exec [2]) (by decide +kernel)).joined ⟨false, "3", "03"⟩).moved 2 11
      (diskFull_answers [3]) (by decide +kernel)
  have hcut := ((hrefused.moved 2 1 (diskFull_answers [3]) (by decide +kernel)).joined
    ⟨false, "4", "04"⟩).moved 3 11 (pulling_exec [4]) (by decide +kernel)
  have hcrash : PullReach plainTools "echo" ⟨_, _⟩ := .tail hcut (.crash 3) (by rintro j ev ⟨⟩)
  have hrecovered : PullReach plainTools "echo" recovered :=
    (hcrash.joined firstCall).moved 4 15 (pulling_exec [1]) (by decide +kernel)
  -- what the next operation of a call comes to
  have hnext : ∀ {h : Handler PullOp PullOp.Res (Cache × CallMemory)} {c : PullSystem} {j : Nat}
      {digest : String} {ev : PullEvent}, Answers h → PullReach plainTools "echo" c →
      apart? h j 1 c = true → eventOf h j c = some ev →
      ((moved h j 1 c).threads[j]?.map fun t => t.map fun x => x.1.call.digest) = some (some digest) →
      PinnedCall (moved h j 1 c) j digest ev := by
    intro h c j digest ev hh hc ht hev hdigest
    obtain ⟨hstep, hguarded⟩ := moved_guarded hh hev ht
    obtain ⟨m, p, hget, hpinned⟩ := pinned_runs plainTools Function.injective_id "echo" c _ hc j ev
      hstep hguarded
    exact ⟨m, p, hget, pinnedCall_digest hdigest hget, hpinned⟩
  refine ⟨?_, ?_, ?_, ?_⟩
  · have hran : (eventOf (pulling [1]) 0 crossing).map ran = some (some [1]) := by decide +kernel
    obtain ⟨ev, hev, hwasm⟩ := Option.map_eq_some_iff.mp hran
    exact ⟨ev, hwasm, hnext (pulling_exec [1]) hcrossing (by decide +kernel) hev (by decide +kernel)⟩
  · have hran : (eventOf (pulling [2]) 1 crossed).map ran = some (some [2]) := by decide +kernel
    obtain ⟨ev, hev, hwasm⟩ := Option.map_eq_some_iff.mp hran
    exact ⟨ev, hwasm, hnext (pulling_exec [2]) hcrossed (by decide +kernel) hev (by decide +kernel)⟩
  · have hran : (eventOf (diskFull [3]) 2 refused).map ran = some none := by decide +kernel
    obtain ⟨ev, hev, -⟩ := Option.map_eq_some_iff.mp hran
    obtain ⟨m, p, hget, hdigest, hpinned⟩ : PinnedCall _ 2 "03" ev :=
      hnext (diskFull_answers [3]) hrefused (by decide +kernel) hev (by decide +kernel)
    have hfailed : refusedRun.2 = .error (.io "write wasm sidecar: disk full") := rfl
    have hlog : (moved (diskFull [3]) 2 1 refused).threads[2]?.map
        (fun t => t.map fun x => (x.1.call, x.1.log)) = some (some (⟨false, "3", "03"⟩, refusedRun.1)) := rfl
    rw [hget] at hlog
    obtain ⟨hcall, hlog⟩ := Prod.mk.inj (Option.some.inj (Option.some.inj hlog))
    have hended : (m.call.ensuring plainTools "echo").Ran m.log
        (.error (.io "write wasm sidecar: disk full")) := by
      rw [hcall, hlog, ← hfailed]
      exact Prog.ran_served _ _ _
    refine ⟨ev, ⟨m, p, hget, hdigest, hpinned⟩, hfailed, ?_⟩
    rw [← hlog]
    exact hpinned.untouched _ hended
  · have hran : (eventOf (pulling [1]) 4 recovered).map ran = some (some [1]) := by decide +kernel
    obtain ⟨ev, hev, hwasm⟩ := Option.map_eq_some_iff.mp hran
    exact ⟨ev, hwasm, hnext (pulling_exec [1]) hrecovered (by decide +kernel) hev (by decide +kernel)⟩

/-- The systems reachable where only the lock keeps calls apart. -/
abbrev EchoReach (c : PullSystem) : Prop :=
  Pool.ReachIf (execPull plainTools) (Calling plainTools "echo") PullLock ⟨.empty, []⟩ c

/-- The lock is free for a call when no other holds it. -/
theorem pullLock_free {st : Cache} {ts : List (Option (CallMemory × CallThread))} {j : Nat}
    (h : ∀ i m p, i ≠ j → ts[i]? = some (some (m, p)) → locked m.log = false)
    (x : CallMemory × CallThread) (ev : PullEvent) : PullLock ⟨st, ts.set j (some x)⟩ j ev := by
  obtain ⟨i, r⟩ := ev
  cases i with
  | lockPull =>
      intro i m p hne hi
      rw [show (Pool.mk st (ts.set j (some x))).threads = ts.set j (some x) from rfl,
        List.getElem?_set_ne (Ne.symm hne)] at hi
      exact h i m p hne hi
  | _ => exact trivial

/-- One call after the other moves on under the lock. -/
theorem EchoReach.plays {st : Cache} {ts : List (Option (CallMemory × CallThread))} {j : Nat}
    {m : CallMemory} {p : CallThread} (h : EchoReach ⟨st, ts⟩) (hj : ts[j]? = some (some (m, p)))
    (hfree : ∀ i m p, i ≠ j → ts[i]? = some (some (m, p)) → locked m.log = false)
    (archive : Bytes) (n : Nat) :
    EchoReach ⟨(Resumption.plays (pulling archive) n (p, (st, m))).2.1, ts.set j (some
      ((Resumption.plays (pulling archive) n (p, (st, m))).2.2,
        (Resumption.plays (pulling archive) n (p, (st, m))).1))⟩ := by
  refine Pool.ReachIf.plays (pulling_exec archive) j n h hj ?_ ?_
  · exact h.reach.sequential (fun m p hn => (Calling.traced m p hn).imp fun _ hq => hq.1) j m p hj
  · exact playMeets_of_forall (fun i s p => pullLock_free hfree _ _) _ _

/-- **THE OTHER PIN RUNS**: the dispatch pinned to the first version has it cached, another
    call pulls the second version, and the dispatch runs that. -/
theorem other_pin_runs : ∃ (c c' : PullSystem) (ev : PullEvent) (m : CallMemory) (p : CallThread),
    EchoReach c ∧ c.threads[0]? = some (some (m, p)) ∧ m.call = firstCall
      ∧ Pool.Step (execPull plainTools) (Calling plainTools "echo") c (.run 0 (some ev)) c'
      ∧ ∃ policy out, ev = ⟨.exec policy, (some [2], out)⟩
        ∧ ¬ OfArchive plainTools firstCall.digest c'.store.verified [2] := by
  have hunlocked : locked firstCached.2.2.log = false := by decide +kernel
  have hunlocked' : locked secondCached.2.2.log = false := by decide +kernel
  have h0 : EchoReach ⟨.empty, [some (called firstCall)]⟩ :=
    .tail .refl (.spawn (called_new firstCall)) (by rintro j ev ⟨⟩)
  have h1 := h0.plays (j := 0) rfl (by
    intro i m p hne hi
    cases i with
    | zero => exact absurd rfl hne
    | succ i => exact nomatch hi) [1] 10
  have h2 : EchoReach ⟨firstCached.2.1, [some (firstCached.2.2, firstCached.1),
      some (called secondPull)]⟩ :=
    .tail h1 (.spawn (called_new secondPull)) (by rintro j ev ⟨⟩)
  have h3 : EchoReach ⟨secondCached.2.1, [some (firstCached.2.2, firstCached.1),
      some (secondCached.2.2, secondCached.1)]⟩ := h2.plays (j := 1) rfl (by
    intro i m p hne hi
    match i, hi with
    | 0, hi =>
        cases hi
        exact hunlocked
    | 1, _ => exact absurd rfl hne
    | i + 2, hi => exact nomatch hi) [2] 14
  have h4 : EchoReach ⟨sidecarRead.2.1, [some (sidecarRead.2.2, sidecarRead.1),
      some (secondCached.2.2, secondCached.1)]⟩ := h3.plays (j := 0) rfl (by
    intro i m p hne hi
    match i, hi with
    | 0, _ => exact absurd rfl hne
    | 1, hi =>
        cases hi
        exact hunlocked'
    | i + 2, hi => exact nomatch hi) [1] 1
  refine ⟨_, _, _, _, _, h4, rfl, rfl, .run rfl (.call (pulling_exec [1] _ _)), _, _, rfl, ?_⟩
  rintro ⟨archive, describe, hunzip, -, hsha⟩
  cases hunzip
  exact absurd hsha (by decide +kernel)

end Greentic.StorePull
