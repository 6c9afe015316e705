import GreenticRunner.ApprovalGate
import GreenticRunner.ResumptionTrace
import GreenticRunner.TextCodec

/-! # Pulled components

    `mcp_store_pull` and `mcp_local`: a component of the store is pulled into three files of
    the cache, checked against the digest it is pinned to, and run from there.

    * `ensureCached` — the three files are those of the pinned archive, or are pulled;
    * `localCallTool` — a dispatch to a pinned component;
    * `ensureCached_traced`, `localCallTool_traced` — what a call does, whatever it is answered. -/

namespace Greentic.StorePull

open Resumption Aw

/-! ## Errors and parameters -/

abbrev Bytes : Type := List UInt8

/-- `StorePullError`. -/
inductive StorePullError where
  | config (reason : String)
  | network (reason : String)
  | integrity (reason : String)
  | signature (reason : String)
  | archive (reason : String)
  | io (reason : String)

/-- `Display` of `StorePullError`. -/
def StorePullError.display : StorePullError → String
  | .config reason => "store-pull config error: " ++ reason
  | .network reason => "store-pull network error: " ++ reason
  | .integrity reason => "store-pull integrity error: " ++ reason
  | .signature reason => "store-pull signature error: " ++ reason
  | .archive reason => "store-pull archive error: " ++ reason
  | .io reason => "store-pull io error: " ++ reason

/-- What the pull takes from elsewhere: SHA-256, the zip archive with its describe document
    and `extension.wasm`, and the quoting of a text. -/
structure Tools where
  sha256 : Bytes → Bytes
  unzipDescribeAndWasm : Bytes → Except StorePullError (Json × Bytes)
  debugText : String → String

/-- `hex_sha256`. -/
def Tools.hexSha256 (t : Tools) (bytes : Bytes) : String :=
  String.ofList (TextCodec.hexEncode (t.sha256 bytes))

/-! ## Checks -/

/-- `validate_component_ref`. -/
def validateComponentRef (t : Tools) (componentRef : String) : Except StorePullError Unit :=
  if !componentRef.isEmpty && componentRef.utf8ByteSize ≤ 128
      && componentRef.toList.head? != some '.' && !hasDots componentRef.toList
      && componentRef.toList.all fun c =>
        isAsciiAlphanumeric c || c == '.' || c == '_' || c == '-' then .ok ()
  else .error (.config ("invalid component_ref " ++ t.debugText componentRef ++
    ": only [A-Za-z0-9._-] is allowed, no path traversal"))

/-- `validate_component_version`. -/
def validateComponentVersion (t : Tools) (version : String) : Except StorePullError Unit :=
  if !version.isEmpty && version.utf8ByteSize ≤ 128 && !hasDots version.toList
      && version.toList.all fun c =>
        isAsciiAlphanumeric c || c == '.' || c == '_' || c == '-' || c == '+' then .ok ()
  else .error (.config ("invalid component_version " ++ t.debugText version))

/-- `gtxpack_marker_matches`, on a marker that could be read. -/
def markerMatches (contents expectedDigest : String) : Bool :=
  Engine.eqIgnoreAsciiCase (Engine.trimmed contents) (Engine.trimmed expectedDigest)

/-- `trim_end_matches('/')`. -/
def trimSlashes (base : String) : String :=
  String.ofList (base.toList.reverse.dropWhile (· == '/')).reverse

/-- The URL of an artifact. -/
def artifactUrl (base componentRef version : String) : String :=
  trimSlashes base ++ "/api/v1/extensions/" ++ componentRef ++ "/" ++ version ++ "/artifact"

/-! ## Operations -/

/-- What reading the sidecar gives. -/
inductive SidecarRead where
  | content (text : String)
  | notFound
  | failed
  deriving DecidableEq

/-- `VerifyPolicy`, with the digest required of the component. -/
structure VerifyPolicy where
  allowUnverified : Bool
  requiredDigest : Option String
  deriving DecidableEq

/-- How an execution ended. -/
inductive Executed where
  | value (v : Json)
  | failed (reason : String)
  | panicked (reason : String)

/-- The operations of a call: the three files of the component, its pull lock, the store and
    the executor.  An execution is answered with the wasm that was run, if any. -/
inductive PullOp where
  | wasmExists
  | sidecarExists
  | readMarker
  | lockPull
  | unlockPull
  | storeUrl
  | download (url : String)
  | verifyAuthenticity (describe : Json)
  | writeSidecar (text : String)
  | writeWasm (wasm : Bytes)
  | writeMarker (text : String)
  | readSidecar
  | exec (policy : VerifyPolicy)

/-- The answer of each operation. -/
@[reducible] def PullOp.Res : PullOp → Type
  | .wasmExists => Bool
  | .sidecarExists => Bool
  | .readMarker => Option String
  | .lockPull => Unit
  | .unlockPull => Unit
  | .storeUrl => Option String
  | .download _ => Except StorePullError Bytes
  | .verifyAuthenticity _ => Except StorePullError Unit
  | .writeSidecar _ => Except String Unit
  | .writeWasm _ => Except String Unit
  | .writeMarker _ => Except String Unit
  | .readSidecar => SidecarRead
  | .exec _ => Option Bytes × Executed

/-- An operation with its answer. -/
abbrev PullEvent : Type := Event PullOp PullOp.Res

/-- A part of a pull. -/
abbrev Pull (α : Type) : Type := Prog PullOp PullOp.Res StorePullError α

/-! ## `ensure_cached` -/

/-- `cache_is_current`: each file is looked at only if the one before it is there. -/
def cacheIsCurrent (digest : String) : Pull Bool := do
  match ← Prog.perform PullOp.wasmExists with
  | false => return false
  | true =>
      match ← Prog.perform PullOp.sidecarExists with
      | false => return false
      | true =>
          match ← Prog.perform PullOp.readMarker with
          | none => return false
          | some contents => return markerMatches contents digest

/-- The archive is downloaded. -/
def fetchArchive (componentRef version : String) : Pull Bytes := do
  match ← Prog.perform PullOp.storeUrl with
  | none => .fail (.config "GREENTIC_STORE_URL unset")
  | some base =>
      match ← Prog.perform (PullOp.download (artifactUrl base componentRef version)) with
      | .error e => .fail e
      | .ok archive => return archive

/-- The archive has the pinned digest and is signed: its wasm. -/
def checkArchive (t : Tools) (componentRef version digest : String) (archive : Bytes) :
    Pull Bytes := do
  if !Engine.eqIgnoreAsciiCase (t.hexSha256 archive) digest then
    .fail (.integrity ("digest mismatch for " ++ componentRef ++ "@" ++ version ++ ": computed "
      ++ t.hexSha256 archive ++ ", expected " ++ digest))
  else
    match t.unzipDescribeAndWasm archive with
    | .error e => .fail e
    | .ok (describe, wasm) =>
        match ← Prog.perform (PullOp.verifyAuthenticity describe) with
        | .error e => .fail e
        | .ok _ => return wasm

/-- The three files are written: the sidecar, the wasm and, last, the marker. -/
def install (t : Tools) (digest : String) (wasm : Bytes) : Pull Unit := do
  match ← Prog.perform (PullOp.writeSidecar (t.hexSha256 wasm)) with
  | .error e => .fail (.io ("write wasm sidecar: " ++ e))
  | .ok _ =>
      match ← Prog.perform (PullOp.writeWasm wasm) with
      | .error e => .fail (.io e)
      | .ok _ =>
          match ← Prog.perform (PullOp.writeMarker digest) with
          | .error e => .fail (.io ("write gtxpack marker: " ++ e))
          | .ok _ => return ()

/-- What is done under the pull lock: another call may have finished this very pull. -/
def pullLocked (t : Tools) (componentRef version digest : String) : Pull Unit := do
  match ← cacheIsCurrent digest with
  | true => return ()
  | false =>
      let archive ← fetchArchive componentRef version
      let wasm ← checkArchive t componentRef version digest archive
      install t digest wasm

/-- `ensure_cached`. -/
def ensureCached (t : Tools) (componentRef version digest : String) : Pull Unit := do
  Prog.ofExcept (validateComponentRef t componentRef)
  Prog.ofExcept (validateComponentVersion t version)
  match ← cacheIsCurrent digest with
  | true => return ()
  | false =>
      Prog.perform PullOp.lockPull
      (pullLocked t componentRef version digest).ensure PullOp.unlockPull

/-! ## A dispatch -/

/-- `UNUSABLE_DIGEST`. -/
def unusableDigest : String := "unusable-sidecar"

/-- `exec_config_for`, once the sidecar is read. -/
def policyFor : SidecarRead → VerifyPolicy
  | .notFound => ⟨true, none⟩
  | .failed => ⟨false, some unusableDigest⟩
  | .content text =>
      if (Engine.trimmed text).isEmpty then ⟨false, some unusableDigest⟩
      else ⟨false, some (Engine.trimmed text)⟩

/-- A dispatch to a local component. -/
abbrev Dispatching (α : Type) : Type := Prog PullOp PullOp.Res String α

/-- `exec_config_for` with `read_pinned_digest`. -/
def execConfigFor (t : Tools) (componentRef : String) : Dispatching VerifyPolicy :=
  match validateComponentRef t componentRef with
  | .error _ => .ret ⟨false, some unusableDigest⟩
  | .ok _ => do
      let read ← Prog.perform PullOp.readSidecar
      return policyFor read

/-- What an execution is reported as. -/
def Executed.report : Executed → Json
  | .value v => v
  | .failed reason => .obj [("error", .str ("local mcp call failed: " ++ reason))]
  | .panicked reason => .obj [("error", .str ("local mcp call panicked: " ++ reason))]

/-- `local_call_tool`. -/
def localCallTool (t : Tools) (componentRef : String) : Dispatching Json := do
  let policy ← execConfigFor t componentRef
  let answer ← Prog.perform (PullOp.exec policy)
  return answer.2.report

/-- The part of a route that a local dispatch reads. -/
structure LocalRoute where
  componentRef : Option String
  componentVersion : Option String
  componentDigest : Option String

/-- `call_route`, for a local component. -/
def callRoute (t : Tools) (route : LocalRoute) : Dispatching Json :=
  match route.componentRef with
  | none => .fail "local-wasm route missing component_ref"
  | some component =>
      match route.componentVersion with
      | none => .fail ("local-wasm route '" ++ component
          ++ "' missing component_version; cannot pull")
      | some version =>
          match route.componentDigest with
          | none => .fail ("local-wasm route '" ++ component
              ++ "' missing component_digest; cannot pull")
          | some digest =>
              (ensureCached t component version digest).mapError (fun e =>
                "local-wasm store-pull failed for '" ++ component ++ "' during dispatch: "
                  ++ e.display) >>= fun _ => localCallTool t component

/-! ## What a call does -/

/-- The pull lock after one more event of a call. -/
def lockedNext (held : Bool) : PullEvent → Bool
  | ⟨.lockPull, _⟩ => true
  | ⟨.unlockPull, _⟩ => false
  | _ => held

/-- The call holds the pull lock. -/
def locked (h : List PullEvent) : Bool := h.foldl lockedNext false

/-- How far a call has come: a marker was read, or some of the files are written. -/
inductive Stage where
  | idle
  | current (contents : String)
  | sidecar (text : String)
  | wasm (text : String) (wasm : Bytes)
  | marked

/-- The stage after one more event. -/
def Stage.next (s : Stage) : PullEvent → Stage
  | ⟨.readMarker, some contents⟩ => .current contents
  | ⟨.writeSidecar text, .ok _⟩ => .sidecar text
  | ⟨.writeWasm bytes, .ok _⟩ =>
      match s with
      | .sidecar text => .wasm text bytes
      | _ => .idle
  | ⟨.writeMarker _, .ok _⟩ =>
      match s with
      | .wasm _ _ => .marked
      | _ => .idle
  | ⟨.unlockPull, _⟩ => s
  | _ => .idle

/-- The stage of a call. -/
def stage (h : List PullEvent) : Stage := h.foldl Stage.next .idle

/-- The lock after one more event. -/
@[simp] theorem locked_snoc (h : List PullEvent) (ev : PullEvent) :
    locked (h ++ [ev]) = lockedNext (locked h) ev := by
  rw [locked, List.foldl_append]
  rfl

/-- The stage after one more event. -/
@[simp] theorem stage_snoc (h : List PullEvent) (ev : PullEvent) :
    stage (h ++ [ev]) = (stage h).next ev := by
  rw [stage, List.foldl_append]
  rfl

/-- A file was written. -/
def Wrote : PullEvent → Prop
  | ⟨.writeSidecar _, .ok _⟩ => True
  | ⟨.writeWasm _, .ok _⟩ => True
  | ⟨.writeMarker _, .ok _⟩ => True
  | _ => False

/-- A write that comes after another one failed. -/
def FailedLate : PullEvent → Prop
  | ⟨.writeWasm _, .error _⟩ => True
  | ⟨.writeMarker _, .error _⟩ => True
  | _ => False

/-- The event neither touches the lock nor writes. -/
def IsRead : PullEvent → Prop
  | ⟨.wasmExists, _⟩ => True
  | ⟨.sidecarExists, _⟩ => True
  | ⟨.readMarker, _⟩ => True
  | ⟨.storeUrl, _⟩ => True
  | ⟨.download _, _⟩ => True
  | ⟨.verifyAuthenticity _, _⟩ => True
  | _ => False

/-- A read neither moves the lock nor writes. -/
theorem IsRead.keeps {ev : PullEvent} (h : IsRead ev) :
    (∀ held, lockedNext held ev = held) ∧ ¬ Wrote ev := by
  obtain ⟨i, r⟩ := ev
  cases i <;> first
    | exact False.elim h
    | exact ⟨fun _ => rfl, fun hw => hw⟩

/-- The wasm of an archive with the pinned digest, whose authenticity was verified. -/
def Checked (t : Tools) (digest : String) (h : List PullEvent) (wasm : Bytes) : Prop :=
  ∃ archive describe, t.unzipDescribeAndWasm archive = .ok (describe, wasm)
    ∧ Engine.eqIgnoreAsciiCase (t.hexSha256 archive) digest = true
    ∧ ⟨.verifyAuthenticity describe, .ok ()⟩ ∈ h

theorem Checked.mono {t : Tools} {digest : String} {h : List PullEvent} {wasm : Bytes}
    (hc : Checked t digest h wasm) (ev : PullEvent) : Checked t digest (h ++ [ev]) wasm := by
  obtain ⟨archive, describe, hunzip, hsha, hverified⟩ := hc
  exact ⟨archive, describe, hunzip, hsha, List.mem_append_left _ hverified⟩

/-- What `ensure_cached` guarantees of an event. -/
def EnsureGuard (t : Tools) (digest : String) (h : List PullEvent) : PullEvent → Prop
  | ⟨.lockPull, _⟩ => locked h = false
  | ⟨.unlockPull, _⟩ => locked h = true
  | ⟨.writeSidecar text, _⟩ => locked h = true ∧ ∃ wasm, Checked t digest h wasm
      ∧ text = t.hexSha256 wasm
  | ⟨.writeWasm wasm, _⟩ => locked h = true ∧ Checked t digest h wasm
      ∧ stage h = .sidecar (t.hexSha256 wasm)
  | ⟨.writeMarker text, _⟩ => locked h = true ∧ text = digest ∧ ∃ wasm, Checked t digest h wasm
      ∧ stage h = .wasm (t.hexSha256 wasm) wasm
  | ⟨.readSidecar, _⟩ => False
  | ⟨.exec _, _⟩ => False
  | _ => True

/-- The files are those of the pinned archive, as far as the call can tell. -/
def Settled (digest : String) (h : List PullEvent) : Prop :=
  (∃ contents, stage h = .current contents ∧ markerMatches contents digest = true)
    ∨ stage h = .marked

/-- How `ensure_cached` ends: with the files in place, or without a write unless a later
    write failed. -/
def EnsureEnd (digest : String) (held : Bool) (h : List PullEvent) :
    Except StorePullError Unit → Prop
  | .ok _ => locked h = held ∧ Settled digest h
  | .error _ => locked h = held ∧ ((∀ ev ∈ h, ¬ Wrote ev) ∨ ∃ ev ∈ h, FailedLate ev)

/-- The call has only read since `h`. -/
def Looked (h h' : List PullEvent) : Prop := ∃ evs, h' = h ++ evs ∧ ∀ ev ∈ evs, IsRead ev

theorem Looked.refl (h : List PullEvent) : Looked h h :=
  ⟨[], (List.append_nil h).symm, fun _ hev => nomatch hev⟩

/-- One more read. -/
theorem Looked.snoc {h h' : List PullEvent} (hl : Looked h h') {e : PullEvent} (he : IsRead e) :
    Looked h (h' ++ [e]) := by
  obtain ⟨evs, rfl, hevs⟩ := hl
  refine ⟨evs ++ [e], List.append_assoc .., ?_⟩
  intro ev hev
  rcases List.mem_append.mp hev with hev | hev
  · exact hevs ev hev
  · rw [List.mem_singleton.mp hev]
    exact he

theorem Looked.trans {h h' h'' : List PullEvent} (h1 : Looked h h') (h2 : Looked h' h'') :
    Looked h h'' := by
  obtain ⟨evs, rfl, hevs⟩ := h1
  obtain ⟨evs', rfl, hevs'⟩ := h2
  refine ⟨evs ++ evs', List.append_assoc .., ?_⟩
  intro e he
  rcases List.mem_append.mp he with he | he
  · exact hevs e he
  · exact hevs' e he

/-- Looking leaves the lock as it was. -/
theorem Looked.locked {h h' : List PullEvent} (hl : Looked h h') :
    StorePull.locked h' = StorePull.locked h := by
  obtain ⟨evs, rfl, hevs⟩ := hl
  induction evs using List.reverseRecOn with
  | nil => rw [List.append_nil]
  | append_singleton evs ev ih =>
      rw [← List.append_assoc, locked_snoc,
        (hevs ev (List.mem_append_right _ (List.mem_singleton.mpr rfl))).keeps.1]
      exact ih fun e he => hevs e (List.mem_append_left _ he)

/-- Looking writes nothing. -/
theorem Looked.noWrites {h h' : List PullEvent} (hl : Looked h h')
    (hno : ∀ ev ∈ h, ¬ Wrote ev) : ∀ ev ∈ h', ¬ Wrote ev := by
  obtain ⟨evs, rfl, hevs⟩ := hl
  intro ev hev
  rcases List.mem_append.mp hev with hev | hev
  · exact hno ev hev
  · exact (hevs ev hev).keeps.2

section Calls

variable (t : Tools) (componentRef version digest : String)

/-- The cache check only looks, and says yes to a settled entry only. -/
theorem cacheIsCurrent_traced (h : List PullEvent) :
    (cacheIsCurrent digest).Traced (EnsureGuard t digest) (fun h' r => Looked h h' ∧
      ∃ current, r = .ok current ∧ (current = true → Settled digest h')) h := by
  have hstop : ∀ h' : List PullEvent, Looked h h' → Looked h h' ∧ ∃ current : Bool,
      (Except.ok false : Except StorePullError Bool) = .ok current ∧
        (current = true → Settled digest h') :=
    fun h' hl => ⟨hl, false, rfl, fun hf => nomatch hf⟩
  unfold cacheIsCurrent
  rw [Prog.perform_bind]
  intro found
  have hl := (Looked.refl h).snoc (e := ⟨.wasmExists, found⟩) trivial
  refine ⟨trivial, ?_⟩
  cases found with
  | false => exact hstop _ hl
  | true =>
      beta_reduce
      dsimp only
      rw [Prog.perform_bind]
      intro found
      replace hl := hl.snoc (e := ⟨.sidecarExists, found⟩) trivial
      refine ⟨trivial, ?_⟩
      cases found with
      | false => exact hstop _ hl
      | true =>
          beta_reduce
          dsimp only
          rw [Prog.perform_bind]
          intro marker
          replace hl := hl.snoc (e := ⟨.readMarker, marker⟩) trivial
          refine ⟨trivial, ?_⟩
          cases marker with
          | none => exact hstop _ hl
          | some contents =>
              refine ⟨hl, _, rfl, ?_⟩
              intro hmatch
              refine .inl ⟨contents, ?_, hmatch⟩
              rw [stage_snoc]
              rfl

/-- A fetch only looks. -/
theorem fetchArchive_traced (h : List PullEvent) :
    (fetchArchive componentRef version).Traced (EnsureGuard t digest)
      (fun h' _ => Looked h h') h := by
  unfold fetchArchive
  rw [Prog.perform_bind]
  intro base
  have hl := (Looked.refl h).snoc (e := ⟨.storeUrl, base⟩) trivial
  refine ⟨trivial, ?_⟩
  cases base with
  | none => exact hl
  | some base =>
      beta_reduce
      dsimp only
      rw [Prog.perform_bind]
      intro answer
      have hl' := hl.snoc (e := ⟨.download _, answer⟩) trivial
      refine ⟨trivial, ?_⟩
      cases answer with
      | error e => exact hl'
      | ok archive => exact hl'

/-- What leaves the archive check was checked against the digest. -/
theorem checkArchive_traced (archive : Bytes) (h : List PullEvent) :
    (checkArchive t componentRef version digest archive).Traced (EnsureGuard t digest)
      (fun h' r => Looked h h' ∧ ∀ wasm, r = .ok wasm → Checked t digest h' wasm) h := by
  unfold checkArchive
  by_cases hsha : (!Engine.eqIgnoreAsciiCase (t.hexSha256 archive) digest) = true
  · rw [if_pos hsha]
    exact ⟨.refl h, fun wasm hw => nomatch hw⟩
  · rw [if_neg hsha]
    cases hunzip : t.unzipDescribeAndWasm archive with
    | error e => exact ⟨.refl h, fun wasm hw => nomatch hw⟩
    | ok opened =>
        obtain ⟨describe, wasm⟩ := opened
        dsimp only
        rw [Prog.perform_bind]
        intro answer
        have hl := (Looked.refl h).snoc (e := ⟨.verifyAuthenticity describe, answer⟩) trivial
        refine ⟨trivial, ?_⟩
        cases answer with
        | error e => exact ⟨hl, fun wasm hw => nomatch hw⟩
        | ok u =>
            refine ⟨hl, ?_⟩
            intro wasm' hw
            cases hw
            refine ⟨archive, describe, hunzip, by simpa using hsha, ?_⟩
            exact List.mem_append_right _ (List.mem_singleton.mpr rfl)

/-- The install writes in its order, and only checked bytes. -/
theorem install_traced (wasm : Bytes) {h : List PullEvent} (hlocked : locked h = true)
    (hno : ∀ ev ∈ h, ¬ Wrote ev) (hchecked : Checked t digest h wasm) :
    (install t digest wasm).Traced (EnsureGuard t digest) (EnsureEnd digest true) h := by
  have hlast : ∀ (h : List PullEvent) (ev : PullEvent), ev ∈ h ++ [ev] :=
    fun h ev => List.mem_append_right _ (List.mem_singleton.mpr rfl)
  unfold install
  rw [Prog.perform_bind]
  intro answer
  refine ⟨⟨hlocked, wasm, hchecked, rfl⟩, ?_⟩
  have hlocked₁ : locked (h ++ [⟨.writeSidecar (t.hexSha256 wasm), answer⟩]) = true := by
    rw [locked_snoc]
    exact hlocked
  cases answer with
  | error e =>
      refine ⟨hlocked₁, .inl ?_⟩
      intro ev hev
      rcases List.mem_append.mp hev with hev | hev
      · exact hno ev hev
      · rw [List.mem_singleton.mp hev]
        exact fun hw => hw
  | ok u =>
      have hstage₁ : stage (h ++ [⟨.writeSidecar (t.hexSha256 wasm), .ok u⟩]) =
          .sidecar (t.hexSha256 wasm) := by
        rw [stage_snoc]
        rfl
      replace hchecked := hchecked.mono ⟨.writeSidecar (t.hexSha256 wasm), .ok u⟩
      generalize h ++ [⟨.writeSidecar (t.hexSha256 wasm), .ok u⟩] = h₁ at *
      beta_reduce
      dsimp only
      rw [Prog.perform_bind]
      intro answer
      refine ⟨⟨hlocked₁, hchecked, hstage₁⟩, ?_⟩
      have hlocked₂ : locked (h₁ ++ [⟨.writeWasm wasm, answer⟩]) = true := by
        rw [locked_snoc]
        exact hlocked₁
      cases answer with
      | error e => exact ⟨hlocked₂, .inr ⟨⟨.writeWasm wasm, .error e⟩, hlast _ _, trivial⟩⟩
      | ok u =>
          have hstage₂ : stage (h₁ ++ [⟨.writeWasm wasm, .ok u⟩]) =
              .wasm (t.hexSha256 wasm) wasm := by
            rw [stage_snoc, hstage₁]
            rfl
          replace hchecked := hchecked.mono ⟨.writeWasm wasm, .ok u⟩
          generalize h₁ ++ [⟨.writeWasm wasm, .ok u⟩] = h₂ at *
          beta_reduce
          dsimp only
          rw [Prog.perform_bind]
          intro answer
          refine ⟨⟨hlocked₂, rfl, wasm, hchecked, hstage₂⟩, ?_⟩
          have hlocked₃ : locked (h₂ ++ [⟨.writeMarker digest, answer⟩]) = true := by
            rw [locked_snoc]
            exact hlocked₂
          cases answer with
          | error e => exact ⟨hlocked₃, .inr ⟨⟨.writeMarker digest, .error e⟩, hlast _ _, trivial⟩⟩
          | ok u =>
              refine ⟨hlocked₃, .inr ?_⟩
              rw [stage_snoc, hstage₂]
              rfl

/-- The pull under the lock: look once more, fetch, check and install. -/
theorem pullLocked_traced {h : List PullEvent} (hlocked : locked h = true)
    (hno : ∀ ev ∈ h, ¬ Wrote ev) :
    (pullLocked t componentRef version digest).Traced (EnsureGuard t digest)
      (EnsureEnd digest true) h := by
  have hfailed : ∀ (h' : List PullEvent) (e : StorePullError), Looked h h' →
      EnsureEnd digest true h' (.error e) :=
    fun h' e hl => ⟨hl.locked.trans hlocked, .inl (hl.noWrites hno)⟩
  unfold pullLocked
  refine Prog.Traced.bind ?_ ?_ (cacheIsCurrent_traced t digest h)
  · rintro h₁ current ⟨hl₁, current', heq, hsettled⟩
    cases heq
    cases current with
    | true => exact ⟨hl₁.locked.trans hlocked, hsettled rfl⟩
    | false =>
        refine Prog.Traced.bind ?_ ?_ (fetchArchive_traced t componentRef version digest h₁)
        · intro h₂ archive hl₂
          refine Prog.Traced.bind ?_ ?_ (checkArchive_traced t componentRef version digest archive h₂)
          · rintro h₃ wasm ⟨hl₃, hchecked⟩
            have hl := (hl₁.trans hl₂).trans hl₃
            exact install_traced t digest wasm (hl.locked.trans hlocked) (hl.noWrites hno)
              (hchecked wasm rfl)
          · rintro h₃ e ⟨hl₃, -⟩
            exact hfailed h₃ e ((hl₁.trans hl₂).trans hl₃)
        · intro h₂ e hl₂
          exact hfailed h₂ e (hl₁.trans hl₂)
  · rintro h₁ e ⟨-, current, heq, -⟩
    exact nomatch heq

/-- **`ENSURE_CACHED`**, whatever it is answered: it writes under the pull lock, in order
    and from a checked archive, and it ends with the files in place or, unless a later write
    failed, without a write. -/
theorem ensureCached_traced :
    (ensureCached t componentRef version digest).Traced (EnsureGuard t digest)
      (EnsureEnd digest false) [] := by
  have hno : ∀ ev ∈ ([] : List PullEvent), ¬ Wrote ev := fun _ hev => nomatch hev
  unfold ensureCached
  cases validateComponentRef t componentRef with
  | error e => exact ⟨rfl, .inl hno⟩
  | ok u =>
      cases validateComponentVersion t version with
      | error e => exact ⟨rfl, .inl hno⟩
      | ok u =>
          simp only [Prog.ofExcept, Prog.ret_bind]
          refine Prog.Traced.bind ?_ ?_ (cacheIsCurrent_traced t digest [])
          · rintro h current ⟨hl, current', heq, hsettled⟩
            cases heq
            have hfree : locked h = false := hl.locked
            cases current with
            | true => exact ⟨hfree, hsettled rfl⟩
            | false =>
                dsimp only
                rw [Prog.perform_bind]
                intro u
                refine ⟨hfree, ?_⟩
                have hlocked : locked (h ++ [⟨.lockPull, u⟩]) = true := by
                  rw [locked_snoc]
                  rfl
                have hquiet : ∀ ev ∈ h ++ [(⟨.lockPull, u⟩ : PullEvent)], ¬ Wrote ev := by
                  intro ev hev
                  rcases List.mem_append.mp hev with hev | hev
                  · exact hl.noWrites hno ev hev
                  · rw [List.mem_singleton.mp hev]
                    exact fun hw => hw
                refine Prog.Traced.ensure ?_ ?_
                  (pullLocked_traced t componentRef version digest hlocked hquiet)
                · intro h res r hend
                  cases res with
                  | ok u => exact hend.1
                  | error e => exact hend.1
                · intro h res r hend
                  have hfreed : locked (h ++ [⟨.unlockPull, r⟩]) = false := by
                    rw [locked_snoc]
                    rfl
                  cases res with
                  | ok u =>
                      refine ⟨hfreed, ?_⟩
                      have hstage : stage (h ++ [⟨.unlockPull, r⟩]) = stage h := by
                        rw [stage_snoc]
                        rfl
                      rw [Settled, hstage]
                      exact hend.2
                  | error e =>
                      refine ⟨hfreed, ?_⟩
                      rcases hend.2 with hno | ⟨ev, hev, hlate⟩
                      · refine .inl ?_
                        intro ev hev
                        rcases List.mem_append.mp hev with hev | hev
                        · exact hno ev hev
                        · rw [List.mem_singleton.mp hev]
                          exact fun hw => hw
                      · exact .inr ⟨ev, List.mem_append_left _ hev, hlate⟩
          · rintro h e ⟨-, current, heq, -⟩
            exact nomatch heq

/-- Only a valid reference is cached. -/
theorem ensureCached_valid {h : List PullEvent}
    (hran : (ensureCached t componentRef version digest).Ran h (.ok ())) :
    validateComponentRef t componentRef = .ok () := by
  unfold ensureCached at hran
  cases hvalid : validateComponentRef t componentRef with
  | ok u => rfl
  | error e =>
      rw [hvalid] at hran
      cases hran

end Calls

/-! ## Calls of one component -/

/-- A call of `ensure_cached`, or a dispatch through a route pinned to the digest. -/
structure Call where
  dispatched : Bool
  version : String
  digest : String

/-- The `ensure_cached` of a call. -/
def Call.ensuring (c : Call) (t : Tools) (componentRef : String) : Pull Unit :=
  ensureCached t componentRef c.version c.digest

/-- A call as a program; only a dispatch has a value. -/
def Call.program (c : Call) (t : Tools) (componentRef : String) : Dispatching (Option Json) :=
  if c.dispatched then
    callRoute t ⟨some componentRef, some c.version, some c.digest⟩ >>= fun v => .ret (some v)
  else (c.ensuring t componentRef).mapError StorePullError.display >>= fun _ => .ret none

/-- What a call guarantees of an event: a dispatch reads the sidecar once its
    `ensure_cached` has returned, and runs under the policy it read. -/
def CallGuard (t : Tools) (componentRef : String) (c : Call) (h : List PullEvent) :
    PullEvent → Prop
  | ⟨.readSidecar, _⟩ => c.dispatched = true ∧ (c.ensuring t componentRef).Ran h (.ok ())
  | ⟨.exec policy, _⟩ => ∃ read, ⟨.readSidecar, read⟩ ∈ h ∧ policy = policyFor read
  | ev => EnsureGuard t c.digest h ev

/-- What the install may do, a call that ensures it may do. -/
theorem EnsureGuard.call {t : Tools} {componentRef : String} {c : Call} {h : List PullEvent}
    {ev : PullEvent} (hg : EnsureGuard t c.digest h ev) : CallGuard t componentRef c h ev := by
  obtain ⟨i, r⟩ := ev
  cases i <;> first
    | exact False.elim hg
    | exact hg

/-- The `ensure_cached` of a call, up to its return. -/
theorem ensuring_traced (t : Tools) (componentRef : String) (c : Call) {α : Type}
    (f : StorePullError → String) {k : Unit → Dispatching α}
    (hk : ∀ h, (c.ensuring t componentRef).Ran h (.ok ()) →
      (k ()).Traced (CallGuard t componentRef c) (fun _ _ => True) h) :
    ((c.ensuring t componentRef).mapError f >>= k).Traced (CallGuard t componentRef c)
      (fun _ _ => True) [] := by
  refine Prog.Traced.bind (Q := fun h r => ∀ u, r = .ok u → (c.ensuring t componentRef).Ran h (.ok ()))
    ?_ (fun _ _ _ => trivial) ?_
  · intro h u hran
    exact hk h (hran u rfl)
  · have hboth := (ensureCached_traced t componentRef c.version c.digest).and
      (Prog.Traced.own [] (c.ensuring t componentRef))
    refine Prog.Traced.mapError ?_ ?_ (Prog.Traced.weaken ?_ hboth)
    · rintro h u ⟨-, es, rfl, hran⟩ u' _
      exact hran
    · intro h e _ u hu
      exact nomatch hu
    · rintro h ev ⟨hg, -⟩
      exact hg.call

/-- The call of the component, once its entry is ensured. -/
theorem localCallTool_traced (t : Tools) (componentRef : String) (c : Call)
    (hd : c.dispatched = true) {h : List PullEvent}
    (hran : (c.ensuring t componentRef).Ran h (.ok ())) :
    (localCallTool t componentRef).Traced (CallGuard t componentRef c) (fun _ _ => True) h := by
  have hvalid := ensureCached_valid t componentRef c.version c.digest hran
  unfold localCallTool execConfigFor
  rw [hvalid]
  dsimp only
  rw [Prog.perform_bind]
  intro read
  refine ⟨⟨hd, hran⟩, ?_⟩
  intro answer
  exact ⟨⟨read, List.mem_append_right _ (List.mem_singleton.mpr rfl), rfl⟩, trivial⟩

/-- **A CALL**, whatever it is answered, keeps its guarantee. -/
theorem program_traced (t : Tools) (componentRef : String) (c : Call) :
    (c.program t componentRef).Traced (CallGuard t componentRef c) (fun _ _ => True) [] := by
  unfold Call.program
  by_cases hd : c.dispatched = true
  · rw [if_pos hd]
    refine Prog.Traced.bind (Q := fun _ _ => True) ?_ ?_ (ensuring_traced t componentRef c _
      fun h hran => localCallTool_traced t componentRef c hd hran)
    · intro h v _
      exact trivial
    · intro h e _
      exact trivial
  · rw [if_neg hd]
    exact ensuring_traced t componentRef c _ fun h _ => trivial

end Greentic.StorePull
