import GreenticRunner.DiskCache
import GreenticRunner.ResumptionLogic

/-! # A write to the artifact cache among readers

    `write_atomic` renames two files into place, `try_read` looks at them one after the other and
    deletes what does not fit.  Every look and every deletion is a step of its own, so a reader may
    DECIDE ON THE OLD FILES AND DELETE THE NEW ONES.

    * `Undisturbed` — the contents on which no reader ever decides to delete;
    * `Guarded`, `tryRead_safe`, `writeAtomic_safe` — what all the calls keep then;
    * `write_survives_iff` — a write survives every interleaving exactly on these contents. -/

namespace Greentic.ArtifactCache

open Resumption

/-! ## Files, profiles and checks -/

/-- `Vec<u8>`. -/
abbrev Bytes : Type := List UInt8

/-- What metadata is checked against of an `EngineProfile`. -/
structure EngineProfile where
  engineProfileId : String
  wasmtimeVersion : String
  targetTriple : String
  cpuPolicy : String
  configFingerprint : String

/-- `ArtifactKey`. -/
structure ArtifactKey where
  engineProfileId : String
  wasmDigest : String

/-- `validate_for_profile`. -/
def ArtifactMetadata.validateForProfile (m : ArtifactMetadata) (profile : EngineProfile) :
    Except String Unit :=
  if m.schemaVersion ≠ 1 then .error "cache metadata schema_version must be 1"
  else if m.engineProfileId ≠ profile.engineProfileId then
    .error "cache metadata engine_profile_id mismatch"
  else if m.wasmtimeVersion ≠ profile.wasmtimeVersion then
    .error "cache metadata wasmtime_version mismatch"
  else if m.targetTriple ≠ profile.targetTriple then .error "cache metadata target_triple mismatch"
  else if m.cpuPolicy ≠ profile.cpuPolicy then .error "cache metadata cpu_policy mismatch"
  else if m.configFingerprint ≠ profile.configFingerprint then
    .error "cache metadata config_fingerprint mismatch"
  else .ok ()

/-- `touch`, at the time `now` as a text. -/
def ArtifactMetadata.touch (m : ArtifactMetadata) (now : String) : ArtifactMetadata :=
  { m with lastAccessAt := now, hitCount := min (m.hitCount + 1) 18446744073709551615 }

/-- `with_artifact_sha256`. -/
def ArtifactMetadata.withArtifactSha256 (m : ArtifactMetadata) (hex : String) : ArtifactMetadata :=
  { m with artifactSha256 := some hex }

/-- A file: what a read of it gives, if it succeeds, and when it was modified. -/
structure Stored (α : Type) where
  content : Option α
  modified : Option Int

/-- `older_than_grace` at a time. -/
def Stored.old {α : Type} (now : Int) (f : Stored α) : Bool :=
  f.modified.any fun t => t + incompleteEntryGrace < now

theorem Stored.old_mono {α : Type} {f : Stored α} {now later : Int} (h : now ≤ later)
    (hyoung : f.old later = false) : f.old now = false := by
  obtain ⟨content, modified⟩ := f
  cases modified with
  | none => rfl
  | some t =>
      simp only [old, Option.any_some, decide_eq_false_iff_not] at hyoung ⊢
      omega

/-- The two files of a key, and the clock. -/
structure Disk where
  artifact : Option (Stored Bytes)
  metadata : Option (Stored ArtifactMetadata)
  now : Int

/-! ## The operations -/

/-- One step of a call.  A temp file is named by its call, so that the others never see it: of
    writing one, only the time remains. -/
inductive FileOp where
  | metaExists
  | artifactExists
  | metaOld
  | artifactOld
  | readMeta
  | readArtifact
  | removeArtifact
  | removeMeta
  | createPrivateDir
  | timestamp
  | writeTmp
  | removeTmp
  | renameArtifact (file : Stored Bytes)
  | renameMeta (file : Stored ArtifactMetadata)

/-- The answers. -/
abbrev FileOp.Answer : FileOp → Type
  | .metaExists | .artifactExists | .metaOld | .artifactOld => Bool
  | .readMeta => Option ArtifactMetadata
  | .readArtifact => Option Bytes
  | .removeArtifact | .removeMeta | .removeTmp => Unit
  | .createPrivateDir => Bool
  | .timestamp => String
  | .writeTmp => Option Int
  | .renameArtifact _ | .renameMeta _ => Bool

/-- The effect of an operation at the time of the disk's clock; what writes, renames or removes may
    fail. -/
def FileOp.effect : (i : FileOp) → Disk → i.Answer → Disk → Prop
  | .metaExists, d, r, d' => r = d.metadata.isSome ∧ d' = d
  | .artifactExists, d, r, d' => r = d.artifact.isSome ∧ d' = d
  | .metaOld, d, r, d' => r = d.metadata.any (·.old d.now) ∧ d' = d
  | .artifactOld, d, r, d' => r = d.artifact.any (·.old d.now) ∧ d' = d
  | .readMeta, d, r, d' => r = d.metadata.bind (·.content) ∧ d' = d
  | .readArtifact, d, r, d' => r = d.artifact.bind (·.content) ∧ d' = d
  | .removeArtifact, d, _, d' => d' = d ∨ d' = { d with artifact := none }
  | .removeMeta, d, _, d' => d' = d ∨ d' = { d with metadata := none }
  | .createPrivateDir, d, _, d' => d' = d
  | .timestamp, d, _, d' => d' = d
  | .writeTmp, d, r, d' => (∀ t, r = some t → t = d.now) ∧ d' = d
  | .removeTmp, d, _, d' => d' = d
  | .renameArtifact f, d, r, d' => (r = true ∧ d' = { d with artifact := some f }) ∨ (r = false ∧ d' = d)
  | .renameMeta f, d, r, d' => (r = true ∧ d' = { d with metadata := some f }) ∨ (r = false ∧ d' = d)

/-- An operation takes place at the last time or later, while `inTime`. -/
def FileOp.exec (inTime : Int → Prop) (i : FileOp) (s : Disk × Unit) (r : i.Answer) (s' : Disk × Unit) :
    Prop :=
  ∃ t, s.1.now ≤ t ∧ inTime t ∧ i.effect { s.1 with now := t } r s'.1

/-! ## The calls -/

/-- What a call returns. -/
inductive Reply where
  | read (bytes : Option Bytes)
  | wrote

/-- A call. -/
abbrev Call : Type := Main FileOp FileOp.Answer String Unit Reply

/-- `Ok(None)`. -/
def miss : Call := .ret (.read none)

/-- `delete_entry`. -/
def deleteEntry (next : Call) : Call :=
  .call .removeArtifact fun _ => .call .removeMeta fun _ => next

/-- `update_access`. -/
def updateAccess (m : ArtifactMetadata) (next : Call) : Call :=
  .call .timestamp fun now =>
    .call .writeTmp fun
      | some t =>
          .call (.renameMeta ⟨some (m.touch now), some t⟩) fun
            | true => next
            | false => .call .removeTmp fun _ => next
      | none => .call .removeTmp fun _ => next

section Calls

variable (sha256Hex : Bytes → String) (profile : EngineProfile) (key : ArtifactKey)

/-- What a read does with the artifact of metadata that fits the key. -/
def readArtifact (m : ArtifactMetadata) : Call :=
  .call .artifactExists fun
    | false =>
        .call .metaOld fun
          | true => deleteEntry miss
          | false => miss
    | true =>
        .call .readArtifact fun
          | none => deleteEntry miss
          | some bytes =>
              if m.artifactBytes ≠ bytes.length then deleteEntry miss
              else if m.artifactSha256 ≠ some (sha256Hex bytes) then deleteEntry miss
              else updateAccess m (.ret (.read (some bytes)))

/-- What a read does with metadata. -/
def readEntry (m : ArtifactMetadata) : Call :=
  match m.validateForProfile profile with
  | .error _ => deleteEntry miss
  | .ok () =>
      if m.wasmDigest ≠ key.wasmDigest then deleteEntry miss
      else readArtifact sha256Hex m

/-- `try_read`. -/
def tryRead : Call :=
  if key.engineProfileId ≠ profile.engineProfileId then
    .fail "artifact key engine_profile_id mismatch"
  else
    .call .metaExists fun
      | false =>
          .call .artifactExists fun
            | false => miss
            | true =>
                .call .artifactOld fun
                  | true => .call .removeArtifact fun _ => miss
                  | false => miss
      | true =>
          .call .readMeta fun
            | none => deleteEntry miss
            | some m => readEntry sha256Hex profile key m

/-- The way out of a failed `write_entry`. -/
def writeFailed (text : String) : Call :=
  .call .removeTmp fun _ => .call .removeTmp fun _ => .fail text

/-- `write_entry`. -/
def writeEntry (bytes : Bytes) (m : ArtifactMetadata) : Call :=
  .call .writeTmp fun
    | none => writeFailed "failed to write"
    | some t =>
        .call .writeTmp fun
          | none => writeFailed "failed to write"
          | some u =>
              .call (.renameArtifact ⟨some bytes, some t⟩) fun
                | false => writeFailed "failed to rename"
                | true =>
                    .call (.renameMeta ⟨some (m.withArtifactSha256 (sha256Hex bytes)), some u⟩) fun
                      | false => writeFailed "failed to rename"
                      | true => .ret .wrote

/-- `write_atomic`. -/
def writeAtomic (bytes : Bytes) (m : ArtifactMetadata) : Call :=
  match m.validateForProfile profile with
  | .error _ => .fail "cache metadata does not match engine profile"
  | .ok () =>
      if m.wasmDigest ≠ key.wasmDigest then
        .fail "cache metadata digest does not match artifact key"
      else if key.engineProfileId ≠ profile.engineProfileId then
        .fail "artifact key engine_profile_id mismatch"
      else
        .call .createPrivateDir fun
          | false => .fail "failed to create cache dir"
          | true =>
              .call .createPrivateDir fun
                | false => .fail "failed to create cache tmp dir"
                | true => writeEntry sha256Hex bytes m

/-! ## What a write is for -/

/-- The writer and the readers at one moment. -/
abbrev CachePool : Type := Pool Disk Unit FileOp FileOp.Answer String Unit Reply

/-- Readers may come at any time. -/
def IsReader (t : Unit × Call) : Prop := t.2 = tryRead sha256Hex profile key

/-- Every call has returned. -/
def Finished (c : CachePool) : Prop :=
  ∀ t ∈ c.threads, ∃ p, t = some ((), p) ∧ (p.outcome?).isSome

/-- A read, alone and at any later time, returns `bytes`. -/
def ReadsBack (d : Disk) (bytes : Bytes) : Prop :=
  (∃ es q s r, Run (FileOp.exec fun _ => True) (tryRead sha256Hex profile key) (d, ()) es q s ∧
    q.outcome? = some r) ∧
  ∀ es q s r, Run (FileOp.exec fun _ => True) (tryRead sha256Hex profile key) (d, ()) es q s →
    q.outcome? = some r → r = .ok (.read (some bytes))

/-- A write that returns `Ok` can be read back, whatever readers did in between. -/
def Survives (d : Disk) (deadline : Int) (bytes : Bytes) (m : ArtifactMetadata) : Prop :=
  ∀ c : CachePool, Pool.Reach (FileOp.exec fun t => t ≤ deadline) (IsReader sha256Hex profile key)
      ⟨d, [some ((), writeAtomic sha256Hex profile key bytes m)]⟩ c →
    Finished c → c.threads[0]? = some (some ((), .ret .wrote)) →
      ReadsBack sha256Hex profile key c.store bytes

/-- The checks that a write makes before it touches a file. -/
def Accepts (m : ArtifactMetadata) : Prop :=
  m.validateForProfile profile = .ok () ∧ m.wasmDigest = key.wasmDigest ∧
    key.engineProfileId = profile.engineProfileId

/-- Metadata that the reader of `bytes` accepts. -/
structure Fits (bytes : Bytes) (m : ArtifactMetadata) : Prop where
  valid : m.validateForProfile profile = .ok ()
  digest : m.wasmDigest = key.wasmDigest
  size : m.artifactBytes = bytes.length
  hash : m.artifactSha256 = some (sha256Hex bytes)

/-- An artifact that the metadata of `bytes` fits. -/
def Matching (bytes : Bytes) (f : Stored Bytes) : Prop :=
  ∃ old, f.content = some old ∧ old.length = bytes.length ∧ sha256Hex old = sha256Hex bytes

/-- No reader decides to delete before `deadline`: without metadata, an artifact is not old by then;
    metadata fits what is written, and its artifact does too, or is not there while the metadata is
    not old by then. -/
def Undisturbed (d : Disk) (deadline : Int) (bytes : Bytes) : Prop :=
  match d.metadata with
  | none => ∀ f, d.artifact = some f → f.old deadline = false
  | some g =>
      (∃ m, g.content = some m ∧ Fits sha256Hex profile key bytes m) ∧
        match d.artifact with
        | none => g.old deadline = false
        | some f => Matching sha256Hex bytes f

end Calls

/-! ## What the calls keep -/

section Safe

variable (sha256Hex : Bytes → String) (profile : EngineProfile) (key : ArtifactKey)
variable (d₀ : Disk) (deadline : Int) (bytes : Bytes)

/-- The disk after any steps from `d₀`: nothing was deleted, and no reader has a reason to. -/
structure Guarded (d : Disk) : Prop where
  since : d₀.now ≤ d.now
  inTime : d.now ≤ deadline
  noMeta : d.metadata = none → d₀.metadata = none
  noArtifact : d.artifact = none → d₀.artifact = none
  fits : ∀ g, d.metadata = some g → ∃ m, g.content = some m ∧ Fits sha256Hex profile key bytes m
  matching : ∀ g f, d.metadata = some g → d.artifact = some f → Matching sha256Hex bytes f
  youngMeta : d₀.artifact = none → ∀ g, d.metadata = some g → g.old deadline = false
  youngArtifact : d₀.metadata = none → ∀ f, d.artifact = some f → f.old deadline = false

/-- The new artifact is in place. -/
def Written (d : Disk) : Prop := ∃ f, d.artifact = some f ∧ f.content = some bytes

/-- What a step of any call may do. -/
structure Keeps (d d' : Disk) : Prop where
  guarded : Guarded sha256Hex profile key d₀ deadline bytes d →
    Guarded sha256Hex profile key d₀ deadline bytes d'
  artifact : d.artifact.isSome → d'.artifact.isSome
  metadata : d.metadata.isSome → d'.metadata.isSome
  written : Written bytes d → Written bytes d'

/-- What the writer knows at its end. -/
def Landed (s : Disk × Unit) (r : Except String Reply) : Prop :=
  r = .ok .wrote → Written bytes s.1 ∧ s.1.metadata.isSome

/-- A call that keeps to this from `d` on, whatever the others do. -/
def Safe (p : Call) (d : Disk) : Prop :=
  p.Sat (fun s s' => Keeps sha256Hex profile key d₀ deadline bytes s.1 s'.1 ∧ s'.2 = s.2)
    (FileOp.exec fun t => t ≤ deadline)
    (fun s _ s' => Keeps sha256Hex profile key d₀ deadline bytes s.1 s'.1) (fun _ _ => True)
    (Landed bytes) (d, ())

variable {sha256Hex profile key d₀ deadline bytes}

theorem Keeps.refl (d : Disk) : Keeps sha256Hex profile key d₀ deadline bytes d d :=
  ⟨id, id, id, id⟩

theorem Keeps.trans {a b c : Disk} (h1 : Keeps sha256Hex profile key d₀ deadline bytes a b)
    (h2 : Keeps sha256Hex profile key d₀ deadline bytes b c) :
    Keeps sha256Hex profile key d₀ deadline bytes a c :=
  ⟨h2.guarded ∘ h1.guarded, h2.artifact ∘ h1.artifact, h2.metadata ∘ h1.metadata,
    h2.written ∘ h1.written⟩

/-- Time passes. -/
theorem Keeps.tick {d : Disk} {t : Int} (hle : d.now ≤ t) (hin : t ≤ deadline) :
    Keeps sha256Hex profile key d₀ deadline bytes d { d with now := t } := by
  refine ⟨?_, id, id, id⟩
  intro h
  exact ⟨h.since.trans hle, hin, h.noMeta, h.noArtifact, h.fits, h.matching, h.youngMeta,
    h.youngArtifact⟩

/-- **ONE OPERATION**: the others have moved and time has passed before it. -/
theorem Safe.call {i : FileOp} {k : i.Answer → Call} {d : Disk}
    (hd : Guarded sha256Hex profile key d₀ deadline bytes d)
    (h : ∀ d₁ r d₂, Guarded sha256Hex profile key d₀ deadline bytes d₁ →
      Keeps sha256Hex profile key d₀ deadline bytes d d₁ → i.effect d₁ r d₂ →
      Keeps sha256Hex profile key d₀ deadline bytes d₁ d₂ ∧
        Safe sha256Hex profile key d₀ deadline bytes (k r) d₂) :
    Safe sha256Hex profile key d₀ deadline bytes (.call i k) d := by
  rintro ⟨d₁, _⟩ ⟨hkeeps, -⟩ r ⟨d₂, _⟩ ⟨t, hle, hin, heffect⟩
  have htick : Keeps sha256Hex profile key d₀ deadline bytes d₁ { d₁ with now := t } :=
    Keeps.tick hle hin
  obtain ⟨hstep, hrest⟩ := h _ r d₂ (htick.guarded (hkeeps.guarded hd)) (hkeeps.trans htick) heffect
  exact ⟨htick.trans hstep, hrest⟩

/-- An operation that only looks. -/
theorem Safe.look {i : FileOp} {k : i.Answer → Call} {d : Disk} (answer : Disk → i.Answer → Prop)
    (hd : Guarded sha256Hex profile key d₀ deadline bytes d)
    (hlook : ∀ d₁ r d₂, i.effect d₁ r d₂ → answer d₁ r ∧ d₂ = d₁)
    (h : ∀ d₁ r, Guarded sha256Hex profile key d₀ deadline bytes d₁ →
      Keeps sha256Hex profile key d₀ deadline bytes d d₁ → answer d₁ r →
      Safe sha256Hex profile key d₀ deadline bytes (k r) d₁) :
    Safe sha256Hex profile key d₀ deadline bytes (.call i k) d := by
  refine Safe.call hd ?_
  intro d₁ r d₂ hd₁ hkeeps heffect
  obtain ⟨hanswer, rfl⟩ := hlook d₁ r d₂ heffect
  exact ⟨Keeps.refl _, h d₂ r hd₁ hkeeps hanswer⟩

theorem Safe.miss (d : Disk) : Safe sha256Hex profile key d₀ deadline bytes miss d := by
  rintro s - hr
  exact nomatch hr

theorem Safe.read (d : Disk) (b : Option Bytes) :
    Safe sha256Hex profile key d₀ deadline bytes (.ret (.read b)) d := by
  rintro s - hr
  exact nomatch hr

theorem Safe.fail (d : Disk) (text : String) :
    Safe sha256Hex profile key d₀ deadline bytes (.fail text) d := by
  rintro s - hr
  exact nomatch hr

/-- New metadata that fits, over an artifact that does. -/
theorem Keeps.renameMeta {d : Disk} {m : ArtifactMetadata} {t : Int}
    (hm : Fits sha256Hex profile key bytes m) (ht : d₀.now ≤ t)
    (hgrace : deadline ≤ d₀.now + incompleteEntryGrace)
    (hart : ∀ f, d.artifact = some f → Matching sha256Hex bytes f) :
    Keeps sha256Hex profile key d₀ deadline bytes d { d with metadata := some ⟨some m, some t⟩ } := by
  refine ⟨?_, id, fun _ => rfl, id⟩
  intro h
  have hyoung : (Stored.mk (some m) (some t)).old deadline = false := by
    simp only [Stored.old, Option.any_some, decide_eq_false_iff_not]
    omega
  refine ⟨h.since, h.inTime, nofun, h.noArtifact, ?_, fun _ f _ hf => hart f hf, ?_, h.youngArtifact⟩
  · rintro g ⟨⟩
    exact ⟨m, rfl, hm⟩
  · rintro - g ⟨⟩
    exact hyoung

theorem Safe.updateAccess (hgrace : deadline ≤ d₀.now + incompleteEntryGrace) {d : Disk}
    {m : ArtifactMetadata} (hd : Guarded sha256Hex profile key d₀ deadline bytes d)
    (hm : Fits sha256Hex profile key bytes m) (hmeta : d.metadata.isSome) (b : Option Bytes) :
    Safe sha256Hex profile key d₀ deadline bytes (updateAccess m (.ret (.read b))) d := by
  refine Safe.look (fun _ _ => True) hd (fun _ _ _ h => ⟨trivial, h⟩) ?_
  intro d₁ now hd₁ hkeeps₁ _
  refine Safe.look (fun d r => ∀ t, r = some t → t = d.now) hd₁ (fun _ _ _ h => h) ?_
  intro d₂ r hd₂ hkeeps₂ htime
  have hremove : ∀ d', Guarded sha256Hex profile key d₀ deadline bytes d' →
      Safe sha256Hex profile key d₀ deadline bytes (.call .removeTmp fun _ => .ret (.read b)) d' := by
    intro d' hd'
    refine Safe.look (fun _ _ => True) hd' (fun _ _ _ h => ⟨trivial, h⟩) ?_
    intro d'' _ _ _ _
    exact Safe.read d'' b
  cases r with
  | none => exact hremove d₂ hd₂
  | some t =>
      have ht : d₀.now ≤ t := by
        rw [htime t rfl]
        exact hd₂.since
      refine Safe.call hd₂ ?_
      intro d₃ r d₄ hd₃ hkeeps₃ heffect
      -- the metadata is still there, so its artifact fits
      have hmeta₃ := hkeeps₃.metadata (hkeeps₂.metadata (hkeeps₁.metadata hmeta))
      obtain ⟨g, hg⟩ := Option.isSome_iff_exists.mp hmeta₃
      rcases heffect with ⟨rfl, rfl⟩ | ⟨rfl, rfl⟩
      · refine ⟨Keeps.renameMeta ?_ ht hgrace fun f hf => hd₃.matching g f hg hf, Safe.read _ b⟩
        exact ⟨hm.valid, hm.digest, hm.size, hm.hash⟩
      · exact ⟨Keeps.refl _, hremove _ hd₃⟩

/-- A reader that has seen metadata that fits finds an artifact that does, or none and the metadata
    not old. -/
theorem Safe.readArtifact (hgrace : deadline ≤ d₀.now + incompleteEntryGrace) {d : Disk}
    {m : ArtifactMetadata} (hd : Guarded sha256Hex profile key d₀ deadline bytes d)
    (hm : Fits sha256Hex profile key bytes m) (hmeta : d.metadata.isSome) :
    Safe sha256Hex profile key d₀ deadline bytes (readArtifact sha256Hex m) d := by
  refine Safe.look (fun d r => r = d.artifact.isSome) hd (fun _ _ _ h => h) ?_
  intro d₁ r hd₁ hkeeps₁ hr
  have hmeta₁ := hkeeps₁.metadata hmeta
  cases r with
  | false =>
      have hnone : d₀.artifact = none :=
        hd₁.noArtifact (Option.isNone_iff_eq_none.mp (Option.isSome_eq_false_iff.mp hr.symm))
      refine Safe.look (fun d r => r = d.metadata.any (·.old d.now)) hd₁ (fun _ _ _ h => h) ?_
      intro d₂ r hd₂ hkeeps₂ hr
      obtain ⟨g, hg⟩ := Option.isSome_iff_exists.mp (hkeeps₂.metadata hmeta₁)
      rw [hg, Option.any_some, Stored.old_mono hd₂.inTime (hd₂.youngMeta hnone g hg)] at hr
      subst hr
      exact Safe.miss d₂
  | true =>
      refine Safe.look (fun d r => r = d.artifact.bind (·.content)) hd₁ (fun _ _ _ h => h) ?_
      intro d₂ r hd₂ hkeeps₂ hread
      have hmeta₂ := hkeeps₂.metadata hmeta₁
      obtain ⟨g, hg⟩ := Option.isSome_iff_exists.mp hmeta₂
      obtain ⟨f, hf⟩ := Option.isSome_iff_exists.mp (hkeeps₂.artifact hr.symm)
      obtain ⟨old, hold, hlength, hsha⟩ := hd₂.matching g f hg hf
      rw [hf, Option.bind_some, hold] at hread
      subst hread
      have hsize : ¬ m.artifactBytes ≠ old.length := fun hne => hne (hm.size.trans hlength.symm)
      have hhash : ¬ m.artifactSha256 ≠ some (sha256Hex old) :=
        fun hne => hne (hm.hash.trans (congrArg some hsha.symm))
      show Safe sha256Hex profile key d₀ deadline bytes (if m.artifactBytes ≠ old.length then _ else
        if m.artifactSha256 ≠ some (sha256Hex old) then _ else _) d₂
      rw [if_neg hsize, if_neg hhash]
      exact Safe.updateAccess hgrace hd₂ hm hmeta₂ _

/-- **A READER DELETES NOTHING.** -/
theorem tryRead_safe (hgrace : deadline ≤ d₀.now + incompleteEntryGrace) {d : Disk}
    (hd : Guarded sha256Hex profile key d₀ deadline bytes d) :
    Safe sha256Hex profile key d₀ deadline bytes (tryRead sha256Hex profile key) d := by
  unfold tryRead
  split
  · exact Safe.fail d _
  refine Safe.look (fun d r => r = d.metadata.isSome) hd (fun _ _ _ h => h) ?_
  intro d₁ r hd₁ _ hr
  cases r with
  | false =>
      have hnone : d₀.metadata = none :=
        hd₁.noMeta (Option.isNone_iff_eq_none.mp (Option.isSome_eq_false_iff.mp hr.symm))
      refine Safe.look (fun d r => r = d.artifact.isSome) hd₁ (fun _ _ _ h => h) ?_
      intro d₂ r hd₂ _ hr
      cases r with
      | false => exact Safe.miss d₂
      | true =>
          refine Safe.look (fun d r => r = d.artifact.any (·.old d.now)) hd₂
            (fun _ _ _ h => h) ?_
          intro d₃ r' hd₃ hkeeps₃ hold
          obtain ⟨f, hf⟩ := Option.isSome_iff_exists.mp (hkeeps₃.artifact hr.symm)
          rw [hf, Option.any_some, Stored.old_mono hd₃.inTime (hd₃.youngArtifact hnone f hf)] at hold
          subst hold
          exact Safe.miss d₃
  | true =>
      refine Safe.look (fun d r => r = d.metadata.bind (·.content)) hd₁ (fun _ _ _ h => h) ?_
      intro d₂ r' hd₂ hkeeps₂ hread
      have hmeta₂ := hkeeps₂.metadata hr.symm
      obtain ⟨g, hg⟩ := Option.isSome_iff_exists.mp hmeta₂
      obtain ⟨m, hcontent, hm⟩ := hd₂.fits g hg
      rw [hg, Option.bind_some, hcontent] at hread
      subst hread
      show Safe sha256Hex profile key d₀ deadline bytes (readEntry sha256Hex profile key m) d₂
      rw [readEntry, hm.valid]
      dsimp only
      rw [if_neg fun hne => hne hm.digest]
      exact Safe.readArtifact hgrace hd₂ hm hmeta₂

theorem Safe.writeFailed {d : Disk} (hd : Guarded sha256Hex profile key d₀ deadline bytes d)
    (text : String) : Safe sha256Hex profile key d₀ deadline bytes (writeFailed text) d := by
  refine Safe.look (fun _ _ => True) hd (fun _ _ _ h => ⟨trivial, h⟩) ?_
  intro d₁ _ hd₁ _ _
  refine Safe.look (fun _ _ => True) hd₁ (fun _ _ _ h => ⟨trivial, h⟩) ?_
  intro d₂ _ _ _ _
  exact Safe.fail d₂ text

/-- The new artifact in its place. -/
theorem Keeps.renameArtifact {d : Disk} {t : Int} (ht : d₀.now ≤ t)
    (hgrace : deadline ≤ d₀.now + incompleteEntryGrace) :
    Keeps sha256Hex profile key d₀ deadline bytes d { d with artifact := some ⟨some bytes, some t⟩ } := by
  refine ⟨?_, fun _ => rfl, id, fun _ => ⟨_, rfl, rfl⟩⟩
  intro h
  have hyoung : (Stored.mk (some bytes) (some t)).old deadline = false := by
    simp only [Stored.old, Option.any_some, decide_eq_false_iff_not]
    omega
  refine ⟨h.since, h.inTime, h.noMeta, nofun, h.fits, ?_, h.youngMeta, ?_⟩
  · rintro g f - ⟨⟩
    exact ⟨bytes, rfl, rfl, rfl⟩
  · rintro - f ⟨⟩
    exact hyoung

/-- **A WRITER PUTS THE TWO FILES IN PLACE**, the artifact first. -/
theorem Safe.writeEntry (hgrace : deadline ≤ d₀.now + incompleteEntryGrace) {d : Disk}
    {m : ArtifactMetadata} (hd : Guarded sha256Hex profile key d₀ deadline bytes d)
    (hm : Fits sha256Hex profile key bytes (m.withArtifactSha256 (sha256Hex bytes))) :
    Safe sha256Hex profile key d₀ deadline bytes (writeEntry sha256Hex bytes m) d := by
  refine Safe.look (fun d r => ∀ t, r = some t → t = d.now) hd (fun _ _ _ h => h) ?_
  intro d₁ r hd₁ _ ht
  cases r with
  | none => exact Safe.writeFailed hd₁ _
  | some t =>
  refine Safe.look (fun d r => ∀ t, r = some t → t = d.now) hd₁ (fun _ _ _ h => h) ?_
  intro d₂ r hd₂ _ hu
  cases r with
  | none => exact Safe.writeFailed hd₂ _
  | some u =>
  have hsince₁ : d₀.now ≤ t := (ht t rfl) ▸ hd₁.since
  have hsince₂ : d₀.now ≤ u := (hu u rfl) ▸ hd₂.since
  refine Safe.call hd₂ ?_
  intro d₃ r d₄ hd₃ _ heffect
  rcases heffect with ⟨rfl, rfl⟩ | ⟨rfl, rfl⟩
  · have hartifact : Keeps sha256Hex profile key d₀ deadline bytes d₃
        { d₃ with artifact := some ⟨some bytes, some t⟩ } := Keeps.renameArtifact hsince₁ hgrace
    refine ⟨hartifact, Safe.call (hartifact.guarded hd₃) ?_⟩
    intro d₅ r d₆ hd₅ hkeeps₅ heffect
    -- nobody has replaced the new artifact
    have hwritten : Written bytes d₅ := hkeeps₅.written ⟨_, rfl, rfl⟩
    rcases heffect with ⟨rfl, rfl⟩ | ⟨rfl, rfl⟩
    · refine ⟨Keeps.renameMeta hm hsince₂ hgrace ?_, ?_⟩
      · intro f hf
        obtain ⟨f', hf', hcontent⟩ := hwritten
        rw [hf] at hf'
        cases hf'
        exact ⟨bytes, hcontent, rfl, rfl⟩
      · rintro s ⟨hkeeps, -⟩ -
        exact ⟨hkeeps.written hwritten, hkeeps.metadata rfl⟩
    · exact ⟨Keeps.refl _, Safe.writeFailed hd₅ _⟩
  · exact ⟨Keeps.refl _, Safe.writeFailed hd₃ _⟩

theorem writeAtomic_safe (hgrace : deadline ≤ d₀.now + incompleteEntryGrace) {d : Disk}
    {m : ArtifactMetadata} (hd : Guarded sha256Hex profile key d₀ deadline bytes d)
    (hm : Accepts profile key m → m.artifactBytes = bytes.length) :
    Safe sha256Hex profile key d₀ deadline bytes (writeAtomic sha256Hex profile key bytes m) d := by
  rw [writeAtomic]
  split
  · exact Safe.fail d _
  rename_i hvalid
  split
  · exact Safe.fail d _
  rename_i hdigest
  split
  · exact Safe.fail d _
  rename_i hkey
  have hsize := hm ⟨hvalid, Decidable.not_not.mp hdigest, Decidable.not_not.mp hkey⟩
  refine Safe.look (fun _ _ => True) hd (fun _ _ _ h => ⟨trivial, h⟩) ?_
  intro d₁ r hd₁ _ _
  cases r with
  | false => exact Safe.fail d₁ _
  | true =>
  refine Safe.look (fun _ _ => True) hd₁ (fun _ _ _ h => ⟨trivial, h⟩) ?_
  intro d₂ r hd₂ _ _
  cases r with
  | false => exact Safe.fail d₂ _
  | true => exact Safe.writeEntry hgrace hd₂ ⟨hvalid, Decidable.not_not.mp hdigest, hsize, rfl⟩

end Safe

/-! ## The read at the end -/

section Reads

variable {sha256Hex : Bytes → String} {profile : EngineProfile} {key : ArtifactKey}

/-- A call that runs alone from `d` on, at any time, and returns what `P` allows. -/
def Alone (P : Except String Reply → Prop) (p : Call) (d : Disk) : Prop :=
  p.Sat Eq (FileOp.exec fun _ => True) (fun _ _ _ => True) (fun _ _ => True) (fun _ r => P r) (d, ())

theorem Alone.call {P : Except String Reply → Prop} {i : FileOp} {k : i.Answer → Call} {d : Disk}
    (h : ∀ t r d', i.effect { d with now := t } r d' → Alone P (k r) d') :
    Alone P (.call i k) d := by
  rintro s rfl r ⟨d', _⟩ ⟨t, -, -, heffect⟩
  exact ⟨trivial, h t r d' heffect⟩

theorem Alone.ret {P : Except String Reply → Prop} {a : Reply} (h : P (.ok a)) (d : Disk) :
    Alone P (.ret a) d := fun _ _ => h

theorem Alone.fail {P : Except String Reply → Prop} {e : String} (h : P (.error e)) (d : Disk) :
    Alone P (.fail e) d := fun _ _ => h

theorem Alone.deleteEntry {P : Except String Reply → Prop} (h : P (.ok (.read none))) (d : Disk) :
    Alone P (deleteEntry miss) d := by
  refine Alone.call ?_
  intro t r d₁ _
  refine Alone.call ?_
  intro u r d₂ _
  exact Alone.ret h d₂

theorem Alone.updateAccess {P : Except String Reply → Prop} {m : ArtifactMetadata} {b : Option Bytes}
    (h : P (.ok (.read b))) (d : Disk) : Alone P (updateAccess m (.ret (.read b))) d := by
  have hremove : ∀ d, Alone P (.call .removeTmp fun _ => .ret (.read b)) d := by
    intro d
    refine Alone.call ?_
    intro t r d' _
    exact Alone.ret h d'
  refine Alone.call ?_
  intro t now d₁ _
  refine Alone.call ?_
  intro u r d₂ _
  cases r with
  | none => exact hremove d₂
  | some v =>
      refine Alone.call ?_
      intro w r d₃ _
      cases r with
      | true => exact Alone.ret h d₃
      | false => exact hremove d₃

/-- What a call alone returns. -/
theorem Alone.result {P : Except String Reply → Prop} {p : Call} {d : Disk} (h : Alone P p d)
    {es : List (Event FileOp FileOp.Answer)} {q : Call} {s : Disk × Unit}
    (hr : Run (FileOp.exec fun _ => True) p (d, ()) es q s) {r : Except String Reply}
    (hq : q.outcome? = some r) : P r := by
  exact (hr.sat (fun _ => rfl) h).result (fun _ => rfl) hq

/-- Every operation has an answer, at any time. -/
theorem exec_total (i : FileOp) (s : Disk × Unit) : ∃ r s', FileOp.exec (fun _ => True) i s r s' := by
  obtain ⟨d, _⟩ := s
  cases i with
  | metaExists => exact ⟨_, (d, ()), d.now, le_refl _, trivial, rfl, rfl⟩
  | artifactExists => exact ⟨_, (d, ()), d.now, le_refl _, trivial, rfl, rfl⟩
  | metaOld => exact ⟨_, (d, ()), d.now, le_refl _, trivial, rfl, rfl⟩
  | artifactOld => exact ⟨_, (d, ()), d.now, le_refl _, trivial, rfl, rfl⟩
  | readMeta => exact ⟨_, (d, ()), d.now, le_refl _, trivial, rfl, rfl⟩
  | readArtifact => exact ⟨_, (d, ()), d.now, le_refl _, trivial, rfl, rfl⟩
  | removeArtifact => exact ⟨(), (d, ()), d.now, le_refl _, trivial, .inl rfl⟩
  | removeMeta => exact ⟨(), (d, ()), d.now, le_refl _, trivial, .inl rfl⟩
  | createPrivateDir => exact ⟨true, (d, ()), d.now, le_refl _, trivial, rfl⟩
  | timestamp => exact ⟨"", (d, ()), d.now, le_refl _, trivial, rfl⟩
  | writeTmp => exact ⟨none, (d, ()), d.now, le_refl _, trivial, nofun, rfl⟩
  | removeTmp => exact ⟨(), (d, ()), d.now, le_refl _, trivial, rfl⟩
  | renameArtifact f => exact ⟨false, (d, ()), d.now, le_refl _, trivial, .inr ⟨rfl, rfl⟩⟩
  | renameMeta f => exact ⟨false, (d, ()), d.now, le_refl _, trivial, .inr ⟨rfl, rfl⟩⟩

/-- A whole entry is read back. -/
theorem readsBack_of_written {bytes : Bytes} {d : Disk} {g : Stored ArtifactMetadata}
    {m : ArtifactMetadata} (hkey : key.engineProfileId = profile.engineProfileId)
    (hw : Written bytes d) (hg : d.metadata = some g) (hcontent : g.content = some m)
    (hm : Fits sha256Hex profile key bytes m) : ReadsBack sha256Hex profile key d bytes := by
  obtain ⟨f, hf, hfcontent⟩ := hw
  refine ⟨Run.settles exec_total _ _, ?_⟩
  intro es q s r hr hq
  refine Alone.result (P := fun r => r = .ok (.read (some bytes))) ?_ hr hq
  rw [tryRead, if_neg fun hne => hne hkey]
  refine Alone.call ?_
  rintro t r _ ⟨rfl, rfl⟩
  dsimp only
  rw [hg]
  refine Alone.call ?_
  rintro u r _ ⟨rfl, rfl⟩
  dsimp only
  rw [Option.bind_some, hcontent]
  show Alone _ (readEntry sha256Hex profile key m) _
  rw [readEntry, hm.valid]
  dsimp only
  rw [if_neg fun hne => hne hm.digest]
  refine Alone.call ?_
  rintro v r _ ⟨rfl, rfl⟩
  dsimp only
  rw [hf]
  refine Alone.call ?_
  rintro w r _ ⟨rfl, rfl⟩
  dsimp only
  rw [Option.bind_some, hfcontent]
  show Alone _ (if m.artifactBytes ≠ bytes.length then _ else
    if m.artifactSha256 ≠ some (sha256Hex bytes) then _ else _) _
  rw [if_neg fun hne => hne hm.size, if_neg fun hne => hne hm.hash]
  exact Alone.updateAccess (P := fun r => r = .ok (.read (some bytes))) rfl _

/-- Without an artifact nothing is read back. -/
theorem not_readsBack_of_none {bytes : Bytes} {d : Disk} (hnone : d.artifact = none) :
    ¬ ReadsBack sha256Hex profile key d bytes := by
  rintro ⟨⟨es, q, s, r, hr, hq⟩, hall⟩
  have hnot : r ≠ .ok (.read (some bytes)) := by
    refine Alone.result (P := fun r => r ≠ .ok (.read (some bytes))) ?_ hr hq
    rw [tryRead]
    split
    · exact Alone.fail nofun d
    refine Alone.call ?_
    rintro t r _ ⟨rfl, rfl⟩
    dsimp only
    cases hmeta : d.metadata with
    | none =>
        refine Alone.call ?_
        rintro u r _ ⟨rfl, rfl⟩
        dsimp only
        rw [hnone]
        exact Alone.ret nofun _
    | some g =>
        refine Alone.call ?_
        rintro u r _ ⟨rfl, rfl⟩
        dsimp only
        rw [Option.bind_some]
        cases g.content with
        | none => exact Alone.deleteEntry nofun _
        | some m =>
            show Alone _ (readEntry sha256Hex profile key m) _
            rw [readEntry]
            split
            · exact Alone.deleteEntry nofun _
            split
            · exact Alone.deleteEntry nofun _
            refine Alone.call ?_
            rintro v r _ ⟨rfl, rfl⟩
            dsimp only
            rw [hnone]
            refine Alone.call ?_
            rintro w r d' -
            cases r with
            | true => exact Alone.deleteEntry nofun _
            | false => exact Alone.ret nofun _
  exact hnot (hall es q s r hr hq)

end Reads

/-! ## The interleavings that lose a write -/

section Lost

variable (sha256Hex : Bytes → String) (profile : EngineProfile) (key : ArtifactKey)
variable {deadline : Int} {bytes : Bytes} {m : ArtifactMetadata}

/-- Everything happens at the deadline, and nothing fails. -/
def prompt (deadline : Int) : Handler FileOp FileOp.Answer (Disk × Unit)
  | .metaExists, s => (s.1.metadata.isSome, { s.1 with now := deadline }, ())
  | .artifactExists, s => (s.1.artifact.isSome, { s.1 with now := deadline }, ())
  | .metaOld, s => (s.1.metadata.any (·.old deadline), { s.1 with now := deadline }, ())
  | .artifactOld, s => (s.1.artifact.any (·.old deadline), { s.1 with now := deadline }, ())
  | .readMeta, s => (s.1.metadata.bind (·.content), { s.1 with now := deadline }, ())
  | .readArtifact, s => (s.1.artifact.bind (·.content), { s.1 with now := deadline }, ())
  | .removeArtifact, s => ((), { s.1 with artifact := none, now := deadline }, ())
  | .removeMeta, s => ((), { s.1 with metadata := none, now := deadline }, ())
  | .createPrivateDir, s => (true, { s.1 with now := deadline }, ())
  | .timestamp, s => ("", { s.1 with now := deadline }, ())
  | .writeTmp, s => (some deadline, { s.1 with now := deadline }, ())
  | .removeTmp, s => ((), { s.1 with now := deadline }, ())
  | .renameArtifact f, s => (true, { s.1 with artifact := some f, now := deadline }, ())
  | .renameMeta f, s => (true, { s.1 with metadata := some f, now := deadline }, ())

theorem prompt_exec (i : FileOp) (s : Disk × Unit) (h : s.1.now ≤ deadline) :
    FileOp.exec (fun t => t ≤ deadline) i s (prompt deadline i s).1 (prompt deadline i s).2 ∧
      (prompt deadline i s).2.1.now ≤ deadline := by
  refine ⟨⟨deadline, h, le_refl _, ?_⟩, ?_⟩
  · cases i with
    | removeArtifact => exact .inr rfl
    | removeMeta => exact .inr rfl
    | writeTmp => exact ⟨fun t ht => (Option.some.inj ht).symm, rfl⟩
    | renameArtifact f => exact .inl ⟨rfl, rfl⟩
    | renameMeta f => exact .inl ⟨rfl, rfl⟩
    | createPrivateDir => rfl
    | timestamp => rfl
    | removeTmp => rfl
    | metaExists => exact ⟨rfl, rfl⟩
    | artifactExists => exact ⟨rfl, rfl⟩
    | metaOld => exact ⟨rfl, rfl⟩
    | artifactOld => exact ⟨rfl, rfl⟩
    | readMeta => exact ⟨rfl, rfl⟩
    | readArtifact => exact ⟨rfl, rfl⟩
  · cases i <;> exact le_refl deadline

/-- A call for `n` operations at the deadline. -/
theorem prompt_run (n : Nat) (p : Call) {d : Disk} (h : d.now ≤ deadline) :
    ∃ es, Run (FileOp.exec fun t => t ≤ deadline) p (d, ()) es
      (plays (prompt deadline) n (p, (d, ()))).1 (plays (prompt deadline) n (p, (d, ()))).2 := by
  refine play_run (I := fun s => s.1.now ≤ deadline) (C := fun _ _ => True) _ ?_ p (d, ()) h
    (playMeets_of_forall (fun _ _ => trivial) _ _)
  intro x hx i s hs _
  rw [(List.eq_of_mem_replicate hx)]
  exact prompt_exec i s hs

/-- The disk right after a write at the deadline. -/
def writtenDisk (deadline : Int) (bytes : Bytes) (m : ArtifactMetadata) : Disk where
  artifact := some ⟨some bytes, some deadline⟩
  metadata := some ⟨some (m.withArtifactSha256 (sha256Hex bytes)), some deadline⟩
  now := deadline

variable {sha256Hex profile key}

theorem prompt_write (hm : Accepts profile key m) (d : Disk) :
    plays (prompt deadline) 6 (writeAtomic sha256Hex profile key bytes m, (d, ())) =
      (.ret .wrote, (writtenDisk sha256Hex deadline bytes m, ())) := by
  obtain ⟨hvalid, hdigest, hkey⟩ := hm
  rw [writeAtomic, hvalid]
  dsimp only
  rw [if_neg fun hne => hne hdigest, if_neg fun hne => hne hkey]
  rfl

/-- **A READER LOSES A WRITE** when it can stop before the write and delete the artifact after it. -/
theorem lost_of_runs (hm : Accepts profile key m) {d d₁ d₃ : Disk} (hd₁ : d₁.now ≤ deadline) {q : Call}
    {es es' : List (Event FileOp FileOp.Answer)}
    (hbefore : Run (FileOp.exec fun t => t ≤ deadline) (tryRead sha256Hex profile key) (d, ()) es q
      (d₁, ()))
    (hafter : Run (FileOp.exec fun t => t ≤ deadline) q (writtenDisk sha256Hex deadline bytes m, ()) es'
      miss (d₃, ()))
    (hgone : d₃.artifact = none) : ¬ Survives sha256Hex profile key d deadline bytes m := by
  intro hsurvives
  obtain ⟨ws, hwrite⟩ := prompt_run 6 (writeAtomic sha256Hex profile key bytes m) hd₁
  rw [prompt_write hm] at hwrite
  have hspawn : Pool.Reach (FileOp.exec fun t => t ≤ deadline) (IsReader sha256Hex profile key)
      ⟨d, [some ((), writeAtomic sha256Hex profile key bytes m)]⟩
      ⟨d, [some ((), writeAtomic sha256Hex profile key bytes m),
        some ((), tryRead sha256Hex profile key)]⟩ :=
    Pool.Reach.refl.spawned rfl
  have hread := hspawn.run (j := 1) rfl hbefore
  have hwrote := hread.run (j := 0) rfl hwrite
  have hdeleted := hwrote.run (j := 1) rfl hafter
  refine not_readsBack_of_none hgone (hsurvives _ hdeleted ?_ rfl)
  intro t ht
  rcases List.mem_cons.mp ht with rfl | ht
  · exact ⟨_, rfl, rfl⟩
  · rw [List.mem_singleton.mp ht]
    exact ⟨_, rfl, rfl⟩

theorem deleteEntry_run (d : Disk) (hd : d.now ≤ deadline) :
    ∃ es, Run (FileOp.exec fun t => t ≤ deadline) (deleteEntry miss) (d, ()) es miss
      (⟨none, none, deadline⟩, ()) :=
  prompt_run 2 (deleteEntry miss) hd

/-- A reader that decides on the old files to delete the entry. -/
theorem lost_of_decision (hm : Accepts profile key m) {d d₁ : Disk} (hd₁ : d₁.now ≤ deadline)
    {es : List (Event FileOp FileOp.Answer)}
    (hbefore : Run (FileOp.exec fun t => t ≤ deadline) (tryRead sha256Hex profile key) (d, ()) es
      (deleteEntry miss) (d₁, ())) : ¬ Survives sha256Hex profile key d deadline bytes m := by
  obtain ⟨es', hdelete⟩ := deleteEntry_run (writtenDisk sha256Hex deadline bytes m) (le_refl deadline)
  exact lost_of_runs hm hd₁ hbefore hdelete rfl

/-- A reader whose metadata does not fit the new artifact. -/
theorem mismatch_run (deadline : Int) (m : ArtifactMetadata) {m₀ : ArtifactMetadata} (hne : ¬ (m₀.artifactBytes = bytes.length ∧
    m₀.artifactSha256 = some (sha256Hex bytes))) :
    ∃ es, Run (FileOp.exec fun t => t ≤ deadline) (readArtifact sha256Hex m₀)
      (writtenDisk sha256Hex deadline bytes m, ()) es miss (⟨none, none, deadline⟩, ()) := by
  have hrun := prompt_run 4 (readArtifact sha256Hex m₀)
    (d := writtenDisk sha256Hex deadline bytes m) (le_refl deadline)
  have hplays : plays (prompt deadline) 4
      (readArtifact sha256Hex m₀, (writtenDisk sha256Hex deadline bytes m, ())) =
      (miss, (⟨none, none, deadline⟩, ())) := by
    show plays (prompt deadline) 2 (if m₀.artifactBytes ≠ bytes.length then deleteEntry miss
      else if m₀.artifactSha256 ≠ some (sha256Hex bytes) then deleteEntry miss else _,
        (writtenDisk sha256Hex deadline bytes m, ())) = _
    by_cases hsize : m₀.artifactBytes = bytes.length
    · rw [if_neg fun h => h hsize, if_pos fun h => hne ⟨hsize, h⟩]
      rfl
    · rw [if_pos hsize]
      rfl
  rw [hplays] at hrun
  exact hrun

variable (sha256Hex) in
/-- The reader up to the metadata. -/
theorem read_run {d : Disk} (hd : d.now ≤ deadline) {g : Stored ArtifactMetadata}
    (hkey : key.engineProfileId = profile.engineProfileId) (hg : d.metadata = some g) :
    ∃ es, Run (FileOp.exec fun t => t ≤ deadline) (tryRead sha256Hex profile key) (d, ()) es
      (match g.content with
        | none => deleteEntry miss
        | some m => readEntry sha256Hex profile key m) ({ d with now := deadline }, ()) := by
  have hrun := prompt_run 2 (tryRead sha256Hex profile key) hd
  obtain ⟨artifact, metadata, now⟩ := d
  cases hg
  rw [tryRead, if_neg fun hne => hne hkey] at hrun ⊢
  exact hrun

theorem readEntry_of_valid {m₀ : ArtifactMetadata} (hvalid : m₀.validateForProfile profile = .ok ())
    (hdigest : m₀.wasmDigest = key.wasmDigest) :
    readEntry sha256Hex profile key m₀ = readArtifact sha256Hex m₀ := by
  rw [readEntry, hvalid]
  dsimp only
  rw [if_neg fun hne => hne hdigest]

/-- A write whose metadata gives another length is lost to the first reader after it. -/
theorem size_of_survives (hm : Accepts profile key m) {d : Disk} (hd : d.now ≤ deadline)
    (h : Survives sha256Hex profile key d deadline bytes m) : m.artifactBytes = bytes.length := by
  by_contra hne
  obtain ⟨es, hrun⟩ := read_run sha256Hex (d := writtenDisk sha256Hex deadline bytes m)
    (le_refl deadline) hm.2.2 rfl
  have hmismatch : ¬ ((m.withArtifactSha256 (sha256Hex bytes)).artifactBytes = bytes.length ∧
      (m.withArtifactSha256 (sha256Hex bytes)).artifactSha256 = some (sha256Hex bytes)) :=
    fun hboth => hne hboth.1
  obtain ⟨es', hlost⟩ := mismatch_run deadline m hmismatch
  change Run _ _ _ _ (readEntry sha256Hex profile key (m.withArtifactSha256 (sha256Hex bytes)))
    (writtenDisk sha256Hex deadline bytes m, ()) at hrun
  have hentry : readEntry sha256Hex profile key (m.withArtifactSha256 (sha256Hex bytes)) = _ :=
    readEntry_of_valid hm.1 hm.2.1
  rw [hentry] at hrun
  exact lost_of_runs hm hd Run.refl (hrun.trans hlost) rfl h

/-- With metadata that fits, the artifact fits too or is missing and the metadata is not old. -/
theorem partner_of_survives (hm : Accepts profile key m) {d : Disk} {g : Stored ArtifactMetadata}
    {m₀ : ArtifactMetadata} (h : Survives sha256Hex profile key d deadline bytes m)
    (hmeta : d.metadata = some g)
    (hfit : m₀.artifactBytes = bytes.length ∧ m₀.artifactSha256 = some (sha256Hex bytes))
    {es : List (Event FileOp FileOp.Answer)}
    (hrun : Run (FileOp.exec fun t => t ≤ deadline) (tryRead sha256Hex profile key) (d, ()) es
      (readArtifact sha256Hex m₀) ({ d with now := deadline }, ())) :
    match d.artifact with
    | none => g.old deadline = false
    | some f => Matching sha256Hex bytes f := by
  obtain ⟨artifact, metadata, now⟩ := d
  cases hmeta
  obtain ⟨es', hnext⟩ := prompt_run 2 (readArtifact sha256Hex m₀)
    (d := ⟨artifact, some g, deadline⟩) (le_refl deadline)
  cases artifact with
  | none =>
      change Run _ _ _ _ (match g.old deadline with | true => deleteEntry miss | false => miss)
        ((⟨none, some g, deadline⟩ : Disk), ()) at hnext
      cases hold : g.old deadline with
      | false => rfl
      | true =>
          rw [hold] at hnext
          exact absurd h (lost_of_decision hm (le_refl deadline) (hrun.trans hnext))
  | some f =>
      change Run _ _ _ _ (match f.content with
        | none => deleteEntry miss
        | some old => if m₀.artifactBytes ≠ old.length then deleteEntry miss
            else if m₀.artifactSha256 ≠ some (sha256Hex old) then deleteEntry miss
            else updateAccess m₀ (.ret (.read (some old))))
        ((⟨some f, some g, deadline⟩ : Disk), ()) at hnext
      have hlost : ∀ es' , Run (FileOp.exec fun t => t ≤ deadline) (readArtifact sha256Hex m₀)
          (⟨some f, some g, deadline⟩, ()) es' (deleteEntry miss) (⟨some f, some g, deadline⟩, ()) →
          False := fun es' hdelete => lost_of_decision hm (le_refl deadline) (hrun.trans hdelete) h
      cases hcontent : f.content with
      | none =>
          rw [hcontent] at hnext
          exact (hlost _ hnext).elim
      | some old =>
          rw [hcontent] at hnext
          dsimp only at hnext
          by_cases hsize : m₀.artifactBytes = old.length
          · by_cases hhash : m₀.artifactSha256 = some (sha256Hex old)
            · exact ⟨old, hcontent, hsize.symm.trans hfit.1,
                Option.some.inj (hhash.symm.trans hfit.2)⟩
            · rw [if_neg fun hne => hne hsize, if_pos hhash] at hnext
              exact (hlost _ hnext).elim
          · rw [if_pos hsize] at hnext
            exact (hlost _ hnext).elim

/-- **EVERY OTHER CONTENT CAN LOSE THE WRITE**, one kind after the other. -/
theorem undisturbed_of_survives (hm : Accepts profile key m) {d : Disk} (hd : d.now ≤ deadline)
    (h : Survives sha256Hex profile key d deadline bytes m) :
    Undisturbed sha256Hex profile key d deadline bytes := by
  unfold Undisturbed
  cases hmeta : d.metadata with
  | none =>
      intro f hf
      by_contra hold
      -- an old artifact without metadata: the reader removes whatever has its name by then
      have hrun := prompt_run 3 (tryRead sha256Hex profile key) hd
      have hplays : plays (prompt deadline) 3 (tryRead sha256Hex profile key, (d, ())) =
          (.call .removeArtifact fun _ => miss, ({ d with now := deadline }, ())) := by
        obtain ⟨artifact, metadata, now⟩ := d
        cases hmeta
        cases hf
        rw [tryRead, if_neg fun hne => hne hm.2.2]
        show (match f.old deadline with | true => _ | false => _, _) = _
        rw [Bool.of_not_eq_false hold]
        rfl
      rw [hplays] at hrun
      obtain ⟨es, hrun⟩ := hrun
      obtain ⟨es', hremove⟩ := prompt_run 1 (.call .removeArtifact fun _ => miss)
        (d := writtenDisk sha256Hex deadline bytes m) (le_refl deadline)
      exact lost_of_runs hm (le_refl deadline) hrun hremove rfl h
  | some g =>
      obtain ⟨es, hrun⟩ := read_run sha256Hex hd hm.2.2 hmeta
      cases hcontent : g.content with
      | none =>
          rw [hcontent] at hrun
          exact absurd h (lost_of_decision hm (le_refl deadline) hrun)
      | some m₀ =>
          rw [hcontent] at hrun
          change Run _ _ _ _ (readEntry sha256Hex profile key m₀) _ at hrun
          cases hvalid : m₀.validateForProfile profile with
          | error e =>
              rw [readEntry, hvalid] at hrun
              exact absurd h (lost_of_decision hm (le_refl deadline) hrun)
          | ok _ =>
              by_cases hdigest : m₀.wasmDigest = key.wasmDigest
              · rw [readEntry_of_valid hvalid hdigest] at hrun
                by_cases hfit : m₀.artifactBytes = bytes.length ∧
                    m₀.artifactSha256 = some (sha256Hex bytes)
                · refine ⟨⟨m₀, hcontent, hvalid, hdigest, hfit.1, hfit.2⟩, ?_⟩
                  exact partner_of_survives hm h hmeta hfit hrun
                · obtain ⟨es', hlost⟩ := mismatch_run deadline m hfit
                  exact absurd h (lost_of_runs hm (le_refl deadline) hrun hlost rfl)
              · rw [readEntry, hvalid] at hrun
                dsimp only at hrun
                rw [if_pos hdigest] at hrun
                exact absurd h (lost_of_decision hm (le_refl deadline) hrun)

end Lost

/-! ## A write among readers -/

section Main

variable {sha256Hex : Bytes → String} {profile : EngineProfile} {key : ArtifactKey}
variable {deadline : Int} {bytes : Bytes} {m : ArtifactMetadata}

theorem guarded_of_undisturbed {d : Disk} (hd : d.now ≤ deadline)
    (h : Undisturbed sha256Hex profile key d deadline bytes) :
    Guarded sha256Hex profile key d deadline bytes d := by
  obtain ⟨artifact, metadata, now⟩ := d
  refine ⟨le_refl _, hd, id, id, ?_, ?_, ?_, ?_⟩
  · rintro g ⟨⟩
    exact h.1
  · rintro g f ⟨⟩ ⟨⟩
    exact h.2
  · rintro ⟨⟩ g ⟨⟩
    exact h.2
  · rintro ⟨⟩ f hf
    exact h f hf

variable (sha256Hex bytes) in
/-- A write that is not accepted fails at once. -/
theorem writeAtomic_refused (hm : ¬ Accepts profile key m) :
    ∃ text, writeAtomic sha256Hex profile key bytes m = .fail text := by
  rw [writeAtomic]
  split
  · exact ⟨_, rfl⟩
  rename_i hvalid
  split
  · exact ⟨_, rfl⟩
  rename_i hdigest
  split
  · exact ⟨_, rfl⟩
  rename_i hkey
  exact absurd ⟨hvalid, Decidable.not_not.mp hdigest, Decidable.not_not.mp hkey⟩ hm

/-- **NO INTERLEAVING LOSES A WRITE OVER UNDISTURBED FILES.** -/
theorem survives_of_undisturbed {d : Disk} (hd : d.now ≤ deadline)
    (hgrace : deadline ≤ d.now + incompleteEntryGrace)
    (hsize : Accepts profile key m → m.artifactBytes = bytes.length)
    (h : Accepts profile key m → Undisturbed sha256Hex profile key d deadline bytes) :
    Survives sha256Hex profile key d deadline bytes m := by
  intro c hreach hfinished hwrote
  by_cases hm : Accepts profile key m
  · have hguarded := guarded_of_undisturbed hd (h hm)
    have hstart : Pool.Sat (Guarded sha256Hex profile key d deadline bytes)
        (Keeps sha256Hex profile key d deadline bytes) (FileOp.exec fun t => t ≤ deadline)
        (fun s _ s' => Keeps sha256Hex profile key d deadline bytes s.1 s'.1) (fun _ _ => True)
        (Landed bytes) ⟨d, [some ((), writeAtomic sha256Hex profile key bytes m)]⟩ := by
      refine ⟨hguarded, ?_⟩
      intro j mem p hj
      have hmem := List.mem_singleton.mp (List.mem_of_getElem? hj)
      cases hmem
      exact writeAtomic_safe hgrace hguarded hsize
    obtain ⟨⟨hinv, hthreads⟩, -⟩ := Pool.Reach.sat Keeps.refl
      (fun _ _ _ => Keeps.trans) (fun _ _ _ hi hk => ⟨hk.guarded hi, hk⟩)
      (by
        rintro st mem p hi rfl
        exact tryRead_safe hgrace hi) hstart hreach
    obtain ⟨hwritten, hmeta⟩ := Main.Sat.result (fun s => ⟨Keeps.refl s.1, rfl⟩) (hthreads 0 () _ hwrote)
      rfl rfl
    obtain ⟨g, hg⟩ := Option.isSome_iff_exists.mp hmeta
    obtain ⟨m', hcontent, hfits⟩ := hinv.fits g hg
    exact readsBack_of_written hm.2.2 hwritten hg hcontent hfits
  · -- a write that is not accepted returns an error
    obtain ⟨text, hfail⟩ := writeAtomic_refused sha256Hex bytes hm
    have hsettled := hreach.settled (j := 0) rfl (by rw [hfail]; rfl)
    rw [hwrote, hfail] at hsettled
    rcases hsettled with hsettled | hsettled
    · cases hsettled
    · cases hsettled

/-- **A WRITE SURVIVES EVERY INTERLEAVING WITH READERS** exactly if it is refused at the start, or its
    metadata gives the length of the bytes and the files it finds are undisturbed. -/
theorem write_survives_iff {d : Disk} (hd : d.now ≤ deadline)
    (hgrace : deadline ≤ d.now + incompleteEntryGrace) :
    Survives sha256Hex profile key d deadline bytes m ↔
      (Accepts profile key m → m.artifactBytes = bytes.length ∧
        Undisturbed sha256Hex profile key d deadline bytes) := by
  constructor
  · intro h hm
    exact ⟨size_of_survives hm hd h, undisturbed_of_survives hm hd h⟩
  · intro h
    exact survives_of_undisturbed hd hgrace (fun hm => (h hm).1) fun hm => (h hm).2

end Main

/-- The profile of the examples below. -/
def plainProfile : EngineProfile := ⟨"p", "w", "t", "c", "f"⟩

/-- Its key. -/
def plainKey : ArtifactKey := ⟨"p", "d"⟩

/-- The metadata of an artifact without bytes. -/
def emptyMetadata : ArtifactMetadata := ⟨1, "p", "w", "t", "c", "f", "d", 0, "", "", 0, none⟩

/-- SHA-256 of no bytes. -/
def emptySha256 : Bytes → String :=
  fun _ => "e3b0c44298fc1c149afbf4c8996fb92427ae41e4649b934ca495991b7852b855"

theorem emptyMetadata_accepted : Accepts plainProfile plainKey emptyMetadata := ⟨rfl, rfl, rfl⟩

/-- SHA-256 of two artifacts of three bytes. -/
def sampleSha256 : Bytes → String := fun bytes =>
  if bytes = [1, 2, 3] then "039058c6f2c0cb492c533b0a4d14ef77cc0f78abccced5287d84a1a2011cfb81"
  else if bytes = [1, 2, 9] then "19b4f6cb0a3d32668c446f48789edd344fe38df219cd1209f56b9499fa34d75a"
  else emptySha256 bytes

/-- The metadata to write an artifact of three bytes with. -/
def sampleMetadata : ArtifactMetadata := ⟨1, "p", "w", "t", "c", "f", "d", 3, "", "", 0, none⟩

/-- A disk with an artifact and the metadata of an earlier write of `[1, 2, 3]`, read four times. -/
def writtenBefore (artifact : Bytes) : Disk where
  artifact := some ⟨some artifact, some (-7)⟩
  metadata := some ⟨some { sampleMetadata with
    hitCount := 4, artifactSha256 := some (sampleSha256 [1, 2, 3]) }, some (-5)⟩
  now := 0

/-- A write survives over the same artifact, and over a young one without metadata, but not over an
    artifact that its metadata does not fit. -/
theorem write_survives_iff_rewrite :
    let survives := fun d => Survives sampleSha256 plainProfile plainKey d 60000000000 [1, 2, 3] sampleMetadata
    survives (writtenBefore [1, 2, 3]) ∧ survives ⟨some ⟨some [9], some 0⟩, none, 0⟩ ∧
      ¬ survives (writtenBefore [1, 2, 9]) := by
  refine ⟨?_, ?_, ?_⟩
  · refine (write_survives_iff (by decide) (by decide)).mpr fun _ => ⟨rfl, ⟨_, rfl, rfl, rfl, rfl, rfl⟩, ?_⟩
    exact ⟨[1, 2, 3], rfl, rfl, rfl⟩
  · refine (write_survives_iff (by decide) (by decide)).mpr fun _ => ⟨rfl, ?_⟩
    rintro f hf
    cases hf
    decide
  · intro h
    have hm : Accepts plainProfile plainKey sampleMetadata := ⟨rfl, rfl, rfl⟩
    obtain ⟨-, -, old, hold, -, hsha⟩ := (write_survives_iff (by decide) (by decide)).mp h hm
    cases hold
    revert hsha
    decide

/-- Over metadata that does not parse, a reader that has read it deletes the new entry. -/
theorem write_lost_over_corrupt_metadata :
    ¬ ∀ sha256Hex profile key d deadline bytes m, d.now ≤ deadline →
      deadline ≤ d.now + incompleteEntryGrace →
        Survives sha256Hex profile key d deadline bytes m := by
  intro h
  have hsurvives := h emptySha256 plainProfile plainKey ⟨none, some ⟨none, some 0⟩, 0⟩ 0 []
    emptyMetadata (le_refl _) (by decide)
  obtain ⟨⟨m, hm, -⟩, -⟩ := undisturbed_of_survives emptyMetadata_accepted (le_refl _) hsurvives
  exact nomatch hm

end Greentic.ArtifactCache
