import GreenticRunner.AssocMap
import GreenticRunner.StableSort

/-! # Pruning the artifact cache

    An entry of the cache on disk is a pair of files, an artifact `.cwasm` and its metadata
    `.json`.  `prune_to_limit` first sweeps what is half an entry, then removes whole entries
    from the least recently accessed on.  The two phases find their files by different scans:
    the second one sees an entry only through READABLE metadata.

    * `Agrees`, `sweepArtifacts_spec` — the sweep removes exactly the old half entries;
    * `pruneTaken` — the entries that the second phase removes;
    * `dry_run_predicts_iff` — when a dry run counts what a real one removes. -/

namespace Greentic.ArtifactCache

open AssocMaps StableSort

/-! ## Files -/

/-- `DateTime<Utc>`: nanoseconds since the epoch, from the least one on. -/
structure DateTime where
  nanos : Int
  inRange : -8334601228800000000000 ≤ nanos

/-- `DateTime::timestamp`: whole seconds. -/
def DateTime.timestamp (t : DateTime) : Int := t.nanos / 1000000000

/-- `ArtifactMetadata`. -/
structure ArtifactMetadata where
  schemaVersion : Nat
  engineProfileId : String
  wasmtimeVersion : String
  targetTriple : String
  cpuPolicy : String
  configFingerprint : String
  wasmDigest : String
  artifactBytes : Nat
  createdAt : String
  lastAccessAt : String
  hitCount : Nat
  artifactSha256 : Option String
  deriving DecidableEq

/-- `last_access_time`; `rfc3339` reads a timestamp. -/
def ArtifactMetadata.lastAccessTime (rfc3339 : String → Option DateTime) (m : ArtifactMetadata) :
    Option DateTime :=
  (rfc3339 m.lastAccessAt).or (rfc3339 m.createdAt)

/-- The name of a file, as `file_stem` and `extension` split it. -/
structure FileName where
  stem : String
  ext : Option String
  deriving DecidableEq

/-- A file: its length, when it was modified if that can be read, and the metadata that its text
    is, if it can be read and parsed as such. -/
structure File where
  size : Nat
  modified : Option Int
  metadata : Option ArtifactMetadata

/-- A directory, in the order in which it is listed. -/
abbrev Listing : Type := AssocMap FileName File

/-- The two directories of the cache. -/
structure CacheDir where
  artifacts : Listing
  tmp : Listing

/-- `INCOMPLETE_ENTRY_GRACE`, in nanoseconds. -/
def incompleteEntryGrace : Int := 60000000000

/-- `older_than_grace`: a file whose age cannot be read is young. -/
def olderThanGrace (now : Int) (file : File) : Bool :=
  file.modified.any fun t => t + incompleteEntryGrace < now

/-- The artifact of a name. -/
def artifactName (stem : String) : FileName := ⟨stem, some "cwasm"⟩

/-- The metadata of a name. -/
def metaName (stem : String) : FileName := ⟨stem, some "json"⟩

/-- `PruneReport`. -/
structure PruneReport where
  removedEntries : Nat
  removedBytes : Nat
  deriving DecidableEq

/-- One more file or entry. -/
def PruneReport.count (r : PruneReport) (size : Nat) : PruneReport :=
  ⟨r.removedEntries + 1, r.removedBytes + size⟩

/-! ## The sweep -/

/-- Half an entry: an artifact without metadata, or the reverse. -/
def isOrphan (dir : Listing) (name : FileName) : Bool :=
  if name.ext = some "cwasm" then (dir.get? (metaName name.stem)).isNone
  else if name.ext = some "json" then (dir.get? (artifactName name.stem)).isNone
  else false

/-- The closure `remove` of `sweep_orphans`. -/
def sweepFile (now : Int) (dryRun : Bool) (s : Listing × PruneReport) (name : FileName) :
    Listing × PruneReport :=
  match s.1.get? name with
  | none => s
  | some file =>
      if olderThanGrace now file then
        (if dryRun then s.1 else s.1.erase name, s.2.count file.size)
      else s

/-- The loop over the artifacts: each test sees what is there by then. -/
def sweepArtifacts (now : Int) (dryRun : Bool) (names : List FileName) (s : Listing × PruneReport) :
    Listing × PruneReport :=
  names.foldl (fun s name => if isOrphan s.1 name then sweepFile now dryRun s name else s) s

/-- The loop over the temp files. -/
def sweepTmp (now : Int) (dryRun : Bool) (names : List FileName) (s : Listing × PruneReport) :
    Listing × PruneReport :=
  names.foldl (sweepFile now dryRun) s

/-- The names of a directory. -/
def namesOf (dir : Listing) : List FileName := dir.entries.map (·.1)

/-- `sweep_orphans`. -/
def sweepOrphans (now : Int) (dryRun : Bool) (d : CacheDir) : CacheDir × PruneReport :=
  let artifacts := sweepArtifacts now dryRun (namesOf d.artifacts) (d.artifacts, ⟨0, 0⟩)
  let tmp := sweepTmp now dryRun (namesOf d.tmp) (d.tmp, artifacts.2)
  (⟨artifacts.1, tmp.1⟩, tmp.2)

/-! ## The limit -/

/-- `i64::MIN`. -/
def i64Min : Int := -9223372036854775808

/-- An entry of the second phase. -/
structure Candidate where
  stem : String
  access : Option DateTime
  size : Nat

/-- The key of the sort. -/
def Candidate.key (e : Candidate) : Int := (e.access.map DateTime.timestamp).getD i64Min

/-- The length of the artifact of a name, `0` without one. -/
def artifactSize (dir : Listing) (stem : String) : Nat :=
  ((dir.get? (artifactName stem)).map (·.size)).getD 0

/-- What the second phase makes of a file. -/
def candidateOf (rfc3339 : String → Option DateTime) (dir : Listing) (f : FileName × File) :
    Option Candidate :=
  if f.1.ext = some "json" then
    f.2.metadata.map fun m => ⟨f.1.stem, m.lastAccessTime rfc3339, artifactSize dir f.1.stem⟩
  else none

/-- The entries with readable metadata, as listed. -/
def candidates (rfc3339 : String → Option DateTime) (dir : Listing) : List Candidate :=
  dir.entries.filterMap (candidateOf rfc3339 dir)

/-- The loop of the second phase. -/
def pruneLoop (limit : Nat) (dryRun : Bool) :
    List Candidate → Nat → Listing × PruneReport → Listing × PruneReport
  | [], _, s => s
  | e :: rest, remaining, s =>
      if remaining ≤ limit then s
      else
        pruneLoop limit dryRun rest (remaining - e.size)
          (if dryRun then s.1 else (s.1.erase (artifactName e.stem)).erase (metaName e.stem),
            s.2.count e.size)

/-- The sizes of a list of entries. -/
def sizes (es : List Candidate) : Nat := (es.map (·.size)).sum

/-- `prune_to_limit`. -/
def pruneToLimit (rfc3339 : String → Option DateTime) (now : Int) (diskMaxBytes : Option Nat)
    (dryRun : Bool) (d : CacheDir) : CacheDir × PruneReport :=
  let swept := sweepOrphans now dryRun d
  match diskMaxBytes with
  | none => swept
  | some limit =>
      let entries := candidates rfc3339 swept.1.artifacts
      let pruned := pruneLoop limit dryRun (sortByKey Candidate.key entries) (sizes entries)
        (swept.1.artifacts, swept.2)
      (⟨pruned.1, swept.1.tmp⟩, pruned.2)

/-- `approx_size_bytes`. -/
def approxSizeBytes (d : CacheDir) : Nat :=
  ((d.artifacts.entries.filter fun f => f.1.ext = some "cwasm").map fun f => f.2.size).sum

/-! ## What the sweep removes -/

/-- The files that a sweep removes. -/
def sweptAway (now : Int) (dir : Listing) (f : FileName × File) : Bool :=
  isOrphan dir f.1 && olderThanGrace now f.2

/-- `b` is `a` without some half entries. -/
structure Agrees (a b : Listing) : Prop where
  sub : ∀ f ∈ b.entries, f ∈ a.entries
  orphan : ∀ n file, a.get? n = some file → b.get? n = none → isOrphan a n = true

theorem Agrees.refl (a : Listing) : Agrees a a := by
  refine ⟨fun f hf => hf, ?_⟩
  intro n file hsome hnone
  rw [hsome] at hnone
  exact nomatch hnone

theorem Agrees.get?_isNone {a b : Listing} (h : Agrees a b) {n p : FileName} {file : File}
    (hn : b.get? n = some file) (hp : isOrphan a p = true → a.get? n = none) :
    (b.get? p).isNone = (a.get? p).isNone := by
  have hn' : a.get? n = some file :=
    (AssocMap.get?_eq_some_iff ..).mpr (h.sub _ ((AssocMap.get?_eq_some_iff ..).mp hn))
  cases hb : b.get? p with
  | some g =>
      have ha : a.get? p = some g :=
        (AssocMap.get?_eq_some_iff ..).mpr (h.sub _ ((AssocMap.get?_eq_some_iff ..).mp hb))
      rw [ha]
  | none =>
      cases ha : a.get? p with
      | none => rfl
      | some g =>
          -- the partner of a file that is there was not swept
          rw [hp (h.orphan p g ha hb)] at hn'
          exact nomatch hn'

/-- A sweep does not change which of the other files are half entries. -/
theorem Agrees.isOrphan {a b : Listing} (h : Agrees a b) {n : FileName} {file : File}
    (hn : b.get? n = some file) : isOrphan b n = isOrphan a n := by
  obtain ⟨stem, ext⟩ := n
  unfold ArtifactCache.isOrphan
  dsimp only
  split
  · rename_i hext
    subst hext
    refine h.get?_isNone hn ?_
    intro horphan
    exact Option.isNone_iff_eq_none.mp horphan
  · split
    · rename_i hext
      subst hext
      refine h.get?_isNone hn ?_
      intro horphan
      exact Option.isNone_iff_eq_none.mp horphan
    · rfl

theorem Agrees.erase {a b : Listing} (h : Agrees a b) {n : FileName} {file : File}
    (hn : b.get? n = some file) (horphan : ArtifactCache.isOrphan b n = true) : Agrees a (b.erase n) := by
  refine ⟨fun f hf => h.sub f (AssocMap.mem_erase hf), ?_⟩
  intro m g hsome hnone
  by_cases hm : m = n
  · subst hm
    rw [← h.isOrphan hn]
    exact horphan
  · rw [AssocMap.get?_erase_of_ne hm] at hnone
    exact h.orphan m g hsome hnone

/-- One file of the sweep, really and dry. -/
theorem sweep_step (now : Int) {a t : Listing} {n : FileName} {file : File} (r : PruneReport)
    (ht : t.get? n = some file) (hto : isOrphan t n = isOrphan a n) (dryRun : Bool) :
    (if isOrphan t n then sweepFile now dryRun (t, r) n else (t, r)) =
      if sweptAway now a (n, file) then (if dryRun then t else t.erase n, r.count file.size) else (t, r) := by
  rw [hto, sweepFile]
  dsimp only
  rw [ht]
  dsimp only
  unfold sweptAway
  by_cases ho : isOrphan a n = true
  · rw [if_pos ho, ho, Bool.true_and]
  · rw [if_neg ho, Bool.eq_false_iff.mpr ho, Bool.false_and, if_neg (by decide)]

/-- **THE SWEEP REMOVES THE OLD HALF ENTRIES**, and a dry one counts the same. -/
theorem sweepArtifacts_spec (now : Int) {a : Listing} (ns : List FileName) :
    ∀ {b : Listing} (r : PruneReport), Agrees a b → ns.Nodup → (∀ n ∈ ns, (b.get? n).isSome) →
      (sweepArtifacts now false ns (b, r)).1.entries =
          b.entries.filter (fun f => !(ns.contains f.1 && sweptAway now a f)) ∧
        (sweepArtifacts now true ns (a, r)) = (a, (sweepArtifacts now false ns (b, r)).2) := by
  induction ns with
  | nil =>
      intro b r h hnd hin
      constructor
      · exact (List.filter_eq_self.mpr fun _ _ => rfl).symm
      · rfl
  | cons n ns ih =>
      intro b r h hnd hin
      obtain ⟨hnot, hnd'⟩ := List.nodup_cons.mp hnd
      obtain ⟨file, hfile⟩ := Option.isSome_iff_exists.mp (hin n (List.mem_cons_self ..))
      have hfa : a.get? n = some file :=
        (AssocMap.get?_eq_some_iff ..).mpr (h.sub _ ((AssocMap.get?_eq_some_iff ..).mp hfile))
      have hreal := sweep_step now r hfile (h.isOrphan hfile) false
      have hdry : _ = if sweptAway now a (n, file) then _ else _ := sweep_step now r hfa rfl true
      have hsame : ∀ f ∈ b.entries, f.1 = n → f = (n, file) := by
        rintro ⟨m, g⟩ hf rfl
        have hg := (AssocMap.get?_eq_some_iff ..).mpr hf
        rw [hfile] at hg
        cases hg
        rfl
      have hunfold : ∀ dryRun t, sweepArtifacts now dryRun (n :: ns) (t, r) =
          sweepArtifacts now dryRun ns
            (if isOrphan t n then sweepFile now dryRun (t, r) n else (t, r)) := fun _ _ => rfl
      rw [hunfold, hunfold, hreal, hdry]
      by_cases hsw : sweptAway now a (n, file) = true
      · rw [if_pos hsw, if_pos hsw, if_neg (by decide), if_pos rfl]
        have horphan : isOrphan b n = true := by
          rw [h.isOrphan hfile]
          exact (Bool.and_eq_true_iff.mp hsw).1
        obtain ⟨h1, h2⟩ := ih (r.count file.size) (h.erase hfile horphan) hnd' (by
          intro m hm
          have hne : m ≠ n := by
            rintro rfl
            exact hnot hm
          rw [AssocMap.get?_erase_of_ne hne]
          exact hin m (List.mem_cons_of_mem _ hm))
        refine ⟨?_, h2⟩
        rw [h1]
        show (b.entries.filter fun e => e.1 ≠ n).filter _ = _
        rw [List.filter_filter]
        refine List.filter_congr ?_
        intro f hf
        rw [List.contains_cons]
        by_cases hfn : f.1 = n
        · rw [hsame f hf hfn, hsw]
          simp
        · have hbeq : (f.1 == n) = false := beq_eq_false_iff_ne.mpr hfn
          rw [hbeq, Bool.false_or, decide_eq_true hfn, Bool.and_true]
      · rw [if_neg hsw, if_neg hsw]
        obtain ⟨h1, h2⟩ := ih r h hnd' fun m hm => hin m (List.mem_cons_of_mem _ hm)
        refine ⟨?_, h2⟩
        rw [h1]
        refine List.filter_congr ?_
        intro f hf
        rw [List.contains_cons]
        by_cases hfn : f.1 = n
        · rw [hsame f hf hfn, Bool.eq_false_iff.mpr hsw, Bool.and_false, Bool.and_false]
        · have hbeq : (f.1 == n) = false := beq_eq_false_iff_ne.mpr hfn
          rw [hbeq, Bool.false_or]

/-- A dry sweep of the temp files counts what a real one removes. -/
theorem sweepTmp_report (now : Int) (a : Listing) (ns : List FileName) :
    ∀ {b : Listing} (r : PruneReport), ns.Nodup → (∀ n ∈ ns, b.get? n = a.get? n) →
      sweepTmp now true ns (a, r) = (a, (sweepTmp now false ns (b, r)).2) := by
  induction ns with
  | nil => exact fun r _ _ => rfl
  | cons n ns ih =>
      intro b r hnd hsame
      obtain ⟨hnot, hnd'⟩ := List.nodup_cons.mp hnd
      have hrest : ∀ m ∈ ns, m ≠ n := fun m hm heq => hnot (heq ▸ hm)
      show sweepTmp now true ns (sweepFile now true (a, r) n) =
        (a, (sweepTmp now false ns (sweepFile now false (b, r) n)).2)
      rw [sweepFile, sweepFile]
      dsimp only
      rw [hsame n (List.mem_cons_self ..)]
      cases a.get? n with
      | none => exact ih r hnd' fun m hm => hsame m (List.mem_cons_of_mem _ hm)
      | some file =>
          dsimp only
          split
          · refine ih _ hnd' ?_
            intro m hm
            rw [if_neg (by decide), AssocMap.get?_erase_of_ne (hrest m hm)]
            exact hsame m (List.mem_cons_of_mem _ hm)
          · exact ih r hnd' fun m hm => hsame m (List.mem_cons_of_mem _ hm)

theorem namesOf_nodup (dir : Listing) : (namesOf dir).Nodup := dir.nodup

theorem mem_namesOf (dir : Listing) (n : FileName) (h : n ∈ namesOf dir) : (dir.get? n).isSome := by
  obtain ⟨f, hf, rfl⟩ := List.mem_map.mp h
  rw [(AssocMap.get?_eq_some_iff dir f.1 f.2).mpr hf]
  rfl

/-- What a real sweep leaves of the artifacts. -/
theorem sweepOrphans_entries (now : Int) (d : CacheDir) :
    (sweepOrphans now false d).1.artifacts.entries =
      d.artifacts.entries.filter fun f => !sweptAway now d.artifacts f := by
  have h := (sweepArtifacts_spec now (namesOf d.artifacts) ⟨0, 0⟩ (Agrees.refl d.artifacts)
    (namesOf_nodup _) (mem_namesOf _)).1
  refine h.trans (List.filter_congr ?_)
  intro f hf
  have hmem : (namesOf d.artifacts).contains f.1 = true :=
    List.contains_iff_mem.mpr (List.mem_map_of_mem hf)
  rw [hmem, Bool.true_and]

/-- **A DRY SWEEP** changes nothing and counts what a real one removes. -/
theorem sweepOrphans_dry (now : Int) (d : CacheDir) :
    sweepOrphans now true d = (d, (sweepOrphans now false d).2) := by
  have hart := (sweepArtifacts_spec now (namesOf d.artifacts) ⟨0, 0⟩ (Agrees.refl d.artifacts)
    (namesOf_nodup _) (mem_namesOf _)).2
  have htmp := sweepTmp_report now d.tmp (namesOf d.tmp)
    (sweepArtifacts now false (namesOf d.artifacts) (d.artifacts, ⟨0, 0⟩)).2 (namesOf_nodup _)
    fun _ _ => rfl
  rw [sweepOrphans, sweepOrphans]
  dsimp only
  rw [hart]
  dsimp only
  rw [htmp]

/-! ## The entries of the second phase -/

theorem get?_of_entries_filter {a b : Listing} {keep : FileName × File → Bool}
    (h : b.entries = a.entries.filter keep) (n : FileName) :
    b.get? n = (a.get? n).filter fun file => keep (n, file) := by
  apply Option.ext
  intro file
  rw [AssocMap.get?_eq_some_iff, h, List.mem_filter, ← AssocMap.get?_eq_some_iff,
    Option.filter_eq_some_iff]

section Swept

variable {rfc3339 : String → Option DateTime} {now : Int} {a b : Listing}

/-- Whether the metadata of an entry is swept away. -/
def sweptEntry (now : Int) (dir : Listing) (e : Candidate) : Bool :=
  (dir.get? (metaName e.stem)).any fun file => sweptAway now dir (metaName e.stem, file)

/-- A file of the second phase is the metadata of its entry. -/
theorem candidateOf_eq_some {f : FileName × File} {e : Candidate}
    (h : candidateOf rfc3339 a f = some e) : f.1 = metaName e.stem ∧ e.size = artifactSize a e.stem ∧
      ∃ m, f.2.metadata = some m ∧ e.access = m.lastAccessTime rfc3339 := by
  obtain ⟨⟨stem, ext⟩, file⟩ := f
  unfold candidateOf at h
  dsimp only at h
  split at h
  · rename_i hext
    subst hext
    obtain ⟨m, hm, rfl⟩ := Option.map_eq_some_iff.mp h
    exact ⟨rfl, rfl, m, hm, rfl⟩
  · exact nomatch h

/-- An entry whose metadata is swept has no artifact. -/
theorem sweptEntry_size {e : Candidate} (h : sweptEntry now a e = true)
    (hsize : e.size = artifactSize a e.stem) : e.size = 0 := by
  obtain ⟨file, -, hsw⟩ := (Option.any_eq_true _ _).mp h
  have horphan : isOrphan a (metaName e.stem) = true := (Bool.and_eq_true_iff.mp hsw).1
  have hnone : a.get? (artifactName e.stem) = none := Option.isNone_iff_eq_none.mp horphan
  rw [hsize, artifactSize, hnone]
  rfl

/-- The artifact of metadata that is left. -/
theorem artifactSize_filter {keep : FileName × File → Bool} (h : b.entries = a.entries.filter keep)
    {stem : String} (hpair : ∀ g, keep (artifactName stem, g) = true) :
    artifactSize b stem = artifactSize a stem := by
  rw [artifactSize, artifactSize, get?_of_entries_filter h]
  cases a.get? (artifactName stem) with
  | none => rfl
  | some g => rw [Option.filter_some, hpair, if_pos rfl]

/-- Whether the metadata of an entry is among the files that are kept. -/
def keptEntry (keep : FileName × File → Bool) (dir : Listing) (e : Candidate) : Bool :=
  (dir.get? (metaName e.stem)).any fun file => keep (metaName e.stem, file)

/-- **THE ENTRIES OF A PART OF A DIRECTORY** that keeps the artifact of all the metadata it keeps. -/
theorem candidates_filter {keep : FileName × File → Bool} (h : b.entries = a.entries.filter keep)
    (hpair : ∀ stem file, a.get? (metaName stem) = some file → keep (metaName stem, file) = true →
      ∀ g, keep (artifactName stem, g) = true) :
    candidates rfc3339 b = (candidates rfc3339 a).filter (keptEntry keep a) := by
  rw [candidates, candidates, h, List.filterMap_filter, List.filter_filterMap]
  refine List.filterMap_congr ?_
  intro f hf
  have hfile : a.get? f.1 = some f.2 := (AssocMap.get?_eq_some_iff ..).mpr hf
  cases ha : candidateOf rfc3339 a f with
  | none =>
      have hb : candidateOf rfc3339 b f = none := by
        unfold candidateOf at ha ⊢
        split
        · rename_i hext
          rw [if_pos hext] at ha
          rw [Option.map_eq_none_iff] at ha ⊢
          exact ha
        · rfl
      rw [hb]
      split <;> rfl
  | some e =>
      obtain ⟨hname, -, m, hm, -⟩ := candidateOf_eq_some ha
      have hkept : keptEntry keep a e = keep f := by
        rw [keptEntry, ← hname, hfile]
        rfl
      rw [Option.filter_some, hkept]
      split
      · rename_i hk
        have hsize : artifactSize b e.stem = artifactSize a e.stem := by
          refine artifactSize_filter h (hpair e.stem f.2 (by rw [← hname]; exact hfile) ?_)
          rw [← hname]
          exact hk
        have hext : f.1.ext = some "json" := by rw [hname]; rfl
        have hstem : f.1.stem = e.stem := by rw [hname]; rfl
        rw [← ha, candidateOf, candidateOf, if_pos hext, if_pos hext, hm, Option.map_some,
          Option.map_some, hstem, hsize]
      · rfl

/-- **WHAT THE SECOND PHASE OF A REAL PRUNE SEES** are the entries of a dry one, without those
    whose metadata was swept. -/
theorem candidates_swept (h : b.entries = a.entries.filter fun f => !sweptAway now a f) :
    candidates rfc3339 b = (candidates rfc3339 a).filter fun e => !sweptEntry now a e := by
  rw [candidates_filter h]
  · refine List.filter_congr ?_
    intro e he
    obtain ⟨f, hf, hcand⟩ := List.mem_filterMap.mp he
    have hmeta : a.get? (metaName e.stem) = some f.2 := by
      rw [← (candidateOf_eq_some hcand).1]
      exact (AssocMap.get?_eq_some_iff ..).mpr hf
    rw [keptEntry, sweptEntry, hmeta]
    rfl
  · intro stem file hmeta _ g
    -- an artifact with metadata is not half an entry
    have horphan : isOrphan a (artifactName stem) = false := by
      show (a.get? (metaName stem)).isNone = false
      rw [hmeta]
      rfl
    rw [sweptAway, horphan, Bool.false_and]
    rfl

end Swept

/-! ## What the second phase removes -/

/-- The entries that the loop removes, with what remains before each. -/
def pruneTaken (limit : Nat) : Nat → List Candidate → List Candidate
  | _, [] => []
  | remaining, e :: rest =>
      if remaining ≤ limit then [] else e :: pruneTaken limit (remaining - e.size) rest

/-- The directory without the files of some entries. -/
def dropEntries (dir : Listing) (es : List Candidate) : Listing :=
  es.foldl (fun d e => (d.erase (artifactName e.stem)).erase (metaName e.stem)) dir

theorem sizes_cons (e : Candidate) (es : List Candidate) : sizes (e :: es) = e.size + sizes es := by
  rw [sizes, List.map_cons, List.sum_cons]
  rfl

theorem pruneLoop_eq (limit : Nat) (dryRun : Bool) (es : List Candidate) :
    ∀ (remaining : Nat) (dir : Listing) (r : PruneReport),
      pruneLoop limit dryRun es remaining (dir, r) =
        (if dryRun then dir else dropEntries dir (pruneTaken limit remaining es),
          ⟨r.removedEntries + (pruneTaken limit remaining es).length,
            r.removedBytes + sizes (pruneTaken limit remaining es)⟩) := by
  induction es with
  | nil =>
      intro remaining dir r
      cases dryRun <;> rfl
  | cons e rest ih =>
      intro remaining dir r
      rw [pruneLoop, pruneTaken]
      split
      · cases dryRun <;> rfl
      · rw [ih]
        refine Prod.ext ?_ ?_
        · cases dryRun <;> rfl
        · show PruneReport.mk (r.removedEntries + 1 + _) (r.removedBytes + e.size + _) = _
          rw [List.length_cons, sizes_cons, Nat.add_right_comm, Nat.add_assoc, Nat.add_assoc]

theorem pruneTaken_of_le {limit remaining : Nat} (h : remaining ≤ limit) (es : List Candidate) :
    pruneTaken limit remaining es = [] := by
  cases es with
  | nil => rfl
  | cons e rest => rw [pruneTaken, if_pos h]

/-- Entries without an artifact do not change what else is removed. -/
theorem pruneTaken_filter (limit : Nat) {keep : Candidate → Bool} (es : List Candidate)
    (h : ∀ e ∈ es, keep e = false → e.size = 0) : ∀ remaining,
      pruneTaken limit remaining (es.filter keep) = (pruneTaken limit remaining es).filter keep := by
  induction es with
  | nil => exact fun _ => rfl
  | cons e rest ih =>
      intro remaining
      have ih' := ih fun x hx => h x (List.mem_cons_of_mem _ hx)
      rw [List.filter_cons, pruneTaken]
      by_cases hk : keep e = true
      · rw [if_pos hk, pruneTaken]
        split
        · rfl
        · rw [List.filter_cons_of_pos hk, ih']
      · rw [if_neg hk]
        have hzero : e.size = 0 := h e (List.mem_cons_self ..) (Bool.eq_false_iff.mpr hk)
        split
        · rename_i hle
          exact pruneTaken_of_le hle _
        · rw [List.filter_cons_of_neg hk, hzero, Nat.sub_zero, ih']

theorem sizes_append (es fs : List Candidate) : sizes (es ++ fs) = sizes es + sizes fs := by
  rw [sizes, List.map_append, List.sum_append]
  rfl

theorem sizes_perm {es fs : List Candidate} (h : es.Perm fs) : sizes es = sizes fs :=
  (h.map _).sum_nat

/-- What is left out has no size. -/
theorem sizes_filter {keep : Candidate → Bool} {es : List Candidate}
    (h : ∀ e ∈ es, keep e = false → e.size = 0) : sizes (es.filter keep) = sizes es := by
  induction es with
  | nil => rfl
  | cons e rest ih =>
      have ih' := ih fun x hx => h x (List.mem_cons_of_mem _ hx)
      rw [List.filter_cons, sizes_cons]
      by_cases hk : keep e = true
      · rw [if_pos hk, sizes_cons, ih']
      · rw [if_neg hk, h e (List.mem_cons_self ..) (Bool.eq_false_iff.mpr hk), ih', Nat.zero_add]

/-- **WHAT THE LOOP REMOVES** is a part from the front, and all that stays behind each removed
    entry, itself included, is more than the limit; what it leaves is within the limit. -/
theorem pruneTaken_spec (limit : Nat) (es : List Candidate) :
    ∃ post, es = pruneTaken limit (sizes es) es ++ post ∧ sizes post ≤ limit ∧
      ∀ pre e mid, pruneTaken limit (sizes es) es = pre ++ e :: mid →
        limit < sizes (e :: mid ++ post) := by
  induction es with
  | nil => exact ⟨[], rfl, Nat.zero_le _, fun pre e mid h => absurd h (by cases pre <;> exact nofun)⟩
  | cons e rest ih =>
      obtain ⟨post, hsplit, hle, hneed⟩ := ih
      rw [pruneTaken]
      split
      · rename_i hwithin
        exact ⟨e :: rest, rfl, hwithin, fun pre x mid h => absurd h (by cases pre <;> exact nofun)⟩
      · rename_i hover
        have hrest : sizes (e :: rest) - e.size = sizes rest := by
          rw [sizes_cons, Nat.add_sub_cancel_left]
        rw [hrest]
        refine ⟨post, by rw [List.cons_append, ← hsplit], hle, ?_⟩
        intro pre x mid hpre
        cases pre with
        | nil =>
            obtain ⟨rfl, hmid⟩ := List.cons.inj hpre
            rw [List.cons_append, ← hmid, ← hsplit]
            exact Nat.not_le.mp hover
        | cons y pre =>
            obtain ⟨-, hpre'⟩ := List.cons.inj hpre
            exact hneed pre x mid hpre'

/-- An entry is removed exactly if it and what stays behind it are more than the limit. -/
theorem mem_pruneTaken_iff (limit : Nat) (p : Candidate → Bool) (es : List Candidate)
    (hzero : ∀ e ∈ es, p e = true → e.size = 0) :
    (∀ e ∈ pruneTaken limit (sizes es) es, p e = false) ↔
      ∀ pre e post, es = pre ++ e :: post → p e = true → sizes post ≤ limit := by
  induction es with
  | nil =>
      constructor
      · intro _ pre e post h
        exact absurd h (by cases pre <;> exact nofun)
      · intro _ e he
        exact nomatch he
  | cons e rest ih =>
      have ih' := ih fun x hx => hzero x (List.mem_cons_of_mem _ hx)
      rw [pruneTaken]
      split
      · rename_i hwithin
        constructor
        · intro _ pre x post hsplit _
          refine Nat.le_trans ?_ hwithin
          rw [hsplit, sizes_append, sizes_cons]
          omega
        · intro _ x hx
          exact nomatch hx
      · rename_i hover
        have hrest : sizes (e :: rest) - e.size = sizes rest := by
          rw [sizes_cons, Nat.add_sub_cancel_left]
        rw [hrest, List.forall_mem_cons, ih']
        constructor
        · rintro ⟨he, hall⟩ pre x post hsplit hx
          cases pre with
          | nil =>
              obtain ⟨rfl, rfl⟩ := List.cons.inj hsplit
              rw [he] at hx
              exact nomatch hx
          | cons y pre => exact hall pre x post (List.cons.inj hsplit).2 hx
        · intro hall
          refine ⟨?_, fun pre x post hsplit hx => hall (e :: pre) x post (by rw [hsplit]; rfl) hx⟩
          cases hp : p e with
          | false => rfl
          | true =>
              have hle := hall [] e rest rfl hp
              rw [sizes_cons, hzero e (List.mem_cons_self ..) hp, Nat.zero_add] at hover
              exact absurd hle hover

/-! ## A dry run -/

section DryRun

variable (rfc3339 : String → Option DateTime) (now : Int) (d : CacheDir)

/-- The entries in the order in which a dry run takes them. -/
def dryOrder : List Candidate := sortByKey Candidate.key (candidates rfc3339 d.artifacts)

variable {rfc3339 now d} in
theorem candidates_swept_size (e : Candidate) (he : e ∈ candidates rfc3339 d.artifacts)
    (hsw : sweptEntry now d.artifacts e = true) : e.size = 0 := by
  obtain ⟨f, -, hf⟩ := List.mem_filterMap.mp he
  exact sweptEntry_size hsw (candidateOf_eq_some hf).2.1

/-- The entries that a dry run counts in its second phase. -/
def dryTaken (limit : Nat) : List Candidate :=
  pruneTaken limit (sizes (dryOrder rfc3339 d)) (dryOrder rfc3339 d)

theorem sizes_dryOrder : sizes (candidates rfc3339 d.artifacts) = sizes (dryOrder rfc3339 d) :=
  (sizes_perm (perm_sortByKey _)).symm

/-- A dry run in terms of what it counts. -/
theorem pruneToLimit_dry (limit : Nat) :
    pruneToLimit rfc3339 now (some limit) true d =
      (d, ⟨(sweepOrphans now false d).2.removedEntries + (dryTaken rfc3339 d limit).length,
        (sweepOrphans now false d).2.removedBytes + sizes (dryTaken rfc3339 d limit)⟩) := by
  rw [pruneToLimit, sweepOrphans_dry, pruneLoop_eq, sizes_dryOrder]
  rfl

/-- A real run in terms of what a dry one counts. -/
theorem pruneToLimit_real (limit : Nat) :
    pruneToLimit rfc3339 now (some limit) false d =
      (⟨dropEntries (sweepOrphans now false d).1.artifacts
          ((dryTaken rfc3339 d limit).filter fun e => !sweptEntry now d.artifacts e),
        (sweepOrphans now false d).1.tmp⟩,
        ⟨(sweepOrphans now false d).2.removedEntries +
            ((dryTaken rfc3339 d limit).filter fun e => !sweptEntry now d.artifacts e).length,
          (sweepOrphans now false d).2.removedBytes + sizes (dryTaken rfc3339 d limit)⟩) := by
  have hzero : ∀ e ∈ candidates rfc3339 d.artifacts,
      (!sweptEntry now d.artifacts e) = false → e.size = 0 :=
    fun e he hk => candidates_swept_size e he (by simpa using hk)
  have hzero' : ∀ e ∈ dryOrder rfc3339 d, (!sweptEntry now d.artifacts e) = false → e.size = 0 :=
    fun e he => hzero e ((perm_sortByKey _).mem_iff.mp he)
  have htaken : ∀ e ∈ dryTaken rfc3339 d limit, e ∈ dryOrder rfc3339 d := by
    obtain ⟨post, hsplit, -, -⟩ := pruneTaken_spec limit (dryOrder rfc3339 d)
    intro e he
    rw [hsplit]
    exact List.mem_append_left _ he
  have hsizes : sizes ((dryTaken rfc3339 d limit).filter fun e => !sweptEntry now d.artifacts e) =
      sizes (dryTaken rfc3339 d limit) := sizes_filter fun e he => hzero' e (htaken e he)
  have hreal : pruneTaken limit (sizes (candidates rfc3339 d.artifacts))
      (sortByKey Candidate.key ((candidates rfc3339 d.artifacts).filter
        fun e => !sweptEntry now d.artifacts e)) =
      (dryTaken rfc3339 d limit).filter fun e => !sweptEntry now d.artifacts e := by
    rw [sortByKey_filter, sizes_dryOrder]
    exact pruneTaken_filter limit _ hzero' _
  rw [pruneToLimit, candidates_swept (sweepOrphans_entries now d), sizes_filter hzero, pruneLoop_eq, hreal, hsizes]
  rfl

/-- **A DRY RUN PREDICTS THE REAL ONE** exactly when no half entry with readable metadata that the
    sweep removes is counted once more: for each of them, the artifacts of the entries that were
    accessed later are within the limit. -/
theorem dry_run_predicts_iff (diskMaxBytes : Option Nat) :
    ((pruneToLimit rfc3339 now diskMaxBytes true d).1 = d ∧
      (pruneToLimit rfc3339 now diskMaxBytes true d).2 =
        (pruneToLimit rfc3339 now diskMaxBytes false d).2) ↔
      ∀ limit, diskMaxBytes = some limit → ∀ pre e post, dryOrder rfc3339 d = pre ++ e :: post →
        sweptEntry now d.artifacts e = true → sizes post ≤ limit := by
  have hdry := sweepOrphans_dry now d
  cases diskMaxBytes with
  | none =>
      have hboth : ∀ dryRun, pruneToLimit rfc3339 now none dryRun d = sweepOrphans now dryRun d :=
        fun _ => rfl
      rw [hboth, hboth, hdry]
      exact ⟨fun _ _ h => (nomatch h), fun _ => ⟨rfl, rfl⟩⟩
  | some limit =>
      have hzero : ∀ e ∈ dryOrder rfc3339 d, sweptEntry now d.artifacts e = true → e.size = 0 :=
        fun e he => candidates_swept_size e ((perm_sortByKey _).mem_iff.mp he)
      rw [pruneToLimit_dry, pruneToLimit_real]
      have hcount := mem_pruneTaken_iff limit (sweptEntry now d.artifacts) (dryOrder rfc3339 d) hzero
      constructor
      · rintro ⟨-, hsame⟩ limit' hlimit
        cases hlimit
        refine hcount.mp ?_
        have hlength := congrArg PruneReport.removedEntries hsame
        dsimp only at hlength
        have hall := List.length_filter_eq_length_iff.mp (Nat.add_left_cancel hlength).symm
        intro e he
        simpa using hall e he
      · intro h
        have hall := hcount.mpr (h limit rfl)
        have hkeep : (dryTaken rfc3339 d limit).filter (fun e => !sweptEntry now d.artifacts e) =
            dryTaken rfc3339 d limit := by
          refine List.filter_eq_self.mpr ?_
          intro e he
          rw [hall e he]
          rfl
        rw [hkeep]
        exact ⟨rfl, rfl⟩

end DryRun

/-- Metadata without timestamps. -/
def plainMetadata : ArtifactMetadata :=
  ⟨1, "p", "w", "t", "c", "f", "d", 2, "", "", 0, none⟩

/-- A half entry `a`, which is metadata alone, before an entry `b`. -/
def halfEntryDir : CacheDir where
  artifacts :=
    ⟨[(metaName "a", ⟨1, some 0, some plainMetadata⟩), (artifactName "b", ⟨2, some 0, none⟩),
      (metaName "b", ⟨1, some 0, some plainMetadata⟩)], by decide⟩
  tmp := .empty

/-- The half entry is counted by both phases of a dry run, so three for the two that go. -/
theorem half_entry_counted_twice :
    ¬ ∀ rfc3339 now d diskMaxBytes, (pruneToLimit rfc3339 now diskMaxBytes true d).1 = d ∧
      (pruneToLimit rfc3339 now diskMaxBytes true d).2 =
        (pruneToLimit rfc3339 now diskMaxBytes false d).2 := by
  intro h
  have hsame := (h (fun _ => none) 100000000000 halfEntryDir (some 1)).2
  revert hsame
  decide

end Greentic.ArtifactCache
