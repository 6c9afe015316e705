import GreenticRunner.DiskCache

/-! # How far a prune gets

    `approx_size_bytes` counts the artifacts, the second phase of `prune_to_limit` the artifacts
    BEHIND READABLE METADATA.  The two differ by the artifacts whose metadata cannot be read, which
    nothing ever removes.  And the second phase orders the entries by whole seconds, so that
    entries of one second go in the order of the listing.

    * `artifactBytes_eq` — the two ways of counting;
    * `unmatched_after` — what a prune leaves of artifacts without readable metadata;
    * `prune_oldest_first_iff` — the directories in which every limit is met, oldest first. -/

namespace Greentic.ArtifactCache

open AssocMaps StableSort

/-! ## What a prune is for -/

/-- When an entry was last accessed; one without a readable time comes before all others. -/
def Candidate.accessed (e : Candidate) : WithBot Int := e.access.elim ⊥ fun t => (t.nanos : WithBot Int)

/-- The order by whole seconds never contradicts the order of access. -/
theorem Candidate.accessed_lt_of_key_lt {e f : Candidate} (h : e.key < f.key) :
    e.accessed < f.accessed := by
  obtain ⟨_, eaccess, _⟩ := e
  obtain ⟨_, faccess, _⟩ := f
  cases faccess with
  | none =>
      exfalso
      revert h
      cases eaccess with
      | none => exact lt_irrefl _
      | some t =>
          show ¬ (t.nanos / 1000000000 < -9223372036854775808)
          have := t.inRange
          omega
  | some t =>
      cases eaccess with
      | none => exact WithBot.bot_lt_coe _
      | some u =>
          refine WithBot.coe_lt_coe.mpr ?_
          change u.nanos / 1000000000 < t.nanos / 1000000000 at h
          omega

variable (rfc3339 : String → Option DateTime)

/-- The complete entries with readable metadata. -/
def completeEntries (d : CacheDir) : List Candidate :=
  (candidates rfc3339 d.artifacts).filter fun e => (d.artifacts.get? (artifactName e.stem)).isSome

/-- Neither file of an entry is there. -/
def Gone (d : CacheDir) (e : Candidate) : Prop :=
  d.artifacts.get? (artifactName e.stem) = none ∧ d.artifacts.get? (metaName e.stem) = none

/-- Both files of an entry are there. -/
def Stays (d : CacheDir) (e : Candidate) : Prop :=
  (d.artifacts.get? (artifactName e.stem)).isSome ∧ (d.artifacts.get? (metaName e.stem)).isSome

/-- The cache is within the limit, and for that it lost the entries that were accessed the longest
    ago: in an order of last access the removed ones come first, and without any one of them and
    those after it the limit is not reached. -/
structure PrunedOldestFirst (d after : CacheDir) (limit : Nat) : Prop where
  within : approxSizeBytes after ≤ limit
  oldest : ∃ removed kept : List Candidate,
    (removed ++ kept).Perm (completeEntries rfc3339 d) ∧
    ((removed ++ kept).Pairwise fun e f => e.accessed ≤ f.accessed) ∧
    (∀ e ∈ removed, Gone after e) ∧ (∀ e ∈ kept, Stays after e) ∧
    ∀ pre e mid, removed = pre ++ e :: mid → limit < sizes (e :: mid) + approxSizeBytes after

/-- Every file is older than the grace period. -/
def AllOld (now : Int) (d : CacheDir) : Prop :=
  ∀ f ∈ d.artifacts.entries, olderThanGrace now f.2 = true

/-- The artifacts that satisfy a test, by length. -/
def artifactBytes (dir : Listing) (p : String → Bool) : Nat :=
  ((dir.entries.filter fun f => f.1.ext = some "cwasm" && p f.1.stem).map fun f => f.2.size).sum

/-- Metadata that cannot be read is there. -/
def unreadable (dir : Listing) (stem : String) : Bool :=
  (dir.get? (metaName stem)).any fun file => file.metadata.isNone

/-- Metadata that can be read is there. -/
def readable (dir : Listing) (stem : String) : Bool :=
  (dir.get? (metaName stem)).any fun file => file.metadata.isSome

/-! ## The two ways of counting -/

theorem approxSizeBytes_eq (d : CacheDir) :
    approxSizeBytes d = artifactBytes d.artifacts fun _ => true := by
  rw [approxSizeBytes, artifactBytes]
  refine congrArg (fun l => (List.map _ l).sum) (List.filter_congr ?_)
  intro f _
  rw [Bool.and_true]

/-- A test splits the artifacts. -/
theorem artifactBytes_split (dir : Listing) (p : String → Bool) :
    (artifactBytes dir fun _ => true) = artifactBytes dir p + artifactBytes dir fun stem => !p stem := by
  rw [artifactBytes, artifactBytes, artifactBytes]
  induction dir.entries with
  | nil => rfl
  | cons f fs ih =>
      simp only [List.filter_cons, Bool.and_true] at ih ⊢
      cases decide (f.1.ext = some "cwasm") <;> cases p f.1.stem <;> simp_all <;> omega

variable {rfc3339} {dir : Listing}

theorem mem_candidates {e : Candidate} (h : e ∈ candidates rfc3339 dir) :
    e.size = artifactSize dir e.stem ∧ ∃ file m, dir.get? (metaName e.stem) = some file ∧
      file.metadata = some m ∧ e.access = m.lastAccessTime rfc3339 := by
  obtain ⟨f, hf, hcand⟩ := List.mem_filterMap.mp h
  obtain ⟨hname, hsize, m, hm, hacc⟩ := candidateOf_eq_some hcand
  refine ⟨hsize, f.2, m, ?_, hm, hacc⟩
  rw [← hname]
  exact (AssocMap.get?_eq_some_iff ..).mpr hf

/-- One entry for each name. -/
theorem candidates_stems_nodup : ((candidates rfc3339 dir).map (·.stem)).Nodup := by
  have hnames : ((candidates rfc3339 dir).map fun e => metaName e.stem).Sublist (namesOf dir) := by
    have hmap : (candidates rfc3339 dir).map (fun e => metaName e.stem) =
        (dir.entries.filter fun f => (candidateOf rfc3339 dir f).isSome).map (·.1) := by
      rw [candidates, List.map_filterMap, ← List.filterMap_eq_filter, List.map_filterMap]
      refine List.filterMap_congr ?_
      intro f _
      cases hcand : candidateOf rfc3339 dir f with
      | none => simp [Option.guard, hcand]
      | some e => simp [Option.guard, hcand, (candidateOf_eq_some hcand).1]
    rw [hmap]
    exact (List.filter_sublist).map _
  refine List.Nodup.of_map metaName ?_
  rw [List.map_map]
  exact hnames.nodup (namesOf_nodup dir)

/-- Two entries of one name are the same. -/
theorem candidates_stem_inj {e f : Candidate} (he : e ∈ candidates rfc3339 dir)
    (hf : f ∈ candidates rfc3339 dir) (h : e.stem = f.stem) : e = f :=
  List.inj_on_of_nodup_map candidates_stems_nodup he hf h

/-- The metadata of an entry is in the listing. -/
theorem candidate_of_readable {stem : String} (h : readable dir stem = true) :
    ∃ e ∈ candidates rfc3339 dir, e.stem = stem := by
  obtain ⟨file, hfile, hread⟩ := (Option.any_eq_true _ _).mp h
  obtain ⟨m, hm⟩ := Option.isSome_iff_exists.mp hread
  refine ⟨⟨stem, m.lastAccessTime rfc3339, artifactSize dir stem⟩, ?_, rfl⟩
  refine List.mem_filterMap.mpr ⟨(metaName stem, file), (AssocMap.get?_eq_some_iff ..).mp hfile, ?_⟩
  show (if some "json" = some "json" then _ else none) = _
  rw [if_pos rfl, hm]
  rfl

theorem readable_of_candidate {e : Candidate} (h : e ∈ candidates rfc3339 dir) :
    readable dir e.stem = true := by
  obtain ⟨-, file, m, hfile, hm, -⟩ := mem_candidates h
  rw [readable, hfile, Option.any_some, hm]
  rfl

/-- The names of the artifacts that satisfy a test. -/
theorem artifact_stems_nodup (p : String → Bool) :
    ((dir.entries.filter fun f => f.1.ext = some "cwasm" && p f.1.stem).map (·.1.stem)).Nodup := by
  refine List.Nodup.of_map artifactName ?_
  have hnames : ((dir.entries.filter fun f => f.1.ext = some "cwasm" && p f.1.stem).map (·.1.stem)).map
      artifactName = (dir.entries.filter fun f => f.1.ext = some "cwasm" && p f.1.stem).map (·.1) := by
    rw [List.map_map]
    refine List.map_congr_left ?_
    rintro ⟨⟨stem, ext⟩, file⟩ hf
    have hext : ext = some "cwasm" := by
      simpa using (Bool.and_eq_true_iff.mp (List.mem_filter.mp hf).2).1
    rw [hext]
    rfl
  rw [hnames]
  exact (List.filter_sublist.map _).nodup dir.nodup

/-- **WHAT THE SECOND PHASE COUNTS** is the artifacts behind readable metadata. -/
theorem artifactBytes_readable : artifactBytes dir (readable dir) = sizes (candidates rfc3339 dir) := by
  have hzero : ∀ e ∈ candidates rfc3339 dir, (dir.get? (artifactName e.stem)).isSome = false →
      e.size = 0 := by
    intro e he hnone
    rw [(mem_candidates he).1, artifactSize, Option.isSome_eq_false_iff.mp hnone |>
      Option.isNone_iff_eq_none.mp]
    rfl
  rw [← sizes_filter hzero, artifactBytes, sizes]
  -- both sums run over the names of the complete entries
  have hperm : ((dir.entries.filter fun f => f.1.ext = some "cwasm" && readable dir f.1.stem).map
      (·.1.stem)).Perm (((candidates rfc3339 dir).filter fun e =>
        (dir.get? (artifactName e.stem)).isSome).map (·.stem)) := by
    refine (List.perm_ext_iff_of_nodup (artifact_stems_nodup _)
      ((List.filter_sublist.map _).nodup candidates_stems_nodup)).mpr ?_
    intro stem
    rw [List.mem_map, List.mem_map]
    constructor
    · rintro ⟨⟨⟨stem', ext⟩, file⟩, hf, rfl⟩
      obtain ⟨hf, htest⟩ := List.mem_filter.mp hf
      obtain ⟨hext, hread⟩ := Bool.and_eq_true_iff.mp htest
      have hext' : ext = some "cwasm" := by simpa using hext
      subst hext'
      obtain ⟨e, he, hstem⟩ : ∃ e ∈ candidates rfc3339 dir, e.stem = stem' :=
        candidate_of_readable hread
      refine ⟨e, List.mem_filter.mpr ⟨he, ?_⟩, hstem⟩
      have hfile : dir.get? (artifactName stem') = some file := (AssocMap.get?_eq_some_iff ..).mpr hf
      rw [hstem]
      exact Option.isSome_iff_exists.mpr ⟨file, hfile⟩
    · rintro ⟨e, he, rfl⟩
      obtain ⟨he, hsome⟩ := List.mem_filter.mp he
      obtain ⟨file, hfile⟩ := Option.isSome_iff_exists.mp hsome
      refine ⟨(artifactName e.stem, file), List.mem_filter.mpr ⟨?_, ?_⟩, rfl⟩
      · exact (AssocMap.get?_eq_some_iff ..).mp hfile
      · exact readable_of_candidate he
  have hleft : (dir.entries.filter fun f => f.1.ext = some "cwasm" && readable dir f.1.stem).map
      (fun f => f.2.size) = ((dir.entries.filter fun f => f.1.ext = some "cwasm" &&
        readable dir f.1.stem).map (·.1.stem)).map (artifactSize dir) := by
    rw [List.map_map]
    refine List.map_congr_left ?_
    rintro ⟨⟨stem, ext⟩, file⟩ hf
    obtain ⟨hf, htest⟩ := List.mem_filter.mp hf
    have hext : ext = some "cwasm" := by simpa using (Bool.and_eq_true_iff.mp htest).1
    subst hext
    have hfile : dir.get? (artifactName stem) = some file := (AssocMap.get?_eq_some_iff ..).mpr hf
    show file.size = artifactSize dir stem
    rw [artifactSize, hfile]
    rfl
  have hright : ((candidates rfc3339 dir).filter fun e =>
      (dir.get? (artifactName e.stem)).isSome).map (·.size) = (((candidates rfc3339 dir).filter fun e =>
        (dir.get? (artifactName e.stem)).isSome).map (·.stem)).map (artifactSize dir) := by
    rw [List.map_map]
    refine List.map_congr_left ?_
    intro e he
    exact (mem_candidates (List.mem_of_mem_filter he)).1
  rw [hleft, hright]
  exact (hperm.map _).sum_nat

/-- **THE TWO WAYS OF COUNTING** differ by the artifacts without readable metadata. -/
theorem artifactBytes_eq : (artifactBytes dir fun _ => true) =
    sizes (candidates rfc3339 dir) + artifactBytes dir fun stem => !readable dir stem := by
  rw [artifactBytes_split dir (readable dir), artifactBytes_readable]

/-! ## What a prune leaves -/

/-- The files of some entries. -/
def ofEntries (es : List Candidate) (n : FileName) : Bool :=
  (n.ext = some "cwasm" || n.ext = some "json") && (es.map (·.stem)).contains n.stem

@[simp] theorem ofEntries_artifactName (es : List Candidate) (stem : String) :
    ofEntries es (artifactName stem) = (es.map (·.stem)).contains stem := rfl

@[simp] theorem ofEntries_metaName (es : List Candidate) (stem : String) :
    ofEntries es (metaName stem) = (es.map (·.stem)).contains stem := rfl

theorem ofEntries_cons (e : Candidate) (es : List Candidate) (n : FileName) :
    ofEntries (e :: es) n = (decide (n = artifactName e.stem) || decide (n = metaName e.stem) ||
      ofEntries es n) := by
  obtain ⟨stem, ext⟩ := n
  simp only [ofEntries, artifactName, metaName, List.map_cons, List.contains_cons, FileName.mk.injEq,
    Bool.decide_and]
  by_cases hstem : stem = e.stem
  · simp [hstem]
    grind
  · have hbeq : (stem == e.stem) = false := beq_eq_false_iff_ne.mpr hstem
    simp [hstem, hbeq]

theorem dropEntries_entries (es : List Candidate) : ∀ dir : Listing,
    (dropEntries dir es).entries = dir.entries.filter fun f => !ofEntries es f.1 := by
  induction es with
  | nil =>
      intro dir
      refine (List.filter_eq_self.mpr ?_).symm
      intro f _
      simp [ofEntries]
  | cons e es ih =>
      intro dir
      show (dropEntries ((dir.erase (artifactName e.stem)).erase (metaName e.stem)) es).entries = _
      rw [ih]
      show ((dir.entries.filter fun f => f.1 ≠ artifactName e.stem).filter
        fun f => f.1 ≠ metaName e.stem).filter _ = _
      rw [List.filter_filter, List.filter_filter]
      refine List.filter_congr ?_
      intro f _
      rw [ofEntries_cons]
      simp only [Bool.not_or, decide_not]
      grind

section Real

variable {now : Int} {d : CacheDir}

/-- What the sweep of an old directory leaves are the whole entries and the other files. -/
theorem candidates_of_allOld (hold : AllOld now d) :
    candidates rfc3339 (sweepOrphans now false d).1.artifacts = completeEntries rfc3339 d := by
  rw [candidates_swept (sweepOrphans_entries now d), completeEntries]
  refine List.filter_congr ?_
  intro e he
  obtain ⟨-, file, m, hfile, -, -⟩ := mem_candidates he
  have hyoung : olderThanGrace now file = true := hold _ ((AssocMap.get?_eq_some_iff ..).mp hfile)
  have horphan : isOrphan d.artifacts (metaName e.stem) =
      (d.artifacts.get? (artifactName e.stem)).isNone := rfl
  rw [sweptEntry, hfile, Option.any_some, sweptAway, hyoung, Bool.and_true, horphan,
    Option.not_isNone]

/-- The entries that a prune removes from an old directory. -/
def realTaken (rfc3339 : String → Option DateTime) (d : CacheDir) (limit : Nat) : List Candidate :=
  pruneTaken limit (sizes (sortByKey Candidate.key (completeEntries rfc3339 d)))
    (sortByKey Candidate.key (completeEntries rfc3339 d))

/-- The directory after a prune. -/
theorem prune_artifacts (hold : AllOld now d) (limit : Nat) :
    (pruneToLimit rfc3339 now (some limit) false d).1.artifacts.entries =
      d.artifacts.entries.filter fun f =>
        !sweptAway now d.artifacts f && !ofEntries (realTaken rfc3339 d limit) f.1 := by
  have htotal : sizes (completeEntries rfc3339 d) =
      sizes (sortByKey Candidate.key (completeEntries rfc3339 d)) :=
    (sizes_perm (perm_sortByKey _)).symm
  rw [pruneToLimit, candidates_of_allOld hold, pruneLoop_eq, htotal]
  show (dropEntries _ (realTaken rfc3339 d limit)).entries = _
  rw [dropEntries_entries, sweepOrphans_entries, List.filter_filter]
  refine List.filter_congr ?_
  intro f _
  exact Bool.and_comm ..

theorem prune_get? (hold : AllOld now d) (limit : Nat) (n : FileName) :
    (pruneToLimit rfc3339 now (some limit) false d).1.artifacts.get? n =
      (d.artifacts.get? n).filter fun file =>
        !sweptAway now d.artifacts (n, file) && !ofEntries (realTaken rfc3339 d limit) n :=
  get?_of_entries_filter (prune_artifacts hold limit) n

theorem mem_completeEntries {e : Candidate} (h : e ∈ completeEntries rfc3339 d) :
    e ∈ candidates rfc3339 d.artifacts ∧ ∃ g, d.artifacts.get? (artifactName e.stem) = some g := by
  obtain ⟨he, hsome⟩ := List.mem_filter.mp h
  exact ⟨he, Option.isSome_iff_exists.mp hsome⟩

theorem realTaken_spec (rfc3339 : String → Option DateTime) (d : CacheDir) (limit : Nat) :
    ∃ post, sortByKey Candidate.key (completeEntries rfc3339 d) = realTaken rfc3339 d limit ++ post ∧
      sizes post ≤ limit ∧ ∀ pre e mid, realTaken rfc3339 d limit = pre ++ e :: mid →
        limit < sizes (e :: mid ++ post) :=
  pruneTaken_spec limit _

theorem mem_realTaken {limit : Nat} {e : Candidate} (h : e ∈ realTaken rfc3339 d limit) :
    e ∈ completeEntries rfc3339 d := by
  obtain ⟨post, hsplit, -, -⟩ := realTaken_spec rfc3339 d limit
  have hperm : (sortByKey Candidate.key (completeEntries rfc3339 d)).Perm _ := perm_sortByKey _
  rw [← hperm.mem_iff, hsplit]
  exact List.mem_append_left _ h

/-- Whether a name is one of a removed entry. -/
theorem stem_mem_realTaken {limit : Nat} {e : Candidate} (he : e ∈ completeEntries rfc3339 d) :
    ((realTaken rfc3339 d limit).map (·.stem)).contains e.stem = true ↔ e ∈ realTaken rfc3339 d limit := by
  rw [List.contains_iff_mem]
  constructor
  · intro h
    obtain ⟨f, hf, hstem⟩ := List.mem_map.mp h
    have heq := candidates_stem_inj (mem_completeEntries (mem_realTaken hf)).1 (mem_completeEntries he).1
      hstem
    rw [← heq]
    exact hf
  · exact fun h => List.mem_map_of_mem h

/-- The sweep leaves both files of a complete entry. -/
theorem not_swept_of_complete {stem : String} {f g : File}
    (hmeta : d.artifacts.get? (metaName stem) = some f)
    (hart : d.artifacts.get? (artifactName stem) = some g) (file : File) :
    sweptAway now d.artifacts (metaName stem, file) = false ∧
      sweptAway now d.artifacts (artifactName stem, file) = false := by
  have h1 : isOrphan d.artifacts (metaName stem) = (d.artifacts.get? (artifactName stem)).isNone := rfl
  have h2 : isOrphan d.artifacts (artifactName stem) = (d.artifacts.get? (metaName stem)).isNone := rfl
  constructor
  · rw [sweptAway, h1, hart]
    rfl
  · rw [sweptAway, h2, hmeta]
    rfl

theorem gone_of_taken (hold : AllOld now d) {limit : Nat} {e : Candidate}
    (he : e ∈ realTaken rfc3339 d limit) :
    Gone (pruneToLimit rfc3339 now (some limit) false d).1 e := by
  have hstem := (stem_mem_realTaken (mem_realTaken he)).mpr he
  constructor
  · rw [prune_get? hold, ofEntries_artifactName, hstem]
    simp
  · rw [prune_get? hold, ofEntries_metaName, hstem]
    simp

theorem stays_of_not_taken (hold : AllOld now d) {limit : Nat} {e : Candidate}
    (he : e ∈ completeEntries rfc3339 d) (hnot : e ∉ realTaken rfc3339 d limit) :
    Stays (pruneToLimit rfc3339 now (some limit) false d).1 e := by
  obtain ⟨hcand, g, hart⟩ := mem_completeEntries he
  obtain ⟨-, f, m, hmeta, -, -⟩ := mem_candidates hcand
  have hstem : ((realTaken rfc3339 d limit).map (·.stem)).contains e.stem = false :=
    Bool.eq_false_iff.mpr fun h => hnot ((stem_mem_realTaken he).mp h)
  constructor
  · rw [prune_get? hold, hart, ofEntries_artifactName, hstem, Option.filter_some,
      (not_swept_of_complete hmeta hart g).2]
    rfl
  · rw [prune_get? hold, hmeta, ofEntries_metaName, hstem, Option.filter_some,
      (not_swept_of_complete hmeta hart f).1]
    rfl

/-- The entries that are left. -/
theorem candidates_after (hold : AllOld now d) (limit : Nat) :
    candidates rfc3339 (pruneToLimit rfc3339 now (some limit) false d).1.artifacts =
      (completeEntries rfc3339 d).filter fun e =>
        !((realTaken rfc3339 d limit).map (·.stem)).contains e.stem := by
  rw [candidates_filter (prune_artifacts hold limit), completeEntries, List.filter_filter]
  · refine List.filter_congr ?_
    intro e he
    obtain ⟨-, file, m, hfile, -, -⟩ := mem_candidates he
    have hold' : olderThanGrace now file = true := hold _ ((AssocMap.get?_eq_some_iff ..).mp hfile)
    have horphan : isOrphan d.artifacts (metaName e.stem) =
        (d.artifacts.get? (artifactName e.stem)).isNone := rfl
    rw [keptEntry, hfile, Option.any_some, sweptAway, hold', Bool.and_true, horphan, Option.not_isNone,
      ofEntries_metaName]
    exact Bool.and_comm ..
  · intro stem file hmeta hkeep g
    have horphan : isOrphan d.artifacts (artifactName stem) = false := by
      show (d.artifacts.get? (metaName stem)).isNone = false
      rw [hmeta]
      rfl
    rw [sweptAway, horphan, Bool.false_and, ofEntries_artifactName, ← ofEntries_metaName]
    exact (Bool.and_eq_true_iff.mp hkeep).2

/-- They are those behind the removed ones in the order of the loop. -/
theorem sizes_after (hold : AllOld now d) {limit : Nat} {post : List Candidate}
    (hsplit : sortByKey Candidate.key (completeEntries rfc3339 d) = realTaken rfc3339 d limit ++ post) :
    sizes (candidates rfc3339 (pruneToLimit rfc3339 now (some limit) false d).1.artifacts) =
      sizes post := by
  have hperm : (sortByKey Candidate.key (completeEntries rfc3339 d)).Perm (completeEntries rfc3339 d) :=
    perm_sortByKey _
  have hnodup : (sortByKey Candidate.key (completeEntries rfc3339 d)).Nodup := by
    refine hperm.nodup_iff.mpr (List.Nodup.filter _ ?_)
    exact List.Nodup.of_map _ candidates_stems_nodup
  rw [hsplit] at hperm hnodup
  obtain ⟨-, -, hdisjoint⟩ := List.nodup_append.mp hnodup
  rw [candidates_after hold, ← sizes_perm (hperm.filter _), List.filter_append]
  have hgone : (realTaken rfc3339 d limit).filter (fun e =>
      !((realTaken rfc3339 d limit).map (·.stem)).contains e.stem) = [] := by
    refine List.filter_eq_nil_iff.mpr ?_
    intro e he
    rw [(stem_mem_realTaken (mem_realTaken he)).mpr he]
    exact Bool.false_ne_true
  have hstay : post.filter (fun e =>
      !((realTaken rfc3339 d limit).map (·.stem)).contains e.stem) = post := by
    refine List.filter_eq_self.mpr ?_
    intro e he
    have hmem : e ∈ completeEntries rfc3339 d := hperm.mem_iff.mp (List.mem_append_right _ he)
    have hnot : e ∉ realTaken rfc3339 d limit := fun h => hdisjoint e h e he rfl
    rw [Bool.eq_false_iff.mpr fun h => hnot ((stem_mem_realTaken hmem).mp h)]
    rfl
  rw [hgone, hstay, List.nil_append]

/-- **WHAT A PRUNE NEVER REMOVES** are the artifacts whose metadata is there but cannot be read. -/
theorem unmatched_after (hold : AllOld now d) (limit : Nat) :
    (artifactBytes (pruneToLimit rfc3339 now (some limit) false d).1.artifacts fun stem =>
      !readable (pruneToLimit rfc3339 now (some limit) false d).1.artifacts stem) =
      artifactBytes d.artifacts (unreadable d.artifacts) := by
  rw [artifactBytes, prune_artifacts hold, List.filter_filter, artifactBytes]
  refine congrArg (fun l => (List.map _ l).sum) (List.filter_congr ?_)
  rintro ⟨⟨stem, ext⟩, g⟩ hg
  by_cases hext : ext = some "cwasm"
  · subst hext
    have hart : d.artifacts.get? (artifactName stem) = some g := (AssocMap.get?_eq_some_iff ..).mpr hg
    have hold' : olderThanGrace now g = true := hold _ hg
    have horphan : isOrphan d.artifacts ⟨stem, some "cwasm"⟩ =
        (d.artifacts.get? (metaName stem)).isNone := rfl
    have hof : ofEntries (realTaken rfc3339 d limit) ⟨stem, some "cwasm"⟩ =
        ((realTaken rfc3339 d limit).map (·.stem)).contains stem := rfl
    simp only [readable, prune_get? hold, sweptAway, horphan, hold', hof, unreadable,
      ofEntries_metaName]
    cases hmeta : d.artifacts.get? (metaName stem) with
    | none => simp
    | some f =>
        have hmetaOrphan : isOrphan d.artifacts (metaName stem) = false := by
          show (d.artifacts.get? (artifactName stem)).isNone = false
          rw [hart]
          rfl
        simp only [Option.filter_some, hmetaOrphan, Bool.false_and, Bool.not_false, Bool.true_and,
          Option.isNone_some, decide_true, Option.any_some]
        cases hread : f.metadata with
        | some m => cases ((realTaken rfc3339 d limit).map (·.stem)).contains stem <;> simp [hread]
        | none =>
            -- no entry of the loop has a name with unreadable metadata
            have hnot : ((realTaken rfc3339 d limit).map (·.stem)).contains stem = false := by
              refine Bool.eq_false_iff.mpr ?_
              intro hmem
              obtain ⟨e, he, rfl⟩ := List.mem_map.mp (List.contains_iff_mem.mp hmem)
              obtain ⟨-, file, m, hfile, hm, -⟩ :=
                mem_candidates (mem_completeEntries (mem_realTaken he)).1
              rw [hmeta] at hfile
              cases hfile
              rw [hread] at hm
              cases hm
            rw [hnot]
            simp [hread]
  · simp [hext]

/-- **THE SIZE AFTER A PRUNE**. -/
theorem approxSizeBytes_after (hold : AllOld now d) {limit : Nat} {post : List Candidate}
    (hsplit : sortByKey Candidate.key (completeEntries rfc3339 d) = realTaken rfc3339 d limit ++ post) :
    approxSizeBytes (pruneToLimit rfc3339 now (some limit) false d).1 =
      sizes post + artifactBytes d.artifacts (unreadable d.artifacts) := by
  rw [approxSizeBytes_eq, artifactBytes_eq, sizes_after hold hsplit, unmatched_after hold]

end Real

/-! ## The order of access -/

/-- Two entries that the loop takes in the wrong order do not matter when both are empty. -/
def Settled (e f : Candidate) : Prop := f.accessed < e.accessed → e.size = 0 ∧ f.size = 0

theorem size_le_sizes {e : Candidate} {es : List Candidate} (h : e ∈ es) : e.size ≤ sizes es := by
  obtain ⟨pre, post, rfl⟩ := List.append_of_mem h
  rw [sizes_append, sizes_cons]
  omega

section Loop

variable {limit : Nat} {taken post : List Candidate}
  (hle : sizes post ≤ limit)
  (hneed : ∀ pre e mid, taken = pre ++ e :: mid → limit < sizes (e :: mid ++ post))

include hle in
theorem mem_taken {pre rest : List Candidate} {e : Candidate}
    (hsplit : taken ++ post = pre ++ e :: rest) (h : limit < sizes (e :: rest)) : e ∈ taken := by
  rcases List.append_eq_append_iff.mp hsplit with ⟨x, rfl, rfl⟩ | ⟨x, rfl, hx⟩
  · rw [sizes_append] at hle
    omega
  · cases x with
    | nil =>
        rw [List.nil_append] at hx
        rw [hx] at h
        omega
    | cons y x =>
        obtain ⟨rfl, -⟩ := List.cons.inj hx
        exact List.mem_append_right _ (List.mem_cons_self ..)

include hneed in
theorem mem_post {pre rest : List Candidate} {e : Candidate}
    (hsplit : taken ++ post = pre ++ e :: rest) (h : sizes (e :: rest) ≤ limit) : e ∈ post := by
  rcases List.append_eq_append_iff.mp hsplit with ⟨x, rfl, rfl⟩ | ⟨x, rfl, hx⟩
  · exact List.mem_append_right _ (List.mem_cons_self ..)
  · cases x with
    | nil =>
        rw [List.nil_append] at hx
        rw [← hx]
        exact List.mem_cons_self ..
    | cons y x =>
        obtain ⟨rfl, -⟩ := List.cons.inj hx
        have hover := hneed pre e x rfl
        rw [← hx] at hover
        omega

include hle hneed in
/-- **THE LOOP'S CHOICE IN ORDER OF ACCESS**: what it takes comes first, and is needed. -/
theorem exists_order_of_settled (hset : (taken ++ post).Pairwise Settled) :
    ∃ removed kept : List Candidate, removed.Perm taken ∧ kept.Perm post ∧
      ((removed ++ kept).Pairwise fun e f => e.accessed ≤ f.accessed) ∧
      ∀ pre e mid, removed = pre ++ e :: mid → limit < sizes (e :: mid) + sizes post := by
  have hkept : (sortByKey Candidate.accessed post).Pairwise fun e f => e.accessed ≤ f.accessed :=
    sorted_sortByKey post
  rcases List.eq_nil_or_concat taken with rfl | ⟨front, l, rfl⟩
  · refine ⟨[], sortByKey Candidate.accessed post, List.Perm.refl _, perm_sortByKey _, hkept, ?_⟩
    intro pre e mid h
    exact absurd h (by cases pre <;> exact nofun)
  · -- the last entry that the loop takes is not empty, so nothing before it was accessed later
    rw [List.concat_eq_append] at hneed hset ⊢
    have hlast := hneed front l [] rfl
    rw [List.singleton_append, sizes_cons] at hlast
    obtain ⟨hfront, -, hcross⟩ := List.pairwise_append.mp hset
    have hbefore : ∀ x ∈ front, x.accessed ≤ l.accessed := by
      intro x hx
      refine not_lt.mp ?_
      intro hlt
      have hsize := ((List.pairwise_append.mp hfront).2.2 x hx l (List.mem_singleton_self _) hlt).2
      omega
    have hafter : ∀ y ∈ post, l.accessed ≤ y.accessed := by
      intro y hy
      refine not_lt.mp ?_
      intro hlt
      have hsize := (hcross l (List.mem_append_right _ (List.mem_singleton_self _)) y hy hlt).1
      omega
    refine ⟨sortByKey Candidate.accessed front ++ [l], sortByKey Candidate.accessed post,
      (perm_sortByKey _).append_right _, perm_sortByKey _, ?_, ?_⟩
    · refine List.pairwise_append.mpr ⟨List.pairwise_append.mpr
        ⟨sorted_sortByKey front, List.pairwise_singleton .., ?_⟩, hkept, ?_⟩
      · intro x hx y hy
        rw [List.mem_singleton.mp hy]
        exact hbefore x ((perm_sortByKey _).mem_iff.mp hx)
      · intro x hx y hy
        have hy' : y ∈ post := (perm_sortByKey _).mem_iff.mp hy
        rcases List.mem_append.mp hx with hx | hx
        · exact (hbefore x ((perm_sortByKey _).mem_iff.mp hx)).trans (hafter y hy')
        · rw [List.mem_singleton.mp hx]
          exact hafter y hy'
    · intro pre e mid h
      have hend := congrArg List.getLast? h
      rw [List.getLast?_append, List.getLast?_singleton, Option.some_or, List.getLast?_append,
        List.getLast?_cons, Option.some_or] at hend
      have hmem : l ∈ e :: mid :=
        List.mem_of_getLast? ((List.getLast?_cons ..).trans hend.symm)
      have := size_le_sizes hmem
      omega

end Loop

theorem pairwise_of_splits {R : Candidate → Candidate → Prop} {es : List Candidate}
    (h : ∀ pre e mid f post, es = pre ++ e :: (mid ++ f :: post) → R e f) : es.Pairwise R := by
  induction es with
  | nil => exact List.Pairwise.nil
  | cons e es ih =>
      refine List.pairwise_cons.mpr ⟨?_, ih ?_⟩
      · intro f hf
        obtain ⟨mid, post, rfl⟩ := List.append_of_mem hf
        exact h [] e mid f post rfl
      · intro pre x mid f post hsplit
        refine h (e :: pre) x mid f post ?_
        rw [hsplit]
        rfl

section Limits

variable {now : Int} {d : CacheDir}

/-- An order of access in which the removed entries come first tells which were removed. -/
theorem oldest_split (hold : AllOld now d) {limit : Nat} {removed kept : List Candidate}
    (hperm : (removed ++ kept).Perm (completeEntries rfc3339 d))
    (hgone : ∀ e ∈ removed, Gone (pruneToLimit rfc3339 now (some limit) false d).1 e)
    (hstays : ∀ e ∈ kept, Stays (pruneToLimit rfc3339 now (some limit) false d).1 e) {e : Candidate}
    (he : e ∈ completeEntries rfc3339 d) :
    (e ∈ realTaken rfc3339 d limit → e ∈ removed) ∧ (e ∉ realTaken rfc3339 d limit → e ∈ kept) := by
  have hclash : ∀ x, Gone (pruneToLimit rfc3339 now (some limit) false d).1 x →
      ¬ Stays (pruneToLimit rfc3339 now (some limit) false d).1 x := by
    rintro x ⟨hnone, -⟩ ⟨hsome, -⟩
    rw [hnone] at hsome
    exact nomatch hsome
  have hmem := List.mem_append.mp (hperm.mem_iff.mpr he)
  constructor
  · intro htaken
    exact hmem.resolve_right fun hk => hclash e (gone_of_taken hold htaken) (hstays e hk)
  · intro hnot
    exact hmem.resolve_left fun hr => hclash e (hgone e hr) (stays_of_not_taken hold he hnot)

/-- The order of the loop, in which no entry comes twice. -/
theorem sorted_nodup (rfc3339 : String → Option DateTime) (d : CacheDir) :
    (sortByKey Candidate.key (completeEntries rfc3339 d)).Nodup := by
  refine (perm_sortByKey _).nodup_iff.mpr (List.Nodup.filter _ ?_)
  exact List.Nodup.of_map _ candidates_stems_nodup

/-- At the limit that stops the loop right behind `e`, everything later stays. -/
theorem empty_of_inverted (hold : AllOld now d)
    (h : ∀ limit, PrunedOldestFirst rfc3339 d (pruneToLimit rfc3339 now (some limit) false d).1 limit)
    {pre mid post : List Candidate} {e f : Candidate}
    (hsplit : sortByKey Candidate.key (completeEntries rfc3339 d) = pre ++ e :: (mid ++ f :: post))
    (hlt : f.accessed < e.accessed) : e.size = 0 := by
  by_contra hne
  have hmem : ∀ x ∈ pre ++ e :: (mid ++ f :: post), x ∈ completeEntries rfc3339 d :=
    fun x hx => (perm_sortByKey _).mem_iff.mp (hsplit ▸ hx)
  obtain ⟨removed, kept, hperm, hsorted, hgone, hstays, -⟩ := (h (sizes (mid ++ f :: post))).oldest
  obtain ⟨rest, htaken, hle, hneed⟩ := realTaken_spec rfc3339 d (sizes (mid ++ f :: post))
  have hnodup := sorted_nodup rfc3339 d
  rw [htaken] at hnodup
  have he : e ∈ realTaken rfc3339 d (sizes (mid ++ f :: post)) := by
    refine mem_taken hle (htaken.symm.trans hsplit) ?_
    rw [sizes_cons]
    omega
  have hf : f ∈ rest := by
    have hlater : realTaken rfc3339 d (sizes (mid ++ f :: post)) ++ rest =
        (pre ++ e :: mid) ++ f :: post := by
      rw [← htaken, hsplit, List.append_assoc]
      rfl
    refine mem_post hneed hlater ?_
    rw [sizes_append]
    omega
  have hnot : f ∉ realTaken rfc3339 d (sizes (mid ++ f :: post)) :=
    fun ht => (List.nodup_append.mp hnodup).2.2 f ht f hf rfl
  have he' := (oldest_split hold hperm hgone hstays (hmem e (by simp))).1 he
  have hf' := (oldest_split hold hperm hgone hstays (hmem f (by simp))).2 hnot
  exact absurd ((List.pairwise_append.mp hsorted).2.2 e he' f hf') (not_le.mpr hlt)

/-- At the limit that stops the loop right behind `f`, the entry that goes last in order of access
    is one before `f` that was accessed later. -/
theorem empty_of_inverted_right (hold : AllOld now d)
    (hzero : artifactBytes d.artifacts (unreadable d.artifacts) = 0)
    (h : ∀ limit, PrunedOldestFirst rfc3339 d (pruneToLimit rfc3339 now (some limit) false d).1 limit)
    {pre mid post : List Candidate} {e f : Candidate}
    (hsplit : sortByKey Candidate.key (completeEntries rfc3339 d) = pre ++ e :: (mid ++ f :: post))
    (hlt : f.accessed < e.accessed) : f.size = 0 := by
  by_contra hne
  have hesize := empty_of_inverted hold h hsplit hlt
  have hmem : ∀ x ∈ pre ++ e :: (mid ++ f :: post), x ∈ completeEntries rfc3339 d :=
    fun x hx => (perm_sortByKey _).mem_iff.mp (hsplit ▸ hx)
  obtain ⟨removed, kept, hperm, hsorted, hgone, hstays, hneeded⟩ := (h (sizes post)).oldest
  obtain ⟨rest, htaken, hle, hneed⟩ := realTaken_spec rfc3339 d (sizes post)
  have hnodup := sorted_nodup rfc3339 d
  have hafter := approxSizeBytes_after hold htaken
  rw [hzero, Nat.add_zero] at hafter
  have he : e ∈ realTaken rfc3339 d (sizes post) := by
    refine mem_taken hle (htaken.symm.trans hsplit) ?_
    rw [sizes_cons, sizes_append, sizes_cons]
    omega
  have he' := (oldest_split hold hperm hgone hstays (hmem e (by simp))).1 he
  rcases List.eq_nil_or_concat removed with rfl | ⟨front, x, rfl⟩
  · exact nomatch he'
  · rw [List.concat_eq_append] at hperm hsorted hgone hneeded he'
    have hxsize := hneeded front x [] rfl
    rw [hafter, sizes_cons] at hxsize
    have hxpos : x.size ≠ 0 := by
      change sizes post < x.size + 0 + sizes rest at hxsize
      omega
    have hfx : f.accessed < x.accessed := by
      rcases List.mem_append.mp he' with hfront | hx
      · have hsorted' := (List.pairwise_append.mp hsorted).1
        exact hlt.trans_le
          ((List.pairwise_append.mp hsorted').2.2 e hfront x (List.mem_singleton_self _))
      · rw [← List.mem_singleton.mp hx]
        exact hlt
    have hxmem : x ∈ pre ++ e :: (mid ++ f :: post) := by
      rw [← hsplit]
      exact (perm_sortByKey _).mem_iff.mpr (hperm.mem_iff.mp (by simp))
    have hbefore : ∀ front' back, pre ++ e :: (mid ++ f :: post) = front' ++ x :: (back ++ f :: post) →
        False := fun front' back heq =>
      hxpos (empty_of_inverted hold h (hsplit.trans heq) hfx)
    rcases List.mem_append.mp hxmem with hx | hx
    · obtain ⟨p, q, rfl⟩ := List.append_of_mem hx
      exact hbefore p (q ++ e :: mid) (by simp)
    rcases List.mem_cons.mp hx with rfl | hx
    · exact hxpos hesize
    rcases List.mem_append.mp hx with hx | hx
    · obtain ⟨p, q, rfl⟩ := List.append_of_mem hx
      exact hbefore (pre ++ e :: p) q (by simp)
    rcases List.mem_cons.mp hx with rfl | hx
    · exact lt_irrefl _ hfx
    · -- what comes after `f` stays
      obtain ⟨p, q, rfl⟩ := List.append_of_mem hx
      have hlater : realTaken rfc3339 d (sizes (p ++ x :: q)) ++ rest =
          (pre ++ e :: (mid ++ f :: p)) ++ x :: q := by
        rw [← htaken, hsplit]
        simp
      have hxrest : x ∈ rest := by
        refine mem_post hneed hlater ?_
        rw [sizes_append]
        omega
      rw [htaken] at hnodup
      have hxnot : x ∉ realTaken rfc3339 d (sizes (p ++ x :: q)) :=
        fun ht => (List.nodup_append.mp hnodup).2.2 x ht x hxrest rfl
      have hkept := (oldest_split hold hperm hgone hstays (hmem x (by simp))).2 hxnot
      have hstay := (hstays x hkept).1
      rw [(hgone x (by simp)).1] at hstay
      exact nomatch hstay

/-- **A PRUNE REACHES EVERY LIMIT, OLDEST FIRST**, exactly when no bytes are behind metadata that
    cannot be read and entries of one second are listed in order of access (or are empty). -/
theorem prune_oldest_first_iff (hold : AllOld now d) :
    (∀ limit, PrunedOldestFirst rfc3339 d (pruneToLimit rfc3339 now (some limit) false d).1 limit) ↔
      artifactBytes d.artifacts (unreadable d.artifacts) = 0 ∧
        (completeEntries rfc3339 d).Pairwise fun e f => e.key = f.key → Settled e f := by
  constructor
  · intro h
    have hzero : artifactBytes d.artifacts (unreadable d.artifacts) = 0 := by
      obtain ⟨post, htaken, -, -⟩ := realTaken_spec rfc3339 d 0
      have hwithin := (h 0).within
      rw [approxSizeBytes_after hold htaken] at hwithin
      omega
    refine ⟨hzero, pairwise_of_sortByKey (pairwise_of_splits ?_)⟩
    intro pre e mid f post hsplit hlt
    exact ⟨empty_of_inverted hold h hsplit hlt, empty_of_inverted_right hold hzero h hsplit hlt⟩
  · rintro ⟨hzero, hlisted⟩ limit
    obtain ⟨post, htaken, hle, hneed⟩ := realTaken_spec rfc3339 d limit
    have hafter := approxSizeBytes_after hold htaken
    rw [hzero, Nat.add_zero] at hafter
    have hset : (sortByKey Candidate.key (completeEntries rfc3339 d)).Pairwise Settled := by
      refine (pairwise_sortByKey hlisted).imp ?_
      rintro e f ⟨hkey, hsame⟩ hlt
      rcases hkey.lt_or_eq with hkey | hkey
      · exact absurd (Candidate.accessed_lt_of_key_lt hkey) (lt_asymm hlt)
      · exact hsame hkey hlt
    have hperm : (realTaken rfc3339 d limit ++ post).Perm (completeEntries rfc3339 d) :=
      htaken ▸ perm_sortByKey _
    have hnodup := sorted_nodup rfc3339 d
    rw [htaken] at hset hnodup
    obtain ⟨removed, kept, hremoved, hkept, hsorted, hneeded⟩ := exists_order_of_settled hle hneed hset
    refine ⟨hafter ▸ hle, removed, kept, (hremoved.append hkept).trans hperm, hsorted, ?_, ?_, ?_⟩
    · intro e he
      exact gone_of_taken hold (hremoved.mem_iff.mp he)
    · intro e he
      have hpost := hkept.mem_iff.mp he
      refine stays_of_not_taken hold (hperm.mem_iff.mp (List.mem_append_right _ hpost)) ?_
      exact fun ht => (List.nodup_append.mp hnodup).2.2 e ht e hpost rfl
    · intro pre e mid hsplit
      rw [hafter]
      exact hneeded pre e mid hsplit

end Limits

/-- Three timestamps as they are read. -/
def someTimes (text : String) : Option DateTime :=
  if text = "1970-01-01T00:00:10Z" then some ⟨10000000000, by decide⟩
  else if text = "1970-01-01T00:00:20.1Z" then some ⟨20100000000, by decide⟩
  else if text = "1970-01-01T00:00:20.9Z" then some ⟨20900000000, by decide⟩
  else none

/-- Metadata of an entry that was last accessed at the time. -/
def accessedAt (text : String) : Option ArtifactMetadata :=
  some ⟨1, "p", "w", "t", "c", "f", "d", 2, "", text, 0, none⟩

/-- Four complete entries, two of them last accessed within one second and one without a readable
    time; an artifact and metadata on their own; and an empty artifact with unreadable metadata. -/
def mixedDir : CacheDir where
  artifacts :=
    ⟨[(artifactName "orphan", ⟨7, some 0, none⟩), (metaName "b", ⟨1, some 0, accessedAt "1970-01-01T00:00:20.1Z"⟩),
      (artifactName "c", ⟨5, some 0, none⟩), (metaName "c", ⟨1, some 0, accessedAt "1970-01-01T00:00:20.9Z"⟩),
      (artifactName "b", ⟨3, some 0, none⟩), (metaName "a", ⟨1, some 0, accessedAt "1970-01-01T00:00:10Z"⟩),
      (artifactName "a", ⟨4, some 0, none⟩), (metaName "lone", ⟨1, some 0, accessedAt ""⟩),
      (artifactName "never", ⟨2, some 0, none⟩), (metaName "never", ⟨1, some 0, accessedAt ""⟩),
      (artifactName "torn", ⟨0, some 0, none⟩), (metaName "torn", ⟨1, some 0, none⟩)], by decide⟩
  tmp := ⟨[(⟨"half", some "tmp"⟩, ⟨9, some 0, none⟩)], by decide⟩

/-- Every limit is met, oldest first.  A prune to nine bytes removes what stands alone and the two
    entries that were accessed the longest ago; one to six also the earlier of the two that were
    accessed within one second. -/
theorem prune_oldest_first_mixed :
    (∀ limit, PrunedOldestFirst someTimes mixedDir
        (pruneToLimit someTimes 100000000000 (some limit) false mixedDir).1 limit)
      ∧ approxSizeBytes mixedDir = 21
      ∧ approxSizeBytes (pruneToLimit someTimes 100000000000 (some 9) false mixedDir).1 = 8
      ∧ namesOf (pruneToLimit someTimes 100000000000 (some 9) false mixedDir).1.artifacts =
        [metaName "b", artifactName "c", metaName "c", artifactName "b", artifactName "torn",
          metaName "torn"]
      ∧ namesOf (pruneToLimit someTimes 100000000000 (some 6) false mixedDir).1.artifacts =
        [artifactName "c", metaName "c", artifactName "torn", metaName "torn"] := by
  refine ⟨?_, by decide +kernel, by decide +kernel, by decide +kernel, by decide +kernel⟩
  have hold : AllOld 100000000000 mixedDir := by
    show ∀ f ∈ mixedDir.artifacts.entries, olderThanGrace 100000000000 f.2 = true
    decide +kernel
  refine (prune_oldest_first_iff hold).mpr ⟨by decide +kernel, ?_⟩
  have hpairs : (completeEntries someTimes mixedDir).Pairwise fun e f =>
      e.key = f.key → f.accessed < e.accessed → e.size = 0 ∧ f.size = 0 := by
    decide +kernel
  exact hpairs

/-- One entry, whose metadata is given. -/
def oneEntryDir (metadata : Option ArtifactMetadata) : CacheDir where
  artifacts :=
    ⟨[(artifactName "a", ⟨2, some 0, none⟩), (metaName "a", ⟨1, some 0, metadata⟩)],
      show [artifactName "a", metaName "a"].Nodup by decide⟩
  tmp := .empty

theorem oneEntryDir_allOld (metadata : Option ArtifactMetadata) :
    AllOld 100000000000 (oneEntryDir metadata) := by
  intro f hf
  rcases List.mem_cons.mp hf with rfl | hf
  · rfl
  · rw [List.mem_singleton.mp hf]
    rfl

/-- The artifact of an entry whose metadata cannot be read stays above any limit. -/
theorem unreadable_entry_stays :
    ¬ ∀ rfc3339 now d limit, AllOld now d →
      PrunedOldestFirst rfc3339 d (pruneToLimit rfc3339 now (some limit) false d).1 limit := by
  intro h
  have hwithin := (h (fun _ => none) 100000000000 (oneEntryDir none) 0 (oneEntryDir_allOld _)).within
  revert hwithin
  decide

end Greentic.ArtifactCache
