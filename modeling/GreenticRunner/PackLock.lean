import GreenticRunner.AgentModel

/-! # The component table of a pack lock

    A pack lock lists components by name, some with a component id.  Both file the entry in ONE TABLE,
    filled in a single pass: an id must be new there, a name only among the names, so that the name of an
    entry may take the place of the id of an earlier one.

    * `table_spec`, `accepts_iff` — what the table holds, and which locks are accepted;
    * `OwnEntries` — every entry is found under its own keys, in every order of the lock;
    * `ownEntries_iff` — when: NO ID IS THE NAME OF ANOTHER ENTRY. -/

namespace Greentic.PackLock

/-! ## The lock -/

/-- `ComponentId`: a name that is not empty. -/
structure ComponentId where
  asStr : String
  nonempty : asStr ≠ ""
  deriving DecidableEq

/-- `PackLockComponent`. -/
structure Component where
  name : String
  sourceRef : Option String
  legacyRef : Option String
  componentId : Option ComponentId
  bundled : Option Bool
  bundledPath : Option String
  legacyPath : Option String
  wasmSha256 : Option String
  legacySha256 : Option String
  resolvedDigest : Option String
  digest : Option String
  deriving DecidableEq

/-- `ComponentArtifactLocation`. -/
inductive ArtifactLocation where
  | inline (wasmPath : String)
  | remote
  deriving DecidableEq

/-- `ComponentSourceInfo`, over the parsed references. -/
structure SourceInfo (ρ : Type) where
  digest : Option String
  source : ρ
  artifact : ArtifactLocation
  expectedWasmSha256 : Option String
  skipDigestVerification : Bool

/-- What the pass is given: the parser of references, how they are shown, which of them are tags,
    and whether a bundled component may lack its hash. -/
structure LockContext (ρ : Type) where
  parseRef : String → Option ρ
  display : ρ → String
  isTag : ρ → Bool
  allowMissingHash : Bool

/-! ## One entry -/

/-- `normalize_sha256`. -/
def normalizeSha256 (digest : String) : Except String String :=
  let trimmed := Aw.trim digest.toList
  if trimmed.isEmpty then .error "sha256 digest cannot be empty"
  else if "sha256:".toList.isPrefixOf trimmed then
    if trimmed.length = 7 then .error "sha256 digest must include hex bytes after sha256:"
    else .ok (String.ofList trimmed)
  else if trimmed.all fun c => c.isDigit || ('a' ≤ c && c ≤ 'f') || ('A' ≤ c && c ≤ 'F') then
    .ok ("sha256:" ++ String.ofList trimmed)
  else .error "sha256 digest must be hex or sha256:<hex>"

/-- `normalize_digest`. -/
def normalizeDigest (digest : String) : String :=
  if "sha256:".toList.isPrefixOf digest.toList || "blake3:".toList.isPrefixOf digest.toList then digest
  else "sha256:" ++ digest

/-- A field and its legacy form: the one that is given, and an error where both are and differ. -/
def eitherField (primary legacy : Option String) (conflict : String) : Except String (Option String) :=
  match primary, legacy with
  | some p, some l => if p ≠ l then .error s!"{conflict}: {p} vs {l}" else .ok (some p)
  | some p, none => .ok (some p)
  | none, some l => .ok (some l)
  | none, none => .ok none

section Table

variable {ρ : Type} (x : LockContext ρ)

/-- The source info of an entry. -/
def sourceInfo (e : Component) : Except String (SourceInfo ρ) := do
  let sourceRef ← match ← eitherField e.sourceRef e.legacyRef
      s!"pack.lock component {e.name} has conflicting refs" with
    | some r => pure r
    | none => .error s!"pack.lock component {e.name} missing source_ref"
  let source ← match x.parseRef sourceRef with
    | some source => pure source
    | none => .error s!"invalid component ref `{sourceRef}`"
  let bundledPath ← eitherField e.bundledPath e.legacyPath
    s!"pack.lock component {e.name} has conflicting bundled paths"
  if e.bundled.getD false || bundledPath.isSome then
    let wasmPath ← match bundledPath with
      | some path => pure path
      | none =>
          .error s!"pack.lock component {e.name} marked bundled but bundled_path is missing"
    let expectedRaw ← eitherField e.wasmSha256 e.legacySha256
      s!"pack.lock component {e.name} has conflicting wasm_sha256 values"
    let expected ← match expectedRaw with
      | some value => (normalizeSha256 value).map some
      | none => pure none
    if expected.isNone && !x.allowMissingHash then
      .error s!"pack.lock component {e.name} missing wasm_sha256 for bundled component"
    else
      pure ⟨expected, source, .inline wasmPath, expected, x.allowMissingHash && expectedRaw.isNone⟩
  else if x.isTag source then
    .error s!"component {e.name} uses tag ref {x.display source} but is not bundled; rebuild the pack"
  else
    match e.resolvedDigest.or e.digest with
    | some expected => pure ⟨some (normalizeDigest expected), source, .remote, none, false⟩
    | none =>
        .error s!"pack.lock component {e.name} missing resolved_digest for remote component"

/-! ## The pass -/

/-- The id of an entry, as a key. -/
def Component.idKey (e : Component) : Option String := e.componentId.map (·.asStr)

/-- The name of an entry, where it is filed under it apart from its id. -/
def Component.nameKey (e : Component) : Option String :=
  if e.name ≠ e.idKey.getD "" then some e.name else none

/-- The names and the table so far. -/
structure TableState (ρ : Type) where
  names : List String
  table : String → Option (SourceInfo ρ)

/-- The names and the table at the start. -/
def TableState.empty : TableState ρ := ⟨[], fun _ => none⟩

/-- `insert`. -/
def insert (table : String → Option (SourceInfo ρ)) (key : String) (info : SourceInfo ρ) :
    String → Option (SourceInfo ρ) :=
  Function.update table key (some info)

/-- One round of `component_sources_table_from_pack_lock`. -/
def addEntry (s : TableState ρ) (e : Component) : Except String (TableState ρ) :=
  if e.name ∈ s.names then .error s!"pack.lock contains duplicate component name `{e.name}`"
  else do
    let info ← sourceInfo x e
    let table ← match e.idKey with
      | some key =>
          if (s.table key).isSome then .error s!"pack.lock contains duplicate component id `{key}`"
          else pure (insert s.table key info)
      | none => pure s.table
    let table := match e.nameKey with
      | some key => insert table key info
      | none => table
    return ⟨e.name :: s.names, table⟩

/-- The whole pass. -/
def addEntries (lock : List Component) : Except String (TableState ρ) :=
  lock.foldlM (addEntry x) .empty

/-- `component_sources_table_from_pack_lock`. -/
def componentSourcesTable (lock : List Component) : Except String (String → Option (SourceInfo ρ)) :=
  (addEntries x lock).map (·.table)

end Table

/-! ## The components that are loaded -/

/-- `ComponentSpec`. -/
structure ComponentSpec where
  id : String
  version : String
  legacyPath : Option String
  deriving DecidableEq

/-- The spec that an entry of a lock or of the component sources makes. -/
def specOf (idKey : Option String) (name : String) : ComponentSpec := ⟨idKey.getD name, "0.0.0", none⟩

/-- The loop over the entries: one spec for an id. -/
def distinctSpecs : List String → List ComponentSpec → List ComponentSpec
  | _, [] => []
  | seen, spec :: rest =>
      if seen.contains spec.id then distinctSpecs seen rest
      else spec :: distinctSpecs (spec.id :: seen) rest

/-- A component of a manifest. -/
structure ManifestComponent where
  id : String
  version : String
  fileWasm : String

/-- `component_specs`. -/
def componentSpecs (manifest legacyManifest : Option (List ManifestComponent))
    (componentSources : Option (List (Option ComponentId × String)))
    (packLock : Option (List Component)) : List ComponentSpec :=
  let legacy := (legacyManifest.getD []).map fun c => ⟨c.id, c.version, some c.fileWasm⟩
  match manifest with
  | none => legacy
  | some [] =>
      match packLock with
      | some lock => distinctSpecs [] (lock.map fun e => specOf e.idKey e.name)
      | none =>
          match componentSources with
          | some sources =>
              distinctSpecs [] (sources.map fun e => specOf (e.1.map (·.asStr)) e.2)
          | none => legacy
  | some components => components.map fun c => ⟨c.id, c.version, none⟩

/-- The first entry that makes a spec. -/
def MadeFrom (lock : List Component) (spec : ComponentSpec) (e : Component) : Prop :=
  ∃ pre post, lock = pre ++ e :: post ∧ specOf e.idKey e.name = spec ∧
    ∀ d ∈ pre, (specOf d.idKey d.name).id ≠ spec.id

/-! ## What the table holds -/

/-- The keys that an entry is filed under. -/
def Component.keys (e : Component) : List String := e.idKey.toList ++ e.nameKey.toList

theorem mem_keys {e : Component} {key : String} :
    key ∈ e.keys ↔ e.idKey = some key ∨ e.nameKey = some key := by
  simp [Component.keys, eq_comm]

theorem name_of_nameKey {e : Component} {key : String} (h : e.nameKey = some key) : e.name = key := by
  unfold Component.nameKey at h
  split at h
  · exact Option.some.inj h
  · exact nomatch h

theorem idKey_ne_empty {e : Component} {key : String} (h : e.idKey = some key) : key ≠ "" := by
  obtain ⟨id, -, rfl⟩ := Option.map_eq_some_iff.mp h
  exact id.nonempty

/-- An entry is filed under its name, unless it has no id and its name is empty. -/
theorem name_mem_keys {e : Component} (h : e.name = "" → e.componentId ≠ none) : e.name ∈ e.keys := by
  rw [mem_keys]
  by_cases hkey : e.name = e.idKey.getD ""
  · left
    cases hid : e.idKey with
    | some key => rw [hid] at hkey; rw [hkey]; rfl
    | none =>
        rw [hid] at hkey
        exact absurd (Option.map_eq_none_iff.mp hid) (h hkey)
  · right
    rw [Component.nameKey, if_pos hkey]

section Accepted

variable {ρ : Type} {x : LockContext ρ} {lock : List Component} {s s' : TableState ρ} {e : Component}

/-- **ONE ENTRY** is added when its name and its id are new, and then it has all its keys. -/
theorem addEntry_ok_iff :
    addEntry x s e = .ok s' ↔ e.name ∉ s.names ∧ ∃ info, sourceInfo x e = .ok info ∧
      (∀ key, e.idKey = some key → s.table key = none) ∧
      s' = ⟨e.name :: s.names, fun k => if k ∈ e.keys then some info else s.table k⟩ := by
  unfold addEntry
  by_cases hname : e.name ∈ s.names
  · simp [hname]
  rw [if_neg hname]
  cases hinfo : sourceInfo x e with
  | error err => simp [bind, Except.bind]
  | ok info =>
      have htable (table : String → Option (SourceInfo ρ))
          (h : ∀ k, table k = if e.idKey = some k then some info else s.table k) :
          (match e.nameKey with | some key => insert table key info | none => table) =
            fun k => if k ∈ e.keys then some info else s.table k := by
        funext k
        cases hkey : e.nameKey with
        | none => simp [h, mem_keys, hkey]
        | some key =>
            by_cases hk : k = key
            · simp [insert, hk, mem_keys, hkey]
            · simp [insert, h, mem_keys, hkey, hk, Ne.symm hk]
      cases hid : e.idKey with
      | none =>
          have := htable s.table fun k => by simp [hid]
          simp only [bind, Except.bind, pure, Except.pure, this]
          simp [hname, eq_comm]
      | some key =>
          cases hfree : s.table key with
          | some other => simp [bind, Except.bind, hfree]
          | none =>
              have := htable (insert s.table key info) fun k => by
                by_cases hk : key = k
                · simp [insert, hid, hk]
                · simp [insert, hid, hk, Ne.symm hk]
              simp only [bind, Except.bind, pure, Except.pure, hfree, Option.isSome_none,
                Bool.false_eq_true, ↓reduceIte, this]
              simp [hname, hfree, eq_comm]

theorem addEntries_snoc (lock : List Component) (e : Component) :
    addEntries x (lock ++ [e]) = (addEntries x lock).bind fun s => addEntry x s e := by
  rw [addEntries, List.foldlM_append]
  show Except.bind _ _ = Except.bind _ _
  congr 1
  funext s
  rw [List.foldlM_cons]
  show Except.bind _ _ = _
  cases addEntry x s e <;> rfl

/-- The table of a lock: every entry is filed, and what is filed is an entry's. -/
structure Filed (x : LockContext ρ) (lock : List Component) (s : TableState ρ) : Prop where
  names : ∀ n, n ∈ s.names ↔ ∃ e ∈ lock, e.name = n
  keys : ∀ e ∈ lock, ∀ k ∈ e.keys, (s.table k).isSome
  found : ∀ k v, s.table k = some v → ∃ e ∈ lock, k ∈ e.keys ∧ sourceInfo x e = .ok v

/-- Two entries, the first of which does not keep the second one out. -/
def Before (d e : Component) : Prop := d.name ≠ e.name ∧ ∀ key, e.idKey = some key → key ∉ d.keys

theorem table_spec (h : addEntries x lock = .ok s) :
    Filed x lock s ∧ (∀ e ∈ lock, ∃ info, sourceInfo x e = .ok info) ∧ lock.Pairwise Before := by
  induction lock using List.reverseRecOn generalizing s with
  | nil =>
      cases h
      exact ⟨⟨by simp [TableState.empty], by simp, fun k v hv => nomatch hv⟩, by simp, .nil⟩
  | append_singleton lock e ih =>
      rw [addEntries_snoc] at h
      cases hs : addEntries x lock with
      | error err => rw [hs] at h; exact nomatch h
      | ok s₀ =>
          rw [hs] at h
          obtain ⟨hfiled, hinfos, hpair⟩ := ih hs
          obtain ⟨hname, info, hinfo, hfree, rfl⟩ := addEntry_ok_iff.mp h
          refine ⟨⟨fun n => ?_, fun d hd k hk => ?_, fun k v hv => ?_⟩, fun d hd => ?_, ?_⟩
          · simp only [List.mem_cons, hfiled.names, List.mem_append, List.not_mem_nil, or_false]
            constructor
            · rintro (rfl | ⟨d, hd, rfl⟩)
              · exact ⟨e, Or.inr rfl, rfl⟩
              · exact ⟨d, Or.inl hd, rfl⟩
            · rintro ⟨d, hd | rfl, rfl⟩
              · exact Or.inr ⟨d, hd, rfl⟩
              · exact Or.inl rfl
          · dsimp only
            split
            · rfl
            next hnot =>
              rcases List.mem_append.mp hd with hd | hd
              · exact hfiled.keys d hd k hk
              · rw [List.mem_singleton.mp hd] at hk
                exact absurd hk hnot
          · dsimp only at hv
            split at hv
            next hk =>
              cases hv
              exact ⟨e, by simp, hk, hinfo⟩
            · obtain ⟨d, hd, hk, hdinfo⟩ := hfiled.found k v hv
              exact ⟨d, List.mem_append_left _ hd, hk, hdinfo⟩
          · rcases List.mem_append.mp hd with hd | hd
            · exact hinfos d hd
            · rw [List.mem_singleton.mp hd]
              exact ⟨info, hinfo⟩
          · refine List.pairwise_append.mpr ⟨hpair, List.pairwise_singleton .., fun d hd e' he' => ?_⟩
            rw [List.mem_singleton.mp he']
            refine ⟨fun hsame => hname ((hfiled.names _).mpr ⟨d, hd, hsame⟩), fun key hkey hmem => ?_⟩
            have hsome := hfiled.keys d hd key hmem
            rw [hfree key hkey] at hsome
            exact nomatch hsome

/-- **WHICH LOCKS ARE ACCEPTED**. -/
theorem accepts_iff :
    (∃ s, addEntries x lock = .ok s) ↔
      (∀ e ∈ lock, ∃ info, sourceInfo x e = .ok info) ∧ lock.Pairwise Before := by
  constructor
  · rintro ⟨s, h⟩
    exact (table_spec h).2
  · intro h
    induction lock using List.reverseRecOn with
    | nil => exact ⟨_, rfl⟩
    | append_singleton lock e ih =>
        obtain ⟨hinfos, hpair⟩ := h
        obtain ⟨hold, -, hnew⟩ := List.pairwise_append.mp hpair
        obtain ⟨s, hs⟩ := ih ⟨fun d hd => hinfos d (List.mem_append_left _ hd), hold⟩
        obtain ⟨hfiled, -, -⟩ := table_spec hs
        obtain ⟨info, hinfo⟩ := hinfos e (by simp)
        refine ⟨⟨e.name :: s.names, fun k => if k ∈ e.keys then some info else s.table k⟩, ?_⟩
        rw [addEntries_snoc, hs]
        refine addEntry_ok_iff.mpr ⟨fun hmem => ?_, info, hinfo, fun key hkey => ?_, rfl⟩
        · obtain ⟨d, hd, hsame⟩ := (hfiled.names _).mp hmem
          exact (hnew d hd e (by simp)).1 hsame
        · cases hv : s.table key with
          | none => rfl
          | some v =>
              obtain ⟨d, hd, hk, -⟩ := hfiled.found key v hv
              exact absurd hk ((hnew d hd e (by simp)).2 key hkey)

/-! ## Every entry under its own keys -/

/-- **EVERY ENTRY IS ITS OWN**: it is found under its name and its id, every component is loaded from the
    entry it was made from, and the lock is accepted in every order. -/
structure OwnEntries (x : LockContext ρ) (lock : List Component)
    (table : String → Option (SourceInfo ρ)) : Prop where
  own : ∀ e ∈ lock, ∃ info, sourceInfo x e = .ok info ∧ table e.name = some info ∧
    ∀ key, e.idKey = some key → table key = some info
  loaded : ∀ legacy sources, ∀ spec ∈ componentSpecs (some []) legacy sources (some lock),
    ∃ e info, MadeFrom lock spec e ∧ sourceInfo x e = .ok info ∧ table spec.id = some info
  anyOrder : ∀ lock', lock'.Perm lock → ∃ table', componentSourcesTable x lock' = .ok table'

/-- No id is the name of an entry with another id or with none. -/
def NoCross (lock : List Component) : Prop :=
  ∀ e ∈ lock, ∀ d ∈ lock, ∀ key, e.idKey = some key → d.nameKey ≠ some key

/-- An entry without an id has a name. -/
def Named (lock : List Component) : Prop := ∀ e ∈ lock, e.name = "" → e.componentId ≠ none

theorem table_ok_iff {table : String → Option (SourceInfo ρ)} :
    componentSourcesTable x lock = .ok table ↔ ∃ s, addEntries x lock = .ok s ∧ s.table = table := by
  unfold componentSourcesTable
  cases addEntries x lock with
  | error err => simp [Except.map]
  | ok s => simp [Except.map]

/-- In an accepted lock an entry is determined by its name, and by its id. -/
theorem eq_of_pairwise {d e : Component} (h : lock.Pairwise Before) (hd : d ∈ lock) (he : e ∈ lock)
    (hsame : d.name = e.name ∨ ∃ key, d.idKey = some key ∧ e.idKey = some key) : d = e := by
  have himp : ∀ {d e : Component}, Before d e →
      ¬ (d.name = e.name ∨ ∃ key, d.idKey = some key ∧ e.idKey = some key) := by
    rintro d e ⟨hname, hid⟩ (hsame | ⟨key, hd, he⟩)
    · exact hname hsame
    · exact hid key he (mem_keys.mpr (Or.inl hd))
  refine List.Pairwise.forall_of_forall_of_flip (R := fun d e =>
    (d.name = e.name ∨ ∃ key, d.idKey = some key ∧ e.idKey = some key) → d = e)
    (fun _ _ _ => rfl) (h.imp fun hde hsame => absurd hsame (himp hde)) (h.imp fun hde hsame => ?_)
    hd he hsame
  rcases hsame with hsame | ⟨key, hd, he⟩
  · exact absurd (Or.inl hsame.symm) (himp hde)
  · exact absurd (Or.inr ⟨key, he, hd⟩) (himp hde)

/-- Without crossings only the entry itself is filed under one of its keys. -/
theorem eq_of_mem_keys {d e : Component} {key : String} (h : lock.Pairwise Before) (hcross : NoCross lock)
    (hd : d ∈ lock) (he : e ∈ lock) (hdk : key ∈ d.keys) (hek : key ∈ e.keys) : d = e := by
  rcases mem_keys.mp hdk with hdk | hdk <;> rcases mem_keys.mp hek with hek | hek
  · exact eq_of_pairwise h hd he (Or.inr ⟨key, hdk, hek⟩)
  · exact absurd hek (hcross d hd e he key hdk)
  · exact absurd hdk (hcross e he d hd key hek)
  · exact eq_of_pairwise h hd he (Or.inl ((name_of_nameKey hdk).trans (name_of_nameKey hek).symm))

theorem mem_distinctSpecs {seen : List String} {specs : List ComponentSpec} {spec : ComponentSpec}
    (h : spec ∈ distinctSpecs seen specs) :
    ∃ pre post, specs = pre ++ spec :: post ∧ ∀ d ∈ pre, d.id ≠ spec.id := by
  have hfresh : ∀ {seen specs}, spec ∈ distinctSpecs seen specs →
      spec.id ∉ seen ∧ ∃ pre post, specs = pre ++ spec :: post ∧ ∀ d ∈ pre, d.id ≠ spec.id := by
    intro seen specs h
    induction specs generalizing seen with
    | nil => exact nomatch h
    | cons first rest ih =>
        rw [distinctSpecs] at h
        split at h
        next hseen =>
          obtain ⟨hnew, pre, post, rfl, hpre⟩ := ih h
          refine ⟨hnew, first :: pre, post, rfl, fun d hd => ?_⟩
          rcases List.mem_cons.mp hd with rfl | hd
          · intro hsame
            exact hnew (hsame ▸ List.contains_iff_mem.mp hseen)
          · exact hpre d hd
        next hseen =>
          rcases List.mem_cons.mp h with rfl | h
          · exact ⟨fun hmem => hseen (List.contains_iff_mem.mpr hmem), [], rest, rfl,
              fun d hd => nomatch hd⟩
          · obtain ⟨hnew, pre, post, rfl, hpre⟩ := ih h
            refine ⟨fun hmem => hnew (List.mem_cons_of_mem _ hmem), first :: pre, post, rfl,
              fun d hd => ?_⟩
            rcases List.mem_cons.mp hd with rfl | hd
            · exact fun hsame => hnew (hsame ▸ List.mem_cons_self)
            · exact hpre d hd
  exact (hfresh h).2

/-- Every spec of a lock is made from an entry of it. -/
theorem exists_madeFrom {legacy : Option (List ManifestComponent)}
    {sources : Option (List (Option ComponentId × String))} {spec : ComponentSpec}
    (h : spec ∈ componentSpecs (some []) legacy sources (some lock)) :
    ∃ e ∈ lock, MadeFrom lock spec e := by
  obtain ⟨pre, post, hsplit, hpre⟩ := mem_distinctSpecs h
  obtain ⟨pre', rest, rfl, rfl, hrest⟩ := List.map_eq_append_iff.mp hsplit
  obtain ⟨e, post', rfl, hspec, -⟩ := List.map_eq_cons_iff.mp hrest
  exact ⟨e, by simp, pre', post', rfl, hspec, fun d hd => hpre _ (List.mem_map_of_mem hd)⟩

/-- **WHEN EVERY ENTRY IS ITS OWN**: exactly when no id is the name of another entry, and every entry has
    an id or a name. -/
theorem ownEntries_iff {table : String → Option (SourceInfo ρ)}
    (h : componentSourcesTable x lock = .ok table) :
    OwnEntries x lock table ↔ NoCross lock ∧ Named lock := by
  obtain ⟨s, hs, rfl⟩ := table_ok_iff.mp h
  obtain ⟨hfiled, hinfos, hpair⟩ := table_spec hs
  constructor
  · intro hown
    constructor
    · -- The order in which the name comes first is not accepted.
      intro e he d hd key hid hname
      have hne : e ≠ d := by
        rintro rfl
        unfold Component.nameKey at hname
        rw [hid] at hname
        split at hname
        next hdiff => exact hdiff (Option.some.inj hname)
        · exact nomatch hname
      have hperm : (d :: e :: (lock.erase d).erase e).Perm lock :=
        ((List.perm_cons_erase ((List.mem_erase_of_ne hne).mpr he)).symm.cons d).trans
          (List.perm_cons_erase hd).symm
      obtain ⟨table', htable'⟩ := hown.anyOrder _ hperm
      obtain ⟨s', hs', -⟩ := table_ok_iff.mp htable'
      obtain ⟨-, -, hpair'⟩ := table_spec hs'
      have hbefore := (List.pairwise_cons.mp hpair').1 e List.mem_cons_self
      exact hbefore.2 key hid (mem_keys.mpr (Or.inr hname))
    · intro e he hempty hnone
      obtain ⟨info, -, hfound, -⟩ := hown.own e he
      obtain ⟨d, hd, hk, -⟩ := hfiled.found _ _ hfound
      rw [hempty] at hk
      rcases mem_keys.mp hk with hid | hname
      · exact idKey_ne_empty hid rfl
      · have hde := eq_of_pairwise hpair hd he (Or.inl ((name_of_nameKey hname).trans hempty.symm))
        subst hde
        simp [Component.nameKey, Component.idKey, hnone, hempty] at hname
  · rintro ⟨hcross, hnamed⟩
    have hkey : ∀ e ∈ lock, ∀ key ∈ e.keys, ∃ info, sourceInfo x e = .ok info ∧ s.table key = some info := by
      intro e he key hk
      obtain ⟨info, hinfo⟩ := Option.isSome_iff_exists.mp (hfiled.keys e he key hk)
      obtain ⟨d, hd, hdk, hdinfo⟩ := hfiled.found key info hinfo
      rw [eq_of_mem_keys hpair hcross hd he hdk hk] at hdinfo
      exact ⟨info, hdinfo, hinfo⟩
    have hown : ∀ e ∈ lock, ∃ info, sourceInfo x e = .ok info ∧ s.table e.name = some info ∧
        ∀ key, e.idKey = some key → s.table key = some info := by
      intro e he
      obtain ⟨info, hinfo, hname⟩ := hkey e he _ (name_mem_keys (hnamed e he))
      refine ⟨info, hinfo, hname, fun key hid => ?_⟩
      obtain ⟨info', hinfo', hfound⟩ := hkey e he key (mem_keys.mpr (Or.inl hid))
      rw [hinfo] at hinfo'
      cases hinfo'
      exact hfound
    refine ⟨hown, fun legacy sources spec hspec => ?_, fun lock' hperm => ?_⟩
    · obtain ⟨e, he, hmade⟩ := exists_madeFrom hspec
      obtain ⟨info, hinfo, hname, hid⟩ := hown e he
      refine ⟨e, info, hmade, hinfo, ?_⟩
      obtain ⟨-, -, -, rfl, -⟩ := hmade
      show s.table (e.idKey.getD e.name) = some info
      cases hkey : e.idKey with
      | none => exact hname
      | some key => exact hid key hkey
    · -- Without crossings it does not matter which of two entries comes first.
      have hsymm : lock.Pairwise fun d e => Before d e ∧ Before e d := by
        refine (List.Pairwise.and_mem.mp hpair).imp ?_
        rintro d e ⟨hd, he, hde⟩
        refine ⟨hde, hde.1.symm, fun key hid hk => ?_⟩
        rcases mem_keys.mp hk with hk | hk
        · exact hde.2 key hk (mem_keys.mpr (Or.inl hid))
        · exact hcross d hd e he key hid hk
      have hpair' := hsymm.perm hperm.symm fun hde => ⟨hde.2, hde.1⟩
      obtain ⟨s', hs'⟩ := accepts_iff.mpr
        ⟨fun e he => hinfos e (hperm.subset he), hpair'.imp fun hde => hde.1⟩
      exact ⟨s'.table, table_ok_iff.mpr ⟨s', hs', rfl⟩⟩

end Accepted

/-! ## Two entries -/

/-- References are taken as they are, and none is a tag. -/
def plainContext : LockContext String := ⟨some, id, fun _ => false, false⟩

/-- A remote component. -/
def remote (name : String) (id : Option ComponentId) (digest : String) : Component :=
  ⟨name, some ("oci://" ++ name), none, id, none, none, none, none, none, some digest, none⟩

/-- A bundled component. -/
def bundledAt (name : String) (id : Option ComponentId) (path hash : String) : Component :=
  ⟨name, some ("oci://" ++ name), none, id, some true, some path, none, some hash, none, none, none⟩

/-- Entries with another id than their name, with their name as id, without an id, without a name,
    and a bundled one. -/
def plainLock : List Component :=
  [remote "a" (some ⟨"x", by decide⟩) "sha256:aa", remote "b" (some ⟨"b", by decide⟩) "bb",
    remote "c" none "blake3:cc", remote "" (some ⟨"z", by decide⟩) "sha256:dd",
    bundledAt "e" (some ⟨"y", by decide⟩) "components/e.wasm" "ee"]

/-- Each of five entries is found under its name and its id, and the lock is accepted in any order. -/
theorem ownEntries_plainLock :
    ∃ table, componentSourcesTable plainContext plainLock = .ok table
      ∧ OwnEntries plainContext plainLock table
      ∧ ["a", "x", "b", "c", "", "z", "e", "y", "d"].map (fun key => (table key).map (·.digest)) =
        [some (some "sha256:aa"), some (some "sha256:aa"), some (some "sha256:bb"),
          some (some "blake3:cc"), some (some "sha256:dd"), some (some "sha256:dd"),
          some (some "sha256:ee"), some (some "sha256:ee"), none]
      ∧ (componentSpecs (some []) none none (some plainLock)).map (·.id) = ["x", "b", "c", "z", "y"]
      ∧ (componentSourcesTable plainContext plainLock.reverse).toOption.isSome := by
  refine ⟨_, rfl, (ownEntries_iff rfl).mpr ⟨?_, ?_⟩, by decide +kernel, by decide +kernel,
    by decide +kernel⟩
  · have hkeys : ∀ e ∈ plainLock, ∀ d ∈ plainLock, e.idKey.isSome → e.idKey ≠ d.nameKey := by
      decide +kernel
    intro e he d hd key hid hname
    exact hkeys e he d hd (hid ▸ rfl) (hid.trans hname.symm)
  · show ∀ e ∈ plainLock, e.name = "" → e.componentId ≠ none
    decide +kernel

/-- A component with an id, and one that is named by it. -/
def crossedLock : List Component :=
  [remote "a" (some ⟨"x", by decide⟩) "sha256:aa", remote "x" none "sha256:bb"]

/-- The id of the first is found as the second one, and the other order is refused. -/
theorem crossed_entries :
    ∃ table, componentSourcesTable plainContext crossedLock = .ok table ∧
      (table "x").map (·.digest) = some (some "sha256:bb") ∧
      ¬ OwnEntries plainContext crossedLock table := by
  refine ⟨_, rfl, by decide +kernel, fun h => ?_⟩
  obtain ⟨table', htable'⟩ := h.anyOrder crossedLock.reverse (List.reverse_perm _)
  have hfail : (componentSourcesTable plainContext crossedLock.reverse).toOption.isSome = false := by
    decide +kernel
  rw [htable'] at hfail
  exact nomatch hfail

end Greentic.PackLock
