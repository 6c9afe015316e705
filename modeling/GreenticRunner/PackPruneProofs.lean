import GreenticRunner.PackWatch
import GreenticRunner.Transition

/-! # Archives in use

    A runtime opens its archives again later, so the watcher keeps them: an archive that is
    resolved is used now, and the archives of a runtime that is kept are touched.  `prune_stale`
    removes only what was idle for a long time.

    * `Cache.WF`, `Live` — a cache with distinct directories, an archive used since a time;
    * `Steady` — short outages of the index, and no pack that moves;
    * `archives_survive`, `outage_prunes`. -/

namespace Greentic.Packs

open Transition

variable {κ μ : Type}

/-! ## Live archives -/

/-- The directories of a cache are distinct. -/
def Cache.WF (c : Cache) : Prop := (c.map Slot.dir).Nodup

/-- The archive in `dir` is there and was used at `since` or later. -/
def Live (c : Cache) (since : Nat) (dir : Dir) : Prop :=
  ∃ a, c.archive? dir = some a ∧ since ≤ a.mtime

theorem Live.mono {c : Cache} {since since' : Nat} {dir : Dir} (h : Live c since dir)
    (hle : since' ≤ since) : Live c since' dir := by
  obtain ⟨a, ha, hm⟩ := h
  exact ⟨a, ha, hle.trans hm⟩

namespace Cache

variable {c : Cache} {dir current : Dir} {since now minIdle : Nat}

/-- A slot is found under its directory. -/
theorem WF.slot? (h : WF c) {s : Slot} (hs : s ∈ c) : c.slot? s.dir = some s := by
  induction c with
  | nil => exact nomatch hs
  | cons x rest ih =>
      rw [WF, List.map_cons, List.nodup_cons] at h
      rw [Cache.slot?, List.find?_cons]
      by_cases hx : x.dir = s.dir
      · rw [decide_eq_true hx]
        rcases List.mem_cons.mp hs with rfl | hmem
        · rfl
        · exact absurd (hx ▸ List.mem_map_of_mem hmem) h.1
      · rw [decide_eq_false hx]
        rcases List.mem_cons.mp hs with rfl | hmem
        · exact absurd rfl hx
        · exact ih h.2 hmem

theorem WF.filter (h : WF c) (keep : Slot → Bool) : WF (c.filter keep) :=
  h.sublist (List.filter_sublist.map _)

/-- So does a change of slots that leaves their directories. -/
theorem WF.map (h : WF c) {f : Slot → Slot} (hf : ∀ s, (f s).dir = s.dir) : WF (c.map f) := by
  rw [WF, List.map_map]
  have hcomp : Slot.dir ∘ f = Slot.dir := funext hf
  rw [hcomp]
  exact h

/-- A slot is written over the old one of its directory. -/
theorem WF.put (h : WF c) (slot : Slot) : WF (c.put slot) := by
  rw [WF, Cache.put, List.map_append, List.nodup_append]
  refine ⟨h.filter _, List.pairwise_singleton _ _, ?_⟩
  intro d hd d' hd' heq
  obtain ⟨s, hs, rfl⟩ := List.mem_map.mp hd
  rw [List.map_singleton, List.mem_singleton] at hd'
  exact of_decide_eq_true (List.mem_filter.mp hs).2 (heq.trans hd')

theorem WF.touch (h : WF c) (touched : Dir) (now : Nat) : WF (c.touch touched now) :=
  h.map fun s => by split <;> rfl

theorem WF.pruneStale (h : WF c) (current : Dir) (now minIdle : Nat) :
    WF (c.pruneStale current now minIdle) :=
  WF.filter (h.map fun s => by split <;> rfl) _

/-- And so does a new directory. -/
theorem WF.created (h : WF c) (dir : Dir) (now : Nat) : WF (c.created dir now) := by
  unfold Cache.created
  split
  · exact h
  · exact h.put _

end Cache

section Live

variable {c : Cache} {dir current : Dir} {since now minIdle : Nat}

/-- What is not idle is not pruned. -/
theorem Live.pruneStale (h : Live c since dir) (hwf : c.WF) (hidle : now - since ≤ minIdle) :
    Live (c.pruneStale current now minIdle) since dir := by
  obtain ⟨a, ha, hm⟩ := h
  obtain ⟨s, hs, hsa⟩ := Option.bind_eq_some_iff.mp ha
  have hlive : isIdle s.lastUsed now minIdle = false := by
    rw [isIdle, Slot.lastUsed, hsa]
    refine decide_eq_false ?_
    dsimp only [Option.elim_some]
    omega
  have hkept : dir ∉ c.stale current now minIdle := by
    intro hmem
    obtain ⟨s', hs', rfl, -, -, hidle'⟩ := Cache.mem_stale hmem
    rw [hwf.slot? hs', Option.some.injEq] at hs
    rw [hs, hlive] at hidle'
    exact nomatch hidle'
  refine ⟨a, ?_, hm⟩
  rw [Cache.archive?, Cache.slot?_pruneStale hkept (.inr fun s' hs' => ?_), hs, Option.bind_some, hsa]
  rw [hs, Option.some.injEq] at hs'
  rw [← hs']
  exact hlive

/-- A touch keeps live what was live. -/
theorem Live.touch (h : Live c since dir) (touched : Dir) (hle : since ≤ now) :
    Live (c.touch touched now) since dir := by
  obtain ⟨a, ha, hm⟩ := h
  rw [Live, Cache.archive?_touch]
  split
  · rw [ha]
    exact ⟨_, rfl, hle⟩
  · exact ⟨a, ha, hm⟩

/-- What is touched is live from now on. -/
theorem Live.touched (h : Live c since dir) (now : Nat) : Live (c.touch dir now) now dir := by
  obtain ⟨a, ha, -⟩ := h
  refine ⟨{ a with mtime := now }, ?_, Nat.le_refl _⟩
  rw [Cache.archive?_touch, if_pos rfl, ha]
  rfl

/-- A write keeps live what was live. -/
theorem Live.put (h : Live c since dir) {place : Dir} {bytes : List UInt8} (hle : since ≤ now) :
    Live (c.put ⟨place, some ⟨bytes, true, now⟩, now⟩) since dir := by
  by_cases heq : dir = place
  · subst heq
    exact ⟨_, by rw [Cache.archive?, Cache.slot?_put_self]; rfl, hle⟩
  · obtain ⟨a, ha, hm⟩ := h
    exact ⟨a, by rw [Cache.archive?, Cache.slot?_put_of_ne c heq]; exact ha, hm⟩

/-- A new directory does, too. -/
theorem Live.created (h : Live c since dir) (place : Dir) (now : Nat) :
    Live (c.created place now) since dir := by
  by_cases heq : dir = place
  · subst heq
    obtain ⟨a, ha, hm⟩ := h
    exact ⟨a, (archive?_created c dir now).trans ha, hm⟩
  · unfold Cache.created
    split
    · exact h
    · obtain ⟨a, ha, hm⟩ := h
      exact ⟨a, by rw [Cache.archive?, Cache.slot?_put_of_ne c heq]; exact ha, hm⟩

end Live

/-! ## Resolving -/

/-- From one cache to the next at a time: what is live stays live. -/
structure Keeps (now minIdle : Nat) (c c' : Cache) : Prop where
  wf : c'.WF
  live : ∀ dir since, Live c since dir → since ≤ now → now - since ≤ minIdle → Live c' since dir

section Resolve

variable {m : Manager κ μ} {c : Cache} {out : Outside} {e : PackEntry}

theorem Keeps.refl (hwf : c.WF) (now minIdle : Nat) : Keeps now minIdle c c :=
  ⟨hwf, fun _ _ h _ _ => h⟩

theorem keeps_touch (hwf : c.WF) (dir : Dir) (now minIdle : Nat) :
    Keeps now minIdle c (c.touch dir now) :=
  ⟨hwf.touch _ _, fun _ _ h hle _ => h.touch _ hle⟩

/-- A copy, where it succeeds, is in its place. -/
theorem copyIn_keeps (hwf : c.WF) {dir : Dir} (hne : dir ≠ []) (source : List UInt8) :
    Keeps out.now m.minIdle c (copyIn m c out dir source).2 ∧
      ∀ dir', (copyIn m c out dir source).1 = .ok dir' →
        Live (copyIn m c out dir source).2 out.now dir' := by
  unfold copyIn
  cases out.storeFault with
  | some fault => exact ⟨Keeps.refl hwf _ _, fun _ h => nomatch h⟩
  | none =>
      refine ⟨⟨(hwf.put _).pruneStale _ _ _, ?_⟩, ?_⟩
      · intro d since hlive hle hidle
        exact (hlive.put hle).pruneStale (hwf.put _) hidle
      · rintro _ ⟨⟩
        exact ⟨_, archive?_copied c ⟨dir, _, _⟩ hne _ _, Nat.le_refl _⟩

/-- Storing an archive keeps what was live, and its own directory is live. -/
theorem store_keeps (hwf : c.WF) (source : List UInt8) (digest : PackDigest) :
    Keeps out.now m.minIdle c (store m c out e source digest).2 ∧
      ∀ dir, (store m c out e source digest).1 = .ok dir →
        Live (store m c out e source digest).2 out.now dir := by
  unfold store
  dsimp only
  have hwf' := hwf.created (dirFor m e.reference digest) out.now
  have hcreated : ∀ {c' : Cache},
      Keeps out.now m.minIdle (c.created (dirFor m e.reference digest) out.now) c' →
      Keeps out.now m.minIdle c c' :=
    fun h => ⟨h.wf, fun d since hl => h.live d since (hl.created _ _)⟩
  have hcopy : Keeps out.now m.minIdle c
        (copyIn m (c.created (dirFor m e.reference digest) out.now) out
          (dirFor m e.reference digest) source).2 ∧ _ :=
    (copyIn_keeps (m := m) hwf' (dirFor_length e.reference digest) source).imp hcreated id
  split
  · exact hcopy
  · rename_i a ha
    split
    · exact ⟨hcreated (Keeps.refl hwf' _ _), fun _ h => nomatch h⟩
    · split
      · refine ⟨hcreated (keeps_touch hwf' _ _ _), ?_⟩
        rintro _ ⟨⟩
        exact Live.touched ⟨a, ha, Nat.zero_le _⟩ _
      · exact hcopy

/-- An opened pack is at the directory it was opened from. -/
theorem openResolved_path {locator : Text} {dir : Dir} {bytes : List UInt8} {digest : PackDigest}
    {pack : ResolvedPack μ} (h : openResolved m e locator dir bytes digest = .ok pack) :
    pack.path = dir := by
  unfold openResolved at h
  split at h
  · exact nomatch h
  · cases h
    rfl

/-- Fetching an entry keeps what was live, and the pack it gives is live. -/
theorem fetchEntry_keeps (hwf : c.WF) (locator : Text) :
    Keeps out.now m.minIdle c (fetchEntry m c out e locator).2 ∧
      ∀ pack, (fetchEntry m c out e locator).1 = .ok pack →
        Live (fetchEntry m c out e locator).2 out.now pack.path := by
  have hkept : Keeps out.now m.minIdle c c := Keeps.refl hwf _ _
  unfold fetchEntry
  split
  · exact ⟨hkept, fun _ h => nomatch h⟩
  · rename_i bytes _
    dsimp only
    split
    · exact ⟨hkept, fun _ h => nomatch h⟩
    · split
      · exact ⟨hkept, fun _ h => nomatch h⟩
      · have hst : Keeps out.now m.minIdle c (store m c out e bytes (computeDigest m bytes)).2 ∧
            ∀ dir, (store m c out e bytes (computeDigest m bytes)).1 = .ok dir →
              Live (store m c out e bytes (computeDigest m bytes)).2 out.now dir :=
          store_keeps hwf bytes (computeDigest m bytes)
        split
        · rename_i heq
          rw [heq] at hst
          exact ⟨hst.1, fun _ h => nomatch h⟩
        · rename_i dir c' heq
          rw [heq] at hst
          split
          · refine ⟨hst.1, fun pack hok => ?_⟩
            rw [openResolved_path hok]
            exact hst.2 dir rfl
          · exact ⟨hst.1, fun _ h => nomatch h⟩

/-- RESOLVING an entry keeps every archive that is not idle, and uses its own. -/
theorem resolveEntry_keeps (hwf : c.WF) :
    Keeps out.now m.minIdle c (resolveEntry m c out e).2 ∧
      ∀ pack, (resolveEntry m c out e).1 = .ok pack →
        Live (resolveEntry m c out e).2 out.now pack.path := by
  unfold resolveEntry
  split
  · exact ⟨Keeps.refl hwf _ _, fun _ h => nomatch h⟩
  · split
    · exact ⟨Keeps.refl hwf _ _, fun _ h => nomatch h⟩
    · split
      · rename_i dir bytes hlook
        obtain ⟨p, -, hl⟩ := Option.bind_eq_some_iff.mp hlook
        dsimp only
        split
        · exact ⟨keeps_touch hwf _ _ _, fun _ h => nomatch h⟩
        · refine ⟨keeps_touch hwf _ _ _, fun pack hok => ?_⟩
          rw [openResolved_path hok]
          -- a hit is an archive
          unfold lookup at hl
          dsimp only at hl
          split at hl
          · exact nomatch hl
          · rename_i a ha
            split at hl
            · cases hl
              exact Live.touched ⟨a, ha, Nat.zero_le _⟩ _
            · exact nomatch hl
      · exact fetchEntry_keeps hwf _

end Resolve

/-! ## The watcher with its cache -/

/-- An entry of the index, with what the outside does while it is resolved. -/
structure EntryPass where
  entry : PackEntry
  out : Outside

/-- A tenant of the index, the main pack first, with what its build does. -/
structure RecordPass where
  entries : List EntryPass
  checkedAt : Nat
  built : Except String Nat
  failedAt : Nat

/-- One pass; `keptAt` is when an archive that is kept is touched. -/
structure HostPass where
  trigger : Bool
  index : Option (List (Text × RecordPass))
  nodup : ∀ tenants, index = some tenants → (tenants.map Prod.fst).Nodup
  keptAt : Dir → Nat

/-- The archives that are gone. -/
def removedBetween (c c' : Cache) : List Dir :=
  (c.filter fun s => s.archive.isSome && (c'.archive? s.dir).isNone).map Slot.dir

/-- What resolving leaves: a result, the cache and the archives removed. -/
structure Resolving (α : Type) where
  result : α
  cache : Cache
  removed : List Dir

section Host

variable (m : Manager κ μ)

/-- The packs of a tenant, one after the other. -/
def resolveEntries (c : Cache) : List EntryPass → Resolving (Except String (List (ResolvedPack μ)))
  | [] => ⟨.ok [], c, []⟩
  | e :: es =>
      let (r, c') := resolveEntry m c e.out e.entry
      let removed := removedBetween c c'
      match r with
      | .error x => ⟨.error x, c', removed⟩
      | .ok pack =>
          let rest := resolveEntries c' es
          ⟨rest.result.map (pack :: ·), rest.cache, removed ++ rest.removed⟩

/-- `resolve_tenant`. -/
def tenantPacks : Except String (List (ResolvedPack μ)) → Except String (TenantPacks μ)
  | .error e => .error e
  | .ok [] => .error "no main pack"
  | .ok (main :: overlays) => .ok ⟨main, overlays⟩

/-- `resolve_each_for_index`. -/
def resolveEach (c : Cache) :
    List (Text × RecordPass) → Resolving (List (Text × TenantPass μ))
  | [] => ⟨[], c, []⟩
  | (t, record) :: rest =>
      let r := resolveEntries m c record.entries
      let others := resolveEach r.cache rest
      ⟨(t, ⟨tenantPacks r.result, record.checkedAt, record.built, record.failedAt⟩) :: others.result,
        others.cache, r.removed ++ others.removed⟩

/-- Every tenant is resolved, in order. -/
theorem resolveEach_tenants (c : Cache) (tenants : List (Text × RecordPass)) :
    (resolveEach m c tenants).result.map Prod.fst = tenants.map Prod.fst := by
  induction tenants generalizing c with
  | nil => rfl
  | cons x rest ih =>
      obtain ⟨t, record⟩ := x
      unfold resolveEach
      dsimp only
      rw [List.map_cons, List.map_cons, ih]

/-- The tenants as `reload_once` sees them. -/
def indexPass (c : Cache) (tenants : List (Text × RecordPass)) (h : (tenants.map Prod.fst).Nodup) :
    IndexPass μ :=
  ⟨(resolveEach m c tenants).result, by rw [resolveEach_tenants]; exact h⟩

/-- The cache, the maps of the watcher, when the next pass starts and how many loads of the index
    have failed since the last one that did not. -/
structure Host (μ : Type) where
  cache : Cache
  watch : Watch μ
  clock : Nat
  outage : Nat

/-- The watcher starts, with no runtime of its own yet. -/
def Host.start (cache : Cache) (clock : Nat) : Host μ :=
  ⟨cache, Watch.start fun _ => none, clock, 0⟩

/-- The maps after a manual trigger. -/
def Host.triggered (s : Host μ) (p : HostPass) : Watch μ :=
  if p.trigger then s.watch.cleared else s.watch

/-- `keep_archives_alive`, for all that was kept. -/
def keepAlive (c : Cache) (keptAt : Dir → Nat) (dirs : List Dir) : Cache :=
  dirs.foldl (fun c dir => c.touch dir (keptAt dir)) c

/-- The archives removed in a pass. -/
def removedIn (s : Host μ) (p : HostPass) : List Dir :=
  match p.index with
  | none => []
  | some tenants => (resolveEach m s.cache tenants).removed

/-- One pass of the watcher, `refresh` before the next. -/
def hostPass (refresh : Nat) (s : Host μ) (p : HostPass) : Host μ :=
  match h : p.index with
  | none => ⟨s.cache, s.triggered p, s.clock + refresh, s.outage + 1⟩
  | some tenants =>
      let r := reloadOnce (s.triggered p) (indexPass m s.cache tenants (p.nodup tenants h))
      ⟨keepAlive (resolveEach m s.cache tenants).cache p.keptAt r.kept, r.next, s.clock + refresh, 0⟩

/-- A time of the pass that starts at `clock`. -/
def During (refresh clock t : Nat) : Prop := clock ≤ t ∧ t ≤ clock + refresh

/-- Everything a pass does comes before the next one. -/
def OnTime (refresh : Nat) (s : Host μ) (p : HostPass) : Prop :=
  (∀ tenants, p.index = some tenants → ∀ x ∈ tenants, ∀ e ∈ x.2.entries,
    During refresh s.clock e.out.now) ∧ ∀ dir, During refresh s.clock (p.keptAt dir)

/-- Where a runtime is served and the index loads, the loads that failed before it in a row were so
    few that two more intervals are within the idle threshold; and packs with the digests of the
    runtime of their tenant lie where its packs lie. -/
def Steady (refresh : Nat) (s : Host μ) (p : HostPass) : Prop :=
  ∀ tenants, p.index = some tenants → ∀ t r, s.watch.active t = some r →
    (s.outage + 2) * refresh ≤ m.minIdle ∧
    ∀ x ∈ (resolveEach m s.cache tenants).result, x.1 = t → ∀ packs, x.2.resolved = .ok packs →
      digestsOf packs.packs = digestsOf r.packs → packs.packs.map ResolvedPack.path = r.archives

/-- No archive of a runtime that is served is removed. -/
def Spares (s : Host μ) (p : HostPass) : Prop :=
  ∀ dir ∈ removedIn m s p, ∀ t r, s.watch.active t = some r → dir ∉ r.archives

end Host

/-! ## A pass keeps what is live -/

/-- Between two times: what is live stays live and is not removed. -/
structure Kept {α : Type} (first last minIdle : Nat) (c : Cache) (r : Resolving α) : Prop where
  wf : r.cache.WF
  live : ∀ dir since, Live c since dir → since ≤ first → last - since ≤ minIdle →
    Live r.cache since dir ∧ dir ∉ r.removed

section Passes

variable {m : Manager κ μ} {c : Cache} {first last : Nat}

/-- What is live was not removed. -/
theorem not_removed {c' : Cache} {since : Nat} {dir : Dir} (h : Live c' since dir) :
    dir ∉ removedBetween c c' := by
  intro hmem
  obtain ⟨s, hs, rfl⟩ := List.mem_map.mp hmem
  have htest := (List.mem_filter.mp hs).2
  obtain ⟨a, ha, -⟩ := h
  rw [ha, Bool.and_eq_true] at htest
  exact nomatch htest.2

/-- A mapped result is the image of a result. -/
theorem exceptMap_ok {ε α γ : Type} {f : α → γ} {x : Except ε α} {y : γ} (h : x.map f = .ok y) :
    ∃ a, x = .ok a ∧ f a = y := by
  cases x with
  | error e => exact nomatch h
  | ok a => exact ⟨a, rfl, Except.ok.inj h⟩

/-- Resolving all entries keeps what was live, and every pack is live at the end. -/
theorem resolveEntries_kept (hwf : c.WF) (es : List EntryPass)
    (ht : ∀ e ∈ es, first ≤ e.out.now ∧ e.out.now ≤ last) (hw : last - first ≤ m.minIdle) :
    Kept first last m.minIdle c (resolveEntries m c es) ∧
      ∀ packs, (resolveEntries m c es).result = .ok packs → ∀ pack ∈ packs,
        Live (resolveEntries m c es).cache first pack.path := by
  induction es generalizing c with
  | nil =>
      refine ⟨⟨hwf, fun dir since h _ _ => ⟨h, List.not_mem_nil⟩⟩, ?_⟩
      rintro _ ⟨⟩ pack hp
      exact nomatch hp
  | cons e es ih =>
      obtain ⟨hfirst, hlast⟩ := ht e List.mem_cons_self
      unfold resolveEntries
      cases hr : resolveEntry m c e.out e.entry with
      | mk r c' =>
          have hone : Keeps e.out.now m.minIdle c c' ∧
              ∀ pack, r = .ok pack → Live c' e.out.now pack.path := by
            have hk : Keeps e.out.now m.minIdle c (resolveEntry m c e.out e.entry).2 ∧
                ∀ pack, (resolveEntry m c e.out e.entry).1 = .ok pack →
                  Live (resolveEntry m c e.out e.entry).2 e.out.now pack.path :=
              resolveEntry_keeps hwf
            rw [hr] at hk
            exact hk
          have hstep : ∀ dir since, Live c since dir → since ≤ first → last - since ≤ m.minIdle →
              Live c' since dir := by
            intro dir since hl hs hi
            exact hone.1.live dir since hl (by omega) (by omega)
          dsimp only
          cases r with
          | error x =>
              refine ⟨⟨hone.1.wf, fun dir since hl hs hi => ?_⟩, fun _ h => nomatch h⟩
              exact ⟨hstep dir since hl hs hi, not_removed (hstep dir since hl hs hi)⟩
          | ok pack =>
              obtain ⟨hrest, hpacks⟩ := ih hone.1.wf (fun x hx => ht x (List.mem_cons_of_mem _ hx))
              refine ⟨⟨hrest.wf, ?_⟩, ?_⟩
              · intro dir since hl hs hi
                have hl' := hstep dir since hl hs hi
                obtain ⟨hlive, hnot⟩ := hrest.live dir since hl' hs hi
                refine ⟨hlive, fun hmem => ?_⟩
                rcases List.mem_append.mp hmem with hm | hm
                · exact not_removed hl' hm
                · exact hnot hm
              · intro packs hok p hp
                obtain ⟨rest, hres, rfl⟩ := exceptMap_ok hok
                rcases List.mem_cons.mp hp with rfl | hp
                · exact (hrest.live _ first ((hone.2 p rfl).mono hfirst) (Nat.le_refl _) hw).1
                · exact hpacks rest hres p hp

/-- The packs of a tenant are what was resolved. -/
theorem tenantPacks_ok {r : Except String (List (ResolvedPack μ))} {packs : TenantPacks μ}
    (h : tenantPacks r = .ok packs) : r = .ok packs.packs := by
  unfold tenantPacks at h
  split at h
  · exact nomatch h
  · exact nomatch h
  · cases h
    rfl

/-- Resolving all tenants does the same. -/
theorem resolveEach_kept (hwf : c.WF) (tenants : List (Text × RecordPass))
    (ht : ∀ x ∈ tenants, ∀ e ∈ x.2.entries, first ≤ e.out.now ∧ e.out.now ≤ last)
    (hw : last - first ≤ m.minIdle) :
    Kept first last m.minIdle c (resolveEach m c tenants) ∧
      ∀ x ∈ (resolveEach m c tenants).result, ∀ packs, x.2.resolved = .ok packs →
        ∀ pack ∈ packs.packs, Live (resolveEach m c tenants).cache first pack.path := by
  induction tenants generalizing c with
  | nil => exact ⟨⟨hwf, fun _ _ h _ _ => ⟨h, List.not_mem_nil⟩⟩, fun _ hx => nomatch hx⟩
  | cons x rest ih =>
      obtain ⟨t, record⟩ := x
      obtain ⟨hone, hpacks⟩ := resolveEntries_kept hwf record.entries
        (fun e he => ht _ List.mem_cons_self e he) hw
      obtain ⟨hrest, hothers⟩ := ih hone.wf fun y hy => ht y (List.mem_cons_of_mem _ hy)
      unfold resolveEach
      dsimp only
      refine ⟨⟨hrest.wf, ?_⟩, ?_⟩
      · intro dir since hl hs hi
        obtain ⟨hl', hnot⟩ := hone.live dir since hl hs hi
        obtain ⟨hlive, hnot'⟩ := hrest.live dir since hl' hs hi
        refine ⟨hlive, fun hmem => ?_⟩
        rcases List.mem_append.mp hmem with hm | hm
        · exact hnot hm
        · exact hnot' hm
      · intro y hy packs hok pack hp
        rcases List.mem_cons.mp hy with rfl | hy
        · have hl := hpacks packs.packs (tenantPacks_ok hok) pack hp
          exact (hrest.live _ first hl (Nat.le_refl _) hw).1
        · exact hothers y hy packs hok pack hp

/-- What is kept alive is live, and nothing else is lost. -/
theorem keepAlive_live {keptAt : Dir → Nat} (hk : ∀ dir, first ≤ keptAt dir) (dirs : List Dir)
    {dir : Dir} {since : Nat} (h : Live c since dir) (hs : since ≤ first) :
    Live (keepAlive c keptAt dirs) since dir := by
  induction dirs generalizing c with
  | nil => exact h
  | cons d dirs ih => exact ih (h.touch d (hs.trans (hk d)))

/-- What the watcher touches is live from the pass on. -/
theorem keepAlive_kept {keptAt : Dir → Nat} (hk : ∀ dir, first ≤ keptAt dir) {dirs : List Dir}
    {dir : Dir} (hmem : dir ∈ dirs) {since : Nat} (h : Live c since dir) (hs : since ≤ first) :
    Live (keepAlive c keptAt dirs) first dir := by
  induction dirs generalizing c with
  | nil => exact nomatch hmem
  | cons d dirs ih =>
      by_cases hd : dir = d
      · subst hd
        exact keepAlive_live hk dirs ((h.touched _).mono (hk dir)) (Nat.le_refl _)
      · have hrest : dir ∈ dirs := (List.mem_cons.mp hmem).resolve_left hd
        exact ih hrest (h.touch d (hs.trans (hk d)))

/-- The touches keep the cache well formed. -/
theorem keepAlive_wf {keptAt : Dir → Nat} (hwf : c.WF) (dirs : List Dir) :
    (keepAlive c keptAt dirs).WF := by
  induction dirs generalizing c with
  | nil => exact hwf
  | cons d dirs ih => exact ih (hwf.touch _ _)

/-! ## Where a runtime comes from -/

/-- After its turn a tenant is served by the runtime it had, whose archives are touched; by the
    runtime it had, with the digests that were resolved; or by one built from what was resolved. -/
theorem reloadTenant_runtime {old : TenantState μ} {input : TenantPass μ} {r : Runtime μ}
    (h : (reloadTenant old input).state.runtime = some r) :
    (old.runtime = some r ∧ (reloadTenant old input).kept = r.archives) ∨
    ∃ packs, input.resolved = .ok packs ∧
      ((old.runtime = some r ∧ old.applied = some (digestsOf packs.packs)) ∨
        r.packs = packs.packs) := by
  have hkeep : ∀ {failed failure build}, (keepPrevious old failed failure build).state.runtime = some r →
      old.runtime = some r ∧ (keepPrevious old failed failure build).kept = r.archives := by
    intro failed failure build hr
    refine ⟨hr, ?_⟩
    unfold keepPrevious at hr ⊢
    dsimp only at hr ⊢
    rw [hr]
    rfl
  unfold reloadTenant at h ⊢
  cases hres : input.resolved with
  | error e =>
      rw [hres] at h
      exact .inl (hkeep h)
  | ok packs =>
      rw [hres] at h
      dsimp only at h ⊢
      split at h
      · rename_i htest
        rw [Bool.and_eq_true] at htest
        exact .inr ⟨packs, rfl, .inl ⟨h, of_decide_eq_true htest.2⟩⟩
      · rename_i htest
        rw [if_neg htest]
        split at h
        · rename_i hskip
          rw [if_pos hskip]
          exact .inl (hkeep h)
        · rename_i hskip
          rw [if_neg hskip]
          split at h
          · cases h
            exact .inr ⟨packs, rfl, .inr rfl⟩
          · exact .inl (hkeep h)

/-- The archives kept for a tenant are kept by the pass. -/
theorem visits_kept {s : Watch μ} {t : Text} {input : TenantPass μ}
    (tenants : List (Text × TenantPass μ)) (acc : Reload μ) (hnodup : (tenants.map Prod.fst).Nodup) :
    acc.kept ⊆ (tenants.foldl (Reload.visit s) acc).kept ∧
      ((tenants.find? fun x => decide (x.1 = t)).map Prod.snd = some input →
        (reloadTenant ⟨s.active t, s.applied t, acc.next.failed t⟩ input).kept ⊆
          (tenants.foldl (Reload.visit s) acc).kept) := by
  induction tenants generalizing acc with
  | nil => exact ⟨List.Subset.refl _, fun h => nomatch h⟩
  | cons x rest ih =>
      obtain ⟨u, input'⟩ := x
      rw [List.map_cons, List.nodup_cons] at hnodup
      obtain ⟨hsub, hfound⟩ := ih (Reload.visit s acc (u, input')) hnodup.2
      refine ⟨List.Subset.trans (List.subset_append_left _ _) hsub, fun hfind => ?_⟩
      rw [List.find?_cons] at hfind
      by_cases hu : u = t
      · subst hu
        rw [decide_eq_true rfl] at hfind
        cases hfind
        exact List.Subset.trans (List.subset_append_right _ _) hsub
      · rw [decide_eq_false hu] at hfind
        have hsame : (Reload.visit s acc (u, input')).next.failed t = acc.next.failed t :=
          congrArg TenantState.failed (visit_other (x := (u, input')) acc hu)
        rw [hsame] at hfound
        exact hfound hfind

theorem reloadOnce_kept (s : Watch μ) {index : IndexPass μ} {t : Text} {input : TenantPass μ}
    (h : index.input? t = some input) :
    (reloadTenant (s.tenant t) input).kept ⊆ (reloadOnce s index).kept :=
  (visits_kept index.tenants ⟨⟨fun _ => none, fun _ => none, s.failed, s.log⟩, [], []⟩ index.nodup).2 h

/-- An input of the index is one of its tenants. -/
theorem input?_mem {index : IndexPass μ} {t : Text} {input : TenantPass μ}
    (h : index.input? t = some input) : (t, input) ∈ index.tenants := by
  obtain ⟨x, hx, rfl⟩ := Option.map_eq_some_iff.mp h
  have hmem := List.mem_of_find?_eq_some hx
  have htest := List.find?_some hx
  rw [← of_decide_eq_true htest]
  exact hmem

/-! ## Every pass -/

/-- What holds between two passes. -/
structure HostInv (refresh : Nat) (s : Host μ) : Prop where
  wf : s.cache.WF
  applied : ∀ t, Applied (s.watch.tenant t)
  live : ∀ t r, s.watch.active t = some r → (s.outage + 1) * refresh ≤ s.clock ∧
    ∀ dir ∈ r.archives, Live s.cache (s.clock - (s.outage + 1) * refresh) dir

theorem HostInv.start {cache : Cache} (hwf : cache.WF) (refresh clock : Nat) :
    HostInv refresh (Host.start cache clock : Host μ) :=
  ⟨hwf, fun _ _ h => (nomatch h), fun _ _ h => nomatch h⟩

variable {refresh : Nat} {s : Host μ} {p : HostPass}

/-- A trigger changes neither the packs in use nor those applied. -/
theorem triggered_tenant (s : Host μ) (p : HostPass) (t : Text) :
    (s.triggered p).active t = s.watch.active t ∧ (s.triggered p).applied t = s.watch.applied t := by
  unfold Host.triggered
  split
  · exact ⟨rfl, rfl⟩
  · exact ⟨rfl, rfl⟩

/-- So the packs in use are still the applied ones. -/
theorem HostInv.triggered (h : HostInv refresh s) (p : HostPass) (t : Text) :
    Applied ((s.triggered p).tenant t) := by
  intro ds hds
  obtain ⟨hact, happ⟩ := triggered_tenant s p t
  change (s.triggered p).applied t = some ds at hds
  rw [happ] at hds
  obtain ⟨r, hr, hpacks⟩ := h.applied t ds hds
  refine ⟨r, ?_, hpacks⟩
  show (s.triggered p).active t = some r
  rw [hact]
  exact hr

/-- The index loads: the archives of every runtime were used recently, so they stay. -/
theorem HostInv.kept (hidle : 2 * refresh ≤ m.minIdle) (h : HostInv refresh s)
    (ht : OnTime refresh s p) (hp : Steady m refresh s p) {tenants : List (Text × RecordPass)}
    (hindex : p.index = some tenants) :
    (∀ t r, s.watch.active t = some r → ∀ dir ∈ r.archives,
      Live (resolveEach m s.cache tenants).cache (s.clock - (s.outage + 1) * refresh) dir ∧
        dir ∉ (resolveEach m s.cache tenants).removed) ∧
    (resolveEach m s.cache tenants).cache.WF ∧
    ∀ x ∈ (resolveEach m s.cache tenants).result, ∀ packs, x.2.resolved = .ok packs →
      ∀ pack ∈ packs.packs, Live (resolveEach m s.cache tenants).cache s.clock pack.path := by
  obtain ⟨hkept, hpacks⟩ := resolveEach_kept (m := m) h.wf tenants
    (fun x hx e he => ht.1 tenants hindex x hx e he) (by omega)
  refine ⟨?_, hkept.wf, hpacks⟩
  intro t r hr dir hdir
  obtain ⟨hclock, hlive⟩ := h.live t r hr
  obtain ⟨hout, -⟩ := hp tenants hindex t r hr
  have hsplit : (s.outage + 2) * refresh = (s.outage + 1) * refresh + refresh := Nat.succ_mul _ _
  exact hkept.live dir _ (hlive dir hdir) (by omega) (by omega)

/-- One pass on time keeps the invariant. -/
theorem HostInv.pass (hidle : 2 * refresh ≤ m.minIdle) (h : HostInv refresh s)
    (ht : OnTime refresh s p) (hp : Steady m refresh s p) :
    HostInv refresh (hostPass m refresh s p) := by
  unfold hostPass
  split
  · refine ⟨h.wf, h.triggered p, ?_⟩
    intro t r hr
    dsimp only at hr ⊢
    rw [(triggered_tenant s p t).1] at hr
    obtain ⟨hclock, hlive⟩ := h.live t r hr
    have hsplit : (s.outage + 1 + 1) * refresh = (s.outage + 1) * refresh + refresh := Nat.succ_mul _ _
    refine ⟨by omega, fun dir hdir => ?_⟩
    have hsince : s.clock + refresh - (s.outage + 1 + 1) * refresh =
        s.clock - (s.outage + 1) * refresh := by omega
    rw [hsince]
    exact hlive dir hdir
  · rename_i tenants hindex
    obtain ⟨hold, hwf, hpacks⟩ := h.kept hidle ht hp hindex
    have hkeptAt : ∀ dir, s.clock ≤ p.keptAt dir := fun dir => (ht.2 dir).1
    refine ⟨keepAlive_wf hwf _, ?_, ?_⟩
    · intro t
      dsimp only
      rw [reloadOnce_tenant]
      cases hin : (indexPass m s.cache tenants (p.nodup tenants hindex)).input? t with
      | none => exact fun _ hds => nomatch hds
      | some input => exact (h.triggered p t).reloadTenant input
    · intro t r hr
      dsimp only at hr ⊢
      have htenant := reloadOnce_tenant (s.triggered p)
        (indexPass m s.cache tenants (p.nodup tenants hindex)) t
      refine ⟨by omega, fun dir hdir => ?_⟩
      rw [show s.clock + refresh - (0 + 1) * refresh = s.clock by omega]
      cases hin : (indexPass m s.cache tenants (p.nodup tenants hindex)).input? t with
      | none =>
          rw [hin] at htenant
          have hnone := congrArg TenantState.runtime htenant
          change (reloadOnce (s.triggered p) _).next.active t = none at hnone
          rw [hr] at hnone
          exact nomatch hnone
      | some input =>
          rw [hin] at htenant
          have hsome : (reloadTenant ((s.triggered p).tenant t) input).state.runtime = some r :=
            (congrArg TenantState.runtime htenant).symm.trans hr
          have hmem := input?_mem hin
          obtain ⟨hact, happ⟩ := triggered_tenant s p t
          rcases reloadTenant_runtime hsome with ⟨hprev, hkept⟩ | ⟨packs, hok, hfrom⟩
          · -- kept after a failure: its archives are touched
            have hr0 : s.watch.active t = some r := hact.symm.trans hprev
            have hsub := reloadOnce_kept (s.triggered p) hin
            rw [hkept] at hsub
            exact keepAlive_kept hkeptAt (hsub hdir) (hold t r hr0 dir hdir).1 (by omega)
          · rcases hfrom with ⟨hprev, hdigests⟩ | hbuilt
            · -- unchanged: what was resolved lies where its packs lie
              have hr0 : s.watch.active t = some r := hact.symm.trans hprev
              obtain ⟨r', hr', hds⟩ := h.triggered p t _ hdigests
              have hrr : r' = r := Option.some.inj (hr'.symm.trans hprev)
              subst hrr
              obtain ⟨-, hplace⟩ := hp tenants hindex t r' hr0
              have hpaths := hplace _ hmem rfl packs hok hds.symm
              rw [← hpaths] at hdir
              obtain ⟨pack, hpack, rfl⟩ := List.mem_map.mp hdir
              exact keepAlive_live hkeptAt _ (hpacks _ hmem packs hok pack hpack) (Nat.le_refl _)
            · unfold Runtime.archives at hdir
              rw [hbuilt] at hdir
              obtain ⟨pack, hpack, rfl⟩ := List.mem_map.mp hdir
              exact keepAlive_live hkeptAt _ (hpacks _ hmem packs hok pack hpack) (Nat.le_refl _)

/-- ARCHIVES IN USE SURVIVE PRUNING: in every run of passes one refresh interval apart, with any
    tenants and any results of the index, the resolves and the builds, whose passes are all steady,
    no pass removes an archive of a runtime that is served. -/
theorem archives_survive {cache : Cache} {clock : Nat} (hwf : cache.WF)
    (hidle : m.minIdle = pruneMinIdle (some refresh))
    (h : Reach (fun s p => some (hostPass m refresh s p))
      (fun s p => OnTime refresh s p ∧ Steady m refresh s p) (Host.start cache clock) s)
    (ht : OnTime refresh s p) (hp : Steady m refresh s p) : Spares m s p := by
  have htwo : 2 * refresh ≤ m.minIdle := by
    rw [hidle, pruneMinIdle, Nat.mul_comm]
    exact le_max_right _ _
  have hinv : HostInv refresh s := h.inv (HostInv.start hwf refresh clock) fun _ _ _ hi hc hs => by
    cases hs
    exact hi.pass htwo hc.1 hc.2
  intro dir hdir t r hr hmem
  unfold removedIn at hdir
  split at hdir
  · exact nomatch hdir
  · rename_i tenants hindex
    exact ((hinv.kept htwo ht hp hindex).1 t r hr dir hmem).2 hdir

end Passes

/-! ## An outage of the index -/

/-- SHA-256, on four archives. -/
def sampleSha256 : List UInt8 → Vector UInt8 32
  | [1] => #v[0x4b, 0xf5, 0x12, 0x2f, 0x34, 0x45, 0x54, 0xc5, 0x3b, 0xde, 0x2e, 0xbb, 0x8c, 0xd2, 0xb7, 0xe3,
        0xd1, 0x60, 0x0a, 0xd6, 0x31, 0xc3, 0x85, 0xa5, 0xd7, 0xcc, 0xe2, 0x3c, 0x77, 0x85, 0x45, 0x9a]
  | [2] => #v[0xdb, 0xc1, 0xb4, 0xc9, 0x00, 0xff, 0xe4, 0x8d, 0x57, 0x5b, 0x5d, 0xa5, 0xc6, 0x38, 0x04, 0x01,
        0x25, 0xf6, 0x5d, 0xb0, 0xfe, 0x3e, 0x24, 0x49, 0x4b, 0x76, 0xea, 0x98, 0x64, 0x57, 0xd9, 0x86]
  | [3] => #v[0x08, 0x4f, 0xed, 0x08, 0xb9, 0x78, 0xaf, 0x4d, 0x7d, 0x19, 0x6a, 0x74, 0x46, 0xa8, 0x6b, 0x58,
        0x00, 0x9e, 0x63, 0x6b, 0x61, 0x1d, 0xb1, 0x62, 0x11, 0xb6, 0x5a, 0x9a, 0xad, 0xff, 0x29, 0xc5]
  | [4] => #v[0xe5, 0x2d, 0x9c, 0x50, 0x8c, 0x50, 0x23, 0x47, 0x34, 0x4d, 0x8c, 0x07, 0xad, 0x91, 0xcb, 0xd6,
        0x06, 0x8a, 0xfc, 0x75, 0xff, 0x62, 0x92, 0xf0, 0x62, 0xa0, 0x9c, 0xa3, 0x81, 0xc8, 0x9e, 0x71]
  | _ => Vector.replicate 32 0

/-- One hour, in nanoseconds. -/
def hour : Nat := 60 * 60 * 10 ^ 9

/-- A manager without keys, for a refresh every hour. -/
def hourly : Manager Unit Unit where
  sha256 := sampleSha256
  keys := []
  verify := fun _ _ _ => none
  openPack := fun _ => .ok ()
  policy := ⟨false, false⟩
  source := .fs
  minIdle := pruneMinIdle (some hour)

/-- A tenant that publishes `demo` 1.0.0 with the bytes `[b]`, and builds. -/
def publishes (clock : Nat) (b : UInt8) : RecordPass where
  entries := [⟨⟨⟨"demo".toList, .semver "1.0.0".toList⟩, "demo".toList, none, none⟩,
    ⟨fun _ => .ok [b], clock, none⟩⟩]
  checkedAt := clock
  built := .ok b.toNat
  failedAt := clock

/-- A pass at `clock`. -/
def passAt (clock : Nat) (index : Option (List (Text × RecordPass)))
    (nodup : ∀ tenants, index = some tenants → (tenants.map Prod.fst).Nodup) : HostPass where
  trigger := false
  index := index
  nodup := nodup
  keptAt := fun _ => clock

/-- Three tenants publish. -/
def publishThree : HostPass :=
  passAt 0 (some [(['a'], publishes 0 1), (['b'], publishes 0 2), (['c'], publishes 0 3)])
    (by rintro _ ⟨⟩; decide)

/-- The index does not load. -/
def noIndex (clock : Nat) : HostPass := passAt clock none (fun _ h => nomatch h)

/-- The first tenant publishes something else. -/
def republish (clock : Nat) : HostPass :=
  passAt clock (some [(['a'], publishes clock 4)]) (by rintro _ ⟨⟩; exact List.pairwise_singleton _ _)

/-- After two failed loads. -/
def afterOutage : Host Unit :=
  [publishThree, noIndex hour, noIndex (2 * hour)].foldl (hostPass hourly hour) (Host.start [] 0)

/-- The first pass is on time. -/
theorem onTime_publishThree (s : Host Unit) (hs : s.clock = 0) : OnTime hour s publishThree := by
  refine ⟨?_, fun _ => ⟨hs ▸ Nat.le_refl _, Nat.zero_le _⟩⟩
  rintro _ ⟨⟩ x hx e he
  have hnow : e.out.now = 0 := by
    simp only [List.mem_cons, List.not_mem_nil, or_false] at hx
    rcases hx with rfl | rfl | rfl
    all_goals rw [List.mem_singleton.mp he]
  rw [During, hnow, hs]
  exact ⟨Nat.le_refl _, Nat.zero_le _⟩

theorem onTime_noIndex (s : Host Unit) : OnTime hour s (noIndex s.clock) :=
  ⟨fun _ h => (nomatch h), fun _ => ⟨Nat.le_refl _, Nat.le_add_right _ _⟩⟩

/-- And so is the one after it. -/
theorem onTime_republish (s : Host Unit) : OnTime hour s (republish s.clock) := by
  refine ⟨?_, fun _ => ⟨Nat.le_refl _, Nat.le_add_right _ _⟩⟩
  rintro _ ⟨⟩ x hx e he
  rw [List.mem_singleton.mp hx] at he
  rw [List.mem_singleton.mp he]
  exact ⟨Nat.le_refl _, Nat.le_add_right _ _⟩

/-- After two hours without an index, the first publish removes the archive of a tenant that is
    served. -/
theorem outage_prunes : ∃ s p, Reach (fun s p => some (hostPass hourly hour s p))
    (fun s p => OnTime hour s p) (Host.start [] 0) s ∧ OnTime hour s p ∧ ¬ Spares hourly s p := by
  refine ⟨afterOutage, republish afterOutage.clock, ?_, onTime_republish _, ?_⟩
  · have hone : Reach (fun s p => some (hostPass hourly hour s p)) (fun s p => OnTime hour s p)
        (Host.start [] 0) (hostPass hourly hour (Host.start [] 0) publishThree) :=
      .next .start rfl (onTime_publishThree _ rfl)
    exact .next (.next hone rfl (onTime_noIndex _)) rfl (onTime_noIndex _)
  · intro hspares
    have hlost : (removedIn hourly afterOutage (republish afterOutage.clock)).any (fun dir =>
        (afterOutage.watch.active ['c']).any fun r => decide (dir ∈ r.archives)) = true := by
      decide +kernel
    obtain ⟨dir, hdir, huse⟩ := List.any_eq_true.mp hlost
    obtain ⟨r, hr, hmem⟩ := (Option.any_eq_true _ _).mp huse
    exact hspares dir hdir ['c'] r hr (of_decide_eq_true hmem)

/-- The next pass, an hour later, publishes without harm. -/
theorem archives_survive_republish :
    Spares hourly (hostPass hourly hour (Host.start [] 0) publishThree) (republish hour) := by
  have hfirst : Steady hourly hour (Host.start [] 0) publishThree := fun _ _ _ _ h => nomatch h
  have hreach : Reach (fun s p => some (hostPass hourly hour s p))
      (fun s p => OnTime hour s p ∧ Steady hourly hour s p) (Host.start [] 0)
      (hostPass hourly hour (Host.start [] 0) publishThree) :=
    .next .start rfl ⟨onTime_publishThree _ rfl, hfirst⟩
  have hwf : Cache.WF [] := List.nodup_nil
  refine archives_survive hwf rfl hreach (onTime_republish _) ?_
  rintro _ ⟨⟩ t r hr
  refine ⟨by decide, ?_⟩
  intro x hx hxt packs hok hds
  have hresolved : ((resolveEach hourly (hostPass hourly hour (Host.start [] 0) publishThree).cache
      [(['a'], publishes hour 4)]).result.map fun x => (x.1, x.2.resolved.toOption.map fun p =>
        digestsOf p.packs)) = [(['a'], some [(computeDigest hourly [4]).raw])] := by
    decide +kernel
  have hpair := List.mem_map_of_mem (f := fun x : Text × TenantPass Unit =>
    (x.1, x.2.resolved.toOption.map fun p => digestsOf p.packs)) hx
  rw [hresolved, List.mem_singleton, hok, hxt] at hpair
  obtain ⟨ht, hnew⟩ := Prod.mk.inj hpair
  subst ht
  have hactive : ((hostPass hourly hour (Host.start [] 0) publishThree).watch.active ['a']).map
      (fun r => digestsOf r.packs) = some [(computeDigest hourly [1]).raw] := by
    decide +kernel
  rw [hr, Option.map_some, ← hds] at hactive
  have hsame : some [(computeDigest hourly [4]).raw] = some [(computeDigest hourly [1]).raw] :=
    hnew.symm.trans hactive
  exact absurd hsame (by decide +kernel)

end Greentic.Packs
