import GreenticRunner.PackResolve

/-! # The pack watcher

    `watcher.rs`: each pass resolves the packs of every tenant of the index and rebuilds the
    runtimes of the tenants whose packs have changed.  A tenant that does not resolve or build
    keeps its runtime; a build that failed is retried with a growing delay.

    * `reloadOnce`, `Watch.pass`, `Watch.run` — passes over the three maps;
    * `streak`, `WatchInv` — what the failures are and what was allowed;
    * `reload_isolated`, `otherList_retried`. -/

namespace Greentic.Packs

variable {μ : Type}

/-! ## Failed rebuilds -/

/-- `REBUILD_RETRY_BASE`, in nanoseconds. -/
def rebuildRetryBase : Nat := 60 * 10 ^ 9

/-- `REBUILD_RETRY_CAP`. -/
def rebuildRetryCap : Nat := 15 * 60 * 10 ^ 9

/-- `FailedRebuild`. -/
structure FailedRebuild where
  digests : List Text
  lastAttempt : Nat
  attempts : Nat

/-- `delay_for`. -/
def delayFor (attempts : Nat) : Nat :=
  let delay := rebuildRetryBase * 2 ^ min (attempts - 1) 31
  -- a `Duration` has 64 bits of seconds
  if delay < 2 ^ 64 * 10 ^ 9 then min delay rebuildRetryCap else rebuildRetryCap

/-- `should_skip`, on the entry of the tenant. -/
def shouldSkip (known : Option FailedRebuild) (digests : List Text) (now : Nat) : Bool :=
  known.any fun known =>
    decide (known.digests = digests) && decide (now - known.lastAttempt < delayFor known.attempts)

/-- `record_failure`. -/
def recordFailure (known : Option FailedRebuild) (digests : List Text) (now : Nat) : FailedRebuild where
  digests := digests
  lastAttempt := now
  attempts :=
    match known with
    | some known => if known.digests = digests then min (known.attempts + 1) (2 ^ 32 - 1) else 1
    | none => 1

/-! ## One tenant -/

/-- `TenantPacks`, the main pack first. -/
structure TenantPacks (μ : Type) where
  main : ResolvedPack μ
  overlays : List (ResolvedPack μ)

/-- The packs of a tenant. -/
def TenantPacks.packs (t : TenantPacks μ) : List (ResolvedPack μ) := t.main :: t.overlays

/-- The digests of packs. -/
def digestsOf (packs : List (ResolvedPack μ)) : List Text := packs.map fun p => p.digest.raw

/-- A `TenantRuntime`: which one it is, and the packs it was built from. -/
structure Runtime (μ : Type) where
  handle : Nat
  packs : List (ResolvedPack μ)

/-- The archives that a runtime opens again. -/
def Runtime.archives (r : Runtime μ) : List Dir := r.packs.map ResolvedPack.path

/-- What one pass has for one tenant: its resolve result, the time of the backoff check, the result
    of the build and the time of its failure. -/
structure TenantPass (μ : Type) where
  resolved : Except String (TenantPacks μ)
  checkedAt : Nat
  built : Except String Nat
  failedAt : Nat

/-- The entries of one tenant in the three maps. -/
structure TenantState (μ : Type) where
  runtime : Option (Runtime μ)
  applied : Option (List Text)
  failed : Option FailedRebuild

/-- A build: its digests, when it was let through, and when it failed. -/
structure Build where
  digests : List Text
  checkedAt : Nat
  failedAt : Option Nat

/-- What a tenant leaves of a pass. -/
structure TenantResult (μ : Type) where
  state : TenantState μ
  failure : Option String
  kept : List Dir
  build : Option Build

/-- The branches that keep the previous runtime and its archives. -/
def keepPrevious (old : TenantState μ) (failed : Option FailedRebuild) (failure : String)
    (build : Option Build) : TenantResult μ where
  state := ⟨old.runtime, old.runtime.bind fun _ => old.applied, failed⟩
  failure := some failure
  kept := old.runtime.elim [] Runtime.archives
  build := build

/-- The body of the loop of `reload_once`. -/
def reloadTenant (old : TenantState μ) (input : TenantPass μ) : TenantResult μ :=
  match input.resolved with
  | .error e => keepPrevious old old.failed e none
  | .ok record =>
      let digests := digestsOf record.packs
      if old.runtime.isSome && decide (old.applied = some digests) then
        ⟨⟨old.runtime, some digests, old.failed⟩, none, [], none⟩
      else if shouldSkip old.failed digests input.checkedAt then
        keepPrevious old old.failed "rebuild previously failed for these pack digests" none
      else
        match input.built with
        | .ok handle =>
            ⟨⟨some ⟨handle, record.packs⟩, some digests, none⟩, none, [],
              some ⟨digests, input.checkedAt, none⟩⟩
        | .error e =>
            keepPrevious old (some (recordFailure old.failed digests input.failedAt)) e
              (some ⟨digests, input.checkedAt, some input.failedAt⟩)

/-! ## Passes -/

/-- What happened to the failures: a manual trigger, or a build of a tenant. -/
inductive WatchEvent where
  | trigger
  | build (tenant : Text) (b : Build)

/-- The three maps, with the events so far. -/
structure Watch (μ : Type) where
  active : Text → Option (Runtime μ)
  applied : Text → Option (List Text)
  failed : Text → Option FailedRebuild
  log : List WatchEvent

/-- The watcher when it starts, with the runtimes that are there already. -/
def Watch.start (active : Text → Option (Runtime μ)) : Watch μ :=
  ⟨active, fun _ => none, fun _ => none, []⟩

/-- The entries of a tenant. -/
def Watch.tenant (s : Watch μ) (t : Text) : TenantState μ := ⟨s.active t, s.applied t, s.failed t⟩

/-- The tenants of a loaded index, each once. -/
structure IndexPass (μ : Type) where
  tenants : List (Text × TenantPass μ)
  nodup : (tenants.map Prod.fst).Nodup

/-- One pass: after a manual trigger or not; `none` if the index does not load. -/
structure Pass (μ : Type) where
  trigger : Bool
  index : Option (IndexPass μ)

/-- The maps that a pass builds up. -/
structure Reload (μ : Type) where
  next : Watch μ
  failures : List String
  kept : List Dir

/-- One turn of the loop over the tenants, from the maps of the last pass. -/
def Reload.visit (s : Watch μ) (acc : Reload μ) (input : Text × TenantPass μ) : Reload μ :=
  let (t, input) := input
  let r := reloadTenant ⟨s.active t, s.applied t, acc.next.failed t⟩ input
  { next :=
      { active := Function.update acc.next.active t r.state.runtime
        applied := Function.update acc.next.applied t r.state.applied
        failed := Function.update acc.next.failed t r.state.failed
        log := acc.next.log ++ r.build.toList.map (.build t) }
    failures := acc.failures ++ r.failure.toList.map (String.ofList t ++ ": " ++ ·)
    kept := acc.kept ++ r.kept }

/-- `reload_once`, once the index is resolved: `next` and `new_applied` start empty. -/
def reloadOnce (s : Watch μ) (index : IndexPass μ) : Reload μ :=
  index.tenants.foldl (Reload.visit s) ⟨⟨fun _ => none, fun _ => none, s.failed, s.log⟩, [], []⟩

/-- `clear_all`, at a manual trigger. -/
def Watch.cleared (s : Watch μ) : Watch μ :=
  { s with failed := fun _ => none, log := s.log ++ [.trigger] }

/-- One turn of the watcher. -/
def Watch.pass (s : Watch μ) (p : Pass μ) : Watch μ :=
  let s := if p.trigger then s.cleared else s
  match p.index with
  | none => s
  | some index => (reloadOnce s index).next

/-- A sequence of passes. -/
def Watch.run (s : Watch μ) (ps : List (Pass μ)) : Watch μ := ps.foldl Watch.pass s

/-! ## What a pass does to a tenant -/

/-- What the pass has for `t`. -/
def IndexPass.input? (index : IndexPass μ) (t : Text) : Option (TenantPass μ) :=
  (index.tenants.find? fun x => decide (x.1 = t)).map Prod.snd

section Tenants

variable {s : Watch μ} {t : Text}

/-- A visit of the tenant reloads it from its own state. -/
theorem visit_self (acc : Reload μ) (input : TenantPass μ) :
    (Reload.visit s acc (t, input)).next.tenant t =
      (reloadTenant ⟨s.active t, s.applied t, acc.next.failed t⟩ input).state := by
  unfold Reload.visit Watch.tenant
  dsimp only
  rw [Function.update_self, Function.update_self, Function.update_self]

theorem visit_other (acc : Reload μ) {x : Text × TenantPass μ} (hne : x.1 ≠ t) :
    (Reload.visit s acc x).next.tenant t = acc.next.tenant t := by
  unfold Reload.visit Watch.tenant
  dsimp only
  rw [Function.update_of_ne hne.symm, Function.update_of_ne hne.symm, Function.update_of_ne hne.symm]

/-- Turns of other tenants leave a tenant alone. -/
theorem visits_other (tenants : List (Text × TenantPass μ)) (acc : Reload μ)
    (h : t ∉ tenants.map Prod.fst) :
    (tenants.foldl (Reload.visit s) acc).next.tenant t = acc.next.tenant t := by
  induction tenants generalizing acc with
  | nil => rfl
  | cons x rest ih =>
      rw [List.map_cons, List.mem_cons, not_or] at h
      rw [List.foldl_cons, ih _ h.2, visit_other acc (Ne.symm h.1)]

/-- The turn of the tenant is the only one that counts. -/
theorem visits_tenant (tenants : List (Text × TenantPass μ)) (acc : Reload μ)
    (hnodup : (tenants.map Prod.fst).Nodup) :
    (tenants.foldl (Reload.visit s) acc).next.tenant t =
      match (tenants.find? fun x => decide (x.1 = t)).map Prod.snd with
      | some input => (reloadTenant ⟨s.active t, s.applied t, acc.next.failed t⟩ input).state
      | none => acc.next.tenant t := by
  induction tenants generalizing acc with
  | nil => rfl
  | cons x rest ih =>
      obtain ⟨u, input⟩ := x
      rw [List.map_cons, List.nodup_cons] at hnodup
      rw [List.foldl_cons, List.find?_cons]
      by_cases hu : u = t
      · subst hu
        rw [decide_eq_true rfl, visits_other rest _ hnodup.1, visit_self]
        rfl
      · have hother := visit_other (s := s) acc (x := (u, input)) hu
        rw [decide_eq_false hu, ih _ hnodup.2]
        have hfailed : (Reload.visit s acc (u, input)).next.failed t = acc.next.failed t :=
          congrArg TenantState.failed hother
        rw [hfailed, hother]

/-- ONE PASS, seen from one tenant. -/
theorem reloadOnce_tenant (s : Watch μ) (index : IndexPass μ) (t : Text) :
    (reloadOnce s index).next.tenant t =
      match index.input? t with
      | some input => (reloadTenant (s.tenant t) input).state
      | none => ⟨none, none, s.failed t⟩ :=
  visits_tenant index.tenants _ index.nodup

/-- What a pass makes of the entries of a tenant. -/
def tenantPass (old : TenantState μ) (trigger : Bool) (input : Option (Option (TenantPass μ))) :
    TenantState μ :=
  let old := if trigger then { old with failed := none } else old
  match input with
  | none => old
  | some (some input) => (reloadTenant old input).state
  | some none => ⟨none, none, old.failed⟩

/-- One pass, as one tenant sees it. -/
theorem pass_tenant (s : Watch μ) (p : Pass μ) (t : Text) :
    (s.pass p).tenant t = tenantPass (s.tenant t) p.trigger (p.index.map fun i => i.input? t) := by
  unfold Watch.pass tenantPass
  dsimp only
  have hcleared : (if p.trigger then s.cleared else s).tenant t =
      if p.trigger then { s.tenant t with failed := none } else s.tenant t := by
    cases p.trigger with
    | true => rfl
    | false => rfl
  rw [← hcleared]
  cases p.index with
  | none => rfl
  | some index =>
      dsimp only [Option.map_some]
      rw [reloadOnce_tenant]
      cases index.input? t with
      | none => rfl
      | some input => rfl

/-- Two passes with the same trigger and the same input for `t`. -/
def Alike (t : Text) (p p' : Pass μ) : Prop :=
  p.trigger = p'.trigger ∧ p.index.map (fun i => i.input? t) = p'.index.map fun i => i.input? t

/-- Passes that are alike for a tenant lead it to the same state. -/
theorem run_alike {s s' : Watch μ} (ht : s.tenant t = s'.tenant t) {ps ps' : List (Pass μ)}
    (h : List.Forall₂ (Alike t) ps ps') : (s.run ps).tenant t = (s'.run ps').tenant t := by
  induction h generalizing s s' with
  | nil => exact ht
  | cons hp _ ih =>
      refine ih ?_
      rw [pass_tenant, pass_tenant, ht, hp.1, hp.2]

/-- The digests applied are those of the runtime. -/
def Applied (old : TenantState μ) : Prop :=
  ∀ ds, old.applied = some ds → ∃ r, old.runtime = some r ∧ digestsOf r.packs = ds

/-- Keeping the previous packs keeps the invariant. -/
theorem Applied.keepPrevious {old : TenantState μ} (h : Applied old) (failed : Option FailedRebuild)
    (failure : String) (build : Option Build) :
    Applied (Packs.keepPrevious old failed failure build).state := by
  intro ds hds
  obtain ⟨_, _, happ⟩ := Option.bind_eq_some_iff.mp hds
  exact h ds happ

/-- A reload keeps it. -/
theorem Applied.reloadTenant {old : TenantState μ} (h : Applied old) (input : TenantPass μ) :
    Applied (Packs.reloadTenant old input).state := by
  unfold Packs.reloadTenant
  split
  · exact h.keepPrevious _ _ _
  · dsimp only
    split
    · rename_i htest
      rw [Bool.and_eq_true] at htest
      rintro ds ⟨⟩
      exact h _ (of_decide_eq_true htest.2)
    · split
      · exact h.keepPrevious _ _ _
      · split
        · rintro ds ⟨⟩
          exact ⟨_, rfl, rfl⟩
        · exact h.keepPrevious _ _ _

/-- One pass keeps it. -/
theorem Applied.pass (h : Applied (s.tenant t)) (p : Pass μ) : Applied ((s.pass p).tenant t) := by
  rw [pass_tenant]
  unfold tenantPass
  have hold : Applied (if p.trigger then { s.tenant t with failed := none } else s.tenant t) := by
    split
    · exact h
    · exact h
  dsimp only
  split
  · exact hold
  · exact hold.reloadTenant _
  · exact fun ds hds => nomatch hds

theorem Applied.run {s : Watch μ} (h : Applied (s.tenant t)) (ps : List (Pass μ)) :
    Applied ((s.run ps).tenant t) := by
  induction ps generalizing s with
  | nil => exact h
  | cons p ps ih => exact ih (h.pass p)

/-- A tenant that is served stays served. -/
theorem reloadTenant_served {old : TenantState μ} (h : old.runtime.isSome = true)
    (input : TenantPass μ) : (reloadTenant old input).state.runtime.isSome = true := by
  unfold reloadTenant
  split
  · exact h
  · dsimp only
    split
    · exact h
    · split
      · exact h
      · split
        · rfl
        · exact h

/-! ## Failures in a row -/

/-- What the event leaves of the failures of `t`. -/
def streakStep (t : Text) (known : Option FailedRebuild) : WatchEvent → Option FailedRebuild
  | .trigger => none
  | .build u b =>
      if u = t then b.failedAt.map (recordFailure known b.digests) else known

/-- The failures of `t` since its last success and the last trigger. -/
def streak (t : Text) (log : List WatchEvent) : Option FailedRebuild :=
  log.foldl (streakStep t) none

/-- Every build was let through by the failures before it. -/
def AllAllowed (log : List WatchEvent) : Prop :=
  ∀ before u b after, log = before ++ .build u b :: after →
    shouldSkip (streak u before) b.digests b.checkedAt = false

/-- The map of failures is what the events say. -/
structure WatchInv (s : Watch μ) : Prop where
  failed : ∀ t, s.failed t = streak t s.log
  allowed : AllAllowed s.log

theorem streak_snoc (t : Text) (log : List WatchEvent) (e : WatchEvent) :
    streak t (log ++ [e]) = streakStep t (streak t log) e := by
  rw [streak, List.foldl_append]
  rfl

/-- One more build that was allowed. -/
theorem AllAllowed.snoc {log : List WatchEvent} (h : AllAllowed log) {e : WatchEvent}
    (he : ∀ u b, e = .build u b → shouldSkip (streak u log) b.digests b.checkedAt = false) :
    AllAllowed (log ++ [e]) := by
  intro before u b after heq
  rcases List.eq_nil_or_concat after with rfl | ⟨after', last, rfl⟩
  · obtain ⟨rfl, hlast⟩ := List.append_inj' heq rfl
    exact he u b (List.cons.inj hlast).1
  · rw [List.concat_eq_append, ← List.cons_append, ← List.append_assoc] at heq
    obtain ⟨hlog, -⟩ := List.append_inj' heq rfl
    exact h before u b after' hlog

/-- A build and the failures after it, for the one tenant. -/
theorem reloadTenant_build (old : TenantState μ) (input : TenantPass μ) :
    match (reloadTenant old input).build with
    | none => (reloadTenant old input).state.failed = old.failed
    | some b => shouldSkip old.failed b.digests b.checkedAt = false ∧
        (reloadTenant old input).state.failed = b.failedAt.map (recordFailure old.failed b.digests) := by
  unfold reloadTenant
  cases input.resolved with
  | error e => rfl
  | ok record =>
      dsimp only
      by_cases happ : (old.runtime.isSome && decide (old.applied = some (digestsOf record.packs))) = true
      · rw [if_pos happ]
      · rw [if_neg happ]
        by_cases hskip : shouldSkip old.failed (digestsOf record.packs) input.checkedAt = true
        · rw [if_pos hskip]
          rfl
        · rw [if_neg hskip]
          rw [Bool.not_eq_true] at hskip
          cases input.built with
          | ok handle => exact ⟨hskip, rfl⟩
          | error e => exact ⟨hskip, rfl⟩

/-- A visit keeps the invariant. -/
theorem WatchInv.visit {acc : Reload μ} (h : WatchInv acc.next) (x : Text × TenantPass μ) :
    WatchInv (Reload.visit s acc x).next := by
  obtain ⟨u, input⟩ := x
  have hb := reloadTenant_build ⟨s.active u, s.applied u, acc.next.failed u⟩ input
  unfold Reload.visit
  dsimp only
  cases hbuild : (reloadTenant ⟨s.active u, s.applied u, acc.next.failed u⟩ input).build with
  | none =>
      rw [hbuild] at hb
      dsimp only at hb
      constructor
      · intro t
        rw [Option.toList_none, List.map_nil, List.append_nil, hb, Function.update_eq_self]
        exact h.failed t
      · rw [Option.toList_none, List.map_nil, List.append_nil]
        exact h.allowed
  | some b =>
      rw [hbuild] at hb
      dsimp only at hb
      obtain ⟨hallow, hfailed⟩ := hb
      constructor
      · intro t
        rw [Option.toList_some, List.map_singleton, streak_snoc, streakStep, hfailed]
        dsimp only
        by_cases hu : u = t
        · subst hu
          rw [Function.update_self, if_pos rfl, h.failed]
        · rw [Function.update_of_ne (Ne.symm hu), if_neg hu]
          exact h.failed t
      · rw [Option.toList_some, List.map_singleton]
        refine h.allowed.snoc ?_
        rintro _ _ ⟨⟩
        rw [← h.failed]
        exact hallow

/-- All visits of a pass keep it. -/
theorem WatchInv.visits (tenants : List (Text × TenantPass μ)) {acc : Reload μ}
    (h : WatchInv acc.next) : WatchInv (tenants.foldl (Reload.visit s) acc).next := by
  induction tenants generalizing acc with
  | nil => exact h
  | cons x rest ih => exact ih (h.visit x)

/-- Forgetting the failures keeps it. -/
theorem WatchInv.cleared {s : Watch μ} (h : WatchInv s) : WatchInv s.cleared := by
  constructor
  · intro t
    show none = streak t (s.log ++ [.trigger])
    rw [streak_snoc]
    rfl
  · refine h.allowed.snoc ?_
    rintro _ _ ⟨⟩

/-- One pass keeps it. -/
theorem WatchInv.pass {s : Watch μ} (h : WatchInv s) (p : Pass μ) : WatchInv (s.pass p) := by
  unfold Watch.pass
  dsimp only
  have hs : WatchInv (if p.trigger then s.cleared else s) := by
    split
    · exact h.cleared
    · exact h
  cases p.index with
  | none => exact hs
  | some index =>
      refine WatchInv.visits index.tenants ?_
      exact ⟨hs.failed, hs.allowed⟩

theorem WatchInv.run {s : Watch μ} (h : WatchInv s) (ps : List (Pass μ)) : WatchInv (s.run ps) := by
  induction ps generalizing s with
  | nil => exact h
  | cons p ps ih => exact ih (h.pass p)

theorem WatchInv.start (active : Text → Option (Runtime μ)) : WatchInv (Watch.start active) :=
  ⟨fun _ => rfl, fun _ _ _ _ h => nomatch (List.append_eq_nil_iff.mp h.symm).2⟩

/-! ## The backoff -/

/-- The event bears on the failures of `t`. -/
def bearsOn (t : Text) : WatchEvent → Bool
  | .trigger => true
  | .build u _ => decide (u = t)

/-- The failures in a row depend on the tenant's own events only. -/
theorem streak_filter (t : Text) (log : List WatchEvent) :
    streak t (log.filter (bearsOn t)) = streak t log := by
  induction log using List.reverseRecOn with
  | nil => rfl
  | append_singleton log e ih =>
      rw [streak_snoc, List.filter_append, List.filter_singleton]
      cases e with
      | trigger =>
          show streak t (log.filter (bearsOn t) ++ [.trigger]) = _
          rw [streak_snoc, ih]
      | build u b =>
          by_cases hu : u = t
          · rw [show bearsOn t (.build u b) = true from decide_eq_true hu, cond_true, streak_snoc, ih]
          · rw [show bearsOn t (.build u b) = false from decide_eq_false hu, cond_false,
              List.append_nil, ih, streakStep, if_neg hu]

/-- Failed builds of `digests`, the last of them at `last`. -/
structure FailedRow (digests : List Text) (fails : List Build) (last : Nat) : Prop where
  all : ∀ b ∈ fails, b.digests = digests ∧ b.failedAt.isSome = true
  last : fails.getLast?.bind Build.failedAt = some last

/-- Failures in a row are counted. -/
theorem streak_row {t : Text} {before : List WatchEvent} {digests : List Text} {fails : List Build}
    {last : Nat} (h : FailedRow digests fails last) :
    ∃ f, streak t (before ++ fails.map (.build t)) = some f ∧ f.digests = digests ∧
      f.lastAttempt = last ∧ min fails.length (2 ^ 32 - 1) ≤ f.attempts := by
  induction fails using List.reverseRecOn generalizing last with
  | nil => exact nomatch h.last
  | append_singleton fails b ih =>
      obtain ⟨hds, hfail⟩ := h.all b (List.mem_append_right _ (List.mem_singleton_self b))
      have hlast : b.failedAt = some last := by
        have hl := h.last
        rwa [List.getLast?_append, List.getLast?_singleton, Option.some_or, Option.bind_some] at hl
      rw [List.map_append, List.map_singleton, ← List.append_assoc, streak_snoc, streakStep,
        if_pos rfl, hlast, hds]
      refine ⟨_, rfl, rfl, rfl, ?_⟩
      rw [List.length_append, List.length_singleton]
      unfold recordFailure
      rcases List.eq_nil_or_concat fails with rfl | ⟨rest, prev, rfl⟩
      · -- the first failure of the row
        dsimp only
        split
        · split
          · rw [List.length_nil]
            omega
          · rw [List.length_nil]
            omega
        · rw [List.length_nil]
          omega
      · rw [List.concat_eq_append] at ih ⊢
        obtain ⟨-, hprev⟩ := h.all prev (by simp)
        obtain ⟨at', hat⟩ := Option.isSome_iff_exists.mp hprev
        have hrow : FailedRow digests (rest ++ [prev]) at' := by
          refine ⟨fun x hx => h.all x (by simp at hx ⊢; tauto), ?_⟩
          rw [List.getLast?_append, List.getLast?_singleton, Option.some_or, Option.bind_some, hat]
        obtain ⟨f, hf, hfds, -, hcount⟩ := ih hrow
        rw [hf]
        dsimp only
        rw [if_pos hfds]
        omega

/-- The delay after `k` failures or more. -/
theorem delayFor_row {k attempts : Nat} (hk : 0 < k) (h : min k (2 ^ 32 - 1) ≤ attempts) :
    min (rebuildRetryBase * 2 ^ (k - 1)) rebuildRetryCap ≤ delayFor attempts := by
  unfold delayFor
  dsimp only
  by_cases hbig : 5 ≤ attempts
  · -- sixteen times the base is beyond the cap
    have hpow : 2 ^ 4 ≤ 2 ^ min (attempts - 1) 31 := Nat.pow_le_pow_right (by omega) (by omega)
    have hcap : rebuildRetryCap ≤ rebuildRetryBase * 2 ^ min (attempts - 1) 31 :=
      le_trans (by decide) (Nat.mul_le_mul_left rebuildRetryBase hpow)
    split
    · rw [min_eq_right hcap]
      exact min_le_right _ _
    · exact min_le_right _ _
  · have hle : k ≤ attempts := by omega
    have hpow : 2 ^ (k - 1) ≤ 2 ^ min (attempts - 1) 31 := Nat.pow_le_pow_right (by omega) (by omega)
    split
    · exact min_le_min_right _ (Nat.mul_le_mul_left _ hpow)
    · exact min_le_right _ _

/-- There is always some delay. -/
theorem delayFor_pos (attempts : Nat) : 0 < delayFor attempts := by
  unfold delayFor
  dsimp only
  have hpos : 0 < rebuildRetryBase * 2 ^ min (attempts - 1) 31 :=
    Nat.mul_pos (by decide) (Nat.pow_pos (by decide))
  have hcap : 0 < rebuildRetryCap := by decide
  split
  · exact lt_min hpos hcap
  · exact hcap

/-- No build of a list right after a row of its failures comes before the delay is over. -/
def BackoffInRow (s : Watch μ) : Prop :=
  ∀ t before fails b after last, s.log.filter (bearsOn t) =
      before ++ fails.map (.build t) ++ .build t b :: after → FailedRow b.digests fails last →
    last + min (rebuildRetryBase * 2 ^ (fails.length - 1)) rebuildRetryCap ≤ b.checkedAt

/-- What is remembered of a failed rebuild is its failures in a row. -/
theorem WatchInv.backoff {s : Watch μ} (h : WatchInv s) : BackoffInRow s := by
  intro t before fails b after last hlog hrow
  obtain ⟨l₁, l₂, hs, hl₁, hl₂⟩ := List.filter_eq_append_iff.mp hlog
  obtain ⟨m₁, m₂, rfl, hm₁, hb, -⟩ := List.filter_eq_cons_iff.mp hl₂
  have hallow := h.allowed (l₁ ++ m₁) t b m₂ (by rw [hs, List.append_assoc])
  have hnone : m₁.filter (bearsOn t) = [] := List.filter_eq_nil_iff.mpr hm₁
  rw [← streak_filter, List.filter_append, hl₁, hnone, List.append_nil] at hallow
  have hstreak : ∃ f, streak t (before ++ fails.map (.build t)) = some f ∧ f.digests = b.digests ∧
      f.lastAttempt = last ∧ min fails.length (2 ^ 32 - 1) ≤ f.attempts := streak_row hrow
  obtain ⟨f, hf, hds, hat, hcount⟩ := hstreak
  have hpos : 0 < fails.length := by
    rcases fails with _ | ⟨x, xs⟩
    · exact nomatch hrow.last
    · exact Nat.succ_pos _
  have hdelay := delayFor_row hpos hcount
  have hd0 := delayFor_pos f.attempts
  rw [hf, shouldSkip, Option.any_some, hds, decide_eq_true rfl, Bool.true_and,
    decide_eq_false_iff_not] at hallow
  omega

end Tenants

/-- A RELOAD ISOLATES TENANTS AND NEVER DROPS A SERVED ONE: after every sequence of passes, a pass
    whose index has a served tenant leaves it served; the entries of a tenant are those of any other
    sequence with the same triggers and the same inputs for it; the digests applied are those its
    runtime was built from; and a list that failed in a row is not built again before its delay,
    unless a trigger or a build of another list of the tenant came in between. -/
theorem reload_isolated (active : Text → Option (Runtime μ)) (ps : List (Pass μ)) :
    (∀ p index t, p.index = some index → t ∈ index.tenants.map Prod.fst →
      (((Watch.start active).run ps).active t).isSome = true →
      ((((Watch.start active).run ps).pass p).active t).isSome = true) ∧
    (∀ t active' ps', active t = active' t → List.Forall₂ (Alike t) ps ps' →
      ((Watch.start active).run ps).tenant t = ((Watch.start active').run ps').tenant t) ∧
    (∀ t ds, ((Watch.start active).run ps).applied t = some ds →
      ∃ r, ((Watch.start active).run ps).active t = some r ∧ digestsOf r.packs = ds) ∧
    BackoffInRow ((Watch.start active).run ps) := by
  refine ⟨?_, ?_, ?_, ?_⟩
  · intro p index t hindex ht hserved
    have hpass := pass_tenant ((Watch.start active).run ps) p t
    obtain ⟨x, hx, rfl⟩ := List.mem_map.mp ht
    have hsome : (index.tenants.find? fun y => decide (y.1 = x.1)).isSome = true :=
      List.find?_isSome.mpr ⟨x, hx, decide_eq_true rfl⟩
    obtain ⟨y, hy⟩ := Option.isSome_iff_exists.mp hsome
    have hinput : index.input? x.1 = some y.2 := by
      rw [IndexPass.input?, hy]
      rfl
    rw [hindex, Option.map_some, hinput, tenantPass] at hpass
    have hruntime := congrArg TenantState.runtime hpass
    change (((Watch.start active).run ps).pass p).active x.1 = _ at hruntime
    rw [hruntime]
    refine reloadTenant_served ?_ _
    split
    · exact hserved
    · exact hserved
  · intro t active' ps' hactive halike
    refine run_alike ?_ halike
    show TenantState.mk (active t) none none = TenantState.mk (active' t) none none
    rw [hactive]
  · intro t ds hds
    have happlied : Applied ((Watch.start active).tenant t) := fun _ h => nomatch h
    exact happlied.run ps ds hds
  · exact ((WatchInv.start active).run ps).backoff

/-! ## Two lists in turn -/

/-- The events since the last trigger. -/
def sinceTrigger (log : List WatchEvent) : List WatchEvent :=
  (log.reverse.takeWhile fun e => match e with
    | .trigger => false
    | .build _ _ => true).reverse

/-- The builds of one list. -/
def listBuilds (digests : List Text) (log : List WatchEvent) : List Build :=
  log.filterMap fun e => match e with
    | .trigger => none
    | .build _ b => if b.digests = digests then some b else none

/-- No build of a list whose last builds failed comes before the delay is over, whatever the tenant
    built in between. -/
def BackoffPerList (s : Watch μ) : Prop :=
  ∀ t before b after rest fails last, s.log.filter (bearsOn t) = before ++ .build t b :: after →
    listBuilds b.digests (sinceTrigger before) = rest ++ fails → FailedRow b.digests fails last →
    last + min (rebuildRetryBase * 2 ^ (fails.length - 1)) rebuildRetryCap ≤ b.checkedAt

/-- A pass in which `acme` resolves to one pack with the digest `d`. -/
def acmePass (d : Text) (checkedAt : Nat) (built : Except String Nat) (failedAt : Nat) : Pass Unit where
  trigger := false
  index := some
    { tenants := [(['a'], ⟨.ok ⟨⟨⟨['p'], .semver ['1']⟩, [], [['p'], ['1'], d], (), ⟨d, [], d⟩⟩, []⟩,
        checkedAt, built, failedAt⟩)]
      nodup := List.pairwise_singleton _ _ }

/-- A second list fails after the first, and the first is built again at once. -/
theorem otherList_retried : ¬ BackoffPerList ((Watch.start fun _ => none).run
    [acmePass ['x'] 0 (.error "") 0, acmePass ['y'] 1 (.error "") 1, acmePass ['x'] 2 (.ok 0) 2]) := by
  intro h
  have hrow : FailedRow [['x']] [⟨[['x']], 0, some 0⟩] 0 := by
    refine ⟨?_, rfl⟩
    intro b hb
    rw [List.mem_singleton.mp hb]
    exact ⟨rfl, rfl⟩
  have hle := h ['a'] [.build ['a'] ⟨[['x']], 0, some 0⟩, .build ['a'] ⟨[['y']], 1, some 1⟩]
    ⟨[['x']], 2, none⟩ [] [] [⟨[['x']], 0, some 0⟩] 0 rfl rfl hrow
  exact absurd hle (by decide)

end Greentic.Packs
