import GreenticRunner.StepModel
import GreenticRunner.Transition

/-! # Flow state under its old and its new key

    `StateStoreHost` of `storage/state.rs`: the state of a session is stored under an escaped
    key, and read from its unescaped key, once, where it is still there.

    * `Call`, `hostStep` — the calls on one session, one store operation at a time;
    * `no_stale_read` — what a read returns was not stored before a completed write;
    * `expired_write_reread` — a way back in time. -/

namespace Greentic.Engine

open Transition

/-! ## Keys -/

/-- `escape_segment`. -/
def escapeSegment (segment : String) : String :=
  String.join (segment.toList.map fun c =>
    if c = '%' then "%25" else if c = '/' then "%2F" else String.singleton c)

/-- `derive_state_key`. -/
def deriveStateKey (key : SessionKey) : String :=
  let hint := match key.sessionHint with
    | none => "-"
    | some hint => if hint = "-" then "%2D" else escapeSegment hint
  "pack/" ++ escapeSegment key.packId ++ "/flow/" ++ escapeSegment key.flowId ++ "/session/" ++ hint

/-- `legacy_state_key`. -/
def legacyStateKey (key : SessionKey) : Option String :=
  if key.sessionHint = some "-" then none
  else if key.packId.toList.contains '/' || key.flowId.toList.contains '/' ||
      key.sessionHint.any (·.toList.contains '/') then
    let hint := key.sessionHint.getD "-"
    let legacy := "pack/" ++ key.packId ++ "/flow/" ++ key.flowId ++ "/session/" ++ hint
    if legacy ≠ deriveStateKey key then some legacy else none
  else none

theorem legacyStateKey_ne {key : SessionKey} {k : String} (h : legacyStateKey key = some k) :
    k ≠ deriveStateKey key := by
  unfold legacyStateKey at h
  split at h
  next => exact nomatch h
  next =>
    split at h
    next =>
      dsimp only at h
      split at h
      next hne =>
        cases h
        exact hne
      next => exact nomatch h
    next => exact nomatch h

/-! ## A map with times to live -/

/-- A stored value, with the number of the write that stored it. -/
structure Entry where
  value : Json
  stamp : Nat
  expiry : Option Nat
  deriving Inhabited

/-- The entry is there at a time. -/
def Entry.live (now : Nat) (e : Entry) : Bool := e.expiry.all (now < ·)

/-- The stored entries. -/
abbrev Entries : Type := String → Option Entry

def lookup (st : Entries) (now : Nat) (k : String) : Option Entry := (st k).filter (·.live now)

/-- `with_ttl_secs`. -/
def withTtlSecs (ttl : Option Nat) : Option Nat := ttl.filter (0 < ·)

/-! ## Calls -/

/-- Where a `get_json` is. -/
inductive GetPhase where
  | current
  | legacy
  | ifAbsent (found : Entry)
  | again (found : Entry)
  | cleanup (result : Entry)
  | done (result : Option Entry)

/-- A call: a read with the number of the last write that was complete when it started, a
    write, or a delete. -/
inductive Call where
  | get (since : Nat) (phase : GetPhase)
  | set (value : Json) (done : Bool)
  | del (legacyDeleted done : Bool)

/-- The store, the clock, the number of writes and deletes, and the calls. -/
structure StateHost where
  now : Nat
  entries : Entries
  writes : Nat
  calls : List Call

inductive HostStep where
  | begin (call : Call)
  | advance (i : Nat)
  | tick (elapsed : Nat)

/-- The calls that start. -/
def Call.fresh : Call → Nat → Bool
  | .get since .current, writes => since == writes
  | .set _ false, _ => true
  | .del false false, _ => true
  | _, _ => false

section Host

variable (key : SessionKey) (ttl : Option Nat)

/-- The next store operation of a `get_json`. -/
def GetPhase.advance (now : Nat) (st : Entries) : GetPhase → Option (Entries × GetPhase)
  | .current =>
      match lookup st now (deriveStateKey key) with
      | some e => some (st, .done (some e))
      | none =>
          match legacyStateKey key with
          | none => some (st, .done none)
          | some _ => some (st, .legacy)
  | .legacy => (legacyStateKey key).map fun k =>
      match lookup st now k with
      | none => (st, .done none)
      | some e => (st, .ifAbsent e)
  | .ifAbsent e =>
      -- `set_json_if_absent`: a write that landed meanwhile is newer.
      match lookup st now (deriveStateKey key) with
      | some _ => some (st, .again e)
      | none => some (Function.update st (deriveStateKey key)
          (some { e with expiry := (withTtlSecs ttl).map (now + ·) }), .cleanup e)
  | .again e => some (st, .cleanup ((lookup st now (deriveStateKey key)).getD e))
  | .cleanup e => (legacyStateKey key).map fun k =>
      (Function.update st k none, .done (some e))
  | .done _ => none

/-- The next store operation of a call. -/
def Call.advance (s : StateHost) : Call → Option (StateHost × Call)
  | .get since phase => (phase.advance key ttl s.now s.entries).map fun r =>
      ({ s with entries := r.1 }, .get since r.2)
  | .set value false => some
      ({ s with
          writes := s.writes + 1
          entries := Function.update s.entries (deriveStateKey key)
            (some ⟨value, s.writes + 1, (withTtlSecs ttl).map (s.now + ·)⟩) }, .set value true)
  | .set _ true => none
  | .del legacyDeleted false =>
      match legacyStateKey key, legacyDeleted with
      | some k, false => some ({ s with entries := Function.update s.entries k none }, .del true false)
      | _, _ => some
          ({ s with
              writes := s.writes + 1
              entries := Function.update s.entries (deriveStateKey key) none },
            .del legacyDeleted true)
  | .del _ true => none

/-- One store operation of one call, the start of a call, or time that passes. -/
def hostStep (s : StateHost) : HostStep → Option StateHost
  | .begin call =>
      if call.fresh s.writes then some { s with calls := s.calls ++ [call] } else none
  | .advance i => do
      let call ← s.calls[i]?
      let (s', call') ← call.advance key ttl s
      return { s' with calls := s.calls.set i call' }
  | .tick elapsed => some { s with now := s.now + elapsed }

end Host

/-! ## What a store operation keeps -/

section Store

variable {st : Entries} {now : Nat} {k k' : String}

theorem lookup_update_self (e : Entry) (h : e.live now = true) :
    lookup (Function.update st k (some e)) now k = some e := by
  rw [lookup, Function.update_self, Option.filter_some, if_pos h]

theorem lookup_update_none : lookup (Function.update st k none) now k = none := by
  rw [lookup, Function.update_self]
  rfl

theorem lookup_update_of_ne (h : k' ≠ k) (e : Option Entry) :
    lookup (Function.update st k e) now k' = lookup st now k' := by
  rw [lookup, lookup, Function.update_of_ne h]

/-- What is expired stays expired. -/
theorem lookup_later (elapsed : Nat) (h : lookup st now k = none) :
    lookup st (now + elapsed) k = none := by
  unfold lookup at h ⊢
  cases hk : st k with
  | none => rfl
  | some e =>
      rw [hk, Option.filter_some] at h
      rw [Option.filter_some]
      cases he : e.expiry with
      | none => simp [Entry.live, he] at h
      | some t =>
          have hnot : ¬ now < t := by simpa [Entry.live, he] using h
          have hlater : ¬ now + elapsed < t := by omega
          simp [Entry.live, he, hlater]

end Store

/-- A read that is about to write the value it found under the old key. -/
def Call.holds : Call → Bool
  | .get _ (.ifAbsent _) => true
  | _ => false

section Time

variable {key : SessionKey} {ttl : Option Nat} {s s' : StateHost} {c c' : Call}

/-- Nothing is left under the old key. -/
def Gone (key : SessionKey) (s : StateHost) : Prop :=
  ∀ k, legacyStateKey key = some k → lookup s.entries s.now k = none

/-- Nothing is left under the old key, and no read is about to write what it found there. -/
def Settled (key : SessionKey) (s : StateHost) : Prop :=
  Gone key s ∧ ∀ c ∈ s.calls, c.holds = false

/-- A written value expires only when nothing is left of the old key, and a delete of the
    current key meets no read that is about to write what it found under the old one. -/
def Calm (key : SessionKey) (s : StateHost) : HostStep → Prop
  | .begin _ => True
  | .advance i => ∀ legacyDeleted, s.calls[i]? = some (.del legacyDeleted false) →
      (legacyDeleted = true ∨ legacyStateKey key = none) → ∀ c ∈ s.calls, c.holds = false
  | .tick elapsed => ∀ e, s.entries (deriveStateKey key) = some e → 0 < e.stamp →
      e.live (s.now + elapsed) = false → Settled key { s with now := s.now + elapsed }

/-- A read has not gone back behind the writes that were complete when it started. -/
def Call.InTime (key : SessionKey) (s : StateHost) : Call → Prop
  | .get since .current => since ≤ s.writes
  | .get since .legacy => 0 < since → Gone key s
  | .get since (.ifAbsent _) => since = 0
  | .get since (.again _) => since = 0
  | .get since (.cleanup e) => since ≤ e.stamp
  | .get since (.done (some e)) => since ≤ e.stamp
  | .get _ (.done none) => True
  | .set _ _ => True
  | .del legacyDeleted _ => legacyDeleted = true → Gone key s

theorem Call.InTime.mono (hg : Gone key s → Gone key s') (hw : s.writes ≤ s'.writes)
    (h : c.InTime key s) : c.InTime key s' := by
  cases c with
  | get since phase =>
      cases phase with
      | current => exact Nat.le_trans h hw
      | legacy => exact fun hpos => hg (h hpos)
      | ifAbsent e => exact h
      | again e => exact h
      | cleanup e => exact h
      | done r =>
          cases r with
          | none => trivial
          | some e => exact h
  | set value done => trivial
  | del legacyDeleted done => exact fun hd => hg (h hd)

/-- The newest write is under the current key, or nothing is there and nothing is left of the
    old key; no read has gone back. -/
structure Timely (key : SessionKey) (s : StateHost) : Prop where
  newest : 0 < s.writes →
    (∃ e, lookup s.entries s.now (deriveStateKey key) = some e ∧ e.stamp = s.writes) ∨
      (lookup s.entries s.now (deriveStateKey key) = none ∧ Settled key s)
  reads : ∀ c ∈ s.calls, c.InTime key s

/-- One call moves on. -/
theorem Timely.moved (h : Timely key s) (s' : StateHost) {i : Nat} (hg : Gone key s → Gone key s')
    (hw : s.writes ≤ s'.writes) (hc : c'.InTime key s')
    (hnewest : 0 < s'.writes →
      (∃ e, lookup s'.entries s'.now (deriveStateKey key) = some e ∧ e.stamp = s'.writes) ∨
        (lookup s'.entries s'.now (deriveStateKey key) = none ∧ Gone key s' ∧ c'.holds = false ∧
          ∀ c ∈ s.calls, c.holds = false)) :
    Timely key { s' with calls := s.calls.set i c' } := by
  constructor
  · intro hpos
    rcases hnewest hpos with hlive | ⟨hnone, hgone, hnew, hold⟩
    · exact .inl hlive
    · refine .inr ⟨hnone, hgone, ?_⟩
      intro c hmem
      rcases mem_of_set hmem with rfl | hmem
      · exact hnew
      · exact hold c hmem
  · intro c hmem
    rcases mem_of_set hmem with rfl | hmem
    · exact hc
    · exact Call.InTime.mono hg hw (h.reads c hmem)

/-- A store operation of a read. -/
theorem Timely.get (h : Timely key s) {i since : Nat} {phase phase' : GetPhase} {st : Entries}
    (hi : s.calls[i]? = some (.get since phase))
    (ha : phase.advance key ttl s.now s.entries = some (st, phase')) :
    Timely key { s with entries := st, calls := s.calls.set i (.get since phase') } := by
  have hc : (Call.get since phase).InTime key s := h.reads _ (List.mem_of_getElem? hi)
  -- An operation that stores nothing keeps what is newest, unless the read holds a value now.
  have hsame (hholds : (Call.get since phase').holds = false) : 0 < s.writes →
      (∃ e, lookup s.entries s.now (deriveStateKey key) = some e ∧ e.stamp = s.writes) ∨
        (lookup s.entries s.now (deriveStateKey key) = none ∧ Gone key s ∧
          (Call.get since phase').holds = false ∧ ∀ c ∈ s.calls, c.holds = false) := by
    intro hpos
    rcases h.newest hpos with hlive | ⟨hnone, hgone, hold⟩
    · exact .inl hlive
    · exact .inr ⟨hnone, hgone, hholds, hold⟩
  cases phase with
  | current =>
      rw [GetPhase.advance] at ha
      cases hl : lookup s.entries s.now (deriveStateKey key) with
      | some e =>
          rw [hl] at ha
          cases ha
          refine h.moved s id (Nat.le_refl _) ?_ (hsame rfl)
          show since ≤ e.stamp
          have hle : since ≤ s.writes := hc
          rcases Nat.eq_zero_or_pos s.writes with hzero | hpos
          · omega
          · rcases h.newest hpos with ⟨e', he', hstamp⟩ | ⟨hnone, -⟩
            · rw [hl] at he'
              cases he'
              omega
            · rw [hl] at hnone
              exact nomatch hnone
      | none =>
          rw [hl] at ha
          cases hleg : legacyStateKey key with
          | none =>
              rw [hleg] at ha
              cases ha
              exact h.moved s id (Nat.le_refl _) trivial (hsame rfl)
          | some k =>
              rw [hleg] at ha
              cases ha
              refine h.moved s id (Nat.le_refl _) ?_ (hsame rfl)
              intro hpos
              have hle : since ≤ s.writes := hc
              rcases h.newest (Nat.lt_of_lt_of_le hpos hle) with ⟨e', he', -⟩ | ⟨-, hsettled⟩
              · rw [hl] at he'
                exact nomatch he'
              · exact hsettled.1
  | legacy =>
      rw [GetPhase.advance] at ha
      obtain ⟨k, hk, heq⟩ := Option.map_eq_some_iff.mp ha
      cases hl : lookup s.entries s.now k with
      | none =>
          rw [hl] at heq
          cases heq
          exact h.moved s id (Nat.le_refl _) trivial (hsame rfl)
      | some e =>
          rw [hl] at heq
          cases heq
          have hnot : ¬ Gone key s := fun hgone => nomatch (hgone k hk).symm.trans hl
          refine h.moved s id (Nat.le_refl _) ?_ ?_
          · exact Nat.eq_zero_of_not_pos fun hpos => hnot (hc hpos)
          · intro hpos
            rcases h.newest hpos with hlive | ⟨-, hgone, -⟩
            · exact .inl hlive
            · exact absurd hgone hnot
  | ifAbsent e =>
      have hzero : since = 0 := hc
      rw [GetPhase.advance] at ha
      cases hl : lookup s.entries s.now (deriveStateKey key) with
      | some e' =>
          rw [hl] at ha
          cases ha
          exact h.moved s id (Nat.le_refl _) hzero (hsame rfl)
      | none =>
          rw [hl] at ha
          cases ha
          refine h.moved { s with
            entries := Function.update s.entries (deriveStateKey key)
              (some { e with expiry := (withTtlSecs ttl).map (s.now + ·) }) }
            ?_ (Nat.le_refl _) ?_ ?_
          · intro hgone k hk
            rw [← hgone k hk]
            exact lookup_update_of_ne (legacyStateKey_ne hk) _
          · show since ≤ e.stamp
            omega
          · -- The value is written only while nothing newer was: the read holds it.
            intro hpos
            rcases h.newest hpos with ⟨e', he', -⟩ | ⟨-, -, hold⟩
            · rw [hl] at he'
              exact nomatch he'
            · exact nomatch hold _ (List.mem_of_getElem? hi)
  | again e =>
      have hzero : since = 0 := hc
      cases ha
      refine h.moved s id (Nat.le_refl _) ?_ (hsame rfl)
      show since ≤ _
      omega
  | cleanup e =>
      rw [GetPhase.advance] at ha
      obtain ⟨k, hk, heq⟩ := Option.map_eq_some_iff.mp ha
      cases heq
      have hcur : lookup (Function.update s.entries k none) s.now (deriveStateKey key)
          = lookup s.entries s.now (deriveStateKey key) :=
        lookup_update_of_ne (legacyStateKey_ne hk).symm _
      have hgone : Gone key { s with entries := Function.update s.entries k none } := by
        intro k' hk'
        rw [hk] at hk'
        cases hk'
        exact lookup_update_none
      refine h.moved { s with entries := Function.update s.entries k none } (fun _ => hgone) (Nat.le_refl _) hc ?_
      intro hpos
      rcases h.newest hpos with ⟨e', he', hstamp⟩ | ⟨hnone, -, hold⟩
      · exact .inl ⟨e', hcur.trans he', hstamp⟩
      · exact .inr ⟨hcur.trans hnone, hgone, rfl, hold⟩
  | done r => exact nomatch ha

/-- The entry of a write is there. -/
theorem written_live (ttl : Option Nat) (now : Nat) (value : Json) (stamp : Nat) :
    (⟨value, stamp, (withTtlSecs ttl).map (now + ·)⟩ : Entry).live now = true := by
  cases ht : withTtlSecs ttl with
  | none => rfl
  | some secs =>
      have hpos : 0 < secs := by
        have := (Option.filter_eq_some_iff.mp ht).2
        exact of_decide_eq_true this
      simp [Entry.live, hpos]

theorem Timely.set (h : Timely key s) {i : Nat} {value : Json} :
    Timely key { s with
      writes := s.writes + 1
      entries := Function.update s.entries (deriveStateKey key)
        (some ⟨value, s.writes + 1, (withTtlSecs ttl).map (s.now + ·)⟩)
      calls := s.calls.set i (.set value true) } := by
  refine h.moved { s with
    writes := s.writes + 1
    entries := Function.update s.entries (deriveStateKey key)
      (some ⟨value, s.writes + 1, (withTtlSecs ttl).map (s.now + ·)⟩) } ?_ (Nat.le_succ _) trivial ?_
  · intro hgone k hk
    rw [← hgone k hk]
    exact lookup_update_of_ne (legacyStateKey_ne hk) _
  · intro _
    exact .inl ⟨_, lookup_update_self _ (written_live ttl s.now value _), rfl⟩

/-- A delete that has yet to delete the old key. -/
theorem Timely.del_legacy (h : Timely key s) {i : Nat} {k : String}
    (hk : legacyStateKey key = some k) :
    Timely key { s with
      entries := Function.update s.entries k none
      calls := s.calls.set i (.del true false) } := by
  have hcur : lookup (Function.update s.entries k none) s.now (deriveStateKey key)
      = lookup s.entries s.now (deriveStateKey key) :=
    lookup_update_of_ne (legacyStateKey_ne hk).symm _
  have hgone : Gone key { s with entries := Function.update s.entries k none } := by
    intro k' hk'
    rw [hk] at hk'
    cases hk'
    exact lookup_update_none
  refine h.moved { s with entries := Function.update s.entries k none } (fun _ => hgone)
    (Nat.le_refl _) (fun _ => hgone) ?_
  intro hpos
  rcases h.newest hpos with ⟨e', he', hstamp⟩ | ⟨hnone, -, hold⟩
  · exact .inl ⟨e', hcur.trans he', hstamp⟩
  · exact .inr ⟨hcur.trans hnone, hgone, rfl, hold⟩

/-- A delete of the current key, which meets no read that holds a value. -/
theorem Timely.del_current (h : Timely key s) {i : Nat} {legacyDeleted : Bool}
    (hgone : Gone key s) (hold : ∀ c ∈ s.calls, c.holds = false) :
    Timely key { s with
      writes := s.writes + 1
      entries := Function.update s.entries (deriveStateKey key) none
      calls := s.calls.set i (.del legacyDeleted true) } := by
  have hgone' : Gone key { s with
      writes := s.writes + 1
      entries := Function.update s.entries (deriveStateKey key) none } := by
    intro k hk
    rw [← hgone k hk]
    exact lookup_update_of_ne (legacyStateKey_ne hk) _
  refine h.moved { s with
    writes := s.writes + 1
    entries := Function.update s.entries (deriveStateKey key) none } (fun _ => hgone')
    (Nat.le_succ _) (fun _ => hgone') ?_
  intro _
  exact .inr ⟨lookup_update_none, hgone', rfl, hold⟩

/-- Time that passes. -/
theorem Timely.tick (h : Timely key s) {elapsed : Nat} (hc : Calm key s (.tick elapsed)) :
    Timely key { s with now := s.now + elapsed } := by
  have hgone : Gone key s → Gone key { s with now := s.now + elapsed } :=
    fun hgone k hk => lookup_later elapsed (hgone k hk)
  constructor
  · intro hpos
    rcases h.newest hpos with ⟨e, he, hstamp⟩ | ⟨hnone, hsettled⟩
    · have hentry := (Option.filter_eq_some_iff.mp he).1
      have hfilter : lookup s.entries (s.now + elapsed) (deriveStateKey key)
          = if e.live (s.now + elapsed) then some e else none := by
        rw [lookup, hentry, Option.filter_some]
      cases hlive : e.live (s.now + elapsed) with
      | true =>
          rw [hlive] at hfilter
          exact .inl ⟨e, hfilter, hstamp⟩
      | false =>
          rw [hlive] at hfilter
          have hwritten : 0 < e.stamp := hstamp ▸ hpos
          exact .inr ⟨hfilter, hc e hentry hwritten hlive⟩
    · exact .inr ⟨lookup_later elapsed hnone, hgone hsettled.1, hsettled.2⟩
  · intro c hmem
    exact Call.InTime.mono hgone (Nat.le_refl _) (h.reads c hmem)

/-- A call that starts. -/
theorem Timely.begin (h : Timely key s) (hf : c.fresh s.writes = true) :
    Timely key { s with calls := s.calls ++ [c] } := by
  have hnew : c.InTime key s ∧ c.holds = false := by
    cases c with
    | get since phase =>
        cases phase with
        | current => exact ⟨Nat.le_of_eq (eq_of_beq hf), rfl⟩
        | legacy => exact nomatch hf
        | ifAbsent e => exact nomatch hf
        | again e => exact nomatch hf
        | cleanup e => exact nomatch hf
        | done r => exact nomatch hf
    | set value done => exact ⟨trivial, rfl⟩
    | del legacyDeleted done =>
        cases legacyDeleted with
        | true => exact nomatch hf
        | false => exact ⟨fun hd => (nomatch hd), rfl⟩
  constructor
  · intro hpos
    rcases h.newest hpos with hlive | ⟨hnone, hgone, hold⟩
    · exact .inl hlive
    · refine .inr ⟨hnone, hgone, ?_⟩
      intro c' hmem
      rcases List.mem_append.mp hmem with hmem | hmem
      · exact hold c' hmem
      · rw [List.mem_singleton.mp hmem]
        exact hnew.2
  · intro c' hmem
    rcases List.mem_append.mp hmem with hmem | hmem
    · exact Call.InTime.mono id (Nat.le_refl _) (h.reads c' hmem)
    · rw [List.mem_singleton.mp hmem]
      exact Call.InTime.mono id (Nat.le_refl _) hnew.1

/-- A step keeps every read in time. -/
theorem Timely.step (h : Timely key s) {l : HostStep} (hc : Calm key s l)
    (hs : hostStep key ttl s l = some s') : Timely key s' := by
  cases l with
  | begin call =>
      rw [hostStep] at hs
      split at hs
      next hf =>
        cases hs
        exact h.begin hf
      next => exact nomatch hs
  | tick elapsed =>
      cases hs
      exact h.tick hc
  | advance i =>
      rw [hostStep] at hs
      obtain ⟨call, hi, hrest⟩ := Option.bind_eq_some_iff.mp hs
      obtain ⟨⟨s₁, call'⟩, ha, heq⟩ := Option.bind_eq_some_iff.mp hrest
      cases heq
      cases call with
      | get since phase =>
          obtain ⟨⟨st, phase'⟩, hp, hr⟩ := Option.map_eq_some_iff.mp ha
          cases hr
          exact h.get hi hp
      | set value done =>
          cases done with
          | true => exact nomatch ha
          | false =>
              cases ha
              exact h.set
      | del legacyDeleted done =>
          cases done with
          | true => exact nomatch ha
          | false =>
              have hold := h.reads _ (List.mem_of_getElem? hi)
              cases hk : legacyStateKey key with
              | none =>
                  simp only [Call.advance, hk] at ha
                  cases ha
                  exact h.del_current (fun k hk' => nomatch hk.symm.trans hk')
                    (hc _ hi (.inr hk))
              | some k =>
                  cases legacyDeleted with
                  | false =>
                      simp only [Call.advance, hk] at ha
                      cases ha
                      exact h.del_legacy hk
                  | true =>
                      simp only [Call.advance, hk] at ha
                      cases ha
                      exact h.del_current (hold rfl) (hc _ hi (.inl rfl))

/-- A store in which nothing was written yet. -/
def StateHost.start (now : Nat) (entries : Entries) : StateHost := ⟨now, entries, 0, []⟩

/-- No read that has returned went back behind a write or a delete that was complete when it
    started. -/
def NotStale (s : StateHost) : Prop :=
  ∀ since e, .get since (.done (some e)) ∈ s.calls → since ≤ e.stamp

/-- In every run in which written values expire only when nothing is left of the old key, and
    deletes meet no read that is about to write what it found there, flow state never goes
    back in time. -/
theorem no_stale_read {now : Nat} {entries : Entries}
    (h : Reach (hostStep key ttl) (Calm key) (StateHost.start now entries) s) : NotStale s := by
  have ht : Timely key s := by
    refine h.inv ⟨fun hpos => ?_, fun c hmem => ?_⟩ fun _ _ _ ht hc hs => ht.step hc hs
    · exact absurd hpos (Nat.lt_irrefl 0)
    · exact absurd hmem List.not_mem_nil
  intro since e hmem
  exact ht.reads _ hmem

end Time

/-- A session of a pack whose id was not escaped once. -/
def slashedKey : SessionKey := ⟨"local::acme", "shop/cart", "main", none⟩

/-- Its state sits under the old key. -/
def oldEntries : Entries := fun k =>
  if k = "pack/shop/cart/flow/main/session/-" then some ⟨.str "old", 0, none⟩ else none

/-- The store after a write. -/
def writtenHost (calls : List Call) : StateHost where
  now := 0
  entries := Function.update oldEntries (deriveStateKey slashedKey) (some ⟨.str "new", 1, some 60⟩)
  writes := 1
  calls := calls

/-- A write, and then a read. -/
theorem no_stale_read_written :
    Reach (hostStep slashedKey (some 60)) (Calm slashedKey) (StateHost.start 0 oldEntries)
        (writtenHost [.set (.str "new") true,
          .get 1 (.done (some ⟨.str "new", 1, some 60⟩))]) ∧
      NotStale (writtenHost [.set (.str "new") true,
        .get 1 (.done (some ⟨.str "new", 1, some 60⟩))]) := by
  have hset : Reach (hostStep slashedKey (some 60)) (Calm slashedKey)
      (StateHost.start 0 oldEntries) (writtenHost [.set (.str "new") true]) := by
    refine .next (l := .advance 0) (.next (l := .begin (.set (.str "new") false)) .start rfl
      trivial) rfl ?_
    intro _ hcall
    exact nomatch hcall
  have hget : Reach (hostStep slashedKey (some 60)) (Calm slashedKey)
      (StateHost.start 0 oldEntries) (writtenHost [.set (.str "new") true,
        .get 1 (.done (some ⟨.str "new", 1, some 60⟩))]) := by
    refine .next (l := .advance 1) (.next (l := .begin (.get 1 .current)) hset rfl trivial) rfl ?_
    intro _ hcall
    exact nomatch hcall
  exact ⟨hget, no_stale_read hget⟩

/-- The read that started after the write returned what was stored before it. -/
def wentBack (s : StateHost) : Bool :=
  match s.calls with
  | [_, .get since (.done (some e))] => e.stamp < since
  | _ => false

/-- A write does not delete the old key: once the written value has expired, a read finds the
    old value again. -/
theorem expired_write_reread :
    ∃ s, Reach (hostStep slashedKey (some 60)) Any (StateHost.start 0 oldEntries) s ∧
      ¬ NotStale s := by
  obtain ⟨s, hreach, htest⟩ : ∃ s, Reach (hostStep slashedKey (some 60)) Any
      (StateHost.start 0 oldEntries) s ∧ wentBack s = true :=
    Reach.of_test [.begin (.set (.str "new") false), .advance 0, .tick 60,
      .begin (.get 1 .current), .advance 1, .advance 1, .advance 1, .advance 1]
      (by decide +kernel)
  refine ⟨s, hreach, fun h => ?_⟩
  unfold wentBack at htest
  split at htest
  next since e hcalls =>
    have hle := h since e (by rw [hcalls]; simp)
    exact absurd (of_decide_eq_true htest) (Nat.not_lt.mpr hle)
  next => exact nomatch htest

end Greentic.Engine
