import GreenticRunner.SessionHost

/-! # The session host is a versioned map

    * `HostOk`, `HostOk.moved` — the store shows what the log makes, in every reachable state;
    * `session_map` — a versioned map under any interleaving of calls;
    * `session_map_broken` — what it is not. -/

namespace Greentic.Engine

open Transition Markers VersionedMap

/-! ## The slots of two keys -/

theorem lenSegment_toList (s : String) :
    (lenSegment s).toList = Aw.lenDigits s ++ ':' :: s.toList := by
  simp [lenSegment, Aw.lenDigits, toString, Nat.repr]

/-- The identity tells the segments apart, and not an absent hint from an empty one. -/
theorem sessionIdentity_inj {k k' : SessionKey} (h : sessionIdentity k = sessionIdentity k') :
    k.tenantKey = k'.tenantKey ∧ k.packId = k'.packId ∧ k.flowId = k'.flowId ∧
      k.sessionHint.getD "" = k'.sessionHint.getD "" := by
  have hl := congrArg String.toList h
  simp only [sessionIdentity, String.toList_append, lenSegment_toList, List.append_assoc,
    List.cons_append] at hl
  obtain ⟨h1, hl⟩ := Aw.segment_inj rfl hl
  obtain ⟨h2, hl⟩ := Aw.segment_inj rfl (List.append_cancel_left hl)
  obtain ⟨h3, hl⟩ := Aw.segment_inj rfl (List.append_cancel_left hl)
  have hlast := List.append_cancel_left hl
  rw [← List.append_nil (k.sessionHint.getD "").toList,
    ← List.append_nil (k'.sessionHint.getD "").toList] at hlast
  exact ⟨h1, h2, h3, (Aw.segment_inj rfl hlast).1⟩

/-- No two of the keys differ only in an absent and an empty hint. -/
def HintsApart (keys : Set SessionKey) : Prop :=
  ∀ key ∈ keys, key.sessionHint = some "" → { key with sessionHint := none } ∉ keys

/-- The first eight bytes of the digests of the identities do not collide. -/
def CollisionFree (sha256 : List UInt8 → List UInt8) (keys : Set SessionKey) : Prop :=
  ∀ k ∈ keys, ∀ k' ∈ keys,
    (sha256 (sessionIdentity k).toUTF8.data.toList).take 8 =
      (sha256 (sessionIdentity k').toUTF8.data.toList).take 8 →
    sessionIdentity k = sessionIdentity k'

theorem deriveUserId_inj {sha256 : List UInt8 → List UInt8} {a b : String}
    (h : deriveUserId sha256 a = deriveUserId sha256 b) :
    (sha256 a.toUTF8.data.toList).take 8 = (sha256 b.toUTF8.data.toList).take 8 := by
  have hl := congrArg String.toList h
  rw [deriveUserId, deriveUserId, String.toList_append, String.toList_append] at hl
  have hhex := List.append_cancel_left hl
  rw [String.toList_ofList, String.toList_ofList] at hhex
  have hdec := congrArg TextCodec.hexDecode hhex
  rw [TextCodec.hexDecode_encode, TextCodec.hexDecode_encode] at hdec
  exact Option.some.inj hdec

theorem key_eq_of_identity {keys : Set SessionKey} (hapart : HintsApart keys) {k k' : SessionKey}
    (hk : k ∈ keys) (hk' : k' ∈ keys) (h : sessionIdentity k = sessionIdentity k') : k = k' := by
  obtain ⟨tenant, pack, flow, hint⟩ := k
  obtain ⟨tenant', pack', flow', hint'⟩ := k'
  obtain ⟨h1, h2, h3, h4⟩ := sessionIdentity_inj h
  simp only at h1 h2 h3 h4
  subst h1 h2 h3
  cases hint with
  | none =>
      cases hint' with
      | none => rfl
      | some b =>
          have hb : b = "" := h4.symm
          subst hb
          exact absurd hk (hapart _ hk' rfl)
  | some a =>
      cases hint' with
      | none =>
          have ha : a = "" := h4
          subst ha
          exact absurd hk' (hapart _ hk rfl)
      | some b =>
          have hab : a = b := h4
          rw [hab]

section Slots

variable {Slot : Type} {ids : IdChecks} {sha256 : List UInt8 → List UInt8} {backing : Backing Slot}
  {keys : Set SessionKey} {k k' : SessionKey} {sl sl' : Slots Slot}

theorem slotsOf_user (h : slotsOf ids sha256 backing k = .ok sl) :
    ∃ env tenant, sl.own = backing.place env tenant (userIdFromKey sha256 k) ∧
      sl.legacy = backing.place env tenant (legacyUserIdFromKey sha256 k) := by
  cases hctx : tenantCtxFromKey ids k with
  | error err =>
      rw [slotsOf, hctx] at h
      exact nomatch h
  | ok ctx =>
      rw [slotsOf, hctx] at h
      cases h
      exact ⟨ctx.1, ctx.2, rfl, rfl⟩

/-- No two keys share a slot. -/
theorem own_inj (hapart : HintsApart keys) (hfree : CollisionFree sha256 keys) (hk : k ∈ keys)
    (hk' : k' ∈ keys) (h : slotsOf ids sha256 backing k = .ok sl)
    (h' : slotsOf ids sha256 backing k' = .ok sl') (heq : sl.own = sl'.own) : k = k' := by
  obtain ⟨env, tenant, hown, -⟩ := slotsOf_user h
  obtain ⟨env', tenant', hown', -⟩ := slotsOf_user h'
  rw [hown, hown'] at heq
  exact key_eq_of_identity hapart hk hk' (hfree k hk k' hk' (deriveUserId_inj (backing.perUser heq)))

theorem legacy_ne_own (h : slotsOf ids sha256 backing k = .ok sl) (hone : oneSlot sha256 k = false) :
    sl.legacy ≠ sl.own := by
  obtain ⟨env, tenant, hown, hlegacy⟩ := slotsOf_user h
  intro heq
  rw [hown, hlegacy] at heq
  have huser := backing.perUser heq
  rw [oneSlot, huser] at hone
  simp at hone

theorem legacy_eq_own (h : slotsOf ids sha256 backing k = .ok sl) (hone : oneSlot sha256 k = true) :
    sl.legacy = sl.own := by
  obtain ⟨env, tenant, hown, hlegacy⟩ := slotsOf_user h
  rw [oneSlot, beq_iff_eq] at hone
  rw [hown, hlegacy, hone]

end Slots

/-! ## What a call leaves as it is -/

section Frame

variable {Slot : Type} [DecidableEq Slot] {st st' : Sessions Slot} {k k' : SessionKey}
  {sl : Slots Slot} {slot slot' : Slot} {storeKey : Nat} {x : SessionSnapshot}

omit [DecidableEq Slot] in
theorem lookupEntryFor_some {e : Nat × SessionSnapshot} :
    lookupEntryFor st k slot = some e ↔ st slot = some e ∧ e.2.key = k := by
  rw [lookupEntryFor, Option.filter_eq_some_iff]
  simp

theorem lookupEntryFor_of_ne (h : slot' ≠ slot) (e : Option (Nat × SessionSnapshot)) :
    lookupEntryFor (Function.update st slot e) k slot' = lookupEntryFor st k slot' := by
  rw [lookupEntryFor, lookupEntryFor, Function.update_of_ne h]

theorem lookupEntryFor_stored (h : x.key = k) :
    lookupEntryFor (Function.update st slot (some (storeKey, x))) k slot = some (storeKey, x) := by
  rw [lookupEntryFor_some]
  exact ⟨Function.update_self .., h⟩

theorem lookupEntryFor_removed : lookupEntryFor (Function.update st slot none) k slot = none := by
  rw [lookupEntryFor, Function.update_self]
  rfl

/-- A write by store key finds the session it looked up before. -/
theorem update_found {old : SessionSnapshot} (h : lookupEntryFor st k slot = some (storeKey, old)) :
    st.update slot storeKey x = Function.update st slot (some (storeKey, x)) := by
  rw [Sessions.update, (lookupEntryFor_some.mp h).1]
  simp

theorem remove_found {old : SessionSnapshot} (h : lookupEntryFor st k slot = some (storeKey, old)) :
    st.remove slot storeKey = Function.update st slot none := by
  rw [Sessions.remove, (lookupEntryFor_some.mp h).1]
  simp

/-- What a call on a key does to the store: nothing, or it fills or empties the slot of the key
    or a slot that holds its session. -/
def Change (k : SessionKey) (sl : Slots Slot) (st st' : Sessions Slot) : Prop :=
  st' = st ∨ ∃ slot e, st' = Function.update st slot e ∧ (∀ y, e = some y → y.2.key = k) ∧
    (slot = sl.own ∨ (lookupEntryFor st k slot).isSome)

/-- No session of another key is in the slot of a key. -/
def Pure (k : SessionKey) (sl : Slots Slot) (st : Sessions Slot) : Prop :=
  ∀ e, st sl.own = some e → e.2.key = k

omit [DecidableEq Slot] in
/-- The slot that changes holds no session of another key. -/
theorem Change.mine (hpure : Pure k sl st)
    (h : slot = sl.own ∨ (lookupEntryFor st k slot).isSome) : ∀ e, st slot = some e → e.2.key = k := by
  intro e he
  rcases h with rfl | hsome
  · exact hpure e he
  · obtain ⟨y, hy⟩ := Option.isSome_iff_exists.mp hsome
    obtain ⟨hst, hkey⟩ := lookupEntryFor_some.mp hy
    rw [he] at hst
    cases hst
    exact hkey

/-- A change of one key leaves the others. -/
theorem Change.framed (h : Change k sl st st') (hpure : Pure k sl st) (hne : k' ≠ k) (slot : Slot) :
    lookupEntryFor st' k' slot = lookupEntryFor st k' slot := by
  rcases h with rfl | ⟨slot₁, e, rfl, hmine, hslot⟩
  · rfl
  by_cases heq : slot = slot₁
  · subst heq
    -- before and after, the slot holds a session of `k` or none
    have hold : lookupEntryFor st k' slot = none := by
      refine Option.eq_none_iff_forall_ne_some.mpr ?_
      intro y hy
      obtain ⟨hst, hkey⟩ := lookupEntryFor_some.mp hy
      exact hne (hkey.symm.trans (Change.mine hpure hslot y hst))
    have hnew : lookupEntryFor (Function.update st slot e) k' slot = none := by
      refine Option.eq_none_iff_forall_ne_some.mpr ?_
      intro y hy
      obtain ⟨hst, hkey⟩ := lookupEntryFor_some.mp hy
      rw [Function.update_self] at hst
      exact hne (hkey.symm.trans (hmine y hst))
    rw [hold, hnew]
  · exact lookupEntryFor_of_ne heq e

/-- The slots of all keys stay their own. -/
theorem Change.pure {sl' : Slots Slot} (h : Change k sl st st') (hpure : Pure k sl st)
    (hpure' : Pure k' sl' st) (hinj : sl'.own = sl.own → k' = k) : Pure k' sl' st' := by
  intro e he
  rcases h with rfl | ⟨slot, y, rfl, hmine, hslot⟩
  · exact hpure' e he
  by_cases heq : sl'.own = slot
  · subst heq
    rw [Function.update_self] at he
    rw [hmine e he]
    rcases hslot with hown | hsome
    · exact (hinj hown).symm
    · obtain ⟨z, hz⟩ := Option.isSome_iff_exists.mp hsome
      obtain ⟨hst, hkey⟩ := lookupEntryFor_some.mp hz
      exact hkey.symm.trans (hpure' z hst)
  · rw [Function.update_of_ne heq] at he
    exact hpure' e he

end Frame

/-! ## What a call knows -/

section Knows

variable {Slot : Type} (init : SessionKey → Option SessionSnapshot)

/-- The session moved out of its old slot between two moments. -/
def Moved (log : List Written) (since ended : Nat) (k : SessionKey) : Prop :=
  ∃ i, .move i k ∈ (log.take ended).drop since

/-- A `get` that found nothing in the slot of its key has seen what it will find in the old
    one; one that ended has seen what it returned. -/
def HostCall.Reads (s : HostState Slot) (sl : Slots Slot) (c : HostCall Slot) : Prop :=
  match c.phase with
  | .queued => True
  | .lookup => True
  | .lookupLegacy => Moved s.log c.since s.log.length c.request.key ∨
      Seen init s.log c.since s.log.length c.request.key
        ((lookupEntryFor s.sessions c.request.key sl.legacy).map (·.2))
  | .done answer ended => ended ≤ s.log.length ∧ (Moved s.log c.since ended c.request.key ∨
      ∃ x, answer = .ok (.found x) ∧ Seen init s.log c.since ended c.request.key x)
  | _ => False

/-- The slot is the one a lookup finds the session in. -/
def Front (st : Sessions Slot) (sl : Slots Slot) (k : SessionKey) (slot : Slot) : Prop :=
  slot = sl.own ∨ (slot = sl.legacy ∧ lookupEntryFor st k sl.own = none)

/-- The snapshot that a call is about to store in a slot. -/
def HostRequest.Upserts (st : Sessions Slot) (sl : Slots Slot) (d : SessionSnapshot) (slot : Slot) :
    HostRequest → Prop
  | .put s => slot = sl.own ∧ d = s
  | .updateCas s r => Front st sl s.key slot ∧ d = { s with revision := saturatingSucc r } ∧
      ∃ n x, lookupEntryFor st s.key slot = some (n, x) ∧ x.revision = r
  | .touch k ttl => Front st sl k slot ∧
      ∃ n x, lookupEntryFor st k slot = some (n, x) ∧ d = { x with ttl := ttl }
  | _ => False

/-- A `put` that clears the old slot has filled the other one, a `delete` has emptied it. -/
def HostRequest.Clears (st : Sessions Slot) (sl : Slots Slot) : HostRequest → Prop
  | .put s => (lookupEntryFor st s.key sl.own).isSome
  | .delete k => lookupEntryFor st k sl.own = none
  | _ => False

/-- What a call that holds the lock of its session knows of the two slots. -/
def HostCall.Owns (st : Sessions Slot) (sl : Slots Slot) (c : HostCall Slot) : Prop :=
  match c.phase with
  | .lookupLegacy => lookupEntryFor st c.request.key sl.own = none
  | .upsert d slot => c.request.Upserts st sl d slot
  | .store data slot existing =>
      existing = (lookupEntryFor st c.request.key slot).map (·.1) ∧
        ∃ d, data = d.persisted ∧ c.request.Upserts st sl d slot
  | .remove n => (∃ k, c.request = .delete k) ∧
      ∃ x, lookupEntryFor st c.request.key sl.own = some (n, x)
  | .findLegacy => c.request.Clears st sl
  | .removeLegacy n => c.request.Clears st sl ∧ sl.legacy ≠ sl.own ∧
      ∃ x, lookupEntryFor st c.request.key sl.legacy = some (n, x)
  | _ => True

/-- The call is a `put` that is about to clear the old slot. -/
def HostCall.clearing (c : HostCall Slot) : Bool :=
  match c.request, c.phase with
  | .put _, .findLegacy => true
  | .put _, .removeLegacy _ => true
  | _, _ => false

/-- A swap that was reported is in the log. -/
def HostCall.Logged (log : List Written) (i : Nat) (c : HostCall Slot) : Prop :=
  ∀ s r n, c.request = .updateCas s r → c.phase = .done (.ok (.swapped true)) n →
    ∃ v, .swap i s.key r v ∈ log

variable {init} {s s' : HostState Slot} {st st' : Sessions Slot} {sl : Slots Slot} {c : HostCall Slot}
  {log more : List Written}

theorem Moved.later {since ended ended' : Nat} {k : SessionKey} (h : Moved log since ended k)
    (hle : ended ≤ log.length) (hle' : ended ≤ ended') : Moved (log ++ more) since ended' k := by
  obtain ⟨i, hi⟩ := h
  refine ⟨i, ?_⟩
  have hbefore : (log ++ more).take ended = log.take ended := List.take_append_of_le_length hle
  obtain ⟨rest, hrest⟩ : log.take ended <+: (log ++ more).take ended' := by
    rw [← hbefore]
    exact List.take_prefix_take_left hle'
  rw [← hrest]
  by_cases hs : since ≤ (log.take ended).length
  · rw [List.drop_append_of_le_length hs]
    exact List.mem_append_left _ hi
  · rw [List.drop_eq_nil_of_le (by omega)] at hi
    exact nomatch hi

theorem Front.congr {k : SessionKey} {slot : Slot}
    (hsame : ∀ slot, lookupEntryFor st' k slot = lookupEntryFor st k slot)
    (h : Front st sl k slot) : Front st' sl k slot := by
  rw [Front, hsame]
  exact h

theorem HostRequest.Upserts.congr {d : SessionSnapshot} {slot : Slot} {request : HostRequest}
    (hsame : ∀ slot, lookupEntryFor st' request.key slot = lookupEntryFor st request.key slot)
    (h : request.Upserts st sl d slot) : request.Upserts st' sl d slot := by
  cases request with
  | put s => exact h
  | updateCas s r =>
      obtain ⟨hfront, hd, n, x, hx, hr⟩ := h
      exact ⟨hfront.congr hsame, hd, n, x, (hsame _).trans hx, hr⟩
  | touch k ttl =>
      obtain ⟨hfront, n, x, hx, hd⟩ := h
      exact ⟨hfront.congr hsame, n, x, (hsame _).trans hx, hd⟩
  | get k => exact h
  | delete k => exact h

theorem HostRequest.Clears.congr {request : HostRequest}
    (hsame : ∀ slot, lookupEntryFor st' request.key slot = lookupEntryFor st request.key slot)
    (h : request.Clears st sl) : request.Clears st' sl := by
  cases request with
  | put s =>
      have hs := hsame sl.own
      simp only [HostRequest.key] at hs
      show (lookupEntryFor st' s.key sl.own).isSome
      rw [hs]
      exact h
  | delete k => exact (hsame _).trans h
  | updateCas s r => exact h
  | touch k ttl => exact h
  | get k => exact h

/-- A call knows as much while the slots hold the same of its key. -/
theorem HostCall.Owns.congr
    (hsame : ∀ slot, lookupEntryFor st' c.request.key slot = lookupEntryFor st c.request.key slot)
    (h : c.Owns st sl) : c.Owns st' sl := by
  obtain ⟨request, since, phase⟩ := c
  cases phase with
  | queued => trivial
  | lookup => trivial
  | done answer ended => trivial
  | lookupLegacy => exact (hsame _).trans h
  | upsert d slot => exact h.congr hsame
  | store data slot existing =>
      obtain ⟨he, d, hd, hup⟩ := h
      refine ⟨?_, d, hd, hup.congr hsame⟩
      rw [hsame]
      exact he
  | remove n =>
      obtain ⟨hdel, x, hx⟩ := h
      exact ⟨hdel, x, (hsame _).trans hx⟩
  | findLegacy => exact h.congr hsame
  | removeLegacy n =>
      obtain ⟨hclear, hne, x, hx⟩ := h
      exact ⟨hclear.congr hsame, hne, x, (hsame _).trans hx⟩

/-- A `get` has seen what it will find, also after the old slot changed. -/
theorem HostCall.Reads.later (hlog : s'.log = s.log ++ more)
    (hlegacy : lookupEntryFor s'.sessions c.request.key sl.legacy =
        lookupEntryFor s.sessions c.request.key sl.legacy ∨
      (lookupEntryFor s'.sessions c.request.key sl.legacy).map (·.2) =
        replay init s'.log c.request.key ∨
      ∃ i, .move i c.request.key ∈ more)
    (hsince : c.since ≤ s.log.length) (h : c.Reads init s sl) : c.Reads init s' sl := by
  have hlen : s.log.length ≤ s'.log.length := by
    rw [hlog, List.length_append]
    omega
  obtain ⟨request, since, phase⟩ := c
  cases phase with
  | queued => trivial
  | lookup => trivial
  | upsert d slot => exact h
  | store data slot existing => exact h
  | remove n => exact h
  | findLegacy => exact h
  | removeLegacy n => exact h
  | lookupLegacy =>
      show Moved s'.log _ _ _ ∨ Seen init s'.log _ _ _ _
      rcases h with hmoved | hseen
      · left
        rw [hlog] at hlen ⊢
        exact hmoved.later (Nat.le_refl _) hlen
      · rcases hlegacy with hsame | hnow | ⟨i, hi⟩
        · right
          rw [hsame]
          rw [hlog] at hlen ⊢
          exact hseen.later (Nat.le_refl _) hlen
        · right
          rw [hnow]
          exact Seen.now (Nat.le_trans hsince hlen)
        · left
          refine ⟨i, ?_⟩
          rw [List.take_length, hlog, List.drop_append_of_le_length hsince]
          exact List.mem_append_right _ hi
  | done answer ended =>
      obtain ⟨hended, hret⟩ := h
      refine ⟨Nat.le_trans hended hlen, ?_⟩
      rw [hlog]
      rcases hret with hmoved | ⟨x, hx, hseen⟩
      · exact .inl (hmoved.later hended (Nat.le_refl _))
      · exact .inr ⟨x, hx, hseen.later hended (Nat.le_refl _)⟩

end Knows

/-! ## The store shows what the log makes -/

section Refines

variable {Slot : Type} {ids : IdChecks} {records : RecordChecks}
  {sha256 : List UInt8 → List UInt8} {backing : Backing Slot} {keys : Set SessionKey}
  {init : SessionKey → Option SessionSnapshot} {s : HostState Slot}

/-- Both slots of a key hold its session. -/
def Both (st : Sessions Slot) (sl : Slots Slot) (k : SessionKey) : Prop :=
  sl.legacy ≠ sl.own ∧ (lookupEntryFor st k sl.own).isSome ∧ (lookupEntryFor st k sl.legacy).isSome

/-- The invariant: every slot holds its own session, the store shows what the log makes, a
    session is in both slots only while a `put` clears the old one, one call at a time holds
    the lock of a key, and every call knows what it found. -/
structure HostOk (ids : IdChecks) (sha256 : List UInt8 → List UInt8) (backing : Backing Slot)
    (keys : Set SessionKey) (init : SessionKey → Option SessionSnapshot) (s : HostState Slot) :
    Prop where
  own : ∀ k ∈ keys, ∀ sl, slotsOf ids sha256 backing k = .ok sl → Pure k sl s.sessions
  agree : ∀ k ∈ keys, ∀ sl, slotsOf ids sha256 backing k = .ok sl →
    shown s.sessions sl k = replay init s.log k
  single : ∀ k ∈ keys, ∀ sl, slotsOf ids sha256 backing k = .ok sl → Both s.sessions sl k →
    ∃ (i : Nat) (d : HostCall Slot), s.calls[i]? = some d ∧ d.request.key = k ∧ d.clearing = true
  lock : ∀ (i j : Nat) (c d : HostCall Slot), s.calls[i]? = some c → s.calls[j]? = some d → c.holding = true →
    d.holding = true → c.request.key = d.request.key → i = j
  member : ∀ (i : Nat) (c : HostCall Slot), s.calls[i]? = some c → c.request.key ∈ keys ∧ c.since ≤ s.log.length
  reads : ∀ (i : Nat) (c : HostCall Slot) (sl : Slots Slot), s.calls[i]? = some c →
    c.request.locked = false → slotsOf ids sha256 backing c.request.key = .ok sl → c.Reads init s sl
  owns : ∀ (i : Nat) (c : HostCall Slot) (sl : Slots Slot), s.calls[i]? = some c →
    c.request.locked = true → slotsOf ids sha256 backing c.request.key = .ok sl → c.Owns s.sessions sl
  logged : ∀ (i : Nat) (c : HostCall Slot), s.calls[i]? = some c → c.Logged s.log i
  history : History SessionSnapshot.revision saturatingSucc init s.log

theorem HostCall.clearing_holding {c : HostCall Slot} (h : c.clearing = true) : c.holding = true := by
  obtain ⟨request, since, phase⟩ := c
  cases request with
  | put s =>
      cases phase with
      | findLegacy => rfl
      | removeLegacy n => rfl
      | _ => exact nomatch h
  | _ => exact nomatch h

/-- A call that does not hold a lock knows nothing it could lose. -/
theorem HostCall.owns_of_not_holding {c : HostCall Slot} {st : Sessions Slot} {sl : Slots Slot}
    (hl : c.request.locked = true) (h : c.holding = false) : c.Owns st sl := by
  obtain ⟨request, since, phase⟩ := c
  have hphase : phase.holding = false := by
    simpa [HostCall.holding, show request.locked = true from hl] using h
  cases phase with
  | queued => trivial
  | done answer ended => trivial
  | _ => exact nomatch hphase

theorem replay_keyed {more : List Written} {log : List Written} {k k' : SessionKey}
    (h : ∀ e ∈ more, e.key = k) (hne : k' ≠ k) :
    replay init (log ++ more) k' = replay init log k' := by
  induction more using List.reverseRecOn with
  | nil => rw [List.append_nil]
  | append_singleton more e ih =>
      rw [← List.append_assoc, replay_snoc, Write.apply_of_ne]
      · exact ih fun e' he' => h e' (List.mem_append_left _ he')
      · rw [h e (List.mem_append_right _ (List.mem_singleton.mpr rfl))]
        exact hne

theorem shown_congr {st st' : Sessions Slot} {sl : Slots Slot} {k : SessionKey}
    (hsame : ∀ slot, lookupEntryFor st' k slot = lookupEntryFor st k slot) :
    shown st' sl k = shown st sl k := by
  rw [shown, shown, hsame, hsame]

/-- The key, the slots and the lock of a call that moves. -/
structure Moving (ids : IdChecks) (sha256 : List UInt8 → List UInt8) (backing : Backing Slot)
    (keys : Set SessionKey) (init : SessionKey → Option SessionSnapshot) (s : HostState Slot)
    (i : Nat) (c : HostCall Slot) (sl : Slots Slot) : Prop where
  ok : HostOk ids sha256 backing keys init s
  get : s.calls[i]? = some c
  slots : slotsOf ids sha256 backing c.request.key = .ok sl
  busy : c.phase.holding = true

variable {i : Nat} {c : HostCall Slot} {sl : Slots Slot}

theorem Moving.shows (h : Moving ids sha256 backing keys init s i c sl) :
    shown s.sessions sl c.request.key = replay init s.log c.request.key :=
  h.ok.agree _ (h.ok.member i c h.get).1 sl h.slots

theorem Moving.pure (h : Moving ids sha256 backing keys init s i c sl) :
    Pure c.request.key sl s.sessions :=
  h.ok.own _ (h.ok.member i c h.get).1 sl h.slots

theorem Moving.reads (h : Moving ids sha256 backing keys init s i c sl)
    (hl : c.request.locked = false) : c.Reads init s sl :=
  h.ok.reads i c sl h.get hl h.slots

theorem Moving.owns (h : Moving ids sha256 backing keys init s i c sl)
    (hl : c.request.locked = true) : c.Owns s.sessions sl :=
  h.ok.owns i c sl h.get hl h.slots

/-- While a call that does not clear the old slot has the lock, one slot holds the session. -/
theorem Moving.not_both (h : Moving ids sha256 backing keys init s i c sl)
    (hl : c.request.locked = true) (hclear : c.clearing = false) :
    ¬ Both s.sessions sl c.request.key := by
  intro hboth
  obtain ⟨j, d, hj, hkey, hd⟩ := h.ok.single _ (h.ok.member i c h.get).1 sl h.slots hboth
  have hc : c.holding = true := by rw [HostCall.holding, hl, h.busy]; rfl
  have hij := h.ok.lock _ _ _ _ h.get hj hc (HostCall.clearing_holding hd) hkey.symm
  subst hij
  have hdc : some c = some d := h.get.symm.trans hj
  cases hdc
  rw [hclear] at hd
  exact nomatch hd

/-- What a lookup that finds the session in a slot shows. -/
theorem Front.shown {st : Sessions Slot} {k : SessionKey} {slot : Slot} {n : Nat}
    {x : SessionSnapshot} (h : Front st sl k slot) (hx : lookupEntryFor st k slot = some (n, x)) :
    shown st sl k = some x := by
  rcases h with rfl | ⟨rfl, hnone⟩
  · rw [Engine.shown, hx]
    rfl
  · rw [Engine.shown, hx, hnone]
    rfl

theorem HostRequest.Upserts.front {st : Sessions Slot} {request : HostRequest}
    {d : SessionSnapshot} {slot : Slot} (h : request.Upserts st sl d slot) :
    Front st sl request.key slot := by
  cases request with
  | put x => exact .inl h.1
  | updateCas x r => exact h.1
  | touch k ttl => exact h.1
  | get k => exact h.elim
  | delete k => exact h.elim

theorem HostRequest.Upserts.key_eq {st : Sessions Slot} {request : HostRequest}
    {d : SessionSnapshot} {slot : Slot} (h : request.Upserts st sl d slot) :
    d.key = request.key := by
  cases request with
  | put x => rw [h.2]; rfl
  | updateCas x r => rw [h.2.1]; rfl
  | touch k ttl =>
      obtain ⟨-, n, x, hx, rfl⟩ := h
      exact (lookupEntryFor_some.mp hx).2
  | get k => exact h.elim
  | delete k => exact h.elim

/-- A call that stores fills the slot of its key, or one that holds its session. -/
theorem HostRequest.Upserts.place {st : Sessions Slot} {request : HostRequest}
    {d : SessionSnapshot} {slot : Slot} (h : request.Upserts st sl d slot) :
    (∃ x, request = .put x ∧ slot = sl.own) ∨
      ((∀ x, request ≠ .put x) ∧ (lookupEntryFor st request.key slot).isSome) := by
  cases request with
  | put x => exact .inl ⟨x, rfl, h.1⟩
  | updateCas x r =>
      obtain ⟨-, -, n, y, hy, -⟩ := h
      exact .inr ⟨by simp, Option.isSome_iff_exists.mpr ⟨_, hy⟩⟩
  | touch k ttl =>
      obtain ⟨-, n, y, hy, -⟩ := h
      exact .inr ⟨by simp, Option.isSome_iff_exists.mpr ⟨_, hy⟩⟩
  | get k => exact h.elim
  | delete k => exact h.elim

/-- The write of a call meets what its lookup found. -/
theorem Moving.fits (h : Moving ids sha256 backing keys init s i c sl) {d : SessionSnapshot}
    {slot : Slot} (hup : c.request.Upserts s.sessions sl d slot) :
    (c.request.write i d.persisted).Fits SessionSnapshot.revision saturatingSucc
      (replay init s.log) := by
  have hshow := h.shows
  cases hr : c.request with
  | put x => trivial
  | updateCas x r =>
      rw [hr] at hup hshow
      obtain ⟨hfront, rfl, n, y, hy, hrev⟩ := hup
      refine ⟨⟨y, ?_, hrev⟩, rfl⟩
      exact hshow.symm.trans (hfront.shown hy)
  | touch k ttl =>
      rw [hr] at hup hshow
      obtain ⟨hfront, n, y, hy, rfl⟩ := hup
      refine ⟨y, ?_, rfl⟩
      show replay init s.log y.key = _
      rw [(lookupEntryFor_some.mp hy).2]
      exact hshow.symm.trans (hfront.shown hy)
  | get k => trivial
  | delete k => trivial

theorem HostRequest.write_key (request : HostRequest) (d : SessionSnapshot) :
    (request.write i d).key = d.key := by
  cases request <;> rfl

theorem HostRequest.write_apply (request : HostRequest) (d : SessionSnapshot)
    (m : SessionKey → Option SessionSnapshot) : (request.write i d).apply m d.key = some d := by
  cases request <;> exact Function.update_self ..

variable [DecidableEq Slot]

/-- What a step of a call to the phase of `c'` does to the two slots of its key. -/
structure SlotsMoved (init : SessionKey → Option SessionSnapshot) (s s' : HostState Slot)
    (c c' : HostCall Slot) (more : List Written) (sl : Slots Slot) : Prop where
  change : Change c.request.key sl s.sessions s'.sessions
  shows : shown s'.sessions sl c.request.key = replay init s'.log c.request.key
  both : Both s'.sessions sl c.request.key →
    c'.clearing = true ∨ (Both s.sessions sl c.request.key ∧ c.clearing = false)
  legacy : lookupEntryFor s'.sessions c.request.key sl.legacy =
      lookupEntryFor s.sessions c.request.key sl.legacy ∨
    (lookupEntryFor s'.sessions c.request.key sl.legacy).map (·.2) =
      replay init s'.log c.request.key ∨
    ∃ i, .move i c.request.key ∈ more
  reads : c.request.locked = false → c'.Reads init s' sl
  owns : c.request.locked = true → c'.Owns s'.sessions sl

/-- One step of the call `i` to the phase `p`. -/
structure HostMoved (ids : IdChecks) (sha256 : List UInt8 → List UInt8) (backing : Backing Slot)
    (init : SessionKey → Option SessionSnapshot) (s : HostState Slot) (i : Nat) (c : HostCall Slot)
    (s' : HostState Slot) (more : List Written) (p : HostPhase Slot) : Prop where
  get : s.calls[i]? = some c
  log : s'.log = s.log ++ more
  /-- Only a call with its lock writes. -/
  held : c.holding = true ∨ (s'.sessions = s.sessions ∧ more = [])
  /-- A lock is taken only when nobody has it. -/
  free : ({ c with phase := p } : HostCall Slot).holding = true → c.holding = true ∨
    ∀ d ∈ s.calls, d.holding = true → d.request.key ≠ c.request.key
  keyed : ∀ e ∈ more, e.key = c.request.key
  fits : History SessionSnapshot.revision saturatingSucc init (s.log ++ more)
  logged : ({ c with phase := p } : HostCall Slot).Logged s'.log i
  slots : ∀ sl, slotsOf ids sha256 backing c.request.key = .ok sl →
    SlotsMoved init s s' c { c with phase := p } more sl
  /-- A key without slots is not stored. -/
  nowhere : ∀ err, slotsOf ids sha256 backing c.request.key = .error err →
    s'.sessions = s.sessions

/-- What a step leaves as it is of the other keys. -/
theorem HostMoved.framed {s' : HostState Slot} {more : List Written}
    {p : HostPhase Slot} (h : HostOk ids sha256 backing keys init s)
    (hm : HostMoved ids sha256 backing init s i c s' more p) {k : SessionKey}
    (hne : k ≠ c.request.key) (slot : Slot) :
    lookupEntryFor s'.sessions k slot = lookupEntryFor s.sessions k slot := by
  cases hsl : slotsOf ids sha256 backing c.request.key with
  | error err => rw [hm.nowhere err hsl]
  | ok sl =>
      have hpure := h.own _ (h.member i c hm.get).1 sl hsl
      exact (hm.slots sl hsl).change.framed hpure hne slot

/-- **A STEP KEEPS THE INVARIANT.** -/
theorem HostOk.moved (hapart : HintsApart keys) (hfree : CollisionFree sha256 keys)
    {s' : HostState Slot} {more : List Written} {p : HostPhase Slot}
    (h : HostOk ids sha256 backing keys init s)
    (hm : HostMoved ids sha256 backing init s i c s' more p) :
    HostOk ids sha256 backing keys init
      { s' with calls := s.calls.set i { c with phase := p } } := by
  have hmem := h.member i c hm.get
  have hlt : i < s.calls.length := (List.getElem?_eq_some_iff.mp hm.get).1
  have hself : (s.calls.set i { c with phase := p })[i]? = some { c with phase := p } :=
    List.getElem?_set_self hlt
  have hlen : s.log.length ≤ s'.log.length := by
    rw [hm.log, List.length_append]
    omega
  constructor
  · intro k hk sl hsl
    cases hc : slotsOf ids sha256 backing c.request.key with
    | error err =>
        show Pure k sl s'.sessions
        rw [hm.nowhere err hc]
        exact h.own k hk sl hsl
    | ok slc =>
        refine (hm.slots slc hc).change.pure (h.own _ hmem.1 slc hc) (h.own k hk sl hsl) ?_
        exact own_inj hapart hfree hk hmem.1 hsl hc
  · intro k hk sl hsl
    by_cases hkc : k = c.request.key
    · subst hkc
      exact (hm.slots sl hsl).shows
    · show shown s'.sessions sl k = replay init s'.log k
      rw [shown_congr (hm.framed h hkc), hm.log, replay_keyed hm.keyed hkc]
      exact h.agree k hk sl hsl
  · intro k hk sl hsl hboth
    -- the call that clears the old slot is the one that moves, or another one
    have hother (hold : Both s.sessions sl k) (hnot : k = c.request.key → c.clearing = false) :
        ∃ (j : Nat) (d : HostCall Slot), (s.calls.set i { c with phase := p })[j]? = some d ∧
          d.request.key = k ∧ d.clearing = true := by
      obtain ⟨j, d, hj, hkey, hclear⟩ := h.single k hk sl hsl hold
      by_cases hij : i = j
      · subst hij
        rw [hm.get] at hj
        cases hj
        rw [hnot hkey.symm] at hclear
        exact nomatch hclear
      · exact ⟨j, d, (List.getElem?_set_ne hij).trans hj, hkey, hclear⟩
    by_cases hkc : k = c.request.key
    · subst hkc
      rcases (hm.slots sl hsl).both hboth with hclear | ⟨hold, hnot⟩
      · exact ⟨i, _, hself, rfl, hclear⟩
      · exact hother hold fun _ => hnot
    · refine hother ?_ fun hkc' => absurd hkc' hkc
      obtain ⟨hne, h1, h2⟩ := hboth
      have hf := hm.framed h hkc
      exact ⟨hne, hf _ ▸ h1, hf _ ▸ h2⟩
  · intro a b d d' ha hb hd hd' hkey
    rcases getElem?_of_set ha with ⟨rfl, rfl⟩ | ⟨-, ha'⟩ <;>
      rcases getElem?_of_set hb with ⟨rfl, rfl⟩ | ⟨-, hb'⟩
    · rfl
    · rcases hm.free hd with hc | hnone
      · exact h.lock _ _ _ _ hm.get hb' hc hd' hkey
      · exact absurd hkey.symm (hnone d' (List.mem_of_getElem? hb') hd')
    · rcases hm.free hd' with hc | hnone
      · exact h.lock _ _ _ _ ha' hm.get hd hc hkey
      · exact absurd hkey (hnone d (List.mem_of_getElem? ha') hd)
    · exact h.lock _ _ _ _ ha' hb' hd hd' hkey
  · intro j d hj
    rcases getElem?_of_set hj with ⟨-, rfl⟩ | ⟨-, hj⟩
    · exact ⟨hmem.1, Nat.le_trans hmem.2 hlen⟩
    · obtain ⟨hk, hsince⟩ := h.member j d hj
      exact ⟨hk, Nat.le_trans hsince hlen⟩
  · intro j d sl hj hl hsl
    rcases getElem?_of_set hj with ⟨-, rfl⟩ | ⟨-, hj⟩
    · exact (hm.slots sl hsl).reads hl
    · refine HostCall.Reads.later (s := s) hm.log ?_ (h.member j d hj).2 (h.reads j d sl hj hl hsl)
      by_cases hkc : d.request.key = c.request.key
      · rw [hkc] at hsl ⊢
        exact (hm.slots sl hsl).legacy
      · exact .inl (hm.framed h hkc _)
  · intro j d sl hj hl hsl
    rcases getElem?_of_set hj with ⟨-, rfl⟩ | ⟨hji, hj⟩
    · exact (hm.slots sl hsl).owns hl
    · by_cases hd : d.holding = true
      · refine HostCall.Owns.congr ?_ (h.owns j d sl hj hl hsl)
        intro slot
        by_cases hkc : d.request.key = c.request.key
        · rcases hm.held with hc | ⟨hst, -⟩
          · exact absurd (h.lock _ _ _ _ hj hm.get hd hc hkc) hji
          · show lookupEntryFor s'.sessions _ _ = _
            rw [hst]
        · exact hm.framed h hkc slot
      · exact HostCall.owns_of_not_holding hl (Bool.not_eq_true _ ▸ hd)
  · intro j d hj
    rcases getElem?_of_set hj with ⟨rfl, rfl⟩ | ⟨-, hj⟩
    · exact hm.logged
    · intro x r n hreq hphase
      obtain ⟨v, hv⟩ := h.logged j d hj x r n hreq hphase
      refine ⟨v, ?_⟩
      show _ ∈ s'.log
      rw [hm.log]
      exact List.mem_append_left _ hv
  · show History _ _ _ s'.log
    rw [hm.log]
    exact hm.fits

/-! ## The steps of a call -/

variable {p : HostPhase Slot}

/-- A step that stores nothing. -/
theorem Moving.still (h : Moving ids sha256 backing keys init s i c sl)
    (hwon : ∀ n, p ≠ .done (.ok (.swapped true)) n)
    (hboth : c.clearing = true → Both s.sessions sl c.request.key →
      ({ c with phase := p } : HostCall Slot).clearing = true)
    (hreads : c.request.locked = false → ({ c with phase := p } : HostCall Slot).Reads init s sl)
    (howns : c.request.locked = true → ({ c with phase := p } : HostCall Slot).Owns s.sessions sl) :
    HostMoved ids sha256 backing init s i c s [] p where
  get := h.get
  log := (List.append_nil _).symm
  held := .inr ⟨rfl, rfl⟩
  free := by
    intro hnew
    have hl : c.request.locked = true := (Bool.and_eq_true_iff.mp hnew).1
    exact .inl (Bool.and_eq_true_iff.mpr ⟨hl, h.busy⟩)
  keyed := by
    intro e he
    exact nomatch he
  fits := by
    rw [List.append_nil]
    exact h.ok.history
  logged := by
    intro x r n _ hphase
    exact absurd hphase (hwon n)
  slots := by
    intro sl' hsl'
    have heq : sl' = sl := Except.ok.inj (hsl'.symm.trans h.slots)
    subst heq
    refine ⟨.inl rfl, h.shows, ?_, .inl rfl, hreads, howns⟩
    intro hb
    cases hclear : c.clearing with
    | true => exact .inl (hboth hclear hb)
    | false => exact .inr ⟨hb, rfl⟩
  nowhere := fun _ _ => rfl

/-- A step that fills or empties a slot. -/
theorem Moving.writes (h : Moving ids sha256 backing keys init s i c sl)
    (hl : c.request.locked = true) {s' : HostState Slot} {e : Written}
    (hlog : s'.log = s.log ++ [e]) (hkey : e.key = c.request.key)
    (hfits : e.Fits SessionSnapshot.revision saturatingSucc (replay init s.log))
    (hlogged : ({ c with phase := p } : HostCall Slot).Logged s'.log i)
    (hslots : SlotsMoved init s s' c { c with phase := p } [e] sl) :
    HostMoved ids sha256 backing init s i c s' [e] p where
  get := h.get
  log := hlog
  held := .inl (Bool.and_eq_true_iff.mpr ⟨hl, h.busy⟩)
  free := fun _ => .inl (Bool.and_eq_true_iff.mpr ⟨hl, h.busy⟩)
  keyed := by
    intro e' he'
    rw [List.mem_singleton.mp he']
    exact hkey
  fits := h.ok.history.snoc hfits
  logged := hlogged
  slots := by
    intro sl' hsl'
    have heq : sl' = sl := Except.ok.inj (hsl'.symm.trans h.slots)
    subst heq
    exact hslots
  nowhere := by
    intro err herr
    rw [h.slots] at herr
    exact nomatch herr

/-- A slot that is filled. -/
theorem Moving.stored (h : Moving ids sha256 backing keys init s i c sl)
    (hl : c.request.locked = true) {s' : HostState Slot} {d : SessionSnapshot} {slot : Slot}
    {existing : Option Nat} {n : Nat} (hphase : c.phase = .store d.persisted slot existing)
    (hup : c.request.Upserts s.sessions sl d slot)
    (hst : s'.sessions = Function.update s.sessions slot (some (n, d.persisted)))
    (hlog : s'.log = s.log ++ [c.request.write i d.persisted]) :
    HostMoved ids sha256 backing init s i c s' [c.request.write i d.persisted]
      (c.request.stored (s.log.length + 1)) := by
  have hkey : d.persisted.key = c.request.key := hup.key_eq
  have hnow : lookupEntryFor s'.sessions c.request.key slot = some (n, d.persisted) := by
    rw [hst]
    exact lookupEntryFor_stored hkey
  have hother (slot' : Slot) (hne : slot' ≠ slot) : lookupEntryFor s'.sessions c.request.key slot' =
      lookupEntryFor s.sessions c.request.key slot' := by
    rw [hst]
    exact lookupEntryFor_of_ne hne _
  have hfront : Front s'.sessions sl c.request.key slot := by
    rcases hup.front with hown | ⟨hlegacy, hnone⟩
    · exact .inl hown
    · by_cases hown : sl.own = slot
      · exact .inl hown.symm
      · exact .inr ⟨hlegacy, (hother _ hown).trans hnone⟩
  have hreplay : replay init s'.log c.request.key = some d.persisted := by
    rw [hlog, replay_snoc, ← hkey]
    exact HostRequest.write_apply ..
  refine h.writes hl hlog ?_ (h.fits hup) ?_ ?_
  · rw [HostRequest.write_key]
    exact hkey
  · intro x r m hreq _
    have hr : c.request = .updateCas x r := hreq
    refine ⟨d.persisted, ?_⟩
    rw [hlog, hr]
    refine List.mem_append_right _ (List.mem_singleton.mpr ?_)
    rw [hr] at hkey
    show Write.swap i x.key r d.persisted = Write.swap i d.persisted.key r d.persisted
    rw [hkey]
    rfl
  · constructor
    · refine .inr ⟨slot, some (n, d.persisted), hst, ?_, ?_⟩
      · intro y hy
        rw [← Option.some.inj hy]
        exact hkey
      · rcases hup.place with ⟨-, -, hown⟩ | ⟨-, hsome⟩
        · exact .inl hown
        · exact .inr hsome
    · rw [hreplay]
      exact hfront.shown hnow
    · rintro ⟨hne, h1, h2⟩
      rcases hup.place with ⟨x, hput, -⟩ | ⟨-, hsome⟩
      · left
        simp only [HostCall.clearing, hput, HostRequest.stored]
      · refine .inr ⟨⟨hne, ?_, ?_⟩, by simp [HostCall.clearing, hphase]⟩
        · -- a slot that holds the session before holds it after
          by_cases hown : sl.own = slot
          · rw [hown]
            exact hsome
          · exact hother _ hown ▸ h1
        · by_cases hlegacy : sl.legacy = slot
          · rw [hlegacy]
            exact hsome
          · exact hother _ hlegacy ▸ h2
    · by_cases hlegacy : sl.legacy = slot
      · right; left
        rw [hlegacy, hnow, hreplay]
        rfl
      · exact .inl (hother _ hlegacy)
    · intro hno
      rw [hl] at hno
      exact nomatch hno
    · intro _
      rcases hup.place with ⟨x, hput, hown⟩ | ⟨hnot, -⟩
      · rw [hown] at hnow
        simp only [HostCall.Owns, HostRequest.stored, hput, HostRequest.Clears]
        rw [hput] at hnow
        exact Option.isSome_iff_exists.mpr ⟨_, hnow⟩
      · cases hr : c.request with
        | put x => exact absurd hr (hnot x)
        | updateCas x r => simp [HostCall.Owns, HostRequest.stored]
        | touch k ttl => simp [HostCall.Owns, HostRequest.stored]
        | get k => simp [HostCall.Owns, HostRequest.stored]
        | delete k => simp [HostCall.Owns, HostRequest.stored]

/-- What stays when a slot is emptied. -/
theorem lookupEntryFor_emptied {st : Sessions Slot} {k : SessionKey} {slot slot' : Slot} :
    lookupEntryFor (Function.update st slot none) k slot' =
      if slot' = slot then none else lookupEntryFor st k slot' := by
  by_cases heq : slot' = slot
  · rw [if_pos heq, heq]
    exact lookupEntryFor_removed
  · rw [if_neg heq]
    exact lookupEntryFor_of_ne heq none

/-- A `delete` empties the slot of its key. -/
theorem Moving.removed (h : Moving ids sha256 backing keys init s i c sl) {k : SessionKey}
    {s' : HostState Slot} {n : Nat} {x : SessionSnapshot} (hreq : c.request = .delete k)
    (hx : lookupEntryFor s.sessions k sl.own = some (n, x))
    (hst : s'.sessions = s.sessions.remove sl.own n) (hlog : s'.log = s.log ++ [.delete i k]) :
    HostMoved ids sha256 backing init s i c s' [.delete i k] .findLegacy := by
  have hkey : c.request.key = k := by rw [hreq]; rfl
  have hl : c.request.locked = true := by rw [hreq]; rfl
  rw [remove_found hx] at hst
  -- the old slot is empty too: nobody is about to clear it
  have hlegacy : lookupEntryFor s'.sessions k sl.legacy = none := by
    rw [hst, lookupEntryFor_emptied]
    split
    next => rfl
    next hne =>
      by_contra hsome
      have hclear : c.clearing = false := by simp [HostCall.clearing, hreq]
      refine h.not_both hl hclear ?_
      rw [hkey]
      exact ⟨hne, Option.isSome_iff_exists.mpr ⟨_, hx⟩, Option.isSome_iff_ne_none.mpr hsome⟩
  have hown : lookupEntryFor s'.sessions k sl.own = none := by
    rw [hst]
    exact lookupEntryFor_removed
  have hreplay : replay init s'.log k = none := by
    rw [hlog, replay_snoc]
    exact Function.update_self ..
  refine h.writes hl hlog hkey.symm trivial ?_ ?_
  · intro y r m hr
    have hr' : c.request = .updateCas y r := hr
    rw [hreq] at hr'
    exact nomatch hr'
  · constructor <;> try rw [hkey]
    · exact .inr ⟨sl.own, none, hst, (fun y hy => nomatch hy), .inl rfl⟩
    · rw [hreplay, shown, hown, hlegacy]
      rfl
    · rintro ⟨-, h1, -⟩
      rw [hown] at h1
      exact nomatch h1
    · right; left
      rw [hlegacy, hreplay]
      rfl
    · intro hno
      rw [hl] at hno
      exact nomatch hno
    · intro _
      simp only [HostCall.Owns, hreq, HostRequest.Clears]
      exact hown

/-- The old slot is emptied, by a `put` that moved the session or by a `delete`. -/
theorem Moving.cleared (h : Moving ids sha256 backing keys init s i c sl)
    (hl : c.request.locked = true) {s' : HostState Slot} {n : Nat} (hphase : c.phase = .removeLegacy n)
    (hst : s'.sessions = s.sessions.remove sl.legacy n)
    (hlog : s'.log = s.log ++ [c.request.drop i]) :
    HostMoved ids sha256 backing init s i c s' [c.request.drop i]
      (.done (.ok .unit) (s.log.length + 1)) := by
  have howns := h.owns hl
  rw [HostCall.Owns, hphase] at howns
  obtain ⟨hclears, hne, x, hx⟩ := howns
  rw [remove_found hx] at hst
  have hlegacy : lookupEntryFor s'.sessions c.request.key sl.legacy = none := by
    rw [hst]
    exact lookupEntryFor_removed
  have hown : lookupEntryFor s'.sessions c.request.key sl.own =
      lookupEntryFor s.sessions c.request.key sl.own := by
    rw [hst]
    exact lookupEntryFor_of_ne hne.symm none
  have hmoved : shown s'.sessions sl c.request.key = replay init s'.log c.request.key ∧
      ((lookupEntryFor s'.sessions c.request.key sl.legacy).map (·.2) =
        replay init s'.log c.request.key ∨ ∃ j, .move j c.request.key ∈ [c.request.drop i]) := by
    have hshow := h.shows
    rw [hlog, replay_snoc, shown, hown, hlegacy]
    cases hr : c.request with
    | put y =>
        rw [hr] at hclears hshow
        obtain ⟨e, he⟩ := Option.isSome_iff_exists.mp hclears
        have he' : lookupEntryFor s.sessions (HostRequest.put y).key sl.own = some e := he
        refine ⟨?_, .inr ⟨i, List.mem_singleton.mpr rfl⟩⟩
        rw [shown, he'] at hshow
        rw [he']
        exact hshow
    | delete k =>
        rw [hr] at hclears
        have hnone : lookupEntryFor s.sessions (HostRequest.delete k).key sl.own = none := hclears
        have hdel : (Write.delete i k : Written).apply (replay init s.log) k = none :=
          Function.update_self ..
        rw [hnone]
        exact ⟨hdel.symm, .inl hdel.symm⟩
    | updateCas y r => rw [hr] at hclears; exact hclears.elim
    | touch k ttl => rw [hr] at hclears; exact hclears.elim
    | get k => rw [hr] at hclears; exact hclears.elim
  refine h.writes hl hlog ?_ ?_ ?_ ?_
  · cases c.request <;> rfl
  · cases c.request <;> trivial
  · intro y r m _ hdone
    exact nomatch hdone
  · constructor
    · exact .inr ⟨sl.legacy, none, hst, (fun y hy => nomatch hy),
        .inr (Option.isSome_iff_exists.mpr ⟨_, hx⟩)⟩
    · exact hmoved.1
    · rintro ⟨-, -, h2⟩
      rw [hlegacy] at h2
      exact nomatch h2
    · exact .inr hmoved.2
    · intro hno
      rw [hl] at hno
      exact nomatch hno
    · intro _
      trivial

omit [DecidableEq Slot] in
theorem HostRequest.found_ne_won {request : HostRequest} {r : Option (Slot × SessionSnapshot)}
    {ended n : Nat} : (request.found ended r : HostPhase Slot) ≠ .done (.ok (.swapped true)) n := by
  cases request with
  | updateCas x expected =>
      cases r with
      | none => simp [HostRequest.found]
      | some y =>
          by_cases hrev : y.2.revision = expected <;> simp [HostRequest.found, hrev]
  | touch k ttl => cases r <;> simp [HostRequest.found]
  | get k => simp [HostRequest.found]
  | put x => simp [HostRequest.found]
  | delete k => simp [HostRequest.found]

omit [DecidableEq Slot] in
/-- A call goes on with what its lookup found. -/
theorem HostRequest.found_owns {request : HostRequest} {st : Sessions Slot} {since ended : Nat}
    {r : Option (Slot × SessionSnapshot)}
    (hr : ∀ y, r = some y → Front st sl request.key y.1 ∧
      ∃ n, lookupEntryFor st request.key y.1 = some (n, y.2)) :
    (⟨request, since, request.found ended r⟩ : HostCall Slot).Owns st sl := by
  cases request with
  | updateCas x expected =>
      cases r with
      | none => trivial
      | some y =>
          obtain ⟨hfront, n, hy⟩ := hr y rfl
          by_cases hrev : y.2.revision = expected
          · simp only [HostRequest.found, hrev, if_true, HostCall.Owns]
            exact ⟨hfront, rfl, n, y.2, hy, hrev⟩
          · simp only [HostRequest.found, hrev, if_false, HostCall.Owns]
  | touch k ttl =>
      cases r with
      | none => trivial
      | some y =>
          obtain ⟨hfront, n, hy⟩ := hr y rfl
          exact ⟨hfront, n, y.2, hy, rfl⟩
  | get k => trivial
  | put x => trivial
  | delete k => trivial

/-- The first lookup of a call that is no `delete`. -/
theorem HostCall.advance_lookup {request : HostRequest} {since : Nat}
    (hnot : ∀ k, request ≠ .delete k) :
    (⟨request, since, .lookup⟩ : HostCall Slot).advance records sha256 s i sl =
      some (s, match lookupEntryFor s.sessions request.key sl.own with
        | some e => request.found s.log.length (some (sl.own, e.2))
        | none =>
            if oneSlot sha256 request.key then request.found s.log.length none
            else .lookupLegacy) := by
  cases request with
  | delete k => exact absurd rfl (hnot k)
  | _ =>
      simp only [HostCall.advance]
      cases lookupEntryFor s.sessions _ sl.own with
      | some e => rfl
      | none =>
          dsimp only
          split <;> rfl

omit [DecidableEq Slot] in
/-- A `get` returns what it has seen. -/
theorem reads_done {since : Nat} {request : HostRequest} {x : Option SessionSnapshot}
    (hl : request.locked = false) {r : Option (Slot × SessionSnapshot)} (hr : r.map (·.2) = x)
    (h : Moved s.log since s.log.length request.key ∨
      Seen init s.log since s.log.length request.key x) :
    (⟨request, since, request.found s.log.length r⟩ : HostCall Slot).Reads init s sl := by
  cases request with
  | get k =>
      refine ⟨Nat.le_refl _, ?_⟩
      rcases h with hmoved | hseen
      · exact .inl hmoved
      · exact .inr ⟨x, by rw [← hr], hseen⟩
  | _ => exact nomatch hl

/-- The first lookup. -/
theorem Moving.looked {request : HostRequest} {since : Nat} {s' : HostState Slot}
    (h : Moving ids sha256 backing keys init s i ⟨request, since, .lookup⟩ sl)
    (ha : (⟨request, since, .lookup⟩ : HostCall Slot).advance records sha256 s i sl = some (s', p)) :
    HostMoved ids sha256 backing init s i ⟨request, since, .lookup⟩ s' [] p := by
  have hnow : Seen init s.log since s.log.length request.key (shown s.sessions sl request.key) := by
    rw [show shown s.sessions sl request.key = _ from h.shows]
    exact Seen.now (h.ok.member i _ h.get).2
  have hclear : (⟨request, since, .lookup⟩ : HostCall Slot).clearing = true →
      Both s.sessions sl request.key →
      (⟨request, since, p⟩ : HostCall Slot).clearing = true := by
    intro hno
    cases request <;> exact nomatch hno
  by_cases hdel : ∃ k, request = .delete k
  · obtain ⟨k, rfl⟩ := hdel
    simp only [HostCall.advance] at ha
    cases hl : lookupEntryFor s.sessions (HostRequest.delete k).key sl.own with
    | none =>
        rw [hl] at ha
        cases ha
        exact h.still (fun n => nofun) hclear (fun hno => nomatch hno) fun _ => hl
    | some e =>
        rw [hl] at ha
        cases ha
        exact h.still (fun n => nofun) hclear (fun hno => nomatch hno) fun _ => ⟨⟨k, rfl⟩, e.2, hl⟩
  · rw [HostCall.advance_lookup fun k hk => hdel ⟨k, hk⟩] at ha
    cases hl : lookupEntryFor s.sessions request.key sl.own with
    | some e =>
        rw [hl] at ha
        cases ha
        have hshow : shown s.sessions sl request.key = some e.2 := Front.shown (.inl rfl) hl
        refine h.still (fun n => HostRequest.found_ne_won) hclear ?_ ?_
        · intro hlock
          exact reads_done hlock hshow.symm (.inr hnow)
        · intro _
          refine HostRequest.found_owns ?_
          rintro y hy
          cases hy
          exact ⟨.inl rfl, e.1, hl⟩
    | none =>
        rw [hl] at ha
        by_cases hone : oneSlot sha256 request.key = true
        · simp only [hone, if_true] at ha
          cases ha
          have hshow : shown s.sessions sl request.key = none := by
            rw [shown, legacy_eq_own h.slots hone, hl]
            rfl
          refine h.still (fun n => HostRequest.found_ne_won) hclear ?_ ?_
          · intro hlock
            exact reads_done hlock hshow.symm (.inr hnow)
          · intro _
            exact HostRequest.found_owns fun y hy => nomatch hy
        · simp only [hone] at ha
          cases ha
          have hshow : shown s.sessions sl request.key =
              (lookupEntryFor s.sessions request.key sl.legacy).map (·.2) := by
            rw [shown, hl]
            rfl
          refine h.still (fun n => nofun) hclear ?_ fun _ => hl
          intro _
          right
          rw [← hshow]
          exact hnow

/-- The lookup in the old slot. -/
theorem Moving.lookedLegacy {request : HostRequest} {since : Nat} {s' : HostState Slot}
    (h : Moving ids sha256 backing keys init s i ⟨request, since, .lookupLegacy⟩ sl)
    (ha : (⟨request, since, .lookupLegacy⟩ : HostCall Slot).advance records sha256 s i sl =
      some (s', p)) :
    HostMoved ids sha256 backing init s i ⟨request, since, .lookupLegacy⟩ s' [] p := by
  simp only [HostCall.advance] at ha
  cases ha
  refine h.still (fun n => HostRequest.found_ne_won) ?_ ?_ ?_
  · intro hno
    cases request <;> exact nomatch hno
  · intro hlock
    refine reads_done hlock ?_ (h.reads hlock)
    rw [Option.map_map]
    rfl
  · intro hlock
    have hnone : lookupEntryFor s.sessions request.key sl.own = none := h.owns hlock
    refine HostRequest.found_owns ?_
    intro y hy
    obtain ⟨e, he, rfl⟩ := Option.map_eq_some_iff.mp hy
    exact ⟨.inr ⟨rfl, hnone⟩, e.1, he⟩

omit [DecidableEq Slot] in
/-- A call at a store operation that only a locked call makes. -/
theorem Moving.locked (h : Moving ids sha256 backing keys init s i c sl)
    (hno : ¬ c.Reads init s sl) : c.request.locked = true := by
  cases hl : c.request.locked with
  | true => rfl
  | false => exact absurd (h.reads hl) hno

/-- The lookup before a write. -/
theorem Moving.upserted {request : HostRequest} {since : Nat} {s' : HostState Slot}
    {d : SessionSnapshot} {slot : Slot}
    (h : Moving ids sha256 backing keys init s i ⟨request, since, .upsert d slot⟩ sl)
    (ha : (⟨request, since, .upsert d slot⟩ : HostCall Slot).advance records sha256 s i sl =
      some (s', p)) :
    HostMoved ids sha256 backing init s i ⟨request, since, .upsert d slot⟩ s' [] p := by
  have hl : request.locked = true := h.locked id
  have hup : request.Upserts s.sessions sl d slot := h.owns hl
  have hnot : (⟨request, since, .upsert d slot⟩ : HostCall Slot).clearing = true →
      Both s.sessions sl request.key → (⟨request, since, p⟩ : HostCall Slot).clearing = true := by
    intro hno
    cases request <;> exact nomatch hno
  have hreads : request.locked = false → (⟨request, since, p⟩ : HostCall Slot).Reads init s sl := by
    intro hno
    rw [hl] at hno
    exact nomatch hno
  simp only [HostCall.advance] at ha
  cases henc : encodeSnapshot records d with
  | error err =>
      rw [henc] at ha
      cases ha
      exact h.still (fun n => nofun) hnot hreads fun _ => trivial
  | ok data =>
      rw [henc] at ha
      cases ha
      have hdata : data = d.persisted := by
        rw [encodeSnapshot] at henc
        split at henc
        next => exact nomatch henc
        next =>
          split at henc
          next => exact nomatch henc
          next => exact (Except.ok.inj henc).symm
      refine h.still (fun n => nofun) hnot hreads fun _ => ⟨?_, d, hdata, hup⟩
      -- what the slot holds is of this key
      show _ = (lookupEntryFor s.sessions request.key slot).map (·.1)
      have hmine : ∀ e, s.sessions slot = some e → e.2.key = request.key := by
        refine Change.mine h.pure ?_
        rcases hup.place with ⟨-, -, hown⟩ | ⟨-, hsome⟩
        · exact .inl hown
        · exact .inr hsome
      cases hs : s.sessions slot with
      | none => rw [lookupEntryFor, hs]; rfl
      | some e => rw [lookupEntryFor_some.mpr ⟨hs, hmine e hs⟩]

/-- The write. -/
theorem Moving.store {request : HostRequest} {since : Nat} {s' : HostState Slot}
    {data : SessionSnapshot} {slot : Slot} {existing : Option Nat}
    (h : Moving ids sha256 backing keys init s i ⟨request, since, .store data slot existing⟩ sl)
    (ha : (⟨request, since, .store data slot existing⟩ : HostCall Slot).advance records sha256 s i sl =
      some (s', p)) :
    HostMoved ids sha256 backing init s i ⟨request, since, .store data slot existing⟩ s'
      [request.write i data] p := by
  have hl : request.locked = true := h.locked id
  obtain ⟨hexisting, d, rfl, hup⟩ : existing = (lookupEntryFor s.sessions request.key slot).map (·.1) ∧
      ∃ d : SessionSnapshot, data = d.persisted ∧ request.Upserts s.sessions sl d slot := h.owns hl
  cases existing with
  | none =>
      cases ha
      exact h.stored hl rfl hup rfl rfl
  | some n =>
      obtain ⟨e, he, hn⟩ := Option.map_eq_some_iff.mp hexisting.symm
      cases ha
      refine h.stored (n := n) hl rfl hup ?_ rfl
      rw [← hn]
      exact update_found he

/-- The lookup before the old slot is emptied. -/
theorem Moving.foundLegacy {request : HostRequest} {since : Nat} {s' : HostState Slot}
    (h : Moving ids sha256 backing keys init s i ⟨request, since, .findLegacy⟩ sl)
    (ha : (⟨request, since, .findLegacy⟩ : HostCall Slot).advance records sha256 s i sl =
      some (s', p)) :
    HostMoved ids sha256 backing init s i ⟨request, since, .findLegacy⟩ s' [] p := by
  have hl : request.locked = true := h.locked id
  have hclears : request.Clears s.sessions sl := h.owns hl
  have hreads : request.locked = false → (⟨request, since, p⟩ : HostCall Slot).Reads init s sl := by
    intro hno
    rw [hl] at hno
    exact nomatch hno
  simp only [HostCall.advance] at ha
  by_cases hone : oneSlot sha256 request.key = true
  · rw [if_pos hone] at ha
    cases ha
    refine h.still (fun n => nofun) ?_ hreads fun _ => trivial
    rintro - ⟨hne, -, -⟩
    exact absurd (legacy_eq_own h.slots hone) hne
  · rw [if_neg hone] at ha
    cases hs : lookupEntryFor s.sessions request.key sl.legacy with
    | none =>
        rw [hs] at ha
        cases ha
        refine h.still (fun n => nofun) ?_ hreads fun _ => trivial
        rintro - ⟨-, -, hsome⟩
        rw [show lookupEntryFor s.sessions _ sl.legacy = none from hs] at hsome
        exact nomatch hsome
    | some e =>
        rw [hs] at ha
        cases ha
        have hne : sl.legacy ≠ sl.own := legacy_ne_own h.slots (Bool.not_eq_true _ ▸ hone)
        refine h.still (fun n => nofun) ?_ hreads fun _ => ⟨hclears, hne, e.2, hs⟩
        intro hclear _
        cases request with
        | put x => rfl
        | _ => exact nomatch hclear

/-- **EVERY STORE OPERATION** is one of these. -/
theorem Moving.advance {s' : HostState Slot} (h : Moving ids sha256 backing keys init s i c sl)
    (ha : c.advance records sha256 s i sl = some (s', p)) :
    ∃ more, HostMoved ids sha256 backing init s i c s' more p := by
  obtain ⟨request, since, phase⟩ := c
  cases phase with
  | queued => exact nomatch ha
  | done answer ended => exact nomatch ha
  | lookup => exact ⟨_, h.looked ha⟩
  | lookupLegacy => exact ⟨_, h.lookedLegacy ha⟩
  | upsert d slot => exact ⟨_, h.upserted ha⟩
  | store data slot existing => exact ⟨_, h.store ha⟩
  | findLegacy => exact ⟨_, h.foundLegacy ha⟩
  | remove n =>
      obtain ⟨⟨k, rfl⟩, x, hx⟩ : (∃ k, request = .delete k) ∧
          ∃ x, lookupEntryFor s.sessions request.key sl.own = some (n, x) := h.owns (h.locked id)
      cases ha
      exact ⟨_, h.removed rfl hx rfl rfl⟩
  | removeLegacy n =>
      cases ha
      exact ⟨_, h.cleared (h.locked id) rfl rfl rfl⟩

/-! ## Runs -/

/-- A call that takes its lock, or needs none. -/
theorem HostOk.entered (h : HostOk ids sha256 backing keys init s) (hc : s.calls[i]? = some c)
    (hqueued : c.phase = .queued) (hblocked : s.blocked sha256 c = false) :
    HostMoved ids sha256 backing init s i c s []
      (c.request.enter ids sha256 backing s.log.length) where
  get := hc
  log := (List.append_nil _).symm
  held := .inr ⟨rfl, rfl⟩
  free := by
    intro hnew
    have hl : c.request.locked = true := (Bool.and_eq_true_iff.mp hnew).1
    refine .inr fun d hd hhold hkey => ?_
    have hother : (s.calls.any fun d =>
        d.holding && userIdFromKey sha256 d.request.key == userIdFromKey sha256 c.request.key) =
          false := by
      simpa [HostState.blocked, hl] using hblocked
    rw [List.any_eq_false] at hother
    refine hother d hd ?_
    rw [hhold, hkey]
    simp
  keyed := by
    intro e he
    cases he
  fits := by
    rw [List.append_nil]
    exact h.history
  logged := by
    intro x r n _ hphase
    have henter : c.request.enter ids sha256 backing s.log.length =
        .done (.ok (.swapped true)) n := hphase
    unfold HostRequest.enter at henter
    split at henter <;> cases henter
  slots := by
    intro sl hsl
    have hput : ∀ x, c.request = .put x →
        c.request.enter ids sha256 backing s.log.length = .upsert x sl.own := by
      intro x hr
      unfold HostRequest.enter
      rw [hsl, hr]
    have hlookup : (∀ x, c.request ≠ .put x) →
        c.request.enter ids sha256 backing s.log.length = .lookup := by
      intro hne
      unfold HostRequest.enter
      rw [hsl]
      cases hr : c.request with
      | put x => exact absurd hr (hne x)
      | _ => rfl
    refine ⟨.inl rfl, h.agree _ (h.member i c hc).1 sl hsl, ?_, .inl rfl, ?_, ?_⟩
    · intro hb
      refine .inr ⟨hb, ?_⟩
      simp [HostCall.clearing, hqueued]
    · intro hl
      rw [hlookup fun x hr => by rw [hr] at hl; cases hl]
      trivial
    · intro _
      by_cases hx : ∃ x, c.request = .put x
      · obtain ⟨x, hr⟩ := hx
        rw [hput x hr, hr]
        exact ⟨rfl, rfl⟩
      · rw [hlookup fun x hr => hx ⟨x, hr⟩]
        trivial
  nowhere := fun _ _ => rfl

/-- Every call is on one of the keys. -/
def OnKeys (keys : Set SessionKey) (_ : HostState Slot) : HostMove → Prop
  | .begin request => request.key ∈ keys
  | .advance _ => True

theorem advance_moved (h : HostOk ids sha256 backing keys init s) {s₁ : HostState Slot}
    (hs : hostCallStep ids records sha256 backing s (.advance i) = some s₁) :
    ∃ (c : HostCall Slot) (s' : HostState Slot) (more : List Written) (p : HostPhase Slot),
      HostMoved ids sha256 backing init s i c s' more p ∧
      s₁ = { s' with calls := s.calls.set i { c with phase := p } } := by
  obtain ⟨c, hc, hs⟩ := Option.bind_eq_some_iff.mp hs
  obtain ⟨⟨s', p⟩, hp, hs⟩ := Option.bind_eq_some_iff.mp hs
  cases hs
  suffices hmoved : ∃ more, HostMoved ids sha256 backing init s i c s' more p by
    obtain ⟨more, hm⟩ := hmoved
    exact ⟨c, s', more, p, hm, rfl⟩
  unfold HostCall.move at hp
  split at hp
  next hqueued =>
    split at hp
    next => exact nomatch hp
    next hblocked =>
      cases hp
      exact ⟨_, h.entered hc hqueued (Bool.not_eq_true _ ▸ hblocked)⟩
  next sl hsl hnot =>
    have hbusy : c.phase.holding = true := by
      cases hphase : c.phase with
      | queued => exact absurd hphase hnot
      | done answer ended =>
          rw [HostCall.advance, hphase] at hp
          exact nomatch hp
      | _ => rfl
    exact Moving.advance ⟨h, hc, hsl, hbusy⟩ hp
  next => exact nomatch hp

omit [DecidableEq Slot] in

/-- One more call. -/
theorem HostOk.begin (h : HostOk ids sha256 backing keys init s) {request : HostRequest}
    (hk : request.key ∈ keys) :
    HostOk ids sha256 backing keys init
      { s with calls := s.calls ++ [⟨request, s.log.length, .queued⟩] } := by
  have hidle : (⟨request, s.log.length, .queued⟩ : HostCall Slot).holding = false := by
    simp [HostCall.holding, HostPhase.holding]
  constructor
  · exact h.own
  · exact h.agree
  · intro k hk sl hsl hboth
    obtain ⟨j, d, hj, hd⟩ := h.single k hk sl hsl hboth
    refine ⟨j, d, ?_, hd⟩
    exact (List.getElem?_append_left (List.getElem?_eq_some_iff.mp hj).1).trans hj
  · intro a b d d' ha hb hd hd' hkey
    rcases getElem?_of_snoc ha with ⟨-, rfl⟩ | ha'
    · rw [hidle] at hd
      exact nomatch hd
    · rcases getElem?_of_snoc hb with ⟨-, rfl⟩ | hb'
      · rw [hidle] at hd'
        exact nomatch hd'
      · exact h.lock _ _ _ _ ha' hb' hd hd' hkey
  · intro j d hj
    rcases getElem?_of_snoc hj with ⟨-, rfl⟩ | hj
    · exact ⟨hk, Nat.le_refl _⟩
    · exact h.member j d hj
  · intro j d sl hj hl hsl
    rcases getElem?_of_snoc hj with ⟨-, rfl⟩ | hj
    · trivial
    · exact h.reads j d sl hj hl hsl
  · intro j d sl hj hl hsl
    rcases getElem?_of_snoc hj with ⟨-, rfl⟩ | hj
    · trivial
    · exact h.owns j d sl hj hl hsl
  · intro j d hj
    rcases getElem?_of_snoc hj with ⟨-, rfl⟩ | hj
    · intro x r n _ hphase
      exact nomatch hphase
    · exact h.logged j d hj
  · exact h.history

/-- One step keeps the invariant. -/
theorem HostOk.step (hapart : HintsApart keys) (hfree : CollisionFree sha256 keys)
    (h : HostOk ids sha256 backing keys init s) {l : HostMove} {s₁ : HostState Slot}
    (hl : OnKeys keys s l) (hs : hostCallStep ids records sha256 backing s l = some s₁) :
    HostOk ids sha256 backing keys init s₁ := by
  cases l with
  | begin request =>
      cases hs
      exact h.begin hl
  | advance i =>
      obtain ⟨c, s', more, p, hm, rfl⟩ := advance_moved h hs
      exact h.moved hapart hfree hm

/-- At the start the slot of a key holds no other session, and a session is in one slot. -/
def Placed (ids : IdChecks) (sha256 : List UInt8 → List UInt8) (backing : Backing Slot)
    (keys : Set SessionKey) (st : Sessions Slot) : Prop :=
  ∀ k ∈ keys, ∀ sl, slotsOf ids sha256 backing k = .ok sl → Pure k sl st ∧ ¬ Both st sl k

/-- What is stored at the start. -/
def startMap (ids : IdChecks) (sha256 : List UInt8 → List UInt8) (backing : Backing Slot)
    (st : Sessions Slot) (k : SessionKey) : Option SessionSnapshot :=
  match slotsOf ids sha256 backing k with
  | .ok sl => shown st sl k
  | .error _ => none

omit [DecidableEq Slot] in
theorem HostOk.start {st : Sessions Slot} (h : Placed ids sha256 backing keys st) (n : Nat) :
    HostOk ids sha256 backing keys (startMap ids sha256 backing st) ⟨st, n, [], []⟩ where
  own := fun k hk sl hsl => (h k hk sl hsl).1
  agree := by
    intro k hk sl hsl
    show shown st sl k = startMap ids sha256 backing st k
    rw [startMap, hsl]
  single := fun k hk sl hsl hboth => absurd hboth (h k hk sl hsl).2
  lock := by
    intro i j c d hi
    exact nomatch hi
  member := by
    intro i c hi
    exact nomatch hi
  reads := by
    intro i c sl hi
    exact nomatch hi
  owns := by
    intro i c sl hi
    exact nomatch hi
  logged := by
    intro i c hi
    exact nomatch hi
  history := .nil

/-- So it holds in every run. -/
theorem HostOk.reach (hapart : HintsApart keys) (hfree : CollisionFree sha256 keys)
    {st : Sessions Slot} {n : Nat} (hplaced : Placed ids sha256 backing keys st)
    (hreach : Reach (hostCallStep ids records sha256 backing) (OnKeys keys) ⟨st, n, [], []⟩ s) :
    HostOk ids sha256 backing keys (startMap ids sha256 backing st) s :=
  hreach.inv (HostOk.start hplaced n) fun _ _ _ h hl hs => h.step hapart hfree hl hs

/-- The call `i` is an `update_cas` of a revision of a key that returned true. -/
def Won (s : HostState Slot) (i : Nat) (k : SessionKey) (r : Nat) : Prop :=
  ∃ x since ended, x.key = k ∧
    s.calls[i]? = some ⟨.updateCas x r, since, .done (.ok (.swapped true)) ended⟩

theorem saturatingSucc_gt (r r' : Nat) (hr : r < 2 ^ 64 - 1) (hle : r ≤ r') :
    r < saturatingSucc r' := by
  rw [saturatingSucc, Nat.lt_min]
  omega

/-- Two writes of a log stand behind each other. -/
theorem mem_two {α : Type} {l : List α} {a b : α} (ha : a ∈ l) (hb : b ∈ l) (hne : a ≠ b) :
    (∃ pre mid post, l = pre ++ a :: (mid ++ b :: post)) ∨
      ∃ pre mid post, l = pre ++ b :: (mid ++ a :: post) := by
  obtain ⟨pre, post, rfl⟩ := List.append_of_mem ha
  rcases List.mem_append.mp hb with hpre | hpost
  · obtain ⟨l₁, l₂, rfl⟩ := List.append_of_mem hpre
    exact .inr ⟨l₁, l₂, post, by rw [List.append_assoc, List.cons_append]⟩
  · rcases List.mem_cons.mp hpost with heq | hmem
    · exact absurd heq.symm hne
    · obtain ⟨l₁, l₂, rfl⟩ := List.append_of_mem hmem
      exact .inl ⟨pre, l₁, l₂, rfl⟩

/-- **THE HOST IS A VERSIONED MAP.**  Under any interleaving of calls: what a key shows is what
    the log of the writes makes of it; a step of a call on another key does not change it; a
    `get` returns a value the key had while the `get` ran, unless a `put` moved the session
    out of its old slot meanwhile; and of two swaps of one revision below the largest, a
    `put` of the key lies between them. -/
theorem session_map (hapart : HintsApart keys) (hfree : CollisionFree sha256 keys)
    {st : Sessions Slot} {n : Nat} (hplaced : Placed ids sha256 backing keys st)
    (hreach : Reach (hostCallStep ids records sha256 backing) (OnKeys keys) ⟨st, n, [], []⟩ s) :
    (∀ k ∈ keys, ∀ sl, slotsOf ids sha256 backing k = .ok sl →
      shown s.sessions sl k = replay (startMap ids sha256 backing st) s.log k) ∧
    (∀ (i : Nat) (c : HostCall Slot) (s' : HostState Slot), s.calls[i]? = some c →
      hostCallStep ids records sha256 backing s (.advance i) = some s' →
      ∀ k, k ≠ c.request.key → ∀ sl, slotsOf ids sha256 backing k = .ok sl →
        shown s'.sessions sl k = shown s.sessions sl k) ∧
    (∀ (i : Nat) (k : SessionKey) (since : Nat) (answer : Except RunnerError HostAnswer)
        (ended : Nat) (sl : Slots Slot),
      s.calls[i]? = some ⟨.get k, since, .done answer ended⟩ →
      slotsOf ids sha256 backing k = .ok sl → ¬ Moved s.log since ended k →
      ∃ x, answer = .ok (.found x) ∧
        Seen (startMap ids sha256 backing st) s.log since ended k x) ∧
    (∀ (i j : Nat) (k : SessionKey) (r : Nat), i ≠ j → Won s i k r → Won s j k r → r < 2 ^ 64 - 1 →
      ∃ pre mid post a b v w, ((a = i ∧ b = j) ∨ (a = j ∧ b = i)) ∧
        s.log = pre ++ .swap a k r v :: (mid ++ .swap b k r w :: post) ∧
        ∃ m u, .put m k u ∈ mid) := by
  have h := HostOk.reach hapart hfree hplaced hreach
  refine ⟨h.agree, ?_, ?_, ?_⟩
  · intro i c s' hc hs k hk sl _
    obtain ⟨c', s₁, more, p, hm, rfl⟩ := advance_moved h hs
    have hcc : some c' = some c := hm.get.symm.trans hc
    cases hcc
    exact shown_congr (hm.framed h hk)
  · intro i k since answer ended sl hi hsl hnot
    obtain ⟨-, hmoved | hseen⟩ := h.reads i _ sl hi rfl hsl
    · exact absurd hmoved hnot
    · exact hseen
  · rintro i j k r hij ⟨x, since, ended, rfl, hi⟩ ⟨y, since', ended', hk, hj⟩ hr
    obtain ⟨v, hv⟩ := h.logged i _ hi x r ended rfl rfl
    obtain ⟨w, hw⟩ := h.logged j _ hj y r ended' rfl rfl
    rw [hk] at hw
    have hne : (.swap i x.key r v : Written) ≠ .swap j x.key r w := by
      intro heq
      injection heq with heq
      exact hij heq
    rcases mem_two hv hw hne with ⟨pre, mid, post, hlog⟩ | ⟨pre, mid, post, hlog⟩
    · exact ⟨pre, mid, post, i, j, v, w, .inl ⟨rfl, rfl⟩, hlog,
        h.history.put_between saturatingSucc_gt hlog hr⟩
    · exact ⟨pre, mid, post, j, i, w, v, .inr ⟨rfl, rfl⟩, hlog,
        h.history.put_between saturatingSucc_gt hlog hr⟩

end Refines

/-! ## Two packs that share a hint -/

/-- The digests of the texts below. -/
def digests : List (String × String) :=
  [("11:local::demo|9:pack.main|9:flow.main|6:shared",
     "39fb2950f4b48bcebaa1e742103bdbbbe7830559f42537d860061ccca0ac50f6"),
   ("shared",
     "a4d26868017c0ccffe2efe50944ef4211834660cca834c6e9f86dec6a88246fa"),
   ("11:local::demo|10:pack.other|9:flow.main|6:shared",
     "8077bd5d14f17590bac46ab360823f3c58deaca47d243d137d37f4af797c6d00"),
   ("11:local::demo|9:pack.main|9:flow.main|0:",
     "bcbf5c329f695a30634d777f7efa0d445f33d0bac6abf2732af105838e500320"),
   ("local::demo::pack.main::flow.main",
     "0df45383a2c7990667b1d2f75172300b08c4d56da45cb7f0dc33e8d058ac3076"),
   ("",
     "e3b0c44298fc1c149afbf4c8996fb92427ae41e4649b934ca495991b7852b855"),
   ("11:local::demo|9:pack.main|9:flow.main|47:11:local::demo|9:pack.main|9:flow.main|6:shared",
     "7eefe446819d068f5fb659f9780396ae2277cfe6f809dd5079ae2da69cc96d07")]

def tableSha256 (bytes : List UInt8) : List UInt8 :=
  ((digests.find? fun row => row.1.toUTF8.data.toList == bytes).bind fun row =>
    TextCodec.hexDecode row.2.toList).getD []

/-- One session per user, the tenants share their users. -/
def perUserStore : Backing String := ⟨fun _ _ user => user, fun h => h⟩

def mainKey (hint : Option String) : SessionKey := ⟨"local::demo", "pack.main", "flow.main", hint⟩

def otherKey : SessionKey := ⟨"local::demo", "pack.other", "flow.main", some "shared"⟩

/-- The two sessions of the hint. -/
def sharedKeys : Set SessionKey := fun k => k = mainKey (some "shared") ∨ k = otherKey

instance (s : HostState String) (l : HostMove) : Decidable (OnKeys sharedKeys s l) :=
  match l with
  | .begin request =>
      inferInstanceAs (Decidable (request.key = mainKey (some "shared") ∨ request.key = otherKey))
  | .advance _ => inferInstanceAs (Decidable True)

/-- A store that holds one session, in the old slot of its key. -/
def legacySessions (k : SessionKey) : Sessions String :=
  Function.update (fun _ => none) (legacyUserIdFromKey tableSha256 k)
    (some (0, .new k "sid-old"))

/-- A call and its first steps. -/
def calling (i n : Nat) (request : HostRequest) : List HostMove :=
  .begin request :: List.replicate n (.advance i)

/-- Steps of the host over the digests of the texts. -/
abbrev tableStep : HostState String → HostMove → Option (HostState String) :=
  hostCallStep openIds openRecords tableSha256 perUserStore

/-- The call returned an answer that passes a test. -/
def HostState.returned (s : HostState String) (i : Nat) (test : HostAnswer → Bool) : Bool :=
  match s.calls[i]? with
  | some ⟨_, _, .done (.ok answer) _⟩ => test answer
  | _ => false

/-- The call returned no session. -/
def HostAnswer.absent : HostAnswer → Bool
  | .found none => true
  | _ => false

/-- The call returned a session that passes a test. -/
def HostAnswer.present (test : SessionSnapshot → Bool) : HostAnswer → Bool
  | .found (some x) => test x
  | _ => false

def HostAnswer.won : HostAnswer → Bool
  | .swapped won => won
  | _ => false

/-- A store that holds nothing else holds the session in one slot. -/
theorem legacySessions_placed {keys : Set SessionKey} {k : SessionKey}
    (hne : ∀ k' ∈ keys, userIdFromKey tableSha256 k' ≠ legacyUserIdFromKey tableSha256 k) :
    Placed openIds tableSha256 perUserStore keys (legacySessions k) := by
  intro k' hk' sl hsl
  obtain ⟨env, tenant, hown, -⟩ := slotsOf_user hsl
  have hnone : legacySessions k sl.own = none := by
    rw [hown]
    exact Function.update_of_ne (hne k' hk') _ _
  constructor
  · intro e he
    rw [hnone] at he
    exact nomatch he
  · rintro ⟨-, hsome, -⟩
    rw [lookupEntryFor, hnone] at hsome
    exact nomatch hsome

theorem shared_collisionFree : CollisionFree tableSha256 sharedKeys := by
  have hdigest : (tableSha256 (sessionIdentity (mainKey (some "shared"))).toUTF8.data.toList).take 8 ≠
      (tableSha256 (sessionIdentity otherKey).toUTF8.data.toList).take 8 := by decide +kernel
  rintro k (rfl | rfl) k' (rfl | rfl) h
  · rfl
  · exact absurd h hdigest
  · exact absurd h.symm hdigest
  · rfl

/-- A session is swapped in its old slot, beside one of another pack with the same hint, and
    then moved. -/
theorem session_map_shared : ∃ s sl,
    Reach tableStep (OnKeys sharedKeys) ⟨legacySessions (mainKey (some "shared")), 1, [], []⟩ s ∧
    s.returned 1 HostAnswer.won = true ∧
    slotsOf openIds tableSha256 perUserStore (mainKey (some "shared")) = .ok sl ∧
    shown s.sessions sl (mainKey (some "shared")) =
      replay (startMap openIds tableSha256 perUserStore (legacySessions (mainKey (some "shared"))))
        s.log (mainKey (some "shared")) := by
  have hapart : HintsApart sharedKeys := by
    rintro k (rfl | rfl) hint
    · exact absurd hint (by decide)
    · exact absurd hint (by decide)
  have hplaced : Placed openIds tableSha256 perUserStore sharedKeys
      (legacySessions (mainKey (some "shared"))) := by
    refine legacySessions_placed ?_
    rintro k (rfl | rfl)
    · decide +kernel
    · decide +kernel
  obtain ⟨s, hreach, htest⟩ : ∃ s, Reach tableStep (OnKeys sharedKeys)
      ⟨legacySessions (mainKey (some "shared")), 1, [], []⟩ s ∧
        s.returned 1 HostAnswer.won = true :=
    Reach.of_test
      (calling 0 4 (.put (.new otherKey "sid-other")) ++
        calling 1 5 (.updateCas (.new (mainKey (some "shared")) "sid-new") 0) ++
        calling 2 5 (.put (.new (mainKey (some "shared")) "sid-put")))
      (by decide +kernel)
  refine ⟨s, _, hreach, htest, rfl, ?_⟩
  exact (session_map hapart shared_collisionFree hplaced hreach).1 _ (.inl rfl) _ rfl

/-- A run of calls from a store, with a test of its end. -/
def ranTo (st : Sessions String) (moves : List HostMove) (test : HostState String → Bool) : Bool :=
  (play tableStep Any ⟨st, 1, [], []⟩ moves).any test

/-- Two swaps of one revision win when a `put` sets the revision back, and when the revision is
    the largest; a `get` returns a TTL of whole seconds; a session is lost when an empty hint is
    put beside an absent one, or when the slot of another session is its own old slot; and a
    `get` that a `put` overtakes misses a session that was never absent. -/
theorem session_map_broken :
    let k := mainKey (some "shared")
    let nested := mainKey (some (sessionIdentity k))
    let fresh := SessionSnapshot.new k "sid"
    let last := { fresh with revision := 2 ^ 64 - 1 }
    ranTo (fun _ => none)
      (calling 0 4 (.put fresh) ++ calling 1 4 (.updateCas fresh 0) ++ calling 2 4 (.put fresh) ++
        calling 3 4 (.updateCas fresh 0))
      (fun s => s.returned 1 HostAnswer.won && s.returned 3 HostAnswer.won) = true ∧
    ranTo (fun _ => none)
      (calling 0 4 (.put last) ++ calling 1 4 (.updateCas last (2 ^ 64 - 1)) ++
        calling 2 4 (.updateCas last (2 ^ 64 - 1)))
      (fun s => s.returned 1 HostAnswer.won && s.returned 2 HostAnswer.won) = true ∧
    ranTo (fun _ => none)
      (calling 0 4 (.put { fresh with ttl := 1500000000 }) ++ calling 1 2 (.get k))
      (fun s => s.returned 1 (·.present fun x => x.ttl == 1000000000)) = true ∧
    ranTo (fun _ => none)
      (calling 0 4 (.put (.new (mainKey none) "sid")) ++ calling 1 4 (.put (.new (mainKey (some "")) "sid")) ++
        calling 2 3 (.get (mainKey none)))
      (fun s => s.returned 2 HostAnswer.absent) = true ∧
    ranTo (legacySessions nested) (calling 0 4 (.put fresh) ++ calling 1 3 (.get nested))
      (fun s => s.returned 1 HostAnswer.absent) = true ∧
    ranTo (legacySessions k) (calling 0 2 (.get k) ++ calling 1 5 (.put fresh) ++ [.advance 0])
      (fun s => s.returned 0 HostAnswer.absent) = true := by
  refine ⟨?_, ?_, ?_, ?_, ?_, ?_⟩ <;> decide +kernel

end Greentic.Engine
