import GreenticRunner.FlowState
import GreenticRunner.AssocMap
import GreenticRunner.Segments

/-! # The sessions of one tenant

    All sessions of a tenant keep their flow state in one store.  `StateStoreHost` ESCAPES the parts of
    a key, so that two sessions never meet; `InMemoryStateHost` joins them with colons, without the
    session hint.

    * `CurrentOnly` — a store that only these calls have written to;
    * `keyOf_eq_iff` — the sessions that share a key of the in-memory host;
    * `state_keys_isolate_iff` — when both hosts keep two sessions apart. -/

namespace Greentic.Engine

open Transition Segments AssocMaps

/-! ## Escaped segments -/

/-- What `escape_segment` writes for a character. -/
def escapedChar (c : Char) : List Char :=
  if c = '%' then ['%', '2', '5'] else if c = '/' then ['%', '2', 'F'] else [c]

/-- A segment is escaped character by character. -/
theorem escapeSegment_toList (segment : String) :
    (escapeSegment segment).toList = segment.toList.flatMap escapedChar := by
  rw [escapeSegment, String.toList_join, List.flatMap_map]
  congr 1
  funext c
  unfold escapedChar
  split
  next => rfl
  next =>
    split
    next => rfl
    next => exact String.toList_singleton c

/-- What an escaped character looks like. -/
theorem escapedChar_cases (c : Char) :
    (c = '%' ∧ escapedChar c = ['%', '2', '5']) ∨ (c = '/' ∧ escapedChar c = ['%', '2', 'F']) ∨
      (c ≠ '%' ∧ c ≠ '/' ∧ escapedChar c = [c]) := by
  unfold escapedChar
  split
  next hc => exact .inl ⟨hc, rfl⟩
  next hc =>
    split
    next hs => exact .inr (.inl ⟨hs, rfl⟩)
    next hs => exact .inr (.inr ⟨hc, hs, rfl⟩)

/-- The escaped form of a character ends where it ends. -/
theorem escapedChar_inj {c d : Char} {x y : List Char}
    (h : escapedChar c ++ x = escapedChar d ++ y) : c = d ∧ x = y := by
  rcases escapedChar_cases c with ⟨hc₁, hc⟩ | ⟨hc₁, hc⟩ | ⟨hc₁, -, hc⟩ <;>
    rcases escapedChar_cases d with ⟨hd₁, hd⟩ | ⟨hd₁, hd⟩ | ⟨hd₁, -, hd⟩ <;> rw [hc, hd] at h
  · exact ⟨hc₁.trans hd₁.symm, by simpa using h⟩
  · simp at h
  · exact absurd (List.head_eq_of_cons_eq h).symm hd₁
  · simp at h
  · exact ⟨hc₁.trans hd₁.symm, by simpa using h⟩
  · exact absurd (List.head_eq_of_cons_eq h).symm hd₁
  · exact absurd (List.head_eq_of_cons_eq h) hc₁
  · exact absurd (List.head_eq_of_cons_eq h) hc₁
  · exact ⟨List.head_eq_of_cons_eq h, List.tail_eq_of_cons_eq h⟩

theorem escapedChar_ne_nil (c : Char) : escapedChar c ≠ [] := by
  rcases escapedChar_cases c with ⟨-, hc⟩ | ⟨-, hc⟩ | ⟨-, -, hc⟩ <;> rw [hc] <;>
    exact List.cons_ne_nil _ _

/-- No two texts are escaped alike. -/
theorem escaped_inj {a b : List Char} (h : a.flatMap escapedChar = b.flatMap escapedChar) : a = b := by
  induction a generalizing b with
  | nil =>
      cases b with
      | nil => rfl
      | cons d b =>
          rw [List.flatMap_cons, List.flatMap_nil] at h
          exact absurd (List.append_eq_nil_iff.mp h.symm).1 (escapedChar_ne_nil d)
  | cons c a ih =>
      cases b with
      | nil =>
          rw [List.flatMap_cons, List.flatMap_nil] at h
          exact absurd (List.append_eq_nil_iff.mp h).1 (escapedChar_ne_nil c)
      | cons d b =>
          rw [List.flatMap_cons, List.flatMap_cons] at h
          obtain ⟨hc, hrest⟩ := escapedChar_inj h
          rw [hc, ih hrest]

/-- Nor two segments. -/
theorem escapeSegment_inj {a b : String} (h : escapeSegment a = escapeSegment b) : a = b := by
  have hlist := congrArg String.toList h
  rw [escapeSegment_toList, escapeSegment_toList] at hlist
  exact String.toList_inj.mp (escaped_inj hlist)

/-- An escaped segment has no separator. -/
theorem escapeSegment_clean (segment : String) : '/' ∉ (escapeSegment segment).toList := by
  rw [escapeSegment_toList, List.mem_flatMap]
  rintro ⟨c, -, hc⟩
  rcases escapedChar_cases c with ⟨-, heq⟩ | ⟨-, heq⟩ | ⟨-, hne, heq⟩ <;> rw [heq] at hc
  · exact absurd hc (by decide)
  · exact absurd hc (by decide)
  · exact hne (List.mem_singleton.mp hc).symm

/-! ## The two keys -/

/-- The last segment of a key. -/
def hintSegment : Option String → String
  | none => "-"
  | some hint => if hint = "-" then "%2D" else escapeSegment hint

/-- A hint has no slash in it. -/
theorem hintSegment_clean (hint : Option String) : '/' ∉ (hintSegment hint).toList := by
  unfold hintSegment
  split
  next => decide
  next =>
    split
    next => decide
    next => exact escapeSegment_clean _

/-- An escaped `%` goes on with other characters. -/
theorem escapeSegment_ne_dash (hint : String) : escapeSegment hint ≠ "%2D" := by
  intro h
  have hlist := congrArg String.toList h
  rw [escapeSegment_toList] at hlist
  cases hc : hint.toList with
  | nil =>
      rw [hc] at hlist
      exact absurd hlist (by decide)
  | cons c rest =>
      rw [hc, List.flatMap_cons] at hlist
      have hshape : escapedChar c ++ rest.flatMap escapedChar = ['%', '2', 'D'] := hlist
      rcases escapedChar_cases c with ⟨-, heq⟩ | ⟨-, heq⟩ | ⟨hne, -, heq⟩ <;> rw [heq] at hshape
      · simp at hshape
      · simp at hshape
      · exact hne (List.head_eq_of_cons_eq hshape)

/-- No two hints are written alike. -/
theorem hintSegment_inj {a b : Option String} (h : hintSegment a = hintSegment b) : a = b := by
  have hplain : ∀ hint : String, hint ≠ "-" → escapeSegment hint ≠ "-" := by
    intro hint hne heq
    exact hne (escapeSegment_inj (heq.trans (by decide +kernel)))
  cases a with
  | none =>
      cases b with
      | none => rfl
      | some b =>
          by_cases hb : b = "-"
          · simp [hintSegment, hb] at h
          · simp only [hintSegment, if_neg hb] at h
            exact absurd h.symm (hplain b hb)
  | some a =>
      cases b with
      | none =>
          by_cases ha : a = "-"
          · simp [hintSegment, ha] at h
          · simp only [hintSegment, if_neg ha] at h
            exact absurd h (hplain a ha)
      | some b =>
          by_cases ha : a = "-" <;> by_cases hb : b = "-"
          · rw [ha, hb]
          · simp only [hintSegment, if_pos ha, if_neg hb] at h
            exact absurd h.symm (escapeSegment_ne_dash b)
          · simp only [hintSegment, if_neg ha, if_pos hb] at h
            exact absurd h (escapeSegment_ne_dash a)
          · simp only [hintSegment, if_neg ha, if_neg hb] at h
            rw [escapeSegment_inj h]

/-- A key with its three parts written into it. -/
def keyText (pack flow hint : String) : List Char :=
  "pack/".toList ++ (pack.toList ++ '/' :: ("flow/".toList ++ (flow.toList ++ '/' ::
    ("session/".toList ++ hint.toList))))

/-- The text of a derived key. -/
theorem deriveStateKey_toList (key : SessionKey) :
    (deriveStateKey key).toList = keyText (escapeSegment key.packId) (escapeSegment key.flowId)
      (hintSegment key.sessionHint) := by
  have hhint : deriveStateKey key = "pack/" ++ escapeSegment key.packId ++ "/flow/" ++
      escapeSegment key.flowId ++ "/session/" ++ hintSegment key.sessionHint := by
    unfold deriveStateKey hintSegment
    cases key.sessionHint <;> rfl
  rw [hhint]
  simp only [String.toList_append, List.append_assoc]
  rfl

/-- **Escaped keys determine their session.** -/
theorem deriveStateKey_inj {key key' : SessionKey} (h : deriveStateKey key = deriveStateKey key') :
    key.packId = key'.packId ∧ key.flowId = key'.flowId ∧ key.sessionHint = key'.sessionHint := by
  have hlist := congrArg String.toList h
  rw [deriveStateKey_toList, deriveStateKey_toList] at hlist
  obtain ⟨hpack, hrest⟩ := first_inj (escapeSegment_clean _) (escapeSegment_clean _)
    (List.append_cancel_left hlist)
  obtain ⟨hflow, hlast⟩ := first_inj (escapeSegment_clean _) (escapeSegment_clean _)
    (List.append_cancel_left hrest)
  have hhint := String.toList_inj.mp (List.append_cancel_left hlast)
  exact ⟨escapeSegment_inj (String.toList_inj.mp hpack), escapeSegment_inj (String.toList_inj.mp hflow),
    hintSegment_inj hhint⟩

/-- Its slashes. -/
theorem keyText_count (pack flow hint : String) :
    (keyText pack flow hint).count '/'
      = 5 + pack.toList.count '/' + flow.toList.count '/' + hint.toList.count '/' := by
  have h₁ : "pack/".toList.count '/' = 1 := by decide
  have h₂ : "flow/".toList.count '/' = 1 := by decide
  have h₃ : "session/".toList.count '/' = 1 := by decide
  simp only [keyText, List.count_append, List.count_cons_self, h₁, h₂, h₃]
  omega

/-- There are five. -/
theorem deriveStateKey_count (key : SessionKey) : (deriveStateKey key).toList.count '/' = 5 := by
  rw [deriveStateKey_toList, keyText_count, List.count_eq_zero.mpr (escapeSegment_clean _),
    List.count_eq_zero.mpr (escapeSegment_clean _), List.count_eq_zero.mpr (hintSegment_clean _)]

theorem count_pos_of_contains {text : String} (h : text.toList.contains '/' = true) :
    0 < text.toList.count '/' := List.count_pos_iff.mpr (List.contains_iff_mem.mp h)

/-- An unescaped key has more separators than any escaped one. -/
theorem legacyStateKey_count {key : SessionKey} {k : String} (h : legacyStateKey key = some k) :
    5 < k.toList.count '/' := by
  unfold legacyStateKey at h
  split at h
  next => cases h
  next =>
    split at h
    next hslash =>
      dsimp only at h
      split at h
      next =>
        cases h
        have htext : ("pack/" ++ key.packId ++ "/flow/" ++ key.flowId ++ "/session/" ++
            key.sessionHint.getD "-").toList
              = keyText key.packId key.flowId (key.sessionHint.getD "-") := by
          simp only [String.toList_append, List.append_assoc]
          rfl
        rw [htext, keyText_count]
        rw [Bool.or_eq_true, Bool.or_eq_true] at hslash
        rcases hslash with (hpack | hflow) | hhint
        · have := count_pos_of_contains hpack
          omega
        · have := count_pos_of_contains hflow
          omega
        · cases hk : key.sessionHint with
          | none =>
              rw [hk] at hhint
              cases hhint
          | some hint =>
              rw [hk] at hhint
              have := count_pos_of_contains hhint
              simp only [Option.getD_some]
              omega
      next => cases h
    next => cases h

/-- **An unescaped key is never an escaped one**, not even of another session. -/
theorem legacyStateKey_apart (key : SessionKey) {key' : SessionKey} {k : String}
    (h : legacyStateKey key' = some k) : deriveStateKey key ≠ k := by
  intro heq
  have hcount := legacyStateKey_count h
  rw [← heq, deriveStateKey_count] at hcount
  exact Nat.lt_irrefl _ hcount

/-! ## The durable host -/

/-- The state of a tenant: `StateHost`, with the session of every call. -/
structure TenantStore where
  now : Nat
  entries : Entries
  writes : Nat
  calls : List (SessionKey × Call)

inductive TenantStep where
  | begin (key : SessionKey) (call : Call)
  | advance (i : Nat)
  | tick (elapsed : Nat)

/-- One store operation of one call, the start of a call, or time that passes. -/
def tenantStep (ttl : Option Nat) (s : TenantStore) : TenantStep → Option TenantStore
  | .begin key call =>
      if call.fresh s.writes then some { s with calls := s.calls ++ [(key, call)] } else none
  | .advance i => do
      let (key, call) ← s.calls[i]?
      let (h, call') ← call.advance key ttl ⟨s.now, s.entries, s.writes, []⟩
      return ⟨h.now, h.entries, h.writes, s.calls.set i (key, call')⟩
  | .tick elapsed => some { s with now := s.now + elapsed }

/-- A store in which nothing was written yet. -/
def TenantStore.start (now : Nat) : TenantStore := ⟨now, fun _ => none, 0, []⟩

/-- The store operations of a `get_json`, one after the other. -/
def GetPhase.finish (key : SessionKey) (ttl : Option Nat) (now : Nat) :
    Nat → Entries → GetPhase → GetPhase
  | 0, _, phase => phase
  | n + 1, st, phase =>
      match phase.advance key ttl now st with
      | none => phase
      | some (st', phase') => GetPhase.finish key ttl now n st' phase'

/-- What a `get_json` returns that nothing interrupts; it takes at most five operations. -/
def getJson (ttl : Option Nat) (now : Nat) (st : Entries) (key : SessionKey) : Option Json :=
  match GetPhase.finish key ttl now 5 st .current with
  | .done result => result.map Entry.value
  | _ => none

/-- The value under the current key, or else the one under the old key. -/
theorem getJson_eq (ttl : Option Nat) (now : Nat) (st : Entries) (key : SessionKey) :
    getJson ttl now st key = ((lookup st now (deriveStateKey key)).or
      ((legacyStateKey key).bind fun k => lookup st now k)).map Entry.value := by
  unfold getJson
  cases hcur : lookup st now (deriveStateKey key) with
  | some e => simp [GetPhase.finish, GetPhase.advance, hcur]
  | none =>
      cases hleg : legacyStateKey key with
      | none => simp [GetPhase.finish, GetPhase.advance, hcur, hleg]
      | some k =>
          cases hold : lookup st now k with
          | none => simp [GetPhase.finish, GetPhase.advance, hcur, hleg, hold]
          | some e => simp [GetPhase.finish, GetPhase.advance, hcur, hleg, hold]

/-- An operation of a call writes the current key of its session, or clears one of its keys. -/
theorem advance_entries {key : SessionKey} {ttl : Option Nat} {s s' : StateHost} {c c' : Call}
    (h : c.advance key ttl s = some (s', c')) (k : String) :
    s'.entries k = s.entries k ∨ k = deriveStateKey key ∨
      (s'.entries k = none ∧ legacyStateKey key = some k) := by
  have hupdate : ∀ (j : String) (e : Option Entry), Function.update s.entries j e k = s.entries k ∨
      (k = j ∧ Function.update s.entries j e k = e) := by
    intro j e
    by_cases hk : k = j
    · subst hk
      exact .inr ⟨rfl, Function.update_self ..⟩
    · exact .inl (Function.update_of_ne hk ..)
  have hcurrent : ∀ e : Option Entry,
      Function.update s.entries (deriveStateKey key) e k = s.entries k ∨ k = deriveStateKey key ∨
        (Function.update s.entries (deriveStateKey key) e k = none ∧ legacyStateKey key = some k) :=
    fun e => (hupdate _ e).imp_right fun h => .inl h.1
  have hlegacy : ∀ j, legacyStateKey key = some j →
      (Function.update s.entries j none k = s.entries k ∨ k = deriveStateKey key ∨
        (Function.update s.entries j none k = none ∧ legacyStateKey key = some k)) := by
    intro j hj
    refine (hupdate j none).imp_right fun h => .inr ⟨h.2, ?_⟩
    rw [hj, h.1]
  cases c with
  | get since phase =>
      obtain ⟨⟨st, phase'⟩, hp, heq⟩ := Option.map_eq_some_iff.mp h
      cases heq
      show st k = s.entries k ∨ _
      cases phase with
      | current =>
          dsimp only [GetPhase.advance] at hp
          split at hp
          next =>
            cases hp
            exact .inl rfl
          next =>
            split at hp <;> cases hp <;> exact .inl rfl
      | legacy =>
          obtain ⟨j, -, hj⟩ := Option.map_eq_some_iff.mp hp
          split at hj <;> cases hj <;> exact .inl rfl
      | ifAbsent e =>
          dsimp only [GetPhase.advance] at hp
          split at hp <;> cases hp
          · exact .inl rfl
          · exact hcurrent _
      | again e =>
          cases hp
          exact .inl rfl
      | cleanup e =>
          obtain ⟨j, hj, heq⟩ := Option.map_eq_some_iff.mp hp
          cases heq
          exact hlegacy j hj
      | done r => exact nomatch hp
  | set value done =>
      cases done with
      | true => exact nomatch h
      | false =>
          cases h
          exact hcurrent _
  | del legacyDeleted done =>
      cases done with
      | true => exact nomatch h
      | false =>
          dsimp only [Call.advance] at h
          split at h
          next _ j hj =>
            cases h
            exact hlegacy j hj
          next =>
            cases h
            exact hcurrent _

/-- Only current keys hold something. -/
def CurrentOnly (st : Entries) : Prop := ∀ k, st k ≠ none → ∃ key, k = deriveStateKey key

theorem CurrentOnly.legacy {st : Entries} (h : CurrentOnly st) {key : SessionKey} {k : String}
    (hk : legacyStateKey key = some k) : st k = none := by
  by_contra hne
  obtain ⟨other, hother⟩ := h k hne
  exact legacyStateKey_apart other hk hother.symm

/-- The parts of a step. -/
theorem tenantStep_advance {ttl : Option Nat} {s s' : TenantStore} {i : Nat}
    (h : tenantStep ttl s (.advance i) = some s') :
    ∃ key call h' call', s.calls[i]? = some (key, call) ∧
      call.advance key ttl ⟨s.now, s.entries, s.writes, []⟩ = some (h', call') ∧
      s' = ⟨h'.now, h'.entries, h'.writes, s.calls.set i (key, call')⟩ := by
  obtain ⟨⟨key, call⟩, hcall, hrest⟩ := Option.bind_eq_some_iff.mp h
  obtain ⟨⟨h', call'⟩, hadv, heq⟩ := Option.bind_eq_some_iff.mp hrest
  exact ⟨key, call, h', call', hcall, hadv, (Option.some.inj heq).symm⟩

/-- The tenant's store only ever holds current keys. -/
theorem CurrentOnly.reach {ttl : Option Nat} {now : Nat} {s : TenantStore}
    (h : Reach (tenantStep ttl) Any (TenantStore.start now) s) : CurrentOnly s.entries := by
  refine Reach.inv (I := fun s => CurrentOnly s.entries) (fun _ hne => absurd rfl hne) ?_ h
  intro s l s' hw _ hs
  cases l with
  | begin key call =>
      simp only [tenantStep] at hs
      split at hs
      next =>
        cases hs
        exact hw
      next => exact nomatch hs
  | tick elapsed =>
      cases hs
      exact hw
  | advance i =>
      obtain ⟨key, call, h', call', -, hadv, rfl⟩ := tenantStep_advance hs
      intro k hne
      rcases advance_entries hadv k with hsame | hcur | ⟨hnone, -⟩
      · exact hw k fun hnone => hne (hsame.trans hnone)
      · exact ⟨key, hcur⟩
      · exact absurd hnone hne

/-- A step of a call takes no time. -/
theorem advance_now {key : SessionKey} {ttl : Option Nat} {s s' : StateHost} {c c' : Call}
    (h : c.advance key ttl s = some (s', c')) : s'.now = s.now := by
  cases c with
  | get since phase =>
      obtain ⟨r, -, heq⟩ := Option.map_eq_some_iff.mp h
      cases heq
      rfl
  | set value done =>
      cases done with
      | true => exact nomatch h
      | false =>
          cases h
          rfl
  | del legacyDeleted done =>
      cases done with
      | true => exact nomatch h
      | false =>
          dsimp only [Call.advance] at h
          split at h <;> cases h <;> rfl

/-- **Two sessions apart in the durable store**: their keys differ, the key of the one is not the old key
    of the other, and over a store that only this code has written to no operation of a call on the one
    changes what a read of the other returns. -/
structure StoreApart (key key' : SessionKey) : Prop where
  current : deriveStateKey key ≠ deriveStateKey key'
  old : ∀ k, legacyStateKey key' = some k → deriveStateKey key ≠ k
  reads : ∀ (ttl : Option Nat) (now : Nat) (s s' : TenantStore) (i : Nat) (call : Call),
    Reach (tenantStep ttl) Any (TenantStore.start now) s → s.calls[i]? = some (key, call) →
      tenantStep ttl s (.advance i) = some s' →
        getJson ttl s'.now s'.entries key' = getJson ttl s.now s.entries key'

/-- Two keys of one tenant are apart in its store. -/
theorem StoreApart.of_ne {key key' : SessionKey} (htenant : key.tenantKey = key'.tenantKey)
    (hne : key ≠ key') : StoreApart key key' := by
  have hkeys : deriveStateKey key ≠ deriveStateKey key' := by
    intro h
    obtain ⟨hpack, hflow, hhint⟩ := deriveStateKey_inj h
    apply hne
    cases key
    cases key'
    simp_all
  refine ⟨hkeys, fun k hk => legacyStateKey_apart key hk, ?_⟩
  intro ttl now s s' i call hreach hcall hs
  obtain ⟨owner, call', h', call'', hcall', hadv, rfl⟩ := tenantStep_advance hs
  cases hcall.symm.trans hcall'
  have hw := CurrentOnly.reach hreach
  have hnow : h'.now = s.now := advance_now hadv
  rw [getJson_eq, getJson_eq]
  show (((lookup h'.entries h'.now _).or _).map _) = _
  rw [hnow]
  have hcurrent : h'.entries (deriveStateKey key') = s.entries (deriveStateKey key') := by
    rcases advance_entries hadv (deriveStateKey key') with hsame | hcur | ⟨-, hleg⟩
    · exact hsame
    · exact absurd hcur.symm hkeys
    · exact absurd rfl (legacyStateKey_apart key' hleg)
  have hold : ∀ k, legacyStateKey key' = some k → h'.entries k = s.entries k := by
    intro k hk
    rcases advance_entries hadv k with hsame | hcur | ⟨hnone, -⟩
    · exact hsame
    · exact absurd hcur.symm (legacyStateKey_apart key hk)
    · rw [hnone, hw.legacy hk]
  cases hleg : legacyStateKey key' with
  | none => simp only [lookup, hcurrent, Option.bind_none]
  | some k => simp only [lookup, hcurrent, hold k hleg, Option.bind_some]

/-! ## The in-memory host -/

/-- `InMemoryStateHost`. -/
abbrev InMemoryStateHost : Type := AssocMap String Json

namespace InMemoryStateHost

/-- `InMemoryStateHost::key_of`. -/
def keyOf (key : SessionKey) : String := key.tenantKey ++ ":" ++ key.packId ++ ":" ++ key.flowId

/-- `InMemoryStateHost::get_json`. -/
def getJson (store : InMemoryStateHost) (key : SessionKey) : Option Json := store.get? (keyOf key)

/-- `InMemoryStateHost::set_json`. -/
def setJson (store : InMemoryStateHost) (key : SessionKey) (value : Json) : InMemoryStateHost :=
  store.insert (keyOf key) value

/-- `InMemoryStateHost::del`. -/
def del (store : InMemoryStateHost) (key : SessionKey) : InMemoryStateHost := store.erase (keyOf key)

end InMemoryStateHost

/-- **Two sessions apart in the in-memory store.** -/
structure MapApart (key key' : SessionKey) : Prop where
  keys : InMemoryStateHost.keyOf key ≠ InMemoryStateHost.keyOf key'
  set : ∀ (store : InMemoryStateHost) (value : Json),
    (store.setJson key value).getJson key' = store.getJson key'
  del : ∀ store : InMemoryStateHost, (store.del key).getJson key' = store.getJson key'

/-- A colon of the one flow id is the colon that ends the other pack id. -/
def Shifted (key key' : SessionKey) : Prop :=
  ∃ w : String, key'.packId = key.packId ++ ":" ++ w ∧ key.flowId = w ++ ":" ++ key'.flowId

/-- The pack ids or the flow ids differ, and not only by where they are split. -/
structure Unmixed (key key' : SessionKey) : Prop where
  differs : key.packId ≠ key'.packId ∨ key.flowId ≠ key'.flowId
  left : ¬ Shifted key key'
  right : ¬ Shifted key' key

theorem colon_join (a b : String) : (a ++ ":" ++ b).toList = a.toList ++ ':' :: b.toList := by
  simp only [String.toList_append, List.append_assoc]
  rfl

theorem Shifted.of_lists {key key' : SessionKey} {w : List Char}
    (hpack : key'.packId.toList = key.packId.toList ++ ':' :: w)
    (hflow : key.flowId.toList = w ++ ':' :: key'.flowId.toList) : Shifted key key' := by
  refine ⟨String.ofList w, String.toList_inj.mp ?_, String.toList_inj.mp ?_⟩
  · rw [colon_join, String.toList_ofList]
    exact hpack
  · rw [colon_join, String.toList_ofList]
    exact hflow

/-- Shifted keys are one key of the map. -/
theorem Shifted.keyOf {key key' : SessionKey} (htenant : key.tenantKey = key'.tenantKey)
    (h : Shifted key key') : InMemoryStateHost.keyOf key = InMemoryStateHost.keyOf key' := by
  obtain ⟨w, hpack, hflow⟩ := h
  unfold InMemoryStateHost.keyOf
  rw [hpack, hflow, htenant]
  simp only [String.append_assoc]

/-- The sessions of a tenant that share a key. -/
theorem keyOf_eq_iff {key key' : SessionKey} (htenant : key.tenantKey = key'.tenantKey) :
    InMemoryStateHost.keyOf key = InMemoryStateHost.keyOf key' ↔ ¬ Unmixed key key' := by
  constructor
  · intro h hun
    unfold InMemoryStateHost.keyOf at h
    rw [htenant] at h
    have hlist := congrArg String.toList h
    rw [colon_join, colon_join, colon_join, colon_join, List.append_assoc, List.append_assoc] at hlist
    have hpair := List.tail_eq_of_cons_eq (List.append_cancel_left hlist)
    rcases join_eq_iff.mp hpair with ⟨hpack, hflow⟩ | ⟨w, hpack, hflow⟩ | ⟨w, hpack, hflow⟩
    · rcases hun.differs with hne | hne
      · exact hne (String.toList_inj.mp hpack)
      · exact hne (String.toList_inj.mp hflow)
    · exact hun.left (.of_lists hpack hflow)
    · exact hun.right (.of_lists hpack hflow)
  · intro hnot
    by_cases hleft : Shifted key key'
    · exact hleft.keyOf htenant
    · by_cases hright : Shifted key' key
      · exact (hright.keyOf htenant.symm).symm
      · by_cases hpack : key.packId = key'.packId
        · by_cases hflow : key.flowId = key'.flowId
          · unfold InMemoryStateHost.keyOf
            rw [htenant, hpack, hflow]
          · exact absurd ⟨.inr hflow, hleft, hright⟩ hnot
        · exact absurd ⟨.inl hpack, hleft, hright⟩ hnot

theorem MapApart.of_ne {key key' : SessionKey}
    (h : InMemoryStateHost.keyOf key ≠ InMemoryStateHost.keyOf key') : MapApart key key' where
  keys := h
  set store value := AssocMap.get?_insert_of_ne h.symm store value
  del store := AssocMap.get?_erase_of_ne h.symm store

/-- **THE DURABLE HOST KEEPS ALL SESSIONS OF A TENANT APART, THE IN-MEMORY ONE ONLY SOME**: in the durable
    store two sessions never meet, and in the in-memory one they are apart exactly when their pack ids or
    flow ids differ, and not only by where a colon splits the two. -/
theorem state_keys_isolate_iff {key key' : SessionKey} (htenant : key.tenantKey = key'.tenantKey)
    (hne : key ≠ key') : StoreApart key key' ∧ (MapApart key key' ↔ Unmixed key key') := by
  refine ⟨StoreApart.of_ne htenant hne, ?_, ?_⟩
  · intro h
    by_contra hmixed
    exact h.keys ((keyOf_eq_iff htenant).mpr hmixed)
  · intro h
    exact .of_ne fun heq => (keyOf_eq_iff htenant).mp heq h

/-- Two sessions of one flow. -/
def firstTalk : SessionKey := ⟨"local::acme", "shop", "main", some "u1"⟩

def secondTalk : SessionKey := ⟨"local::acme", "shop", "main", some "u2"⟩

theorem state_keys_isolate_iff_talks :
    StoreApart firstTalk secondTalk ∧ ¬ MapApart firstTalk secondTalk := by
  have htenant : firstTalk.tenantKey = secondTalk.tenantKey := rfl
  obtain ⟨hstore, hmap⟩ := state_keys_isolate_iff htenant (by decide)
  refine ⟨hstore, fun h => ?_⟩
  rcases (hmap.mp h).differs with hdiff | hdiff
  · exact hdiff rfl
  · exact hdiff rfl

/-- The two users read each other's state. -/
theorem talks_share_key :
    ¬ ∀ key key' : SessionKey, key.tenantKey = key'.tenantKey → key ≠ key' →
      InMemoryStateHost.keyOf key ≠ InMemoryStateHost.keyOf key' :=
  fun h => h firstTalk secondTalk rfl (by decide) rfl

end Greentic.Engine
