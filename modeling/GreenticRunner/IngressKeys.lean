import GreenticRunner.IngressModel
import GreenticRunner.KeyModel
import GreenticRunner.Segments
import GreenticRunner.TextCodec

/-! # Under which key a flow is parked

    `IngressEnvelope::canonicalize`, `build_store_ctx` and `FlowResumeStore` of
    `engine/runtime.rs`.

    * `SavedStore` — the stores built by saves and clears;
    * `fetched_isolated` — whose snapshot a fetch can return;
    * `derived_hint_named` — a hint that names the session another message derives. -/

namespace Greentic.Engine

open Segments TextCodec

/-! ## Envelopes -/

/-- `endpoint_id_is_valid`. -/
def endpointIdIsValid (raw : String) : Bool :=
  !raw.isEmpty && raw.utf8ByteSize ≤ 128 &&
    raw.toList.all fun c => Aw.isAsciiAlphanumeric c || c == '-' || c == '_' || c == '.'

namespace IngressEnvelope

/-- The first half of `canonicalize`: the defaults, and no invalid endpoint id. -/
def filled (e : IngressEnvelope) : IngressEnvelope :=
  let channel := e.channel.getD e.flowId
  { e with
    provider := some (e.provider.getD "provider")
    channel := some channel
    conversation := some (e.conversation.getD channel)
    user := some (e.user.getD (e.sessionHint.getD (e.activityId.getD "user")))
    messagingEndpointId := e.messagingEndpointId.filter endpointIdIsValid }

/-- The hint before the endpoint prefix. -/
def baseHint (e : IngressEnvelope) : String := e.sessionHint.getD e.filled.canonicalSessionHint

/-- The hint behind the endpoint prefix, which is not written twice. -/
def endpointHint (endpoint : Option String) (base : String) : String :=
  match endpoint with
  | some eid => if ("ep=" ++ eid ++ "::").toList <+: base.toList then base
      else "ep=" ++ eid ++ "::" ++ base
  | none => base

/-- `canonicalize`. -/
def canonicalize (e : IngressEnvelope) : IngressEnvelope :=
  { e.filled with
    sessionHint := some (endpointHint e.filled.messagingEndpointId e.baseHint)
    replyScope := some (e.replyScope.getD ⟨e.filled.conversation.getD "", none, none, none⟩) }

/-- The hint of the store: the session hint and the pack. -/
def storeHint (e : IngressEnvelope) : String :=
  let base := e.sessionHint.getD e.canonicalSessionHint
  match e.packId with
  | some pack => base ++ "::pack=" ++ pack
  | none => base

end IngressEnvelope

/-- `derive_user_id`: the first eight bytes of the digest. -/
def deriveUserId (sha256 : List UInt8 → List UInt8) (hint : String) : String :=
  "sess" ++ String.ofList (hexEncode ((sha256 hint.toUTF8.data.toList).take 8))

/-- What `build_store_ctx` returns. -/
structure StoreCtx where
  env : String
  tenant : String
  user : String
  hint : String
  scope : ReplyScope

/-- `build_store_ctx`. -/
def buildStoreCtx (ids : IdChecks) (sha256 : List UInt8 → List UInt8) (e : IngressEnvelope) :
    Except RunnerError StoreCtx :=
  match e.replyScope with
  | none => .error (.session
      "Cannot suspend: reply_scope missing; provider plugin must supply ReplyScope")
  | some scope =>
      match e.tenantCtx ids with
      | .error err => .error err
      | .ok ctx => .ok ⟨ctx.env, ctx.tenant, deriveUserId sha256 e.storeHint, e.storeHint, scope⟩

/-- `turn_key`. -/
def turnKey (ids : IdChecks) (sha256 : List UInt8 → List UInt8) (e : IngressEnvelope) :
    Except RunnerError String :=
  (buildStoreCtx ids sha256 e).map fun ctx => ctx.env ++ ":" ++ ctx.tenant ++ ":" ++ ctx.user

/-! ## Parked flows -/

/-- The part of a parked flow that the store reads. -/
structure FlowSnapshot where
  packId : String
  flowId : String
  nextFlow : Option String
  nextNode : String

/-- A parked flow, with the envelope it was saved under. -/
structure Parked where
  snapshot : FlowSnapshot
  envelope : IngressEnvelope

/-- The key of a wait. -/
structure WaitKey where
  env : String
  tenant : String
  user : String
  conversation : String
  thread : Option String
  replyTo : Option String
  deriving DecidableEq

/-- The key of a wait under the scope without its correlation. -/
def StoreCtx.key (ctx : StoreCtx) : WaitKey :=
  ⟨ctx.env, ctx.tenant, ctx.user, ctx.scope.conversation, ctx.scope.thread, ctx.scope.replyTo⟩

/-- The waits. -/
abbrev WaitStore : Type := WaitKey → Option Parked

/-- `FlowId::from_str` and `PackId::from_str` of the types crate: the error of an id that is
    not accepted. -/
structure RecordChecks where
  flow : String → Option String
  pack : String → Option String

section Store

variable (ids : IdChecks) (records : RecordChecks) (sha256 : List UInt8 → List UInt8)

/-- `FlowResumeStore::save`. -/
def save (st : WaitStore) (e : IngressEnvelope) (snapshot : FlowSnapshot) :
    Except RunnerError WaitStore := do
  let ctx ← buildStoreCtx ids sha256 e
  match records.flow snapshot.flowId with
  | some err => throw (.session err)
  | none =>
      match records.pack snapshot.packId with
      | some err => throw (.session err)
      | none => return Function.update st ctx.key (some ⟨snapshot, e⟩)

/-- `FlowResumeStore::fetch`. -/
def fetch (st : WaitStore) (e : IngressEnvelope) : Except RunnerError (Option Parked) := do
  let ctx ← buildStoreCtx ids sha256 e
  match st ctx.key with
  | none => return none
  | some parked =>
      match e.packId with
      | none => return some parked
      | some pack =>
          if parked.snapshot.packId = pack then return some parked
          else throw (.session
            s!"resume pack mismatch: expected {pack}, found {parked.snapshot.packId}")

/-- `FlowResumeStore::clear`. -/
def clear (st : WaitStore) (e : IngressEnvelope) : Except RunnerError WaitStore := do
  let ctx ← buildStoreCtx ids sha256 e
  return Function.update st ctx.key none

/-- The stores built by saves and clears.  A flow that runs for a message which names a pack
    is a flow of that pack. -/
inductive SavedStore : WaitStore → Prop where
  | empty : SavedStore fun _ => none
  | save {st st' : WaitStore} (h : SavedStore st) (e : IngressEnvelope) (snapshot : FlowSnapshot)
      (hp : ∀ pack, e.packId = some pack → snapshot.packId = pack)
      (hs : save ids records sha256 st e.canonicalize snapshot = .ok st') : SavedStore st'
  | clear {st st' : WaitStore} (h : SavedStore st) (e : IngressEnvelope)
      (hs : clear ids sha256 st e.canonicalize = .ok st') : SavedStore st'

end Store

/-! ## What an identity says -/

theorem buildStoreCtx_ok {ids : IdChecks} {sha256 : List UInt8 → List UInt8}
    {e : IngressEnvelope} {ctx : StoreCtx} (h : buildStoreCtx ids sha256 e = .ok ctx) :
    ctx.env = e.env.getD defaultEnv ∧ ctx.tenant = e.tenant ∧
      ctx.user = deriveUserId sha256 e.storeHint ∧ e.replyScope = some ctx.scope := by
  unfold buildStoreCtx at h
  split at h
  next => exact nomatch h
  next scope hscope =>
    split at h
    next => exact nomatch h
    next tctx htctx =>
      cases h
      unfold IngressEnvelope.tenantCtx at htctx
      dsimp only at htctx
      split at htctx
      next => exact nomatch htctx
      next =>
        split at htctx
        next => exact nomatch htctx
        next =>
          cases htctx
          exact ⟨rfl, rfl, rfl, hscope⟩

/-- What is stored under a key was saved under it. -/
theorem SavedStore.parked {ids : IdChecks} {records : RecordChecks}
    {sha256 : List UInt8 → List UInt8} {st : WaitStore} (h : SavedStore ids records sha256 st)
    {key : WaitKey} {parked : Parked} (hk : st key = some parked) :
    (∃ ctx, buildStoreCtx ids sha256 parked.envelope = .ok ctx ∧ ctx.key = key) ∧
      ∀ pack, parked.envelope.packId = some pack → parked.snapshot.packId = pack := by
  induction h generalizing key with
  | empty => exact nomatch hk
  | save _ e snapshot hp hs ih =>
      unfold Engine.save at hs
      cases hctx : buildStoreCtx ids sha256 e.canonicalize with
      | error err =>
          rw [hctx] at hs
          exact nomatch hs
      | ok ctx =>
          rw [hctx] at hs
          simp only [bind, Except.bind] at hs
          split at hs
          next => exact nomatch hs
          next =>
            split at hs
            next => exact nomatch hs
            next =>
              cases hs
              by_cases hkey : key = ctx.key
              · subst hkey
                rw [Function.update_self] at hk
                cases hk
                exact ⟨⟨ctx, hctx, rfl⟩, hp⟩
              · rw [Function.update_of_ne hkey] at hk
                exact ih hk
  | clear _ e hs ih =>
      unfold Engine.clear at hs
      cases hctx : buildStoreCtx ids sha256 e.canonicalize with
      | error err =>
          rw [hctx] at hs
          exact nomatch hs
      | ok ctx =>
          rw [hctx] at hs
          cases hs
          by_cases hkey : key = ctx.key
          · subst hkey
            rw [Function.update_self] at hk
            exact nomatch hk
          · rw [Function.update_of_ne hkey] at hk
            exact ih hk

theorem fetch_some {ids : IdChecks} {sha256 : List UInt8 → List UInt8} {st : WaitStore}
    {e : IngressEnvelope} {parked : Parked} (h : fetch ids sha256 st e = .ok (some parked)) :
    (∃ ctx, buildStoreCtx ids sha256 e = .ok ctx ∧ st ctx.key = some parked) ∧
      ∀ pack, e.packId = some pack → parked.snapshot.packId = pack := by
  unfold fetch at h
  cases hctx : buildStoreCtx ids sha256 e with
  | error err =>
      rw [hctx] at h
      exact nomatch h
  | ok ctx =>
      rw [hctx] at h
      simp only [bind, Except.bind] at h
      split at h
      next => exact nomatch h
      next found hfound =>
        split at h
        next hpack =>
          cases h
          exact ⟨⟨ctx, rfl, hfound⟩, fun pack hp => (nomatch hpack.symm.trans hp)⟩
        next pack hpack =>
          split at h
          next heq =>
            cases h
            refine ⟨⟨ctx, rfl, hfound⟩, ?_⟩
            intro pack' hp
            rw [hpack] at hp
            cases hp
            exact heq
          next => exact nomatch h

/-! ## When two identities are the same -/

namespace IngressEnvelope

/-- The hint of the canonical envelope. -/
def hint (e : IngressEnvelope) : String := endpointHint e.filled.messagingEndpointId e.baseHint

/-- The hint holds neither a marker of its own nor, where it is joined from fields, a
    separator in one of the fields before the last. -/
structure Separated (e : IngressEnvelope) : Prop where
  endpoint : ¬ "ep=".toList <+: e.baseHint.toList
  pack : ¬ "::pack=".toList <:+: e.hint.toList
  provider : e.sessionHint = none → ∀ s, e.filled.provider = some s → ':' ∉ s.toList
  channel : e.sessionHint = none → ∀ s, e.filled.channel = some s → ':' ∉ s.toList
  conversation : e.sessionHint = none → ∀ s, e.filled.conversation = some s → ':' ∉ s.toList

/-- Both messages carry one explicit hint, or both derive it from the same fields. -/
def SameConversation (e₁ e₂ : IngressEnvelope) : Prop :=
  (∃ hint, e₁.sessionHint = some hint ∧ e₂.sessionHint = some hint) ∨
  (e₁.sessionHint = none ∧ e₂.sessionHint = none ∧ e₁.filled.provider = e₂.filled.provider ∧
    e₁.filled.channel = e₂.filled.channel ∧ e₁.filled.conversation = e₂.filled.conversation ∧
    e₁.filled.user = e₂.filled.user)

/-- `e₁` carries explicitly the hint that `e₂` derives. -/
def Names (e₁ e₂ : IngressEnvelope) : Prop :=
  e₂.sessionHint = none ∧ e₁.sessionHint = some e₂.filled.canonicalSessionHint

theorem canonicalize_storeHint (e : IngressEnvelope) : e.canonicalize.storeHint.toList =
    e.hint.toList ++ (e.packId.elim [] fun pack => "::pack=".toList ++ pack.toList) := by
  have hpack : e.canonicalize.packId = e.packId := rfl
  have hhint : e.canonicalize.sessionHint = some e.hint := rfl
  rw [storeHint, hpack, hhint]
  cases e.packId with
  | none => exact (List.append_nil _).symm
  | some pack => simp

theorem endpoint_valid {e : IngressEnvelope} {eid : String}
    (h : e.filled.messagingEndpointId = some eid) : ':' ∉ eid.toList := by
  have hvalid : endpointIdIsValid eid = true := (Option.filter_eq_some_iff.mp h).2
  rw [endpointIdIsValid, Bool.and_eq_true, List.all_eq_true] at hvalid
  intro hc
  exact absurd (hvalid.2 ':' hc) (by decide)

/-- A hint with an endpoint starts with it. -/
theorem endpointHint_some (eid base : String) :
    ∃ rest, (endpointHint (some eid) base).toList = ("ep=".toList ++ eid.toList) ++ ':' :: rest := by
  rw [endpointHint]
  split
  next hp =>
    obtain ⟨t, ht⟩ := hp
    exact ⟨':' :: t, by rw [← ht]; simp⟩
  next => exact ⟨':' :: base.toList, by simp⟩

/-- A base without the prefix gets it. -/
theorem endpointHint_plain {base : String} (h : ¬ "ep=".toList <+: base.toList) (eid : String) :
    (endpointHint (some eid) base).toList = ("ep=".toList ++ eid.toList ++ "::".toList) ++ base.toList := by
  have hnot : ¬ ("ep=" ++ eid ++ "::").toList <+: base.toList := by
    intro hp
    refine h (List.IsPrefix.trans ?_ hp)
    exact ⟨eid.toList ++ "::".toList, by simp⟩
  rw [endpointHint, if_neg hnot]
  simp

theorem endpointHint_eq_of_some {e₁ e₂ : IngressEnvelope} {a b : String} {x y : List Char}
    (ha : e₁.filled.messagingEndpointId = some a) (hb : e₂.filled.messagingEndpointId = some b)
    (h : e₁.hint.toList ++ x = e₂.hint.toList ++ y) : a = b := by
  obtain ⟨r₁, h₁⟩ := endpointHint_some a e₁.baseHint
  obtain ⟨r₂, h₂⟩ := endpointHint_some b e₂.baseHint
  rw [hint, hint, ha, hb, h₁, h₂] at h
  have hjoin : ("ep=".toList ++ a.toList) ++ ':' :: (r₁ ++ x)
      = ("ep=".toList ++ b.toList) ++ ':' :: (r₂ ++ y) := by
    simpa using h
  have hsep {eid : String} (hv : ':' ∉ eid.toList) : ':' ∉ "ep=".toList ++ eid.toList := by
    simpa using hv
  have heq := (first_inj (hsep (endpoint_valid ha)) (hsep (endpoint_valid hb)) hjoin).1
  exact String.toList_inj.mp (List.append_cancel_left heq)

/-- The four fields of a derived hint, in order. -/
theorem canonicalSessionHint_toList (e : IngressEnvelope) :
    ∃ p c v u, e.filled.provider = some p ∧ e.filled.channel = some c ∧
      e.filled.conversation = some v ∧ e.filled.user = some u ∧
      e.filled.canonicalSessionHint.toList = e.tenant.toList ++ ':' :: (p.toList ++ ':' ::
        (c.toList ++ ':' :: (v.toList ++ ':' :: u.toList))) := by
  refine ⟨_, _, _, _, rfl, rfl, rfl, rfl, ?_⟩
  simp [canonicalSessionHint, filled, toString]

/-- Two derived hints of one tenant whose fields have no separator. -/
theorem derived_same {e₁ e₂ : IngressEnvelope} (hs₁ : Separated e₁) (hs₂ : Separated e₂)
    (h₁ : e₁.sessionHint = none) (h₂ : e₂.sessionHint = none) (ht : e₁.tenant = e₂.tenant)
    (h : e₁.filled.canonicalSessionHint = e₂.filled.canonicalSessionHint) :
    SameConversation e₁ e₂ := by
  obtain ⟨p₁, c₁, v₁, u₁, hp₁, hc₁, hv₁, hu₁, heq₁⟩ := canonicalSessionHint_toList e₁
  obtain ⟨p₂, c₂, v₂, u₂, hp₂, hc₂, hv₂, hu₂, heq₂⟩ := canonicalSessionHint_toList e₂
  have hlist := congrArg String.toList h
  rw [heq₁, heq₂, ht] at hlist
  have hrest := List.tail_eq_of_cons_eq (List.append_cancel_left hlist)
  obtain ⟨hp, hrest⟩ := first_inj (hs₁.provider h₁ p₁ hp₁) (hs₂.provider h₂ p₂ hp₂) hrest
  obtain ⟨hc, hrest⟩ := first_inj (hs₁.channel h₁ c₁ hc₁) (hs₂.channel h₂ c₂ hc₂) hrest
  obtain ⟨hv, hu⟩ := first_inj (hs₁.conversation h₁ v₁ hv₁) (hs₂.conversation h₂ v₂ hv₂) hrest
  refine .inr ⟨h₁, h₂, ?_, ?_, ?_, ?_⟩
  · rw [hp₁, hp₂, String.toList_inj.mp hp]
  · rw [hc₁, hc₂, String.toList_inj.mp hc]
  · rw [hv₁, hv₂, String.toList_inj.mp hv]
  · rw [hu₁, hu₂, String.toList_inj.mp hu]

/-- Equal hints before the prefix. -/
theorem base_same {e₁ e₂ : IngressEnvelope} (hs₁ : Separated e₁) (hs₂ : Separated e₂)
    (ht : e₁.tenant = e₂.tenant) (h : e₁.baseHint = e₂.baseHint) :
    SameConversation e₁ e₂ ∨ Names e₁ e₂ ∨ Names e₂ e₁ := by
  rw [baseHint, baseHint] at h
  cases h₁ : e₁.sessionHint with
  | some hint =>
      rw [h₁] at h
      cases h₂ : e₂.sessionHint with
      | some hint' =>
          rw [h₂] at h
          exact .inl (.inl ⟨hint, h₁, h₂.trans (congrArg some h.symm)⟩)
      | none =>
          rw [h₂] at h
          exact .inr (.inl ⟨h₂, h₁.trans (congrArg some h)⟩)
  | none =>
      rw [h₁] at h
      cases h₂ : e₂.sessionHint with
      | some hint' =>
          rw [h₂] at h
          exact .inr (.inr ⟨h₁, h₂.trans (congrArg some h.symm)⟩)
      | none =>
          rw [h₂] at h
          exact .inl (derived_same hs₁ hs₂ h₁ h₂ ht h)

/-- Equal hints of separated messages come from equal endpoints and equal bases. -/
theorem hint_same {e₁ e₂ : IngressEnvelope} (hs₁ : Separated e₁) (hs₂ : Separated e₂)
    (h : e₁.hint = e₂.hint) :
    e₁.filled.messagingEndpointId = e₂.filled.messagingEndpointId ∧ e₁.baseHint = e₂.baseHint := by
  have hnot {e e' : IngressEnvelope} {a : String} (hs : Separated e')
      (ha : e.filled.messagingEndpointId = some a) (hn : e'.filled.messagingEndpointId = none)
      (h : e.hint = e'.hint) : False := by
    obtain ⟨r, hr⟩ := endpointHint_some a e.baseHint
    have hbase : e'.hint = e'.baseHint := by rw [hint, hn]; rfl
    rw [hint, ha, hbase] at h
    refine hs.endpoint ?_
    rw [← h, hr, List.append_assoc]
    exact List.prefix_append ..
  cases h₁ : e₁.filled.messagingEndpointId with
  | none =>
      cases h₂ : e₂.filled.messagingEndpointId with
      | none =>
          rw [hint, hint, h₁, h₂] at h
          exact ⟨rfl, h⟩
      | some b => exact (hnot hs₁ h₂ h₁ h.symm).elim
  | some a =>
      cases h₂ : e₂.filled.messagingEndpointId with
      | none => exact (hnot hs₂ h₁ h₂ h).elim
      | some b =>
          have hab : a = b :=
            endpointHint_eq_of_some (x := []) (y := []) h₁ h₂ (by rw [h])
          subst hab
          have hlist := congrArg String.toList h
          rw [hint, hint, h₁, h₂, endpointHint_plain hs₁.endpoint,
            endpointHint_plain hs₂.endpoint] at hlist
          exact ⟨rfl, String.toList_inj.mp (List.append_cancel_left hlist)⟩

/-- Equal store hints of separated messages.  Packs that both name are assumed equal: the
    fetch compares them. -/
theorem storeHint_same {e₁ e₂ : IngressEnvelope} (hs₁ : Separated e₁) (hs₂ : Separated e₂)
    (hpacks : ∀ p q, e₁.packId = some p → e₂.packId = some q → p = q)
    (h : e₁.canonicalize.storeHint = e₂.canonicalize.storeHint) :
    e₁.packId = e₂.packId ∧ e₁.hint = e₂.hint := by
  have hlist := congrArg String.toList h
  rw [canonicalize_storeHint, canonicalize_storeHint] at hlist
  cases h₁ : e₁.packId with
  | none =>
      rw [h₁] at hlist
      cases h₂ : e₂.packId with
      | none =>
          rw [h₂] at hlist
          exact ⟨rfl, String.toList_inj.mp (by simpa using hlist)⟩
      | some q =>
          -- the first hint would hold the marker of the second pack
          rw [h₂] at hlist
          refine absurd ⟨e₂.hint.toList, q.toList, ?_⟩ hs₁.pack
          simpa using hlist.symm
  | some p =>
      rw [h₁] at hlist
      cases h₂ : e₂.packId with
      | none =>
          rw [h₂] at hlist
          refine absurd ⟨e₁.hint.toList, p.toList, ?_⟩ hs₂.pack
          simpa using hlist
      | some q =>
          rw [h₂, hpacks p q h₁ h₂] at hlist
          exact ⟨congrArg some (hpacks p q h₁ h₂),
            String.toList_inj.mp (List.append_cancel_right hlist)⟩

/-- Two messages of one conversation of one pack of one endpoint. -/
structure Isolated (e₁ e₂ : IngressEnvelope) : Prop where
  tenant : e₁.tenant = e₂.tenant
  env : e₁.env.getD defaultEnv = e₂.env.getD defaultEnv
  pack : e₁.packId = e₂.packId
  endpoint : e₁.filled.messagingEndpointId = e₂.filled.messagingEndpointId
  conversation : SameConversation e₁ e₂

end IngressEnvelope

/-! ## Isolation -/

section Isolation

variable {ids : IdChecks} {records : RecordChecks} {sha256 : List UInt8 → List UInt8}
  {st : WaitStore} {e₁ e₂ : IngressEnvelope} {parked : Parked}

/-- Two messages share a wait under one environment and one tenant, under user ids of
    the same text. -/
theorem fetch_same (hst : SavedStore ids records sha256 st)
    (hf : fetch ids sha256 st e₂.canonicalize = .ok (some parked))
    (he : parked.envelope = e₁.canonicalize) :
    e₁.tenant = e₂.tenant ∧ e₁.env.getD defaultEnv = e₂.env.getD defaultEnv ∧
      deriveUserId sha256 e₁.canonicalize.storeHint
        = deriveUserId sha256 e₂.canonicalize.storeHint ∧
      ∀ p q, e₁.packId = some p → e₂.packId = some q → p = q := by
  obtain ⟨⟨ctx₂, hctx₂, hkey⟩, hpack₂⟩ := fetch_some hf
  obtain ⟨⟨ctx₁, hctx₁, hsame⟩, hpack₁⟩ := hst.parked hkey
  rw [he] at hctx₁ hpack₁
  obtain ⟨henv₁, htenant₁, huser₁, -⟩ := buildStoreCtx_ok hctx₁
  obtain ⟨henv₂, htenant₂, huser₂, -⟩ := buildStoreCtx_ok hctx₂
  have htenant : ctx₁.tenant = ctx₂.tenant := congrArg WaitKey.tenant hsame
  have henv : ctx₁.env = ctx₂.env := congrArg WaitKey.env hsame
  have huser : ctx₁.user = ctx₂.user := congrArg WaitKey.user hsame
  rw [htenant₁, htenant₂] at htenant
  rw [henv₁, henv₂] at henv
  rw [huser₁, huser₂] at huser
  refine ⟨htenant, henv, huser, ?_⟩
  intro p q hp hq
  exact (hpack₁ p hp).symm.trans (hpack₂ q hq)

/-- A fetched snapshot was parked in the same environment, by the same tenant, and, where
    both messages name one, by the same pack and endpoint.  For messages whose strings hold
    no separator, pack and endpoint are the same also where one message names none, and the
    conversation is the same, unless one message names explicitly the session that the other
    one derives. -/
theorem fetched_isolated (hst : SavedStore ids records sha256 st)
    (hf : fetch ids sha256 st e₂.canonicalize = .ok (some parked))
    (he : parked.envelope = e₁.canonicalize)
    (hsha : deriveUserId sha256 e₁.canonicalize.storeHint
        = deriveUserId sha256 e₂.canonicalize.storeHint →
      e₁.canonicalize.storeHint = e₂.canonicalize.storeHint) :
    e₁.tenant = e₂.tenant ∧ e₁.env.getD defaultEnv = e₂.env.getD defaultEnv ∧
      (∀ p q, e₁.packId = some p → e₂.packId = some q → p = q) ∧
      (∀ a b, e₁.filled.messagingEndpointId = some a →
        e₂.filled.messagingEndpointId = some b → a = b) ∧
      (e₁.Separated → e₂.Separated →
        e₁.Isolated e₂ ∨ (e₁.packId = e₂.packId ∧
          e₁.filled.messagingEndpointId = e₂.filled.messagingEndpointId ∧
          (e₁.Names e₂ ∨ e₂.Names e₁))) := by
  obtain ⟨htenant, henv, huser, hpacks⟩ := fetch_same hst hf he
  have hhint := hsha huser
  refine ⟨htenant, henv, hpacks, ?_, ?_⟩
  · intro a b ha hb
    have hlist := congrArg String.toList hhint
    rw [IngressEnvelope.canonicalize_storeHint, IngressEnvelope.canonicalize_storeHint] at hlist
    exact IngressEnvelope.endpointHint_eq_of_some ha hb hlist
  · intro hs₁ hs₂
    obtain ⟨hpack, hsame⟩ := IngressEnvelope.storeHint_same hs₁ hs₂ hpacks hhint
    obtain ⟨hendpoint, hbase⟩ := IngressEnvelope.hint_same hs₁ hs₂ hsame
    rcases IngressEnvelope.base_same hs₁ hs₂ htenant hbase with hconv | hnames
    · exact .inl ⟨htenant, henv, hpack, hendpoint, hconv⟩
    · exact .inr ⟨hpack, hendpoint, hnames⟩

end Isolation

/-- Every id is accepted. -/
def openIds : IdChecks := ⟨fun _ => none, fun _ => none⟩

def openRecords : RecordChecks := ⟨fun _ => none, fun _ => none⟩

/-- A message of a chat, without a hint of its own. -/
def parkedMessage : IngressEnvelope where
  tenant := "acme"
  env := none
  packId := some "weather"
  flowId := "main"
  flowType := none
  action := none
  sessionHint := none
  provider := some "telegram"
  messagingEndpointId := none
  channel := some "c1"
  conversation := some "c1"
  user := some "u7"
  entryNode := none
  activityId := none
  timestamp := none
  payload := .null
  metadata := none
  replyScope := none

/-- SHA-256 on the store hint of the chat. -/
def parkedDigest (bytes : List UInt8) : List UInt8 :=
  if bytes = "acme:telegram:c1:c1:u7::pack=weather".toUTF8.data.toList then [
    207, 115, 180, 251, 67, 130, 42, 65, 175, 121, 22, 149, 195, 27, 184, 82,
    72, 254, 60, 164, 58, 179, 192, 160, 21, 197, 40, 40, 27, 206, 218, 25]
  else []

def parkedFlow : Parked := ⟨⟨"weather", "main", none, "ask"⟩, parkedMessage.canonicalize⟩

/-- The store in which the chat is parked. -/
def parkedStore : WaitStore :=
  Function.update (fun _ => none)
    ⟨"local", "acme", deriveUserId parkedDigest parkedMessage.canonicalize.storeHint, "c1", none, none⟩
    (some parkedFlow)

theorem parkedStore_stored : SavedStore openIds openRecords parkedDigest parkedStore := by
  refine .save .empty parkedMessage ⟨"weather", "main", none, "ask"⟩ ?_ rfl
  intro pack hp
  exact Option.some.inj hp

/-- The store returns the parked flow to a message with the same store hint and scope. -/
theorem parkedStore_fetch {e : IngressEnvelope} {ctx : StoreCtx}
    (hctx : buildStoreCtx openIds parkedDigest e = .ok ctx)
    (hkey : ctx.key = ⟨"local", "acme",
      deriveUserId parkedDigest parkedMessage.canonicalize.storeHint, "c1", none, none⟩)
    (hp : e.packId = some "weather") :
    fetch openIds parkedDigest parkedStore e = .ok (some parkedFlow) := by
  have hfound : parkedStore ctx.key = some parkedFlow := by
    rw [hkey]
    exact Function.update_self ..
  unfold fetch
  rw [hctx, hp]
  simp only [bind, Except.bind, hfound]
  rfl

/-- The next message of the chat. -/
def nextMessage : IngressEnvelope := { parkedMessage with payload := .str "and tomorrow?" }

theorem chat_separated : parkedMessage.Separated ∧ nextMessage.Separated := by
  have hcolon (s : String) (t : String) (hs : ':' ∉ s.toList) (h : some s = some t) :
      ':' ∉ t.toList := Option.some.inj h ▸ hs
  constructor
  · refine ⟨by decide +kernel, by decide +kernel, fun _ => ?_, fun _ => ?_, fun _ => ?_⟩
    · exact fun t => hcolon "telegram" t (by decide +kernel)
    · exact fun t => hcolon "c1" t (by decide +kernel)
    · exact fun t => hcolon "c1" t (by decide +kernel)
  · refine ⟨by decide +kernel, by decide +kernel, fun _ => ?_, fun _ => ?_, fun _ => ?_⟩
    · exact fun t => hcolon "telegram" t (by decide +kernel)
    · exact fun t => hcolon "c1" t (by decide +kernel)
    · exact fun t => hcolon "c1" t (by decide +kernel)

theorem fetched_isolated_chat :
    fetch openIds parkedDigest parkedStore nextMessage.canonicalize = .ok (some parkedFlow) ∧
      parkedMessage.Isolated nextMessage := by
  have hf : fetch openIds parkedDigest parkedStore nextMessage.canonicalize = .ok (some parkedFlow) :=
    parkedStore_fetch (e := nextMessage.canonicalize) rfl rfl rfl
  have henv : parkedFlow.envelope = parkedMessage.canonicalize := rfl
  obtain ⟨-, -, -, -, hsep⟩ := fetched_isolated parkedStore_stored hf henv (fun _ => rfl)
  refine ⟨hf, ?_⟩
  rcases hsep chat_separated.1 chat_separated.2 with h | ⟨-, -, h | h⟩
  · exact h
  · exact nomatch h.2
  · exact nomatch h.2

/-- A message that carries the session of the chat as an explicit hint, as the resumer's
    messages do. -/
def namedMessage : IngressEnvelope :=
  { parkedMessage with sessionHint := some "acme:telegram:c1:c1:u7" }

/-- An explicit hint reaches a flow parked under a derived one. -/
theorem derived_hint_named :
    SavedStore openIds openRecords parkedDigest parkedStore ∧
      fetch openIds parkedDigest parkedStore namedMessage.canonicalize = .ok (some parkedFlow) ∧
      parkedFlow.envelope = parkedMessage.canonicalize ∧
      parkedMessage.canonicalize.storeHint = namedMessage.canonicalize.storeHint ∧
      ¬ parkedMessage.Isolated namedMessage := by
  have hhint : parkedMessage.canonicalize.storeHint = namedMessage.canonicalize.storeHint := by
    decide +kernel
  refine ⟨parkedStore_stored, ?_, rfl, hhint, ?_⟩
  · refine parkedStore_fetch (e := namedMessage.canonicalize) rfl ?_ rfl
    rw [hhint]
    rfl
  · intro h
    rcases h.conversation with ⟨hint, h₁, -⟩ | ⟨-, h₂, -⟩
    · exact nomatch h₁
    · exact nomatch h₂

end Greentic.Engine
