import GreenticRunner.AgentModel
import GreenticRunner.Memo
import GreenticRunner.Segments

/-! # Calls of a tool session

    A tool session dispatches the calls of an external loop over the ledger of the agent loop.  The
    loop files a result under the call id AND A DIGEST of what was asked, and never files a failure
    report; the session files every result under the call id as it is.

    * `Idempotent` — the session gives the idempotency of the loop;
    * `idempotent_iff` — when it does: NO CALL ID IS REUSED for anything else, or after a failure
      report. -/

namespace Greentic.Aw

open Resumption Memo Segments

/-- The entries of a ledger, by their ids. -/
abbrev LedgerMap : Type := String → Option Json

/-! ## One call -/

/-- A session with a session id: what its codec decodes, and the tools of its agent. -/
structure ToolSession where
  decode : String → String × String
  allowed : List ToolRef

/-- A call; `outcome` is what its dispatch gives, if it is dispatched. -/
structure SessionCall where
  callId : String
  wireName : String
  args : Json
  outcome : Except AgentError Json

/-- What a call is answered with. -/
inductive CallReply where
  | notAllowed
  | recorded (result : Json)
  | dispatched (outcome : Except AgentError Json)

/-- The call as it is dispatched. -/
def ToolSession.record (s : ToolSession) (c : SessionCall) : ToolCallRecord :=
  ⟨c.callId, (s.decode c.wireName).1, (s.decode c.wireName).2, c.args⟩

def ToolSession.allows (s : ToolSession) (c : SessionCall) : Bool := isToolAllowed (s.record c) s.allowed

/-- `call_with_id`. -/
def ToolSession.callWithId (s : ToolSession) (ledger : LedgerMap) (c : SessionCall) :
    CallReply × LedgerMap :=
  if !s.allows c then (.notAllowed, ledger)
  else
    match ledger c.callId with
    | some cached => (.recorded cached, ledger)
    | none =>
        match c.outcome with
        | .error e => (.dispatched (.error e), ledger)
        | .ok result => (.dispatched (.ok result), Function.update ledger c.callId (some result))

/-- A call of `run_step_scoped`. -/
def stepCall (rt : AgentRuntime) (s : ToolSession) (ledger : LedgerMap) (c : SessionCall) :
    CallReply × LedgerMap :=
  let ledgerId := rt.ledgerCallId (s.record c)
  if !s.allows c then (.notAllowed, ledger)
  else
    match (ledger ledgerId).filter (!isErrorResult ·) with
    | some cached => (.recorded cached, ledger)
    | none =>
        match c.outcome with
        | .error e => (.dispatched (.error e), ledger)
        | .ok result =>
            (.dispatched (.ok result),
              if isErrorResult result then ledger else Function.update ledger ledgerId (some result))

/-- The answers to a list of calls, over a ledger. -/
def repliesOf (call : LedgerMap → SessionCall → CallReply × LedgerMap) (ledger : LedgerMap) :
    List SessionCall → List CallReply
  | [] => []
  | c :: rest => (call ledger c).1 :: repliesOf call (call ledger c).2 rest

/-- The ledger after a list of calls of the session. -/
def ToolSession.ledgerAfter (s : ToolSession) (calls : List SessionCall) : LedgerMap :=
  calls.foldl (fun ledger c => (s.callWithId ledger c).2) fun _ => none

/-- What a call is answered with after others. -/
def ToolSession.replyAfter (s : ToolSession) (pre : List SessionCall) (c : SessionCall) : CallReply :=
  (s.callWithId (s.ledgerAfter pre) c).1

/-! ## The idempotency of the loop -/

/-- **THE IDEMPOTENCY OF THE AGENT LOOP**: what is answered without a dispatch is what an earlier call for
    the same gave, no failure report is served, and the ledger answers where that of the loop does. -/
structure Idempotent (rt : AgentRuntime) (s : ToolSession) (calls : List SessionCall) : Prop where
  same : ∀ pre c post v, calls = pre ++ c :: post → s.replyAfter pre c = .recorded v →
    ∃ as d bs, pre = as ++ d :: bs ∧ s.record d = s.record c ∧
      s.replyAfter as d = .dispatched (.ok v)
  retried : ∀ pre c post v, calls = pre ++ c :: post → s.replyAfter pre c = .recorded v →
    isErrorResult v = false
  asLoop : repliesOf s.callWithId (fun _ => none) calls = repliesOf (stepCall rt s) (fun _ => none) calls

/-- The first allowed call with an id whose dispatch succeeded. -/
def ToolSession.firstAnswered (s : ToolSession) (calls : List SessionCall) (callId : String) :
    Option SessionCall :=
  calls.find? fun d => s.allows d && d.callId == callId && d.outcome.toOption.isSome

/-- **CALL IDS ARE REUSED FOR RETRIES ONLY**: the first call of an id that succeeded asked for the same
    tool with the same arguments as every later one, and did not report a failure. -/
def RetriesOnly (s : ToolSession) (calls : List SessionCall) : Prop :=
  ∀ pre c post, calls = pre ++ c :: post → s.allows c = true →
    ∀ d, s.firstAnswered pre c.callId = some d →
      s.record d = s.record c ∧ ∀ v, d.outcome = .ok v → isErrorResult v = false

/-- The digest that a ledger id ends in. -/
def AgentRuntime.askDigest (rt : AgentRuntime) (call : ToolCallRecord) : String :=
  String.join (((rt.sha256 (call.extensionId.toUTF8.toList ++ [0x1f] ++
    call.toolName.toUTF8.toList ++ [0x1f] ++ call.args.render.toUTF8.toList)).take 8).map hexByte)

/-- The digests of different requests differ. -/
def DigestsApart (rt : AgentRuntime) (s : ToolSession) (calls : List SessionCall) : Prop :=
  ∀ c ∈ calls, ∀ d ∈ calls, rt.askDigest (s.record c) = rt.askDigest (s.record d) →
    (s.record c).extensionId = (s.record d).extensionId ∧ (s.record c).toolName = (s.record d).toolName ∧
      c.args = d.args

theorem hexByte_noColon (b : UInt8) : ':' ∉ (hexByte b).toList := by
  have hdigit : ∀ n < 16, Json.hexDigit n ≠ ':' := by decide
  have hb : b.toNat < 256 := b.toNat_lt
  rw [hexByte, String.toList_ofList]
  simp only [List.mem_cons, List.not_mem_nil, or_false, not_or]
  exact ⟨(hdigit _ (by omega)).symm, (hdigit _ (by omega)).symm⟩

theorem join_noColon (bytes : List UInt8) : ':' ∉ (String.join (bytes.map hexByte)).toList := by
  induction bytes with
  | nil => simp
  | cons b rest ih =>
      rw [List.map_cons, String.join_cons, String.toList_append, List.mem_append, not_or]
      exact ⟨hexByte_noColon b, ih⟩

theorem ledgerCallId_toList (rt : AgentRuntime) (call : ToolCallRecord) :
    (rt.ledgerCallId call).toList = call.callId.toList ++ ':' :: (rt.askDigest call).toList := by
  rw [AgentRuntime.ledgerCallId, AgentRuntime.askDigest]
  simp [toString]

/-- A ledger id gives the call id and the digest. -/
theorem ledgerCallId_inj {rt : AgentRuntime} {c d : ToolCallRecord}
    (h : rt.ledgerCallId c = rt.ledgerCallId d) :
    c.callId = d.callId ∧ rt.askDigest c = rt.askDigest d := by
  have htext := congrArg String.toList h
  rw [ledgerCallId_toList, ledgerCallId_toList] at htext
  obtain ⟨hid, hdigest⟩ := last_inj (join_noColon _) (join_noColon _) htext
  exact ⟨String.toList_inj.mp hid, String.toList_inj.mp hdigest⟩

/-! ## Both as memos -/

/-- The session: every result, under the call id. -/
def sessionPolicy (s : ToolSession) : Policy SessionCall String Json where
  key := fun c => if s.allows c then some c.callId else none
  keeps := fun c => c.outcome.toOption

/-- The loop: the results that report no failure, under the ledger id. -/
def stepPolicy (rt : AgentRuntime) (s : ToolSession) : Policy SessionCall String Json where
  key := fun c => if s.allows c then some (rt.ledgerCallId (s.record c)) else none
  keeps := fun c => c.outcome.toOption.filter (!isErrorResult ·)

/-- The reply to a call that was served so. -/
def replyOf (s : ToolSession) (c : SessionCall) (served : Option Json) : CallReply :=
  if !s.allows c then .notAllowed
  else
    match served with
    | some v => .recorded v
    | none => .dispatched c.outcome

/-- A call by its id is served by the session's policy. -/
theorem callWithId_eq (s : ToolSession) (m : LedgerMap) (c : SessionCall) :
    s.callWithId m c = (replyOf s c (serve (sessionPolicy s) m c).1, (serve (sessionPolicy s) m c).2) := by
  unfold ToolSession.callWithId replyOf serve
  cases ha : s.allows c with
  | false => simp [sessionPolicy, ha]
  | true =>
      simp only [sessionPolicy, ha, Bool.not_true, Bool.false_eq_true, ↓reduceIte]
      cases hm : m c.callId with
      | some v => rfl
      | none => cases c.outcome <;> rfl

/-- A ledger without failure reports. -/
def ReportFree (m : LedgerMap) : Prop := ∀ k v, m k = some v → isErrorResult v = false

/-- A call of a step is served by the step's. -/
theorem stepCall_eq (rt : AgentRuntime) (s : ToolSession) {m : LedgerMap} (hm : ReportFree m)
    (c : SessionCall) :
    stepCall rt s m c = (replyOf s c (serve (stepPolicy rt s) m c).1, (serve (stepPolicy rt s) m c).2) := by
  unfold stepCall replyOf serve
  cases ha : s.allows c with
  | false => simp [stepPolicy, ha]
  | true =>
      simp only [stepPolicy, ha, Bool.not_true, Bool.false_eq_true, ↓reduceIte]
      cases hv : m (rt.ledgerCallId (s.record c)) with
      | some v => simp [Option.filter, hm _ _ hv]
      | none =>
          cases c.outcome with
          | error e => rfl
          | ok result => cases h : isErrorResult result <;> simp [Except.toOption, Option.filter, h]

theorem ReportFree.serve {rt : AgentRuntime} {s : ToolSession} {m : LedgerMap} (hm : ReportFree m)
    (c : SessionCall) : ReportFree (serve (stepPolicy rt s) m c).2 := by
  intro k v hv
  unfold Memo.serve at hv
  cases hkey : (stepPolicy rt s).key c with
  | none =>
      rw [hkey] at hv
      exact hm k v hv
  | some j =>
      rw [hkey] at hv
      dsimp only at hv
      cases hj : m j with
      | some r =>
          rw [hj] at hv
          exact hm k v hv
      | none =>
          rw [hj] at hv
          dsimp only at hv
          cases hr : (stepPolicy rt s).keeps c with
          | none =>
              rw [hr] at hv
              exact hm k v hv
          | some r =>
              rw [hr] at hv
              dsimp only at hv
              by_cases hk : k = j
              · rw [hk, Function.update_self] at hv
                cases hv
                simpa using (Option.filter_eq_some_iff.mp hr).2
              · rw [Function.update_of_ne hk] at hv
                exact hm k v hv

/-- The replies tell what the calls were served with. -/
theorem replies_eq_iff (rt : AgentRuntime) (s : ToolSession) (calls : List SessionCall) :
    ∀ (m n : LedgerMap), ReportFree n →
      (repliesOf s.callWithId m calls = repliesOf (stepCall rt s) n calls ↔
        served (sessionPolicy s) m calls = served (stepPolicy rt s) n calls) := by
  induction calls with
  | nil => exact fun m n hn => ⟨fun _ => rfl, fun _ => rfl⟩
  | cons c rest ih =>
      intro m n hn
      have hhead : replyOf s c (serve (sessionPolicy s) m c).1 =
            replyOf s c (serve (stepPolicy rt s) n c).1 ↔
          (serve (sessionPolicy s) m c).1 = (serve (stepPolicy rt s) n c).1 := by
        refine ⟨fun h => ?_, fun h => by rw [h]⟩
        cases ha : s.allows c with
        | false => simp [serve_fst, sessionPolicy, stepPolicy, ha]
        | true =>
            simp only [replyOf, ha, Bool.not_true, Bool.false_eq_true, ↓reduceIte] at h
            cases h₁ : (serve (sessionPolicy s) m c).1 <;>
              cases h₂ : (serve (stepPolicy rt s) n c).1 <;> simp_all
      rw [repliesOf, repliesOf, served, served, List.cons.injEq, List.cons.injEq, callWithId_eq,
        stepCall_eq rt s hn, hhead, ih _ _ (hn.serve c)]

/-- The ledger after all calls. -/
theorem ledgerAfter_eq (s : ToolSession) (calls : List SessionCall) :
    s.ledgerAfter calls = store (sessionPolicy s) calls := by
  have hstep : (fun (ledger : LedgerMap) c => (s.callWithId ledger c).2) =
      fun m c => (serve (sessionPolicy s) m c).2 := by
    funext m c
    rw [callWithId_eq]
  rw [ToolSession.ledgerAfter, hstep]
  rfl

theorem firstAnswered_eq (s : ToolSession) (calls : List SessionCall) (callId : String) :
    s.firstAnswered calls callId = keeper (sessionPolicy s) calls callId := by
  have hsame : (fun d : SessionCall => s.allows d && d.callId == callId && d.outcome.toOption.isSome) =
      keptUnder (sessionPolicy s) callId := by
    funext d
    rw [keptUnder]
    cases ha : s.allows d <;> simp [sessionPolicy, ha]
    rfl
  rw [ToolSession.firstAnswered, keeper, hsame]

/-- With digests that differ the loop tells more calls apart, and keeps fewer results. -/
theorem stepPolicy_finer {rt : AgentRuntime} {s : ToolSession} (calls : List SessionCall) :
    Finer (stepPolicy rt s) (sessionPolicy s) calls where
  asks := fun c _ => by cases ha : s.allows c <;> simp [sessionPolicy, stepPolicy, ha]
  key := by
    intro c _ d _ h
    cases hc : s.allows c <;> cases hd : s.allows d <;>
      simp only [sessionPolicy, stepPolicy, hc, hd, Bool.false_eq_true, ↓reduceIte, reduceCtorEq,
        Option.some.injEq] at h ⊢
    exact (ledgerCallId_inj h).1
  keeps := fun c _ r h => (Option.filter_eq_some_iff.mp h).1

/-- **WHEN A SESSION GIVES THE IDEMPOTENCY OF THE LOOP**: exactly when call ids are reused for retries
    only. -/
theorem idempotent_iff {rt : AgentRuntime} {s : ToolSession} {calls : List SessionCall}
    (hapart : DigestsApart rt s calls) : Idempotent rt s calls ↔ RetriesOnly s calls := by
  have hloop : repliesOf s.callWithId (fun _ => none) calls =
      repliesOf (stepCall rt s) (fun _ => none) calls ↔ RetriesOnly s calls := by
    have hfree : ReportFree fun _ => none := fun _ _ h => nomatch h
    rw [replies_eq_iff rt s calls _ _ hfree, served_eq_iff (stepPolicy_finer calls)]
    constructor
    · intro h pre c post hsplit ha d hd
      rw [firstAnswered_eq] at hd
      obtain ⟨hmem, hkey, hsome⟩ := keeper_spec hd
      have hc : (sessionPolicy s).key c = some c.callId := by simp [sessionPolicy, ha]
      obtain ⟨hsame, hkeeps⟩ := h pre c post hsplit _ d hc hd
      have had : s.allows d = true := by
        cases had : s.allows d with
        | true => rfl
        | false => simp [sessionPolicy, had] at hkey
      simp only [stepPolicy, ha, had, ↓reduceIte, Option.some.injEq] at hsame hkeeps
      obtain ⟨hid, hdigest⟩ := ledgerCallId_inj hsame
      obtain ⟨hext, htool, hargs⟩ := hapart d (by simp [hsplit, hmem]) c (by simp [hsplit]) hdigest
      refine ⟨?_, fun v hv => ?_⟩
      · show ToolCallRecord.mk _ _ _ _ = ToolCallRecord.mk _ _ _ _
        exact ToolCallRecord.mk.injEq .. ▸ ⟨hid, hext, htool, hargs⟩
      · rw [hv] at hkeeps
        cases herr : isErrorResult v with
        | false => rfl
        | true => simp [Except.toOption, herr] at hkeeps
    · intro h pre c post hsplit k d hkey hd
      have ha : s.allows c = true := by
        cases ha : s.allows c with
        | true => rfl
        | false => simp [sessionPolicy, ha] at hkey
      simp only [sessionPolicy, ha, ↓reduceIte, Option.some.injEq] at hkey
      subst hkey
      obtain ⟨-, hdkey, hsome⟩ := keeper_spec hd
      obtain ⟨hsame, hreport⟩ := h pre c post hsplit ha d (by rw [firstAnswered_eq]; exact hd)
      have had : s.allows d = true := by
        rw [ToolSession.allows, hsame]
        exact ha
      obtain ⟨v, hv⟩ := Option.isSome_iff_exists.mp hsome
      have hout : d.outcome = .ok v := by
        cases ho : d.outcome with
        | error e => simp [sessionPolicy, ho, Except.toOption] at hv
        | ok w =>
            simp only [sessionPolicy, ho, Except.toOption, Option.some.injEq] at hv
            rw [hv]
      refine ⟨by simp [stepPolicy, ha, had, hsame], ?_⟩
      simp [stepPolicy, hout, Except.toOption, hreport v hout]
  refine ⟨fun h => hloop.mp h.asLoop, fun h => ?_⟩
  -- What a call is served with comes of the first call with its id that succeeded.
  have hserved : ∀ pre c post v, calls = pre ++ c :: post → s.replyAfter pre c = .recorded v →
      ∃ d, s.allows c = true ∧ s.firstAnswered pre c.callId = some d ∧ d.outcome = .ok v := by
    intro pre c post v hsplit hreply
    rw [ToolSession.replyAfter, callWithId_eq, ledgerAfter_eq, serve_fst] at hreply
    unfold replyOf at hreply
    cases ha : s.allows c with
    | false => simp [ha] at hreply
    | true =>
        simp only [ha, sessionPolicy, Bool.not_true, Bool.false_eq_true, ↓reduceIte,
          Option.bind_some] at hreply
        change (match store (sessionPolicy s) pre c.callId with
          | some v => CallReply.recorded v
          | none => CallReply.dispatched c.outcome) = _ at hreply
        rw [store_eq] at hreply
        cases hd : keeper (sessionPolicy s) pre c.callId with
        | none => simp [hd] at hreply
        | some d =>
            rw [hd, Option.bind_some] at hreply
            refine ⟨d, rfl, (firstAnswered_eq ..).trans hd, ?_⟩
            cases ho : d.outcome with
            | error e => simp [sessionPolicy, ho, Except.toOption] at hreply
            | ok w =>
                simp only [sessionPolicy, ho, Except.toOption, CallReply.recorded.injEq] at hreply
                rw [hreply]
  exact {
    same := by
      intro pre c post v hsplit hreply
      obtain ⟨d, ha, hd, hout⟩ := hserved pre c post v hsplit hreply
      obtain ⟨hsame, -⟩ := h pre c post hsplit ha d hd
      rw [firstAnswered_eq] at hd
      obtain ⟨hkept, as, bs, rfl, has⟩ := List.find?_eq_some_iff_append.mp hd
      refine ⟨as, d, bs, rfl, hsame, ?_⟩
      have had : s.allows d = true := by
        rw [ToolSession.allows, hsame]
        exact ha
      have hid : d.callId = c.callId := congrArg ToolCallRecord.callId hsame
      have hnone : keeper (sessionPolicy s) as d.callId = none := by
        rw [hid]
        exact List.find?_eq_none.mpr fun a ha' => by simpa using has a ha'
      rw [ToolSession.replyAfter, ToolSession.callWithId, ledgerAfter_eq, store_eq, hnone, had, hout]
      rfl
    retried := by
      intro pre c post v hsplit hreply
      obtain ⟨d, ha, hd, hout⟩ := hserved pre c post v hsplit hreply
      exact (h pre c post hsplit ha d hd).2 v hout
    asLoop := hloop.mpr h }

/-! ## A failure report -/

/-- One tool of one extension, without a codec. -/
def searchSession : ToolSession := ⟨fun wire => ("web", wire), [⟨"web", "search"⟩]⟩

/-- A search that reports a failure when it is dispatched first, and is asked again under its id. -/
def searchTwice : List SessionCall :=
  [⟨"c1", "search", .null, .ok (.obj [("error", .str "down")])⟩, ⟨"c1", "search", .null, .ok (.str "found")⟩]

/-- A runtime whose digest is the text itself. -/
def loneRuntime : AgentRuntime := ⟨false, false, id⟩

/-- Two of the tools are allowed. -/
def webSession : ToolSession :=
  ⟨fun wire => ("web", wire), [⟨"web", "search"⟩, ⟨"web", "fetch"⟩]⟩

/-- What is searched for, and what is fetched. -/
def query : Json := .obj [("q", .str "a")]
def page : Json := .obj [("u", .str "b")]

/-- A search that fails is tried again and then asked twice more under its id, once between calls
    of another tool; the same search under an id of its own reports a failure; and a tool that is
    not allowed comes under an id in use. -/
def browsing : List SessionCall :=
  [⟨"c1", "search", query, .error .lockLost⟩, ⟨"c1", "search", query, .ok (.str "found")⟩,
    ⟨"c1", "search", query, .ok (.str "other")⟩, ⟨"c2", "fetch", page, .ok (.str "text")⟩,
    ⟨"c1", "delete", .null, .ok .null⟩, ⟨"c3", "search", query, .ok (.obj [("error", .str "down")])⟩,
    ⟨"c1", "search", query, .error .lockLost⟩, ⟨"c2", "fetch", page, .ok (.str "newer")⟩]

/-- The beginnings of three digests. -/
def webRuntime : AgentRuntime := ⟨false, false, fun bytes =>
  if bytes = "web\x1fsearch\x1f\x7b\"q\":\"a\"\x7d".toUTF8.toList then [170, 123, 13, 94, 93, 56, 137, 157]
  else if bytes = "web\x1ffetch\x1f\x7b\"u\":\"b\"\x7d".toUTF8.toList then [104, 124, 100, 219, 62, 15, 66, 111]
  else [103, 121, 104, 157, 1, 208, 124, 145]⟩

/-- Ids that are reused for the same only, and after no failure report. -/
theorem retriesOnly_of_pairwise {s : ToolSession} {calls : List SessionCall}
    (h : calls.Pairwise fun d c => s.allows d = true → s.allows c = true → d.callId = c.callId →
      ∀ v, d.outcome = .ok v → s.record d = s.record c ∧ isErrorResult v = false) :
    RetriesOnly s calls := by
  intro pre c post hsplit hc d hd
  rw [hsplit] at h
  have hmem := List.mem_of_find?_eq_some hd
  obtain ⟨⟨hallowed, hid⟩, hsome⟩ : (s.allows d = true ∧ d.callId = c.callId) ∧
      d.outcome.toOption.isSome = true := by
    simpa only [Bool.and_eq_true, beq_iff_eq] using List.find?_some hd
  have hpair := (List.pairwise_append.mp h).2.2 d hmem c (List.mem_cons_self ..) hallowed hc hid
  obtain ⟨v, hv⟩ : ∃ v, d.outcome = .ok v := by
    cases hout : d.outcome with
    | error e =>
        rw [hout] at hsome
        cases hsome
    | ok v => exact ⟨v, rfl⟩
  exact ⟨(hpair v hv).1, fun w hw => (hpair w hw).2⟩

/-- What a call is answered with from the ledger. -/
def CallReply.result? : CallReply → Option Json
  | .recorded result => some result
  | _ => none

/-- The digest of what is asked of the web. -/
def askDigestOf (ask : String × Json) : String := webRuntime.askDigest ⟨"", "web", ask.1, ask.2⟩

/-- Three of eight calls are answered from the ledger, as the loop would. -/
theorem idempotent_browsing : Idempotent webRuntime webSession browsing
    ∧ (repliesOf webSession.callWithId (fun _ => none) browsing).map CallReply.result? =
      [none, none, some (.str "found"), none, none, none, some (.str "found"), some (.str "text")] := by
  constructor
  · refine (idempotent_iff ?_).mpr (retriesOnly_of_pairwise ?_)
    · have hasks : ∀ c ∈ browsing, (c.wireName, c.args) = ("search", query) ∨
          (c.wireName, c.args) = ("fetch", page) ∨ (c.wireName, c.args) = ("delete", .null) := by
        simp [browsing]
      have hdigest : ∀ c : SessionCall, webRuntime.askDigest (webSession.record c) =
          askDigestOf (c.wireName, c.args) := fun _ => rfl
      have hsearch : askDigestOf ("search", query) = "aa7b0d5e5d38899d" := by decide +kernel
      have hfetch : askDigestOf ("fetch", page) = "687c64db3e0f426f" := by decide +kernel
      have hdelete : askDigestOf ("delete", .null) = "6779689d01d07c91" := by decide +kernel
      intro c hc d hd hsame
      rw [hdigest, hdigest] at hsame
      have hask : (c.wireName, c.args) = (d.wireName, d.args) := by
        rcases hasks c hc with h | h | h <;> rcases hasks d hd with h' | h' | h' <;>
          rw [h, h'] at hsame ⊢ <;> revert hsame <;> simp [hsearch, hfetch, hdelete]
      obtain ⟨hname, hargs⟩ := Prod.mk.inj hask
      exact ⟨rfl, hname, hargs⟩
    · simp [browsing, webSession, ToolSession.record, ToolSession.allows, isToolAllowed, isErrorResult,
        Json.get?]
  · rfl

/-- The failure report is served to the retry. -/
theorem report_served : ¬ Idempotent loneRuntime searchSession searchTwice := by
  intro h
  have hreport := h.retried (searchTwice.take 1) searchTwice[1] [] (.obj [("error", .str "down")]) rfl
    (by rfl)
  exact absurd hreport (by decide)

end Greentic.Aw
