import GreenticRunner.IngressKeys
import GreenticRunner.Markers

/-! # Correlation ids of remote dispatches

    `runner/runtime_session_resumer.rs` and the id that
    `execute_remote_dispatch_with_token` publishes: the session hint of the message with
    the pack, the flow, the reply scope and a nonce behind it, from which the resumer
    rebuilds the message that fetches the parked flow.

    * `correlation_roundtrip` — every part of an id is read back;
    * `resumed_iff` — when it finds the wait and takes the turn lock of the message;
    * `explicit_hint_lost` — an explicit hint whose wait is not found. -/

namespace Greentic.Engine

open Markers TextCodec

/-! ## Markers -/

/-- The marker `::name=`. -/
def tag (name : String) : List Char := marker ':' '=' name.toList

example : tag "pack" = "::pack=".toList := by decide

/-- `is_plain_token`. -/
def isPlainToken (value : String) : Bool :=
  !value.isEmpty &&
    value.toList.all fun c => Aw.isAsciiAlphanumeric c || c == '-' || c == '_' || c == '.'

/-- `push_marker`: the name and the text of a value. -/
def pushMarker (raw b64 : String) (value : String) : List Char × List Char :=
  if isPlainToken value then (raw.toList, value.toList) else (b64.toList, encodeText value)

/-- A conversation that has a marker: a plain token is left to the hint. -/
def ReplyScope.carried (scope : ReplyScope) : Option String :=
  if scope.conversation ≠ "" ∧ ¬ isPlainToken scope.conversation then some scope.conversation
  else none

/-- `push_scope_markers`: the markers, in order. -/
def pushScopeMarkers (scope : ReplyScope) : List (List Char × List Char) :=
  (scope.carried.map (pushMarker "cnv" "cnv64")).toList ++
  ((scope.thread.filter (· ≠ "")).map (pushMarker "thread" "thr64")).toList ++
  ((scope.replyTo.filter (· ≠ "")).map (pushMarker "reply" "rpl64")).toList

/-- `split_marker`. -/
def splitMarker (name : String) (value : List Char) : List Char × Option (List Char) :=
  match rsplitOnce (tag name) value with
  | some (before, captured) => if captured = [] then (value, none) else (before, some captured)
  | none => (value, none)

/-- The decoded value behind the last base64 marker. -/
def splitEncoded (b64 : String) (value : List Char) : Option (List Char × String) :=
  match rsplitOnce (tag b64) value with
  | some (before, captured) =>
      if captured = [] then none else (decodeText captured).map fun decoded => (before, decoded)
  | none => none

/-- `split_value_marker`. -/
def splitValueMarker (raw b64 : String) (value : List Char) : List Char × Option String :=
  match splitEncoded b64 value with
  | some (before, decoded) => (before, some decoded)
  | none => ((splitMarker raw value).1, (splitMarker raw value).2.map String.ofList)

/-- `split_dispatch_nonce`: 32 lowercase hexadecimal digits behind the last `::n=`. -/
def splitDispatchNonce (id : List Char) : List Char × Option (List Char) :=
  match rsplitOnce (tag "n") id with
  | some (before, nonce) =>
      if nonce.length = 32 ∧ nonce.all hexLower then (before, some nonce) else (id, none)
  | none => (id, none)

/-- A correlation id in its parts. -/
structure ParsedCorrelation where
  bareHint : List Char
  packId : Option String
  flowId : Option String
  conversation : Option String
  thread : Option String
  replyTo : Option String
  nonce : Option (List Char)

/-- `parse_correlation`. -/
def parseCorrelation (id : List Char) : ParsedCorrelation :=
  let (rest, nonce) := splitDispatchNonce id
  let (rest, replyTo) := splitValueMarker "reply" "rpl64" rest
  let (rest, thread) := splitValueMarker "thread" "thr64" rest
  let (rest, conversation) := splitValueMarker "cnv" "cnv64" rest
  let (rest, flowId) := splitMarker "flow" rest
  let (bareHint, packId) := splitMarker "pack" rest
  { bareHint
    packId := packId.map String.ofList
    flowId := flowId.map String.ofList
    conversation, thread, replyTo, nonce }

/-! ## Publishing and resuming -/

/-- `new_dispatch_nonce`, of its random bytes. -/
def newDispatchNonce (bytes : Vector UInt8 16) : List Char := hexEncode bytes.toList

/-- The markers behind the bare hint.  Only an approval has a nonce. -/
def dispatchMarkers (pack flow : String) (scope : Option ReplyScope)
    (nonce : Option (Vector UInt8 16)) : List (List Char × List Char) :=
  [("pack".toList, pack.toList), ("flow".toList, flow.toList)] ++
    (scope.map pushScopeMarkers).getD [] ++
    (nonce.map fun bytes => ("n".toList, newDispatchNonce bytes)).toList

/-- The correlation id of `execute_remote_dispatch_with_token`. -/
def publishedId (sessionId : Option String) (pack flow : String) (scope : Option ReplyScope)
    (nonce : Option (Vector UInt8 16)) : List Char :=
  (parseCorrelation (sessionId.getD "").toList).bareHint ++
    render ':' '=' (dispatchMarkers pack flow scope nonce)

/-- `split_endpoint_prefix`. -/
def splitEndpointPrefix (hint : List Char) : Option (List Char) × List Char :=
  if "ep=".toList <+: hint then
    match splitOnce "::".toList (hint.drop 3) with
    | some (eid, tail) => (some eid, tail)
    | none => (none, hint)
  else (none, hint)

/-- The segments of the hint behind the endpoint prefix. -/
def hintParts (hint : List Char) : List String :=
  (splitn ':' 5 (splitEndpointPrefix hint).2).map String.ofList

/-- `build_resume_envelope`, of a tenant and an environment. -/
def buildResumeEnvelope (tenant : TenantCtx) (correlationId : List Char) (output : Json) :
    IngressEnvelope :=
  let parsed := parseCorrelation correlationId
  let parts := hintParts parsed.bareHint
  let conversation := parsed.conversation <|> parts[3]?
  { tenant := tenant.tenant
    env := some tenant.env
    packId := parsed.packId
    flowId := (parsed.flowId <|> parsed.packId).getD "resume.flow"
    flowType := none
    action := none
    sessionHint := some (String.ofList parsed.bareHint)
    provider := parts[1]?
    channel := parts[2]?
    conversation := conversation
    user := parts[4]?
    entryNode := none
    activityId := none
    timestamp := none
    messagingEndpointId := (splitEndpointPrefix parsed.bareHint).1.map String.ofList
    payload := output
    metadata := none
    replyScope := conversation.map fun conversation =>
      ⟨conversation, parsed.thread, parsed.replyTo, none⟩ }

/-! ## The store hint of a response -/

/-- The id without nonce, scope and flow. -/
def withoutScope (id : List Char) : List Char :=
  (splitMarker "flow" (splitValueMarker "cnv" "cnv64" (splitValueMarker "thread" "thr64"
    (splitValueMarker "reply" "rpl64" (splitDispatchNonce id).1).1).1).1).1

/-- A split finds the marker or leaves the text. -/
theorem splitMarker_cases (name : String) (s : List Char) :
    splitMarker name s = (s, none) ∨
      ∃ before captured, captured ≠ [] ∧ splitMarker name s = (before, some captured) ∧
        s = before ++ tag name ++ captured := by
  unfold splitMarker
  split
  next before captured h =>
    split
    next => exact .inl rfl
    next hne => exact .inr ⟨before, captured, hne, rfl, rsplitOnce_eq h⟩
  next => exact .inl rfl

/-- What is in front of a marker is a prefix. -/
theorem splitMarker_before (name : String) (s : List Char) : (splitMarker name s).1 <+: s := by
  rcases splitMarker_cases name s with h | ⟨before, captured, -, h, hs⟩
  · rw [h]
  · rw [h]
    exact ⟨tag name ++ captured, by rw [hs, List.append_assoc]⟩

theorem splitValueMarker_before (raw b64 : String) (s : List Char) :
    (splitValueMarker raw b64 s).1 <+: s := by
  unfold splitValueMarker
  split
  next before decoded h =>
    unfold splitEncoded at h
    split at h
    next p captured hp =>
      split at h
      next => exact nomatch h
      next =>
        obtain ⟨d, -, hd⟩ := Option.map_eq_some_iff.mp h
        cases hd
        exact ⟨tag b64 ++ captured, by rw [rsplitOnce_eq hp, List.append_assoc]⟩
    next => exact nomatch h
  next => exact splitMarker_before raw s

theorem splitDispatchNonce_before (s : List Char) : (splitDispatchNonce s).1 <+: s := by
  unfold splitDispatchNonce
  split
  next before nonce h =>
    split
    next => exact ⟨tag "n" ++ nonce, by rw [rsplitOnce_eq h, List.append_assoc]⟩
    next => exact List.prefix_rfl
  next => exact List.prefix_rfl

/-- So is the bare hint. -/
theorem parseCorrelation_bareHint_before (s : List Char) : (parseCorrelation s).bareHint <+: s :=
  (splitMarker_before ..).trans <| (splitMarker_before ..).trans <|
    (splitValueMarker_before ..).trans <| (splitValueMarker_before ..).trans <|
      (splitValueMarker_before ..).trans (splitDispatchNonce_before s)

/-- The endpoint prefix is not written twice. -/
theorem endpointHint_split (hint : List Char) :
    IngressEnvelope.endpointHint
      (((splitEndpointPrefix hint).1.map String.ofList).filter endpointIdIsValid)
      (String.ofList hint) = String.ofList hint := by
  have hprefix : ∀ eid, (splitEndpointPrefix hint).1 = some eid →
      "ep=".toList ++ eid ++ "::".toList <+: hint := by
    intro eid h
    unfold splitEndpointPrefix at h
    split at h
    next hep =>
      split at h
      next tail hs =>
        cases h
        obtain ⟨rest, hrest⟩ := hep
        have hdrop : hint.drop 3 = rest := by rw [← hrest]; rfl
        have hsplit := splitOnce_eq hs
        rw [hdrop] at hsplit
        exact ⟨tail, by rw [← hrest, hsplit]; simp⟩
      next => exact nomatch h
    next => exact nomatch h
  cases h : ((splitEndpointPrefix hint).1.map String.ofList).filter endpointIdIsValid with
  | none => rfl
  | some eid =>
      obtain ⟨e, he, rfl⟩ := Option.map_eq_some_iff.mp (Option.filter_eq_some_iff.mp h).1
      rw [IngressEnvelope.endpointHint, if_pos]
      simpa using hprefix e he

/-- The store hint of a response is its id without what stands behind the pack. -/
theorem storeHint_resumed (tenant : TenantCtx) (id : List Char) (output : Json) :
    (buildResumeEnvelope tenant id output).canonicalize.storeHint.toList = withoutScope id := by
  have hhint : (buildResumeEnvelope tenant id output).hint
      = String.ofList (parseCorrelation id).bareHint :=
    endpointHint_split (parseCorrelation id).bareHint
  rw [IngressEnvelope.canonicalize_storeHint, hhint, String.toList_ofList]
  have hbare : (parseCorrelation id).bareHint = (splitMarker "pack" (withoutScope id)).1 := rfl
  have hpack : (buildResumeEnvelope tenant id output).packId
      = (splitMarker "pack" (withoutScope id)).2.map String.ofList := rfl
  rw [hbare, hpack]
  rcases splitMarker_cases "pack" (withoutScope id) with h | ⟨before, captured, -, h, hs⟩
  · rw [h]
    exact List.append_nil _
  · rw [h]
    have hcaptured : (String.ofList captured).toList = captured := String.toList_ofList
    show before ++ (tag "pack" ++ (String.ofList captured).toList) = withoutScope id
    rw [hcaptured, hs, List.append_assoc]

/-! ## Reading a published id back -/

/-- A name of a marker. -/
def IsName (name : String) : Prop := ':' ∉ name.toList ∧ '=' ∉ name.toList

instance (name : String) : Decidable (IsName name) := inferInstanceAs (Decidable (_ ∧ _))

/-- A plain token has no separator. -/
theorem isPlainToken_clean {value : String} (h : isPlainToken value = true) :
    value ≠ "" ∧ ':' ∉ value.toList := by
  rw [isPlainToken, Bool.and_eq_true, List.all_eq_true] at h
  constructor
  · rintro rfl
    exact absurd h.1 (by decide)
  · intro hc
    exact absurd (h.2 ':' hc) (by decide)

/-- A text that can stand in an id as it is. -/
def IsId (value : String) : Prop := value ≠ "" ∧ ':' ∉ value.toList

/-- Nor has an encoded text. -/
theorem encodeText_clean (value : String) : ':' ∉ encodeText value := by
  intro hc
  exact absurd (encode64_urlSafe _ ':' hc) (by decide)

/-- Nor a nonce. -/
theorem newDispatchNonce_clean (bytes : Vector UInt8 16) : ':' ∉ newDispatchNonce bytes := by
  intro hc
  exact absurd (hexEncode_lower _ ':' hc) (by decide)

/-- A pushed marker is clean. -/
theorem pushMarker_clean {raw b64 : String} (hraw : IsName raw) (hb64 : IsName b64)
    (value : String) : Clean ':' '=' [pushMarker raw b64 value] := by
  intro m hm
  rw [List.mem_singleton.mp hm, pushMarker]
  by_cases hp : isPlainToken value = true
  · rw [if_pos hp]
    exact ⟨hraw.1, hraw.2, (isPlainToken_clean hp).2⟩
  · rw [if_neg hp]
    exact ⟨hb64.1, hb64.2, encodeText_clean value⟩

section Stage

variable {raw b64 : String} {ms : List (List Char × List Char)} {hint : List Char}

/-- A marker that is not in the row is read in the hint. -/
theorem splitMarker_absent (hraw : IsName raw) (hms : Clean ':' '=' ms) (hne : ms ≠ [])
    (hnames : ∀ m ∈ ms, raw.toList ≠ m.1) :
    (¬ tag raw <:+: hint → splitMarker raw (hint ++ render ':' '=' ms)
        = (hint ++ render ':' '=' ms, none)) ∧
      (tag raw <:+: hint → (splitMarker raw (hint ++ render ':' '=' ms)).1.length < hint.length) := by
  have htag : tag raw ≠ [] := List.cons_ne_nil _ _
  have hsplit := rsplitOnce_render (by decide : ':' ≠ '=') hraw.1 hraw.2 hms hnames hint
  constructor
  · intro hnot
    rw [splitMarker, tag, hsplit, ← tag, (rsplitOnce_eq_none_iff htag).mpr hnot]
    rfl
  · intro hin
    cases hr : rsplitOnce (tag raw) hint with
    | none => exact absurd hin ((rsplitOnce_eq_none_iff htag).mp hr)
    | some pr =>
        have hcaptured : pr.2 ++ render ':' '=' ms ≠ [] :=
          List.ne_nil_of_mem (List.mem_append_right _ (mem_render hne))
        have hlen := congrArg List.length (rsplitOnce_eq hr)
        have hpos : 0 < (tag raw).length := List.length_pos_of_ne_nil htag
        rw [List.length_append, List.length_append] at hlen
        rw [splitMarker, tag, hsplit, ← tag, hr]
        simp only [Option.map_some, if_neg hcaptured]
        omega

/-- What stands behind a base64 marker in the hint is not a text of the row. -/
theorem splitEncoded_absent (hb64 : IsName b64) (hms : Clean ':' '=' ms) (hne : ms ≠ [])
    (hnames : ∀ m ∈ ms, b64.toList ≠ m.1) :
    splitEncoded b64 (hint ++ render ':' '=' ms) = none := by
  have hsplit := rsplitOnce_render (by decide : ':' ≠ '=') hb64.1 hb64.2 hms hnames hint
  rw [splitEncoded, tag, hsplit]
  cases rsplitOnce (marker ':' '=' b64.toList) hint with
  | none => rfl
  | some pr =>
      have hcolon : ':' ∈ pr.2 ++ render ':' '=' ms :=
        List.mem_append_right _ (mem_render hne)
      rw [Option.map_some]
      simp only [decodeText_eq_none hcolon (by decide : value64 ':' = none), Option.map_none,
        ite_self]

/-- A value that was written is read back. -/
theorem splitValueMarker_present (hraw : IsName raw) (hb64 : IsName b64) (hne : raw ≠ b64)
    {value : String} (hv : value ≠ "") (x : List Char) :
    splitValueMarker raw b64 (x ++ render ':' '=' [pushMarker raw b64 value])
      = (x, some value) := by
  have hclean := pushMarker_clean hraw hb64 value
  by_cases hp : isPlainToken value = true
  · -- The plain form: a base64 marker further left captures this one and does not decode.
    have hpush : pushMarker raw b64 value = (raw.toList, value.toList) := by
      rw [pushMarker, if_pos hp]
    have hcaptured : value.toList ≠ [] := fun h => hv (String.toList_inj.mp h)
    rw [hpush] at hclean ⊢
    have hnames : ∀ m ∈ [(raw.toList, value.toList)], b64.toList ≠ m.1 := by
      intro m hm heq
      rw [List.mem_singleton.mp hm] at heq
      exact hne (String.toList_inj.mp heq).symm
    have hraw' : splitMarker raw (x ++ render ':' '=' [(raw.toList, value.toList)])
        = (x, some value.toList) := by
      rw [splitMarker, render_one, tag, ← List.append_assoc,
        rsplitOnce_marker (by decide) hraw.1 (isPlainToken_clean hp).2]
      simp only [if_neg hcaptured]
    rw [splitValueMarker, splitEncoded_absent hb64 hclean (List.cons_ne_nil _ _) hnames]
    simp only [hraw', Option.map_some, String.ofList_toList]
  · have hpush : pushMarker raw b64 value = (b64.toList, encodeText value) := by
      rw [pushMarker, if_neg hp]
    have hdecoded : splitEncoded b64 (x ++ render ':' '=' [(b64.toList, encodeText value)])
        = some (x, value) := by
      rw [splitEncoded, render_one, tag, ← List.append_assoc,
        rsplitOnce_marker (by decide) hb64.1 (encodeText_clean value)]
      simp only [if_neg (encodeText_ne_nil hv), decodeText_encodeText, Option.map_some]
    rw [hpush, splitValueMarker, hdecoded]

/-- One optional value behind a row of other markers. -/
theorem splitValueMarker_stage (hraw : IsName raw) (hb64 : IsName b64) (hrb : raw ≠ b64)
    (hms : Clean ':' '=' ms) (hne : ms ≠ [])
    (hnames : ∀ m ∈ ms, raw.toList ≠ m.1 ∧ b64.toList ≠ m.1) {value : Option String}
    (hv : value ≠ some "") :
    ((value = none → ¬ tag raw <:+: hint) →
      splitValueMarker raw b64 (hint ++ render ':' '=' (ms ++ (value.map (pushMarker raw b64)).toList))
        = (hint ++ render ':' '=' ms, value)) ∧
      (value = none → tag raw <:+: hint →
        (splitValueMarker raw b64
          (hint ++ render ':' '=' (ms ++ (value.map (pushMarker raw b64)).toList))).1.length
            < hint.length) := by
  cases value with
  | some v =>
      refine ⟨fun _ => ?_, fun h => nomatch h⟩
      have hv' : v ≠ "" := fun h => hv (congrArg some h)
      rw [Option.map_some, Option.toList_some, render_append, ← List.append_assoc,
        splitValueMarker_present hraw hb64 hrb hv']
  | none =>
      have hencoded : splitEncoded b64 (hint ++ render ':' '=' ms) = none :=
        splitEncoded_absent hb64 hms hne fun m hm => (hnames m hm).2
      have habsent := @splitMarker_absent raw ms hint hraw hms hne fun m hm => (hnames m hm).1
      rw [Option.map_none, Option.toList_none, List.append_nil]
      constructor
      · intro hnot
        rw [splitValueMarker, hencoded]
        simp only [habsent.1 (hnot rfl), Option.map_none]
      · intro _ hin
        rw [splitValueMarker, hencoded]
        exact habsent.2 hin

end Stage

/-- A row of clean markers whose names are among the given ones. -/
def Row (names : List String) (ms : List (List Char × List Char)) : Prop :=
  Clean ':' '=' ms ∧ ∀ m ∈ ms, ∃ name ∈ names, m.1 = name.toList

namespace Row

variable {names names' : List String} {ms ms' : List (List Char × List Char)}

/-- One row of markers after the other. -/
theorem append (h : Row names ms) (h' : Row names' ms') : Row (names ++ names') (ms ++ ms') := by
  constructor
  · intro m hm
    rcases List.mem_append.mp hm with hm | hm
    · exact h.1 m hm
    · exact h'.1 m hm
  · intro m hm
    rcases List.mem_append.mp hm with hm | hm
    · obtain ⟨name, hname, heq⟩ := h.2 m hm
      exact ⟨name, List.mem_append_left _ hname, heq⟩
    · obtain ⟨name, hname, heq⟩ := h'.2 m hm
      exact ⟨name, List.mem_append_right _ hname, heq⟩

theorem one {name : String} (hname : IsName name) {value : List Char} (hv : ':' ∉ value) :
    Row [name] [(name.toList, value)] := by
  constructor
  · intro m hm
    rw [List.mem_singleton.mp hm]
    exact ⟨hname.1, hname.2, hv⟩
  · intro m hm
    exact ⟨name, List.mem_singleton_self name, by rw [List.mem_singleton.mp hm]⟩

/-- A marker that may be missing. -/
theorem pushed {raw b64 : String} (hraw : IsName raw) (hb64 : IsName b64) (value : Option String) :
    Row [raw, b64] (value.map (pushMarker raw b64)).toList := by
  cases value with
  | none => exact ⟨fun m hm => (nomatch hm), fun m hm => (nomatch hm)⟩
  | some v =>
      refine ⟨pushMarker_clean hraw hb64 v, ?_⟩
      intro m hm
      rw [Option.map_some, Option.toList_some, List.mem_singleton] at hm
      rw [hm, pushMarker]
      by_cases hp : isPlainToken v = true
      · exact ⟨raw, by simp, by rw [if_pos hp]⟩
      · exact ⟨b64, by simp, by rw [if_neg hp]⟩

/-- A row has the markers of its names only. -/
theorem not_named (h : Row names ms) {name : String} (hname : name ∉ names) :
    ∀ m ∈ ms, name.toList ≠ m.1 := by
  intro m hm heq
  obtain ⟨name', hname', heq'⟩ := h.2 m hm
  rw [heq'] at heq
  exact hname (String.toList_inj.mp heq ▸ hname')

end Row

/-- No value that the id leaves out is read in the hint instead. -/
structure Unmasked (hint : List Char) (scope : ReplyScope) : Prop where
  reply : scope.replyTo = none → ¬ tag "reply" <:+: hint
  thread : scope.thread = none → ¬ tag "thread" <:+: hint
  conversation : scope.carried = none → ¬ tag "cnv" <:+: hint

section Published

variable {pack flow : String} {scope : ReplyScope} {hint : List Char}

/-- Pack and flow. -/
def packRow (pack flow : String) : List (List Char × List Char) :=
  [("pack".toList, pack.toList), ("flow".toList, flow.toList)]

def cnvRow (pack flow : String) (scope : ReplyScope) : List (List Char × List Char) :=
  packRow pack flow ++ (scope.carried.map (pushMarker "cnv" "cnv64")).toList

def threadRow (pack flow : String) (scope : ReplyScope) : List (List Char × List Char) :=
  cnvRow pack flow scope ++ (scope.thread.map (pushMarker "thread" "thr64")).toList

def replyRow (pack flow : String) (scope : ReplyScope) : List (List Char × List Char) :=
  threadRow pack flow scope ++ (scope.replyTo.map (pushMarker "reply" "rpl64")).toList

theorem packRow_row (hp : IsId pack) (hf : IsId flow) :
    Row ["pack", "flow"] (packRow pack flow) :=
  (Row.one (by decide) hp.2).append
    (Row.one (by decide) hf.2)

theorem cnvRow_row (scope : ReplyScope) (hp : IsId pack)
    (hf : IsId flow) :
    Row ["pack", "flow", "cnv", "cnv64"] (cnvRow pack flow scope) :=
  (packRow_row hp hf).append (Row.pushed (by decide) (by decide) _)

theorem threadRow_row (scope : ReplyScope) (hp : IsId pack)
    (hf : IsId flow) :
    Row ["pack", "flow", "cnv", "cnv64", "thread", "thr64"] (threadRow pack flow scope) :=
  (cnvRow_row scope hp hf).append (Row.pushed (by decide) (by decide) _)

theorem replyRow_row (scope : ReplyScope) (hp : IsId pack)
    (hf : IsId flow) :
    Row ["pack", "flow", "cnv", "cnv64", "thread", "thr64", "reply", "rpl64"]
      (replyRow pack flow scope) :=
  (threadRow_row scope hp hf).append (Row.pushed (by decide) (by decide) _)

/-- A value that is not empty is kept. -/
theorem filter_nonempty {o : Option String} (h : o ≠ some "") : o.filter (· ≠ "") = o := by
  cases o with
  | none => rfl
  | some v =>
      have hv : v ≠ "" := fun hv => h (congrArg some hv)
      simp [Option.filter, hv]

/-- The markers of a dispatch, as one row and the nonce. -/
theorem dispatchMarkers_eq (ht : scope.thread ≠ some "") (hr : scope.replyTo ≠ some "")
    (nonce : Option (Vector UInt8 16)) :
    dispatchMarkers pack flow (some scope) nonce = replyRow pack flow scope ++
      (nonce.map fun bytes => ("n".toList, newDispatchNonce bytes)).toList := by
  rw [dispatchMarkers, Option.map_some, Option.getD_some, pushScopeMarkers, filter_nonempty ht,
    filter_nonempty hr, replyRow, threadRow, cnvRow, packRow]
  simp only [List.append_assoc]

/-- The nonce, and only the nonce, is taken off first. -/
theorem splitDispatchNonce_published (hp : IsId pack)
    (hf : IsId flow) (nonce : Option (Vector UInt8 16)) :
    splitDispatchNonce (hint ++ render ':' '=' (replyRow pack flow scope ++
        (nonce.map fun bytes => ("n".toList, newDispatchNonce bytes)).toList))
      = (hint ++ render ':' '=' (replyRow pack flow scope), nonce.map newDispatchNonce) := by
  cases nonce with
  | some bytes =>
      have hlen : (newDispatchNonce bytes).length = 32 := by
        rw [newDispatchNonce, hexEncode_length, Vector.length_toList]
      have hlower : (newDispatchNonce bytes).all hexLower = true :=
        List.all_eq_true.mpr (hexEncode_lower _)
      rw [Option.map_some, Option.toList_some, render_append, render_one, ← List.append_assoc,
        ← List.append_assoc, splitDispatchNonce, tag,
        rsplitOnce_marker (by decide) (by decide) (newDispatchNonce_clean bytes)]
      simp only [if_pos (And.intro hlen hlower), Option.map_some]
  | none =>
      have hrow := replyRow_row scope hp hf
      have hsplit := rsplitOnce_render (n := "n".toList) (by decide : ':' ≠ '=') (by decide)
        (by decide) hrow.1 (hrow.not_named (by decide)) hint
      rw [Option.map_none, Option.toList_none, List.append_nil, splitDispatchNonce, tag, hsplit]
      cases rsplitOnce (marker ':' '=' "n".toList) hint with
      | none => rfl
      | some pr =>
          -- What an earlier marker captures goes on with the row, which is not hexadecimal.
          have hcolon : ':' ∈ pr.2 ++ render ':' '=' (replyRow pack flow scope) :=
            List.mem_append_right _ (mem_render (List.cons_ne_nil _ _))
          have hnot : ¬ (pr.2 ++ render ':' '=' (replyRow pack flow scope)).all hexLower = true := by
            intro hall
            exact absurd (List.all_eq_true.mp hall ':' hcolon) (by decide)
          simp only [Option.map_some]
          rw [if_neg fun h => hnot h.2, Option.map_none]

/-- Reading the reply marker leaves the rest of the row. -/
theorem reply_stage (hp : IsId pack) (hf : IsId flow)
    (hr : scope.replyTo ≠ some "") :
    ((scope.replyTo = none → ¬ tag "reply" <:+: hint) →
      splitValueMarker "reply" "rpl64" (hint ++ render ':' '=' (replyRow pack flow scope))
        = (hint ++ render ':' '=' (threadRow pack flow scope), scope.replyTo)) ∧
      (scope.replyTo = none → tag "reply" <:+: hint →
        (splitValueMarker "reply" "rpl64"
          (hint ++ render ':' '=' (replyRow pack flow scope))).1.length < hint.length) := by
  have hrow := threadRow_row scope hp hf
  refine splitValueMarker_stage (by decide) (by decide) (by decide) hrow.1
    (List.cons_ne_nil _ _) ?_ hr
  exact fun m hm => ⟨hrow.not_named (by decide) m hm, hrow.not_named (by decide) m hm⟩

/-- Then the thread marker. -/
theorem thread_stage (hp : IsId pack) (hf : IsId flow)
    (ht : scope.thread ≠ some "") :
    ((scope.thread = none → ¬ tag "thread" <:+: hint) →
      splitValueMarker "thread" "thr64" (hint ++ render ':' '=' (threadRow pack flow scope))
        = (hint ++ render ':' '=' (cnvRow pack flow scope), scope.thread)) ∧
      (scope.thread = none → tag "thread" <:+: hint →
        (splitValueMarker "thread" "thr64"
          (hint ++ render ':' '=' (threadRow pack flow scope))).1.length < hint.length) := by
  have hrow := cnvRow_row scope hp hf
  refine splitValueMarker_stage (by decide) (by decide) (by decide) hrow.1
    (List.cons_ne_nil _ _) ?_ ht
  exact fun m hm => ⟨hrow.not_named (by decide) m hm, hrow.not_named (by decide) m hm⟩

theorem carried_ne_empty (scope : ReplyScope) : scope.carried ≠ some "" := by
  unfold ReplyScope.carried
  split
  next h => exact fun heq => h.1 (Option.some.inj heq)
  next => exact nofun

/-- And then the conversation. -/
theorem cnv_stage (hp : IsId pack) (hf : IsId flow) :
    ((scope.carried = none → ¬ tag "cnv" <:+: hint) →
      splitValueMarker "cnv" "cnv64" (hint ++ render ':' '=' (cnvRow pack flow scope))
        = (hint ++ render ':' '=' (packRow pack flow), scope.carried)) ∧
      (scope.carried = none → tag "cnv" <:+: hint →
        (splitValueMarker "cnv" "cnv64"
          (hint ++ render ':' '=' (cnvRow pack flow scope))).1.length < hint.length) := by
  have hrow := packRow_row hp hf
  refine splitValueMarker_stage (by decide) (by decide) (by decide) hrow.1
    (List.cons_ne_nil _ _) ?_ (carried_ne_empty scope)
  exact fun m hm => ⟨hrow.not_named (by decide) m hm, hrow.not_named (by decide) m hm⟩

/-- The last marker is read off the end. -/
theorem splitMarker_last {name : String} (hname : IsName name) {value : String}
    (hv : IsId value) (x : List Char) :
    splitMarker name (x ++ tag name ++ value.toList) = (x, some value.toList) := by
  have hne : value.toList ≠ [] := fun h => hv.1 (String.toList_inj.mp h)
  rw [splitMarker, tag, rsplitOnce_marker (by decide) hname.1 hv.2]
  simp only [if_neg hne]

/-- The parts of a published id whose hint hides no value. -/
theorem parse_published (hp : IsId pack) (hf : IsId flow)
    (ht : scope.thread ≠ some "") (hr : scope.replyTo ≠ some "")
    (nonce : Option (Vector UInt8 16)) (hu : Unmasked hint scope) :
    withoutScope (hint ++ render ':' '=' (dispatchMarkers pack flow (some scope) nonce))
        = hint ++ tag "pack" ++ pack.toList ∧
      parseCorrelation (hint ++ render ':' '=' (dispatchMarkers pack flow (some scope) nonce))
        = ⟨hint, some pack, some flow, scope.carried, scope.thread, scope.replyTo,
            nonce.map newDispatchNonce⟩ := by
  have hflow : splitMarker "flow" (hint ++ render ':' '=' (packRow pack flow))
      = (hint ++ tag "pack" ++ pack.toList, some flow.toList) := by
    have hrow : hint ++ render ':' '=' (packRow pack flow)
        = hint ++ tag "pack" ++ pack.toList ++ tag "flow" ++ flow.toList := by
      simp [packRow, render, tag]
    rw [hrow, splitMarker_last (by decide) hf]
  have hstages : withoutScope (hint ++ render ':' '=' (dispatchMarkers pack flow (some scope) nonce))
      = hint ++ tag "pack" ++ pack.toList := by
    rw [withoutScope, dispatchMarkers_eq ht hr, splitDispatchNonce_published hp hf,
      (reply_stage hp hf hr).1 hu.reply, (thread_stage hp hf ht).1 hu.thread,
      (cnv_stage hp hf).1 hu.conversation, hflow]
  refine ⟨hstages, ?_⟩
  rw [parseCorrelation, dispatchMarkers_eq ht hr, splitDispatchNonce_published hp hf]
  simp only [(reply_stage hp hf hr).1 hu.reply, (thread_stage hp hf ht).1 hu.thread,
    (cnv_stage hp hf).1 hu.conversation, hflow, splitMarker_last (by decide : IsName "pack") hp,
    Option.map_some, String.ofList_toList]

/-- A value that is read in the hint leaves a part of the hint. -/
theorem withoutScope_masked (hp : IsId pack) (hf : IsId flow)
    (ht : scope.thread ≠ some "") (hr : scope.replyTo ≠ some "")
    (nonce : Option (Vector UInt8 16)) (hu : ¬ Unmasked hint scope) :
    (withoutScope (hint ++ render ':' '=' (dispatchMarkers pack flow (some scope) nonce))).length
      < hint.length := by
  rw [withoutScope, dispatchMarkers_eq ht hr, splitDispatchNonce_published hp hf]
  refine Nat.lt_of_le_of_lt (splitMarker_before ..).length_le ?_
  by_cases hreply : scope.replyTo = none → ¬ tag "reply" <:+: hint
  · rw [(reply_stage hp hf hr).1 hreply]
    by_cases hthread : scope.thread = none → ¬ tag "thread" <:+: hint
    · rw [(thread_stage hp hf ht).1 hthread]
      by_cases hcnv : scope.carried = none → ¬ tag "cnv" <:+: hint
      · exact absurd ⟨hreply, hthread, hcnv⟩ hu
      · obtain ⟨hnone, hin⟩ := Classical.not_imp.mp hcnv
        exact (cnv_stage hp hf).2 hnone (Classical.not_not.mp hin)
    · obtain ⟨hnone, hin⟩ := Classical.not_imp.mp hthread
      exact Nat.lt_of_le_of_lt (splitValueMarker_before ..).length_le
        ((thread_stage hp hf ht).2 hnone (Classical.not_not.mp hin))
  · obtain ⟨hnone, hin⟩ := Classical.not_imp.mp hreply
    refine Nat.lt_of_le_of_lt (splitValueMarker_before ..).length_le ?_
    exact Nat.lt_of_le_of_lt (splitValueMarker_before ..).length_le
      ((reply_stage hp hf hr).2 hnone (Classical.not_not.mp hin))

/-- The store hint comes back exactly when the hint carries no marker of its own. -/
theorem withoutScope_published_iff (hp : IsId pack)
    (hf : IsId flow) (ht : scope.thread ≠ some "") (hr : scope.replyTo ≠ some "")
    (nonce : Option (Vector UInt8 16)) (session : String) :
    withoutScope (publishedId (some session) pack flow (some scope) nonce)
        = session.toList ++ tag "pack" ++ pack.toList ↔
      (parseCorrelation session.toList).bareHint = session.toList ∧
        Unmasked session.toList scope := by
  rw [publishedId, Option.getD_some]
  constructor
  · intro h
    by_cases hu : Unmasked (parseCorrelation session.toList).bareHint scope
    · rw [(parse_published hp hf ht hr nonce hu).1] at h
      have hbare := List.append_cancel_right (List.append_cancel_right h)
      exact ⟨hbare, hbare ▸ hu⟩
    · have hlt := withoutScope_masked hp hf ht hr nonce hu
      have hle := (parseCorrelation_bareHint_before session.toList).length_le
      rw [h, List.length_append, List.length_append] at hlt
      omega
  · rintro ⟨hbare, hu⟩
    rw [hbare]
    exact (parse_published hp hf ht hr nonce hu).1

/-- The names of all markers. -/
def markerNames : List String :=
  ["pack", "flow", "cnv", "cnv64", "thread", "thr64", "reply", "rpl64", "n"]

/-- An id with any nonce behind it. -/
def correlationId (hint : List Char) (pack flow : String) (scope : ReplyScope)
    (nonce : Option (List Char)) : List Char :=
  hint ++ render ':' '=' (packRow pack flow ++ pushScopeMarkers scope ++
    (nonce.map fun n => ("n".toList, n)).toList)

/-- Every text of the right form is a nonce. -/
theorem exists_nonce {n : List Char} (hlen : n.length = 32) (hlower : n.all hexLower = true) :
    ∃ bytes, newDispatchNonce bytes = n := by
  obtain ⟨bytes, hbytes, henc⟩ := exists_hexEncode 16 hlen (List.all_eq_true.mp hlower)
  exact ⟨⟨bytes.toArray, hbytes⟩, henc⟩

/-- **CORRELATION IDS ROUND-TRIP**: the id of a hint without markers is read back into its hint, its
    pack and flow, the parts of its scope that are not empty (a plain conversation apart, which the
    hint has already) and its nonce, whatever the texts of the scope are. -/
theorem correlation_roundtrip {hint : List Char}
    (hhint : ∀ name ∈ markerNames, ¬ tag name <:+: hint) (hp : IsId pack) (hf : IsId flow)
    (scope : ReplyScope) {nonce : Option (List Char)}
    (hn : ∀ n, nonce = some n → n.length = 32 ∧ n.all hexLower = true) :
    parseCorrelation (correlationId hint pack flow scope nonce)
      = ⟨hint, some pack, some flow, scope.carried, scope.thread.filter (· ≠ ""),
          scope.replyTo.filter (· ≠ ""), nonce⟩ := by
  -- Empty values have no marker, so they may as well be absent.
  obtain ⟨scope', hscope'⟩ : ∃ scope' : ReplyScope, scope' = { scope with
    thread := scope.thread.filter (· ≠ ""), replyTo := scope.replyTo.filter (· ≠ "") } := ⟨_, rfl⟩
  have hfilter : ∀ o : Option String, o.filter (· ≠ "") ≠ some "" := by
    intro o heq
    have := (Option.filter_eq_some_iff.mp heq).2
    simp at this
  have ht : scope'.thread ≠ some "" := by
    rw [hscope']
    exact hfilter _
  have hr : scope'.replyTo ≠ some "" := by
    rw [hscope']
    exact hfilter _
  have hsame : pushScopeMarkers scope' = pushScopeMarkers scope := by
    rw [pushScopeMarkers, filter_nonempty ht, filter_nonempty hr, hscope']
    rfl
  obtain ⟨bytes, hbytes⟩ : ∃ bytes : Option (Vector UInt8 16), bytes.map newDispatchNonce = nonce := by
    cases hnonce : nonce with
    | none => exact ⟨none, rfl⟩
    | some n =>
        obtain ⟨hlen, hlower⟩ := hn n hnonce
        obtain ⟨bytes, hbytes⟩ := exists_nonce hlen hlower
        exact ⟨some bytes, congrArg some hbytes⟩
  have hid : correlationId hint pack flow scope nonce
      = hint ++ render ':' '=' (dispatchMarkers pack flow (some scope') bytes) := by
    rw [correlationId, dispatchMarkers, Option.map_some, Option.getD_some, hsame, ← hbytes,
      Option.map_map]
    rfl
  have hu : Unmasked hint scope' :=
    ⟨fun _ => hhint _ (by decide), fun _ => hhint _ (by decide), fun _ => hhint _ (by decide)⟩
  rw [hid, (parse_published hp hf ht hr bytes hu).2, hbytes, hscope']
  rfl

end Published

/-- Texts that look like markers. -/
def hostileScope : ReplyScope :=
  ⟨"conv:with::colons", some "t::flow=evil:1", some "r::pack=x::n=abc", none⟩

theorem correlation_roundtrip_hostile :
    parseCorrelation (correlationId "demo:prov:chan:conv:user".toList "p.1" "f.1" hostileScope
      (some (List.replicate 32 'a')))
      = ⟨"demo:prov:chan:conv:user".toList, some "p.1", some "f.1", some "conv:with::colons",
          some "t::flow=evil:1", some "r::pack=x::n=abc", some (List.replicate 32 'a')⟩ := by
  have hc : hostileScope.carried = some "conv:with::colons" := by decide +kernel
  have ht : hostileScope.thread.filter (· ≠ "") = some "t::flow=evil:1" := by decide +kernel
  have hr : hostileScope.replyTo.filter (· ≠ "") = some "r::pack=x::n=abc" := by decide +kernel
  rw [← hc, ← ht, ← hr]
  refine correlation_roundtrip ?_ ⟨by decide, by decide⟩ ⟨by decide, by decide⟩ hostileScope ?_
  · decide +kernel
  · intro n hn
    cases hn
    decide

/-! ## Finding the wait -/

/-- Both messages have the same wait and the same turn lock. -/
def SameWait (ids : IdChecks) (sha256 : List UInt8 → List UInt8) (e e' : IngressEnvelope) : Prop :=
  ∃ ctx ctx', buildStoreCtx ids sha256 e = .ok ctx ∧ buildStoreCtx ids sha256 e' = .ok ctx' ∧
    ctx'.key = ctx.key ∧ turnKey ids sha256 e' = turnKey ids sha256 e

/-- The hint carries no marker of its own, and the conversation is behind a marker, or it is
    the fourth segment of the hint, or, where the hint has no fourth one and the scope nothing
    else, it is the third segment or the flow. -/
structure Recoverable (hint : List Char) (flow : String) (scope : ReplyScope) : Prop where
  bare : (parseCorrelation hint).bareHint = hint
  unmasked : Unmasked hint scope
  conversation : scope.carried ≠ none ∨ (hintParts hint)[3]? = some scope.conversation ∨
    ((hintParts hint)[3]? = none ∧ (hintParts hint)[2]?.getD flow = scope.conversation ∧
      scope.thread = none ∧ scope.replyTo = none)

/-- What the types crate accepts as the id of a pack or of a flow is a plain token. -/
def RecordChecks.Plain (records : RecordChecks) : Prop :=
  (∀ id, records.pack id = none → isPlainToken id = true) ∧
    ∀ id, records.flow id = none → isPlainToken id = true

/-- A tenant that passes its checks. -/
theorem tenantCtx_ok {ids : IdChecks} {e : IngressEnvelope} {tenant : TenantCtx}
    (h : e.tenantCtx ids = .ok tenant) :
    ids.env tenant.env = none ∧ ids.tenant tenant.tenant = none ∧
      tenant = ⟨e.env.getD defaultEnv, e.tenant, none⟩ := by
  unfold IngressEnvelope.tenantCtx at h
  dsimp only at h
  split at h
  next => exact nomatch h
  next henv =>
    split at h
    next => exact nomatch h
    next htenant =>
      cases h
      exact ⟨henv, htenant, rfl⟩

/-- The store's context of a canonical envelope. -/
theorem buildStoreCtx_canonical {ids : IdChecks} {sha256 : List UInt8 → List UInt8}
    {e : IngressEnvelope} {tenant : TenantCtx} {scope : ReplyScope}
    (h : e.canonicalize.tenantCtx ids = .ok tenant) (hs : e.canonicalize.replyScope = some scope) :
    buildStoreCtx ids sha256 e.canonicalize = .ok ⟨tenant.env, tenant.tenant,
      deriveUserId sha256 e.canonicalize.storeHint, e.canonicalize.storeHint, scope⟩ := by
  rw [buildStoreCtx, hs]
  simp only [h]

/-- A response is of the tenant and the environment that it is delivered for. -/
theorem tenantCtx_resumed {ids : IdChecks} {e : IngressEnvelope} {tenant : TenantCtx}
    (h : e.tenantCtx ids = .ok tenant) (id : List Char) (output : Json) :
    (buildResumeEnvelope tenant id output).canonicalize.tenantCtx ids = .ok tenant := by
  obtain ⟨henv, htenant, rfl⟩ := tenantCtx_ok h
  show IngressEnvelope.tenantCtx ids _ = _
  unfold IngressEnvelope.tenantCtx
  have henv' : ids.env ((buildResumeEnvelope ⟨e.env.getD defaultEnv, e.tenant, none⟩ id
    output).canonicalize.env.getD defaultEnv) = none := henv
  have htenant' : ids.tenant (buildResumeEnvelope ⟨e.env.getD defaultEnv, e.tenant, none⟩ id
    output).canonicalize.tenant = none := htenant
  simp only [henv', htenant']
  rfl

/-- The reply scope of a response. -/
theorem scope_resumed {tenant : TenantCtx} {id : List Char} {output : Json} {hint : List Char}
    {pack flow : String} {scope : ReplyScope} {nonce : Option (List Char)}
    (h : parseCorrelation id
      = ⟨hint, some pack, some flow, scope.carried, scope.thread, scope.replyTo, nonce⟩) :
    (buildResumeEnvelope tenant id output).canonicalize.replyScope =
      some (((scope.carried <|> (hintParts hint)[3]?).map fun conversation =>
        (⟨conversation, scope.thread, scope.replyTo, none⟩ : ReplyScope)).getD
          ⟨(hintParts hint)[2]?.getD flow, none, none, none⟩) := by
  unfold buildResumeEnvelope
  simp only [h]
  cases hc : (scope.carried <|> (hintParts hint)[3]?) with
  | none => rfl
  | some conversation => rfl

/-- The reply scope comes back exactly when the conversation does. -/
theorem scope_resumed_iff (hint : List Char) (flow : String) (scope scope' : ReplyScope)
    (h : scope' = ((scope.carried <|> (hintParts hint)[3]?).map fun conversation =>
        (⟨conversation, scope.thread, scope.replyTo, none⟩ : ReplyScope)).getD
          ⟨(hintParts hint)[2]?.getD flow, none, none, none⟩) :
    (scope'.conversation = scope.conversation ∧ scope'.thread = scope.thread ∧
        scope'.replyTo = scope.replyTo) ↔
      (scope.carried ≠ none ∨ (hintParts hint)[3]? = some scope.conversation ∨
        ((hintParts hint)[3]? = none ∧ (hintParts hint)[2]?.getD flow = scope.conversation ∧
          scope.thread = none ∧ scope.replyTo = none)) := by
  subst h
  cases hc : scope.carried with
  | some conversation =>
      have hconv : conversation = scope.conversation := by
        unfold ReplyScope.carried at hc
        split at hc
        next => exact (Option.some.inj hc).symm
        next => exact nomatch hc
      simp [hconv]
  | none =>
      cases hpart : (hintParts hint)[3]? with
      | some part => simp
      | none =>
          simp only [Option.orElse_eq_orElse, Option.orElse_eq_or, Option.or_none,
            Option.map_none, Option.getD_none]
          constructor
          · rintro ⟨hconv, hthread, hreply⟩
            exact .inr (.inr ⟨trivial, hconv, hthread.symm, hreply.symm⟩)
          · rintro (hne | hsome | ⟨-, hconv, hthread, hreply⟩)
            · exact absurd rfl hne
            · exact nomatch hsome
            · exact ⟨hconv, hthread.symm, hreply.symm⟩

/-- The canonical message of the response to a dispatch of a flow that runs for `e`. -/
def responseTo (e : IngressEnvelope) (tenant : TenantCtx) (pack flow : String)
    (nonce : Option (Vector UInt8 16)) (output : Json) : IngressEnvelope :=
  (buildResumeEnvelope tenant (publishedId e.canonicalize.sessionHint pack flow
    e.canonicalize.replyScope nonce) output).canonicalize

section Resumed

variable {ids : IdChecks} {records : RecordChecks} {sha256 : List UInt8 → List UInt8}
  {e : IngressEnvelope} {tenant : TenantCtx} {pack flow : String} {scope : ReplyScope}
  {nonce : Option (Vector UInt8 16)} {output : Json}

/-- The store hint of the message. -/
theorem storeHint_named (hpack : e.packId = some pack) :
    e.canonicalize.storeHint.toList = e.hint.toList ++ tag "pack" ++ pack.toList := by
  have htag : tag "pack" = "::pack=".toList := by decide
  rw [IngressEnvelope.canonicalize_storeHint, hpack, htag, List.append_assoc]
  rfl

/-- The store hint of a response is that of the message exactly when the hint of the message
    carries no marker of its own. -/
theorem storeHint_resumed_iff (hpack : e.packId = some pack) (hp : isPlainToken pack = true)
    (hf : isPlainToken flow = true) (hscope : e.canonicalize.replyScope = some scope)
    (ht : scope.thread ≠ some "") (hr : scope.replyTo ≠ some "") :
    (responseTo e tenant pack flow nonce output).storeHint = e.canonicalize.storeHint ↔
      (parseCorrelation e.hint.toList).bareHint = e.hint.toList ∧
        Unmasked e.hint.toList scope := by
  have hhint : e.canonicalize.sessionHint = some e.hint := rfl
  rw [responseTo, hhint, hscope, ← withoutScope_published_iff (isPlainToken_clean hp)
      (isPlainToken_clean hf) ht hr nonce,
    ← String.toList_inj, storeHint_resumed, storeHint_named hpack]

/-- The scope of a response whose store hint comes back. -/
theorem replyScope_resumed (hp : isPlainToken pack = true) (hf : isPlainToken flow = true)
    (hscope : e.canonicalize.replyScope = some scope) (ht : scope.thread ≠ some "")
    (hr : scope.replyTo ≠ some "") (hbare : (parseCorrelation e.hint.toList).bareHint = e.hint.toList)
    (hu : Unmasked e.hint.toList scope) :
    (responseTo e tenant pack flow nonce output).replyScope =
      some (((scope.carried <|> (hintParts e.hint.toList)[3]?).map fun conversation =>
        (⟨conversation, scope.thread, scope.replyTo, none⟩ : ReplyScope)).getD
          ⟨(hintParts e.hint.toList)[2]?.getD flow, none, none, none⟩) := by
  have hhint : e.canonicalize.sessionHint = some e.hint := rfl
  have hparse :=
    (parse_published (isPlainToken_clean hp) (isPlainToken_clean hf) ht hr nonce hu).2
  rw [responseTo, hhint, hscope, publishedId, Option.getD_some, hbare]
  exact scope_resumed hparse

/-- The response to a dispatch finds the wait of the message that dispatched, and takes its
    turn lock, exactly when the hint of the message is recoverable from the published id. -/
theorem resumed_iff (htenant : e.tenantCtx ids = .ok tenant) (hplain : records.Plain)
    (hpack : e.packId = some pack) (hp : records.pack pack = none)
    (hf : records.flow flow = none) (hscope : e.canonicalize.replyScope = some scope)
    (ht : scope.thread ≠ some "") (hr : scope.replyTo ≠ some "")
    (hsha : deriveUserId sha256 (responseTo e tenant pack flow nonce output).storeHint
        = deriveUserId sha256 e.canonicalize.storeHint →
      (responseTo e tenant pack flow nonce output).storeHint = e.canonicalize.storeHint) :
    SameWait ids sha256 e.canonicalize (responseTo e tenant pack flow nonce output) ↔
      Recoverable e.hint.toList flow scope := by
  have hpack' := hplain.1 pack hp
  have hflow' := hplain.2 flow hf
  have hiff : (responseTo e tenant pack flow nonce output).storeHint
      = e.canonicalize.storeHint ↔ _ :=
    storeHint_resumed_iff hpack hpack' hflow' hscope ht hr
  have hbuilt : buildStoreCtx ids sha256 e.canonicalize = .ok ⟨tenant.env, tenant.tenant,
      deriveUserId sha256 e.canonicalize.storeHint, e.canonicalize.storeHint, scope⟩ :=
    buildStoreCtx_canonical htenant hscope
  obtain ⟨scope', hscope'⟩ : ∃ scope',
      (responseTo e tenant pack flow nonce output).replyScope = some scope' := ⟨_, rfl⟩
  have hbuilt' : buildStoreCtx ids sha256 (responseTo e tenant pack flow nonce output)
      = .ok ⟨tenant.env, tenant.tenant,
        deriveUserId sha256 (responseTo e tenant pack flow nonce output).storeHint,
        (responseTo e tenant pack flow nonce output).storeHint, scope'⟩ :=
    buildStoreCtx_canonical (tenantCtx_resumed htenant _ _) hscope'
  constructor
  · rintro ⟨ctx, ctx', hctx, hctx', hkey, -⟩
    rw [hbuilt] at hctx
    rw [hbuilt'] at hctx'
    cases hctx
    cases hctx'
    obtain ⟨hbare, hu⟩ := hiff.mp (hsha (congrArg WaitKey.user hkey))
    have hscopes : (responseTo e tenant pack flow nonce output).replyScope = _ :=
      replyScope_resumed hpack' hflow' hscope ht hr hbare hu
    rw [hscope'] at hscopes
    refine ⟨hbare, hu, ?_⟩
    exact (scope_resumed_iff _ flow scope scope' (Option.some.inj hscopes)).mp
      ⟨congrArg WaitKey.conversation hkey, congrArg WaitKey.thread hkey,
        congrArg WaitKey.replyTo hkey⟩
  · intro h
    have hhint := hiff.mpr ⟨h.bare, h.unmasked⟩
    have hscopes : (responseTo e tenant pack flow nonce output).replyScope = _ :=
      replyScope_resumed hpack' hflow' hscope ht hr h.bare h.unmasked
    rw [hscope'] at hscopes
    obtain ⟨hconv, hthread, hreply⟩ :=
      (scope_resumed_iff _ flow scope scope' (Option.some.inj hscopes)).mpr h.conversation
    refine ⟨_, _, hbuilt, hbuilt', ?_, ?_⟩
    · simp only [StoreCtx.key, hhint, hconv, hthread, hreply]
    · rw [turnKey, turnKey, hbuilt, hbuilt']
      simp only [Except.map, hhint]

end Resumed

/-- The ids of the types crate, as far as packs and flows go. -/
def plainRecords : RecordChecks :=
  let check := fun id => if isPlainToken id then none else some "invalid id"
  ⟨check, check⟩

theorem plainRecords_plain : plainRecords.Plain := by
  have hcheck (id : String) (h : (if isPlainToken id then none else some "invalid id") = none) :
      isPlainToken id = true := by
    by_cases hp : isPlainToken id = true
    · exact hp
    · rw [if_neg hp] at h
      exact nomatch h
  exact ⟨hcheck, hcheck⟩

/-- A derived hint without separators in its fields. -/
theorem parkedMessage_recoverable :
    Recoverable parkedMessage.hint.toList "main" ⟨"c1", none, none, none⟩ := by
  refine ⟨by decide +kernel, ⟨?_, ?_, ?_⟩, .inr (.inl (by decide +kernel))⟩
  · exact fun _ => by decide +kernel
  · exact fun _ => by decide +kernel
  · exact fun _ => by decide +kernel

theorem resumed_iff_derived :
    Recoverable parkedMessage.hint.toList "main" ⟨"c1", none, none, none⟩ ∧
      SameWait openIds parkedDigest parkedMessage.canonicalize
        (responseTo parkedMessage ⟨"local", "acme", none⟩ "weather" "main" none .null) := by
  have hiff : SameWait openIds parkedDigest parkedMessage.canonicalize
        (responseTo parkedMessage ⟨"local", "acme", none⟩ "weather" "main" none .null) ↔
      Recoverable parkedMessage.hint.toList "main" ⟨"c1", none, none, none⟩ :=
    resumed_iff rfl plainRecords_plain rfl rfl rfl rfl nofun nofun fun _ => by decide +kernel
  exact ⟨parkedMessage_recoverable, hiff.mpr parkedMessage_recoverable⟩

/-- A message with a hint of its own. -/
def roomMessage : IngressEnvelope :=
  { parkedMessage with sessionHint := some "room-7", conversation := some "conv" }

/-- SHA-256 on the store hint of the room. -/
def roomDigest (bytes : List UInt8) : List UInt8 :=
  if bytes = "room-7::pack=weather".toUTF8.data.toList then [
    94, 204, 227, 124, 89, 190, 20, 233, 162, 254, 35, 116, 91, 13, 214, 85,
    108, 154, 230, 81, 40, 124, 162, 4, 2, 195, 145, 203, 221, 216, 24, 230]
  else []

/-- The hint does not name the conversation, and no marker does: the response looks for a wait
    in a conversation named like the flow. -/
theorem explicit_hint_lost :
    roomMessage.tenantCtx openIds = .ok ⟨"local", "acme", none⟩ ∧
      roomMessage.canonicalize.replyScope = some ⟨"conv", none, none, none⟩ ∧
      ¬ SameWait openIds roomDigest roomMessage.canonicalize
        (responseTo roomMessage ⟨"local", "acme", none⟩ "weather" "main" none .null) := by
  refine ⟨rfl, rfl, ?_⟩
  rintro ⟨ctx, ctx', hctx, hctx', hkey, -⟩
  have hscope : some (⟨"conv", none, none, none⟩ : ReplyScope) = some ctx.scope :=
    (buildStoreCtx_ok hctx).2.2.2
  have hmain : (responseTo roomMessage ⟨"local", "acme", none⟩ "weather" "main" none
      .null).replyScope = some ⟨"main", none, none, none⟩ := by decide +kernel
  have hscope' := hmain.symm.trans (buildStoreCtx_ok hctx').2.2.2
  have hconv : ctx'.scope.conversation = ctx.scope.conversation :=
    congrArg WaitKey.conversation hkey
  rw [← Option.some.inj hscope, ← Option.some.inj hscope'] at hconv
  exact absurd hconv (by decide)

end Greentic.Engine
