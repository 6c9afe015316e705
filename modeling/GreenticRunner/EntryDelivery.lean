import GreenticRunner.CardSubmit
import GreenticRunner.FailureLift

/-! # Two ways of delivering one message

    `greentic-start` wraps an activity as `{input: m}`, the direct runner path delivers `m`
    itself.  A submit is normalised in three places, each of which resolves the envelope for
    itself, and the three have to find the SAME message in both shapes.

    * `delivery_equivalent` — what is the same in both deliveries;
    * `text_of_metadata_differs` — the one thing that is not: a metadata field named as a
      field of the envelope that `submitted_fields` leaves out. -/

namespace Greentic.FlowWalk

open Engine

open Drive (NodeOutput)

/-! ## Card submits -/

/-- `ENVELOPE_TRANSPORT_KEYS`. -/
def envelopeTransportKeys : List String :=
  ["id", "tenant", "channel", "session_id", "reply_scope", "from", "to", "correlation_id",
    "attachments", "extensions"]

/-- `CHANNEL_CONTEXT_METADATA_KEYS`. -/
def channelContextMetadataKeys : List String :=
  ["locale", "team", "env", "autoStart", "universal", "user_id", "user_verified", "flow_hint",
    "extensions"]

/-- `is_channel_context_key`. -/
def isChannelContextKey (key : String) : Bool :=
  channelContextMetadataKeys.contains key || "channel.".toList.isPrefixOf key.toList

/-- `stamped_identity_matches`. -/
def stampedIdentityMatches (key : String) (value envelope : Json) : Bool :=
  match value.asStr? with
  | none => false
  | some v =>
      if key = "route" then (envelope.get? "session_id").bind Json.asStr? = some v
      else if key = "tenant" then (pointer envelope "tenant" "tenant").bind Json.asStr? = some v
      else false

/-- `is_channel_envelope`. -/
def isChannelEnvelope (map : List (String × Json)) : Bool :=
  ["session_id", "channel", "tenant"].all fun key => ((Json.obj map).get? key).isSome

/-- The root of the envelope, in both shapes. -/
def envelopeOf (entry : Json) : Json := ((entry.get? "input").filter Json.isObject).getD entry

/-- `is_card_submit`. -/
def isCardSubmit (entry : Json) : Bool :=
  let metadata := objectFields ((resolveEntryMetadata entry).getD .null)
  let field := fun key => (Json.obj metadata).get? key
  let hasAction := ((field "action").bind Json.asStr?).any fun action => trimmed action ≠ ""
  let marked := (field submitMarkerKey).any fun value =>
    value.asStr? = some "true" || value.asBool? = some true
  let envelope := envelopeOf entry
  let root := objectFields envelope
  let rootInput := root.any fun f =>
    f.1 ≠ "metadata" && f.1 ≠ "text" &&
      !(isChannelEnvelope root && envelopeTransportKeys.contains f.1)
  let metadataInput := metadata.any fun f =>
    f.1 ≠ "action" && f.1 ≠ submitMarkerKey && !isChannelContextKey f.1 &&
      !stampedIdentityMatches f.1 f.2 envelope
  hasAction || marked || rootInput || metadataInput

/-! ## The context of node parameters -/

/-- `merge_submitted_fields_into_entry`. -/
def mergeSubmittedFieldsIntoEntry (entry : Json) (fields : List (String × Json)) : Json :=
  match entry with
  | .obj map => .obj (fields.foldl (fun m f => orInsert m f.1 f.2) map)
  | v => v

/-- The entry that a template sees. -/
def templateEntry (entry : Json) : Json :=
  if entry.isNull then .obj []
  else mergeSubmittedFieldsIntoEntry (aliasInputToEntry entry) (submittedFields entry)

/-- What a template context has beside the entry. -/
structure TemplateScope where
  prev : Json
  node : Json
  state : Json
  vars : Json
  now : Json

/-- `template_context`. -/
def templateContext (entry : Json) (scope : TemplateScope) : Json :=
  let entry := templateEntry entry
  .obj <| [("entry", entry), ("in", entry), ("prev", scope.prev), ("node", scope.node),
    ("state", scope.state), ("vars", scope.vars), ("now", scope.now)].foldl
      (fun m f => Json.setField m f.1 f.2) []

/-! ## Maps -/

/-- The names of a `serde_json::Map` are distinct. -/
def DistinctKeys (fields : List (String × Json)) : Prop := (fields.map (·.1)).Nodup

theorem get?_cons (f : String × Json) (rest : List (String × Json)) (key : String) :
    (Json.obj (f :: rest)).get? key = if f.1 = key then some f.2 else (Json.obj rest).get? key := by
  by_cases h : f.1 = key
  · simp [Json.get?, h]
  · rw [Json.get?, List.find?_cons_of_neg (by simpa using h), if_neg h]
    rfl

/-- A name that is not there. -/
theorem get?_eq_none_of_not_mem {fields : List (String × Json)} {key : String}
    (h : key ∉ fields.map (·.1)) : (Json.obj fields).get? key = none := by
  induction fields with
  | nil => rfl
  | cons f rest ih =>
      rw [List.map_cons, List.mem_cons, not_or] at h
      rw [get?_cons, if_neg (Ne.symm h.1)]
      exact ih h.2

/-- A filter on names. -/
theorem get?_filter (fields : List (String × Json)) (keep : String → Bool) (key : String) :
    (Json.obj (fields.filter fun f => keep f.1)).get? key =
      if keep key then (Json.obj fields).get? key else none := by
  induction fields with
  | nil => simp [Json.get?]
  | cons f rest ih =>
      rw [List.filter_cons, get?_cons]
      by_cases hf : f.1 = key
      · subst hf
        by_cases hk : keep f.1 = true
        · rw [if_pos hk, get?_cons, if_pos rfl, if_pos hk, if_pos rfl]
        · rw [if_neg hk, ih, if_neg hk, if_neg hk]
      · rw [if_neg hf]
        split
        · rw [get?_cons, if_neg hf]
          exact ih
        · exact ih

/-- Fields inserted one after another win over what was there. -/
theorem get?_foldl_setField {fields : List (String × Json)} (h : DistinctKeys fields)
    (init : List (String × Json)) (key : String) :
    (Json.obj (fields.foldl (fun m f => Json.setField m f.1 f.2) init)).get? key =
      ((Json.obj fields).get? key).or ((Json.obj init).get? key) := by
  induction fields generalizing init with
  | nil => rfl
  | cons f rest ih =>
      obtain ⟨hnot, hrest⟩ := List.nodup_cons.mp h
      rw [List.foldl_cons, ih hrest, get?_cons]
      by_cases hf : f.1 = key
      · subst hf
        rw [if_pos rfl, get?_eq_none_of_not_mem hnot, Json.get?_setField_self]
        rfl
      · rw [if_neg hf, Json.get?_setField_of_ne (Ne.symm hf)]

/-- Fields that are only inserted where they are missing. -/
theorem get?_foldl_orInsert (fields init : List (String × Json)) (key : String) :
    (Json.obj (fields.foldl (fun m f => orInsert m f.1 f.2) init)).get? key =
      ((Json.obj init).get? key).or ((Json.obj fields).get? key) := by
  induction fields generalizing init with
  | nil => simp [Json.get?]
  | cons f rest ih =>
      rw [List.foldl_cons, ih, get?_cons]
      by_cases hf : f.1 = key
      · subst hf
        rw [if_pos rfl, get?_orInsert_self]
        cases (Json.obj init).get? f.1 with
        | none => rfl
        | some v => rfl
      · rw [if_neg hf, get?_orInsert_of_ne (Ne.symm hf)]

/-! ## Messages -/

/-- A JSON object without an `input` key. -/
structure Message where
  fields : List (String × Json)
  distinct : DistinctKeys fields
  plain : (Json.obj fields).get? "input" = none

namespace Message

/-- The message as the entry itself. -/
def bare (m : Message) : Json := .obj m.fields

/-- The message under `input`. -/
def wrapped (m : Message) : Json := .obj [("input", m.bare)]

theorem bare_get?_input (m : Message) : m.bare.get? "input" = none := m.plain

theorem wrapped_get? (m : Message) (key : String) :
    m.wrapped.get? key = if "input" = key then some m.bare else none := get?_cons _ _ key

/-- Both shapes have the metadata of the message. -/
theorem metadata_wrapped (m : Message) :
    resolveEntryMetadata m.wrapped = resolveEntryMetadata m.bare := by
  rw [resolveEntryMetadata, resolveEntryMetadata, pointer, pointer, m.wrapped_get?,
    m.wrapped_get?, if_pos rfl, if_neg (by decide), m.bare_get?_input]
  show (m.bare.get? "metadata").or none = none.or (m.bare.get? "metadata")
  rw [Option.or_none, Option.none_or]

/-- Both shapes have the message as their envelope. -/
theorem envelopeOf_bare (m : Message) : envelopeOf m.bare = m.bare := by
  rw [envelopeOf, m.bare_get?_input]
  rfl

theorem envelopeOf_wrapped (m : Message) : envelopeOf m.wrapped = m.bare := by
  rw [envelopeOf, m.wrapped_get?, if_pos rfl]
  rfl

theorem submittedFields_wrapped (m : Message) : submittedFields m.wrapped = submittedFields m.bare := by
  have henvelope : envelopeOf m.wrapped = envelopeOf m.bare := by
    rw [m.envelopeOf_wrapped, m.envelopeOf_bare]
  unfold envelopeOf at henvelope
  rw [submittedFields, submittedFields, m.metadata_wrapped, henvelope]

theorem isCardSubmit_wrapped (m : Message) : isCardSubmit m.wrapped = isCardSubmit m.bare := by
  rw [isCardSubmit, isCardSubmit, m.metadata_wrapped, m.envelopeOf_wrapped, m.envelopeOf_bare]

/-- The alias adds the message under `input` to the bare shape only. -/
theorem alias_bare (m : Message) :
    aliasInputToEntry m.bare = .obj (Json.setField m.fields "input" m.bare) := by
  have hnone : ¬ (m.bare.get? "input").isSome = true := by
    rw [m.bare_get?_input]
    exact nofun
  exact if_neg hnone

theorem alias_wrapped (m : Message) : aliasInputToEntry m.wrapped = m.wrapped := by
  have hsome : (m.wrapped.get? "input").isSome = true := by
    rw [m.wrapped_get?, if_pos rfl]
    rfl
  show (if (m.wrapped.get? "input").isSome then m.wrapped
    else .obj (Json.setField [("input", m.bare)] "input" m.wrapped)) = m.wrapped
  exact if_pos hsome

/-- After the alias a field of the message is found through `input` in both shapes, or nowhere. -/
theorem aliased_field (m : Message) {key : String} (h : key ≠ "input") :
    (pointer (aliasInputToEntry m.bare) "input" key).or ((aliasInputToEntry m.bare).get? key) =
        m.bare.get? key ∧
      (pointer (aliasInputToEntry m.wrapped) "input" key).or
        ((aliasInputToEntry m.wrapped).get? key) = m.bare.get? key := by
  constructor
  · rw [m.alias_bare, pointer, Json.get?_setField_self, Json.get?_setField_of_ne h]
    show (m.bare.get? key).or (m.bare.get? key) = m.bare.get? key
    rw [Option.or_self]
  · rw [m.alias_wrapped, pointer, m.wrapped_get?, m.wrapped_get?, if_pos rfl, if_neg (Ne.symm h)]
    show (m.bare.get? key).or none = m.bare.get? key
    rw [Option.or_none]

end Message

/-- The response of a routing context. -/
theorem get?_response (output : NodeOutput) (s : ExecutionState) (scope : Scope) :
    (buildRoutingContext output s scope).get? "response" =
      some (.obj (match ((pointer (aliasInputToEntry s.entry) "input" "text").or
          ((aliasInputToEntry s.entry).get? "text")).filter (!·.isNull) with
        | some text => Json.setField (objectFields
            ((resolveEntryMetadata (aliasInputToEntry s.entry)).getD .null)) "text" text
        | none => objectFields ((resolveEntryMetadata (aliasInputToEntry s.entry)).getD .null))) := by
  unfold buildRoutingContext
  refine (Json.get?_setField_of_ne (by decide : "response" ≠ "event") _ _).trans ?_
  exact Json.get?_setField_self _ _ _

theorem Message.response_wrapped (m : Message) (output : NodeOutput) (s : ExecutionState)
    (scope : Scope) :
    (buildRoutingContext output { s with entry := m.wrapped } scope).get? "response" =
      (buildRoutingContext output { s with entry := m.bare } scope).get? "response" := by
  obtain ⟨htext, htext'⟩ := m.aliased_field (show "text" ≠ "input" by decide)
  obtain ⟨hmeta, hmeta'⟩ := m.aliased_field (show "metadata" ≠ "input" by decide)
  rw [get?_response, get?_response]
  dsimp only
  rw [htext, htext', resolveEntryMetadata, resolveEntryMetadata, hmeta, hmeta']

/-! ## Submitted fields -/

/-- **THE ROOT WINS**: a submitted field is the one of the envelope, `text` and `metadata`
    apart, or else the one of the metadata. -/
theorem Message.get?_submittedFields (m : Message) (key : String) :
    (Json.obj (submittedFields m.bare)).get? key =
      ((if key ≠ "metadata" ∧ key ≠ "text" then m.bare.get? key else none).or
        ((Json.obj (((objectFields ((resolveEntryMetadata m.bare).getD .null)).filter fun f =>
          f.1 ≠ "action" && f.1 ≠ submitMarkerKey).foldl
            (fun m f => Json.setField m f.1 f.2) [])).get? key)) := by
  have hkeys : DistinctKeys (m.fields.filter fun f => f.1 ≠ "metadata" && f.1 ≠ "text") :=
    m.distinct.sublist (List.Sublist.map _ List.filter_sublist)
  have henvelope : ((m.bare.get? "input").filter Json.isObject).getD m.bare = m.bare := m.envelopeOf_bare
  rw [submittedFields, henvelope]
  show (Json.obj ((m.fields.filter fun f => f.1 ≠ "metadata" && f.1 ≠ "text").foldl
    (fun m f => Json.setField m f.1 f.2) _)).get? key = _
  rw [get?_foldl_setField hkeys]
  congr 1
  rw [get?_filter m.fields (fun k => k ≠ "metadata" && k ≠ "text")]
  simp [Message.bare]

/-- **THE ENTRY WINS** over the submitted fields in a template. -/
theorem Message.get?_templateEntry (m : Message) {key : String} (h : key ≠ "input") :
    (templateEntry m.bare).get? key =
        (m.bare.get? key).or ((Json.obj (submittedFields m.bare)).get? key) ∧
      (templateEntry m.wrapped).get? key = (Json.obj (submittedFields m.bare)).get? key := by
  constructor
  · show (mergeSubmittedFieldsIntoEntry (aliasInputToEntry m.bare) (submittedFields m.bare)).get? key = _
    rw [m.alias_bare, mergeSubmittedFieldsIntoEntry, get?_foldl_orInsert, Json.get?_setField_of_ne h]
    rfl
  · show (mergeSubmittedFieldsIntoEntry (aliasInputToEntry m.wrapped)
      (submittedFields m.wrapped)).get? key = _
    rw [m.alias_wrapped, m.submittedFields_wrapped, Message.wrapped, mergeSubmittedFieldsIntoEntry,
      get?_foldl_orInsert]
    show (m.wrapped.get? key).or _ = _
    rw [m.wrapped_get?, if_neg (Ne.symm h), Option.none_or]

/-- `entry` of a template context. -/
theorem pointer_templateContext (entry : Json) (scope : TemplateScope) (key : String) :
    pointer (templateContext entry scope) "entry" key = (templateEntry entry).get? key := by
  rw [pointer, templateContext, get?_foldl_setField (by simp [DistinctKeys]), get?_cons, if_pos rfl]
  rfl

/-- A change of a field that is not there. -/
theorem mapField_of_none {name : String} {fields : List (String × Json)}
    (h : (Json.obj fields).get? name = none) (f : Json → Json) :
    mapField name f (.obj fields) = .obj fields := by
  induction fields with
  | nil => rfl
  | cons p rest ih =>
      rw [get?_cons] at h
      split at h
      · exact nomatch h
      · rename_i hp
        have hrest := Json.obj.inj (ih h)
        show Json.obj ((if p.1 = name then (p.1, f p.2) else p) :: _) = _
        rw [if_neg hp, hrest]

/-- The message whose action was consumed. -/
def Message.consumed (m : Message) : Message where
  fields := m.fields.map fun p => if p.1 = "metadata" then (p.1, removeAction p.2) else p
  distinct := by
    have hkeys : (m.fields.map fun p => if p.1 = "metadata" then (p.1, removeAction p.2) else p).map (·.1)
        = m.fields.map (·.1) := by
      rw [List.map_map]
      refine List.map_congr_left ?_
      intro p _
      show (if p.1 = "metadata" then (p.1, removeAction p.2) else p).1 = p.1
      split <;> rfl
    rw [DistinctKeys, hkeys]
    exact m.distinct
  plain := by
    have hget := mapField_get?_of_ne (show "input" ≠ "metadata" by decide) removeAction m.bare
    exact hget.trans m.plain

/-- The action is consumed in both shapes alike. -/
theorem Message.consume_bare (m : Message) : consumeRoutingAction m.bare = m.consumed.bare := by
  rw [consumeRoutingAction, Message.bare, mapField_of_none m.plain]
  rfl

theorem Message.consume_wrapped (m : Message) :
    consumeRoutingAction m.wrapped = m.consumed.wrapped := rfl

/-! ## Both deliveries -/

/-- **WRAPPED AND BARE DELIVERY ARE EQUIVALENT.**  Every JSON object without an `input` key has the
    same submitted fields, is the same kind of activity and gives the same `response` whether it
    is the entry or wrapped in one, and a node parameter reads the same `entry.<field>` for every
    submitted field but `input`, and but `text` and `metadata` where the message itself has a
    field of that name.  Consuming the action keeps the two deliveries of one message. -/
theorem delivery_equivalent (m : Message) :
    submittedFields m.wrapped = submittedFields m.bare ∧
      isCardSubmit m.wrapped = isCardSubmit m.bare ∧
      (∀ (output : NodeOutput) (s : ExecutionState) (scope : Scope),
        (buildRoutingContext output { s with entry := m.wrapped } scope).get? "response" =
          (buildRoutingContext output { s with entry := m.bare } scope).get? "response") ∧
      (∀ (scope : TemplateScope) (key : String), (Json.obj (submittedFields m.bare)).get? key ≠ none →
        key ≠ "input" → (key = "text" ∨ key = "metadata" → m.bare.get? key = none) →
        pointer (templateContext m.wrapped scope) "entry" key =
          pointer (templateContext m.bare scope) "entry" key) ∧
      ∃ m' : Message, consumeRoutingAction m.bare = m'.bare ∧
        consumeRoutingAction m.wrapped = m'.wrapped := by
  refine ⟨m.submittedFields_wrapped, m.isCardSubmit_wrapped, m.response_wrapped, ?_,
    m.consumed, m.consume_bare, m.consume_wrapped⟩
  intro scope key _ hinput hroot
  obtain ⟨hbare, hwrapped⟩ := m.get?_templateEntry hinput
  rw [pointer_templateContext, pointer_templateContext, hbare, hwrapped]
  by_cases hkey : key = "text" ∨ key = "metadata"
  · rw [hroot hkey, Option.none_or]
  · -- any other field of the message is the submitted one
    rw [not_or] at hkey
    rw [m.get?_submittedFields, if_pos ⟨hkey.2, hkey.1⟩]
    cases m.bare.get? key with
    | none => rfl
    | some v => rfl

/-- A message with a field, and metadata with a locale and an action. -/
def cityMessage : Message where
  fields := [("city", .str "Oslo"),
    ("metadata", .obj [("action", .str "go"), ("locale", .str "nb")]), ("text", .str "hi")]
  distinct := by simp [DistinctKeys]
  plain := rfl

/-- The locale of the message is read alike. -/
theorem delivery_equivalent_city :
    (Json.obj (submittedFields cityMessage.bare)).get? "locale" = some (.str "nb") ∧
      pointer (templateContext cityMessage.wrapped ⟨.null, .null, .null, .null, .null⟩) "entry" "locale" =
        pointer (templateContext cityMessage.bare ⟨.null, .null, .null, .null, .null⟩) "entry" "locale" := by
  have hfield : (Json.obj (submittedFields cityMessage.bare)).get? "locale" = some (.str "nb") := rfl
  refine ⟨hfield, (delivery_equivalent cityMessage).2.2.2.1 _ "locale" ?_ (by decide) (by decide)⟩
  rw [hfield]
  exact nofun

/-- A message whose metadata has a field `text` of its own. -/
def doubleText : Message where
  fields := [("metadata", .obj [("text", .str "typed")]), ("text", .str "said")]
  distinct := by simp [DistinctKeys]
  plain := rfl

/-- **A METADATA FIELD NAMED `text`** is a submitted field, and `entry.text` is the message body in
    the one delivery and that field in the other. -/
theorem text_of_metadata_differs :
    (Json.obj (submittedFields doubleText.bare)).get? "text" ≠ none ∧ "text" ≠ "input" ∧
      ∀ scope : TemplateScope, pointer (templateContext doubleText.wrapped scope) "entry" "text" ≠
        pointer (templateContext doubleText.bare scope) "entry" "text" := by
  refine ⟨?_, by decide, ?_⟩
  · rw [show (Json.obj (submittedFields doubleText.bare)).get? "text" = some (.str "typed") from rfl]
    exact nofun
  · intro scope
    rw [pointer_templateContext, pointer_templateContext,
      show (templateEntry doubleText.wrapped).get? "text" = some (.str "typed") from rfl,
      show (templateEntry doubleText.bare).get? "text" = some (.str "said") from rfl]
    simp

end Greentic.FlowWalk
