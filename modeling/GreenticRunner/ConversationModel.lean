import GreenticRunner.Json

/-! # The conversation of an agent session

    `state.rs` and the pure part of `flow_suspend.rs` of the agent runtime: the
    stored conversation, its truncation, and what happens in it to a `flow:` tool
    call that parked on the user.

    * `patchToolResult`, `announceUnreadAttachments`, `ensurePlaceholder` — the three
      ways the result of a parked call is written into the history;
    * `takePending`, `finishSideTurn` — the start and the end of a turn that meets a
      parked call.

    Times are nanoseconds; the fields of the state that the loop never reads (schema
    version, ids, creation and update time) are left out. -/

namespace Greentic.Aw

/-! ## Messages -/

/-- `ToolCallRecord`. -/
structure ToolCallRecord where
  callId : String
  extensionId : String
  toolName : String
  args : Json

/-- `ChatMessage`; an attachment is a reference that is only counted here. -/
inductive ChatMessage where
  | system (content : String)
  | user (content : String) (attachments : List Json)
  | assistant (content : String) (toolCalls : List ToolCallRecord)
  | tool (callId : String) (content : Json)

namespace ChatMessage

/-- `ChatMessage::System`. -/
def isSystem : ChatMessage → Bool
  | .system _ => true
  | _ => false

/-- `ChatMessage::User`. -/
def isUser : ChatMessage → Bool
  | .user _ _ => true
  | _ => false

/-- `ChatMessage::Tool`. -/
def isTool : ChatMessage → Bool
  | .tool _ _ => true
  | _ => false

/-- An assistant turn that makes the call `id`. -/
def makesCall (id : String) : ChatMessage → Bool
  | .assistant _ toolCalls => toolCalls.any fun c => c.callId == id
  | _ => false

/-- A result of the call `id`. -/
def answers (id : String) : ChatMessage → Bool
  | .tool callId _ => callId == id
  | _ => false

end ChatMessage

/-! ## The state -/

/-- `PENDING_TOOL_IDLE_TTL_SECS`, in nanoseconds. -/
def pendingToolIdleTtl : Int := 60 * 60 * 10 ^ 9

/-- `MAX_SIDE_TURNS`. -/
def maxSideTurns : Nat := 20

/-- `PENDING_TOOL_MAX_AGE_SECS`, in nanoseconds. -/
def pendingToolMaxAge : Int := 24 * 60 * 60 * 10 ^ 9

/-- `PendingToolCall`: a `flow:` tool call suspended on the user. -/
structure PendingToolCall where
  callId : String
  toolName : String
  extensionId : String
  args : Json
  flowRef : String
  flowSnapshot : Json
  iterationsUsed : Nat
  expiresAt : Int
  presentation : Option Json
  parkedAt : Option Int
  sideTurns : Nat
  unannouncedAttachments : Nat

/-- `PendingToolCall::expiry_from`. -/
def PendingToolCall.expiryFrom (now : Int) : Int := now + pendingToolIdleTtl

/-- `PendingToolCall::is_expired`. -/
def PendingToolCall.isExpired (pending : PendingToolCall) (now : Int) : Bool :=
  decide (pending.expiresAt ≤ now)

/-- The call a parked tool call was made by. -/
def PendingToolCall.call (pending : PendingToolCall) : ToolCallRecord :=
  ⟨pending.callId, pending.extensionId, pending.toolName, pending.args⟩

/-- `ConversationState`; `a2a` are the remote references of the conversation. -/
structure ConversationState where
  messages : List ChatMessage
  a2a : Json
  pendingTool : Option PendingToolCall

/-- `ConversationState::empty`. -/
def ConversationState.empty : ConversationState := ⟨[], .obj [], none⟩

/-- One message more. -/
def ConversationState.push (state : ConversationState) (m : ChatMessage) : ConversationState :=
  { state with messages := state.messages ++ [m] }

/-! ## Truncation -/

/-- A message that holds the protected call. -/
def holdsProtected (protectedId : Option String) (m : ChatMessage) : Bool :=
  match protectedId with
  | some id => m.makesCall id || m.answers id
  | none => false

/-- `oldest_removable_turn` in one pass: `turn` is the turn the message at `i` may
    belong to, by its start and whether it holds the protected call. -/
def oldestRemovableTurn (protectedId : Option String) :
    Nat → Option (Nat × Bool) → List ChatMessage → Option (Nat × Nat)
  -- the newest turn is never removed
  | _, _, [] => none
  | i, none, m :: rest =>
      if m.isSystem then oldestRemovableTurn protectedId (i + 1) none rest
      else oldestRemovableTurn protectedId (i + 1) (some (i, holdsProtected protectedId m)) rest
  | i, some (start, held), m :: rest =>
      if m.isUser then
        if held then
          oldestRemovableTurn protectedId (i + 1) (some (i, holdsProtected protectedId m)) rest
        else some (start, i)
      else
        oldestRemovableTurn protectedId (i + 1)
          (some (start, held || holdsProtected protectedId m)) rest

/-- The number of messages the limit counts. -/
def nonSystem (messages : List ChatMessage) : Nat :=
  (messages.filter fun m => !m.isSystem).length

/-- The messages without the turn `[start, stop)`; its system messages stay. -/
def removeTurn (messages : List ChatMessage) (start stop : Nat) : List ChatMessage :=
  messages.take start ++ ((messages.take stop).drop start).filter ChatMessage.isSystem ++
    messages.drop stop

/-- The loop of `truncate_history`; every round removes a message, so the number of
    messages is fuel enough. -/
def truncateMessages (protectedId : Option String) (max : Nat) :
    Nat → List ChatMessage → List ChatMessage
  | 0, messages => messages
  | fuel + 1, messages =>
      if nonSystem messages ≤ max then messages
      else
        match oldestRemovableTurn protectedId 0 none messages with
        | none => messages
        | some (start, stop) =>
            truncateMessages protectedId max fuel (removeTurn messages start stop)

/-- `truncate_history`. -/
def ConversationState.truncateHistory (state : ConversationState) (maxTurns : Nat) :
    ConversationState :=
  { state with
    messages := truncateMessages (state.pendingTool.map (·.callId)) maxTurns
      state.messages.length state.messages }

/-! ## Results of a parked call -/

/-- `latest_assistant_with`: the last assistant turn that makes the call. -/
def latestAssistantWith (callId : String) : List ChatMessage → Option Nat
  | [] => none
  | m :: rest =>
      match latestAssistantWith callId rest with
      | some i => some (i + 1)
      | none => if m.makesCall callId then some 0 else none

/-- `tool_run_end`: the end of the run of results after the assistant turn `pos`. -/
def toolRunEnd (messages : List ChatMessage) (pos : Nat) : Nat :=
  pos + 1 + ((messages.drop (pos + 1)).takeWhile ChatMessage.isTool).length

/-- The result of `callId` in the run after `pos`. -/
def existingResult (messages : List ChatMessage) (pos : Nat) (callId : String) : Option Nat :=
  (((messages.take (toolRunEnd messages pos)).drop (pos + 1)).findIdx?
    (ChatMessage.answers callId)).map (pos + 1 + ·)

/-- `patch_tool_result`. -/
def ConversationState.patchToolResult (state : ConversationState) (callId : String)
    (content : Json) : ConversationState :=
  match latestAssistantWith callId state.messages with
  | none => state
  | some pos =>
      match existingResult state.messages pos callId with
      | some slot => { state with messages := state.messages.set slot (.tool callId content) }
      | none =>
          { state with
            messages := state.messages.insertIdx (toolRunEnd state.messages pos)
              (.tool callId content) }

/-- `ATTACHMENTS_NOTE_KEY`. -/
def attachmentsNoteKey : String := "user_attachments_note"

/-- `unreadable_note(count).trim()`. -/
def unreadableNote (count : Nat) : String :=
  s!"[The user attached {count} file(s), but attachments are not available in this " ++
    "deployment, so you cannot open them. Tell the user if it matters.]"

/-- A result that announces `count` files. -/
def announce (content : Json) (count : Nat) : Json :=
  match content with
  | .obj fields => .obj (Json.setField fields attachmentsNoteKey (.str (unreadableNote count)))
  | other => .obj [("result", other), (attachmentsNoteKey, .str (unreadableNote count))]

/-- The result at `slot` with its files announced. -/
def announceAt (messages : List ChatMessage) (slot count : Nat) : List ChatMessage :=
  match messages[slot]? with
  | some (.tool id content) => messages.set slot (.tool id (announce content count))
  | _ => messages

/-- `announce_unread_attachments`. -/
def ConversationState.announceUnreadAttachments (state : ConversationState) (callId : String)
    (count : Nat) : ConversationState :=
  if count = 0 then state
  else
    match latestAssistantWith callId state.messages with
    | none => state
    | some pos =>
        match existingResult state.messages pos callId with
        | none => state
        | some slot => { state with messages := announceAt state.messages slot count }

/-- The placeholder result of a parked call. -/
def awaitingPlaceholder : Json := .obj [("status", .str "awaiting_user_input")]

/-- `ensure_placeholder`; `none` when the turn that made the call is gone. -/
def ConversationState.ensurePlaceholder (state : ConversationState) : Option ConversationState :=
  match state.pendingTool with
  | none => none
  | some pending =>
      match latestAssistantWith pending.callId state.messages with
      | none => none
      | some pos =>
          match existingResult state.messages pos pending.callId with
          | some _ => some state
          | none =>
              some { state with
                messages := state.messages.insertIdx (pos + 1)
                  (.tool pending.callId awaitingPlaceholder) }

/-! ## Turns that meet a parked call -/

/-- `ParkedTextPolicy`. -/
inductive ParkedTextPolicy where
  | cancel
  | sideTurn
  deriving DecidableEq

/-- `TerminationReason`. -/
inductive TerminationReason where
  | finalReply
  | maxIterations
  | timeout
  | error
  | tokenBudgetExceeded
  | conversationEnded
  | awaitingToolInput
  deriving DecidableEq

/-- `AgentStep`, without the retrieval step of the knowledge base and the measured
    durations. -/
inductive AgentStep where
  | llmCall (content : String) (tokensIn tokensOut : Nat)
  | toolCall (name callId : String) (args result : Json)
  | toolCallReused (name callId : String)
  | toolCallBlocked (name reason : String)
  | reply (text : String)

/-- `Taken`. -/
inductive Taken where
  | nothing
  | resume (pending : PendingToolCall) (payload : Json)
  | cancelled (step : AgentStep)
  | side

/-- `side_turn_allowed`. -/
def sideTurnAllowed (pending : PendingToolCall) (now : Int) : Bool :=
  let withinAge :=
    match pending.parkedAt with
    | none => true
    | some parked => decide (now < parked + pendingToolMaxAge)
  !pending.isExpired now && withinAge && decide (pending.sideTurns < maxSideTurns) &&
    pending.presentation.isSome

/-- `begin_side_turn`. -/
def beginSideTurn (pending : PendingToolCall) (now : Int) : PendingToolCall :=
  let idle := PendingToolCall.expiryFrom now
  { pending with
    sideTurns := pending.sideTurns + 1
    expiresAt :=
      match pending.parkedAt with
      | some parked => min idle (parked + pendingToolMaxAge)
      | none => idle }

/-- `{"status": "cancelled", "reason": reason}`. -/
def cancelledResult (reason : String) : Json :=
  .obj [("reason", .str reason), ("status", .str "cancelled")]

/-- The parked call is cancelled: its result says so. -/
def ConversationState.cancelPending (state : ConversationState) (pending : PendingToolCall)
    (reason : String) : ConversationState :=
  (({ state with pendingTool := none }.patchToolResult pending.callId
    (cancelledResult reason)).announceUnreadAttachments pending.callId
    pending.unannouncedAttachments)

/-- The trail step of a cancelled call. -/
def PendingToolCall.cancelledStep (pending : PendingToolCall) (reason : String) : AgentStep :=
  .toolCall pending.toolName pending.callId pending.args (cancelledResult reason)

/-- `take_pending` after a side turn was ruled out: resume or cancel. -/
def ConversationState.resumeOrCancel (state : ConversationState) (pending : PendingToolCall)
    (resumePayload : Option Json) (now : Int) : ConversationState × Taken :=
  if pending.isExpired now then
    let reason := "the step waiting for the user expired before they answered"
    (state.cancelPending pending reason, .cancelled (pending.cancelledStep reason))
  else
    match resumePayload with
    | some payload => ({ state with pendingTool := none }, .resume pending payload)
    | none =>
        let reason := "the user sent a message instead of completing this step"
        (state.cancelPending pending reason, .cancelled (pending.cancelledStep reason))

/-- `take_pending`. -/
def ConversationState.takePending (state : ConversationState) (resumePayload : Option Json)
    (now : Int) (policy : ParkedTextPolicy) : ConversationState × Taken :=
  match state.pendingTool with
  | none => (state, .nothing)
  | some pending =>
      if policy = .sideTurn ∧ resumePayload.isNone ∧ sideTurnAllowed pending now then
        match state.ensurePlaceholder with
        | some state =>
            ({ state with pendingTool := some (beginSideTurn pending now) }, .side)
        | none => state.resumeOrCancel pending resumePayload now
      else state.resumeOrCancel pending resumePayload now

/-- `finish_side_turn`: the state, the termination, the card and whether it is shown
    again. -/
def ConversationState.finishSideTurn (state : ConversationState) (terminatedBy : TerminationReason)
    (suspension : Option Json) :
    ConversationState × TerminationReason × Option Json × Bool :=
  if terminatedBy = .conversationEnded then
    match state.pendingTool with
    | some pending =>
        ({ state with pendingTool := none }.patchToolResult pending.callId
          (cancelledResult "the conversation ended"), terminatedBy, suspension, false)
    | none => (state, terminatedBy, suspension, false)
  else
    match state.pendingTool.bind (·.presentation) with
    | none => (state, terminatedBy, suspension, false)
    | some card => (state, .awaitingToolInput, some card, true)

/-- `last_user_text`. -/
def ConversationState.lastUserText (state : ConversationState) : String :=
  (state.messages.reverse.findSome? fun m =>
    match m with
    | .user content _ => some content
    | _ => none).getD ""

/-- `BEHIND_SUSPENSION_ERROR`. -/
def behindSuspensionError : String := "another step is waiting for the user"

/-! ## Tool results -/

/-- `{"error": message}`. -/
def errorValue (message : String) : Json := .obj [("error", .str message)]

/-- `is_error_result`. -/
def isErrorResult (result : Json) : Bool := (result.get? "error").isSome

/-- `MAX_TOOL_RESULT_BYTES`. -/
def maxToolResultBytes : Nat := 32 * 1024

/-- The longest prefix of at most `budget` bytes. -/
def cutAt : Nat → List Char → List Char
  | _, [] => []
  | budget, c :: rest =>
      if c.utf8Size ≤ budget then c :: cutAt (budget - c.utf8Size) rest else []

/-- `cap_tool_result_for`; the name of the tool is only logged. -/
def capToolResult (result : Json) : Json :=
  let text := result.render
  if text.utf8ByteSize ≤ maxToolResultBytes then result
  else .obj [
    ("original_bytes", .num (toString text.utf8ByteSize)),
    ("preview", .str (String.ofList (cutAt maxToolResultBytes text.toList))),
    ("truncated", .bool true)]

end Greentic.Aw
