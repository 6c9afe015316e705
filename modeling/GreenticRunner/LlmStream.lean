import GreenticRunner.ToolNames

/-! # Streaming does not depend on the chunks of the network

    The body of a streamed completion arrives in chunks that are cut anywhere, inside a line
    or inside a character.  `SseLineBuffer` keeps raw bytes and decodes WHOLE lines only, so
    the lines that reach the accumulator are those of the body.

    * `splitLines_append` — what is left of a part goes on with the next one;
    * `streaming_independent` — so two ways to cut one body give the same deltas and the same
      result. -/

namespace Greentic.Aw

/-! ## Computations that emit -/

/-- What was emitted, and how it ended. -/
abbrev Emitting (α : Type) : Type := List String × Except LlmError α

namespace Emitting

variable {α β γ : Type}

def pure (a : α) : Emitting α := ([], .ok a)

/-- What was emitted before a failure stays emitted. -/
def bind (x : Emitting α) (k : α → Emitting β) : Emitting β :=
  match x with
  | (deltas, .error e) => (deltas, .error e)
  | (deltas, .ok a) => (deltas ++ (k a).1, (k a).2)

@[simp] theorem pure_bind (a : α) (k : α → Emitting β) : (pure a).bind k = k a := rfl

theorem bind_assoc (x : Emitting α) (k : α → Emitting β) (l : β → Emitting γ) :
    (x.bind k).bind l = x.bind fun a => (k a).bind l := by
  obtain ⟨deltas, result⟩ := x
  cases result with
  | error e => rfl
  | ok a =>
      show bind (deltas ++ (k a).1, (k a).2) l = (deltas ++ ((k a).bind l).1, ((k a).bind l).2)
      obtain ⟨more, result⟩ := k a
      cases result with
      | error e => rfl
      | ok b => simp [bind, List.append_assoc]

end Emitting

/-! ## Lines -/

/-- `\n`, the byte that ends a line. -/
def newline : UInt8 := 10

/-- The lines of some bytes, each with its newline, and what is left after the last one. -/
def splitLines : List UInt8 → List (List UInt8) × List UInt8
  | [] => ([], [])
  | b :: rest =>
      if b = newline then ([b] :: (splitLines rest).1, (splitLines rest).2)
      else
        match (splitLines rest).1 with
        | [] => ([], b :: (splitLines rest).2)
        | line :: lines => ((b :: line) :: lines, (splitLines rest).2)

/-- `SseLineBuffer`. -/
structure SseLineBuffer where
  buf : List UInt8

section Model

-- `String::from_utf8_lossy`, `serde_json::from_str` into a value, and the codec of the tools.
variable (fromUtf8Lossy : List UInt8 → List Char) (parseJson : String → Option Json)
  (codec : Tools.ToolNameCodec)

/-- A line as it is handed on: decoded, without its line ending. -/
def decodeLine (bytes : List UInt8) : List Char :=
  Tools.trimEndMatches (fun c => c == '\r' || c == '\n') (fromUtf8Lossy bytes)

/-- `SseLineBuffer::push_bytes`: its loop drains the buffer up to the next newline, as long as
    there is one. -/
def SseLineBuffer.pushBytes (b : SseLineBuffer) (bytes : List UInt8) :
    List (List Char) × SseLineBuffer :=
  let split := splitLines (b.buf ++ bytes)
  (split.1.map (decodeLine fromUtf8Lossy), ⟨split.2⟩)

/-- `SseLineBuffer::take_remainder`. -/
def SseLineBuffer.takeRemainder (b : SseLineBuffer) : Option (List Char) :=
  if b.buf.isEmpty then none else some (decodeLine fromUtf8Lossy b.buf)

/-! ## The accumulator -/

/-- `OaStreamToolCall`, with the fields of its function. -/
structure OaStreamToolCall where
  index : Nat
  id : Option String
  name : Option String
  arguments : Option String

/-- `OaStreamChoice`. -/
structure OaStreamChoice where
  content : Option String
  toolCalls : List OaStreamToolCall
  finishReason : Option String

/-- `OaStreamChunk`; the usage has the prompt and the completion tokens. -/
structure OaStreamChunk where
  choices : List OaStreamChoice
  usage : Option (Nat × Nat)

/-- `ToolCallFrag`. -/
structure ToolCallFrag where
  id : String
  name : String
  arguments : String

/-- `StreamAccumulator`; the calls are in the order of their index. -/
structure StreamAccumulator where
  content : String
  toolCalls : List (Nat × ToolCallFrag)
  tokensIn : Nat
  tokensOut : Nat
  done : Bool
  finishReason : Option String

namespace StreamAccumulator

/-- `StreamAccumulator::new`. -/
def new : StreamAccumulator := ⟨"", [], 0, 0, false, none⟩

/-- What one piece of a call adds to its fragment. -/
def extendFrag (tc : OaStreamToolCall) (frag : ToolCallFrag) : ToolCallFrag where
  id := tc.id.getD frag.id
  name := tc.name.getD frag.name
  arguments := frag.arguments ++ tc.arguments.getD ""

/-- `tool_calls.entry(index).or_default()`, changed; the map is ordered by the index. -/
def addPiece (tc : OaStreamToolCall) : List (Nat × ToolCallFrag) → List (Nat × ToolCallFrag)
  | [] => [(tc.index, extendFrag tc ⟨"", "", ""⟩)]
  | (i, frag) :: rest =>
      if tc.index = i then (i, extendFrag tc frag) :: rest
      else if tc.index < i then (tc.index, extendFrag tc ⟨"", "", ""⟩) :: (i, frag) :: rest
      else (i, frag) :: addPiece tc rest

/-- One choice of a chunk, with the text to emit so far. -/
def addChoice (s : StreamAccumulator × Option String) (choice : OaStreamChoice) :
    StreamAccumulator × Option String :=
  let text := choice.content.filter (· ≠ "")
  ({ s.1 with
      finishReason := choice.finishReason.or s.1.finishReason
      content := s.1.content ++ text.getD ""
      toolCalls := choice.toolCalls.foldl (fun calls tc => addPiece tc calls) s.1.toolCalls },
    -- The last text of a chunk is the one that is emitted.
    text.or s.2)

/-- `push_line`.  `parseChunk` is `serde_json::from_str` of a chunk, with the text of its error. -/
def pushLine (parseChunk : List Char → Except String OaStreamChunk) (acc : StreamAccumulator)
    (line : List Char) : Emitting StreamAccumulator :=
  match trim line with
  | 'd' :: 'a' :: 't' :: 'a' :: ':' :: rest =>
      let payload := trim rest
      if payload = "[DONE]".toList then .pure { acc with done := true }
      else
        match parseChunk payload with
        | .error e => ([], .error (.decode e))
        | .ok chunk =>
            let counted := match chunk.usage with
              | some (tokensIn, tokensOut) => { acc with tokensIn, tokensOut }
              | none => acc
            let (acc, emit) := chunk.choices.foldl addChoice (counted, none)
            (emit.toList, .ok acc)
  -- Blank lines, comments and keep-alives.
  | _ => .pure acc

/-- `check_complete` with `check_finish_reason`. -/
def checkComplete (acc : StreamAccumulator) : Except LlmError Unit :=
  if !acc.done && acc.finishReason.isNone then
    .error (.transport "stream ended before [DONE] or a finish_reason")
  else if acc.finishReason = some "length" ∧ acc.toolCalls ≠ [] then
    .error (.decode "response hit the token limit in the middle of a tool call")
  else .ok ()

end StreamAccumulator

/-- `MALFORMED_ARGS_ECHO_BYTES`. -/
def malformedArgsEchoBytes : Nat := 512

/-- The longest start of a text with so many bytes, in whole characters. -/
def takeBytes : Nat → List Char → List Char
  | _, [] => []
  | n, c :: cs => if c.utf8Size ≤ n then c :: takeBytes (n - c.utf8Size) cs else []

/-- `parse_tool_args`. -/
def parseToolArgs (rawArgs : String) : Json :=
  if (trim rawArgs.toList).isEmpty then .obj []
  else
    (parseJson rawArgs).getD (.obj [(malformedArgsKey,
      .str (String.ofList (takeBytes malformedArgsEchoBytes rawArgs.toList)))])

/-- `build_tool_call_record`. -/
def buildToolCallRecord (frag : ToolCallFrag) : ToolCallRecord :=
  let pair := codec.decode frag.name.toList
  ⟨frag.id, String.ofList pair.1, String.ofList pair.2, parseToolArgs parseJson frag.arguments⟩

/-- `finish`. -/
def StreamAccumulator.finish (acc : StreamAccumulator) : LlmResponse where
  content := if acc.content = "" then none else some acc.content
  toolCalls := acc.toolCalls.map fun f => buildToolCallRecord parseJson codec f.2
  tokensIn := acc.tokensIn
  tokensOut := acc.tokensOut

/-! ## A streamed completion -/

variable (parseChunk : List Char → Except String OaStreamChunk)

/-- The lines of one chunk. -/
def pushLines : StreamAccumulator → List (List Char) → Emitting StreamAccumulator
  | acc, [] => .pure acc
  | acc, line :: lines => (acc.pushLine parseChunk line).bind fun acc => pushLines acc lines

/-- The loop over the chunks of the body. -/
def pushChunks : SseLineBuffer × StreamAccumulator → List (List UInt8) →
    Emitting (SseLineBuffer × StreamAccumulator)
  | s, [] => .pure s
  | s, chunk :: chunks =>
      let pushed := s.1.pushBytes fromUtf8Lossy chunk
      (pushLines parseChunk s.2 pushed.1).bind fun acc => pushChunks (pushed.2, acc) chunks

/-- What is done when the body has ended. -/
def finishStream (s : SseLineBuffer × StreamAccumulator) : Emitting LlmResponse :=
  let last := match s.1.takeRemainder fromUtf8Lossy with
    | some line => s.2.pushLine parseChunk line
    | none => .pure s.2
  last.bind fun acc =>
    match acc.checkComplete with
    | .error e => ([], .error e)
    | .ok _ => .pure (acc.finish parseJson codec)

/-- `complete_streaming`, of a body that arrives in full. -/
def completeStreaming (chunks : List (List UInt8)) : Emitting LlmResponse :=
  (pushChunks fromUtf8Lossy parseChunk (⟨[]⟩, .new) chunks).bind
    (finishStream fromUtf8Lossy parseJson codec parseChunk)

end Model

/-! ## Cuts -/

/-- What is left of a part goes on with the next one. -/
theorem splitLines_append (x y : List UInt8) :
    splitLines (x ++ y) = ((splitLines x).1 ++ (splitLines ((splitLines x).2 ++ y)).1,
      (splitLines ((splitLines x).2 ++ y)).2) := by
  induction x with
  | nil => rfl
  | cons b rest ih =>
      rw [List.cons_append, splitLines, ih, splitLines]
      by_cases hb : b = newline
      · rw [if_pos hb, if_pos hb]
        rfl
      · rw [if_neg hb, if_neg hb]
        cases hl : (splitLines rest).1 with
        | nil =>
            -- No line has ended yet: the byte goes in front of what is left.
            rw [List.cons_append, splitLines, if_neg hb]
            rfl
        | cons line lines => rfl

/-- What is left has no newline. -/
theorem splitLines_rest (x : List UInt8) : splitLines (splitLines x).2 = ([], (splitLines x).2) := by
  induction x with
  | nil => rfl
  | cons b rest ih =>
      rw [splitLines]
      by_cases hb : b = newline
      · rw [if_pos hb]
        exact ih
      · rw [if_neg hb]
        cases hl : (splitLines rest).1 with
        | nil =>
            show splitLines (b :: (splitLines rest).2) = _
            rw [splitLines, if_neg hb, ih]
        | cons line lines => exact ih

variable {fromUtf8Lossy : List UInt8 → List Char}
  {parseChunk : List Char → Except String OaStreamChunk}

theorem pushLines_append (acc : StreamAccumulator) (x y : List (List Char)) :
    pushLines parseChunk acc (x ++ y)
      = (pushLines parseChunk acc x).bind fun acc => pushLines parseChunk acc y := by
  induction x generalizing acc with
  | nil => rfl
  | cons line lines ih =>
      rw [List.cons_append, pushLines, pushLines, Emitting.bind_assoc]
      exact congrArg _ (funext fun acc => ih acc)

/-- The chunks of a body are pushed as one. -/
theorem pushChunks_eq (b : SseLineBuffer) (acc : StreamAccumulator) (chunks : List (List UInt8))
    (hb : splitLines b.buf = ([], b.buf)) :
    pushChunks fromUtf8Lossy parseChunk (b, acc) chunks
      = (pushLines parseChunk acc
          ((splitLines (b.buf ++ chunks.flatten)).1.map (decodeLine fromUtf8Lossy))).bind
        fun acc => .pure (⟨(splitLines (b.buf ++ chunks.flatten)).2⟩, acc) := by
  induction chunks generalizing b acc with
  | nil =>
      rw [List.flatten_nil, List.append_nil, hb]
      rfl
  | cons chunk chunks ih =>
      -- The buffer after this chunk is what its lines leave.
      have hsplit := splitLines_append (b.buf ++ chunk) chunks.flatten
      rw [List.append_assoc] at hsplit
      rw [pushChunks, List.flatten_cons, hsplit, List.map_append, pushLines_append,
        Emitting.bind_assoc]
      refine congrArg _ (funext fun acc => ?_)
      exact ih ⟨(splitLines (b.buf ++ chunk)).2⟩ acc (splitLines_rest (b.buf ++ chunk))

/-- **STREAMING DOES NOT DEPEND ON THE CHUNKS**: two ways to cut one body give the same deltas,
    in the same order, and the same response or error. -/
theorem streaming_independent (fromUtf8Lossy : List UInt8 → List Char)
    (parseJson : String → Option Json) (parseChunk : List Char → Except String OaStreamChunk)
    (codec : Tools.ToolNameCodec) {chunks chunks' : List (List UInt8)}
    (h : chunks.flatten = chunks'.flatten) :
    completeStreaming fromUtf8Lossy parseJson codec parseChunk chunks
      = completeStreaming fromUtf8Lossy parseJson codec parseChunk chunks' := by
  rw [completeStreaming, completeStreaming, pushChunks_eq _ _ _ rfl, pushChunks_eq _ _ _ rfl, h]

/-- A chunk that says `text`. -/
def saying (text : String) : String :=
  "\x7b\"choices\":[\x7b\"delta\":\x7b\"content\":\"" ++ text ++ "\"\x7d\x7d]\x7d"

/-- A chunk with a piece of the arguments of a call. -/
def callingWith (arguments : String) : String :=
  "\x7b\"choices\":[\x7b\"delta\":\x7b\"tool_calls\":[\x7b\"index\":0,\"function\":\x7b\"arguments\":\"" ++
    arguments ++ "\"\x7d\x7d]\x7d\x7d]\x7d"

/-- What the chunks of `greetingBody` are parsed to. -/
def parseGreeting (payload : List Char) : Except String OaStreamChunk :=
  if payload = (saying "Hi").toList then .ok ⟨[⟨some "Hi", [], none⟩], none⟩
  else if payload = (saying " there").toList then .ok ⟨[⟨some " there", [], none⟩], none⟩
  else if payload = (callingWith "[1,").toList then
    .ok ⟨[⟨none, [⟨0, none, none, some "[1,"⟩], none⟩], none⟩
  else if payload = (callingWith "2]").toList then
    .ok ⟨[⟨none, [⟨0, none, none, some "2]"⟩], none⟩], none⟩
  else .error "no chunk"

/-- Two texts and a call in two pieces, with a keep-alive in between. -/
def greetingBody : List UInt8 :=
  ("data: " ++ saying "Hi" ++ "\r\n\r\n: keep-alive\n\ndata: " ++ saying " there" ++ "\n\ndata: " ++
    callingWith "[1," ++ "\n\ndata: " ++ callingWith "2]" ++ "\n\ndata: [DONE]\r\n").toUTF8.data.toList

/-- The decoding of a body of ASCII characters. -/
def asciiText (bytes : List UInt8) : List Char := bytes.map fun b => Char.ofNat b.toNat

/-- The arguments of the call, once they are complete. -/
def parseArguments (text : String) : Option Json :=
  if text = "[1,2]" then some (.arr [.num "1", .num "2"]) else none

/-- A body in chunks of the given sizes and a last one. -/
def inChunks : List Nat → List UInt8 → List (List UInt8)
  | [], body => [body]
  | n :: sizes, body => body.take n :: inChunks sizes (body.drop n)

theorem inChunks_flatten (sizes : List Nat) (body : List UInt8) : (inChunks sizes body).flatten = body := by
  induction sizes generalizing body with
  | nil => exact List.append_nil body
  | cons n sizes ih => rw [inChunks, List.flatten_cons, ih, List.take_append_drop]

/-- The body in one chunk, and cut inside a line, inside a line ending and inside a call. -/
theorem streaming_independent_greeting :
    let stream := completeStreaming asciiText parseArguments ⟨fun _ => none⟩ parseGreeting
    stream (inChunks [12, 35, 110] greetingBody) = stream (inChunks [] greetingBody) ∧
      (stream [greetingBody]).1 = ["Hi", " there"] ∧
      (stream [greetingBody]).2.toOption.map (fun r => (r.content, r.toolCalls.length)) = some (some "Hi there", 1) := by
  refine ⟨?_, ?_, ?_⟩
  · refine streaming_independent asciiText parseArguments parseGreeting ⟨fun _ => none⟩ ?_
    rw [inChunks_flatten, inChunks_flatten]
  · decide +kernel
  · decide +kernel

end Greentic.Aw
