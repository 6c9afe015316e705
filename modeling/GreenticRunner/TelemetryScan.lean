import GreenticRunner.AgentModel
import GreenticRunner.TextCodec

/-! # The telemetry lines of a guest

    What a guest writes to its standard streams is cut into lines.  A line of the telemetry form becomes an
    event of the host's log, any other is forwarded to the host's own stream.

    * `pollWrite`, `pollShutdown` — the buffered stream, with the log of what came out of it;
    * `unforgeable_iff` — no output can FORGE A RECORD exactly if the fields hold no format character. -/

namespace Greentic.Telemetry

open Greentic.Aw (isControl isWhitespace)

abbrev Text := List Char

abbrev Bytes := List UInt8

/-! ## Characters and bytes -/

/-- Format characters that can forge or reorder a line of a log without being controls. -/
def isFormatChar (c : Char) : Bool :=
  let n := c.toNat
  (0x200B ≤ n && n ≤ 0x200F) || (0x2028 ≤ n && n ≤ 0x2029) || (0x202A ≤ n && n ≤ 0x202E) ||
    (0x2066 ≤ n && n ≤ 0x2069) || n == 0xFEFF

/-- `is_unsafe_log_char`. -/
def isUnsafeLogChar (c : Char) : Bool := isControl c || isFormatChar c

/-- `log_safe_max`. -/
def logSafeMax (raw : Text) (maxChars : Nat) : Text :=
  if raw.length ≤ maxChars && !raw.any isUnsafeLogChar then raw
  else (raw.take maxChars).map fun c => if isUnsafeLogChar c then ' ' else c

def isTail (b : UInt8) : Bool := 0x80 ≤ b && b ≤ 0xBF

/-- The second bytes that go with a first one. -/
def isSecond (first second : UInt8) : Bool :=
  if first = 0xE0 then 0xA0 ≤ second && second ≤ 0xBF
  else if first = 0xED then 0x80 ≤ second && second ≤ 0x9F
  else if first = 0xF0 then 0x90 ≤ second && second ≤ 0xBF
  else if first = 0xF4 then 0x80 ≤ second && second ≤ 0x8F
  else isTail second

/-- The UTF-8 sequence that begins with a byte, `none` for one that is cut off or malformed, and the bytes
    behind it. -/
def nextChar (b : UInt8) (rest : Bytes) : Option Char × Bytes :=
  let low := fun b : UInt8 => b.toNat % 64
  if b < 0x80 then (some (Char.ofNat b.toNat), rest)
  else if 0xC2 ≤ b && b ≤ 0xDF then
    match rest with
    | b1 :: r1 => if isTail b1 then (some (Char.ofNat (b.toNat % 32 * 64 + low b1)), r1) else (none, rest)
    | [] => (none, [])
  else if 0xE0 ≤ b && b ≤ 0xEF then
    match rest with
    | b1 :: b2 :: r2 =>
        if !isSecond b b1 then (none, rest)
        else if isTail b2 then (some (Char.ofNat (b.toNat % 16 * 4096 + low b1 * 64 + low b2)), r2)
        else (none, b2 :: r2)
    | [b1] => if isSecond b b1 then (none, []) else (none, rest)
    | [] => (none, [])
  else if 0xF0 ≤ b && b ≤ 0xF4 then
    match rest with
    | b1 :: b2 :: b3 :: r3 =>
        if !isSecond b b1 then (none, rest)
        else if !isTail b2 then (none, b2 :: b3 :: r3)
        else if isTail b3 then
          (some (Char.ofNat (b.toNat % 8 * 262144 + low b1 * 4096 + low b2 * 64 + low b3)), r3)
        else (none, b3 :: r3)
    | [b1, b2] =>
        if !isSecond b b1 then (none, rest) else if isTail b2 then (none, []) else (none, [b2])
    | [b1] => if isSecond b b1 then (none, []) else (none, rest)
    | [] => (none, [])
  else (none, rest)

/-- The sequences of bytes, in at most so many rounds. -/
def sequences : Nat → Bytes → List (Option Char)
  | 0, _ | _ + 1, [] => []
  | n + 1, b :: rest => (nextChar b rest).1 :: sequences n (nextChar b rest).2

/-- `std::str::from_utf8`. -/
def fromUtf8 (bytes : Bytes) : Option Text := (sequences bytes.length bytes).mapM id

/-- `String::from_utf8_lossy`. -/
def fromUtf8Lossy (bytes : Bytes) : Text :=
  (sequences bytes.length bytes).map (·.getD (Char.ofNat 0xFFFD))

/-! ## Parsing a line -/

/-- `ParsedLevel`. -/
inductive ParsedLevel
  | trace | debug | info | warn | error
  deriving DecidableEq, Repr

/-- `ParsedLevel::from_token`. -/
def ParsedLevel.fromToken (token : Text) : Option ParsedLevel :=
  if token = "TRACE".toList then some .trace
  else if token = "DEBUG".toList then some .debug
  else if token = "INFO".toList then some .info
  else if token = "WARN".toList then some .warn
  else if token = "ERROR".toList then some .error
  else none

/-- `TelemetryLine`. -/
structure TelemetryLine where
  timestamp : Text
  level : ParsedLevel
  component : Text
  fileLine : Text
  message : Text
  fields : List (Text × Text)
  deriving DecidableEq, Repr

/-- `str::split_once` at a character. -/
def splitOnce (sep : Char) (s : Text) : Option (Text × Text) :=
  match s.dropWhile (· != sep) with
  | [] => none
  | _ :: after => some (s.takeWhile (· != sep), after)

/-- `str::trim_end_matches`. -/
def trimEndMatches (p : Char → Bool) (s : Text) : Text := (s.reverse.dropWhile p).reverse

/-- The character at a byte offset. -/
def charAt : Text → Nat → Option Char
  | [], _ => none
  | c :: _, 0 => some c
  | c :: cs, i + 1 => if c.utf8Size ≤ i + 1 then charAt cs (i + 1 - c.utf8Size) else none

/-- `str::split_at`, at a character boundary. -/
def splitAtByte : Text → Nat → Text × Text
  | [], _ => ([], [])
  | s, 0 => ([], s)
  | c :: cs, i + 1 => ((c :: (splitAtByte cs (i + 1 - c.utf8Size)).1), (splitAtByte cs (i + 1 - c.utf8Size)).2)

/-- `u8::is_ascii_whitespace`. -/
def isAsciiWhitespace (c : Char) : Bool := [' ', '\t', '\n', '\x0C', '\r'].contains c

/-- `split_optional_timestamp`. -/
def splitOptionalTimestamp (line : Text) : Text × Text :=
  if charAt line 10 = some 'T' ∧ charAt line 23 = some 'Z' ∧ (charAt line 24).any isAsciiWhitespace then
    splitAtByte line 24
  else ([], line)

/-- `split_optional_file_line`. -/
def splitOptionalFileLine (rest : Text) : Text × Text :=
  if rest.any isWhitespace then
    let token := rest.takeWhile (!isWhitespace ·)
    let number := (token.reverse.takeWhile (· != ':')).reverse
    if token.contains ':' && number.all Char.isDigit && !number.isEmpty then
      (token, rest.dropWhile (!isWhitespace ·))
    else ([], rest)
  else ([], rest)

/-- `rest.rfind(" [")`: what stands before and behind it. -/
def rfindOpen : Text → Option (Text × Text)
  | [] => none
  | c :: cs =>
      match rfindOpen cs with
      | some (before, after) => some (c :: before, after)
      | none =>
          match c, cs with
          | ' ', '[' :: after => some ([], after)
          | _, _ => none

/-- `split_message_and_fields`. -/
def splitMessageAndFields (rest : Text) : Text × Option Text :=
  if rest.getLast? = some ']' then
    match rfindOpen rest with
    | none => (rest, none)
    | some (before, after) => if after.dropLast.contains '=' then (before, some after.dropLast) else (rest, none)
  else (rest, none)

/-- `block.split(", ")`. -/
def splitComma : Text → List Text
  | [] => [[]]
  | ',' :: ' ' :: rest => [] :: splitComma rest
  | c :: rest =>
      match splitComma rest with
      | [] => [[c]]
      | piece :: pieces => (c :: piece) :: pieces

/-- `parse_fields`. -/
def parseFields (block : Text) : List (Text × Text) := (splitComma block).filterMap (splitOnce '=')

/-- The optional `[component]`. -/
def splitComponent (rest : Text) : Text × Text :=
  match rest with
  | '[' :: afterOpen =>
      match splitOnce ']' afterOpen with
      | some (component, rest) => (component, rest)
      | none => ([], rest)
  | _ => ([], rest)

/-- `parse_line`. -/
def parseLine (line : Text) : Option TelemetryLine :=
  let (timestamp, rest) := splitOptionalTimestamp (trimEndMatches (fun c => c == '\r' || c == '\n') line)
  match rest.dropWhile isWhitespace with
  | '[' :: rest => do
      let (token, rest) ← splitOnce ']' rest
      let level ← ParsedLevel.fromToken token
      let (component, rest) := splitComponent rest
      let (fileLine, rest) := splitOptionalFileLine (rest.dropWhile isWhitespace)
      let (message, block) := splitMessageAndFields (rest.dropWhile isWhitespace)
      some ⟨timestamp, level, component, fileLine, trimEndMatches isWhitespace message,
        (block.map parseFields).getD []⟩
  | _ => none

/-! ## The event -/

/-- A record of the host's log. -/
structure Event where
  level : ParsedLevel
  provider : Text
  source : Text
  fields : Text
  message : Text
  deriving DecidableEq, Repr

def maxComponentChars : Nat := 64
def maxLocationChars : Nat := 256
def maxMessageChars : Nat := 4096
def maxForwardChars : Nat := 8 * 1024
def maxLineBytes : Nat := 64 * 1024

/-- One character of `escape_json`. -/
def escapeChar (c : Char) : Text :=
  if c = '"' then ['\\', '"']
  else if c = '\\' then ['\\', '\\']
  else if c = '\n' then ['\\', 'n']
  else if c = '\r' then ['\\', 'r']
  else if c = '\t' then ['\\', 't']
  else if isControl c then
    ['\\', 'u', '0', '0', TextCodec.hexDigit (c.toNat / 16), TextCodec.hexDigit (c.toNat % 16)]
  else [c]

/-- `escape_json`. -/
def escapeJson (s : Text) : Text := s.flatMap escapeChar

/-- One field of `fields_to_json`. -/
def fieldJson (field : (Text × Text) × Nat) : Text :=
  (if 0 < field.2 then [','] else []) ++ '"' :: escapeJson field.1.1 ++ '"' :: ':' :: '"' ::
    escapeJson field.1.2 ++ ['"']

/-- `fields_to_json`. -/
def fieldsToJson (fields : List (Text × Text)) : Text :=
  '\x7b' :: fields.zipIdx.flatMap fieldJson ++ ['\x7d']

/-- `emit_as_tracing`. -/
def emitAsTracing (line : TelemetryLine) : Event where
  level := line.level
  provider := logSafeMax line.component maxComponentChars
  source := logSafeMax line.fileLine maxLocationChars
  fields := fieldsToJson line.fields
  message := logSafeMax line.message maxMessageChars

/-! ## The stream -/

/-- What comes out of the stream. -/
inductive Output
  | event (event : Event)
  | forwarded (text : Text)
  deriving DecidableEq, Repr

/-- `forwardable_line`. -/
def forwardableLine (raw : Bytes) : Text := logSafeMax (fromUtf8Lossy raw) maxForwardChars ++ ['\n']

/-- The bytes of a line that are looked at. -/
def lineBytes (raw : Bytes) : Bytes :=
  if (raw.take maxLineBytes).getLast? = some 13 then (raw.take maxLineBytes).dropLast
  else raw.take maxLineBytes

/-- The telemetry in a line. -/
def lineTelemetry (raw : Bytes) : Option TelemetryLine := (fromUtf8 (lineBytes raw)).bind parseLine

/-- One line of `dispatch_lines`. -/
def dispatchLine (forwardUnmatched : Bool) (raw : Bytes) : Option Output :=
  if raw.isEmpty then none
  else
    match lineTelemetry raw with
    | some parsed => some (.event (emitAsTracing parsed))
    | none => if forwardUnmatched then some (.forwarded (forwardableLine (lineBytes raw))) else none

/-- `complete.split(|b| *b == b'\n')`. -/
def splitLines : Bytes → List Bytes
  | [] => [[]]
  | b :: rest =>
      if b = 10 then [] :: splitLines rest
      else
        match splitLines rest with
        | [] => [[b]]
        | line :: lines => (b :: line) :: lines

/-- `dispatch_lines`; the flag is read anew for each line. -/
def dispatchLines (forwardUnmatched : Nat → Bool) (complete : Bytes) : List Output :=
  (splitLines complete).zipIdx.filterMap fun line => dispatchLine (forwardUnmatched line.2) line.1

/-- What stands up to the last newline, and behind it. -/
def rsplitNewline : Bytes → Bytes × Bytes
  | [] => ([], [])
  | b :: rest =>
      match rsplitNewline rest with
      | ([], rest) => if b = 10 then ([b], rest) else ([], b :: rest)
      | (drained, rest) => (b :: drained, rest)

/-- The bytes a write completes, and what stays in the buffer. -/
def drain (buffer buf : Bytes) : Bytes × Bytes :=
  let (drained, rest) := rsplitNewline (buffer ++ buf)
  if maxLineBytes < rest.length then (drained ++ (rest.take maxLineBytes ++ [10]), [])
  else (drained, rest)

/-- The stream, with the log of what came out of it. -/
structure Sink where
  buffer : Bytes
  log : List Output

/-- A call of the stream, and the answers of `forward_unmatched` while it runs. -/
inductive Op
  | write (buf : Bytes) (forwardUnmatched : Nat → Bool)
  | shutdown (forwardUnmatched : Nat → Bool)

/-- The bytes that a call hands to `dispatch_lines`. -/
def Op.complete (buffer : Bytes) : Op → Bytes
  | .write buf _ => (drain buffer buf).1
  | .shutdown _ => buffer

/-- `poll_write`. -/
def pollWrite (s : Sink) (buf : Bytes) (forwardUnmatched : Nat → Bool) : Sink where
  buffer := (drain s.buffer buf).2
  log := s.log ++ dispatchLines forwardUnmatched (drain s.buffer buf).1

/-- `poll_shutdown`. -/
def pollShutdown (s : Sink) (forwardUnmatched : Nat → Bool) : Sink where
  buffer := []
  log := s.log ++ dispatchLines forwardUnmatched s.buffer

def step (s : Sink) : Op → Sink
  | .write buf forward => pollWrite s buf forward
  | .shutdown forward => pollShutdown s forward

/-- A run of a stream, from `async_stream` on. -/
def run (ops : List Op) : Sink := ops.foldl step ⟨[], []⟩

/-! ## What must not come out -/

/-- No character of it is unsafe. -/
def Safe (s : Text) : Prop := ∀ c ∈ s, isUnsafeLogChar c = false

/-- An event is safe in all its texts, a forwarded line up to the newline at its end. -/
def Output.Clean : Output → Prop
  | .event e => Safe e.provider ∧ Safe e.source ∧ Safe e.fields ∧ Safe e.message
  | .forwarded text => ∃ line, text = line ++ ['\n'] ∧ Safe line

/-- Nothing that came out can forge a record, and the buffer was bounded after each call. -/
def Unforgeable (ops : List Op) : Prop :=
  (∀ out ∈ (run ops).log, out.Clean) ∧ ∀ before, before <+: ops → (run before).buffer.length ≤ maxLineBytes

/-- A text without format characters. -/
def Plain (s : Text) : Prop := ∀ c ∈ s, isFormatChar c = false

/-- The lines of what a call completes have only plain fields. -/
def PlainFields (complete : Bytes) : Prop :=
  ∀ raw ∈ splitLines complete, ∀ line ∈ lineTelemetry raw, ∀ field ∈ line.fields, Plain field.1 ∧ Plain field.2

/-! ## Replacing and escaping -/

/-- What `log_safe_max` gives is safe. -/
theorem logSafeMax_safe (raw : Text) (n : Nat) : Safe (logSafeMax raw n) := by
  intro c hc
  unfold logSafeMax at hc
  split at hc
  next hclean =>
    simp only [Bool.and_eq_true, Bool.not_eq_true', List.any_eq_false] at hclean
    exact Bool.eq_false_iff.mpr (hclean.2 c hc)
  next =>
    obtain ⟨d, -, rfl⟩ := List.mem_map.mp hc
    cases hd : isUnsafeLogChar d with
    | true => rfl
    | false => exact hd

theorem safe_append {a b : Text} : Safe (a ++ b) ↔ Safe a ∧ Safe b := List.forall_mem_append

theorem safe_cons {c : Char} {s : Text} : Safe (c :: s) ↔ isUnsafeLogChar c = false ∧ Safe s :=
  List.forall_mem_cons

/-- The test of every character. -/
theorem safe_of_all {s : Text} (h : (s.all fun c => !isUnsafeLogChar c) = true) : Safe s := by
  intro c hc
  have hsafe := List.all_eq_true.mp h c hc
  simpa using hsafe

theorem hexDigit_safe : ∀ n < 16, isUnsafeLogChar (TextCodec.hexDigit n) = false := by decide

/-- The characters with an escape of two letters. -/
def marks : Text := ['"', '\\', '\n', '\r', '\t']

/-- The marks are escaped safely. -/
theorem marks_safe : ∀ c ∈ marks, Safe (escapeChar c) ∧ isFormatChar c = false := by
  intro c hc
  simp only [marks, List.mem_cons, List.not_mem_nil, or_false] at hc
  rcases hc with rfl | rfl | rfl | rfl | rfl <;> exact ⟨safe_of_all rfl, rfl⟩

/-- The escape of any other character. -/
theorem escapeChar_of_not_mem {c : Char} (h : c ∉ marks) :
    escapeChar c = if isControl c then
      ['\\', 'u', '0', '0', TextCodec.hexDigit (c.toNat / 16), TextCodec.hexDigit (c.toNat % 16)] else [c] := by
  simp only [marks, List.mem_cons, List.not_mem_nil, or_false, not_or] at h
  obtain ⟨h1, h2, h3, h4, h5⟩ := h
  rw [escapeChar, if_neg h1, if_neg h2, if_neg h3, if_neg h4, if_neg h5]

/-- What a character is escaped to is safe unless it is a format character. -/
theorem escapeChar_safe (c : Char) : Safe (escapeChar c) ↔ isFormatChar c = false := by
  by_cases hmark : c ∈ marks
  · obtain ⟨hsafe, hformat⟩ := marks_safe c hmark
    exact ⟨fun _ => hformat, fun _ => hsafe⟩
  rw [escapeChar_of_not_mem hmark]
  split
  next hcontrol =>
    have hlt : c.toNat < 160 := by
      simp only [isControl, Bool.or_eq_true, Bool.and_eq_true, decide_eq_true_eq] at hcontrol
      omega
    have hformat : isFormatChar c = false := by
      simp only [isFormatChar, Bool.or_eq_false_iff, Bool.and_eq_false_iff, decide_eq_false_iff_not,
        beq_eq_false_iff_ne]
      omega
    have hletters : Safe ['\\', 'u', '0', '0'] := safe_of_all rfl
    refine ⟨fun _ => hformat, fun _ d hd => ?_⟩
    rcases List.mem_append.mp (show d ∈ ['\\', 'u', '0', '0'] ++ [_, _] from hd) with hd | hd
    · exact hletters d hd
    · rcases List.mem_cons.mp hd with rfl | hd
      · exact hexDigit_safe _ (by omega)
      · rw [List.mem_singleton.mp hd]
        exact hexDigit_safe _ (by omega)
  next hcontrol => simp [Safe, isUnsafeLogChar, hcontrol]

/-- An escaped text is safe exactly if the text is plain. -/
theorem escapeJson_safe (s : Text) : Safe (escapeJson s) ↔ Plain s := by
  induction s with
  | nil => simp [escapeJson, Safe, Plain]
  | cons c s ih =>
      have hsplit : escapeJson (c :: s) = escapeChar c ++ escapeJson s := List.flatMap_cons
      have hplain : Plain (c :: s) ↔ isFormatChar c = false ∧ Plain s := List.forall_mem_cons
      rw [hsplit, safe_append, escapeChar_safe, ih, hplain]

/-- A written field is safe if its name and value are plain. -/
theorem fieldJson_safe (field : (Text × Text) × Nat) :
    Safe (fieldJson field) ↔ Plain field.1.1 ∧ Plain field.1.2 := by
  have hcomma : Safe (if 0 < field.2 then [','] else []) := by
    split <;> simp [Safe, isUnsafeLogChar, isControl, isFormatChar]
  have hmarks : Safe ['"', ':'] := safe_of_all rfl
  simp only [fieldJson, safe_append, safe_cons, escapeJson_safe, hcomma, hmarks '"' (by simp),
    hmarks ':' (by simp), true_and]
  constructor
  · rintro ⟨⟨hkey, hvalue⟩, -⟩
    exact ⟨hkey, hvalue⟩
  · rintro ⟨hkey, hvalue⟩
    exact ⟨⟨hkey, hvalue⟩, by simp [Safe]⟩

/-- **FORMAT CHARACTERS** of the fields, and nothing else, come out unescaped. -/
theorem fieldsToJson_safe (fields : List (Text × Text)) :
    Safe (fieldsToJson fields) ↔ ∀ field ∈ fields, Plain field.1 ∧ Plain field.2 := by
  have hbraces : Safe ['\x7b', '\x7d'] := safe_of_all rfl
  have hitems : Safe (fields.zipIdx.flatMap fieldJson) ↔ ∀ item ∈ fields.zipIdx, Safe (fieldJson item) := by
    constructor
    · intro h item hitem c hc
      exact h c (List.mem_flatMap.mpr ⟨item, hitem, hc⟩)
    · intro h c hc
      obtain ⟨item, hitem, hc⟩ := List.mem_flatMap.mp hc
      exact h item hitem c hc
  simp only [fieldsToJson, safe_cons, safe_append, hbraces '\x7b' (by simp), hbraces '\x7d' (by simp),
    hitems, fieldJson_safe, true_and]
  constructor
  · rintro ⟨h, -⟩ field hfield
    obtain ⟨i, hi, hget⟩ := List.mem_iff_getElem.mp hfield
    exact h (field, i) (List.mem_zipIdx_iff_getElem?.mpr (by rw [List.getElem?_eq_getElem hi, hget]))
  · intro h
    exact ⟨fun item hitem => h _ (List.fst_mem_of_mem_zipIdx hitem), by simp [Safe]⟩

/-! ## One line -/

/-- A traced line is clean if all its fields are plain. -/
theorem event_clean (line : TelemetryLine) :
    (Output.event (emitAsTracing line)).Clean ↔ ∀ field ∈ line.fields, Plain field.1 ∧ Plain field.2 := by
  constructor
  · rintro ⟨-, -, hfields, -⟩
    exact (fieldsToJson_safe _).mp hfields
  · intro h
    exact ⟨logSafeMax_safe _ _, logSafeMax_safe _ _, (fieldsToJson_safe _).mpr h, logSafeMax_safe _ _⟩

theorem forwarded_clean (raw : Bytes) : (Output.forwarded (forwardableLine raw)).Clean :=
  ⟨_, rfl, logSafeMax_safe _ _⟩

/-- What one line gives is clean if the fields it parses to are plain. -/
theorem dispatchLine_clean (forward : Bool) (raw : Bytes) :
    (∀ out ∈ dispatchLine forward raw, out.Clean) ↔
      ∀ line ∈ lineTelemetry raw, ∀ field ∈ line.fields, Plain field.1 ∧ Plain field.2 := by
  unfold dispatchLine
  cases hempty : raw.isEmpty with
  | true =>
      have hnone : lineTelemetry raw = none := by
        rw [List.isEmpty_iff.mp hempty]
        rfl
      simp [hnone]
  | false =>
      cases hline : lineTelemetry raw with
      | none =>
          cases forward with
          | true => simp [forwarded_clean]
          | false => simp
      | some line => simp [event_clean]

/-- What all lines give is clean if all their fields are. -/
theorem dispatchLines_clean (forward : Nat → Bool) (complete : Bytes) :
    (∀ out ∈ dispatchLines forward complete, out.Clean) ↔ PlainFields complete := by
  constructor
  · intro h raw hraw
    obtain ⟨i, hi, hget⟩ := List.mem_iff_getElem.mp hraw
    refine (dispatchLine_clean (forward i) raw).mp fun out hout => h out ?_
    refine List.mem_filterMap.mpr ⟨(raw, i), List.mem_zipIdx_iff_getElem?.mpr ?_, hout⟩
    rw [List.getElem?_eq_getElem hi, hget]
  · intro h out hout
    obtain ⟨item, hitem, hout⟩ := List.mem_filterMap.mp hout
    exact (dispatchLine_clean _ _).mpr (h _ (List.fst_mem_of_mem_zipIdx hitem)) out hout

/-! ## A run -/

/-- A run with one more operation. -/
theorem run_snoc (ops : List Op) (op : Op) : run (ops ++ [op]) = step (run ops) op := by
  rw [run, List.foldl_append]
  rfl

/-- What a call adds to the log is clean exactly if the lines it completes have plain fields. -/
theorem step_log (s : Sink) (op : Op) : ∃ outs, (step s op).log = s.log ++ outs ∧
    ((∀ out ∈ outs, out.Clean) ↔ PlainFields (op.complete s.buffer)) := by
  cases op with
  | write buf forward => exact ⟨_, rfl, dispatchLines_clean _ _⟩
  | shutdown forward => exact ⟨_, rfl, dispatchLines_clean _ _⟩

/-- The buffer stays within its cap. -/
theorem step_buffer (s : Sink) (op : Op) : (step s op).buffer.length ≤ maxLineBytes := by
  cases op with
  | write buf forward =>
      show (drain s.buffer buf).2.length ≤ _
      unfold drain
      simp only
      split
      next => exact Nat.zero_le _
      next hfits => exact Nat.le_of_not_lt hfits
  | shutdown forward => exact Nat.zero_le _

/-- **THE BUFFER** is bounded after every call. -/
theorem run_buffer (ops : List Op) : (run ops).buffer.length ≤ maxLineBytes := by
  induction ops using List.reverseRecOn with
  | nil => exact Nat.zero_le _
  | append_singleton ops op _ =>
      rw [run_snoc]
      exact step_buffer _ _

/-- Every call of a run completes only lines with plain fields. -/
def PlainRun (ops : List Op) : Prop :=
  ∀ before op after, ops = before ++ op :: after → PlainFields (op.complete (run before).buffer)

/-- A run with one more operation is plain if what completes there is. -/
theorem plainRun_snoc (ops : List Op) (op : Op) :
    PlainRun (ops ++ [op]) ↔ PlainRun ops ∧ PlainFields (op.complete (run ops).buffer) := by
  constructor
  · intro h
    refine ⟨fun before o after heq => h before o (after ++ [op]) ?_, h ops op [] rfl⟩
    rw [heq]
    simp
  · rintro ⟨hops, hop⟩ before o after heq
    rcases List.eq_nil_or_concat after with rfl | ⟨init, last, rfl⟩
    · obtain ⟨rfl, hlast⟩ := List.append_inj' heq rfl
      rw [← (List.cons.inj hlast).1]
      exact hop
    · have hsplit : ops ++ [op] = (before ++ o :: init) ++ [last] := by
        rw [heq]
        simp
      exact hops before o init (List.append_inj' hsplit rfl).1

/-- **FORGING A RECORD** takes a format character in a field: nothing else that a guest writes comes out
    unsafe, however it is cut into calls. -/
theorem unforgeable_iff (ops : List Op) : Unforgeable ops ↔ PlainRun ops := by
  have hlog : (∀ out ∈ (run ops).log, out.Clean) ↔ PlainRun ops := by
    induction ops using List.reverseRecOn with
    | nil =>
        constructor
        · intro _ before op after heq
          simp at heq
        · intro _ out hout
          cases hout
    | append_singleton ops op ih =>
        obtain ⟨outs, hlog, hclean⟩ := step_log (run ops) op
        rw [run_snoc, hlog, plainRun_snoc, ← ih, ← hclean]
        exact List.forall_mem_append
  constructor
  · rintro ⟨hclean, -⟩
    exact hlog.mp hclean
  · intro h
    exact ⟨hlog.mpr h, fun before _ => run_buffer before⟩

/-- `[INFO] m [k=` U+2028 `]`, with its newline. -/
def separatorField : Bytes :=
  [91, 73, 78, 70, 79, 93, 32, 109, 32, 91, 107, 61, 0xE2, 0x80, 0xA8, 93, 10]

/-- A line separator in a field reaches the log as it is. -/
theorem separatorField_forges : ¬ Unforgeable [.write separatorField fun _ => true] := by
  rintro ⟨hclean, -⟩
  have hlog : (run [.write separatorField fun _ => true]).log =
      [.event ⟨.info, [], [], ['\x7b', '"', 'k', '"', ':', '"', Char.ofNat 0x2028, '"', '\x7d'], ['m']⟩] := by
    decide +kernel
  rw [hlog] at hclean
  obtain ⟨-, -, hfields, -⟩ := hclean _ List.mem_cons_self
  exact absurd (hfields (Char.ofNat 0x2028) (by decide)) (by decide)

end Greentic.Telemetry
