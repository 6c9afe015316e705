import GreenticRunner.AttachmentText
import GreenticRunner.Transition

/-! # Attachments of one message

    `materialize` plans every attachment, keeps up to three reads in flight and consumes their
    answers IN ORDER, while the reads finish in any.  Two budgets are spent on the way: the bytes of
    the message and the characters of document text.

    * `Entry` — what became of one attachment, and the pieces of text it is;
    * `Books` — what every move keeps: THE OUTPUT IS THE ENTRIES' and the budgets are theirs;
    * `attachments_accounted` — every attachment is one entry, inside the budgets, and the delimiters
      are the markers'. -/

namespace Greentic.Attachments

open Transition

/-! ## The parts of the call -/

structure AttachmentRef where
  id : Text
  name : Option Text
  sizeBytes : Option Nat
  kind : AttachmentKind
  textRef : Option Text

structure ArtifactBytes where
  mimeType : Text
  bytes : List UInt8

structure MaterializedImage where
  dataBase64 : Text
  mediaType : Text

structure Materialized where
  images : List MaterializedImage
  text : Text

/-- `push_str` on the text. -/
def Materialized.say (out : Materialized) (t : Text) : Materialized := { out with text := out.text ++ t }

/-- `AttachmentTextVerdict`. -/
inductive Verdict where
  | allow (text : Text)
  | withhold

/-- What a call is given: the reader's answer and the guard's verdict for the `n`-th attachment (each
    is asked at most once for it), the nonce, and the libraries. -/
structure Given where
  reader : Nat → Except ArtifactError ArtifactBytes
  guard : Option (Nat → Text → Verdict)
  nonce : Text
  category : Char → GeneralCategory
  fromUtf8Lossy : List UInt8 → Text
  base64 : List UInt8 → Text

/-- `saturating_add` on `usize`. -/
def saturatingAdd (a b : Nat) : Nat := min (a + b) 18446744073709551615

/-- `Plan`. -/
inductive Plan where
  | fetch (id : Text)
  | note (text : Text)

/-- One round of `plan_all`: the plan, and the sizes declared so far. -/
def planOne (vision : Bool) (n declared : Nat) (r : AttachmentRef) : Plan × Nat :=
  match r.kind with
  | .image =>
      if !vision then (.note (note n r.kind (Reason.text .unseen)), declared)
      else
        match r.sizeBytes with
        | some size =>
            if saturatingAdd declared size > turnByteBudget then (.note (budgetNote n r.kind), declared)
            else (.fetch r.id, declared + size)
        | none => (.fetch r.id, declared)
  | .document =>
      match r.textRef with
      | some textRef => (.fetch textRef, declared)
      | none => (.note (noTextNote n), declared)

/-- `push_image`; whether the image was kept. -/
def pushImage (x : Given) (out : Materialized) (n : Nat) (got : ArtifactBytes) :
    Materialized × Bool :=
  if !"image/".toList.isPrefixOf got.mimeType then
    (out.say (note n .image (Reason.text .notImage)), false)
  else ({ out with images := out.images ++ [⟨x.base64 got.bytes, got.mimeType⟩] }, true)

/-- `is_text_mime`. -/
def isTextMime (mime : Text) : Bool :=
  ["text/plain".toList, "text/markdown".toList, "text/csv".toList,
    "application/json".toList].contains mime

/-- What the guard leaves of a kept text; `none` where it withholds the document. -/
def guarded (x : Given) (n cap bytesLeft : Nat) (kept : Kept) : Option Kept :=
  match x.guard with
  | none => some kept
  | some check =>
      if kept.taken = 0 then some kept
      else
        match check n kept.body with
        | .withhold => none
        | .allow text =>
            if text ≠ kept.body then
              let redacted := keptText x.category text cap bytesLeft
              some ⟨redacted.body, redacted.taken, kept.truncated || redacted.truncated⟩
            else some kept

/-- What `push_document` leaves behind. -/
structure Pushed where
  out : Materialized
  charsLeft : Nat
  added : Nat

/-- `push_document`; `none` where its subtraction would underflow. -/
def pushDocument (x : Given) (out : Materialized) (n : Nat) (r : AttachmentRef) (got : ArtifactBytes)
    (charsLeft bytesLeft : Nat) : Option Pushed :=
  if !isTextMime got.mimeType then some ⟨out.say (noTextNote n), charsLeft, 0⟩
  else if charsLeft = 0 then some ⟨out.say (note n r.kind (Reason.text .docLimit)), charsLeft, 0⟩
  else
    let cap := min docCharCap charsLeft
    match guarded x n cap bytesLeft
        (keptText x.category (x.fromUtf8Lossy got.bytes) cap bytesLeft) with
    | none => some ⟨out.say (note n r.kind (Reason.text .withheld)), charsLeft, 0⟩
    | some kept =>
        if kept.taken = 0 then
          some ⟨out.say (if kept.truncated then budgetNote n r.kind else noTextNote n), charsLeft, 0⟩
        else if charsLeft < kept.taken then none
        else
          let block :=
            blockText n r.kind x.nonce (sanitizeName x.category r.name) kept.body
          let cut := if kept.truncated then truncationNote n r.kind kept.taken else []
          some ⟨(out.say block).say cut, charsLeft - kept.taken, utf8Len kept.body⟩

/-! ## The fan-out -/

/-- `Outcome`: the note given instead of a read, or what the read gave. -/
inductive Outcome where
  | note (text : Text)
  | read (answer : Except ArtifactError ArtifactBytes)

/-- How far the future of an attachment is. -/
inductive Task where
  | planned (plan : Plan)
  | reading
  | ready (outcome : Outcome)

/-- The future of the `n`-th attachment. -/
structure Job where
  n : Nat
  ref : AttachmentRef
  task : Task

/-- `plan_all`: the futures, not yet polled. -/
def planAll (vision : Bool) : Nat → Nat → List AttachmentRef → List Job
  | _, _, [] => []
  | n, declared, r :: rest =>
      ⟨n, r, .planned (planOne vision n declared r).1⟩ ::
        planAll vision (n + 1) (planOne vision n declared r).2 rest

/-- A call on its way: the futures not yet taken, those in flight, and what was kept. -/
structure Stage where
  queue : List Job
  window : List Job
  kept : Nat
  out : Materialized
  charsLeft : Nat
  panicked : Bool

/-- The call up to its first poll. -/
def start (vision : Bool) (refs : List AttachmentRef) : Stage :=
  ⟨planAll vision 1 0 (refs.take maxAttachments), [], 0, ⟨[], []⟩, docTotalCap, false⟩

/-- The first poll of a future: a read begins only while the budget is not spent. -/
def Job.begin (kept : Nat) (j : Job) : Option Job :=
  match j.task with
  | .planned (.note text) => some { j with task := .ready (.note text) }
  | .planned (.fetch _) =>
      some { j with
        task := if kept ≥ turnByteBudget then .ready (.note (budgetNote j.n j.ref.kind)) else .reading }
  | _ => none

/-- The reader answers. -/
def Job.answer (x : Given) (j : Job) : Option Job :=
  match j.task with
  | .reading => some { j with task := .ready (.read (x.reader j.n)) }
  | _ => none

/-- One round of the loop over the results. -/
def consume (x : Given) (s : Stage) (n : Nat) (r : AttachmentRef) : Outcome → Stage
  | .note text => { s with out := s.out.say text }
  | .read (.error e) => { s with out := s.out.say (errorNote n r.kind e) }
  | .read (.ok fetched) =>
      match r.kind with
      | .image =>
          if saturatingAdd s.kept fetched.bytes.length > turnByteBudget then
            { s with out := s.out.say (budgetNote n r.kind) }
          else
            match pushImage x s.out n fetched with
            | (out, true) => { s with out := out, kept := s.kept + fetched.bytes.length }
            | (out, false) => { s with out := out }
      | .document =>
          match pushDocument x s.out n r fetched s.charsLeft (turnByteBudget - s.kept) with
          | none => { s with panicked := true }
          | some p => { s with out := p.out, charsLeft := p.charsLeft, kept := s.kept + p.added }

/-- The moves of `buffered(MAX_CONCURRENT_FETCHES)` under the loop. -/
inductive Move where
  | fill
  | begin (slot : Nat)
  | answer (slot : Nat)
  | consume

/-- A move on one future in flight. -/
def Stage.advance (s : Stage) (slot : Nat) (f : Job → Option Job) : Option Stage :=
  (s.window[slot]?.bind f).map fun j => { s with window := s.window.set slot j }

def step (x : Given) (s : Stage) : Move → Option Stage
  | .fill =>
      match s.queue with
      | [] => none
      | j :: rest =>
          if s.window.length < maxConcurrentFetches then
            some { s with queue := rest, window := s.window ++ [j] }
          else none
  | .begin slot => s.advance slot (Job.begin s.kept)
  | .answer slot => s.advance slot (Job.answer x)
  | .consume =>
      match s.window with
      | ⟨n, r, .ready outcome⟩ :: rest => some (consume x { s with window := rest } n r outcome)
      | _ => none

def Stage.finished (s : Stage) : Bool := s.queue.isEmpty && s.window.isEmpty

/-- The notes on the attachments beyond the limit. -/
def overLimitNotes : Nat → List AttachmentRef → Text
  | _, [] => []
  | n, r :: rest => note n r.kind (Reason.text .overLimit) ++ overLimitNotes (n + 1) rest

/-- What the call returns. -/
def Stage.result (refs : List AttachmentRef) (s : Stage) : Materialized :=
  s.out.say (overLimitNotes ((refs.take maxAttachments).length + 1) (refs.drop maxAttachments))

/-! ## What becomes of an attachment -/

/-- An image sent, a block shown, or a note that says why not. -/
inductive Answer where
  | image (got : ArtifactBytes)
  | block (body : Text) (truncated : Bool)
  | note (why : Reason)

/-- One attachment and what became of it. -/
structure Entry where
  n : Nat
  ref : AttachmentRef
  answer : Answer

/-- A piece of the text: a marker line, or text between the markers. -/
inductive Piece where
  | plain (t : Text)
  | marker (t : Text)

def Piece.text : Piece → Text
  | .plain t => t
  | .marker t => t

/-- A piece that **CANNOT BE TAKEN FOR A MARKER**, or one that is one. -/
def Piece.Sound : Piece → Prop
  | .plain t => Clean t
  | .marker t => ∃ inner, t = OPEN :: inner ++ [CLOSE] ∧ Clean inner

/-- The pieces of an attachment's text. -/
def Entry.pieces (x : Given) (e : Entry) : List Piece :=
  match e.answer with
  | .image _ => []
  | .block body truncated =>
      [.plain (blockLead e.n e.ref.kind), .marker (endMarker e.n x.nonce), .plain blockWarning,
        .marker (beginMarker e.n x.nonce),
        .plain (blockData (sanitizeName x.category e.ref.name) body),
        .marker (endMarker e.n x.nonce)] ++
      if truncated then [.plain (truncationNote e.n e.ref.kind body.length)] else []
  | .note why => [.plain (note e.n e.ref.kind why.text)]

def Entry.text (x : Given) (e : Entry) : Text := (e.pieces x).flatMap Piece.text

def Entry.image? (x : Given) (e : Entry) : Option MaterializedImage :=
  match e.answer with
  | .image got => some ⟨x.base64 got.bytes, got.mimeType⟩
  | _ => none

/-- The bytes an attachment takes of the message. -/
def Entry.bytes (e : Entry) : Nat :=
  match e.answer with
  | .image got => got.bytes.length
  | .block body _ => utf8Len body
  | .note _ => 0

/-- The characters of document text it takes. -/
def Entry.chars (e : Entry) : Nat :=
  match e.answer with
  | .block body _ => body.length
  | _ => 0

/-- The sizes that images declare, as `plan_all` adds them up. -/
def declaredBy (vision : Bool) (refs : List AttachmentRef) : Nat :=
  refs.foldl (fun declared r => (planOne vision 0 declared r).2) 0

/-- What the attachments before one have declared, and what they have taken of the budgets. -/
structure Spent where
  declared : Nat
  bytes : Nat
  chars : Nat

def spentBy (vision : Bool) (earlier : List Entry) : Spent :=
  ⟨declaredBy vision (earlier.map (·.ref)), (earlier.map Entry.bytes).sum,
    (earlier.map Entry.chars).sum⟩

/-- The characters and the bytes that are left for a document. -/
def Spent.cap (used : Spent) : Nat := min docCharCap (docTotalCap - used.chars)

def Spent.bytesLeft (used : Spent) : Nat := turnByteBudget - used.bytes

/-- The reader is asked for an image that the model sees, and for a document that has text. -/
def Asked (vision : Bool) (r : AttachmentRef) : Prop :=
  (r.kind = .image ∧ vision = true) ∨ (r.kind = .document ∧ r.textRef.isSome = true)

/-- What it answers for the `n`-th attachment. -/
def Read (x : Given) (vision : Bool) (n : Nat) (r : AttachmentRef)
    (answer : Except ArtifactError ArtifactBytes) : Prop :=
  Asked vision r ∧ x.reader n = answer

/-- The `n`-th document was read as this text. -/
def ReadText (x : Given) (vision : Bool) (n : Nat) (r : AttachmentRef) (raw : Text) : Prop :=
  r.kind = .document ∧ ∃ got, Read x vision n r (.ok got) ∧ isTextMime got.mimeType = true ∧
    raw = x.fromUtf8Lossy got.bytes

/-- What is left of a document's text, and whether anything of it was cut: as much of the sanitised
    text as there is room for; under a guard, as much as it allowed as it is, or as much of the
    sanitised form of the text it gave instead.  A guard is not asked about nothing. -/
def Shown (x : Given) (used : Spent) (n : Nat) (raw body : Text) (truncated : Bool) : Prop :=
  ∃ asked askedCut,
    Keeps used.cap used.bytesLeft (sanitizedChars x.category raw) asked askedCut ∧
    match x.guard with
    | none => body = asked ∧ truncated = askedCut
    | some check =>
        (asked = [] ∨ check n asked = .allow asked) ∧ body = asked ∧ truncated = askedCut ∨
          ∃ text textCut, asked ≠ [] ∧ check n asked = .allow text ∧ text ≠ asked ∧
            Keeps used.cap used.bytesLeft (sanitizedChars x.category text) body textCut ∧
            truncated = (askedCut || textCut)

/-- **WHY NOT**: what was the case when a note was given. -/
def Because (x : Given) (vision : Bool) (used : Spent) (n : Nat) (r : AttachmentRef) : Reason → Prop
  | .unseen => r.kind = .image ∧ vision = false
  | .notFound => Read x vision n r (.error .notFound)
  | .tooLarge => Read x vision n r (.error .tooLarge)
  | .unavailable => ∃ e, Read x vision n r (.error e) ∧ e ≠ .notFound ∧ e ≠ .tooLarge
  | .notImage => r.kind = .image ∧ ∃ got, Read x vision n r (.ok got) ∧
      "image/".toList.isPrefixOf got.mimeType = false
  | .docLimit => (∃ raw, ReadText x vision n r raw) ∧ docTotalCap ≤ used.chars
  | .withheld => ∃ raw check asked cut, ReadText x vision n r raw ∧ x.guard = some check ∧
      Keeps used.cap used.bytesLeft (sanitizedChars x.category raw) asked cut ∧ asked ≠ [] ∧
      check n asked = .withhold
  | .overLimit => maxAttachments < n
  | .noText => r.kind = .document ∧
      (r.textRef = none ∨
        (∃ got, Read x vision n r (.ok got) ∧ isTextMime got.mimeType = false) ∨
        ∃ raw, ReadText x vision n r raw ∧ Shown x used n raw [] false)
  | .budget =>
      (r.kind = .image ∧ vision = true ∧ ∃ size, r.sizeBytes = some size ∧
        turnByteBudget < saturatingAdd used.declared size) ∨
      (Asked vision r ∧ turnByteBudget ≤ used.bytes) ∨
      (r.kind = .image ∧ ∃ got, Read x vision n r (.ok got) ∧
        turnByteBudget < saturatingAdd used.bytes got.bytes.length) ∨
      ∃ raw, ReadText x vision n r raw ∧ Shown x used n raw [] true

/-- What became of the attachment comes of what was read for it, after what others have taken. -/
def Entry.Fits (x : Given) (vision : Bool) (used : Spent) (e : Entry) : Prop :=
  match e.answer with
  | .image got =>
      e.ref.kind = .image ∧ Read x vision e.n e.ref (.ok got) ∧
        "image/".toList.isPrefixOf got.mimeType = true
  | .block body truncated =>
      body ≠ [] ∧ body.length ≤ docCharCap ∧
        ∃ raw, ReadText x vision e.n e.ref raw ∧ Shown x used e.n raw body truncated
  | .note why => Because x vision used e.n e.ref why

/-- **THE ACCOUNT** of a call: what it returns is what became of its attachments, each of them once and
    in order, inside the two budgets, and every note has its cause. -/
structure Accounted (x : Given) (vision : Bool) (refs : List AttachmentRef) (out : Materialized)
    (entries : List Entry) : Prop where
  covers : entries.map (·.ref) = refs
  numbers : entries.map (·.n) = List.range' 1 refs.length
  fits : ∀ pre e post, entries = pre ++ e :: post → e.Fits x vision (spentBy vision pre)
  limit : ∀ e ∈ entries, e.answer = .note .overLimit ↔ maxAttachments < e.n
  images : out.images = entries.filterMap (·.image? x)
  text : out.text = entries.flatMap (·.text x)
  sound : ∀ e ∈ entries, ∀ p ∈ e.pieces x, p.Sound
  budget : (entries.map Entry.bytes).sum ≤ turnByteBudget
  chars : (entries.map Entry.chars).sum ≤ docTotalCap

/-! ## The pieces are sound -/

/-- What is shown is a prefix of the sanitised document. -/
theorem Shown.prefix {x : Given} {used : Spent} {n : Nat} {raw body : Text} {truncated : Bool}
    (h : Shown x used n raw body truncated) : ∃ t, body <+: sanitizedChars x.category t := by
  obtain ⟨asked, askedCut, hkeeps, h⟩ := h
  split at h
  · obtain ⟨rfl, -⟩ := h
    exact ⟨raw, hkeeps.prefix⟩
  · rcases h with ⟨-, rfl, -⟩ | ⟨text, _, -, -, -, htext, -⟩
    · exact ⟨raw, hkeeps.prefix⟩
    · exact ⟨text, htext.prefix⟩

theorem Shown.clean {x : Given} {used : Spent} {n : Nat} {raw body : Text} {truncated : Bool}
    (h : Shown x used n raw body truncated) : Clean body := by
  obtain ⟨t, ht⟩ := h.prefix
  exact (clean_sanitizedChars x.category t).mono ht.subset

/-- The pieces of an entry that fits are sound. -/
theorem Entry.Fits.sound {x : Given} {vision : Bool} {used : Spent} {e : Entry} (hn : Clean x.nonce)
    (h : e.Fits x vision used) : ∀ p ∈ e.pieces x, p.Sound := by
  obtain ⟨n, r, a⟩ := e
  intro p hp
  cases a with
  | image got => cases hp
  | note why =>
      rw [List.mem_singleton.mp hp]
      exact clean_note n r.kind (clean_reason why)
  | block body truncated =>
      obtain ⟨-, -, raw, -, hshown⟩ := h
      rcases List.mem_append.mp hp with hp | hp
      · simp only [List.mem_cons, List.not_mem_nil, or_false] at hp
        rcases hp with rfl | rfl | rfl | rfl | rfl | rfl
        · exact clean_blockLead n r.kind
        · exact endMarker_eq n hn
        · exact clean_blockWarning
        · exact beginMarker_eq n hn
        · exact clean_blockData (clean_sanitizeName _ _) hshown.clean
        · exact endMarker_eq n hn
      · cases truncated with
        | false => cases hp
        | true =>
            rw [List.mem_singleton.mp hp]
            exact clean_truncationNote n r.kind body.length

/-! ## One result -/

/-- A stage after one attachment was answered. -/
structure Answered (x : Given) (vision : Bool) (used : Spent) (s s' : Stage) (e : Entry) : Prop where
  fits : e.Fits x vision used
  queue : s'.queue = s.queue
  window : s'.window = s.window
  images : s'.out.images = s.out.images ++ (e.image? x).toList
  text : s'.out.text = s.out.text ++ e.text x
  kept : s'.kept = s.kept + e.bytes
  chars : s'.charsLeft + e.chars = s.charsLeft
  panicked : s'.panicked = s.panicked

/-- A note takes nothing. -/
theorem Answered.noted {x : Given} {vision : Bool} {used : Spent} (s : Stage) {n : Nat}
    {r : AttachmentRef} {why : Reason} (h : Because x vision used n r why) :
    Answered x vision used s { s with out := s.out.say (note n r.kind why.text) }
      ⟨n, r, .note why⟩ where
  fits := h
  queue := rfl
  window := rfl
  images := (List.append_nil _).symm
  text := by simp [Materialized.say, Entry.text, Entry.pieces, Piece.text]
  kept := rfl
  chars := rfl
  panicked := rfl

/-- What the guard leaves of a document is shown of it, counted as it is and inside both bounds. -/
theorem guarded_spec {x : Given} {used : Spent} {n : Nat} {raw : Text} {kept : Kept}
    (h : guarded x n used.cap used.bytesLeft (keptText x.category raw used.cap used.bytesLeft) =
      some kept) :
    Shown x used n raw kept.body kept.truncated ∧ kept.taken = kept.body.length ∧
      kept.taken ≤ used.cap ∧ utf8Len kept.body ≤ used.bytesLeft := by
  obtain ⟨hkeeps, hcount⟩ := keptText_spec x.category raw used.cap used.bytesLeft
  have hsame : kept = keptText x.category raw used.cap used.bytesLeft →
      kept.taken = kept.body.length ∧ kept.taken ≤ used.cap ∧ utf8Len kept.body ≤ used.bytesLeft := by
    rintro rfl
    exact ⟨hcount, hcount ▸ hkeeps.1, hkeeps.2.1⟩
  unfold guarded at h
  unfold Shown
  split at h
  next =>
      cases h
      exact ⟨⟨_, _, hkeeps, rfl, rfl⟩, hsame rfl⟩
  next check _ =>
      split at h
      next hzero =>
          cases h
          have hnil := List.eq_nil_of_length_eq_zero (hcount.symm.trans hzero)
          exact ⟨⟨_, _, hkeeps, .inl ⟨.inl hnil, rfl, rfl⟩⟩, hsame rfl⟩
      next hzero =>
      split at h
      · cases h
      next text hverdict =>
        split at h
        next hne =>
            cases h
            obtain ⟨hkeeps', hcount'⟩ := keptText_spec x.category text used.cap used.bytesLeft
            have hasked : (keptText x.category raw used.cap used.bytesLeft).body ≠ [] := by
              intro hnil
              rw [hcount, hnil] at hzero
              exact hzero rfl
            exact ⟨⟨_, _, hkeeps, .inr ⟨text, _, hasked, hverdict, hne, hkeeps', rfl⟩⟩, hcount',
              hcount' ▸ hkeeps'.1, hkeeps'.2.1⟩
        next heq =>
            cases h
            rw [not_not.mp heq] at hverdict
            exact ⟨⟨_, _, hkeeps, .inl ⟨.inr hverdict, rfl, rfl⟩⟩, hsame rfl⟩

/-- The guard withheld what it was asked about. -/
theorem guarded_none {x : Given} {n cap bytesLeft : Nat} {kept : Kept}
    (h : guarded x n cap bytesLeft kept = none) :
    ∃ check, x.guard = some check ∧ kept.taken ≠ 0 ∧ check n kept.body = .withhold := by
  unfold guarded at h
  split at h
  · cases h
  next check hguard =>
      split at h
      · cases h
      next hzero =>
      split at h
      next hverdict => exact ⟨check, hguard, hzero, hverdict⟩
      · split at h <;> cases h

/-- The text of a block is its pieces. -/
theorem blockText_pieces (x : Given) (n : Nat) (r : AttachmentRef) (body : Text) (truncated : Bool) :
    (Entry.mk n r (.block body truncated)).text x =
      blockText n r.kind x.nonce (sanitizeName x.category r.name) body ++
        if truncated then truncationNote n r.kind body.length else [] := by
  cases truncated <;>
    simp [Entry.text, Entry.pieces, Piece.text, blockText]

theorem Materialized.say_say (out : Materialized) (s t : Text) :
    (out.say s).say t = out.say (s ++ t) := by
  simp [Materialized.say]

/-- What `push_document` appends to the text, and what it takes of the two budgets. -/
structure Documented (x : Given) (vision : Bool) (used : Spent) (out : Materialized)
    (charsLeft : Nat) (p : Pushed) (e : Entry) : Prop where
  fits : e.Fits x vision used
  image : e.image? x = none
  out : p.out = out.say (e.text x)
  added : p.added = e.bytes
  chars : p.charsLeft + e.chars = charsLeft
  bytes : e.bytes ≤ used.bytesLeft

/-- An attachment that is noted. -/
theorem Documented.noted {x : Given} {vision : Bool} {used : Spent} (out : Materialized)
    (charsLeft : Nat) {n : Nat} {r : AttachmentRef} {why : Reason}
    (h : Because x vision used n r why) :
    Documented x vision used out charsLeft ⟨out.say (note n r.kind why.text), charsLeft, 0⟩
      ⟨n, r, .note why⟩ where
  fits := h
  image := rfl
  out := by simp [Entry.text, Entry.pieces, Piece.text]
  added := rfl
  chars := rfl
  bytes := Nat.zero_le _

/-- `push_document` never underflows. -/
theorem pushDocument_spec {x : Given} {vision : Bool} {used : Spent} {n : Nat} {r : AttachmentRef}
    {got : ArtifactBytes} (hkind : r.kind = .document) (hread : Read x vision n r (.ok got))
    (out : Materialized) :
    ∃ p a, pushDocument x out n r got (docTotalCap - used.chars) used.bytesLeft = some p ∧
      Documented x vision used out (docTotalCap - used.chars) p ⟨n, r, a⟩ := by
  have hnoText : noTextNote n = note n r.kind (Reason.text .noText) := by rw [hkind]; rfl
  have hraw : isTextMime got.mimeType = true →
      ReadText x vision n r (x.fromUtf8Lossy got.bytes) :=
    fun hmime => ⟨hkind, got, hread, hmime, rfl⟩
  unfold pushDocument
  rw [hnoText]
  split
  next hmime =>
    have hother : isTextMime got.mimeType = false := by simpa using hmime
    exact ⟨_, _, rfl, .noted _ _ ⟨hkind, .inr (.inl ⟨got, hread, hother⟩)⟩⟩
  next hmime =>
  have htext := hraw (by simpa using hmime)
  split
  next hleft => exact ⟨_, _, rfl, .noted _ _ ⟨⟨_, htext⟩, Nat.le_of_sub_eq_zero hleft⟩⟩
  next hleft =>
  dsimp only
  split
  next hnone =>
    obtain ⟨check, hguard, hzero, hverdict⟩ := guarded_none hnone
    obtain ⟨hkeeps, hcount⟩ := keptText_spec x.category (x.fromUtf8Lossy got.bytes) used.cap
      used.bytesLeft
    refine ⟨_, _, rfl, .noted _ _ ⟨_, check, _, _, htext, hguard, hkeeps, ?_, hverdict⟩⟩
    intro hnil
    exact hzero (hcount.trans (by rw [hnil]; rfl))
  next kept hkept =>
  obtain ⟨hshown, hcount, hcap, hbytes⟩ := guarded_spec hkept
  split
  next hzero =>
    rw [List.eq_nil_of_length_eq_zero (hcount.symm.trans hzero)] at hshown
    cases hcut : kept.truncated with
    | true =>
        rw [hcut] at hshown
        exact ⟨_, _, rfl, .noted _ _ (.inr (.inr (.inr ⟨_, htext, hshown⟩)))⟩
    | false =>
        rw [hcut] at hshown
        exact ⟨_, _, rfl, .noted _ _ ⟨hkind, .inr (.inr ⟨_, htext, hshown⟩)⟩⟩
  next htaken =>
  have hroom : kept.taken ≤ docTotalCap - used.chars := Nat.le_trans hcap (Nat.min_le_right _ _)
  rw [if_neg (Nat.not_lt.mpr hroom)]
  refine ⟨_, .block kept.body kept.truncated, rfl, ?_⟩
  exact {
    fits := by
      refine ⟨?_, ?_, _, htext, hshown⟩
      · intro hnil
        rw [hcount, hnil] at htaken
        exact htaken rfl
      · rw [← hcount]
        exact Nat.le_trans hcap (Nat.min_le_left _ _)
    image := rfl
    out := by rw [blockText_pieces, Materialized.say_say, hcount]
    added := rfl
    chars := by
      show docTotalCap - used.chars - kept.taken + kept.body.length = docTotalCap - used.chars
      omega
    bytes := hbytes }

/-- An image of a supported type. -/
theorem pushImage_image {x : Given} {out : Materialized} {n : Nat} {got : ArtifactBytes}
    (h : "image/".toList.isPrefixOf got.mimeType = true) :
    pushImage x out n got =
      ({ out with images := out.images ++ [⟨x.base64 got.bytes, got.mimeType⟩] }, true) := by
  rw [pushImage, h]
  rfl

/-- Any other is noted. -/
theorem pushImage_other {x : Given} {out : Materialized} {n : Nat} {got : ArtifactBytes}
    (h : ¬ "image/".toList.isPrefixOf got.mimeType = true) :
    pushImage x out n got = (out.say (note n .image (Reason.text .notImage)), false) := by
  rw [pushImage, Bool.eq_false_iff.mpr h]
  rfl

/-- Why nothing is read for an attachment. -/
def Unasked (vision : Bool) (declared kept : Nat) (r : AttachmentRef) : Reason → Prop
  | .unseen => r.kind = .image ∧ vision = false
  | .noText => r.kind = .document ∧ r.textRef = none
  | .budget =>
      (r.kind = .image ∧ vision = true ∧ ∃ size, r.sizeBytes = some size ∧
        turnByteBudget < saturatingAdd declared size) ∨
      (Asked vision r ∧ turnByteBudget ≤ kept)
  | _ => False

/-- Why an attachment is not asked for. -/
theorem Unasked.because {x : Given} {vision : Bool} {used : Spent} {n : Nat} {r : AttachmentRef}
    {why : Reason} (h : Unasked vision used.declared used.bytes r why) :
    Because x vision used n r why := by
  cases why with
  | unseen => exact h
  | noText => exact ⟨h.1, .inl h.2⟩
  | budget =>
      rcases h with h | h
      · exact .inl h
      · exact .inr (.inl h)
  | _ => exact h.elim

theorem Unasked.mono {vision : Bool} {declared kept kept' : Nat} {r : AttachmentRef} {why : Reason}
    (hle : kept ≤ kept') (h : Unasked vision declared kept r why) :
    Unasked vision declared kept' r why := by
  cases why with
  | budget =>
      rcases h with h | ⟨hasked, h⟩
      · exact .inl h
      · exact .inr ⟨hasked, h.trans hle⟩
  | _ => exact h

/-- What is handed to the loop is a note with its cause, or what the reader answered. -/
def Outcome.Ok (x : Given) (vision : Bool) (declared kept n : Nat) (r : AttachmentRef) :
    Outcome → Prop
  | .note text => ∃ why : Reason, text = Attachments.note n r.kind why.text ∧
      Unasked vision declared kept r why
  | .read answer => Read x vision n r answer

/-- Why it was not read. -/
theorem ArtifactError.because {x : Given} {vision : Bool} {used : Spent} {n : Nat}
    {r : AttachmentRef} {e : ArtifactError} (h : Read x vision n r (.error e)) :
    Because x vision used n r e.why := by
  cases e with
  | notFound => exact h
  | tooLarge => exact h
  | _ => exact ⟨_, h, (by rintro ⟨⟩), by rintro ⟨⟩⟩

/-- **ONE ROUND OF THE LOOP** answers its attachment inside the byte budget. -/
theorem consume_answered {x : Given} {vision : Bool} {used : Spent} {s : Stage} {n : Nat}
    {r : AttachmentRef} {o : Outcome} (ho : o.Ok x vision used.declared s.kept n r)
    (hb : s.kept ≤ turnByteBudget) (hbytes : used.bytes = s.kept)
    (hchars : used.chars + s.charsLeft = docTotalCap) :
    ∃ a, Answered x vision used s (consume x s n r o) ⟨n, r, a⟩ ∧
      (consume x s n r o).kept ≤ turnByteBudget := by
  cases o with
  | note text =>
      obtain ⟨why, rfl, hwhy⟩ := ho
      rw [← hbytes] at hwhy
      exact ⟨_, .noted s hwhy.because, hb⟩
  | read answer =>
      cases answer with
      | error e => exact ⟨_, .noted s (ArtifactError.because ho), hb⟩
      | ok got =>
          have hread : Read x vision n r (.ok got) := ho
          cases hkind : r.kind with
          | image =>
              simp only [consume, hkind]
              split
              next hover =>
                have hwhy : Because x vision used n r .budget :=
                  .inr (.inr (.inl ⟨hkind, got, hread, by rw [hbytes]; exact hover⟩))
                have hnoted := Answered.noted s hwhy
                rw [hkind] at hnoted
                exact ⟨_, hnoted, hb⟩
              next hroom =>
                have hfit : s.kept + got.bytes.length ≤ turnByteBudget := by
                  simp only [saturatingAdd, turnByteBudget] at hroom ⊢
                  omega
                by_cases hmime : "image/".toList.isPrefixOf got.mimeType = true
                · rw [pushImage_image hmime]
                  refine ⟨.image got, ?_, hfit⟩
                  exact {
                    fits := ⟨hkind, hread, hmime⟩
                    queue := rfl
                    window := rfl
                    images := rfl
                    text := (List.append_nil _).symm
                    kept := rfl
                    chars := rfl
                    panicked := rfl }
                · rw [pushImage_other hmime]
                  have hwhy : Because x vision used n r .notImage :=
                    ⟨hkind, got, hread, Bool.eq_false_iff.mpr hmime⟩
                  have hnoted := Answered.noted s hwhy
                  rw [hkind] at hnoted
                  exact ⟨_, hnoted, hb⟩
          | document =>
              obtain ⟨p, a, hp, hd⟩ := pushDocument_spec hkind hread s.out
              have hleft : docTotalCap - used.chars = s.charsLeft := by omega
              have hroom : used.bytesLeft = turnByteBudget - s.kept := by
                rw [Spent.bytesLeft, hbytes]
              rw [hleft, hroom] at hp
              simp only [consume, hkind, hp]
              have htaken := hd.bytes
              rw [hroom] at htaken
              refine ⟨a, ?_, by rw [hd.added]; omega⟩
              exact {
                fits := hd.fits
                queue := rfl
                window := rfl
                images := by rw [hd.image, hd.out]; exact (List.append_nil _).symm
                text := by rw [hd.out]; rfl
                kept := by rw [hd.added]
                chars := hleft ▸ hd.chars
                panicked := rfl }

/-! ## Every run -/

/-- A future that will hand over a note with its cause, or the reader's answer. -/
def Job.Ok (x : Given) (vision : Bool) (declared kept : Nat) (j : Job) : Prop :=
  match j.task with
  | .planned (.fetch _) | .reading => Asked vision j.ref
  | .planned (.note text) => Outcome.Ok x vision declared kept j.n j.ref (.note text)
  | .ready outcome => outcome.Ok x vision declared kept j.n j.ref

/-- An outcome stays right as more is kept. -/
theorem Outcome.Ok.mono {x : Given} {vision : Bool} {declared kept kept' n : Nat}
    {r : AttachmentRef} {o : Outcome} (hle : kept ≤ kept') (h : o.Ok x vision declared kept n r) :
    o.Ok x vision declared kept' n r := by
  cases o with
  | note text =>
      obtain ⟨why, htext, hwhy⟩ := h
      exact ⟨why, htext, hwhy.mono hle⟩
  | read answer => exact h

/-- So does a job. -/
theorem Job.Ok.mono {x : Given} {vision : Bool} {declared kept kept' : Nat} {j : Job}
    (hle : kept ≤ kept') (h : j.Ok x vision declared kept) : j.Ok x vision declared kept' := by
  obtain ⟨n, r, task⟩ := j
  cases task with
  | planned plan =>
      cases plan with
      | fetch id => exact h
      | note text =>
          have hnote : Outcome.Ok x vision declared kept n r (.note text) := h
          exact hnote.mono hle
  | reading => exact h
  | ready outcome =>
      have hready : outcome.Ok x vision declared kept n r := h
      exact hready.mono hle

/-- A planned job is right. -/
theorem planOne_ok (x : Given) (vision : Bool) (n declared kept : Nat) (r : AttachmentRef) :
    (Job.mk n r (.planned (planOne vision n declared r).1)).Ok x vision declared kept := by
  unfold planOne
  split
  next hkind =>
    split
    next hvision => exact ⟨.unseen, rfl, hkind, by simpa using hvision⟩
    next hvision =>
    have hseen : vision = true := by simpa using hvision
    split
    next size hsize =>
      split
      next hover => exact ⟨.budget, rfl, .inl ⟨hkind, hseen, size, hsize, hover⟩⟩
      · exact .inl ⟨hkind, hseen⟩
    · exact .inl ⟨hkind, hseen⟩
  next hkind =>
    split
    next textRef htext => exact .inr ⟨hkind, by rw [htext]; rfl⟩
    next hnone =>
      refine ⟨.noText, ?_, hkind, hnone⟩
      rw [hkind]
      rfl

/-- The number of an attachment is in the text of its plan only. -/
theorem planOne_declared (vision : Bool) (n declared : Nat) (r : AttachmentRef) :
    (planOne vision n declared r).2 = (planOne vision 0 declared r).2 := by
  unfold planOne
  split
  · split
    · rfl
    · split
      · split <;> rfl
      · rfl
  · split <;> rfl

theorem declaredBy_snoc (vision : Bool) (refs : List AttachmentRef) (r : AttachmentRef) :
    declaredBy vision (refs ++ [r]) = (planOne vision 0 (declaredBy vision refs) r).2 := by
  rw [declaredBy, List.foldl_append]
  rfl

/-- All jobs are planned, in order. -/
theorem planAll_spec (x : Given) (vision : Bool) (kept : Nat) (refs : List AttachmentRef) :
    ∀ pre : List AttachmentRef,
      (planAll vision (pre.length + 1) (declaredBy vision pre) refs).map (·.ref) = refs ∧
      (planAll vision (pre.length + 1) (declaredBy vision pre) refs).map (·.n) =
        List.range' (pre.length + 1) refs.length ∧
      ∀ j ∈ planAll vision (pre.length + 1) (declaredBy vision pre) refs,
        j.Ok x vision (declaredBy vision ((pre ++ refs).take (j.n - 1))) kept := by
  induction refs with
  | nil => exact fun pre => ⟨rfl, rfl, fun j hj => by cases hj⟩
  | cons r rest ih =>
      intro pre
      have hnext := ih (pre ++ [r])
      rw [declaredBy_snoc, ← planOne_declared vision (pre.length + 1), List.length_append,
        List.append_assoc] at hnext
      obtain ⟨hrefs, hnumbers, hok⟩ := hnext
      refine ⟨congrArg (r :: ·) hrefs, congrArg ((pre.length + 1) :: ·) hnumbers, ?_⟩
      intro j hj
      rcases List.mem_cons.mp hj with rfl | hj
      · rw [Nat.add_sub_cancel, List.take_left]
        exact planOne_ok x vision (pre.length + 1) (declaredBy vision pre) kept r
      · exact hok j hj

/-- **THE BOOKS** of a call on its way: its output is what became of the attachments it is done with. -/
structure Books (x : Given) (vision : Bool) (used : List AttachmentRef) (s : Stage)
    (done : List Entry) : Prop where
  refs : done.map (·.ref) ++ (s.window ++ s.queue).map (·.ref) = used
  numbers : done.map (·.n) ++ (s.window ++ s.queue).map (·.n) = List.range' 1 used.length
  jobs : ∀ j ∈ s.window ++ s.queue, j.Ok x vision (declaredBy vision (used.take (j.n - 1))) s.kept
  fits : ∀ pre e post, done = pre ++ e :: post → e.Fits x vision (spentBy vision pre)
  images : s.out.images = done.filterMap (·.image? x)
  text : s.out.text = done.flatMap (·.text x)
  kept : (done.map Entry.bytes).sum = s.kept
  budget : s.kept ≤ turnByteBudget
  chars : (done.map Entry.chars).sum + s.charsLeft = docTotalCap
  calm : s.panicked = false

variable {x : Given} {vision : Bool} {used : List AttachmentRef} {s : Stage} {done : List Entry}

/-- The books as the work starts. -/
theorem Books.start (x : Given) (vision : Bool) (refs : List AttachmentRef) :
    Books x vision (refs.take maxAttachments) (start vision refs) [] := by
  obtain ⟨hrefs, hnumbers, hjobs⟩ := planAll_spec x vision 0 (refs.take maxAttachments) []
  exact {
    refs := hrefs
    numbers := hnumbers
    jobs := hjobs
    fits := fun pre e post h => by
      cases pre <;> cases h
    images := rfl
    text := rfl
    kept := rfl
    budget := Nat.zero_le _
    chars := Nat.zero_add _
    calm := rfl }

/-- A move on one future keeps the books. -/
theorem Books.advance {slot : Nat} {f : Job → Option Job} {s' : Stage} (h : Books x vision used s done)
    (hf : ∀ j j', f j = some j' → j'.n = j.n ∧ j'.ref = j.ref ∧
      ∀ declared, j.Ok x vision declared s.kept → j'.Ok x vision declared s.kept)
    (hs : s.advance slot f = some s') : Books x vision used s' done := by
  obtain ⟨j', hj', rfl⟩ := Option.map_eq_some_iff.mp hs
  obtain ⟨j, hj, hfj⟩ := Option.bind_eq_some_iff.mp hj'
  obtain ⟨hn, href, hok⟩ := hf j j' hfj
  exact {
    refs := by
      rw [List.map_append, map_set_of_eq hj href, ← List.map_append]
      exact h.refs
    numbers := by
      rw [List.map_append, map_set_of_eq hj hn, ← List.map_append]
      exact h.numbers
    jobs := by
      intro k hk
      rcases List.mem_append.mp hk with hk | hk
      · rcases mem_of_set hk with rfl | hk
        · rw [hn]
          exact hok _ (h.jobs j (List.mem_append_left _ (List.mem_of_getElem? hj)))
        · exact h.jobs k (List.mem_append_left _ hk)
      · exact h.jobs k (List.mem_append_right _ hk)
    fits := h.fits
    images := h.images
    text := h.text
    kept := h.kept
    budget := h.budget
    chars := h.chars
    calm := h.calm }

theorem Job.begin_ok {kept : Nat} {j j' : Job} (h : Job.begin kept j = some j') :
    j'.n = j.n ∧ j'.ref = j.ref ∧
      ∀ declared, j.Ok x vision declared kept → j'.Ok x vision declared kept := by
  obtain ⟨n, r, task⟩ := j
  cases task with
  | planned plan =>
      cases plan with
      | note text =>
          cases h
          exact ⟨rfl, rfl, fun _ hok => hok⟩
      | fetch id =>
          by_cases hspent : kept ≥ turnByteBudget
          · rw [Job.begin, if_pos hspent] at h
            cases h
            exact ⟨rfl, rfl, fun _ hasked => ⟨.budget, rfl, .inr ⟨hasked, hspent⟩⟩⟩
          · rw [Job.begin, if_neg hspent] at h
            cases h
            exact ⟨rfl, rfl, fun _ hasked => hasked⟩
  | reading => cases h
  | ready outcome => cases h

theorem Job.answer_ok {kept : Nat} {j j' : Job} (h : Job.answer x j = some j') :
    j'.n = j.n ∧ j'.ref = j.ref ∧
      ∀ declared, j.Ok x vision declared kept → j'.Ok x vision declared kept := by
  obtain ⟨n, r, task⟩ := j
  cases task with
  | reading =>
      cases h
      exact ⟨rfl, rfl, fun _ hasked => ⟨hasked, rfl⟩⟩
  | planned plan => cases h
  | ready outcome => cases h

/-- An answered attachment is entered at the end of the books. -/
theorem Books.enter {s' : Stage} {j : Job} {rest : List Job} {a : Answer} (h : Books x vision used s done)
    (hw : s.window = j :: rest)
    (ha : Answered x vision (spentBy vision done) { s with window := rest } s' ⟨j.n, j.ref, a⟩)
    (hb : s'.kept ≤ turnByteBudget) : Books x vision used s' (done ++ [⟨j.n, j.ref, a⟩]) := by
  have hparts : s'.window ++ s'.queue = rest ++ s.queue := by rw [ha.window, ha.queue]
  exact {
    refs := by
      rw [hparts, List.map_append, List.append_assoc]
      simpa [hw] using h.refs
    numbers := by
      rw [hparts, List.map_append, List.append_assoc]
      simpa [hw] using h.numbers
    jobs := by
      intro k hk
      rw [hparts] at hk
      have hle : s.kept ≤ s'.kept := by
        rw [ha.kept]
        exact Nat.le_add_right ..
      refine (h.jobs k ?_).mono hle
      rw [hw]
      exact List.mem_cons_of_mem _ hk
    fits := by
      intro pre e post hsplit
      rcases List.eq_nil_or_concat post with rfl | ⟨front, last, rfl⟩
      · obtain ⟨rfl, heq⟩ := List.append_inj' hsplit rfl
        cases heq
        exact ha.fits
      · rw [List.concat_eq_append, ← List.cons_append, ← List.append_assoc] at hsplit
        obtain ⟨hfront, -⟩ := List.append_inj' hsplit rfl
        exact h.fits pre e front hfront
    images := by
      rw [ha.images, List.filterMap_append]
      show s.out.images ++ _ = _
      rw [h.images]
      cases himage : Entry.image? x ⟨j.n, j.ref, a⟩ <;> simp [himage]
    text := by
      rw [ha.text, List.flatMap_append]
      show s.out.text ++ _ = _
      rw [h.text, List.flatMap_singleton]
    kept := by
      rw [ha.kept, List.map_append, List.sum_append, h.kept]
      simp
    budget := hb
    chars := by
      have hleft : s'.charsLeft + Entry.chars ⟨j.n, j.ref, a⟩ = s.charsLeft := ha.chars
      have := h.chars
      rw [List.map_append, List.sum_append]
      simp only [List.map_cons, List.map_nil, List.sum_cons, List.sum_nil]
      omega
    calm := ha.panicked.trans h.calm }

/-- The attachments that a call is done with are those before the next one. -/
theorem Books.before {j : Job} {rest : List Job} (h : Books x vision used s done)
    (hw : s.window = j :: rest) : used.take (j.n - 1) = done.map (·.ref) := by
  have hn : j.n = 1 + done.length := by
    have hget : (List.range' 1 used.length)[done.length]? = some j.n := by
      rw [← h.numbers, List.getElem?_append_right (by simp), hw]
      simp
    obtain ⟨_, hvalue⟩ := List.getElem?_eq_some_iff.mp hget
    rw [List.getElem_range'] at hvalue
    omega
  rw [hn, Nat.add_sub_cancel_left, ← h.refs, List.take_left' (List.length_map ..)]

/-- **ONE MOVE** keeps the books. -/
theorem Books.step {m : Move} {s' : Stage} (h : Books x vision used s done)
    (hs : Attachments.step x s m = some s') : ∃ done', Books x vision used s' done' := by
  cases m with
  | fill =>
      cases hq : s.queue with
      | nil => simp [Attachments.step, hq] at hs
      | cons j rest =>
          simp only [Attachments.step, hq] at hs
          split at hs
          · cases hs
            have hparts : (s.window ++ [j]) ++ rest = s.window ++ s.queue := by simp [hq]
            exact ⟨done, { h with
              refs := by rw [hparts]; exact h.refs
              numbers := by rw [hparts]; exact h.numbers
              jobs := by rw [hparts]; exact h.jobs }⟩
          · cases hs
  | begin slot => exact ⟨done, h.advance (fun _ _ => Job.begin_ok) hs⟩
  | answer slot => exact ⟨done, h.advance (fun _ _ => Job.answer_ok) hs⟩
  | consume =>
      simp only [Attachments.step] at hs
      split at hs
      next n r outcome rest hw =>
        cases hs
        have hok : outcome.Ok x vision (declaredBy vision (used.take (n - 1))) s.kept n r :=
          h.jobs ⟨n, r, .ready outcome⟩ (by rw [hw]; exact List.mem_cons_self)
        rw [show used.take (n - 1) = done.map (·.ref) from h.before hw] at hok
        have hchars : (spentBy vision done).chars + s.charsLeft = docTotalCap := h.chars
        obtain ⟨a, ha, hb⟩ := consume_answered (s := { s with window := rest }) hok h.budget h.kept
          hchars
        exact ⟨_, h.enter hw ha hb⟩
      · cases hs

/-! ## The end of a run -/

/-- How many moves a future still takes. -/
def Job.left (j : Job) : Nat :=
  match j.task with
  | .planned _ => 3
  | .reading => 2
  | .ready _ => 1

/-- How many moves a call still takes at most. -/
def Stage.left (s : Stage) : Nat := 4 * s.queue.length + (s.window.map Job.left).sum

/-- The loop leaves the futures alone. -/
theorem consume_parts (x : Given) (s : Stage) (n : Nat) (r : AttachmentRef) (o : Outcome) :
    (consume x s n r o).queue = s.queue ∧ (consume x s n r o).window = s.window := by
  cases o with
  | note text => exact ⟨rfl, rfl⟩
  | read answer =>
      cases answer with
      | error e => exact ⟨rfl, rfl⟩
      | ok got =>
          unfold consume
          dsimp only
          split
          · split
            · exact ⟨rfl, rfl⟩
            · split <;> exact ⟨rfl, rfl⟩
          · split <;> exact ⟨rfl, rfl⟩

/-- A job that moves leaves less to do. -/
theorem advance_left {slot : Nat} {f : Job → Option Job} {s s' : Stage}
    (hf : ∀ j j', f j = some j' → j'.left < j.left) (hs : s.advance slot f = some s') :
    s'.left < s.left := by
  obtain ⟨j', hj', rfl⟩ := Option.map_eq_some_iff.mp hs
  obtain ⟨j, hj, hfj⟩ := Option.bind_eq_some_iff.mp hj'
  have hset := sum_map_set_add Job.left hj j'
  have := hf j j' hfj
  simp only [Stage.left]
  omega

/-- Every move brings the end nearer. -/
theorem step_left {x : Given} {s s' : Stage} {m : Move} (hs : step x s m = some s') :
    s'.left < s.left := by
  cases m with
  | fill =>
      cases hq : s.queue with
      | nil => simp [step, hq] at hs
      | cons j rest =>
          simp only [step, hq] at hs
          split at hs
          · cases hs
            have hj : j.left ≤ 3 := by unfold Job.left; split <;> omega
            simp only [Stage.left, hq, List.map_append, List.sum_append, List.length_cons,
              List.map_cons, List.map_nil, List.sum_cons, List.sum_nil]
            omega
          · exact nomatch hs
  | begin slot =>
      refine advance_left (fun j j' h => ?_) hs
      obtain ⟨n, r, task⟩ := j
      cases task with
      | planned plan =>
          cases plan with
          | note text =>
              cases h
              show 1 < 3
              decide
          | fetch id =>
              cases h
              show Job.left ⟨n, r, if s.kept ≥ turnByteBudget then _ else _⟩ < 3
              split
              · show 1 < 3
                decide
              · show 2 < 3
                decide
      | reading => exact nomatch h
      | ready outcome => exact nomatch h
  | answer slot =>
      refine advance_left (fun j j' h => ?_) hs
      obtain ⟨n, r, task⟩ := j
      cases task with
      | reading =>
          cases h
          show 1 < 2
          decide
      | planned plan => exact nomatch h
      | ready outcome => exact nomatch h
  | consume =>
      simp only [step] at hs
      split at hs
      next n r outcome rest hw =>
        cases hs
        have hparts := consume_parts x { s with window := rest } n r outcome
        simp only [Stage.left, hparts.1, hparts.2, hw, List.map_cons, List.sum_cons, Job.left]
        omega
      · exact nomatch hs

/-- A call that is not finished can move. -/
theorem exists_step (x : Given) {s : Stage} (h : s.finished = false) : ∃ m s', step x s m = some s' := by
  cases hw : s.window with
  | cons j rest =>
      obtain ⟨n, r, task⟩ := j
      cases task with
      | planned plan =>
          refine ⟨.begin 0, ?_⟩
          simp only [step, Stage.advance, hw, List.getElem?_cons_zero, Option.bind_some]
          cases plan <;> exact ⟨_, rfl⟩
      | reading =>
          refine ⟨.answer 0, ?_⟩
          simp only [step, Stage.advance, hw, List.getElem?_cons_zero, Option.bind_some]
          exact ⟨_, rfl⟩
      | ready outcome =>
          refine ⟨.consume, ?_⟩
          simp only [step, hw]
          exact ⟨_, rfl⟩
  | nil =>
      cases hq : s.queue with
      | cons j rest =>
          refine ⟨.fill, ?_⟩
          simp only [step, hq, hw]
          exact ⟨_, if_pos (by decide)⟩
      | nil =>
          rw [Stage.finished, hq, hw] at h
          exact nomatch h

/-- The entries of the attachments beyond the limit. -/
def overLimitEntries : Nat → List AttachmentRef → List Entry
  | _, [] => []
  | n, r :: rest => ⟨n, r, .note .overLimit⟩ :: overLimitEntries (n + 1) rest

/-- An entry over the limit is noted. -/
theorem mem_overLimitEntries {refs : List AttachmentRef} {n : Nat} {e : Entry}
    (h : e ∈ overLimitEntries n refs) : e.answer = .note .overLimit ∧ n ≤ e.n := by
  induction refs generalizing n with
  | nil => cases h
  | cons r rest ih =>
      rcases List.mem_cons.mp h with rfl | h
      · exact ⟨rfl, le_refl _⟩
      · obtain ⟨hanswer, hn⟩ := ih h
        exact ⟨hanswer, Nat.le_of_succ_le hn⟩

theorem overLimitEntries_refs (refs : List AttachmentRef) (n : Nat) :
    (overLimitEntries n refs).map (·.ref) = refs := by
  induction refs generalizing n with
  | nil => rfl
  | cons r rest ih => exact congrArg (r :: ·) (ih (n + 1))

theorem overLimitEntries_numbers (refs : List AttachmentRef) (n : Nat) :
    (overLimitEntries n refs).map (·.n) = List.range' n refs.length := by
  induction refs generalizing n with
  | nil => rfl
  | cons r rest ih => exact congrArg (n :: ·) (ih (n + 1))

/-- With its note. -/
theorem overLimitEntries_text (x : Given) (refs : List AttachmentRef) (n : Nat) :
    (overLimitEntries n refs).flatMap (·.text x) = overLimitNotes n refs := by
  induction refs generalizing n with
  | nil => rfl
  | cons r rest ih =>
      rw [overLimitEntries, List.flatMap_cons, ih, overLimitNotes]
      simp [Entry.text, Entry.pieces, Piece.text]

/-- The books of a finished call are its account. -/
theorem Books.accounted {refs : List AttachmentRef} (hn : Clean x.nonce)
    (h : Books x vision (refs.take maxAttachments) s done) (hf : s.finished = true) :
    ∃ entries, Accounted x vision refs (s.result refs) entries := by
  obtain ⟨hq, hw⟩ : s.queue = [] ∧ s.window = [] := by
    simpa [Stage.finished] using hf
  have hrefs := h.refs
  have hnumbers := h.numbers
  simp only [hq, hw, List.append_nil, List.map_nil] at hrefs hnumbers
  let beyond := overLimitEntries ((refs.take maxAttachments).length + 1) (refs.drop maxAttachments)
  have hover : ∀ e ∈ beyond, e.answer = .note .overLimit ∧ maxAttachments < e.n := by
    intro e he
    obtain ⟨hanswer, hle⟩ := mem_overLimitEntries he
    have hfull : (refs.take maxAttachments).length = maxAttachments := by
      rw [List.length_take]
      refine min_eq_left ?_
      by_contra hshort
      rw [show beyond = overLimitEntries _ _ from rfl,
        List.drop_eq_nil_of_le (Nat.le_of_not_le hshort)] at he
      cases he
    rw [hfull] at hle
    exact ⟨hanswer, hle⟩
  have hwithin : ∀ e ∈ done, e.n ≤ maxAttachments := by
    intro e he
    have hmem : e.n ∈ List.range' 1 (refs.take maxAttachments).length :=
      hnumbers ▸ List.mem_map_of_mem he
    have hlt := (List.mem_range'_1.mp hmem).2
    rw [List.length_take] at hlt
    omega
  have hfits : ∀ pre e post, done ++ beyond = pre ++ e :: post → e.Fits x vision (spentBy vision pre) := by
    intro pre e post hsplit
    rcases List.append_eq_append_iff.mp hsplit with ⟨mid, rfl, hmid⟩ | ⟨mid, hdone, hmid⟩
    · have he : e ∈ beyond := by
        rw [hmid]
        simp
      obtain ⟨hanswer, hlt⟩ := hover e he
      rw [Entry.Fits, hanswer]
      exact hlt
    · cases mid with
      | nil =>
          have he : e ∈ beyond := by
            rw [← show e :: post = beyond from hmid]
            exact List.mem_cons_self ..
          obtain ⟨hanswer, hlt⟩ := hover e he
          rw [Entry.Fits, hanswer]
          exact hlt
      | cons z mid =>
          obtain ⟨rfl, -⟩ := List.cons.inj hmid
          exact h.fits pre e mid hdone
  have hsum (f : Entry → Nat) (hzero : ∀ e ∈ beyond, f e = 0) :
      ((done ++ beyond).map f).sum = (done.map f).sum := by
    rw [List.map_append, List.sum_append, List.map_congr_left hzero]
    simp
  refine ⟨done ++ beyond, ?_⟩
  exact {
    covers := by
      rw [List.map_append, hrefs, overLimitEntries_refs, List.take_append_drop]
    numbers := by
      rw [List.map_append, hnumbers, overLimitEntries_numbers, Nat.add_comm _ 1,
        List.range'_append_1, ← List.length_append, List.take_append_drop]
    fits := hfits
    limit := by
      intro e he
      rcases List.mem_append.mp he with he | he
      · refine iff_of_false (fun hanswer => ?_) (Nat.not_lt.mpr (hwithin e he))
        obtain ⟨pre, post, hsplit⟩ := List.append_of_mem he
        have hfit := h.fits pre e post hsplit
        rw [Entry.Fits, hanswer] at hfit
        exact Nat.not_lt.mpr (hwithin e he) hfit
      · exact iff_of_true (hover e he).1 (hover e he).2
    images := by
      have hnone : beyond.filterMap (·.image? x) = [] :=
        List.filterMap_eq_nil_iff.mpr fun e he => by rw [Entry.image?, (hover e he).1]
      rw [List.filterMap_append, hnone, List.append_nil]
      exact h.images
    text := by
      rw [List.flatMap_append, overLimitEntries_text, ← h.text]
      rfl
    sound := by
      intro e he
      obtain ⟨pre, post, hsplit⟩ := List.append_of_mem he
      exact (hfits pre e post hsplit).sound hn
    budget := by
      rw [hsum _ fun e he => by rw [Entry.bytes, (hover e he).1], h.kept]
      exact h.budget
    chars := by
      have := h.chars
      rw [hsum _ fun e he => by rw [Entry.chars, (hover e he).1]]
      omega }

/-- **ATTACHMENTS ARE ACCOUNTED FOR.** Whatever the reader answers and the guard says, in whatever
    order the reads finish: the call never underflows, every move brings its end nearer and one is
    possible until then; and what it returns is one image, block or note for every attachment, in
    order, inside the byte budget and the character caps, with a cause for every note and for every
    cut, and with the delimiters in the marker lines only. -/
theorem attachments_accounted (x : Given) (vision : Bool) (refs : List AttachmentRef)
    (hn : Clean x.nonce) {s : Stage} (h : Reach (step x) Any (start vision refs) s) :
    s.panicked = false ∧ (∀ m s', step x s m = some s' → s'.left < s.left) ∧
      (s.finished = false → ∃ m s', step x s m = some s') ∧
      (s.finished = true → ∃ entries, Accounted x vision refs (s.result refs) entries) := by
  obtain ⟨done, hdone⟩ : ∃ done, Books x vision (refs.take maxAttachments) s done := by
    refine h.inv (I := fun s => ∃ done, Books x vision _ s done) ⟨[], Books.start x vision refs⟩ ?_
    rintro s m s' ⟨done, hdone⟩ - hs
    exact hdone.step hs
  exact ⟨hdone.calm, fun m s' => step_left, exists_step x, hdone.accounted hn⟩

/-! ## One message -/

/-- UTF-8, of ASCII characters and the two delimiters. -/
def decoded : List UInt8 → Text
  | 0xE2 :: 0x9F :: 0xA6 :: rest => OPEN :: decoded rest
  | 0xE2 :: 0x9F :: 0xA7 :: rest => CLOSE :: decoded rest
  | b :: rest => Char.ofNat b.toNat :: decoded rest
  | [] => []

/-- A picture of three bytes, and documents of which the second one forges the line that ends it. -/
def mixedReader : Nat → Except ArtifactError ArtifactBytes
  | 1 => .ok ⟨"image/png".toList, [1, 2, 3]⟩
  | 2 => .ok ⟨"text/plain".toList, [0x68, 0x69, 0xE2, 0x9F, 0xA6, 0x65, 0x6E, 0x64, 0xE2, 0x9F, 0xA7]⟩
  | 4 => .ok ⟨"text/csv".toList, [0x73, 0x65, 0x63, 0x72, 0x65, 0x74]⟩
  | 5 => .ok ⟨"text/markdown".toList, [0x70, 0x69, 0x6E, 0x20, 0x31]⟩
  | _ => .error .notFound

/-- One document is withheld, and one rewritten to a text with delimiters. -/
def mixedGuard : Nat → Text → Verdict
  | 4, _ => .withhold
  | 5, _ => .allow (OPEN :: "pin".toList ++ [CLOSE])
  | _, text => .allow text

def mixed : Given where
  reader := mixedReader
  guard := some mixedGuard
  nonce := "7f".toList
  category := fun _ => .other
  fromUtf8Lossy := decoded
  base64 := fun _ => "AQID".toList

/-- Six attachments, the third with a declared size that the first leaves no room for. -/
def mixedRefs : List AttachmentRef :=
  [⟨"a".toList, none, some 3, .image, none⟩,
    ⟨"b".toList, some (OPEN :: "b.txt".toList), none, .document, some "t".toList⟩,
    ⟨"c".toList, none, some turnByteBudget, .image, none⟩,
    ⟨"d".toList, none, none, .document, some "u".toList⟩,
    ⟨"e".toList, none, none, .document, some "v".toList⟩,
    ⟨"f".toList, none, none, .document, some "w".toList⟩]

/-- The later reads finish first. -/
def mixedMoves : List Move :=
  [.fill, .fill, .fill, .begin 0, .begin 1, .begin 2, .answer 1, .answer 0, .consume, .consume,
    .consume, .fill, .fill, .begin 0, .begin 1, .answer 1, .answer 0, .consume, .consume]

/-- The message as it is put in front of the model: the picture is sent, the forged line has lost its
    delimiters and so has the guard's text, and three notes say why nothing else is there. -/
theorem attachments_accounted_mixed :
    ∃ s, Reach (step mixed) Any (start true mixedRefs) s ∧ s.finished = true ∧
      (s.result mixedRefs).images.map (·.dataBase64) = ["AQID".toList] ∧
      (s.result mixedRefs).text =
        blockText 2 .document mixed.nonce "b.txt".toList "hi(end)".toList ++ budgetNote 3 .image ++
          note 4 .document (Reason.text .withheld) ++
          blockText 5 .document mixed.nonce "file".toList "(pin)".toList ++
          note 6 .document (Reason.text .overLimit) ∧
      s.panicked = false ∧
      ∃ entries, Accounted mixed true mixedRefs (s.result mixedRefs) entries ∧
        entries.map (·.n) = [1, 2, 3, 4, 5, 6] := by
  obtain ⟨s, hs, ht⟩ : ∃ s, Reach (step mixed) Any (start true mixedRefs) s ∧
      (s.finished && decide ((s.result mixedRefs).images.map (·.dataBase64) = ["AQID".toList]) &&
        decide ((s.result mixedRefs).text =
          blockText 2 .document mixed.nonce "b.txt".toList "hi(end)".toList ++ budgetNote 3 .image ++
            note 4 .document (Reason.text .withheld) ++
            blockText 5 .document mixed.nonce "file".toList "(pin)".toList ++
            note 6 .document (Reason.text .overLimit))) = true :=
    Reach.of_test mixedMoves (by decide +kernel)
  obtain ⟨ht, htext⟩ := Bool.and_eq_true_iff.mp ht
  obtain ⟨hf, himages⟩ := Bool.and_eq_true_iff.mp ht
  obtain ⟨hcalm, -, -, haccount⟩ := attachments_accounted mixed true mixedRefs
    (clean_of_ascii (by decide)) hs
  obtain ⟨entries, haccounted⟩ := haccount hf
  exact ⟨s, hs, hf, of_decide_eq_true himages, of_decide_eq_true htext, hcalm, entries, haccounted,
    haccounted.numbers⟩

end Greentic.Attachments
