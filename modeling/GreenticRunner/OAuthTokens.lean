import GreenticRunner.AgentModel
import GreenticRunner.History
import GreenticRunner.Transition

/-! # Access tokens of remote routes

    `TokenProvider` exchanges client credentials for access tokens and remembers the last answer for each
    route: a token until shortly before it expires, or a failure for a while.  The mutex of a route makes its
    calls take turns.

    * `Just` — what justifies an event of the history: a token that was ISSUED FOR THE SAME INPUTS, an
      exchange that no failure holds back;
    * `Kept`, `kept_step` — the invariant;
    * `tokens_kept` — every run keeps to it. -/

namespace Greentic.OAuth

open Greentic.Aw (isControl isWhitespace trim)

/-! ## Inputs and their fingerprint -/

/-- A text: its length fits a `u64`. -/
@[ext] structure Str where
  bytes : List UInt8
  fits : bytes.length < 256 ^ 8
  deriving DecidableEq

/-- What a token is asked for with. -/
structure Ask where
  endpoint : Str
  scope : Option Str
  audience : Option Str
  clientId : Str
  clientSecret : Str
  deriving DecidableEq

def Str.empty : Str := ⟨[], by decide⟩

/-- An absent scope or audience counts as an empty one. -/
def Ask.parts (a : Ask) : List Str :=
  [a.endpoint, a.scope.getD .empty, a.audience.getD .empty, a.clientId, a.clientSecret]

/-- `to_be_bytes`. -/
def toBeBytes : Nat → Nat → List UInt8
  | 0, _ => []
  | k + 1, n => toBeBytes k (n / 256) ++ [UInt8.ofNat n]

/-- What is hashed. -/
def hashed (parts : List Str) : List UInt8 :=
  parts.flatMap fun p => toBeBytes 8 p.bytes.length ++ p.bytes

/-- `fingerprint`. -/
def fingerprint {Digest : Type} (sha256 : List UInt8 → Digest) (a : Ask) : Digest := sha256 (hashed a.parts)

theorem toBeBytes_length (k n : Nat) : (toBeBytes k n).length = k := by
  induction k generalizing n with
  | zero => rfl
  | succ k ih => simp [toBeBytes, ih]

theorem toBeBytes_inj {k m n : Nat} (hm : m < 256 ^ k) (hn : n < 256 ^ k)
    (h : toBeBytes k m = toBeBytes k n) : m = n := by
  induction k generalizing m n with
  | zero => simp at hm hn; omega
  | succ k ih =>
      obtain ⟨hhigh, hlow⟩ := List.append_inj' h rfl
      have hdiv := ih (Nat.div_lt_of_lt_mul (by rwa [pow_succ'] at hm))
        (Nat.div_lt_of_lt_mul (by rwa [pow_succ'] at hn)) hhigh
      have hmod := congrArg UInt8.toNat (List.cons.inj hlow).1
      simp only [UInt8.toNat_ofNat'] at hmod
      omega

/-- The lengths in front keep the parts apart. -/
theorem hashed_inj {ps qs : List Str} (hlen : ps.length = qs.length) (h : hashed ps = hashed qs) : ps = qs := by
  induction ps generalizing qs with
  | nil => exact (List.length_eq_zero_iff.mp hlen.symm).symm
  | cons p ps ih =>
      cases qs with
      | nil => exact absurd hlen (by simp)
      | cons q qs =>
          simp only [hashed, List.flatMap_cons, List.append_assoc] at h
          obtain ⟨hfront, hrest⟩ := List.append_inj h (by simp [toBeBytes_length])
          have hsize := toBeBytes_inj p.fits q.fits hfront
          obtain ⟨hbytes, htail⟩ := List.append_inj hrest hsize
          rw [ih (Nat.succ.inj hlen) htail, Str.ext hbytes]

/-- `Sha256` has no collision among these inputs. -/
def CollisionFree {Digest : Type} (sha256 : List UInt8 → Digest) (I : Set Ask) : Prop :=
  ∀ a ∈ I, ∀ b ∈ I, sha256 (hashed a.parts) = sha256 (hashed b.parts) → hashed a.parts = hashed b.parts

theorem parts_eq {Digest : Type} {sha256 : List UInt8 → Digest} {I : Set Ask} (h : CollisionFree sha256 I)
    {a b : Ask} (ha : a ∈ I) (hb : b ∈ I) (hab : fingerprint sha256 a = fingerprint sha256 b) :
    a.parts = b.parts :=
  hashed_inj rfl (h a ha b hb hab)

/-! ## The answer of the endpoint -/

/-- An `f64`. -/
inductive F64
  | finite (q : ℚ)
  | nonFinite
  deriving DecidableEq

/-- `OAuthError`. -/
inductive OAuthError
  | endpointRefused (reason : String)
  | transport (kind : String)
  | status (status : Nat) (code : Option String)
  | malformed (reason : String)
  | backoff (error : String)
  deriving DecidableEq

/-- The text of an error. -/
def OAuthError.text : OAuthError → String
  | .endpointRefused reason => "oauth token endpoint refused: " ++ reason
  | .transport kind => "oauth token request failed: " ++ kind
  | .status number code =>
      "oauth token endpoint answered HTTP " ++ toString number ++
        match code with
        | some code => " (" ++ code ++ ")"
        | none => ""
  | .malformed reason => "oauth token response unusable: " ++ reason
  | .backoff error => "oauth token endpoint failed recently and is not being retried yet: " ++ error

/-- A second, in nanoseconds. -/
def second : Nat := 1000000000

def maxTokenBytes : Nat := 8 * 1024
def minLifetime : Nat := 60 * second
def maxLifetime : Nat := 3600 * second
def defaultLifetime : Nat := 300 * second
def skew : Nat := 45 * second
def negativeTtl : Nat := 15 * second

/-- To the nearest integer, to the even one of two. -/
def roundEven (x : ℚ) : Nat :=
  let n := ⌊x⌋₊
  if x - n < 1 / 2 then n
  else if 1 / 2 < x - n then n + 1
  else if n % 2 = 0 then n else n + 1

/-- `Duration::from_secs_f64` of a value that is not negative; `none` is its panic. -/
def fromSecsF64 (q : ℚ) : Option Nat :=
  if roundEven (q * second) < 18446744073709551616 * second then some (roundEven (q * second)) else none

/-- `Duration::clamp`, to the lifetimes that are honoured. -/
def clampLifetime (d : Nat) : Nat := max minLifetime (min maxLifetime d)

/-- The lifetime of a token, from the seconds it is said to last. -/
def lifetime : Option ℚ → Option Nat
  | none => some (clampLifetime defaultLifetime)
  | some q => (fromSecsF64 q).map clampLifetime

/-- What comes of an exchange. -/
inductive Answer
  | panicked
  | failed (error : OAuthError)
  | issued (token : String) (lifetime : Nat)

/-- What `exchange` meets. -/
inductive Reply
  /-- The guard of the endpoint refuses it. -/
  | refused (reason : String)
  /-- No answer was read. -/
  | transport (kind : String)
  /-- The credentials cannot be encoded, or the answer is too large. -/
  | malformed (reason : String)
  | response (status : Nat) (body : List UInt8)
  deriving DecidableEq

section Endpoint

variable (fromSlice : List UInt8 → Option Json) (parseF64 : String → Option F64)

/-- The `expires_in` of an answer, as seconds: `is_finite() && >= 0.0`. -/
def expiresIn (value : Json) : Option ℚ :=
  let seconds := match value.get? "expires_in" with
    | some (.num text) => parseF64 text
    | some (.str text) => parseF64 (String.ofList (trim text.toList))
    | _ => none
  match seconds with
  | some (.finite q) => if 0 ≤ q then some q else none
  | _ => none

/-- It can be sent as a header value. -/
def headerToken (token : String) : Bool :=
  !(token.isEmpty || decide (maxTokenBytes < token.utf8ByteSize) ||
    token.toList.any fun c => isControl c || isWhitespace c)

/-- It is not of another kind than `Bearer`. -/
def bearer (value : Json) : Bool :=
  match (value.get? "token_type").bind Json.asStr? with
  | some kind => kind.toList.map Char.toLower == "bearer".toList
  | none => true

/-- `parse_token_response`. -/
def parseTokenResponse (body : List UInt8) : Answer :=
  match fromSlice body with
  | none => .failed (.malformed "the response is not JSON")
  | some value =>
      match (value.get? "access_token").bind Json.asStr? with
      | none => .failed (.malformed "the response has no access_token")
      | some token =>
          if !headerToken token then .failed (.malformed "the access_token cannot be sent as a header value")
          else if !bearer value then .failed (.malformed "the token_type is not Bearer")
          else
            match lifetime (expiresIn parseF64 value) with
            | none => .panicked
            | some d => .issued token d

/-- `error_code`. -/
def errorCode (body : List UInt8) : Option String := do
  let value ← fromSlice body
  let code ← (value.get? "error").bind Json.asStr?
  if !code.isEmpty && code.utf8ByteSize ≤ 64 &&
      code.toList.all fun c => c.isAlphanum || c == '_' || c == '-' || c == '.' then some code else none

/-- `exchange`, given what it meets. -/
def exchange : Reply → Answer
  | .refused reason => .failed (.endpointRefused reason)
  | .transport kind => .failed (.transport kind)
  | .malformed reason => .failed (.malformed reason)
  | .response status body =>
      if 200 ≤ status ∧ status < 300 then parseTokenResponse fromSlice parseF64 body
      else .failed (.status status (errorCode fromSlice body))

/-- The seconds that a reply says its token lasts. -/
def Reply.expires : Reply → Option ℚ
  | .response _ body => (fromSlice body).bind (expiresIn parseF64)
  | _ => none

/-- Its `expires_in` is a number that no `Duration` holds. -/
def Reply.TooLong (reply : Reply) : Prop :=
  ∃ q, reply.expires fromSlice parseF64 = some q ∧ 18446744073709551616 * second ≤ roundEven (q * second)

variable {fromSlice : List UInt8 → Option Json} {parseF64 : String → Option F64}

/-- How `parse_token_response` ends, with the lifetime it read. -/
theorem parseTokenResponse_cases {body : List UInt8} {answer : Answer}
    (h : parseTokenResponse fromSlice parseF64 body = answer) :
    (∃ e, answer = .failed (.malformed e)) ∨
      (lifetime ((fromSlice body).bind (expiresIn parseF64)) = none ∧ answer = .panicked) ∨
      ∃ token d, lifetime ((fromSlice body).bind (expiresIn parseF64)) = some d ∧ answer = .issued token d := by
  unfold parseTokenResponse at h
  split at h
  · exact .inl ⟨_, h.symm⟩
  next value hvalue =>
    rw [hvalue, Option.bind_some]
    split at h
    · exact .inl ⟨_, h.symm⟩
    split at h
    · exact .inl ⟨_, h.symm⟩
    split at h
    · exact .inl ⟨_, h.symm⟩
    split at h
    next hnone => exact .inr (.inl ⟨hnone, h.symm⟩)
    next d hsome => exact .inr (.inr ⟨_, d, hsome, h.symm⟩)

theorem exchange_issued {reply : Reply} {token : String} {d : Nat}
    (h : exchange fromSlice parseF64 reply = .issued token d) :
    lifetime (reply.expires fromSlice parseF64) = some d := by
  cases reply with
  | refused reason => exact nomatch h
  | transport kind => exact nomatch h
  | malformed reason => exact nomatch h
  | response status body =>
      rw [exchange] at h
      split at h
      · rcases parseTokenResponse_cases h with ⟨e, he⟩ | ⟨-, he⟩ | ⟨token', d', hd, he⟩
        · exact nomatch he
        · exact nomatch he
        · rw [(Answer.issued.inj he).2]
          exact hd
      · exact nomatch h

/-- Only a number that does not fit panics. -/
theorem exchange_panicked {reply : Reply} (h : exchange fromSlice parseF64 reply = .panicked) :
    reply.TooLong fromSlice parseF64 := by
  cases reply with
  | refused reason => exact nomatch h
  | transport kind => exact nomatch h
  | malformed reason => exact nomatch h
  | response status body =>
      rw [exchange] at h
      split at h
      · rcases parseTokenResponse_cases h with ⟨e, he⟩ | ⟨hnone, -⟩ | ⟨token, d, -, he⟩
        · exact nomatch he
        · cases hq : (fromSlice body).bind (expiresIn parseF64) with
          | none => rw [hq] at hnone; exact nomatch hnone
          | some q =>
              refine ⟨q, hq, ?_⟩
              rw [hq, lifetime, Option.map_eq_none_iff, fromSecsF64] at hnone
              split at hnone
              next => exact nomatch hnone
              next hlt => exact Nat.le_of_not_lt hlt
        · exact nomatch he
      · exact nomatch h

end Endpoint

/-! ## How long a token is good for -/

/-- The seconds a token is honoured for: at least a minute, at most an hour, five minutes if the answer does
    not say. -/
def honoured (expires : Option ℚ) : ℚ := max 60 (min 3600 (expires.getD 300))

theorem roundEven_le {x : ℚ} (hx : 0 ≤ x) : (roundEven x : ℚ) ≤ x + 1 / 2 := by
  have hfloor : (⌊x⌋₊ : ℚ) ≤ x := Nat.floor_le hx
  unfold roundEven
  simp only
  split
  · linarith
  split
  · push_cast
    linarith
  split
  · linarith
  · push_cast
    linarith

/-- A lifetime exceeds the seconds by less than a nanosecond. -/
theorem lifetime_le {expires : Option ℚ} (h0 : ∀ q, expires = some q → 0 ≤ q) {d : Nat}
    (h : lifetime expires = some d) : minLifetime ≤ d ∧ (d : ℚ) ≤ honoured expires * second + 1 / 2 := by
  have hclamp : ∀ (r : Nat) (x : ℚ), (r : ℚ) ≤ x * second + 1 / 2 →
      ((clampLifetime r : Nat) : ℚ) ≤ max 60 (min 3600 x) * second + 1 / 2 := by
    intro r x hr
    rw [clampLifetime, minLifetime, maxLifetime, second] at *
    push_cast
    rcases le_total (3600 : ℚ) x with hx | hx
    · rw [min_eq_left hx]
      refine le_trans (max_le_max_left _ (min_le_left _ _)) ?_
      norm_num
    · rw [min_eq_right hx]
      refine max_le ?_ (le_trans (min_le_right _ _) ?_)
      · have := le_max_left (60 : ℚ) x
        linarith
      · have := le_max_right (60 : ℚ) x
        linarith
  cases expires with
  | none =>
      rw [← Option.some.inj h]
      refine ⟨Nat.le_max_left _ _, hclamp defaultLifetime 300 ?_⟩
      norm_num [defaultLifetime, second]
  | some q =>
      rw [lifetime, fromSecsF64] at h
      split at h
      · rw [← Option.some.inj h]
        have hq := h0 q rfl
        refine ⟨Nat.le_max_left _ _, hclamp _ q (roundEven_le (by positivity))⟩
      · exact nomatch h

theorem expiresIn_nonneg {parseF64 : String → Option F64} {value : Json} {q : ℚ}
    (h : expiresIn parseF64 value = some q) : 0 ≤ q := by
  unfold expiresIn at h
  simp only at h
  split at h
  · split at h
    next hq => rwa [← Option.some.inj h]
    next => exact nomatch h
  · exact nomatch h

theorem Reply.expires_nonneg {fromSlice : List UInt8 → Option Json} {parseF64 : String → Option F64}
    {reply : Reply} {q : ℚ} (h : reply.expires fromSlice parseF64 = some q) : 0 ≤ q := by
  cases reply with
  | response status body =>
      obtain ⟨value, -, hq⟩ := Option.bind_eq_some_iff.mp h
      exact expiresIn_nonneg hq
  | refused reason => exact nomatch h
  | transport kind => exact nomatch h
  | malformed reason => exact nomatch h

/-! ## The provider -/

/-- What the cache remembers for one key. -/
inductive Slot (Digest : Type)
  | token (fingerprint : Digest) (token : String) (validUntil : Nat)
  | failed (fingerprint : Digest) (heldUntil : Nat) (error : OAuthError)

variable {Digest Key : Type}

/-- `live_token`. -/
def Slot.liveToken [DecidableEq Digest] (slot : Slot Digest) (fingerprint : Digest) (now : Nat) : Option String :=
  match slot with
  | .token held value validUntil => if held = fingerprint ∧ now < validUntil then some value else none
  | .failed _ _ _ => none

/-- `recent_failure`. -/
def Slot.recentFailure [DecidableEq Digest] (slot : Slot Digest) (fingerprint : Digest) (now : Nat) : Option OAuthError :=
  match slot with
  | .failed held heldUntil error => if held = fingerprint ∧ now < heldUntil then some error else none
  | .token _ _ _ => none

/-- How a call ended; a panic with the reply that caused it. -/
inductive Ended
  | token (token : String)
  | error (error : OAuthError)
  | panicked (reply : Reply)
  | forgotten
  deriving DecidableEq

/-- A call of the provider, at one of its awaits. -/
inductive Call (Key : Type)
  /-- `token_for`, before the mutex of its key. -/
  | waiting (key : Key) (ask : Ask)
  /-- `token_for` in its exchange, with the mutex. -/
  | exchanging (key : Key) (ask : Ask)
  /-- `invalidate`, before the mutex of its key. -/
  | forgetting (key : Key)
  | ended (result : Ended)
  deriving DecidableEq

/-- What happened. -/
inductive Event (Key : Type)
  | started (key : Key) (ask : Ask) (now : Nat)
  | issued (key : Key) (ask : Ask) (token : String) (expires : Option ℚ) (now : Nat)
  | failed (key : Key) (ask : Ask) (now : Nat)
  | returned (key : Key) (ask : Ask) (token : String) (now : Nat)
  | invalidated (key : Key)
  deriving DecidableEq

/-- `TokenProvider`, with its calls and what happened. -/
structure Provider (Digest Key : Type) where
  now : Nat
  slots : Key → Option (Option (Slot Digest))
  locked : Key → Bool
  calls : List (Call Key)
  log : List (Event Key)

/-- A provider before its first call. -/
def Provider.fresh : Provider Digest Key := ⟨0, fun _ => none, fun _ => false, [], []⟩

/-- The next thing to happen. -/
inductive Action (Key : Type)
  | pass (d : Nat)
  | tokenFor (key : Key) (ask : Ask)
  | invalidate (key : Key)
  /-- A waiting call gets the mutex. -/
  | acquire (i : Nat)
  /-- An exchange meets its reply. -/
  | answer (i : Nat) (reply : Reply)

section Steps

variable [DecidableEq Digest] [DecidableEq Key] (sha256 : List UInt8 → Digest) (fromSlice : List UInt8 → Option Json) (parseF64 : String → Option F64)
  (s : Provider Digest Key) (i : Nat) (key : Key) (ask : Ask)

/-- `token_for` with the mutex: what is remembered, or an exchange. -/
def look : Provider Digest Key :=
  match (s.slots key).join.bind (·.liveToken (fingerprint sha256 ask) s.now) with
  | some token => { s with
      calls := s.calls.set i (.ended (.token token)), log := s.log ++ [.returned key ask token s.now] }
  | none =>
      match (s.slots key).join.bind (·.recentFailure (fingerprint sha256 ask) s.now) with
      | some error => { s with calls := s.calls.set i (.ended (.error (.backoff error.text))) }
      | none => { s with
          locked := Function.update s.locked key true
          calls := s.calls.set i (.exchanging key ask)
          log := s.log ++ [.started key ask s.now] }

/-- The guard is dropped at the end of a call. -/
def finish (result : Ended) : Provider Digest Key :=
  { s with locked := Function.update s.locked key false, calls := s.calls.set i (.ended result) }

/-- `token_for` after its exchange. -/
def settle (reply : Reply) : Provider Digest Key :=
  match exchange fromSlice parseF64 reply with
  | .issued token d => { finish s i key (.token token) with
      slots := Function.update s.slots key (some (some (.token (fingerprint sha256 ask) token (s.now + (d - skew)))))
      log := s.log ++ [.issued key ask token (reply.expires fromSlice parseF64) s.now] ++
        [.returned key ask token s.now] }
  | .failed (.endpointRefused reason) => finish s i key (.error (.endpointRefused reason))
  | .failed error => { finish s i key (.error error) with
      slots := Function.update s.slots key
        (some (some (.failed (fingerprint sha256 ask) (s.now + negativeTtl) error)))
      log := s.log ++ [.failed key ask s.now] }
  | .panicked => finish s i key (.panicked reply)

/-- `invalidate` with the mutex. -/
def forget : Provider Digest Key := { s with
  slots := Function.update s.slots key (some none)
  calls := s.calls.set i (.ended .forgotten)
  log := s.log ++ [.invalidated key] }

/-- One step of the provider. -/
def step : Action Key → Option (Provider Digest Key)
  | .pass d => some { s with now := s.now + d }
  | .tokenFor key ask => some { s with
      slots := Function.update s.slots key (some (s.slots key).join)
      calls := s.calls ++ [.waiting key ask] }
  | .invalidate key =>
      match s.slots key with
      | none => some { s with calls := s.calls ++ [.ended .forgotten], log := s.log ++ [.invalidated key] }
      | some _ => some { s with calls := s.calls ++ [.forgetting key] }
  | .acquire i =>
      match s.calls[i]? with
      | some (.waiting key ask) => if s.locked key then none else some (look sha256 s i key ask)
      | some (.forgetting key) => if s.locked key then none else some (forget s i key)
      | _ => none
  | .answer i reply =>
      match s.calls[i]? with
      | some (.exchanging key ask) => some (settle sha256 fromSlice parseF64 s i key ask reply)
      | _ => none

end Steps

/-! ## What is promised -/

/-- What lifts a failure for some inputs: an invalidation, or the answer to other inputs. -/
def Lifts (key : Key) (ask : Ask) : Event Key → Prop
  | .invalidated k => k = key
  | .issued k a _ _ _ => k = key ∧ a.parts ≠ ask.parts
  | .failed k a _ => k = key ∧ a.parts ≠ ask.parts
  | _ => False

/-- An exchange for these inputs failed at that time. -/
def FailedAt (key : Key) (ask : Ask) (t : Nat) (e : Event Key) : Prop :=
  ∃ a, e = .failed key a t ∧ a.parts = ask.parts

/-- This token was issued for these inputs, and it is still good. -/
def GoodAt (key : Key) (ask : Ask) (token : String) (t : Nat) (e : Event Key) : Prop :=
  ∃ a expires t₀, e = .issued key a token expires t₀ ∧ a.parts = ask.parts ∧
    (t : ℚ) < t₀ + (honoured expires - 45) * second

/-- What justifies an event: a token that is returned was issued for the same inputs and not invalidated since,
    and it is still good; no failure holds an exchange back. -/
def Just (before : List (Event Key)) : Event Key → Prop
  | .returned key ask token t => History.Since (GoodAt key ask token t) (· = .invalidated key) before
  | .started key ask t => ∀ t₀, t < t₀ + negativeTtl → ¬ History.Since (FailedAt key ask t₀) (Lifts key ask) before
  | _ => True

/-- A call is in an exchange for a key. -/
def Call.isExchanging [DecidableEq Key] (key : Key) : Call Key → Bool
  | .exchanging k _ => k = key
  | _ => false

/-- Inputs that are used. -/
def Uses (I : Set Ask) (_ : Provider Digest Key) : Action Key → Prop
  | .tokenFor _ ask => ask ∈ I
  | _ => True

/-! ## The invariant -/

section Invariant

variable (sha256 : List UInt8 → Digest) (fromSlice : List UInt8 → Option Json) (parseF64 : String → Option F64)
  (I : Set Ask)

/-- The event that a remembered token comes from. -/
def Source (key : Key) (fp : Digest) (token : String) (validUntil : Nat) (e : Event Key) : Prop :=
  ∃ a ∈ I, ∃ expires t₀ d, e = .issued key a token expires t₀ ∧ fp = fingerprint sha256 a ∧
    (∀ q, expires = some q → 0 ≤ q) ∧ lifetime expires = some d ∧ validUntil = t₀ + (d - skew)

/-- The mutexes and the calls agree. -/
structure Locked [DecidableEq Key] (s : Provider Digest Key) : Prop where
  count : ∀ key, s.calls.countP (Call.isExchanging key) = if s.locked key then 1 else 0
  waiting : ∀ key ask, Call.waiting key ask ∈ s.calls → ask ∈ I
  exchanging : ∀ key ask, Call.exchanging key ask ∈ s.calls → ask ∈ I
  panics : ∀ reply, Call.ended (.panicked reply) ∈ s.calls → reply.TooLong fromSlice parseF64

/-- What is remembered comes from the history, and the history is justified. -/
structure Remembered (s : Provider Digest Key) : Prop where
  each : History.Each Just s.log
  cached : ∀ key fp token validUntil, s.slots key = some (some (.token fp token validUntil)) →
    History.Since (Source sha256 I key fp token validUntil) (· = .invalidated key) s.log
  held : ∀ key ask t₀, History.Since (FailedAt key ask t₀) (Lifts key ask) s.log →
    (∃ heldUntil error, s.slots key = some (some (.failed (fingerprint sha256 ask) heldUntil error)) ∧
      t₀ + negativeTtl ≤ heldUntil) ∨ t₀ + negativeTtl ≤ s.now

/-- A failure for the inputs of a running exchange is over. -/
def Expired (s : Provider Digest Key) : Prop :=
  ∀ key ask, Call.exchanging key ask ∈ s.calls → ∀ heldUntil error,
    s.slots key = some (some (.failed (fingerprint sha256 ask) heldUntil error)) → heldUntil ≤ s.now

/-- The invariant. -/
structure Kept [DecidableEq Key] (s : Provider Digest Key) : Prop where
  locked : Locked fromSlice parseF64 I s
  remembered : Remembered sha256 I s
  expired : Expired sha256 s

variable {sha256 : List UInt8 → Digest} {fromSlice : List UInt8 → Option Json} {parseF64 : String → Option F64}
  {I : Set Ask} {s s' : Provider Digest Key} {i : Nat} {key : Key} {ask : Ask}

/-! ## The slots -/

/-- The same tokens and failures are remembered. -/
def SameSlots (s s' : Provider Digest Key) : Prop :=
  ∀ k slot, s'.slots k = some (some slot) ↔ s.slots k = some (some slot)

theorem SameSlots.of_eq (h : s'.slots = s.slots) : SameSlots s s' := fun k slot => by rw [h]

/-- Time, new calls and calls that end keep what is remembered. -/
theorem Remembered.same (h : Remembered sha256 I s) (hslots : SameSlots s s') (hnow : s.now ≤ s'.now)
    (hlog : s'.log = s.log) : Remembered sha256 I s' := by
  refine ⟨hlog ▸ h.each, fun k fp token validUntil hslot => ?_, fun k a t₀ hsince => ?_⟩
  · rw [hlog]
    exact h.cached k fp token validUntil ((hslots _ _).mp hslot)
  · rcases h.held k a t₀ (hlog ▸ hsince) with ⟨heldUntil, error, hslot, hle⟩ | hover
    · exact .inl ⟨heldUntil, error, (hslots _ _).mpr hslot, hle⟩
    · exact .inr (Nat.le_trans hover hnow)

/-- So does a justified event that is no answer and no invalidation. -/
theorem Remembered.note (h : Remembered sha256 I s) {e : Event Key}
    (hfailed : ∀ k a t₀, ¬ FailedAt k a t₀ e) (hinvalid : ∀ k, e ≠ .invalidated k) (hjust : Just s.log e)
    (hslots : s'.slots = s.slots) (hnow : s'.now = s.now) (hlog : s'.log = s.log ++ [e]) :
    Remembered sha256 I s' := by
  refine ⟨?_, fun k fp token validUntil hslot => ?_, fun k a t₀ hsince => ?_⟩
  · rw [hlog]
    exact History.each_snoc.mpr ⟨h.each, hjust⟩
  · rw [hlog]
    exact (h.cached k fp token validUntil (hslots ▸ hslot)).snoc (hinvalid k)
  · rw [hlog] at hsince
    rw [hslots, hnow]
    exact h.held k a t₀ (hsince.of_snoc (hfailed k a t₀)).1

theorem Remembered.invalidated (h : Remembered sha256 I s)
    (hself : ∀ slot, s'.slots key ≠ some (some slot)) (hother : ∀ k ≠ key, s'.slots k = s.slots k)
    (hnow : s'.now = s.now) (hlog : s'.log = s.log ++ [.invalidated key]) : Remembered sha256 I s' := by
  refine ⟨?_, fun k fp token validUntil hslot => ?_, fun k a t₀ hsince => ?_⟩
  · rw [hlog]
    exact History.each_snoc.mpr ⟨h.each, trivial⟩
  · have hk : k ≠ key := by
      rintro rfl
      exact hself _ hslot
    rw [hlog]
    rw [hother k hk] at hslot
    exact (h.cached k fp token validUntil hslot).snoc fun heq => hk (Event.invalidated.inj heq).symm
  · rw [hlog] at hsince
    obtain ⟨hsince, hlifts⟩ := hsince.of_snoc (by rintro ⟨b, heq, -⟩; exact nomatch heq)
    have hk : k ≠ key := fun heq => hlifts heq.symm
    rw [hother k hk, hnow]
    exact h.held k a t₀ hsince

/-- A failure does not hold the inputs back whose exchange is running. -/
theorem Remembered.over (h : Remembered sha256 I s) (hexpired : Expired sha256 s)
    (hx : s.calls[i]? = some (.exchanging key ask)) {a : Ask} (ha : ask.parts = a.parts) {t₀ : Nat}
    (hsince : History.Since (FailedAt key a t₀) (Lifts key a) s.log) : t₀ + negativeTtl ≤ s.now := by
  rcases h.held key a t₀ hsince with ⟨heldUntil, error, hslot, hle⟩ | hover
  · have hfp : fingerprint sha256 a = fingerprint sha256 ask := by rw [fingerprint, fingerprint, ha]
    rw [hfp] at hslot
    exact Nat.le_trans hle (hexpired key ask (List.mem_of_getElem? hx) heldUntil error hslot)
  · exact hover

/-- A token is remembered with the event it comes from. -/
theorem Remembered.issued (h : Remembered sha256 I s) (hexpired : Expired sha256 s)
    (hx : s.calls[i]? = some (.exchanging key ask)) {fp : Digest} {token : String} {validUntil : Nat}
    {expires : Option ℚ} (hsource : Source sha256 I key fp token validUntil (.issued key ask token expires s.now))
    (hself : s'.slots key = some (some (.token fp token validUntil)))
    (hother : ∀ k ≠ key, s'.slots k = s.slots k) (hnow : s'.now = s.now)
    (hlog : s'.log = s.log ++ [.issued key ask token expires s.now]) : Remembered sha256 I s' := by
  refine ⟨?_, fun k fp' token' validUntil' hslot => ?_, fun k a t₀ hsince => ?_⟩
  · rw [hlog]
    exact History.each_snoc.mpr ⟨h.each, trivial⟩
  · rw [hlog]
    by_cases hk : k = key
    · subst hk
      rw [hself] at hslot
      obtain ⟨rfl, rfl, rfl⟩ := Slot.token.inj (Option.some.inj (Option.some.inj hslot))
      exact .last hsource
    · rw [hother k hk] at hslot
      exact (h.cached k fp' token' validUntil' hslot).snoc (fun heq => nomatch heq)
  · rw [hlog] at hsince
    obtain ⟨hold, hlifts⟩ := hsince.of_snoc (by rintro ⟨b, heq, -⟩; exact nomatch heq)
    rw [hnow]
    by_cases hk : k = key
    · subst hk
      have hparts : ask.parts = a.parts := by
        by_contra hne
        exact hlifts ⟨rfl, hne⟩
      exact .inr (h.over hexpired hx hparts hold)
    · rw [hother k hk]
      exact h.held k a t₀ hold

/-- A failure is remembered for its inputs. -/
theorem Remembered.failed (h : Remembered sha256 I s) (hexpired : Expired sha256 s)
    (hx : s.calls[i]? = some (.exchanging key ask)) {error : OAuthError}
    (hself : s'.slots key = some (some (.failed (fingerprint sha256 ask) (s.now + negativeTtl) error)))
    (hother : ∀ k ≠ key, s'.slots k = s.slots k) (hnow : s'.now = s.now)
    (hlog : s'.log = s.log ++ [.failed key ask s.now]) : Remembered sha256 I s' := by
  refine ⟨?_, fun k fp token validUntil hslot => ?_, fun k a t₀ hsince => ?_⟩
  · rw [hlog]
    exact History.each_snoc.mpr ⟨h.each, trivial⟩
  · rw [hlog]
    have hk : k ≠ key := by
      rintro rfl
      rw [hself] at hslot
      exact nomatch hslot
    rw [hother k hk] at hslot
    exact (h.cached k fp token validUntil hslot).snoc (fun heq => nomatch heq)
  · rw [hlog] at hsince
    rw [hnow]
    rcases History.since_snoc.mp hsince with ⟨b, heq, hparts⟩ | ⟨hold, hlifts⟩
    · obtain ⟨rfl, rfl, rfl⟩ := Event.failed.inj heq
      refine .inl ⟨_, error, ?_, Nat.le_refl _⟩
      rw [hself, fingerprint, fingerprint, hparts]
    · by_cases hk : k = key
      · subst hk
        have hparts : ask.parts = a.parts := by
          by_contra hne
          exact hlifts ⟨rfl, hne⟩
        exact .inr (h.over hexpired hx hparts hold)
      · rw [hother k hk]
        exact h.held k a t₀ hold

/-- Nothing new is held against the running exchanges. -/
theorem Expired.keep (h : Expired sha256 s) (hnow : s.now ≤ s'.now)
    (hcalls : ∀ k a, Call.exchanging k a ∈ s'.calls →
      Call.exchanging k a ∈ s.calls ∧ ∀ slot, s'.slots k = some (some slot) → s.slots k = some (some slot)) :
    Expired sha256 s' := by
  intro k a hmem heldUntil error hslot
  obtain ⟨hold, hslots⟩ := hcalls k a hmem
  exact Nat.le_trans (h k a hold heldUntil error (hslots _ hslot)) hnow

theorem liveToken_eq [DecidableEq Digest] {fp : Digest} {now : Nat} {token : String}
    (h : (s.slots key).join.bind (·.liveToken fp now) = some token) :
    ∃ validUntil, s.slots key = some (some (.token fp token validUntil)) ∧ now < validUntil := by
  obtain ⟨slot, hslot, hlive⟩ := Option.bind_eq_some_iff.mp h
  cases slot with
  | failed held heldUntil error => exact nomatch hlive
  | token held value validUntil =>
      rw [Slot.liveToken] at hlive
      split at hlive
      next hgood =>
        obtain ⟨rfl, hnow⟩ := hgood
        rw [← Option.some.inj hlive]
        exact ⟨validUntil, Option.join_eq_some_iff.mp hslot, hnow⟩
      next => exact nomatch hlive

/-- A token that is remembered for these inputs is good for them. -/
theorem Source.good (hI : CollisionFree sha256 I) {token : String} {validUntil t : Nat} {e : Event Key}
    (h : Source sha256 I key (fingerprint sha256 ask) token validUntil e) (hask : ask ∈ I) (ht : t < validUntil) :
    GoodAt key ask token t e := by
  obtain ⟨a, ha, expires, t₀, d, rfl, hfp, h0, hlife, hvalid⟩ := h
  rw [hvalid] at ht
  refine ⟨a, expires, t₀, rfl, parts_eq hI ha hask hfp.symm, ?_⟩
  obtain ⟨hmin, hle⟩ := lifetime_le h0 hlife
  have hnat : t + 1 + skew ≤ t₀ + d := by
    simp only [minLifetime, skew, second] at *
    omega
  have hcast : (t : ℚ) + 1 + 45 * second ≤ t₀ + d := by
    have := (Nat.cast_le (α := ℚ)).mpr hnat
    rw [skew] at this
    push_cast at this
    exact this
  linarith

/-! ## The mutexes -/

variable [DecidableEq Key]

/-- The calls afterwards are old ones and one other. -/
theorem Locked.of_calls (h : Locked fromSlice parseF64 I s) {y : Call Key}
    (hcount : ∀ k, s'.calls.countP (Call.isExchanging k) = if s'.locked k then 1 else 0)
    (hmem : ∀ c ∈ s'.calls, c = y ∨ c ∈ s.calls) (hwaiting : ∀ k a, y = .waiting k a → a ∈ I)
    (hexchanging : ∀ k a, y = .exchanging k a → a ∈ I)
    (hpanic : ∀ reply, y = .ended (.panicked reply) → reply.TooLong fromSlice parseF64) :
    Locked fromSlice parseF64 I s' := by
  refine ⟨hcount, fun k a hc => ?_, fun k a hc => ?_, fun reply hc => ?_⟩
  · exact (hmem _ hc).elim (fun heq => hwaiting k a heq.symm) (h.waiting k a)
  · exact (hmem _ hc).elim (fun heq => hexchanging k a heq.symm) (h.exchanging k a)
  · exact (hmem _ hc).elim (fun heq => hpanic reply heq.symm) (h.panics reply)

/-- A call ends without an exchange. -/
theorem Locked.leave (h : Locked fromSlice parseF64 I s) {x : Call Key} (hx : s.calls[i]? = some x)
    (hxs : ∀ k, x.isExchanging k = false) {result : Ended} (hpanic : ∀ reply, result ≠ .panicked reply)
    (hcalls : s'.calls = s.calls.set i (.ended result)) (hlocked : s'.locked = s.locked) :
    Locked fromSlice parseF64 I s' := by
  refine h.of_calls (y := .ended result) (fun k => ?_) (fun c hc => Transition.mem_of_set (hcalls ▸ hc))
    (fun _ _ heq => nomatch heq) (fun _ _ heq => nomatch heq)
    (fun reply heq => absurd (Call.ended.inj heq) (hpanic reply))
  have hcount := Transition.countP_set_add (Call.isExchanging k) hx (.ended result)
  rw [hxs k] at hcount
  rw [hcalls, hlocked, ← h.count k]
  simpa [Call.isExchanging] using hcount

/-- A new call. -/
theorem Locked.snoc (h : Locked fromSlice parseF64 I s) {y : Call Key} (hy : ∀ k, y.isExchanging k = false)
    (hask : ∀ k a, y = .waiting k a → a ∈ I) (hpanic : ∀ reply, y ≠ .ended (.panicked reply))
    (hcalls : s'.calls = s.calls ++ [y]) (hlocked : s'.locked = s.locked) :
    Locked fromSlice parseF64 I s' := by
  refine h.of_calls (y := y) (fun k => ?_) (fun c hc => ?_) hask (fun k a heq => ?_)
    (fun reply heq => absurd heq (hpanic reply))
  · rw [hcalls, hlocked, List.countP_append, h.count k]
    simp [hy k]
  · rw [hcalls] at hc
    exact (List.mem_append.mp hc).symm.imp_left List.mem_singleton.mp
  · have hyk := hy k
    rw [heq] at hyk
    simp [Call.isExchanging] at hyk

/-- An exchange begins under the mutex. -/
theorem Locked.begin (h : Locked fromSlice parseF64 I s) (hx : s.calls[i]? = some (.waiting key ask))
    (hfree : s.locked key = false) (hcalls : s'.calls = s.calls.set i (.exchanging key ask))
    (hlocked : s'.locked = Function.update s.locked key true) : Locked fromSlice parseF64 I s' := by
  refine h.of_calls (y := .exchanging key ask) (fun k => ?_) (fun c hc => Transition.mem_of_set (hcalls ▸ hc))
    (fun _ _ heq => nomatch heq) (fun k a heq => ?_) (fun _ heq => nomatch heq)
  · have hcount := Transition.countP_set_add (Call.isExchanging k) hx (.exchanging key ask)
    rw [h.count k] at hcount
    rw [hcalls, hlocked]
    by_cases hk : key = k
    · subst hk
      rw [hfree] at hcount
      simpa [Call.isExchanging] using hcount
    · rw [Function.update_of_ne (Ne.symm hk)]
      simpa [Call.isExchanging, hk] using hcount
  · rw [← (Call.exchanging.inj heq).2]
    exact h.waiting key ask (List.mem_of_getElem? hx)

/-- A mutex that is free is free of exchanges. -/
theorem Locked.not_exchanging (h : Locked fromSlice parseF64 I s) (hfree : s.locked key = false) (a : Ask) :
    Call.exchanging key a ∉ s.calls := by
  intro hmem
  have hpos : 0 < s.calls.countP (Call.isExchanging key) :=
    List.countP_pos_iff.mpr ⟨_, hmem, by simp [Call.isExchanging]⟩
  rw [h.count key, hfree] at hpos
  exact absurd hpos (by decide)

theorem Locked.held (h : Locked fromSlice parseF64 I s) (hx : s.calls[i]? = some (.exchanging key ask)) :
    s.locked key = true := by
  by_contra hfree
  exact h.not_exchanging (Bool.eq_false_iff.mpr hfree) ask (List.mem_of_getElem? hx)

/-- An exchange ends and gives the mutex back. -/
theorem Locked.finish (h : Locked fromSlice parseF64 I s) (hx : s.calls[i]? = some (.exchanging key ask))
    {result : Ended} (hpanic : ∀ reply, result = .panicked reply → reply.TooLong fromSlice parseF64)
    (hcalls : s'.calls = s.calls.set i (.ended result))
    (hlocked : s'.locked = Function.update s.locked key false) : Locked fromSlice parseF64 I s' := by
  refine h.of_calls (y := .ended result) (fun k => ?_) (fun c hc => Transition.mem_of_set (hcalls ▸ hc))
    (fun _ _ heq => nomatch heq) (fun _ _ heq => nomatch heq)
    (fun reply heq => hpanic reply (Call.ended.inj heq))
  have hcount := Transition.countP_set_add (Call.isExchanging k) hx (.ended result)
  rw [h.count k] at hcount
  rw [hcalls, hlocked]
  by_cases hk : key = k
  · subst hk
    rw [h.held hx] at hcount
    simpa [Call.isExchanging] using hcount
  · rw [Function.update_of_ne (Ne.symm hk)]
    simpa [Call.isExchanging, hk] using hcount

/-! ## The steps -/

/-- A new call, with or without a slot that is made for it. -/
theorem Kept.snoc (h : Kept sha256 fromSlice parseF64 I s) {y : Call Key} (hy : ∀ k, y.isExchanging k = false)
    (hask : ∀ k a, y = .waiting k a → a ∈ I) (hpanic : ∀ reply, y ≠ .ended (.panicked reply))
    (hslots : SameSlots s s') (hcalls : s'.calls = s.calls ++ [y]) (hlocked : s'.locked = s.locked)
    (hnow : s'.now = s.now) (hremembered : Remembered sha256 I s') : Kept sha256 fromSlice parseF64 I s' := by
  refine ⟨h.locked.snoc hy hask hpanic hcalls hlocked, hremembered, ?_⟩
  refine h.expired.keep (Nat.le_of_eq hnow.symm) fun k a hmem => ⟨?_, fun slot => (hslots k slot).mp⟩
  rw [hcalls] at hmem
  refine (List.mem_append.mp hmem).resolve_right fun heq => ?_
  have hyk := hy k
  rw [← List.mem_singleton.mp heq] at hyk
  simp [Call.isExchanging] at hyk

/-- **AFTER ITS EXCHANGE**, a call leaves the answer for the others. -/
theorem Kept.settle (h : Kept sha256 fromSlice parseF64 I s) (hx : s.calls[i]? = some (.exchanging key ask))
    (reply : Reply) (hI : CollisionFree sha256 I) :
    Kept sha256 fromSlice parseF64 I (settle sha256 fromSlice parseF64 s i key ask reply) := by
  have hask := h.locked.exchanging key ask (List.mem_of_getElem? hx)
  -- The exchanges that go on are those of other keys.
  have hothers : ∀ {result : Ended} {s' : Provider Digest Key}, Locked fromSlice parseF64 I s' →
      s'.calls = s.calls.set i (.ended result) → s'.locked = Function.update s.locked key false →
      ∀ k a, Call.exchanging k a ∈ s'.calls → k ≠ key ∧ Call.exchanging k a ∈ s.calls := by
    intro result s' hlocked hcalls hfree k a hmem
    refine ⟨?_, ?_⟩
    · rintro rfl
      exact hlocked.not_exchanging (by rw [hfree, Function.update_self]) a hmem
    · rw [hcalls] at hmem
      exact (Transition.mem_of_set hmem).resolve_left (fun heq => nomatch heq)
  have hfinish : ∀ result, (∀ reply, result = .panicked reply → reply.TooLong fromSlice parseF64) →
      Kept sha256 fromSlice parseF64 I (finish s i key result) := by
    intro result hpanic
    have hlocked : Locked fromSlice parseF64 I (OAuth.finish s i key result) := h.locked.finish hx hpanic rfl rfl
    refine ⟨hlocked, h.remembered.same (.of_eq rfl) (Nat.le_refl _) rfl, ?_⟩
    exact h.expired.keep (Nat.le_refl _) fun k a hmem =>
      ⟨(hothers hlocked rfl rfl k a hmem).2, fun _ hslot => hslot⟩
  have hslots : ∀ (slot : Slot Digest), ∀ k ≠ key,
      Function.update s.slots key (some (some slot)) k = s.slots k := fun slot k hk => Function.update_of_ne hk _ _
  have hanswered : ∀ (result : Ended) (slot : Slot Digest) (log : List (Event Key)),
      (∀ reply, result ≠ .panicked reply) →
      Remembered sha256 I { OAuth.finish s i key result with
        slots := Function.update s.slots key (some (some slot)), log := log } →
      Kept sha256 fromSlice parseF64 I { OAuth.finish s i key result with
        slots := Function.update s.slots key (some (some slot)), log := log } := by
    intro result slot log hpanic hremembered
    have hlocked : Locked fromSlice parseF64 I { OAuth.finish s i key result with
        slots := Function.update s.slots key (some (some slot)), log := log } :=
      h.locked.finish hx (fun reply heq => absurd heq (hpanic reply)) rfl rfl
    refine ⟨hlocked, hremembered, h.expired.keep (Nat.le_refl _) fun k a hmem => ?_⟩
    obtain ⟨hk, hold⟩ := hothers hlocked rfl rfl k a hmem
    exact ⟨hold, fun x hx => hslots slot k hk ▸ hx⟩
  unfold OAuth.settle
  split
  next token d hanswer =>
    have hlife := exchange_issued hanswer
    have hsource : Source sha256 I key (fingerprint sha256 ask) token (s.now + (d - skew))
        (.issued key ask token (reply.expires fromSlice parseF64) s.now) :=
      ⟨ask, hask, _, _, d, rfl, rfl, fun q hq => reply.expires_nonneg hq, hlife, rfl⟩
    have hmin := (lifetime_le (fun q hq => reply.expires_nonneg hq) hlife).1
    have hgood := hsource.good hI hask (t := s.now) (by simp only [minLifetime, skew, second] at *; omega)
    refine hanswered _ _ _ (by rintro _ ⟨⟩) ?_
    have hissued : Remembered sha256 I { s with
        slots := Function.update s.slots key (some (some (.token (fingerprint sha256 ask) token (s.now + (d - skew)))))
        log := s.log ++ [.issued key ask token (reply.expires fromSlice parseF64) s.now] } :=
      h.remembered.issued h.expired hx hsource (Function.update_self ..) (hslots _) rfl rfl
    exact hissued.note (e := .returned key ask token s.now) (by rintro _ _ _ ⟨_, ⟨⟩, _⟩) (by rintro _ ⟨⟩)
      (History.Since.last hgood) rfl rfl rfl
  next reason _ => exact hfinish _ (by rintro _ ⟨⟩)
  next error _ _ =>
    refine hanswered _ _ _ (by rintro _ ⟨⟩) ?_
    exact h.remembered.failed h.expired hx (Function.update_self ..) (hslots _) rfl rfl
  next hanswer =>
    refine hfinish _ fun reply' heq => ?_
    rw [← Ended.panicked.inj heq]
    exact exchange_panicked hanswer

theorem forget_self : (forget s i key).slots key = some none := Function.update_self ..

theorem forget_other {k : Key} (hk : k ≠ key) : (forget s i key).slots k = s.slots k := Function.update_of_ne hk ..

theorem Kept.forget (h : Kept sha256 fromSlice parseF64 I s) (hx : s.calls[i]? = some (.forgetting key)) :
    Kept sha256 fromSlice parseF64 I (forget s i key) := by
  refine ⟨h.locked.leave hx (fun _ => rfl) (by rintro _ ⟨⟩) rfl rfl, ?_, ?_⟩
  · refine h.remembered.invalidated (fun slot hslot => ?_) (fun k hk => forget_other hk) rfl rfl
    rw [forget_self] at hslot
    exact nomatch hslot
  · refine h.expired.keep (Nat.le_refl _) fun k a hmem => ?_
    refine ⟨(Transition.mem_of_set hmem).resolve_left (fun heq => nomatch heq), fun slot hslot => ?_⟩
    by_cases hk : k = key
    · subst hk
      rw [forget_self] at hslot
      exact nomatch hslot
    · rwa [forget_other hk] at hslot

theorem kept_fresh : Kept sha256 fromSlice parseF64 I (Provider.fresh : Provider Digest Key) where
  locked := ⟨fun _ => rfl, by simp [Provider.fresh], by simp [Provider.fresh], by simp [Provider.fresh]⟩
  remembered := ⟨History.each_nil, by simp [Provider.fresh], fun _ _ _ hsince => absurd hsince History.not_since_nil⟩
  expired := fun _ _ hmem => absurd hmem (by simp [Provider.fresh])

variable [DecidableEq Digest]

/-- **WITH THE MUTEX**, a call returns what is remembered or begins an exchange that nothing holds back. -/
theorem Kept.look (hI : CollisionFree sha256 I) (h : Kept sha256 fromSlice parseF64 I s)
    (hx : s.calls[i]? = some (.waiting key ask)) (hfree : s.locked key = false) :
    Kept sha256 fromSlice parseF64 I (look sha256 s i key ask) := by
  have hask := h.locked.waiting key ask (List.mem_of_getElem? hx)
  have hended : ∀ (result : Ended) k a, Call.exchanging k a ∈ s.calls.set i (.ended result) →
      Call.exchanging k a ∈ s.calls := by
    intro result k a hmem
    exact (Transition.mem_of_set hmem).resolve_left (fun heq => nomatch heq)
  unfold OAuth.look
  split
  next token hlive =>
    obtain ⟨validUntil, hslot, hnow⟩ := liveToken_eq hlive
    have hgood := (h.remembered.cached key _ token validUntil hslot).imp fun e he => he.good hI hask hnow
    refine ⟨h.locked.leave hx (fun _ => rfl) (by rintro _ ⟨⟩) rfl rfl, ?_, ?_⟩
    · exact h.remembered.note (e := .returned key ask token s.now) (by rintro _ _ _ ⟨_, ⟨⟩, _⟩) (by rintro _ ⟨⟩) hgood rfl rfl rfl
    · exact h.expired.keep (Nat.le_refl _) fun k a hmem => ⟨hended _ k a hmem, fun _ hslot => hslot⟩
  next =>
    split
    next error hrecent =>
      refine ⟨h.locked.leave hx (fun _ => rfl) (by rintro _ ⟨⟩) rfl rfl, ?_, ?_⟩
      · exact h.remembered.same (.of_eq rfl) (Nat.le_refl _) rfl
      · exact h.expired.keep (Nat.le_refl _) fun k a hmem => ⟨hended _ k a hmem, fun _ hslot => hslot⟩
    next hnone =>
      -- A failure that is remembered for these inputs is over.
      have hover : ∀ heldUntil error,
          s.slots key = some (some (.failed (fingerprint sha256 ask) heldUntil error)) → heldUntil ≤ s.now := by
        intro heldUntil error hslot
        by_contra hlt
        rw [hslot] at hnone
        simp [Slot.recentFailure, Nat.lt_of_not_le hlt] at hnone
      refine ⟨h.locked.begin hx hfree rfl rfl, ?_, ?_⟩
      · refine h.remembered.note (e := .started key ask s.now) (by rintro _ _ _ ⟨_, ⟨⟩, _⟩) (by rintro _ ⟨⟩) ?_ rfl rfl rfl
        intro t₀ hlt hsince
        rcases h.remembered.held key ask t₀ hsince with ⟨heldUntil, error, hslot, hle⟩ | hle
        · have := hover heldUntil error hslot
          omega
        · omega
      · intro k a hmem heldUntil error hslot
        rcases Transition.mem_of_set hmem with heq | hmem
        · obtain ⟨rfl, rfl⟩ := Call.exchanging.inj heq
          exact hover heldUntil error hslot
        · exact h.expired k a hmem heldUntil error hslot

/-- **EVERY STEP KEEPS IT**, whichever call moves. -/
theorem kept_step (hI : CollisionFree sha256 I) (h : Kept sha256 fromSlice parseF64 I s) {l : Action Key}
    (huse : Uses I s l) (hstep : step sha256 fromSlice parseF64 s l = some s') :
    Kept sha256 fromSlice parseF64 I s' := by
  cases l with
  | pass d =>
      rw [← Option.some.inj hstep]
      refine ⟨⟨h.locked.count, h.locked.waiting, h.locked.exchanging, h.locked.panics⟩, ?_, ?_⟩
      · exact h.remembered.same (.of_eq rfl) (Nat.le_add_right _ _) rfl
      · exact h.expired.keep (Nat.le_add_right _ _) fun k a hmem => ⟨hmem, fun _ hslot => hslot⟩
  | tokenFor key ask =>
      rw [← Option.some.inj hstep]
      have hslots : SameSlots s { s with
          slots := Function.update s.slots key (some (s.slots key).join)
          calls := s.calls ++ [.waiting key ask] } := by
        intro k slot
        by_cases hk : k = key
        · subst hk
          simp [Option.join_eq_some_iff]
        · simp [Function.update_of_ne hk]
      refine h.snoc (fun _ => rfl) (fun k a heq => ?_) (by rintro _ ⟨⟩) hslots rfl rfl rfl
        (h.remembered.same hslots (Nat.le_refl _) rfl)
      rw [← (Call.waiting.inj heq).2]
      exact huse
  | invalidate key =>
      rw [step] at hstep
      split at hstep
      next hnone =>
        rw [← Option.some.inj hstep]
        refine h.snoc (fun _ => rfl) (by rintro _ _ ⟨⟩) (by rintro _ ⟨⟩) (.of_eq rfl) rfl rfl
          rfl (h.remembered.invalidated (fun slot hslot => ?_) (fun _ _ => rfl) rfl rfl)
        rw [hnone] at hslot
        exact nomatch hslot
      next =>
        rw [← Option.some.inj hstep]
        exact h.snoc (fun _ => rfl) (by rintro _ _ ⟨⟩) (by rintro _ ⟨⟩) (.of_eq rfl) rfl rfl
          rfl (h.remembered.same (.of_eq rfl) (Nat.le_refl _) rfl)
  | acquire i =>
      rw [step] at hstep
      split at hstep
      next key ask hx =>
        split at hstep
        next => exact nomatch hstep
        next hfree =>
          rw [← Option.some.inj hstep]
          exact h.look hI hx (Bool.eq_false_iff.mpr hfree)
      next key hx =>
        split at hstep
        next => exact nomatch hstep
        next =>
          rw [← Option.some.inj hstep]
          exact h.forget hx
      next => exact nomatch hstep
  | answer i reply =>
      rw [step] at hstep
      split at hstep
      next key ask hx =>
        rw [← Option.some.inj hstep]
        exact h.settle hx reply hI
      next => exact nomatch hstep

/-- The states of the provider, on inputs without a collision. -/
abbrev Reached (sha256 : List UInt8 → Digest) (fromSlice : List UInt8 → Option Json)
    (parseF64 : String → Option F64) (I : Set Ask) : Provider Digest Key → Prop :=
  Transition.Reach (step sha256 fromSlice parseF64) (Uses I) .fresh

/-- **TOKENS ARE KEPT FAITHFULLY**: a token that is returned was issued for the same inputs, is still good and
    was not invalidated since; no exchange begins while a failure for its inputs is remembered; a key has one
    exchange at a time; a call that waits can move unless such an exchange is running, which every reply ends;
    and no reply makes it panic but one that lasts longer than any `Duration`. -/
theorem tokens_kept (hI : CollisionFree sha256 I) (h : Reached sha256 fromSlice parseF64 I s) :
    History.Each Just s.log ∧
    (∀ key, s.calls.countP (Call.isExchanging key) ≤ 1) ∧
    (∀ i key ask, s.calls[i]? = some (.waiting key ask) →
      (step sha256 fromSlice parseF64 s (.acquire i)).isSome ∨ ∃ (j : Nat) (a : Ask), s.calls[j]? = some (.exchanging key a)) ∧
    (∀ j key ask reply, s.calls[j]? = some (.exchanging key ask) →
      (step sha256 fromSlice parseF64 s (.answer j reply)).isSome) ∧
    ∀ reply, Call.ended (.panicked reply) ∈ s.calls → reply.TooLong fromSlice parseF64 := by
  have hkept : Kept sha256 fromSlice parseF64 I s :=
    h.inv kept_fresh fun s l s' hs hu hstep => kept_step hI hs hu hstep
  refine ⟨hkept.remembered.each, fun key => ?_, fun i key ask hx => ?_, fun j key ask reply hx => ?_,
    hkept.locked.panics⟩
  · rw [hkept.locked.count key]
    split <;> decide
  · cases hlocked : s.locked key with
    | false => exact .inl (by rw [step, hx]; simp [hlocked])
    | true =>
        have hpos : 0 < s.calls.countP (Call.isExchanging key) := by
          rw [hkept.locked.count key, hlocked]
          decide
        obtain ⟨c, hc, hexchanging⟩ := List.countP_pos_iff.mp hpos
        obtain ⟨j, hj⟩ := List.mem_iff_getElem?.mp hc
        cases c with
        | exchanging k a =>
            have hk : k = key := by simpa [Call.isExchanging] using hexchanging
            exact .inr ⟨j, a, hk ▸ hj⟩
        | waiting k a => exact nomatch hexchanging
        | forgetting k => exact nomatch hexchanging
        | ended result => exact nomatch hexchanging
  · rw [step, hx]
    rfl

end Invariant

/-! ## Two runs -/

instance usesAny (s : Provider Digest Key) (l : Action Key) : Decidable (Uses Set.univ s l) :=
  .isTrue (by cases l <;> trivial)

/-- A text of the examples. -/
def Str.ofByte (b : UInt8) : Str := ⟨[b], by simp⟩

def askWith (secret : UInt8) : Ask := ⟨.ofByte 1, none, none, .ofByte 2, .ofByte secret⟩

/-- The body of an answer, with an access token that expires in 100 seconds. -/
def sampleBody : List UInt8 := "\x7b\"access_token\":\"t\",\"expires_in\":100\x7d".toUTF8.toList

/-- The one body that is read. -/
def sampleFromSlice (body : List UInt8) : Option Json :=
  if body = sampleBody then some (.obj [("access_token", .str "t"), ("expires_in", .num "100")]) else none

def sampleParseF64 (text : String) : Option F64 := if text = "100" then some (.finite 100) else none

/-- A token is issued for 100 seconds and returned once more ten seconds later. -/
theorem tokens_kept_twice : ∃ s : Provider (List UInt8) String,
    s.log = [.started "r" (askWith 3) 0, .issued "r" (askWith 3) "t" (some 100) 0,
      .returned "r" (askWith 3) "t" 0, .returned "r" (askWith 3) "t" 10000000000] ∧
    History.Each Just s.log := by
  obtain ⟨s, hreach, hlog⟩ : ∃ s : Provider (List UInt8) String,
      Reached id sampleFromSlice sampleParseF64 Set.univ s ∧
        decide (s.log = [.started "r" (askWith 3) 0, .issued "r" (askWith 3) "t" (some 100) 0,
          .returned "r" (askWith 3) "t" 0, .returned "r" (askWith 3) "t" 10000000000]) = true :=
    Transition.Reach.of_test
      [.tokenFor "r" (askWith 3), .acquire 0, .answer 0 (.response 200 sampleBody), .pass 10000000000,
        .tokenFor "r" (askWith 3), .acquire 1] (by decide +kernel)
  exact ⟨s, of_decide_eq_true hlog, (tokens_kept (fun _ _ _ _ h => h) hreach).1⟩

/-- **OTHER INPUTS LIFT A FAILURE**: after a failure for a second secret, the first one is tried again at once,
    though the route was never invalidated. -/
theorem other_secret_lifts : ∃ s : Provider (List UInt8) String,
    Reached id (fun _ => none) (fun _ => none) Set.univ s ∧ ∃ before,
      s.log = before ++ [.started "r" (askWith 3) 0] ∧
      History.Since (FailedAt "r" (askWith 3) 0) (· = .invalidated "r") before := by
  obtain ⟨s, hreach, hlog⟩ : ∃ s : Provider (List UInt8) String,
      Reached id (fun _ => none) (fun _ => none) Set.univ s ∧
        decide (s.log = [.started "r" (askWith 3) 0, .failed "r" (askWith 3) 0,
          .started "r" (askWith 4) 0, .failed "r" (askWith 4) 0, .started "r" (askWith 3) 0]) = true :=
    Transition.Reach.of_test
      [.tokenFor "r" (askWith 3), .acquire 0, .answer 0 (.transport "timed out"),
        .tokenFor "r" (askWith 4), .acquire 1, .answer 1 (.transport "timed out"),
        .tokenFor "r" (askWith 3), .acquire 2] (by decide +kernel)
  refine ⟨s, hreach, [.started "r" (askWith 3) 0, .failed "r" (askWith 3) 0,
    .started "r" (askWith 4) 0, .failed "r" (askWith 4) 0], of_decide_eq_true hlog, ?_⟩
  exact ⟨[.started "r" (askWith 3) 0], _, _, rfl, ⟨askWith 3, rfl, rfl⟩, by simp⟩

end Greentic.OAuth
