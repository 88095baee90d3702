/-
One `post` of the OTLP emitter: requests with the same body until one of them settles it.

A round is one request with what the loop reads around it: the answer, the clock, the
jitter drawn and whether the wait was cut short.  `postRound` is the body of the loop and
`post` the loop over the rounds there were, of which `postTurns` are the turns taken; it
is `none` where they end before `post` returns.

A body is text.  Lower-casing is exact for what comes out as ASCII, and no phrase
searched for has other letters.
-/
import GenaiBridge.Bridge.Emit
import GenaiBridge.Bridge.LogsSettings
import GenaiBridge.Bridge.Texts
import GenaiBridge.Bridge.UseCases

namespace GenaiBridge

/-! ### Texts -/

/-- `strings.ToLower`. -/
def lowerText (s : String) : String := String.ofList (s.toList.map lowerSlugChar)

/-- The digit of six bits in `base64.StdEncoding`. -/
def base64Char (n : Nat) : Char :=
  "ABCDEFGHIJKLMNOPQRSTUVWXYZabcdefghijklmnopqrstuvwxyz0123456789+/".toList.getD n '='

/-- `base64.StdEncoding.EncodeToString`. -/
def base64Chars : List UInt8 → List Char
  | [] => []
  | [a] => [base64Char (a.toNat / 4), base64Char (a.toNat % 4 * 16), '=', '=']
  | [a, b] =>
    [base64Char (a.toNat / 4), base64Char (a.toNat % 4 * 16 + b.toNat / 16),
      base64Char (b.toNat % 16 * 4), '=']
  | a :: b :: c :: rest =>
    base64Char (a.toNat / 4) :: base64Char (a.toNat % 4 * 16 + b.toNat / 16) ::
      base64Char (b.toNat % 16 * 4 + c.toNat / 64) :: base64Char (c.toNat % 64) ::
      base64Chars rest

/-! ### Reading a response -/

/-- `trunc`: 256 bytes at most, and no part of a character. -/
def truncChars : Nat → List Char → List Char
  | _, [] => []
  | room, c :: l => if c.utf8Size ≤ room then c :: truncChars (room - c.utf8Size) l else []

/-- `trunc`. -/
def trunc (s : String) : String := String.ofList (truncChars 256 s.toList)

/-- What a duplicate is told by. -/
def duplicatePhrases : List String :=
  ["err-mimir-sample-duplicate-timestamp", "duplicate-timestamp", "duplicate sample"]

/-- What a sample or a record out of order, or too old, is told by. -/
def tooOldPhrases : List String :=
  ["err-mimir-sample-out-of-order", "err-mimir-sample-timestamp-too-old",
    "err-mimir-sample-out-of-bounds", "out-of-order", "out of order", "too old", "too-old",
    "too far in past", "entry out of order", "too far behind", "greater than max age", "max_age"]

/-- What a malformed request is told by. -/
def badEncodingPhrases : List String :=
  ["failed to parse", "malformed", "proto:", "invalid request body", "bad request body"]

/-- `has`, the local function of `classify`. -/
def hasAny (low : String) (phrases : List String) : Bool := phrases.any (containsText low)

/-- `classify`. -/
def classify (status : Int) (body : String) : EmitError :=
  if status = 413 then .reject .payloadTooLarge 413 (trunc body)
  else
    let low := lowerText body
    if hasAny low duplicatePhrases then .reject .duplicateTimestamp status (trunc body)
    else if hasAny low tooOldPhrases then .reject .tooOld status (trunc body)
    else if hasAny low badEncodingPhrases then .reject .badEncoding status (trunc body)
    else .reject .unknown status (trunc body)

/-- The credentials of `otlp.Config`. -/
structure Credentials where
  instanceID : String
  token : String
deriving DecidableEq, Repr

/-- `e.auth`, as `New` makes it. -/
def Credentials.auth (c : Credentials) : String :=
  if c.instanceID ≠ "" ∨ c.token ≠ "" then
    "Basic " ++ String.ofList
      (base64Chars ((c.instanceID ++ ":" ++ c.token).toList.flatMap String.utf8EncodeChar))
  else ""

/-- The texts `redactSecrets` takes out. -/
def Credentials.secrets (c : Credentials) : List String :=
  [String.ofList (c.auth.toList.drop 6), c.token, c.instanceID ++ ":" ++ c.token]

/-- `redactSecrets`. -/
def Credentials.redactSecrets (c : Credentials) (s : String) : String :=
  if s = "" then s
  else c.secrets.foldl
    (fun s secret => if 1 < secret.utf8ByteSize then replaceAll s secret "[REDACTED]" else s) s

/-- `parseRetryAfter`: the wait a header asks for, from a time on.  `http.ParseTime` is asked only about
a header that is no number. -/
def parseRetryAfter (parseTime : String → Option Int) (v : String) (now : Int) : Int :=
  let v := trimSpace v
  if v = "" then 0
  else
    match atoi v with
    -- the product is one of two `int64`
    | some secs => if secs ≤ 0 then 0 else wrap64 (secs * second)
    | none =>
      match parseTime v with
      | some t => if 0 < Time.sub t now then Time.sub t now else 0
      | none => 0

/-! ### The loop -/

/-- What `doOnce` returns. -/
inductive Answer
  | failed (err : String)
  | response (status : Int) (body : String) (retryAfter : Int)
deriving DecidableEq, Repr

/-- `otlp.RetryPolicy`; `grow` is the multiplication of a delay, in floating point. -/
structure RetryPolicy where
  initialDelay : Int
  maxDelay : Int
  maxElapsed : Int
  grow : Int → Int

/-- One turn of the loop in `post`, as its surroundings make it. -/
structure Round where
  answer : Answer
  now : Int
  /-- `jittered`, with what it drew. -/
  jittered : Int → Int
  /-- The error of a wait that was cut short. -/
  cancelled : Option String

/-- How a turn ends: `post` returns, or it waits and goes on with another delay. -/
inductive RoundEnd
  | returned (err : Option EmitError)
  | again (slept delay : Int)
deriving DecidableEq

/-- `isRetryable`. -/
def isRetryable : Answer → Bool
  | .failed _ => true
  | .response status _ _ => status == 429 || status == 502 || status == 503 || status == 504

/-- The status of an answer, zero if there was no response. -/
def Answer.status : Answer → Int
  | .failed _ => 0
  | .response status _ _ => status

/-- The second half of a turn: wait, unless the time for retries is over. -/
def backOff (policy : RetryPolicy) (deadline delay : Int) (round : Round) : RoundEnd :=
  let status := round.answer.status
  let lastErr := match round.answer with
    | .failed err => err
    | .response _ _ _ => "<nil>"
  if deadline < round.now then
    .returned (some (.retryable status ("retry budget exhausted: " ++ lastErr)))
  else
    let retryAfter := match round.answer with
      | .failed _ => 0
      | .response _ _ retryAfter => if status = 429 then retryAfter else 0
    let remaining := Time.sub deadline round.now
    if 0 < retryAfter ∧ remaining < retryAfter then
      .returned (some (.retryable status ("429 Retry-After " ++ durationText retryAfter ++
        " exceeds remaining retry budget " ++ durationText remaining)))
    else
      let slept := if 0 < retryAfter then max (round.jittered delay) retryAfter
        else round.jittered delay
      match round.cancelled with
      | some err => .returned (some (.retryable status err))
      | none => .again slept (min (policy.grow delay) policy.maxDelay)

/-- The body of the loop in `post`. -/
def postRound (c : Credentials) (policy : RetryPolicy) (deadline delay : Int) (round : Round) :
    RoundEnd :=
  match round.answer with
  | .failed _ => backOff policy deadline delay round
  | .response status body _ =>
    if 200 ≤ status ∧ status < 300 then .returned none
    else if 400 ≤ status ∧ status < 500 ∧ status ≠ 429 then
      .returned (some (classify status (c.redactSecrets body)))
    else if isRetryable round.answer then backOff policy deadline delay round
    else .returned (some (.retryable status ("non-retryable-inline status " ++ toString status)))

/-- The loop in `post`: each request with what came of it.  A turn that returns is the last one, and
one that goes on is followed by the next request. -/
def postTurns (c : Credentials) (policy : RetryPolicy) (deadline : Int) :
    Int → List Round → List (Round × RoundEnd)
  | _, [] => []
  | delay, round :: rest =>
    match postRound c policy deadline delay round with
    | .returned err => [(round, .returned err)]
    | .again slept delay => (round, .again slept delay) :: postTurns c policy deadline delay rest

/-- What a turn has `post` return. -/
def RoundEnd.result : RoundEnd → Option (Option EmitError)
  | .returned err => some err
  | .again _ _ => none

/-- What the loop returns: what its last turn does. -/
def postLoop (c : Credentials) (policy : RetryPolicy) (deadline delay : Int) (rounds : List Round) :
    Option (Option EmitError) :=
  (postTurns c policy deadline delay rounds).getLast?.bind fun turn => turn.2.result

/-- `post`, from a time on. -/
def post (c : Credentials) (policy : RetryPolicy) (start : Int) (rounds : List Round) :
    Option (Option EmitError) :=
  postLoop c policy (start + policy.maxElapsed) policy.initialDelay rounds

end GenaiBridge
