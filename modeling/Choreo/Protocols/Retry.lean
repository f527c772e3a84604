import Choreo.Tools.Series

/-!
# The retry loop of the provider adapters

The adapters send every request through `retry_loop` (`choreo-ai-protocols/src/retry.rs`). It sends
the request, and after a transport error or a transient status it waits and sends it again, as long
as attempts remain and no cancel is queued on the channel of the request.

What the loop meets is a `World`: what each send comes to, the jitter of each backoff, the clocks,
and when the holder of the cancel channel uses it or lets it go. Between the check for a cancel and
the send there is a place where a cancel comes too late to stop the send. A deadline that the clock
cannot hold ends the call in a panic, before the check.
-/

namespace Choreo.Retry

open List Option

/-! ### Settings and errors -/

/-- The longest wait before a retry, in milliseconds. -/
def maxBackoffMs : ℕ := 3600000

/-- The largest value of a counter of 64 bits. -/
def u64Max : ℕ := 2 ^ 64 - 1

/-- The largest number of seconds that an instant holds. -/
def instantMax : ℕ := 2 ^ 63 - 1

/-- The deadline of an attempt, in seconds of the clock. No seconds disable it. -/
structure AttemptDeadline where
  totalTimeoutSecs : ℕ
  current : Option ℕ := none

/-- Arms the deadline for an attempt. The sum of an instant and a duration panics when it
overflows. -/
def AttemptDeadline.reset (deadline : AttemptDeadline) (now : ℕ) : Option AttemptDeadline :=
  if deadline.totalTimeoutSecs = 0 then some { deadline with current := none }
  else if now + deadline.totalTimeoutSecs ≤ instantMax then
    some { deadline with current := some (now + deadline.totalTimeoutSecs) }
  else none

/-- Arms the deadline of a call, if it has one. -/
def rearm (deadline : Option AttemptDeadline) (now : ℕ) : Option (Option AttemptDeadline) :=
  match deadline with
  | none => some none
  | some deadline => (deadline.reset now).map some

/-- The settings of the loop. -/
structure RetryConfig where
  maxAttempts : ℕ
  initialBackoffMs : ℕ
  maxBackoffMs : ℕ

/-- The settings with the backoffs brought within bounds. -/
def RetryConfig.new (maxAttempts initialBackoffMs maxBackoffMs : ℕ) : RetryConfig where
  maxAttempts := maxAttempts
  initialBackoffMs := min initialBackoffMs Retry.maxBackoffMs
  maxBackoffMs := max (min maxBackoffMs Retry.maxBackoffMs)
    (min initialBackoffMs Retry.maxBackoffMs)

/-- An error of the retry layer. -/
inductive ProviderHttpError
  | unauthorized (status : ℕ) (detail : String)
  | rateLimited (status : ℕ) (retryAfterSecs : Option ℕ) (detail : String)
  | serverError (status : ℕ) (detail : String)
  | clientError (status : ℕ) (detail : String)
  | emptyResponse
  | cancelled
  | io (detail : String)

/-- An answer of the provider, as far as the loop reads it. -/
structure Response where
  status : ℕ
  retryAfter : Option String
  body : String

/-- What one send comes to: a transport error, or an answer of any status. -/
inductive SendOutcome
  | transport (err : String)
  | response (response : Response)

/-! ### The decision -/

/-- The wait before a retry, in milliseconds, before it is capped. -/
def backoffDuration (jitter : ℕ → ℕ) (retryNumber : ℕ) (config : RetryConfig) : ℕ :=
  let multiplier := min (2 ^ (retryNumber - 1)) u64Max
  let base := min (config.initialBackoffMs * multiplier) u64Max
  jitter (min base config.maxBackoffMs)

/-- The statuses that may be transient. -/
def isRetryableStatus (status : ℕ) : Bool := status ∈ [429, 500, 502, 503, 504]

/-- The wait after a transient status, if the request is to be sent again. -/
def retryDecision (jitter : ℕ → ℕ) (status : ℕ) (retryAfterSecs : Option ℕ) (attempt : ℕ)
    (config : RetryConfig) : Option ℕ :=
  if status = 429 ∨ status = 503 then
    match retryAfterSecs with
    | none => some (backoffDuration jitter attempt config)
    | some secs =>
      if secs * 1000 ≤ min config.maxBackoffMs maxBackoffMs then some (secs * 1000) else none
  else some (backoffDuration jitter attempt config)

/-- The seconds that a `Retry-After` header asks for: a number, or the time until a date. -/
def parseRetryAfterSecs (untilDate : String → Option ℤ) : Option String → Option ℕ
  | none => none
  | some value =>
    let value := trim value
    if value = "" then none
    else (parseUsize value.toList).or ((untilDate value).map Int.toNat)

def extractErrorMessage (serde : SerdeJson Json) (body : String) : Option String :=
  (serde.fromStr body).bind fun value =>
    let message := match value.get "error" with
      | some (.object fields) => Json.getStr "message" (.object fields)
      | some (.string text) => some text
      | _ => none
    ((message.or (value.getStr "message")).map trim).filter (· ≠ "")

/-- The detail of the error that an answer becomes. -/
def errorDetail (serde : SerdeJson Json) (status : ℕ) (body : String) : String :=
  let trimmed := trim body
  if trimmed = "" then s!"request failed with status {status}"
  else (extractErrorMessage serde trimmed).getD
    (s!"request failed with status {status}: " ++ trimmed)

/-- The error that an answer becomes. -/
def statusToError (status : ℕ) (detail : String) (retryAfterSecs : Option ℕ) : ProviderHttpError :=
  if status = 401 ∨ status = 403 then .unauthorized status detail
  else if status = 429 then .rateLimited status retryAfterSecs detail
  else if 500 ≤ status ∧ status < 600 then .serverError status detail
  else if 400 ≤ status ∧ status < 500 then .clientError status detail
  else .io detail

/-! ### The world of a call -/

/-- Where in a call something may happen to the cancel channel: before it, between the check of an
attempt and its send, during the send, while the callback runs, and during a wait. What happens
between the end of a wait and the check of the next attempt belongs to the wait. -/
inductive Point
  | call
  | checked (attempt : ℕ)
  | send (attempt : ℕ)
  | callback (attempt : ℕ)
  | wait (attempt : ℕ)

/-- What the holder of the cancel sender does at a point: it queues cancels, and it may drop the
sender then. -/
structure Arrival where
  cancels : ℕ := 0
  hangsUp : Bool := false

/-- Everything a call meets. The clock is read at the beginning of each attempt. -/
structure World where
  clock : ℕ → ℕ
  send : ℕ → SendOutcome
  jitter : ℕ → ℕ → ℕ
  untilDate : ℕ → String → Option ℤ
  serde : SerdeJson Json
  arrivals : Point → Arrival
  timerWins : ℕ → Bool

/-- The receiving end of the cancel channel. -/
structure Channel where
  queued : ℕ
  connected : Bool

/-- The events of a run, in order. An attempt is begun when its check has found no cancel. -/
inductive Event
  | cancelQueued
  | begun (attempt : ℕ) (deadline : Option AttemptDeadline)
  | sent (attempt : ℕ)
  | callback (attempt maxAttempts delay : ℕ)
  | waited (attempt delay : ℕ)

/-- What a call returns. -/
abbrev Answer := Except ProviderHttpError Response

variable (rx : Option Channel) (arrival : Arrival)

def arrivalEvents : List Event :=
  match rx with
  | some channel => if channel.connected then List.replicate arrival.cancels .cancelQueued else []
  | none => []

/-- The channel after what happens at a point. -/
def arrive : Option Channel :=
  rx.map fun channel =>
    if channel.connected then ⟨channel.queued + arrival.cancels, !arrival.hangsUp⟩ else channel

def cancellationPending : Bool := rx.any fun channel => 0 < channel.queued

/-! ### Waiting -/

/-- The wait proper. A cancel that is queued when the wait begins is taken before the timer, and one
that arrives later is taken unless the timer fires first. -/
def sleepOrCancel (timerWins : Bool) (arrival : Arrival) (rx : Option Channel) :
    List Event × Except ProviderHttpError (Option Channel) :=
  if cancellationPending rx then ([], .error .cancelled)
  else if !timerWins && cancellationPending (arrive rx arrival) then
    (arrivalEvents rx arrival, .error .cancelled)
  else (arrivalEvents rx arrival, .ok (arrive rx arrival))

variable (world : World)

def waitBeforeRetry (config : RetryConfig) (onRetry : Bool) (attempt delay : ℕ)
    (rx : Option Channel) : List Event × Except ProviderHttpError (Option Channel) :=
  let delay := min delay maxBackoffMs
  let called := if onRetry then [.callback attempt config.maxAttempts delay] else []
  let arrival := world.arrivals (.callback attempt)
  let slept := sleepOrCancel (world.timerWins attempt) (world.arrivals (.wait attempt))
    (arrive rx arrival)
  (called ++ arrivalEvents rx arrival ++ .waited attempt delay :: slept.1, slept.2)

/-! ### The loop -/

/-- Whether one send ends the call, or is to be repeated after a wait. -/
inductive Verdict
  | retry (delay : ℕ)
  | done (answer : Answer)

/-- What the loop makes of one send. -/
def verdict (config : RetryConfig) (attempt : ℕ) : SendOutcome → Verdict
  | .transport err =>
    if attempt < config.maxAttempts then
      .retry (backoffDuration (world.jitter attempt) attempt config)
    else .done (.error (.io err))
  | .response response =>
    if 200 ≤ response.status ∧ response.status < 300 then .done (.ok response)
    else
      let retryAfterSecs := parseRetryAfterSecs (world.untilDate attempt) response.retryAfter
      let declined := Verdict.done (.error (statusToError response.status
        (errorDetail world.serde response.status response.body) retryAfterSecs))
      if isRetryableStatus response.status ∧ attempt < config.maxAttempts then
        match retryDecision (world.jitter attempt) response.status retryAfterSecs attempt
          config with
        | some delay => .retry delay
        | none => declined
      else declined

/-- One attempt: the deadline, the check for a cancel, the send, and the wait if the request is to be
sent again. An attempt that ends the call does so with its answer, or with a panic. A deadline is
armed without regard to what it was before. -/
def attemptOnce (config : RetryConfig) (onRetry : Bool) (deadline : Option AttemptDeadline)
    (attempt : ℕ) (rx : Option Channel) : List Event × (Option Answer ⊕ Option Channel) :=
  match rearm deadline (world.clock attempt) with
  | none => ([], .inl none)
  | some armed =>
    if cancellationPending rx then ([], .inl (some (.error .cancelled)))
    else
      let late := world.arrivals (.checked attempt)
      let arrival := world.arrivals (.send attempt)
      let sent := .begun attempt armed :: arrivalEvents rx late ++
        .sent attempt :: arrivalEvents (arrive rx late) arrival
      match verdict world config attempt (world.send attempt) with
      | .done answer => (sent, .inl (some answer))
      | .retry delay =>
        let waited := waitBeforeRetry world config onRetry attempt delay
          (arrive (arrive rx late) arrival)
        match waited.2 with
        | .error err => (sent ++ waited.1, .inl (some (.error err)))
        | .ok rx => (sent ++ waited.1, .inr rx)

/-- The sends after which the request is to be sent again: attempts remain, and the send failed in
transport or was answered with a transient status, without asking for a longer wait than allowed. -/
def Retries (config : RetryConfig) (attempt : ℕ) : Prop :=
  attempt < config.maxAttempts ∧
    match world.send attempt with
    | .transport _ => True
    | .response response =>
      response.status ∈ [429, 500, 502, 503, 504] ∧
        ¬ (response.status ∈ [429, 503] ∧ ∃ secs,
          parseRetryAfterSecs (world.untilDate attempt) response.retryAfter = some secs ∧
            min config.maxBackoffMs maxBackoffMs < secs * 1000)

/-- The loop asks for another attempt exactly after those sends. -/
theorem verdict_eq_retry_iff (config : RetryConfig) (attempt : ℕ) :
    (∃ delay, verdict world config attempt (world.send attempt) = .retry delay) ↔
      Retries world config attempt := by
  rw [Retries]
  rcases world.send attempt with err | response
  · rw [verdict]
    by_cases hleft : attempt < config.maxAttempts <;> simp [hleft]
  · rw [verdict]
    by_cases hok : 200 ≤ response.status ∧ response.status < 300
    · have hstatus : response.status ∉ [429, 500, 502, 503, 504] := by
        simp only [mem_cons, not_mem_nil, or_false]
        omega
      simp [hok, hstatus]
    · rw [if_neg hok]
      dsimp only
      by_cases hretry : isRetryableStatus response.status = true ∧ attempt < config.maxAttempts
      · have hmem : response.status ∈ [429, 500, 502, 503, 504] := by
          simpa [isRetryableStatus] using hretry.1
        rw [if_pos hretry]
        simp only [retryDecision]
        rcases hsecs : parseRetryAfterSecs (world.untilDate attempt) response.retryAfter with
          - | secs
        · by_cases hcool : response.status = 429 ∨ response.status = 503 <;>
            simp [hcool, hretry.2, hmem]
        · by_cases hcool : response.status = 429 ∨ response.status = 503
          · have hcool' : response.status ∈ [429, 503] := by simpa using hcool
            by_cases hfits : secs * 1000 ≤ min config.maxBackoffMs maxBackoffMs
            · simp only [if_pos hcool, if_pos hfits]
              simpa [hcool', hretry.2, hmem] using hfits
            · simp only [if_pos hcool, if_neg hfits]
              simpa [hcool', hretry.2, hmem] using hfits
          · have hcool' : response.status ∉ [429, 503] := by simpa using hcool
            simp [hcool, hcool', hretry.2, hmem]
      · have hmem : ¬ (attempt < config.maxAttempts ∧
            response.status ∈ [429, 500, 502, 503, 504]) := fun h =>
          hretry ⟨by simpa [isRetryableStatus] using h.2, h.1⟩
        rw [if_neg hretry]
        exact ⟨(by rintro ⟨_, h⟩; cases h), fun h => absurd ⟨h.1, h.2.1⟩ hmem⟩

theorem lt_maxAttempts_of_attemptOnce {world : World} {config : RetryConfig} {onRetry : Bool}
    {deadline : Option AttemptDeadline} {attempt : ℕ} {rx rx' : Option Channel}
    {events : List Event}
    (h : attemptOnce world config onRetry deadline attempt rx = (events, .inr rx')) :
    attempt < config.maxAttempts := by
  rw [attemptOnce] at h
  rcases harmed : rearm deadline (world.clock attempt) with - | armed
  · simp [harmed] at h
  · simp only [harmed] at h
    by_cases hpending : cancellationPending rx = true
    · simp [hpending] at h
    · rw [if_neg hpending] at h
      rcases hverdict : verdict world config attempt (world.send attempt) with delay | answer
      · exact ((verdict_eq_retry_iff world config attempt).1 ⟨delay, hverdict⟩).1
      · simp [hverdict] at h

def retryLoop (world : World) (config : RetryConfig) (onRetry : Bool)
    (deadline : Option AttemptDeadline) (attempt : ℕ) (rx : Option Channel) :
    List Event × Option Answer :=
  match _h : attemptOnce world config onRetry deadline (attempt + 1) rx with
  | (events, .inl ending) => (events, ending)
  | (events, .inr rx') =>
    let rest := retryLoop world config onRetry deadline (attempt + 1) rx'
    (events ++ rest.1, rest.2)
termination_by config.maxAttempts - attempt
decreasing_by
  have hleft := lt_maxAttempts_of_attemptOnce ‹_›
  omega

/-- A whole call, with or without a cancel channel, which is new when the call is prepared. -/
def retryCall (world : World) (config : RetryConfig) (onRetry cancellable : Bool)
    (deadline : Option AttemptDeadline) : List Event × Option Answer :=
  let rx := if cancellable then some ⟨0, true⟩ else none
  let run := retryLoop world config onRetry deadline 0 (arrive rx (world.arrivals .call))
  (arrivalEvents rx (world.arrivals .call) ++ run.1, run.2)

/-- The clock holds the deadline of every attempt that there may be. -/
def Representable (world : World) (config : RetryConfig) (deadline : Option AttemptDeadline) :
    Prop :=
  ∀ attempt ≤ max 1 config.maxAttempts, ∀ d ∈ deadline,
    0 < d.totalTimeoutSecs → world.clock attempt + d.totalTimeoutSecs ≤ instantMax

theorem exists_rearm_eq {world : World} {config : RetryConfig}
    {deadline : Option AttemptDeadline} (h : Representable world config deadline) {attempt : ℕ}
    (hattempt : attempt ≤ max 1 config.maxAttempts) :
    ∃ armed, rearm deadline (world.clock attempt) = some armed := by
  rcases deadline with - | d
  · exact ⟨none, rfl⟩
  · rw [rearm, AttemptDeadline.reset]
    rcases Nat.eq_zero_or_pos d.totalTimeoutSecs with hzero | hpos
    · exact ⟨_, by rw [if_pos hzero]; rfl⟩
    · exact ⟨_, by rw [if_neg hpos.ne', if_pos (h attempt hattempt d rfl hpos)]; rfl⟩

/-! ### One attempt -/

/-- The events of an attempt up to the end of its send, with the cancels that are queued
meanwhile. -/
def sentEvents (armed : Option AttemptDeadline) (attempt a b : ℕ) : List Event :=
  .begun attempt armed :: List.replicate a Event.cancelQueued ++
    .sent attempt :: List.replicate b Event.cancelQueued

def retryEvents (config : RetryConfig) (onRetry : Bool) (armed : Option AttemptDeadline)
    (attempt delay : ℕ) (a b c d : ℕ) : List Event :=
  sentEvents armed attempt a b ++
    (if onRetry then [Event.callback attempt config.maxAttempts delay] else []) ++
    List.replicate c Event.cancelQueued ++
      .waited attempt delay :: List.replicate d Event.cancelQueued

theorem arrivalEvents_eq :
    ∃ cancels, arrivalEvents rx arrival = List.replicate cancels .cancelQueued ∧
      (cancellationPending (arrive rx arrival) = true ↔
        cancellationPending rx = true ∨ 0 < cancels) := by
  rcases rx with - | channel
  · exact ⟨0, by simp [arrivalEvents], by simp [arrive, cancellationPending]⟩
  · by_cases hconn : channel.connected = true
    · refine ⟨arrival.cancels, by simp [arrivalEvents, hconn], ?_⟩
      simp only [cancellationPending, arrive, map_some, if_pos hconn, any_some,
        decide_eq_true_eq]
      omega
    · exact ⟨0, by simp [arrivalEvents, hconn], by simp [arrive, hconn]⟩

/-- What a wait does: it is cancelled, with a cancel to take when it begins or queued meanwhile, or
it ends and leaves every cancel on the channel. -/
theorem sleepOrCancel_cases (timerWins : Bool) (arrival : Arrival) (rx : Option Channel) :
    ∃ cancels, (sleepOrCancel timerWins arrival rx).1 = List.replicate cancels .cancelQueued ∧
      ((sleepOrCancel timerWins arrival rx).2 = .error .cancelled ∧
          (cancellationPending rx = true ∨ 0 < cancels) ∨
        ∃ rx', (sleepOrCancel timerWins arrival rx).2 = .ok rx' ∧
          cancellationPending rx = false ∧ (cancellationPending rx' = true ↔ 0 < cancels)) := by
  obtain ⟨cancels, hevents, hpending⟩ := arrivalEvents_eq rx arrival
  rw [sleepOrCancel]
  by_cases hbefore : cancellationPending rx = true
  · exact ⟨0, by rw [if_pos hbefore]; rfl, .inl ⟨by rw [if_pos hbefore], .inl hbefore⟩⟩
  · rw [if_neg hbefore]
    have hbefore' : cancellationPending rx = false := by simpa using hbefore
    by_cases hafter : (!timerWins && cancellationPending (arrive rx arrival)) = true
    · rw [if_pos hafter]
      rw [Bool.and_eq_true] at hafter
      exact ⟨cancels, hevents, .inl ⟨rfl, hpending.1 hafter.2⟩⟩
    · rw [if_neg hafter]
      exact ⟨cancels, hevents, .inr ⟨_, rfl, hbefore', hpending.trans (by simp [hbefore'])⟩⟩

/-- What an attempt does whose deadline can be armed: it is cancelled before it begins; or its send
ends the call; or its send is followed by a wait, which is cancelled, or ends and leaves every cancel
on the channel. -/
theorem attemptOnce_cases (config : RetryConfig) (onRetry : Bool)
    {deadline armed : Option AttemptDeadline} {attempt : ℕ}
    (harmed : rearm deadline (world.clock attempt) = some armed) (rx : Option Channel) :
    (cancellationPending rx = true ∧
        attemptOnce world config onRetry deadline attempt rx =
          ([], .inl (some (.error .cancelled)))) ∨
      cancellationPending rx = false ∧
        ((∃ answer a b, verdict world config attempt (world.send attempt) = .done answer ∧
            attemptOnce world config onRetry deadline attempt rx =
              (sentEvents armed attempt a b, .inl (some answer))) ∨
          ∃ delay a b c d, Retries world config attempt ∧ delay ≤ maxBackoffMs ∧
            ((attemptOnce world config onRetry deadline attempt rx =
                (retryEvents config onRetry armed attempt delay a b c d,
                  .inl (some (.error .cancelled))) ∧ 0 < a + b + c + d) ∨
              ∃ rx', attemptOnce world config onRetry deadline attempt rx =
                  (retryEvents config onRetry armed attempt delay a b c d, .inr rx') ∧
                (cancellationPending rx' = true ↔ 0 < a + b + c + d))) := by
  rw [attemptOnce]
  simp only [harmed]
  by_cases hpending : cancellationPending rx = true
  · exact .inl ⟨hpending, if_pos hpending⟩
  · rw [if_neg hpending]
    refine .inr ⟨by simpa using hpending, ?_⟩
    obtain ⟨a, hlate, ha⟩ := arrivalEvents_eq rx (world.arrivals (.checked attempt))
    generalize arrive rx (world.arrivals (.checked attempt)) = rx₁ at ha ⊢
    obtain ⟨b, hsent, hb⟩ := arrivalEvents_eq rx₁ (world.arrivals (.send attempt))
    generalize arrive rx₁ (world.arrivals (.send attempt)) = rx₂ at hb ⊢
    rcases hverdict : verdict world config attempt (world.send attempt) with delay | answer
    · have hretries := (verdict_eq_retry_iff world config attempt).1 ⟨delay, hverdict⟩
      obtain ⟨c, hcalled, hc⟩ := arrivalEvents_eq rx₂ (world.arrivals (.callback attempt))
      obtain ⟨d, hslept, hd⟩ := sleepOrCancel_cases (world.timerWins attempt)
        (world.arrivals (.wait attempt)) (arrive rx₂ (world.arrivals (.callback attempt)))
      refine .inr ⟨min delay maxBackoffMs, a, b, c, d, hretries, min_le_right _ _, ?_⟩
      simp only [waitBeforeRetry, hlate, hsent, hcalled, hslept]
      rcases hd with ⟨herr, hmore⟩ | ⟨rx', hok, hnone, hrx'⟩
      · left
        rw [herr]
        refine ⟨by simp [retryEvents, sentEvents], ?_⟩
        rw [hc, hb, ha] at hmore
        rcases hmore with (((hbefore | _) | _) | _) | _
        · exact absurd hbefore hpending
        all_goals omega
      · right
        rw [hok]
        refine ⟨rx', by simp [retryEvents, sentEvents], hrx'.trans ?_⟩
        have hzero : ((¬ cancellationPending rx = true ∧ ¬ 0 < a) ∧ ¬ 0 < b) ∧ ¬ 0 < c := by
          rw [← not_or, ← ha, ← not_or, ← hb, ← not_or, ← hc, hnone]
          simp
        omega
    · exact .inl ⟨answer, a, b, rfl, by rw [hlate, hsent, sentEvents]⟩

/-! ### Runs -/

/-- What the loop may do after some attempts, with or without a cancel to take. -/
inductive RunsTo (world : World) (config : RetryConfig) (onRetry : Bool) :
    ℕ → Bool → List Event → Answer → Prop
  | cancelled (attempt : ℕ) : RunsTo world config onRetry attempt true [] (.error .cancelled)
  | done {attempt a b : ℕ} {answer : Answer} {armed : Option AttemptDeadline}
      (hverdict : verdict world config (attempt + 1) (world.send (attempt + 1)) = .done answer) :
      RunsTo world config onRetry attempt false (sentEvents armed (attempt + 1) a b) answer
  | stopped {attempt delay a b c d : ℕ} {armed : Option AttemptDeadline}
      (hretries : Retries world config (attempt + 1)) (hdelay : delay ≤ maxBackoffMs)
      (hqueued : 0 < a + b + c + d) :
      RunsTo world config onRetry attempt false
        (retryEvents config onRetry armed (attempt + 1) delay a b c d) (.error .cancelled)
  | again {attempt delay a b c d : ℕ} {armed : Option AttemptDeadline} {events : List Event}
      {answer : Answer} (hretries : Retries world config (attempt + 1))
      (hdelay : delay ≤ maxBackoffMs)
      (hrest : RunsTo world config onRetry (attempt + 1) (decide (0 < a + b + c + d)) events
        answer) :
      RunsTo world config onRetry attempt false
        (retryEvents config onRetry armed (attempt + 1) delay a b c d ++ events) answer

/-- The loop runs so, if its deadlines can be armed, and it returns. -/
theorem retryLoop_runsTo {world : World} {config : RetryConfig} (onRetry : Bool)
    {deadline : Option AttemptDeadline} (hdeadline : Representable world config deadline)
    {attempt : ℕ} (hattempt : attempt + 1 ≤ max 1 config.maxAttempts) (rx : Option Channel) :
    ∃ answer, (retryLoop world config onRetry deadline attempt rx).2 = some answer ∧
      RunsTo world config onRetry attempt (cancellationPending rx)
        (retryLoop world config onRetry deadline attempt rx).1 answer := by
  induction attempt, rx using retryLoop.induct world config onRetry deadline with
  | case1 attempt rx events ending hstep =>
    obtain ⟨armed, harmed⟩ := exists_rearm_eq hdeadline hattempt
    rw [retryLoop, hstep]
    rcases attemptOnce_cases world config onRetry harmed rx with
      ⟨hpending, heq⟩ | ⟨hpending, ⟨answer', a, b, hverdict, heq⟩ |
        ⟨delay, a, b, c, d, hretries, hdelay, ⟨heq, hqueued⟩ | ⟨rx', heq, -⟩⟩⟩
    all_goals
      rw [heq, Prod.mk.injEq] at hstep
      obtain ⟨rfl, hending⟩ := hstep
      rw [hpending]
      cases hending
    · exact ⟨_, rfl, .cancelled attempt⟩
    · exact ⟨_, rfl, .done hverdict⟩
    · exact ⟨_, rfl, .stopped hretries hdelay hqueued⟩
  | case2 attempt rx events rx' hstep ih =>
    obtain ⟨armed, harmed⟩ := exists_rearm_eq hdeadline hattempt
    have hleft := lt_maxAttempts_of_attemptOnce hstep
    obtain ⟨answer, hanswer, hrest⟩ := ih (by omega)
    rw [retryLoop, hstep]
    rcases attemptOnce_cases world config onRetry harmed rx with
      ⟨-, heq⟩ | ⟨hpending, ⟨answer', a, b, -, heq⟩ |
        ⟨delay, a, b, c, d, hretries, hdelay, ⟨heq, -⟩ | ⟨rx'', heq, hrx⟩⟩⟩
    all_goals
      rw [heq, Prod.mk.injEq] at hstep
      obtain ⟨rfl, hchannel⟩ := hstep
      cases hchannel
    rw [hpending]
    refine ⟨answer, hanswer, .again hretries hdelay ?_⟩
    rwa [show decide (0 < a + b + c + d) = cancellationPending rx' by
      rw [← Bool.decide_coe (cancellationPending rx'), decide_eq_decide, hrx]]

variable (events : List Event)

/-- The attempts that were begun, in order. -/
def begins : List ℕ :=
  events.filterMap fun
    | .begun attempt _ => some attempt
    | _ => none

/-- The attempts that were sent, in order. -/
def sends : List ℕ :=
  events.filterMap fun
    | .sent attempt => some attempt
    | _ => none

/-- The waits, in order: the attempt before each and its length. -/
def waits : List (ℕ × ℕ) :=
  events.filterMap fun
    | .waited attempt delay => some (attempt, delay)
    | _ => none

def pauses : List Event :=
  events.filter fun
    | .callback .. => true
    | .waited .. => true
    | _ => false

variable (events more : List Event)

/-! ### What the events of an attempt contain -/

theorem begins_append :
    begins (events ++ more) = begins events ++ begins more :=
  filterMap_append ..

theorem sends_append :
    sends (events ++ more) = sends events ++ sends more :=
  filterMap_append ..

theorem waits_append :
    waits (events ++ more) = waits events ++ waits more :=
  filterMap_append ..

theorem pauses_append :
    pauses (events ++ more) = pauses events ++ pauses more :=
  filter_append ..

theorem begins_replicate (n : ℕ) : begins (List.replicate n .cancelQueued) = [] := by
  simp [begins]

theorem sends_replicate (n : ℕ) : sends (List.replicate n .cancelQueued) = [] := by
  simp [sends]

theorem waits_replicate (n : ℕ) : waits (List.replicate n .cancelQueued) = [] := by
  simp [waits]

theorem pauses_replicate (n : ℕ) : pauses (List.replicate n .cancelQueued) = [] := by
  simp [pauses]

section Attempt

variable (config : RetryConfig) (onRetry : Bool) (armed : Option AttemptDeadline)
  (attempt delay a b c d : ℕ)

theorem begins_sentEvents : begins (sentEvents armed attempt a b) = [attempt] := by
  simp [sentEvents, begins]

theorem sends_sentEvents : sends (sentEvents armed attempt a b) = [attempt] := by
  simp [sentEvents, sends]

theorem waits_sentEvents : waits (sentEvents armed attempt a b) = [] := by
  simp [sentEvents, waits]

theorem pauses_sentEvents : pauses (sentEvents armed attempt a b) = [] := by
  simp [sentEvents, pauses]

theorem begins_retryEvents :
    begins (retryEvents config onRetry armed attempt delay a b c d) = [attempt] := by
  rcases onRetry with - | - <;> simp [retryEvents, sentEvents, begins]

theorem sends_retryEvents :
    sends (retryEvents config onRetry armed attempt delay a b c d) = [attempt] := by
  rcases onRetry with - | - <;> simp [retryEvents, sentEvents, sends]

theorem waits_retryEvents :
    waits (retryEvents config onRetry armed attempt delay a b c d) = [(attempt, delay)] := by
  rcases onRetry with - | - <;> simp [retryEvents, sentEvents, waits]

theorem pauses_retryEvents : pauses (retryEvents config true armed attempt delay a b c d) =
    [.callback attempt config.maxAttempts delay, .waited attempt delay] := by
  simp [retryEvents, sentEvents, pauses]

theorem cancelQueued_mem_retryEvents :
    .cancelQueued ∈ retryEvents config onRetry armed attempt delay a b c d ↔
      0 < a + b + c + d := by
  rcases onRetry with - | - <;> simp [retryEvents, sentEvents, mem_replicate] <;> omega

/-- After a cancel that is queued during an attempt, no other attempt begins, and nothing is sent but
this attempt, if it was not sent before. -/
theorem sends_after_begun {tail before after : List Event}
    (hbegins : begins (.begun attempt armed :: tail) = [attempt])
    (hsends : sends (.begun attempt armed :: tail) = [attempt])
    (h : .begun attempt armed :: tail = before ++ .cancelQueued :: after) :
    begins after = [] ∧ (sends after = [] ∨ ∃ k ∈ begins before, sends after = [k]) := by
  have htail : begins tail = [] := cons_injective hbegins
  have hsent : sends tail = [attempt] := hsends
  rcases before with - | ⟨first, before⟩
  · cases h
  · obtain ⟨rfl, rfl⟩ := cons_eq_cons.1 h
    rw [append_eq, begins_append, append_eq_nil_iff] at htail
    rw [append_eq, sends_append, append_eq_singleton_iff] at hsent
    refine ⟨htail.2, hsent.symm.imp And.right ?_⟩
    exact fun hlate => ⟨attempt, mem_cons_self .., hlate.2⟩

end Attempt

/-! ### Runs, property by property -/

section Runs

variable {world : World} {config : RetryConfig} {onRetry pending : Bool} {attempt : ℕ}
  {events : List Event} {answer : Answer}

theorem RunsTo.sends_eq (h : RunsTo world config onRetry attempt pending events answer) :
    ∃ m, sends events = List.range' (attempt + 1) m ∧
      attempt + m ≤ max (attempt + 1) config.maxAttempts := by
  induction h with
  | cancelled attempt => exact ⟨0, rfl, by omega⟩
  | done hverdict => exact ⟨1, by rw [sends_sentEvents]; rfl, by omega⟩
  | stopped => exact ⟨1, by rw [sends_retryEvents]; rfl, by omega⟩
  | again hretries _ _ ih =>
    obtain ⟨m, hsends, hm⟩ := ih
    have hleft := hretries.1
    refine ⟨m + 1, ?_, by omega⟩
    rw [sends_append, sends_retryEvents, hsends, List.range'_succ, singleton_append]

/-- Every attempt that is begun is sent. -/
theorem RunsTo.begins_eq (h : RunsTo world config onRetry attempt pending events answer) :
    begins events = sends events := by
  induction h with
  | cancelled attempt => rfl
  | done => rw [begins_sentEvents, sends_sentEvents]
  | stopped => rw [begins_retryEvents, sends_retryEvents]
  | again _ _ _ ih => rw [begins_append, sends_append, begins_retryEvents, sends_retryEvents, ih]

/-- The waits follow sent attempts, in order. -/
theorem RunsTo.waits_sublist (h : RunsTo world config onRetry attempt pending events answer) :
    ((waits events).map Prod.fst).Sublist (sends events) := by
  induction h with
  | cancelled attempt => exact .slnil
  | done => rw [waits_sentEvents]; exact nil_sublist _
  | stopped => rw [waits_retryEvents, sends_retryEvents]; exact .refl _
  | again _ _ _ ih =>
    rw [waits_append, sends_append, waits_retryEvents, sends_retryEvents]
    exact ih.cons_cons _

/-- Every wait follows an attempt to repeat, and none is too long. -/
theorem RunsTo.of_mem_waits (h : RunsTo world config onRetry attempt pending events answer)
    {k delay : ℕ} (hmem : (k, delay) ∈ waits events) :
    Retries world config k ∧ delay ≤ maxBackoffMs := by
  induction h with
  | cancelled attempt => cases hmem
  | done => rw [waits_sentEvents] at hmem; cases hmem
  | stopped hretries hdelay _ =>
    rw [waits_retryEvents, mem_singleton] at hmem
    obtain ⟨rfl, rfl⟩ := Prod.mk.inj hmem
    exact ⟨hretries, hdelay⟩
  | again hretries hdelay _ ih =>
    rw [waits_append, waits_retryEvents, singleton_append, mem_cons] at hmem
    rcases hmem with hhere | hlater
    · obtain ⟨rfl, rfl⟩ := Prod.mk.inj hhere
      exact ⟨hretries, hdelay⟩
    · exact ih hlater

theorem RunsTo.pending_or_mem_sends
    (h : RunsTo world config onRetry attempt pending events answer) :
    pending = true ∧ events = [] ∧ answer = .error .cancelled ∨
      pending = false ∧ attempt + 1 ∈ sends events := by
  cases h with
  | cancelled => exact .inl ⟨rfl, rfl, rfl⟩
  | done => exact .inr ⟨rfl, by rw [sends_sentEvents]; exact mem_singleton_self _⟩
  | stopped => exact .inr ⟨rfl, by rw [sends_retryEvents]; exact mem_singleton_self _⟩
  | again =>
    exact .inr ⟨rfl, by rw [sends_append, sends_retryEvents]; exact mem_cons_self ..⟩

theorem RunsTo.of_mem_sends (h : RunsTo world config onRetry attempt pending events answer)
    {k : ℕ} (hmem : k ∈ sends events) (hk : Retries world config k) :
    k ∈ (waits events).map Prod.fst ∧
      (k + 1 ∈ sends events ∨ answer = .error .cancelled ∧ .cancelQueued ∈ events) := by
  induction h with
  | cancelled attempt => cases hmem
  | done hverdict =>
    rw [sends_sentEvents, mem_singleton] at hmem
    obtain ⟨delay, hretry⟩ := (verdict_eq_retry_iff world config k).2 hk
    rw [hmem, hverdict] at hretry
    cases hretry
  | stopped _ _ hqueued =>
    rw [sends_retryEvents, mem_singleton] at hmem
    rw [waits_retryEvents, hmem, cancelQueued_mem_retryEvents]
    exact ⟨mem_singleton_self _, .inr ⟨rfl, hqueued⟩⟩
  | again _ _ hrest ih =>
    rw [sends_append, sends_retryEvents, singleton_append, mem_cons] at hmem
    rw [sends_append, waits_append, sends_retryEvents, waits_retryEvents, map_append,
      mem_append, mem_append, mem_append, cancelQueued_mem_retryEvents]
    rcases hmem with rfl | hlater
    · refine ⟨.inl (mem_singleton_self _), ?_⟩
      rcases hrest.pending_or_mem_sends with ⟨hpending, -, hanswer⟩ | ⟨-, hnext⟩
      · exact .inr ⟨hanswer, .inl (of_decide_eq_true hpending)⟩
      · exact .inl (.inr hnext)
    · obtain ⟨hwait, hnext⟩ := ih hlater
      exact ⟨.inr hwait, hnext.imp .inr (And.imp_right .inr)⟩

/-- Only an attempt to repeat is followed by another. -/
theorem RunsTo.retries_of_next (h : RunsTo world config onRetry attempt pending events answer)
    {k : ℕ} (hmem : k ∈ sends events) (hnext : k + 1 ∈ sends events) : Retries world config k := by
  induction h with
  | cancelled attempt => cases hmem
  | done =>
    rw [sends_sentEvents, mem_singleton] at hmem hnext
    omega
  | stopped hretries =>
    rw [sends_retryEvents, mem_singleton] at hmem
    exact hmem ▸ hretries
  | again hretries _ hrest ih =>
    obtain ⟨m, hlater, -⟩ := hrest.sends_eq
    rw [sends_append, sends_retryEvents, singleton_append, mem_cons] at hmem hnext
    rcases hmem with rfl | hmem
    · exact hretries
    · refine ih hmem (hnext.resolve_left fun heq => ?_)
      rw [hlater, mem_range'_1] at hmem
      omega

theorem RunsTo.answer_eq (h : RunsTo world config onRetry attempt pending events answer) :
    answer = .error .cancelled ∧ (pending = true ∨ .cancelQueued ∈ events) ∨
      ∃ k ∈ sends events, verdict world config k (world.send k) = .done answer := by
  induction h with
  | cancelled attempt => exact .inl ⟨rfl, .inl rfl⟩
  | done hverdict => exact .inr ⟨_, by rw [sends_sentEvents]; exact mem_singleton_self _, hverdict⟩
  | stopped _ _ hqueued =>
    exact .inl ⟨rfl, .inr ((cancelQueued_mem_retryEvents ..).2 hqueued)⟩
  | again _ _ _ ih =>
    rcases ih with ⟨hanswer, hpending | hqueued⟩ | ⟨k, hk, hverdict⟩
    · exact .inl ⟨hanswer, .inr (mem_append_left _
        ((cancelQueued_mem_retryEvents ..).2 (of_decide_eq_true hpending)))⟩
    · exact .inl ⟨hanswer, .inr (mem_append_right _ hqueued)⟩
    · exact .inr ⟨k, by rw [sends_append]; exact mem_append_right _ hk, hverdict⟩

theorem RunsTo.pauses_eq (h : RunsTo world config true attempt pending events answer) :
    pauses events = (waits events).flatMap fun wait =>
      [.callback wait.1 config.maxAttempts wait.2, .waited wait.1 wait.2] := by
  induction h with
  | cancelled attempt => rfl
  | done => rw [pauses_sentEvents, waits_sentEvents]; rfl
  | stopped => rw [pauses_retryEvents, waits_retryEvents]; rfl
  | again _ _ _ ih =>
    rw [pauses_append, waits_append, pauses_retryEvents, waits_retryEvents, ih]
    rfl

theorem RunsTo.sends_after (h : RunsTo world config onRetry attempt pending events answer)
    {before after : List Event} (heq : events = before ++ .cancelQueued :: after) :
    begins after = [] ∧ (sends after = [] ∨ ∃ k ∈ begins before, sends after = [k]) := by
  induction h generalizing before with
  | cancelled attempt => simp at heq
  | done => exact sends_after_begun _ _ (begins_sentEvents ..) (sends_sentEvents ..) heq
  | stopped => exact sends_after_begun _ _ (begins_retryEvents ..) (sends_retryEvents ..) heq
  | again _ _ hrest ih =>
    rcases append_eq_append_iff.1 heq with ⟨between, rfl, hlater⟩ | ⟨between, hfirst, hafter⟩
    · -- the cancel is queued after the first attempt
      obtain ⟨hbegins, hsends⟩ := ih hlater
      refine ⟨hbegins, hsends.imp id ?_⟩
      rintro ⟨k, hk, hlate⟩
      exact ⟨k, by rw [begins_append]; exact mem_append_right _ hk, hlate⟩
    · rcases between with - | ⟨first, between⟩
      · obtain ⟨hbegins, hsends⟩ := ih (show _ = [] ++ Event.cancelQueued :: after from hafter.symm)
        exact ⟨hbegins, hsends.imp id fun ⟨k, hk, _⟩ => absurd hk not_mem_nil⟩
      · -- it is queued during the first attempt, and no other follows
        obtain ⟨rfl, rfl⟩ := cons_eq_cons.1 hafter
        have hqueued := (cancelQueued_mem_retryEvents ..).1
          (hfirst ▸ mem_append_right _ (mem_cons_self ..))
        rcases hrest.pending_or_mem_sends with ⟨-, hnone, -⟩ | ⟨hpending, -⟩
        · rw [hnone, append_eq, append_nil]
          exact sends_after_begun _ _ (begins_retryEvents ..) (sends_retryEvents ..) hfirst
        · exact absurd hqueued (of_decide_eq_false hpending)

end Runs

/-! ### Whole calls -/

/-- A call that is cancelled before its first check sends nothing, and else the loop runs from its
beginning with no cancel to take. -/
theorem retryCall_cases {world : World} {config : RetryConfig} (onRetry cancellable : Bool)
    {deadline : Option AttemptDeadline} (hdeadline : Representable world config deadline) :
    ∃ cancels events answer,
      (retryCall world config onRetry cancellable deadline).1 =
        List.replicate cancels .cancelQueued ++ events ∧
      (retryCall world config onRetry cancellable deadline).2 = some answer ∧
      RunsTo world config onRetry 0 (decide (0 < cancels)) events answer := by
  obtain ⟨cancels, hevents, hpending⟩ :=
    arrivalEvents_eq (if cancellable then some ⟨0, true⟩ else none) (world.arrivals .call)
  obtain ⟨answer, hanswer, hrun⟩ := retryLoop_runsTo onRetry hdeadline (Nat.le_max_left 1 _)
    (arrive (if cancellable then some ⟨0, true⟩ else none) (world.arrivals .call))
  refine ⟨cancels, _, answer, by rw [retryCall, hevents], hanswer, ?_⟩
  have hnew : cancellationPending (if cancellable then some ⟨0, true⟩ else none) = false := by
    rcases cancellable with - | - <;> rfl
  rw [hnew] at hpending
  rwa [show decide (0 < cancels) = cancellationPending _ by
    rw [← Bool.decide_coe (cancellationPending (arrive _ _)), decide_eq_decide, hpending]
    simp]

/-- What is said of the events and the answer of a call. -/
structure Exact (world : World) (config : RetryConfig) (onRetry : Bool) (events : List Event)
    (answer : Answer) : Prop where
  /-- The attempts are numbered from one, and are no more than allowed. -/
  sends_eq : ∃ m ≤ max 1 config.maxAttempts, sends events = List.range' 1 m
  /-- There is at most one wait for each attempt, in order. -/
  waits_sublist : ((waits events).map Prod.fst).Sublist (sends events)
  /-- The loop waits after the attempts that are to be repeated, and no others. -/
  waits_iff : ∀ k ∈ sends events, k ∈ (waits events).map Prod.fst ↔ Retries world config k
  /-- Only after these is there another attempt. -/
  retries_of_next : ∀ k ∈ sends events, k + 1 ∈ sends events → Retries world config k
  /-- After these there is another attempt, unless the call is cancelled. -/
  next_of_retries : ∀ k ∈ sends events, Retries world config k →
    k + 1 ∈ sends events ∨ answer = .error .cancelled ∧ .cancelQueued ∈ events
  /-- No wait is longer than an hour. -/
  waits_le : ∀ wait ∈ waits events, wait.2 ≤ maxBackoffMs
  /-- The callback runs once before each wait, with the number of the attempt. -/
  pauses_eq : onRetry = true → pauses events = (waits events).flatMap fun wait =>
    [.callback wait.1 config.maxAttempts wait.2, .waited wait.1 wait.2]
  /-- After a cancel is queued no attempt begins, nothing is sent but an attempt whose check was
  before, and the call is cancelled unless the send of such an attempt ends it. -/
  cancel : ∀ before after, events = before ++ .cancelQueued :: after → begins after = [] ∧
    (sends after = [] ∨ ∃ k ∈ begins before, sends after = [k]) ∧
    (answer = .error .cancelled ∨ ∃ k ∈ begins before, ¬ Retries world config k ∧
      verdict world config k (world.send k) = .done answer)
  /-- A call is cancelled, or a send ends it. -/
  answer_eq : answer = .error .cancelled ∧ .cancelQueued ∈ events ∨
    ∃ k ∈ sends events, ¬ Retries world config k ∧
      verdict world config k (world.send k) = .done answer

/-- A send that ends the call is not to be repeated. -/
theorem not_retries_of_done {world : World} {config : RetryConfig} {k : ℕ} {answer : Answer}
    (h : verdict world config k (world.send k) = .done answer) : ¬ Retries world config k := by
  rintro hretries
  obtain ⟨delay, hdelay⟩ := (verdict_eq_retry_iff world config k).2 hretries
  rw [h] at hdelay
  cases hdelay

/-- A call whose deadlines the clock can hold returns, and its events are so. -/
theorem retryCall_exact (world : World) (config : RetryConfig) (onRetry cancellable : Bool)
    (deadline : Option AttemptDeadline) (hdeadline : Representable world config deadline) :
    ∃ answer, (retryCall world config onRetry cancellable deadline).2 = some answer ∧
      Exact world config onRetry (retryCall world config onRetry cancellable deadline).1
        answer := by
  obtain ⟨cancels, events, answer, hevents, hreturned, hrun⟩ :=
    retryCall_cases onRetry cancellable hdeadline
  refine ⟨answer, hreturned, ?_⟩
  rw [hevents]
  have hbegins : begins (List.replicate cancels .cancelQueued ++ events) = sends events := by
    rw [begins_append, begins_replicate, nil_append, hrun.begins_eq]
  have hsends : sends (List.replicate cancels .cancelQueued ++ events) = sends events := by
    rw [sends_append, sends_replicate, nil_append]
  have hwaits : waits (List.replicate cancels .cancelQueued ++ events) = waits events := by
    rw [waits_append, waits_replicate, nil_append]
  have hpauses : pauses (List.replicate cancels .cancelQueued ++ events) = pauses events := by
    rw [pauses_append, pauses_replicate, nil_append]
  have hanswer : answer = .error .cancelled ∧
      .cancelQueued ∈ List.replicate cancels .cancelQueued ++ events ∨
        ∃ k ∈ sends events, ¬ Retries world config k ∧
          verdict world config k (world.send k) = .done answer := by
    rcases hrun.answer_eq with ⟨hcancelled, hqueued⟩ | ⟨k, hk, hdone⟩
    · refine .inl ⟨hcancelled, ?_⟩
      rw [mem_append, mem_replicate]
      exact hqueued.imp (fun h => ⟨(of_decide_eq_true h).ne', rfl⟩) id
    · exact .inr ⟨k, hk, not_retries_of_done hdone, hdone⟩
  have hafter {before after : List Event}
      (heq : List.replicate cancels .cancelQueued ++ events = before ++ .cancelQueued :: after) :
      begins after = [] ∧ (sends after = [] ∨ ∃ k ∈ begins before, sends after = [k]) := by
    rcases hrun.pending_or_mem_sends with ⟨-, hnone, -⟩ | ⟨hpending, -⟩
    · rw [heq, hnone, begins_append] at hbegins
      rw [heq, hnone, sends_append] at hsends
      exact ⟨(append_eq_nil_iff.1 hbegins).2, .inl (append_eq_nil_iff.1 hsends).2⟩
    · have hzero : cancels = 0 := by simpa using hpending
      rw [hzero, replicate_zero, nil_append] at heq
      exact hrun.sends_after heq
  refine ⟨?_, ?_, ?_, ?_, ?_, ?_, ?_, ?_, ?_⟩
  · obtain ⟨m, hm, hle⟩ := hrun.sends_eq
    exact ⟨m, by omega, hsends.trans hm⟩
  · rw [hsends, hwaits]
    exact hrun.waits_sublist
  · rw [hsends, hwaits]
    refine fun k hk => ⟨fun hwait => ?_, fun hretries => (hrun.of_mem_sends hk hretries).1⟩
    obtain ⟨wait, hmem, rfl⟩ := List.mem_map.1 hwait
    exact (hrun.of_mem_waits hmem).1
  · rw [hsends]
    exact fun k hk hnext => hrun.retries_of_next hk hnext
  · rw [hsends]
    exact fun k hk hretries => (hrun.of_mem_sends hk hretries).2.imp id
      (And.imp_right (mem_append_right _))
  · rw [hwaits]
    exact fun wait hmem => (hrun.of_mem_waits hmem).2
  · rintro rfl
    rw [hpauses, hwaits]
    exact hrun.pauses_eq
  · intro before after heq
    obtain ⟨hnone, hlate⟩ := hafter heq
    refine ⟨hnone, hlate, hanswer.imp And.left ?_⟩
    rintro ⟨k, hk, hdone⟩
    rw [← hbegins, heq, begins_append, mem_append] at hk
    refine ⟨k, hk.resolve_right fun hbegun => ?_, hdone⟩
    have hbegun' : k ∈ begins after := hbegun
    rw [hnone] at hbegun'
    cases hbegun'
  · rw [hsends]
    exact hanswer

/-- The world of a request whose first send fails in transport. Its second attempt is answered, with
a cancel queued after the check. -/
def answeredWorld : World where
  clock _ := 0
  send
    | 1 => .transport "connection reset"
    | _ => .response ⟨200, none, ""⟩
  jitter _ delay := delay
  untilDate _ _ := none
  serde := ⟨fun _ => none, fun _ => "", .null, .object []⟩
  arrivals
    | .checked 2 => { cancels := 1 }
    | _ => {}
  timerWins _ := false

def anHour : AttemptDeadline where
  totalTimeoutSecs := 3600

/-- A request that is answered in its second attempt, with a deadline of an hour for each. -/
theorem retryCall_exact_answered : Representable answeredWorld (.new 3 1000 30000) (some anHour) ∧
    ∃ answer, (retryCall answeredWorld (.new 3 1000 30000) true true (some anHour)).2 =
        some answer ∧
      Exact answeredWorld (.new 3 1000 30000) true
        (retryCall answeredWorld (.new 3 1000 30000) true true (some anHour)).1 answer := by
  have hdeadline : Representable answeredWorld (.new 3 1000 30000) (some anHour) := by
    rintro attempt - d hd -
    obtain rfl := Option.some_inj.1 hd
    simp [answeredWorld, anHour, instantMax]
  exact ⟨hdeadline, retryCall_exact _ _ _ _ _ hdeadline⟩

/-- A cancel that is queued between the check and the send neither stops the send nor makes the call
return that it is cancelled. -/
theorem not_cancelled_of_queued : ¬ ∀ (world : World) (config : RetryConfig)
    (onRetry cancellable : Bool) (deadline : Option AttemptDeadline) (before after : List Event),
    Representable world config deadline →
    (retryCall world config onRetry cancellable deadline).1 = before ++ .cancelQueued :: after →
      sends after = [] ∧
        (retryCall world config onRetry cancellable deadline).2 =
          some (.error .cancelled) := by
  rintro h
  have hfirst : attemptOnce answeredWorld (.new 3 1000 30000) true none 1 (some ⟨0, true⟩) =
      ([.begun 1 none, .sent 1, .callback 1 3 1000, .waited 1 1000], .inr (some ⟨0, true⟩)) := rfl
  have hsecond : attemptOnce answeredWorld (.new 3 1000 30000) true none 2 (some ⟨0, true⟩) =
      ([.begun 2 none, .cancelQueued, .sent 2], .inl (some (.ok ⟨200, none, ""⟩))) := rfl
  have hcall : retryCall answeredWorld (.new 3 1000 30000) true true none =
      ([.begun 1 none, .sent 1, .callback 1 3 1000, .waited 1 1000, .begun 2 none,
        .cancelQueued, .sent 2], some (.ok ⟨200, none, ""⟩)) := by
    change retryLoop answeredWorld (.new 3 1000 30000) true none 0 (some ⟨0, true⟩) = _
    rw [retryLoop, hfirst]
    dsimp only
    rw [retryLoop, hsecond]
    rfl
  have hdeadline : Representable answeredWorld (.new 3 1000 30000) none := by
    rintro attempt - d hd
    cases hd
  obtain ⟨hsends, -⟩ := h answeredWorld (.new 3 1000 30000) true true none
    [.begun 1 none, .sent 1, .callback 1 3 1000, .waited 1 1000, .begun 2 none] [.sent 2]
    hdeadline (by rw [hcall]; rfl)
  cases hsends

end Choreo.Retry
