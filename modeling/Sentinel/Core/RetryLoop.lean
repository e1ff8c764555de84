/-
Sentinel.Core.RetryLoop — what a call does with the outcomes of its
attempts, and what is left of it.

`requestSpec` says it for outcomes the loop knows: how often a call sends,
what it reports, records and returns. An exception that is no
`TransportError` leaves the loop past the recorder; `leavesEvidence_iff`
says that nothing else does.
-/
import Sentinel.Core.RequestOutcome
import Sentinel.Retry.Attempts

namespace Sentinel.Core

open Sentinel.Py Sentinel.Retry

/-! ## Outcomes -/

/-- A response other than 429 and 503. -/
def WireAnswer.settles : WireAnswer → Bool
  | .response r => r.statusCode ∉ rateLimitedStatusCodes
  | _ => false

/-- A 429 or 503. -/
def WireAnswer.throttles : WireAnswer → Bool
  | .response r => r.statusCode ∈ rateLimitedStatusCodes
  | _ => false

/-- What the loop reports to the limiter about an outcome. -/
def WireAnswer.report (targetId : Str) : WireAnswer → Option Event
  | .response r =>
      if r.statusCode ∈ rateLimitedStatusCodes then
        some (.reportBackpressure targetId ("HTTP ".toList ++ ofInt r.statusCode))
      else some (.reportSuccess targetId)
  | _ => none

def Event.isBackpressure : Event → Bool
  | .reportBackpressure _ _ => true
  | _ => false

def Event.isSuccess : Event → Bool
  | .reportSuccess _ => true
  | _ => false

def Event.transcript : Event → Option TranscriptArgs
  | .record args => some args
  | _ => none

variable [PyRuntime]

/-- The outcome of attempt `n`. -/
def HttpEngine.outcomeOf (e : HttpEngine) (env : CallEnv) (n : Nat) : WireAnswer :=
  e.client.outcome (env.answers n)

/-- The response that attempt `n` leaves in `response_obj`. -/
def HttpEngine.responseOf (e : HttpEngine) (env : CallEnv) (n : Nat) : Option RecordedResponse :=
  match e.outcomeOf env n with
  | .response r => some ⟨r.statusCode, r.headers, some r.content, env.elapsedMs n⟩
  | _ => none

/-- The text that attempt `n` leaves in `error`. -/
def HttpEngine.errorOf (e : HttpEngine) (env : CallEnv) (n : Nat) : Option Str :=
  match e.outcomeOf env n with
  | .timeout msg => some ("timeout: ".toList ++ msg)
  | .transportError msg => some ("transport_error: ".toList ++ msg)
  | _ => none

/-! ## The loop, by its outcomes -/

/-- The loop ends at the first outcome it does not retry. -/
theorem attemptsMade_stop (e : HttpEngine) (env : CallEnv) (left start : Nat) :
    start + e.attemptsMade env left start =
      stop (fun n => !(e.outcomeOf env n).retried) start left := by
  induction left generalizing start with
  | zero => rfl
  | succ left ih =>
    rw [stop_succ, ← ih (start + 1)]
    show start + (1 + if (e.outcomeOf env (start + 1)).retried then _ else 0) = _
    cases (e.outcomeOf env (start + 1)).retried with
    | true => simp only [if_true, Bool.not_true, Bool.false_eq_true, if_false]; omega
    | false => simp

/-- The variables after an outcome. -/
theorem take_vars (e : HttpEngine) (env : CallEnv) (v : LoopVars) :
    (v.take env (e.outcomeOf env (v.attempt + 1))).attempt = v.attempt + 1 ∧
      (v.take env (e.outcomeOf env (v.attempt + 1))).response =
        (e.responseOf env (v.attempt + 1)).or v.response ∧
      (v.take env (e.outcomeOf env (v.attempt + 1))).error =
        (e.errorOf env (v.attempt + 1)).or v.error := by
  unfold HttpEngine.responseOf HttpEngine.errorOf
  cases e.outcomeOf env (v.attempt + 1) <;> simp [LoopVars.take]

/-- **The variables after the loop**: each holds what the latest attempt
left in it. -/
theorem varsAfter_latest (e : HttpEngine) (env : CallEnv) (left : Nat) (v : LoopVars) :
    (e.varsAfter env left v).attempt = v.attempt + e.attemptsMade env left v.attempt ∧
      (e.varsAfter env left v).response = (latest (e.responseOf env)
        (attempts v.attempt (v.attempt + e.attemptsMade env left v.attempt))).or v.response ∧
      (e.varsAfter env left v).error = (latest (e.errorOf env)
        (attempts v.attempt (v.attempt + e.attemptsMade env left v.attempt))).or v.error := by
  induction left generalizing v with
  | zero =>
    simp [HttpEngine.varsAfter, HttpEngine.attemptsMade, attempts_self, latest]
  | succ left ih =>
    obtain ⟨hattempt, hresponse, herror⟩ := take_vars e env v
    have hpos : 0 < e.attemptsMade env (left + 1) v.attempt :=
      attemptsMade_pos e env (Nat.succ_pos left) v.attempt
    rw [attempts_cons (by omega), latest_cons, latest_cons, ← hresponse, ← herror]
    cases hretried : (e.outcomeOf env (v.attempt + 1)).retried with
    | true =>
      have hvars : e.varsAfter env (left + 1) v =
          e.varsAfter env left (v.take env (e.outcomeOf env (v.attempt + 1))) := if_pos hretried
      have hmade : v.attempt + e.attemptsMade env (left + 1) v.attempt =
          v.attempt + 1 + e.attemptsMade env left (v.attempt + 1) := by
        rw [attemptsMade_stop, attemptsMade_stop, stop_succ, hretried]
        rfl
      have hrest := ih (v.take env (e.outcomeOf env (v.attempt + 1)))
      rw [hattempt] at hrest
      rw [hvars, hmade]
      exact hrest
    | false =>
      have hvars : e.varsAfter env (left + 1) v =
          v.take env (e.outcomeOf env (v.attempt + 1)) :=
        if_neg fun h => absurd (h.symm.trans hretried) (by decide)
      have hmade : v.attempt + e.attemptsMade env (left + 1) v.attempt = v.attempt + 1 := by
        rw [attemptsMade_stop, stop_succ, hretried]
        rfl
      rw [hvars, hmade, hattempt, attempts_self]
      exact ⟨rfl, rfl, rfl⟩

omit [PyRuntime] in
/-- Taking in an outcome adds the report about it, if there is one. -/
theorem absorb_report (e : HttpEngine) (env : CallEnv) (st : LoopState) (answer : WireAnswer) :
    (e.absorb env st answer).1.events = st.events ++ (answer.report e.targetId).toList := by
  cases answer with
  | response r =>
    by_cases hlimited : r.statusCode ∈ rateLimitedStatusCodes
    · simp [HttpEngine.absorb, WireAnswer.report, hlimited]
    · simp [HttpEngine.absorb, WireAnswer.report, hlimited]
  | timeout msg | transportError msg | otherError msg =>
    simp [HttpEngine.absorb, WireAnswer.report]

/-- An attempt reports what there is to report about its outcome, and goes
on as the outcome says. -/
theorem attemptOnce_report (e : HttpEngine) (req : WireRequest) (env : CallEnv) (st : LoopState) :
    (e.attemptOnce req env st).1.events.filter Event.isReport =
        st.events.filter Event.isReport ++
          ((e.outcomeOf env (st.attempt + 1)).report e.targetId).toList ∧
      (e.attemptOnce req env st).1.attempt = st.attempt + 1 ∧
      (e.attemptOnce req env st).2 = (e.outcomeOf env (st.attempt + 1)).retried := by
  obtain ⟨-, -, -, -, hattempt, hgo⟩ := attemptOnce_spec e req env st
  refine ⟨?_, hattempt, hgo⟩
  have hanswer : (e.client.request (env.answers (st.attempt + 1)) st.jar req).answer =
      e.outcomeOf env (st.attempt + 1) := request_answer e.client _ st.jar req
  have hreport : ∀ answer : WireAnswer, (answer.report e.targetId).toList.filter Event.isReport =
      (answer.report e.targetId).toList := by
    intro answer
    rw [List.filter_eq_self]
    intro ev hev
    cases answer with
    | response r =>
      by_cases hlimited : r.statusCode ∈ rateLimitedStatusCodes
      · simp only [WireAnswer.report, hlimited, if_true, Option.mem_toList,
          Option.some.injEq] at hev
        rw [← hev]
        rfl
      · simp only [WireAnswer.report, hlimited, if_false, Option.mem_toList,
          Option.some.injEq] at hev
        rw [← hev]
        rfl
    | timeout msg | transportError msg | otherError msg => cases hev
  unfold HttpEngine.attemptOnce
  rw [absorb_report, List.filter_append, List.filter_append, hanswer, hreport]
  simp [Event.isReport]

/-- **What the loop reports**: what there is to report about each attempt. -/
theorem retryLoop_reports (e : HttpEngine) (req : WireRequest) (env : CallEnv) (left : Nat)
    (st : LoopState) :
    (e.retryLoop req env left st).events.filter Event.isReport =
      st.events.filter Event.isReport ++
        (attempts st.attempt (st.attempt + e.attemptsMade env left st.attempt)).filterMap
          fun n => (e.outcomeOf env n).report e.targetId := by
  induction left generalizing st with
  | zero => simp [HttpEngine.retryLoop, HttpEngine.attemptsMade, attempts_self]
  | succ left ih =>
    obtain ⟨hevents, hattempt, hgo⟩ := attemptOnce_report e req env st
    have hpos : 0 < e.attemptsMade env (left + 1) st.attempt :=
      attemptsMade_pos e env (Nat.succ_pos left) st.attempt
    rw [attempts_cons (by omega), attemptsMade_stop, stop_succ]
    unfold HttpEngine.retryLoop
    generalize e.attemptOnce req env st = res at hevents hattempt hgo
    obtain ⟨st', go⟩ := res
    dsimp only at hevents hattempt hgo
    subst hgo
    have hfirst : ∀ rest : List Nat,
        ((st.attempt + 1) :: rest).filterMap (fun n => (e.outcomeOf env n).report e.targetId) =
          ((e.outcomeOf env (st.attempt + 1)).report e.targetId).toList ++
            rest.filterMap fun n => (e.outcomeOf env n).report e.targetId := by
      intro rest
      rw [List.filterMap_cons]
      cases (e.outcomeOf env (st.attempt + 1)).report e.targetId <;> rfl
    cases (e.outcomeOf env (st.attempt + 1)).retried with
    | true =>
      have hrest := ih st'
      rw [hevents, hattempt, attemptsMade_stop] at hrest
      rw [hfirst, ← List.append_assoc]
      exact hrest
    | false =>
      simp only [Bool.not_false, if_true, attempts_self, hfirst, List.filterMap_nil,
        List.append_nil]
      exact hevents

/-! ## One call -/

/-- The methods a request may be sent again for. -/
def repeatableMethods : List Str := ["GET".toList, "HEAD".toList, "OPTIONS".toList]

/-- The attempts a call has: one, and for a GET, HEAD or OPTIONS request the
retries. -/
def HttpEngine.allowedAttempts (e : HttpEngine) (call : RequestCall) : Nat :=
  if upper call.method ∈ repeatableMethods then 1 + e.maxRetries else 1

/-- The attempt a call is to end with: the first, of those it has, whose
outcome is a response other than 429 and 503, or the last. -/
def HttpEngine.lastAttempt (e : HttpEngine) (call : RequestCall) (env : CallEnv) : Nat :=
  stop (fun n => (e.outcomeOf env n).settles) 0 (e.allowedAttempts call)

/-- The attempts up to it. -/
def HttpEngine.attemptsOf (e : HttpEngine) (call : RequestCall) (env : CallEnv) : List Nat :=
  attempts 0 (e.lastAttempt call env)

/-- What a call does that the guards let through. -/
structure RequestSpec (e : HttpEngine) (call : RequestCall) (env : CallEnv) (run : RequestRun) :
    Prop where
  sends : sendCount run.events = e.lastAttempt call env
  /-- A request that is not idempotent is never sent twice. -/
  once : upper call.method ∉ repeatableMethods → sendCount run.events = 1
  backpressures : run.events.countP Event.isBackpressure =
    (e.attemptsOf call env).countP fun n => (e.outcomeOf env n).throttles
  successes : run.events.countP Event.isSuccess =
    if (e.outcomeOf env (e.lastAttempt call env)).settles then 1 else 0
  transcripts : run.events.filterMap Event.transcript =
    [{ scanId := e.scanId
       personaId := (call.persona.getD anonymousSession).personaId
       request := ⟨upper call.method, call.url,
         e.requestHeaders (call.persona.getD anonymousSession) call.headers, call.body⟩
       response := latest (e.responseOf env) (e.attemptsOf call env)
       error :=
         if (latest (e.responseOf env) (e.attemptsOf call env)).isNone then
           latest (e.errorOf env) (e.attemptsOf call env)
         else none }]
  answers : ∀ r, latest (e.responseOf env) (e.attemptsOf call env) = some r →
    run.result = .ok ⟨r.statusCode, r.headers, r.body.getD [], r.elapsedMs, env.transcriptId,
      call.url⟩
  fails : (∃ msg, run.result = .error (.connectionError msg)) ↔
    latest (e.responseOf env) (e.attemptsOf call env) = none

/-- The loop has the attempts the call is allowed. -/
theorem maxAttempts_eq (e : HttpEngine) (call : RequestCall) :
    e.maxAttempts (upper call.method) = e.allowedAttempts call := by
  unfold HttpEngine.maxAttempts HttpEngine.allowedAttempts
  have hmethods : idempotentMethods = repeatableMethods := rfl
  rw [hmethods]
  split
  · rfl
  · rfl

/-- Without an exception the loop does not catch, it ends where the call is
settled. -/
theorem attemptsMade_lastAttempt {e : HttpEngine} {call : RequestCall} {env : CallEnv}
    (hcaught : ∀ n, 0 < n → n ≤ e.allowedAttempts call → ¬ e.Escapes env n) :
    e.attemptsMade env (e.maxAttempts (upper call.method)) 0 = e.lastAttempt call env := by
  have hstop := attemptsMade_stop e env (e.maxAttempts (upper call.method)) 0
  rw [Nat.zero_add] at hstop
  rw [hstop, maxAttempts_eq]
  refine stop_congr fun n hpos hle => ?_
  rw [Nat.zero_add] at hle
  cases houtcome : e.outcomeOf env n with
  | response r => simp [WireAnswer.retried, WireAnswer.settles]
  | timeout msg | transportError msg => rfl
  | otherError msg => exact absurd ⟨msg, houtcome⟩ (hcaught n hpos hle)

/-- What a call that passed the guards ends in, if nothing escaped. -/
theorem request_concluded {e : HttpEngine} {call : RequestCall} {env : CallEnv}
    (hpass : e.blocks call = false) (hescaped : (e.finalVars call env).escaped = none)
    (jar : CookieJar) :
    ∃ mid, (e.request call env jar).events = .acquire e.targetId 1 :: mid ++ [.record
        { scanId := e.scanId
          personaId := (call.persona.getD anonymousSession).personaId
          request := ⟨upper call.method, call.url,
            e.requestHeaders (call.persona.getD anonymousSession) call.headers, call.body⟩
          response := (e.finalVars call env).response
          error := if (e.finalVars call env).response.isNone then (e.finalVars call env).error
            else none }] ∧
      (∀ ev ∈ mid, LoopEvent e (e.wireRequest call) env ev) ∧
      sendCount mid = e.attemptsMade env (e.maxAttempts (upper call.method)) 0 ∧
      mid.filter Event.isReport =
        (attempts 0 (e.attemptsMade env (e.maxAttempts (upper call.method)) 0)).filterMap
          fun n => (e.outcomeOf env n).report e.targetId := by
  have hguard : e.guardCall call (upper call.method) = none := by
    simpa [HttpEngine.blocks] using hpass
  obtain ⟨mid, hevents, hloop, hsends⟩ := retryLoop_spec e (e.wireRequest call) env
    (e.maxAttempts (upper call.method)) (e.loopStart jar)
  have hreports := retryLoop_reports e (e.wireRequest call) env
    (e.maxAttempts (upper call.method)) (e.loopStart jar)
  have hvars : (e.retryLoop (e.wireRequest call) env (e.maxAttempts (upper call.method))
      (e.loopStart jar)).vars = e.finalVars call env := retryLoop_vars e _ env _ _
  refine ⟨mid, ?_, hloop, hsends, ?_⟩
  · simp only [HttpEngine.request, hguard, HttpEngine.dispatch, HttpEngine.conclude]
    generalize e.retryLoop _ env _ _ = st at hevents hvars
    rw [← hvars] at hescaped ⊢
    have hnone : st.escaped = none := hescaped
    rw [hnone, hevents]
    rfl
  · rw [hevents, List.filter_append] at hreports
    simpa [HttpEngine.loopStart, Event.isReport] using hreports

/-- The variables a call ends with. -/
theorem finalVars_latest (e : HttpEngine) (call : RequestCall) (env : CallEnv) :
    (e.finalVars call env).response = latest (e.responseOf env)
        (attempts 0 (e.attemptsMade env (e.maxAttempts (upper call.method)) 0)) ∧
      (e.finalVars call env).error = latest (e.errorOf env)
        (attempts 0 (e.attemptsMade env (e.maxAttempts (upper call.method)) 0)) := by
  obtain ⟨-, hresponse, herror⟩ :=
    varsAfter_latest e env (e.maxAttempts (upper call.method)) ⟨0, none, none, none⟩
  rw [Nat.zero_add, Option.or_none] at hresponse herror
  exact ⟨hresponse, herror⟩

omit [PyRuntime] in
/-- Reports of a kind, counted among all effects or among the reports. -/
theorem countP_reports {p : Event → Bool} (hp : ∀ ev, p ev = true → ev.isReport = true)
    (events : List Event) : events.countP p = (events.filter Event.isReport).countP p := by
  rw [List.countP_filter]
  refine List.countP_congr fun ev _ => ?_
  rw [Bool.and_eq_true]
  exact ⟨fun h => ⟨h, hp ev h⟩, And.left⟩

omit [PyRuntime] in
/-- What is reported of an outcome. -/
theorem report_kind (targetId : Str) (answer : WireAnswer) :
    ((answer.report targetId).map Event.isBackpressure).getD false = answer.throttles ∧
      ((answer.report targetId).map Event.isSuccess).getD false = answer.settles := by
  cases answer with
  | response r =>
    by_cases hlimited : r.statusCode ∈ rateLimitedStatusCodes
    · simp [WireAnswer.report, WireAnswer.throttles, WireAnswer.settles, hlimited,
        Event.isBackpressure, Event.isSuccess]
    · simp [WireAnswer.report, WireAnswer.throttles, WireAnswer.settles, hlimited,
        Event.isBackpressure, Event.isSuccess]
  | timeout msg | transportError msg | otherError msg => exact ⟨rfl, rfl⟩

theorem lastAttempt_bounds (e : HttpEngine) (call : RequestCall) (env : CallEnv) :
    0 < e.lastAttempt call env ∧ e.lastAttempt call env ≤ e.allowedAttempts call := by
  obtain ⟨-, hbound, hpos⟩ := stop_bounds (fun n => (e.outcomeOf env n).settles) 0
    (e.allowedAttempts call)
  rw [Nat.zero_add] at hbound
  have hone : 0 < e.allowedAttempts call := by
    unfold HttpEngine.allowedAttempts
    split <;> omega
  exact ⟨hpos hone, hbound⟩

/-- Only the last attempt of a call may settle it. -/
theorem countP_settles (e : HttpEngine) (call : RequestCall) (env : CallEnv) :
    ((e.attemptsOf call env).countP fun n => (e.outcomeOf env n).settles) =
      if (e.outcomeOf env (e.lastAttempt call env)).settles then 1 else 0 :=
  countP_attempts (lastAttempt_bounds e call env).1 fun _ hlow hn => undecided_before_stop hlow hn

theorem finalVars_escaped {e : HttpEngine} {call : RequestCall} {env : CallEnv}
    (hcaught : ∀ n, 0 < n → n ≤ e.attemptsMade env (e.maxAttempts (upper call.method)) 0 →
      ¬ e.Escapes env n) : (e.finalVars call env).escaped = none := by
  have hsome := (varsAfter_isSome e env (e.maxAttempts (upper call.method))
    ⟨0, none, none, none⟩).2
  rw [← Option.not_isSome_iff_eq_none]
  intro h
  rcases hsome.mp h with h | ⟨n, hlow, hhigh, hescapes⟩
  · cases h
  · rw [Nat.zero_add] at hhigh
    exact hcaught n hlow hhigh hescapes

/-- What a call returns that passed the guards, if nothing escaped. -/
theorem request_result_of_caught {e : HttpEngine} {call : RequestCall} {env : CallEnv}
    (hpass : e.blocks call = false) (hescaped : (e.finalVars call env).escaped = none)
    (jar : CookieJar) :
    (∀ r, (e.finalVars call env).response = some r → (e.request call env jar).result =
      .ok ⟨r.statusCode, r.headers, r.body.getD [], r.elapsedMs, env.transcriptId, call.url⟩) ∧
    ((∃ msg, (e.request call env jar).result = .error (.connectionError msg)) ↔
      (e.finalVars call env).response = none) := by
  have hguard : e.guardCall call (upper call.method) = none := by
    simpa [HttpEngine.blocks] using hpass
  rw [request_result, hguard]
  simp only [LoopVars.result, hescaped]
  cases (e.finalVars call env).response with
  | none => simp
  | some r => simp

/-- **The specification of the retry loop**, for the outcomes it knows. -/
theorem requestSpec {e : HttpEngine} {call : RequestCall} {env : CallEnv}
    (hpass : e.blocks call = false)
    (hcaught : ∀ n, 0 < n → n ≤ e.allowedAttempts call → ¬ e.Escapes env n)
    (jar : CookieJar) : RequestSpec e call env (e.request call env jar) := by
  obtain ⟨hpos, hbound⟩ := lastAttempt_bounds e call env
  have hmade := attemptsMade_lastAttempt hcaught
  have hescaped : (e.finalVars call env).escaped = none := by
    refine finalVars_escaped fun n hlow hhigh => hcaught n hlow ?_
    omega
  obtain ⟨mid, hevents, hloop, hsends, hreports⟩ := request_concluded hpass hescaped jar
  obtain ⟨hanswers, hfails⟩ := request_result_of_caught hpass hescaped jar
  obtain ⟨hresponse, herror⟩ := finalVars_latest e call env
  rw [hmade] at hsends hreports hresponse herror
  rw [hresponse] at hanswers hfails
  have hsent : sendCount (e.request call env jar).events = e.lastAttempt call env := by
    rw [hevents, List.cons_append, ← List.singleton_append, sendCount_append, sendCount_append,
      hsends]
    simp [sendCount, Event.isSend]
  have hkinds : (e.request call env jar).events.filter Event.isReport =
      (e.attemptsOf call env).filterMap fun n => (e.outcomeOf env n).report e.targetId := by
    rw [hevents, List.cons_append, List.filter_cons_of_neg (by simp [Event.isReport]),
      List.filter_append, hreports]
    simp [Event.isReport, HttpEngine.attemptsOf]
  constructor
  case sends => exact hsent
  case once =>
    intro hmethod
    have hone : e.allowedAttempts call = 1 := if_neg hmethod
    omega
  case backpressures =>
    rw [countP_reports (fun ev h => by cases ev <;> simp_all [Event.isBackpressure, Event.isReport]),
      hkinds, List.countP_filterMap]
    exact List.countP_congr fun n _ => by rw [(report_kind e.targetId _).1]
  case successes =>
    rw [← countP_settles,
      countP_reports (fun ev h => by cases ev <;> simp_all [Event.isSuccess, Event.isReport]),
      hkinds, List.countP_filterMap]
    exact List.countP_congr fun n _ => by rw [(report_kind e.targetId _).2]
  case transcripts =>
    have hnone : mid.filterMap Event.transcript = [] := by
      rw [List.filterMap_eq_nil_iff]
      intro ev hev
      rcases hloop ev hev with hreport | ⟨attempt, jar', rfl⟩
      · cases ev <;> simp [Event.isReport] at hreport <;> rfl
      · rfl
    rw [hevents, List.cons_append, List.filterMap_cons, List.filterMap_append, hnone, hresponse,
      herror]
    rfl
  case answers => exact hanswers
  case fails => exact hfails

omit [PyRuntime] in
/-- A GET that is throttled once is sent twice, though it might be sent three
times. -/
theorem requestSpec_limitedThenOk :
    let _ := PyRuntime.ascii
    let call : RequestCall := { method := "get".toList, url := "https://app.acme.test/".toList }
    let run := acmeEngine.request call limitedThenOk []
    RequestSpec acmeEngine call limitedThenOk run ∧ sendCount run.events = 2 ∧
      acmeEngine.allowedAttempts call = 3 := by
  intro runtime call run
  have hspec : RequestSpec acmeEngine call limitedThenOk run := by
    refine requestSpec (by decide +kernel) (fun n hpos hle => ?_) []
    rintro ⟨msg, h⟩
    cases h
  have hlast : acmeEngine.lastAttempt call limitedThenOk = 2 := by decide +kernel
  exact ⟨hspec, hspec.sends.trans hlast, by decide +kernel⟩

/-! ## Evidence -/

/-- The call wrote a transcript and ended as calls do. -/
structure LeavesEvidence (run : RequestRun) : Prop where
  recorded : ∃ args, Event.record args ∈ run.events
  ends : (∃ r, run.result = .ok r) ∨ ∃ msg, run.result = .error (.connectionError msg)

/-- The first attempt of those a call has whose outcome is not retried, if
there is one. -/
def HttpEngine.firstUnretried (e : HttpEngine) (call : RequestCall) (env : CallEnv) : Option Nat :=
  (List.range' 1 (e.maxAttempts (upper call.method))).find? fun n => !(e.outcomeOf env n).retried

/-- The loop ends with it. -/
theorem attemptsMade_firstUnretried (e : HttpEngine) (call : RequestCall) (env : CallEnv) :
    e.attemptsMade env (e.maxAttempts (upper call.method)) 0 =
      (e.firstUnretried call env).getD (e.maxAttempts (upper call.method)) := by
  have hstop := attemptsMade_stop e env (e.maxAttempts (upper call.method)) 0
  unfold stop at hstop
  rw [Nat.zero_add, Nat.zero_add, Nat.zero_add] at hstop
  exact hstop

theorem not_retried_of_escapes {e : HttpEngine} {env : CallEnv} {n : Nat}
    (h : e.Escapes env n) : (e.outcomeOf env n).retried = false := by
  obtain ⟨msg, hmsg⟩ := h
  rw [HttpEngine.outcomeOf, hmsg]
  rfl

/-- An exception escapes some attempt that is made exactly if it escapes the
one the loop ends with. -/
theorem caught_iff (e : HttpEngine) (call : RequestCall) (env : CallEnv) :
    (∀ n, 0 < n → n ≤ e.attemptsMade env (e.maxAttempts (upper call.method)) 0 →
      ¬ e.Escapes env n) ↔ ∀ n, e.firstUnretried call env = some n → ¬ e.Escapes env n := by
  rw [attemptsMade_firstUnretried]
  constructor
  · intro h n hfirst
    rw [hfirst] at h
    have hmem := List.mem_of_find?_eq_some hfirst
    exact h n (by simp only [List.mem_range'_1] at hmem; omega) le_rfl
  · intro h n hpos hle hescapes
    have hnot := not_retried_of_escapes hescapes
    cases hfirst : e.firstUnretried call env with
    | none =>
      rw [hfirst] at hle
      have hall := List.find?_eq_none.mp hfirst n
        (List.mem_range'_1.mpr ⟨hpos, by simp only [Option.getD_none] at hle; omega⟩)
      simp [hnot] at hall
    | some last =>
      rw [hfirst] at hle h
      have hlast : n = last := by
        by_contra hne
        have hbefore : n < stop (fun n => !(e.outcomeOf env n).retried) 0
            (e.maxAttempts (upper call.method)) := by
          rw [← attemptsMade_stop, attemptsMade_firstUnretried, hfirst]
          simp only [Option.getD_some] at hle ⊢
          omega
        have := undecided_before_stop hpos hbefore
        simp [hnot] at this
      exact h n (by rw [hlast]) hescapes

/-- **When a call that sent leaves evidence**: when the first attempt that is
not retried ends in a response. -/
theorem leavesEvidence_iff {e : HttpEngine} {call : RequestCall} {env : CallEnv} {jar : CookieJar}
    (hsent : 0 < sendCount (e.request call env jar).events) :
    LeavesEvidence (e.request call env jar) ↔
      ∀ n, e.firstUnretried call env = some n → ¬ e.Escapes env n := by
  have hpass : e.blocks call = false := by
    by_contra h
    rw [(request_blocked (by simpa using h) env jar).1] at hsent
    simp [sendCount] at hsent
  rw [← caught_iff]
  constructor
  · intro h n hpos hle hescapes
    have hsome : (e.finalVars call env).escaped.isSome = true :=
      (varsAfter_isSome e env (e.maxAttempts (upper call.method)) ⟨0, none, none, none⟩).2.mpr
        (.inr ⟨n, hpos, by rwa [Nat.zero_add], hescapes⟩)
    obtain ⟨msg, hmsg⟩ := Option.isSome_iff_exists.mp hsome
    have hguard : e.guardCall call (upper call.method) = none := by
      simpa [HttpEngine.blocks] using hpass
    have hresult : (e.request call env jar).result = .error (.clientError msg) := by
      rw [request_result, hguard]
      simp only [LoopVars.result, hmsg]
    rcases h.ends with ⟨r, hr⟩ | ⟨text, hr⟩
    · cases hresult.symm.trans hr
    · cases hresult.symm.trans hr
  · intro h
    have hescaped := finalVars_escaped h
    obtain ⟨mid, hevents, -⟩ := request_concluded hpass hescaped jar
    obtain ⟨hanswers, hfails⟩ := request_result_of_caught hpass hescaped jar
    constructor
    case recorded =>
      rw [hevents]
      exact ⟨_, List.mem_append_right _ (List.mem_singleton.mpr rfl)⟩
    case ends =>
      cases hresponse : (e.finalVars call env).response with
      | none => exact .inr (hfails.mpr hresponse)
      | some r => exact .inl ⟨_, hanswers r hresponse⟩

omit [PyRuntime] in
theorem limitedThenOk_leavesEvidence :
    let _ := PyRuntime.ascii
    let call : RequestCall := { method := "get".toList, url := "https://app.acme.test/".toList }
    LeavesEvidence (acmeEngine.request call limitedThenOk []) := by
  intro runtime call
  refine (leavesEvidence_iff (by decide +kernel)).mpr fun n _ => ?_
  rintro ⟨msg, h⟩
  cases h

/-- A server that answers with a body no decoder takes. -/
def brokenBody : CallEnv where
  answers _ _ := .otherError "DecodingError: incorrect header check".toList
  elapsedMs _ := 1
  transcriptId := "t".toList

omit [PyRuntime] in
/-- The exception leaves the call, which was sent, without a transcript. -/
theorem brokenBody_no_evidence :
    let _ := PyRuntime.ascii
    let call : RequestCall := { method := "GET".toList, url := "https://app.acme.test/".toList }
    0 < sendCount (acmeEngine.request call brokenBody []).events ∧
      ¬ LeavesEvidence (acmeEngine.request call brokenBody []) := by
  intro runtime call
  refine ⟨by decide +kernel, fun h => ?_⟩
  obtain ⟨args, hargs⟩ := h.recorded
  have hnone : (acmeEngine.request call brokenBody []).events.filterMap Event.transcript = [] := by
    decide +kernel
  rw [List.filterMap_eq_nil_iff] at hnone
  cases hnone _ hargs

end Sentinel.Core
