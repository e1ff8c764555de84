/-
Sentinel.Core.HttpEngineTheorems — the guarantees of the choke point.

`attemptOnce_spec` says once what one attempt can do, `retryLoop_spec`
carries it through the loop, and `request_cases` splits a call: a guard
stopped it and nothing happened, or one token was acquired and the loop
ran. The gate, the payment for sends and the isolation of personas are
read off these.
-/
import Sentinel.Core.HttpEngine
import Sentinel.Core.ScopeGuardTheorems
import Sentinel.Trace.Ledger
import Mathlib.Algebra.Order.Ring.Rat
import Mathlib.Tactic.Ring

namespace Sentinel.Core

open Sentinel.Py Sentinel.Trace

/-! ## Classifying effects -/

def Event.isSend : Event → Bool
  | .send _ _ => true
  | _ => false

/-- A report to the limiter about a response. -/
def Event.isReport : Event → Bool
  | .reportBackpressure _ _ | .reportSuccess _ => true
  | _ => false

/-- The tokens an effect takes from a target's bucket. -/
def Event.tokens (targetId : Str) : Event → Rat
  | .acquire target cost => if target = targetId then cost else 0
  | _ => 0

/-- Requests handed to the client. -/
def sendCount (events : List Event) : Nat := events.countP Event.isSend

/-- Tokens acquired for a target. -/
def tokensAcquired (targetId : Str) (events : List Event) : Rat :=
  (events.map (Event.tokens targetId)).sum

@[simp] theorem sendCount_append (xs ys : List Event) :
    sendCount (xs ++ ys) = sendCount xs + sendCount ys := List.countP_append

@[simp] theorem tokensAcquired_append (targetId : Str) (xs ys : List Event) :
    tokensAcquired targetId (xs ++ ys) =
      tokensAcquired targetId xs + tokensAcquired targetId ys := by
  simp [tokensAcquired]

/-- An attempt whose outcome makes the loop go on: a rate-limited
response, a timeout or a transport error. -/
def WireAnswer.retried : WireAnswer → Bool
  | .response r => r.statusCode ∈ rateLimitedStatusCodes
  | .timeout _ | .transportError _ => true
  | .otherError _ => false

variable [PyRuntime]

/-! ## The retry loop -/

omit [PyRuntime] in
/-- Taking in an outcome adds at most a report and keeps the jar and the
attempt count; the loop goes on when the outcome asks for a retry. -/
theorem absorb_spec (e : HttpEngine) (env : CallEnv) (st : LoopState) (answer : WireAnswer) :
    ∃ reports, (e.absorb env st answer).1.events = st.events ++ reports ∧
      (∀ ev ∈ reports, ev.isReport = true) ∧ (e.absorb env st answer).1.jar = st.jar ∧
      (e.absorb env st answer).1.attempt = st.attempt ∧
      (e.absorb env st answer).2 = answer.retried := by
  cases answer with
  | response r =>
    by_cases hlimited : r.statusCode ∈ rateLimitedStatusCodes
    · refine ⟨[.reportBackpressure e.targetId ("HTTP ".toList ++ ofInt r.statusCode)], ?_⟩
      simp [HttpEngine.absorb, WireAnswer.retried, Event.isReport, hlimited]
    · refine ⟨[.reportSuccess e.targetId], ?_⟩
      simp [HttpEngine.absorb, WireAnswer.retried, Event.isReport, hlimited]
  | timeout msg | transportError msg | otherError msg =>
    exact ⟨[], by simp [HttpEngine.absorb, WireAnswer.retried]⟩

/-- What one attempt does: one send of the given request, at most a
report after it, the client's jar, and another round if the outcome asks
for one. -/
theorem attemptOnce_spec (e : HttpEngine) (req : WireRequest) (env : CallEnv) (st : LoopState) :
    ∃ reports,
      (e.attemptOnce req env st).1.events = st.events ++ Event.send req
          (e.client.request (env.answers (st.attempt + 1)) st.jar req).wire :: reports ∧
        (∀ ev ∈ reports, ev.isReport = true) ∧
        (e.attemptOnce req env st).1.jar =
          (e.client.request (env.answers (st.attempt + 1)) st.jar req).jar ∧
        (e.attemptOnce req env st).1.attempt = st.attempt + 1 ∧
        (e.attemptOnce req env st).2 = (e.client.outcome (env.answers (st.attempt + 1))).retried := by
  obtain ⟨reports, hevents, hreports, hjar, hattempt, hgo⟩ := absorb_spec e env
    { st with
      attempt := st.attempt + 1
      jar := (e.client.request (env.answers (st.attempt + 1)) st.jar req).jar
      events := st.events ++
        [.send req (e.client.request (env.answers (st.attempt + 1)) st.jar req).wire] }
    (e.client.request (env.answers (st.attempt + 1)) st.jar req).answer
  refine ⟨reports, ?_, hreports, hjar, hattempt, ?_⟩
  · unfold HttpEngine.attemptOnce
    simpa using hevents
  · rw [← request_answer e.client _ st.jar req]
    exact hgo

/-- An effect of the retry loop: a report, or a send of the request whose
wire requests the client made for some attempt. -/
def LoopEvent (e : HttpEngine) (req : WireRequest) (env : CallEnv) (ev : Event) : Prop :=
  ev.isReport = true ∨ ∃ attempt jar,
    ev = .send req (e.client.request (env.answers attempt) jar req).wire

/-- How many attempts the loop makes when `left` are left after attempt
number `attempt`. -/
def HttpEngine.attemptsMade (e : HttpEngine) (env : CallEnv) : Nat → Nat → Nat
  | 0, _ => 0
  | left + 1, attempt =>
      1 + if (e.client.outcome (env.answers (attempt + 1))).retried then
        e.attemptsMade env left (attempt + 1) else 0

omit [PyRuntime] in
theorem sendCount_reports {reports : List Event} (h : ∀ ev ∈ reports, ev.isReport = true) :
    sendCount reports = 0 := by
  rw [sendCount, List.countP_eq_zero]
  intro ev hev
  have := h ev hev
  cases ev <;> simp [Event.isReport, Event.isSend] at this ⊢

/-- The loop only adds effects of its own, and counts its sends. -/
theorem retryLoop_spec (e : HttpEngine) (req : WireRequest) (env : CallEnv) (left : Nat)
    (st : LoopState) :
    ∃ new, (e.retryLoop req env left st).events = st.events ++ new ∧
      (∀ ev ∈ new, LoopEvent e req env ev) ∧
      sendCount new = e.attemptsMade env left st.attempt := by
  induction left generalizing st with
  | zero => exact ⟨[], by simp [HttpEngine.retryLoop], by simp, rfl⟩
  | succ left ih =>
    obtain ⟨reports, hevents, hreports, hjar, hattempt, hgo⟩ := attemptOnce_spec e req env st
    have hown : ∀ ev ∈ Event.send req
        (e.client.request (env.answers (st.attempt + 1)) st.jar req).wire :: reports,
        LoopEvent e req env ev := by
      intro ev hev
      rcases List.mem_cons.mp hev with rfl | hev
      · exact Or.inr ⟨st.attempt + 1, st.jar, rfl⟩
      · exact Or.inl (hreports ev hev)
    unfold HttpEngine.retryLoop HttpEngine.attemptsMade
    generalize hstep : e.attemptOnce req env st = res at hevents hjar hattempt hgo
    obtain ⟨st', go⟩ := res
    dsimp only at hevents hattempt hgo
    subst hgo
    cases hretried : (e.client.outcome (env.answers (st.attempt + 1))).retried with
    | true =>
      obtain ⟨new, hnew, hloop, hcount⟩ := ih st'
      refine ⟨_ :: reports ++ new, by simpa [hevents] using hnew, ?_, ?_⟩
      · intro ev hev
        exact (List.mem_append.mp hev).elim (hown ev) (hloop ev)
      · rw [hattempt] at hcount
        simp only [sendCount_append, hcount, if_true]
        simp only [sendCount, List.countP_cons, Event.isSend, if_true]
        rw [← sendCount, sendCount_reports hreports]
    | false =>
      refine ⟨_ :: reports, by simpa using hevents, hown, ?_⟩
      simp only [sendCount, List.countP_cons, Event.isSend, if_true]
      rw [← sendCount, sendCount_reports hreports]
      simp

theorem attemptsMade_pos (e : HttpEngine) (env : CallEnv) {left : Nat} (hleft : 0 < left)
    (attempt : Nat) : 0 < e.attemptsMade env left attempt := by
  cases left with
  | zero => exact absurd hleft (lt_irrefl 0)
  | succ left => unfold HttpEngine.attemptsMade; omega

/-- The loop stops at one attempt exactly when it has no other, or the
first outcome is not one to retry. -/
theorem attemptsMade_eq_one_iff (e : HttpEngine) (env : CallEnv) (left attempt : Nat) :
    e.attemptsMade env (left + 1) attempt = 1 ↔
      left = 0 ∨ (e.client.outcome (env.answers (attempt + 1))).retried = false := by
  unfold HttpEngine.attemptsMade
  cases (e.client.outcome (env.answers (attempt + 1))).retried with
  | false => simp
  | true =>
    cases left with
    | zero => simp [HttpEngine.attemptsMade]
    | succ left =>
      have hmore := attemptsMade_pos e env (Nat.zero_lt_succ left) (attempt + 1)
      rw [Nat.succ_eq_add_one] at hmore
      simp only [if_true, Nat.add_one_ne_zero, Bool.true_eq_false, or_self, iff_false]
      omega

/-! ## One call -/

/-- What the guards say to a call. -/
def HttpEngine.blocks (e : HttpEngine) (call : RequestCall) : Bool :=
  (e.guardCall call (upper call.method)).isSome

/-- A call that passed the guards: one token, then the loop, then at most
a transcript. -/
structure Dispatched (e : HttpEngine) (call : RequestCall) (env : CallEnv) (run : RequestRun)
    (mid tail : List Event) : Prop where
  events : run.events = .acquire e.targetId 1 :: mid ++ tail
  loop : ∀ ev ∈ mid, LoopEvent e (e.wireRequest call) env ev
  sends : sendCount mid = e.attemptsMade env (e.maxAttempts (upper call.method)) 0
  transcript : ∀ ev ∈ tail, ∃ args, ev = .record args
  noViolation : ∀ d, run.result ≠ .error (.scopeViolation d)

theorem request_blocked {e : HttpEngine} {call : RequestCall} (hblocked : e.blocks call = true)
    (env : CallEnv) (jar : CookieJar) :
    (e.request call env jar).events = [] ∧ (e.request call env jar).jar = jar := by
  obtain ⟨err, herr⟩ := Option.isSome_iff_exists.mp hblocked
  simp [HttpEngine.request, herr]

/-- Concluding a call adds at most a transcript, keeps the jar and raises
no violation. -/
theorem conclude_spec (e : HttpEngine) (call : RequestCall) (env : CallEnv) (st : LoopState) :
    (∃ tail, (e.conclude call env st).events = st.events ++ tail ∧
      ∀ ev ∈ tail, ∃ args, ev = .record args) ∧
    (e.conclude call env st).jar = st.jar ∧
    ∀ d, (e.conclude call env st).result ≠ .error (.scopeViolation d) := by
  unfold HttpEngine.conclude
  cases st.escaped with
  | some msg => exact ⟨⟨[], by simp⟩, rfl, by simp⟩
  | none =>
    refine ⟨⟨_, rfl, fun ev hev => ⟨_, List.mem_singleton.mp hev⟩⟩, rfl, ?_⟩
    cases st.response <;> simp

theorem request_dispatched {e : HttpEngine} {call : RequestCall} (hpass : e.blocks call = false)
    (env : CallEnv) (jar : CookieJar) :
    ∃ mid tail, Dispatched e call env (e.request call env jar) mid tail := by
  have hguard : e.guardCall call (upper call.method) = none := by
    simpa [HttpEngine.blocks] using hpass
  obtain ⟨mid, hevents, hloop, hsends⟩ := retryLoop_spec e (e.wireRequest call) env
    (e.maxAttempts (upper call.method)) (e.loopStart jar)
  simp only [HttpEngine.request, hguard, HttpEngine.dispatch]
  generalize e.retryLoop _ env _ _ = st at hevents
  obtain ⟨⟨tail, htail, htranscript⟩, -, hresult⟩ := conclude_spec e call env st
  exact ⟨mid, tail, by rw [htail, hevents]; rfl, hloop, hsends, htranscript, hresult⟩

/-- Every send of a call hands its own request to the client, behind the
acquired token. -/
theorem send_mem_request {e : HttpEngine} {call : RequestCall} {env : CallEnv} {jar : CookieJar}
    {pre post : List Event} {req : WireRequest} {wire : List WireRequest}
    (hevents : (e.request call env jar).events = pre ++ .send req wire :: post) :
    e.blocks call = false ∧ .acquire e.targetId 1 ∈ pre ∧ req = e.wireRequest call ∧
      ∃ attempt jar', wire = (e.client.request (env.answers attempt) jar' req).wire := by
  cases hblocks : e.blocks call with
  | true =>
    rw [(request_blocked hblocks env jar).1] at hevents
    simp at hevents
  | false =>
    obtain ⟨mid, tail, hrun⟩ := request_dispatched hblocks env jar
    have hmem : Event.send req wire ∈ mid ++ tail := by
      have : Event.send req wire ∈ (e.request call env jar).events := by simp [hevents]
      simpa [hrun.events] using this
    refine ⟨rfl, ?_, ?_⟩
    · cases pre with
      | nil => simp [hrun.events] at hevents
      | cons first pre =>
        rw [hrun.events] at hevents
        simp only [List.cons_append, List.cons.injEq] at hevents
        rw [hevents.1]
        exact List.mem_cons_self
    · rcases List.mem_append.mp hmem with hmid | htail
      · rcases hrun.loop _ hmid with hreport | ⟨attempt, jar', heq⟩
        · simp [Event.isReport] at hreport
        · rw [Event.send.injEq] at heq
          obtain ⟨rfl, rfl⟩ := heq
          exact ⟨rfl, attempt, jar', rfl⟩
      · obtain ⟨args, hargs⟩ := hrun.transcript _ htail
        simp at hargs

/-- A call that the guards let through was allowed by the scope guard
and, unless it skipped it, cleared by the destructive guard. -/
theorem blocks_eq_false_iff (e : HttpEngine) (call : RequestCall) :
    e.blocks call = false ↔ e.scopeGuard.allows (upper call.method) call.url = true ∧
      (call.skipDestructiveGuard = false →
        e.destructiveGuard.clears (upper call.method) call.url call.linkText = true) := by
  unfold HttpEngine.blocks HttpEngine.guardCall ScopeGuard.allows DestructiveActionGuard.clears
  cases e.scopeGuard.evaluate (upper call.method) call.url with
  | error err => simp
  | ok decision =>
    dsimp only
    cases decision.allowed with
    | false => simp
    | true =>
      cases call.skipDestructiveGuard with
      | true => simp
      | false =>
        cases e.destructiveGuard.check (upper call.method) call.url call.linkText with
        | error err => simp
        | ok check => dsimp only; cases check.isSuspect <;> simp

/-! ## Sequences of calls -/

/-- A step of a sequence is a call made on the jar it found. -/
theorem mem_steps {e : HttpEngine} {calls : List (RequestCall × CallEnv)} {jar : CookieJar}
    {s : Step} (hs : s ∈ e.steps calls jar) : s.run = e.request s.call s.env s.jarBefore := by
  induction calls generalizing jar with
  | nil => simp [HttpEngine.steps] at hs
  | cons head rest ih =>
    rcases List.mem_cons.mp hs with rfl | hs
    · rfl
    · exact ih hs

/-- What the choke point guarantees of one call: its sends were gated and
come behind a token, a violation left no trace, the scope guard is never
skipped, and a client that does not follow redirects fetched the call's
own URL and nothing else. -/
structure Gated (e : HttpEngine) (s : Step) : Prop where
  sends : ∀ pre req wire post, s.run.events = pre ++ .send req wire :: post →
    e.scopeGuard.allows req.method req.url = true ∧
    (s.call.skipDestructiveGuard = false →
      e.destructiveGuard.clears req.method req.url s.call.linkText = true) ∧
    .acquire e.targetId 1 ∈ pre
  violation : ∀ d, s.run.result = .error (.scopeViolation d) →
    s.run.events = [] ∧ s.run.jar = s.jarBefore
  scopeNotSkipped : e.scopeGuard.allows (upper s.call.method) s.call.url = false →
    s.run.events = []
  noRedirect : e.client.followRedirects = false → ∀ req wire, .send req wire ∈ s.run.events →
    wire.map (fun w => (w.method, w.url)) = [(upper s.call.method, s.call.url)]

theorem request_gated (e : HttpEngine) (call : RequestCall) (env : CallEnv) (jar : CookieJar) :
    Gated e ⟨jar, call, env, e.request call env jar⟩ where
  sends := by
    intro pre req wire post hevents
    obtain ⟨hpass, hpaid, rfl, -⟩ := send_mem_request hevents
    obtain ⟨hscope, hclear⟩ := (blocks_eq_false_iff e call).mp hpass
    exact ⟨hscope, hclear, hpaid⟩
  violation := by
    intro d hd
    cases hblocks : e.blocks call with
    | true => exact request_blocked hblocks env jar
    | false =>
      obtain ⟨mid, tail, hrun⟩ := request_dispatched hblocks env jar
      exact absurd hd (hrun.noViolation d)
  scopeNotSkipped := by
    intro hscope
    have hblocks : e.blocks call = true := by
      by_contra hpass
      have := ((blocks_eq_false_iff e call).mp (by simpa using hpass)).1
      exact Bool.false_ne_true (hscope.symm.trans this)
    exact (request_blocked hblocks env jar).1
  noRedirect := by
    intro hclient req wire hmem
    obtain ⟨pre, post, hevents⟩ := List.append_of_mem hmem
    obtain ⟨-, -, rfl, attempt, jar', rfl⟩ := send_mem_request hevents
    rw [AsyncClient.request, exchange_wire_plain hclient]
    rfl

/-- Every call of every sequence is gated. -/
theorem steps_gated (e : HttpEngine) (calls : List (RequestCall × CallEnv)) (jar : CookieJar) :
    ∀ s ∈ e.steps calls jar, Gated e s := by
  intro s hs
  have hrun := mem_steps hs
  obtain ⟨jarBefore, call, env, run⟩ := s
  dsimp only at hrun
  rw [hrun]
  exact request_gated e call env jarBefore

/-- An engine for one host of a verified target, with the defaults. -/
def acmeEngine : HttpEngine :=
  .init (.init ["app.acme.test".toList] [] true) "target-1".toList "scan-1".toList

/-- A redirect to a host out of scope. -/
def redirectAway : CallEnv where
  answers _ _ := .response
    { statusCode := 302, headers := [("Location".toList, "https://evil.test/".toList)] }
  elapsedMs _ := 1
  transcriptId := "t".toList

omit [PyRuntime] in
/-- A call whose answer redirects out of scope: it is sent, and only its
own URL is fetched. -/
theorem steps_gated_redirect :
    let _ := PyRuntime.ascii
    let call : RequestCall := { method := "get".toList, url := "https://app.acme.test/go".toList }
    ∃ s ∈ acmeEngine.steps [(call, redirectAway)] [], Gated acmeEngine s ∧
      sendCount s.run.events = 1 ∧
      ∀ req wire, .send req wire ∈ s.run.events →
        wire.map (fun w => (w.method, w.url)) = [("GET".toList, "https://app.acme.test/go".toList)] := by
  intro runtime call
  refine ⟨_, List.mem_singleton_self _, ?_⟩
  have hgated := steps_gated acmeEngine [(call, redirectAway)] [] _ (List.mem_singleton_self _)
  exact ⟨hgated, by decide +kernel, hgated.noRedirect rfl⟩

/-! ## Paying for sends -/

/-- What an effect does to the account of paid sends. -/
def Event.credit (targetId : Str) (ev : Event) : Rat :=
  ev.tokens targetId - if ev.isSend then 1 else 0

omit [PyRuntime] in
theorem balance_credit (targetId : Str) (events : List Event) :
    balance (Event.credit targetId) events = tokensAcquired targetId events - sendCount events := by
  induction events with
  | nil => simp [balance, tokensAcquired, sendCount]
  | cons ev rest ih =>
    have hhead : balance (Event.credit targetId) (ev :: rest) =
      ev.credit targetId + balance (Event.credit targetId) rest := rfl
    rw [hhead, ih]
    cases hsend : ev.isSend <;> simp [Event.credit, tokensAcquired, sendCount, hsend] <;> ring

omit [PyRuntime] in
theorem solvent_credit_iff (targetId : Str) (events : List Event) :
    Solvent (Event.credit targetId) events ↔
      ∀ p, p <+: events → (sendCount p : Rat) ≤ tokensAcquired targetId p := by
  refine forall_congr' fun p => imp_congr_right fun _ => ?_
  rw [balance_credit, sub_nonneg]

/-- Behind the acquire of a call nothing takes a token. -/
theorem Dispatched.no_tokens {e : HttpEngine} {call : RequestCall} {env : CallEnv}
    {run : RequestRun} {mid tail : List Event} (h : Dispatched e call env run mid tail)
    {ev : Event} (hev : ev ∈ mid ++ tail) : ev.tokens e.targetId = 0 := by
  rcases List.mem_append.mp hev with hmid | htail
  · rcases h.loop ev hmid with hreport | ⟨attempt, jar, rfl⟩
    · cases ev <;> simp [Event.isReport] at hreport <;> rfl
    · rfl
  · obtain ⟨args, rfl⟩ := h.transcript ev htail
    rfl

theorem Dispatched.sendCount {e : HttpEngine} {call : RequestCall} {env : CallEnv}
    {run : RequestRun} {mid tail : List Event} (h : Dispatched e call env run mid tail) :
    sendCount (mid ++ tail) = e.attemptsMade env (e.maxAttempts (upper call.method)) 0 := by
  have htail : Sentinel.Core.sendCount tail = 0 := by
    rw [Sentinel.Core.sendCount, List.countP_eq_zero]
    intro ev hev
    obtain ⟨args, rfl⟩ := h.transcript ev hev
    simp [Event.isSend]
  rw [sendCount_append, htail, h.sends, add_zero]

omit [PyRuntime] in
theorem tokensAcquired_eq_zero {targetId : Str} {events : List Event}
    (h : ∀ ev ∈ events, ev.tokens targetId = 0) : tokensAcquired targetId events = 0 := by
  rw [tokensAcquired, List.map_congr_left h]
  simp

/-- The balance of a dispatched call: its one token less its sends. -/
theorem Dispatched.balance {e : HttpEngine} {call : RequestCall} {env : CallEnv}
    {run : RequestRun} {mid tail : List Event} (h : Dispatched e call env run mid tail) :
    balance (Event.credit e.targetId) run.events =
      1 - (e.attemptsMade env (e.maxAttempts (upper call.method)) 0 : ℚ) := by
  have htokens : tokensAcquired e.targetId (mid ++ tail) = 0 :=
    tokensAcquired_eq_zero fun ev => h.no_tokens
  have hsends := h.sendCount
  rw [balance_credit, h.events, List.cons_append, ← List.singleton_append, tokensAcquired_append,
    htokens, sendCount_append, hsends]
  simp [tokensAcquired, Event.tokens, Sentinel.Core.sendCount, Event.isSend]

/-- A call that sends once is solvent at every moment. -/
theorem Dispatched.solvent {e : HttpEngine} {call : RequestCall} {env : CallEnv}
    {run : RequestRun} {mid tail : List Event} (h : Dispatched e call env run mid tail)
    (hone : e.attemptsMade env (e.maxAttempts (upper call.method)) 0 = 1) :
    Solvent (Event.credit e.targetId) run.events := by
  intro p hp
  rw [h.events, List.cons_append] at hp
  cases p with
  | nil => simp [Trace.balance]
  | cons first p =>
    obtain ⟨rfl, hrest⟩ := List.cons_prefix_cons.mp hp
    have htokens : tokensAcquired e.targetId p = 0 :=
      tokensAcquired_eq_zero fun ev hev => h.no_tokens (hrest.subset hev)
    have hsends : Sentinel.Core.sendCount p ≤ 1 := by
      rw [← hone, ← h.sendCount]
      exact hrest.sublist.countP_le
    rw [balance_credit, ← List.singleton_append, tokensAcquired_append, htokens, sendCount_append,
      sub_nonneg]
    simpa [tokensAcquired, Event.tokens, Sentinel.Core.sendCount, Event.isSend] using hsends

/-- The calls that send at most once: a guard stops them, they have no
retries, or the first outcome is not one to retry. -/
def HttpEngine.SendsOnce (e : HttpEngine) (call : RequestCall) (env : CallEnv) : Prop :=
  e.blocks call = true ∨ upper call.method ∉ idempotentMethods ∨ e.maxRetries = 0 ∨
    (e.client.outcome (env.answers 1)).retried = false

theorem attemptsMade_eq_one_iff_sendsOnce {e : HttpEngine} {call : RequestCall}
    (hpass : e.blocks call = false) (env : CallEnv) :
    e.attemptsMade env (e.maxAttempts (upper call.method)) 0 = 1 ↔ e.SendsOnce call env := by
  unfold HttpEngine.maxAttempts HttpEngine.SendsOnce
  rw [Nat.add_comm, attemptsMade_eq_one_iff]
  by_cases hmethod : upper call.method ∈ idempotentMethods <;> simp [hpass, hmethod]

/-- One call: it never gains, it breaks even exactly when it sends at most
once, and then it is solvent throughout. -/
theorem request_balance (e : HttpEngine) (call : RequestCall) (env : CallEnv) (jar : CookieJar) :
    balance (Event.credit e.targetId) (e.request call env jar).events ≤ 0 ∧
      (balance (Event.credit e.targetId) (e.request call env jar).events = 0 ↔
        e.SendsOnce call env) ∧
      (e.SendsOnce call env → Solvent (Event.credit e.targetId) (e.request call env jar).events) := by
  cases hblocks : e.blocks call with
  | true =>
    rw [(request_blocked hblocks env jar).1]
    refine ⟨le_rfl, ?_, fun _ => Solvent.nil _⟩
    simp [Trace.balance, HttpEngine.SendsOnce, hblocks]
  | false =>
    obtain ⟨mid, tail, hrun⟩ := request_dispatched hblocks env jar
    have hpos : 0 < e.attemptsMade env (e.maxAttempts (upper call.method)) 0 :=
      attemptsMade_pos e env (by unfold HttpEngine.maxAttempts; omega) 0
    rw [hrun.balance, ← attemptsMade_eq_one_iff_sendsOnce hblocks, sub_nonpos, sub_eq_zero]
    refine ⟨by exact_mod_cast hpos, ?_, hrun.solvent⟩
    rw [eq_comm, Nat.cast_eq_one]

/-- Every send is paid for, at every moment of a sequence of calls,
exactly when each of its calls sends at most once: retries are not paid. -/
theorem sends_paid_iff (e : HttpEngine) (calls : List (RequestCall × CallEnv)) (jar : CookieJar) :
    (∀ p, p <+: e.history calls jar → (sendCount p : ℚ) ≤ tokensAcquired e.targetId p) ↔
      ∀ s ∈ e.steps calls jar, e.blocks s.call = true ∨ upper s.call.method ∉ idempotentMethods ∨
        e.maxRetries = 0 ∨ (e.client.outcome (s.env.answers 1)).retried = false := by
  rw [← solvent_credit_iff]
  constructor
  · intro hsolvent s hs
    have hsum := hsolvent.balance_nonneg
    rw [HttpEngine.history, balance_flatMap] at hsum
    have hzero := weight_eq_zero_of_balance_nonneg (fun s hs => ?_) hsum s hs
    · rw [mem_steps hs] at hzero
      exact (request_balance e s.call s.env s.jarBefore).2.1.mp hzero
    · rw [mem_steps hs]
      exact (request_balance e s.call s.env s.jarBefore).1
  · intro honce
    refine Solvent.flatMap fun s hs => ?_
    rw [mem_steps hs]
    exact (request_balance e s.call s.env s.jarBefore).2.2 (honce s hs)

/-- A 429 first, then a 200. -/
def limitedThenOk : CallEnv where
  answers attempt _ := .response { statusCode := if attempt = 1 then 429 else 200 }
  elapsedMs _ := 1
  transcriptId := "t".toList

omit [PyRuntime] in
/-- One GET that is answered 429 and then 200 sends twice on one token. -/
theorem retry_not_paid :
    let _ := PyRuntime.ascii
    ¬ ∀ p, p <+: acmeEngine.history
        [({ method := "GET".toList, url := "https://app.acme.test/".toList }, limitedThenOk)] [] →
      (sendCount p : ℚ) ≤ tokensAcquired acmeEngine.targetId p := by
  intro runtime hpaid
  have hlast := hpaid _ (List.prefix_refl _)
  revert hlast
  decide +kernel

end Sentinel.Core
