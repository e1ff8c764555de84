/-
Sentinel.Core.RequestOutcome — what a call of the engine returns.

The retry loop's variables follow the outcomes of the attempts alone
(`retryLoop_vars`), so the result of a call does not depend on the cookie
jar, and it can be read off the outcomes whether the call comes back.
-/
import Sentinel.Core.HttpEngineTheorems

namespace Sentinel.Core

open Sentinel.Py

/-- The loop's variables, without the jar and the effects. -/
structure LoopVars where
  attempt : Nat
  response : Option RecordedResponse
  error : Option Str
  escaped : Option Str
  deriving DecidableEq, Repr

def LoopState.vars (st : LoopState) : LoopVars :=
  ⟨st.attempt, st.response, st.error, st.escaped⟩

/-- The variables after the next outcome. -/
def LoopVars.take (v : LoopVars) (env : CallEnv) : WireAnswer → LoopVars
  | .response r => { v with
      attempt := v.attempt + 1
      response := some ⟨r.statusCode, r.headers, some r.content, env.elapsedMs (v.attempt + 1)⟩ }
  | .timeout msg =>
      { v with attempt := v.attempt + 1, error := some ("timeout: ".toList ++ msg) }
  | .transportError msg =>
      { v with attempt := v.attempt + 1, error := some ("transport_error: ".toList ++ msg) }
  | .otherError msg => { v with attempt := v.attempt + 1, escaped := some msg }

variable [PyRuntime]

/-- The variables after the loop. -/
def HttpEngine.varsAfter (e : HttpEngine) (env : CallEnv) : Nat → LoopVars → LoopVars
  | 0, v => v
  | left + 1, v =>
      let answer := e.client.outcome (env.answers (v.attempt + 1))
      if answer.retried then e.varsAfter env left (v.take env answer) else v.take env answer

theorem attemptOnce_vars (e : HttpEngine) (req : WireRequest) (env : CallEnv) (st : LoopState) :
    (e.attemptOnce req env st).1.vars =
      st.vars.take env (e.client.outcome (env.answers (st.attempt + 1))) := by
  rw [HttpEngine.attemptOnce, ← request_answer e.client _ st.jar req]
  cases (e.client.request (env.answers (st.attempt + 1)) st.jar req).answer with
  | response r =>
    by_cases hlimited : r.statusCode ∈ rateLimitedStatusCodes
    · simp [HttpEngine.absorb, LoopState.vars, LoopVars.take, hlimited]
    · simp [HttpEngine.absorb, LoopState.vars, LoopVars.take, hlimited]
  | timeout msg | transportError msg | otherError msg => rfl

/-- **The loop follows the outcomes.** -/
theorem retryLoop_vars (e : HttpEngine) (req : WireRequest) (env : CallEnv) (left : Nat)
    (st : LoopState) : (e.retryLoop req env left st).vars = e.varsAfter env left st.vars := by
  induction left generalizing st with
  | zero => rfl
  | succ left ih =>
    obtain ⟨_, _, _, _, _, hgo⟩ := attemptOnce_spec e req env st
    have hvars := attemptOnce_vars e req env st
    unfold HttpEngine.retryLoop HttpEngine.varsAfter
    generalize e.attemptOnce req env st = res at hgo hvars
    obtain ⟨st', go⟩ := res
    dsimp only at hgo hvars
    subst hgo
    have hattempt : st.vars.attempt = st.attempt := rfl
    dsimp only
    rw [hattempt]
    cases (e.client.outcome (env.answers (st.attempt + 1))).retried with
    | true => exact (ih st').trans (by rw [hvars, if_pos rfl])
    | false => exact hvars

/-- What a call that went through the loop returns or raises. -/
def LoopVars.result (v : LoopVars) (call : RequestCall) (env : CallEnv) :
    Except RequestError EngineResponse :=
  match v.escaped, v.response with
  | some msg, _ => .error (.clientError msg)
  | none, none => .error (.connectionError ("Request to ".toList ++ call.url ++
      " failed after ".toList ++ ofInt v.attempt ++ " attempt(s): ".toList ++
      v.error.getD "None".toList))
  | none, some r => .ok ⟨r.statusCode, r.headers, r.body.getD [], r.elapsedMs, env.transcriptId,
      call.url⟩

theorem conclude_result (e : HttpEngine) (call : RequestCall) (env : CallEnv) (st : LoopState) :
    (e.conclude call env st).result = st.vars.result call env := by
  unfold HttpEngine.conclude LoopVars.result LoopState.vars
  cases st.escaped with
  | some msg => rfl
  | none => cases st.response <;> rfl

/-- The loop's variables behind the guards. -/
def HttpEngine.finalVars (e : HttpEngine) (call : RequestCall) (env : CallEnv) : LoopVars :=
  e.varsAfter env (e.maxAttempts (upper call.method)) ⟨0, none, none, none⟩

theorem request_result (e : HttpEngine) (call : RequestCall) (env : CallEnv) (jar : CookieJar) :
    (e.request call env jar).result =
      match e.guardCall call (upper call.method) with
      | some err => .error err
      | none => (e.finalVars call env).result call env := by
  unfold HttpEngine.request
  cases e.guardCall call (upper call.method) with
  | some err => rfl
  | none => exact (conclude_result e call env _).trans (by rw [retryLoop_vars]; rfl)

/-- The jar has no part in what a call returns. -/
theorem request_result_jar (e : HttpEngine) (call : RequestCall) (env : CallEnv)
    (jar jar' : CookieJar) :
    (e.request call env jar).result = (e.request call env jar').result := by
  rw [request_result, request_result]

/-! ## Calls that come back -/

/-- The outcome of attempt `n` is a response. -/
def HttpEngine.Responds (e : HttpEngine) (env : CallEnv) (n : Nat) : Prop :=
  ∃ r, e.client.outcome (env.answers n) = .response r

/-- The outcome of attempt `n` is an exception the loop does not catch. -/
def HttpEngine.Escapes (e : HttpEngine) (env : CallEnv) (n : Nat) : Prop :=
  ∃ msg, e.client.outcome (env.answers n) = .otherError msg

omit [PyRuntime] in
theorem exists_attempt_succ {P : Nat → Prop} {attempt made : Nat} :
    (∃ n, attempt < n ∧ n ≤ attempt + (1 + made) ∧ P n) ↔
      P (attempt + 1) ∨ ∃ n, attempt + 1 < n ∧ n ≤ attempt + 1 + made ∧ P n := by
  constructor
  · rintro ⟨n, hlow, hhigh, hn⟩
    by_cases hfirst : n = attempt + 1
    · exact .inl (hfirst ▸ hn)
    · exact .inr ⟨n, by omega, by omega, hn⟩
  · rintro (hfirst | ⟨n, hlow, hhigh, hn⟩)
    · exact ⟨attempt + 1, by omega, by omega, hfirst⟩
    · exact ⟨n, by omega, by omega, hn⟩

omit [PyRuntime] in
theorem take_attempt (v : LoopVars) (env : CallEnv) (answer : WireAnswer) :
    (v.take env answer).attempt = v.attempt + 1 := by
  cases answer <;> rfl

omit [PyRuntime] in
theorem take_isSome (v : LoopVars) (env : CallEnv) (answer : WireAnswer) :
    ((v.take env answer).response.isSome ↔ v.response.isSome ∨ ∃ r, answer = .response r) ∧
      ((v.take env answer).escaped.isSome ↔
        v.escaped.isSome ∨ ∃ msg, answer = .otherError msg) := by
  cases answer <;> simp [LoopVars.take]

/-- After the loop there is a response if one of its attempts got one, and
an escaped exception if one of them raised one. -/
theorem varsAfter_isSome (e : HttpEngine) (env : CallEnv) (left : Nat) (v : LoopVars) :
    ((e.varsAfter env left v).response.isSome ↔ v.response.isSome ∨ ∃ n, v.attempt < n ∧
        n ≤ v.attempt + e.attemptsMade env left v.attempt ∧ e.Responds env n) ∧
      ((e.varsAfter env left v).escaped.isSome ↔ v.escaped.isSome ∨ ∃ n, v.attempt < n ∧
        n ≤ v.attempt + e.attemptsMade env left v.attempt ∧ e.Escapes env n) := by
  induction left generalizing v with
  | zero =>
    have hnone : ∀ P : Nat → Prop, ¬ ∃ n, v.attempt < n ∧ n ≤ v.attempt + 0 ∧ P n := by
      rintro P ⟨n, hlow, hhigh, -⟩
      omega
    simp only [HttpEngine.varsAfter, HttpEngine.attemptsMade, hnone, or_false, and_self]
  | succ left ih =>
    obtain ⟨hresponse, hescaped⟩ :=
      take_isSome v env (e.client.outcome (env.answers (v.attempt + 1)))
    unfold HttpEngine.varsAfter HttpEngine.attemptsMade
    simp only [exists_attempt_succ]
    cases (e.client.outcome (env.answers (v.attempt + 1))).retried with
    | true =>
      obtain ⟨hr, he⟩ := ih (v.take env (e.client.outcome (env.answers (v.attempt + 1))))
      rw [take_attempt] at hr he
      simp only [if_pos]
      exact ⟨hr.trans (by rw [hresponse, or_assoc]; rfl),
        he.trans (by rw [hescaped, or_assoc]; rfl)⟩
    | false =>
      have hnone : ∀ P : Nat → Prop, ¬ ∃ n, v.attempt + 1 < n ∧ n ≤ v.attempt + 1 + 0 ∧ P n := by
        rintro P ⟨n, hlow, hhigh, -⟩
        omega
      simp only [Bool.false_eq_true, if_false, hnone, or_false]
      exact ⟨hresponse, hescaped⟩

/-- The guards let the call through, one of its attempts gets a response,
and none of them raises what the loop does not catch. -/
structure HttpEngine.Answers (e : HttpEngine) (call : RequestCall) (env : CallEnv) : Prop where
  passes : e.blocks call = false
  responds : ∃ n, 0 < n ∧ n ≤ e.attemptsMade env (e.maxAttempts (upper call.method)) 0 ∧
    e.Responds env n
  caught : ∀ n, 0 < n → n ≤ e.attemptsMade env (e.maxAttempts (upper call.method)) 0 →
    ¬ e.Escapes env n

omit [PyRuntime] in
theorem result_returns_iff {v : LoopVars} {call : RequestCall} {env : CallEnv} :
    (∃ r, v.result call env = .ok r) ↔ v.response.isSome = true ∧ ¬ v.escaped.isSome = true := by
  unfold LoopVars.result
  cases v.escaped <;> cases v.response <;> simp

/-- **A call comes back** exactly if it is answered. -/
theorem request_returns_iff (e : HttpEngine) (call : RequestCall) (env : CallEnv)
    (jar : CookieJar) : (∃ r, (e.request call env jar).result = .ok r) ↔ e.Answers call env := by
  rw [request_result]
  cases hguard : e.guardCall call (upper call.method) with
  | some err =>
    have hblocks : e.blocks call = true := by rw [HttpEngine.blocks, hguard]; rfl
    constructor
    · rintro ⟨r, h⟩
      cases h
    · intro h
      exact absurd (h.passes.symm.trans hblocks) (by simp)
  | none =>
    have hblocks : e.blocks call = false := by rw [HttpEngine.blocks, hguard]; rfl
    have hvars := varsAfter_isSome e env (e.maxAttempts (upper call.method)) ⟨0, none, none, none⟩
    simp only [Option.isSome_none, Bool.false_eq_true, false_or, Nat.zero_add] at hvars
    refine result_returns_iff.trans ?_
    unfold HttpEngine.finalVars
    rw [hvars.1, hvars.2]
    constructor
    · rintro ⟨hresponds, hcaught⟩
      exact ⟨hblocks, hresponds, fun n hpos hle hescapes => hcaught ⟨n, hpos, hle, hescapes⟩⟩
    · intro h
      refine ⟨h.responds, ?_⟩
      rintro ⟨n, hpos, hle, hescapes⟩
      exact h.caught n hpos hle hescapes

/-- The response of attempt `n`, as the loop keeps it. -/
def CallEnv.recorded (env : CallEnv) (n : Nat) (answer : HttpxResponse) : RecordedResponse :=
  ⟨answer.statusCode, answer.headers, some answer.content, env.elapsedMs n⟩

/-- Attempt `n` of those up to `last` got this response, and none after it
got one. -/
def HttpEngine.RespondsLast (e : HttpEngine) (env : CallEnv) (last n : Nat)
    (answer : HttpxResponse) : Prop :=
  e.client.outcome (env.answers n) = .response answer ∧
    ∀ m, n < m → m ≤ last → ¬ e.Responds env m

/-- Of the attempts after `done` up to `last` this is the last response, or
they got none and it is what there was before. -/
def HttpEngine.LastResponse (e : HttpEngine) (env : CallEnv) (done last : Nat)
    (before : Option RecordedResponse) (r : RecordedResponse) : Prop :=
  (∃ n answer, done < n ∧ n ≤ last ∧ e.RespondsLast env last n answer ∧
    r = env.recorded n answer) ∨
  before = some r ∧ ∀ m, done < m → m ≤ last → ¬ e.Responds env m

theorem lastResponse_none {e : HttpEngine} {env : CallEnv} {last : Nat}
    {before : Option RecordedResponse} {r : RecordedResponse} :
    e.LastResponse env last last before r ↔ before = some r := by
  constructor
  · rintro (⟨n, _, hlow, hhigh, -⟩ | ⟨h, -⟩)
    · omega
    · exact h
  · exact fun h => .inr ⟨h, fun m hlow hhigh => by omega⟩

/-- Taking in an outcome moves it from the attempts to come to what there
was before. -/
theorem lastResponse_take {e : HttpEngine} {env : CallEnv} {last : Nat} {v : LoopVars}
    (hmade : v.attempt + 1 ≤ last) {r : RecordedResponse} :
    e.LastResponse env v.attempt last v.response r ↔
      e.LastResponse env (v.attempt + 1) last
        (v.take env (e.client.outcome (env.answers (v.attempt + 1)))).response r := by
  have hnext : ∀ m, v.attempt < m → m = v.attempt + 1 ∨ v.attempt + 1 < m := by omega
  unfold HttpEngine.LastResponse
  generalize hanswer : e.client.outcome (env.answers (v.attempt + 1)) = answer
  cases answer with
  | response got =>
    have hresponds : e.Responds env (v.attempt + 1) := ⟨got, hanswer⟩
    constructor
    · rintro (⟨n, got', hlow, hhigh, hlast, rfl⟩ | ⟨-, hno⟩)
      · rcases hnext n hlow with rfl | hlater
        · obtain rfl := WireAnswer.response.inj (hanswer.symm.trans hlast.1)
          exact .inr ⟨rfl, hlast.2⟩
        · exact .inl ⟨n, got', hlater, hhigh, hlast, rfl⟩
      · exact absurd hresponds (hno _ (Nat.lt_succ_self _) hmade)
    · rintro (⟨n, got', hlow, hhigh, hlast, rfl⟩ | ⟨hr, hno⟩)
      · exact .inl ⟨n, got', by omega, hhigh, hlast, rfl⟩
      · exact .inl ⟨_, got, Nat.lt_succ_self _, hmade, ⟨hanswer, hno⟩, (Option.some.inj hr).symm⟩
  | timeout msg | transportError msg | otherError msg =>
    have hsilent : ¬ e.Responds env (v.attempt + 1) := by
      rintro ⟨got, hgot⟩
      exact nomatch hanswer.symm.trans hgot
    constructor
    · rintro (⟨n, got, hlow, hhigh, hlast, rfl⟩ | ⟨hr, hno⟩)
      · rcases hnext n hlow with rfl | hlater
        · exact absurd ⟨got, hlast.1⟩ hsilent
        · exact .inl ⟨n, got, hlater, hhigh, hlast, rfl⟩
      · exact .inr ⟨hr, fun m hlow hhigh => hno m (by omega) hhigh⟩
    · rintro (⟨n, got, hlow, hhigh, hlast, rfl⟩ | ⟨hr, hno⟩)
      · exact .inl ⟨n, got, by omega, hhigh, hlast, rfl⟩
      · refine .inr ⟨hr, fun m hlow hhigh => ?_⟩
        rcases hnext m hlow with rfl | hlater
        · exact hsilent
        · exact hno m hlater hhigh

/-- **The loop ends with the last response it got**; without one it ends
with what it had. -/
theorem response_varsAfter_iff {e : HttpEngine} {env : CallEnv} {left : Nat} {v : LoopVars}
    {r : RecordedResponse} :
    (e.varsAfter env left v).response = some r ↔
      e.LastResponse env v.attempt (v.attempt + e.attemptsMade env left v.attempt)
        v.response r := by
  induction left generalizing v with
  | zero => exact lastResponse_none.symm
  | succ left ih =>
    have hmade := attemptsMade_pos e env (Nat.zero_lt_succ left) v.attempt
    rw [Nat.succ_eq_add_one] at hmade
    rw [lastResponse_take (by omega)]
    have hattempt := take_attempt v env (e.client.outcome (env.answers (v.attempt + 1)))
    unfold HttpEngine.varsAfter HttpEngine.attemptsMade
    dsimp only
    cases (e.client.outcome (env.answers (v.attempt + 1))).retried with
    | true =>
      rw [if_pos rfl, if_pos rfl, ih, hattempt, Nat.add_assoc]
    | false =>
      rw [if_neg Bool.false_ne_true, if_neg Bool.false_ne_true]
      exact lastResponse_none.symm

/-- A call that the guards let through and that ends with this response of
the network: the last one it got, if no attempt raised what the loop does
not catch. -/
structure HttpEngine.EndsWith (e : HttpEngine) (call : RequestCall) (env : CallEnv)
    (answer : HttpxResponse) : Prop where
  passes : e.blocks call = false
  last : ∃ n, 0 < n ∧ n ≤ e.attemptsMade env (e.maxAttempts (upper call.method)) 0 ∧
    e.RespondsLast env (e.attemptsMade env (e.maxAttempts (upper call.method)) 0) n answer
  caught : ∀ n, 0 < n → n ≤ e.attemptsMade env (e.maxAttempts (upper call.method)) 0 →
    ¬ e.Escapes env n

/-! ## What is recorded -/

/-- The transcript of a call: that of the loop's variables, unless a guard
stopped the call or an exception escaped. -/
theorem record_mem_request_iff {e : HttpEngine} {call : RequestCall} {env : CallEnv}
    {jar : CookieJar} {args : TranscriptArgs} :
    .record args ∈ (e.request call env jar).events ↔
      e.blocks call = false ∧ (e.finalVars call env).escaped = none ∧
        args = ⟨e.scanId, (call.persona.getD anonymousSession).personaId,
          ⟨(e.wireRequest call).method, (e.wireRequest call).url, (e.wireRequest call).headers,
            (e.wireRequest call).body⟩, (e.finalVars call env).response,
          if (e.finalVars call env).response.isNone then (e.finalVars call env).error
          else none⟩ := by
  cases hguard : e.guardCall call (upper call.method) with
  | some err =>
    have hblocks : e.blocks call = true := by rw [HttpEngine.blocks, hguard]; rfl
    rw [(request_blocked hblocks env jar).1, hblocks]
    simp
  | none =>
    have hblocks : e.blocks call = false := by rw [HttpEngine.blocks, hguard]; rfl
    have hvars : (e.retryLoop (e.wireRequest call) env (e.maxAttempts (upper call.method))
        (e.loopStart jar)).vars = e.finalVars call env := retryLoop_vars ..
    obtain ⟨mid, hevents, hloop, -⟩ := retryLoop_spec e (e.wireRequest call) env
      (e.maxAttempts (upper call.method)) (e.loopStart jar)
    rw [← hvars]
    unfold HttpEngine.request
    rw [hguard]
    dsimp only [HttpEngine.dispatch, HttpEngine.conclude]
    generalize e.retryLoop _ env _ _ = st at hevents ⊢
    have hloopless : .record args ∉ st.events := by
      rw [hevents]
      intro hmem
      rcases List.mem_append.mp hmem with hstart | hmid
      · cases List.mem_singleton.mp hstart
      · rcases hloop _ hmid with hreport | ⟨_, _, hsend⟩
        · cases hreport
        · cases hsend
    unfold LoopState.vars
    dsimp only
    cases st.escaped with
    | some msg => exact ⟨fun h => absurd h hloopless, fun h => absurd h.2.1 (Option.some_ne_none msg)⟩
    | none =>
      dsimp only
      rw [List.mem_append, List.mem_singleton, Event.record.injEq]
      exact ⟨fun h => ⟨hblocks, rfl, h.resolve_left hloopless⟩, fun h => .inr h.2.2⟩

/-- **A call has a response recorded** exactly if it ends with it. -/
theorem records_response_iff {e : HttpEngine} {call : RequestCall} {env : CallEnv}
    {jar : CookieJar} {body : Bytes} :
    (∃ args r, .record args ∈ (e.request call env jar).events ∧ args.response = some r ∧
      r.body = some body) ↔ ∃ answer, e.EndsWith call env answer ∧ answer.content = body := by
  have hescaped := (varsAfter_isSome e env (e.maxAttempts (upper call.method))
    ⟨0, none, none, none⟩).2
  have hresponse (r : RecordedResponse) : (e.finalVars call env).response = some r ↔
      e.LastResponse env 0 (0 + e.attemptsMade env (e.maxAttempts (upper call.method)) 0) none r :=
    response_varsAfter_iff
  simp only [Option.isSome_none, Bool.false_eq_true, false_or, Nat.zero_add] at hescaped hresponse
  constructor
  · rintro ⟨args, r, hrecord, hr, hbody⟩
    obtain ⟨hpasses, hnone, rfl⟩ := record_mem_request_iff.mp hrecord
    obtain ⟨n, answer, hlow, hhigh, hlast, rfl⟩ | ⟨hbefore, -⟩ := (hresponse r).mp hr
    case inr => exact nomatch hbefore
    refine ⟨answer, ⟨hpasses, ⟨n, hlow, hhigh, hlast⟩, fun m hpos hle hescapes => ?_⟩,
      Option.some.inj hbody⟩
    have hsome : (e.finalVars call env).escaped.isSome = true :=
      hescaped.mpr ⟨m, hpos, hle, hescapes⟩
    rw [hnone] at hsome
    exact Bool.false_ne_true hsome
  · rintro ⟨answer, hends, rfl⟩
    obtain ⟨n, hlow, hhigh, hlast⟩ := hends.last
    have hnone : (e.finalVars call env).escaped = none := by
      refine Option.not_isSome_iff_eq_none.mp fun hsome => ?_
      obtain ⟨m, hpos, hle, hescapes⟩ := hescaped.mp hsome
      exact hends.caught m hpos hle hescapes
    exact ⟨_, _, record_mem_request_iff.mpr ⟨hends.passes, hnone, rfl⟩,
      (hresponse _).mpr (.inl ⟨n, answer, hlow, hhigh, hlast, rfl⟩), rfl⟩

end Sentinel.Core
