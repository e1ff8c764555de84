/-
Sentinel.Core.ScanHistory — the lives of a scan state machine.

A life is a run of `transition` and `resume` attempts on a fresh machine,
legal or not. Its history shows the states that were entered: they are a
path of `_LINEAR_TRANSITIONS`, whatever was paused and resumed in between.
-/
import Sentinel.Core.StateMachine
import Sentinel.Py.Method
import Sentinel.Trace.History
import Mathlib.Data.List.Chain
import Mathlib.Data.List.Nodup

namespace Sentinel.Core

open Sentinel.Py Sentinel.Trace

/-! ## The calls -/

namespace ScanStateMachine

/-- The statements of `transition`; an exception keeps what was assigned
before it. -/
def transitionCall (target : ScanState) (reason : Option String) :
    Method MachineError ScanStateMachine ScanState := do
  let m ← get
  if !m.canTransition target then throw (.invalidTransition m.current target)
  if target = .paused then modify fun m => { m with pausedFrom := some m.current }
  if target = .failed then modify fun m => { m with failReason := reason }
  modify fun m => { m with current := target }
  return (← get).current

/-- The statements of `resume`. -/
def resumeCall : Method MachineError ScanStateMachine ScanState := do
  if (← get).current ≠ .paused then throw .invalidResume
  match (← get).pausedFrom with
  | none => throw .invalidResume
  | some state =>
    modify fun m => { m with current := state }
    modify fun m => { m with pausedFrom := none }
    return (← get).current

end ScanStateMachine

/-- A call on the machine. -/
inductive MachineCall where
  | transition (target : ScanState) (reason : Option String)
  | resume
  deriving DecidableEq, Repr

/-- What a call returns or raises, and the machine after it. -/
def attempt (m : ScanStateMachine) : MachineCall → Except MachineError ScanState × ScanStateMachine
  | .transition target reason => (ScanStateMachine.transitionCall target reason).call m
  | .resume => ScanStateMachine.resumeCall.call m

/-- The result of a pure call, with the machine as an exception leaves it. -/
def landed (m : ScanStateMachine) (result : Except MachineError ScanStateMachine) :
    Except MachineError ScanState × ScanStateMachine :=
  match result with
  | .ok m' => (.ok m'.current, m')
  | .error e => (.error e, m)

theorem attempt_transition (m : ScanStateMachine) (target : ScanState) (reason : Option String) :
    attempt m (.transition target reason) = landed m (m.transition target reason) := by
  cases hcan : m.canTransition target with
  | false =>
    rw [ScanStateMachine.transition_error reason hcan]
    simp [attempt, ScanStateMachine.transitionCall, landed, hcan]
  | true =>
    rw [ScanStateMachine.transition_ok reason hcan]
    by_cases hpaused : target = .paused
    · subst hpaused
      simp [attempt, ScanStateMachine.transitionCall, landed, hcan]
    by_cases hfailed : target = .failed
    · subst hfailed
      simp [attempt, ScanStateMachine.transitionCall, landed, hcan]
    · simp [attempt, ScanStateMachine.transitionCall, landed, hcan, hpaused, hfailed]

theorem attempt_resume (m : ScanStateMachine) : attempt m .resume = landed m m.resume := by
  simp only [attempt, ScanStateMachine.resumeCall, ScanStateMachine.resume]
  by_cases hpaused : m.current = .paused
  · cases hfrom : m.pausedFrom with
    | none => simp [landed, hpaused, hfrom]
    | some state => simp [landed, hpaused, hfrom]
  · simp [landed, hpaused]

/-- Where a transition may lead. -/
theorem canTransition_cases {m : ScanStateMachine} {target : ScanState}
    (h : m.canTransition target = true) :
    m.current ∉ terminalStates ∧
      ((target = .paused ∧ m.current ≠ .paused) ∨ target = .cancelled ∨ target = .failed ∨
        target ∈ linearTransitions m.current) := by
  unfold ScanStateMachine.canTransition ScanStateMachine.isTerminal at h
  by_cases hterminal : m.current ∈ terminalStates
  · simp [hterminal] at h
  refine ⟨hterminal, ?_⟩
  simp only [hterminal, decide_false, Bool.false_eq_true, if_false] at h
  by_cases hpaused : target = .paused
  · exact .inl ⟨hpaused, by simpa [hpaused] using h⟩
  by_cases hended : target ∈ [ScanState.cancelled, .failed]
  · rcases List.mem_cons.mp hended with h | h
    · exact .inr (.inl h)
    · exact .inr (.inr (.inl (List.mem_singleton.mp h)))
  · simp only [hpaused, hended, if_false, decide_eq_true_eq] at h
    exact .inr (.inr (.inr h))

/-- The machine after a successful transition. -/
def movedTo (m : ScanStateMachine) (target : ScanState) (reason : Option String) :
    ScanStateMachine where
  current := target
  pausedFrom := if target = .paused then some m.current else m.pausedFrom
  failReason := if target = .failed then reason else m.failReason

/-- **What an attempt can do**: raise, move on, or bring a paused scan back. -/
theorem attempt_cases (m : ScanStateMachine) (a : MachineCall) :
    (∃ error, attempt m a = (.error error, m)) ∨
    (∃ target reason, a = .transition target reason ∧ m.canTransition target = true ∧
      attempt m a = (.ok target, movedTo m target reason)) ∨
    (∃ state, a = .resume ∧ m.current = .paused ∧ m.pausedFrom = some state ∧
      attempt m a = (.ok state, { m with current := state, pausedFrom := none })) := by
  cases a with
  | transition target reason =>
    rw [attempt_transition]
    cases hcan : m.canTransition target with
    | false => exact .inl ⟨_, by rw [ScanStateMachine.transition_error reason hcan]; rfl⟩
    | true =>
      refine .inr (.inl ⟨target, reason, rfl, hcan, ?_⟩)
      rw [ScanStateMachine.transition_ok reason hcan]
      rfl
  | resume =>
    rw [attempt_resume, ScanStateMachine.resume]
    by_cases hpaused : m.current = .paused
    · cases hfrom : m.pausedFrom with
      | none => exact .inl ⟨.invalidResume, by simp [landed, hpaused]⟩
      | some state =>
        exact .inr (.inr ⟨state, rfl, hpaused, rfl, by simp [landed, hpaused]⟩)
    · exact .inl ⟨.invalidResume, by simp [landed, hpaused]⟩

/-! ## The states a scan goes through -/

abbrev ScanEntry := Entry ScanStateMachine MachineCall (Except MachineError ScanState)

/-- The life of a fresh machine. -/
def life (attempts : List MachineCall) : List ScanEntry := history attempt {} attempts

/-- The machine after its life so far. -/
def lived (attempts : List MachineCall) : ScanStateMachine := final attempt {} attempts

/-- The state a successful transition has entered, `PAUSED` aside. -/
def enteredBy (e : ScanEntry) : Option ScanState :=
  match e.call, e.result with
  | .transition _ _, .ok _ => if e.after.current = .paused then none else some e.after.current
  | _, _ => none

/-- The states entered, in order, without `PAUSED` and without the
re-entries by `resume`. -/
def entered (past : List ScanEntry) : List ScanState := past.filterMap enteredBy

/-- A successful transition that has paused the scan. -/
def isPause (e : ScanEntry) : Bool :=
  match e.call, e.result with
  | .transition _ _, .ok _ => e.after.current = .paused
  | _, _ => false

/-- The latest successful pause of the past was in this state. -/
def PausedIn (past : List ScanEntry) (state : ScanState) : Prop :=
  ∃ earlier e later, past = earlier ++ e :: later ∧ isPause e = true ∧
    (∀ e' ∈ later, isPause e' = false) ∧ e.before.current = state

/-- A path of the table that starts in the queue. -/
def IsLinearPath (path : List ScanState) : Prop :=
  (ScanState.queued :: path).IsChain fun state next => next ∈ linearTransitions state

/-- A path of the table from the queue, possibly ended before its end by
one `CANCELLED` or `FAILED`. -/
def IsLifecycle (path : List ScanState) : Prop :=
  IsLinearPath path ∨
    ∃ linear ending, path = linear ++ [ending] ∧ IsLinearPath linear ∧
      linear.getLastD .queued ∉ terminalStates ∧ (ending = .cancelled ∨ ending = .failed)

/-- The states of a scan that comes to its end. -/
def completePath : List ScanState :=
  [.scopeVerifying, .recon, .authEstablishing, .crawling, .surfaceMapping, .passiveChecks,
    .testing, .verifying, .triaging, .reporting, .complete]

/-! ## Paths of the table -/

theorem isLinearPath_nil : IsLinearPath [] := .singleton _

theorem getLast?_path (path : List ScanState) :
    (ScanState.queued :: path).getLast? = some (path.getLastD .queued) := by
  rw [List.getLast?_cons, List.getLastD_eq_getLast?]

theorem isLinearPath_concat {path : List ScanState} {next : ScanState} :
    IsLinearPath (path ++ [next]) ↔
      IsLinearPath path ∧ next ∈ linearTransitions (path.getLastD .queued) := by
  rw [IsLinearPath, ← List.cons_append, List.isChain_append, getLast?_path]
  simp [IsLinearPath]

/-- Along a path the ranks go up, so nothing is entered twice. -/
theorem IsLinearPath.nodup {path : List ScanState} (h : IsLinearPath path) :
    (ScanState.queued :: path).Nodup := by
  have hrank : ((ScanState.queued :: path).map ScanState.rank).IsChain (· < ·) := by
    rw [List.isChain_map]
    exact h.imp fun _ _ => rank_lt_of_linear
  exact List.Nodup.of_map _ (hrank.pairwise.imp Nat.ne_of_lt)

/-- The state of the table that leads to a state, `QUEUED` if none does. -/
def linearSource : ScanState → ScanState
  | .recon | .blockedUnverified => .scopeVerifying
  | .authEstablishing => .recon
  | .crawling | .failedAuth => .authEstablishing
  | .surfaceMapping => .crawling
  | .passiveChecks => .surfaceMapping
  | .testing => .passiveChecks
  | .verifying => .testing
  | .triaging => .verifying
  | .reporting => .triaging
  | .complete => .reporting
  | _ => .queued

/-- A state of the table is entered from one state only, and from none if
it is the queue or an interruption. -/
theorem linear_target {state next : ScanState} (h : next ∈ linearTransitions state) :
    state = linearSource next ∧
      next ≠ .queued ∧ next ≠ .paused ∧ next ≠ .cancelled ∧ next ≠ .failed := by
  cases state <;> simp only [linearTransitions, List.mem_cons, List.not_mem_nil, or_false] at h
  all_goals rcases h with rfl | rfl <;> decide

/-- What a path enters, the table names as a target. -/
theorem IsLinearPath.targets {path : List ScanState} (h : IsLinearPath path) :
    ∀ next ∈ path, ∃ state, next ∈ linearTransitions state := by
  induction path using List.reverseRecOn with
  | nil => simp
  | append_singleton path last ih =>
    obtain ⟨hpath, hlast⟩ := isLinearPath_concat.mp h
    intro next hnext
    rcases List.mem_append.mp hnext with hnext | hnext
    · exact ih hpath next hnext
    · rw [List.mem_singleton.mp hnext]
      exact ⟨_, hlast⟩

/-- A path is determined by its end. -/
theorem IsLinearPath.eq_of_end {path path' : List ScanState} (h : IsLinearPath path)
    (h' : IsLinearPath path') (hend : path.getLastD .queued = path'.getLastD .queued) :
    path = path' := by
  induction path using List.reverseRecOn generalizing path' with
  | nil =>
    cases path' using List.reverseRecOn with
    | nil => rfl
    | append_singleton path' next' =>
      rw [List.getLastD_concat] at hend
      exact absurd hend.symm (linear_target (isLinearPath_concat.mp h').2).2.1
  | append_singleton path next ih =>
    obtain ⟨hpath, hnext⟩ := isLinearPath_concat.mp h
    rw [List.getLastD_concat] at hend
    cases path' using List.reverseRecOn with
    | nil => exact absurd hend (linear_target hnext).2.1
    | append_singleton path' next' =>
      obtain ⟨hpath', hnext'⟩ := isLinearPath_concat.mp h'
      rw [List.getLastD_concat] at hend
      subst hend
      have hsource := (linear_target hnext).1.trans (linear_target hnext').1.symm
      rw [ih hpath hpath' hsource]

theorem completePath_isLinear : IsLinearPath completePath := by
  unfold IsLinearPath
  decide

/-! ## The past and the present -/

/-- A machine that is where its past has brought it. `place` is the end of
the path entered so far: the current state, or the one that was paused. -/
structure Travelling (past : List ScanEntry) (m : ScanStateMachine) : Prop where
  path : IsLinearPath (entered past)
  place : (entered past).getLastD .queued = if m.current = .paused
    then m.pausedFrom.getD .paused else m.current
  paused : m.current = .paused → ∃ state, m.pausedFrom = some state ∧ PausedIn past state ∧
    state ∉ terminalStates ∧ state ≠ .paused

/-- A scan that was cancelled or has failed. -/
structure Interrupted (past : List ScanEntry) (m : ScanStateMachine) : Prop where
  path : IsLifecycle (entered past)
  current : m.current = .cancelled ∨ m.current = .failed

/-- The invariant of a life. -/
def Lived (past : List ScanEntry) (m : ScanStateMachine) : Prop :=
  Travelling past m ∨ Interrupted past m

theorem entered_concat (past : List ScanEntry) (e : ScanEntry) :
    entered (past ++ [e]) = entered past ++ (enteredBy e).toList := by
  simp only [entered, List.filterMap_append]
  cases h : enteredBy e <;> simp [h]

/-- An entry that is no pause leaves the latest pause the latest. -/
theorem PausedIn.concat {past : List ScanEntry} {state : ScanState} {e : ScanEntry}
    (h : PausedIn past state) (he : isPause e = false) : PausedIn (past ++ [e]) state := by
  obtain ⟨earlier, pause, later, rfl, hpause, hlater, hstate⟩ := h
  refine ⟨earlier, pause, later ++ [e], by simp, hpause, ?_, hstate⟩
  intro e' he'
  rcases List.mem_append.mp he' with he' | he'
  · exact hlater e' he'
  · rw [List.mem_singleton.mp he', he]

theorem Interrupted.terminal {past : List ScanEntry} {m : ScanStateMachine}
    (h : Interrupted past m) : m.current ∈ terminalStates := by
  rcases h.current with h | h <;> rw [h] <;> decide

/-- An attempt that raises keeps the invariant. -/
theorem Lived.raised {past : List ScanEntry} {m : ScanStateMachine} {a : MachineCall}
    {error : MachineError} (h : Lived past m) (herror : attempt m a = (.error error, m)) :
    Lived (past ++ [entry attempt m a]) m := by
  have hresult : (entry attempt m a).result = .error error := by simp [entry, herror]
  have hentered : enteredBy (entry attempt m a) = none := by
    unfold enteredBy
    rw [hresult]
    cases (entry attempt m a).call <;> rfl
  have hpause : isPause (entry attempt m a) = false := by
    unfold isPause
    rw [hresult]
    cases (entry attempt m a).call <;> rfl
  have hpath : entered (past ++ [entry attempt m a]) = entered past := by
    rw [entered_concat, hentered]
    exact List.append_nil _
  rcases h with h | h
  · refine .inl ⟨by rw [hpath]; exact h.path, by rw [hpath]; exact h.place, ?_⟩
    intro hcurrent
    obtain ⟨state, hfrom, hin, hstate⟩ := h.paused hcurrent
    exact ⟨state, hfrom, hin.concat hpause, hstate⟩
  · exact .inr ⟨by rw [hpath]; exact h.path, h.current⟩

/-- The end of the path so far is no terminal state while the machine can move. -/
theorem Travelling.place_not_terminal {past : List ScanEntry} {m : ScanStateMachine}
    (h : Travelling past m) (hcurrent : m.current ∉ terminalStates) :
    (entered past).getLastD .queued ∉ terminalStates := by
  rw [h.place]
  by_cases hpaused : m.current = .paused
  · obtain ⟨state, hfrom, -, hstate, -⟩ := h.paused hpaused
    simpa [hpaused, hfrom] using hstate
  · simpa [hpaused] using hcurrent

section

variable {past : List ScanEntry} {m : ScanStateMachine} {target : ScanState}
  {reason : Option String}

/-- A pause: the path stays, the latest pause is this one. -/
theorem Travelling.pauses (h : Travelling past m) (hterminal : m.current ∉ terminalStates)
    (hnotPaused : m.current ≠ .paused)
    (hmoved : attempt m (.transition .paused reason) = (.ok .paused, movedTo m .paused reason)) :
    Travelling (past ++ [entry attempt m (.transition .paused reason)])
      (movedTo m .paused reason) := by
  have hresult : (entry attempt m (.transition .paused reason)).result = .ok .paused := by
    rw [entry, hmoved]
  have hafter : (entry attempt m (.transition .paused reason)).after.current = .paused := by
    rw [entry, hmoved]
    rfl
  have hpath : entered (past ++ [entry attempt m (.transition .paused reason)]) = entered past := by
    rw [entered_concat, enteredBy, hresult, hafter]
    exact List.append_nil _
  have hplace : (entered past).getLastD .queued = m.current := by
    rw [h.place, if_neg hnotPaused]
  refine ⟨by rw [hpath]; exact h.path, by rw [hpath, hplace]; rfl, ?_⟩
  intro _
  refine ⟨m.current, rfl, ⟨past, _, [], rfl, ?_, by simp, rfl⟩, hterminal, hnotPaused⟩
  rw [isPause, hresult, hafter]
  rfl

/-- Any other state is the next one of the path. -/
theorem entered_moved (hne : target ≠ .paused)
    (hmoved : attempt m (.transition target reason) = (.ok target, movedTo m target reason)) :
    entered (past ++ [entry attempt m (.transition target reason)]) = entered past ++ [target] := by
  have hresult : (entry attempt m (.transition target reason)).result = .ok target := by
    rw [entry, hmoved]
  have hafter : (entry attempt m (.transition target reason)).after.current = target := by
    rw [entry, hmoved]
    rfl
  rw [entered_concat, enteredBy, hresult, hafter, if_neg hne]
  rfl

/-- The next state of the table; nothing follows PAUSED there. -/
theorem Travelling.goesOn (h : Travelling past m) (hnext : target ∈ linearTransitions m.current)
    (hmoved : attempt m (.transition target reason) = (.ok target, movedTo m target reason)) :
    Travelling (past ++ [entry attempt m (.transition target reason)])
      (movedTo m target reason) := by
  have hne : target ≠ .paused := (linear_target hnext).2.2.1
  have hpath : entered (past ++ [entry attempt m (.transition target reason)]) =
      entered past ++ [target] := entered_moved hne hmoved
  have hnotPaused : m.current ≠ .paused := by
    intro hpaused
    rw [hpaused] at hnext
    cases hnext
  have hplace : (entered past).getLastD .queued = m.current := by
    rw [h.place, if_neg hnotPaused]
  refine ⟨?_, ?_, fun hpaused => absurd hpaused hne⟩
  · rw [hpath]
    exact isLinearPath_concat.mpr ⟨h.path, hplace.symm ▸ hnext⟩
  · rw [hpath, List.getLastD_concat]
    exact (if_neg hne).symm

/-- CANCELLED or FAILED end the path. -/
theorem Travelling.stops (h : Travelling past m) (hterminal : m.current ∉ terminalStates)
    (hstop : target = .cancelled ∨ target = .failed)
    (hmoved : attempt m (.transition target reason) = (.ok target, movedTo m target reason)) :
    Interrupted (past ++ [entry attempt m (.transition target reason)])
      (movedTo m target reason) := by
  have hne : target ≠ .paused := by
    rcases hstop with rfl | rfl <;> decide
  refine ⟨?_, hstop⟩
  rw [entered_moved hne hmoved]
  exact .inr ⟨_, _, rfl, h.path, h.place_not_terminal hterminal, hstop⟩

/-- A successful transition keeps the invariant. -/
theorem Lived.moved (h : Lived past m) (hcan : m.canTransition target = true)
    (hmoved : attempt m (.transition target reason) = (.ok target, movedTo m target reason)) :
    Lived (past ++ [entry attempt m (.transition target reason)])
      (attempt m (.transition target reason)).2 := by
  obtain ⟨hterminal, hcases⟩ := canTransition_cases hcan
  have h : Travelling past m := by
    rcases h with h | h
    · exact h
    · exact absurd h.terminal hterminal
  rw [hmoved]
  rcases hcases with ⟨rfl, hnotPaused⟩ | hended | hended | hnext
  · exact .inl (h.pauses hterminal hnotPaused hmoved)
  · exact .inr (h.stops hterminal (.inl hended) hmoved)
  · exact .inr (h.stops hterminal (.inr hended) hmoved)
  · exact .inl (h.goesOn hnext hmoved)

end

/-- A resume keeps the invariant. -/
theorem Lived.resumed {past : List ScanEntry} {m : ScanStateMachine} {state : ScanState}
    (h : Lived past m) (hpaused : m.current = .paused) (hfrom : m.pausedFrom = some state)
    (hresumed : attempt m .resume = (.ok state, { m with current := state, pausedFrom := none })) :
    Lived (past ++ [entry attempt m .resume]) (attempt m .resume).2 := by
  have h : Travelling past m := by
    rcases h with h | h
    · exact h
    · rcases h.current with hcurrent | hcurrent <;> rw [hpaused] at hcurrent <;> cases hcurrent
  have hpath : entered (past ++ [entry attempt m .resume]) = entered past := by
    rw [entered_concat]
    exact List.append_nil _
  obtain ⟨state', hfrom', -, -, hne⟩ := h.paused hpaused
  rw [hfrom] at hfrom'
  cases hfrom'
  have hplace : (entered past).getLastD .queued = state := by
    rw [h.place, if_pos hpaused, hfrom]
    rfl
  rw [hresumed]
  refine .inl ⟨by rw [hpath]; exact h.path, ?_, fun hcurrent => absurd hcurrent hne⟩
  rw [hpath, hplace, if_neg hne]

/-- The invariant holds at the end of every life. -/
theorem life_lived (attempts : List MachineCall) : Lived (life attempts) (lived attempts) := by
  unfold life lived
  refine history_rule ?_ ?_ attempts
  · exact .inl ⟨isLinearPath_nil, rfl, fun h => by cases h⟩
  · intro past m a h
    obtain ⟨error, herror⟩ | ⟨target, reason, rfl, hcan, hmoved⟩ |
      ⟨state, rfl, hpaused, hfrom, hresumed⟩ := attempt_cases m a
    · have hsame : (attempt m a).2 = m := by rw [herror]
      rw [hsame]
      exact h.raised herror
    · exact h.moved hcan hmoved
    · exact h.resumed hpaused hfrom hresumed

/-! ## The law of a life -/

/-- Everything a run of attempts on a fresh machine obeys. -/
structure LifeLaw (attempts : List MachineCall) : Prop where
  /-- An attempt that raises leaves all fields as they were. -/
  raising : ∀ e ∈ life attempts, ∀ error, e.result = .error error → e.after = e.before
  path : IsLifecycle (entered (life attempts))
  simple : (ScanState.queued :: entered (life attempts)).Nodup
  complete : (lived attempts).current = .complete → entered (life attempts) = completePath
  paused : (lived attempts).current = .paused → ∃ state,
    (lived attempts).pausedFrom = some state ∧ PausedIn (life attempts) state ∧
    state ∉ terminalStates ∧ state ≠ .paused ∧
    attempt (lived attempts) .resume =
      (.ok state, { lived attempts with current := state, pausedFrom := none })
  absorbing : (lived attempts).current ∈ terminalStates →
    ∀ later, lived (attempts ++ later) = lived attempts

theorem attempt_raising {m : ScanStateMachine} {a : MachineCall} {error : MachineError}
    (h : (attempt m a).1 = .error error) : (attempt m a).2 = m := by
  obtain ⟨error', herror⟩ | ⟨target, reason, rfl, -, hmoved⟩ | ⟨state, rfl, -, -, hresumed⟩ :=
    attempt_cases m a
  · rw [herror]
  · rw [hmoved] at h
    cases h
  · rw [hresumed] at h
    cases h

theorem attempt_terminal {m : ScanStateMachine} (h : m.current ∈ terminalStates) (a : MachineCall) :
    (attempt m a).2 = m := by
  obtain ⟨error, herror⟩ | ⟨target, reason, rfl, hcan, -⟩ | ⟨state, rfl, hpaused, -, -⟩ :=
    attempt_cases m a
  · rw [herror]
  · exact absurd h (canTransition_cases hcan).1
  · rw [hpaused] at h
    exact absurd h (by decide)

theorem IsLifecycle.nodup {path : List ScanState} (h : IsLifecycle path) :
    (ScanState.queued :: path).Nodup := by
  rcases h with h | ⟨linear, ending, rfl, hlinear, -, hended⟩
  · exact h.nodup
  · have hfresh : ending ∉ linear := by
      intro hmem
      obtain ⟨state, hstate⟩ := hlinear.targets ending hmem
      obtain ⟨-, -, -, hcancelled, hfailed⟩ := linear_target hstate
      rcases hended with h | h
      · exact hcancelled h
      · exact hfailed h
    have hqueued : ending ≠ .queued := by rcases hended with rfl | rfl <;> decide
    rw [← List.cons_append, List.nodup_append]
    refine ⟨hlinear.nodup, List.nodup_singleton _, ?_⟩
    intro state hstate state' hstate' heq
    rw [List.mem_singleton.mp hstate'] at heq
    rcases List.mem_cons.mp hstate with h | h
    · exact hqueued (heq ▸ h)
    · exact hfresh (heq ▸ h)

/-- A scan that is complete has gone through everything. -/
theorem Lived.complete {past : List ScanEntry} {m : ScanStateMachine} (h : Lived past m)
    (hcomplete : m.current = .complete) : entered past = completePath := by
  rcases h with h | h
  · refine h.path.eq_of_end completePath_isLinear ?_
    rw [h.place, hcomplete]
    rfl
  · rcases h.current with hcurrent | hcurrent <;> rw [hcomplete] at hcurrent <;> cases hcurrent

/-- What `resume` would do to a paused machine. -/
theorem Lived.paused {past : List ScanEntry} {m : ScanStateMachine} (h : Lived past m)
    (hpaused : m.current = .paused) : ∃ state, m.pausedFrom = some state ∧ PausedIn past state ∧
      state ∉ terminalStates ∧ state ≠ .paused ∧
      attempt m .resume = (.ok state, { m with current := state, pausedFrom := none }) := by
  rcases h with h | h
  · obtain ⟨state, hfrom, hin, hstate, hne⟩ := h.paused hpaused
    refine ⟨state, hfrom, hin, hstate, hne, ?_⟩
    rw [attempt_resume, ScanStateMachine.resume, hfrom]
    simp [hpaused, landed]
  · rcases h.current with hcurrent | hcurrent <;> rw [hpaused] at hcurrent <;> cases hcurrent

theorem Lived.isLifecycle {past : List ScanEntry} {m : ScanStateMachine} (h : Lived past m) :
    IsLifecycle (entered past) := by
  rcases h with h | h
  · exact .inl h.path
  · exact h.path

/-- **The whole-run law of the machine.** -/
theorem life_law (attempts : List MachineCall) : LifeLaw attempts where
  raising := by
    unfold life
    refine forall_history ?_ _ attempts
    intro m a error h
    exact attempt_raising h
  path := (life_lived attempts).isLifecycle
  simple := (life_lived attempts).isLifecycle.nodup
  complete := (life_lived attempts).complete
  paused := (life_lived attempts).paused
  absorbing := by
    intro hterminal later
    rw [lived, final_append]
    exact final_of_stuck (attempt_terminal hterminal) later

/-- A scan is paused, resumed and cancelled. -/
example : (lived [.transition .scopeVerifying none, .transition .testing none,
      .transition .paused none, .resume, .transition .recon none, .transition .cancelled none,
      .resume]).current = .cancelled ∧
    entered (life [.transition .scopeVerifying none, .transition .paused none, .resume,
      .transition .recon none]) = [.scopeVerifying, .recon] := by decide

end Sentinel.Core
