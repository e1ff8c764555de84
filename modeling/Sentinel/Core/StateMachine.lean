/-
Sentinel.Core.StateMachine — `sentinel_core.state_machine`: the lifecycle
of a scan.
-/
import Mathlib.Init

namespace Sentinel.Core

inductive ScanState where
  | queued
  | scopeVerifying
  | blockedUnverified
  | recon
  | authEstablishing
  | failedAuth
  | crawling
  | surfaceMapping
  | passiveChecks
  | testing
  | verifying
  | triaging
  | reporting
  | complete
  | paused
  | cancelled
  | failed
  deriving DecidableEq, Repr

/-- `TERMINAL_STATES`. -/
def terminalStates : List ScanState :=
  [.complete, .cancelled, .failed, .blockedUnverified, .failedAuth]

inductive ScanPhaseName where
  | scopeVerifying
  | recon
  | authEstablishing
  | crawling
  | surfaceMapping
  | passiveChecks
  | activeInjection
  | accessControl
  | sessionChecks
  | businessLogic
  | verifying
  | triaging
  | reporting
  deriving DecidableEq, Repr

inductive PhaseStatus where
  | pending
  | running
  | completed
  | failed
  | skipped
  deriving DecidableEq, Repr

/-- `_LINEAR_TRANSITIONS`; a state without an entry has no successor. -/
def linearTransitions : ScanState → List ScanState
  | .queued => [.scopeVerifying]
  | .scopeVerifying => [.recon, .blockedUnverified]
  | .recon => [.authEstablishing]
  | .authEstablishing => [.crawling, .failedAuth]
  | .crawling => [.surfaceMapping]
  | .surfaceMapping => [.passiveChecks]
  | .passiveChecks => [.testing]
  | .testing => [.verifying]
  | .verifying => [.triaging]
  | .triaging => [.reporting]
  | .reporting => [.complete]
  | _ => []

/-! ## The machine -/

inductive MachineError where
  | invalidTransition (current target : ScanState)
  | invalidResume
  deriving DecidableEq, Repr

structure ScanStateMachine where
  current : ScanState := .queued
  pausedFrom : Option ScanState := none
  failReason : Option String := none
  deriving DecidableEq, Repr

namespace ScanStateMachine

/-- `is_terminal`. -/
def isTerminal (m : ScanStateMachine) : Bool := m.current ∈ terminalStates

/-- `can_transition`. -/
def canTransition (m : ScanStateMachine) (target : ScanState) : Bool :=
  if m.isTerminal then false
  else if target = .paused then m.current ≠ .paused
  else if target ∈ [ScanState.cancelled, .failed] then true
  else target ∈ linearTransitions m.current

/-- `transition`. -/
def transition (m : ScanStateMachine) (target : ScanState) (reason : Option String := none) :
    Except MachineError ScanStateMachine :=
  if m.canTransition target then
    .ok {
      current := target
      pausedFrom := if target = .paused then some m.current else m.pausedFrom
      failReason := if target = .failed then reason else m.failReason }
  else .error (.invalidTransition m.current target)

/-- `resume`. -/
def resume (m : ScanStateMachine) : Except MachineError ScanStateMachine :=
  if m.current ≠ .paused then .error .invalidResume
  else
    match m.pausedFrom with
    | none => .error .invalidResume
    | some state => .ok { m with current := state, pausedFrom := none }

theorem transition_ok {m : ScanStateMachine} {target : ScanState} (reason : Option String)
    (h : m.canTransition target = true) :
    m.transition target reason = .ok {
      current := target
      pausedFrom := if target = .paused then some m.current else m.pausedFrom
      failReason := if target = .failed then reason else m.failReason } := by
  rw [transition, if_pos h]

theorem transition_error {m : ScanStateMachine} {target : ScanState} (reason : Option String)
    (h : m.canTransition target = false) :
    m.transition target reason = .error (.invalidTransition m.current target) := by
  rw [transition, h]
  rfl

/-- Scope verification is entered from the queue and from nowhere else. -/
theorem canTransition_scopeVerifying (m : ScanStateMachine) :
    m.canTransition .scopeVerifying = true ↔ m.current = .queued := by
  cases hstate : m.current <;> simp [canTransition, isTerminal, terminalStates, linearTransitions, hstate]

end ScanStateMachine

/-! ## The order of the lifecycle -/

/-- How far along the lifecycle a state is. A paused scan is where it was
paused; `CANCELLED` and `FAILED` come after everything. -/
def ScanState.rank : ScanState → Nat
  | .queued => 0
  | .scopeVerifying => 1
  | .recon => 2
  | .blockedUnverified => 2
  | .authEstablishing => 3
  | .crawling => 4
  | .failedAuth => 4
  | .surfaceMapping => 5
  | .passiveChecks => 6
  | .testing => 7
  | .verifying => 8
  | .triaging => 9
  | .reporting => 10
  | .complete => 11
  | .paused => 0
  | .cancelled => 12
  | .failed => 12

/-- The rank of a state with the state it was paused from. -/
def lifecycleRank (state : ScanState) (pausedFrom : Option ScanState) : Nat :=
  match state with
  | .paused => (pausedFrom.map ScanState.rank).getD 0
  | _ => state.rank

/-- The successors in the table come later in the lifecycle. -/
theorem rank_lt_of_linear {current target : ScanState} (h : target ∈ linearTransitions current) :
    current.rank < target.rank := by
  cases current <;> simp only [linearTransitions, List.mem_cons, List.not_mem_nil, or_false] at h
  all_goals rcases h with rfl | rfl <;> decide

end Sentinel.Core
