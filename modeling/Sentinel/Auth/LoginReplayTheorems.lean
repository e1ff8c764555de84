/-
Sentinel.Auth.LoginReplayTheorems — when a replay comes back.

A replay goes through its steps until one fails. `Comes` says where it can
get to; it comes back exactly if nothing it gets to fails in a way its
`except` clauses do not name (`replay_returns_iff`).
-/
import Sentinel.Auth.LoginReplay
import Sentinel.Py.Except

namespace Sentinel.Auth

open Sentinel.Py

/-- The error, if there is one, is one of those that are caught. -/
def Caught {α : Type} (outcome : Except ReplayError α) : Prop :=
  ∀ e, outcome = .error e → e.isCaught = true

variable {α β : Type} {b : BrowserRun} {credentials : List (Str × Credential)}

theorem caught_ok (a : α) : Caught (.ok a) := fun _ h => nomatch h

theorem caught_error {e : ReplayError} :
    Caught (.error e : Except ReplayError α) ↔ e.isCaught = true :=
  ⟨fun h => h e rfl, fun h _ heq => Except.error.inj heq ▸ h⟩

/-- A sequence fails in a caught way only if its first part does and,
where that succeeds, the rest does. -/
theorem caught_bind {x : Except ReplayError α} {f : α → Except ReplayError β} :
    Caught (x >>= f) ↔ Caught x ∧ ∀ a, x = .ok a → Caught (f a) := by
  cases x with
  | ok a =>
    constructor
    · intro h
      refine ⟨caught_ok a, fun a' ha' => ?_⟩
      rw [← Except.ok.inj ha']
      exact h
    · exact fun h => h.2 a rfl
  | error e =>
    exact ⟨fun h => ⟨caught_error.mpr (caught_error.mp h), fun _ h => (nomatch h)⟩,
      fun h => caught_error.mpr (caught_error.mp h.1)⟩

theorem caught_playwright {x : Except PlaywrightError α} :
    Caught (x.mapError .playwright) ↔ ∀ msg, x ≠ .error (.other msg) := by
  cases x with
  | ok a => exact ⟨fun _ _ h => (nomatch h), fun _ => caught_ok a⟩
  | error e =>
    refine caught_error.trans ?_
    cases e with
    | timeout msg => exact ⟨fun _ _ h => (nomatch h), fun _ => rfl⟩
    | other msg => exact ⟨fun h => (nomatch h), fun h => absurd rfl (h msg)⟩

/-! ## Where a replay gets to -/

/-- From the operations `done` with `steps` to go the replay gets to
`done'` with `steps'` to go. -/
inductive Reaches (b : BrowserRun) (credentials : List (Str × Credential)) :
    List PageOp → List LoginStep → List PageOp → List LoginStep → Prop where
  | here (done : List PageOp) (steps : List LoginStep) : Reaches b credentials done steps done steps
  | step {done done' next : List PageOp} {s : LoginStep} {rest steps' : List LoginStep} :
      b.runStep credentials done s = .ok next → Reaches b credentials next rest done' steps' →
      Reaches b credentials done (s :: rest) done' steps'

/-- The steps, and what follows them, fail in caught ways only if each
step the replay gets to does and what follows does. -/
theorem caught_steps {steps : List LoginStep} {done : List PageOp}
    {after : List PageOp → Except ReplayError α} :
    Caught (steps.foldlM (b.runStep credentials) done >>= after) ↔
      (∀ done' s rest, Reaches b credentials done steps done' (s :: rest) →
        Caught (b.runStep credentials done' s)) ∧
      ∀ done', Reaches b credentials done steps done' [] → Caught (after done') := by
  induction steps generalizing done with
  | nil =>
    constructor
    · intro h
      refine ⟨fun done' s rest hreach => (nomatch hreach), fun done' hreach => ?_⟩
      cases hreach
      exact h
    · exact fun h => h.2 done (.here done [])
  | cons s steps ih =>
    rw [List.foldlM_cons, bind_assoc, caught_bind]
    constructor
    · rintro ⟨hstep, hrest⟩
      constructor
      · intro done' s' rest hreach
        cases hreach with
        | here => exact hstep
        | step hnext hreach => exact (ih.mp (hrest _ hnext)).1 done' s' rest hreach
      · intro done' hreach
        cases hreach with
        | step hnext hreach => exact (ih.mp (hrest _ hnext)).2 done' hreach
    · rintro ⟨hsteps, hafter⟩
      refine ⟨hsteps done s steps (.here done _), fun next hnext => ih.mpr ⟨?_, ?_⟩⟩
      · exact fun done' s' rest hreach => hsteps done' s' rest (.step hnext hreach)
      · exact fun done' hreach => hafter done' (.step hnext hreach)

/-- The replay of a recipe gets to `done` with `steps` to go. -/
def Comes (b : BrowserRun) (recipe : LoginRecipe) (credentials : List (Str × Credential))
    (done : List PageOp) (steps : List LoginStep) : Prop :=
  ∃ opened, b.act [] recipe.opening = .ok opened ∧
    Reaches b credentials opened recipe.steps done steps

variable [PyRuntime]

/-- Nothing the replay comes to fails in a way it does not handle: the
browser gives a context and a page and closes them, every step has its
arguments and a known action, and no page operation fails otherwise than
by a timeout. -/
structure ReplayQuiet (b : BrowserRun) (recipe : LoginRecipe)
    (credentials : List (Str × Credential)) : Prop where
  newContext : b.newContext = .ok ()
  newPage : b.newPage = .ok ()
  opening : Caught (b.act [] recipe.opening)
  steps : ∀ done s rest, Comes b recipe credentials done (s :: rest) →
    Caught (b.runStep credentials done s)
  assertion : ∀ done, Comes b recipe credentials done [] →
    Caught (b.checkAssertion done recipe.successAssertion)
  storageState : ∀ done done', Comes b recipe credentials done [] →
    b.checkAssertion done recipe.successAssertion = .ok (some done') →
    ∀ msg, b.storageState done' ≠ .error (.other msg)
  close : b.close = .ok ()

theorem caught_finish_iff {recipe : LoginRecipe} {done : List PageOp} :
    Caught (b.finish recipe done) ↔
      Caught (b.checkAssertion done recipe.successAssertion) ∧
      ∀ done', b.checkAssertion done recipe.successAssertion = .ok (some done') →
        ∀ msg, b.storageState done' ≠ .error (.other msg) := by
  rw [BrowserRun.finish, caught_bind]
  refine and_congr_right fun _ => ⟨fun h done' hdone' => ?_, fun h found hfound => ?_⟩
  · exact caught_playwright.mp (caught_bind.mp (h _ hdone')).1
  · cases found with
    | none => exact caught_ok _
    | some done' =>
      exact caught_bind.mpr ⟨caught_playwright.mpr (h done' hfound), fun _ _ => caught_ok _⟩

theorem caught_attempt_iff {recipe : LoginRecipe} :
    Caught (b.attempt recipe credentials) ↔
      Caught (b.act [] recipe.opening) ∧
      (∀ done s rest, Comes b recipe credentials done (s :: rest) →
        Caught (b.runStep credentials done s)) ∧
      ∀ done, Comes b recipe credentials done [] → Caught (b.finish recipe done) := by
  rw [BrowserRun.attempt, caught_bind]
  refine and_congr_right fun _ => ⟨fun h => ⟨?_, ?_⟩, fun h opened hopened => ?_⟩
  · rintro done s rest ⟨opened, hopened, hreach⟩
    exact (caught_steps.mp (h opened hopened)).1 done s rest hreach
  · rintro done ⟨opened, hopened, hreach⟩
    exact (caught_steps.mp (h opened hopened)).2 done hreach
  · exact caught_steps.mpr ⟨fun done s rest hreach => h.1 done s rest ⟨opened, hopened, hreach⟩,
      fun done hreach => h.2 done ⟨opened, hopened, hreach⟩⟩

theorem handleReplay_returns_iff {outcome : Except ReplayError LoginReplayResult} :
    (∃ result, handleReplay outcome = .ok result) ↔ Caught outcome := by
  cases outcome with
  | ok result => exact ⟨fun _ => caught_ok result, fun _ => ⟨result, rfl⟩⟩
  | error e =>
    rw [caught_error]
    cases e with
    | playwright e =>
      cases e with
      | timeout msg => exact ⟨fun _ => rfl, fun _ => ⟨_, rfl⟩⟩
      | other msg => exact ⟨fun ⟨_, h⟩ => (nomatch h), fun h => (nomatch h)⟩
    | keyError key => exact ⟨fun _ => rfl, fun _ => ⟨_, rfl⟩⟩
    | assertionError => exact ⟨fun ⟨_, h⟩ => (nomatch h), fun h => (nomatch h)⟩
    | valueError msg => exact ⟨fun ⟨_, h⟩ => (nomatch h), fun h => (nomatch h)⟩

/-- **A replay comes back** exactly if nothing it comes to fails in a way
it does not handle. -/
theorem replay_returns_iff {recipe : LoginRecipe} :
    (∃ result, b.replay recipe credentials = .ok result) ↔ ReplayQuiet b recipe credentials := by
  have hreplay : ∀ result, b.replay recipe credentials = .ok result ↔
      b.newContext = .ok () ∧ b.newPage = .ok () ∧ b.close = .ok () ∧
        handleReplay (b.attempt recipe credentials) = .ok result := by
    intro result
    simp only [BrowserRun.replay, bind_eq_ok, mapError_eq_ok]
    constructor
    · rintro ⟨⟨⟩, hcontext, ⟨⟩, hpage, ⟨⟩, hclose, hresult⟩
      exact ⟨hcontext, hpage, hclose, hresult⟩
    · rintro ⟨hcontext, hpage, hclose, hresult⟩
      exact ⟨(), hcontext, (), hpage, (), hclose, hresult⟩
  simp only [hreplay, exists_and_left, handleReplay_returns_iff, caught_attempt_iff,
    caught_finish_iff]
  constructor
  · rintro ⟨hcontext, hpage, hclose, hopening, hsteps, hfinish⟩
    exact ⟨hcontext, hpage, hopening, hsteps, fun done hcomes => (hfinish done hcomes).1,
      fun done done' hcomes => (hfinish done hcomes).2 done', hclose⟩
  · intro h
    exact ⟨h.newContext, h.newPage, h.close, h.opening, h.steps,
      fun done hcomes => ⟨h.assertion done hcomes, fun done' => h.storageState done done' hcomes⟩⟩

end Sentinel.Auth
