/-
Sentinel.Durable.Program — programs that work in a session and commit.

A program works on the state of its session. It may stop with an error of
its own, and at each of its points the surroundings may end it; what it
committed before stays, the rest is rolled back. The complete run, which
nothing ends from outside, is a function of the state it starts in. A run
that is ended at a point is the complete run cut there.
-/
import Sentinel.Trace.Run

namespace Sentinel.Durable

variable {σ ε α β : Type}

inductive Event (σ : Type) where
  | point
  | commit (s : σ)

/-- The state an event commits. -/
def Event.committed : Event σ → Option σ
  | .point => none
  | .commit s => some s

/-- A complete run: what it did, and how it ended with which session. -/
structure Outcome (σ ε α : Type) where
  events : List (Event σ)
  result : Except ε (α × σ)

/-- The committed states in the order of the commits. -/
def Outcome.committed (o : Outcome σ ε α) : List σ := o.events.filterMap Event.committed

def Program (σ ε α : Type) : Type := σ → Outcome σ ε α

namespace Program

instance : Monad (Program σ ε) where
  pure a := fun s => ⟨[], .ok (a, s)⟩
  bind p f := fun s =>
    match p s with
    | ⟨events, .error e⟩ => ⟨events, .error e⟩
    | ⟨events, .ok (a, s')⟩ =>
      match f a s' with
      | ⟨events', result⟩ => ⟨events ++ events', result⟩

/-- A place where the surroundings may end the run. -/
def point : Program σ ε Unit := fun s => ⟨[.point], .ok ((), s)⟩

/-- The state of the session. -/
def get : Program σ ε σ := fun s => ⟨[], .ok (s, s)⟩

def modify (f : σ → σ) : Program σ ε Unit := fun s => ⟨[], .ok ((), f s)⟩

def raise (e : ε) : Program σ ε α := fun _ => ⟨[], .error e⟩

def ofExcept : Except ε α → Program σ ε α
  | .ok a => pure a
  | .error e => raise e

/-- A commit may fail before it takes effect and after it did. -/
def commit : Program σ ε Unit := fun s => ⟨[.point, .commit s, .point], .ok ((), s)⟩

theorem pure_bind (a : α) (f : α → Program σ ε β) : (pure a >>= f : Program σ ε β) = f a := rfl

theorem bind_assoc {γ : Type} (p : Program σ ε α) (f : α → Program σ ε β)
    (g : β → Program σ ε γ) : (p >>= f) >>= g = p >>= fun a => f a >>= g := by
  funext s
  simp only [bind]
  rcases p s with ⟨events, _ | ⟨a, s'⟩⟩
  · rfl
  · rcases hf : f a s' with ⟨events', _ | ⟨b, s''⟩⟩
    · simp only [hf]
    · simp only [hf, List.append_assoc]

end Program

/-! ## Runs that are ended from outside -/

inductive Ending (ε α : Type) where
  | returned (a : α)
  | raised (e : ε)
  | interrupted
  deriving DecidableEq, Repr

/-- What a run leaves behind. -/
structure Report (σ ε α : Type) where
  committed : List σ
  ending : Ending ε α

/-- The state that is on disk after a run that found `s` there. -/
def Report.persisted (r : Report σ ε α) (s : σ) : σ := r.committed.getLastD s

/-- The events before point number `n`. -/
def eventsBefore : Nat → List (Event σ) → List (Event σ)
  | _, [] => []
  | 0, .point :: _ => []
  | n + 1, .point :: events => .point :: eventsBefore n events
  | n, .commit s :: events => .commit s :: eventsBefore n events

/-- How many points there are. -/
def pointCount : List (Event σ) → Nat
  | [] => 0
  | .point :: events => pointCount events + 1
  | .commit _ :: events => pointCount events

/-- The report of a run that nothing ended from outside. -/
def Outcome.report (o : Outcome σ ε α) : Report σ ε α :=
  ⟨o.committed,
    match o.result with
    | .ok (a, _) => .returned a
    | .error e => .raised e⟩

/-- A run that is ended at point `stop`, if the run comes to it. -/
def Program.attempt (p : Program σ ε α) (stop : Option Nat) (s : σ) : Report σ ε α :=
  match stop with
  | none => (p s).report
  | some n =>
    if n < pointCount (p s).events then
      ⟨(eventsBefore n (p s).events).filterMap Event.committed, .interrupted⟩
    else (p s).report

theorem eventsBefore_isPrefix (n : Nat) (events : List (Event σ)) :
    eventsBefore n events <+: events := by
  induction events generalizing n with
  | nil => simp [eventsBefore]
  | cons e events ih =>
    cases e with
    | commit s =>
      rw [eventsBefore]
      exact (List.prefix_cons_inj _).mpr (ih n)
    | point =>
      cases n with
      | zero => exact List.nil_prefix
      | succ n =>
        rw [eventsBefore]
        exact (List.prefix_cons_inj _).mpr (ih n)

/-- **What a run commits** is a first part of what the complete run commits. -/
theorem attempt_committed_isPrefix (p : Program σ ε α) (stop : Option Nat) (s : σ) :
    (p.attempt stop s).committed <+: (p s).committed := by
  unfold Program.attempt
  split
  · exact List.prefix_rfl
  · split
    · exact (eventsBefore_isPrefix _ _).filterMap _
    · exact List.prefix_rfl

/-- A run that was not interrupted is the complete one. -/
theorem attempt_eq_report {p : Program σ ε α} {stop : Option Nat} {s : σ}
    (h : (p.attempt stop s).ending ≠ .interrupted) : p.attempt stop s = (p s).report := by
  unfold Program.attempt at h ⊢
  split
  · rfl
  · split
    · next n hn => simp [hn] at h
    · rfl

/-- An error of the run is an error of the complete run. -/
theorem result_of_attempt_raised {p : Program σ ε α} {stop : Option Nat} {s : σ} {e : ε}
    (h : (p.attempt stop s).ending = .raised e) : (p s).result = .error e := by
  have hreport : p.attempt stop s = (p s).report := attempt_eq_report (by simp [h])
  rw [hreport, Outcome.report] at h
  split at h
  · cases h
  · next e' he =>
    obtain rfl : e' = e := by simpa using h
    exact he

/-! ## One run after another -/

/-- A run to be made: the program, and the point at which it will end. -/
structure Attempt (σ ε α : Type) where
  program : Program σ ε α
  stop : Option Nat

/-- What an attempt leaves behind when it finds `s` on disk. -/
def Attempt.report (a : Attempt σ ε α) (s : σ) : Report σ ε α := a.program.attempt a.stop s

/-- What is on disk after an attempt. -/
def Attempt.next (s : σ) (a : Attempt σ ε α) : σ := (a.report s).persisted s

/-- Everything that successive attempts commit. -/
def committedBy : σ → List (Attempt σ ε α) → List σ
  | _, [] => []
  | s, a :: attempts => (a.report s).committed ++ committedBy (a.next s) attempts

theorem getLastD_append (s : σ) (xs ys : List σ) :
    (xs ++ ys).getLastD s = ys.getLastD (xs.getLastD s) := by
  cases ys with
  | nil => simp
  | cons y ys => simp [List.getLastD_eq_getLast?, List.getLast?_append]

end Sentinel.Durable
