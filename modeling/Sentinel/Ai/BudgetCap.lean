/-
Sentinel.Ai.BudgetCap — how far the calls on one client may overrun its budget.

No request is made once the budget is used up. While a call waits others
may use it up, and the usage of the waiting call comes on top. If each usage
is recorded before the budget is used up, the overrun is at most the largest
usage of a call (`budget_cap`); calls that do not overlap do so
(`recordsInBudget_of_oneAtATime`).
-/
import Sentinel.Ai.Client

namespace Sentinel.Ai

open Sentinel.Py Sentinel.Trace

/-- The largest usage of a call. -/
def largest (usages : List TokenUsage) : ℕ :=
  usages.foldr (fun usage largest => max usage.total largest) 0

theorem largest_cons (usage : TokenUsage) (usages : List TokenUsage) :
    largest (usage :: usages) = max usage.total (largest usages) := rfl

/-- A usage is recorded before the budget is used up. -/
def ClientRun.RecordsInBudget (s : ClientRun) : ClientAction → Prop
  | .responds i _ => (s.pending i).isSome → s.client.budget.used < s.client.budget.limit
  | .call _ _ | .raises _ _ => True

instance (s : ClientRun) (a : ClientAction) : Decidable (s.RecordsInBudget a) :=
  match a with
  | .responds _ _ => inferInstanceAs (Decidable (_ → _))
  | .call _ _ => isTrue trivial
  | .raises _ _ => isTrue trivial

/-! ## One action -/

theorem begin_ok {client : LLMClient} {request : CompletionRequest} {made : PendingCall × CreateCall}
    (h : client.begin request = .ok made) : client.budget.used < client.budget.limit := by
  by_contra hused
  have hexhausted : client.budget.isExhausted = true := by
    simp only [TokenBudget.isExhausted, decide_eq_true_eq]
    omega
  simp [LLMClient.begin, hexhausted] at h

/-- What an action can do to the budget, the requests and the usages. -/
theorem step_cases (s : ClientRun) (a : ClientAction) :
    ((s.step a).client = s.client ∧ (s.step a).recorded = s.recorded ∧
      ((s.step a).created = s.created ∨
        s.client.budget.used < s.client.budget.limit ∧
          ∃ made : Created, made.used = s.client.budget.used ∧
            (s.step a).created = made :: s.created)) ∨
    ∃ i response, a = .responds i response ∧ (s.pending i).isSome ∧
      (s.step a).client = { s.client with budget := s.client.budget.record response.usage } ∧
      (s.step a).recorded = response.usage :: s.recorded ∧ (s.step a).created = s.created := by
  cases a with
  | call i request =>
    left
    cases hpending : s.pending i with
    | some call => simp [ClientRun.step, hpending]
    | none =>
      cases hbegin : s.client.begin request with
      | error e => simp [ClientRun.step, hpending, hbegin]
      | ok made =>
        have hused := begin_ok hbegin
        obtain ⟨call, create⟩ := made
        simp only [ClientRun.step, hpending, hbegin]
        exact ⟨rfl, rfl, .inr ⟨hused, s.next i request create, rfl, rfl⟩⟩
  | responds i response =>
    cases hpending : s.pending i with
    | none => left; simp [ClientRun.step, hpending]
    | some call =>
      right
      refine ⟨i, response, rfl, by simp [hpending], ?_, ?_, ?_⟩ <;>
        simp [ClientRun.step, hpending, LLMClient.finish, ClientRun.setPending]
  | raises i message =>
    left
    cases hpending : s.pending i with
    | none => simp [ClientRun.step, hpending]
    | some call => simp [ClientRun.step, hpending, ClientRun.setPending]

theorem step_limit (s : ClientRun) (a : ClientAction) :
    (s.step a).client.budget.limit = s.client.budget.limit := by
  obtain ⟨hclient, -⟩ | ⟨i, response, -, -, hclient, -⟩ := step_cases s a
  · rw [hclient]
  · rw [hclient]; rfl

/-! ## Requests -/

/-- Each request was made before the budget was used up. -/
def ClientRun.AsksInBudget (limit : ℤ) (s : ClientRun) : Prop :=
  s.client.budget.limit = limit ∧ ∀ created ∈ s.created, created.used < limit

theorem asksInBudget_step {limit : ℤ} {s : ClientRun} (h : s.AsksInBudget limit)
    (a : ClientAction) : (s.step a).AsksInBudget limit := by
  obtain ⟨hlimit, hcreated⟩ := h
  refine ⟨(step_limit s a).trans hlimit, ?_⟩
  obtain ⟨-, -, hsame | ⟨hused, made, hmade, hmore⟩⟩ | ⟨i, response, -, -, -, -, hsame⟩ :=
    step_cases s a
  · rwa [hsame]
  · rw [hmore]
    intro created hmem
    rcases List.mem_cons.mp hmem with rfl | hmem
    · omega
    · exact hcreated created hmem
  · rwa [hsame]

theorem asksInBudget_run {limit : ℤ} {s : ClientRun} (h : s.AsksInBudget limit)
    (actions : List ClientAction) : (run ClientRun.step s actions).AsksInBudget limit := by
  induction actions generalizing s with
  | nil => exact h
  | cons a actions ih => exact ih (asksInBudget_step h a)

/-! ## Usages -/

/-- The budget is overrun by one usage at most. -/
def ClientRun.Capped (s : ClientRun) : Prop :=
  s.client.budget.used ≤ s.client.budget.limit + largest s.recorded

theorem capped_step {s : ClientRun} {a : ClientAction} (h : s.Capped) (ha : s.RecordsInBudget a) :
    (s.step a).Capped := by
  have hlimit := step_limit s a
  unfold ClientRun.Capped at h ⊢
  obtain ⟨hclient, hrecorded, -⟩ | ⟨i, response, rfl, hpending, hclient, hrecorded, -⟩ :=
    step_cases s a
  · rw [hclient, hrecorded]
    exact h
  · have hused : s.client.budget.used < s.client.budget.limit := ha hpending
    have hrecord : (s.step (.responds i response)).client.budget.used =
        s.client.budget.used + response.usage.total := by
      rw [hclient]; rfl
    rw [hrecord, hlimit, hrecorded, largest_cons]
    omega

/-! ## Runs -/

/-- **The cap.** At every moment of a run each request was made before the
budget was used up; and if each usage was recorded before it was, no more
than the largest usage of a call comes on top of the limit. -/
theorem budget_cap (client : LLMClient) (hused : client.budget.used ≤ client.budget.limit)
    (actions p : List ClientAction) (hp : p <+: actions) :
    (∀ created ∈ (run ClientRun.step { client := client } p).created,
      created.used < client.budget.limit) ∧
    (Along ClientRun.step ClientRun.RecordsInBudget { client := client } actions →
      (run ClientRun.step { client := client } p).client.budget.used ≤
        client.budget.limit + largest (run ClientRun.step { client := client } p).recorded) := by
  have hstart : ClientRun.AsksInBudget client.budget.limit { client := client } :=
    ⟨rfl, by simp⟩
  have hasks : (run ClientRun.step { client := client } p).AsksInBudget client.budget.limit :=
    asksInBudget_run hstart p
  refine ⟨hasks.2, fun halong => ?_⟩
  have hfresh : ClientRun.Capped { client := client } := by
    show client.budget.used ≤ client.budget.limit + (largest [] : ℕ)
    simpa [largest] using hused
  have hcapped : (run ClientRun.step { client := client } p).Capped :=
    run_invariant (fun s a h ha => capped_step h ha) hfresh (halong.initial hp)
  rw [← hasks.1]
  exact hcapped

def hundredTokens : LLMClient := { budget := { limit := 100 } }

def classify : CompletionRequest where
  tier := .low
  system := "s".toList
  prompt := "p".toList
  schema := .obj []

/-- A response of 150 tokens in prose. -/
def prose : MessageResponse where
  content := [{ type := some "text".toList }]
  usage := ⟨100, 50⟩

/-- One call overruns its budget of 100 tokens by less than its usage; the
next makes no request. -/
theorem budget_cap_prose :
    (run ClientRun.step { client := hundredTokens }
        [.call 0 classify, .responds 0 prose, .call 1 classify]).client.budget.used ≤
      100 + largest (run ClientRun.step { client := hundredTokens }
        [.call 0 classify, .responds 0 prose, .call 1 classify]).recorded :=
  (budget_cap hundredTokens (by decide) [.call 0 classify, .responds 0 prose, .call 1 classify] _
    (List.prefix_refl _)).2 (by decide +kernel)

/-- Two calls that wait at the same time use 300 tokens of 100, 150 each. -/
theorem overlapping_calls_overrun :
    ¬ (run ClientRun.step { client := hundredTokens }
        [.call 0 classify, .call 1 classify, .responds 0 prose,
          .responds 1 prose]).client.budget.used ≤
      100 + largest (run ClientRun.step { client := hundredTokens }
        [.call 0 classify, .call 1 classify, .responds 0 prose, .responds 1 prose]).recorded := by
  decide +kernel

/-! ## Calls that do not overlap -/

/-- A call is made only if no other waits. -/
def ClientRun.OneAtATime (s : ClientRun) : ClientAction → Prop
  | .call _ _ => ∀ i, s.pending i = none
  | .responds _ _ | .raises _ _ => True

/-- At most one call waits, and while one does the budget is not used up. -/
def ClientRun.OneWaits (s : ClientRun) : Prop :=
  ∀ i, (s.pending i).isSome →
    s.client.budget.used < s.client.budget.limit ∧ ∀ j, (s.pending j).isSome → j = i

theorem oneWaits_of_none {s : ClientRun} (h : ∀ i, s.pending i = none) : s.OneWaits := by
  intro i hi
  simp [h i] at hi

/-- Where the only call that waits has ended, none waits. -/
theorem pending_none_of_end {s : ClientRun} (h : s.OneWaits) {i : ℕ} (hi : (s.pending i).isSome)
    (j : ℕ) : (s.setPending i none).pending j = none := by
  by_cases hj : j = i
  · simp [ClientRun.setPending, hj]
  · have hnone : ¬ (s.pending j).isSome := fun hsome => hj ((h i hi).2 j hsome)
    simpa [ClientRun.setPending, hj] using hnone

theorem oneWaits_step {s : ClientRun} {a : ClientAction} (h : s.OneWaits) (ha : s.OneAtATime a) :
    (s.step a).OneWaits := by
  cases a with
  | call i request =>
    have hnone : ∀ j, s.pending j = none := ha
    cases hbegin : s.client.begin request with
    | error e =>
      refine oneWaits_of_none fun j => ?_
      simp [ClientRun.step, hnone, hbegin]
    | ok made =>
      have hused := begin_ok hbegin
      obtain ⟨call, create⟩ := made
      have hstep : s.step (.call i request) =
          { s.setPending i (some ⟨s.next i request create, call⟩) with
            created := s.next i request create :: s.created } := by
        simp [ClientRun.step, hnone, hbegin]
      have honly : ∀ j, ((s.step (.call i request)).pending j).isSome → j = i := by
        intro j hj
        by_contra hne
        simp [hstep, ClientRun.setPending, hne, hnone] at hj
      rw [hstep] at honly ⊢
      intro j hj
      refine ⟨hused, fun k hk => ?_⟩
      rw [honly j hj, honly k hk]
  | responds i response =>
    cases hpending : s.pending i with
    | none => simpa [ClientRun.step, hpending] using h
    | some call =>
      refine oneWaits_of_none fun j => ?_
      simpa [ClientRun.step, hpending, LLMClient.finish] using
        pending_none_of_end h (by simp [hpending]) j
  | raises i message =>
    cases hpending : s.pending i with
    | none => simpa [ClientRun.step, hpending] using h
    | some call =>
      refine oneWaits_of_none fun j => ?_
      simpa [ClientRun.step, hpending] using pending_none_of_end h (by simp [hpending]) j

/-- Calls that do not overlap record each usage before the budget is used up. -/
theorem recordsInBudget_of_oneAtATime {s : ClientRun} {actions : List ClientAction}
    (hs : s.OneWaits) (h : Along ClientRun.step ClientRun.OneAtATime s actions) :
    Along ClientRun.step ClientRun.RecordsInBudget s actions := by
  induction actions generalizing s with
  | nil => trivial
  | cons a actions ih =>
    refine ⟨?_, ih (oneWaits_step hs h.1) h.2⟩
    cases a with
    | responds i response => exact fun hi => (hs i hi).1
    | call i request => trivial
    | raises i message => trivial

end Sentinel.Ai
