/-
Sentinel.Ai.Overlap — several callers on one client.

A call reads the budget when it is made and is charged when its response
comes, so callers that overlap overrun the budget together: by no more than
the largest usage for each of them (`overrun_bounded`). What is used never
falls, so a client that degrades tiers does so for good
(`degraded_for_good`).
-/
import Mathlib.Data.Finset.Card
import Sentinel.Ai.BudgetCap

namespace Sentinel.Ai

open Sentinel.Py Sentinel.Trace

/-! ## Callers that wait for nothing -/

/-- Whose call an action is about. -/
def ClientAction.caller : ClientAction → ℕ
  | .call i _ => i
  | .responds i _ => i
  | .raises i _ => i

/-- How many of `n` callers wait for nothing. -/
def ClientRun.idle (s : ClientRun) (n : ℕ) : ℕ :=
  ((Finset.range n).filter fun i => (s.pending i).isNone).card

/-- The call of a caller has ended. -/
theorem idle_setPending_none {s : ClientRun} {i n : ℕ} (hi : i < n)
    (hwaits : (s.pending i).isSome) : (s.setPending i none).idle n = s.idle n + 1 := by
  unfold ClientRun.idle
  have hnot : i ∉ (Finset.range n).filter fun j => (s.pending j).isNone := by
    intro hmem
    have hnone := (Finset.mem_filter.mp hmem).2
    rw [Option.isNone_iff_eq_none] at hnone
    simp [hnone] at hwaits
  rw [← Finset.card_insert_of_notMem hnot]
  congr 1
  ext j
  by_cases hj : j = i
  · simp [ClientRun.setPending, hj, hi]
  · simp [ClientRun.setPending, hj]

/-- What an action of one of `n` callers does to the budget, by the number
of those that wait for nothing. -/
theorem step_idle (s : ClientRun) {a : ClientAction} {n : ℕ} (ha : a.caller < n) :
    ((s.step a).client = s.client ∧ (s.step a).recorded = s.recorded ∧
      (s.client.budget.used < s.client.budget.limit ∨ s.idle n ≤ (s.step a).idle n)) ∨
    ∃ usage, (s.step a).client = { s.client with budget := s.client.budget.record usage } ∧
      (s.step a).recorded = usage :: s.recorded ∧ (s.step a).idle n = s.idle n + 1 := by
  cases a with
  | call i request =>
    left
    cases hpending : s.pending i with
    | some call => simp [ClientRun.step, hpending]
    | none =>
      cases hbegin : s.client.begin request with
      | error e => simp [ClientRun.step, hpending, hbegin, ClientRun.idle]
      | ok made =>
        have hused := begin_ok hbegin
        simp [ClientRun.step, hpending, hbegin, ClientRun.setPending, hused]
  | responds i response =>
    cases hpending : s.pending i with
    | none => left; simp [ClientRun.step, hpending]
    | some call =>
      right
      have hidle := idle_setPending_none (s := s) ha (by simp [hpending, ClientAction.caller])
      refine ⟨response.usage, ?_, ?_, ?_⟩
      · simp [ClientRun.step, hpending, LLMClient.finish, ClientRun.setPending]
      · simp [ClientRun.step, hpending, LLMClient.finish, ClientRun.setPending]
      · rw [← hidle]
        simp [ClientRun.step, hpending, ClientRun.idle, ClientAction.caller]
  | raises i message =>
    left
    cases hpending : s.pending i with
    | none => simp [ClientRun.step, hpending]
    | some call =>
      have hidle := idle_setPending_none (s := s) ha (by simp [hpending, ClientAction.caller])
      have hmore : (s.step (.raises i message)).idle n = s.idle n + 1 := by
        rw [← hidle]
        simp [ClientRun.step, hpending, ClientRun.idle, ClientAction.caller]
      refine ⟨?_, ?_, Or.inr ?_⟩
      · simp [ClientRun.step, hpending, ClientRun.setPending]
      · simp [ClientRun.step, hpending, ClientRun.setPending]
      · omega

/-! ## The overrun -/

/-- Beyond the limit there is at most the largest usage for each of `n`
callers that waits for nothing. `start` was used to begin with. -/
def ClientRun.WithinShares (start : ℤ) (n : ℕ) (s : ClientRun) : Prop :=
  s.client.budget.used ≤
    max s.client.budget.limit start + (s.idle n * largest s.recorded : ℕ)

theorem withinShares_step {start : ℤ} {n : ℕ} {s : ClientRun} {a : ClientAction}
    (h : s.WithinShares start n) (ha : a.caller < n) : (s.step a).WithinShares start n := by
  unfold ClientRun.WithinShares at h ⊢
  obtain ⟨hclient, hrecorded, hbelow | hidle⟩ | ⟨usage, hclient, hrecorded, hidle⟩ :=
    step_idle s ha
  · rw [hclient, hrecorded]
    omega
  · have hshares : s.idle n * largest s.recorded ≤ (s.step a).idle n * largest s.recorded :=
      Nat.mul_le_mul_right _ hidle
    rw [hclient, hrecorded]
    omega
  · have hused : (s.step a).client.budget.used = s.client.budget.used + usage.total := by
      rw [hclient]; rfl
    have hlimit : (s.step a).client.budget.limit = s.client.budget.limit := by
      rw [hclient]; rfl
    have hshares : s.idle n * largest s.recorded + usage.total ≤
        (s.idle n + 1) * max usage.total (largest s.recorded) := by
      have hlargest : s.idle n * largest s.recorded ≤
          s.idle n * max usage.total (largest s.recorded) :=
        Nat.mul_le_mul_left _ (le_max_right _ _)
      have husage : usage.total ≤ max usage.total (largest s.recorded) := le_max_left _ _
      rw [Nat.succ_mul]
      omega
    rw [hused, hlimit, hrecorded, hidle, largest_cons]
    omega

/-- **The overrun of callers that overlap.** At every moment of a run of
`n` callers, no more is used than the limit and the largest usage for each
caller that waits for nothing. -/
theorem overrun_bounded (client : LLMClient) {n : ℕ} {actions : List ClientAction}
    (hcallers : ∀ a ∈ actions, a.caller < n) :
    let s := run ClientRun.step { client := client } actions
    s.client.budget.used ≤ max client.budget.limit client.budget.used +
      (s.idle n * largest s.recorded : ℕ) := by
  intro s
  have hfresh : ClientRun.WithinShares client.budget.used n { client := client } := by
    show client.budget.used ≤ max client.budget.limit client.budget.used + (_ : ℕ)
    omega
  have hshares : s.WithinShares client.budget.used n :=
    run_invariant (fun s a h ha => withinShares_step h ha) hfresh (Along.of_forall hcallers _)
  have hasks : s.AsksInBudget client.budget.limit := asksInBudget_run ⟨rfl, by simp⟩ actions
  rw [← hasks.1]
  exact hshares

/-- Two callers use 300 tokens of 100 together, 150 each. -/
theorem overlapping_calls_bounded :
    let actions : List ClientAction :=
      [.call 0 classify, .call 1 classify, .responds 0 prose, .responds 1 prose]
    let s := run ClientRun.step { client := hundredTokens } actions
    s.client.budget.used = 300 ∧
      s.client.budget.used ≤ max 100 0 + (s.idle 2 * largest s.recorded : ℕ) := by
  intro actions s
  have hcallers : ∀ a ∈ actions, a.caller < 2 := by decide
  exact ⟨by decide +kernel, overrun_bounded hundredTokens hcallers⟩

/-! ## Degraded for good -/

/-- The budget is under pressure once `used` tokens are used. -/
def LLMClient.Pressed (client : LLMClient) (used : ℤ) : Prop :=
  { client.budget with used := used }.isUnderPressure = true

instance (client : LLMClient) (used : ℤ) : Decidable (client.Pressed used) :=
  inferInstanceAs (Decidable (_ = true))

/-- The tier a request is made for once `used` tokens are used. -/
def LLMClient.tierAt (client : LLMClient) (used : ℤ) (requested : ModelTier) : ModelTier :=
  if client.Pressed used then degradeTier requested else requested

theorem begin_cases {client : LLMClient} {request : CompletionRequest} {call : PendingCall}
    {create : CreateCall} (h : client.begin request = .ok (call, create)) :
    call.request = request ∧ call.effectiveTier = client.tierAt client.budget.used request.tier ∧
      client.modelIds call.effectiveTier = some call.model ∧ create.model = call.model := by
  unfold LLMClient.begin at h
  split at h
  · cases h
  · simp only at h
    split at h
    · cases h
    · obtain ⟨rfl, rfl⟩ := h
      exact ⟨rfl, rfl, ‹_›, rfl⟩

theorem degradeTier_ne_high (tier : ModelTier) : degradeTier tier ≠ .high := by
  cases tier <;> decide

/-- More tokens used is more pressure. -/
theorem pressed_of_le {client : LLMClient} {used more : ℤ} (hle : used ≤ more)
    (h : client.Pressed used) : client.Pressed more := by
  unfold LLMClient.Pressed TokenBudget.isUnderPressure TokenBudget.fractionUsed at h ⊢
  rw [decide_eq_true_eq] at h ⊢
  refine h.trans ?_
  by_cases hlimit : client.budget.limit ≤ 0
  · simp [hlimit]
  · have hpos : (0 : ℚ) < client.budget.limit := by
      exact_mod_cast not_le.mp hlimit
    have hcast : (used : ℚ) ≤ more := by
      exact_mod_cast hle
    simp only [hlimit, if_false]
    exact min_le_min_left 1 (div_le_div_of_nonneg_right hcast hpos.le)

/-- A request was made for a tier: its model is the tier's at the pressure
there was. -/
structure LLMClient.AskedFor (client : LLMClient) (made : Created) (effective : ModelTier)
    (model : Str) : Prop where
  tier : effective = client.tierAt made.used made.request.tier
  entry : client.modelIds effective = some model
  asked : made.call.model = model

/-- What holds of the requests, the calls that wait and the results of a
client. -/
structure ClientRun.Honest (client : LLMClient) (s : ClientRun) : Prop where
  same : s.client = { client with budget := { client.budget with used := s.client.budget.used } }
  asked : ∀ made ∈ s.created, made.used ≤ s.client.budget.used ∧
    ∃ effective model, client.AskedFor made effective model
  ordered : s.created.Pairwise fun later earlier => earlier.used ≤ later.used
  waits : ∀ i, ∀ w ∈ s.pending i, w.made ∈ s.created ∧ w.made.caller = i ∧
    w.call.request = w.made.request ∧ client.AskedFor w.made w.call.effectiveTier w.call.model
  told : ∀ e ∈ s.ended, ∀ result, e.outcome = .ok result → ∃ made ∈ s.created,
    e.made = some made ∧ made.caller = e.caller ∧ result.requestedTier = made.request.tier ∧
      client.AskedFor made result.effectiveTier result.modelUsed

theorem honest_fresh (client : LLMClient) : ClientRun.Honest client { client := client } where
  same := rfl
  asked := by simp
  ordered := List.Pairwise.nil
  waits := by simp
  told := by simp

/-- A caller ends without a result. -/
theorem honest_fails {client : LLMClient} {s : ClientRun} (h : s.Honest client) (i : ℕ)
    (made : Option Created) (error : CallError) :
    ClientRun.Honest client { s with ended := ⟨i, made, .error error⟩ :: s.ended } where
  same := h.same
  asked := h.asked
  ordered := h.ordered
  waits := h.waits
  told := by
    intro e he result hresult
    rcases List.mem_cons.mp he with rfl | he
    · cases hresult
    · exact h.told e he result hresult

theorem honest_setPending_none {client : LLMClient} {s : ClientRun} (h : s.Honest client)
    (i : ℕ) : (s.setPending i none).Honest client where
  same := h.same
  asked := h.asked
  ordered := h.ordered
  waits := by
    intro j w hj
    simp only [ClientRun.setPending] at hj
    split at hj
    · cases hj
    · exact h.waits j w hj
  told := h.told

/-- A request is made at the pressure of the moment. -/
theorem honest_asks {client : LLMClient} {s : ClientRun} (h : s.Honest client) (i : ℕ)
    {request : CompletionRequest} {call : PendingCall} {create : CreateCall}
    (hbegin : s.client.begin request = .ok (call, create)) :
    ClientRun.Honest client { s.setPending i (some ⟨s.next i request create, call⟩) with
      created := s.next i request create :: s.created } := by
  have hcall := begin_cases hbegin
  rw [h.same] at hcall
  obtain ⟨hrequest, htier, hentry, hasked⟩ := hcall
  have hasked : client.AskedFor (s.next i request create) call.effectiveTier call.model :=
    ⟨htier, hentry, hasked⟩
  refine { same := h.same, asked := ?_, ordered := ?_, waits := ?_, told := ?_ }
  · intro made hmem
    rcases List.mem_cons.mp hmem with rfl | hmem
    · exact ⟨le_refl _, _, _, hasked⟩
    · exact h.asked made hmem
  · exact List.pairwise_cons.mpr ⟨fun made hmem => (h.asked made hmem).1, h.ordered⟩
  · intro j w hj
    simp only [ClientRun.setPending] at hj
    split at hj
    · next hji =>
      cases hj
      exact ⟨List.mem_cons_self, hji.symm, hrequest, hasked⟩
    · obtain ⟨hmem, hrest⟩ := h.waits j w hj
      exact ⟨List.mem_cons_of_mem _ hmem, hrest⟩
  · intro e he result hresult
    obtain ⟨made, hmem, hmade⟩ := h.told e he result hresult
    exact ⟨made, List.mem_cons_of_mem _ hmem, hmade⟩

/-- A response is charged, and its result names what was asked for. -/
theorem honest_responds {client : LLMClient} {s : ClientRun} (h : s.Honest client) (i : ℕ)
    {w : Waiting} (hw : s.pending i = some w) (response : MessageResponse) :
    ClientRun.Honest client { s.setPending i none with
      client := (s.client.finish w.call response).1
      recorded := response.usage :: s.recorded
      ended := ⟨i, some w.made, (s.client.finish w.call response).2⟩ :: s.ended } := by
  have hrest := honest_setPending_none h i
  refine { same := ?_, asked := ?_, ordered := h.ordered, waits := hrest.waits, told := ?_ }
  · simp only [LLMClient.finish, TokenBudget.record]
    rw [h.same]
  · intro made hmem
    obtain ⟨hused, hasked⟩ := h.asked made hmem
    refine ⟨hused.trans ?_, hasked⟩
    simp only [LLMClient.finish, TokenBudget.record]
    omega
  · intro e he result hresult
    rcases List.mem_cons.mp he with rfl | he
    · simp only [LLMClient.finish] at hresult
      obtain ⟨hmem, hcaller, hrequest, hasked⟩ := h.waits i w hw
      cases hdata : extractToolInput response with
      | error error =>
        rw [hdata] at hresult
        cases hresult
      | ok data =>
        rw [hdata] at hresult
        cases hresult
        exact ⟨w.made, hmem, rfl, hcaller, congrArg CompletionRequest.tier hrequest, hasked⟩
    · exact h.told e he result hresult

theorem honest_step {client : LLMClient} {s : ClientRun} (h : s.Honest client)
    (a : ClientAction) : (s.step a).Honest client := by
  cases a with
  | call i request =>
    cases hpending : s.pending i with
    | some w => simpa [ClientRun.step, hpending] using h
    | none =>
      cases hbegin : s.client.begin request with
      | error e => simpa [ClientRun.step, hpending, hbegin] using honest_fails h i none e
      | ok made => simpa [ClientRun.step, hpending, hbegin] using honest_asks h i hbegin
  | responds i response =>
    cases hpending : s.pending i with
    | none => simpa [ClientRun.step, hpending] using h
    | some w => simpa [ClientRun.step, hpending] using honest_responds h i hpending response
  | raises i message =>
    cases hpending : s.pending i with
    | none => simpa [ClientRun.step, hpending] using h
    | some w =>
      simp only [ClientRun.step, hpending]
      exact honest_fails (honest_setPending_none h i) i (some w.made) (.provider message)

theorem honest_run {client : LLMClient} {s : ClientRun} (h : s.Honest client)
    (actions : List ClientAction) : (run ClientRun.step s actions).Honest client := by
  induction actions generalizing s with
  | nil => exact h
  | cons a actions ih => exact ih (honest_step h a)

/-! ## One result a request -/

/-- The numbers of the requests whose calls have ended. -/
def ClientRun.settled (s : ClientRun) : List ℕ := (s.ended.filterMap (·.made)).map (·.number)

/-- Requests have numbers of their own: those whose calls have ended, each
once, and those whose calls wait. -/
structure ClientRun.Single (s : ClientRun) : Prop where
  once : s.settled.Nodup
  settled : ∀ n ∈ s.settled, n < s.created.length
  waiting : ∀ i, ∀ w ∈ s.pending i, w.made.number < s.created.length ∧ w.made.number ∉ s.settled
  apart : ∀ i j, ∀ v ∈ s.pending i, ∀ w ∈ s.pending j, v.made.number = w.made.number → i = j

theorem single_fresh (client : LLMClient) : ClientRun.Single { client := client } where
  once := List.nodup_nil
  settled := by simp [ClientRun.settled]
  waiting := by simp
  apart := by simp

/-- A request gets the next number. -/
theorem single_asks {s : ClientRun} (h : s.Single) (i : ℕ) (request : CompletionRequest)
    (call : PendingCall) (create : CreateCall) :
    ClientRun.Single { s.setPending i (some ⟨s.next i request create, call⟩) with
      created := s.next i request create :: s.created } := by
  have hnew : (s.next i request create).number = s.created.length := rfl
  -- a call that waits is the new one, or waited before
  have hcases : ∀ {j w}, (s.setPending i (some ⟨s.next i request create, call⟩)).pending j =
      some w → (j = i ∧ w.made.number = s.created.length) ∨ s.pending j = some w := by
    intro j w hj
    simp only [ClientRun.setPending] at hj
    split at hj
    · next hji =>
      cases hj
      exact .inl ⟨hji, hnew⟩
    · exact .inr hj
  refine ⟨h.once, fun n hn => Nat.lt_succ_of_lt (h.settled n hn), fun j w hj => ?_,
    fun j k v hv w hw heq => ?_⟩
  · rcases hcases hj with ⟨-, hnumber⟩ | hold
    · exact ⟨hnumber ▸ Nat.lt_succ_self _, fun hmem => absurd (h.settled _ hmem) (by omega)⟩
    · exact ⟨Nat.lt_succ_of_lt (h.waiting j w hold).1, (h.waiting j w hold).2⟩
  · rcases hcases hv with ⟨rfl, hnumber⟩ | hold
    · rcases hcases hw with ⟨rfl, -⟩ | hother
      · rfl
      · have hless := (h.waiting k w hother).1
        omega
    · rcases hcases hw with ⟨rfl, hnumber⟩ | hother
      · have hless := (h.waiting j v hold).1
        omega
      · exact h.apart j k v hold w hother heq

/-- The call that waits for a request ends, and no other does. -/
theorem single_ends {s s' : ClientRun} (h : s.Single) {i : ℕ} {w : Waiting}
    (hw : s.pending i = some w) (hcreated : s'.created = s.created)
    (hpending : s'.pending = (s.setPending i none).pending)
    (hended : ∃ outcome, s'.ended = ⟨i, some w.made, outcome⟩ :: s.ended) : s'.Single := by
  obtain ⟨outcome, hended⟩ := hended
  have hsettled : s'.settled = w.made.number :: s.settled := by
    simp [ClientRun.settled, hended]
  have hcases : ∀ {j v}, s'.pending j = some v → j ≠ i ∧ s.pending j = some v := by
    intro j v hj
    simp only [hpending, ClientRun.setPending] at hj
    split at hj
    · cases hj
    · exact ⟨by assumption, hj⟩
  obtain ⟨hless, hnot⟩ := h.waiting i w hw
  refine ⟨?_, fun n hn => ?_, fun j v hv => ?_, fun j k u hu v hv => ?_⟩
  · rw [hsettled]
    exact List.nodup_cons.mpr ⟨hnot, h.once⟩
  · rw [hsettled] at hn
    rw [hcreated]
    rcases List.mem_cons.mp hn with rfl | hn
    · exact hless
    · exact h.settled n hn
  · obtain ⟨hne, hold⟩ := hcases hv
    obtain ⟨hvless, hvnot⟩ := h.waiting j v hold
    refine ⟨hcreated ▸ hvless, fun hmem => ?_⟩
    rw [hsettled] at hmem
    rcases List.mem_cons.mp hmem with heq | hmem
    · exact hne (h.apart j i v hold w hw heq)
    · exact hvnot hmem
  · exact h.apart j k u (hcases hu).2 v (hcases hv).2

theorem single_step {s : ClientRun} (h : s.Single) (a : ClientAction) : (s.step a).Single := by
  cases a with
  | call i request =>
    cases hpending : s.pending i with
    | some w => simpa [ClientRun.step, hpending] using h
    | none =>
      cases hbegin : s.client.begin request with
      | error e =>
        simp only [ClientRun.step, hpending, hbegin]
        exact ⟨h.once, h.settled, h.waiting, h.apart⟩
      | ok made =>
        simp only [ClientRun.step, hpending, hbegin]
        exact single_asks h i request made.1 made.2
  | responds i response =>
    cases hpending : s.pending i with
    | none => simpa [ClientRun.step, hpending] using h
    | some w =>
      simp only [ClientRun.step, hpending]
      exact single_ends h hpending rfl rfl ⟨_, rfl⟩
  | raises i message =>
    cases hpending : s.pending i with
    | none => simpa [ClientRun.step, hpending] using h
    | some w =>
      simp only [ClientRun.step, hpending]
      exact single_ends h hpending rfl rfl ⟨_, rfl⟩

theorem single_run {s : ClientRun} (h : s.Single) (actions : List ClientAction) :
    (run ClientRun.step s actions).Single := by
  induction actions generalizing s with
  | nil => exact h
  | cons a actions ih => exact ih (single_step h a)

/-- **Degraded for good.** After every run, each result belongs to a request
that its caller has made, no two to the same; it tells the tier it was asked
for and the tier and model it was answered by: the one asked for, or under
pressure the next cheaper one. And behind the first request that was made
under pressure, none is for the model of the dearest tier. -/
theorem degraded_for_good (client : LLMClient) (actions : List ClientAction) :
    let s := run ClientRun.step { client := client } actions
    (∀ e ∈ s.ended, ∀ result, e.outcome = .ok result → ∃ made ∈ s.created,
      e.made = some made ∧ made.caller = e.caller ∧ result.requestedTier = made.request.tier ∧
        result.effectiveTier = client.tierAt made.used result.requestedTier ∧
          client.modelIds result.effectiveTier = some result.modelUsed ∧
            made.call.model = result.modelUsed) ∧
    s.settled.Nodup ∧
    s.created.Pairwise fun later earlier => client.Pressed earlier.used →
      ∃ tier, tier ≠ .high ∧ client.modelIds tier = some later.call.model := by
  intro s
  have h : s.Honest client := honest_run (honest_fresh client) actions
  refine ⟨fun e he result hresult => ?_, (single_run (single_fresh client) actions).once, ?_⟩
  · obtain ⟨made, hmem, hmade, hcaller, htier, hasked⟩ := h.told e he result hresult
    exact ⟨made, hmem, hmade, hcaller, htier, htier ▸ hasked.tier, hasked.entry, hasked.asked⟩
  · refine h.ordered.imp_of_mem ?_
    intro later earlier hlater _ hle hpressed
    obtain ⟨-, effective, model, hasked⟩ := h.asked later hlater
    have hstill : client.Pressed later.used := pressed_of_le hle hpressed
    have heffective := hasked.tier
    rw [LLMClient.tierAt, if_pos hstill] at heffective
    exact ⟨effective, heffective ▸ degradeTier_ne_high later.request.tier,
      hasked.asked ▸ hasked.entry⟩

end Sentinel.Ai
