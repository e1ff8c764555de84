/-
Sentinel.Tenancy.Isolation — a store that many tenants share.

An action answers with a value or a failure, leaves a state and sends
messages. `Tenants` says what of a state is one tenant's own; `Isolated`
that an action, started in one state, does for its tenant what it would
do if the tenant were alone, and nothing to the others. The rules follow
the way actions are put together. Two consequences: two states that agree
on what a tenant owns cannot be told apart by it (`Isolated.agree`), and
in a run of many tenants each gets the replies of its own requests run
alone (`served_alone`).
-/
import Mathlib.Data.List.Basic

namespace Sentinel.Tenancy

/-- What an action comes to. -/
structure Outcome (σ ω ε α : Type) where
  value : Except ε α
  state : σ
  sent : List ω

def Action (σ ω ε α : Type) : Type := σ → Outcome σ ω ε α

variable {σ ω ε α β κ : Type}

namespace Action

/-- A failure ends the action; what was committed and sent before stays. -/
instance : Monad (Action σ ω ε) where
  pure a := fun s => ⟨.ok a, s, []⟩
  bind m f := fun s =>
    match (m s).value with
    | .ok a => ⟨(f a (m s).state).value, (f a (m s).state).state,
        (m s).sent ++ (f a (m s).state).sent⟩
    | .error e => ⟨.error e, (m s).state, (m s).sent⟩

/-- Read the state. -/
def query (q : σ → Except ε α) : Action σ ω ε α := fun s => ⟨q s, s, []⟩

/-- Change the state, all or nothing. -/
def commit (w : σ → Except ε σ) : Action σ ω ε Unit := fun s =>
  match w s with
  | .ok s' => ⟨.ok (), s', []⟩
  | .error e => ⟨.error e, s, []⟩

def send (message : ω) : Action σ ω ε Unit := fun s => ⟨.ok (), s, [message]⟩

/-- Go on with what was computed, or fail with it. -/
def ofExcept (x : Except ε α) : Action σ ω ε α := query fun _ => x

theorem bind_ok {m : Action σ ω ε α} {f : α → Action σ ω ε β} {s : σ} {a : α}
    (h : (m s).value = .ok a) :
    (m >>= f) s = ⟨(f a (m s).state).value, (f a (m s).state).state,
      (m s).sent ++ (f a (m s).state).sent⟩ := by
  show (match (m s).value with | .ok a => _ | .error e => _) = _
  rw [h]

theorem bind_error {m : Action σ ω ε α} {f : α → Action σ ω ε β} {s : σ} {e : ε}
    (h : (m s).value = .error e) : (m >>= f) s = ⟨.error e, (m s).state, (m s).sent⟩ := by
  show (match (m s).value with | .ok a => _ | .error e => _) = _
  rw [h]

theorem commit_ok {w : σ → Except ε σ} {s s' : σ} (h : w s = .ok s') :
    commit (ω := ω) w s = ⟨.ok (), s', []⟩ := by
  rw [commit, h]

theorem commit_error {w : σ → Except ε σ} {s : σ} {e : ε} (h : w s = .error e) :
    commit (ω := ω) w s = ⟨.error e, s, []⟩ := by
  rw [commit, h]

theorem map_id (m : Action σ ω ε α) : id <$> m = m := by
  funext s
  show (m >>= fun a => pure (id a)) s = m s
  cases hv : (m s).value with
  | error e => rw [bind_error hv, ← hv]
  | ok a =>
    rw [bind_ok hv]
    exact congrArg₂ (Outcome.mk · _ ·) hv.symm (List.append_nil _)

theorem assoc (m : Action σ ω ε α) {γ : Type} (f : α → Action σ ω ε β)
    (g : β → Action σ ω ε γ) : m >>= f >>= g = m >>= fun a => f a >>= g := by
  funext s
  cases hv : (m s).value with
  | error e =>
    have hfirst : (m >>= f) s = ⟨.error e, (m s).state, (m s).sent⟩ := bind_error hv
    rw [bind_error (congrArg Outcome.value hfirst), hfirst, bind_error hv]
  | ok a =>
    have hfirst := bind_ok (f := f) hv
    rw [bind_ok hv]
    cases hf : (f a (m s).state).value with
    | error e =>
      rw [bind_error (by rw [hfirst, hf]), hfirst, bind_error hf]
    | ok b =>
      rw [bind_ok (by rw [hfirst, hf]), hfirst, bind_ok hf, List.append_assoc]

/-- What comes before may fail and what it sends is sent first, however the
parts are put together. -/
instance : LawfulMonad (Action σ ω ε) :=
  LawfulMonad.mk' _ map_id (fun _ _ => rfl) fun m f g => assoc m f g

end Action

open Sentinel.Tenancy.Action

/-- What a tenant owns of a state, and the states the store can be in. -/
structure Tenants (κ σ : Type) where
  view : κ → σ → σ
  Sound : σ → Prop

namespace Tenants

/-- Started in `s`, the action does what it would do on the tenant's own
part alone, leaves the parts of all others as they are, and the store sound. -/
structure Isolated (T : Tenants κ σ) (tenant : κ) (m : Action σ ω ε α) (s : σ) : Prop where
  value : (m s).value = (m (T.view tenant s)).value
  sent : (m s).sent = (m (T.view tenant s)).sent
  own : T.view tenant (m s).state = (m (T.view tenant s)).state
  others : ∀ other, other ≠ tenant → T.view other (m s).state = T.view other s
  sound : T.Sound (m s).state

variable {T : Tenants κ σ} {tenant : κ} {s : σ}

/-! ## The rules -/

theorem isolated_pure (hs : T.Sound s) (a : α) :
    T.Isolated tenant (pure a : Action σ ω ε α) s :=
  ⟨rfl, rfl, rfl, fun _ _ => rfl, hs⟩

theorem isolated_send (hs : T.Sound s) (message : ω) :
    T.Isolated tenant (send message : Action σ ω ε Unit) s :=
  ⟨rfl, rfl, rfl, fun _ _ => rfl, hs⟩

/-- A query may read what the tenant owns. -/
theorem isolated_query (hs : T.Sound s) {q : σ → Except ε α} (h : q s = q (T.view tenant s)) :
    T.Isolated tenant (query q : Action σ ω ε α) s :=
  ⟨h, rfl, rfl, fun _ _ => rfl, hs⟩

theorem isolated_ofExcept (hs : T.Sound s) (x : Except ε α) :
    T.Isolated tenant (ofExcept x : Action σ ω ε α) s := isolated_query hs rfl

/-- A commit may change what the tenant owns, and is refused alike. -/
theorem isolated_commit (hs : T.Sound s) {w : σ → Except ε σ}
    (hown : (w s).map (T.view tenant) = w (T.view tenant s))
    (hothers : ∀ s', w s = .ok s' → ∀ other, other ≠ tenant → T.view other s' = T.view other s)
    (hsound : ∀ s', w s = .ok s' → T.Sound s') :
    T.Isolated tenant (commit w : Action σ ω ε Unit) s := by
  cases hw : w s with
  | error e =>
    rw [hw] at hown
    have halone : w (T.view tenant s) = .error e := hown.symm
    constructor
    · rw [commit_error hw, commit_error halone]
    · rw [commit_error hw, commit_error halone]
    · rw [commit_error hw, commit_error halone]
    · intro other _
      rw [commit_error hw]
    · rw [commit_error hw]
      exact hs
  | ok s' =>
    rw [hw] at hown
    have halone : w (T.view tenant s) = .ok (T.view tenant s') := hown.symm
    constructor
    · rw [commit_ok hw, commit_ok halone]
    · rw [commit_ok hw, commit_ok halone]
    · rw [commit_ok hw, commit_ok halone]
    · rw [commit_ok hw]
      exact hothers s' hw
    · rw [commit_ok hw]
      exact hsound s' hw

/-- **Sequencing.** The second action has to be isolated where the first
one left the store. -/
theorem Isolated.bind {m : Action σ ω ε α} {f : α → Action σ ω ε β} (hm : T.Isolated tenant m s)
    (hf : ∀ a, (m s).value = .ok a → T.Isolated tenant (f a) (m s).state) :
    T.Isolated tenant (m >>= f) s := by
  cases hv : (m s).value with
  | error e =>
    have hv' : (m (T.view tenant s)).value = .error e := hm.value ▸ hv
    constructor
    · rw [bind_error hv, bind_error hv']
    · rw [bind_error hv, bind_error hv']
      exact hm.sent
    · rw [bind_error hv, bind_error hv']
      exact hm.own
    · rw [bind_error hv]
      exact hm.others
    · rw [bind_error hv]
      exact hm.sound
  | ok a =>
    have hv' : (m (T.view tenant s)).value = .ok a := hm.value ▸ hv
    have ha := hf a hv
    constructor
    · rw [bind_ok hv, bind_ok hv', ← hm.own]
      exact ha.value
    · rw [bind_ok hv, bind_ok hv', ← hm.own, hm.sent, ha.sent]
    · rw [bind_ok hv, bind_ok hv', ← hm.own]
      exact ha.own
    · rw [bind_ok hv]
      exact fun other hne => (ha.others other hne).trans (hm.others other hne)
    · rw [bind_ok hv]
      exact ha.sound

/-- After a query the store is the same. -/
theorem isolated_query_bind {q : σ → Except ε α} {f : α → Action σ ω ε β} (hs : T.Sound s)
    (h : q s = q (T.view tenant s)) (hf : ∀ a, q s = .ok a → T.Isolated tenant (f a) s) :
    T.Isolated tenant (query q >>= f) s := (isolated_query hs h).bind hf

/-! ## Two stores that agree on one tenant -/

/-- **Noninterference.** Stores that agree on what the tenant owns answer
it alike, and agree on what it owns afterwards. -/
theorem Isolated.agree {m : Action σ ω ε α} {s₁ s₂ : σ} (h₁ : T.Isolated tenant m s₁)
    (h₂ : T.Isolated tenant m s₂) (hagree : T.view tenant s₁ = T.view tenant s₂) :
    (m s₁).value = (m s₂).value ∧ (m s₁).sent = (m s₂).sent ∧
      T.view tenant (m s₁).state = T.view tenant (m s₂).state := by
  refine ⟨?_, ?_, ?_⟩
  · rw [h₁.value, h₂.value, hagree]
  · rw [h₁.sent, h₂.sent, hagree]
  · rw [h₁.own, h₂.own, hagree]

/-! ## Runs of many tenants -/

/-- Serve requests in order, each under the name of its tenant. -/
def serve : σ → List (κ × Action σ ω ε α) → List (κ × Except ε α) × σ
  | s, [] => ([], s)
  | s, (tenant, m) :: rest =>
      ((tenant, (m s).value) :: (serve (m s).state rest).1, (serve (m s).state rest).2)

/-- Every request of the run is isolated where it is served. -/
def RunIsolated (T : Tenants κ σ) : σ → List (κ × Action σ ω ε α) → Prop
  | _, [] => True
  | s, (tenant, m) :: rest => T.Isolated tenant m s ∧ RunIsolated T (m s).state rest

/-- **Purging.** In a run of many tenants, one gets the replies and is
left with the data of its own requests served alone. -/
theorem served_alone [DecidableEq κ] {requests : List (κ × Action σ ω ε α)}
    (h : T.RunIsolated s requests) (tenant : κ) :
    (serve s requests).1.filter (fun reply => reply.1 = tenant) =
        (serve (T.view tenant s) (requests.filter fun request => request.1 = tenant)).1 ∧
      T.view tenant (serve s requests).2 =
        (serve (T.view tenant s) (requests.filter fun request => request.1 = tenant)).2 := by
  induction requests generalizing s with
  | nil => exact ⟨rfl, rfl⟩
  | cons request rest ih =>
    obtain ⟨who, m⟩ := request
    obtain ⟨hm, hrest⟩ := h
    have htail := ih hrest
    by_cases hwho : who = tenant
    · subst hwho
      rw [List.filter_cons_of_pos (by simp)]
      simp only [serve, List.filter_cons_of_pos, decide_true]
      rw [← hm.own, ← hm.value, htail.1]
      exact ⟨rfl, htail.2⟩
    · rw [List.filter_cons_of_neg (by simpa using hwho)]
      simp only [serve]
      rw [List.filter_cons_of_neg (by simpa using hwho), ← hm.others tenant (Ne.symm hwho)]
      exact htail

end Tenants

end Sentinel.Tenancy
