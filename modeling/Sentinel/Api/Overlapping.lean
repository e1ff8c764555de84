/-
Sentinel.Api.Overlapping — requests that overlap.

A request solves its dependencies when it arrives and runs its endpoint
later: `run_ownership_verification` waits for a lookup outside, and any
request waits for the database. In between others commit. An endpoint acts
on the rows its request has loaded and writes to the rows as they are then.

The gate before a scan holds all the same (`dispatch_gated`), except that a
challenge that was issued while another one was looked up may stand in the
place of the one that was met.
-/
import Sentinel.Api.Handover
import Sentinel.Api.OwnershipRaces

namespace Sentinel.Api

open Sentinel.Py Sentinel.Core Sentinel.Orm Sentinel.Trace

/-! ## The application with the requests under way -/

/-- A request whose dependencies are solved, and the moment they were. -/
structure Pending where
  call : Call
  solved : Solved
  since : ℕ

/-- The database and the requests under way; the clock counts moments. -/
structure Serving where
  db : Database
  pending : ℕ → Option Pending := fun _ => none
  clock : ℕ := 0

/-- What happens next: a request arrives and its dependencies are solved, its
endpoint runs, or it ends without. A number is used for one request at a
time. -/
inductive Moment where
  | arrive (request : ℕ) (call : Call)
  | finish (request : ℕ)
  | leave (request : ℕ)

/-- A request that was answered: the target it had loaded, and from when to
when it was under way. -/
structure Answered where
  call : Call
  loaded : Option Target
  since : ℕ
  finished : ℕ
  exchange : Exchange

namespace Serving

def setPending (s : Serving) (request : ℕ) (p : Option Pending) : Serving :=
  { s with pending := fun i => if i = request then p else s.pending i, clock := s.clock + 1 }

def act (s : Serving) : Moment → Option Answered × Serving
  | .arrive request call =>
      match s.pending request, (call.request.solve call.env s.db).value with
      | none, .ok solved => (none, s.setPending request (some ⟨call, solved, s.clock⟩))
      | none, .error failure =>
          (some ⟨call, none, s.clock, s.clock, ⟨respond (.error failure), s.db, []⟩⟩,
            s.setPending request none)
      | some _, _ => (none, s)
  | .finish request =>
      match s.pending request with
      | some p =>
          let outcome := p.solved.endpoint s.db
          (some ⟨p.call, p.solved.target, p.since, s.clock,
              ⟨respond outcome.value, outcome.state, outcome.sent⟩⟩,
            { s.setPending request none with db := outcome.state })
      | none => (none, s)
  | .leave request => (none, s.setPending request none)

/-- What the moment draws from the environment is fresh. -/
def Admits (s : Serving) : Moment → Prop
  | .finish request => ∀ p ∈ s.pending request, p.call.env.ids.Fresh s.db
  | .arrive .. | .leave .. => True

instance (s : Serving) (m : Moment) : Decidable (s.Admits m) :=
  match m with
  | .finish request => inferInstanceAs (Decidable (∀ p ∈ s.pending request, _))
  | .arrive .. | .leave .. => isTrue trivial

end Serving

/-- A moment that has passed. -/
abbrev Passed := Entry Serving Moment (Option Answered)

/-- The requests that were answered in a run of anything. -/
def answered {σ κ : Type} (past : List (Entry σ κ (Option Answered))) : List Answered :=
  past.filterMap (·.result)

theorem act_arrive {s : Serving} {request : ℕ} (hfree : s.pending request = none) {call : Call}
    {solved : Solved} (hsolved : (call.request.solve call.env s.db).value = .ok solved) :
    s.act (.arrive request call) =
      (none, s.setPending request (some ⟨call, solved, s.clock⟩)) := by
  simp only [Serving.act, hfree, hsolved]

theorem act_finish {s : Serving} {request : ℕ} {p : Pending} (hp : s.pending request = some p) :
    s.act (.finish request) =
      (some ⟨p.call, p.solved.target, p.since, s.clock,
          ⟨respond (p.solved.endpoint s.db).value, (p.solved.endpoint s.db).state,
            (p.solved.endpoint s.db).sent⟩⟩,
        { s.setPending request none with db := (p.solved.endpoint s.db).state }) := by
  simp only [Serving.act, hp]

/-- **Nothing in between.** A request that is answered before anything else
happens is served as in `serve`. -/
theorem finish_arrive {s : Serving} {request : ℕ} (hfree : s.pending request = none) (call : Call)
    {solved : Solved} (hsolved : (call.request.solve call.env s.db).value = .ok solved) :
    let arrived := (s.act (.arrive request call)).2
    (arrived.act (.finish request)).1.map (·.exchange) = some (s.db.serveCall call).1 ∧
      (arrived.act (.finish request)).2.db = (s.db.serveCall call).2 := by
  have hreads : Reads (call.request.solve call.env) s.db _ := solve_ready call.request s.db
  have hrun : call.request.handler call.env s.db = solved.endpoint s.db := by
    rw [Request.handler_eq_solve, Tenancy.Action.bind_ok hsolved, hreads.state, hreads.sent]
    rfl
  intro arrived
  have harrived : arrived = s.setPending request (some ⟨call, solved, s.clock⟩) :=
    congrArg Prod.snd (act_arrive hfree hsolved)
  have hp : (s.setPending request (some ⟨call, solved, s.clock⟩)).pending request =
      some ⟨call, solved, s.clock⟩ := if_pos rfl
  rw [harrived, act_finish hp, Database.serveCall, serve, hrun]
  exact ⟨rfl, rfl⟩

/-! ## One moment -/

/-- What a request under way has loaded is still there. -/
structure Pending.Sound (p : Pending) (db : Database) : Prop where
  solved : ∃ db, (p.call.request.solve p.call.env db).value = .ok p.solved
  caller : p.solved.caller.id ∈ db.organizations.map (·.id)
  claims : p.call.request.ClaimsOrg p.solved.caller.id
  owner : ∀ t ∈ p.solved.target, t.organizationId = p.solved.caller.id
  target : ∀ t ∈ p.solved.target, t.identity ∈ db.targets.map Target.identity

theorem Pending.Sound.ready {p : Pending} {db : Database} (h : p.Sound db) :
    p.solved.Ready p.call.env p.call.request.route := by
  obtain ⟨db, hsolved⟩ := h.solved
  exact ((solve_ready p.call.request db).value p.solved hsolved).2

theorem Pending.Sound.grows {p : Pending} {db db' : Database} (h : p.Sound db)
    (hgrows : db.Grows db') : p.Sound db' :=
  { h with
    caller := hgrows.organizations ▸ h.caller
    target := fun t ht => hgrows.targets.subset (h.target t ht) }

/-- A target that was loaded is in the table by its id. -/
theorem Pending.Sound.still {p : Pending} {db : Database} (h : p.Sound db) :
    ∀ t ∈ p.solved.target, t.id ∈ db.targets.map (·.id) := by
  intro t ht
  obtain ⟨t', ht', hid⟩ := List.mem_map.mp (h.target t ht)
  exact List.mem_map.mpr ⟨t', ht', congrArg Prod.fst hid⟩

/-- Keys are in order, and what was loaded is there. -/
structure Serving.Sound (s : Serving) : Prop where
  consistent : s.db.Consistent
  pending : ∀ i, ∀ p ∈ s.pending i, p.Sound s.db
  past : ∀ i, ∀ p ∈ s.pending i, p.since < s.clock

/-- What a moment does. -/
inductive Serving.Does (s : Serving) : Option Answered → Serving → Prop where
  | nothing : Does s none s
  | arrives {request : ℕ} {p : Pending} (hsound : p.Sound s.db) (hsince : p.since = s.clock)
      (hloaded : ∀ t ∈ p.solved.target, t ∈ s.db.targets) :
      Does s none (s.setPending request (some p))
  | refuses {request : ℕ} {call : Call} (failure : Failure) (hfree : s.pending request = none) :
      Does s (some ⟨call, none, s.clock, s.clock, ⟨respond (.error failure), s.db, []⟩⟩)
        (s.setPending request none)
  | fails {request : ℕ} {p : Pending} (failure : Failure) (hp : s.pending request = some p) :
      Does s (some ⟨p.call, p.solved.target, p.since, s.clock,
          ⟨respond (.error failure), s.db, []⟩⟩)
        (s.setPending request none)
  | changes {request : ℕ} {p : Pending} {change : Change} {reply : Reply}
      (hp : s.pending request = some p) (hfresh : p.call.env.ids.Fresh s.db)
      (hpermitted : Permitted p.call.env p.solved.caller p.solved.target p.call.request.route
        change)
      (hrun : p.solved.endpoint s.db = ⟨.ok reply, change.apply s.db, change.dispatched⟩) :
      Does s (some ⟨p.call, p.solved.target, p.since, s.clock,
          ⟨.reply reply, change.apply s.db, change.dispatched⟩⟩)
        { s.setPending request none with db := change.apply s.db }
  | leaves {request : ℕ} : Does s none (s.setPending request none)

/-- **One moment**, case by case. -/
theorem Serving.act_does {s : Serving} (hs : s.Sound) {m : Moment} (hfresh : s.Admits m) :
    s.Does (s.act m).1 (s.act m).2 := by
  cases m with
  | arrive request call =>
    cases hpending : s.pending request with
    | some p =>
      simp only [Serving.act, hpending]
      exact .nothing
    | none =>
      cases hvalue : (call.request.solve call.env s.db).value with
      | error failure =>
        simp only [Serving.act, hpending, hvalue]
        exact .refuses failure hpending
      | ok solved =>
        obtain ⟨hloads, -⟩ := (solve_ready call.request s.db).value solved hvalue
        rw [act_arrive hpending hvalue]
        refine .arrives ⟨⟨s.db, hvalue⟩, List.mem_map_of_mem hloads.known, hloads.claims, ?_, ?_⟩ rfl ?_
        · exact fun t ht => (hloads.owns t ht).2
        · exact fun t ht => List.mem_map_of_mem (hloads.owns t ht).1
        · exact fun t ht => (hloads.owns t ht).1
  | finish request =>
    cases hp : s.pending request with
    | none =>
      simp only [Serving.act, hp]
      exact .nothing
    | some p =>
      have hsound := hs.pending request p hp
      rw [act_finish hp]
      rcases hsound.ready s.db (hfresh p hp) hsound.still with
        ⟨change, reply, hpermitted, hrun⟩ | ⟨failure, hrun⟩
      · have hdoes := Does.changes hp (hfresh p hp) hpermitted hrun
        rw [hrun]
        exact hdoes
      · rw [hrun]
        exact .fails failure hp
  | leave request => exact .leaves

/-- A request that is no longer under way. -/
theorem mem_setPending_none {s : Serving} {request i : ℕ} {p : Pending}
    (h : p ∈ (s.setPending request none).pending i) : i ≠ request ∧ p ∈ s.pending i := by
  by_cases hi : i = request
  · have hnone : none = some p := (if_pos hi).symm.trans h
    cases hnone
  · exact ⟨hi, (if_neg hi).symm.trans h⟩

/-- A request that has just arrived, or was under way before. -/
theorem mem_setPending_some {s : Serving} {request i : ℕ} {p q : Pending}
    (h : p ∈ (s.setPending request (some q)).pending i) : p = q ∨ p ∈ s.pending i := by
  by_cases hi : i = request
  · have hsame : some q = some p := (if_pos hi).symm.trans h
    exact .inl (Option.some.inj hsame).symm
  · exact .inr ((if_neg hi).symm.trans h)

/-- **One moment** lets the database grow. -/
theorem Serving.Does.grows {s s' : Serving} {a : Option Answered} (h : s.Does a s') :
    s.db.Grows s'.db := by
  cases h with
  | @changes request p change => exact change.grows s.db
  | _ => exact .refl s.db

/-- **One moment** keeps the keys in order. -/
theorem Serving.Does.consistent {s s' : Serving} {a : Option Answered} (h : s.Does a s')
    (hs : s.Sound) : s'.db.Consistent := by
  cases h with
  | @changes request p change reply hp hfresh hpermitted hrun =>
    have hsound := hs.pending request p hp
    exact hpermitted.consistent hs.consistent hsound.caller hsound.still hfresh
  | _ => exact hs.consistent

/-- **One moment** keeps the invariant. -/
theorem Serving.Does.sound {s s' : Serving} {a : Option Answered} (h : s.Does a s')
    (hs : s.Sound) : s'.Sound := by
  have hconsistent := h.consistent hs
  have hgrows := h.grows
  -- those that were under way before
  have hold : ∀ i, ∀ p ∈ s.pending i, p.Sound s'.db ∧ p.since < s.clock + 1 := fun i p hp =>
    ⟨(hs.pending i p hp).grows hgrows, Nat.lt_succ_of_lt (hs.past i p hp)⟩
  cases h with
  | nothing => exact hs
  | @arrives request p hsound hsince hloaded =>
    refine ⟨hconsistent, fun i q hq => ?_, fun i q hq => ?_⟩
    · rcases mem_setPending_some hq with rfl | hq
      · exact hsound
      · exact (hold i q hq).1
    · rcases mem_setPending_some hq with rfl | hq
      · exact hsince ▸ Nat.lt_succ_self _
      · exact (hold i q hq).2
  | refuses | fails | changes | leaves =>
    exact ⟨hconsistent, fun i q hq => (hold i q (mem_setPending_none hq).2).1,
      fun i q hq => (hold i q (mem_setPending_none hq).2).2⟩

/-! ## The gate before a scan -/

/-- It was answered with a reply, not with an error. -/
def Answered.Replied (a : Answered) : Prop := ∃ reply, a.exchange.response = .reply reply

/-- The owner's request has found that the target meets the challenge that it
had loaded. -/
structure Answered.Proves (t : Target) (method : OwnershipVerificationMethod) (token : Str)
    (a : Answered) : Prop where
  replied : a.Replied
  claims : a.call.request.ClaimsOrg t.organizationId
  route : a.call.request.route = .runOwnershipVerification (.ok t.id)
  loaded : ∃ l ∈ a.loaded, l.ownershipVerificationMethod = some method ∧
    l.ownershipVerificationToken = some token
  met : ∃ result, a.call.env.verifyOwnership method t.rootDomain token = .ok result ∧
    result.verified = true

/-- The owner's request has accepted the authorization of the target. -/
def Answered.Accepts (t : Target) (a : Answered) : Prop :=
  a.Replied ∧ a.call.request.ClaimsOrg t.organizationId ∧ ∃ payload : AuthorizationAccept,
    payload.accepted = true ∧
      a.call.request.route = .acceptAuthorization (.ok t.id) (.valid payload)

/-- The owner's request has got a new challenge. -/
def Answered.Challenges (t : Target) (a : Answered) : Prop :=
  a.Replied ∧ a.call.request.ClaimsOrg t.organizationId ∧ ∃ payload : OwnershipChallengeRequest,
    a.call.request.route = .createOwnershipChallenge (.ok t.id) (.valid payload)

/-- The two were under way at the same time. -/
def Answered.Overlaps (a b : Answered) : Prop := a.since < b.finished ∧ b.since < a.finished

/-- The challenge that `a` has looked up is the one the target has, or a
request for a new one overlapped. -/
def Answered.UpToDate (past : List Answered) (t : Target) (method : OwnershipVerificationMethod)
    (token : Str) (a : Answered) : Prop :=
  (t.ownershipVerificationMethod = some method ∧ t.ownershipVerificationToken = some token) ∨
    ∃ c ∈ past, c.Challenges t ∧ c.Overlaps a

/-- Its owner has shown that the target meets its challenge. -/
def Target.Proved (past : List Answered) (t : Target) : Prop :=
  ∃ method token, ∃ a ∈ past, a.Proves t method token ∧ a.UpToDate past t method token

/-- Its owner has accepted the authorization of the target. -/
def Target.Consented (past : List Answered) (t : Target) : Prop := ∃ a ∈ past, a.Accepts t

theorem Answered.UpToDate.mono {past past' : List Answered} {t : Target}
    {method : OwnershipVerificationMethod} {token : Str} {a : Answered}
    (h : a.UpToDate past t method token) (hsub : past ⊆ past') :
    a.UpToDate past' t method token :=
  h.imp_right fun ⟨c, hc, hover⟩ => ⟨c, hsub hc, hover⟩

theorem Target.Proved.mono {past past' : List Answered} {t : Target} (h : t.Proved past)
    (hsub : past ⊆ past') : t.Proved past' := by
  obtain ⟨method, token, a, ha, hproves, hcurrent⟩ := h
  exact ⟨method, token, a, hsub ha, hproves, hcurrent.mono hsub⟩

theorem Target.Consented.mono {past past' : List Answered} {t : Target} (h : t.Consented past)
    (hsub : past ⊆ past') : t.Consented past' := by
  obtain ⟨a, ha, haccepts⟩ := h
  exact ⟨a, hsub ha, haccepts⟩

/-- The flags of a stored target are backed by what was answered. A request
under way that has loaded it before it was verified overlaps the one that
has verified it, and one that has loaded another challenge overlaps the one
that has issued this. -/
structure Target.Backed (past : List Answered) (s : Serving) (t : Target) : Prop where
  verified : t.ownershipVerified = true → ∃ method token, ∃ a ∈ past, a.Proves t method token ∧
    a.UpToDate past t method token ∧ ∀ i, ∀ p ∈ s.pending i, ∀ l ∈ p.solved.target,
      l.id = t.id → l.ownershipVerified = false → p.since < a.finished
  challenge : ∀ i, ∀ p ∈ s.pending i, ∀ l ∈ p.solved.target, l.id = t.id →
    (t.ownershipVerificationMethod = l.ownershipVerificationMethod ∧
        t.ownershipVerificationToken = l.ownershipVerificationToken) ∨
      ∃ c ∈ past, c.Challenges t ∧ p.since < c.finished
  authorized : t.authorizationAccepted = true → t.Consented past

/-- The invariant of the gate. -/
structure Gated (past : List Answered) (s : Serving) : Prop where
  sound : s.Sound
  answered : ∀ a ∈ past, a.since < s.clock
  backed : ∀ t ∈ s.db.targets, t.Backed past s
  loaded : ∀ i, ∀ p ∈ s.pending i, ∀ l ∈ p.solved.target,
    (l.ownershipVerified = true → l.Proved past) ∧
      (l.authorizationAccepted = true → l.Consented past)

section Gate

variable {past past' : List Answered} {s s' : Serving} {t : Target}

theorem Target.Backed.proved (h : t.Backed past s) (hset : t.ownershipVerified = true) :
    t.Proved past := by
  obtain ⟨method, token, a, ha, hproves, hcurrent, -⟩ := h.verified hset
  exact ⟨method, token, a, ha, hproves, hcurrent⟩

/-- More has been answered, and requests have ended. -/
theorem Target.Backed.mono (h : t.Backed past s) (hsub : past ⊆ past')
    (hpending : ∀ i, ∀ p ∈ s'.pending i, p ∈ s.pending i) : t.Backed past' s' where
  verified hset := by
    obtain ⟨method, token, a, ha, hproves, hcurrent, hover⟩ := h.verified hset
    exact ⟨method, token, a, hsub ha, hproves, hcurrent.mono hsub,
      fun i p hp => hover i p (hpending i p hp)⟩
  challenge i p hp l hl hid :=
    (h.challenge i p (hpending i p hp) l hl hid).imp_right
      fun ⟨c, hc, hcalled⟩ => ⟨c, hsub hc, hcalled⟩
  authorized hset := (h.authorized hset).mono hsub

/-- A request that arrives has loaded the row as it is. -/
theorem Target.Backed.arrives (h : t.Backed past s) (hdb : s.db.Consistent)
    (ht : t ∈ s.db.targets) {request : ℕ} {q : Pending}
    (hloaded : ∀ l ∈ q.solved.target, l ∈ s.db.targets) :
    t.Backed past (s.setPending request (some q)) := by
  have hsame : ∀ l ∈ q.solved.target, l.id = t.id → l = t := fun l hl hid =>
    List.inj_on_of_nodup_map hdb.targets_nodup (hloaded l hl) ht hid
  refine ⟨fun hset => ?_, fun i p hp l hl hid => ?_, h.authorized⟩
  · obtain ⟨method, token, a, ha, hproves, hcurrent, hover⟩ := h.verified hset
    refine ⟨method, token, a, ha, hproves, hcurrent, fun i p hp l hl hid hunset => ?_⟩
    rcases mem_setPending_some hp with rfl | hp
    · rw [hsame l hl hid, hset] at hunset
      cases hunset
    · exact hover i p hp l hl hid hunset
  · rcases mem_setPending_some hp with rfl | hp
    · obtain rfl := hsame l hl hid
      exact .inl ⟨rfl, rfl⟩
    · exact h.challenge i p hp l hl hid

/-- A row that is new and not verified. -/
theorem Target.backed_new (hs : s.Sound) {request : ℕ} {db : Database}
    (hfresh : t.id ∉ s.db.targets.map (·.id)) (hverified : t.ownershipVerified = false)
    (hauthorized : t.authorizationAccepted = false) :
    t.Backed past { s.setPending request none with db := db } := by
  refine ⟨fun hset => ?_, fun i p hp l hl hid => ?_, fun hset => ?_⟩
  · rw [hverified] at hset
    cases hset
  · exact absurd (hid ▸ (hs.pending i p (mem_setPending_none hp).2).still l hl) hfresh
  · rw [hauthorized] at hset
    cases hset

section Update

variable {request : ℕ} {p : Pending} {l : Target} {exchange : Exchange} {db : Database}

/-- The answer that the request gets now. -/
def Pending.answered (p : Pending) (now : ℕ) (exchange : Exchange) : Answered :=
  ⟨p.call, p.solved.target, p.since, now, exchange⟩

/-- A new challenge is committed. -/
theorem Target.Backed.challenged (h : t.Backed past s) (hs : s.Sound)
    (hpast : ∀ a ∈ past, a.since < s.clock) (hp : s.pending request = some p)
    (hl : p.solved.target = some l) (hid : t.id = l.id) (method : OwnershipVerificationMethod)
    (token : Str) (hchallenges : (p.answered s.clock exchange).Challenges t) :
    Backed (past ++ [p.answered s.clock exchange]) { s.setPending request none with db := db }
      (updateChanged l (issueChallenge method token l) t) := by
  have hlast : p.answered s.clock exchange ∈ past ++ [p.answered s.clock exchange] :=
    List.mem_append_right _ (List.mem_singleton_self _)
  have hmono := List.subset_append_left past [p.answered s.clock exchange]
  refine ⟨fun hset => ?_, fun i q hq k hk hkid => ?_, fun hset => ?_⟩
  · -- the flag is set behind the back of the request
    have hunset : l.ownershipVerified = false := by
      by_contra hverified
      have hno : l.ownershipVerified = false → t.ownershipVerified = false :=
        fun hfalse => absurd hfalse hverified
      have hlowered := challenge_unverified method token hno
      rw [hset] at hlowered
      cases hlowered
    have hstored : t.ownershipVerified = true := by
      by_contra hverified
      have hno : l.ownershipVerified = false → t.ownershipVerified = false :=
        fun _ => Bool.eq_false_iff.mpr hverified
      have hlowered := challenge_unverified method token hno
      rw [hset] at hlowered
      cases hlowered
    obtain ⟨method', token', a, ha, hproves, -, hover⟩ := h.verified hstored
    refine ⟨method', token', a, hmono ha, { hproves with },
      .inr ⟨_, hlast, hchallenges, ?_, hpast a ha⟩, fun i q hq k hk hkid hkunset => ?_⟩
    · exact hover request p hp l hl hid.symm hunset
    · exact hover i q (mem_setPending_none hq).2 k hk hkid hkunset
  · exact .inr ⟨_, hlast, hchallenges, hs.past i q (mem_setPending_none hq).2⟩
  · exact (h.authorized ((updateChanged_authorized_of_eq rfl t).symm.trans hset)).mono hmono

/-- A lookup has ended and its verdict is committed. -/
theorem Target.Backed.lookedUp (h : t.Backed past s) (hs : s.Sound)
    (hpast : ∀ a ∈ past, a.since < s.clock) (hp : s.pending request = some p)
    (hl : p.solved.target = some l) (hid : t.id = l.id) {method : OwnershipVerificationMethod}
    {token : Str} (hmethod : l.ownershipVerificationMethod = some method)
    (htoken : l.ownershipVerificationToken = some token) {verified : Bool} (now : Db.Instant)
    (hproves : verified = true → (p.answered s.clock exchange).Proves t method token) :
    Backed (past ++ [p.answered s.clock exchange]) { s.setPending request none with db := db }
      (updateChanged l (recordVerification verified now l) t) := by
  have hlast : p.answered s.clock exchange ∈ past ++ [p.answered s.clock exchange] :=
    List.mem_append_right _ (List.mem_singleton_self _)
  have hmono := List.subset_append_left past [p.answered s.clock exchange]
  have hkeepsMethod := verification_method l t verified now
  have hkeepsToken := verification_token l t verified now
  refine ⟨fun hset => ?_, fun i q hq k hk hkid => ?_, fun hset => ?_⟩
  · rcases verification_verified hset with hstored | ⟨rfl, -⟩
    · obtain ⟨method', token', a, ha, hproves', hcurrent, hover⟩ := h.verified hstored
      refine ⟨method', token', a, hmono ha, { hproves' with }, ?_,
        fun i q hq => hover i q (mem_setPending_none hq).2⟩
      rw [Answered.UpToDate, hkeepsMethod, hkeepsToken]
      exact hcurrent.mono hmono
    · have hnew := hproves rfl
      refine ⟨method, token, _, hlast, { hnew with }, ?_,
        fun i q hq _ _ _ _ => hs.past i q (mem_setPending_none hq).2⟩
      rw [Answered.UpToDate, hkeepsMethod, hkeepsToken]
      rcases h.challenge request p hp l hl hid.symm with ⟨hsame, hsame'⟩ | ⟨c, hc, hcalled, hlate⟩
      · exact .inl ⟨hsame.trans hmethod, hsame'.trans htoken⟩
      · exact .inr ⟨c, hmono hc, hcalled, hpast c hc, hlate⟩
  · rw [hkeepsMethod, hkeepsToken]
    exact (h.challenge i q (mem_setPending_none hq).2 k hk hkid).imp_right
      fun ⟨c, hc, hcalled⟩ => ⟨c, hmono hc, hcalled⟩
  · exact (h.authorized ((updateChanged_authorized_of_eq rfl t).symm.trans hset)).mono hmono

/-- The authorization is committed. -/
theorem Target.Backed.accepted (h : t.Backed past s) (now : Db.Instant)
    (haccepts : (p.answered s.clock exchange).Accepts t) :
    Backed (past ++ [p.answered s.clock exchange]) { s.setPending request none with db := db }
      (updateChanged l (recordAuthorization now l) t) := by
  have hmono : t.Backed (past ++ [p.answered s.clock exchange])
      { s.setPending request none with db := db } :=
    h.mono (List.subset_append_left _ _) fun i q hq => (mem_setPending_none hq).2
  have hverified : (updateChanged l (recordAuthorization now l) t).ownershipVerified =
      t.ownershipVerified := column_unchanged _ _
  have hmethod : (updateChanged l (recordAuthorization now l) t).ownershipVerificationMethod =
      t.ownershipVerificationMethod := column_unchanged _ _
  have htoken : (updateChanged l (recordAuthorization now l) t).ownershipVerificationToken =
      t.ownershipVerificationToken := column_unchanged _ _
  refine ⟨fun hset => ?_, ?_, fun _ => ?_⟩
  · rw [hverified] at hset
    obtain ⟨method, token, a, ha, hproves, hcurrent, hover⟩ := hmono.verified hset
    refine ⟨method, token, a, ha, { hproves with }, ?_, hover⟩
    rw [Answered.UpToDate, hmethod, htoken]
    exact hcurrent
  · rw [hmethod, htoken]
    exact hmono.challenge
  · exact ⟨_, List.mem_append_right _ (List.mem_singleton_self _), haccepts⟩

/-- The stored row of a target that was loaded. -/
theorem Pending.Sound.same {db : Database} (h : p.Sound db) (hdb : db.Consistent)
    (hl : p.solved.target = some l) (ht : t ∈ db.targets) (hid : t.id = l.id) :
    t.identity = l.identity := by
  obtain ⟨t', ht', hidentity⟩ := List.mem_map.mp (h.target l hl)
  have hid' : t'.id = t.id := (congrArg Prod.fst hidentity).trans hid.symm
  rw [← List.inj_on_of_nodup_map hdb.targets_nodup ht' ht hid', hidentity]

/-- The owner of the stored row makes the request. -/
theorem Pending.Sound.claimed {db : Database} (h : p.Sound db) (hdb : db.Consistent)
    (hl : p.solved.target = some l) (ht : t ∈ db.targets) (hid : t.id = l.id) :
    p.call.request.ClaimsOrg t.organizationId := by
  have horg : t.organizationId = l.organizationId := congrArg (·.2.1) (h.same hdb hl ht hid)
  rw [horg, h.owner l hl]
  exact h.claims

/-- A change of one target: the others stay as they are. -/
theorem backed_updateTarget {id : Uuid} {change : Target → Target}
    (h : ∀ t ∈ db.targets, t.Backed past s)
    (hchange : ∀ t ∈ db.targets, t.id = id → (change t).Backed past s) :
    ∀ t ∈ (db.updateTarget id change).targets, t.Backed past s := by
  intro t' ht'
  obtain ⟨t, ht, rfl⟩ := List.mem_map.mp ht'
  by_cases hid : t.id = id
  · rw [if_pos hid]
    exact hchange t ht hid
  · rw [if_neg hid]
    exact h t ht

/-- What a request commits is backed. -/
theorem Gated.backed_change (h : Gated past s) (hp : s.pending request = some p)
    (hfresh : p.call.env.ids.Fresh s.db) (hreplied : (p.answered s.clock exchange).Replied)
    {change : Change}
    (hpermitted : Permitted p.call.env p.solved.caller p.solved.target p.call.request.route
      change) :
    ∀ t ∈ (change.apply s.db).targets, t.Backed (past ++ [p.answered s.clock exchange])
      { s.setPending request none with db := change.apply s.db } := by
  have hsound := h.sound.pending request p hp
  have hdb := h.sound.consistent
  -- the rows that the change leaves as they are
  have hold : ∀ db, ∀ t ∈ s.db.targets, t.Backed (past ++ [p.answered s.clock exchange])
      { s.setPending request none with db := db } := fun db t ht =>
    (h.backed t ht).mono (List.subset_append_left _ _) fun i q hq => (mem_setPending_none hq).2
  generalize hl : p.solved.target = loaded at hpermitted
  generalize hroute : p.call.request.route = route at hpermitted
  cases hpermitted with
  | read | scopeRule | persona | scan => exact hold _
  | @target payload row hrow =>
    intro t ht
    rcases List.mem_append.mp ht with ht | ht
    · exact hold _ t ht
    · obtain rfl := List.mem_singleton.mp ht
      obtain ⟨hverified, hauthorized⟩ := Target.store_flags hrow
      refine Target.backed_new h.sound ?_ hverified hauthorized
      exact (Target.store_keeps hrow).1 ▸ hfresh.target
  | @challenge l payload =>
    refine backed_updateTarget (hold _) fun t ht hid => ?_
    have hclaims := hsound.claimed hdb hl ht hid
    exact (h.backed t ht).challenged h.sound h.answered hp hl hid _ _
      ⟨hreplied, hclaims, payload, hid ▸ hroute⟩
  | @verification l method token result hmethod htoken hresult =>
    refine backed_updateTarget (hold _) fun t ht hid => ?_
    have hclaims := hsound.claimed hdb hl ht hid
    have hdomain : t.rootDomain = l.rootDomain :=
      congrArg (·.2.2.1) (hsound.same hdb hl ht hid)
    refine (h.backed t ht).lookedUp h.sound h.answered hp hl hid hmethod htoken _ fun hset => ?_
    exact ⟨hreplied, hclaims, hid ▸ hroute, ⟨l, hl, hmethod, htoken⟩, result, hdomain ▸ hresult, hset⟩
  | @authorization l payload haccepted =>
    refine backed_updateTarget (hold _) fun t ht hid => ?_
    have hclaims := hsound.claimed hdb hl ht hid
    exact (h.backed t ht).accepted _ ⟨hreplied, hclaims, payload, haccepted, hid ▸ hroute⟩

end Update

/-- **One moment** keeps the gate. -/
theorem Gated.does (h : Gated past s) {a : Option Answered} (hdoes : s.Does a s') :
    Gated (past ++ a.toList) s' := by
  have hsound := hdoes.sound h.sound
  have hmono := List.subset_append_left past a.toList
  have hsince : ∀ b ∈ past, b.since < s.clock + 1 := fun b hb => Nat.lt_succ_of_lt (h.answered b hb)
  have hloaded : ∀ i, ∀ p ∈ s.pending i, ∀ l ∈ p.solved.target,
      (l.ownershipVerified = true → l.Proved (past ++ a.toList)) ∧
        (l.authorizationAccepted = true → l.Consented (past ++ a.toList)) := fun i p hp l hl =>
    ⟨fun hset => ((h.loaded i p hp l hl).1 hset).mono hmono,
      fun hset => ((h.loaded i p hp l hl).2 hset).mono hmono⟩
  have hended : ∀ request, ∀ t ∈ s.db.targets,
      t.Backed (past ++ a.toList) (s.setPending request none) := fun request t ht =>
    (h.backed t ht).mono hmono fun i q hq => (mem_setPending_none hq).2
  have hanswered : ∀ b ∈ past ++ a.toList, (∀ c ∈ a, c.since < s.clock + 1) →
      b.since < s.clock + 1 := by
    intro b hb hnew
    rcases List.mem_append.mp hb with hb | hb
    · exact hsince b hb
    · exact hnew b (Option.mem_toList.mp hb)
  cases hdoes with
  | nothing => exact (List.append_nil past).symm ▸ h
  | @arrives request p hp hnow hrows =>
    refine ⟨hsound, fun b hb => hanswered b hb fun c hc => (by cases hc), fun t ht => ?_,
      fun i q hq l hl => ?_⟩
    · exact (List.append_nil past).symm ▸ (h.backed t ht).arrives h.sound.consistent ht hrows
    · rcases mem_setPending_some hq with rfl | hq
      · -- what it has loaded is a row that is backed
        have hbacked := h.backed l (hrows l hl)
        exact ⟨fun hset => (hbacked.proved hset).mono hmono,
          fun hset => (hbacked.authorized hset).mono hmono⟩
      · exact hloaded i q hq l hl
  | @refuses request call failure hfree =>
    refine ⟨hsound, fun b hb => hanswered b hb fun c hc => ?_, hended request,
      fun i q hq => hloaded i q (mem_setPending_none hq).2⟩
    obtain rfl := Option.some.inj hc
    exact Nat.lt_succ_self _
  | @fails request p failure hp =>
    refine ⟨hsound, fun b hb => hanswered b hb fun c hc => ?_, hended request,
      fun i q hq => hloaded i q (mem_setPending_none hq).2⟩
    obtain rfl := Option.some.inj hc
    exact Nat.lt_succ_of_lt (h.sound.past request p hp)
  | @changes request p change reply hp hfresh hpermitted hrun =>
    refine ⟨hsound, fun b hb => hanswered b hb fun c hc => ?_, ?_,
      fun i q hq => hloaded i q (mem_setPending_none hq).2⟩
    · obtain rfl := Option.some.inj hc
      exact Nat.lt_succ_of_lt (h.sound.past request p hp)
    · exact h.backed_change hp hfresh ⟨reply, rfl⟩ hpermitted
  | @leaves request =>
    exact ⟨hsound, fun b hb => hanswered b hb fun c hc => (by cases hc), hended request,
      fun i q hq => hloaded i q (mem_setPending_none hq).2⟩

end Gate

/-- At the start nothing is under way, and no target verified or authorized. -/
theorem gated_start {s : Serving} (hdb : s.db.Consistent) (hidle : ∀ i, s.pending i = none)
    (hnew : ∀ t ∈ s.db.targets, t.ownershipVerified = false ∧ t.authorizationAccepted = false) :
    Gated [] s := by
  have hnone : ∀ i, ∀ p ∈ s.pending i, False := fun i p hp => by
    rw [hidle i] at hp
    cases hp
  constructor
  · exact ⟨hdb, fun i p hp => (hnone i p hp).elim, fun i p hp => (hnone i p hp).elim⟩
  · exact fun a ha => absurd ha List.not_mem_nil
  · intro t ht
    obtain ⟨hverified, hauthorized⟩ := hnew t ht
    refine ⟨fun hset => ?_, fun i p hp => (hnone i p hp).elim, fun hset => ?_⟩
    · rw [hverified] at hset
      cases hset
    · rw [hauthorized] at hset
      cases hset
  · exact fun i p hp => (hnone i p hp).elim

theorem answered_concat {σ κ : Type} (past : List (Entry σ κ (Option Answered)))
    (e : Entry σ κ (Option Answered)) :
    answered (past ++ [e]) = answered past ++ e.result.toList := by
  unfold answered
  rw [List.filterMap_append]
  cases hresult : e.result <;> simp [hresult]

/-- A request that dispatches a scan has loaded a target that was verified
and authorized. -/
theorem Serving.Does.dispatches {s s' : Serving} {a : Answered} (h : s.Does (some a) s')
    (hs : s.Sound) {scanId : Str} (hsent : scanId ∈ a.exchange.dispatched) :
    ∃ i, ∃ p ∈ s.pending i, ∃ t ∈ p.solved.target, a.loaded = some t ∧
      a.call.request.ClaimsOrg t.organizationId ∧ t.isScannable = true ∧
      ∃ scan ∈ s'.db.scans, scan.id.text = scanId ∧ scan.targetId = t.id := by
  cases h with
  | refuses | fails => cases hsent
  | @changes request p change reply hp hfresh hpermitted hrun =>
    have hsound := hs.pending request p hp
    generalize hl : p.solved.target = loaded at hpermitted
    generalize p.call.request.route = route at hpermitted
    cases hpermitted with
    | @scan t payload row hscannable hrow =>
      refine ⟨request, p, hp, t, hl, rfl, ?_, hscannable, row, ?_, ?_, (Scan.store_keeps hrow).2⟩
      · rw [hsound.owner t hl]
        exact hsound.claims
      · exact List.mem_append_right _ (List.mem_singleton_self _)
      · have hsent : scanId ∈ if p.call.env.brokerTakes then [row.id.text] else [] := hsent
        split at hsent
        · exact (List.mem_singleton.mp hsent).symm
        · cases hsent
    | _ => cases hsent

/-- **No scan without proof and consent.** Start with targets of which none
is verified or authorized. Whenever a request dispatches a scan, however the
requests overlap, the scan is one of the target that the request has loaded,
which is the caller's; before that a request of the owner has accepted the
authorization, and one has found that the target meets the challenge it had
when that request loaded it, which is the challenge of the row that the
scan was created for unless a request for a new challenge overlapped. -/
theorem dispatch_gated {s : Serving} (hdb : s.db.Consistent) (hidle : ∀ i, s.pending i = none)
    (hnew : ∀ t ∈ s.db.targets, t.ownershipVerified = false ∧ t.authorizationAccepted = false)
    {moments : List Moment}
    (hfresh : ∀ e ∈ history Serving.act s moments, e.before.Admits e.call)
    {earlier later : List Passed} {e : Passed}
    (hrun : history Serving.act s moments = earlier ++ e :: later) {a : Answered}
    (ha : e.result = some a) {scanId : Str} (hsent : scanId ∈ a.exchange.dispatched) :
    ∃ t ∈ a.loaded, a.call.request.ClaimsOrg t.organizationId ∧
      (∃ scan ∈ e.after.db.scans, scan.id.text = scanId ∧ scan.targetId = t.id) ∧
      t.Proved (answered earlier) ∧ t.Consented (answered earlier) := by
  obtain ⟨xs, m, ys, rfl, rfl, rfl, -⟩ := history_split hrun
  have hadmits : (final Serving.act s xs).Admits m :=
    hfresh _ (by rw [hrun]; exact List.mem_append_right _ List.mem_cons_self)
  have hearlier : ∀ e ∈ history Serving.act s xs, e.before.Admits e.call := fun e he =>
    hfresh e (by rw [hrun]; exact List.mem_append_left _ he)
  have hgated : Gated (answered (history Serving.act s xs)) (final Serving.act s xs) := by
    let inv : List Passed → Serving → Prop := fun past s => Gated (answered past) s
    have hinit : inv [] s := gated_start hdb hidle hnew
    refine history_rule_of hinit (fun past s m h hcall => ?_) hearlier
    show Gated (answered (past ++ [entry Serving.act s m])) _
    rw [answered_concat]
    exact h.does (s.act_does h.sound hcall)
  have hdoes := (final Serving.act s xs).act_does hgated.sound hadmits
  have hresult : ((final Serving.act s xs).act m).1 = some a := ha
  rw [hresult] at hdoes
  obtain ⟨i, p, hp, t, ht, hloaded, hclaims, hscannable, hscan⟩ :=
    hdoes.dispatches hgated.sound hsent
  obtain ⟨hverified, haccepted⟩ := Bool.and_eq_true_iff.mp hscannable
  obtain ⟨hproved, hconsented⟩ := hgated.loaded i p hp t ht
  exact ⟨t, hloaded, hclaims, hscan, hproved hverified, hconsented haccepted⟩

/-! ## A challenge is overtaken -/

/-- A challenge is looked up while the owner asks for another one. -/
def overtaken : List Moment :=
  [.arrive 0 ⟨provingEnvironment, some acmeHeader, .runOwnershipVerification acmeId⟩,
    .arrive 1 ⟨provingEnvironment, some acmeHeader,
      .createOwnershipChallenge acmeId (.valid ⟨.metaTag⟩)⟩,
    .finish 1, .finish 0,
    .arrive 1 ⟨provingEnvironment, some acmeHeader, .acceptAuthorization acmeId (.valid ⟨true⟩)⟩,
    .finish 1,
    .arrive 1 ⟨provingEnvironment, some acmeHeader,
      .createScan acmeId (.valid ⟨"manual".toList⟩)⟩,
    .finish 1]

/-- The scan is dispatched, and its request has loaded a target with another
challenge than the one that was met. -/
theorem overtaken_gated :
    let earlier := history Serving.act { db := challengedDb } (overtaken.take 7)
    ∃ t : Target, t.ownershipVerificationMethod = some .metaTag ∧ t.Proved (answered earlier) ∧
      t.Consented (answered earlier) := by
  intro earlier
  let last := entry Serving.act (final Serving.act { db := challengedDb } (overtaken.take 7))
    (.finish 1)
  have hrun : history Serving.act { db := challengedDb } overtaken = earlier ++ [last] :=
    history_concat _ _ (overtaken.take 7) _
  have hfresh : ∀ e ∈ history Serving.act { db := challengedDb } overtaken,
      e.before.Admits e.call := by
    decide +kernel
  have hresult : last.result.map (fun a => (a.loaded.map (·.ownershipVerificationMethod),
      a.exchange.dispatched)) =
        some (some (some .metaTag), ["00000000-0000-0000-0000-00000000000f".toList]) := by
    decide +kernel
  obtain ⟨a, ha, hseen⟩ := Option.map_eq_some_iff.mp hresult
  obtain ⟨hloaded, hsent⟩ := Prod.mk.inj hseen
  obtain ⟨t, ht, hmethod⟩ := Option.map_eq_some_iff.mp hloaded
  obtain ⟨t', ht', -, -, hproved, hconsented⟩ :=
    dispatch_gated challengedDb_consistent (fun _ => rfl) (by decide) hfresh hrun ha
      (hsent ▸ List.mem_singleton_self _)
  obtain rfl : t = t' := Option.some.inj (ht.symm.trans ht')
  exact ⟨t, hmethod, hproved, hconsented⟩

end Sentinel.Api
