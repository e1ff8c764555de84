/-
Sentinel.Api.OwnershipRaces — the requests that change the ownership of one
target, interleaved.

A request loads the row, changes its copy and commits; between the two a
verification waits for a lookup outside. The UPDATE of a commit has the
columns whose value the request changed, compared with what it loaded, and
no other.
-/
import Sentinel.Api.Routes
import Sentinel.Trace.Run

namespace Sentinel.Api

open Sentinel.Py Sentinel.Core Sentinel.Orm

/-! ## Interleavings -/

/-- How far a request has come. -/
inductive OwnershipRequest where
  | challenging (loaded : Target) (method : OwnershipVerificationMethod) (token : Str)
  | awaitingLookup (loaded : Target) (method : OwnershipVerificationMethod) (token : Str)
  | lookedUp (loaded : Target) (method : OwnershipVerificationMethod) (token : Str)
      (verified : Bool)
  deriving DecidableEq

/-- A method and a token. -/
abbrev Proof := OwnershipVerificationMethod × Str

/-- The committed row, the requests under way and the lookups that have
succeeded. -/
structure OwnershipRace where
  row : Target
  requests : ℕ → Option OwnershipRequest := fun _ => none
  succeeded : List Proof := []

/-- What happens next: a request loads the row, a lookup ends, a request
commits, or ends without (the lookup has raised, the client is gone). A
request that finds no challenge ends with status 400. -/
inductive OwnershipAction where
  | loadForChallenge (request : ℕ) (method : OwnershipVerificationMethod) (token : Str)
  | loadForVerification (request : ℕ)
  | lookupEnds (request : ℕ) (verified : Bool)
  | commit (request : ℕ) (now : Db.Instant)
  | abandon (request : ℕ)
  deriving DecidableEq

def OwnershipRace.setRequest (s : OwnershipRace) (request : ℕ) (r : Option OwnershipRequest) :
    OwnershipRace :=
  { s with requests := fun i => if i = request then r else s.requests i }

/-- One action. A number is used for one request at a time. -/
def OwnershipRace.step (s : OwnershipRace) : OwnershipAction → OwnershipRace
  | .loadForChallenge request method token =>
      match s.requests request with
      | none => s.setRequest request (some (.challenging s.row method token))
      | some _ => s
  | .loadForVerification request =>
      match s.requests request, s.row.ownershipVerificationMethod,
          s.row.ownershipVerificationToken.filter (· ≠ []) with
      | none, some method, some token =>
          s.setRequest request (some (.awaitingLookup s.row method token))
      | _, _, _ => s
  | .lookupEnds request verified =>
      match s.requests request with
      | some (.awaitingLookup loaded method token) =>
          { s.setRequest request (some (.lookedUp loaded method token verified)) with
            succeeded := if verified then (method, token) :: s.succeeded else s.succeeded }
      | _ => s
  | .commit request now =>
      match s.requests request with
      | some (.challenging loaded method token) =>
          { s.setRequest request none with
            row := updateChanged loaded (issueChallenge method token loaded) s.row }
      | some (.lookedUp loaded _ _ verified) =>
          { s.setRequest request none with
            row := updateChanged loaded (recordVerification verified now loaded) s.row }
      | _ => s
  | .abandon request => s.setRequest request none

/-- The stored flag is backed by a lookup of the stored challenge. -/
def OwnershipRace.Backed (s : OwnershipRace) : Prop :=
  s.row.ownershipVerified = true → ∃ method token,
    s.row.ownershipVerificationMethod = some method ∧
    s.row.ownershipVerificationToken = some token ∧ (method, token) ∈ s.succeeded

/-- A commit comes in time: a verification that raises the flag finds the
challenge it has looked up, and a challenge that has loaded an unverified
row finds it unverified. -/
def OwnershipRace.InTime (s : OwnershipRace) : OwnershipAction → Prop
  | .commit request _ =>
      match s.requests request with
      | some (.challenging loaded _ _) =>
          loaded.ownershipVerified = false → s.row.ownershipVerified = false
      | some (.lookedUp loaded method token verified) =>
          verified = true → loaded.ownershipVerified = false →
            s.row.ownershipVerificationMethod = some method ∧
              s.row.ownershipVerificationToken = some token
      | _ => True
  | _ => True

/-! ## Commits in time -/

/-- Backed, and so is every flag that a request is about to raise. -/
structure OwnershipRace.Sound (s : OwnershipRace) : Prop where
  backed : s.Backed
  lookups : ∀ request loaded method token,
    s.requests request = some (.lookedUp loaded method token true) →
      (method, token) ∈ s.succeeded

theorem OwnershipRace.sound_start {row : Target} (h : row.ownershipVerified = false) :
    OwnershipRace.Sound { row := row } where
  backed := fun hverified => by rw [h] at hverified; cases hverified
  lookups := fun request loaded method token hrequest => by cases hrequest

/-- A request that has not looked anything up is no reason to change a verdict. -/
theorem OwnershipRace.Sound.setRequest {s : OwnershipRace} (h : s.Sound) (request : ℕ)
    {r : Option OwnershipRequest}
    (hr : ∀ loaded method token, r = some (.lookedUp loaded method token true) →
      (method, token) ∈ s.succeeded) : (s.setRequest request r).Sound where
  backed := h.backed
  lookups := by
    intro i loaded method token hi
    simp only [OwnershipRace.setRequest] at hi
    split at hi
    · exact hr loaded method token hi
    · exact h.lookups i loaded method token hi

/-- A new row, if it is backed. -/
theorem OwnershipRace.Sound.withRow {s : OwnershipRace} (h : s.Sound) {row : Target}
    (hrow : ({ s with row := row } : OwnershipRace).Backed) :
    ({ s with row := row } : OwnershipRace).Sound where
  backed := hrow
  lookups := h.lookups

/-- A lookup that ends, with the record of its success. -/
theorem OwnershipRace.Sound.lookup {s : OwnershipRace} (h : s.Sound) (p : Proof) :
    ({ s with succeeded := p :: s.succeeded } : OwnershipRace).Sound where
  backed := by
    intro hverified
    obtain ⟨method, token, hmethod, htoken, hmem⟩ := h.backed hverified
    exact ⟨method, token, hmethod, htoken, List.mem_cons_of_mem _ hmem⟩
  lookups := fun i loaded method token hi =>
    List.mem_cons_of_mem _ (h.lookups i loaded method token hi)

/-- A challenge in time leaves the row unverified. -/
theorem challenge_unverified {loaded stored : Target} (method : OwnershipVerificationMethod)
    (token : Str) (h : loaded.ownershipVerified = false → stored.ownershipVerified = false) :
    (updateChanged loaded (issueChallenge method token loaded) stored).ownershipVerified =
      false := by
  show column loaded.ownershipVerified false stored.ownershipVerified = false
  cases hloaded : loaded.ownershipVerified with
  | false => exact (column_unchanged _ _).trans (h hloaded)
  | true => exact column_of_ne (by decide) _

/-- A verification leaves the challenge as it is stored. -/
theorem verification_method (loaded stored : Target) (verified : Bool) (now : Db.Instant) :
    (updateChanged loaded (recordVerification verified now loaded)
      stored).ownershipVerificationMethod = stored.ownershipVerificationMethod :=
  column_unchanged _ _

theorem verification_token (loaded stored : Target) (verified : Bool) (now : Db.Instant) :
    (updateChanged loaded (recordVerification verified now loaded)
      stored).ownershipVerificationToken = stored.ownershipVerificationToken :=
  column_unchanged _ _

/-- After a verification a raised flag was raised before, or the request has
raised it. -/
theorem verification_verified {loaded stored : Target} {verified : Bool} {now : Db.Instant}
    (h : (updateChanged loaded (recordVerification verified now loaded)
      stored).ownershipVerified = true) :
    stored.ownershipVerified = true ∨ (verified = true ∧ loaded.ownershipVerified = false) := by
  have h : column loaded.ownershipVerified verified stored.ownershipVerified = true := h
  rcases eq_or_ne verified loaded.ownershipVerified with rfl | hchanged
  · exact .inl ((column_unchanged _ _).symm.trans h)
  · rw [column_of_ne hchanged] at h
    subst h
    exact .inr ⟨rfl, by simpa using hchanged.symm⟩

theorem OwnershipRace.backed_challenge (s : OwnershipRace) {loaded : Target}
    (method : OwnershipVerificationMethod) (token : Str)
    (h : loaded.ownershipVerified = false → s.row.ownershipVerified = false) :
    ({ s with row := updateChanged loaded (issueChallenge method token loaded) s.row } :
      OwnershipRace).Backed := by
  intro hverified
  have hlowered := challenge_unverified method token h
  exact absurd (hverified.symm.trans hlowered) (by decide)

theorem OwnershipRace.Sound.backed_verification {s : OwnershipRace} (hs : s.Sound) {request : ℕ}
    {loaded : Target} {method : OwnershipVerificationMethod} {token : Str} {verified : Bool}
    (now : Db.Instant)
    (hrequest : s.requests request = some (.lookedUp loaded method token verified))
    (h : verified = true → loaded.ownershipVerified = false →
      s.row.ownershipVerificationMethod = some method ∧
        s.row.ownershipVerificationToken = some token) :
    ({ s with row := updateChanged loaded (recordVerification verified now loaded) s.row } :
      OwnershipRace).Backed := by
  intro hverified
  simp only [verification_method, verification_token]
  rcases verification_verified hverified with hstored | ⟨rfl, hloaded⟩
  · exact hs.backed hstored
  · obtain ⟨hmethod, htoken⟩ := h rfl hloaded
    exact ⟨method, token, hmethod, htoken, hs.lookups request loaded method token hrequest⟩

/-- **One step.** Whatever happens next, if it commits in time. -/
theorem OwnershipRace.Sound.step {s : OwnershipRace} (hs : s.Sound) (a : OwnershipAction)
    (h : s.InTime a) : (s.step a).Sound := by
  cases a with
  | loadForChallenge request method token =>
    simp only [OwnershipRace.step]
    split
    · exact hs.setRequest request (by intro _ _ _ heq; cases heq)
    · exact hs
  | loadForVerification request =>
    simp only [OwnershipRace.step]
    split
    · exact hs.setRequest request (by intro _ _ _ heq; cases heq)
    · exact hs
  | lookupEnds request verified =>
    simp only [OwnershipRace.step]
    split
    · rename_i loaded method token _
      cases verified with
      | false => exact hs.setRequest request (by intro _ _ _ heq; cases heq)
      | true =>
        refine (hs.lookup (method, token)).setRequest request ?_
        intro _ _ _ heq
        cases heq
        exact List.mem_cons_self
    · exact hs
  | commit request now =>
    simp only [OwnershipRace.InTime] at h
    simp only [OwnershipRace.step]
    split
    · rename_i loaded method token hrequest
      simp only [hrequest] at h
      exact (hs.withRow (s.backed_challenge method token h)).setRequest request
        (by intro _ _ _ heq; cases heq)
    · rename_i loaded method token verified hrequest
      simp only [hrequest] at h
      exact (hs.withRow (hs.backed_verification now hrequest h)).setRequest request
        (by intro _ _ _ heq; cases heq)
    · exact hs
  | abandon request => exact hs.setRequest request (by intro _ _ _ heq; cases heq)

/-- **Verified means that the current challenge was met**, at every moment of
every interleaving whose commits are in time. -/
theorem ownershipRace_backed {row : Target} (hrow : row.ownershipVerified = false)
    {actions : List OwnershipAction}
    (h : Trace.Along OwnershipRace.step OwnershipRace.InTime { row := row } actions)
    {p : List OwnershipAction} (hp : p <+: actions) :
    (Trace.run OwnershipRace.step { row := row } p).Backed :=
  (Trace.run_invariant (fun _ a hs ha => hs.step a ha) (OwnershipRace.sound_start hrow)
    (h.initial hp)).backed

/-- The row a target is created with. -/
def draftTarget : Target :=
  { id := 1, organizationId := 1, rootDomain := "example.com".toList,
    displayName := "Example".toList, isProduction := true }

/-- A challenge is met, and the next one is issued. -/
theorem challenge_met_backed :
    (Trace.run OwnershipRace.step { row := draftTarget }
      [.loadForChallenge 0 .dnsTxt "first".toList, .commit 0 0, .loadForVerification 1,
        .lookupEnds 1 true, .commit 1 5]).Backed := by
  have hinTime : Trace.Along OwnershipRace.step OwnershipRace.InTime { row := draftTarget }
      [.loadForChallenge 0 .dnsTxt "first".toList, .commit 0 0, .loadForVerification 1,
        .lookupEnds 1 true, .commit 1 5, .loadForChallenge 2 .metaTag "second".toList,
        .commit 2 9] :=
    ⟨trivial, fun _ => rfl, trivial, trivial, fun _ _ => ⟨rfl, rfl⟩, trivial,
      fun hloaded => absurd hloaded (by decide), trivial⟩
  exact ownershipRace_backed rfl hinTime
    ⟨[.loadForChallenge 2 .metaTag "second".toList, .commit 2 9], rfl⟩

/-- A second challenge is issued while the first one is looked up, and the
target is verified for a token that nobody has shown. -/
theorem challenge_overtaken :
    ¬ (Trace.run OwnershipRace.step { row := draftTarget }
      [.loadForChallenge 0 .dnsTxt "first".toList, .commit 0 0, .loadForVerification 1,
        .loadForChallenge 2 .dnsTxt "second".toList, .commit 2 3, .lookupEnds 1 true,
        .commit 1 5]).Backed := by
  intro h
  obtain ⟨method, token, hmethod, htoken, hmem⟩ := h rfl
  have hstored : some token = some "second".toList := htoken.symm.trans rfl
  have hshown : (method, token) ∈ [(OwnershipVerificationMethod.dnsTxt, "first".toList)] := hmem
  obtain ⟨rfl, rfl⟩ := Prod.mk.inj (List.mem_singleton.mp hshown)
  exact absurd hstored (by decide)

end Sentinel.Api
