/-
Sentinel.Api.RequestRuns — the control plane over whole runs.

Requests of any organisations are served one after another, each with what
it meets outside. A reply comes with the one change of its route
(`entry_did`), so what a run leaves is its changes in order: keys stay in
order and nothing is left half done (`run_consistent`), and the scans that
are dispatched are those that are created and that the broker takes
(`run_dispatches`). Requests that overlap are the subject of
`Sentinel.Api.Overlapping`.
-/
import Sentinel.Api.Changes
import Sentinel.Api.UuidText
import Sentinel.Trace.History

namespace Sentinel.Api

open Sentinel.Py Sentinel.Core Sentinel.Tenancy Sentinel.Trace

/-! ## Runs -/

/-- A request, and what it meets outside. -/
structure Call where
  env : Environment
  request : Request

/-- The application on a request, as an operation on the database. -/
def Database.serveCall (db : Database) (call : Call) : Exchange × Database :=
  (serve call.env call.request db, (serve call.env call.request db).db)

/-- A request that was served. -/
abbrev Served := Entry Database Call Exchange

namespace Served

/-- The ids that were drawn for it were not taken. -/
def Fresh (e : Served) : Prop := e.call.env.ids.Fresh e.before

/-- It was answered with a reply, not with an error. -/
def Replied (e : Served) : Prop := ∃ reply, e.result.response = .reply reply

/-- It did nothing. -/
def Idle (e : Served) : Prop := e.after = e.before ∧ e.result.dispatched = []

/-- It was answered and has made the change. -/
structure Did (e : Served) (change : Change) : Prop where
  permits : e.call.request.Permits e.call.env e.before change
  replied : Replied e
  after : e.after = change.apply e.before
  dispatched : e.result.dispatched = change.dispatched

end Served

open Served

/-- The ids that are drawn in the run are fresh. -/
def Database.FreshFor (db : Database) (calls : List Call) : Prop :=
  ∀ e ∈ history Database.serveCall db calls, Fresh e

/-- **One call.** -/
theorem entry_did {db : Database} {call : Call} (hfresh : call.env.ids.Fresh db) :
    let e : Served := entry Database.serveCall db call
    (∃ change, Did e change) ∨ ¬ Replied e ∧ Idle e := by
  intro e
  rcases serve_makes hfresh call.request with ⟨change, reply, hpermits, hserve⟩ | ⟨failure, hserve⟩
  · refine .inl ⟨change, ⟨hpermits, ⟨reply, ?_⟩, ?_, ?_⟩⟩
    · show (serve call.env call.request db).response = _
      rw [hserve]
    · show (serve call.env call.request db).db = change.apply db
      rw [hserve]
    · show (serve call.env call.request db).dispatched = _
      rw [hserve]
  · refine .inr ⟨?_, ?_, ?_⟩
    · rintro ⟨reply, hreply⟩
      have hfailed : (serve call.env call.request db).response = .reply reply := hreply
      rw [hserve] at hfailed
      cases failure <;> cases hfailed
    · show (serve call.env call.request db).db = db
      rw [hserve]
    · show (serve call.env call.request db).dispatched = []
      rw [hserve]

/-- A request of a run that was answered has made its change. -/
theorem replied_did {db : Database} {calls : List Call} (hfresh : db.FreshFor calls)
    {earlier later : List Served} {e : Served}
    (hrun : history Database.serveCall db calls = earlier ++ e :: later) (hreplied : Replied e) :
    ∃ change, Did e change := by
  have hmem : e ∈ history Database.serveCall db calls := by
    rw [hrun]
    exact List.mem_append_right _ List.mem_cons_self
  obtain ⟨xs, call, ys, rfl, -, rfl, -⟩ := history_split hrun
  have he : call.env.ids.Fresh (final Database.serveCall db xs) := hfresh _ hmem
  exact (entry_did he).resolve_right fun hidle => hidle.1 hreplied

/-- A call keeps the keys in order. -/
theorem entry_consistent {db : Database} (hdb : db.Consistent) {call : Call}
    (hfresh : call.env.ids.Fresh db) : (db.serveCall call).2.Consistent := by
  rcases entry_did hfresh with ⟨change, hdid⟩ | ⟨-, hafter, -⟩
  · obtain ⟨caller, loaded, hloads, hpermitted⟩ := hdid.permits
    have hafter : (db.serveCall call).2 = change.apply db := hdid.after
    rw [hafter]
    exact hpermitted.consistent hdb (List.mem_map_of_mem hloads.known)
      (fun t ht => List.mem_map_of_mem (hloads.owns t ht).1) hfresh
  · have hafter : (db.serveCall call).2 = db := hafter
    rw [hafter]
    exact hdb

theorem final_consistent {db : Database} (hdb : db.Consistent) {calls : List Call}
    (hfresh : db.FreshFor calls) : (final Database.serveCall db calls).Consistent := by
  let inv : List Served → Database → Prop := fun _ db => db.Consistent
  have hinit : inv [] db := hdb
  exact history_rule_of hinit (fun _ _ _ h hcall => entry_consistent h hcall) hfresh

/-- An entry of a run, with its place in it. -/
theorem mem_requests {db : Database} {calls : List Call} {e : Served}
    (he : e ∈ history Database.serveCall db calls) : ∃ earlier call later,
      calls = earlier ++ call :: later ∧
        e = entry Database.serveCall (final Database.serveCall db earlier) call := by
  obtain ⟨before, after, hsplit⟩ := List.append_of_mem he
  obtain ⟨xs, c, ys, hcalls, -, rfl, -⟩ := history_split hsplit
  exact ⟨xs, c, ys, hcalls, rfl⟩

theorem Database.FreshFor.earlier {db : Database} {earlier later : List Call}
    (h : db.FreshFor (earlier ++ later)) : db.FreshFor earlier := by
  intro e he
  refine h e ?_
  rw [history_append]
  exact List.mem_append_left _ he

/-- A run is fresh call by call. -/
theorem freshFor_cons {db : Database} {call : Call} {calls : List Call} :
    db.FreshFor (call :: calls) ↔
      call.env.ids.Fresh db ∧ (db.serveCall call).2.FreshFor calls := by
  unfold Database.FreshFor
  exact List.forall_mem_cons

/-! ## A run

Its three calls are the example of this file. -/

/-- An environment in which every challenge is met. -/
def provingEnvironment : Environment :=
  { bareEnvironment with verifyOwnership _ _ _ := .ok ⟨true, []⟩ }

/-- An organisation with a target that has a challenge. -/
def challengedDb : Database where
  organizations := [⟨1, []⟩]
  targets := [{ acmeTarget with ownershipVerificationMethod := some .dnsTxt
                                ownershipVerificationToken := some "t".toList }]

def acmeId : PathId := .ok 3

/-- The challenge is met, the authorization accepted, a scan created. -/
def scanCalls : List Call :=
  [⟨provingEnvironment, some acmeHeader, .runOwnershipVerification acmeId⟩,
    ⟨provingEnvironment, some acmeHeader, .acceptAuthorization acmeId (.valid ⟨true⟩)⟩,
    ⟨provingEnvironment, some acmeHeader, .createScan acmeId (.valid ⟨"manual".toList⟩)⟩]

theorem challengedDb_consistent : challengedDb.Consistent := by
  constructor <;> decide +kernel

theorem scanCalls_fresh : challengedDb.FreshFor scanCalls := by
  refine freshFor_cons.mpr ⟨?_, freshFor_cons.mpr ⟨?_, freshFor_cons.mpr ⟨?_, ?_⟩⟩⟩
  · constructor <;> decide +kernel
  · constructor <;> decide +kernel
  · constructor <;> decide +kernel
  · intro e he
    cases he

/-! ## What a run leaves -/

/-- **Atomic and consistent.** At every moment of a run primary keys are
unique and foreign keys have their rows; a request that is answered with an
error has changed and dispatched nothing, and neither has one that reads. -/
theorem run_consistent {db : Database} (hdb : db.Consistent) {calls : List Call}
    (hfresh : db.FreshFor calls) :
    (final Database.serveCall db calls).Consistent ∧
      ∀ e ∈ history Database.serveCall db calls, e.before.Consistent ∧
        (¬ Replied e → Idle e) ∧ (e.call.request.route.reads = true → Idle e) := by
  refine ⟨final_consistent hdb hfresh, fun e he => ?_⟩
  obtain ⟨earlier, call, later, rfl, rfl⟩ := mem_requests he
  refine ⟨final_consistent hdb hfresh.earlier, ?_⟩
  rcases entry_did (hfresh _ he) with ⟨change, hdid⟩ | ⟨-, hidle⟩
  · refine ⟨fun hnot => absurd hdid.replied hnot, fun hread => ?_⟩
    obtain ⟨caller, loaded, -, hpermitted⟩ := hdid.permits
    obtain rfl := hpermitted.eq_nothing hread
    exact ⟨hdid.after, hdid.dispatched⟩
  · exact ⟨fun _ => hidle, fun _ => hidle⟩

theorem scanCalls_consistent : (final Database.serveCall challengedDb scanCalls).Consistent :=
  (run_consistent challengedDb_consistent scanCalls_fresh).1

/-! ## Scans -/

/-- The scans of a run: those there were, then the created ones, each with
the request that has created it. Those that the broker took were dispatched
in this order. -/
def DispatchedAsCreated (start : Database) (past : List Served) (db : Database)
    (created : List (Served × Scan)) : Prop :=
  (created.map Prod.fst).Sublist past ∧ db.scans = start.scans ++ created.map Prod.snd ∧
    past.flatMap (·.result.dispatched) =
      (created.filter (·.1.call.env.brokerTakes)).map (·.2.id.text) ∧
    ∀ c ∈ created, c.2.state = .queued

theorem Scan.store_state {s kept : Scan} (h : s.store = some kept) : kept.state = s.state := by
  simp only [Scan.store, Option.bind_eq_bind, Option.bind_eq_some_iff, Option.pure_def,
    Option.some.injEq] at h
  obtain ⟨_, _, rfl⟩ := h
  rfl

/-- A change dispatches what it creates, if the broker takes it; it creates
one scan or none. -/
theorem Permitted.scans_apply {env : Environment} {caller : Organization}
    {loaded : Option Target} {route : Route} {change : Change}
    (h : Permitted env caller loaded route change) (db : Database) :
    ∃ created : Option Scan, (change.apply db).scans = db.scans ++ created.toList ∧
      change.dispatched = (created.filter fun _ => env.brokerTakes).toList.map (·.id.text) ∧
      ∀ scan ∈ created, scan.state = .queued := by
  cases h with
  | @scan target payload row hscannable hrow =>
    refine ⟨some row, rfl, ?_, ?_⟩
    · show (if env.brokerTakes then [row.id.text] else []) = _
      cases env.brokerTakes <;> rfl
    · intro scan hscan
      obtain rfl := Option.some.inj hscan
      exact Scan.store_state hrow
  | _ => exact ⟨none, (List.append_nil _).symm, rfl, fun _ hscan => by cases hscan⟩

theorem dispatchedAsCreated_step {start db : Database} {past : List Served} {call : Call}
    (h : ∃ created, DispatchedAsCreated start past db created) (hfresh : call.env.ids.Fresh db) :
    ∃ created, DispatchedAsCreated start (past ++ [entry Database.serveCall db call])
      (db.serveCall call).2 created := by
  obtain ⟨created, hpast, hscans, hsent, hqueued⟩ := h
  let e : Served := entry Database.serveCall db call
  have hall : (past ++ [e]).flatMap (·.result.dispatched) =
      (created.filter (·.1.call.env.brokerTakes)).map (·.2.id.text) ++ e.result.dispatched := by
    rw [List.flatMap_append, List.flatMap_singleton, hsent]
  rcases entry_did hfresh with ⟨change, hdid⟩ | ⟨-, hafter, hnone⟩
  · obtain ⟨caller, loaded, -, hpermitted⟩ := hdid.permits
    obtain ⟨more, hmore, hdispatched, hnew⟩ := hpermitted.scans_apply db
    have hafter : (db.serveCall call).2 = change.apply db := hdid.after
    have hresult : e.result.dispatched = change.dispatched := hdid.dispatched
    cases more with
    | none =>
      refine ⟨created, hpast.trans (List.sublist_append_left _ _), ?_, ?_, hqueued⟩
      · rw [hafter, hmore, hscans]
        exact List.append_nil _
      · rw [hall, hresult, hdispatched]
        exact List.append_nil _
    | some scan =>
      refine ⟨created ++ [(e, scan)], ?_, ?_, ?_, ?_⟩
      · rw [List.map_append]
        exact hpast.append (List.Sublist.refl _)
      · rw [hafter, hmore, hscans, List.map_append, List.append_assoc]
        rfl
      · rw [hall, hresult, hdispatched, List.filter_append, List.map_append]
        refine congrArg _ ?_
        cases htakes : call.env.brokerTakes with
        | false => simp [htakes, e, entry]
        | true => simp [htakes, e, entry]
      · refine List.forall_mem_append.mpr ⟨hqueued, fun c hc => ?_⟩
        obtain rfl := List.mem_singleton.mp hc
        exact hnew scan rfl
  · refine ⟨created, hpast.trans (List.sublist_append_left _ _), ?_, ?_, hqueued⟩
    · have hafter : (db.serveCall call).2 = db := hafter
      rw [hafter, hscans]
    · have hnone : e.result.dispatched = [] := hnone
      rw [hall, hnone, List.append_nil]

/-- **Every created scan is dispatched once**, if the broker takes it. What a
run hands to the broker are the ids of the scans it has created, less those
that the broker did not take, in that order and no id twice; and under each
id the worker finds the scan, still queued. -/
theorem run_dispatches {db : Database} (hdb : db.Consistent) {calls : List Call}
    (hfresh : db.FreshFor calls) :
    let past := history Database.serveCall db calls
    let left := final Database.serveCall db calls
    let sent := past.flatMap (·.result.dispatched)
    sent.Nodup ∧ ∃ created : List (Served × Scan),
      (created.map Prod.fst).Sublist past ∧ left.scans = db.scans ++ created.map Prod.snd ∧
      sent = (created.filter (·.1.call.env.brokerTakes)).map (·.2.id.text) ∧
      ∀ c ∈ created, c.2.state = .queued ∧
        (uuidOfText c.2.id.text).bind (rowById · left.scans) = some c.2 := by
  intro past left sent
  let inv : List Served → Database → Prop := fun past db' =>
    ∃ created, DispatchedAsCreated db past db' created
  have hinit : inv [] db :=
    ⟨[], List.Sublist.refl _, (List.append_nil _).symm, rfl, fun _ hc => by cases hc⟩
  have hcreated : inv past left :=
    history_rule_of hinit (fun _ _ _ h hcall => dispatchedAsCreated_step h hcall) hfresh
  obtain ⟨created, hpast, hscans, hsent, hqueued⟩ := hcreated
  have hkeys : (left.scans.map (·.id)).Nodup := (final_consistent hdb hfresh).scans_nodup
  refine ⟨?_, created, hpast, hscans, hsent, fun c hc => ⟨hqueued c hc, ?_⟩⟩
  · -- the text of an id determines it
    have hids : ((created.map Prod.snd).map (·.id)).Nodup := by
      rw [hscans, List.map_append] at hkeys
      exact (List.nodup_append.mp hkeys).2.1
    have htexts : ((created.map Prod.snd).map (·.id.text)).Nodup := by
      have hcomp : (created.map Prod.snd).map (·.id.text) =
          ((created.map Prod.snd).map (·.id)).map Uuid.text := by
        rw [List.map_map (g := Uuid.text)]
        rfl
      rw [hcomp]
      exact hids.map fun u v heq => Option.some.inj
        ((uuidOfText_text u).symm.trans ((congrArg uuidOfText heq).trans (uuidOfText_text v)))
    rw [List.map_map] at htexts
    show (List.flatMap _ _).Nodup
    rw [hsent]
    exact htexts.sublist (List.filter_sublist.map _)
  · rw [uuidOfText_text, Option.bind_some]
    have hmem : c.2 ∈ left.scans :=
      hscans ▸ List.mem_append_right _ (List.mem_map_of_mem hc)
    exact rowById_of_mem hkeys hmem

/-- Two scans are created, and the broker is down for the second. -/
def twoScans : List Call :=
  scanCalls ++ [⟨{ provingEnvironment with ids := ⟨21, 22, 23, 24, 25⟩, brokerTakes := false },
    some acmeHeader, .createScan acmeId (.valid ⟨"manual".toList⟩)⟩]

theorem twoScans_dispatch :
    let sent := (history Database.serveCall challengedDb twoScans).flatMap (·.result.dispatched)
    sent.Nodup ∧ sent = ["00000000-0000-0000-0000-00000000000f".toList] ∧
      (final Database.serveCall challengedDb twoScans).scans.map (·.id) = [15, 25] := by
  have hfresh : challengedDb.FreshFor twoScans := by
    unfold Database.FreshFor Fresh
    decide +kernel
  exact ⟨(run_dispatches challengedDb_consistent hfresh).1, by decide +kernel, by decide +kernel⟩

end Sentinel.Api
