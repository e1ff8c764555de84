/-
Sentinel.Platform.Polling — what a client sees of a scan while it polls.

A request does not touch the scans there are, and a commit of a worker goes
onward from what the scan was. So the answers to GET requests, in the order
in which their endpoints read, never take back what an earlier one has shown
(`polls_in_order`).
-/
import Sentinel.Platform.State

namespace Sentinel.Platform

open Sentinel.Py Sentinel.Core Sentinel.Trace
open Sentinel.Api (Uuid Database)
open Sentinel.Worker (ScanAttempt Onward said)

/-! ## Two answers about one scan -/

/-- `b` may be shown of a scan after `a` was: the scan goes on, keeps its
gaps and its phases, and once it is over or paused nothing changes. -/
structure Follows (a b : Api.ScanOut) : Prop where
  same : b = { a with state := b.state, isDegraded := b.isDegraded,
                      degradedReasons := b.degradedReasons, finishedAt := b.finishedAt,
                      phases := b.phases }
  ended : a.state ∈ terminalStates ∨ a.state = .paused → b = a
  ahead : b.state = .paused ∨ a.state.rank ≤ b.state.rank
  degraded : a.isDegraded = true → b.isDegraded = true
  reasons : a.degradedReasons <+: b.degradedReasons
  phases : a.phases.map (·.name) ⊆ b.phases.map (·.name)

theorem Follows.refl (a : Api.ScanOut) : Follows a a where
  same := rfl
  ended _ := rfl
  ahead := Or.inr (le_refl _)
  degraded := id
  reasons := List.prefix_refl _
  phases := List.Subset.refl _

theorem Follows.trans {a b c : Api.ScanOut} (h : Follows a b) (h' : Follows b c) :
    Follows a c where
  same := by
    have hlast := h'.same
    rw [h.same] at hlast
    exact hlast
  ended hended := by
    obtain rfl := h.ended hended
    exact h'.ended hended
  ahead := by
    rcases h.ahead with hpaused | hle
    · left
      rw [h'.ended (Or.inr hpaused), hpaused]
    · exact h'.ahead.imp_right hle.trans
  degraded hset := h'.degraded (h.degraded hset)
  reasons := h.reasons.trans h'.reasons
  phases := List.Subset.trans h.phases h'.phases

/-! ## One event -/

/-- The API is sound, the executions that work know scans, and what they will
commit goes onward from where the scans are. -/
structure State.Sound (st : State) : Prop where
  serving : st.toServing.Sound
  known : ∀ id, st.working id ≠ none → id ∈ st.db.scans.map (·.id)
  onward : ∀ row ∈ st.db.scans, ∀ rest, st.working row.id = some rest →
    List.IsChain Onward (st.scanRow row :: rest.map (·.scan))

/-- The scans of `st` are still there, with what may be shown after it. -/
def State.Shows (st st' : State) : Prop :=
  ∀ row ∈ st.db.scans, ∃ row' ∈ st'.db.scans, row'.id = row.id ∧
    Follows (st.shown row) (st'.shown row')

variable {st : State}

/-- A commit that goes onward may be shown. -/
theorem follows_write {id : Uuid} {s : Db.Snapshot} {row : Api.Scan} (hid : row.id = id)
    (h : Onward (st.scanRow row) s.scan) :
    Follows (st.shown row) ((st.write id s).shown (writeScan s.scan row)) where
  same := rfl
  ended hended := by
    rcases hended with hterminal | hpaused
    · exact absurd hterminal h.live
    · exact absurd hpaused h.running
  ahead := by
    by_cases hpaused : s.scan.state = .paused
    · exact Or.inl hpaused
    · right
      have hle := h.le
      rw [Worker.lifecycleRank_of_ne_paused h.running,
        Worker.lifecycleRank_of_ne_paused hpaused] at hle
      exact hle
  degraded := h.adds.degraded
  reasons := h.adds.reasons
  phases := by
    have hphases : ((st.write id s).shown (writeScan s.scan row)).phases = s.scan.phases :=
      withPhases_write_same (writeScan s.scan row) hid
    rw [hphases]
    exact h.adds.phases

theorem shows_write {id : Uuid} {s : Db.Snapshot}
    (h : ∀ row ∈ st.db.scans, row.id = id → Onward (st.scanRow row) s.scan) :
    st.Shows (st.write id s) := by
  intro row hrow
  by_cases hid : row.id = id
  · refine ⟨writeScan s.scan row, ?_, rfl, follows_write hid (h row hrow hid)⟩
    exact List.mem_map.mpr ⟨row, hrow, if_pos hid⟩
  · refine ⟨row, List.mem_map.mpr ⟨row, hrow, if_neg hid⟩, rfl, ?_⟩
    rw [shown_write_other hid]
    exact .refl _

theorem eq_of_scan_id {db : Database} (h : db.Consistent) {row row' : Api.Scan}
    (hrow : row ∈ db.scans) (hrow' : row' ∈ db.scans) (hid : row.id = row'.id) : row = row' :=
  List.inj_on_of_nodup_map h.scans_nodup hrow hrow' hid

/-- A commit of a worker leaves what requests have loaded. -/
theorem serving_write {id : Uuid} {s : Db.Snapshot} (h : st.toServing.Sound)
    (hid : id ∈ st.db.scans.map (·.id)) : (st.write id s).toServing.Sound where
  consistent := consistent_write h.consistent hid
  pending i p hp := { h.pending i p hp with }
  past := h.past

/-- What is still to come of an execution goes onward from its last commit. -/
theorem sound_write {id : Uuid} {s : Db.Snapshot} {rest : List Db.Snapshot} (h : st.Sound)
    (hworking : st.working id = some (s :: rest)) :
    ((st.write id s).setWorking id (some rest)).Sound := by
  have hid : id ∈ st.db.scans.map (·.id) := h.known id (by simp [hworking])
  refine ⟨serving_write h.serving hid, fun i hi => ?_, fun row' hrow' more hmore => ?_⟩
  · show i ∈ (st.write id s).db.scans.map (·.id)
    rw [scan_ids_write]
    by_cases heq : i = id
    · exact heq ▸ hid
    · refine h.known i ?_
      simpa [State.setWorking, heq, State.write] using hi
  · obtain ⟨row, hrow, rfl⟩ := List.mem_map.mp hrow'
    by_cases heq : row.id = id
    · rw [if_pos heq] at hmore ⊢
      have hsame : ((st.write id s).setWorking id (some rest)).working (writeScan s.scan row).id =
          some rest := if_pos heq
      obtain rfl : rest = more := Option.some.inj (hsame.symm.trans hmore)
      have hchain := h.onward row hrow (s :: rest) (heq ▸ hworking)
      rw [scanRow_setWorking, scanRow_write_same heq]
      exact (List.isChain_cons_cons.mp hchain).2
    · rw [if_neg heq] at hmore ⊢
      have hsame : ((st.write id s).setWorking id (some rest)).working row.id =
          st.working row.id := if_neg heq
      rw [scanRow_setWorking, scanRow_write_other heq]
      exact h.onward row hrow more (hsame ▸ hmore)

variable [PyRuntime]

omit [PyRuntime] in
/-- What the API does to the database. -/
theorem api_grows (h : st.Sound) {moment : Api.Moment} (hfresh : st.toServing.Admits moment) :
    st.db.Grows (st.toServing.act moment).2.db :=
  (st.toServing.act_does h.serving hfresh).grows

/-- Requests leave the scans there are as they are. -/
theorem api_keeps (h : st.Sound) {moment : Api.Moment} (hfresh : st.toServing.Admits moment)
    {row : Api.Scan} :
    (st.act (.api moment)).2.scanRow row = st.scanRow row ∧
      (st.act (.api moment)).2.shown row = st.shown row := by
  have hphases : (st.act (.api moment)).2.db.phases = st.db.phases := (api_grows h hfresh).findings.1
  unfold State.scanRow State.shown Database.withPhases
  exact ⟨by rw [hphases]; rfl, by rw [hphases]⟩

theorem sound_api {moment : Api.Moment} (h : st.Sound) (hfresh : st.toServing.Admits moment) :
    (st.act (.api moment)).2.Sound := by
  have hgrows : st.db.scans <+: (st.act (.api moment)).2.db.scans := (api_grows h hfresh).scans
  have hserving : (st.act (.api moment)).2.toServing.Sound :=
    (st.toServing.act_does h.serving hfresh).sound h.serving
  refine ⟨hserving, fun id hid => ?_, fun row hrow rest hrest => ?_⟩
  · obtain ⟨row, hrow, rfl⟩ := List.mem_map.mp (h.known id hid)
    exact List.mem_map_of_mem (hgrows.subset hrow)
  · have hworking : st.working row.id = some rest := hrest
    obtain ⟨old, hold, hid⟩ := List.mem_map.mp (h.known row.id (by simp [hworking]))
    obtain rfl := eq_of_scan_id hserving.consistent (hgrows.subset hold) hrow hid
    rw [(api_keeps h hfresh).1]
    exact h.onward old hold rest hworking

theorem sound_takeUp (h : st.Sound) (scanId : Str) (attempt : ScanAttempt) :
    (st.takeUp scanId attempt).Sound := by
  unfold State.takeUp
  split
  · next row hfound =>
    split
    · obtain ⟨id, -, hrow⟩ := Option.bind_eq_some_iff.mp hfound
      have hmem : row ∈ st.db.scans := List.mem_of_find?_eq_some hrow
      refine ⟨h.serving, fun i hi => ?_, fun row' hrow' rest hrest => ?_⟩
      · by_cases heq : i = row.id
        · rw [heq]
          exact List.mem_map_of_mem hmem
        · exact h.known i (by simpa [State.setWorking, heq] using hi)
      · by_cases heq : row'.id = row.id
        · obtain rfl := eq_of_scan_id h.serving.consistent hrow' hmem heq
          have hsame : some ((st.load row' attempt).report (st.snapshot row')).committed =
              some rest := (if_pos rfl).symm.trans hrest
          obtain rfl := Option.some.inj hsame
          exact Worker.report_onward (st.load row' attempt) (st.snapshot row')
        · have hsame : st.working row'.id = some rest := (if_neg heq).symm.trans hrest
          exact h.onward row' hrow' rest hsame
    · exact h
  · exact h

omit [PyRuntime] in
theorem sound_leave (h : st.Sound) (id : Uuid) : (st.setWorking id none).Sound := by
  refine ⟨h.serving, fun i hi => ?_, fun row hrow rest hrest => ?_⟩
  · by_cases heq : i = id
    · simp [State.setWorking, heq] at hi
    · exact h.known i (by simpa [State.setWorking, heq] using hi)
  · by_cases heq : row.id = id
    · simp [State.setWorking, heq] at hrest
    · exact h.onward row hrow rest (by simpa [State.setWorking, heq] using hrest)

/-- **One event** keeps the invariant. -/
theorem sound_act (h : st.Sound) {e : Event} (hfresh : st.Admits e) : (st.act e).2.Sound := by
  cases e with
  | api moment => exact sound_api h hfresh
  | takeUp scanId attempt => exact sound_takeUp h scanId attempt
  | commit id =>
    show (st.commitNext id).Sound
    unfold State.commitNext
    split
    · next s rest hworking => exact sound_write h hworking
    · exact h
    · exact h
  | leave id => exact sound_leave h id

omit [PyRuntime] in
theorem shows_refl (st : State) : st.Shows st := fun row hrow => ⟨row, hrow, rfl, .refl _⟩

/-- **One event** takes nothing back. -/
theorem shows_act (h : st.Sound) {e : Event} (hfresh : st.Admits e) : st.Shows (st.act e).2 := by
  cases e with
  | api moment =>
    intro row hrow
    refine ⟨row, (api_grows h hfresh).scans.subset hrow, rfl, ?_⟩
    rw [(api_keeps h hfresh).2]
    exact .refl _
  | takeUp scanId attempt =>
    show st.Shows (st.takeUp scanId attempt)
    unfold State.takeUp
    split
    · split
      · exact shows_refl st
      · exact shows_refl st
    · exact shows_refl st
  | commit id =>
    show st.Shows (st.commitNext id)
    unfold State.commitNext
    split
    · next s rest hworking =>
      have hwrite : st.Shows (st.write id s) := shows_write fun row hrow hid => by
        have hchain := h.onward row hrow (s :: rest) (hid ▸ hworking)
        exact (List.isChain_cons_cons.mp hchain).1
      exact hwrite
    · exact shows_refl st
    · exact shows_refl st
  | leave id => exact shows_refl st

/-! ## Answers -/

/-- Every reply of the handler is of this kind. -/
def Answers (m : Api.Handler Api.Reply) (db : Database) (P : Api.Reply → Prop) : Prop :=
  ∀ reply, (m db).value = .ok reply → P reply

omit [PyRuntime] in
theorem answers_bind {α : Type} {m : Api.Handler α} {f : α → Api.Handler Api.Reply}
    {db : Database} {P : Api.Reply → Prop} (hstate : (m db).state = db)
    (hf : ∀ a, (m db).value = .ok a → Answers (f a) db P) : Answers (m >>= f) db P := by
  intro reply hreply
  cases hv : (m db).value with
  | error e =>
    rw [Tenancy.Action.bind_error hv] at hreply
    cases hreply
  | ok a =>
    rw [Tenancy.Action.bind_ok hv, hstate] at hreply
    exact hf a hv reply hreply

/-- The scans in a reply. -/
def scansOf (reply : Api.Reply) : List Api.ScanOut :=
  match reply.body with
  | .scan out => [out]
  | .scans outs => outs
  | _ => []

/-- The reply shows rows of the database, no scan twice. -/
def ShowsRows (db : Database) (reply : Api.Reply) : Prop :=
  (∀ out ∈ scansOf reply, ∃ row ∈ db.scans, out = .of row (db.withPhases row).2) ∧
    ((scansOf reply).map (·.id)).Nodup

omit [PyRuntime] in
/-- The scan that is found is a row. -/
theorem ownedScan_mem {env : Api.Environment} {org : Api.Organization} {scanId : Str}
    {db : Database} {scan : Api.Scan} (h : (Api.ownedScan env org scanId db).value = .ok scan) :
    scan ∈ db.scans := by
  obtain ⟨id, -, hid⟩ := bind_eq_ok.mp h
  obtain ⟨found, hfound, hscan⟩ := bind_eq_ok.mp hid
  cases found with
  | none => cases hscan
  | some scan' =>
    obtain rfl : scan' = scan := Except.ok.inj hscan
    obtain ⟨row, hrow, hjoin⟩ := List.mem_flatMap.mp (Api.mem_of_scalarOneOrNone hfound)
    obtain ⟨-, -, rfl⟩ := List.mem_map.mp hjoin
    exact (List.mem_filter.mp hrow).1

omit [PyRuntime] in
theorem answers_getScan {env : Api.Environment} {org : Api.Organization} {scanId : Str}
    {db : Database} : Answers (Api.getScan env org scanId) db (ShowsRows db) := by
  refine answers_bind rfl fun scan hscan => answers_bind rfl fun found hfound => ?_
  obtain rfl := Except.ok.inj hfound
  intro reply hreply
  obtain rfl := Except.ok.inj hreply
  refine ⟨fun out hout => ?_, List.nodup_singleton _⟩
  obtain rfl := List.mem_singleton.mp hout
  exact ⟨scan, ownedScan_mem hscan, rfl⟩

omit [PyRuntime] in
theorem answers_listScans {target : Api.Target} {db : Database} (hdb : db.Consistent) :
    Answers (Api.listScans target) db (ShowsRows db) := by
  refine answers_bind rfl fun scans hscans => ?_
  obtain rfl := Except.ok.inj hscans
  intro reply hreply
  obtain rfl := Except.ok.inj hreply
  constructor
  · intro out hout
    obtain ⟨found, hfound, rfl⟩ := List.mem_map.mp hout
    obtain ⟨row, hrow, rfl⟩ := List.mem_map.mp hfound
    exact ⟨row, (List.mem_filter.mp hrow).1, rfl⟩
  · have hids : ((db.scansOf target.id).map fun s => Api.ScanOut.of s.1 s.2).map (·.id) =
        (db.scans.filter (·.targetId == target.id)).map (·.id) := by
      rw [List.map_map]
      exact List.map_map
    show (((db.scansOf target.id).map fun s => Api.ScanOut.of s.1 s.2).map (·.id)).Nodup
    rw [hids]
    exact (hdb.scans_nodup).sublist ((List.filter_sublist).map _)

/-- The routes that show scans. -/
def Polls : Api.Route → Bool
  | .getScan _ | .listScans _ => true
  | _ => false

omit [PyRuntime] in
/-- The endpoint of a route that shows scans reads them. -/
theorem solve_polls {request : Api.Request} {env : Api.Environment} {db₀ : Database}
    (hpolls : Polls request.route = true) :
    Api.Reads (request.solve env) db₀ fun s =>
      ∀ db : Database, db.Consistent → Answers s.endpoint db (ShowsRows db) := by
  obtain ⟨xOrgId, route⟩ := request
  cases route with
  | getScan scanId =>
    dsimp only [Api.Request.solve, Api.Request.routed]
    exact Api.reads_orgRoute fun _ _ _ _ _ => Api.reads_pure fun _ _ => answers_getScan
  | listScans targetId =>
    dsimp only [Api.Request.solve, Api.Request.routed]
    refine Api.reads_targetRoute fun _ _ _ _ _ _ _ _ _ _ => Api.reads_pure ?_
    exact fun db hdb => answers_listScans hdb
  | _ => cases hpolls

/-- The scans a GET request has shown to its client. -/
def shownBy (a : Api.Answered) : List Api.ScanOut :=
  match a.exchange.response with
  | .reply reply => if Polls a.call.request.route then scansOf reply else []
  | _ => []

omit [PyRuntime] in
theorem shownBy_error {a : Api.Answered} {failure : Api.Failure}
    (h : a.exchange.response = Api.respond (.error failure)) : shownBy a = [] := by
  unfold shownBy
  rw [h]
  cases failure <;> rfl

omit [PyRuntime] in
/-- What is shown is in the database at that moment. -/
theorem shownBy_rows {s s' : Api.Serving} {a : Api.Answered} (h : s.Does (some a) s')
    (hs : s.Sound) :
    (∀ out ∈ shownBy a, ∃ row ∈ s.db.scans, out = .of row (s.db.withPhases row).2) ∧
      ((shownBy a).map (·.id)).Nodup := by
  have hnone : ∀ outs : List Api.ScanOut, outs = [] →
      (∀ out ∈ outs, ∃ row ∈ s.db.scans, out = .of row (s.db.withPhases row).2) ∧
        (outs.map (·.id)).Nodup := by
    rintro outs rfl
    exact ⟨fun out hout => absurd hout List.not_mem_nil, List.nodup_nil⟩
  cases h with
  | refuses failure | fails failure => exact hnone _ (shownBy_error rfl)
  | @changes request p change reply hp hfresh hpermitted hrun =>
    by_cases hpolls : Polls p.call.request.route = true
    · obtain ⟨db₀, hsolved⟩ := (hs.pending request p hp).solved
      have hrows := (solve_polls hpolls).value p.solved hsolved s.db hs.consistent reply
        (congrArg Tenancy.Outcome.value hrun)
      unfold shownBy
      dsimp only
      rw [if_pos hpolls]
      exact hrows
    · exact hnone _ (if_neg hpolls)

/-! ## Runs -/

/-- What an event has shown of scans. -/
def polled (e : Happened) : List Api.ScanOut := e.result.toList.flatMap shownBy

theorem polled_rows (h : st.Sound) {e : Event} (hfresh : st.Admits e) :
    (∀ out ∈ polled (entry State.act st e), ∃ row ∈ st.db.scans, out = st.shown row) ∧
      ((polled (entry State.act st e)).map (·.id)).Nodup := by
  have hnone : (∀ out ∈ ([] : List Api.ScanOut), ∃ row ∈ st.db.scans, out = st.shown row) ∧
      (([] : List Api.ScanOut).map (·.id)).Nodup :=
    ⟨fun out hout => absurd hout List.not_mem_nil, List.nodup_nil⟩
  cases e with
  | api moment =>
    have hdoes := st.toServing.act_does h.serving hfresh
    have hpolled : polled (entry State.act st (.api moment)) =
        (st.toServing.act moment).1.toList.flatMap shownBy := rfl
    rw [hpolled]
    generalize (st.toServing.act moment).1 = result at hdoes
    cases result with
    | none => exact hnone
    | some a =>
      rw [Option.toList_some, List.flatMap_singleton]
      exact shownBy_rows hdoes h.serving
  | takeUp | commit | leave => exact hnone

/-- All that was shown, in its order, and where the scans are now. -/
structure InOrder (past : List Happened) (st : State) : Prop where
  sound : st.Sound
  ordered : (past.flatMap polled).Pairwise fun a b => a.id = b.id → Follows a b
  behind : ∀ a ∈ past.flatMap polled, ∃ row ∈ st.db.scans, row.id = a.id ∧
    Follows a (st.shown row)

theorem inOrder_step {past : List Happened} {e : Event} (h : InOrder past st)
    (hfresh : st.Admits e) :
    InOrder (past ++ [entry State.act st e]) (st.act e).2 := by
  obtain ⟨hrows, hnodup⟩ := polled_rows h.sound hfresh
  have hshows := shows_act h.sound hfresh
  have hall : (past ++ [entry State.act st e]).flatMap polled =
      past.flatMap polled ++ polled (entry State.act st e) := by
    rw [List.flatMap_append, List.flatMap_singleton]
  refine ⟨sound_act h.sound hfresh, ?_, ?_⟩
  · rw [hall]
    refine List.pairwise_append.mpr ⟨h.ordered, ?_, ?_⟩
    · -- one answer shows no scan twice
      refine (List.pairwise_map.mp hnodup).imp fun hne heq => ?_
      exact absurd heq hne
    · intro a ha b hb hid
      obtain ⟨row, hrow, hrowId, hfollows⟩ := h.behind a ha
      obtain ⟨row', hrow', rfl⟩ := hrows b hb
      obtain rfl := eq_of_scan_id h.sound.serving.consistent hrow hrow' (hrowId.trans hid)
      exact hfollows
  · rw [hall]
    intro a ha
    have hbefore : ∃ row ∈ st.db.scans, row.id = a.id ∧ Follows a (st.shown row) := by
      rcases List.mem_append.mp ha with ha | ha
      · exact h.behind a ha
      · obtain ⟨row, hrow, rfl⟩ := hrows a ha
        exact ⟨row, hrow, rfl, .refl _⟩
    obtain ⟨row, hrow, hid, hfollows⟩ := hbefore
    obtain ⟨row', hrow', hid', hfollows'⟩ := hshows row hrow
    exact ⟨row', hrow', hid'.trans hid, hfollows.trans hfollows'⟩

/-- **Polling.** In every run of requests and of workers that take up scans,
commit and end, whatever is shown of a scan follows what was shown of it
before. -/
theorem polls_in_order (hst : st.Sound) {events : List Event}
    (hfresh : ∀ e ∈ history State.act st events, Happened.Fresh e) :
    ((history State.act st events).flatMap polled).Pairwise
      fun a b => a.id = b.id → Follows a b := by
  have hinit : InOrder [] st :=
    ⟨hst, List.Pairwise.nil, fun a ha => absurd ha List.not_mem_nil⟩
  exact (history_rule_of hinit (fun _ _ _ h hcall => inOrder_step h hcall) hfresh).ordered

/-! ## A scan that is polled -/

/-- The database of an organisation with a target that has a challenge. -/
def challenged : State := { db := Api.challengedDb }

/-- A request that nothing overlaps. -/
def atOnce (request : ℕ) (call : Api.Call) : List Event :=
  [.api (.arrive request call), .api (.finish request)]

def getScan : Api.Call :=
  ⟨Api.laterEnvironment, some Api.acmeHeader,
    .getScan "00000000-0000-0000-0000-00000000000f".toList⟩

/-- The target is verified and authorized, a scan is created, taken up and
worked on to the pause; its owner asks three times how it is, and the second
question waits while the worker commits. -/
def scanAndPoll : List Event :=
  Api.scanCalls.flatMap (atOnce 0) ++ atOnce 0 getScan ++
    [.takeUp "00000000-0000-0000-0000-00000000000f".toList ⟨Worker.bareTarget, none⟩,
      .api (.arrive 1 getScan), .commit 15, .commit 15, .api (.finish 1)] ++
    List.replicate 7 (.commit 15) ++ atOnce 2 getScan

omit [PyRuntime] in
theorem challenged_sound : challenged.Sound where
  serving :=
    (Api.gated_start Api.challengedDb_consistent (fun _ => rfl) (by decide +kernel)).sound
  known _ hid := absurd rfl hid
  onward _ hrow := absurd hrow List.not_mem_nil

omit [PyRuntime] in
theorem scanAndPoll_in_order :
    let _ := PyRuntime.ascii
    let answers := (history State.act challenged scanAndPoll).flatMap polled
    answers.map (·.state) = [.queued, .recon, .paused] ∧
      answers.Pairwise fun a b => a.id = b.id → Follows a b := by
  intro runtime answers
  have hfresh : ∀ e ∈ history State.act challenged scanAndPoll, Happened.Fresh e := by
    decide +kernel
  exact ⟨by decide +kernel, polls_in_order challenged_sound hfresh⟩

end Sentinel.Platform
