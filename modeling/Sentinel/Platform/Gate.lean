/-
Sentinel.Platform.Gate — no scan goes past its gate without proof and
consent.

The API asks whether the target is scannable when a scan is created, the
worker asks again when it takes the scan up, with the row as it is then. In
between the owner may have asked for a new challenge. A scan that is
neither queued nor blocked was taken up when its owner had shown that the
target meets its challenge, and had accepted the authorization
(`worked_on_gated`).
-/
import Sentinel.Platform.Polling

namespace Sentinel.Platform

open Sentinel.Py Sentinel.Core Sentinel.Trace
open Sentinel.Api (Uuid Database)
open Sentinel.Worker (ScanAttempt Onward)

/-- The scan was taken up when its owner had shown that the target meets its
challenge and had accepted the authorization. -/
def TakenUp (past : List Happened) (row : Api.Scan) : Prop :=
  ∃ earlier e later, past = earlier ++ e :: later ∧
    (∃ scanId attempt, e.call = .takeUp scanId attempt ∧ Api.uuidOfText scanId = some row.id) ∧
    ∃ t ∈ e.before.db.targets, t.id = row.targetId ∧ t.Proved (Api.answered earlier) ∧
      t.Consented (Api.answered earlier)

theorem TakenUp.append {past : List Happened} {row row' : Api.Scan} (h : TakenUp past row)
    (hid : row'.id = row.id) (htarget : row'.targetId = row.targetId) (more : List Happened) :
    TakenUp (past ++ more) row' := by
  obtain ⟨earlier, e, later, rfl, hcall, t, ht, htid, hproved⟩ := h
  refine ⟨earlier, e, later ++ more, by simp, ?_, t, ht, htid.trans htarget.symm, hproved⟩
  obtain ⟨scanId, attempt, hcall, htext⟩ := hcall
  exact ⟨scanId, attempt, hcall, htext.trans (congrArg some hid.symm)⟩

/-- The states of a scan whose gate was not passed. -/
def BeforeGate (state : ScanState) : Prop := state = .queued ∨ state = .blockedUnverified

/-- A scan past the gate was taken up in order, and so was one whose
execution has commits to come that are past it. -/
structure Guarded (past : List Happened) (st : State) : Prop where
  sound : st.Sound
  gated : Api.Gated (Api.answered past) st.toServing
  waiting : ∀ row ∈ st.db.scans, row.state = .queued → (st.db.withPhases row).2 = []
  passed : ∀ row ∈ st.db.scans, ¬ BeforeGate row.state → TakenUp past row
  coming : ∀ row ∈ st.db.scans, ∀ rest, st.working row.id = some rest →
    (∀ s ∈ rest, BeforeGate s.scan.state) ∨ TakenUp past row

variable {st : State} {past : List Happened}

/-- A commit that goes onward does not queue the scan. -/
theorem not_queued_of_onward {scan : Db.Scan} {rest : List Db.Snapshot}
    (h : List.IsChain Onward (scan :: rest.map (·.scan))) :
    ∀ s ∈ rest, s.scan.state ≠ .queued := by
  intro s hs
  have hall := Durable.forall_of_isChain (P := fun s => s.state ≠ .queued)
    (fun _ _ h => h.started) h
  exact hall s.scan (List.mem_map_of_mem hs)

/-- A commit keeps the invariant. -/
theorem guarded_write {id : Uuid} {s : Db.Snapshot} {rest : List Db.Snapshot}
    (h : Guarded past st) (hworking : st.working id = some (s :: rest)) :
    Guarded past ((st.write id s).setWorking id (some rest)) := by
  have hqueued : ∀ row ∈ st.db.scans, row.id = id → s.scan.state ≠ .queued :=
    fun row hrow hid =>
      not_queued_of_onward (h.sound.onward row hrow _ (hid ▸ hworking)) s List.mem_cons_self
  have hcoming : ∀ row ∈ st.db.scans, row.id = id →
      (∀ s' ∈ s :: rest, BeforeGate s'.scan.state) ∨ TakenUp past row :=
    fun row hrow hid => h.coming row hrow _ (hid ▸ hworking)
  have hsound := sound_write h.sound hworking
  refine ⟨hsound, { h.gated with sound := hsound.serving, backed := ?_ }, ?_, ?_, ?_⟩
  · exact fun t ht => { h.gated.backed t ht with }
  · intro row' hrow' hstate
    obtain ⟨row, hrow, rfl⟩ := List.mem_map.mp hrow'
    by_cases hid : row.id = id
    · rw [if_pos hid] at hstate
      exact absurd hstate (hqueued row hrow hid)
    · rw [if_neg hid] at hstate ⊢
      exact (congrArg Prod.snd (withPhases_write_other hid)).trans (h.waiting row hrow hstate)
  · intro row' hrow' hstate
    obtain ⟨row, hrow, rfl⟩ := List.mem_map.mp hrow'
    by_cases hid : row.id = id
    · rw [if_pos hid] at hstate ⊢
      exact (hcoming row hrow hid).resolve_left fun hall => hstate (hall s List.mem_cons_self)
    · rw [if_neg hid] at hstate ⊢
      exact h.passed row hrow hstate
  · intro row' hrow' more hmore
    obtain ⟨row, hrow, rfl⟩ := List.mem_map.mp hrow'
    by_cases hid : row.id = id
    · rw [if_pos hid] at hmore ⊢
      have hsame : some rest = some more := (if_pos hid).symm.trans hmore
      obtain rfl := Option.some.inj hsame
      exact (hcoming row hrow hid).imp_left fun hall s' hs' => hall s' (List.mem_cons_of_mem _ hs')
    · rw [if_neg hid] at hmore ⊢
      have hsame : st.working row.id = some more := (if_neg hid).symm.trans hmore
      exact h.coming row hrow more hsame

/-- A request adds queued scans. -/
theorem api_adds {s s' : Api.Serving} {a : Option Api.Answered} (h : s.Does a s') :
    ∃ created : List Api.Scan, s'.db.scans = s.db.scans ++ created ∧
      ∀ row ∈ created, row.state = .queued := by
  cases h with
  | @changes request p change reply hp hfresh hpermitted hrun =>
    obtain ⟨created, hscans, -, hqueued⟩ := hpermitted.scans_apply s.db
    exact ⟨created.toList, hscans, fun row hrow => hqueued row (Option.mem_toList.mp hrow)⟩
  | _ => exact ⟨[], (List.append_nil _).symm, fun row hrow => absurd hrow List.not_mem_nil⟩

/-- A scan that no execution works on and no phase row belongs to. -/
theorem phases_of_unknown (hdb : st.db.Consistent) {row : Api.Scan}
    (hid : row.id ∉ st.db.scans.map (·.id)) : (st.db.withPhases row).2 = [] := by
  show (st.db.phases.filter _).map _ = []
  rw [List.map_eq_nil_iff, List.filter_eq_nil_iff]
  intro p hp heq
  have hscan := hdb.phase_scan p hp
  rw [beq_iff_eq.mp heq] at hscan
  exact hid hscan

variable [PyRuntime]

theorem guarded_api {moment : Api.Moment} (h : Guarded past st)
    (hfresh : st.toServing.Admits moment) :
    Guarded (past ++ [entry State.act st (.api moment)]) (st.act (.api moment)).2 := by
  have hsound := sound_api h.sound hfresh
  have hdoes := st.toServing.act_does h.sound.serving hfresh
  obtain ⟨created, hscans, hqueued⟩ := api_adds hdoes
  have hscans : (st.act (.api moment)).2.db.scans = st.db.scans ++ created := hscans
  have hphases : (st.act (.api moment)).2.db.phases = st.db.phases := hdoes.grows.findings.1
  have hnew : ∀ row ∈ created, row.id ∉ st.db.scans.map (·.id) := by
    have hkeys := hsound.serving.consistent.scans_nodup
    rw [hscans, List.map_append] at hkeys
    intro row hrow hold
    exact (List.nodup_append.mp hkeys).2.2 _ hold _ (List.mem_map_of_mem hrow) rfl
  refine ⟨hsound, ?_, ?_, ?_, ?_⟩
  · rw [Api.answered_concat]
    exact h.gated.does hdoes
  · intro row hrow hstate
    have hsame : ((st.act (.api moment)).2.db.withPhases row).2 = (st.db.withPhases row).2 := by
      unfold Database.withPhases
      rw [hphases]
    rw [hsame]
    rcases List.mem_append.mp (hscans ▸ hrow) with hold | hmade
    · exact h.waiting row hold hstate
    · exact phases_of_unknown h.sound.serving.consistent (hnew row hmade)
  · intro row hrow hstate
    rcases List.mem_append.mp (hscans ▸ hrow) with hold | hmade
    · exact (h.passed row hold hstate).append rfl rfl _
    · exact absurd (Or.inl (hqueued row hmade)) hstate
  · intro row hrow rest hrest
    have hworking : st.working row.id = some rest := hrest
    rcases List.mem_append.mp (hscans ▸ hrow) with hold | hmade
    · exact (h.coming row hold rest hworking).imp_right fun htaken => htaken.append rfl rfl _
    · exact absurd (h.sound.known row.id (by simp [hworking])) (hnew row hmade)

/-- What an execution that takes up a scan will commit: nothing past the
gate, or the target has met its challenge and the authorization is there. -/
theorem coming_of_takeUp (h : Guarded past st) {row : Api.Scan} (hrow : row ∈ st.db.scans)
    (attempt : ScanAttempt) :
    (∀ s ∈ ((st.load row attempt).report (st.snapshot row)).committed, BeforeGate s.scan.state) ∨
      ∃ t ∈ st.db.targets, t.id = row.targetId ∧ t.isScannable = true := by
  obtain ⟨t, ht, htid⟩ := List.mem_map.mp (h.sound.serving.consistent.scan_target row hrow)
  have hfound : st.targetOf row = some t := by
    unfold State.targetOf
    rw [← htid]
    exact Api.rowById_of_mem h.sound.serving.consistent.targets_nodup ht
  by_cases hscannable : t.isScannable = true
  · exact Or.inr ⟨t, ht, htid, hscannable⟩
  left
  by_cases hqueued : row.state = .queued
  · have hgate : Worker.Unscannable (st.load row attempt).env :=
      ⟨t.read, by simp [State.load, hfound], Bool.eq_false_iff.mpr hscannable⟩
    have hstate : (st.snapshot row).scan.state = .queued := hqueued
    have hblocks := Worker.report_blocks hgate hstate (h.waiting row hrow hqueued)
    intro s hs
    rcases hblocks with hnone | hone
    · rw [hnone] at hs
      cases hs
    · rw [hone] at hs
      obtain rfl := List.mem_singleton.mp hs
      exact Or.inr rfl
  · rw [Worker.committed_of_refused _ hqueued]
    intro s hs
    cases hs

omit [PyRuntime] in
/-- An event that answers no request is not looked back to. -/
theorem Guarded.later (h : Guarded past st) {e : Happened} (hnone : e.result = none) :
    Guarded (past ++ [e]) st := by
  have hanswered : Api.answered (past ++ [e]) = Api.answered past := by
    rw [Api.answered_concat, hnone]
    exact List.append_nil _
  exact {
    sound := h.sound
    gated := hanswered ▸ h.gated
    waiting := h.waiting
    passed := fun row hrow hstate => (h.passed row hrow hstate).append rfl rfl _
    coming := fun row hrow rest hrest =>
      (h.coming row hrow rest hrest).imp_right fun htaken => htaken.append rfl rfl _ }

theorem guarded_takeUp (h : Guarded past st) (scanId : Str) (attempt : ScanAttempt) :
    Guarded (past ++ [entry State.act st (.takeUp scanId attempt)]) (st.takeUp scanId attempt) := by
  have hlater : Guarded (past ++ [entry State.act st (.takeUp scanId attempt)]) st := h.later rfl
  have hsound := sound_takeUp h.sound scanId attempt
  unfold State.takeUp at hsound ⊢
  split at hsound
  · next row hfound =>
    split at hsound
    · next hfree =>
      obtain ⟨id, htext, hrow⟩ := Option.bind_eq_some_iff.mp hfound
      have hmem : row ∈ st.db.scans := List.mem_of_find?_eq_some hrow
      have hid : Api.Row.id row = id := by simpa using List.find?_some hrow
      rw [if_pos hfree]
      refine ⟨hsound, hlater.gated, hlater.waiting, hlater.passed, ?_⟩
      intro row' hrow' rest hrest
      by_cases hsame : row'.id = row.id
      · obtain rfl := eq_of_scan_id h.sound.serving.consistent hrow' hmem hsame
        have hcommits : some ((st.load row' attempt).report (st.snapshot row')).committed =
            some rest := (if_pos rfl).symm.trans hrest
        obtain rfl := Option.some.inj hcommits
        refine (coming_of_takeUp h hrow' attempt).imp_right ?_
        rintro ⟨t, ht, htid, hscannable⟩
        obtain ⟨hverified, haccepted⟩ := Bool.and_eq_true_iff.mp hscannable
        have hbacked := h.gated.backed t ht
        refine ⟨past, entry State.act st (.takeUp scanId attempt), [], rfl, ?_, t, ht, htid,
          hbacked.proved hverified, hbacked.authorized haccepted⟩
        exact ⟨scanId, attempt, rfl, htext.trans (congrArg some hid.symm)⟩
      · have hworking : st.working row'.id = some rest := (if_neg hsame).symm.trans hrest
        exact hlater.coming row' hrow' rest hworking
    · next hbusy =>
      rw [if_neg hbusy]
      exact hlater
  · exact hlater

theorem guarded_step {e : Event} (h : Guarded past st) (hfresh : st.Admits e) :
    Guarded (past ++ [entry State.act st e]) (st.act e).2 := by
  cases e with
  | api moment => exact guarded_api h hfresh
  | takeUp scanId attempt => exact guarded_takeUp h scanId attempt
  | commit id =>
    show Guarded _ (st.commitNext id)
    refine Guarded.later ?_ rfl
    unfold State.commitNext
    split
    · next s rest hworking => exact guarded_write h hworking
    · exact h
    · exact h
  | leave id =>
    refine Guarded.later ⟨sound_leave h.sound id, h.gated, h.waiting, h.passed, ?_⟩ rfl
    intro row hrow rest hrest
    by_cases hid : row.id = id
    · have hnone : none = some rest := (if_pos hid).symm.trans hrest
      cases hnone
    · have hworking : st.working row.id = some rest := (if_neg hid).symm.trans hrest
      exact h.coming row hrow rest hworking

/-- **The gate.** Start with targets of which none is verified or authorized,
with scans that all wait, and with nothing under way. After every run of
requests and workers, however they overlap, a scan that is neither queued
nor blocked was taken up when a request of the owner had accepted the
authorization of its target and one had found that the target meets the
challenge it had when that request loaded it; this was the challenge of the
row that the worker has loaded, unless a request for a new one overlapped. -/
theorem worked_on_gated (hdb : st.db.Consistent)
    (hnew : ∀ t ∈ st.db.targets, t.ownershipVerified = false ∧ t.authorizationAccepted = false)
    (hwait : ∀ row ∈ st.db.scans, row.state = .queued ∧ (st.db.withPhases row).2 = [])
    (hidle : ∀ id, st.working id = none) (hnone : ∀ i, st.pending i = none)
    {events : List Event} (hfresh : ∀ e ∈ history State.act st events, Happened.Fresh e) :
    ∀ row ∈ (final State.act st events).db.scans, ¬ BeforeGate row.state →
      TakenUp (history State.act st events) row := by
  have hgated : Api.Gated [] st.toServing := Api.gated_start hdb hnone hnew
  have hinit : Guarded [] st := by
    refine ⟨⟨hgated.sound, fun id hid => absurd (hidle id) hid, ?_⟩, hgated, ?_, ?_, ?_⟩
    · intro row _ rest hrest
      rw [hidle] at hrest
      cases hrest
    · exact fun row hrow _ => (hwait row hrow).2
    · exact fun row hrow hstate => absurd (Or.inl (hwait row hrow).1) hstate
    · intro row _ rest hrest
      rw [hidle] at hrest
      cases hrest
  exact (history_rule_of hinit (fun _ _ _ h hcall => guarded_step h hcall) hfresh).passed

omit [PyRuntime] in
/-- The scan of the run above is paused in the end. -/
theorem scanAndPoll_gated :
    let _ := PyRuntime.ascii
    ∃ row ∈ (final State.act challenged scanAndPoll).db.scans, row.state = .paused ∧
      TakenUp (history State.act challenged scanAndPoll) row := by
  intro runtime
  have hfresh : ∀ e ∈ history State.act challenged scanAndPoll, Happened.Fresh e := by
    decide +kernel
  have hpaused : ∃ row ∈ (final State.act challenged scanAndPoll).db.scans, row.state = .paused := by
    decide +kernel
  obtain ⟨row, hrow, hstate⟩ := hpaused
  have hpast : ¬ BeforeGate row.state := by
    rw [hstate, BeforeGate]
    decide
  exact ⟨row, hrow, hstate, worked_on_gated Api.challengedDb_consistent (by decide +kernel)
    (fun row hrow => absurd hrow List.not_mem_nil) (fun _ => rfl) (fun _ => rfl) hfresh row hrow
    hpast⟩

end Sentinel.Platform
