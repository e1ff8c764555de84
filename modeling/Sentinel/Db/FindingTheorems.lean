/-
Sentinel.Db.FindingTheorems — the CONFIRMED invariant over runs of the
unit of work.

The hook reads a finding only when the finding itself is new or dirty,
and then only through its own reference. What it cannot see is an
unmodified CONFIRMED finding whose verification changed, and a
verification that is on its way out or belongs elsewhere by now. Runs
that never flush in such a state keep the invariant.
-/
import Sentinel.Db.Finding

namespace Sentinel.Db

open Sentinel.Py Sentinel.Orm Sentinel.Trace

/-! ## What the hook does not see -/

/-- The verification of a CONFIRMED finding is in the session, points back
and, where the hook does not look, still satisfies. -/
def Session.seesVerification (s : Session) (f : Nat) (o : Instance Finding FindingRow) : Bool :=
  match o.attrs.verification.bind fun v => s.verifications[v]? with
  | none => false
  | some w => w.isLive && w.attrs.finding == some f &&
      (o.isNew || o.isDirty || w.attrs.satisfiesConfirmed)

/-- No CONFIRMED finding hides a verification that was lost. -/
def Session.NothingHidden (s : Session) : Prop :=
  ∀ x ∈ s.findings.zipIdx, x.1.isLive = true → x.1.attrs.confidence = .confirmed →
    s.seesVerification x.2 x.1 = true

instance (s : Session) : Decidable s.NothingHidden := by
  unfold Session.NothingHidden
  infer_instance

/-- A flush that writes does so with nothing hidden. -/
def Session.Admissible (s : Session) : OrmStep → Prop
  | .flush dbAccepts | .commit dbAccepts =>
      s.offender.isSome = true ∨ (s.constraintsHold && dbAccepts) = false ∨ s.NothingHidden
  | _ => True

instance (s : Session) (e : OrmStep) : Decidable (s.Admissible e) := by
  cases e <;> unfold Session.Admissible <;> infer_instance

/-- An accepted candidate has a verification that satisfies. -/
theorem satisfies_of_accepted {s : Session} (haccepted : s.offender = none)
    {o : Instance Finding FindingRow} (ho : o ∈ s.findings)
    (hseen : (o.isNew || o.isDirty) = true) (hconfirmed : o.attrs.confidence = .confirmed) :
    ∃ v, s.verificationOf o.attrs = some v ∧ v.satisfiesConfirmed = true := by
  have hmem : o.attrs ∈ s.candidates := by
    refine List.mem_filter.mpr ⟨List.mem_map_of_mem (List.mem_append.mpr ?_), by simp [hconfirmed]⟩
    rcases Bool.or_eq_true _ _ |>.mp hseen with hnew | hdirty
    · exact Or.inl (List.mem_filter.mpr ⟨ho, hnew⟩)
    · exact Or.inr (List.mem_filter.mpr ⟨ho, hdirty⟩)
  have hpass := List.find?_eq_none.mp haccepted _ hmem
  simpa [Option.any_eq_true] using hpass

/-! ## The invariant -/

/-- Memory and rows agree where they must, and both views of the database
are backed. -/
structure Session.Inv (s : Session) : Prop where
  findings : ∀ o ∈ s.findings, Instance.Synced Finding.toRow o
  verifications : ∀ o ∈ s.verifications, Instance.Synced Verification.toRow o
  rows : ConfirmedBacked (s.findings.map Instance.row) (s.verifications.map Instance.row)
  saved : ConfirmedBacked (s.findings.map Instance.saved) (s.verifications.map Instance.saved)

theorem inv_empty : Session.Inv {} where
  findings := by simp
  verifications := by simp
  rows := by intro f row h; simp at h
  saved := by intro f row h; simp at h

theorem map_modify_eq {α β : Type} {g : α → α} {view : α → β} (h : ∀ a, view (g a) = view a)
    (xs : List α) (i : Nat) : (xs.modify i g).map view = xs.map view := by
  refine List.ext_getElem? fun j => ?_
  rw [List.getElem?_map, List.getElem?_map, List.getElem?_modify]
  cases xs[j]? with
  | none => rfl
  | some x => by_cases hij : i = j <;> simp [hij, h]

theorem mem_modify {α : Type} {g : α → α} {xs : List α} {i : Nat} {x : α}
    (h : x ∈ xs.modify i g) : x ∈ xs ∨ ∃ y ∈ xs, x = g y := by
  obtain ⟨j, hj⟩ := List.mem_iff_getElem?.mp h
  rw [List.getElem?_modify] at hj
  obtain ⟨y, hy, rfl⟩ := Option.map_eq_some_iff.mp hj
  have hmem := List.mem_of_getElem? hy
  by_cases hij : i = j
  · exact Or.inr ⟨y, hmem, by simp [hij]⟩
  · exact Or.inl (by simpa [hij] using hmem)

theorem Session.Inv.onFinding {s : Session} (h : s.Inv) (i : Nat)
    {g : Instance Finding FindingRow → Instance Finding FindingRow}
    (hg : Instance.Edit Finding.toRow g) : (s.onFinding i g).Inv where
  findings o ho := by
    rcases mem_modify ho with ho | ⟨o', ho', rfl⟩
    · exact h.findings o ho
    · exact hg.synced (h.findings o' ho')
  verifications := h.verifications
  rows := by
    have := h.rows
    rwa [← map_modify_eq hg.row s.findings i] at this
  saved := by
    have := h.saved
    rwa [← map_modify_eq hg.saved s.findings i] at this

theorem Session.Inv.onVerification {s : Session} (h : s.Inv) (i : Nat)
    {g : Instance Verification VerificationRow → Instance Verification VerificationRow}
    (hg : Instance.Edit Verification.toRow g) : (s.onVerification i g).Inv where
  findings := h.findings
  verifications o ho := by
    rcases mem_modify ho with ho | ⟨o', ho', rfl⟩
    · exact h.verifications o ho
    · exact hg.synced (h.verifications o' ho')
  rows := by
    have := h.rows
    rwa [← map_modify_eq hg.row s.verifications i] at this
  saved := by
    have := h.saved
    rwa [← map_modify_eq hg.saved s.verifications i] at this

/-! ## Steps in memory -/

theorem Session.Inv.unlinkVerification {s : Session} (h : s.Inv) (v : Option Nat) (f : Nat) :
    (s.unlinkVerification v f).Inv := by
  cases v with
  | none => exact h
  | some v =>
    exact h.onVerification v
      ((Instance.edit_expunge.comp (Instance.edit_set _)).ite
        fun o : Instance Verification VerificationRow => o.attrs.finding = some f)

theorem Session.Inv.unlinkFinding {s : Session} (h : s.Inv) (f : Option Nat) (v : Nat) :
    (s.unlinkFinding f v).Inv := by
  cases f with
  | none => exact h
  | some f =>
    exact h.onFinding f ((Instance.edit_set _).ite
      fun o : Instance Finding FindingRow => o.attrs.verification = some v)

theorem Session.Inv.setVerification {s : Session} (h : s.Inv) (f : Nat) (v : Option Nat) :
    (s.setVerification f v).Inv := by
  unfold Session.setVerification
  have hmarked : (s.onFinding f fun o => o.set fun a => { a with verification := v }).Inv :=
    h.onFinding f (Instance.edit_set _)
  split
  · dsimp only
    split
    · exact hmarked
    · cases v with
      | none => exact hmarked.unlinkVerification _ f
      | some v =>
        exact (hmarked.unlinkVerification _ f).onVerification v
          (Instance.edit_add.comp (Instance.edit_set _))
  · exact h

theorem Session.Inv.setFinding {s : Session} (h : s.Inv) (v : Nat) (f : Option Nat) :
    (s.setFinding v f).Inv := by
  unfold Session.setFinding
  have hmarked : (s.onVerification v fun o => o.set fun a => { a with finding := f }).Inv :=
    h.onVerification v (Instance.edit_set _)
  have hmoved := hmarked.onVerification v Instance.edit_expunge
  split
  · dsimp only
    split
    · exact hmarked
    · have hunlinked : ((if (s.findingAt v).isSome then
          (s.onVerification v fun o => o.set fun a => { a with finding := f }).onVerification v
            Instance.expunge
          else s.onVerification v fun o => o.set fun a => { a with finding := f }).unlinkFinding
            (s.findingAt v) v).Inv := by
        split
        · exact hmoved.unlinkFinding _ v
        · exact hmarked.unlinkFinding _ v
      cases f with
      | none => exact hunlinked
      | some f => exact (hunlinked.unlinkVerification _ f).onFinding f (Instance.edit_set _)
  · exact h

/-- A new object has no row. -/
theorem ConfirmedBacked.append_none {fs : List (Option FindingRow)}
    {vs : List (Option VerificationRow)} (h : ConfirmedBacked fs vs) :
    ConfirmedBacked (fs ++ [none]) vs ∧ ConfirmedBacked fs (vs ++ [none]) := by
  constructor
  · intro f row hrow hconfirmed
    refine h f row ?_ hconfirmed
    rcases Nat.lt_or_ge f fs.length with hlt | hge
    · rwa [List.getElem?_append_left hlt] at hrow
    · rw [List.getElem?_append_right hge] at hrow
      have hnone := List.mem_of_getElem? hrow
      simp at hnone
  · intro f row hrow hconfirmed
    obtain ⟨vrow, hmem, hvrow⟩ := h f row hrow hconfirmed
    exact ⟨vrow, List.mem_append_left _ hmem, hvrow⟩

theorem Session.Inv.createFinding [PyRuntime] {s : Session} (h : s.Inv) (f : Finding) :
    (s.step (.createFinding f)).Inv where
  findings o ho := by
    rcases List.mem_append.mp ho with ho | ho
    · exact h.findings o ho
    · rw [List.mem_singleton.mp ho]
      exact Instance.Synced.fresh _ _ (Or.inr rfl)
  verifications := h.verifications
  rows := by simpa [Session.step] using h.rows.append_none.1
  saved := by simpa [Session.step] using h.saved.append_none.1

theorem Session.Inv.createVerification [PyRuntime] {s : Session} (h : s.Inv) (passed : Bool)
    (count : Int) :
    (s.step (.createVerification passed count)).Inv where
  findings := h.findings
  verifications o ho := by
    rcases List.mem_append.mp ho with ho | ho
    · exact h.verifications o ho
    · rw [List.mem_singleton.mp ho]
      exact Instance.Synced.fresh _ _ (Or.inl rfl)
  rows := by simpa [Session.step] using h.rows.append_none.2
  saved := by simpa [Session.step] using h.saved.append_none.2

/-! ## Flush, commit, rollback -/

/-- Behind a flush that the hook let through with nothing hidden, every
CONFIRMED row is backed: a dirty finding by what the hook checked, an
unmodified one by what it did not have to check. -/
theorem written_backed {s : Session} (h : s.Inv) (haccepted : s.offender = none)
    (hhidden : s.NothingHidden) :
    ConfirmedBacked (s.written.findings.map Instance.row)
      (s.written.verifications.map Instance.row) := by
  intro f row hrow hconfirmed
  obtain ⟨o, ho, hflushed⟩ : ∃ o, s.findings[f]? = some o ∧
      (o.flush Finding.toRow fun _ => false).row = some row := by
    simpa [Session.written] using hrow
  have hmem := List.mem_of_getElem? ho
  obtain ⟨hlive, rfl⟩ := Instance.live_of_flush_row (h.findings o hmem) hflushed
  have hsees := hhidden (o, f) (List.mem_zipIdx_iff_getElem?.mpr ho) hlive hconfirmed
  unfold Session.seesVerification at hsees
  cases hlink : o.attrs.verification.bind fun v => s.verifications[v]? with
  | none => simp [hlink] at hsees
  | some w =>
    simp only [hlink, Bool.and_eq_true, beq_iff_eq] at hsees
    obtain ⟨⟨hwlive, hback⟩, hchecked⟩ := hsees
    obtain ⟨v, -, hv⟩ := Option.bind_eq_some_iff.mp hlink
    have hsatisfies : w.attrs.satisfiesConfirmed = true := by
      rcases Bool.or_eq_true _ _ |>.mp hchecked with hseen | hsatisfies
      · obtain ⟨a, ha, hsatisfies⟩ := satisfies_of_accepted haccepted hmem hseen hconfirmed
        have hattrs : s.verificationOf o.attrs = some w.attrs := by
          have := congrArg (Option.map Instance.attrs) hlink
          rwa [Option.map_bind] at this
        obtain rfl : w.attrs = a := Option.some.inj (hattrs.symm.trans ha)
        exact hsatisfies
      · exact hsatisfies
    have hwmem := List.mem_of_getElem? hv
    have hparent : w.attrs.isOrphan = false := by simp [Verification.isOrphan, hback]
    have hwrow := Instance.flush_row_of_live (h.verifications w hwmem) hwlive hparent
    simp only [Verification.satisfiesConfirmed, Bool.and_eq_true, decide_eq_true_eq] at hsatisfies
    refine ⟨w.attrs.toRow, ?_, hback, hsatisfies⟩
    rw [← hwrow]
    exact List.mem_map_of_mem (List.mem_map_of_mem hwmem)

theorem Session.Inv.written {s : Session} (h : s.Inv) (haccepted : s.offender = none)
    (hhidden : s.NothingHidden) : s.written.Inv where
  findings o ho := by
    obtain ⟨o', ho', rfl⟩ := List.mem_map.mp ho
    exact (h.findings o' ho').flush _
  verifications o ho := by
    obtain ⟨o', ho', rfl⟩ := List.mem_map.mp ho
    exact (h.verifications o' ho').flush _
  rows := written_backed h haccepted hhidden
  saved := by
    have := h.saved
    simpa [Session.written, Function.comp_def, Instance.flush_saved] using this

/-- A rollback makes both views the committed one. -/
theorem rollback_rows (s : Session) :
    s.rollback.findings.map Instance.row = s.findings.map Instance.saved ∧
      s.rollback.findings.map Instance.saved = s.findings.map Instance.saved ∧
      s.rollback.verifications.map Instance.row = s.verifications.map Instance.saved ∧
      s.rollback.verifications.map Instance.saved = s.verifications.map Instance.saved := by
  refine ⟨?_, ?_, ?_, ?_⟩ <;>
    exact List.ext_getElem? fun i => by
      simp [Session.rollback, Function.comp_def, Instance.rollback_row]

theorem Session.Inv.rollback {s : Session} (h : s.Inv) : s.rollback.Inv where
  findings o ho := by
    obtain ⟨i, hi, rfl⟩ := List.mem_mapIdx.mp ho
    exact Instance.Synced.rollback (fun _ _ => rfl) _
  verifications o ho := by
    obtain ⟨o', ho', rfl⟩ := List.mem_map.mp ho
    exact Instance.Synced.rollback (fun _ _ => rfl) _
  rows := by
    obtain ⟨hf, -, hv, -⟩ := rollback_rows s
    rw [hf, hv]
    exact h.saved
  saved := by
    obtain ⟨-, hf, -, hv⟩ := rollback_rows s
    rw [hf, hv]
    exact h.saved

theorem Session.Inv.flush [PyRuntime] {s : Session} (h : s.Inv) {dbAccepts : Bool}
    (hok : s.Admissible (.flush dbAccepts)) : (s.flush dbAccepts).Inv := by
  unfold Session.flush
  split
  · exact h
  · next hpassed =>
    have haccepted : s.offender = none := (enforceConfirmedRequiresVerification_ok_iff s).mp hpassed
    rcases hok with hrejected | hrefused | hhidden
    · simp [haccepted] at hrejected
    · simpa [hrefused] using h.rollback
    · split
      · exact h.written haccepted hhidden
      · exact h.rollback

theorem Session.Inv.commit [PyRuntime] {s : Session} (h : s.Inv) {dbAccepts : Bool}
    (hok : s.Admissible (.commit dbAccepts)) : (s.commit dbAccepts).Inv := by
  unfold Session.commit
  have hflushed : (s.flush dbAccepts).Inv := h.flush hok
  split
  · exact h
  · refine ⟨fun o ho => ?_, fun o ho => ?_, ?_, ?_⟩
    · obtain ⟨o', ho', rfl⟩ := List.mem_map.mp ho
      exact (hflushed.findings o' ho').commit
    · obtain ⟨o', ho', rfl⟩ := List.mem_map.mp ho
      exact (hflushed.verifications o' ho').commit
    · simpa [Function.comp_def, Instance.commit] using hflushed.rows
    · simpa [Function.comp_def, Instance.commit] using hflushed.rows

/-- One admissible step keeps the invariant. -/
theorem Session.Inv.step [PyRuntime] {s : Session} (h : s.Inv) {e : OrmStep} (hok : s.Admissible e) :
    (s.step e).Inv := by
  cases e with
  | createFinding f => exact h.createFinding f
  | createVerification passed count => exact h.createVerification passed count
  | setConfidence f confidence => exact h.onFinding f (Instance.edit_set _)
  | setColumn f => exact h.onFinding f (Instance.edit_set _)
  | setPassed v passed => exact h.onVerification v (Instance.edit_set _)
  | setReproducedCount v count => exact h.onVerification v (Instance.edit_set _)
  | addVerification v => exact h.onVerification v Instance.edit_add
  | deleteVerification v => exact h.onVerification v Instance.edit_delete
  | setVerification f v => exact h.setVerification f v
  | setFinding v f => exact h.setFinding v f
  | flush dbAccepts => exact h.flush hok
  | commit dbAccepts => exact h.commit hok
  | rollback => exact h.rollback

/-- **The CONFIRMED invariant.** In every run from an empty database whose
flushes write with nothing hidden from the hook, every database state
reached backs its CONFIRMED findings. -/
theorem confirmed_backed [PyRuntime] {steps : List OrmStep}
    (hok : Along Session.step Session.Admissible {} steps) :
    ∀ p, p <+: steps → (run Session.step {} p).DatabaseBacked := by
  intro p hp
  have hstep : ∀ (s : Session) e, s.Inv → s.Admissible e → (s.step e).Inv :=
    fun _ _ hs he => hs.step he
  have hinv := run_invariant hstep inv_empty (hok.initial hp)
  exact ⟨hinv.rows, hinv.saved⟩

/-- A CONFIRMED finding with a verification that passed twice, committed. -/
def confirmedRun : List OrmStep :=
  [.createFinding ⟨"f-1".toList, "authz.horizontal.idor".toList, .confirmed, none⟩,
    .createVerification true 2, .setVerification 0 (some 0), .commit true]

/-- Downgrading the finding together with its verification keeps nothing
from the hook. -/
theorem confirmed_backed_downgrade :
    let _ := PyRuntime.ascii
    Along Session.step Session.Admissible {}
        (confirmedRun ++ [.setPassed 0 false, .setConfidence 0 .probable, .commit true]) ∧
      (run Session.step {}
        (confirmedRun ++ [.setPassed 0 false, .setConfidence 0 .probable, .commit true])).DatabaseBacked := by
  intro runtime
  have hok : Along Session.step Session.Admissible {}
      (confirmedRun ++ [.setPassed 0 false, .setConfidence 0 .probable, .commit true]) := by
    decide +kernel
  exact ⟨hok, confirmed_backed hok _ (List.prefix_refl _)⟩

/-- Failing the verification of a committed CONFIRMED finding leaves the
finding CONFIRMED: it is not dirty, so the hook does not look. -/
theorem failed_verification_stays_confirmed :
    let _ := PyRuntime.ascii
    ¬ (run Session.step {} (confirmedRun ++ [.setPassed 0 false, .commit true])).DatabaseBacked := by
  intro runtime
  rintro ⟨-, hsaved⟩
  have hrow : ((run Session.step {} (confirmedRun ++ [.setPassed 0 false, .commit true])).findings.map
      Instance.saved)[0]? =
        some (some ⟨"f-1".toList, "authz.horizontal.idor".toList, .confirmed⟩) := by
    decide +kernel
  obtain ⟨vrow, hmem, -, hpassed, -⟩ := hsaved 0 _ hrow rfl
  have honly : (run Session.step {} (confirmedRun ++ [.setPassed 0 false, .commit true])).verifications.map
      Instance.saved = [some ⟨some 0, false, 2⟩] := by
    decide +kernel
  rw [honly, List.mem_singleton, Option.some.injEq] at hmem
  rw [hmem] at hpassed
  exact Bool.false_ne_true hpassed

end Sentinel.Db
