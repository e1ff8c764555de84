/-
Sentinel.Recon.CandidateCap — the cap on the candidate hosts, and the
target among them.

The cap keeps the first names in the order of `sorted`, and the root domain
has no place of its own there. `capKeepsTarget_iff` says when it stays: as
long as fewer names than the cap come before it.
-/
import Sentinel.Recon.Containment
import Sentinel.Sorted.Rank
import Mathlib.Data.Char

namespace Sentinel.Recon

open Sentinel.Py Sentinel.Core Sentinel.Sorted

/-! ## The order of names -/

/-- The name comes before the other one in `sorted`. -/
def Before (a b : Str) : Prop := leStr a b = true ∧ a ≠ b

instance : DecidableRel Before := fun a b => inferInstanceAs (Decidable (leStr a b = true ∧ a ≠ b))

theorem leStr_total (a b : Str) : leStr a b = true ∨ leStr b a = true := by
  induction a generalizing b with
  | nil => simp [leStr]
  | cons x as ih =>
    cases b with
    | nil => simp [leStr]
    | cons y bs =>
      simp only [leStr, Bool.or_eq_true, decide_eq_true_eq, Bool.and_eq_true, beq_iff_eq]
      rcases lt_trichotomy x y with hlt | rfl | hgt
      · exact .inl (.inl hlt)
      · exact (ih bs).imp (fun h => .inr ⟨rfl, h⟩) fun h => .inr ⟨rfl, h⟩
      · exact .inr (.inl hgt)

theorem leStr_trans {a b c : Str} (hab : leStr a b = true) (hbc : leStr b c = true) :
    leStr a c = true := by
  induction a generalizing b c with
  | nil => simp [leStr]
  | cons x as ih =>
    cases b with
    | nil => simp [leStr] at hab
    | cons y bs =>
      cases c with
      | nil => simp [leStr] at hbc
      | cons z cs =>
        simp only [leStr, Bool.or_eq_true, decide_eq_true_eq, Bool.and_eq_true, beq_iff_eq]
          at hab hbc ⊢
        rcases hab with hxy | ⟨rfl, hab⟩
        · rcases hbc with hyz | ⟨rfl, -⟩
          · exact .inl (hxy.trans hyz)
          · exact .inl hxy
        · exact hbc.imp id fun ⟨hyz, hbc⟩ => ⟨hyz, ih hab hbc⟩

theorem leStr_antisymm {a b : Str} (hab : leStr a b = true) (hba : leStr b a = true) : a = b := by
  induction a generalizing b with
  | nil =>
    cases b with
    | nil => rfl
    | cons y bs => simp [leStr] at hba
  | cons x as ih =>
    cases b with
    | nil => simp [leStr] at hab
    | cons y bs =>
      simp only [leStr, Bool.or_eq_true, decide_eq_true_eq, Bool.and_eq_true, beq_iff_eq] at hab hba
      rcases hab with hxy | ⟨rfl, hab⟩
      · rcases hba with hyx | ⟨rfl, -⟩
        · exact absurd hyx hxy.asymm
        · exact absurd hxy (lt_irrefl y)
      · rcases hba with hlt | ⟨-, hba⟩
        · exact absurd hlt (lt_irrefl x)
        · rw [ih hab hba]

theorem Before.asymm (a b : Str) (h : Before a b) : ¬ Before b a :=
  fun h' => h.2 (leStr_antisymm h.1 h'.1)

/-- `sorted(set(xs))` is sorted, with nothing in it twice. -/
theorem sortedSet_pairwise (xs : List Str) : (sortedSet xs).Pairwise Before := by
  have htotal : ∀ a b, (leStr a b || leStr b a) = true := by
    intro a b
    rw [Bool.or_eq_true]
    exact leStr_total a b
  have hsorted : (sortedSet xs).Pairwise fun a b => leStr a b = true :=
    List.pairwise_mergeSort (fun a b c => leStr_trans (a := a) (b := b) (c := c)) htotal _
  have hnodup : (sortedSet xs).Nodup :=
    (List.mergeSort_perm _ _).nodup_iff.mpr (List.nodup_dedup _)
  exact hsorted.and hnodup

/-! ## The cap -/

/-- The names found that come before the root domain. -/
def namesBefore (rootDomain : Str) (found : List Str) : List Str :=
  found.dedup.filter fun name => Before name rootDomain

theorem length_candidateHosts (rootDomain : Str) (found : List Str) :
    (candidateHosts rootDomain found).length ≤ maxCandidateHosts := by
  simp only [candidateHosts]
  split
  · exact List.length_take_le _ _
  · omega

/-- It makes no difference to them that the names were sorted before. -/
theorem length_namesBefore_sortedSet (rootDomain : Str) (names : List Str) :
    (namesBefore rootDomain (sortedSet names)).length = (namesBefore rootDomain names).length := by
  have hperm : (sortedSet names).dedup.Perm names.dedup.dedup :=
    (List.mergeSort_perm _ _).dedup
  rw [List.dedup_idem] at hperm
  exact (hperm.filter _).length_eq

/-- As many names come before the root domain as were found before it. -/
theorem rank_rootDomain (rootDomain : Str) (found : List Str) :
    rank Before (sortedSet (rootDomain :: found)) rootDomain =
      (namesBefore rootDomain found).length := by
  have hperm : (sortedSet (rootDomain :: found)).Perm (rootDomain :: found).dedup :=
    List.mergeSort_perm _ _
  have hself : ¬ Before rootDomain rootDomain := fun h => h.2 rfl
  rw [rank_perm hperm, rank, namesBefore, ← List.countP_eq_length_filter]
  by_cases hmem : rootDomain ∈ found
  · rw [List.dedup_cons_of_mem hmem]
  · rw [List.dedup_cons_of_notMem hmem, List.countP_cons_of_neg (by simpa using hself)]

/-- **When the cap leaves the root domain a place.** -/
theorem rootDomain_mem_candidateHosts (rootDomain : Str) (found : List Str) :
    rootDomain ∈ candidateHosts rootDomain found ↔
      (namesBefore rootDomain found).length < maxCandidateHosts := by
  have hmem : rootDomain ∈ sortedSet (rootDomain :: found) :=
    mem_sortedSet.mpr List.mem_cons_self
  have hcut := mem_take_iff Before.asymm (sortedSet_pairwise _) hmem maxCandidateHosts
  rw [rank_rootDomain] at hcut
  simp only [candidateHosts]
  split
  case isTrue => exact hcut
  case isFalse hshort =>
    rw [List.take_of_length_le (by omega)] at hcut
    exact hcut

/-! ## The phase -/

/-- The names recon resolves, but for the random one. -/
def resolvedNames (actions : List ReconAction) : List Str :=
  actions.filterMap fun
    | .resolve host => some host
    | _ => none

section

variable [PyRuntime] [JsonReader]

/-- The cap bounds the work and leaves the target in: its name is resolved,
and if it resolves it is an asset. -/
structure CapKeepsTarget (env : Environment) (rootDomain : Str) : Prop where
  capped : (resolvedNames (runRecon env rootDomain).1).length ≤ maxCandidateHosts
  resolved : ∀ found, foundHosts env rootDomain = .ok found →
    rootDomain ∈ resolvedNames (runRecon env rootDomain).1
  asset : ∀ result, (runRecon env rootDomain).2 = .ok result →
    env.net.resolve rootDomain ≠ [] →
      ∃ asset ∈ result.assets, asset.host = rootDomain ∧ asset.source = "root_domain".toList

omit [PyRuntime] [JsonReader] in
theorem resolvedNames_eq_nil {actions : List ReconAction}
    (h : ∀ action ∈ actions, ∃ host, action = .http host) : resolvedNames actions = [] := by
  rw [resolvedNames, List.filterMap_eq_nil_iff]
  intro action haction
  obtain ⟨host, rfl⟩ := h action haction
  rfl

/-- Probing resolves no names. -/
theorem probeHosts_http {machine : Machine} {net : Network} {hosts : List Str}
    {binaryAvailable : Bool} {action : ReconAction}
    (h : action ∈ (probeHosts machine net hosts binaryAvailable).1) :
    ∃ host, action = .http host := by
  unfold probeHosts at h
  split at h
  · cases h
  split at h
  · simp only [probeViaBinary] at h
    split at h
    · obtain ⟨host, -, rfl⟩ := List.mem_map.mp h
      exact ⟨host, rfl⟩
    · cases h
  · have hmade : ∃ host overtaken, action ∈ (probeOneViaPython net host overtaken).1 := by
      unfold probeViaPython at h
      split at h
      all_goals
        obtain ⟨host, -, haction⟩ := List.mem_flatMap.mp h
        exact ⟨host, _, haction⟩
    obtain ⟨host, overtaken, haction⟩ := hmade
    obtain ⟨scheme, -, haction⟩ := mem_probeOneViaPython.mp haction
    obtain ⟨_, -, -, url, -, rfl⟩ := mem_asks_iff.mp haction
    exact ⟨hostOf url, rfl⟩

/-- The names resolved are the candidates. -/
theorem resolvedNames_runRecon {env : Environment} {rootDomain : Str} {found : List Str}
    (hfound : foundHosts env rootDomain = .ok found) :
    resolvedNames (runRecon env rootDomain).1 = candidateHosts rootDomain found := by
  have hprobes : resolvedNames (probeHosts env.machine env.net ((resolvedHosts env.net
      (candidateHosts rootDomain found)).map Prod.fst) (env.available "httpx")).1 = [] :=
    resolvedNames_eq_nil fun _ haction => probeHosts_http haction
  have hcandidates : resolvedNames ((candidateHosts rootDomain found).map .resolve) =
      candidateHosts rootDomain found := by
    simp [resolvedNames, List.filterMap_map]
  simp only [runRecon, hfound]
  rw [resolvedNames, List.filterMap_append, List.filterMap_cons]
  exact (congrArg₂ (· ++ ·) hcandidates hprobes).trans (List.append_nil _)

/-- Before it knows the candidates recon resolves none. -/
theorem resolvedNames_of_error {env : Environment} {rootDomain : Str} {e : ReconError}
    (hfound : foundHosts env rootDomain = .error e) :
    resolvedNames (runRecon env rootDomain).1 = [] := by
  simp only [runRecon, hfound]
  rfl

/-- A candidate that resolves is an asset. -/
theorem asset_of_mem_candidateHosts {env : Environment} {rootDomain : Str} {found : List Str}
    {result : ReconResult} (hfound : foundHosts env rootDomain = .ok found)
    (h : (runRecon env rootDomain).2 = .ok result)
    (hroot : rootDomain ∈ candidateHosts rootDomain found)
    (hresolves : env.net.resolve rootDomain ≠ []) :
    ∃ asset ∈ result.assets,
      asset.host = rootDomain ∧ asset.source = "root_domain".toList := by
  obtain ⟨found', probes, keyed, hfound', -, -, hassets⟩ := runRecon_ok h
  obtain rfl := Except.ok.inj (hfound.symm.trans hfound')
  obtain ⟨hostIps, hmem, hhost⟩ := List.mem_map.mp (mem_resolvedHosts.mpr ⟨hroot, hresolves⟩)
  rw [hassets]
  exact ⟨assetOf rootDomain keyed hostIps, List.mem_map_of_mem hmem, hhost, if_pos hhost⟩

/-- **The cap keeps the target** as long as fewer names than it leaves
places come before the root domain. -/
theorem capKeepsTarget_iff (env : Environment) (rootDomain : Str) :
    CapKeepsTarget env rootDomain ↔ ∀ found, foundHosts env rootDomain = .ok found →
      (namesBefore rootDomain found).length < maxCandidateHosts := by
  constructor
  · intro h found hfound
    have hroot := h.resolved found hfound
    rw [resolvedNames_runRecon hfound] at hroot
    exact (rootDomain_mem_candidateHosts rootDomain found).mp hroot
  · intro h
    constructor
    case capped =>
      cases hfound : foundHosts env rootDomain with
      | error e => simp [resolvedNames_of_error hfound]
      | ok found =>
        rw [resolvedNames_runRecon hfound]
        exact length_candidateHosts rootDomain found
    case resolved =>
      intro found hfound
      rw [resolvedNames_runRecon hfound]
      exact (rootDomain_mem_candidateHosts rootDomain found).mpr (h found hfound)
    case asset =>
      intro result hresult hresolves
      obtain ⟨found, -, -, hfound, -⟩ := runRecon_ok hresult
      exact asset_of_mem_candidateHosts hfound hresult
        ((rootDomain_mem_candidateHosts rootDomain found).mpr (h found hfound)) hresolves

end

/-! ## A target that is cut off -/

/-- Fifty names under `zzz.test`, each with a digit first. -/
def digitNames : List Str := (List.range 50).map fun i => ofInt i ++ ".zzz.test".toList

def hostLine (host : Str) : Str := "\x7b\"host\": \"".toList ++ host ++ "\"\x7d".toList

/-- `json.loads` on such lines. -/
@[reducible] def hostLineReader : JsonReader where
  loads line :=
    let host := (line.drop 10).take (line.length - 12)
    if line = hostLine host then .ok (.obj [("host".toList, .str host)])
    else .error .decodeError

def crowdedEnv : Environment :=
  ⟨subfinderMachine (join "\n".toList (digitNames.map hostLine)), redirectingNet, "00".toList⟩

/-- Fifty names come before `zzz.test`, and it is not resolved. -/
theorem target_cut_off :
    let _ := PyRuntime.ascii
    let _ := hostLineReader
    ¬ CapKeepsTarget crowdedEnv "zzz.test".toList := by
  intro runtime reader h
  have hlines : (splitlines (join "\n".toList (digitNames.map hostLine))).mapM subfinderLine =
      .ok (digitNames.map some) := by decide +kernel
  have hcount : (namesBefore "zzz.test".toList digitNames).length = 50 := by decide +kernel
  have hfound : foundHosts crowdedEnv "zzz.test".toList = .ok (sortedSet digitNames) := by
    have hnames : (digitNames.map some).filterMap id = digitNames := by
      simp [List.filterMap_map]
    rw [← hnames]
    exact bind_eq_ok.mpr ⟨_, hlines, rfl⟩
  have hroot := h.resolved _ hfound
  rw [resolvedNames_runRecon hfound, rootDomain_mem_candidateHosts,
    length_namesBefore_sortedSet, hcount] at hroot
  exact absurd hroot (by decide)

end Sentinel.Recon
