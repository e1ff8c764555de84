/-
Sentinel.Infra.LicenceCheck — `infra/scripts/licence_check.py`, the licence
gate of the build.

The gate looks for the names of copyleft licences among the licence
metadata of every installed distribution. A name counts when no letter
stands right before or behind it, which leaves out the short forms (`gplv3`),
and with them the trove classifiers, which end in one; and a distribution
that names the LGPL anywhere is passed before the other names are looked
for. `gateStops_iff` says when the gate closes all the same. The printing of
the report is not modelled.
-/
import Sentinel.Py.Text

namespace Sentinel.Infra

open Sentinel.Py

/-! ## Searching for a name -/

/-- `[a-z]`. -/
def isLowerLetter (c : Char) : Bool := 'a' ≤ c && c ≤ 'z'

/-- `(?<![a-z])word(?![a-z])` matches here: behind `prev`, in front of
`rest`. -/
def aloneHere (word : Str) (prev : Option Char) (rest : Str) : Bool :=
  !prev.any isLowerLetter && word.isPrefixOf rest &&
    !(rest.drop word.length).head?.any isLowerLetter

/-- It matches here or further right. -/
def aloneFrom (word : Str) (prev : Option Char) : Str → Bool
  | [] => aloneHere word prev []
  | c :: rest => aloneHere word prev (c :: rest) || aloneFrom word (some c) rest

/-- `search(text) is not None` of `(?<![a-z])word(?![a-z])`. -/
def searchAlone (word text : Str) : Bool := aloneFrom word none text

/-- No letter follows. -/
def EndsHere (after : Str) : Prop := ∀ c ∈ after.head?, isLowerLetter c = false

/-- No letter comes before. -/
def BeginsHere (before : Str) : Prop := ∀ c ∈ before.getLast?, isLowerLetter c = false

/-- The word is in the text, with no letter right before or behind it. -/
def StandsAlone (word text : Str) : Prop :=
  ∃ before after, text = before ++ word ++ after ∧ BeginsHere before ∧ EndsHere after

theorem aloneHere_iff {word rest : Str} {prev : Option Char} :
    aloneHere word prev rest = true ↔
      (∀ c ∈ prev, isLowerLetter c = false) ∧ ∃ after, rest = word ++ after ∧ EndsHere after := by
  unfold aloneHere EndsHere
  simp only [Bool.and_eq_true, Bool.not_eq_true', Option.any_eq_false, List.isPrefixOf_iff_prefix]
  constructor
  · rintro ⟨⟨hprev, after, rfl⟩, hafter⟩
    rw [List.drop_left] at hafter
    exact ⟨fun c hc => by simpa using hprev c hc, after, rfl, fun c hc => by simpa using hafter c hc⟩
  · rintro ⟨hprev, after, rfl, hafter⟩
    rw [List.drop_left]
    exact ⟨⟨fun c hc => by simpa using hprev c hc, List.prefix_append _ _⟩,
      fun c hc => by simpa using hafter c hc⟩

/-- What stands before a position further right. -/
theorem aloneFrom_iff {word text : Str} {prev : Option Char} :
    aloneFrom word prev text = true ↔
      ∃ before after, text = before ++ word ++ after ∧
        (∀ c ∈ before.getLast?.or prev, isLowerLetter c = false) ∧ EndsHere after := by
  induction text generalizing prev with
  | nil =>
    rw [aloneFrom, aloneHere_iff]
    constructor
    · rintro ⟨hprev, after, htext, hafter⟩
      exact ⟨[], after, htext, hprev, hafter⟩
    · rintro ⟨before, after, htext, hprev, hafter⟩
      obtain ⟨hbefore, rfl⟩ := List.append_eq_nil_iff.mp htext.symm
      obtain ⟨rfl, rfl⟩ := List.append_eq_nil_iff.mp hbefore
      exact ⟨hprev, [], rfl, hafter⟩
  | cons c text ih =>
    rw [aloneFrom, Bool.or_eq_true, aloneHere_iff, ih]
    constructor
    · rintro (⟨hprev, after, htext, hafter⟩ | ⟨before, after, htext, hbefore, hafter⟩)
      · exact ⟨[], after, htext, hprev, hafter⟩
      · refine ⟨c :: before, after, by rw [htext, List.cons_append, List.cons_append], ?_, hafter⟩
        rw [List.getLast?_cons]
        cases hlast : before.getLast? with
        | none => simpa [hlast] using hbefore
        | some d => simpa [hlast] using hbefore
    · rintro ⟨before, after, htext, hbefore, hafter⟩
      cases before with
      | nil => exact Or.inl ⟨hbefore, after, htext, hafter⟩
      | cons d before =>
        obtain ⟨rfl, htail⟩ := List.cons.inj htext
        refine Or.inr ⟨before, after, htail, ?_, hafter⟩
        rw [List.getLast?_cons] at hbefore
        cases hlast : before.getLast? with
        | none => simpa [hlast] using hbefore
        | some e => simpa [hlast] using hbefore

/-- **A search finds the word where it stands alone.** -/
theorem searchAlone_iff {word text : Str} : searchAlone word text = true ↔ StandsAlone word text := by
  unfold searchAlone StandsAlone BeginsHere
  rw [aloneFrom_iff]
  simp only [Option.or_none]

/-! ## The script -/

/-- `ALLOWED_LICENCE_SUBSTRINGS`. -/
def allowedLicenceSubstrings : List Str :=
  ["mit", "bsd", "apache", "python software foundation", "psf", "isc", "mozilla public license 2.0",
    "mpl-2.0", "mpl 2.0", "the unlicense", "public domain"].map String.toList

/-- The words of `DENIED_LICENCE_PATTERNS`. -/
def deniedWords : List Str := ["gpl", "agpl", "sspl", "commons clause"].map String.toList

/-- `MANUAL_ALLOWLIST`: nothing was reviewed so far. -/
def manualAllowlist : List (Str × Str) := []

/-- The metadata of a distribution, as far as the script reads it. -/
structure Distribution where
  name : Option Str := none
  summary : Option Str := none
  version : Option Str := none
  licenseExpression : Option Str := none
  license : Option Str := none
  classifiers : List Str := []
  deriving DecidableEq, Repr

/-- `value or default`. -/
def valueOr (value : Option Str) (default : Str) : Str :=
  match value with
  | some s => if s = [] then default else s
  | none => default

def Distribution.shownName (d : Distribution) : Str :=
  valueOr d.name (valueOr d.summary "unknown".toList)

/-- `_licence_strings`. -/
def Distribution.licenceStrings (d : Distribution) : List Str :=
  d.licenseExpression.toList.filter (· != []) ++ d.license.toList.filter (· != []) ++
    d.classifiers.filter (startswith · "License ::".toList)

/-- What the script has found. -/
structure LicenceReport where
  checked : Nat := 0
  denied : List (Str × Str × List Str) := []
  lgplReviewed : List (Str × Str × List Str) := []
  unknown : List (Str × Str) := []
  deriving DecidableEq, Repr

variable [PyRuntime]

/-- `" | ".join(strings).lower()`. -/
def Distribution.licenceText (d : Distribution) : Str :=
  lower (join " | ".toList d.licenceStrings)

/-- One round of the loop in `main`. -/
def LicenceReport.inspect (r : LicenceReport) (d : Distribution) : LicenceReport :=
  let version := valueOr d.version "?".toList
  if lower d.shownName ∈ manualAllowlist.map Prod.fst then r
  else if startswith (lower d.shownName) "sentinel-".toList then r
  else
    let r := { r with checked := r.checked + 1 }
    if d.licenceStrings = [] then { r with unknown := r.unknown ++ [(d.shownName, version)] }
    else if searchAlone "lgpl".toList d.licenceText then
      { r with lgplReviewed := r.lgplReviewed ++ [(d.shownName, version, d.licenceStrings)] }
    else if deniedWords.any (searchAlone · d.licenceText) then
      { r with denied := r.denied ++ [(d.shownName, version, d.licenceStrings)] }
    else if !allowedLicenceSubstrings.any (contains · d.licenceText) then
      { r with unknown := r.unknown ++ [(d.shownName, version)] }
    else r

/-- The loop. -/
def checkLicences (dists : List Distribution) : LicenceReport :=
  dists.foldl LicenceReport.inspect {}

/-- `main`: what it returns. -/
def main (dists : List Distribution) : Nat := if (checkLicences dists).denied = [] then 0 else 1

/-! ## When the gate closes -/

/-- Neither first-party nor reviewed by hand. -/
def Distribution.ThirdParty (d : Distribution) : Prop :=
  lower d.shownName ∉ manualAllowlist.map Prod.fst ∧
    startswith (lower d.shownName) "sentinel-".toList = false

/-- One of the denied words stands alone in the text, and `lgpl` does not. -/
def Recognised (text : Str) : Prop :=
  (∃ word ∈ deniedWords, StandsAlone word text) ∧ ¬ StandsAlone "lgpl".toList text

omit [PyRuntime] in
theorem not_standsAlone_nil {word : Str} (h : word ≠ []) : ¬ StandsAlone word [] := by
  rintro ⟨before, after, htext, -, -⟩
  have hnil := (List.append_eq_nil_iff.mp (List.append_eq_nil_iff.mp htext.symm).1).2
  exact h hnil

theorem licenceText_of_nil {d : Distribution} (h : d.licenceStrings = []) : d.licenceText = [] := by
  rw [Distribution.licenceText, h]
  exact PyRuntime.lower_ascii [] rfl

/-- A round denies a distribution, or leaves what was denied as it is. -/
theorem inspect_denied (r : LicenceReport) (d : Distribution) :
    (d.ThirdParty ∧ Recognised d.licenceText ∧ (r.inspect d).denied ≠ []) ∨
      ¬ (d.ThirdParty ∧ Recognised d.licenceText) ∧ (r.inspect d).denied = r.denied := by
  unfold LicenceReport.inspect
  dsimp only
  by_cases hreviewed : lower d.shownName ∈ manualAllowlist.map Prod.fst
  · rw [if_pos hreviewed]
    exact Or.inr ⟨fun h => h.1.1 hreviewed, rfl⟩
  · rw [if_neg hreviewed]
    by_cases hown : startswith (lower d.shownName) "sentinel-".toList = true
    · rw [if_pos hown]
      exact Or.inr ⟨fun h => Bool.false_ne_true (h.1.2.symm.trans hown), rfl⟩
    · rw [if_neg hown]
      have hthird : d.ThirdParty := ⟨hreviewed, Bool.eq_false_iff.mpr hown⟩
      by_cases hnone : d.licenceStrings = []
      · rw [if_pos hnone]
        refine Or.inr ⟨fun h => ?_, rfl⟩
        obtain ⟨word, hword, hstands⟩ := h.2.1
        rw [licenceText_of_nil hnone] at hstands
        refine not_standsAlone_nil ?_ hstands
        rintro rfl
        exact absurd hword (by decide)
      · rw [if_neg hnone]
        by_cases hlgpl : searchAlone "lgpl".toList d.licenceText = true
        · rw [if_pos hlgpl]
          exact Or.inr ⟨fun h => h.2.2 (searchAlone_iff.mp hlgpl), rfl⟩
        · rw [if_neg hlgpl]
          by_cases hdenied : deniedWords.any (searchAlone · d.licenceText) = true
          · rw [if_pos hdenied]
            obtain ⟨word, hword, hfound⟩ := List.any_eq_true.mp hdenied
            exact Or.inl ⟨hthird, ⟨⟨word, hword, searchAlone_iff.mp hfound⟩,
              mt searchAlone_iff.mpr hlgpl⟩, List.append_ne_nil_of_right_ne_nil _ (by simp)⟩
          · rw [if_neg hdenied]
            have hnot : ¬ Recognised d.licenceText := by
              rintro ⟨⟨word, hword, hstands⟩, -⟩
              exact hdenied (List.any_eq_true.mpr ⟨word, hword, searchAlone_iff.mpr hstands⟩)
            split
            · exact Or.inr ⟨fun h => hnot h.2, rfl⟩
            · exact Or.inr ⟨fun h => hnot h.2, rfl⟩

/-- **The exit code.** -/
theorem main_eq_one_iff (dists : List Distribution) :
    main dists = 1 ↔ ∃ d ∈ dists, d.ThirdParty ∧ Recognised d.licenceText := by
  have hloop : ∀ r : LicenceReport, (dists.foldl LicenceReport.inspect r).denied = [] ↔
      r.denied = [] ∧ ∀ d ∈ dists, ¬ (d.ThirdParty ∧ Recognised d.licenceText) := by
    induction dists with
    | nil => simp
    | cons d dists ih =>
      intro r
      rw [List.foldl_cons, ih, List.forall_mem_cons]
      rcases inspect_denied r d with ⟨hthird, hrecognised, hdenied⟩ | ⟨hnot, hsame⟩
      · constructor
        · exact fun h => absurd h.1 hdenied
        · exact fun h => absurd ⟨hthird, hrecognised⟩ h.2.1
      · rw [hsame]
        exact ⟨fun h => ⟨h.1, hnot, h.2⟩, fun h => ⟨h.1, h.2.2⟩⟩
  have hclosed : main dists = 1 ↔ ¬ (checkLicences dists).denied = [] := by
    unfold main
    split
    · next hnone => exact ⟨fun h => absurd h Nat.zero_ne_one, fun h => absurd hnone h⟩
    · next hsome => exact ⟨fun _ => hsome, fun _ => rfl⟩
  rw [hclosed, checkLicences, hloop]
  constructor
  · intro h
    by_contra hno
    exact h ⟨rfl, fun d hd hd' => hno ⟨d, hd, hd'⟩⟩
  · rintro ⟨d, hd, hd'⟩ h
    exact h.2 d hd hd'

/-! ## Copyleft licences -/

/-- The families of licences the gate is to stop. -/
def copyleftFamilies : List Str := ["gpl", "agpl", "sspl"].map String.toList

/-- What may follow the name of a family: no letter, or a version as in
`gplv3`. -/
def EndsName (after : Str) : Prop :=
  EndsHere after ∨ ∃ digit rest, after = 'v' :: digit :: rest ∧ digit.isDigit = true

/-- The text, in lower case, names a copyleft licence: by its SPDX
identifier (`gpl-3.0-only`), a short form (`gplv3`) or a classifier that
ends in a short form. The classifier `GNU Affero General Public License v3`
has neither. -/
def NamesCopyleft (text : Str) : Prop :=
  ∃ family ∈ copyleftFamilies, ∃ before after, text = before ++ family ++ after ∧
    BeginsHere before ∧ EndsName after

/-- **The gate stops copyleft.** -/
def GateStops (dists : List Distribution) : Prop :=
  (∃ d ∈ dists, d.ThirdParty ∧ NamesCopyleft d.licenceText) → main dists = 1

/-- The gate stops copyleft exactly if there is none to stop, or some
distribution names a denied licence alone, without version or other letter
right behind it, and does not name the LGPL so. -/
theorem gateStops_iff (dists : List Distribution) :
    GateStops dists ↔ (∀ d ∈ dists, d.ThirdParty → ¬ NamesCopyleft d.licenceText) ∨
      ∃ d ∈ dists, d.ThirdParty ∧ Recognised d.licenceText := by
  unfold GateStops
  rw [main_eq_one_iff]
  constructor
  · intro h
    by_cases hsome : ∃ d ∈ dists, d.ThirdParty ∧ NamesCopyleft d.licenceText
    · exact Or.inr (h hsome)
    · exact Or.inl fun d hd hthird hnames => hsome ⟨d, hd, hthird, hnames⟩
  · rintro (hnone | hrecognised)
    · rintro ⟨d, hd, hthird, hnames⟩
      exact absurd hnames (hnone d hd hthird)
    · exact fun _ => hrecognised

/-- The classifier of the GPL, version 3. -/
def gplClassifier : Str :=
  "License :: OSI Approved :: GNU General Public License v3 (GPLv3)".toList

omit [PyRuntime] in
/-- A distribution with that classifier passes the gate. -/
theorem gplClassifier_passes :
    let _ := PyRuntime.ascii
    ¬ GateStops [{ name := some "copyleft".toList, classifiers := [gplClassifier] }] := by
  intro runtime h
  have hbegins : BeginsHere "license :: osi approved :: gnu general public license v3 (".toList := by
    have hlast : "license :: osi approved :: gnu general public license v3 (".toList.getLast? =
        some '(' := by decide +kernel
    intro c hc
    rw [hlast] at hc
    obtain rfl := Option.some.inj hc
    decide
  have hmain := h ⟨_, List.mem_singleton_self _, ⟨by decide +kernel, by decide +kernel⟩,
    "gpl".toList, by decide, "license :: osi approved :: gnu general public license v3 (".toList,
    "v3)".toList, by decide +kernel, hbegins,
    Or.inr ⟨'3', ")".toList, rfl, by decide⟩⟩
  revert hmain
  decide +kernel

end Sentinel.Infra
