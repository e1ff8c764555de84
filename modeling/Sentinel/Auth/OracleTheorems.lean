/-
Sentinel.Auth.OracleTheorems — what an established oracle tells apart.

An oracle always accepts the response it was made from. It rejects the
anonymous one when the status codes differ, and otherwise when the line
it was made of does not occur in the anonymous body. `findUniqueLine`
only makes sure that this line is not a whole anonymous line.
-/
import Sentinel.Auth.Oracle
import Std.Data.String.ToInt

namespace Sentinel.Auth

open Sentinel.Py Sentinel.Core

theorem ofInt_inj {m n : Int} : ofInt m = ofInt n ↔ m = n := by
  rw [ofInt, ofInt, String.toList_inj, Int.repr_inj]

/-- A line can be what an oracle is made of: it passes, and no line before
it does. -/
def FirstUniqueLine (authenticatedText anonymousText line : Str) : Prop :=
  ∃ pre post, splitlines authenticatedText = pre ++ line :: post ∧
    (∀ l ∈ pre, isUniqueLine anonymousText 6 (strip l) = false) ∧
    isUniqueLine anonymousText 6 (strip line) = true

/-- What `findUniqueLine` returns is the first line that passes. -/
theorem findUniqueLine_eq_some_iff (authenticatedText anonymousText stripped : Str) :
    findUniqueLine authenticatedText anonymousText = some stripped ↔
      ∃ line, FirstUniqueLine authenticatedText anonymousText line ∧ strip line = stripped := by
  unfold findUniqueLine FirstUniqueLine
  rw [List.find?_map, Option.map_eq_some_iff]
  refine exists_congr fun line => and_congr_left fun _ => ?_
  rw [List.find?_eq_some_iff_append]
  constructor
  · rintro ⟨hline, pre, post, hsplit, hpre⟩
    exact ⟨pre, post, hsplit, fun l hl => by simpa using hpre l hl, hline⟩
  · rintro ⟨pre, post, hsplit, hpre, hline⟩
    exact ⟨hline, pre, post, hsplit, fun l hl => by simpa using hpre l hl⟩

theorem FirstUniqueLine.ne_nil {authenticatedText anonymousText line : Str}
    (h : FirstUniqueLine authenticatedText anonymousText line) : strip line ≠ [] := by
  obtain ⟨pre, post, -, -, hline⟩ := h
  intro hnil
  simp [isUniqueLine, hnil] at hline

/-- A unique line, stripped, is a piece of the authenticated text. -/
theorem FirstUniqueLine.isInfix {authenticatedText anonymousText line : Str}
    (h : FirstUniqueLine authenticatedText anonymousText line) :
    strip line <:+: authenticatedText := by
  obtain ⟨pre, post, hsplit, -, -⟩ := h
  have hmem : line ∈ splitlines authenticatedText := by simp [hsplit]
  exact (strip_isInfix line).trans (splitlines_isInfix hmem)

/-- The oracle of a result, without its detail. -/
theorem compareProbes_oracle (probeMethod probeUrl : Str) (auth anon : EngineResponse) :
    (compareProbes probeMethod probeUrl auth anon).oracle =
      if auth.statusCode ≠ anon.statusCode then
        some ⟨probeMethod, probeUrl, .statusCode, ofInt auth.statusCode⟩
      else
        ((if auth.text ≠ anon.text then findUniqueLine auth.text anon.text else none).filter
          fun line => line ≠ []).map fun line => ⟨probeMethod, probeUrl, .bodyContains, line⟩ := by
  unfold compareProbes
  split
  · rfl
  · dsimp only
    generalize Option.filter _ _ = found
    cases found with
    | none => rfl
    | some line => rfl

/-- When an oracle comes out, and which: by status code when the codes
differ, by the first unique line when only the bodies do. -/
theorem compareProbes_oracle_iff (probeMethod probeUrl : Str) (auth anon : EngineResponse)
    (o : SessionOracle) :
    (compareProbes probeMethod probeUrl auth anon).oracle = some o ↔
      (auth.statusCode ≠ anon.statusCode ∧
        o = ⟨probeMethod, probeUrl, .statusCode, ofInt auth.statusCode⟩) ∨
      (auth.statusCode = anon.statusCode ∧ auth.text ≠ anon.text ∧
        ∃ line, FirstUniqueLine auth.text anon.text line ∧
          o = ⟨probeMethod, probeUrl, .bodyContains, strip line⟩) := by
  rw [compareProbes_oracle]
  by_cases hstatus : auth.statusCode = anon.statusCode
  · by_cases htext : auth.text = anon.text
    · simp [hstatus, htext]
    · simp only [hstatus, htext, ne_eq, not_true, not_false_eq_true, if_true, if_false, false_and,
        true_and, false_or]
      cases hfind : findUniqueLine auth.text anon.text with
      | none =>
        have hnone : ∀ line, ¬ FirstUniqueLine auth.text anon.text line := fun line hline =>
          absurd ((findUniqueLine_eq_some_iff _ _ _).mpr ⟨line, hline, rfl⟩) (by simp [hfind])
        simp [hnone]
      | some stripped =>
        obtain ⟨line, hline, rfl⟩ := (findUniqueLine_eq_some_iff _ _ _).mp hfind
        have hkeep : (some (strip line)).filter (fun l => l ≠ []) = some (strip line) := by
          simp [hline.ne_nil]
        have honly : ∀ l, FirstUniqueLine auth.text anon.text l → strip l = strip line := by
          intro l hl
          have := (findUniqueLine_eq_some_iff _ _ _).mpr ⟨l, hl, rfl⟩
          exact (Option.some.inj (hfind.symm.trans this)).symm
        rw [hkeep, Option.map_some, Option.some.injEq]
        constructor
        · rintro rfl
          exact ⟨line, hline, rfl⟩
        · rintro ⟨l, hl, rfl⟩
          rw [honly l hl]
  · simp [hstatus, eq_comm]

/-- An oracle accepts the authenticated response it was made from. -/
theorem compareProbes_accepts {probeMethod probeUrl : Str} {auth anon : EngineResponse}
    {o : SessionOracle} (ho : (compareProbes probeMethod probeUrl auth anon).oracle = some o) :
    o.matches auth = true := by
  rcases (compareProbes_oracle_iff _ _ _ _ _).mp ho with ⟨-, rfl⟩ | ⟨-, -, line, hline, rfl⟩
  · simp [SessionOracle.matches]
  · exact contains_iff.mpr hline.isInfix

/-- Every oracle of a pair of probes tells the pair apart exactly when the
status codes differ, the texts are equal, or the first unique line of the
authenticated text occurs nowhere in the anonymous text. -/
theorem compareProbes_sound_iff (probeMethod probeUrl : Str) (auth anon : EngineResponse) :
    (∀ o, (compareProbes probeMethod probeUrl auth anon).oracle = some o →
        o.matches auth = true ∧ o.matches anon = false) ↔
      auth.statusCode ≠ anon.statusCode ∨ auth.text = anon.text ∨
        ∀ line, FirstUniqueLine auth.text anon.text line → ¬ strip line <:+: anon.text := by
  constructor
  · intro hsound
    by_contra hcond
    simp only [ne_eq, not_or, not_not] at hcond
    obtain ⟨hstatus, htext, hline⟩ := hcond
    push Not at hline
    obtain ⟨line, hline, hinfix⟩ := hline
    have hreject := (hsound ⟨probeMethod, probeUrl, .bodyContains, strip line⟩
      ((compareProbes_oracle_iff _ _ _ _ _).mpr (Or.inr ⟨hstatus, htext, line, hline, rfl⟩))).2
    have haccept : contains (strip line) anon.text = true := contains_iff.mpr hinfix
    exact Bool.false_ne_true (hreject.symm.trans haccept)
  · intro hcond o ho
    refine ⟨compareProbes_accepts ho, ?_⟩
    rcases (compareProbes_oracle_iff _ _ _ _ _).mp ho with
      ⟨hstatus, rfl⟩ | ⟨hstatus, htext, line, hline, rfl⟩
    · simp [SessionOracle.matches, ofInt_inj, Ne.symm hstatus]
    · rcases hcond with h | h | h
      · exact absurd hstatus h
      · exact absurd h htext
      · have hnot : ¬ contains (strip line) anon.text = true := fun hin =>
          h line hline (contains_iff.mp hin)
        simpa [SessionOracle.matches] using hnot

/-- A response with a status code and a body. -/
def textResponse (statusCode : Int) (body : String) : EngineResponse :=
  ⟨statusCode, [], body.toUTF8.toList, 1, "t".toList, "https://app.acme.test/".toList⟩

/-- The anonymous page has the line `Welcome`, indented. -/
theorem indented_line_accepted :
    let auth := textResponse 200 "Welcome\nalice"
    let anon := textResponse 200 "  Welcome\nlogin"
    ¬ ∀ o, (compareProbes "GET".toList "https://app.acme.test/".toList auth anon).oracle = some o →
        o.matches auth = true ∧ o.matches anon = false := by
  intro auth anon hsound
  have hreject := (hsound ⟨"GET".toList, "https://app.acme.test/".toList, .bodyContains,
    "Welcome".toList⟩ (by decide +kernel)).2
  revert hreject
  decide +kernel

/-! ## The probes -/

variable [PyRuntime]

/-- An established result compares the responses of the two probes, the
second of which finds the jar the first left. -/
theorem establishSessionOracle_ok {e : HttpEngine} {persona : SessionState}
    {probeUrl probeMethod : Str} {authEnv anonEnv : CallEnv} {jar : CookieJar}
    {result : OracleEstablishmentResult}
    (h : establishSessionOracle e persona probeUrl probeMethod authEnv anonEnv jar = .ok result) :
    let authRun := e.request { method := probeMethod, url := probeUrl, persona := some persona }
      authEnv jar
    let anonRun := e.request
      { method := probeMethod, url := probeUrl, persona := some anonymousSession } anonEnv authRun.jar
    ∃ auth anon, authRun.result = .ok auth ∧ anonRun.result = .ok anon ∧
      result = compareProbes probeMethod probeUrl auth anon := by
  intro authRun anonRun
  change (authRun.result >>= fun auth => anonRun.result >>= fun anon =>
    .ok (compareProbes probeMethod probeUrl auth anon)) = .ok result at h
  cases hauth : authRun.result with
  | error err =>
    rw [hauth] at h
    cases h
  | ok auth =>
    cases hanon : anonRun.result with
    | error err =>
      rw [hauth, hanon] at h
      cases h
    | ok anon =>
      rw [hauth, hanon] at h
      cases h
      exact ⟨auth, anon, rfl, rfl, rfl⟩

end Sentinel.Auth
