/-
Sentinel.Api.RecipeAgreement — the recipes the API takes, and the replayer
that runs them.

`LoginRecipeIn` knows the actions of a step but not what each of them
needs, and a persona has one credential whatever its steps refer to.
`replayAgrees_iff` says which of the recipes that are taken can be run.
-/
import Sentinel.Api.Schemas
import Sentinel.Worker.AuthEstablishing

namespace Sentinel.Api

open Sentinel.Py Sentinel.Core Sentinel.Auth Sentinel.Worker

/-! ## Steps -/

/-- The step has what its action needs, and the reference of a secret is the
one there is a credential for. -/
def LoginStepIn.Complete (ref : Str) (s : LoginStepIn) : Prop :=
  match s.action with
  | .goto => s.value.isSome = true
  | .fill => s.selector.isSome = true ∧ s.value.isSome = true
  | .fillSecret => s.selector.isSome = true ∧ s.credentialRef = some ref
  | .click => s.selector.isSome = true
  | .waitForSelector => s.selector.isSome = true
  | .waitForUrl => s.value.isSome = true

instance (ref : Str) (s : LoginStepIn) : Decidable (s.Complete ref) := by
  unfold LoginStepIn.Complete
  cases s.action <;> infer_instance

/-- An error that lies in the recipe: an argument or a credential that is
not there. -/
def InRecipe : ReplayError → Prop
  | .assertionError | .keyError _ => True
  | _ => False

/-- The operation of a step, by its action. -/
def LoginStepIn.op (s : LoginStepIn) (credentials : List (Str × Auth.Credential)) :
    Except ReplayError PageOp :=
  let timeout := s.timeoutS.val * 1000
  match s.action with
  | .goto => do return .goto (← required s.value) timeout
  | .fill => do return .fill (← required s.selector) (← required s.value) timeout
  | .fillSecret => do
      let selector ← required s.selector
      let ref ← required s.credentialRef
      match credentials.lookup ref with
      | none => .error (.keyError ref)
      | some credential => return .fill selector credential.secret timeout
  | .click => do return .click (← required s.selector) timeout
  | .waitForSelector => do return .waitForSelector (← required s.selector) none timeout
  | .waitForUrl => do return .waitForUrl (← required s.value) timeout

/-- It is that of the step the worker builds. -/
theorem step_op_eq (s : LoginStepIn) (credentials : List (Str × Auth.Credential)) :
    s.step.op credentials = s.op credentials := by
  obtain ⟨action, selector, value, credentialRef, timeout⟩ := s
  cases action with
  | goto | fill | fillSecret | click | waitForSelector | waitForUrl => rfl

/-- A complete step has an operation. -/
theorem op_of_complete {s : LoginStepIn} {ref : Str} (h : s.Complete ref) (plaintext : Str) :
    ∃ op, s.op [(ref, ⟨ref, plaintext⟩)] = .ok op := by
  obtain ⟨action, selector, value, credentialRef, timeout⟩ := s
  cases action with
  | goto | waitForUrl =>
    obtain ⟨v, rfl⟩ := Option.isSome_iff_exists.mp (h : value.isSome = true)
    exact ⟨_, rfl⟩
  | click | waitForSelector =>
    obtain ⟨sel, rfl⟩ := Option.isSome_iff_exists.mp (h : selector.isSome = true)
    exact ⟨_, rfl⟩
  | fill =>
    obtain ⟨hselector, hvalue⟩ : selector.isSome = true ∧ value.isSome = true := h
    obtain ⟨sel, rfl⟩ := Option.isSome_iff_exists.mp hselector
    obtain ⟨v, rfl⟩ := Option.isSome_iff_exists.mp hvalue
    exact ⟨_, rfl⟩
  | fillSecret =>
    obtain ⟨hselector, rfl⟩ : selector.isSome = true ∧ credentialRef = some ref := h
    obtain ⟨sel, rfl⟩ := Option.isSome_iff_exists.mp hselector
    have hlookup : [(ref, (⟨ref, plaintext⟩ : Auth.Credential))].lookup ref =
        some ⟨ref, plaintext⟩ := List.lookup_cons_self
    refine ⟨.fill sel plaintext (timeout.val * 1000), ?_⟩
    show (match [(ref, (⟨ref, plaintext⟩ : Auth.Credential))].lookup ref with
      | none => .error (.keyError ref)
      | some credential => .ok (.fill sel credential.secret (timeout.val * 1000)) :
        Except ReplayError PageOp) = _
    rw [hlookup]

/-- Any other step fails by what is not there. -/
theorem op_of_not_complete {s : LoginStepIn} {ref : Str} (h : ¬ s.Complete ref) (plaintext : Str) :
    ∃ e, InRecipe e ∧ s.op [(ref, ⟨ref, plaintext⟩)] = .error e := by
  obtain ⟨action, selector, value, credentialRef, timeout⟩ := s
  cases action with
  | goto | waitForUrl =>
    cases value with
    | none => exact ⟨.assertionError, trivial, rfl⟩
    | some v => exact absurd rfl h
  | click | waitForSelector =>
    cases selector with
    | none => exact ⟨.assertionError, trivial, rfl⟩
    | some sel => exact absurd rfl h
  | fill =>
    cases selector with
    | none => exact ⟨.assertionError, trivial, rfl⟩
    | some sel =>
      cases value with
      | none => exact ⟨.assertionError, trivial, rfl⟩
      | some v => exact absurd ⟨rfl, rfl⟩ h
  | fillSecret =>
    cases selector with
    | none => exact ⟨.assertionError, trivial, rfl⟩
    | some sel =>
      cases credentialRef with
      | none => exact ⟨.assertionError, trivial, rfl⟩
      | some other =>
        have hother : other ≠ ref := by
          rintro rfl
          exact h ⟨rfl, rfl⟩
        have hlookup : [(ref, (⟨ref, plaintext⟩ : Auth.Credential))].lookup other = none := by
          have hbeq : (other == ref) = false := by simpa using hother
          rw [List.lookup_cons, hbeq]
          rfl
        refine ⟨.keyError other, trivial, ?_⟩
        show (match [(ref, (⟨ref, plaintext⟩ : Auth.Credential))].lookup other with
          | none => .error (.keyError other)
          | some credential => .ok (.fill sel credential.secret (timeout.val * 1000)) :
            Except ReplayError PageOp) = _
        rw [hlookup]

/-! ## Browsers that only time out -/

/-- Every page operation succeeds or raises Playwright's `TimeoutError`. -/
structure OnlyTimesOut (b : BrowserRun) : Prop where
  newContext : b.newContext = .ok ()
  newPage : b.newPage = .ok ()
  perform : ∀ ops msg, b.perform ops ≠ .error (.other msg)
  storageState : ∀ ops msg, b.storageState ops ≠ .error (.other msg)
  close : b.close = .ok ()

/-- The error, if there is one, is a timeout. -/
def TimesOut {α : Type} (outcome : Except ReplayError α) : Prop :=
  ∀ e, outcome = .error e → ∃ msg, e = .playwright (.timeout msg)

variable {α β : Type} {b : BrowserRun}

theorem timesOut_ok (a : α) : TimesOut (.ok a) := fun _ h => nomatch h

theorem timesOut_bind {x : Except ReplayError α} {f : α → Except ReplayError β} (hx : TimesOut x)
    (hf : ∀ a, x = .ok a → TimesOut (f a)) : TimesOut (x >>= f) := by
  cases x with
  | ok a => exact hf a rfl
  | error e =>
    intro e' he'
    cases he'
    exact hx e rfl

theorem timesOut_playwright {x : Except PlaywrightError α} (h : ∀ msg, x ≠ .error (.other msg)) :
    TimesOut (x.mapError .playwright) := by
  intro e he
  cases x with
  | ok a => cases he
  | error e' =>
    cases he
    cases e' with
    | timeout msg => exact ⟨msg, rfl⟩
    | other msg => exact absurd rfl (h msg)

theorem timesOut_act (h : OnlyTimesOut b) (done : List PageOp) (op : PageOp) :
    TimesOut (b.act done op) := by
  intro e he
  have hperform := timesOut_playwright (h.perform (done ++ [op]))
  unfold BrowserRun.act at he
  cases hx : (b.perform (done ++ [op])).mapError ReplayError.playwright with
  | ok a => rw [hx] at he; cases he
  | error e' =>
    rw [hx] at he
    cases he
    exact hperform _ hx

/-- So does a run of complete steps. -/
theorem timesOut_steps (h : OnlyTimesOut b) {ref : Str} (plaintext : Str) {steps : List LoginStepIn}
    (hcomplete : ∀ s ∈ steps, s.Complete ref) (done : List PageOp) :
    TimesOut ((steps.map LoginStepIn.step).foldlM
      (b.runStep [(ref, ⟨ref, plaintext⟩)]) done) := by
  induction steps generalizing done with
  | nil => exact timesOut_ok done
  | cons s steps ih =>
    rw [List.map_cons, List.foldlM_cons]
    obtain ⟨op, hop⟩ := op_of_complete (hcomplete s List.mem_cons_self) plaintext
    have hstep : b.runStep [(ref, ⟨ref, plaintext⟩)] done s.step = b.act done op := by
      rw [BrowserRun.runStep, step_op_eq, hop]
      rfl
    rw [hstep]
    refine timesOut_bind (timesOut_act h done op) fun next _ => ih ?_ next
    exact fun s' hs' => hcomplete s' (List.mem_cons_of_mem s hs')

/-- An incomplete step stops the replay with what it lacks, if nothing else
does before. -/
theorem complete_of_steps {ref plaintext : Str} (hok : ∀ ops, b.perform ops = .ok ())
    {steps : List LoginStepIn} (done : List PageOp) :
    (∃ e, InRecipe e ∧ (steps.map LoginStepIn.step).foldlM
        (b.runStep [(ref, ⟨ref, plaintext⟩)]) done = .error e) ∨
      ∀ s ∈ steps, s.Complete ref := by
  induction steps generalizing done with
  | nil => exact .inr fun s hs => nomatch hs
  | cons s steps ih =>
    rw [List.map_cons, List.foldlM_cons]
    by_cases hcomplete : s.Complete ref
    · obtain ⟨op, hop⟩ := op_of_complete hcomplete plaintext
      have hstep : b.runStep [(ref, ⟨ref, plaintext⟩)] done s.step = .ok (done ++ [op]) := by
        rw [BrowserRun.runStep, step_op_eq, hop]
        show b.act done op = _
        rw [BrowserRun.act, hok]
        rfl
      rw [hstep]
      rcases ih (done ++ [op]) with hfailed | hrest
      · exact .inl hfailed
      · refine .inr fun s' hs' => ?_
        rcases List.mem_cons.mp hs' with rfl | hs'
        · exact hcomplete
        · exact hrest s' hs'
    · obtain ⟨e, he, hop⟩ := op_of_not_complete hcomplete plaintext
      refine .inl ⟨e, he, ?_⟩
      rw [BrowserRun.runStep, step_op_eq, hop]
      rfl

/-! ## The replay -/

variable [PyRuntime]

/-- The text of a caught `KeyError`. -/
def missingCredential (key : Str) : Str :=
  "missing credential for ref ".toList ++ Py.reprStr key

/-- What comes of the recipe behind its steps is no missing credential. -/
theorem finish_supplied {recipe : LoginRecipe} {done : List PageOp} {result : LoginReplayResult}
    (h : b.finish recipe done = .ok result) (key : Str) :
    result ≠ .failure (missingCredential key) := by
  obtain ⟨found, -, h⟩ := bind_eq_ok.mp h
  cases found with
  | none =>
    obtain rfl := Except.ok.inj h
    intro heq
    cases LoginReplayResult.failure.inj heq
  | some done' =>
    obtain ⟨state, -, h⟩ := bind_eq_ok.mp h
    obtain rfl := Except.ok.inj h
    exact nofun

theorem timesOut_finish (h : OnlyTimesOut b) (recipe : LoginRecipe) (done : List PageOp) :
    TimesOut (b.finish recipe done) := by
  refine timesOut_bind ?_ fun found _ => ?_
  · unfold BrowserRun.checkAssertion
    cases recipe.successAssertion.op with
    | none => exact timesOut_ok none
    | some op =>
      dsimp only
      cases hact : b.act done op with
      | ok next => exact timesOut_ok (some next)
      | error e =>
        obtain ⟨msg, rfl⟩ := timesOut_act h done op e hact
        exact timesOut_ok none
  · cases found with
    | none => exact timesOut_ok _
    | some done' =>
      exact timesOut_bind (timesOut_playwright (h.storageState done')) fun _ _ => timesOut_ok _

/-- A browser that does not close the context with an exception hands over
what the login ended with. -/
theorem replay_eq (h : OnlyTimesOut b) (recipe : LoginRecipe)
    (credentials : List (Str × Auth.Credential)) :
    b.replay recipe credentials = handleReplay (b.attempt recipe credentials) := by
  unfold BrowserRun.replay
  rw [h.newContext, h.newPage, h.close]
  rfl

/-- `establish_persona` comes to this replay, which returns a result, and
does not fail for want of a credential. -/
structure ReplayAgrees (v : Vault) (persona : ConfiguredPersona) (recipe : LoginRecipe)
    (ref plaintext : Str) (browser : BrowserRun) : Prop where
  comes : logInPersona v persona browser = replayLogin persona browser recipe ref plaintext
  returns : ∃ result, browser.replay recipe [(ref, ⟨ref, plaintext⟩)] = .ok result
  supplied : ∀ key, browser.replay recipe [(ref, ⟨ref, plaintext⟩)] ≠
    .ok (.failure (missingCredential key))

/-- A stored recipe comes to its replay. -/
theorem logInPersona_stored {v : Vault} {persona : ConfiguredPersona} {r : LoginRecipeIn}
    {ciphertext plaintext ref : Str} (hrecipe : persona.loginRecipe = some r.modelDump)
    (hcredential : persona.credential = some ciphertext)
    (hreveal : v.reveal ciphertext = .ok plaintext) (href : secretRef r.recipe = some ref)
    (browser : BrowserRun) :
    logInPersona v persona browser = replayLogin persona browser r.recipe ref plaintext := by
  have hnonempty : r.modelDump ≠ {} := fun h => nomatch congrArg RawRecipe.startUrl h
  have hstored : persona.loginRecipe.filter (· ≠ {}) = some r.modelDump := by
    rw [hrecipe]
    simp [hnonempty]
  exact logInPersona_eq ⟨hstored, hcredential, buildLoginRecipe_modelDump r, href, hreveal⟩ browser

/-- A recipe whose steps are complete is run, in every browser that only
times out. -/
theorem replay_of_complete (h : OnlyTimesOut b) {r : LoginRecipeIn} {ref : Str}
    (hcomplete : ∀ s ∈ r.steps, s.Complete ref) (plaintext : Str) :
    (∃ result, b.replay r.recipe [(ref, ⟨ref, plaintext⟩)] = .ok result) ∧
      ∀ key, b.replay r.recipe [(ref, ⟨ref, plaintext⟩)] ≠ .ok (.failure (missingCredential key)) := by
  rw [replay_eq h]
  have htimes : TimesOut (b.attempt r.recipe [(ref, ⟨ref, plaintext⟩)]) := by
    refine timesOut_bind (timesOut_act h [] _) fun opened _ => ?_
    exact timesOut_bind (timesOut_steps h plaintext hcomplete opened) fun done _ =>
      timesOut_finish h r.recipe done
  cases hattempt : b.attempt r.recipe [(ref, ⟨ref, plaintext⟩)] with
  | ok result =>
    refine ⟨⟨result, rfl⟩, fun key heq => ?_⟩
    obtain ⟨opened, -, hrest⟩ := bind_eq_ok.mp hattempt
    obtain ⟨done, -, hfinish⟩ := bind_eq_ok.mp hrest
    exact finish_supplied hfinish key (Except.ok.inj heq)
  | error e =>
    obtain ⟨msg, rfl⟩ := htimes e hattempt
    refine ⟨⟨_, rfl⟩, fun key heq => ?_⟩
    cases LoginReplayResult.failure.inj (Except.ok.inj heq)

/-- A browser in which everything succeeds. -/
def smoothBrowser : BrowserRun := (smoothEnv []).browser

omit [PyRuntime] in
theorem smoothBrowser_onlyTimesOut : OnlyTimesOut smoothBrowser := by
  constructor
  case newContext | newPage | close => rfl
  case perform | storageState => exact fun _ _ h => nomatch h

/-- There a recipe that is run has complete steps. -/
theorem complete_of_replay {r : LoginRecipeIn} {ref plaintext : Str}
    (hreturns : ∃ result, smoothBrowser.replay r.recipe [(ref, ⟨ref, plaintext⟩)] = .ok result)
    (hsupplied : ∀ key, smoothBrowser.replay r.recipe [(ref, ⟨ref, plaintext⟩)] ≠
      .ok (.failure (missingCredential key))) : ∀ s ∈ r.steps, s.Complete ref := by
  rw [replay_eq smoothBrowser_onlyTimesOut] at hreturns hsupplied
  have hopened : smoothBrowser.act [] r.recipe.opening = .ok [r.recipe.opening] := rfl
  rcases complete_of_steps (b := smoothBrowser) (fun _ => rfl) [r.recipe.opening] with ⟨e, he, hfailed⟩ | hall
  · have hattempt : smoothBrowser.attempt r.recipe [(ref, ⟨ref, plaintext⟩)] = .error e := by
      unfold BrowserRun.attempt
      rw [hopened]
      show ((r.steps.map LoginStepIn.step).foldlM
        (smoothBrowser.runStep [(ref, ⟨ref, plaintext⟩)]) [r.recipe.opening] >>= _) = _
      rw [hfailed]
      rfl
    rw [hattempt] at hreturns hsupplied
    cases e with
    | assertionError =>
      obtain ⟨result, hresult⟩ := hreturns
      cases hresult
    | keyError key => exact absurd rfl (hsupplied key)
    | playwright e => exact absurd he id
    | valueError msg => exact absurd he id
  · exact hall

/-- **Which recipes the API and the replayer agree on**: those whose steps
have what their actions need, with one reference for all secrets. -/
theorem replayAgrees_iff {v : Vault} {persona : ConfiguredPersona} {r : LoginRecipeIn}
    {ciphertext plaintext ref : Str} (hrecipe : persona.loginRecipe = some r.modelDump)
    (hcredential : persona.credential = some ciphertext)
    (hreveal : v.reveal ciphertext = .ok plaintext) (href : secretRef r.recipe = some ref) :
    (∀ browser, OnlyTimesOut browser → ReplayAgrees v persona r.recipe ref plaintext browser) ↔
      ∀ s ∈ r.steps, s.Complete ref := by
  constructor
  · intro h
    have hsmooth := h smoothBrowser smoothBrowser_onlyTimesOut
    exact complete_of_replay hsmooth.returns hsmooth.supplied
  · intro hcomplete browser hbrowser
    obtain ⟨hreturns, hsupplied⟩ := replay_of_complete hbrowser hcomplete plaintext
    exact ⟨logInPersona_stored hrecipe hcredential hreveal href browser, hreturns, hsupplied⟩

/-! ## Three recipes -/

/-- A password is filled in, then what follows. -/
def passwordThen (more : List LoginStepIn) : LoginRecipeIn where
  startUrl := ⟨"https://app.acme.test/login".toList, by decide⟩
  steps := { action := .fillSecret, selector := some "#pw".toList,
             credentialRef := some "pw".toList } :: more
  steps_length := by simp
  successAssertion := { kind := .urlContains, value := ⟨"/dashboard".toList, by decide⟩ }

def submit : LoginStepIn := { action := .click, selector := some "#go".toList }

/-- A click on nothing. -/
def blindClick : LoginStepIn := { action := .click }

/-- Another secret. -/
def fillOtp : LoginStepIn :=
  { action := .fillSecret, selector := some "#otp".toList, credentialRef := some "otp".toList }

/-- A persona with that recipe and a credential. -/
def passwordPersona (more : List LoginStepIn) : ConfiguredPersona :=
  { acmePersona "alice" "k:hunter2" with loginRecipe := some (passwordThen more).modelDump }

def acmeVault : Vault := ⟨sealedFernet, [107]⟩

omit [PyRuntime] in
/-- A password and a button. -/
theorem replayAgrees_submit :
    let _ := PyRuntime.ascii
    ∀ browser, OnlyTimesOut browser → ReplayAgrees acmeVault (passwordPersona [submit])
      (passwordThen [submit]).recipe "pw".toList "hunter2".toList browser := by
  intro runtime
  exact (replayAgrees_iff rfl (rfl : _ = some "k:hunter2".toList) (by decide +kernel)
    (by decide +kernel)).mpr (by decide +kernel)

omit [PyRuntime] in
/-- A button without a selector fails an assertion, and a second secret has
no credential: the API takes both recipes. -/
theorem blindClick_not_replayed :
    let _ := PyRuntime.ascii
    ¬ (∀ browser, OnlyTimesOut browser → ReplayAgrees acmeVault (passwordPersona [blindClick])
        (passwordThen [blindClick]).recipe "pw".toList "hunter2".toList browser) ∧
      ¬ ∀ browser, OnlyTimesOut browser → ReplayAgrees acmeVault (passwordPersona [fillOtp])
        (passwordThen [fillOtp]).recipe "pw".toList "hunter2".toList browser := by
  intro runtime
  constructor
  · intro h
    obtain ⟨result, hresult⟩ := (h smoothBrowser smoothBrowser_onlyTimesOut).returns
    have hassertion : smoothBrowser.replay (passwordThen [blindClick]).recipe
        [("pw".toList, ⟨"pw".toList, "hunter2".toList⟩)] = .error .assertionError := by
      decide +kernel
    cases hassertion.symm.trans hresult
  · intro h
    have hmissing : smoothBrowser.replay (passwordThen [fillOtp]).recipe
        [("pw".toList, ⟨"pw".toList, "hunter2".toList⟩)] =
          .ok (.failure (missingCredential "otp".toList)) := by decide +kernel
    exact (h smoothBrowser smoothBrowser_onlyTimesOut).supplied "otp".toList hmissing

end Sentinel.Api
