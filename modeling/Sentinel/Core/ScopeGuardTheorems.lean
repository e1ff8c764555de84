/-
Sentinel.Core.ScopeGuardTheorems — what `ScopeGuard.evaluate` lets
through.

`allows_iff` reads the whole of `evaluate` off once: the request is
allowed exactly when ownership is verified, the host matches an allowed
host, and the path and method rules agree. Everything else about the
guard follows from it. The host section carries `_host_matches`, which
works on characters, over to label lists.
-/
import Sentinel.Core.ScopeGuard
import Sentinel.Py.Labels

namespace Sentinel.Core

open Sentinel.Py

variable [PyRuntime]

/-! ## The path rules -/

theorem firstPathMatch_none_iff (path : Str) (rs : List ScopeRule) :
    firstPathMatch path rs = .ok none ↔ ∀ r ∈ rs, pathRuleMatches r path = .ok false := by
  induction rs with
  | nil => simp [firstPathMatch]
  | cons r rest ih =>
    rw [List.forall_mem_cons, ← ih]
    cases h : pathRuleMatches r path with
    | error e => simp [firstPathMatch, h, bind, Except.bind]
    | ok b => cases b <;> simp [firstPathMatch, h, bind, Except.bind]

/-! ## The verdict, read off once -/

/-- The host is covered by an allowed host. -/
def ScopeGuard.HostInScope (g : ScopeGuard) (host : Str) : Prop :=
  ∃ p ∈ g.allowedHosts, hostMatches host p = true

/-- No path exclude rule matches, and if there are path include rules one
of them does. -/
def ScopeGuard.PathInScope (g : ScopeGuard) (path : Str) : Prop :=
  (∀ r ∈ g.rules, r.isPath = true → r.effect = .excludes → pathRuleMatches r path = .ok false) ∧
    (g.pathIncludes = [] ∨ ∃ r, firstPathMatch path g.pathIncludes = .ok (some r))

/-- No method exclude rule names the method, and it is an allowed one. -/
def ScopeGuard.MethodInScope (g : ScopeGuard) (method : Str) : Prop :=
  (∀ r ∈ g.rules, r.kind = .method → r.effect = .excludes → method ≠ upper r.pattern) ∧
    method ∈ g.allowedMethods

theorem evaluateMethod_allowed_iff (g : ScopeGuard) (method : Str) :
    (g.evaluateMethod method).allowed = true ↔ g.MethodInScope method := by
  unfold ScopeGuard.evaluateMethod ScopeGuard.MethodInScope
  cases hf : g.methodExcludes.find? fun r => method == upper r.pattern with
  | some rule =>
    have hmem := List.mem_of_find?_eq_some hf
    have hhit := List.find?_some hf
    simp only [ScopeGuard.methodExcludes, List.mem_filter, Bool.and_eq_true, beq_iff_eq] at hmem hhit
    refine ⟨fun h => by simp [ScopeDecision.allowed] at h, fun h => ?_⟩
    exact absurd hhit (h.1 rule hmem.1 hmem.2.1 hmem.2.2)
  | none =>
    have hnone : ∀ r ∈ g.rules, r.kind = .method → r.effect = .excludes →
        method ≠ upper r.pattern := by
      intro r hr hk he heq
      refine absurd (List.find?_eq_none.mp hf r ?_) (by simpa using heq)
      simp [ScopeGuard.methodExcludes, hr, hk, he]
    by_cases ha : method ∈ g.allowedMethods
    · simp only [if_pos ha]
      exact ⟨fun _ => ⟨hnone, ha⟩, fun _ => rfl⟩
    · simp only [if_neg ha]
      exact ⟨fun h => by simp [ScopeDecision.allowed] at h, fun h => absurd h.2 ha⟩

theorem pathExcludes_none_iff (g : ScopeGuard) (path : Str) :
    firstPathMatch path g.pathExcludes = .ok none ↔
      ∀ r ∈ g.rules, r.isPath = true → r.effect = .excludes →
        pathRuleMatches r path = .ok false := by
  rw [firstPathMatch_none_iff]
  simp only [ScopeGuard.pathExcludes, List.mem_filter, Bool.and_eq_true, beq_iff_eq]
  constructor
  · intro h r hr hp he
    exact h r ⟨hr, hp, he⟩
  · rintro h r ⟨hr, hp, he⟩
    exact h r hr hp he

theorem evaluatePath_allowed_iff (g : ScopeGuard) (method path : Str) :
    (∃ d, g.evaluatePath method path = .ok d ∧ d.allowed = true) ↔
      g.PathInScope path ∧ g.MethodInScope method := by
  unfold ScopeGuard.evaluatePath ScopeGuard.PathInScope
  rw [← pathExcludes_none_iff, ← evaluateMethod_allowed_iff]
  cases hx : firstPathMatch path g.pathExcludes with
  | error e => simp [bind, Except.bind]
  | ok m =>
    cases m with
    | some rule => simp [bind, Except.bind, pure, Except.pure, ScopeDecision.allowed]
    | none =>
      by_cases hinc : g.pathIncludes = []
      · simp [bind, Except.bind, pure, Except.pure, hinc, firstPathMatch]
      · cases firstPathMatch path g.pathIncludes with
        | error e => simp [bind, Except.bind, hinc]
        | ok r =>
          cases r <;> simp [bind, Except.bind, pure, Except.pure, hinc, ScopeDecision.allowed]

/-- **The verdict of `evaluate`**: a request is allowed exactly when
ownership is verified, its URL parses, and host, path and method are all
in scope. -/
theorem allows_iff (g : ScopeGuard) (method url : Str) :
    g.allows method url = true ↔ g.targetOwnershipVerified = true ∧
      ∃ parts, urlsplit url = .ok parts ∧ g.HostInScope (parts.hostname.getD []) ∧
        g.PathInScope parts.pathOrRoot ∧ g.MethodInScope (upper method) := by
  have hallows : g.allows method url = true ↔
      ∃ d, g.evaluate method url = .ok d ∧ d.allowed = true := by
    unfold ScopeGuard.allows
    cases g.evaluate method url <;> simp
  rw [hallows]
  unfold ScopeGuard.evaluate
  cases hv : g.targetOwnershipVerified with
  | false => simp [pure, Except.pure, ScopeDecision.allowed]
  | true =>
    cases hu : urlsplit url with
    | error e => simp [bind, Except.bind]
    | ok parts =>
      have hhost : g.allowedHosts.any (hostMatches (parts.hostname.getD [])) = true ↔
          g.HostInScope (parts.hostname.getD []) := by
        simp [ScopeGuard.HostInScope, List.any_eq_true]
      simp only [Bool.not_true, Bool.false_eq_true, if_false, bind, Except.bind, true_and,
        Except.ok.injEq, exists_eq_left']
      rw [← hhost, ← evaluatePath_allowed_iff]
      cases g.allowedHosts.any (hostMatches (parts.hostname.getD [])) <;>
        simp [pure, Except.pure, ScopeDecision.allowed]

/-! ## Exclude rules

`evaluate` has a block for path rules and one for method rules, and none
for host rules: an exclude rule of kind `host` is accepted by the API,
stored, loaded into the guard and never looked at. -/

/-- The rule matches the request, each kind by the code's own predicate. -/
def RuleMatches (r : ScopeRule) (method url : Str) : Prop :=
  match r.kind with
  | .host => ∃ parts, urlsplit url = .ok parts ∧
      hostMatches (parts.hostname.getD []) r.pattern = true
  | .pathPrefix | .pathRegex => ∃ parts, urlsplit url = .ok parts ∧
      pathRuleMatches r parts.pathOrRoot = .ok true
  | .method => upper method = upper r.pattern

/-- No exclude rule of kind `host` matches the request, or something else
stops it: its host is outside the allowed hosts, a path or method rule
blocks it, or it does not parse. -/
def ScopeGuard.HostExcludesIdle (g : ScopeGuard) (method url : Str) : Prop :=
  (∀ r ∈ g.rules, r.kind = .host → r.effect = .excludes → ¬ RuleMatches r method url) ∨
    ∀ parts, urlsplit url = .ok parts →
      ¬ g.HostInScope (parts.hostname.getD []) ∨ ¬ g.PathInScope parts.pathOrRoot ∨
        ¬ g.MethodInScope (upper method)

/-- A matching exclude rule that is not a host rule stops the request. -/
theorem allows_eq_false_of_exclude {g : ScopeGuard} {r : ScopeRule} {method url : Str}
    (hr : r ∈ g.rules) (he : r.effect = .excludes) (hk : r.kind ≠ .host)
    (hm : RuleMatches r method url) : g.allows method url = false := by
  rw [Bool.eq_false_iff]
  intro hallow
  obtain ⟨-, parts, hparts, -, ⟨hpath, -⟩, hmethod, -⟩ := (allows_iff g method url).mp hallow
  cases hkind : r.kind with
  | host => exact hk hkind
  | method => exact hmethod r hr hkind he (by simpa [RuleMatches, hkind] using hm)
  | pathPrefix | pathRegex =>
    obtain ⟨parts', hparts', htrue⟩ : ∃ parts, urlsplit url = .ok parts ∧
        pathRuleMatches r parts.pathOrRoot = .ok true := by
      simpa [RuleMatches, hkind] using hm
    obtain rfl : parts = parts' := by simpa [hparts] using hparts'
    have hfalse := hpath r hr (by simp [ScopeRule.isPath, hkind]) he
    simp [htrue] at hfalse

/-- **Exclude rules win exactly when no host exclude rule had to decide.** -/
theorem exclude_wins_iff (allowedHosts : List Str) (rules : List ScopeRule) (methods : List Str)
    (method url : Str) :
    ((∃ r ∈ rules, r.effect = .excludes ∧ RuleMatches r method url) →
        (ScopeGuard.init allowedHosts rules true methods).allows method url = false) ↔
      (ScopeGuard.init allowedHosts rules true methods).HostExcludesIdle method url := by
  constructor
  · intro hwin
    by_cases hhost : ∃ r ∈ rules, r.kind = .host ∧ r.effect = .excludes ∧ RuleMatches r method url
    · obtain ⟨r, hr, -, he, hm⟩ := hhost
      have hstop := hwin ⟨r, hr, he, hm⟩
      refine Or.inr fun parts hparts => ?_
      by_contra hall
      push Not at hall
      rw [Bool.eq_false_iff] at hstop
      exact hstop ((allows_iff _ _ _).mpr ⟨rfl, parts, hparts, hall.1, hall.2.1, hall.2.2⟩)
    · refine Or.inl fun r hr hk he hm => hhost ⟨r, hr, hk, he, hm⟩
  · rintro (hidle | hstop) ⟨r, hr, he, hm⟩
    · exact allows_eq_false_of_exclude hr he (fun hk => hidle r hr hk he hm) hm
    · rw [Bool.eq_false_iff]
      intro hallow
      obtain ⟨-, parts, hparts, hhost, hpath, hmethod⟩ := (allows_iff _ _ _).mp hallow
      rcases hstop parts hparts with h | h | h
      · exact h hhost
      · exact h hpath
      · exact h hmethod

/-- A customer's rule that takes one subdomain out of scope. -/
def billingExclude : ScopeRule := ⟨.host, "billing.acme.test".toList, .excludes, []⟩

omit [PyRuntime] in
/-- The rule matches the request and the guard allows the request. -/
theorem exclude_host_rule_ignored :
    let _ := PyRuntime.ascii
    let hosts := ["acme.test".toList, "*.acme.test".toList]
    let url := "https://billing.acme.test/".toList
    ¬ ((∃ r ∈ [billingExclude], r.effect = .excludes ∧ RuleMatches r "GET".toList url) →
        (ScopeGuard.init hosts [billingExclude] true).allows "GET".toList url = false) := by
  intro runtime hosts url hwin
  have hallow : (ScopeGuard.init hosts [billingExclude] true).allows "GET".toList url = true := by
    decide +kernel
  have hmatch : RuleMatches billingExclude "GET".toList url :=
    ⟨⟨"https".toList, "billing.acme.test".toList, "/".toList, [], []⟩, by decide +kernel,
      by decide +kernel⟩
  rw [hwin ⟨billingExclude, List.mem_singleton_self _, rfl, hmatch⟩] at hallow
  exact Bool.false_ne_true hallow

/-! ## Host patterns and label lists

`_host_matches` lower-cases both texts, strips trailing dots and compares
characters. On well-formed hosts that is a comparison of folded label
lists: equality for a bare pattern, a proper suffix for a wildcard. -/

/-- A non-empty list of non-empty dot-free ASCII labels. -/
structure HostLabels (ls : List Str) : Prop where
  ne_nil : ls ≠ []
  label_ne_nil : ∀ l ∈ ls, l ≠ []
  ascii : ∀ l ∈ ls, isAscii l = true
  dot_free : LabelsFree '.' ls

/-- The labels with case folded away. -/
def foldLabels (ls : List Str) : List Str := ls.map fun l => l.map Char.toLower

/-- The text of a host: its labels joined by dots, with or without the
dot of the root zone at the end. -/
def hostText (ls : List Str) (rootDot : Bool) : Str :=
  joinLabels '.' ls ++ if rootDot then ['.'] else []

section Labels

omit [PyRuntime]

/-- A statement about ASCII characters is a check of 128 cases. -/
theorem ascii_forall {P : Char → Prop} (h : ∀ n : Fin 128, P (Char.ofNat n)) {c : Char}
    (hc : isAsciiChar c = true) : P c := by
  have hn : c.toNat < 128 := by simpa [isAsciiChar] using hc
  simpa [Char.ofNat_toNat] using h ⟨c.toNat, hn⟩

theorem toLower_eq_dot {c : Char} (hc : isAsciiChar c = true) (h : c.toLower = '.') : c = '.' :=
  ascii_forall (P := fun c => c.toLower = '.' → c = '.') (by decide) hc h

theorem toLower_eq_star {c : Char} (hc : isAsciiChar c = true) (h : c.toLower = '*') : c = '*' :=
  ascii_forall (P := fun c => c.toLower = '*' → c = '*') (by decide) hc h

theorem isAscii_joinLabels {ls : List Str} (h : ∀ l ∈ ls, isAscii l = true) :
    isAscii (joinLabels '.' ls) = true := by
  induction ls with
  | nil => rfl
  | cons l ls ih =>
    cases ls with
    | nil => simpa using h l
    | cons m ms =>
      rw [joinLabels_cons _ _ (by simp)]
      have hl := h l (by simp)
      have hrest := ih fun x hx => h x (List.mem_cons_of_mem _ hx)
      simp only [isAscii, List.all_append, List.all_cons] at hl hrest ⊢
      simp [hl, hrest, isAsciiChar]

theorem map_joinLabels (f : Char → Char) (hf : f '.' = '.') (ls : List Str) :
    (joinLabels '.' ls).map f = joinLabels '.' (ls.map (List.map f)) := by
  induction ls with
  | nil => rfl
  | cons l ls ih =>
    cases ls with
    | nil => simp
    | cons m ms =>
      rw [joinLabels_cons _ _ (by simp), List.map_append, List.map_cons, hf, ih,
        List.map_cons (l := m :: ms), joinLabels_cons _ _ (by simp)]

/-- Folding case keeps a label list well formed. -/
theorem HostLabels.fold {ls : List Str} (h : HostLabels ls) :
    foldLabels ls ≠ [] ∧ (∀ l ∈ foldLabels ls, l ≠ []) ∧ LabelsFree '.' (foldLabels ls) := by
  refine ⟨by simpa [foldLabels] using h.ne_nil, ?_, ?_⟩
  · intro l hl
    obtain ⟨m, hm, rfl⟩ := List.mem_map.mp hl
    simpa using h.label_ne_nil m hm
  · intro l hl hdot
    obtain ⟨m, hm, rfl⟩ := List.mem_map.mp hl
    obtain ⟨c, hc, hlow⟩ := List.mem_map.mp hdot
    have hascii := List.all_eq_true.mp (h.ascii m hm) c hc
    exact h.dot_free m hm (toLower_eq_dot hascii hlow ▸ hc)

/-- Stripping trailing dots from a folded host leaves its joined labels. -/
theorem rstrip_fold {ls : List Str} (h : HostLabels ls) (rootDot : Bool) :
    rstripChar '.' (hostText (foldLabels ls) rootDot) = joinLabels '.' (foldLabels ls) := by
  obtain ⟨hne, hlabels, hfree⟩ := h.fold
  obtain ⟨hjoin, hlast⟩ := joinLabels_getLast_ne hfree hlabels hne
  have hself : rstripChar '.' (joinLabels '.' (foldLabels ls)) = joinLabels '.' (foldLabels ls) := by
    rw [rstripChar, List.rdropWhile_eq_self_iff]
    intro _
    simpa using hlast
  cases rootDot with
  | false => simpa [hostText] using hself
  | true =>
    rw [hostText, if_pos rfl, rstripChar, List.rdropWhile_concat_pos _ _ _ (by simp)]
    exact hself

end Labels

/-- The lower-cased text of a host is the text of its folded labels. -/
theorem lower_hostText {ls : List Str} (h : HostLabels ls) (rootDot : Bool) :
    lower (hostText ls rootDot) = hostText (foldLabels ls) rootDot := by
  have hascii : isAscii (hostText ls rootDot) = true := by
    have hjoin := isAscii_joinLabels h.ascii
    simp only [isAscii, hostText, List.all_append, Bool.and_eq_true] at hjoin ⊢
    exact ⟨hjoin, by cases rootDot <;> rfl⟩
  rw [PyRuntime.lower_ascii _ hascii, hostText, List.map_append,
    map_joinLabels Char.toLower (by decide)]
  cases rootDot <;> rfl

/-- A bare pattern matches the hosts with the same labels. -/
theorem hostMatches_bare_iff {hs rs : List Str} (hh : HostLabels hs) (hr : HostLabels rs)
    (hstar : ∀ l ∈ rs, '*' ∉ l) (rootDot : Bool) :
    hostMatches (hostText hs rootDot) (hostText rs false) = true ↔
      foldLabels hs = foldLabels rs := by
  have hplain : startswith (joinLabels '.' (foldLabels rs)) "*.".toList = false := by
    rw [Bool.eq_false_iff]
    intro hstart
    have hmem : '*' ∈ joinLabels '.' (foldLabels rs) :=
      (List.isPrefixOf_iff_prefix.mp hstart).subset (by simp)
    obtain h | ⟨l, hl, hmem⟩ := mem_joinLabels hmem
    · exact absurd h (by decide)
    · obtain ⟨m, hm, rfl⟩ := List.mem_map.mp hl
      obtain ⟨c, hc, hlow⟩ := List.mem_map.mp hmem
      exact hstar m hm (toLower_eq_star (List.all_eq_true.mp (hr.ascii m hm) c hc) hlow ▸ hc)
  obtain ⟨hhne, -, hhfree⟩ := hh.fold
  obtain ⟨hrne, -, hrfree⟩ := hr.fold
  simp only [hostMatches, lower_hostText hh, lower_hostText hr, rstrip_fold hh, rstrip_fold hr,
    hplain, Bool.false_eq_true, if_false, beq_iff_eq]
  exact ⟨joinLabels_inj hhfree hrfree hhne hrne, fun h => by rw [h]⟩

/-- A wildcard pattern matches the hosts with the labels below it. -/
theorem hostMatches_wildcard_iff {hs rs : List Str} (hh : HostLabels hs) (hr : HostLabels rs)
    (rootDot : Bool) :
    hostMatches (hostText hs rootDot) ("*.".toList ++ hostText rs false) = true ↔
      ∃ pre, pre ≠ [] ∧ foldLabels hs = pre ++ foldLabels rs := by
  -- The wildcard is the host text of one more label, `*`.
  have hpattern : "*.".toList ++ hostText rs false = hostText (['*'] :: rs) false := by
    simp [hostText, joinLabels_cons _ _ hr.ne_nil]
  have hwild : HostLabels (['*'] :: rs) :=
    ⟨by simp, by simpa using hr.label_ne_nil, by simpa [isAscii, isAsciiChar] using hr.ascii,
      by simpa [LabelsFree] using hr.dot_free⟩
  obtain ⟨hhne, -, hhfree⟩ := hh.fold
  obtain ⟨hrne, hrlabels, hrfree⟩ := hr.fold
  have hjoin : joinLabels '.' (foldLabels (['*'] :: rs)) =
      '*' :: '.' :: joinLabels '.' (foldLabels rs) := by
    have hcons : foldLabels (['*'] :: rs) = ['*'] :: foldLabels rs := rfl
    rw [hcons, joinLabels_cons _ _ hrne]
    rfl
  obtain ⟨a, rest, hhead, ha⟩ := joinLabels_head_ne hrfree hrlabels hrne
  have hlstrip : lstripChar '.' ('.' :: joinLabels '.' (foldLabels rs)) =
      joinLabels '.' (foldLabels rs) := by
    rw [hhead]
    simp [lstripChar, ha]
  have hstart : startswith ('*' :: '.' :: joinLabels '.' (foldLabels rs)) "*.".toList = true := by
    simp [startswith]
  rw [hpattern, ← sep_joinLabels_suffix_iff hrfree hhfree hrne hhne]
  simp only [hostMatches, lower_hostText hh, lower_hostText hwild, rstrip_fold hh,
    rstrip_fold hwild, hjoin, List.drop_one, List.tail_cons, hlstrip, hstart, if_true, endswith,
    Bool.and_eq_true, List.isSuffixOf_iff_suffix, bne_iff_ne, and_iff_left_iff_imp]
  -- A host with the suffix is longer than the bare root, so the inequality is free.
  intro hsuffix heq
  have hlen := hsuffix.length_le
  simp only [heq, List.length_cons] at hlen
  omega

end Sentinel.Core
