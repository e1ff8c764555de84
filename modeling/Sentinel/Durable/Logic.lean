/-
Sentinel.Durable.Logic — preconditions of programs that commit.

`wp G p Q E disk session` says that the complete run of `p`, started with
`disk` committed last and `session` in memory, commits along `G`: each
commit is related by `G` to the one before it. If it returns, `Q` holds of
the result, the last commit and the session; if it stops with an error,
`E` holds of the error. One rule for each operation; loops and programs
that never commit have a rule of their own.
-/
import Sentinel.Durable.Program
import Mathlib.Data.List.Chain

namespace Sentinel.Durable

variable {σ ε α β τ : Type} {G : σ → σ → Prop} {E : ε → Prop} {disk session : σ}

def wp (G : σ → σ → Prop) (p : Program σ ε α) (Q : α → σ → σ → Prop) (E : ε → Prop)
    (disk session : σ) : Prop :=
  List.IsChain G (disk :: (p session).committed) ∧
    match (p session).result with
    | .ok (a, s) => Q a ((p session).committed.getLastD disk) s
    | .error e => E e

/-! ## One rule for each operation -/

@[simp] theorem wp_pure (a : α) (Q : α → σ → σ → Prop) :
    wp G (pure a : Program σ ε α) Q E disk session ↔ Q a disk session := by
  simp [wp, pure, Outcome.committed]

@[simp] theorem wp_point (Q : Unit → σ → σ → Prop) :
    wp G (Program.point : Program σ ε Unit) Q E disk session ↔ Q () disk session := by
  simp [wp, Program.point, Outcome.committed, Event.committed, List.filterMap_cons]

@[simp] theorem wp_get (Q : σ → σ → σ → Prop) :
    wp G (Program.get : Program σ ε σ) Q E disk session ↔ Q session disk session := by
  simp [wp, Program.get, Outcome.committed]

@[simp] theorem wp_modify (f : σ → σ) (Q : Unit → σ → σ → Prop) :
    wp G (Program.modify f : Program σ ε Unit) Q E disk session ↔ Q () disk (f session) := by
  simp [wp, Program.modify, Outcome.committed]

@[simp] theorem wp_raise (e : ε) (Q : α → σ → σ → Prop) :
    wp G (Program.raise e : Program σ ε α) Q E disk session ↔ E e := by
  simp [wp, Program.raise, Outcome.committed]

/-- The commit has to be in order; from then on the session is on disk. -/
@[simp] theorem wp_commit (Q : Unit → σ → σ → Prop) :
    wp G (Program.commit : Program σ ε Unit) Q E disk session ↔
      G disk session ∧ Q () session session := by
  simp [wp, Program.commit, Outcome.committed, Event.committed, List.filterMap_cons]

theorem isChain_append_getLastD (xs ys : List σ) :
    List.IsChain G (disk :: (xs ++ ys)) ↔
      List.IsChain G (disk :: xs) ∧ List.IsChain G (xs.getLastD disk :: ys) := by
  induction xs generalizing disk with
  | nil => simp
  | cons x xs ih => simp only [List.cons_append, List.isChain_cons_cons, ih, and_assoc,
      List.getLastD_cons]

/-- **Sequencing.** -/
@[simp] theorem wp_bind (p : Program σ ε α) (f : α → Program σ ε β) (Q : β → σ → σ → Prop) :
    wp G (p >>= f) Q E disk session ↔
      wp G p (fun a disk' session' => wp G (f a) Q E disk' session') E disk session := by
  rcases hp : p session with ⟨events, _ | ⟨a, s⟩⟩
  · simp [wp, bind, Outcome.committed, hp]
  · have hbind : (p >>= f) session = ⟨events ++ (f a s).events, (f a s).result⟩ := by
      simp only [bind, hp]
    simp only [wp, hbind, hp, Outcome.committed, List.filterMap_append, isChain_append_getLastD,
      getLastD_append, and_assoc]

/-- One step of a program, in front of the rest. -/
theorem wp_seq {p : Program σ ε α} {f : α → Program σ ε β} {Q : β → σ → σ → Prop}
    (h : wp G p (fun a disk' session' => wp G (f a) Q E disk' session') E disk session) :
    wp G (p >>= f) Q E disk session :=
  (wp_bind p f Q).mpr h

theorem wp_ofExcept (x : Except ε α) (Q : α → σ → σ → Prop) :
    wp G (Program.ofExcept x) Q E disk session ↔
      match x with
      | .ok a => Q a disk session
      | .error e => E e := by
  cases x with
  | ok a => exact wp_pure a Q
  | error e => exact wp_raise e Q

/-- **Consequence.** -/
theorem wp_mono {p : Program σ ε α} {Q Q' : α → σ → σ → Prop} {E' : ε → Prop}
    (h : wp G p Q E disk session) (hQ : ∀ a d s, Q a d s → Q' a d s) (hE : ∀ e, E e → E' e) :
    wp G p Q' E' disk session := by
  refine ⟨h.1, ?_⟩
  have hend := h.2
  split at hend
  · exact hQ _ _ _ hend
  · exact hE _ hend

/-! ## Programs that never commit -/

/-- Whatever `p` does, it commits nothing, keeps the view of the session,
and its errors satisfy `E`. -/
def Keeps (view : σ → τ) (E : ε → Prop) (p : Program σ ε α) : Prop :=
  ∀ disk session, wp (fun _ _ => False) p (fun _ d s => d = disk ∧ view s = view session) E
    disk session

/-- Such a program does not change what is said of the view and the disk. -/
theorem Keeps.wp {view : σ → τ} {p : Program σ ε α} (h : Keeps view E p) {Q : α → σ → σ → Prop}
    (hQ : ∀ a s, view s = view session → Q a disk s) : wp G p Q E disk session := by
  obtain ⟨hchain, hend⟩ := h disk session
  have hnone : (p session).committed = [] := by
    cases hcommitted : (p session).committed with
    | nil => rfl
    | cons c cs =>
      rw [hcommitted, List.isChain_cons_cons] at hchain
      exact hchain.1.elim
  refine ⟨by simp [hnone], ?_⟩
  split at hend
  · next a s hresult =>
    rw [hnone] at hend ⊢
    exact hQ a s hend.2
  · exact hend

/-- What keeps a view keeps what can be read off it. -/
theorem Keeps.coarsen {ρ : Type} {view : σ → τ} {p : Program σ ε α} (f : τ → ρ)
    (h : Keeps view E p) : Keeps (fun s => f (view s)) E p := fun _ _ =>
  h.wp fun _ _ hview => ⟨rfl, congrArg f hview⟩

theorem Keeps.pure (view : σ → τ) (a : α) : Keeps view E (Pure.pure a : Program σ ε α) :=
  fun _ _ => (wp_pure a _).mpr ⟨rfl, rfl⟩

theorem Keeps.point (view : σ → τ) : Keeps view E (Program.point : Program σ ε Unit) :=
  fun _ _ => (wp_point _).mpr ⟨rfl, rfl⟩

theorem Keeps.get (view : σ → τ) : Keeps view E (Program.get : Program σ ε σ) :=
  fun _ _ => (wp_get _).mpr ⟨rfl, rfl⟩

theorem Keeps.modify {view : σ → τ} {f : σ → σ} (h : ∀ s, view (f s) = view s) :
    Keeps view E (Program.modify f : Program σ ε Unit) :=
  fun _ session => (wp_modify f _).mpr ⟨rfl, h session⟩

theorem Keeps.raise (view : σ → τ) {e : ε} (h : E e) :
    Keeps view E (Program.raise e : Program σ ε α) :=
  fun _ _ => (wp_raise e _).mpr h

theorem Keeps.bind {view : σ → τ} {p : Program σ ε α} {f : α → Program σ ε β}
    (hp : Keeps view E p) (hf : ∀ a, Keeps view E (f a)) : Keeps view E (p >>= f) := by
  intro disk session
  rw [wp_bind]
  refine hp.wp fun a s hview => ?_
  exact hview ▸ hf a disk s

/-- A loop keeps what its body keeps. -/
theorem Keeps.foldlM {view : σ → τ} {f : β → α → Program σ ε β}
    (h : ∀ b a, Keeps view E (f b a)) (b : β) (xs : List α) : Keeps view E (xs.foldlM f b) := by
  induction xs generalizing b with
  | nil => exact Keeps.pure view b
  | cons x xs ih =>
    rw [List.foldlM_cons]
    exact (h b x).bind ih

/-- What is proved of such a program holds with the view unchanged. -/
theorem Keeps.frame {view : σ → τ} {E' : ε → Prop} {p : Program σ ε α} (hp : Keeps view E' p)
    {P : α → σ → Prop} (h : Durable.wp G p (fun a d s => d = disk ∧ P a s) E disk session)
    {Q : α → σ → σ → Prop} (hQ : ∀ a s, P a s → view s = view session → Q a disk s) :
    Durable.wp G p Q E disk session := by
  obtain ⟨hchain, hend⟩ := h
  obtain ⟨-, hkept⟩ := hp disk session
  refine ⟨hchain, ?_⟩
  split at hend
  · next a s hresult =>
    rw [hresult] at hkept
    rw [hend.1]
    exact hQ a s hend.2 hkept.2
  · exact hend

/-! ## Runs that are ended from outside, and successive runs -/

/-- Every run of `p`, however it ends, commits along `G`. -/
theorem attempt_isChain {p : Program σ ε α} {Q : α → σ → σ → Prop}
    (h : wp G p Q E disk disk) (stop : Option Nat) :
    List.IsChain G (disk :: (p.attempt stop disk).committed) :=
  List.IsChain.prefix h.1 ((List.prefix_cons_inj _).mpr (attempt_committed_isPrefix p stop disk))

/-- Every run of `p` that stops with an error stops with one that satisfies `E`. -/
theorem attempt_raised {p : Program σ ε α} {Q : α → σ → σ → Prop}
    (h : wp G p Q E disk disk) {stop : Option Nat} {e : ε}
    (hend : (p.attempt stop disk).ending = .raised e) : E e := by
  have hresult := h.2
  rwa [result_of_attempt_raised hend] at hresult

/-- What `G` says of every next state holds of everything committed. -/
theorem forall_of_isChain {P : σ → Prop} (hG : ∀ s t, G s t → P t) {cs : List σ}
    (h : List.IsChain G (disk :: cs)) : ∀ c ∈ cs, P c := by
  induction cs generalizing disk with
  | nil => simp
  | cons c cs ih =>
    rw [List.isChain_cons_cons] at h
    intro x hx
    rcases List.mem_cons.mp hx with rfl | hx
    · exact hG _ _ h.1
    · exact ih h.2 x hx

/-- The state on disk is the old one or a committed one. -/
theorem persisted_cases (r : Report σ ε α) (s : σ) :
    r.committed = [] ∧ r.persisted s = s ∨ r.persisted s ∈ r.committed := by
  obtain ⟨committed, ending⟩ := r
  cases committed with
  | nil => exact Or.inl ⟨rfl, rfl⟩
  | cons c cs =>
    right
    rw [Report.persisted, List.getLastD_cons, ← List.getLast_eq_getLastD (by simp)]
    exact List.getLast_mem _

/-- Where `G` allows no commit, nothing changes on disk. -/
theorem persisted_of_refused {p : Program σ ε α} {Q : α → σ → σ → Prop}
    (h : wp (fun _ _ => False) p Q E disk disk) (stop : Option Nat) :
    (p.attempt stop disk).committed = [] := by
  have hchain := attempt_isChain h stop
  refine List.eq_nil_iff_forall_not_mem.mpr fun c hc => ?_
  exact forall_of_isChain (P := fun _ => False) (fun _ _ h => h) hchain c hc

/-- **Last commits.** A run that left a state from which `G` does not lead
on left what the complete run leaves. -/
theorem persisted_of_final {p : Program σ ε α} {Q : α → σ → σ → Prop}
    (h : wp G p Q E disk disk) (stop : Option Nat)
    (hfinal : ∀ t, ¬ G ((p.attempt stop disk).persisted disk) t) :
    (p.attempt stop disk).persisted disk = (p.attempt none disk).persisted disk := by
  obtain ⟨rest, hrest⟩ := attempt_committed_isPrefix p stop disk
  have hchain := h.1
  rw [← hrest, isChain_append_getLastD] at hchain
  have hnone : rest = [] := by
    cases rest with
    | nil => rfl
    | cons t ts => exact (hfinal t (List.isChain_cons_cons.mp hchain.2).1).elim
  have hcomplete : (p.attempt none disk).committed = (p disk).committed := rfl
  rw [Report.persisted, Report.persisted, hcomplete, ← hrest, hnone, List.append_nil]

/-- **The rule of successive runs.** If every attempt that is made commits
along `G`, then so do all of them together. -/
theorem committedBy_isChain {attempts : List (Attempt σ ε α)}
    (h : Trace.Along Attempt.next
      (fun s a => List.IsChain G (s :: (a.report s).committed)) disk attempts) :
    List.IsChain G (disk :: committedBy disk attempts) := by
  induction attempts generalizing disk with
  | nil => exact List.isChain_singleton disk
  | cons a attempts ih => exact (isChain_append_getLastD _ _).mpr ⟨h.1, ih h.2⟩

end Sentinel.Durable
