import Meno.Lib.Commits
import Mathlib.Data.Fintype.Basic

/-!
# Lib.Schedule

Runs that can be computed. A schedule names the callers in the order in which their next calls are
answered, each with the time of the answer; `runSchedule` executes it, and stops where a call would
have to wait or a commit does not meet the condition. What it returns is a world that a run
reaches, so a run of finitely many callers can be shown by evaluating it.
-/

namespace Lib

namespace World

variable {σ : Type → Type} {D W T E ρ ι : Type} [DecidableEq ι] {eng : Engine σ D W T E}
  {κ R : Type} [DecidableEq κ] (K : Keyed eng κ R)

instance decidableFree [Fintype ι] (w : World σ D W T E ρ ι) (i : ι) {β : Type} (c : Cmd σ E β)
    (fault : Bool) : Decidable (w.Free K i c fault) :=
  inferInstanceAs (Decidable (∀ j, (j = i → c.isTx = false) → ∀ p ∈ w.pending j,
    ∀ x ∈ c.writes eng (w.session i c fault), K.key p ≠ K.key x))

instance decidableChain (cond : D → W → Prop) [∀ d x, Decidable (cond d x)] :
    ∀ (d : D) (ws : List W), Decidable (eng.Chain cond d ws)
  | _, [] => isTrue trivial
  | d, x :: ws =>
    have := decidableChain cond (eng.apply d x) ws
    inferInstanceAs (Decidable (cond d x ∧ eng.Chain cond (eng.apply d x) ws))

variable (cond : D → W → Prop) [∀ d x, Decidable (cond d x)] [Fintype ι]

/-- Caller `i` has its next call answered; when it has none left, its transaction is rolled back. -/
def turn (w : World σ D W T E ρ ι) (i : ι) : Option (World σ D W T E ρ ι) :=
  match (w.callers i).prog with
  | .ret _ => some (w.rollback i)
  | .call c k =>
    if w.Free K i c false ∧ eng.Chain cond w.committed (c.commits eng (w.session i c false)) then
      some (w.answer eng i c k false)
    else none

variable [LE T] [DecidableLE T]

def runSchedule : List (T × ι) → World σ D W T E ρ ι → Option (World σ D W T E ρ ι)
  | [], w => some w
  | (t, i) :: rest, w =>
    if w.clock ≤ t then (turn K cond { w with clock := t } i).bind (runSchedule rest) else none

variable {K cond}

omit [DecidableLE T] in
theorem stepIf_turn {w w' : World σ D W T E ρ ι} {i : ι} (h : turn K cond w i = some w') :
    StepIf K cond w w' := by
  unfold turn at h
  split at h
  · rename_i r hp
    cases h
    have hnone : fresh w (w.rollback i) = [] := fresh_of_same rfl
    refine ⟨.rollback hp, ?_⟩
    rw [hnone]
    trivial
  · rename_i β c k hp
    split at h
    · rename_i hmeets
      cases h
      refine ⟨.call false hp hmeets.1, ?_⟩
      rw [fresh_answer]
      exact hmeets.2
    · cases h

theorem steps_runSchedule : ∀ (events : List (T × ι)) {w w' : World σ D W T E ρ ι},
    runSchedule K cond events w = some w' → Relation.ReflTransGen (StepIf K cond) w w' := by
  intro events
  induction events with
  | nil =>
    intro w w' h
    cases h
    exact .refl
  | cons e events ih =>
    intro w w' h
    rw [runSchedule] at h
    split at h
    · rename_i hle
      obtain ⟨w₁, hturn, hrest⟩ := Option.bind_eq_some_iff.1 h
      have hnone : fresh w { w with clock := e.1 } = [] := fresh_of_same rfl
      have htick : StepIf K cond w { w with clock := e.1 } := by
        refine ⟨.tick hle, ?_⟩
        rw [hnone]
        trivial
      exact .head htick (.head (stepIf_turn hturn) (ih hrest))
    · cases h

theorem reaches_runSchedule {progs : ι → Prog (Cmd σ E) ρ} {d : D} {t : T} (events : List (T × ι))
    {w w' : World σ D W T E ρ ι} (hw : ReachesIf K cond progs d t w)
    (h : runSchedule K cond events w = some w') : ReachesIf K cond progs d t w' :=
  Relation.ReflTransGen.trans hw (steps_runSchedule events h)

/-- What the evaluation of a schedule shows of the world it ends in, some run reaches. -/
theorem exists_of_runSchedule {progs : ι → Prog (Cmd σ E) ρ} {d : D} {t : T}
    {P : World σ D W T E ρ ι → Prop}
    (events : List (T × ι))
    (h : ∃ w ∈ runSchedule K cond events (start d t progs), P w) :
    ∃ w, ReachesIf K cond progs d t w ∧ P w := by
  obtain ⟨w, hw, hP⟩ := h
  exact ⟨w, reaches_runSchedule events .refl hw, hP⟩

/-- The same where the condition does not matter. -/
theorem reaches_of_runSchedule {progs : ι → Prog (Cmd σ E) ρ} {d : D} {t : T}
    {P : World σ D W T E ρ ι → Prop} (events : List (T × ι))
    (h : ∃ w ∈ runSchedule K (fun _ _ => True) events (start d t progs), P w) :
    ∃ w, Reaches K progs d t w ∧ P w := by
  obtain ⟨w, hw, hP⟩ := exists_of_runSchedule events h
  exact ⟨w, hw.reaches, hP⟩

end World

/-! ## Runs in which calls fail -/

/-- What is left of a program after statements on the pool that have all failed with `e`. -/
inductive Prog.FailsTo {σ : Type → Type} {E ρ : Type} (e : E) :
    Prog (Cmd σ E) ρ → Prog (Cmd σ E) ρ → Prop where
  | refl {p : Prog (Cmd σ E) ρ} : FailsTo e p p
  | pool {β : Type} {c : σ β} {k : Except E β → Prog (Cmd σ E) ρ} {q : Prog (Cmd σ E) ρ} :
      FailsTo e (k (.error e)) q → FailsTo e (.call (.exec .pool c) k) q

theorem Prog.FailsTo.bind {σ : Type → Type} {E ρ ρ' : Type} {e : E} {p q : Prog (Cmd σ E) ρ}
    {f : ρ → Prog (Cmd σ E) ρ'} (h : FailsTo e p q) : FailsTo e (p >>= f) (q >>= f) := by
  induction h with
  | refl => exact .refl
  | pool _ ih => exact .pool ih

namespace World

section Failing

variable {σ : Type → Type} {D W T E ρ ι : Type} [DecidableEq ι] {eng : Engine σ D W T E}
  {κ R : Type} [DecidableEq κ] {K : Keyed eng κ R} [LE T] {progs : ι → Prog (Cmd σ E) ρ} {d : D}
  {t : T} {w : World σ D W T E ρ ι} {i : ι}

/-- With no transaction open, a caller's statement on the pool can be answered. -/
theorem exists_pool {β : Type} {c : σ β} {k : Except E β → Prog (Cmd σ E) ρ} (fault : Bool)
    (hw : Reaches K progs d t w) (hidle : ∀ j, w.pending j = [])
    (hp : (w.callers i).prog = .call (.exec .pool c) k) :
    Reaches K progs d t (w.answer eng i (.exec .pool c) k fault) ∧
      ∀ j, (w.answer eng i (.exec .pool c) k fault).pending j = [] := by
  have hfree : w.Free K i (.exec .pool c) fault := by
    intro j _ p hpj
    rw [hidle j] at hpj
    cases hpj
  refine ⟨.tail hw (.call fault hp hfree), fun j => ?_⟩
  by_cases hj : j = i
  · subst hj
    rw [pending_answer_self, Cmd.pending_pool]
    exact hidle j
  · rw [pending_answer_other hj]
    exact hidle j

theorem exists_of_failsTo {p q : Prog (Cmd σ E) ρ} (h : p.FailsTo eng.fault q) :
    ∀ {w : World σ D W T E ρ ι}, Reaches K progs d t w → (∀ j, w.pending j = []) →
      (w.callers i).prog = p →
      ∃ w', Reaches K progs d t w' ∧ (∀ j, w'.pending j = []) ∧ (w'.callers i).prog = q := by
  induction h with
  | refl => exact fun hw hidle hp => ⟨_, hw, hidle, hp⟩
  | pool _ ih =>
    intro w hw hidle hp
    obtain ⟨hw', hidle'⟩ := exists_pool true hw hidle hp
    exact ih hw' hidle' prog_answer_self

end Failing

end World

end Lib
