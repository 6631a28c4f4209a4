import Meno.Lib.World

/-!
# Lib.Tenants

Rows with owners, in a store that many callers share. `Confined` is the discipline of `World.Inv`
caller by caller: each caller's writes are in order for that caller. Where being in order means to
store a row of the caller's tenant, and not in the place of another tenant's, a tenant's rows are
what the tenant's own commits have made of them, whatever order the calls of all callers are
answered in (`rowOf_of_reaches`).
-/

namespace Lib

namespace World

variable {σ : Type → Type} {D W T E ρ ι : Type}

/-! ## Discipline, caller by caller -/

/-- Each write of a history is in order for its caller when the ones before it are done. -/
def LogChain (eng : Engine σ D W T E) (ok : ι → D → W → Prop) : D → List (ι × W) → Prop
  | _, [] => True
  | d, x :: log => ok x.1 d x.2 ∧ LogChain eng ok (eng.apply d x.2) log

section LogChain

variable {eng : Engine σ D W T E} {ok : ι → D → W → Prop}

theorem logChain_append {log log' : List (ι × W)} : ∀ {d : D},
    LogChain eng ok d (log ++ log') ↔
      LogChain eng ok d log ∧ LogChain eng ok (eng.applyAll d (log.map Prod.snd)) log' := by
  induction log with
  | nil => intro d; simp [LogChain]
  | cons x log ih =>
    intro d
    simp only [List.cons_append, LogChain, List.map_cons, Engine.applyAll_cons, ih, and_assoc]

theorem logChain_of_chain {i : ι} {ws : List W} :
    ∀ {d : D}, eng.Chain (ok i) d ws → LogChain eng ok d (ws.map fun x => (i, x)) := by
  induction ws with
  | nil => intro d _; trivial
  | cons w ws ih => exact fun h => ⟨h.1, ih h.2⟩

end LogChain

/-- Writes that are in order anywhere. -/
theorem chain_of_forall {eng : Engine σ D W T E} {ok : D → W → Prop} {ws : List W}
    (h : ∀ x ∈ ws, ∀ d, ok d x) : ∀ d : D, eng.Chain ok d ws := by
  induction ws with
  | nil => exact fun _ => trivial
  | cons x ws ih =>
    exact fun d => ⟨h x List.mem_cons_self d, ih (fun y hy => h y (List.mem_cons_of_mem _ hy)) _⟩

variable [DecidableEq ι] (eng : Engine σ D W T E)
  (good : ι → {β : Type} → σ β → Prop) (ok : ι → D → W → Prop)

/-- The history is in order for each write's caller, and so is what every open transaction would
add to it. -/
structure Confined (d₀ : D) (w : World σ D W T E ρ ι) : Prop where
  log : LogChain eng ok d₀ w.log
  pending : ∀ i, eng.Chain (ok i) w.committed (w.pending i)
  uses : ∀ i, Prog.Uses (AllGood (good i)) (w.callers i).prog

variable {eng} {κ R : Type} [DecidableEq κ] (K : Keyed eng κ R)

/-- What `World.Inv` says without any discipline: the store is made by the history, and open
transactions have written different rows. -/
abbrev Separate (d₀ : D) (w : World σ D W T E ρ ι) : Prop :=
  Inv K (fun _ => True) (fun _ _ => True) d₀ w

theorem anything_disciplined : Disciplined (K := K) (fun _ => True) (fun _ _ => True) where
  exec := by
    intro β c now d b ws _ _
    exact chain_of_forall (fun _ _ _ => trivial) d
  row _ _ _ _ _ := trivial

variable {K good ok} {d₀ : D}

theorem apart_of_reaches [LE T] {progs : ι → Prog (Cmd σ E) ρ} {t : T} {w : World σ D W T E ρ ι}
    (h : Reaches K progs d₀ t w) : Separate K d₀ w :=
  inv_of_reaches (anything_disciplined K) (fun i => uses_anything (progs i)) h

omit [DecidableEq ι] in
theorem confined_start {progs : ι → Prog (Cmd σ E) ρ} {t : T}
    (huses : ∀ i, Prog.Uses (AllGood (good i)) (progs i)) :
    Confined eng good ok d₀ (start d₀ t progs : World σ D W T E ρ ι) where
  log := trivial
  pending _ := trivial
  uses := huses

section Call

variable {w : World σ D W T E ρ ι} {i : ι} {β : Type} {c : Cmd σ E β} {k : β → Prog (Cmd σ E) ρ}
  {fault : Bool}

/-- What has to be known of one call: that what it commits is in order for its caller, apart from
the other open transactions, and that so is what it leaves pending. -/
theorem Confined.answer_of (hd : ∀ j, Disciplined (K := K) (good j) (ok j)) (ha : Separate K d₀ w)
    (h : Confined eng good ok d₀ w) (hp : (w.callers i).prog = .call c k)
    (hcommits : eng.Chain (ok i) w.committed (c.commits eng (w.session i c fault)))
    (hothers : ∀ j, j ≠ i → ∀ p ∈ w.pending j, ∀ x ∈ c.commits eng (w.session i c fault),
      K.key p ≠ K.key x)
    (hleft : eng.Chain (ok i) (w.answer eng i c k fault).committed
      ((w.answer eng i c k fault).pending i)) :
    Confined eng good ok d₀ (w.answer eng i c k fault) := by
  refine ⟨?_, ?_, ?_⟩
  · show LogChain eng ok d₀ (w.log ++ (c.commits eng (w.session i c fault)).map fun x => (i, x))
    rw [logChain_append, ha.replay]
    exact ⟨h.log, logChain_of_chain hcommits⟩
  · intro j
    by_cases hj : j = i
    · subst hj
      exact hleft
    · rw [pending_answer_other hj, committed_answer]
      exact chain_frame K (hd j).row (hothers j hj) (h.pending j)
  · intro j
    by_cases hj : j = i
    · subst hj
      have huse := h.uses j
      rw [hp] at huse
      rw [prog_answer_self]
      exact huse.2 _
    · rw [prog_answer_other hj]
      exact h.uses j

theorem Confined.call (hd : ∀ j, Disciplined (K := K) (good j) (ok j)) (ha : Separate K d₀ w)
    (h : Confined eng good ok d₀ w) (hp : (w.callers i).prog = .call c k)
    (hfree : w.Free K i c fault) : Confined eng good ok d₀ (w.answer eng i c k fault) := by
  cases c with
  | begin =>
    refine h.answer_of hd ha hp trivial (fun _ _ _ _ _ hx => by cases hx) ?_
    rw [committed_answer, pending_answer_self]
    rcases Cmd.pending_begin (w.session i .begin fault) with he | he
    · rw [he]
      exact h.pending i
    · rw [he]
      trivial
  | commit =>
    have hcom : ∀ x ∈ (Cmd.commit : Cmd σ E _).commits eng (w.session i .commit fault),
        x ∈ w.pending i := by
      intro x hx
      simp only [Cmd.commits] at hx
      split at hx
      · cases hx
      · exact hx
    refine h.answer_of hd ha hp ?_ ?_ ?_
    · simp only [Cmd.commits]
      split
      · trivial
      · exact h.pending i
    · intro j hj p hpj x hx
      exact ha.apart j i hj p hpj x (hcom x hx)
    · rw [pending_answer_self, Cmd.pending_commit]
      trivial
  | exec e c =>
    have hgood : good i c := by
      have huse := h.uses i
      rw [hp] at huse
      exact huse.1
    have hchain := writes_chain (e := e) (hd i) hgood (w.session i (.exec e c) fault)
    cases e with
    | pool =>
      refine h.answer_of hd ha hp hchain ?_ ?_
      · intro j _ p hpj x hx
        exact hfree j (fun _ => rfl) p hpj x hx
      · rw [pending_answer_self, Cmd.pending_pool, committed_answer]
        exact chain_frame K (hd i).row (hfree i fun _ => rfl) (h.pending i)
    | tx =>
      refine h.answer_of hd ha hp trivial (fun _ _ _ _ _ hx => by cases hx) ?_
      rw [pending_answer_self, Cmd.pending_tx, committed_answer, chain_append]
      exact ⟨h.pending i, hchain⟩

theorem Confined.rollback (h : Confined eng good ok d₀ w) (i : ι) :
    Confined eng good ok d₀ (w.rollback i) where
  log := h.log
  pending j := by
    by_cases hj : j = i
    · subst hj
      rw [pending_rollback_self]
      trivial
    · rw [pending_rollback_other hj]
      exact h.pending j
  uses j := by
    rw [prog_rollback]
    exact h.uses j

end Call

theorem Confined.step [LE T] (hd : ∀ i, Disciplined (K := K) (good i) (ok i))
    {w w' : World σ D W T E ρ ι} (ha : Separate K d₀ w) (h : Confined eng good ok d₀ w)
    (hs : Step K w w') : Confined eng good ok d₀ w' := by
  cases hs with
  | call fault hp hfree => exact h.call hd ha hp hfree
  | rollback hp => exact h.rollback _
  | tick ht => exact ⟨h.log, h.pending, h.uses⟩

theorem confined_of_reaches [LE T] (hd : ∀ i, Disciplined (K := K) (good i) (ok i))
    {progs : ι → Prog (Cmd σ E) ρ} (huses : ∀ i, Prog.Uses (AllGood (good i)) (progs i)) {t : T}
    {w : World σ D W T E ρ ι} (h : Reaches K progs d₀ t w) : Confined eng good ok d₀ w := by
  induction h with
  | refl => exact confined_start huses
  | tail hw hs ih => exact ih.step hd (apart_of_reaches hw) hs

/-! ## Owners -/

section Owners

variable {υ : Type} (K : Keyed eng κ R) (owner : R → υ)

/-- The write stores a row of `u`, and not in the place of another one's. -/
structure WritesOwn (u : υ) (d : D) (x : W) : Prop where
  stores : ∃ r, K.value x = some r ∧ owner r = u
  place : ∀ r, K.look d (K.key x) = some r → owner r = u

/-- A caller that acts for one tenant writes that tenant's rows; one that acts for all of them may
write anything. -/
def WritesFor (tenant : Option υ) (d : D) (x : W) : Prop :=
  ∀ u, tenant = some u → WritesOwn K owner u d x

variable [DecidableEq υ]

/-- The row of `k`, where it is one of `u`. -/
def rowOf (u : υ) (d : D) (k : κ) : Option R := (K.look d k).filter fun r => owner r = u

variable {K owner} {u v : υ} {d d' : D} {x : W}

omit [DecidableEq υ] in
theorem WritesOwn.congr (hsame : K.look d (K.key x) = K.look d' (K.key x))
    (h : WritesOwn K owner u d x) : WritesOwn K owner u d' x where
  stores := h.stores
  place r hr := h.place r (hsame.trans hr)

/-- Another tenant's write does nothing to the rows of `u`. -/
theorem rowOf_apply_other (h : WritesOwn K owner v d x) (hne : v ≠ u) (k : κ) :
    rowOf K owner u (eng.apply d x) k = rowOf K owner u d k := by
  unfold rowOf
  rw [K.look_apply]
  by_cases hk : k = K.key x
  · obtain ⟨r, hr, hown⟩ := h.stores
    rw [if_pos hk, hr, Option.filter_some, if_neg (by simp [hown, hne]), hk]
    cases hold : K.look d (K.key x) with
    | none => rfl
    | some r' => rw [Option.filter_some, if_neg (by simp [h.place r' hold, hne])]
  · rw [if_neg hk]

theorem rowOf_apply_congr (hsame : ∀ k, rowOf K owner u d k = rowOf K owner u d' k) (k : κ) :
    rowOf K owner u (eng.apply d x) k = rowOf K owner u (eng.apply d' x) k := by
  unfold rowOf at hsame ⊢
  rw [K.look_apply, K.look_apply]
  by_cases hk : k = K.key x
  · rw [if_pos hk, if_pos hk]
  · rw [if_neg hk, if_neg hk]
    exact hsame k

/-- The writes of a history by the callers that act for `u`, or for all. -/
def commitsFor (tenant : ι → Option υ) (u : υ) (log : List (ι × W)) : List W :=
  (log.filter fun x => (tenant x.1).all (· = u)).map Prod.snd

variable {tenant : ι → Option υ}

omit [DecidableEq ι] in
/-- The rest of a history is not about the rows of `u`. -/
theorem rowOf_log {log : List (ι × W)} : ∀ {d d' : D},
    LogChain eng (fun i => WritesFor K owner (tenant i)) d log →
    (∀ k, rowOf K owner u d k = rowOf K owner u d' k) → ∀ k,
      rowOf K owner u (eng.applyAll d (log.map Prod.snd)) k =
        rowOf K owner u (eng.applyAll d' (commitsFor tenant u log)) k := by
  induction log with
  | nil => exact fun _ hsame => hsame
  | cons x log ih =>
    intro d d' h hsame
    by_cases hx : (tenant x.1).all (· = u) = true
    · have hkeep : commitsFor tenant u (x :: log) = x.2 :: commitsFor tenant u log := by
        simp [commitsFor, hx]
      rw [hkeep]
      exact ih h.2 (rowOf_apply_congr hsame)
    · have hdrop : commitsFor tenant u (x :: log) = commitsFor tenant u log := by
        simp [commitsFor, hx]
      rw [hdrop]
      cases hv : tenant x.1 with
      | none => exact absurd (by rw [hv]; rfl) hx
      | some v =>
        have hne : v ≠ u := by
          intro heq
          exact hx (by simp [hv, heq])
        exact ih h.2 fun k => (rowOf_apply_other (h.1 v hv) hne k).trans (hsame k)

variable (tenant) in
/-- The rows of `u` are what has been made of them by the callers that act for `u`, or for all. -/
theorem rowOf_of_reaches [LE T] {good : ι → {β : Type} → σ β → Prop}
    (hd : ∀ i, Disciplined (K := K) (good i) (WritesFor K owner (tenant i)))
    {progs : ι → Prog (Cmd σ E) ρ} (huses : ∀ i, Prog.Uses (AllGood (good i)) (progs i)) {t : T}
    {w : World σ D W T E ρ ι} (h : Reaches K progs d₀ t w) (u : υ) (k : κ) :
    rowOf K owner u w.committed k =
      rowOf K owner u (eng.applyAll d₀ (commitsFor tenant u w.log)) k := by
  rw [← (apart_of_reaches h).replay]
  exact rowOf_log (confined_of_reaches hd huses h).log (fun _ => rfl) k

end Owners

end World

end Lib
