import Meno.Lib.Commits

/-!
# Lib.Merge

Invariants that tie several rows together. One row write may break such an invariant and the next
one of the same transaction restore it, so no chain of single writes says that it holds. What helps
is that open transactions have written different rows: an invariant is `Mergeable` when two lists of
writes to different rows that each lead from a good store to a good store do so together. If every
statement keeps a mergeable invariant, the committed store has it in every world.
-/

namespace Lib

section Mergeable

variable {σ : Type → Type} {D W T E κ R : Type} [DecidableEq κ] {eng : Engine σ D W T E}
  (K : Keyed eng κ R)

/-- What `ws` and `ps` establish on different rows, they establish together. -/
def Mergeable (I : D → Prop) : Prop :=
  ∀ d ws ps, (∀ p ∈ ps, ∀ x ∈ ws, K.key p ≠ K.key x) → I d → I (eng.applyAll d ws) →
    I (eng.applyAll d ps) → I (eng.applyAll (eng.applyAll d ws) ps)

/-- The writes of a statement, as a whole, keep `I`. -/
def Engine.Keeps (eng : Engine σ D W T E) (I : D → Prop) {β : Type} (c : σ β) : Prop :=
  ∀ now d b ws, eng.exec c now d = .ok (b, ws) → I d → I (eng.applyAll d ws)

/-- Writes to other rows leave a row where it is. -/
theorem look_merge {ws ps : List W} {k : κ} (d : D) (h : ∀ x ∈ ws, K.key x ≠ k) :
    K.look (eng.applyAll (eng.applyAll d ws) ps) k = K.look (eng.applyAll d ps) k := by
  have hsame : K.look (eng.applyAll d ws) k = K.look d k := look_applyAll_other K ws d h
  revert hsame
  generalize eng.applyAll d ws = d'
  intro hsame
  induction ps generalizing d d' with
  | nil => exact hsame
  | cons p ps ih =>
    refine ih (eng.apply d p) (eng.apply d' p) ?_
    rw [K.look_apply, K.look_apply, hsame]

theorem Mergeable.and {I J : D → Prop} (hI : Mergeable K I) (hJ : Mergeable K J) :
    Mergeable K fun d => I d ∧ J d := by
  intro d ws ps hapart hd hws hps
  exact ⟨hI d ws ps hapart hd.1 hws.1 hps.1, hJ d ws ps hapart hd.2 hws.2 hps.2⟩

/-- What no write changes. -/
theorem mergeable_of_apply {I : D → Prop} (h : ∀ d x, I d → I (eng.apply d x)) :
    Mergeable K I := by
  intro d ws ps _ hd hws hps
  have hall : ∀ p ∈ ps, (fun _ : W => True) p := fun _ _ => trivial
  exact applyAll_invariant (fun d x hI _ => h d x hI) hws hall

/-- What is said of each row by itself. -/
theorem mergeable_rows {J : R → Prop} :
    Mergeable K fun d => ∀ k r, K.look d k = some r → J r := by
  intro d ws ps hapart _ hws hps k r hk
  by_cases hmine : ∃ x ∈ ws, K.key x = k
  · obtain ⟨x, hx, rfl⟩ := hmine
    refine hws (K.key x) r ?_
    rw [← hk]
    exact (look_applyAll_other K ps _ fun p hp => hapart p hp x hx).symm
  · refine hps k r ?_
    rw [← hk]
    exact (look_merge K d fun x hx he => hmine ⟨x, hx, he⟩).symm

/-- A number that a write changes by what it does to its row: on different rows the changes add
up. -/
theorem count_merge {m : D → Nat} {f : Option R → Nat}
    (hm : ∀ d x, m (eng.apply d x) + f (K.look d (K.key x)) = m d + f (K.value x)) {ws ps : List W}
    (d : D) (hapart : ∀ p ∈ ps, ∀ x ∈ ws, K.key p ≠ K.key x) :
    m (eng.applyAll (eng.applyAll d ws) ps) + m d =
      m (eng.applyAll d ws) + m (eng.applyAll d ps) := by
  have key : ∀ (ps : List W) (d d' : D),
      (∀ p ∈ ps, K.look d' (K.key p) = K.look d (K.key p)) →
      m (eng.applyAll d' ps) + m d = m d' + m (eng.applyAll d ps) := by
    intro ps
    induction ps with
    | nil => intro d d' _; rfl
    | cons p ps ih =>
      intro d d' hsame
      have hrest := ih (eng.apply d p) (eng.apply d' p) fun q hq => by
        rw [K.look_apply, K.look_apply, hsame q (List.mem_cons_of_mem _ hq)]
      have hd := hm d p
      have hd' := hm d' p
      rw [hsame p List.mem_cons_self] at hd'
      rw [Engine.applyAll_cons, Engine.applyAll_cons]
      omega
  refine key ps d _ fun p hp => ?_
  exact look_applyAll_other K ws d fun x hx => (hapart p hp x hx).symm

end Mergeable

namespace World

variable {σ : Type → Type} {D W T E ρ ι : Type} [DecidableEq ι] {eng : Engine σ D W T E}
  {κ R : Type} [DecidableEq κ] {K : Keyed eng κ R} {w w' : World σ D W T E ρ ι}

/-- The committed store has `I`, and has it also with the writes of any one open transaction. -/
structure Merged (eng : Engine σ D W T E) (I : D → Prop) (w : World σ D W T E ρ ι) : Prop where
  committed : I w.committed
  view : ∀ i, I (eng.applyAll w.committed (w.pending i))

section Call

variable {I : D → Prop} {i : ι} {β : Type} {c : Cmd σ E β} {k : β → Prog (Cmd σ E) ρ} {fault : Bool}

/-- What has to be known of one call: what it commits and what it leaves pending keep `I`. -/
theorem Merged.answer_of (hmerge : Mergeable K I) (h : w.Merged eng I)
    (hcommits : I (eng.applyAll w.committed (c.commits eng (w.session i c fault))))
    (hothers : ∀ j, j ≠ i → ∀ p ∈ w.pending j, ∀ x ∈ c.commits eng (w.session i c fault),
      K.key p ≠ K.key x)
    (hleft : I (eng.applyAll (w.answer eng i c k fault).committed
      ((w.answer eng i c k fault).pending i))) :
    (w.answer eng i c k fault).Merged eng I where
  committed := by rw [committed_answer]; exact hcommits
  view j := by
    by_cases hj : j = i
    · subst hj
      exact hleft
    · rw [pending_answer_other hj, committed_answer]
      exact hmerge _ _ _ (hothers j hj) h.committed hcommits (h.view j)

/-- What a statement that keeps `I` writes, run from a store that has `I`. -/
theorem keeps_written {d : D} {c : σ β} {s : Session D W T} (hc : eng.Keeps I c) (hd : I d) :
    I (eng.applyAll d (if s.faults.headD false then [] else
      match eng.exec c s.now d with
      | .ok (_, ws) => ws
      | .error _ => [])) := by
  split
  · exact hd
  · split
    · rename_i b ws he
      exact hc _ _ _ _ he hd
    · exact hd

theorem writes_keeps_pool {c : σ β} (hc : eng.Keeps I c) (s : Session D W T) (h : I s.committed) :
    I (eng.applyAll s.committed ((Cmd.exec .pool c).writes eng s)) :=
  keeps_written hc h

theorem writes_keeps_tx {c : σ β} (hc : eng.Keeps I c) (s : Session D W T) (h : I (s.view eng)) :
    I (eng.applyAll (s.view eng) ((Cmd.exec .tx c).writes eng s)) :=
  keeps_written hc h

theorem Merged.call (hmerge : Mergeable K I) (hkeeps : ∀ {β : Type} (c : σ β), eng.Keeps I c)
    (hapart : ∀ i j, i ≠ j → ∀ p ∈ w.pending i, ∀ q ∈ w.pending j, K.key p ≠ K.key q)
    (h : w.Merged eng I) (hfree : w.Free K i c fault) :
    (w.answer eng i c k fault).Merged eng I := by
  cases c with
  | begin =>
    refine h.answer_of hmerge h.committed (fun _ _ _ _ _ hx => by cases hx) ?_
    rw [committed_answer, pending_answer_self]
    have hleft : (Session.handle eng (.begin : Cmd σ E _) (w.session i .begin fault)).2.txn.getD [] =
        w.pending i ∨
        (Session.handle eng (.begin : Cmd σ E _) (w.session i .begin fault)).2.txn.getD [] = [] :=
      Cmd.pending_begin _
    rcases hleft with he | he
    · rw [he]
      exact h.view i
    · rw [he]
      exact h.committed
  | commit =>
    have hcommits : I (eng.applyAll w.committed
        ((Cmd.commit : Cmd σ E _).commits eng (w.session i .commit fault))) := by
      simp only [Cmd.commits]
      split
      · exact h.committed
      · exact h.view i
    refine h.answer_of hmerge hcommits ?_ ?_
    · intro j hj p hp x hx
      simp only [Cmd.commits] at hx
      split at hx
      · cases hx
      · exact hapart j i hj p hp x hx
    · rw [committed_answer, pending_answer_self, Cmd.pending_commit]
      exact hcommits
  | exec e c =>
    cases e with
    | pool =>
      have hcommits := writes_keeps_pool (hkeeps c) (w.session i (.exec .pool c) fault) h.committed
      refine h.answer_of hmerge hcommits ?_ ?_
      · intro j _ p hp x hx
        exact hfree j (fun _ => rfl) p hp x hx
      · rw [committed_answer, pending_answer_self, Cmd.pending_pool]
        exact hmerge _ _ _ (hfree i fun _ => rfl) h.committed hcommits (h.view i)
    | tx =>
      have hview := writes_keeps_tx (hkeeps c) (w.session i (.exec .tx c) fault) (h.view i)
      refine h.answer_of hmerge h.committed (fun _ _ _ _ _ hx => by cases hx) ?_
      rw [committed_answer, pending_answer_self, Cmd.pending_tx, Engine.applyAll_append]
      exact hview

theorem Merged.rollback (h : w.Merged eng I) (i : ι) : (w.rollback i).Merged eng I where
  committed := h.committed
  view j := by
    by_cases hj : j = i
    · subst hj
      rw [pending_rollback_self]
      exact h.committed
    · rw [pending_rollback_other hj]
      exact h.view j

end Call

/-- A mergeable invariant that every statement keeps holds of the committed store in every world. -/
theorem merged_of_reaches [LE T] {good : {β : Type} → σ β → Prop} {ok : D → W → Prop} {I : D → Prop}
    {d : D} (hd : Disciplined (K := K) good ok) {progs : ι → Prog (Cmd σ E) ρ}
    (huses : ∀ i, Prog.Uses (AllGood good) (progs i)) (hmerge : Mergeable K I)
    (hkeeps : ∀ {β : Type} (c : σ β), eng.Keeps I c) (h₀ : I d) {t : T}
    (h : Reaches K progs d t w) : w.Merged eng I := by
  induction h with
  | refl => exact ⟨h₀, fun _ => h₀⟩
  | tail hrun hs ih =>
    cases hs with
    | call fault hp hfree =>
      have hinv := inv_of_reaches hd huses hrun
      exact ih.call hmerge hkeeps hinv.apart hfree
    | rollback hp => exact ih.rollback _
    | tick ht => exact ⟨ih.committed, ih.view⟩

/-! ## What is said of each row write -/

/-- Every row write of a run whose commits all have `P` has `P`. -/
theorem forall_log_of_reachesIf [LE T] {P : W → Prop} {progs : ι → Prog (Cmd σ E) ρ} {d : D} {t : T}
    (h : ReachesIf K (fun _ x => P x) progs d t w) : ∀ x ∈ w.log.map Prod.snd, P x := by
  have hchain : ∀ (ws : List W) (d : D), eng.Chain (fun _ x => P x) d ws → ∀ x ∈ ws, P x := by
    intro ws
    induction ws with
    | nil => simp
    | cons y ws ih =>
      intro d hws x hx
      rcases List.mem_cons.1 hx with rfl | hx
      · exact hws.1
      · exact ih _ hws.2 x hx
  induction h with
  | refl => simp [start]
  | tail _ hs ih =>
    rw [log_step hs.1]
    intro x hx
    rcases List.mem_append.1 hx with hx | hx
    · exact ih x hx
    · exact hchain _ _ hs.2 x hx

end World

end Lib
