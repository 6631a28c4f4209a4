import Meno.Lib.World

/-!
# Lib.Commits

Invariants of the committed store. Whatever the callers do, the committed store moves from one
commit to the next, and each commit is a chain of row writes that are in order. So what every row
write in order preserves holds in every world; and where only the writes with `cond` preserve it,
it holds in the worlds of the runs whose commits meet `cond`, write by write.
-/

namespace Lib

theorem chain_invariant {σ : Type → Type} {D W T E : Type} {eng : Engine σ D W T E}
    {ok cond : D → W → Prop} {I : D → Prop}
    (hstep : ∀ d x, I d → ok d x → cond d x → I (eng.apply d x)) (ws : List W) :
    ∀ {d : D}, I d → eng.Chain ok d ws → eng.Chain cond d ws → I (eng.applyAll d ws) := by
  induction ws with
  | nil => intro d h _ _; exact h
  | cons x ws ih =>
    intro d h hok hcond
    exact ih (hstep d x h hok.1 hcond.1) hok.2 hcond.2

namespace World

variable {σ : Type → Type} {D W T E ρ ι : Type} [DecidableEq ι] {eng : Engine σ D W T E}
  {κ R : Type} [DecidableEq κ] (K : Keyed eng κ R)

/-- The row writes that are committed between `w` and `w'`. -/
def fresh (w w' : World σ D W T E ρ ι) : List W := (w'.log.drop w.log.length).map Prod.snd

/-- A step that commits, write by write, what meets `cond` in the store it is written to. -/
def StepIf [LE T] (cond : D → W → Prop) (w w' : World σ D W T E ρ ι) : Prop :=
  Step K w w' ∧ eng.Chain cond w.committed (fresh w w')

/-- The worlds that runs of such steps reach from the store `d`. -/
def ReachesIf [LE T] (cond : D → W → Prop) (progs : ι → Prog (Cmd σ E) ρ) (d : D) (t : T)
    (w : World σ D W T E ρ ι) : Prop :=
  Relation.ReflTransGen (StepIf K cond) (start d t progs) w

variable {K} {w w' : World σ D W T E ρ ι}

theorem ReachesIf.reaches [LE T] {cond : D → W → Prop} {progs : ι → Prog (Cmd σ E) ρ} {d : D} {t : T}
    (h : ReachesIf K cond progs d t w) : Reaches K progs d t w := by
  induction h with
  | refl => exact .refl
  | tail _ hs ih => exact .tail ih hs.1

omit [DecidableEq ι] in
theorem fresh_of_log {xs : List (ι × W)} (h : w'.log = w.log ++ xs) :
    fresh w w' = xs.map Prod.snd := by
  rw [fresh, h, List.drop_left]

omit [DecidableEq ι] in
theorem fresh_of_same (h : w'.log = w.log) : fresh w w' = [] := by
  simp [fresh, h]

/-- What a call commits. -/
theorem fresh_answer {i : ι} {β : Type} {c : Cmd σ E β} {k : β → Prog (Cmd σ E) ρ} {fault : Bool} :
    fresh w (w.answer eng i c k fault) = c.commits eng (w.session i c fault) := by
  rw [fresh_of_log rfl]
  simp [Function.comp_def]

theorem log_step [LE T] (hs : Step K w w') :
    w'.log.map Prod.snd = w.log.map Prod.snd ++ fresh w w' := by
  have hsame : w'.log = w.log → w'.log.map Prod.snd = w.log.map Prod.snd ++ fresh w w' := by
    intro h
    rw [fresh_of_same h, h, List.append_nil]
  cases hs with
  | call fault hp hfree =>
    rw [fresh_answer]
    simp [answer, Function.comp_def]
  | rollback hp => exact hsame rfl
  | tick ht => exact hsame rfl

section Discipline

variable {good : {β : Type} → σ β → Prop} {ok : D → W → Prop} {d₀ : D}

/-- One step commits a chain. -/
theorem Inv.fresh [LE T] (h : Inv K good ok d₀ w) (h' : Inv K good ok d₀ w') (hs : Step K w w') :
    eng.Chain ok w.committed (fresh w w') ∧
      w'.committed = eng.applyAll w.committed (World.fresh w w') := by
  have hlawful := h'.lawful
  rw [log_step hs, chain_append, h.replay] at hlawful
  refine ⟨hlawful.2, ?_⟩
  rw [← h'.replay, log_step hs, Engine.applyAll_append, h.replay]

/-- What row writes in order preserve when they meet `cond` holds of the committed store in every
world that runs meeting `cond` reach. -/
theorem committed_of_reachesIf [LE T] (hd : Disciplined (K := K) good ok)
    {progs : ι → Prog (Cmd σ E) ρ} (huses : ∀ i, Prog.Uses (AllGood good) (progs i))
    {cond : D → W → Prop} {I : D → Prop}
    (hstep : ∀ d x, I d → ok d x → cond d x → I (eng.apply d x)) (h₀ : I d₀) {t : T}
    (h : ReachesIf K cond progs d₀ t w) : I w.committed := by
  have key : Inv K good ok d₀ w ∧ I w.committed := by
    induction h with
    | refl => exact ⟨inv_start huses, h₀⟩
    | tail _ hs ih =>
      obtain ⟨hinv, hI⟩ := ih
      have hinv' := hinv.step hd hs.1
      obtain ⟨hchain, hcom⟩ := hinv.fresh hinv' hs.1
      refine ⟨hinv', ?_⟩
      rw [hcom]
      exact chain_invariant hstep _ hI hchain hs.2
  exact key.2

end Discipline

/-! ## One caller among others -/

/-- The row writes that are committed between `w` and `w'`, with their callers. -/
def newLog (w w' : World σ D W T E ρ ι) : List (ι × W) := w'.log.drop w.log.length

omit [DecidableEq ι] in
theorem newLog_of_log {xs : List (ι × W)} (h : w'.log = w.log ++ xs) : newLog w w' = xs := by
  rw [newLog, h, List.drop_left]

theorem newLog_rollback {i : ι} : newLog w (w.rollback i) = [] := by
  simp [newLog, rollback]

omit [DecidableEq ι] in
theorem newLog_tick {t : T} : newLog w { w with clock := t } = [] := by
  simp [newLog]

theorem newLog_answer {i : ι} {β : Type} {c : Cmd σ E β} {k : β → Prog (Cmd σ E) ρ} {fault : Bool} :
    newLog w (w.answer eng i c k fault) =
      (c.commits eng (w.session i c fault)).map fun x => (i, x) :=
  newLog_of_log rfl

theorem log_eq_newLog [LE T] (hs : Step K w w') : w'.log = w.log ++ newLog w w' := by
  cases hs with
  | call fault hp hfree =>
    rw [newLog_answer]
    rfl
  | rollback hp =>
    rw [newLog_rollback]
    exact (List.append_nil _).symm
  | tick ht =>
    rw [newLog_tick]
    exact (List.append_nil _).symm

/-- A run only adds to the history. -/
theorem log_of_run [LE T] (h : Relation.ReflTransGen (Step K) w w') :
    ∃ xs, w'.log = w.log ++ xs := by
  induction h with
  | refl => exact ⟨[], (List.append_nil _).symm⟩
  | @tail v v' _ hs ih =>
    obtain ⟨xs, hxs⟩ := ih
    refine ⟨xs ++ newLog v v', ?_⟩
    rw [log_eq_newLog hs, hxs, List.append_assoc]

/-- What a run commits, and one more step. -/
theorem fresh_tail [LE T] {v : World σ D W T E ρ ι} (h : Relation.ReflTransGen (Step K) w v)
    (hs : Step K v w') : fresh w w' = fresh w v ++ fresh v w' := by
  obtain ⟨xs, hxs⟩ := log_of_run h
  have hlog : w'.log = w.log ++ (xs ++ newLog v w') := by
    rw [log_eq_newLog hs, hxs, List.append_assoc]
  rw [fresh_of_log hlog, fresh_of_log hxs, fresh_of_log (log_eq_newLog hs), List.map_append]

/-- What a step commits is one caller's. -/
theorem newLog_caller [LE T] (hs : Step K w w') {e e' : ι × W} (he : e ∈ newLog w w')
    (he' : e' ∈ newLog w w') : e.1 = e'.1 := by
  cases hs with
  | call fault hp hfree =>
    rw [newLog_answer] at he he'
    obtain ⟨x, _, rfl⟩ := List.mem_map.1 he
    obtain ⟨y, _, rfl⟩ := List.mem_map.1 he'
    rfl
  | rollback hp =>
    rw [newLog_rollback] at he
    cases he
  | tick ht =>
    rw [newLog_tick] at he
    cases he

section OneCaller

variable {may : {β : Type} → Cmd σ E β → Prop} {P : W → Prop} {i : ι}

/-- The calls that caller `i` has left are ones that it may make, and its open transaction has
written only what has `P`. -/
structure Makes (may : {β : Type} → Cmd σ E β → Prop) (P : W → Prop) (i : ι)
    (w : World σ D W T E ρ ι) : Prop where
  uses : Prog.Uses may (w.callers i).prog
  pending : ∀ x ∈ w.pending i, P x

omit [DecidableEq ι] in
theorem makes_start {progs : ι → Prog (Cmd σ E) ρ} {d : D} {t : T} (huses : (progs i).Uses may) :
    Makes may P i (start d t progs : World σ D W T E ρ ι) :=
  ⟨huses, by simp⟩

/-- A write of a statement comes from its execution. -/
theorem mem_writes {β : Type} {e : Executor} {c : σ β} {s : Session D W T} {x : W}
    (h : x ∈ (Cmd.exec e c).writes eng s) :
    ∃ b ws, eng.exec c s.now (match e with | .pool => s.committed | .tx => s.view eng) =
      .ok (b, ws) ∧ x ∈ ws := by
  simp only [Cmd.writes] at h
  split at h
  · cases h
  · split at h
    · rename_i b ws he
      exact ⟨b, ws, he, h⟩
    · cases h

/-- A statement that is answered was executed, and its writes are those of the execution. -/
theorem writes_of_answered {β : Type} {e : Executor} {c : σ β} {s : Session D W T} {b : β}
    (h : (Session.handle eng (.exec e c) s).1 = .ok b) :
    ∃ ws, eng.exec c s.now (match e with | .pool => s.committed | .tx => s.view eng) =
        .ok (b, ws) ∧ (Cmd.exec e c).writes eng s = ws := by
  simp only [Cmd.writes]
  cases e <;>
  · simp only [Session.handle] at h
    split at h
    · cases h
    · rename_i hquiet
      rw [if_neg hquiet]
      split at h
      · rename_i b' ws he
        cases h
        refine ⟨ws, he, ?_⟩
        simp only [he]
      · cases h

/-- What is pending after a call was pending before it, or is written by it in the transaction. -/
theorem mem_pending_answer {β : Type} {c : Cmd σ E β} {k : β → Prog (Cmd σ E) ρ} {fault : Bool}
    {x : W} (hx : x ∈ (w.answer eng i c k fault).pending i) :
    x ∈ w.pending i ∨ c.isTx = true ∧ x ∈ c.writes eng (w.session i c fault) := by
  rw [pending_answer_self] at hx
  cases c with
  | begin =>
    rcases @Cmd.pending_begin _ _ _ _ _ eng (w.session i .begin fault) with he | he
    · rw [he] at hx
      exact .inl hx
    · rw [he] at hx
      cases hx
  | commit =>
    rw [Cmd.pending_commit] at hx
    cases hx
  | exec e c =>
    cases e with
    | pool =>
      rw [Cmd.pending_pool] at hx
      exact .inl hx
    | tx =>
      rw [Cmd.pending_tx] at hx
      rcases List.mem_append.1 hx with hx | hx
      · exact .inl hx
      · exact .inr ⟨rfl, hx⟩

omit [DecidableEq ι] in
/-- What a call commits was pending, or is written by it. -/
theorem mem_commits {β : Type} {c : Cmd σ E β} {fault : Bool} {x : W}
    (hx : x ∈ c.commits eng (w.session i c fault)) :
    x ∈ w.pending i ∨ x ∈ c.writes eng (w.session i c fault) := by
  cases c with
  | begin => cases hx
  | commit =>
    simp only [Cmd.commits] at hx
    split at hx
    · cases hx
    · exact .inl hx
  | exec e c =>
    cases e with
    | pool => exact .inr hx
    | tx => cases hx

theorem Makes.step [LE T]
    (htx : ∀ {β : Type} {c : σ β}, may (.exec .tx c) → ∀ {d : D} {b : β} {ws : List W},
      eng.exec c (w.callers i).since d = .ok (b, ws) → ∀ x ∈ ws, P x)
    (h : Makes may P i w) (hs : Step K w w') : Makes may P i w' := by
  cases hs with
  | @call j β c k fault hp hfree =>
    by_cases hij : i = j
    · subst hij
      have huse := h.uses
      rw [hp] at huse
      refine ⟨?_, fun x hx => ?_⟩
      · rw [prog_answer_self]
        exact huse.2 _
      · rcases mem_pending_answer hx with hx | ⟨hc, hx⟩
        · exact h.pending x hx
        · cases c with
          | begin => cases hc
          | commit => cases hc
          | exec e c =>
            cases e with
            | pool => cases hc
            | tx =>
              obtain ⟨b, ws, he, hx⟩ := mem_writes hx
              exact htx huse.1 he x hx
    · refine ⟨?_, ?_⟩
      · rw [prog_answer_other hij]
        exact h.uses
      · rw [pending_answer_other hij]
        exact h.pending
  | @rollback j r hp =>
    refine ⟨?_, ?_⟩
    · rw [prog_rollback]
      exact h.uses
    · by_cases hij : i = j
      · subst hij
        rw [pending_rollback_self]
        simp
      · rw [pending_rollback_other hij]
        exact h.pending
  | tick ht => exact ⟨h.uses, h.pending⟩

/-- What the caller commits was written in its transaction, or is written at once. -/
theorem Makes.commits [LE T] (h : Makes may P i w) (hs : Step K w w') {x : W}
    (hx : (i, x) ∈ newLog w w') :
    P x ∨ ∃ (β : Type) (c : σ β) (b : β) (ws : List W), may (.exec .pool c) ∧
      eng.exec c w.clock w.committed = .ok (b, ws) ∧ x ∈ ws := by
  cases hs with
  | @call j β c k fault hp hfree =>
    rw [newLog_answer] at hx
    obtain ⟨y, hy, he⟩ := List.mem_map.1 hx
    cases he
    have huse := h.uses
    rw [hp] at huse
    cases c with
    | begin => cases hy
    | commit =>
      simp only [Cmd.commits] at hy
      split at hy
      · cases hy
      · exact .inl (h.pending _ hy)
    | exec e c =>
      cases e with
      | pool =>
        have hwrites : x ∈ (Cmd.exec .pool c).writes eng (w.session i (.exec .pool c) fault) := hy
        obtain ⟨b, ws, he, hx⟩ := mem_writes hwrites
        exact .inr ⟨_, c, b, ws, huse.1, he, hx⟩
      | tx => cases hy
  | rollback hp =>
    rw [newLog_rollback] at hx
    cases hx
  | tick ht =>
    rw [newLog_tick] at hx
    cases hx

theorem makes_of_reaches [LE T]
    (htx : ∀ {β : Type} {c : σ β}, may (.exec .tx c) → ∀ {now : T} {d : D} {b : β} {ws : List W},
      eng.exec c now d = .ok (b, ws) → ∀ x ∈ ws, P x)
    {progs : ι → Prog (Cmd σ E) ρ} (huses : (progs i).Uses may) {d : D} {t : T}
    (h : Reaches K progs d t w) : Makes may P i w := by
  induction h with
  | refl => exact makes_start huses
  | tail _ hs ih => exact ih.step (fun hc => htx hc) hs

/-- Whatever the other callers do, a caller whose statements all write what has `P` commits nothing
else. -/
theorem log_of_uses [LE T] {good : {β : Type} → σ β → Prop}
    (hexec : ∀ {β : Type} {c : σ β}, good c → ∀ {now : T} {d : D} {b : β} {ws : List W},
      eng.exec c now d = .ok (b, ws) → ∀ x ∈ ws, P x)
    {progs : ι → Prog (Cmd σ E) ρ} (huses : (progs i).Uses (AllGood good)) {d : D} {t : T}
    (h : Reaches K progs d t w) : ∀ x, (i, x) ∈ w.log → P x := by
  induction h with
  | refl => simp [start]
  | tail hrun hs ih =>
    have htx : ∀ {β : Type} {c : σ β}, AllGood good (.exec .tx c : Cmd σ E _) →
        ∀ {now : T} {d : D} {b : β} {ws : List W}, eng.exec c now d = .ok (b, ws) →
          ∀ x ∈ ws, P x := fun hc => hexec hc
    have hmakes := makes_of_reaches htx huses hrun
    intro x hx
    rw [log_eq_newLog hs] at hx
    rcases List.mem_append.1 hx with hx | hx
    · exact ih x hx
    · rcases hmakes.commits hs hx with h | ⟨β, c, b, ws, hc, he, hx⟩
      · exact h
      · exact hexec hc he x hx

end OneCaller

/-! ## When all callers have returned -/

/-- Nothing is committed any more. -/
theorem step_of_returned [LE T] (h : ∀ i, ∃ r, (w.callers i).prog = .ret r) (hs : Step K w w') :
    (∀ i, ∃ r, (w'.callers i).prog = .ret r) ∧ w'.committed = w.committed ∧ fresh w w' = [] := by
  cases hs with
  | @call i β c k fault hp hfree =>
    obtain ⟨r, hr⟩ := h i
    rw [hp] at hr
    cases hr
  | @rollback i r hp =>
    refine ⟨fun j => ?_, rfl, fresh_of_same rfl⟩
    rw [prog_rollback]
    exact h j
  | tick ht => exact ⟨h, rfl, fresh_of_same rfl⟩

end World

/-! ## One caller -/

section Run

variable {σ : Type → Type} {D W T E ε α : Type} {eng : Engine σ D W T E} {ok : D → W → Prop}
  {keep : W → Prop} {I : D → Prop}

/-- What writes that `keep` it preserve, a chain of them preserves. -/
theorem applyAll_invariant (happly : ∀ d w, I d → keep w → I (eng.apply d w)) {ws : List W} :
    ∀ {d : D}, I d → (∀ w ∈ ws, keep w) → I (eng.applyAll d ws) := by
  induction ws with
  | nil => intro d h _; exact h
  | cons w ws ih =>
    intro d h hws
    refine ih (happly d w h (hws w List.mem_cons_self)) ?_
    intro w' hw'
    exact hws w' (List.mem_cons_of_mem w hw')

/-- A chain of writes in order, in a store with the invariant, is one of writes that keep it. -/
theorem keep_of_chain (hkeep : ∀ d w, I d → ok d w → keep w)
    (happly : ∀ d w, I d → keep w → I (eng.apply d w)) {ws : List W} :
    ∀ {d : D}, I d → eng.Chain ok d ws → ∀ w ∈ ws, keep w := by
  induction ws with
  | nil => simp
  | cons w ws ih =>
    intro d h hchain w' hw'
    have hw : keep w := hkeep d w h hchain.1
    rcases List.mem_cons.1 hw' with rfl | hw'
    · exact hw
    · exact ih (happly d w h hw) hchain.2 w' hw'

/-- A session at `now` whose database has the invariant, and whose transaction keeps it. -/
structure Session.Kept (I : D → Prop) (keep : W → Prop) (now : T) (s : Session D W T) : Prop where
  now : s.now = now
  committed : I s.committed
  txn : ∀ w ∈ s.txn.getD [], keep w

/-- One call keeps it. -/
theorem Session.Kept.handle {good : {β : Type} → σ β → Prop} {now : T}
    (happly : ∀ d w, I d → keep w → I (eng.apply d w))
    (hexec : ∀ {β : Type} (c : σ β), good c → ∀ d b ws, I d → eng.exec c now d = .ok (b, ws) →
      ∀ w ∈ ws, keep w)
    {β : Type} {c : Cmd σ E β} (hc : World.AllGood good c) {s : Session D W T}
    (h : s.Kept I keep now) : (Session.handle eng c s).2.Kept I keep now := by
  obtain ⟨hnow, hd, htxn⟩ := h
  have hview : I (s.view eng) := applyAll_invariant happly hd htxn
  cases c with
  | begin =>
    simp only [Session.handle]
    split
    · exact ⟨hnow, hd, htxn⟩
    · exact ⟨hnow, hd, by simp⟩
  | commit =>
    simp only [Session.handle]
    split
    · exact ⟨hnow, hd, by simp⟩
    · exact ⟨hnow, hview, by simp⟩
  | exec e c =>
    cases e with
    | pool =>
      simp only [Session.handle]
      split
      · exact ⟨hnow, hd, htxn⟩
      · split
        · rename_i b ws he
          rw [hnow] at he
          exact ⟨hnow, applyAll_invariant happly hd (hexec c hc _ b ws hd he), htxn⟩
        · exact ⟨hnow, hd, htxn⟩
    | tx =>
      simp only [Session.handle]
      split
      · exact ⟨hnow, hd, htxn⟩
      · split
        · rename_i b ws he
          rw [hnow] at he
          refine ⟨hnow, hd, ?_⟩
          intro w hw
          rcases List.mem_append.1 hw with hw | hw
          · exact htxn w hw
          · exact hexec c hc _ b ws hview he w hw
        · exact ⟨hnow, hd, htxn⟩

/-- What every statement of a program keeps, its run keeps, whichever calls fail. -/
theorem Txn.run_invariant {good : {β : Type} → σ β → Prop} {now : T}
    (happly : ∀ d w, I d → keep w → I (eng.apply d w))
    (hexec : ∀ {β : Type} (c : σ β), good c → ∀ d b ws, I d → eng.exec c now d = .ok (b, ws) →
      ∀ w ∈ ws, keep w)
    {x : Txn σ E ε α} (hx : Act.Uses (World.AllGood good) x) {d : D} (h : I d)
    (faults : List Bool) : I (Txn.run eng x d now faults).2 := by
  have key : ∀ p : Prog (Cmd σ E) (Except ε α), p.Uses (World.AllGood good) →
      ∀ s : Session D W T, s.Kept I keep now →
      (Prog.run (Session.handle eng) p s).2.Kept I keep now := by
    intro p
    induction p with
    | ret r => intro _ s hs; exact hs
    | call c k ih =>
      rintro ⟨hc, hk⟩ s hs
      exact ih _ (hk _) _ (hs.handle happly hexec hc)
  exact (key _ hx _ ⟨rfl, h, by simp [Session.start]⟩).committed

end Run

end Lib
