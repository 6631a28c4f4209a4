import Meno.Lib.Txn

/-!
# Lib.Ends

How a program ends, for one caller. `Ends calm x P F d txn`: run from the committed store `d` with
the open transaction `txn`, the program ends in `P` with its answer or in `F` with its error,
whatever calls fail on the way; when `calm` is set, none does. Both are about the store and the
transaction at the end. There is one rule for each way to build a program.
-/

namespace Lib

/-- A session that stands on `d` with the open transaction `txn`. -/
structure Session.At {D W T : Type} (calm : Bool) (now : T) (d : D) (txn : Option (List W))
    (s : Session D W T) : Prop where
  committed : s.committed = d
  txn : s.txn = txn
  now : s.now = now
  faults : calm = true → s.faults = []

namespace Txn

variable {σ : Type → Type} {D W T E ε α β : Type} (eng : Engine σ D W T E) (calm : Bool) (now : T)

def Ends (x : Txn σ E ε α) (P : α → D → Option (List W) → Prop)
    (F : ε → D → Option (List W) → Prop) (d : D) (txn : Option (List W)) : Prop :=
  ∀ s : Session D W T, s.At calm now d txn →
    Act.wp (Session.handle eng) x (fun r s' => s'.At calm now s'.committed s'.txn ∧
      match r with
      | .ok a => P a s'.committed s'.txn
      | .error e => F e s'.committed s'.txn) s

variable {eng calm now} {P : α → D → Option (List W) → Prop} {F : ε → D → Option (List W) → Prop}
  {d : D} {txn : Option (List W)}

theorem ends_pure {a : α} (h : P a d txn) : Ends eng calm now (pure a) P F d txn := by
  rintro s ⟨rfl, rfl, rfl, hf⟩
  exact ⟨⟨rfl, rfl, rfl, hf⟩, h⟩

theorem ends_throw {e : ε} (h : F e d txn) : Ends eng calm now (throw e) P F d txn := by
  rintro s ⟨rfl, rfl, rfl, hf⟩
  exact ⟨⟨rfl, rfl, rfl, hf⟩, h⟩

theorem ends_bind {x : Txn σ E ε β} {f : β → Txn σ E ε α}
    (h : Ends eng calm now x (fun b => Ends eng calm now (f b) P F) F d txn) :
    Ends eng calm now (x >>= f) P F d txn := by
  intro s hs
  rw [Act.wp_bind]
  refine Act.wp_mono _ (h s hs) ?_
  rintro (e | b) s' ⟨hat, hr⟩
  · exact ⟨hat, hr⟩
  · exact hr s' hat

theorem ends_mono {x : Txn σ E ε α} {P' : α → D → Option (List W) → Prop}
    {F' : ε → D → Option (List W) → Prop} (h : Ends eng calm now x P F d txn)
    (hP : ∀ a d' t, P a d' t → P' a d' t) (hF : ∀ e d' t, F e d' t → F' e d' t) :
    Ends eng calm now x P' F' d txn := by
  intro s hs
  refine Act.wp_mono _ (h s hs) ?_
  rintro (e | a) s' ⟨hat, hr⟩
  · exact ⟨hat, hF _ _ _ hr⟩
  · exact ⟨hat, hP _ _ _ hr⟩

theorem ends_attempt {x : Txn σ E ε α} {P : Except ε α → D → Option (List W) → Prop}
    (h : Ends eng calm now x (fun a => P (.ok a)) (fun e => P (.error e)) d txn) :
    Ends eng calm now (Act.attempt x) P F d txn := by
  intro s hs
  rw [Act.wp_attempt]
  refine Act.wp_mono _ (h s hs) ?_
  rintro (e | a) s' ⟨hat, hr⟩ <;> exact ⟨hat, hr⟩

/-- What is known of an answer. -/
theorem Ends.of_ok {x : Txn σ E ε α} (h : Ends eng calm now x P F d txn) {s s' : Session D W T}
    {a : α} (hs : s.At calm now d txn)
    (ha : Act.answer (Session.handle eng) x s = (.ok a, s')) : P a s'.committed s'.txn := by
  have hend := h s hs
  rw [Act.wp, ha] at hend
  exact hend.2

/-! ## Calls -/

section Calls

variable {wrap : E → ε}

theorem at_tick {s : Session D W T} (hs : s.At calm now d txn) : s.tick.At calm now d txn := by
  obtain ⟨rfl, rfl, rfl, hf⟩ := hs
  refine ⟨rfl, rfl, rfl, fun hc => ?_⟩
  rw [Session.tick, hf hc]
  rfl

theorem not_calm {s : Session D W T} (hs : s.At calm now d txn)
    (h : s.faults.headD false = true) : calm = false := by
  cases hc : calm with
  | false => rfl
  | true =>
    rw [hs.faults hc] at h
    cases h

theorem ends_pool {c : σ α} (hok : ∀ a ws, eng.exec c now d = .ok (a, ws) →
      P a (eng.applyAll d ws) txn)
    (herr : ∀ e, eng.exec c now d = .error e → F (wrap e) d txn)
    (hfault : calm = false → F (wrap eng.fault) d txn) :
    Ends eng calm now (Act.ask wrap (.exec .pool c)) P F d txn := by
  intro s hs
  have htick := at_tick hs
  have hnot := not_calm hs
  obtain ⟨rfl, rfl, rfl, _⟩ := hs
  rw [Act.wp_ask]
  simp only [Session.handle]
  by_cases hf : s.faults.headD false = true
  · rw [if_pos hf]
    exact ⟨htick, hfault (hnot hf)⟩
  · rw [if_neg hf]
    cases he : eng.exec c s.now s.committed with
    | ok p =>
      obtain ⟨a, ws⟩ := p
      exact ⟨⟨rfl, rfl, rfl, htick.faults⟩, hok a ws he⟩
    | error e => exact ⟨htick, herr e he⟩

/-- A statement on the pool that answers `a` and writes nothing. -/
theorem ends_read {c : σ α} {a : α} (h : eng.exec c now d = .ok (a, [])) (hok : P a d txn)
    (hfault : calm = false → F (wrap eng.fault) d txn) :
    Ends eng calm now (Act.ask wrap (.exec .pool c)) P F d txn := by
  refine ends_pool ?_ ?_ hfault
  · intro a' ws h'
    rw [h] at h'
    cases h'
    exact hok
  · intro e h'
    rw [h] at h'
    cases h'

/-- A statement in a transaction that has written `ws`. -/
theorem ends_tx {c : σ α} {ws : List W}
    (hok : ∀ a ws', eng.exec c now (eng.applyAll d ws) = .ok (a, ws') → P a d (some (ws ++ ws')))
    (herr : ∀ e, eng.exec c now (eng.applyAll d ws) = .error e → F (wrap e) d (some ws))
    (hfault : calm = false → F (wrap eng.fault) d (some ws)) :
    Ends eng calm now (Act.ask wrap (.exec .tx c)) P F d (some ws) := by
  intro s hs
  have htick := at_tick hs
  have hnot := not_calm hs
  obtain ⟨rfl, htxn, rfl, _⟩ := hs
  rw [Act.wp_ask]
  simp only [Session.handle, Session.view, htxn, Option.getD_some]
  by_cases hf : s.faults.headD false = true
  · rw [if_pos hf]
    refine ⟨⟨rfl, rfl, rfl, htick.faults⟩, ?_⟩
    have hkeep : s.tick.txn = some ws := htxn
    rw [hkeep]
    exact hfault (hnot hf)
  · rw [if_neg hf]
    cases he : eng.exec c s.now (eng.applyAll s.committed ws) with
    | ok p =>
      obtain ⟨a, ws'⟩ := p
      exact ⟨⟨rfl, rfl, rfl, htick.faults⟩, hok a ws' he⟩
    | error e =>
      refine ⟨⟨rfl, rfl, rfl, htick.faults⟩, ?_⟩
      have hkeep : s.tick.txn = some ws := htxn
      rw [hkeep]
      exact herr e he

theorem ends_begin {P : Unit → D → Option (List W) → Prop} (hok : P () d (some []))
    (hfault : calm = false → F (wrap eng.fault) d txn) :
    Ends eng calm now (Act.ask wrap .begin) P F d txn := by
  intro s hs
  have htick := at_tick hs
  have hnot := not_calm hs
  obtain ⟨rfl, rfl, rfl, _⟩ := hs
  rw [Act.wp_ask]
  simp only [Session.handle]
  by_cases hf : s.faults.headD false = true
  · rw [if_pos hf]
    exact ⟨htick, hfault (hnot hf)⟩
  · rw [if_neg hf]
    exact ⟨⟨rfl, rfl, rfl, htick.faults⟩, hok⟩

theorem ends_commit {P : Unit → D → Option (List W) → Prop} {ws : List W}
    (hok : P () (eng.applyAll d ws) none) (hfault : calm = false → F (wrap eng.fault) d none) :
    Ends eng calm now (Act.ask wrap .commit) P F d (some ws) := by
  intro s hs
  have htick := at_tick hs
  have hnot := not_calm hs
  obtain ⟨rfl, htxn, rfl, _⟩ := hs
  rw [Act.wp_ask]
  simp only [Session.handle, Session.view, htxn, Option.getD_some]
  by_cases hf : s.faults.headD false = true
  · rw [if_pos hf]
    exact ⟨⟨rfl, rfl, rfl, htick.faults⟩, hfault (hnot hf)⟩
  · rw [if_neg hf]
    exact ⟨⟨rfl, rfl, rfl, htick.faults⟩, hok⟩

/-- A program that only makes statements on the pool keeps what each of them keeps. -/
theorem ends_onPool {may : {β : Type} → σ β → Prop} {R : D → Prop}
    (hR : ∀ {β : Type} (c : σ β), may c → ∀ d b ws, eng.exec c now d = .ok (b, ws) → R d →
      R (eng.applyAll d ws))
    {x : Txn σ E ε α} (hx : Act.Uses (OnPool may) x) (hd : R d) :
    Ends eng calm now x (fun _ d' _ => R d') (fun _ d' _ => R d') d txn := by
  intro s hs
  have hcall : ∀ {β : Type} (c : Cmd σ E β) (s : Session D W T), OnPool may c →
      (R s.committed ∧ s.now = now ∧ (calm = true → s.faults = [])) →
      R (Session.handle eng c s).2.committed ∧ (Session.handle eng c s).2.now = now ∧
        (calm = true → (Session.handle eng c s).2.faults = []) := by
    rintro β c s hc ⟨hr, rfl, hf⟩
    have htail : calm = true → s.faults.tail = [] := by
      intro hcalm
      rw [hf hcalm]
      rfl
    cases c with
    | begin => cases hc
    | commit => cases hc
    | exec e c =>
      cases e with
      | tx => cases hc
      | pool =>
        simp only [Session.handle]
        split
        · exact ⟨hr, rfl, htail⟩
        · cases he : eng.exec c s.now s.committed with
          | ok p => exact ⟨hR c hc _ _ _ he hr, rfl, htail⟩
          | error e => exact ⟨hr, rfl, htail⟩
  have hstart : R s.committed ∧ s.now = now ∧ (calm = true → s.faults = []) :=
    ⟨hs.committed ▸ hd, hs.now, hs.faults⟩
  obtain ⟨hr, hnow, hf⟩ := Prog.run_keeps hcall hx hstart
  refine ⟨⟨rfl, rfl, hnow, hf⟩, ?_⟩
  split
  · exact hr
  · exact hr

end Calls

/-! ## Runs -/

/-- How a run ends, well or not, whose last step only dresses up the answer. -/
theorem run_map_ends {γ : Type} {x : Txn σ E ε α} (h : Ends eng calm now x P F d none) (g : α → γ)
    (faults : List Bool) (hf : calm = true → faults = []) :
    let out := run eng (x >>= fun a => pure (g a)) d now faults
    out.1.isOk = true ∧ (∃ a t, P a out.2 t) ∨ out.1.isOk = false ∧ ∃ e t, F e out.2 t := by
  have hend := (h (Session.start d now faults) ⟨rfl, rfl, rfl, hf⟩).2
  rw [run_map]
  unfold run
  revert hend
  rcases Act.answer (Session.handle eng) x (Session.start d now faults) with ⟨e | a, s⟩
  · intro hF
    exact .inr ⟨rfl, e, _, hF⟩
  · intro hP
    exact .inl ⟨rfl, a, _, hP⟩

/-- What a run from the store `d` ends in. -/
theorem run_ends {x : Txn σ E ε α} (faults : List Bool) (h : Ends eng calm now x P F d none)
    (hf : calm = true → faults = []) :
    ∃ t, match (run eng x d now faults).1 with
      | .ok a => P a (run eng x d now faults).2 t
      | .error e => F e (run eng x d now faults).2 t :=
  ⟨_, (h (Session.start d now faults) ⟨rfl, rfl, rfl, hf⟩).2⟩

/-- What a run that ends well has done to the store. -/
theorem run_isOk {x : Txn σ E ε α} {P : D → Prop} {faults : List Bool}
    (h : Ends eng calm now x (fun _ d' _ => P d') F d none) (hf : calm = true → faults = [])
    (hok : (run eng x d now faults).1.isOk = true) : P (run eng x d now faults).2 := by
  obtain ⟨_, hend⟩ := run_ends faults h hf
  cases hr : (run eng x d now faults).1 with
  | ok a =>
    rw [hr] at hend
    exact hend
  | error e =>
    rw [hr] at hok
    cases hok

end Txn

end Lib
