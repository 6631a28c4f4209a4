import Meno.Lib.Txn

/-!
# Lib.Faults

How a program ends when it is known which of its calls fail. `EndsAt faults x P F n d txn` is
`Ends` with a count: `x` is run after `n` calls, from the store `d` with the open transaction
`txn`, and the `m`-th call fails exactly when `faults` says so. What is learned at each call is
that it failed, or that it did not; so the rules are exact in both directions.
-/

namespace Lib

/-- The `n`-th call fails. -/
def Fails (faults : List Bool) (n : Nat) : Prop := faults.getD n false = true

instance (faults : List Bool) (n : Nat) : Decidable (Fails faults n) :=
  inferInstanceAs (Decidable (_ = _))

namespace Session

variable {D W T : Type}

/-- The session after `n` calls. -/
def after (faults : List Bool) (now : T) (n : Nat) (d : D) (txn : Option (List W)) :
    Session D W T :=
  ⟨d, txn, now, faults.drop n⟩

theorem fails_iff {faults : List Bool} {n : Nat} :
    (faults.drop n).headD false = true ↔ Fails faults n := by
  rw [Fails, List.headD_eq_head?_getD, List.head?_drop, List.getD_eq_getElem?_getD]

theorem tail_drop (faults : List Bool) (n : Nat) :
    (faults.drop n).tail = faults.drop (n + 1) := List.tail_drop

end Session

namespace Txn

open Session (after fails_iff)

variable {σ : Type → Type} {D W T E ε α β : Type} (eng : Engine σ D W T E) (faults : List Bool)
  (now : T)

def EndsAt (x : Txn σ E ε α) (P : α → Nat → D → Option (List W) → Prop)
    (F : ε → Nat → D → Option (List W) → Prop) (n : Nat) (d : D) (txn : Option (List W)) : Prop :=
  Act.wp (Session.handle eng) x (fun r s => ∃ m, s = after faults now m s.committed s.txn ∧
    match r with
    | .ok a => P a m s.committed s.txn
    | .error e => F e m s.committed s.txn) (after faults now n d txn)

variable {eng faults now} {P : α → Nat → D → Option (List W) → Prop}
  {F : ε → Nat → D → Option (List W) → Prop} {n : Nat} {d : D} {txn : Option (List W)}

theorem endsAt_pure {a : α} (h : P a n d txn) : EndsAt eng faults now (pure a) P F n d txn :=
  ⟨n, rfl, h⟩

theorem endsAt_throw {e : ε} (h : F e n d txn) : EndsAt eng faults now (throw e) P F n d txn :=
  ⟨n, rfl, h⟩

theorem endsAt_bind {x : Txn σ E ε β} {f : β → Txn σ E ε α}
    (h : EndsAt eng faults now x (fun b => EndsAt eng faults now (f b) P F) F n d txn) :
    EndsAt eng faults now (x >>= f) P F n d txn := by
  unfold EndsAt
  rw [Act.wp_bind]
  refine Act.wp_mono _ h ?_
  rintro (e | b) s ⟨m, hs, hr⟩
  · exact ⟨m, hs, hr⟩
  · rw [hs]
    exact hr

theorem endsAt_mono {x : Txn σ E ε α} {P' : α → Nat → D → Option (List W) → Prop}
    {F' : ε → Nat → D → Option (List W) → Prop} (h : EndsAt eng faults now x P F n d txn)
    (hP : ∀ a m d' t, P a m d' t → P' a m d' t) (hF : ∀ e m d' t, F e m d' t → F' e m d' t) :
    EndsAt eng faults now x P' F' n d txn := by
  refine Act.wp_mono _ h ?_
  rintro (e | a) s ⟨m, hs, hr⟩
  · exact ⟨m, hs, hF _ _ _ _ hr⟩
  · exact ⟨m, hs, hP _ _ _ _ hr⟩

theorem endsAt_attempt {x : Txn σ E ε α} {P : Except ε α → Nat → D → Option (List W) → Prop}
    (h : EndsAt eng faults now x (fun a => P (.ok a)) (fun e => P (.error e)) n d txn) :
    EndsAt eng faults now (Act.attempt x) P F n d txn := by
  unfold EndsAt
  rw [Act.wp_attempt]
  refine Act.wp_mono _ h ?_
  rintro (e | a) s ⟨m, hs, hr⟩ <;> exact ⟨m, hs, hr⟩

section Calls

variable {wrap : E → ε} {c : σ α}

/-- A statement on the pool: it is answered, refused, or fails. -/
theorem endsAt_exec
    (hok : ¬Fails faults n → ∀ a ws, eng.exec c now d = .ok (a, ws) →
      P a (n + 1) (eng.applyAll d ws) txn)
    (herr : ¬Fails faults n → ∀ e, eng.exec c now d = .error e → F (wrap e) (n + 1) d txn)
    (hfail : Fails faults n → F (wrap eng.fault) (n + 1) d txn) :
    EndsAt eng faults now (Act.ask wrap (.exec .pool c)) P F n d txn := by
  unfold EndsAt
  rw [Act.wp_ask]
  simp only [after, Session.handle, Session.tick, Session.tail_drop]
  by_cases hf : Fails faults n
  · rw [if_pos (fails_iff.2 hf)]
    exact ⟨n + 1, rfl, hfail hf⟩
  · rw [if_neg (mt fails_iff.1 hf)]
    cases he : eng.exec c now d with
    | ok p => exact ⟨n + 1, rfl, hok hf p.1 p.2 he⟩
    | error e => exact ⟨n + 1, rfl, herr hf e he⟩

theorem endsAt_pool {a : α} {ws : List W} (h : eng.exec c now d = .ok (a, ws))
    (hok : ¬Fails faults n → P a (n + 1) (eng.applyAll d ws) txn)
    (hfail : Fails faults n → F (wrap eng.fault) (n + 1) d txn) :
    EndsAt eng faults now (Act.ask wrap (.exec .pool c)) P F n d txn := by
  refine endsAt_exec (fun hf a' ws' he => ?_) (fun _ e he => ?_) hfail
  · cases h.symm.trans he
    exact hok hf
  · cases h.symm.trans he

/-- A statement on the pool that writes nothing. -/
theorem endsAt_read {a : α} (h : eng.exec c now d = .ok (a, []))
    (hok : ¬Fails faults n → P a (n + 1) d txn)
    (hfail : Fails faults n → F (wrap eng.fault) (n + 1) d txn) :
    EndsAt eng faults now (Act.ask wrap (.exec .pool c)) P F n d txn :=
  endsAt_pool h hok hfail

/-- A statement in a transaction that has written `ws`. -/
theorem endsAt_tx {ws : List W}
    (hok : ¬Fails faults n → ∀ a ws', eng.exec c now (eng.applyAll d ws) = .ok (a, ws') →
      P a (n + 1) d (some (ws ++ ws')))
    (herr : ¬Fails faults n → ∀ e, eng.exec c now (eng.applyAll d ws) = .error e →
      F (wrap e) (n + 1) d (some ws))
    (hfail : Fails faults n → F (wrap eng.fault) (n + 1) d (some ws)) :
    EndsAt eng faults now (Act.ask wrap (.exec .tx c)) P F n d (some ws) := by
  unfold EndsAt
  rw [Act.wp_ask]
  simp only [after, Session.handle, Session.tick, Session.tail_drop, Session.view,
    Option.getD_some]
  by_cases hf : Fails faults n
  · rw [if_pos (fails_iff.2 hf)]
    exact ⟨n + 1, rfl, hfail hf⟩
  · rw [if_neg (mt fails_iff.1 hf)]
    cases he : eng.exec c now (eng.applyAll d ws) with
    | ok p => exact ⟨n + 1, rfl, hok hf p.1 p.2 he⟩
    | error e => exact ⟨n + 1, rfl, herr hf e he⟩

theorem endsAt_begin {P : Unit → Nat → D → Option (List W) → Prop}
    (hok : ¬Fails faults n → P () (n + 1) d (some []))
    (hfail : Fails faults n → F (wrap eng.fault) (n + 1) d txn) :
    EndsAt eng faults now (Act.ask wrap .begin) P F n d txn := by
  unfold EndsAt
  rw [Act.wp_ask]
  simp only [after, Session.handle, Session.tick, Session.tail_drop]
  by_cases hf : Fails faults n
  · rw [if_pos (fails_iff.2 hf)]
    exact ⟨n + 1, rfl, hfail hf⟩
  · rw [if_neg (mt fails_iff.1 hf)]
    exact ⟨n + 1, rfl, hok hf⟩

theorem endsAt_commit {P : Unit → Nat → D → Option (List W) → Prop} {ws : List W}
    (hok : ¬Fails faults n → P () (n + 1) (eng.applyAll d ws) none)
    (hfail : Fails faults n → F (wrap eng.fault) (n + 1) d none) :
    EndsAt eng faults now (Act.ask wrap .commit) P F n d (some ws) := by
  unfold EndsAt
  rw [Act.wp_ask]
  simp only [after, Session.handle, Session.tick, Session.tail_drop, Session.view,
    Option.getD_some]
  by_cases hf : Fails faults n
  · rw [if_pos (fails_iff.2 hf)]
    exact ⟨n + 1, rfl, hfail hf⟩
  · rw [if_neg (mt fails_iff.1 hf)]
    exact ⟨n + 1, rfl, hok hf⟩

end Calls

/-- How a run ends, well or not, whose last step only dresses up the answer. -/
theorem run_map_endsAt {γ : Type} {x : Txn σ E ε α} (h : EndsAt eng faults now x P F 0 d none)
    (g : α → γ) :
    let out := run eng (x >>= fun a => pure (g a)) d now faults
    out.1.isOk = true ∧ (∃ a m t, P a m out.2 t) ∨ out.1.isOk = false ∧ ∃ e m t, F e m out.2 t := by
  have hend : Act.wp (Session.handle eng) x _ (Session.start d now faults) := h
  obtain ⟨m, _, hr⟩ := hend
  rw [run_map]
  unfold run
  revert hr
  rcases Act.answer (Session.handle eng) x (Session.start d now faults) with ⟨e | a, s⟩
  · intro hF
    exact .inr ⟨rfl, e, m, _, hF⟩
  · intro hP
    exact .inl ⟨rfl, a, m, _, hP⟩

/-- What a run from the store `d` ends in. -/
theorem run_endsAt {x : Txn σ E ε α} (h : EndsAt eng faults now x P F 0 d none) :
    ∃ m t, match (run eng x d now faults).1 with
      | .ok a => P a m (run eng x d now faults).2 t
      | .error e => F e m (run eng x d now faults).2 t := by
  obtain ⟨m, _, hr⟩ := h
  exact ⟨m, _, hr⟩

end Txn

end Lib
