import Meno.Lib.Txn

/-!
# Lib.Clocked

Runs of one caller in which time passes between the calls. A clock gives the time of every call;
`Txn.run` is the run in which all of them are made at one time.
-/

namespace Lib

namespace Session

variable {σ : Type → Type} {D W T E : Type} (eng : Engine σ D W T E) (clock : Nat → T)

/-- The time of a session is given from outside. -/
theorem handle_now {β : Type} (c : Cmd σ E β) (s : Session D W T) :
    (handle eng c s).2.now = s.now := by
  cases c with
  | begin =>
    simp only [handle]
    split <;> rfl
  | commit =>
    simp only [handle]
    split <;> rfl
  | exec e c =>
    cases e with
    | pool =>
      simp only [handle]
      split
      · rfl
      · split <;> rfl
    | tx =>
      simp only [handle]
      split
      · rfl
      · split <;> rfl

/-- The answer to the call with this number. After it the clock shows the time of the next one. -/
def handleAt {β : Type} (c : Cmd σ E β) (s : Session D W T × Nat) : β × Session D W T × Nat :=
  let r := handle eng c s.1
  (r.1, { r.2 with now := clock (s.2 + 1) }, s.2 + 1)

section Pool

variable {β : Type} {c : σ β} {d : D} {n : Nat} {faults : List Bool}

theorem handleAt_fault (hf : faults.headD false = true) :
    handleAt eng clock (.exec .pool c) (start d (clock n) faults, n) =
      (.error eng.fault, start d (clock (n + 1)) faults.tail, n + 1) := by
  simp only [handleAt, handle, start, hf, if_true, tick]

theorem handleAt_error {e : E} (hf : faults.headD false = false)
    (he : eng.exec c (clock n) d = .error e) :
    handleAt eng clock (.exec .pool c) (start d (clock n) faults, n) =
      (.error e, start d (clock (n + 1)) faults.tail, n + 1) := by
  simp only [handleAt, handle, start, hf, Bool.false_eq_true, if_false, he, tick]

theorem handleAt_ok {b : β} {ws : List W} (hf : faults.headD false = false)
    (he : eng.exec c (clock n) d = .ok (b, ws)) :
    handleAt eng clock (.exec .pool c) (start d (clock n) faults, n) =
      (.ok b, start (eng.applyAll d ws) (clock (n + 1)) faults.tail, n + 1) := by
  simp only [handleAt, handle, start, hf, Bool.false_eq_true, if_false, he, tick]

end Pool

end Session

namespace Txn

variable {σ : Type → Type} {D W T E ε α : Type} (eng : Engine σ D W T E) (clock : Nat → T)

/-- A program run from its call with the number `n`: its result, the database it leaves and the
number of the call that is next when it has returned. -/
def runFrom (n : Nat) (x : Txn σ E ε α) (d : D) (faults : List Bool) : Except ε α × D × Nat :=
  let r := Act.answer (Session.handleAt eng clock) x (Session.start d (clock n) faults, n)
  (r.1, r.2.1.committed, r.2.2)

/-- The run of a whole program; it has returned at the time of the call after its last one. -/
def runAt (x : Txn σ E ε α) (d : D) (faults : List Bool) : Except ε α × D × Nat :=
  runFrom eng clock 0 x d faults

variable {eng} {clock}

/-- A statement and what comes after it: where it is answered, the rest goes on from what it has
written, a call later. -/
theorem runFrom_pool_ok {β : Type} {wrap : E → ε} {c : σ β} {f : β → Txn σ E ε α} {a : α}
    {d d' : D} {n m : Nat} {faults : List Bool} :
    runFrom eng clock n (Act.ask wrap (.exec .pool c) >>= f) d faults = (.ok a, d', m) ↔
      faults.headD false = false ∧ ∃ b ws, eng.exec c (clock n) d = .ok (b, ws) ∧
        runFrom eng clock (n + 1) (f b) (eng.applyAll d ws) faults.tail = (.ok a, d', m) := by
  rw [runFrom, Act.answer_bind, Act.answer_ask]
  by_cases hf : faults.headD false = true
  · rw [Session.handleAt_fault eng clock hf, hf]
    simp
  · have hf' : faults.headD false = false := Bool.eq_false_iff.2 hf
    cases he : eng.exec c (clock n) d with
    | error e =>
      rw [Session.handleAt_error eng clock hf' he]
      simp
    | ok p =>
      obtain ⟨b, ws⟩ := p
      rw [Session.handleAt_ok eng clock hf' he, hf']
      simp [runFrom]

theorem runFrom_read_ok {β : Type} {wrap : E → ε} {c : σ β} {b : β} {f : β → Txn σ E ε α} {a : α}
    {d d' : D} {n m : Nat} {faults : List Bool} (h : eng.exec c (clock n) d = .ok (b, [])) :
    runFrom eng clock n (Act.ask wrap (.exec .pool c) >>= f) d faults = (.ok a, d', m) ↔
      faults.headD false = false ∧
        runFrom eng clock (n + 1) (f b) d faults.tail = (.ok a, d', m) := by
  rw [runFrom_pool_ok]
  simp [h]

theorem runFrom_pure_ok {a b : α} {d d' : D} {n m : Nat} {faults : List Bool} :
    runFrom eng clock n (pure b : Txn σ E ε α) d faults = (.ok a, d', m) ↔
      b = a ∧ d = d' ∧ n = m := by
  simp [runFrom, Session.start]

theorem run_handleAt_still (eng : Engine σ D W T E) {ρ : Type} {now : T} (p : Prog (Cmd σ E) ρ) :
    ∀ (s : Session D W T) (n : Nat), s.now = now →
      (Prog.run (Session.handleAt eng fun _ => now) p (s, n)).1 =
          (Prog.run (Session.handle eng) p s).1 ∧
        (Prog.run (Session.handleAt eng fun _ => now) p (s, n)).2.1 =
          (Prog.run (Session.handle eng) p s).2 := by
  induction p with
  | ret r =>
    intro s n _
    exact ⟨rfl, rfl⟩
  | call c k ih =>
    intro s n hs
    have hnow : (Session.handle eng c s).2.now = now := (Session.handle_now eng c s).trans hs
    have hsame : Session.handleAt eng (fun _ => now) c (s, n) =
        ((Session.handle eng c s).1, (Session.handle eng c s).2, n + 1) := by
      rw [Session.handleAt, ← hnow]
    rw [Prog.run, Prog.run, hsame]
    exact ih _ _ _ hnow

/-- Where the clock stands still, the run is that at one time. -/
theorem run_eq_runFrom (eng : Engine σ D W T E) (x : Txn σ E ε α) (d : D) (now : T) (n : Nat)
    (faults : List Bool) :
    run eng x d now faults =
      ((runFrom eng (fun _ => now) n x d faults).1,
        (runFrom eng (fun _ => now) n x d faults).2.1) := by
  obtain ⟨hr, hs⟩ :=
    run_handleAt_still eng (ExceptT.run x) (Session.start d now faults) n rfl
  exact (Prod.ext hr (congrArg Session.committed hs)).symm

end Txn

end Lib
