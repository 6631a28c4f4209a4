import Meno.Lib.Prog

/-!
# Lib.Txn

Statements against a database with transactions, READ COMMITTED.

A statement is executed either on a connection of its own from the pool, where it sees the
committed database and its writes are committed at once, or inside the caller's open
transaction, where it sees the committed database with the transaction's own writes over it and
its writes wait for `commit`. A statement that fails writes nothing. A transaction that is
still open when its program ends is rolled back: its writes are dropped with the session.
-/

namespace Lib

/-- What a store does: `exec` gives a statement's answer and its row writes at a time of day,
`apply` performs one row write, `fault` is the error of a lost connection. -/
structure Engine (σ : Type → Type) (D W T E : Type) where
  exec : {β : Type} → σ β → T → D → Except E (β × List W)
  apply : D → W → D
  fault : E

inductive Executor where
  | pool
  | tx
deriving DecidableEq

/-- The calls a program makes to the store. -/
inductive Cmd (σ : Type → Type) (E : Type) : Type → Type 1 where
  | begin : Cmd σ E (Except E Unit)
  | commit : Cmd σ E (Except E Unit)
  | exec {β : Type} (e : Executor) (s : σ β) : Cmd σ E (Except E β)

/-- A call with its statement as one of another store. -/
def Cmd.lift {σ τ : Type → Type} {E : Type} (f : {β : Type} → σ β → τ β) :
    {β : Type} → Cmd σ E β → Cmd τ E β
  | _, .begin => .begin
  | _, .commit => .commit
  | _, .exec e s => .exec e (f s)

namespace Engine

variable {σ : Type → Type} {D W T E : Type} (eng : Engine σ D W T E)

def applyAll (d : D) (ws : List W) : D := ws.foldl eng.apply d

@[simp] theorem applyAll_nil (d : D) : eng.applyAll d [] = d := rfl

@[simp] theorem applyAll_cons (d : D) (w : W) (ws : List W) :
    eng.applyAll d (w :: ws) = eng.applyAll (eng.apply d w) ws := rfl

theorem applyAll_append (d : D) (ws ws' : List W) :
    eng.applyAll d (ws ++ ws') = eng.applyAll (eng.applyAll d ws) ws' :=
  List.foldl_append

end Engine

/-! ## One caller -/

/-- The store as one caller finds it: the committed database, the writes of the caller's open
transaction, the time of day, and which of the coming calls fail (none past the list's end). -/
structure Session (D W T : Type) where
  committed : D
  txn : Option (List W)
  now : T
  faults : List Bool

namespace Session

variable {σ : Type → Type} {D W T E : Type} (eng : Engine σ D W T E)

/-- The session of a caller that has not opened a transaction. -/
def start (d : D) (now : T) (faults : List Bool) : Session D W T := ⟨d, none, now, faults⟩

/-- What a statement of the open transaction sees. -/
def view (s : Session D W T) : D := eng.applyAll s.committed (s.txn.getD [])

@[simp] theorem view_mk (d : D) (txn : Option (List W)) (now : T) (fs : List Bool) :
    view eng ⟨d, txn, now, fs⟩ = eng.applyAll d (txn.getD []) := rfl

/-- The rest of the fault schedule. -/
def tick (s : Session D W T) : Session D W T := { s with faults := s.faults.tail }

/-- The answer to one call. -/
def handle : {β : Type} → Cmd σ E β → Session D W T → β × Session D W T
  | _, .begin, s =>
    if s.faults.headD false then (.error eng.fault, s.tick)
    else (.ok (), { s.tick with txn := some [] })
  | _, .commit, s =>
    if s.faults.headD false then (.error eng.fault, { s.tick with txn := none })
    else (.ok (), { s.tick with committed := s.view eng, txn := none })
  | _, .exec .pool c, s =>
    if s.faults.headD false then (.error eng.fault, s.tick)
    else match eng.exec c s.now s.committed with
      | .ok (b, ws) => (.ok b, { s.tick with committed := eng.applyAll s.committed ws })
      | .error e => (.error e, s.tick)
  | _, .exec .tx c, s =>
    if s.faults.headD false then (.error eng.fault, s.tick)
    else match eng.exec c s.now (s.view eng) with
      | .ok (b, ws) => (.ok b, { s.tick with txn := some (s.txn.getD [] ++ ws) })
      | .error e => (.error e, s.tick)

@[simp] theorem handle_tx_committed {β : Type} (c : σ β) (s : Session D W T) :
    (handle eng (.exec .tx c) s).2.committed = s.committed := by
  simp only [handle]
  split
  · rfl
  · split <;> rfl

theorem handle_begin_committed (s : Session D W T) :
    (handle eng .begin s).2.committed = s.committed := by
  simp only [handle]
  split <;> rfl

/-- A statement that writes nothing leaves the database alone on the pool, too. -/
theorem handle_pool_committed {β : Type} {c : σ β} {s : Session D W T}
    (h : ∀ b ws, eng.exec c s.now s.committed = .ok (b, ws) → ws = []) :
    (handle eng (.exec .pool c) s).2.committed = s.committed := by
  simp only [handle]
  split
  · rfl
  · split
    · rename_i b ws he
      rw [h b ws he]
      rfl
    · rfl

/-- A statement on the pool that is answered was executed on the committed database. -/
theorem handle_pool_ok {β : Type} {c : σ β} {s : Session D W T} {b : β}
    (h : (handle eng (.exec .pool c) s).1 = .ok b) :
    ∃ ws, eng.exec c s.now s.committed = .ok (b, ws) ∧
      (handle eng (.exec .pool c) s).2.committed = eng.applyAll s.committed ws := by
  simp only [handle] at h ⊢
  split at h
  · cases h
  · rename_i hfault
    cases he : eng.exec c s.now s.committed with
    | error e =>
      rw [he] at h
      cases h
    | ok r =>
      rw [he] at h
      obtain ⟨b', ws⟩ := r
      cases h
      rw [if_neg hfault]
      exact ⟨ws, rfl, rfl⟩

/-- An answered statement was executed on a database: what it answered and wrote there. -/
theorem handle_exec_ok {β : Type} {e : Executor} {c : σ β} {s s' : Session D W T} {b : β}
    (h : handle eng (.exec e c) s = (.ok b, s')) :
    ∃ d ws, eng.exec c s.now d = .ok (b, ws) := by
  cases e with
  | pool =>
    simp only [handle] at h
    split at h
    · cases h
    · split at h
      · rename_i ws he
        cases h
        exact ⟨_, ws, he⟩
      · cases h
  | tx =>
    simp only [handle] at h
    split at h
    · cases h
    · split at h
      · rename_i ws he
        cases h
        exact ⟨_, ws, he⟩
      · cases h

/-! ### Without faults -/

/-- More writes in the open transaction. -/
def write (s : Session D W T) (ws : List W) : Session D W T :=
  { s with txn := some (s.txn.getD [] ++ ws) }

@[simp] theorem write_committed (s : Session D W T) (ws : List W) :
    (s.write ws).committed = s.committed := rfl
@[simp] theorem write_now (s : Session D W T) (ws : List W) : (s.write ws).now = s.now := rfl
@[simp] theorem write_faults (s : Session D W T) (ws : List W) :
    (s.write ws).faults = s.faults := rfl

/-- The caller's transaction is open and none of its calls will fail by itself. -/
structure Calm (s : Session D W T) : Prop where
  faults : s.faults = []
  opened : s.txn.isSome = true

theorem Calm.write {s : Session D W T} (h : s.Calm) (ws : List W) : (s.write ws).Calm :=
  ⟨h.faults, rfl⟩

theorem Calm.write_nil {s : Session D W T} (h : s.Calm) : s.write [] = s := by
  obtain ⟨d, txn, now, fs⟩ := s
  cases txn with
  | none => cases h.opened
  | some ws => simp [Session.write]

theorem view_write (s : Session D W T) (ws : List W) :
    (s.write ws).view eng = eng.applyAll (s.view eng) ws :=
  eng.applyAll_append s.committed (s.txn.getD []) ws

variable {s : Session D W T} {β : Type} {c : σ β} {b : β}

theorem tick_of_no_faults (hf : s.faults = []) : s.tick = s := by
  unfold tick
  rw [hf]
  cases s
  cases hf
  rfl

theorem handle_tx_ok {ws : List W} (hf : s.faults = [])
    (h : eng.exec c s.now (s.view eng) = .ok (b, ws)) :
    handle eng (.exec .tx c) s = (.ok b, s.write ws) := by
  simp only [handle, h, tick_of_no_faults hf]
  simp [hf, write]

theorem handle_tx_error {e : E} (hf : s.faults = [])
    (h : eng.exec c s.now (s.view eng) = .error e) :
    handle eng (.exec .tx c) s = (.error e, s) := by
  simp only [handle, h, tick_of_no_faults hf]
  simp [hf]

theorem handle_read (hf : s.faults = []) (h : eng.exec c s.now s.committed = .ok (b, [])) :
    handle eng (.exec .pool c) s = (.ok b, s) := by
  have hno : s.faults.headD false = false := by rw [hf]; rfl
  simp only [handle, h, tick_of_no_faults hf, hno, Bool.false_eq_true, if_false]
  rfl

theorem handle_begin (hf : s.faults = []) :
    handle eng .begin s = (.ok (), { s with txn := some [] }) := by
  simp only [handle, tick_of_no_faults hf]
  simp [hf]

theorem handle_commit (hf : s.faults = []) :
    handle eng .commit s = (.ok (), { s with committed := s.view eng, txn := none }) := by
  simp only [handle, tick_of_no_faults hf]
  simp [hf]

end Session

/-! ## Programs that give up at the first failed call -/

/-- The answer of a failed call. -/
def Cmd.failed {σ : Type → Type} {E : Type} : {β : Type} → Cmd σ E β → E → β
  | _, .begin, e => .error e
  | _, .commit, e => .error e
  | _, .exec _ _, e => .error e

/-- A failed call ends the program with an error. -/
def Prog.FailFast {σ : Type → Type} {E ε α : Type} : Prog (Cmd σ E) (Except ε α) → Prop
  | .ret _ => True
  | .call c k => (∀ e, ∃ e', k (c.failed e) = .ret (.error e')) ∧ ∀ b, FailFast (k b)

def FailFast {σ : Type → Type} {E ε α : Type} (x : Act (Cmd σ E) ε α) : Prop :=
  Prog.FailFast x.run

section FailFast

variable {σ : Type → Type} {D W T E ε α γ : Type} (eng : Engine σ D W T E)

theorem failFast_pure (a : α) : FailFast (pure a : Act (Cmd σ E) ε α) := trivial

theorem failFast_throw (e : ε) : FailFast (throw e : Act (Cmd σ E) ε α) := trivial

theorem failFast_bind {x : Act (Cmd σ E) ε α} {f : α → Act (Cmd σ E) ε γ}
    (hx : FailFast x) (hf : ∀ a, FailFast (f a)) : FailFast (x >>= f) := by
  have hb : (x >>= f).run = x.run >>= ExceptT.bindCont f := rfl
  unfold FailFast at hx ⊢
  rw [hb]
  generalize x.run = p at hx
  induction p with
  | ret r =>
    cases r with
    | ok a => exact hf a
    | error e => trivial
  | call c k ih =>
    refine ⟨?_, fun b => ih b (hx.2 b)⟩
    intro e
    obtain ⟨e', he⟩ := hx.1 e
    refine ⟨e', ?_⟩
    show (k (c.failed e)).bind (ExceptT.bindCont f) = .ret (.error e')
    rw [he]
    rfl

theorem failFast_exec {β : Type} (wrap : E → ε) (e : Executor) (c : σ β) :
    FailFast (Act.ask wrap (.exec e c) : Act (Cmd σ E) ε β) :=
  ⟨fun err => ⟨wrap err, rfl⟩, fun b => by cases b <;> trivial⟩

theorem failFast_begin (wrap : E → ε) :
    FailFast (Act.ask wrap .begin : Act (Cmd σ E) ε Unit) :=
  ⟨fun err => ⟨wrap err, rfl⟩, fun b => by cases b <;> trivial⟩

theorem failFast_commit (wrap : E → ε) :
    FailFast (Act.ask wrap .commit : Act (Cmd σ E) ε Unit) :=
  ⟨fun err => ⟨wrap err, rfl⟩, fun b => by cases b <;> trivial⟩

/-- A call that is not made to fail is answered as if none of the coming ones were, too. -/
theorem Session.handle_calm {β : Type} (c : Cmd σ E β) (s : Session D W T)
    (h : s.faults.headD false = false) :
    handle eng c { s with faults := [] } =
      ((handle eng c s).1, { (handle eng c s).2 with faults := [] }) := by
  have hno : ({ s with faults := [] } : Session D W T).faults.headD false = false := rfl
  have hview : view eng { s with faults := [] } = view eng s := rfl
  cases c with
  | begin =>
    simp only [handle, h, hno, Bool.false_eq_true, if_false]
    rfl
  | commit =>
    simp only [handle, h, hno, hview, Bool.false_eq_true, if_false]
    rfl
  | exec e c =>
    cases e with
    | pool =>
      simp only [handle, h, hno, Bool.false_eq_true, if_false]
      cases eng.exec c s.now s.committed <;> rfl
    | tx =>
      simp only [handle, h, hno, hview, Bool.false_eq_true, if_false]
      cases eng.exec c s.now (s.view eng) <;> rfl

theorem Session.handle_failed {β : Type} (c : Cmd σ E β) (s : Session D W T)
    (h : s.faults.headD false = true) : (handle eng c s).1 = c.failed eng.fault := by
  cases c with
  | begin => simp only [handle, h, if_true, Cmd.failed]
  | commit => simp only [handle, h, if_true, Cmd.failed]
  | exec e c => cases e <;> simp only [handle, h, if_true, Cmd.failed]

/-- A program that gives up at the first failed call and ends well has met no failed call. -/
theorem Prog.FailFast.run_calm {p : Prog (Cmd σ E) (Except ε α)} (hp : p.FailFast) :
    ∀ {s s' : Session D W T} {a : α}, Prog.run (Session.handle eng) p s = (.ok a, s') →
      Prog.run (Session.handle eng) p { s with faults := [] } =
        (.ok a, { s' with faults := [] }) := by
  induction p with
  | ret r =>
    intro s s' a h
    cases h
    rfl
  | call c k ih =>
    intro s s' a h
    rw [Prog.run] at h
    cases hf : s.faults.headD false with
    | true =>
      obtain ⟨e', he⟩ := hp.1 eng.fault
      rw [Session.handle_failed eng c s hf, he] at h
      cases h
    | false =>
      rw [Prog.run, Session.handle_calm eng c s hf]
      exact ih _ (hp.2 _) h

end FailFast

/-- A caller's program. -/
abbrev Txn (σ : Type → Type) (E ε α : Type) : Type 1 := Act (Cmd σ E) ε α

namespace Txn

variable {σ : Type → Type} {D W T E ε α : Type} (eng : Engine σ D W T E)

/-- A caller's program run from a database: its result and the database it leaves. -/
def run (x : Txn σ E ε α) (d : D) (now : T) (faults : List Bool) : Except ε α × D :=
  ((Act.answer (Session.handle eng) x (Session.start d now faults)).1,
   (Act.answer (Session.handle eng) x (Session.start d now faults)).2.committed)

variable {eng}

theorem run_eq {x : Txn σ E ε α} {d : D} {now : T} {faults : List Bool} {r : Except ε α}
    {s : Session D W T}
    (h : Act.answer (Session.handle eng) x (Session.start d now faults) = (r, s)) :
    run eng x d now faults = (r, s.committed) := by
  rw [run, h]

/-- None of the first `n` calls fails. -/
def quiet : Nat → List Bool → Bool
  | 0, _ => true
  | n + 1, faults => !faults.headD false && quiet n faults.tail

@[simp] theorem quiet_zero {faults : List Bool} : quiet 0 faults = true := rfl

theorem quiet_succ {n : Nat} {faults : List Bool} :
    quiet (n + 1) faults = true ↔ faults.headD false = false ∧ quiet n faults.tail = true := by
  rw [quiet]
  cases faults.headD false <;> simp

/-- A program that begins with a read ends well when the read is answered and the rest ends
well. -/
theorem run_read_ok {β : Type} {wrap : E → ε} {c : σ β} {b : β} {f : β → Txn σ E ε α} {a : α}
    {d : D} {now : T} {faults : List Bool} (h : eng.exec c now d = .ok (b, [])) :
    (run eng (Act.ask wrap (.exec .pool c) >>= f) d now faults).1 = .ok a ↔
      faults.headD false = false ∧ (run eng (f b) d now faults.tail).1 = .ok a := by
  rw [run, run, Act.answer_bind, Act.answer_ask]
  simp only [Session.handle, Session.start, h]
  cases faults.headD false with
  | true => simp
  | false => simp [Session.tick, Engine.applyAll]

/-- Without faults, a program that begins with a statement goes on from what that has written. -/
theorem run_pool_ok {β : Type} {wrap : E → ε} {c : σ β} {b : β} {ws : List W}
    {f : β → Txn σ E ε α} {d : D} {now : T} (h : eng.exec c now d = .ok (b, ws)) :
    run eng (Act.ask wrap (.exec .pool c) >>= f) d now [] =
      run eng (f b) (eng.applyAll d ws) now [] := by
  rw [run, run, Act.answer_bind, Act.answer_ask]
  simp [Session.handle, Session.start, Session.tick, h]

/-- The program ends well. -/
def Succeeds (eng : Engine σ D W T E) (x : Txn σ E ε α) (d : D) (now : T) (faults : List Bool) :
    Prop :=
  ∃ a, (run eng x d now faults).1 = .ok a

theorem succeeds_pure (a : α) (d : D) (now : T) (faults : List Bool) :
    Succeeds eng (pure a : Txn σ E ε α) d now faults :=
  ⟨a, rfl⟩

theorem not_succeeds_throw (e : ε) (d : D) (now : T) (faults : List Bool) :
    ¬Succeeds eng (throw e : Txn σ E ε α) d now faults := by
  rintro ⟨a, ⟨⟩⟩

/-- A statement and what comes after it: where it is answered, the rest goes on from what it has
written. -/
theorem succeeds_pool {β : Type} {wrap : E → ε} {c : σ β} {f : β → Txn σ E ε α} {d : D} {now : T}
    {faults : List Bool} : Succeeds eng (Act.ask wrap (.exec .pool c) >>= f) d now faults ↔
      faults.headD false = false ∧ ∃ b ws, eng.exec c now d = .ok (b, ws) ∧
        Succeeds eng (f b) (eng.applyAll d ws) now faults.tail := by
  have hhandle : ∀ s : Session D W T, s.faults.headD false = true →
      Session.handle eng (.exec .pool c) s = (.error eng.fault, s.tick) := by
    intro s hs
    simp only [Session.handle, if_pos hs]
  unfold Succeeds run
  rw [Act.answer_bind, Act.answer_ask]
  by_cases hf : faults.headD false = true
  · rw [hhandle _ hf, hf]
    simp
  · have hf' : faults.headD false = false := Bool.eq_false_iff.2 hf
    simp only [Session.handle, Session.start, hf', Bool.false_eq_true, if_false, true_and]
    cases eng.exec c now d with
    | error e => simp
    | ok p =>
      obtain ⟨b, ws⟩ := p
      simp [Session.tick]

theorem succeeds_read {β : Type} {wrap : E → ε} {c : σ β} {b : β} {f : β → Txn σ E ε α} {d : D}
    {now : T} {faults : List Bool} (h : eng.exec c now d = .ok (b, [])) :
    Succeeds eng (Act.ask wrap (.exec .pool c) >>= f) d now faults ↔
      faults.headD false = false ∧ Succeeds eng (f b) d now faults.tail := by
  rw [succeeds_pool]
  simp [h]

/-- A statement whose outcome does not matter: what comes after it goes on from the store as it is
or from what the statement has written. -/
theorem succeeds_attempt {β : Type} {wrap : E → ε} {c : σ β} {f : Except ε β → Txn σ E ε α} {d : D}
    {now : T} {faults : List Bool} {Q : Prop}
    (h : ∀ r d', (d' = d ∨ ∃ b ws, eng.exec c now d = .ok (b, ws) ∧ d' = eng.applyAll d ws) →
      (Succeeds eng (f r) d' now faults.tail ↔ Q)) :
    Succeeds eng (Act.attempt (Act.ask wrap (.exec .pool c)) >>= f) d now faults ↔ Q := by
  have hhandle : ∃ r d', (d' = d ∨ ∃ b ws, eng.exec c now d = .ok (b, ws) ∧ d' = eng.applyAll d ws) ∧
      Session.handle eng (.exec .pool c) (Session.start d now faults) =
        (r, Session.start d' now faults.tail) := by
    simp only [Session.handle]
    by_cases hf : faults.headD false = true
    · exact ⟨_, d, .inl rfl, if_pos hf⟩
    · rw [Session.start, if_neg hf]
      cases eng.exec c now d with
      | error e => exact ⟨_, d, .inl rfl, rfl⟩
      | ok p => exact ⟨_, eng.applyAll d p.2, .inr ⟨p.1, p.2, rfl, rfl⟩, rfl⟩
  obtain ⟨r, d', hd', hhandle⟩ := hhandle
  have hanswer : ∃ r', Act.answer (Session.handle eng)
      (Act.attempt (Act.ask wrap (.exec .pool c)) : Txn σ E ε _) (Session.start d now faults) =
        (.ok r', Session.start d' now faults.tail) := by
    rw [Act.answer_attempt, Act.answer_ask, hhandle]
    cases r with
    | error e => exact ⟨_, rfl⟩
    | ok b => exact ⟨_, rfl⟩
  obtain ⟨r', hanswer⟩ := hanswer
  rw [← h r' d' hd', Succeeds, Succeeds, run, run, Act.answer_bind_ok _ hanswer]

/-- A last step that only dresses up the answer. -/
theorem run_map {γ : Type} (g : α → γ) (x : Txn σ E ε α) (d : D) (now : T) (faults : List Bool) :
    run eng (x >>= fun a => pure (g a)) d now faults =
      ((run eng x d now faults).1.map g, (run eng x d now faults).2) := by
  unfold run
  rw [Act.answer_bind]
  rcases Act.answer (Session.handle eng) x (Session.start d now faults) with ⟨r, s⟩
  cases r <;> rfl

/-- Whatever the faults, a good end is the one without faults. -/
theorem run_ok_calm {x : Txn σ E ε α} (hx : FailFast x) {d d' : D} {now : T}
    {faults : List Bool} {a : α} (h : run eng x d now faults = (.ok a, d')) :
    run eng x d now [] = (.ok a, d') := by
  obtain ⟨hr, hd⟩ := Prod.mk.inj h
  have hrun := Prog.FailFast.run_calm eng hx (s := Session.start d now faults) (Prod.ext hr rfl)
  refine (run_eq hrun).trans ?_
  rw [← hd]
  rfl

/-- Calls that are statements on the pool, and `P`. -/
def OnPool (P : {β : Type} → σ β → Prop) : {β : Type} → Cmd σ E β → Prop
  | _, .exec .pool c => P c
  | _, _ => False

/-- What every statement of a program on the pool does to the database, one after the other, the
program does, in any session. -/
theorem committed_onPool {P : {β : Type} → σ β → Prop} {R : D → D → Prop} {now : T}
    (hrefl : ∀ d, R d d) (htrans : ∀ d d' d'', R d d' → R d' d'' → R d d'')
    (hR : ∀ {β : Type} (c : σ β), P c → ∀ d b ws, eng.exec c now d = .ok (b, ws) →
      R d (eng.applyAll d ws))
    {ρ : Type} {p : Prog (Cmd σ E) ρ} (hp : p.Uses (OnPool P)) :
    ∀ {s : Session D W T}, s.now = now →
      R s.committed (Prog.run (Session.handle eng) p s).2.committed := by
  induction p with
  | ret r => intro s _; exact hrefl _
  | call c k ih =>
    intro s hnow
    obtain ⟨hc, hk⟩ := hp
    rw [Prog.run]
    cases c with
    | begin => cases hc
    | commit => cases hc
    | exec e c =>
      cases e with
      | tx => cases hc
      | pool =>
        refine htrans _ _ _ ?_ (ih _ (hk _) ?_)
        · simp only [Session.handle]
          split
          · exact hrefl _
          · split
            · rename_i b ws he
              rw [hnow] at he
              exact hR c hc _ b ws he
            · exact hrefl _
        · rw [← hnow]
          simp only [Session.handle]
          split
          · rfl
          · split <;> rfl

/-- After its first half a program that only reads on has done all that it does. -/
theorem run_bind_reads {γ : Type} {P : {β : Type} → σ β → Prop}
    (hP : ∀ {β : Type} (c : σ β), P c → ∀ now d b ws, eng.exec c now d = .ok (b, ws) → ws = [])
    {x : Txn σ E ε γ} {f : γ → Txn σ E ε α} (hf : ∀ a, Act.Uses (OnPool P) (f a)) (d : D) (now : T)
    (faults : List Bool) : (run eng (x >>= f) d now faults).2 = (run eng x d now faults).2 := by
  unfold run
  rw [Act.answer_bind]
  rcases Act.answer (Session.handle eng) x (Session.start d now faults) with ⟨e | a, s⟩
  · rfl
  · refine (committed_onPool (R := Eq) (fun _ => rfl) (fun _ _ _ => Eq.trans) ?_ (hf a) rfl).symm
    intro β c hc d b ws he
    rw [hP c hc _ d b ws he]
    rfl

end Txn

end Lib
