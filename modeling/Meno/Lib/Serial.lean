import Meno.Lib.Faults
import Meno.Lib.Schedule

/-!
# Lib.Serial

Concurrent calls that come to what some serial execution of them comes to.

A `Decision` says what an operation does when it is made alone, in terms of what `view` shows of the
store. `Undecided` says of a program in the middle of its run, with other callers around it, that
it has done nothing so far, and that one of its coming calls will do at once what the decision says
for the store as it is then; after that call the program is `Settled`. So the order in which the
calls decide is a serial execution: `serial_of_reaches`.

`link` is what the others may do to the store, and `may` what a call that does not fail is waiting
for. With nobody around, the same judgement says what the program does alone.
-/

namespace Lib

/-! ## Decisions -/

/-- What an operation does where `passes`: it moves what is seen of the store by `effect`, and
answers well if `well`. Elsewhere it fails and does nothing. -/
structure Decision (C T : Type) where
  passes : C → Prop
  well : Bool
  effect : T → C → C

/-- The operation, made at the time `t` on a store that is seen as `c`, ends well if `v`, and leaves
it to be seen as `c'`. -/
def Decision.Gives {C T : Type} (δ : Decision C T) (t : T) (c : C) (v : Bool) (c' : C) : Prop :=
  δ.passes c ∧ v = δ.well ∧ c' = δ.effect t c ∨ ¬δ.passes c ∧ v = false ∧ c' = c

theorem Decision.Gives.unique {C T : Type} {δ : Decision C T} {t : T} {c c₁ c₂ : C} {v₁ v₂ : Bool}
    (h₁ : δ.Gives t c v₁ c₁) (h₂ : δ.Gives t c v₂ c₂) : v₁ = v₂ ∧ c₁ = c₂ := by
  rcases h₁ with ⟨hp, rfl, rfl⟩ | ⟨hp, rfl, rfl⟩
  · rcases h₂ with ⟨_, rfl, rfl⟩ | ⟨hn, _, _⟩
    · exact ⟨rfl, rfl⟩
    · exact absurd hp hn
  · rcases h₂ with ⟨hq, _, _⟩ | ⟨_, rfl, rfl⟩
    · exact absurd hq hp
    · exact ⟨rfl, rfl⟩

/-- The time that a call's commit takes for `NOW()`. -/
def Cmd.stamp {σ : Type → Type} {E T : Type} : {β : Type} → Cmd σ E β → (since clock : T) → T
  | _, .exec .pool _, _, clock => clock
  | _, _, since, _ => since

/-! ## Programs among others -/

section Judgements

variable {σ : Type → Type} {D W T E ε α κ R C : Type} [DecidableEq κ] (eng : Engine σ D W T E)
  (K : Keyed eng κ R) (faults : List Bool)

/-- The answer to the `n`-th call of a program, and the store and transaction it leaves. -/
def Cmd.result {β : Type} (c : Cmd σ E β) (txn : Option (List W)) (since clock : T) (n : Nat) (d : D) :
    β × Session D W T :=
  Session.handle eng c ⟨d, txn, c.time since clock, [faults.getD n false]⟩

/-- What is left of the program changes nothing, and it ends well if `v`. -/
def Prog.Settled (v : Bool) : Prog (Cmd σ E) (Except ε α) → Option (List W) → T → Nat → Prop
  | .ret r, _, _, _ => r.isOk = v
  | .call c k, txn, since, n => ∀ (d : D) (clock : T),
      (c.result eng faults txn since clock n d).2.committed = d ∧
        Settled v (k (c.result eng faults txn since clock n d).1)
          (c.result eng faults txn since clock n d).2.txn (c.since since clock) (n + 1)

variable (view : D → C) (link : D → D → Prop) (may : {β : Type} → Cmd σ E β → D → Prop)
  (δ : Decision C T)

/-- What the others may have done while the writes `ws` were pending. -/
def Rely (ws : List W) (d d' : D) : Prop :=
  link d d' ∧ ∀ x ∈ ws, K.look d' (K.key x) = K.look d (K.key x)

/-- The program has done nothing yet, and one of its coming calls decides. -/
def Prog.Undecided : Prog (Cmd σ E) (Except ε α) → Option (List W) → T → Nat → D → Prop
  | .ret _, _, _, _, _ => False
  | .call c k, txn, since, n, d => ∀ (d' : D) (clock : T), Rely eng K link (txn.getD []) d d' →
      (¬Fails faults n → may c d') →
      (c.result eng faults txn since clock n d').2.committed = d' ∧
          Undecided (k (c.result eng faults txn since clock n d').1)
            (c.result eng faults txn since clock n d').2.txn (c.since since clock) (n + 1) d' ∨
        ∃ v, δ.Gives (c.stamp since clock) (view d') v
            (view (c.result eng faults txn since clock n d').2.committed) ∧
          Settled eng faults v (k (c.result eng faults txn since clock n d').1)
            (c.result eng faults txn since clock n d').2.txn (c.since since clock) (n + 1)

/-- The program is undecided, or it has been refused just now. -/
def Prog.Goes (p : Prog (Cmd σ E) (Except ε α)) (txn : Option (List W)) (since : T) (n : Nat)
    (d : D) : Prop :=
  Undecided eng K faults view link may δ p txn since n d ∨
    ¬δ.passes (view d) ∧ Settled eng faults false p txn since n

variable {eng K faults view link may δ} {p : Prog (Cmd σ E) (Except ε α)} {txn : Option (List W)}
  {since : T} {n : Nat} {d d' : D}

theorem Rely.trans (htrans : ∀ d d' d'', link d d' → link d' d'' → link d d'') {ws : List W}
    {d'' : D} (h : Rely eng K link ws d d') (h' : Rely eng K link ws d' d'') :
    Rely eng K link ws d d'' :=
  ⟨htrans d d' d'' h.1 h'.1, fun x hx => (h'.2 x hx).trans (h.2 x hx)⟩

/-- The others may go on. -/
theorem Prog.Undecided.rely (htrans : ∀ d d' d'', link d d' → link d' d'' → link d d'')
    (h : p.Undecided eng K faults view link may δ txn since n d)
    (hr : Rely eng K link (txn.getD []) d d') :
    p.Undecided eng K faults view link may δ txn since n d' := by
  cases p with
  | ret r => exact h
  | call c k => exact fun d'' clock hr' hmay => h d'' clock (hr.trans htrans hr') hmay

/-! ### Alone -/

/-- Of the calls to come, the answer to one depends on whether that one fails. -/
theorem Session.handle_head {β : Type} (c : Cmd σ E β) (t : T) (fs : List Bool) :
    Session.handle eng c ⟨d, txn, t, fs⟩ =
      ((Session.handle eng c ⟨d, txn, t, [fs.headD false]⟩).1,
        ⟨(Session.handle eng c ⟨d, txn, t, [fs.headD false]⟩).2.committed,
          (Session.handle eng c ⟨d, txn, t, [fs.headD false]⟩).2.txn, t, fs.tail⟩) := by
  have hhead : ([fs.headD false] : List Bool).headD false = fs.headD false := rfl
  cases c with
  | begin =>
    simp only [Session.handle, Session.tick, hhead]
    split <;> rfl
  | commit =>
    simp only [Session.handle, Session.tick, hhead]
    split <;> rfl
  | exec e c =>
    cases e with
    | pool =>
      simp only [Session.handle, Session.tick, hhead]
      split
      · rfl
      · cases eng.exec c t d <;> rfl
    | tx =>
      simp only [Session.handle, Session.tick, hhead, Session.view]
      split
      · rfl
      · cases eng.exec c t (eng.applyAll d (txn.getD [])) <;> rfl

theorem Cmd.result_after {β : Type} (c : Cmd σ E β) (t : T) :
    Session.handle eng c (Session.after faults t n d txn) =
      ((c.result eng faults txn t t n d).1, Session.after faults t (n + 1)
        (c.result eng faults txn t t n d).2.committed (c.result eng faults txn t t n d).2.txn) := by
  have htime : c.time t t = t := by
    cases c with
    | exec e c => cases e <;> rfl
    | _ => rfl
  have hhead : (faults.drop n).headD false = faults.getD n false := by
    rw [List.headD_eq_head?_getD, List.head?_drop, List.getD_eq_getElem?_getD]
  rw [Session.after, Session.handle_head, hhead, Session.tail_drop, Cmd.result, htime]
  rfl

theorem Cmd.since_self {β : Type} (c : Cmd σ E β) (t : T) : c.since t t = t := by
  cases c <;> rfl

/-- A settled program, run alone. -/
theorem Prog.Settled.run {v : Bool} {t : T} (h : p.Settled eng faults v txn t n) (d : D) :
    (Prog.run (Session.handle eng) p (Session.after faults t n d txn)).1.isOk = v ∧
      (Prog.run (Session.handle eng) p (Session.after faults t n d txn)).2.committed = d := by
  induction p generalizing txn n d with
  | ret r => exact ⟨h, rfl⟩
  | call c k ih =>
    obtain ⟨hsame, hrest⟩ := h d t
    rw [Cmd.since_self] at hrest
    rw [Prog.run, Cmd.result_after, hsame]
    exact ih _ hrest d

/-- With nobody around, the program does what is decided. -/
theorem Prog.Undecided.run {t : T}
    (h : p.Undecided eng K faults view (fun d d' => d' = d) (fun _ _ => True) δ txn t n d) :
    δ.Gives t (view d) (Prog.run (Session.handle eng) p (Session.after faults t n d txn)).1.isOk
      (view (Prog.run (Session.handle eng) p (Session.after faults t n d txn)).2.committed) := by
  induction p generalizing txn n with
  | ret r => exact h.elim
  | call c k ih =>
    have hstep := h d t ⟨rfl, fun _ _ => rfl⟩ fun _ => trivial
    rw [Cmd.since_self] at hstep
    rw [Prog.run, Cmd.result_after]
    rcases hstep with ⟨hsame, hrest⟩ | ⟨v, hgives, hrest⟩
    · rw [hsame]
      exact ih _ hrest
    · have hstamp : c.stamp t t = t := by
        cases c with
        | exec e c => cases e <;> rfl
        | _ => rfl
      obtain ⟨hok, hsame⟩ := hrest.run (c.result eng faults txn t t n d).2.committed
      rw [hstamp] at hgives
      rw [hok, hsame]
      exact hgives

end Judgements

/-! ## Rules for the calls -/

section Rules

variable {σ : Type → Type} {D W T E ε α β κ R C : Type} [DecidableEq κ] {eng : Engine σ D W T E}
  {K : Keyed eng κ R} {faults : List Bool} {view : D → C} {link : D → D → Prop}
  {may : {β : Type} → Cmd σ E β → D → Prop} {δ : Decision C T} {txn : Option (List W)}
  {ws : List W} {since clock : T} {n : Nat} {d : D} {wrap : E → ε} {c : σ β}

theorem result_pool {a : β} {ws : List W} (hn : ¬Fails faults n)
    (h : eng.exec c clock d = .ok (a, ws)) :
    (Cmd.exec .pool c).result eng faults txn since clock n d =
      (.ok a, ⟨eng.applyAll d ws, txn, clock, []⟩) := by
  have hno : ¬[faults.getD n false].headD false = true := hn
  simp only [Cmd.result, Session.handle, Cmd.time, if_neg hno, h]
  rfl

theorem result_pool_failed (hn : Fails faults n) :
    (Cmd.exec .pool c).result eng faults txn since clock n d =
      (.error eng.fault, ⟨d, txn, clock, []⟩) := by
  have hyes : [faults.getD n false].headD false = true := hn
  simp only [Cmd.result, Session.handle, Cmd.time, if_pos hyes]
  rfl

theorem result_tx {a : β} {ws' : List W} (hn : ¬Fails faults n)
    (h : eng.exec c since (eng.applyAll d ws) = .ok (a, ws')) :
    (Cmd.exec .tx c).result eng faults (some ws) since clock n d =
      (.ok a, ⟨d, some (ws ++ ws'), since, []⟩) := by
  have hno : ¬[faults.getD n false].headD false = true := hn
  simp only [Cmd.result, Session.handle, Cmd.time, Session.view, Option.getD_some, if_neg hno, h]
  rfl

theorem result_tx_error {e : E} (hn : ¬Fails faults n)
    (h : eng.exec c since (eng.applyAll d ws) = .error e) :
    (Cmd.exec .tx c).result eng faults (some ws) since clock n d =
      (.error e, ⟨d, some ws, since, []⟩) := by
  have hno : ¬[faults.getD n false].headD false = true := hn
  simp only [Cmd.result, Session.handle, Cmd.time, Session.view, Option.getD_some, if_neg hno, h]
  rfl

theorem result_begin (hn : ¬Fails faults n) :
    (Cmd.begin : Cmd σ E _).result eng faults txn since clock n d =
      (.ok (), ⟨d, some [], clock, []⟩) := by
  have hno : ¬[faults.getD n false].headD false = true := hn
  simp only [Cmd.result, Session.handle, Cmd.time, if_neg hno]
  rfl

theorem result_commit (hn : ¬Fails faults n) :
    (Cmd.commit : Cmd σ E _).result eng faults (some ws) since clock n d =
      (.ok (), ⟨eng.applyAll d ws, none, clock, []⟩) := by
  have hno : ¬[faults.getD n false].headD false = true := hn
  simp only [Cmd.result, Session.handle, Cmd.time, if_neg hno]
  rfl

theorem result_failed (eng : Engine σ D W T E) (c : Cmd σ E β) (txn : Option (List W))
    (since clock : T) (d : D) (hn : Fails faults n) :
    (c.result eng faults txn since clock n d).1 = c.failed eng.fault ∧
      (c.result eng faults txn since clock n d).2.committed = d := by
  have hyes : [faults.getD n false].headD false = true := hn
  refine ⟨Session.handle_failed eng c _ hyes, ?_⟩
  cases c with
  | exec e c => cases e <;> simp only [Cmd.result, Session.handle, hyes, if_true] <;> rfl
  | begin => simp only [Cmd.result, Session.handle, hyes, if_true]; rfl
  | commit => simp only [Cmd.result, Session.handle, hyes, if_true]; rfl

/-! ### Undecided -/

theorem goes_throw {e : ε} (h : ¬δ.passes (view d)) :
    Prog.Goes eng K faults view link may δ (ExceptT.run (throw e : Txn σ E ε α)) txn since n d :=
  .inr ⟨h, rfl⟩

section Undecided

variable {f : β → Txn σ E ε α}

/-- A lookup whose failure ends the program. -/
theorem undecided_read {a : D → β} (hc : ∀ t d, eng.exec c t d = .ok (a d, []))
    (hok : ¬Fails faults n → ∀ d', Rely eng K link (txn.getD []) d d' →
      Prog.Goes eng K faults view link may δ (ExceptT.run (f (a d'))) txn since (n + 1) d')
    (hfail : Fails faults n → ∀ d, ¬δ.passes (view d)) :
    Prog.Undecided eng K faults view link may δ
      (ExceptT.run (Act.ask wrap (.exec .pool c) >>= f)) txn since n d := by
  intro d' clock hr _
  by_cases hn : Fails faults n
  · obtain ⟨hans, hcom⟩ := result_failed eng (.exec .pool c) txn since clock d' hn
    rw [hans, hcom]
    exact .inr ⟨false, .inr ⟨hfail hn d', rfl, rfl⟩, rfl⟩
  · rw [result_pool hn (hc clock d')]
    rcases hok hn d' hr with h | ⟨hno, h⟩
    · exact .inl ⟨rfl, h⟩
    · exact .inr ⟨false, .inr ⟨hno, rfl, rfl⟩, h⟩

/-- A lookup whose outcome is looked at later. -/
theorem undecided_attempt {a : D → β} {f : Except ε β → Txn σ E ε α}
    (hc : ∀ t d, eng.exec c t d = .ok (a d, []))
    (hok : ¬Fails faults n → ∀ d', Rely eng K link (txn.getD []) d d' →
      Prog.Goes eng K faults view link may δ (ExceptT.run (f (.ok (a d')))) txn since (n + 1) d')
    (hfail : Fails faults n → ∀ d', Rely eng K link (txn.getD []) d d' →
      Prog.Goes eng K faults view link may δ (ExceptT.run (f (.error (wrap eng.fault)))) txn since
        (n + 1) d') :
    Prog.Undecided eng K faults view link may δ
      (ExceptT.run (Act.attempt (Act.ask wrap (.exec .pool c)) >>= f)) txn since n d := by
  intro d' clock hr _
  by_cases hn : Fails faults n
  · rw [result_pool_failed hn]
    rcases hfail hn d' hr with h | ⟨hno, h⟩
    · exact .inl ⟨rfl, h⟩
    · exact .inr ⟨false, .inr ⟨hno, rfl, rfl⟩, h⟩
  · rw [result_pool hn (hc clock d')]
    rcases hok hn d' hr with h | ⟨hno, h⟩
    · exact .inl ⟨rfl, h⟩
    · exact .inr ⟨false, .inr ⟨hno, rfl, rfl⟩, h⟩

theorem undecided_begin {f : Unit → Txn σ E ε α}
    (hok : ¬Fails faults n → ∀ d' clock, Rely eng K link (txn.getD []) d d' →
      Prog.Undecided eng K faults view link may δ (ExceptT.run (f ())) (some []) clock (n + 1) d')
    (hfail : Fails faults n → ∀ d, ¬δ.passes (view d)) :
    Prog.Undecided eng K faults view link may δ
      (ExceptT.run (Act.ask wrap .begin >>= f)) txn since n d := by
  intro d' clock hr _
  by_cases hn : Fails faults n
  · obtain ⟨hans, hcom⟩ := result_failed eng .begin txn since clock d' hn
    rw [hans, hcom]
    exact .inr ⟨false, .inr ⟨hfail hn d', rfl, rfl⟩, rfl⟩
  · rw [result_begin hn]
    exact .inl ⟨rfl, hok hn d' clock hr⟩

/-- A statement of the open transaction, which has written `ws`. -/
theorem undecided_tx
    (hok : ¬Fails faults n → ∀ d', Rely eng K link ws d d' → ∀ a ws',
      eng.exec c since (eng.applyAll d' ws) = .ok (a, ws') →
      Prog.Undecided eng K faults view link may δ (ExceptT.run (f a)) (some (ws ++ ws')) since (n + 1)
        d')
    (herr : ∀ d', Rely eng K link ws d d' → ∀ e, eng.exec c since (eng.applyAll d' ws) = .error e →
      ¬δ.passes (view d'))
    (hfail : Fails faults n → ∀ d, ¬δ.passes (view d)) :
    Prog.Undecided eng K faults view link may δ
      (ExceptT.run (Act.ask wrap (.exec .tx c) >>= f)) (some ws) since n d := by
  intro d' clock hr _
  by_cases hn : Fails faults n
  · obtain ⟨hans, hcom⟩ := result_failed eng (.exec .tx c) (some ws) since clock d' hn
    rw [hans, hcom]
    exact .inr ⟨false, .inr ⟨hfail hn d', rfl, rfl⟩, rfl⟩
  · cases he : eng.exec c since (eng.applyAll d' ws) with
    | ok p =>
      rw [result_tx hn he]
      exact .inl ⟨rfl, hok hn d' hr p.1 p.2 he⟩
    | error e =>
      rw [result_tx_error hn he]
      exact .inr ⟨false, .inr ⟨herr d' hr e he, rfl, rfl⟩, rfl⟩

/-- The commit decides. -/
theorem undecided_commit {f : Unit → Txn σ E ε α}
    (hok : ¬Fails faults n → ∀ d', Rely eng K link ws d d' → may .commit d' → δ.passes (view d') ∧
      view (eng.applyAll d' ws) = δ.effect since (view d') ∧
      Prog.Settled eng faults δ.well (ExceptT.run (f ())) none since (n + 1))
    (hfail : Fails faults n → ∀ d, ¬δ.passes (view d)) :
    Prog.Undecided eng K faults view link may δ
      (ExceptT.run (Act.ask wrap .commit >>= f)) (some ws) since n d := by
  intro d' clock hr hmay
  by_cases hn : Fails faults n
  · obtain ⟨hans, hcom⟩ := result_failed eng .commit (some ws) since clock d' hn
    rw [hans, hcom]
    exact .inr ⟨false, .inr ⟨hfail hn d', rfl, rfl⟩, rfl⟩
  · obtain ⟨hp, heff, hrest⟩ := hok hn d' hr (hmay hn)
    rw [result_commit hn]
    exact .inr ⟨_, .inl ⟨hp, rfl, heff⟩, hrest⟩

/-- A statement on the pool decides. -/
theorem undecided_pool
    (hok : ¬Fails faults n → ∀ d' clock, Rely eng K link (txn.getD []) d d' →
      may (.exec .pool c) d' → ∃ a ws, eng.exec c clock d' = .ok (a, ws) ∧ δ.passes (view d') ∧
      view (eng.applyAll d' ws) = δ.effect clock (view d') ∧
      Prog.Settled eng faults δ.well (ExceptT.run (f a)) txn since (n + 1))
    (hfail : Fails faults n → ∀ d, ¬δ.passes (view d)) :
    Prog.Undecided eng K faults view link may δ
      (ExceptT.run (Act.ask wrap (.exec .pool c) >>= f)) txn since n d := by
  intro d' clock hr hmay
  by_cases hn : Fails faults n
  · obtain ⟨hans, hcom⟩ := result_failed eng (.exec .pool c) txn since clock d' hn
    rw [hans, hcom]
    exact .inr ⟨false, .inr ⟨hfail hn d', rfl, rfl⟩, rfl⟩
  · obtain ⟨a, ws, he, hp, heff, hrest⟩ := hok hn d' clock hr (hmay hn)
    rw [result_pool hn he]
    exact .inr ⟨_, .inl ⟨hp, rfl, heff⟩, hrest⟩

end Undecided

/-! ### Settled -/

section Settled

variable {v : Bool} {f : β → Txn σ E ε α}

theorem settled_read {a : D → β} (hc : ∀ t d, eng.exec c t d = .ok (a d, []))
    (hok : ¬Fails faults n → ∀ d,
      Prog.Settled eng faults v (ExceptT.run (f (a d))) txn since (n + 1))
    (hfail : Fails faults n → v = false) :
    Prog.Settled eng faults v (ExceptT.run (Act.ask wrap (.exec .pool c) >>= f)) txn since n := by
  intro d clock
  by_cases hn : Fails faults n
  · obtain ⟨hans, hcom⟩ := result_failed eng (.exec .pool c) txn since clock d hn
    rw [hans, hcom]
    exact ⟨rfl, (hfail hn).symm⟩
  · rw [result_pool hn (hc clock d)]
    exact ⟨rfl, hok hn d⟩

theorem settled_attempt {a : D → β} {f : Except ε β → Txn σ E ε α}
    (hc : ∀ t d, eng.exec c t d = .ok (a d, []))
    (hf : ∀ r, Prog.Settled eng faults v (ExceptT.run (f r)) txn since (n + 1)) :
    Prog.Settled eng faults v
      (ExceptT.run (Act.attempt (Act.ask wrap (.exec .pool c)) >>= f)) txn since n := by
  intro d clock
  by_cases hn : Fails faults n
  · rw [result_pool_failed hn]
    exact ⟨rfl, hf _⟩
  · rw [result_pool hn (hc clock d)]
    exact ⟨rfl, hf _⟩

end Settled

end Rules

/-! ## Runs that count the calls -/

/-- A world, and how many calls each caller has made. -/
structure Metered (σ : Type → Type) (D W T E ρ ι : Type) where
  world : World σ D W T E ρ ι
  calls : ι → Nat

namespace Metered

variable {σ : Type → Type} {D W T E ρ ι : Type} [DecidableEq ι] {eng : Engine σ D W T E}
  {κ R : Type} [DecidableEq κ] (K : Keyed eng κ R) (faults : ι → List Bool)
  (may : ι → {β : Type} → Cmd σ E β → D → Prop)

/-- The calls fail as `faults` says, and one that does not fail is made when it `may`. -/
inductive Step [LE T] : Metered σ D W T E ρ ι → Metered σ D W T E ρ ι → Prop where
  | call {r : Metered σ D W T E ρ ι} {i : ι} {β : Type} {c : Cmd σ E β}
      {k : β → Prog (Cmd σ E) ρ} : (r.world.callers i).prog = .call c k →
        r.world.Free K i c ((faults i).getD (r.calls i) false) →
        (¬Fails (faults i) (r.calls i) → may i c r.world.committed) →
        Step r ⟨r.world.answer eng i c k ((faults i).getD (r.calls i) false),
          Function.update r.calls i (r.calls i + 1)⟩
  | rollback {r : Metered σ D W T E ρ ι} {i : ι} {a : ρ} :
      (r.world.callers i).prog = .ret a → Step r ⟨r.world.rollback i, r.calls⟩
  | tick {r : Metered σ D W T E ρ ι} {t : T} : r.world.clock ≤ t →
      Step r ⟨{ r.world with clock := t }, r.calls⟩

def Reaches [LE T] (progs : ι → Prog (Cmd σ E) ρ) (d : D) (t : T) (r : Metered σ D W T E ρ ι) :
    Prop :=
  Relation.ReflTransGen (Step K faults may) ⟨.start d t progs, fun _ => 0⟩ r

variable {K faults may}

theorem Step.world [LE T] {r r' : Metered σ D W T E ρ ι} (h : Step K faults may r r') :
    World.Step K r.world r'.world := by
  cases h with
  | call hp hfree hmay => exact .call _ hp hfree
  | rollback hp => exact .rollback hp
  | tick ht => exact .tick ht

section Schedule

variable (K faults may) [∀ i {β : Type} (c : Cmd σ E β) d, Decidable (may i c d)] [Fintype ι]

/-- Caller `i` has its next call answered; when it has none left, its transaction is rolled back. -/
def turn (r : Metered σ D W T E ρ ι) (i : ι) : Option (Metered σ D W T E ρ ι) :=
  match (r.world.callers i).prog with
  | .ret _ => some ⟨r.world.rollback i, r.calls⟩
  | .call c k =>
    if r.world.Free K i c ((faults i).getD (r.calls i) false) ∧
        (¬Fails (faults i) (r.calls i) → may i c r.world.committed) then
      some ⟨r.world.answer eng i c k ((faults i).getD (r.calls i) false),
        Function.update r.calls i (r.calls i + 1)⟩
    else none

/-- `World.runSchedule` with the calls counted. -/
def runSchedule [LE T] [DecidableLE T] :
    List (T × ι) → Metered σ D W T E ρ ι → Option (Metered σ D W T E ρ ι)
  | [], r => some r
  | (t, i) :: rest, r =>
    if r.world.clock ≤ t then
      (turn K faults may ⟨{ r.world with clock := t }, r.calls⟩ i).bind (runSchedule rest)
    else none

variable {K faults may}

theorem step_turn [LE T] {r r' : Metered σ D W T E ρ ι} {i : ι} (h : turn K faults may r i = some r') :
    Step K faults may r r' := by
  unfold turn at h
  split at h
  · rename_i a hp
    cases h
    exact .rollback hp
  · rename_i β c k hp
    split at h
    · rename_i hmeets
      cases h
      exact .call hp hmeets.1 hmeets.2
    · cases h

theorem reaches_of_runSchedule [LE T] [DecidableLE T] {progs : ι → Prog (Cmd σ E) ρ} {d : D} {t : T}
    {P : Metered σ D W T E ρ ι → Prop} (events : List (T × ι))
    (h : ∃ r ∈ runSchedule K faults may events ⟨.start d t progs, fun _ => 0⟩, P r) :
    ∃ r, Reaches K faults may progs d t r ∧ P r := by
  have key : ∀ (events : List (T × ι)) {r r' : Metered σ D W T E ρ ι},
      Reaches K faults may progs d t r → runSchedule K faults may events r = some r' →
      Reaches K faults may progs d t r' := by
    intro events
    induction events with
    | nil =>
      intro r r' hr hrun
      cases hrun
      exact hr
    | cons e events ih =>
      intro r r' hr hrun
      rw [runSchedule] at hrun
      split at hrun
      · rename_i hle
        obtain ⟨r₁, hturn, hrest⟩ := Option.bind_eq_some_iff.1 hrun
        exact ih ((hr.tail (.tick hle)).tail (step_turn hturn)) hrest
      · cases hrun
  obtain ⟨r, hr, hP⟩ := h
  exact ⟨r, key events .refl hr, hP⟩

end Schedule

end Metered

/-! ## Serial executions -/

section Serial

variable {σ : Type → Type} {D W T E ε α ι κ R C : Type} [DecidableEq κ] (eng : Engine σ D W T E)
  (progs : ι → Txn σ E ε α) (faults : ι → List Bool) (d₀ : D)

/-- The calls `done` have been made from the store `d₀`, one whole call after the other, each at
most once and at any time; it is written down which of them ended well. -/
inductive Serially : List (ι × Bool) → D → Prop where
  | nil : Serially [] d₀
  | next {done : List (ι × Bool)} {d : D} (i : ι) (t : T) : Serially done d →
      i ∉ done.map Prod.fst →
      Serially (done ++ [(i, (Txn.run eng (progs i) d t (faults i)).1.isOk)])
        (Txn.run eng (progs i) d t (faults i)).2

variable [DecidableEq ι] (K : Keyed eng κ R) (view : D → C) (link : D → D → Prop)
  (may : ι → {β : Type} → Cmd σ E β → D → Prop) (δ : ι → Decision C T)

/-- The calls `done` are those that have decided, in this order. -/
structure Placed (w : World σ D W T E (Except ε α) ι) (n : ι → Nat) (done : List (ι × Bool))
    (d : D) : Prop where
  serial : Serially eng progs faults d₀ done d
  seen : view d = view w.committed
  settled : ∀ i v, (i, v) ∈ done → (w.callers i).prog.Settled eng (faults i) v
    (w.callers i).txn (w.callers i).since (n i)
  undecided : ∀ i, i ∉ done.map Prod.fst → (w.callers i).prog.Undecided eng K (faults i) view
    link (may i) (δ i) (w.callers i).txn (w.callers i).since (n i) w.committed

variable {eng progs faults d₀ K view link may δ} [LE T] {good : {β : Type} → σ β → Prop}
  {ok : D → W → Prop}

omit [LE T] [DecidableEq ι] in
/-- What a call commits is apart from what the others have pending. -/
theorem World.Inv.commits_apart {w : World σ D W T E (Except ε α) ι} (h : World.Inv K good ok d₀ w)
    {i j : ι} (hj : j ≠ i) {β : Type} {c : Cmd σ E β} {fault : Bool} (hfree : w.Free K i c fault) :
    ∀ p ∈ w.pending j, ∀ x ∈ c.commits eng (w.session i c fault), K.key p ≠ K.key x := by
  intro p hp x hx
  cases c with
  | begin => cases hx
  | commit =>
    simp only [Cmd.commits] at hx
    split at hx
    · cases hx
    · exact h.apart j i hj p hp x hx
  | exec e c =>
    cases e with
    | pool => exact hfree j (fun he => absurd he hj) p hp x hx
    | tx => cases hx

/-- A call of one is for the others something that may happen. -/
theorem World.Inv.rely_answer (hd : World.Disciplined (K := K) (T := T) good ok)
    (hrefl : ∀ d, link d d) (htrans : ∀ d d' d'', link d d' → link d' d'' → link d d'')
    (hlink : ∀ d x, ok d x → link d (eng.apply d x)) {w : World σ D W T E (Except ε α) ι}
    (h : World.Inv K good ok d₀ w) {i j : ι} (hj : j ≠ i) {β : Type} {c : Cmd σ E β}
    {k : β → Prog (Cmd σ E) (Except ε α)} {fault : Bool} (hp : (w.callers i).prog = .call c k)
    (hfree : w.Free K i c fault) :
    Rely eng K link (w.pending j) w.committed (w.answer eng i c k fault).committed := by
  have hstep : World.Step K w (w.answer eng i c k fault) := .call fault hp hfree
  obtain ⟨hchain, hcom⟩ := h.fresh (h.step hd hstep) hstep
  rw [World.fresh_answer] at hchain
  rw [World.committed_answer]
  refine ⟨?_, fun p hpj => ?_⟩
  · exact chain_invariant (I := fun d => link w.committed d)
      (fun d x hl hx _ => htrans _ _ _ hl (hlink d x hx)) _ (hrefl _) hchain hchain
  · exact look_applyAll_other K _ _ fun x hx => (h.commits_apart hj hfree p hpj x hx).symm

/-- One call: it changes nothing, or it takes its caller's place in the order. -/
theorem Placed.call (hd : World.Disciplined (K := K) (T := T) good ok)
    (hrefl : ∀ d, link d d) (htrans : ∀ d d' d'', link d d' → link d' d'' → link d d'')
    (hlink : ∀ d x, ok d x → link d (eng.apply d x))
    (halone : ∀ i d t, (δ i).Gives t (view d) (Txn.run eng (progs i) d t (faults i)).1.isOk
      (view (Txn.run eng (progs i) d t (faults i)).2))
    {w : World σ D W T E (Except ε α) ι} {n : ι → Nat} (hinv : World.Inv K good ok d₀ w)
    {done : List (ι × Bool)} {d : D}
    (h : Placed eng progs faults d₀ K view link may δ w n done d) {i : ι} {β : Type} {c : Cmd σ E β}
    {k : β → Prog (Cmd σ E) (Except ε α)} (hp : (w.callers i).prog = .call c k)
    (hfree : w.Free K i c ((faults i).getD (n i) false))
    (hmay : ¬Fails (faults i) (n i) → may i c w.committed) :
    ∃ done' d', Placed eng progs faults d₀ K view link may δ
      (w.answer eng i c k ((faults i).getD (n i) false)) (Function.update n i (n i + 1)) done' d' := by
  let res := c.result eng (faults i) (w.callers i).txn (w.callers i).since w.clock (n i) w.committed
  let w' := w.answer eng i c k ((faults i).getD (n i) false)
  have hself : w'.callers i = ⟨k res.1, res.2.txn, c.since (w.callers i).since w.clock⟩ :=
    Function.update_self i _ _
  have hother : ∀ j, j ≠ i → w'.callers j = w.callers j := fun j hj => Function.update_of_ne hj _ _
  have hothers : ∀ j, j ≠ i → j ∉ done.map Prod.fst → (w'.callers j).prog.Undecided eng K (faults j)
      view link (may j) (δ j) (w'.callers j).txn (w'.callers j).since
      (Function.update n i (n i + 1) j) w'.committed := by
    intro j hj hnot
    rw [hother j hj, Function.update_of_ne hj]
    exact (h.undecided j hnot).rely htrans
      (hinv.rely_answer hd hrefl htrans hlink hj hp hfree)
  have hsettled : ∀ j, j ≠ i → ∀ v, (j, v) ∈ done → (w'.callers j).prog.Settled eng (faults j) v
      (w'.callers j).txn (w'.callers j).since (Function.update n i (n i + 1) j) := by
    intro j hj v hv
    rw [hother j hj, Function.update_of_ne hj]
    exact h.settled j v hv
  by_cases hi : i ∈ done.map Prod.fst
  · -- it has its place already
    have hgo : ∀ v, (i, v) ∈ done → res.2.committed = w.committed ∧
        (w'.callers i).prog.Settled eng (faults i) v (w'.callers i).txn (w'.callers i).since
          (Function.update n i (n i + 1) i) := by
      intro v hv
      have hset := h.settled i v hv
      rw [hp] at hset
      rw [hself, Function.update_self]
      exact hset w.committed w.clock
    obtain ⟨v, hv⟩ : ∃ v, (i, v) ∈ done := by simpa using hi
    refine ⟨done, d, h.serial, h.seen.trans (congrArg view (hgo v hv).1.symm), ?_, ?_⟩
    · intro j v' hv'
      by_cases hj : j = i
      · subst hj
        exact (hgo v' hv').2
      · exact hsettled j hj v' hv'
    · intro j hnot
      exact hothers j (fun hj => hnot (hj ▸ hi)) hnot
  · have hund := h.undecided i hi
    rw [hp] at hund
    rcases hund w.committed w.clock ⟨hrefl _, fun _ _ => rfl⟩ hmay with
      ⟨hsame, hrest⟩ | ⟨v, hgives, hrest⟩
    · refine ⟨done, d, h.serial, h.seen.trans (congrArg view hsame.symm), ?_, ?_⟩
      · intro j v' hv'
        exact hsettled j (fun hj => hi (hj ▸ List.mem_map_of_mem hv')) v' hv'
      · intro j hnot
        by_cases hj : j = i
        · subst hj
          have hcom : w'.committed = w.committed := hsame
          rw [hself, Function.update_self, hcom]
          exact hrest
        · exact hothers j hj hnot
    · -- its place is the next one
      have hone := halone i d (c.stamp (w.callers i).since w.clock)
      rw [h.seen] at hone
      obtain ⟨hv, hseen⟩ := hone.unique hgives
      refine ⟨_, _, h.serial.next i (c.stamp (w.callers i).since w.clock) hi, hseen, ?_, ?_⟩
      · intro j v' hv'
        rcases List.mem_append.1 hv' with hv' | hv'
        · exact hsettled j (fun hj => hi (hj ▸ List.mem_map_of_mem hv')) v' hv'
        · cases List.mem_singleton.1 hv'
          rw [hself, Function.update_self, hv]
          exact hrest
      · intro j hnot
        rw [List.map_append, List.mem_append, not_or] at hnot
        have hj : j ≠ i := by simpa using hnot.2
        exact hothers j hj hnot.1

/-- Calls that each decide at once, whatever the others do, and do what they do alone: what is seen
of the store in any world they reach, and how the calls that are over have ended, some serial
execution of calls comes to. -/
theorem serial_of_reaches (hd : World.Disciplined (K := K) (T := T) good ok)
    (huses : ∀ i, Prog.Uses (World.AllGood good) (ExceptT.run (progs i))) (hrefl : ∀ d, link d d)
    (htrans : ∀ d d' d'', link d d' → link d' d'' → link d d'')
    (hlink : ∀ d x, ok d x → link d (eng.apply d x))
    (halone : ∀ i d t, (δ i).Gives t (view d) (Txn.run eng (progs i) d t (faults i)).1.isOk
      (view (Txn.run eng (progs i) d t (faults i)).2)) {t : T}
    (hstart : ∀ i, Prog.Undecided eng K (faults i) view link (may i) (δ i)
      (ExceptT.run (progs i)) none t 0 d₀)
    {r : Metered σ D W T E (Except ε α) ι}
    (h : Metered.Reaches K faults may (fun i => ExceptT.run (progs i)) d₀ t r) :
    ∃ done d, Serially eng progs faults d₀ done d ∧ view d = view r.world.committed ∧
      ∀ i a, (r.world.callers i).prog = .ret a → (i, a.isOk) ∈ done := by
  have key : World.Inv K good ok d₀ r.world ∧
      ∃ done d, Placed eng progs faults d₀ K view link may δ r.world r.calls done d := by
    induction h with
    | refl =>
      exact ⟨World.inv_start huses, [], d₀, .nil, rfl, by simp, fun i _ => hstart i⟩
    | tail _ hs ih =>
      obtain ⟨hinv, done, d, hplaced⟩ := ih
      refine ⟨hinv.step hd hs.world, ?_⟩
      cases hs with
      | call hp hfree hmay =>
        exact hplaced.call hd hrefl htrans hlink halone hinv hp hfree hmay
      | @rollback i a hp =>
        have hown : ∀ v, (i, v) ∈ done → a.isOk = v := by
          intro v hv
          have hset := hplaced.settled i v hv
          rw [hp] at hset
          exact hset
        refine ⟨done, d, hplaced.serial, hplaced.seen, ?_, ?_⟩
        · intro j v hv
          by_cases hj : j = i
          · subst hj
            rw [World.prog_rollback, hp]
            exact hown v hv
          · have hset := hplaced.settled j v hv
            simpa [World.rollback, hj] using hset
        · intro j hnot
          have hund := hplaced.undecided j hnot
          by_cases hj : j = i
          · subst hj
            rw [hp] at hund
            exact hund.elim
          · simpa [World.rollback, hj] using hund
      | tick ht => exact ⟨done, d, hplaced.serial, hplaced.seen, hplaced.settled, hplaced.undecided⟩
  obtain ⟨_, done, d, hplaced⟩ := key
  refine ⟨done, d, hplaced.serial, hplaced.seen, ?_⟩
  intro i a hp
  by_cases hi : i ∈ done.map Prod.fst
  · obtain ⟨v, hv⟩ : ∃ v, (i, v) ∈ done := by simpa using hi
    have hset := hplaced.settled _ v hv
    rw [hp] at hset
    have hv' : a.isOk = v := hset
    rw [hv']
    exact hv
  · have hund := hplaced.undecided i hi
    rw [hp] at hund
    exact hund.elim

end Serial

end Lib
