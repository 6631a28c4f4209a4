import Meno.Lib.Chain
import Meno.Lib.Numbered
import Mathlib.Logic.Function.Basic
import Mathlib.Logic.Relation

/-!
# Lib.World

Many callers on one store. Every step answers one call of one caller, so any order of the callers'
statements is a run. A statement that writes rows waits while another open transaction has written
one of them; a call may also fail at any time, and a transaction whose program has ended is rolled
back.

`World.log` is the history: every committed row write with its caller, in the order of commits.
Two invariants of runs are proved once for all stores: `Inv`, that the history is a chain of writes
each of which was in order when the ones before it are done; and `Told`, that what a caller's
program concludes from its answers is what the history says of that caller.
-/

namespace Lib

/-! ## What a call writes and what it commits -/

namespace Cmd

variable {σ : Type → Type} {D W T E : Type} (eng : Engine σ D W T E)

/-- The row writes of a call. -/
def writes : {β : Type} → Cmd σ E β → Session D W T → List W
  | _, .exec e c, s =>
    if s.faults.headD false then []
    else match eng.exec c s.now (match e with | .pool => s.committed | .tx => s.view eng) with
      | .ok (_, ws) => ws
      | .error _ => []
  | _, .begin, _ => []
  | _, .commit, _ => []

/-- The row writes that are committed by a call. -/
def commits : {β : Type} → Cmd σ E β → Session D W T → List W
  | _, .exec .pool c, s => writes eng (.exec .pool c) s
  | _, .exec .tx _, _ => []
  | _, .begin, _ => []
  | _, .commit, s => if s.faults.headD false then [] else s.txn.getD []

def isTx : {β : Type} → Cmd σ E β → Bool
  | _, .exec .tx _ => true
  | _, _ => false

/-- The time a call takes for `NOW()`: a statement of a transaction takes the start of that. -/
def time : {β : Type} → Cmd σ E β → (since clock : T) → T
  | _, .exec .tx _, since, _ => since
  | _, _, _, clock => clock

/-- The start of the open transaction after a call. -/
def since : {β : Type} → Cmd σ E β → (since clock : T) → T
  | _, .begin, _, clock => clock
  | _, _, since, _ => since

variable {eng} {s : Session D W T} {β : Type} {c : σ β}

theorem handle_committed {β : Type} (c : Cmd σ E β) (s : Session D W T) :
    (Session.handle eng c s).2.committed = eng.applyAll s.committed (c.commits eng s) := by
  cases c with
  | begin => exact Session.handle_begin_committed eng s
  | commit =>
    simp only [Session.handle, commits]
    split <;> rfl
  | exec e c =>
    cases e with
    | tx => exact Session.handle_tx_committed eng c s
    | pool =>
      simp only [Session.handle, commits, writes]
      split
      · rfl
      · cases eng.exec c s.now s.committed with
        | ok p => rfl
        | error e => rfl

theorem pending_begin (s : Session D W T) :
    (Session.handle eng (.begin : Cmd σ E _) s).2.txn.getD [] = s.txn.getD [] ∨
      (Session.handle eng (.begin : Cmd σ E _) s).2.txn.getD [] = [] := by
  simp only [Session.handle]
  split
  · exact .inl rfl
  · exact .inr rfl

theorem pending_commit (s : Session D W T) :
    (Session.handle eng (.commit : Cmd σ E _) s).2.txn.getD [] = [] := by
  simp only [Session.handle]
  split <;> rfl

theorem pending_pool :
    (Session.handle eng (.exec .pool c) s).2.txn.getD [] = s.txn.getD [] := by
  simp only [Session.handle]
  split
  · rfl
  · split <;> rfl

theorem pending_tx :
    (Session.handle eng (.exec .tx c) s).2.txn.getD [] =
      s.txn.getD [] ++ (Cmd.exec .tx c).writes eng s := by
  simp only [Session.handle, writes]
  split
  · exact (List.append_nil _).symm
  · cases eng.exec c s.now (s.view eng) with
    | ok p => rfl
    | error e => exact (List.append_nil _).symm

end Cmd

/-! ## The world -/

/-- A caller: what is left of its program, the writes of its open transaction, and when that was
begun. -/
structure Caller (σ : Type → Type) (E W T ρ : Type) where
  prog : Prog (Cmd σ E) ρ
  txn : Option (List W)
  since : T

structure World (σ : Type → Type) (D W T E ρ ι : Type) where
  committed : D
  callers : ι → Caller σ E W T ρ
  clock : T
  log : List (ι × W)

/-- The program has come to its end with an answer. -/
def Prog.isOk {σ : Type → Type 1} {ε α : Type} : Prog σ (Except ε α) → Bool
  | .ret r => r.isOk
  | .call _ _ => false

namespace World

variable {σ : Type → Type} {D W T E ρ ι : Type}

def start (d : D) (t : T) (progs : ι → Prog (Cmd σ E) ρ) : World σ D W T E ρ ι :=
  ⟨d, fun i => ⟨progs i, none, t⟩, t, []⟩

variable (w : World σ D W T E ρ ι)

/-- The writes of a caller that are not committed yet. -/
def pending (i : ι) : List W := (w.callers i).txn.getD []

/-- The store as the call `c` of caller `i` finds it. -/
def session (i : ι) {β : Type} (c : Cmd σ E β) (fault : Bool) : Session D W T :=
  ⟨w.committed, (w.callers i).txn, c.time (w.callers i).since w.clock, [fault]⟩

variable [DecidableEq ι] (eng : Engine σ D W T E)

/-- Caller `i` has its call answered. -/
def answer (i : ι) {β : Type} (c : Cmd σ E β) (k : β → Prog (Cmd σ E) ρ) (fault : Bool) :
    World σ D W T E ρ ι :=
  let r := Session.handle eng c (w.session i c fault)
  { committed := r.2.committed
    callers := Function.update w.callers i
      ⟨k r.1, r.2.txn, c.since (w.callers i).since w.clock⟩
    clock := w.clock
    log := w.log ++ (c.commits eng (w.session i c fault)).map fun x => (i, x) }

/-- The transaction of caller `i` is rolled back. -/
def rollback (i : ι) : World σ D W T E ρ ι :=
  { w with callers := Function.update w.callers i { w.callers i with txn := none } }

variable {eng} {κ R : Type} [DecidableEq κ] (K : Keyed eng κ R)

/-- No row that the call writes was written in a transaction that is still open; a transaction
may write its own rows again. -/
def Free (i : ι) {β : Type} (c : Cmd σ E β) (fault : Bool) : Prop :=
  ∀ j, (j = i → c.isTx = false) → ∀ p ∈ w.pending j, ∀ x ∈ c.writes eng (w.session i c fault),
    K.key p ≠ K.key x

inductive Step [LE T] : World σ D W T E ρ ι → World σ D W T E ρ ι → Prop where
  | call {w : World σ D W T E ρ ι} {i : ι} {β : Type} {c : Cmd σ E β} {k : β → Prog (Cmd σ E) ρ}
      (fault : Bool) : (w.callers i).prog = .call c k → w.Free K i c fault →
        Step w (w.answer eng i c k fault)
  | rollback {w : World σ D W T E ρ ι} {i : ι} {r : ρ} :
      (w.callers i).prog = .ret r → Step w (w.rollback i)
  | tick {w : World σ D W T E ρ ι} {t : T} : w.clock ≤ t → Step w { w with clock := t }

/-- The worlds that runs of the programs reach from the store `d`. -/
def Reaches [LE T] (progs : ι → Prog (Cmd σ E) ρ) (d : D) (t : T) (w : World σ D W T E ρ ι) : Prop :=
  Relation.ReflTransGen (Step K) (start d t progs) w

omit [DecidableEq ι] in
@[simp] theorem pending_start (d : D) (t : T) (progs : ι → Prog (Cmd σ E) ρ) (i : ι) :
    (start d t progs : World σ D W T E ρ ι).pending i = [] := rfl

section Answer

variable {w} {i : ι} {β : Type} {c : Cmd σ E β} {k : β → Prog (Cmd σ E) ρ} {fault : Bool}

theorem pending_answer_self : (w.answer eng i c k fault).pending i =
    (Session.handle eng c (w.session i c fault)).2.txn.getD [] := by
  simp [answer, pending]

theorem pending_answer_other {j : ι} (h : j ≠ i) :
    (w.answer eng i c k fault).pending j = w.pending j := by
  simp [answer, pending, h]

theorem prog_answer_self : ((w.answer eng i c k fault).callers i).prog =
    k (Session.handle eng c (w.session i c fault)).1 := by
  simp [answer]

theorem prog_answer_other {j : ι} (h : j ≠ i) :
    ((w.answer eng i c k fault).callers j).prog = (w.callers j).prog := by
  simp [answer, h]

theorem committed_answer : (w.answer eng i c k fault).committed =
    eng.applyAll w.committed (c.commits eng (w.session i c fault)) :=
  Cmd.handle_committed c _

theorem pending_rollback_self : (w.rollback i).pending i = [] := by
  simp [rollback, pending]

theorem pending_rollback_other {j : ι} (h : j ≠ i) : (w.rollback i).pending j = w.pending j := by
  simp [rollback, pending, h]

theorem prog_rollback (j : ι) : ((w.rollback i).callers j).prog = (w.callers j).prog := by
  by_cases h : j = i
  · subst h
    simp [rollback]
  · simp [rollback, h]

end Answer

/-! ## The history is a chain -/

section Discipline

variable (good : {β : Type} → σ β → Prop) (ok : D → W → Prop)

/-- Good statements write what is in order, and whether a write is in order is a matter of the
row it writes. -/
structure Disciplined : Prop where
  exec : ∀ {β : Type} {c : σ β} {now : T} {d : D} {b : β} {ws : List W}, good c →
    eng.exec c now d = .ok (b, ws) → eng.Chain ok d ws
  row : ∀ d d' x, K.look d (K.key x) = K.look d' (K.key x) → ok d x → ok d' x

/-- The calls of programs that make good statements only. -/
def AllGood : {β : Type} → Cmd σ E β → Prop
  | _, .exec _ c => good c
  | _, _ => True

theorem uses_anything (p : Prog (Cmd σ E) ρ) : Prog.Uses (AllGood fun _ => True) p := by
  induction p with
  | ret r => trivial
  | call c k ih =>
    refine ⟨?_, ih⟩
    cases c <;> trivial

theorem uses_allGood_mono {good good' : {β : Type} → σ β → Prop}
    (h : ∀ {β : Type} (c : σ β), good c → good' c) {p : Prog (Cmd σ E) ρ}
    (hp : p.Uses (AllGood good)) : p.Uses (AllGood good') := by
  refine Prog.uses_mono ?_ hp
  intro β c hc
  cases c with
  | exec e c => exact h c hc
  | begin => trivial
  | commit => trivial

/-- The committed store is what the history makes of `d₀`, and history and open transactions are
chains; open transactions have written different rows. -/
structure Inv (d₀ : D) (w : World σ D W T E ρ ι) : Prop where
  replay : eng.applyAll d₀ (w.log.map Prod.snd) = w.committed
  lawful : eng.Chain ok d₀ (w.log.map Prod.snd)
  pending : ∀ i, eng.Chain ok w.committed (w.pending i)
  apart : ∀ i j, i ≠ j → ∀ p ∈ w.pending i, ∀ q ∈ w.pending j, K.key p ≠ K.key q
  uses : ∀ i, Prog.Uses (AllGood good) (w.callers i).prog

variable {K good ok} {d₀ : D}

omit [DecidableEq ι] in
theorem inv_start {progs : ι → Prog (Cmd σ E) ρ} {t : T}
    (huses : ∀ i, Prog.Uses (AllGood good) (progs i)) :
    Inv K good ok d₀ (start d₀ t progs : World σ D W T E ρ ι) where
  replay := rfl
  lawful := trivial
  pending _ := trivial
  apart := by simp
  uses := huses

section Call

variable {w} {i : ι} {β : Type} {c : Cmd σ E β} {k : β → Prog (Cmd σ E) ρ} {fault : Bool}

/-- What has to be known of one call: what it commits is a chain apart from the other open
transactions, and so is what it leaves pending. -/
theorem Inv.answer_of (hd : Disciplined (K := K) good ok) (h : Inv K good ok d₀ w)
    (hp : (w.callers i).prog = .call c k)
    (hcommits : eng.Chain ok w.committed (c.commits eng (w.session i c fault)))
    (hothers : ∀ j, j ≠ i → ∀ p ∈ w.pending j, ∀ x ∈ c.commits eng (w.session i c fault),
      K.key p ≠ K.key x)
    (hleft : eng.Chain ok (w.answer eng i c k fault).committed
      ((w.answer eng i c k fault).pending i))
    (hapart : ∀ j, j ≠ i → ∀ p ∈ w.pending j, ∀ q ∈ (w.answer eng i c k fault).pending i,
      K.key p ≠ K.key q) :
    Inv K good ok d₀ (w.answer eng i c k fault) := by
  have hlog : (w.answer eng i c k fault).log.map Prod.snd =
      w.log.map Prod.snd ++ c.commits eng (w.session i c fault) := by
    simp [answer, Function.comp_def]
  refine ⟨?_, ?_, ?_, ?_, ?_⟩
  · rw [hlog, Engine.applyAll_append, h.replay, committed_answer]
  · rw [hlog, chain_append, h.replay]
    exact ⟨h.lawful, hcommits⟩
  · intro j
    by_cases hj : j = i
    · subst hj
      exact hleft
    · rw [pending_answer_other hj, committed_answer]
      exact chain_frame K hd.row (hothers j hj) (h.pending j)
  · intro a b hab p hpa q hqb
    by_cases ha : a = i
    · subst ha
      rw [pending_answer_other (Ne.symm hab)] at hqb
      exact (hapart b (Ne.symm hab) q hqb p hpa).symm
    · rw [pending_answer_other ha] at hpa
      by_cases hb : b = i
      · subst hb
        exact hapart a ha p hpa q hqb
      · rw [pending_answer_other hb] at hqb
        exact h.apart a b hab p hpa q hqb
  · intro j
    by_cases hj : j = i
    · subst hj
      have huse := h.uses j
      rw [hp] at huse
      rw [prog_answer_self]
      exact huse.2 _
    · rw [prog_answer_other hj]
      exact h.uses j

/-- The writes of a good statement are a chain where the statement is executed. -/
theorem writes_chain (hd : Disciplined (K := K) good ok) {e : Executor} {c : σ β} (hc : good c)
    (s : Session D W T) :
    eng.Chain ok (match e with | .pool => s.committed | .tx => s.view eng)
      ((Cmd.exec e c).writes eng s) := by
  have key : ∀ d : D, eng.Chain ok d (if s.faults.headD false then [] else
      match eng.exec c s.now d with
      | .ok (_, ws) => ws
      | .error _ => []) := by
    intro d
    split
    · trivial
    · split
      · rename_i b ws he
        exact hd.exec hc he
      · trivial
  cases e with
  | pool => exact key s.committed
  | tx => exact key (s.view eng)

theorem Inv.call (hd : Disciplined (K := K) good ok) (h : Inv K good ok d₀ w)
    (hp : (w.callers i).prog = .call c k) (hfree : w.Free K i c fault) :
    Inv K good ok d₀ (w.answer eng i c k fault) := by
  have hpend : ∀ j, j ≠ i → ∀ p ∈ w.pending j, ∀ q ∈ w.pending i, K.key p ≠ K.key q :=
    fun j hj => h.apart j i hj
  cases c with
  | begin =>
    have hleft : (w.answer eng i .begin k fault).pending i = w.pending i ∨
        (w.answer eng i .begin k fault).pending i = [] := by
      rw [pending_answer_self]
      exact Cmd.pending_begin (w.session i .begin fault)
    refine h.answer_of hd hp trivial (fun _ _ _ _ _ hx => by cases hx) ?_ ?_
    · rw [committed_answer]
      rcases hleft with he | he
      · rw [he]
        exact h.pending i
      · rw [he]
        trivial
    · intro j hj p hpj q hq
      rcases hleft with he | he
      · rw [he] at hq
        exact hpend j hj p hpj q hq
      · rw [he] at hq
        cases hq
  | commit =>
    have hleft : (w.answer eng i .commit k fault).pending i = [] := by
      rw [pending_answer_self]
      exact Cmd.pending_commit _
    have hcom : ∀ x ∈ (Cmd.commit : Cmd σ E _).commits eng (w.session i .commit fault),
        x ∈ w.pending i := by
      intro x hx
      simp only [Cmd.commits] at hx
      split at hx
      · cases hx
      · exact hx
    refine h.answer_of hd hp ?_ ?_ ?_ ?_
    · simp only [Cmd.commits]
      split
      · trivial
      · exact h.pending i
    · intro j hj p hpj x hx
      exact hpend j hj p hpj x (hcom x hx)
    · rw [hleft]
      trivial
    · rw [hleft]
      intro j _ p _ q hq
      cases hq
  | exec e c =>
    have hgood : good c := by
      have huse := h.uses i
      rw [hp] at huse
      exact huse.1
    have hchain := writes_chain (e := e) hd hgood (w.session i (.exec e c) fault)
    cases e with
    | pool =>
      have hleft : (w.answer eng i (.exec .pool c) k fault).pending i = w.pending i := by
        rw [pending_answer_self]
        exact Cmd.pending_pool
      refine h.answer_of hd hp hchain ?_ ?_ ?_
      · intro j _ p hpj x hx
        exact hfree j (fun _ => rfl) p hpj x hx
      · rw [hleft, committed_answer]
        exact chain_frame K hd.row (hfree i fun _ => rfl) (h.pending i)
      · rw [hleft]
        exact hpend
    | tx =>
      have hleft : (w.answer eng i (.exec .tx c) k fault).pending i =
          w.pending i ++ (Cmd.exec .tx c).writes eng (w.session i (.exec .tx c) fault) := by
        rw [pending_answer_self]
        exact Cmd.pending_tx
      refine h.answer_of hd hp trivial (fun _ _ _ _ _ hx => by cases hx) ?_ ?_
      · rw [hleft, committed_answer, chain_append]
        exact ⟨h.pending i, hchain⟩
      · rw [hleft]
        intro j hj p hpj q hq
        rcases List.mem_append.1 hq with hq | hq
        · exact hpend j hj p hpj q hq
        · exact hfree j (fun he => absurd he hj) p hpj q hq

theorem Inv.rollback (h : Inv K good ok d₀ w) (i : ι) : Inv K good ok d₀ (w.rollback i) where
  replay := h.replay
  lawful := h.lawful
  pending j := by
    by_cases hj : j = i
    · subst hj
      rw [pending_rollback_self]
      trivial
    · rw [pending_rollback_other hj]
      exact h.pending j
  apart a b hab p hpa q hqb := by
    by_cases ha : a = i
    · subst ha
      rw [pending_rollback_self] at hpa
      cases hpa
    · by_cases hb : b = i
      · subst hb
        rw [pending_rollback_self] at hqb
        cases hqb
      · rw [pending_rollback_other ha] at hpa
        rw [pending_rollback_other hb] at hqb
        exact h.apart a b hab p hpa q hqb
  uses j := by
    rw [prog_rollback]
    exact h.uses j

end Call

theorem Inv.step [LE T] (hd : Disciplined (K := K) good ok) {w w' : World σ D W T E ρ ι}
    (h : Inv K good ok d₀ w) (hs : Step K w w') : Inv K good ok d₀ w' := by
  cases hs with
  | call fault hp hfree => exact h.call hd hp hfree
  | rollback hp => exact h.rollback _
  | tick ht => exact ⟨h.replay, h.lawful, h.pending, h.apart, h.uses⟩

theorem inv_of_reaches [LE T] (hd : Disciplined (K := K) good ok)
    {progs : ι → Prog (Cmd σ E) ρ} (huses : ∀ i, Prog.Uses (AllGood good) (progs i)) {t : T}
    {w : World σ D W T E ρ ι} (h : Reaches K progs d₀ t w) : Inv K good ok d₀ w := by
  induction h with
  | refl => exact inv_start huses
  | tail _ hs ih => exact ih.step hd hs

end Discipline

/-! ## What a caller can tell from its answers -/

section Marks

variable {M : Type} (mark : W → Option M) (told : {β : Type} → σ β → β → List M)

/-- A statement's answer tells which of its writes are marked. -/
def Honest (eng : Engine σ D W T E) : Prop :=
  ∀ {β : Type} (c : σ β) now d b ws, eng.exec c now d = .ok (b, ws) → ws.filterMap mark = told c b

/-- The marks a caller is sure of and those of its open transaction, moved on by one answer. -/
def note : {β : Type} → Cmd σ E β → β → List M × List M → List M × List M
  | _, .begin, .ok _, g => (g.1, [])
  | _, .begin, .error _, g => g
  | _, .commit, .ok _, g => (g.1 ++ g.2, [])
  | _, .commit, .error _, g => (g.1, [])
  | _, .exec .pool c, .ok b, g => (g.1 ++ told c b, g.2)
  | _, .exec .tx c, .ok b, g => (g.1, g.2 ++ told c b)
  | _, .exec _ _, .error _, g => g

/-- The marks of the history's writes of a caller, and of its open transaction. -/
def marks (w : World σ D W T E ρ ι) (i : ι) : List M × List M :=
  ((w.log.filter fun x => x.1 = i).filterMap fun x => mark x.2, (w.pending i).filterMap mark)

variable {mark told} {w} {i : ι} {β : Type} {c : Cmd σ E β} {k : β → Prog (Cmd σ E) ρ}
  {fault : Bool}

theorem marks_answer_other {j : ι} (h : j ≠ i) :
    (w.answer eng i c k fault).marks mark j = w.marks mark j := by
  have hnil : ((c.commits eng (w.session i c fault)).map fun x => (i, x)).filter
      (fun x => x.1 = j) = [] := by
    rw [List.filter_eq_nil_iff]
    intro x hx
    obtain ⟨y, _, rfl⟩ := List.mem_map.1 hx
    simpa using Ne.symm h
  rw [marks, marks, pending_answer_other h]
  simp only [answer, List.filter_append, hnil, List.append_nil]

/-- One answer moves the marks as the store has moved. -/
theorem note_handle (hh : Honest mark told eng) (c : Cmd σ E β) (s : Session D W T) (g : List M) :
    note told c (Session.handle eng c s).1 (g, (s.txn.getD []).filterMap mark) =
      (g ++ (c.commits eng s).filterMap mark,
        ((Session.handle eng c s).2.txn.getD []).filterMap mark) := by
  cases c with
  | begin =>
    simp only [Session.handle, Cmd.commits]
    split
    · simp [note, Session.tick]
    · simp [note]
  | commit =>
    simp only [Session.handle, Cmd.commits]
    split
    · simp [note]
    · simp [note]
  | exec e c =>
    cases e with
    | pool =>
      rw [Cmd.pending_pool]
      simp only [Session.handle, Cmd.commits, Cmd.writes]
      split
      · simp [note]
      · cases he : eng.exec c s.now s.committed with
        | error err => simp [note]
        | ok p => simp [note, hh c _ _ _ _ he]
    | tx =>
      rw [Cmd.pending_tx]
      simp only [Session.handle, Cmd.commits, Cmd.writes]
      split
      · simp [note]
      · cases he : eng.exec c s.now (s.view eng) with
        | error err => simp [note]
        | ok p => simp [note, hh c _ _ _ _ he]

theorem marks_answer_self (hh : Honest mark told eng) :
    (w.answer eng i c k fault).marks mark i =
      note told c (Session.handle eng c (w.session i c fault)).1 (w.marks mark i) := by
  have hall : ∀ xs : List W, ((xs.map fun x => (i, x)).filter (fun x => x.1 = i)).filterMap
      (fun x => mark x.2) = xs.filterMap mark := by
    intro xs
    induction xs with
    | nil => rfl
    | cons x xs ih =>
      rw [List.map_cons, List.filter_cons_of_pos (by simp), List.filterMap_cons, List.filterMap_cons,
        ih]
  have hfst : ((w.answer eng i c k fault).marks mark i).1 =
      (w.marks mark i).1 ++ (c.commits eng (w.session i c fault)).filterMap mark := by
    simp only [marks, answer, List.filter_append, List.filterMap_append, hall]
  have hsnd : ((w.answer eng i c k fault).marks mark i).2 =
      ((Session.handle eng c (w.session i c fault)).2.txn.getD []).filterMap mark := by
    rw [marks, pending_answer_self]
  exact (Prod.ext hfst hsnd).trans (note_handle hh c (w.session i c fault) _).symm

omit [DecidableEq ι] in
theorem filterMap_log (log : List (ι × W)) :
    (log.map Prod.snd).filterMap mark = log.filterMap fun x => mark x.2 := by
  rw [List.filterMap_map]
  rfl

theorem marks_nodup (hn : ((w.log.map Prod.snd).filterMap mark).Nodup) (i : ι) :
    (w.marks mark i).1.Nodup := by
  rw [filterMap_log] at hn
  exact hn.sublist (List.filter_sublist.filterMap _)

/-- A mark that comes up once in the history is one caller's. -/
theorem marks_apart (hn : ((w.log.map Prod.snd).filterMap mark).Nodup) {i j : ι} {m : M}
    (hi : m ∈ (w.marks mark i).1) (hj : m ∈ (w.marks mark j).1) : i = j := by
  obtain ⟨x, hx, hmx⟩ := List.mem_filterMap.1 hi
  obtain ⟨y, hy, hmy⟩ := List.mem_filterMap.1 hj
  obtain ⟨hx, hxi⟩ := List.mem_filter.1 hx
  obtain ⟨hy, hyj⟩ := List.mem_filter.1 hy
  rw [filterMap_log, List.filterMap_eq_flatMap_toList] at hn
  have hxy := eq_of_mem_flatMap hn hx hy (Option.mem_toList.2 hmx) (Option.mem_toList.2 hmy)
  rw [← of_decide_eq_true hxi, ← of_decide_eq_true hyj, hxy]

/-- Whatever a program concludes about its marks from the answers it gets, the history bears it
out. -/
theorem told_of_reaches [LE T] (hh : Honest mark told eng) {Q : ι → ρ → List M → Prop}
    {progs : ι → Prog (Cmd σ E) ρ}
    (hQ : ∀ i, Prog.wlp (note told) (progs i) (fun r g => Q i r g.1) ([], []))
    {d : D} {t : T} {w : World σ D W T E ρ ι} (h : Reaches K progs d t w) (i : ι) :
    Prog.wlp (note told) (w.callers i).prog (fun r g => Q i r g.1) (w.marks mark i) := by
  induction h with
  | refl => exact hQ i
  | tail _ hs ih =>
    cases hs with
    | @call j β c k fault hp hfree =>
      by_cases hij : i = j
      · subst hij
        rw [hp] at ih
        rw [prog_answer_self, marks_answer_self hh]
        exact ih _
      · rw [prog_answer_other hij, marks_answer_other hij]
        exact ih
    | @rollback j r hp =>
      rw [prog_rollback]
      by_cases hij : i = j
      · subst hij
        rw [hp] at ih ⊢
        exact ih
      · rw [marks, pending_rollback_other hij]
        exact ih
    | tick ht => exact ih

end Marks

end World

end Lib
