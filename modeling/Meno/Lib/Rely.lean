import Meno.Lib.Schedule
import Meno.Lib.Tenants

/-!
# Lib.Rely

One caller among others, when the runs are those whose steps all meet a condition `may`. What a
caller knows is a ghost state that its answers move on; a link says what the ghost state means for
the world. If the caller's own calls and the steps of all others keep the link, then in every world
the caller's program is still right for some ghost state that is linked to it (`ghost_of_steps`):
the rule of rely and guarantee, with `may` as the rely.
-/

namespace Lib

/-! ## Assertions before calls -/

namespace Prog

variable {σ : Type → Type u} {α β : Type} {G : Type w} {pre : {β : Type} → σ β → G → Prop}
  {upd : {β : Type} → σ β → β → G → G}

/-- `wlp`, where moreover every call is made in a ghost state that meets `pre`. -/
def guarded (pre : {β : Type} → σ β → G → Prop) (upd : {β : Type} → σ β → β → G → G) :
    Prog σ α → (α → G → Prop) → G → Prop
  | .ret a, Q, g => Q a g
  | .call c k, Q, g => pre c g ∧ ∀ b, guarded pre upd (k b) Q (upd c b g)

theorem guarded_of_wlp {p : Prog σ α} {Q : α → G → Prop} :
    ∀ {g : G}, wlp upd p Q g → guarded (fun _ _ => True) upd p Q g := by
  induction p with
  | ret a => intro g h; exact h
  | call c k ih => intro g h; exact ⟨trivial, fun b => ih b (h b)⟩

theorem guarded_mono {p : Prog σ α} {Q Q' : α → G → Prop} (hQ : ∀ a g, Q a g → Q' a g) :
    ∀ {g : G}, guarded pre upd p Q g → guarded pre upd p Q' g := by
  induction p with
  | ret a => intro g h; exact hQ a g h
  | call c k ih => intro g h; exact ⟨h.1, fun b => ih b (h.2 b)⟩

theorem guarded_bind {p : Prog σ α} {f : α → Prog σ β} {Q : β → G → Prop} :
    ∀ {g : G}, guarded pre upd p (fun a g' => guarded pre upd (f a) Q g') g →
      guarded pre upd (p >>= f) Q g := by
  induction p with
  | ret a => intro g h; exact h
  | call c k ih => intro g h; exact ⟨h.1, fun b => ih b (h.2 b)⟩

/-- Calls that are written in another signature are guarded as what they stand for. -/
theorem guarded_lift {τ : Type → Type u} {f : {β : Type} → τ β → σ β} {p : Prog τ α}
    {Q : α → G → Prop} : ∀ {g : G},
      guarded (fun c => pre (f c)) (fun c => upd (f c)) p Q g → guarded pre upd (p.lift f) Q g := by
  induction p with
  | ret a => intro g h; exact h
  | call c k ih => intro g h; exact ⟨h.1, fun b => ih b (h.2 b)⟩

/-- What is right for one part of a ghost state is right for the whole, as long as the rest of it
keeps `P`. -/
theorem guarded_map {G' : Type w'} {pre' : {β : Type} → σ β → G' → Prop}
    {upd' : {β : Type} → σ β → β → G' → G'} {f : G' → G} {P : G' → Prop}
    (hpre : ∀ {β : Type} (c : σ β) (g : G'), P g → pre c (f g) → pre' c g)
    (hupd : ∀ {β : Type} (c : σ β) (b : β) (g : G'), P g →
      P (upd' c b g) ∧ f (upd' c b g) = upd c b (f g)) {p : Prog σ α} {Q : α → G → Prop} :
    ∀ {g : G'}, P g → guarded pre upd p Q (f g) →
      guarded pre' upd' p (fun a g => P g ∧ Q a (f g)) g := by
  induction p with
  | ret a => intro g hg h; exact ⟨hg, h⟩
  | call c k ih =>
    intro g hg h
    refine ⟨hpre c g hg h.1, fun b => ?_⟩
    obtain ⟨hP, hf⟩ := hupd c b g hg
    refine ih b hP ?_
    rw [hf]
    exact h.2 b

/-- Calls that are always allowed, with an end that is always right. -/
theorem guarded_of_uses {may : {β : Type} → σ β → Prop}
    (hpre : ∀ {β : Type} (c : σ β) (g : G), may c → pre c g) {p : Prog σ α} {Q : α → G → Prop}
    (hp : p.Uses may) (hQ : ∀ a g, Q a g) : ∀ g : G, guarded pre upd p Q g := by
  induction p with
  | ret a => intro g; exact hQ a g
  | call c k ih => intro g; exact ⟨hpre c g hp.1, fun b => ih b (hp.2 b) _⟩

end Prog

namespace Act

variable {σ : Type → Type u} {ε α β : Type} {G : Type w} {pre : {β : Type} → σ β → G → Prop}
  {upd : {β : Type} → σ β → β → G → G} {g : G}

/-- `Ensures` with an assertion before every call. -/
def Guarded (pre : {β : Type} → σ β → G → Prop) (upd : {β : Type} → σ β → β → G → G)
    (x : Act σ ε α) (Q : α → G → Prop) (g : G) : Prop :=
  Prog.guarded pre upd x.run (fun r g' => ∀ a, r = .ok a → Q a g') g

theorem guarded_of_ensures {x : Act σ ε α} {Q : α → G → Prop} (h : Ensures upd x Q g) :
    Guarded (fun _ _ => True) upd x Q g :=
  Prog.guarded_of_wlp h

theorem guarded_pure {a : α} {Q : α → G → Prop} (h : Q a g) :
    Guarded pre upd (pure a : Act σ ε α) Q g := by
  rintro b ⟨⟩
  exact h

theorem guarded_bind {x : Act σ ε α} {f : α → Act σ ε β} {Q : β → G → Prop}
    (h : Guarded pre upd x (fun a g' => Guarded pre upd (f a) Q g') g) :
    Guarded pre upd (x >>= f) Q g := by
  have hb : (x >>= f).run = x.run >>= ExceptT.bindCont f := rfl
  rw [Guarded, hb]
  refine Prog.guarded_bind (Prog.guarded_mono (fun r g' hr => ?_) h)
  cases r with
  | ok a => exact hr a rfl
  | error e => rintro b ⟨⟩

theorem guarded_ask {E : Type} {wrap : E → ε} {c : σ (Except E α)} {Q : α → G → Prop}
    (hpre : pre c g) (h : ∀ a, Q a (upd c (.ok a) g)) : Guarded pre upd (ask wrap c) Q g := by
  refine ⟨hpre, ?_⟩
  rintro (e | a) b ⟨⟩
  exact h _

theorem guarded_ofExcept {r : Except ε α} {Q : α → G → Prop} (h : ∀ a, r = .ok a → Q a g) :
    Guarded pre upd (ofExcept r : Act σ ε α) Q g := by
  cases r with
  | ok a => exact guarded_pure (h a rfl)
  | error e => rintro a ⟨⟩

/-- What comes before makes only calls that are always allowed, and the rest is right from
anywhere. -/
theorem guarded_after {may : {β : Type} → σ β → Prop}
    (hpre : ∀ {β : Type} (c : σ β) (g : G), may c → pre c g) {x : Act σ ε α}
    (hx : Uses may x) {f : α → Act σ ε β} {Q : β → G → Prop}
    (h : ∀ a g', Guarded pre upd (f a) Q g') : Guarded pre upd (x >>= f) Q g :=
  guarded_bind (Prog.guarded_of_uses hpre hx (fun _ g' a _ => h a g') g)

end Act

namespace World

variable {σ : Type → Type} {D W T E ρ ι : Type} [DecidableEq ι] {eng : Engine σ D W T E}
  {κ R : Type} [DecidableEq κ] (K : Keyed eng κ R)

/-- A step that meets the condition. -/
def StepMay [LE T] (may : World σ D W T E ρ ι → World σ D W T E ρ ι → Prop)
    (w w' : World σ D W T E ρ ι) : Prop :=
  Step K w w' ∧ may w w'

/-- A run of such steps. -/
abbrev StepsMay [LE T] (may : World σ D W T E ρ ι → World σ D W T E ρ ι → Prop) :
    World σ D W T E ρ ι → World σ D W T E ρ ι → Prop :=
  Relation.ReflTransGen (StepMay K may)

variable {K} {may : World σ D W T E ρ ι → World σ D W T E ρ ι → Prop} {w w' : World σ D W T E ρ ι}

theorem StepsMay.steps [LE T] (h : StepsMay K may w w') : Relation.ReflTransGen (Step K) w w' :=
  Relation.ReflTransGen.mono (fun _ _ hs => hs.1) _ _ h

theorem StepsMay.reaches [LE T] {progs : ι → Prog (Cmd σ E) ρ} {d : D} {t : T}
    (h : StepsMay K may (start d t progs) w) : Reaches K progs d t w :=
  h.steps

/-! ## What stays -/

/-- A program that has returned stays returned. -/
theorem prog_of_ret [LE T] {i : ι} {r : ρ} (h : StepsMay K may w w')
    (hp : (w.callers i).prog = .ret r) : (w'.callers i).prog = .ret r := by
  induction h with
  | refl => exact hp
  | tail _ hs ih =>
    cases hs.1 with
    | @call j β c k fault hcall hfree =>
      by_cases hij : i = j
      · subst hij
        rw [ih] at hcall
        cases hcall
      · rw [prog_answer_other hij]
        exact ih
    | @rollback j r' hret =>
      rw [prog_rollback]
      exact ih
    | tick ht => exact ih

/-! ## One caller -/

section Ghost

variable {G : Type} {pre : {β : Type} → Cmd σ E β → G → Prop}
  {upd : {β : Type} → Cmd σ E β → β → G → G} {link : G → World σ D W T E ρ ι → Prop}
  {Q : ρ → G → Prop} {i : ι}

/-- A step that is not a call of the caller: its transaction stays as it is, or is rolled back when
the program has ended. -/
structure Apart (i : ι) (w w' : World σ D W T E ρ ι) : Prop where
  prog : (w'.callers i).prog = (w.callers i).prog
  pending : w'.pending i = w.pending i ∨
    w'.pending i = [] ∧ ∃ r, (w.callers i).prog = .ret r

/-- The caller's own calls, and all other steps, keep what the ghost state means. -/
structure Linked [LE T] (K : Keyed eng κ R) (may : World σ D W T E ρ ι → World σ D W T E ρ ι → Prop)
    (pre : {β : Type} → Cmd σ E β → G → Prop) (upd : {β : Type} → Cmd σ E β → β → G → G)
    (link : G → World σ D W T E ρ ι → Prop) (i : ι) : Prop where
  own : ∀ {w : World σ D W T E ρ ι} {β : Type} {c : Cmd σ E β} {k : β → Prog (Cmd σ E) ρ}
    {fault : Bool} {g : G}, (w.callers i).prog = .call c k →
      StepMay K may w (w.answer eng i c k fault) → pre c g → link g w →
      link (upd c (Session.handle eng c (w.session i c fault)).1 g) (w.answer eng i c k fault)
  others : ∀ {w w' : World σ D W T E ρ ι} {g : G}, StepMay K may w w' → Apart i w w' →
    link g w → link g w'

/-- A step is a call of the caller, or apart from it. -/
theorem own_or_apart [LE T] (hs : Step K w w') (i : ι) :
    (∃ (β : Type) (c : Cmd σ E β) (k : β → Prog (Cmd σ E) ρ) (fault : Bool),
      (w.callers i).prog = .call c k ∧ w' = w.answer eng i c k fault) ∨ Apart i w w' := by
  cases hs with
  | @call j β c k fault hp hfree =>
    by_cases hij : i = j
    · subst hij
      exact .inl ⟨β, c, k, fault, hp, rfl⟩
    · exact .inr ⟨prog_answer_other hij, .inl (pending_answer_other hij)⟩
  | @rollback j r hp =>
    refine .inr ⟨prog_rollback i, ?_⟩
    by_cases hij : i = j
    · subst hij
      exact .inr ⟨pending_rollback_self, r, hp⟩
    · exact .inl (pending_rollback_other hij)
  | tick ht => exact .inr ⟨rfl, .inl rfl⟩

theorem Linked.step [LE T] (h : Linked K may pre upd link i) (hs : StepMay K may w w') {g : G}
    (hg : link g w) (hw : Prog.guarded pre upd (w.callers i).prog Q g) :
    ∃ g', link g' w' ∧ Prog.guarded pre upd (w'.callers i).prog Q g' := by
  rcases own_or_apart hs.1 i with ⟨β, c, k, fault, hp, rfl⟩ | hapart
  · rw [hp] at hw
    refine ⟨_, h.own hp hs hw.1 hg, ?_⟩
    rw [prog_answer_self]
    exact hw.2 _
  · refine ⟨g, h.others hs hapart hg, ?_⟩
    rw [hapart.prog]
    exact hw

/-- What the program ensures of its ghost state, it ensures of the worlds of all runs. -/
theorem ghost_of_steps [LE T] (h : Linked K may pre upd link i) (hrun : StepsMay K may w w')
    {g : G} (hg : link g w) (hw : Prog.guarded pre upd (w.callers i).prog Q g) :
    ∃ g', link g' w' ∧ Prog.guarded pre upd (w'.callers i).prog Q g' := by
  induction hrun with
  | refl => exact ⟨g, hg, hw⟩
  | tail _ hs ih =>
    obtain ⟨g', hg', hw'⟩ := ih
    exact h.step hs hg' hw'

/-- The same at the end of the program. -/
theorem post_of_steps [LE T] (h : Linked K may pre upd link i) (hrun : StepsMay K may w w')
    {g : G} (hg : link g w) (hw : Prog.guarded pre upd (w.callers i).prog Q g) {r : ρ}
    (hret : (w'.callers i).prog = .ret r) : ∃ g', link g' w' ∧ Q r g' := by
  obtain ⟨g', hg', hw'⟩ := ghost_of_steps h hrun hg hw
  rw [hret] at hw'
  exact ⟨g', hg', hw'⟩

/-- All that the caller has written has `P`, be it committed or not. -/
structure Wrote (P : W → Prop) (i : ι) (w : World σ D W T E ρ ι) : Prop where
  pending : ∀ x ∈ w.pending i, P x
  log : ∀ x, (i, x) ∈ w.log → P x

/-- A caller writes what its calls write in the ghost states that are linked to the worlds. -/
theorem wrote_of_steps [LE T] {P : W → Prop} (h : Linked K may pre upd link i)
    (hwrites : ∀ {w : World σ D W T E ρ ι} {β : Type} {c : Cmd σ E β} {fault : Bool} {g : G},
      pre c g → link g w → ∀ x ∈ c.writes eng (w.session i c fault), P x)
    (hrun : StepsMay K may w w') {g : G} (hg : link g w)
    (hw : Prog.guarded pre upd (w.callers i).prog Q g) (hstart : Wrote P i w) : Wrote P i w' := by
  induction hrun with
  | refl => exact hstart
  | tail hrun hs ih =>
    obtain ⟨g', hg', hw'⟩ := ghost_of_steps h hrun hg hw
    cases hs.1 with
    | @call j β c k fault hp hfree =>
      by_cases hij : i = j
      · subst hij
        rw [hp] at hw'
        refine ⟨fun x hx => ?_, fun x hx => ?_⟩
        · rcases mem_pending_answer hx with hx | ⟨-, hx⟩
          · exact ih.pending x hx
          · exact hwrites hw'.1 hg' x hx
        · rcases List.mem_append.1 hx with hx | hx
          · exact ih.log x hx
          · obtain ⟨y, hy, he⟩ := List.mem_map.1 hx
            cases he
            rcases mem_commits hy with hy | hy
            · exact ih.pending _ hy
            · exact hwrites hw'.1 hg' _ hy
      · refine ⟨?_, fun x hx => ?_⟩
        · rw [pending_answer_other hij]
          exact ih.pending
        · rcases List.mem_append.1 hx with hx | hx
          · exact ih.log x hx
          · obtain ⟨y, -, he⟩ := List.mem_map.1 hx
            cases he
            exact absurd rfl hij
    | @rollback j r hp =>
      refine ⟨?_, ih.log⟩
      by_cases hij : i = j
      · subst hij
        rw [pending_rollback_self]
        exact fun x hx => nomatch hx
      · rw [pending_rollback_other hij]
        exact ih.pending
    | tick ht => exact ⟨ih.pending, ih.log⟩

end Ghost

/-! ## The calls of a program that has returned -/

section Returned

variable {i : ι}

/-- A program that returns has had its next call answered. -/
theorem answered_of_ret [LE T] {β : Type} {c : Cmd σ E β} {k : β → Prog (Cmd σ E) ρ} {r : ρ}
    (h : StepsMay K may w w') (hp : (w.callers i).prog = .call c k)
    (hret : (w'.callers i).prog = .ret r) :
    ∃ v fault, StepsMay K may w v ∧ (v.callers i).prog = .call c k ∧
      StepMay K may v (v.answer eng i c k fault) ∧ StepsMay K may (v.answer eng i c k fault) w' := by
  induction h using Relation.ReflTransGen.head_induction_on with
  | refl =>
    rw [hp] at hret
    cases hret
  | @head v v' hs hrest ih =>
    rcases own_or_apart hs.1 i with ⟨β', c', k', fault, hp', rfl⟩ | hapart
    · cases hp.symm.trans hp'
      exact ⟨v, fault, .refl, hp, hs, hrest⟩
    · obtain ⟨u, fault, hsteps, hu⟩ := ih (hapart.prog.trans hp)
      exact ⟨u, fault, .head hs hsteps, hu⟩

/-- A program that returns has come to the end of its first part. -/
theorem bind_of_ret [LE T] {α : Type} {p : Prog (Cmd σ E) α} {f : α → Prog (Cmd σ E) ρ} {r : ρ}
    (h : StepsMay K may w w') (hp : (w.callers i).prog = p >>= f)
    (hret : (w'.callers i).prog = .ret r) :
    ∃ a v, StepsMay K may w v ∧ StepsMay K may v w' ∧ (v.callers i).prog = f a := by
  induction p generalizing w with
  | ret a => exact ⟨a, w, .refl, h, hp⟩
  | call c k ih =>
    obtain ⟨v, fault, hv, -, hs, hrest⟩ := answered_of_ret h hp hret
    obtain ⟨a, u, hu, hrest', hpu⟩ := ih _ hrest prog_answer_self
    exact ⟨a, u, hv.trans (.head hs hu), hrest', hpu⟩

end Returned

section ReturnedOk

variable {ε α β : Type} {w w' : World σ D W T E (Except ε β) ι} {i : ι}
  {may : World σ D W T E (Except ε β) ι → World σ D W T E (Except ε β) ι → Prop}

/-- The same for a program that may stop with an error, and has not. -/
theorem act_of_ret [LE T] {x : Txn σ E ε α} {f : α → Txn σ E ε β} {b : β}
    (h : StepsMay K may w w') (hp : (w.callers i).prog = ExceptT.run (x >>= f))
    (hret : (w'.callers i).prog = .ret (.ok b)) :
    ∃ a v, StepsMay K may w v ∧ StepsMay K may v w' ∧ (v.callers i).prog = ExceptT.run (f a) := by
  have hb : ExceptT.run (x >>= f) = ExceptT.run x >>= ExceptT.bindCont f := rfl
  obtain ⟨r, v, hv, hrest, hpv⟩ := bind_of_ret h (hp.trans hb) hret
  cases r with
  | ok a => exact ⟨a, v, hv, hrest, hpv⟩
  | error e =>
    have hstays := prog_of_ret hrest (hpv : (v.callers i).prog = .ret (.error e))
    rw [hret] at hstays
    cases hstays

variable (eng) in
/-- A statement on the pool is executed between two worlds, and is answered `a`. -/
structure Executed (i : ι) (c : σ α) (a : α) (v v' : World σ D W T E (Except ε β) ι) : Prop where
  exec : ∃ ws, eng.exec c v.clock v.committed = .ok (a, ws) ∧
    v'.committed = eng.applyAll v.committed ws ∧ newLog v v' = ws.map fun x => (i, x)
  clock : v'.clock = v.clock

/-- A statement on the pool of a program that has returned well. -/
theorem pool_of_ret [LE T] {wrap : E → ε} {c : σ α} {f : α → Txn σ E ε β} {b : β}
    (h : StepsMay K may w w')
    (hp : (w.callers i).prog = ExceptT.run (Act.ask wrap (.exec .pool c) >>= f))
    (hret : (w'.callers i).prog = .ret (.ok b)) :
    ∃ a v v', StepsMay K may w v ∧ StepMay K may v v' ∧ StepsMay K may v' w' ∧
      Executed eng i c a v v' ∧ (v'.callers i).prog = ExceptT.run (f a) := by
  obtain ⟨v, fault, hv, -, hs, hrest⟩ := answered_of_ret h hp hret
  cases hanswer : (Session.handle eng (.exec .pool c) (v.session i (.exec .pool c) fault)).1 with
  | error e =>
    have hstop := prog_of_ret (r := Except.error (wrap e)) (i := i) hrest
      (by rw [prog_answer_self, hanswer]; rfl)
    rw [hret] at hstop
    cases hstop
  | ok a =>
    obtain ⟨ws, he, hwrites⟩ := writes_of_answered hanswer
    refine ⟨a, v, _, hv, hs, hrest, ⟨⟨ws, he, ?_, ?_⟩, rfl⟩, ?_⟩
    · rw [committed_answer, Cmd.commits, hwrites]
    · rw [newLog_answer, Cmd.commits, hwrites]
    · rw [prog_answer_self, hanswer]
      rfl

end ReturnedOk

/-! ## Inside a part of a program -/

section Inside

variable {α : Type} {i : ι} {rest : α → Prog (Cmd σ E) ρ} {p q : Prog (Cmd σ E) α}
  {v : World σ D W T E ρ ι}

/-- A run from `w` to `v` in which the caller is inside a part of its program: the part was `p` and
has come to `q`, and `rest` is what comes after it. -/
inductive Inside [LE T] (K : Keyed eng κ R)
    (may : World σ D W T E ρ ι → World σ D W T E ρ ι → Prop) (i : ι)
    (rest : α → Prog (Cmd σ E) ρ) (w : World σ D W T E ρ ι) (p : Prog (Cmd σ E) α) :
    World σ D W T E ρ ι → Prog (Cmd σ E) α → Prop where
  | enter : (w.callers i).prog = p >>= rest → Inside K may i rest w p w p
  | own {v : World σ D W T E ρ ι} {β : Type} {c : Cmd σ E β} {k : β → Prog (Cmd σ E) α}
      (fault : Bool) : Inside K may i rest w p v (.call c k) →
        StepMay K may v (v.answer eng i c (fun b => k b >>= rest) fault) →
        Inside K may i rest w p (v.answer eng i c (fun b => k b >>= rest) fault)
          (k (Session.handle eng c (v.session i c fault)).1)
  | others {v v' : World σ D W T E ρ ι} {q : Prog (Cmd σ E) α} : Inside K may i rest w p v q →
      StepMay K may v v' → Apart i v v' → Inside K may i rest w p v' q

theorem Inside.prog [LE T] (h : Inside K may i rest w p v q) :
    (v.callers i).prog = q >>= rest := by
  induction h with
  | enter hp => exact hp
  | own fault _ _ _ => exact prog_answer_self
  | others _ _ hapart ih => exact hapart.prog.trans ih

/-- The part has its next call answered. -/
theorem Inside.answered [LE T] {β : Type} {c : Cmd σ E β} {k : β → Prog (Cmd σ E) α} {fault : Bool}
    (h : Inside K may i rest w p v (.call c k)) (hfree : v.Free K i c fault)
    (hmay : may v (v.answer eng i c (fun b => k b >>= rest) fault)) :
    Inside K may i rest w p (v.answer eng i c (fun b => k b >>= rest) fault)
      (k (Session.handle eng c (v.session i c fault)).1) :=
  .own fault h ⟨.call fault h.prog hfree, hmay⟩

/-- What the part ensures of its ghost state, it ensures of the worlds that it passes. -/
theorem Inside.ghost [LE T] {G : Type} {pre : {β : Type} → Cmd σ E β → G → Prop}
    {upd : {β : Type} → Cmd σ E β → β → G → G} {link : G → World σ D W T E ρ ι → Prop}
    {Q : α → G → Prop} (hlinked : Linked K may pre upd link i) (h : Inside K may i rest w p v q)
    {g : G} (hg : link g w) (hp : Prog.guarded pre upd p Q g) :
    ∃ g', link g' v ∧ Prog.guarded pre upd q Q g' := by
  induction h with
  | enter _ => exact ⟨g, hg, hp⟩
  | own fault hin hs ih =>
    obtain ⟨g', hg', hq⟩ := ih
    exact ⟨_, hlinked.own hin.prog hs hq.1 hg', hq.2 _⟩
  | others _ hs hapart ih =>
    obtain ⟨g', hg', hq⟩ := ih
    exact ⟨g', hlinked.others hs hapart hg', hq⟩

end Inside

/-! ## Conditions on calls -/

section When

/-- What a caller's call may be, in the world in which it is answered. -/
abbrev CallCondition (σ : Type → Type) (D W T E ρ ι : Type) : Type 1 :=
  World σ D W T E ρ ι → ι → {β : Type} → Cmd σ E β → Bool → Prop

variable (K) (when : CallCondition σ D W T E ρ ι)

/-- A step that answers a call only where the call meets the condition. -/
inductive StepWhen [LE T] : World σ D W T E ρ ι → World σ D W T E ρ ι → Prop where
  | call {w : World σ D W T E ρ ι} {i : ι} {β : Type} {c : Cmd σ E β} {k : β → Prog (Cmd σ E) ρ}
      (fault : Bool) : (w.callers i).prog = .call c k → w.Free K i c fault → when w i c fault →
        StepWhen w (w.answer eng i c k fault)
  | rollback {w : World σ D W T E ρ ι} {i : ι} {r : ρ} :
      (w.callers i).prog = .ret r → StepWhen w (w.rollback i)
  | tick {w : World σ D W T E ρ ι} {t : T} : w.clock ≤ t → StepWhen w { w with clock := t }

/-- A run of such steps. -/
abbrev StepsWhen [LE T] : World σ D W T E ρ ι → World σ D W T E ρ ι → Prop :=
  Relation.ReflTransGen (StepWhen K when)

variable {K when}

theorem StepWhen.step [LE T] (h : StepWhen K @when w w') : Step K w w' := by
  cases h with
  | call fault hp hfree _ => exact .call fault hp hfree
  | rollback hp => exact .rollback hp
  | tick ht => exact .tick ht

theorem StepsWhen.steps [LE T] (h : StepsWhen K @when w w') :
    Relation.ReflTransGen (Step K) w w' :=
  Relation.ReflTransGen.mono (fun _ _ hs => hs.step) _ _ h

/-- What is said of a caller's write with the store and the history at hand, and stays true while
other rows are written. -/
def Steady (K : Keyed eng κ R) (P : D → List (ι × W) → ι → W → Prop) : Prop :=
  ∀ d log i x j zs, (∀ z ∈ zs, K.key z ≠ K.key x) → P d log i x →
    P (eng.applyAll d zs) (log ++ zs.map fun z => (j, z)) i x

variable {P : D → List (ι × W) → ι → W → Prop}

/-- The writes of the open transactions have `P`. -/
def Pending (P : D → List (ι × W) → ι → W → Prop) (w : World σ D W T E ρ ι) : Prop :=
  ∀ i, ∀ x ∈ w.pending i, P w.committed w.log i x

/-- A call keeps it, if what the call writes has `P`: a row that an open transaction has written is
written by nobody else. -/
theorem Pending.call {d : D} {i : ι} {β : Type} {c : Cmd σ E β} {k : β → Prog (Cmd σ E) ρ}
    {fault : Bool} (hP : Steady K P) (ha : Separate K d w) (h : Pending P w)
    (hfree : w.Free K i c fault)
    (hwrites : ∀ x ∈ c.writes eng (w.session i c fault), P w.committed w.log i x) :
    Pending P (w.answer eng i c k fault) := by
  -- what was pending stays so while the call commits other rows
  have hkept : ∀ j x, x ∈ w.pending j →
      (∀ z ∈ c.commits eng (w.session i c fault), K.key z ≠ K.key x) →
      P (w.answer eng i c k fault).committed (w.answer eng i c k fault).log j x := by
    intro j x hx hkeys
    rw [committed_answer]
    exact hP _ _ j x i _ hkeys (h j x hx)
  intro j x hx
  by_cases hj : j = i
  · subst hj
    cases c with
    | begin =>
      rcases mem_pending_answer hx with hx | ⟨hc, -⟩
      · exact hkept j x hx fun z hz => nomatch hz
      · cases hc
    | commit =>
      rw [pending_answer_self, Cmd.pending_commit] at hx
      cases hx
    | exec e c =>
      cases e with
      | pool =>
        rcases mem_pending_answer hx with hx | ⟨hc, -⟩
        · exact hkept j x hx fun z hz => (hfree j (fun _ => rfl) x hx z hz).symm
        · cases hc
      | tx =>
        have hnone : ∀ z ∈ (Cmd.exec .tx c).commits eng (w.session j (.exec .tx c) fault),
            K.key z ≠ K.key x := fun z hz => nomatch hz
        rcases mem_pending_answer hx with hx | ⟨-, hx⟩
        · exact hkept j x hx hnone
        · rw [committed_answer]
          exact hP _ _ j x j _ hnone (hwrites x hx)
  · rw [pending_answer_other hj] at hx
    refine hkept j x hx fun z hz => ?_
    rcases mem_commits hz with hz | hz
    · exact ha.apart i j (Ne.symm hj) z hz x hx
    · exact (hfree j (fun he => absurd he hj) x hx z hz).symm

/-- Where all writes have `P` when they are made, they have it when they are committed. -/
theorem Pending.commits [LE T] (h : Pending P w)
    (hwrites : ∀ {i : ι} {β : Type} {c : Cmd σ E β} {k : β → Prog (Cmd σ E) ρ} {fault : Bool},
      (w.callers i).prog = .call c k → when w i c fault →
        ∀ x ∈ c.writes eng (w.session i c fault), P w.committed w.log i x)
    (hs : StepWhen K @when w w') {i : ι} {x : W} (hx : (i, x) ∈ newLog w w') :
    P w.committed w.log i x := by
  cases hs with
  | @call j β c k fault hp hfree hwhen =>
    rw [newLog_answer] at hx
    obtain ⟨y, hy, he⟩ := List.mem_map.1 hx
    cases he
    rcases mem_commits hy with hy | hy
    · exact h _ _ hy
    · exact hwrites hp hwhen _ hy
  | rollback hp =>
    rw [newLog_rollback] at hx
    cases hx
  | tick ht =>
    rw [newLog_tick] at hx
    cases hx

theorem pending_of_stepsWhen [LE T] {progs : ι → Prog (Cmd σ E) ρ} {d : D} {t : T}
    (hP : Steady K P)
    (hwrites : ∀ {w : World σ D W T E ρ ι} {i : ι} {β : Type} {c : Cmd σ E β}
      {k : β → Prog (Cmd σ E) ρ} {fault : Bool}, Reaches K progs d t w → Pending P w →
        (w.callers i).prog = .call c k → when w i c fault →
          ∀ x ∈ c.writes eng (w.session i c fault), P w.committed w.log i x)
    (h : StepsWhen K @when (start d t progs) w) : Pending P w := by
  induction h with
  | refl =>
    intro i x hx
    rw [pending_start] at hx
    cases hx
  | tail hrun hs ih =>
    have hreach := StepsWhen.steps hrun
    cases hs with
    | call fault hp hfree hwhen =>
      exact ih.call hP (apart_of_reaches hreach) hfree (hwrites hreach ih hp hwhen)
    | @rollback i r hp =>
      intro j x hx
      by_cases hj : j = i
      · subst hj
        rw [pending_rollback_self] at hx
        cases hx
      · rw [pending_rollback_other hj] at hx
        exact ih j x hx
    | tick ht => exact ih

end When

/-! ## Runs that can be computed -/

section ScheduleWhen

variable (K) [Fintype ι] [LE T] [DecidableLE T] (when : CallCondition σ D W T E ρ ι)
  [∀ w i {β : Type} (c : Cmd σ E β) fault, Decidable (when w i c fault)]

/-- `turn` where calls have a condition. -/
def turnWhen (w : World σ D W T E ρ ι) (i : ι) : Option (World σ D W T E ρ ι) :=
  match (w.callers i).prog with
  | .ret _ => some (w.rollback i)
  | .call c k =>
    if w.Free K i c false ∧ when w i c false then some (w.answer eng i c k false) else none

def runWhen : List (T × ι) → World σ D W T E ρ ι → Option (World σ D W T E ρ ι)
  | [], w => some w
  | (t, i) :: rest, w =>
    if w.clock ≤ t then (turnWhen K @when { w with clock := t } i).bind (runWhen rest) else none

variable {K when}

omit [DecidableLE T] in
theorem stepWhen_turnWhen {i : ι} (h : turnWhen K @when w i = some w') : StepWhen K @when w w' := by
  unfold turnWhen at h
  split at h
  · rename_i r hp
    cases h
    exact .rollback hp
  · rename_i β c k hp
    split at h
    · rename_i hmeets
      cases h
      exact .call false hp hmeets.1 hmeets.2
    · cases h

theorem steps_runWhen : ∀ (events : List (T × ι)) {w w' : World σ D W T E ρ ι},
    runWhen K @when events w = some w' → StepsWhen K @when w w' := by
  intro events
  induction events with
  | nil =>
    intro w w' h
    cases h
    exact .refl
  | cons e events ih =>
    intro w w' h
    rw [runWhen] at h
    split at h
    · rename_i hle
      obtain ⟨w₁, hturn, hrest⟩ := Option.bind_eq_some_iff.1 h
      exact .head (.tick hle) (.head (stepWhen_turnWhen hturn) (ih hrest))
    · cases h

end ScheduleWhen

section Schedule

variable (K may) [Fintype ι] [LE T] [DecidableLE T] [∀ w w', Decidable (may w w')]

/-- A step of the schedule: the clock goes on, and the caller has its next call answered. -/
def runMay : List (T × ι) → World σ D W T E ρ ι → Option (World σ D W T E ρ ι)
  | [], w => some w
  | (t, i) :: rest, w =>
    if w.clock ≤ t ∧ may w { w with clock := t } then
      (turn K (fun _ _ => True) { w with clock := t } i).bind fun w' =>
        if may { w with clock := t } w' then runMay rest w' else none
    else none

variable {K may}

theorem steps_runMay : ∀ (events : List (T × ι)) {w w' : World σ D W T E ρ ι},
    runMay K may events w = some w' → StepsMay K may w w' := by
  intro events
  induction events with
  | nil =>
    intro w w' h
    cases h
    exact .refl
  | cons e events ih =>
    intro w w' h
    rw [runMay] at h
    split at h
    · rename_i hmeets
      obtain ⟨w₁, hturn, hrest⟩ := Option.bind_eq_some_iff.1 h
      split at hrest
      · rename_i hmay
        exact .head ⟨.tick hmeets.1, hmeets.2⟩
          (.head ⟨(stepIf_turn hturn).1, hmay⟩ (ih hrest))
      · cases hrest
    · cases h

end Schedule

end World

end Lib
