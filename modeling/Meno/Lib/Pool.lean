import Mathlib.Logic.Function.Basic
import Mathlib.Logic.Relation
import Meno.Lib.Rely

/-!
# Lib.Pool

Any number of programs over one store, whose calls are answered one at a time in any order, and an
environment that changes the store between them. Each program has an outline: what its ghost state
is before each of its calls, moved on by the answers. `outlined_of_steps` is the rule of Owicki and
Gries: when each call that meets its precondition keeps an invariant of the store and all ghost
states, and so does the environment, then everything that is reached has the invariant and is within
the outlines.
-/

namespace Lib

/-! ## Outlines -/

namespace Prog

variable {σ : Type → Type u} {α β : Type} {G : Type w} {pre : {β : Type} → σ β → G → Prop}
  {upd : {β : Type} → σ β → β → G → G}

/-- A program whose calls are all allowed and leave the ghost state alone. -/
theorem guarded_of_neutral {neutral : {β : Type} → σ β → Prop}
    (hpre : ∀ {β : Type} (c : σ β) (g : G), neutral c → pre c g)
    (hupd : ∀ {β : Type} (c : σ β) (b : β) (g : G), neutral c → upd c b g = g) {p : Prog σ α}
    {Q : α → G → Prop} {g : G} (hp : p.Uses neutral) (hQ : ∀ a, Q a g) :
    guarded pre upd p Q g := by
  induction p with
  | ret a => exact hQ a
  | call c k ih =>
    refine ⟨hpre c g hp.1, fun b => ?_⟩
    have hk := ih b (hp.2 b)
    rwa [← hupd c b g hp.1] at hk

end Prog

namespace Act

variable {σ : Type → Type u} {ε α β : Type} {G : Type w} {pre : {β : Type} → σ β → G → Prop}
  {upd : {β : Type} → σ β → β → G → G} {g : G}

/-- `Prog.guarded` for programs that may stop with an error: `Q` holds of every outcome. -/
def Outline (pre : {β : Type} → σ β → G → Prop) (upd : {β : Type} → σ β → β → G → G)
    (x : Act σ ε α) (Q : Except ε α → G → Prop) (g : G) : Prop :=
  Prog.guarded pre upd x.run Q g

theorem outline_pure {a : α} {Q : Except ε α → G → Prop} (h : Q (.ok a) g) :
    Outline pre upd (pure a : Act σ ε α) Q g := h

theorem outline_throw {e : ε} {Q : Except ε α → G → Prop} (h : Q (.error e) g) :
    Outline pre upd (throw e : Act σ ε α) Q g := h

theorem outline_bind {x : Act σ ε α} {f : α → Act σ ε β} {Q : Except ε β → G → Prop}
    (h : Outline pre upd x (fun r g' => match r with
      | .ok a => Outline pre upd (f a) Q g'
      | .error e => Q (.error e) g') g) : Outline pre upd (x >>= f) Q g := by
  have hb : (x >>= f).run = x.run >>= ExceptT.bindCont f := rfl
  rw [Outline, hb]
  refine Prog.guarded_bind (Prog.guarded_mono (fun r g' hr => ?_) h)
  cases r with
  | ok a => exact hr
  | error e => exact hr

theorem outline_ask {E : Type} {wrap : E → ε} {c : σ (Except E α)} {Q : Except ε α → G → Prop}
    (hpre : pre c g) (hok : ∀ a, Q (.ok a) (upd c (.ok a) g))
    (herror : ∀ e, Q (.error (wrap e)) (upd c (.error e) g)) :
    Outline pre upd (ask wrap c) Q g := by
  refine ⟨hpre, ?_⟩
  rintro (e | a)
  · exact herror e
  · exact hok a

theorem outline_of_neutral {neutral : {β : Type} → σ β → Prop}
    (hpre : ∀ {β : Type} (c : σ β) (g : G), neutral c → pre c g)
    (hupd : ∀ {β : Type} (c : σ β) (b : β) (g : G), neutral c → upd c b g = g) {x : Act σ ε α}
    {Q : Except ε α → G → Prop} (hx : Uses neutral x) (hQ : ∀ r, Q r g) : Outline pre upd x Q g :=
  Prog.guarded_of_neutral hpre hupd hx hQ

end Act

/-! ## Pools -/

structure Pool (S : Type v) (σ : Type → Type u) (ρ ι : Type) where
  store : S
  prog : ι → Prog σ ρ

namespace Pool

variable {S : Type v} {σ : Type → Type u} {ρ ι : Type} [DecidableEq ι]
  (exec : ι → {β : Type} → σ β → S → β → S → Prop) (env : S → S → Prop)

/-- One call of one program is answered, or the environment does something. -/
inductive Step : Pool S σ ρ ι → Pool S σ ρ ι → Prop
  | call {p : Pool S σ ρ ι} {i : ι} {β : Type} {c : σ β} {k : β → Prog σ ρ} {b : β} {s' : S}
      (hp : p.prog i = .call c k) (hexec : exec i c p.store b s') :
      Step p { store := s', prog := Function.update p.prog i (k b) }
  | env {p : Pool S σ ρ ι} {s' : S} (henv : env p.store s') : Step p { p with store := s' }

abbrev Steps : Pool S σ ρ ι → Pool S σ ρ ι → Prop := Relation.ReflTransGen (Step exec env)

variable {exec env} {G : Type w} {pre : ι → {β : Type} → σ β → G → Prop}
  {upd : ι → {β : Type} → σ β → β → G → G} {Q : ι → ρ → G → Prop}
  {Inv : S → (ι → G) → Prop} {p p' : Pool S σ ρ ι}

/-- Some ghost states meet the invariant, with every program within its outline. -/
def Outlined (pre : ι → {β : Type} → σ β → G → Prop) (upd : ι → {β : Type} → σ β → β → G → G)
    (Q : ι → ρ → G → Prop) (Inv : S → (ι → G) → Prop) (p : Pool S σ ρ ι) : Prop :=
  ∃ g, Inv p.store g ∧ ∀ i, (p.prog i).guarded (pre i) (upd i) (Q i) (g i)

theorem outlined_of_step
    (hcall : ∀ i {β : Type} (c : σ β) s b s' g, pre i c (g i) → exec i c s b s' → Inv s g →
      Inv s' (Function.update g i (upd i c b (g i))))
    (henv : ∀ s s' g, env s s' → Inv s g → Inv s' g) (h : Step exec env p p')
    (hp : p.Outlined pre upd Q Inv) : p'.Outlined pre upd Q Inv := by
  obtain ⟨g, hinv, hprogs⟩ := hp
  cases h with
  | @call i β c k b s' hp hexec =>
    have hi := hprogs i
    rw [hp] at hi
    refine ⟨Function.update g i (upd i c b (g i)), hcall i c _ b s' g hi.1 hexec hinv, ?_⟩
    intro j
    by_cases hj : j = i
    · subst hj
      simpa using hi.2 b
    · simpa [Function.update_of_ne hj] using hprogs j
  | env hs => exact ⟨g, henv _ _ g hs hinv, hprogs⟩

/-- The rule: calls and environment keep the invariant, so it holds wherever the programs are. -/
theorem outlined_of_steps
    (hcall : ∀ i {β : Type} (c : σ β) s b s' g, pre i c (g i) → exec i c s b s' → Inv s g →
      Inv s' (Function.update g i (upd i c b (g i))))
    (henv : ∀ s s' g, env s s' → Inv s g → Inv s' g) (h : Steps exec env p p')
    (hp : p.Outlined pre upd Q Inv) : p'.Outlined pre upd Q Inv := by
  induction h with
  | refl => exact hp
  | tail _ hs ih => exact outlined_of_step hcall henv hs ih

/-- What each call and the environment keep of the store. -/
theorem keeps_of_steps {I : S → Prop}
    (hcall : ∀ i {β : Type} (c : σ β) s b s', exec i c s b s' → I s → I s')
    (henv : ∀ s s', env s s' → I s → I s') (h : Steps exec env p p') (hp : I p.store) :
    I p'.store := by
  induction h with
  | refl => exact hp
  | tail _ hs ih =>
    cases hs with
    | call _ hexec => exact hcall _ _ _ _ _ hexec ih
    | env hs => exact henv _ _ hs ih

theorem steps_mono {exec' : ι → {β : Type} → σ β → S → β → S → Prop}
    (hexec : ∀ i {β : Type} (c : σ β) s b s', exec i c s b s' → exec' i c s b s')
    (h : Steps exec env p p') : Steps exec' env p p' := by
  induction h with
  | refl => exact .refl
  | tail _ hs ih =>
    cases hs with
    | call hp hs => exact ih.tail (.call hp (hexec _ _ _ _ _ hs))
    | env hs => exact ih.tail (.env hs)

omit [DecidableEq ι] in
/-- What a program has returned is what its outline says. -/
theorem Outlined.returned (h : p.Outlined pre upd Q Inv) :
    ∃ g, Inv p.store g ∧ ∀ i r, p.prog i = .ret r → Q i r (g i) := by
  obtain ⟨g, hinv, hprogs⟩ := h
  refine ⟨g, hinv, fun i r hr => ?_⟩
  have hi := hprogs i
  rw [hr] at hi
  exact hi

/-- Steps that meet more than is asked of them, as the outlines and the invariant show. -/
theorem steps_of_outlined
    {exec' : ι → {β : Type} → σ β → S → β → S → Prop}
    (hcall : ∀ i {β : Type} (c : σ β) s b s' g, pre i c (g i) → exec i c s b s' → Inv s g →
      Inv s' (Function.update g i (upd i c b (g i))))
    (henv : ∀ s s' g, env s s' → Inv s g → Inv s' g)
    (hmore : ∀ i {β : Type} (c : σ β) s b s' g, pre i c (g i) → exec i c s b s' → Inv s g →
      exec' i c s b s')
    (h : Steps exec env p p') (hp : p.Outlined pre upd Q Inv) : Steps exec' env p p' := by
  induction h with
  | refl => exact .refl
  | @tail p₁ p₂ h hs ih =>
    obtain ⟨g, hinv, hprogs⟩ := outlined_of_steps hcall henv h hp
    refine ih.tail ?_
    cases hs with
    | @call i β c k b s' hp₁ hexec =>
      have hi := hprogs i
      rw [hp₁] at hi
      exact .call hp₁ (hmore i c _ b s' g hi.1 hexec hinv)
    | env hs => exact .env hs

/-! ### Turns -/

/-- Whose call is answered next, or what the environment does. -/
inductive Turn (ι E : Type)
  | call (i : ι)
  | env (e : E)

section Turns

variable {E : Type} (answer : ι → {β : Type} → σ β → S → β × S) (happen : S → E → S)

def turn (p : Pool S σ ρ ι) : Turn ι E → Pool S σ ρ ι
  | .call i =>
    match p.prog i with
    | .ret _ => p
    | .call c k => {
      store := (answer i c p.store).2
      prog := Function.update p.prog i (k (answer i c p.store).1) }
  | .env e => { p with store := happen p.store e }

/-- The call that is answered in a turn meets `ok`. -/
def TurnOk (ok : ι → {β : Type} → σ β → S → Prop) (p : Pool S σ ρ ι) : Turn ι E → Prop
  | .call i =>
    match p.prog i with
    | .ret _ => True
    | .call c _ => ok i c p.store
  | .env _ => True

def TurnsOk (ok : ι → {β : Type} → σ β → S → Prop) : Pool S σ ρ ι → List (Turn ι E) → Prop
  | _, [] => True
  | p, t :: ts => p.TurnOk ok t ∧ TurnsOk ok (p.turn answer happen t) ts

variable {answer happen} {ok : ι → {β : Type} → σ β → S → Prop}

theorem step_turn
    (hexec : ∀ i {β : Type} (c : σ β) s, ok i c s → exec i c s (answer i c s).1 (answer i c s).2)
    (henv : ∀ s e, env s (happen s e)) {t : Turn ι E} (ht : p.TurnOk ok t) :
    Steps exec env p (p.turn answer happen t) := by
  cases t with
  | call i =>
    cases hp : p.prog i with
    | ret r =>
      have hsame : p.turn answer happen (.call i : Turn ι E) = p := by simp only [turn, hp]
      rw [hsame]
    | call c k =>
      have hok : ok i c p.store := by simpa only [TurnOk, hp] using ht
      have hnext : p.turn answer happen (.call i : Turn ι E) = {
          store := (answer i c p.store).2
          prog := Function.update p.prog i (k (answer i c p.store).1) } := by simp only [turn, hp]
      rw [hnext]
      exact .single (.call hp (hexec i c _ hok))
  | env e => exact .single (.env (henv _ e))

/-- Turn after turn. -/
theorem steps_turns
    (hexec : ∀ i {β : Type} (c : σ β) s, ok i c s → exec i c s (answer i c s).1 (answer i c s).2)
    (henv : ∀ s e, env s (happen s e)) {ts : List (Turn ι E)} :
    ∀ {p : Pool S σ ρ ι}, p.TurnsOk answer happen ok ts →
      Steps exec env p (ts.foldl (turn answer happen) p) := by
  induction ts with
  | nil => intro p _; exact .refl
  | cons t ts ih => intro p hts; exact (step_turn hexec henv hts.1).trans (ih hts.2)

theorem turnsOk_of_forall (hok : ∀ i {β : Type} (c : σ β) (s : S), ok i c s)
    {ts : List (Turn ι E)} :
    ∀ {p : Pool S σ ρ ι}, p.TurnsOk answer happen ok ts := by
  induction ts with
  | nil => intro p; trivial
  | cons t ts ih =>
    intro p
    refine ⟨?_, ih⟩
    cases t with
    | call i =>
      cases hp : p.prog i with
      | ret r => simp only [TurnOk, hp]
      | call c k =>
        simp only [TurnOk, hp]
        exact hok i c _
    | env e => trivial

end Turns

/-! ### One program alone -/

/-- What a handler does to a program, when the condition `ok` is met before each call. -/
def Alone (h : {β : Type} → σ β → S → β × S) (ok : {β : Type} → σ β → S → Prop) :
    Prog σ ρ → S → Prop
  | .ret _, _ => True
  | .call c k, s => ok c s ∧ Alone h ok (k (h c s).1) (h c s).2

omit [DecidableEq ι] in
theorem alone_of_forall {h : {β : Type} → σ β → S → β × S} {ok : {β : Type} → σ β → S → Prop}
    (hok : ∀ {β : Type} (c : σ β) (s : S), ok c s) (q : Prog σ ρ) (s : S) : Alone h ok q s := by
  induction q generalizing s with
  | ret r => trivial
  | call c k ih => exact ⟨hok c s, ih _ _⟩

omit [DecidableEq ι] in
theorem alone_of_uses {neutral : {β : Type} → σ β → Prop} {h : {β : Type} → σ β → S → β × S}
    {ok : {β : Type} → σ β → S → Prop}
    (hok : ∀ {β : Type} (c : σ β) (s : S), neutral c → ok c s) {q : Prog σ ρ}
    (hq : q.Uses neutral) (s : S) : Alone h ok q s := by
  induction q generalizing s with
  | ret r => trivial
  | call c k ih => exact ⟨hok c s hq.1, ih _ (hq.2 _) _⟩

/-- What the environment does while nobody calls. -/
theorem steps_env {s s' : S} {prog : ι → Prog σ ρ}
    (h : Relation.ReflTransGen env s s') :
    Steps exec env { store := s, prog } { store := s', prog } := by
  induction h with
  | refl => exact .refl
  | tail _ hs ih => exact ih.tail (.env hs)

/-- A program that is answered, and goes on alone. -/
theorem steps_of_call {i : ι} {β : Type} {c : σ β} {k : β → Prog σ ρ} {b : β} {s s' s'' : S}
    {prog : ι → Prog σ ρ} {q : Prog σ ρ} (hq : prog i = .call c k) (hc : exec i c s b s')
    (hrest : Steps exec env { store := s', prog := Function.update prog i (k b) } {
      store := s''
      prog := Function.update (Function.update prog i (k b)) i q }) :
    Steps exec env { store := s, prog } { store := s'', prog := Function.update prog i q } := by
  rw [Function.update_idem] at hrest
  exact .head (.call hq hc) hrest

/-- The first calls of a program that runs alone. -/
theorem steps_runFor {i : ι} {h : {β : Type} → σ β → S → β × S}
    (hexec : ∀ {β : Type} (c : σ β) (s : S), exec i c s (h c s).1 (h c s).2) {n : Nat}
    {q : Prog σ ρ} {prog : ι → Prog σ ρ} {s : S} (hq : prog i = q) :
    Steps exec env { store := s, prog } {
      store := (q.runFor h n s).2
      prog := Function.update prog i (q.runFor h n s).1 } := by
  induction n generalizing q prog s with
  | zero => rw [Prog.runFor, ← hq, Function.update_eq_self]
  | succ n ih =>
    cases q with
    | ret r => rw [Prog.runFor, ← hq, Function.update_eq_self]
    | call c k =>
      have hrest := @ih (k (h c s).1) (Function.update prog i (k (h c s).1)) (h c s).2
        (Function.update_self i _ prog)
      exact steps_of_call hq (hexec c s) hrest

/-- A program that runs alone, from where it is to its end. -/
theorem steps_alone {i : ι} {h : {β : Type} → σ β → S → β × S}
    {ok : {β : Type} → σ β → S → Prop}
    (hexec : ∀ {β : Type} (c : σ β) (s : S), ok c s → exec i c s (h c s).1 (h c s).2)
    {q : Prog σ ρ} {prog : ι → Prog σ ρ} {s : S} (hq : prog i = q) (hok : Alone h ok q s) :
    Steps exec env { store := s, prog } {
      store := (q.run h s).2
      prog := Function.update prog i (.ret (q.run h s).1) } := by
  induction q generalizing s prog with
  | ret r =>
    rw [Prog.run, ← hq, Function.update_eq_self]
  | call c k ih =>
    have hrest := @ih (h c s).1 (Function.update prog i (k (h c s).1)) (h c s).2
      (Function.update_self i _ prog) hok.2
    exact steps_of_call hq (hexec c s hok.1) hrest

end Pool

end Lib
