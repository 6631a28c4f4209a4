import Mathlib.Tactic.Common

/-!
# Lib.Prog

Programs over a signature of calls. A program either returns, or makes a call and continues
with the answer. The same program text is read in three ways:

* `run`: a handler answers every call from a state (one caller, no interference);
* `wp`: what a handler's run ends in, for programs that may stop early with an error;
* `Uses`: which calls it can make, whatever the answers are;
* `wlp`: what holds at the end whatever the answers are, with a ghost state that is updated from
  each call and its answer. This is the reading used when other callers interfere.
-/

namespace Lib

inductive Prog (σ : Type → Type u) (α : Type) : Type (max 1 u) where
  | ret (a : α)
  | call {β : Type} (c : σ β) (k : β → Prog σ α)

namespace Prog

variable {σ : Type → Type u} {α β γ : Type}

def bind : Prog σ α → (α → Prog σ β) → Prog σ β
  | .ret a, f => f a
  | .call c k, f => .call c fun b => (k b).bind f

instance : Monad (Prog σ) where
  pure := .ret
  bind := Prog.bind

@[simp] theorem pure_eq (a : α) : (pure a : Prog σ α) = .ret a := rfl
@[simp] theorem ret_bind (a : α) (f : α → Prog σ β) : (Prog.ret a >>= f) = f a := rfl
@[simp] theorem call_bind {δ : Type} (c : σ δ) (k : δ → Prog σ α) (f : α → Prog σ β) :
    (Prog.call c k >>= f) = .call c fun b => k b >>= f := rfl

theorem bind_ret (p : Prog σ α) : (p >>= Prog.ret) = p := by
  induction p with
  | ret a => rfl
  | call c k ih => exact congrArg (Prog.call c) (funext ih)

theorem bind_assoc (p : Prog σ α) (f : α → Prog σ β) (g : β → Prog σ γ) :
    (p >>= f >>= g) = p >>= fun a => f a >>= g := by
  induction p with
  | ret a => rfl
  | call c k ih => exact congrArg (Prog.call c) (funext ih)

instance : LawfulMonad (Prog σ) := .mk' _ bind_ret (fun _ _ => rfl) bind_assoc

/-- The program has come to its end. -/
def isRet : Prog σ α → Bool
  | .ret _ => true
  | .call _ _ => false

theorem isRet_iff {p : Prog σ α} : p.isRet = true ↔ ∃ r, p = .ret r := by
  cases p <;> simp [isRet]

/-! ## One caller: `run` -/

variable {S : Type v}

/-- A handler answers a call and moves the state. -/
def run (h : {β : Type} → σ β → S → β × S) : Prog σ α → S → α × S
  | .ret a, s => (a, s)
  | .call c k, s => run h (k (h c s).1) (h c s).2

theorem run_bind (h : {β : Type} → σ β → S → β × S) (p : Prog σ α) (f : α → Prog σ β) (s : S) :
    run h (p >>= f) s = run h (f (run h p s).1) (run h p s).2 := by
  induction p generalizing s with
  | ret a => rfl
  | call c k ih => exact ih (h c s).1 (h c s).2

/-- The first calls of a run: what is left of the program, and the state. -/
def runFor (h : {β : Type} → σ β → S → β × S) : Nat → Prog σ α → S → Prog σ α × S
  | 0, p, s => (p, s)
  | _ + 1, .ret a, s => (.ret a, s)
  | n + 1, .call c k, s => runFor h n (k (h c s).1) (h c s).2

/-! ## Every environment: `Uses` and `wlp` -/

/-- Every call that the program can come to make is `ok`. -/
def Uses (ok : {β : Type} → σ β → Prop) : Prog σ α → Prop
  | .ret _ => True
  | .call c k => ok c ∧ ∀ b, Uses ok (k b)

theorem uses_bind {ok : {β : Type} → σ β → Prop} {p : Prog σ α} {f : α → Prog σ β}
    (hp : p.Uses ok) (hf : ∀ a, (f a).Uses ok) : (p >>= f).Uses ok := by
  induction p with
  | ret a => exact hf a
  | call c k ih => exact ⟨hp.1, fun b => ih b (hp.2 b)⟩

theorem uses_mono {ok ok' : {β : Type} → σ β → Prop} (h : ∀ {β : Type} (c : σ β), ok c → ok' c)
    {p : Prog σ α} (hp : p.Uses ok) : p.Uses ok' := by
  induction p with
  | ret a => trivial
  | call c k ih => exact ⟨h c hp.1, fun b => ih b (hp.2 b)⟩

/-- A run keeps what each call keeps that the program makes. -/
theorem run_keeps {ok : {β : Type} → σ β → Prop} {h : {β : Type} → σ β → S → β × S} {I : S → Prop}
    (hcall : ∀ {β : Type} (c : σ β) (s : S), ok c → I s → I (h c s).2) {p : Prog σ α}
    (hp : p.Uses ok) {s : S} (hs : I s) : I (run h p s).2 := by
  induction p generalizing s with
  | ret a => exact hs
  | call c k ih => exact ih _ (hp.2 _) (hcall c s hp.1 hs)

/-! ## Calls in another signature -/

/-- The same program with every call written as one of another signature. -/
def lift {τ : Type → Type u} (f : {β : Type} → σ β → τ β) : Prog σ α → Prog τ α
  | .ret a => .ret a
  | .call c k => .call (f c) fun b => (k b).lift f

theorem uses_lift {τ : Type → Type u} {f : {β : Type} → σ β → τ β} {ok : {β : Type} → τ β → Prop}
    (h : ∀ {β : Type} (c : σ β), ok (f c)) (p : Prog σ α) : (p.lift f).Uses ok := by
  induction p with
  | ret a => trivial
  | call c k ih => exact ⟨h c, ih⟩

theorem run_lift {τ : Type → Type u} (f : {β : Type} → σ β → τ β)
    (h : {β : Type} → τ β → S → β × S) (p : Prog σ α) (s : S) :
    run h (p.lift f) s = run (fun c => h (f c)) p s := by
  induction p generalizing s with
  | ret a => rfl
  | call c k ih => exact ih (h (f c) s).1 (h (f c) s).2

/-! ## What a program can return -/

/-- The program returns `r` when its calls have certain answers. -/
def Returns : Prog σ α → α → Prop
  | .ret a, r => a = r
  | .call _ k, r => ∃ b, Returns (k b) r

theorem returns_bind {p : Prog σ α} {f : α → Prog σ β} {r : β} :
    (p >>= f).Returns r ↔ ∃ a, p.Returns a ∧ (f a).Returns r := by
  induction p with
  | ret a =>
    constructor
    · exact fun h => ⟨a, rfl, h⟩
    · rintro ⟨_, rfl, h⟩
      exact h
  | call c k ih =>
    constructor
    · rintro ⟨b, h⟩
      obtain ⟨a, ha, hr⟩ := (ih b).1 h
      exact ⟨a, ⟨b, ha⟩, hr⟩
    · rintro ⟨a, ⟨b, ha⟩, hr⟩
      exact ⟨b, (ih b).2 ⟨a, ha, hr⟩⟩

/-- What a run returns is among them. -/
theorem returns_run (h : {β : Type} → σ β → S → β × S) (p : Prog σ α) (s : S) :
    p.Returns (run h p s).1 := by
  induction p generalizing s with
  | ret a => rfl
  | call c k ih => exact ⟨_, ih _ _⟩

variable {G : Type w}

/-- `Q` holds at the end whatever the calls answer; `upd` moves the ghost state. -/
def wlp (upd : {β : Type} → σ β → β → G → G) : Prog σ α → (α → G → Prop) → G → Prop
  | .ret a, Q, g => Q a g
  | .call c k, Q, g => ∀ b, wlp upd (k b) Q (upd c b g)

theorem wlp_of_forall {upd : {β : Type} → σ β → β → G → G} {p : Prog σ α} {Q : α → G → Prop}
    (hQ : ∀ a g, Q a g) : ∀ g : G, wlp upd p Q g := by
  induction p with
  | ret a => intro g; exact hQ a g
  | call c k ih => intro g b; exact ih b _

theorem wlp_mono {upd : {β : Type} → σ β → β → G → G} {p : Prog σ α} {Q Q' : α → G → Prop}
    (hQ : ∀ a g, Q a g → Q' a g) : ∀ {g : G}, wlp upd p Q g → wlp upd p Q' g := by
  induction p with
  | ret a => intro g h; exact hQ a g h
  | call c k ih => intro g h b; exact ih b (h b)

theorem wlp_bind {upd : {β : Type} → σ β → β → G → G} {p : Prog σ α} {f : α → Prog σ β}
    {Q : β → G → Prop} {g : G} :
    wlp upd (p >>= f) Q g ↔ wlp upd p (fun a g' => wlp upd (f a) Q g') g := by
  induction p generalizing g with
  | ret a => rfl
  | call c k ih => exact forall_congr' fun b => ih b

end Prog

/-! ## Programs that may stop with an error -/

/-- A program whose early exits carry an error. -/
abbrev Act (σ : Type → Type u) (ε α : Type) : Type (max 1 u) := ExceptT ε (Prog σ) α

namespace Act

variable {σ : Type → Type u} {ε α β : Type} {S : Type v}

/-- A call whose failure ends the program with the error `wrap e`. -/
def ask {E : Type} (wrap : E → ε) (c : σ (Except E α)) : Act σ ε α :=
  ExceptT.mk (.call c fun
    | .ok a => .ret (.ok a)
    | .error e => .ret (.error (wrap e)))

/-- Run to completion and hand the outcome over as a value. -/
def attempt (x : Act σ ε α) : Act σ ε (Except ε α) :=
  ExceptT.mk (x.run >>= fun r => .ret (.ok r))

/-- Go on with an outcome that is already there. -/
def ofExcept : Except ε α → Act σ ε α
  | .ok a => pure a
  | .error e => throw e

def answer (h : {β : Type} → σ β → S → β × S) (x : Act σ ε α) (s : S) : Except ε α × S :=
  Prog.run h x.run s

section Answer

variable (h : {β : Type} → σ β → S → β × S)

@[simp] theorem answer_pure (a : α) (s : S) : answer h (pure a : Act σ ε α) s = (.ok a, s) := rfl

@[simp] theorem answer_throw (e : ε) (s : S) :
    answer h (throw e : Act σ ε α) s = (.error e, s) := rfl

theorem answer_bind (x : Act σ ε α) (f : α → Act σ ε β) (s : S) :
    answer h (x >>= f) s =
      match answer h x s with
      | (.ok a, s') => answer h (f a) s'
      | (.error e, s') => (.error e, s') := by
  have hb : (x >>= f).run = x.run >>= ExceptT.bindCont f := rfl
  rw [answer, hb, Prog.run_bind, answer]
  rcases Prog.run h x.run s with ⟨r, s'⟩
  cases r <;> rfl

theorem answer_bind_ok {x : Act σ ε α} {f : α → Act σ ε β} {s s' : S} {a : α}
    (hx : answer h x s = (.ok a, s')) : answer h (x >>= f) s = answer h (f a) s' := by
  rw [answer_bind, hx]

theorem answer_bind_error {x : Act σ ε α} {f : α → Act σ ε β} {s s' : S} {e : ε}
    (hx : answer h x s = (.error e, s')) : answer h (x >>= f) s = (.error e, s') := by
  rw [answer_bind, hx]

/-- What a sequence answers, its second half answers after its first. -/
theorem answer_bind_eq_ok {x : Act σ ε α} {f : α → Act σ ε β} {s s' : S} {b : β} :
    answer h (x >>= f) s = (.ok b, s') ↔
      ∃ a s₁, answer h x s = (.ok a, s₁) ∧ answer h (f a) s₁ = (.ok b, s') := by
  rw [answer_bind]
  rcases answer h x s with ⟨_ | a, s₁⟩
  · simp
  · constructor
    · exact fun hf => ⟨a, s₁, rfl, hf⟩
    · rintro ⟨_, _, ⟨⟩, hf⟩
      exact hf

theorem answer_map (f : α → β) (x : Act σ ε α) (s : S) :
    answer h (f <$> x) s = ((answer h x s).1.map f, (answer h x s).2) := by
  rw [map_eq_pure_bind, answer_bind]
  rcases answer h x s with ⟨r, s'⟩
  cases r <;> rfl

theorem answer_ask {E : Type} (wrap : E → ε) (c : σ (Except E α)) (s : S) :
    answer h (ask wrap c : Act σ ε α) s =
      match h c s with
      | (.ok a, s') => (.ok a, s')
      | (.error e, s') => (.error (wrap e), s') := by
  simp only [answer, ask, ExceptT.run, ExceptT.mk, Prog.run]
  rcases h c s with ⟨r, s'⟩
  cases r <;> rfl

theorem answer_attempt (x : Act σ ε α) (s : S) :
    answer h (attempt x) s = (.ok (answer h x s).1, (answer h x s).2) := by
  have hrun : (attempt x).run = x.run >>= fun r => .ret (.ok r) := rfl
  rw [answer, hrun, Prog.run_bind]
  rfl

@[simp] theorem answer_ofExcept (r : Except ε α) (s : S) :
    answer h (ofExcept r : Act σ ε α) s = (r, s) := by
  cases r <;> rfl

/-- The program succeeds with `a` when its calls have certain answers. -/
def Returns (x : Act σ ε α) (a : α) : Prop := Prog.Returns x.run (.ok a)

theorem returns_pure {a b : α} : Returns (pure a : Act σ ε α) b ↔ a = b := by
  constructor
  · rintro ⟨⟩
    rfl
  · rintro rfl
    rfl

theorem returns_bind {x : Act σ ε α} {f : α → Act σ ε β} {b : β} :
    Returns (x >>= f) b ↔ ∃ a, Returns x a ∧ Returns (f a) b := by
  have hb : (x >>= f).run = x.run >>= ExceptT.bindCont f := rfl
  rw [Returns, hb, Prog.returns_bind]
  constructor
  · rintro ⟨e | a, ha, hr⟩
    · cases hr
    · exact ⟨a, ha, hr⟩
  · rintro ⟨a, ha, hr⟩
    exact ⟨.ok a, ha, hr⟩

/-- The run of `x` from `s` ends in `Q`. -/
def wp (x : Act σ ε α) (Q : Except ε α → S → Prop) (s : S) : Prop :=
  Q (answer h x s).1 (answer h x s).2

@[simp] theorem wp_pure {a : α} {Q : Except ε α → S → Prop} {s : S} :
    wp h (pure a) Q s ↔ Q (.ok a) s := Iff.rfl

@[simp] theorem wp_throw {e : ε} {Q : Except ε α → S → Prop} {s : S} :
    wp h (throw e : Act σ ε α) Q s ↔ Q (.error e) s := Iff.rfl

theorem wp_bind {x : Act σ ε α} {f : α → Act σ ε β} {Q : Except ε β → S → Prop} {s : S} :
    wp h (x >>= f) Q s ↔
      wp h x (fun r s' => match r with
        | .ok a => wp h (f a) Q s'
        | .error e => Q (.error e) s') s := by
  simp only [wp, answer_bind]
  rcases answer h x s with ⟨r, s'⟩
  cases r <;> rfl

theorem wp_ask {E : Type} {wrap : E → ε} {c : σ (Except E α)} {Q : Except ε α → S → Prop} {s : S} :
    wp h (ask wrap c) Q s ↔
      match h c s with
      | (.ok a, s') => Q (.ok a) s'
      | (.error e, s') => Q (.error (wrap e)) s' := by
  rw [wp, answer_ask]
  rcases h c s with ⟨r, s'⟩
  cases r <;> rfl

theorem wp_attempt {x : Act σ ε α} {Q : Except ε (Except ε α) → S → Prop} {s : S} :
    wp h (attempt x) Q s ↔ wp h x (fun r s' => Q (.ok r) s') s := by
  rw [wp, answer_attempt, wp]

@[simp] theorem wp_ofExcept {r : Except ε α} {Q : Except ε α → S → Prop} {s : S} :
    wp h (ofExcept r : Act σ ε α) Q s ↔ Q r s := by
  rw [wp, answer_ofExcept]

theorem wp_mono {x : Act σ ε α} {Q Q' : Except ε α → S → Prop} {s : S}
    (hx : wp h x Q s) (hQ : ∀ r s', Q r s' → Q' r s') : wp h x Q' s := hQ _ _ hx

end Answer

section Uses

variable {ok : {β : Type} → σ β → Prop}

/-- `Prog.Uses` for programs that may stop with an error. -/
def Uses (ok : {β : Type} → σ β → Prop) (x : Act σ ε α) : Prop := Prog.Uses ok x.run

theorem uses_pure (a : α) : Uses ok (pure a : Act σ ε α) := trivial

theorem uses_throw (e : ε) : Uses ok (throw e : Act σ ε α) := trivial

theorem uses_bind {x : Act σ ε α} {f : α → Act σ ε β} (hx : Uses ok x) (hf : ∀ a, Uses ok (f a)) :
    Uses ok (x >>= f) := by
  have hb : (x >>= f).run = x.run >>= ExceptT.bindCont f := rfl
  rw [Uses, hb]
  refine Prog.uses_bind hx ?_
  rintro (e | a)
  · trivial
  · exact hf a

theorem uses_ask {E : Type} {wrap : E → ε} {c : σ (Except E α)} (h : ok c) :
    Uses ok (ask wrap c : Act σ ε α) := by
  refine ⟨h, ?_⟩
  rintro (e | a) <;> trivial

theorem uses_attempt {x : Act σ ε α} (hx : Uses ok x) : Uses ok (attempt x) := by
  have hrun : (attempt x).run = x.run >>= fun r => .ret (.ok r) := rfl
  rw [Uses, hrun]
  exact Prog.uses_bind hx fun _ => trivial

theorem uses_ofExcept (r : Except ε α) : Uses ok (ofExcept r : Act σ ε α) := by
  cases r <;> trivial

end Uses

section Wlp

variable {G : Type w} {upd : {β : Type} → σ β → β → G → G}

/-- `Prog.wlp` for programs that may stop with an error. -/
def wlp (upd : {β : Type} → σ β → β → G → G) (x : Act σ ε α) (Q : Except ε α → G → Prop)
    (g : G) : Prop :=
  Prog.wlp upd x.run Q g

@[simp] theorem wlp_pure {a : α} {Q : Except ε α → G → Prop} {g : G} :
    wlp upd (pure a : Act σ ε α) Q g ↔ Q (.ok a) g := Iff.rfl

@[simp] theorem wlp_throw {e : ε} {Q : Except ε α → G → Prop} {g : G} :
    wlp upd (throw e : Act σ ε α) Q g ↔ Q (.error e) g := Iff.rfl

theorem wlp_bind {x : Act σ ε α} {f : α → Act σ ε β} {Q : Except ε β → G → Prop} {g : G} :
    wlp upd (x >>= f) Q g ↔
      wlp upd x (fun r g' => match r with
        | .ok a => wlp upd (f a) Q g'
        | .error e => Q (.error e) g') g := by
  have hb : (x >>= f).run = x.run >>= ExceptT.bindCont f := rfl
  rw [wlp, hb, Prog.wlp_bind, wlp]
  constructor <;>
  · refine Prog.wlp_mono fun r g' hr => ?_
    cases r <;> exact hr

theorem wlp_ask {E : Type} {wrap : E → ε} {c : σ (Except E α)} {Q : Except ε α → G → Prop} {g : G} :
    wlp upd (ask wrap c) Q g ↔
      (∀ a, Q (.ok a) (upd c (.ok a) g)) ∧ ∀ e, Q (.error (wrap e)) (upd c (.error e) g) := by
  constructor
  · intro h
    exact ⟨fun a => h (.ok a), fun e => h (.error e)⟩
  · rintro ⟨hok, herr⟩ r
    cases r with
    | ok a => exact hok a
    | error e => exact herr e

theorem wlp_attempt {x : Act σ ε α} {Q : Except ε (Except ε α) → G → Prop} {g : G} :
    wlp upd (attempt x) Q g ↔ wlp upd x (fun r g' => Q (.ok r) g') g := by
  have hrun : (attempt x).run = x.run >>= fun r => .ret (.ok r) := rfl
  rw [wlp, hrun, Prog.wlp_bind]
  rfl

@[simp] theorem wlp_ofExcept {r : Except ε α} {Q : Except ε α → G → Prop} {g : G} :
    wlp upd (ofExcept r : Act σ ε α) Q g ↔ Q r g := by
  cases r <;> rfl

theorem wlp_mono {x : Act σ ε α} {Q Q' : Except ε α → G → Prop} {g : G}
    (hx : wlp upd x Q g) (hQ : ∀ r g', Q r g' → Q' r g') : wlp upd x Q' g :=
  Prog.wlp_mono hQ hx

end Wlp

section Ensures

variable {G : Type w} {upd : {β : Type} → σ β → β → G → G} {g : G}

/-- `Q` holds of what the program returns when it does not stop with an error. -/
def Ensures (upd : {β : Type} → σ β → β → G → G) (x : Act σ ε α) (Q : α → G → Prop) (g : G) :
    Prop :=
  wlp upd x (fun r g' => ∀ a, r = .ok a → Q a g') g

theorem ensures_pure {a : α} {Q : α → G → Prop} (h : Q a g) :
    Ensures upd (pure a : Act σ ε α) Q g := by
  rintro b ⟨⟩
  exact h

theorem ensures_bind {x : Act σ ε α} {f : α → Act σ ε β} {Q : β → G → Prop}
    (h : Ensures upd x (fun a g' => Ensures upd (f a) Q g') g) : Ensures upd (x >>= f) Q g := by
  refine wlp_bind.2 (wlp_mono h fun r g' hr => ?_)
  cases r with
  | ok a => exact hr a rfl
  | error e => rintro b ⟨⟩

/-- What comes before does not matter when the rest ensures `Q` from anywhere. -/
theorem ensures_after {x : Act σ ε α} {f : α → Act σ ε β} {Q : β → G → Prop}
    (h : ∀ a g', Ensures upd (f a) Q g') : Ensures upd (x >>= f) Q g :=
  ensures_bind (Prog.wlp_of_forall (fun _ g' a _ => h a g') g)

theorem ensures_ask {E : Type} {wrap : E → ε} {c : σ (Except E α)} {Q : α → G → Prop}
    (h : ∀ a, Q a (upd c (.ok a) g)) : Ensures upd (ask wrap c) Q g := by
  refine wlp_ask.2 ⟨?_, ?_⟩
  · rintro a b ⟨⟩
    exact h a
  · rintro e b ⟨⟩

theorem ensures_ofExcept {r : Except ε α} {Q : α → G → Prop} (h : ∀ a, r = .ok a → Q a g) :
    Ensures upd (ofExcept r : Act σ ε α) Q g :=
  wlp_ofExcept.2 h

theorem ensures_mono {x : Act σ ε α} {Q Q' : α → G → Prop} (hx : Ensures upd x Q g)
    (hQ : ∀ a g', Q a g' → Q' a g') : Ensures upd x Q' g :=
  wlp_mono hx fun _ g' h a ha => hQ a g' (h a ha)

end Ensures

end Act

end Lib
