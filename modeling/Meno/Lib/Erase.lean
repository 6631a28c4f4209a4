import Meno.Lib.Prog

/-!
# Lib.Erase

Programs that do more than a smaller signature has words for. `erase` keeps the calls of the smaller
signature and answers the others by itself, with what they always answer. When a handler's other
calls leave alone what the smaller handler sees of the state, a run of the erased program is a run of
the whole one, seen from there (`run_erase`).
-/

namespace Lib

universe u v w

namespace Prog

variable {σ : Type → Type u} {τ : Type → Type v} {α β : Type}

/-- The program with the calls that `f` translates, and the answers that it gives to the others. -/
def erase (f : {β : Type} → σ β → τ β ⊕ β) : Prog σ α → Prog τ α
  | .ret a => .ret a
  | .call c k =>
    match f c with
    | .inl d => .call d fun b => (k b).erase f
    | .inr b => (k b).erase f

variable {f : {β : Type} → σ β → τ β ⊕ β}

theorem erase_kept {c : σ β} {d : τ β} (h : f c = .inl d) (k : β → Prog σ α) :
    (Prog.call c k).erase f = .call d fun b => (k b).erase f := by
  rw [erase, h]

theorem erase_answered {c : σ β} {b : β} (h : f c = .inr b) (k : β → Prog σ α) :
    (Prog.call c k).erase f = (k b).erase f := by
  rw [erase, h]

theorem erase_bind (p : Prog σ α) (g : α → Prog σ β) :
    (p >>= g).erase f = p.erase f >>= fun a => (g a).erase f := by
  induction p with
  | ret a => rfl
  | call c k ih =>
    cases hc : f c with
    | inl d =>
      rw [call_bind, erase_kept hc, erase_kept hc, call_bind]
      exact congrArg _ (funext ih)
    | inr b =>
      rw [call_bind, erase_answered hc, erase_answered hc]
      exact ih b

/-- A program that comes from the smaller signature. -/
theorem erase_lift {σ τ : Type → Type u} {f : {β : Type} → σ β → τ β ⊕ β}
    {g : {β : Type} → τ β → σ β} (h : ∀ {β : Type} (d : τ β), f (g d) = .inl d) (p : Prog τ α) :
    (p.lift g).erase f = p := by
  induction p with
  | ret a => rfl
  | call d k ih => exact (erase_kept (h d) _).trans (congrArg _ (funext ih))

variable {S T : Type w} (hS : {β : Type} → σ β → S → β × S) (hT : {β : Type} → τ β → T → β × T)
  (view : S → T)

/-- The run of the erased program is what is seen of the run of the whole one. -/
theorem run_erase
    (hkept : ∀ {β : Type} (c : σ β) (d : τ β) (s : S), f c = .inl d →
      hT d (view s) = ((hS c s).1, view (hS c s).2))
    (hother : ∀ {β : Type} (c : σ β) (b : β) (s : S), f c = .inr b →
      (hS c s).1 = b ∧ view (hS c s).2 = view s) (p : Prog σ α) (s : S) :
    run hT (p.erase f) (view s) = ((run hS p s).1, view (run hS p s).2) := by
  induction p generalizing s with
  | ret a => rfl
  | call c k ih =>
    cases hc : f c with
    | inl d =>
      rw [erase_kept hc, run, hkept c d s hc]
      exact ih _ _
    | inr b =>
      obtain ⟨hb, hs⟩ := hother c b s hc
      rw [erase_answered hc, ← hs, ← hb]
      exact ih _ _

end Prog

namespace Act

variable {σ : Type → Type u} {τ : Type → Type v} {ε α β : Type} {f : {β : Type} → σ β → τ β ⊕ β}

def erase (f : {β : Type} → σ β → τ β ⊕ β) (x : Act σ ε α) : Act τ ε α :=
  ExceptT.mk (Prog.erase f x.run)

@[simp] theorem erase_pure (a : α) : erase f (pure a : Act σ ε α) = pure a := rfl

@[simp] theorem erase_throw (e : ε) : erase f (throw e : Act σ ε α) = throw e := rfl

@[simp] theorem erase_bind (x : Act σ ε α) (g : α → Act σ ε β) :
    erase f (x >>= g) = erase f x >>= fun a => erase f (g a) := by
  have hb : (x >>= g).run = x.run >>= ExceptT.bindCont g := rfl
  have hb' : ExceptT.run (erase f x >>= fun a => erase f (g a)) =
      Prog.erase f x.run >>= ExceptT.bindCont fun a => erase f (g a) := rfl
  refine ExceptT.ext ?_
  rw [hb', erase, hb]
  refine (Prog.erase_bind _ _).trans (congrArg (Prog.erase f x.run >>= ·) (funext fun r => ?_))
  cases r <;> rfl

@[simp] theorem erase_map (g : α → β) (x : Act σ ε α) : erase f (g <$> x) = g <$> erase f x := by
  rw [map_eq_pure_bind, map_eq_pure_bind, erase_bind]
  rfl

end Act

end Lib
