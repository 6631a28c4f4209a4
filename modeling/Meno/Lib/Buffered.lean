import Mathlib.Data.List.Perm.Basic
import Mathlib.Logic.Relation

/-!
# Lib.Buffered

Tasks for a stream of inputs, of which a bounded number run at a time and whose results come in the
order in which they end (`buffer_unordered`). The tasks share a state, which an environment changes
too. No input is lost or taken twice (`perm_of_steps`), the bound is kept (`le_bound_of_steps`), and
what each task enters in a ledger adds up (`ledger_of_steps`).
-/

namespace Lib

structure Buffered (α τ ρ : Type) where
  pending : List α
  running : List (α × τ)
  yielded : List (α × ρ)

namespace Buffered

variable {α τ ρ S β : Type}

def start (inputs : List α) : Buffered α τ ρ where
  pending := inputs
  running := []
  yielded := []

/-- Every input has its result. -/
def Finished (b : Buffered α τ ρ) : Prop := b.pending = [] ∧ b.running = []

variable (bound : Nat) (begin : α → τ) (go : α → τ → S → τ → S → Prop) (ended : τ → Option ρ)
  (env : S → S → Prop)

inductive Step : S × Buffered α τ ρ → S × Buffered α τ ρ → Prop
  /-- There is room for the next input. -/
  | pull {s : S} {a : α} {q : List α} {running : List (α × τ)} {yielded : List (α × ρ)}
      (room : running.length < bound) :
      Step (s, ⟨a :: q, running, yielded⟩) (s, ⟨q, running ++ [(a, begin a)], yielded⟩)
  | go {s y : S} {a : α} {t u : τ} {q : List α} {l m : List (α × τ)} {yielded : List (α × ρ)}
      (goes : go a t s u y) :
      Step (s, ⟨q, l ++ (a, t) :: m, yielded⟩) (y, ⟨q, l ++ (a, u) :: m, yielded⟩)
  | yield {s : S} {a : α} {t : τ} {r : ρ} {q : List α} {l m : List (α × τ)}
      {yielded : List (α × ρ)} (ends : ended t = some r) :
      Step (s, ⟨q, l ++ (a, t) :: m, yielded⟩) (s, ⟨q, l ++ m, yielded ++ [(a, r)]⟩)
  | env {s y : S} {b : Buffered α τ ρ} (changes : env s y) : Step (s, b) (y, b)

abbrev Steps : S × Buffered α τ ρ → S × Buffered α τ ρ → Prop :=
  Relation.ReflTransGen (Step bound begin go ended env)

variable {bound begin go ended env} {x y : S × Buffered α τ ρ}

/-- What is left to do, what is being done and what is done. -/
def inputs (b : Buffered α τ ρ) : List α :=
  b.pending ++ (b.running.map Prod.fst ++ b.yielded.map Prod.fst)

@[simp] theorem inputs_start (as : List α) : (start as : Buffered α τ ρ).inputs = as := by
  simp [inputs, start]

theorem perm_of_step (h : Step bound begin go ended env x y) : y.2.inputs.Perm x.2.inputs := by
  cases h with
  | @pull s a pending running yielded room =>
    simp only [inputs, List.map_append, List.map_cons, List.map_nil, List.append_assoc,
      List.cons_append, List.nil_append]
    rw [← List.append_assoc pending]
    exact List.perm_middle.trans (by rw [List.append_assoc])
  | go goes =>
    simp only [inputs, List.map_append, List.map_cons]
    exact List.Perm.refl _
  | @yield s a t r pending before after yielded ends =>
    simp only [inputs, List.map_append, List.map_cons, List.map_nil, List.append_assoc,
      List.cons_append]
    refine List.Perm.append_left _ (List.Perm.append_left _ ?_)
    rw [← List.append_assoc]
    exact (List.perm_append_singleton _ _)
  | env changes => exact List.Perm.refl _

/-- Each input is somewhere, once. -/
theorem perm_of_steps (h : Steps bound begin go ended env x y) : y.2.inputs.Perm x.2.inputs := by
  induction h with
  | refl => exact List.Perm.refl _
  | tail _ hs ih => exact (perm_of_step hs).trans ih

theorem yielded_perm {as : List α} {s : S} (h : Steps bound begin go ended env (s, start as) y)
    (hfinished : y.2.Finished) : (y.2.yielded.map Prod.fst).Perm as := by
  have hperm := perm_of_steps h
  rw [inputs_start, inputs, hfinished.1, hfinished.2] at hperm
  exact hperm

theorem le_bound_of_steps (h : Steps bound begin go ended env x y)
    (hx : x.2.running.length ≤ bound) : y.2.running.length ≤ bound := by
  induction h with
  | refl => exact hx
  | tail _ hs ih =>
    cases hs with
    | pull room =>
      rw [List.length_append]
      exact room
    | go goes => simpa using ih
    | yield ends =>
      simp only [List.length_append, List.length_cons] at ih ⊢
      omega
    | env changes => exact ih

/-! ## A ledger -/

section Ledger

variable (ledger : S → List β) (owes : α → τ → List β) (owed : α → ρ → List β)

/-- What the inputs that have been taken up have entered. -/
def entries (b : Buffered α τ ρ) : List β :=
  b.running.flatMap (fun p => owes p.1 p.2) ++ b.yielded.flatMap fun p => owed p.1 p.2

variable {owes owed}

theorem ledger_of_steps (hbegin : ∀ a, owes a (begin a) = [])
    (hgo : ∀ a t s t' s', go a t s t' s' →
      ∃ new, ledger s' = ledger s ++ new ∧ owes a t' = owes a t ++ new)
    (hended : ∀ a t r, ended t = some r → owed a r = owes a t)
    (henv : ∀ s s', env s s' → ledger s' = ledger s) (h : Steps bound begin go ended env x y)
    (hx : (ledger x.1).Perm (x.2.entries owes owed)) :
    (ledger y.1).Perm (y.2.entries owes owed) := by
  induction h with
  | refl => exact hx
  | tail _ hs ih =>
    cases hs with
    | pull room => simpa [entries, hbegin] using ih
    | @go s s' a t t' pending before after yielded goes =>
      obtain ⟨new, hledger, howes⟩ := hgo a t s t' s' goes
      simp only [entries, List.flatMap_append, List.flatMap_cons, List.append_assoc] at ih ⊢
      rw [hledger, howes]
      refine (ih.append_right new).trans ?_
      simp only [List.append_assoc]
      refine List.Perm.append_left _ (List.Perm.append_left _ ?_)
      rw [← List.append_assoc]
      exact List.perm_append_comm
    | @yield s a t r pending before after yielded ends =>
      simp only [entries, List.flatMap_append, List.flatMap_cons, List.flatMap_nil,
        List.append_assoc, List.append_nil, hended a t r ends] at ih ⊢
      refine ih.trans (List.Perm.append_left _ ?_)
      rw [← List.append_assoc (List.flatMap _ after)]
      exact List.perm_append_comm
    | env changes => rw [henv _ _ changes]; exact ih

end Ledger

end Buffered

end Lib
