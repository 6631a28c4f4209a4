import Mathlib.Algebra.BigOperators.Group.Finset.Basic
import Mathlib.Data.Fintype.Basic
import Mathlib.Logic.Function.Basic
import Meno.Lib.Prog

/-!
# Lib.Outbox

Programs that have nothing in common but where they send to. Each finds its answers in a state of its
own, and what it sends goes into one outbox. When all have come to their ends, the outbox has
whatever each of them sends alone, in whatever order their calls were made (`Workers.sent_of_done`).
-/

namespace Lib

variable {σ : Type → Type u} {S O α β : Type}

namespace Prog

section Outputs

variable (h : {β : Type} → σ β → S → β × S × List O)

/-- What a program sends, to its end. -/
def outputs : Prog σ α → S → List O
  | .ret _, _ => []
  | .call c k, s => (h c s).2.2 ++ outputs (k (h c s).1) (h c s).2.1

/-- What it returns, and its state then. -/
def outcome : Prog σ α → S → α × S := run fun c s => ((h c s).1, (h c s).2.1)

theorem outputs_bind (p : Prog σ α) (f : α → Prog σ β) (s : S) :
    outputs h (p >>= f) s =
      outputs h p s ++ outputs h (f (outcome h p s).1) (outcome h p s).2 := by
  induction p generalizing s with
  | ret a => rfl
  | call c k ih =>
    rw [call_bind, outputs, outputs, ih, List.append_assoc]
    rfl

theorem outcome_bind (p : Prog σ α) (f : α → Prog σ β) (s : S) :
    outcome h (p >>= f) s = outcome h (f (outcome h p s).1) (outcome h p s).2 :=
  run_bind _ p f s

end Outputs

end Prog

structure Workers (σ : Type → Type u) (S O α ι : Type) where
  prog : ι → Prog σ α
  state : ι → S
  outbox : List O

namespace Workers

variable {ι : Type} [DecidableEq ι] (h : {β : Type} → σ β → S → β × S × List O)

/-- One of the programs makes its next call. -/
def turn (w : Workers σ S O α ι) (i : ι) : Workers σ S O α ι :=
  match w.prog i with
  | .ret _ => w
  | .call c k => {
    prog := Function.update w.prog i (k (h c (w.state i)).1)
    state := Function.update w.state i (h c (w.state i)).2.1
    outbox := w.outbox ++ (h c (w.state i)).2.2 }

def run (w : Workers σ S O α ι) (schedule : List ι) : Workers σ S O α ι := schedule.foldl (turn h) w

def Done (w : Workers σ S O α ι) : Prop := ∀ i, ∃ a, w.prog i = .ret a

/-- How many of what is still to be sent by program `i` are of a kind. -/
def toSend (p : O → Bool) (w : Workers σ S O α ι) (i : ι) : Nat :=
  (Prog.outputs h (w.prog i) (w.state i)).countP p

variable {h} {p : O → Bool} [Fintype ι]

/-- What is sent is no longer to be sent. -/
theorem sent_turn (w : Workers σ S O α ι) (i : ι) :
    (w.turn h i).outbox.countP p + ∑ j, toSend h p (w.turn h i) j =
      w.outbox.countP p + ∑ j, toSend h p w j := by
  unfold turn
  cases hi : w.prog i with
  | ret a => rfl
  | call c k =>
    let w' : Workers σ S O α ι := {
      prog := Function.update w.prog i (k (h c (w.state i)).1)
      state := Function.update w.state i (h c (w.state i)).2.1
      outbox := w.outbox ++ (h c (w.state i)).2.2 }
    change w'.outbox.countP p + ∑ j, toSend h p w' j = _
    have hown : toSend h p w i = (h c (w.state i)).2.2.countP p + toSend h p w' i := by
      simp only [toSend, hi, Prog.outputs, List.countP_append, w', Function.update_self]
    have hothers : ∑ j ∈ Finset.univ.erase i, toSend h p w' j =
        ∑ j ∈ Finset.univ.erase i, toSend h p w j := by
      refine Finset.sum_congr rfl fun j hj => ?_
      simp only [toSend, w', Function.update_of_ne (Finset.ne_of_mem_erase hj)]
    have hsent : w'.outbox.countP p =
        w.outbox.countP p + (h c (w.state i)).2.2.countP p := List.countP_append
    rw [← Finset.add_sum_erase _ _ (Finset.mem_univ i), hothers,
      ← Finset.add_sum_erase _ (toSend h p w) (Finset.mem_univ i)]
    omega

theorem sent_run (schedule : List ι) : ∀ w : Workers σ S O α ι,
    (w.run h schedule).outbox.countP p + ∑ j, toSend h p (w.run h schedule) j =
      w.outbox.countP p + ∑ j, toSend h p w j := by
  induction schedule with
  | nil => intro w; rfl
  | cons i schedule ih => intro w; exact (ih _).trans (sent_turn w i)

/-- When all are done, each has sent what it sends alone. -/
theorem sent_of_done {w : Workers σ S O α ι} {schedule : List ι} (hdone : (w.run h schedule).Done) :
    (w.run h schedule).outbox.countP p = w.outbox.countP p + ∑ j, toSend h p w j := by
  have hnone : ∀ j, toSend h p (w.run h schedule) j = 0 := by
    intro j
    obtain ⟨a, ha⟩ := hdone j
    rw [toSend, ha]
    rfl
  have hsent := sent_run (h := h) (p := p) schedule w
  rwa [Finset.sum_congr rfl fun j _ => hnone j, Finset.sum_const_zero, Nat.add_zero] at hsent

end Workers

end Lib
