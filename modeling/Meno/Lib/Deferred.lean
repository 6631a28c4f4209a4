import Mathlib.Tactic.Common

/-!
# Lib.Deferred

A counter whose updates wait in a queue. `settle v us` is what a counter that stands at `v` comes to
when the updates `us` are done in order. `settle_early` says which of them may be done before its
turn: one that a later one overwrites, an addition that no overwriting update precedes, and the first.
-/

namespace Lib

inductive Update where
  | put (n : Int)
  | add (n : Int)
deriving DecidableEq

namespace Update

def apply (v : Int) : Update → Int
  | put n => n
  | add n => v + n

def isPut : Update → Bool
  | put _ => true
  | add _ => false

end Update

def settle (v : Int) (us : List Update) : Int := us.foldl Update.apply v

/-- Some update overwrites what came before. -/
def overwrites (us : List Update) : Bool := us.any Update.isPut

variable {v w n : Int} {us vs : List Update} {u : Update}

@[simp] theorem settle_nil (v : Int) : settle v [] = v := rfl

@[simp] theorem settle_cons (v : Int) (u : Update) (us : List Update) :
    settle v (u :: us) = settle (u.apply v) us := rfl

theorem settle_append (v : Int) (us vs : List Update) :
    settle v (us ++ vs) = settle (settle v us) vs := List.foldl_append

theorem settle_of_overwrites (h : overwrites us = true) : settle v us = settle w us := by
  induction us generalizing v w with
  | nil => cases h
  | cons u us ih =>
    cases u with
    | put n => rfl
    | add n => exact ih h

theorem settle_add (h : overwrites us = false) : settle (v + n) us = settle v us + n := by
  induction us generalizing v with
  | nil => rfl
  | cons u us ih =>
    cases u with
    | put m => cases h
    | add m =>
      have hcomm : v + n + m = v + m + n := by omega
      simp only [settle_cons, Update.apply, hcomm]
      exact ih h

theorem settle_add_zero : settle v (us ++ .add 0 :: vs) = settle v (us ++ vs) := by
  simp [settle_append, Update.apply]

/-- An update that is done before its turn. -/
theorem settle_early (h : overwrites vs = true ∨ us = [] ∨ u.isPut = false ∧ overwrites us = false) :
    settle (u.apply v) (us ++ vs) = settle v (us ++ u :: vs) := by
  rw [settle_append, settle_append, settle_cons]
  rcases h with hvs | rfl | ⟨hu, hus⟩
  · exact settle_of_overwrites hvs
  · rfl
  · cases u with
    | put n => cases hu
    | add n => rw [Update.apply, settle_add hus]; rfl

end Lib
