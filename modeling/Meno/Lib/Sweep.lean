import Mathlib.Order.Defs.LinearOrder
import Mathlib.Tactic.Common

/-!
# Lib.Sweep

Removing everything that a pattern hits from a store that others use at the same time: the server
hands out the keys in pages, each with the cursor of the next one, and the client removes a page
before it asks for the next. What the server promises about its pages are the hypotheses of
`Sweep.Own.page`: they have hits only; when the walk is over, whatever was there from its start on
has been handed out; and the walk is over some time.

A sweep that ended has left nothing that was there throughout (`not_there_of_ended`), and it ends
(`Walk.steps_le`).
-/

namespace Lib

inductive Sweep.Phase (κ C : Type)
  /-- About to ask for the page at a cursor. -/
  | scanning (cursor : C)
  /-- With a page to remove, and the cursor of the next. -/
  | removing (keys : List κ) (cursor : C)
  | ended
  | failed

structure Sweep (κ C : Type) where
  phase : Sweep.Phase κ C
  /-- How many keys were removed, some perhaps twice. -/
  deleted : Nat
  /-- Ghost: the hits that have been there ever since the start. -/
  there : κ → Prop
  /-- Ghost: what the pages so far had. -/
  returned : κ → Prop
  /-- Ghost: how many pages there are at most before the last. -/
  rest : Nat

namespace Sweep

variable {κ C : Type} {first : C} {hit : κ → Prop} {sw sw' : Sweep κ C} {removed : List κ}

/-- The cursor that a walk begins with is also the one that ends it. -/
def start (first : C) (here : κ → Prop) (rest : Nat) : Sweep κ C := {
  phase := .scanning first
  deleted := 0
  there := here
  returned := fun _ => False
  rest := rest }

/-- The store has these keys now. -/
def watch (sw : Sweep κ C) (present : κ → Prop) : Sweep κ C :=
  { sw with there := fun k => sw.there k ∧ present k }

def Running (sw : Sweep κ C) : Prop :=
  match sw.phase with
  | .scanning _ | .removing _ _ => True
  | .ended | .failed => False

/-! ## What has been swept -/

/-- What was handed out and has been there throughout is about to be removed; of a walk whose last
page has come, that is everything that has been there throughout. Only hits are removed. -/
def Inv (first : C) (hit : κ → Prop) (sw : Sweep κ C) : Prop :=
  match sw.phase with
  | .scanning _ => ∀ k, sw.there k → ¬ sw.returned k
  | .removing keys next =>
    (∀ k ∈ keys, hit k) ∧ (∀ k, sw.there k → sw.returned k → k ∈ keys) ∧
      (next = first → ∀ k, sw.there k → sw.returned k)
  | .ended => ∀ k, ¬ sw.there k
  | .failed => True

theorem inv_start {here : κ → Prop} {rest : Nat} : Inv first hit (start first here rest) :=
  fun _ _ => id

theorem inv_watch {present : κ → Prop} (h : Inv first hit sw) :
    Inv first hit (sw.watch present) := by
  unfold Inv at h ⊢
  cases hphase : sw.phase with
  | scanning cursor =>
    rw [hphase] at h
    simp only [watch, hphase]
    exact fun k hk => h k hk.1
  | removing keys next =>
    rw [hphase] at h
    simp only [watch, hphase]
    exact ⟨h.1, fun k hk => h.2.1 k hk.1, fun hnext k hk => h.2.2 hnext k hk.1⟩
  | ended =>
    rw [hphase] at h
    simp only [watch, hphase]
    exact fun k hk => h k hk.1
  | failed => simp only [watch, hphase]

theorem not_there_of_ended (h : Inv first hit sw) (hended : sw.phase = .ended) (k : κ) :
    ¬ sw.there k := by
  rw [Inv, hended] at h
  exact h k

/-! ## Steps -/

variable [DecidableEq C]

def goOn (first next : C) : Phase κ C := if next = first then .ended else .scanning next

/-- A page came. -/
def paged (sw : Sweep κ C) (first : C) (keys : List κ) (next : C) : Sweep κ C :=
  { sw with
    phase := if keys.isEmpty then goOn first next else .removing keys next
    returned := fun k => sw.returned k ∨ k ∈ keys
    rest := sw.rest - 1 }

/-- The page's keys are gone. -/
def unlinked (sw : Sweep κ C) (first : C) (keys : List κ) (next : C) : Sweep κ C :=
  { sw with
    phase := goOn first next
    deleted := sw.deleted + keys.length
    there := fun k => sw.there k ∧ k ∉ keys }

/-- A step of the sweep itself, which removes some keys. -/
inductive Own (first : C) (hit : κ → Prop) : Sweep κ C → List κ → Sweep κ C → Prop
  | page {sw : Sweep κ C} {cursor next : C} {keys : List κ} (hphase : sw.phase = .scanning cursor)
      (hhit : ∀ k ∈ keys, hit k)
      (hwhole : next = first → ∀ k, sw.there k → sw.returned k ∨ k ∈ keys)
      (hrest : next ≠ first → 0 < sw.rest) : Own first hit sw [] (sw.paged first keys next)
  | unlink {sw : Sweep κ C} {next : C} {keys : List κ} (hphase : sw.phase = .removing keys next) :
      Own first hit sw keys (sw.unlinked first keys next)
  | fail {sw : Sweep κ C} (hrunning : sw.Running) : Own first hit sw [] { sw with phase := .failed }
  /-- The keys are gone, and nobody heard of it. -/
  | lost {sw : Sweep κ C} {next : C} {keys : List κ} (hphase : sw.phase = .removing keys next) :
      Own first hit sw keys { sw with phase := .failed }

/-- Going on is right when what was handed out is gone. -/
theorem inv_goOn (next : C) (hphase : sw.phase = goOn first next)
    (hgone : ∀ k, sw.there k → ¬ sw.returned k)
    (hwhole : next = first → ∀ k, sw.there k → sw.returned k) : Inv first hit sw := by
  unfold Inv
  by_cases hnext : next = first
  · rw [hphase, goOn, if_pos hnext]
    exact fun k hk => hgone k hk (hwhole hnext k hk)
  · rw [hphase, goOn, if_neg hnext]
    exact hgone

theorem inv_own (h : Inv first hit sw) (hs : Own first hit sw removed sw') :
    Inv first hit sw' := by
  unfold Inv at h
  cases hs with
  | @page cursor next keys hphase hhit hwhole hrest =>
    rw [hphase] at h
    cases keys with
    | nil =>
      refine inv_goOn next rfl (fun k hk hret => ?_) hwhole
      rcases hret with hret | hret
      · exact h k hk hret
      · exact absurd hret List.not_mem_nil
    | cons k₀ keys =>
      refine ⟨hhit, fun k hk hret => ?_, hwhole⟩
      rcases hret with hret | hret
      · exact absurd hret (h k hk)
      · exact hret
  | @unlink next keys hphase =>
    rw [hphase] at h
    exact inv_goOn next rfl (fun k hk hret => hk.2 (h.2.1 k hk.1 hret))
      fun hnext k hk => h.2.2 hnext k hk.1
  | fail hrunning => exact trivial
  | lost hphase => exact trivial

/-- What a step leaves is still among what has been there throughout. -/
theorem there_of_own (hs : Own first hit sw removed sw') {k : κ} (hthere : sw.there k)
    (hk : k ∉ removed) : sw'.there k := by
  cases hs with
  | page hphase hhit hwhole hrest => exact hthere
  | unlink hphase => exact ⟨hthere, hk⟩
  | fail hrunning => exact hthere
  | lost hphase => exact hthere

theorem hit_of_own (h : Inv first hit sw) (hs : Own first hit sw removed sw') :
    ∀ k ∈ removed, hit k := by
  unfold Inv at h
  cases hs with
  | page hphase hhit hwhole hrest => exact fun k hk => absurd hk List.not_mem_nil
  | unlink hphase =>
    rw [hphase] at h
    exact h.1
  | fail hrunning => exact fun k hk => absurd hk List.not_mem_nil
  | lost hphase =>
    rw [hphase] at h
    exact h.1

/-! ## Termination -/

/-- How many steps of its own a sweep can still take. -/
def toGo (first : C) (sw : Sweep κ C) : Nat :=
  match sw.phase with
  | .scanning _ => 2 * sw.rest + 2
  | .removing _ next => if next = first then 1 else 2 * sw.rest + 3
  | .ended | .failed => 0

theorem toGo_lt (hs : Own first hit sw removed sw') : sw'.toGo first < sw.toGo first := by
  cases hs with
  | @page cursor next keys hphase hhit hwhole hrest =>
    have hleft : sw.toGo first = 2 * sw.rest + 2 := by rw [toGo, hphase]
    rw [hleft]
    by_cases hnext : next = first
    · cases keys <;> simp [toGo, paged, goOn, hnext]
    · have hpos := hrest hnext
      cases keys <;> simp only [toGo, paged, goOn, hnext, List.isEmpty_nil, List.isEmpty_cons,
        if_true, if_false, Bool.false_eq_true] <;> omega
  | @unlink next keys hphase =>
    rw [toGo, toGo, hphase]
    by_cases hnext : next = first
    · simp [unlinked, goOn, hnext]
    · simp [unlinked, goOn, hnext]
  | fail hrunning =>
    unfold Running at hrunning
    unfold toGo
    cases hphase : sw.phase with
    | scanning cursor => exact Nat.succ_pos _
    | removing keys next =>
      dsimp only
      split <;> omega
    | ended => rw [hphase] at hrunning; exact hrunning.elim
    | failed => rw [hphase] at hrunning; exact hrunning.elim
  | @lost next keys hphase =>
    rw [toGo, toGo, hphase]
    dsimp only
    split <;> omega

/-- So many steps of a sweep among changes to the store. -/
inductive Walk (first : C) (hit : κ → Prop) : Nat → Sweep κ C → Sweep κ C → Prop
  | refl {sw : Sweep κ C} : Walk first hit 0 sw sw
  | own {n : Nat} {sw sw' sw'' : Sweep κ C} {removed : List κ} (h : Walk first hit n sw sw')
      (hs : Own first hit sw' removed sw'') : Walk first hit (n + 1) sw sw''
  | watch {n : Nat} {sw sw' : Sweep κ C} (h : Walk first hit n sw sw') (present : κ → Prop) :
      Walk first hit n sw (sw'.watch present)

namespace Walk

variable {n : Nat}

theorem inv (h : Walk first hit n sw sw') (hinv : Inv first hit sw) : Inv first hit sw' := by
  induction h with
  | refl => exact hinv
  | own _ hs ih => exact inv_own (ih hinv) hs
  | watch _ present ih => exact inv_watch (ih hinv)

theorem steps_le (h : Walk first hit n sw sw') : n + sw'.toGo first ≤ sw.toGo first := by
  induction h with
  | refl => exact Nat.le_of_eq (Nat.zero_add _)
  | own _ hs ih =>
    have hlt := toGo_lt hs
    omega
  | watch _ present ih => exact ih

end Walk

end Sweep

end Lib
