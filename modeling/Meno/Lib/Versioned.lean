import Mathlib.Data.List.Basic
import Mathlib.Tactic.Common

/-!
# Lib.Versioned

A register with a version that is offered writes one after the other (`none`: it is empty). Which
writes land depends on the version they meet; every landing raises it by one, from 0 for the
empty register. A write is guarded when it can land on one version only.
-/

namespace Lib

variable {M N : Type} (hit : Option Int → M → Bool)

/-- The version after one more landing. -/
def raise (v : Option Int) : Option Int := some (v.getD 0 + 1)

@[simp] theorem raise_getD (v : Option Int) : (raise v).getD 0 = v.getD 0 + 1 := rfl

/-- The writes that land, in order. -/
def landed : Option Int → List M → List M
  | _, [] => []
  | v, m :: ms => if hit v m then m :: landed (raise v) ms else landed v ms

/-- The version that the writes leave. -/
def after : Option Int → List M → Option Int
  | v, [] => v
  | v, m :: ms => if hit v m then after (raise v) ms else after v ms

section Equations

variable {hit} {v : Option Int} {m : M} {ms : List M}

@[simp] theorem landed_nil (v : Option Int) : landed hit v [] = [] := rfl
@[simp] theorem after_nil (v : Option Int) : after hit v [] = v := rfl

theorem landed_cons_hit (h : hit v m = true) :
    landed hit v (m :: ms) = m :: landed hit (raise v) ms := by simp [landed, h]

theorem landed_cons_miss (h : hit v m = false) : landed hit v (m :: ms) = landed hit v ms := by
  simp [landed, h]

theorem after_cons_hit (h : hit v m = true) : after hit v (m :: ms) = after hit (raise v) ms := by
  simp [after, h]

theorem after_cons_miss (h : hit v m = false) : after hit v (m :: ms) = after hit v ms := by
  simp [after, h]

end Equations

variable {hit}

theorem landed_append (xs ys : List M) :
    ∀ v, landed hit v (xs ++ ys) = landed hit v xs ++ landed hit (after hit v xs) ys := by
  induction xs with
  | nil => intro v; rfl
  | cons m xs ih =>
    intro v
    cases h : hit v m with
    | true =>
      rw [List.cons_append, landed_cons_hit h, landed_cons_hit h, after_cons_hit h, ih]
      rfl
    | false =>
      rw [List.cons_append, landed_cons_miss h, landed_cons_miss h, after_cons_miss h, ih]

theorem after_append (xs ys : List M) :
    ∀ v, after hit v (xs ++ ys) = after hit (after hit v xs) ys := by
  induction xs with
  | nil => intro v; rfl
  | cons m xs ih =>
    intro v
    cases h : hit v m with
    | true => rw [List.cons_append, after_cons_hit h, after_cons_hit h, ih]
    | false => rw [List.cons_append, after_cons_miss h, after_cons_miss h, ih]

theorem landed_sublist (hit : Option Int → M → Bool) (ms : List M) : ∀ v,
    (landed hit v ms).Sublist ms := by
  induction ms with
  | nil => intro v; exact .slnil
  | cons m ms ih =>
    intro v
    cases h : hit v m with
    | true => rw [landed_cons_hit h]; exact (ih _).cons_cons m
    | false => rw [landed_cons_miss h]; exact (ih _).cons m

/-- A write that misses leaves less than the whole list to land. -/
theorem landed_ne_of_miss {v : Option Int} {m : M} {ms : List M} (h : hit v m = false) :
    landed hit v (m :: ms) ≠ m :: ms := by
  intro he
  have hlen := (landed_sublist hit ms v).length_le
  rw [landed_cons_miss h] at he
  rw [he, List.length_cons] at hlen
  omega

theorem mem_landed {m : M} {ms : List M} {v : Option Int} :
    m ∈ landed hit v ms ↔ ∃ pre post, ms = pre ++ m :: post ∧ hit (after hit v pre) m = true := by
  constructor
  · intro hm
    induction ms generalizing v with
    | nil => cases hm
    | cons x ms ih =>
      cases h : hit v x with
      | true =>
        rw [landed_cons_hit h] at hm
        rcases List.mem_cons.1 hm with rfl | hm
        · exact ⟨[], ms, rfl, h⟩
        · obtain ⟨pre, post, rfl, hh⟩ := ih hm
          exact ⟨x :: pre, post, rfl, by rwa [after_cons_hit h]⟩
      | false =>
        rw [landed_cons_miss h] at hm
        obtain ⟨pre, post, rfl, hh⟩ := ih hm
        exact ⟨x :: pre, post, rfl, by rwa [after_cons_miss h]⟩
  · rintro ⟨pre, post, rfl, hh⟩
    rw [landed_append, landed_cons_hit hh]
    exact List.mem_append_right _ List.mem_cons_self

/-- Where everything lands, each write hits at its turn. -/
theorem hit_of_landed_eq {pre post : List M} {m : M} {v : Option Int}
    (h : landed hit v (pre ++ m :: post) = pre ++ m :: post) : hit (after hit v pre) m = true := by
  have hpre := (landed_sublist hit pre v).length_le
  have hlen := congrArg List.length h
  rw [landed_append, List.length_append, List.length_append] at hlen
  cases hm : hit (after hit v pre) m with
  | true => rfl
  | false =>
    have hpost := (landed_sublist hit post (after hit v pre)).length_le
    rw [landed_cons_miss hm, List.length_cons] at hlen
    omega

theorem after_getD (hit : Option Int → M → Bool) (ms : List M) :
    ∀ v, (after hit v ms).getD 0 = v.getD 0 + (landed hit v ms).length := by
  induction ms with
  | nil => intro v; simp
  | cons m ms ih =>
    intro v
    cases h : hit v m with
    | true =>
      rw [after_cons_hit h, landed_cons_hit h, ih, raise_getD, List.length_cons]
      omega
    | false => rw [after_cons_miss h, landed_cons_miss h, ih]

/-- A full register stays full. -/
theorem after_isSome (ms : List M) : ∀ {v}, v.isSome = true → (after hit v ms).isSome = true := by
  induction ms with
  | nil => intro v h; exact h
  | cons m ms ih =>
    intro v h
    cases hm : hit v m with
    | true => rw [after_cons_hit hm]; exact ih rfl
    | false => rw [after_cons_miss hm]; exact ih h

/-- Changing the writes in ways the register does not look at. -/
theorem landed_map {hit' : Option Int → N → Bool} {f : M → N}
    (hf : ∀ v m, hit' v (f m) = hit v m) (ms : List M) :
    ∀ v, landed hit' v (ms.map f) = (landed hit v ms).map f := by
  induction ms with
  | nil => intro v; rfl
  | cons m ms ih =>
    intro v
    cases h : hit v m with
    | true =>
      rw [List.map_cons, landed_cons_hit h, landed_cons_hit (by rw [hf, h]), ih, List.map_cons]
    | false => rw [List.map_cons, landed_cons_miss h, landed_cons_miss (by rw [hf, h]), ih]

/-! ## Guarded writes -/

/-- `m` can land on version `b` only. -/
def Guarded (hit : Option Int → M → Bool) (m : M) (b : Int) : Prop :=
  ∀ v, hit v m = true → v = some b

/-- A guarded write that landed names a version between the one found and the one left. -/
theorem Guarded.bounds {m : M} {b : Int} (hg : Guarded hit m b) {ms : List M} {v : Option Int}
    (hm : m ∈ landed hit v ms) :
    v.getD 0 ≤ b ∧ b < v.getD 0 + (landed hit v ms).length := by
  obtain ⟨pre, post, rfl, hh⟩ := mem_landed.1 hm
  have hb := congrArg (Option.getD · 0) (hg _ hh)
  simp only [after_getD, Option.getD_some] at hb
  rw [landed_append, landed_cons_hit hh, List.length_append, List.length_cons]
  omega

/-- A guarded write behind the register's version never lands. -/
theorem Guarded.stale {m : M} {b : Int} (hg : Guarded hit m b) {ms : List M} {v : Option Int}
    (hb : b < v.getD 0) : m ∉ landed hit v ms := by
  intro hm
  have := (hg.bounds hm).1
  omega

end Lib
