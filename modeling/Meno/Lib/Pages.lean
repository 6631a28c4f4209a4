import Mathlib.Data.Fintype.Order
import Mathlib.Data.List.Pairwise
import Mathlib.Order.WellFoundedSet
import Mathlib.Tactic.Common

/-!
# Lib.Pages

Walks through a list that changes between the requests. A request gets the first `limit` of the rows
that stand behind a place, and the next one goes on behind the last of these. Whatever happens to
the list, what is seen is in order (`Pages.sorted`), and a place where a row stands all the time is
seen (`Pages.complete`).
-/

namespace Lib

variable {ρ π : Type} [LinearOrder π]

/-- The rows that stand behind `p`; all rows, if there is no such place. -/
def rowsBehind (place : ρ → π) (p : Option π) (rows : List ρ) : List ρ :=
  rows.filter fun r => p.all fun q => decide (q < place r)

section Behind

variable {place : ρ → π} {p : Option π} {rows : List ρ} {r : ρ}

@[simp] theorem rowsBehind_none : rowsBehind place none rows = rows := by
  simp [rowsBehind]

theorem mem_rowsBehind : r ∈ rowsBehind place p rows ↔ r ∈ rows ∧ ∀ q ∈ p, q < place r := by
  cases p <;> simp [rowsBehind]

theorem rowsBehind_sublist : (rowsBehind place p rows).Sublist rows := List.filter_sublist

end Behind

/-- From the `n`th request on, at `p`, the walk comes to its end and sees `xs` in all. The `m`th
request finds the list as `rows m`. -/
inductive Pages (rows : Nat → List ρ) (place : ρ → π) (limit : Nat) :
    Nat → Option π → List ρ → Prop
  | last {n : Nat} {p : Option π} : (rowsBehind place p (rows n)).length ≤ limit →
      Pages rows place limit n p (rowsBehind place p (rows n))
  | more {n : Nat} {p : Option π} {pre post xs : List ρ} {a : ρ} :
      rowsBehind place p (rows n) = pre ++ a :: post → pre.length + 1 = limit → post ≠ [] →
      Pages rows place limit (n + 1) (some (place a)) xs →
      Pages rows place limit n p (pre ++ a :: xs)

namespace Pages

variable {rows : Nat → List ρ} {place : ρ → π} {limit n : Nat} {p : Option π} {xs : List ρ}

theorem mem_rows (h : Pages rows place limit n p xs) : ∀ x ∈ xs, ∃ m, x ∈ rows m := by
  induction h with
  | last _ => exact fun x hx => ⟨_, (mem_rowsBehind.1 hx).1⟩
  | @more n p pre post xs a hrest _ _ _ ih =>
    intro x hx
    have hpage : x ∈ pre ++ a :: post → ∃ m, x ∈ rows m := fun hx =>
      ⟨n, (mem_rowsBehind.1 (hrest ▸ hx)).1⟩
    rcases List.mem_append.1 hx with hx | hx
    · exact hpage (by simp [hx])
    · rcases List.mem_cons.1 hx with rfl | hx
      · exact hpage (by simp)
      · exact ih x hx

/-- A walk never goes back. -/
theorem beyond (h : Pages rows place limit n p xs) : ∀ x ∈ xs, ∀ q ∈ p, q < place x := by
  induction h with
  | last _ => exact fun x hx => (mem_rowsBehind.1 hx).2
  | @more n p pre post xs a hrest _ _ _ ih =>
    have hpage : ∀ x ∈ pre ++ a :: post, ∀ q ∈ p, q < place x := fun x hx =>
      (mem_rowsBehind.1 (hrest ▸ hx)).2
    intro x hx q hq
    rcases List.mem_append.1 hx with hx | hx
    · exact hpage x (by simp [hx]) q hq
    · rcases List.mem_cons.1 hx with rfl | hx
      · exact hpage _ (by simp) q hq
      · exact (hpage a (by simp) q hq).trans (ih x hx (place a) rfl)

variable (hsorted : ∀ n, (rows n).Pairwise fun a b => place a < place b)
include hsorted

theorem sorted (h : Pages rows place limit n p xs) : xs.Pairwise fun a b => place a < place b := by
  induction h with
  | @last n p _ => exact (hsorted n).sublist rowsBehind_sublist
  | @more n p pre post xs a hrest _ _ hnext ih =>
    have hpage : (pre ++ a :: post).Pairwise fun a b => place a < place b :=
      hrest ▸ (hsorted n).sublist rowsBehind_sublist
    obtain ⟨hpre, -, hcross⟩ := List.pairwise_append.1 hpage
    have hbeyond : ∀ x ∈ xs, place a < place x := fun x hx => hnext.beyond x hx (place a) rfl
    refine List.pairwise_append.2 ⟨hpre, List.pairwise_cons.2 ⟨hbeyond, ih⟩, ?_⟩
    intro x hx y hy
    have hxa := hcross x hx a List.mem_cons_self
    rcases List.mem_cons.1 hy with rfl | hy
    · exact hxa
    · exact hxa.trans (hbeyond y hy)

/-- A place that the walk has not come to yet is come to, if a row stands there all the time. -/
theorem complete (h : Pages rows place limit n p xs) {k : π} (hk : ∀ q ∈ p, q < k)
    (hstays : ∀ m, n ≤ m → ∃ r ∈ rows m, place r = k) : ∃ x ∈ xs, place x = k := by
  induction h with
  | @last n p _ =>
    obtain ⟨r, hr, rfl⟩ := hstays n (Nat.le_refl n)
    exact ⟨r, mem_rowsBehind.2 ⟨hr, hk⟩, rfl⟩
  | @more n p pre post xs a hrest _ _ _ ih =>
    rcases lt_or_ge (place a) k with hlt | hle
    · obtain ⟨x, hx, hplace⟩ := ih (by simpa using hlt) fun m hm => hstays m (by omega)
      exact ⟨x, by simp [hx], hplace⟩
    · -- The row stands no later than the last one of this page, so it is on this page.
      obtain ⟨r, hr, rfl⟩ := hstays n (Nat.le_refl n)
      have hmem : r ∈ pre ++ a :: post := hrest ▸ mem_rowsBehind.2 ⟨hr, hk⟩
      have hpage : (pre ++ a :: post).Pairwise fun a b => place a < place b :=
        hrest ▸ (hsorted n).sublist rowsBehind_sublist
      have hpost : r ∉ post := by
        intro hr
        have hlt := (List.pairwise_cons.1 (List.pairwise_append.1 hpage).2.1).1 r hr
        exact absurd hlt (not_lt.2 hle)
      refine ⟨r, ?_, rfl⟩
      simp only [List.mem_append, List.mem_cons] at hmem ⊢
      tauto

variable (place) in
omit hsorted in
/-- Where there are only so many places, the walk comes to an end. -/
theorem exists_of_finite (hpos : 0 < limit) {s : Set π} (hfin : s.Finite)
    (hs : ∀ n, ∀ r ∈ rows n, place r ∈ s) (n : Nat) (p : Option π) (hp : ∀ q ∈ p, q ∈ s) :
    ∃ xs, Pages rows place limit n p xs := by
  -- One request leaves the last page, or goes on behind a row that stands further back.
  have hstep : ∀ (n : Nat) (p : Option π),
      (∀ k ∈ s, (∀ q ∈ p, q < k) → ∃ xs, Pages rows place limit (n + 1) (some k) xs) →
        ∃ xs, Pages rows place limit n p xs := by
    intro n p hnext
    by_cases hshort : (rowsBehind place p (rows n)).length ≤ limit
    · exact ⟨_, .last hshort⟩
    · obtain ⟨m, rfl⟩ : ∃ m, limit = m + 1 := ⟨limit - 1, by omega⟩
      obtain ⟨pre, a, post, hrest, hpre⟩ :
          ∃ pre a post, rowsBehind place p (rows n) = pre ++ a :: post ∧ pre.length = m :=
        ⟨_, (rowsBehind place p (rows n))[m], _,
          (List.take_append_drop m _).symm.trans (by rw [List.drop_eq_getElem_cons]),
          by simp; omega⟩
      have ha : a ∈ rowsBehind place p (rows n) := by simp [hrest]
      obtain ⟨hmem, hbeyond⟩ := mem_rowsBehind.1 ha
      obtain ⟨xs, hxs⟩ := hnext (place a) (hs n a hmem) hbeyond
      refine ⟨_, .more hrest (by omega) ?_ hxs⟩
      rintro rfl
      simp [hrest, hpre] at hshort
  have hwf : s.WellFoundedOn (· > ·) := hfin.wellFoundedOn
  have hsome : ∀ q ∈ s, ∀ n, ∃ xs, Pages rows place limit n (some q) xs := by
    intro q hq
    refine hwf.induction hq fun q _ ih n => hstep n (some q) fun k hk hlt => ?_
    exact ih k hk (by simpa using hlt) (n + 1)
  cases p with
  | none => exact hstep n none fun k hk _ => hsome k hk (n + 1)
  | some q => exact hsome q (hp q rfl) n

end Pages

end Lib
