import Mathlib.Data.List.Sort

/-!
# Lib.Numbered

Lists of numbered items: a list that is split in two by kind, processed part by part and put
back together by a sort on the number is, position by position, the list of results of the
original one.
-/

namespace Lib

variable {α β : Type}

/-- Sort by number, drop the numbers. -/
def inOrder (l : List (Nat × α)) : List α :=
  (l.insertionSort fun a b => a.1 ≤ b.1).map Prod.snd

section InOrder

variable {l : List (Nat × α)} {n : Nat}

theorem map_fst_sort (h : (l.map Prod.fst).Perm (List.range n)) :
    (l.insertionSort fun a b => a.1 ≤ b.1).map Prod.fst = List.range n := by
  have hmap := List.map_insertionSort (r := fun a b : Nat × α => a.1 ≤ b.1) (s := (· ≤ ·))
    Prod.fst l fun _ _ _ _ => Iff.rfl
  rw [hmap]
  refine List.Perm.eq_of_sortedLE ?_ ?_ ((List.perm_insertionSort _ _).trans h)
  · exact List.sortedLE_iff_pairwise.2 (List.pairwise_insertionSort _ _)
  · exact List.sortedLE_iff_pairwise.2 List.pairwise_le_range

theorem length_inOrder (h : (l.map Prod.fst).Perm (List.range n)) : (inOrder l).length = n := by
  have hl := congrArg List.length (map_fst_sort h)
  rw [inOrder, List.length_map]
  simpa only [List.length_map, List.length_range] using hl

/-- Position `i` holds the item with number `i`. -/
theorem getElem?_inOrder (h : (l.map Prod.fst).Perm (List.range n)) {i : Nat} {a : α} :
    (inOrder l)[i]? = some a ↔ (i, a) ∈ l := by
  have hfst := map_fst_sort h
  rw [inOrder, ← List.mem_insertionSort (r := fun a b : Nat × α => a.1 ≤ b.1)]
  generalize hs : (l.insertionSort fun a b => a.1 ≤ b.1) = s at hfst
  -- the sorted list has number `j` at position `j`
  have hnum : ∀ j (hj : j < s.length), s[j].1 = j := by
    intro j hj
    have := List.getElem_of_eq hfst (i := j) (by simpa using hj)
    simpa using this
  rw [List.getElem?_map, Option.map_eq_some_iff]
  constructor
  · rintro ⟨⟨j, b⟩, hj, rfl⟩
    obtain ⟨hi, he⟩ := List.getElem?_eq_some_iff.1 hj
    have hij := hnum i hi
    rw [he] at hij
    have hij : j = i := hij
    subst hij
    exact List.mem_of_getElem? hj
  · intro hmem
    obtain ⟨j, hj, he⟩ := List.getElem_of_mem hmem
    have hij := hnum j hj
    rw [he] at hij
    have hij : i = j := hij
    subst hij
    exact ⟨(i, a), List.getElem?_eq_some_iff.2 ⟨hj, he⟩, rfl⟩

end InOrder

/-! ## Splitting a list by kind -/

/-- The items of one kind, with their positions. -/
def select (f : α → Option β) (l : List α) : List (Nat × β) :=
  l.zipIdx.filterMap fun p => (f p.1).map fun b => (p.2, b)

theorem mem_select {f : α → Option β} {l : List α} {i : Nat} {b : β} :
    (i, b) ∈ select f l ↔ ∃ a, l[i]? = some a ∧ f a = some b := by
  rw [select, List.mem_filterMap]
  constructor
  · rintro ⟨⟨a, j⟩, hmem, h⟩
    obtain ⟨b', hb, he⟩ := Option.map_eq_some_iff.1 h
    cases he
    exact ⟨a, List.mem_zipIdx_iff_getElem?.1 hmem, hb⟩
  · rintro ⟨a, ha, hb⟩
    exact ⟨(a, i), List.mem_zipIdx_iff_getElem?.2 ha, by simp [hb]⟩

/-- Two kinds that exclude each other and cover everything take every position once. -/
theorem select_perm_range {γ : Type} {f : α → Option β} {g : α → Option γ}
    (hfg : ∀ a, (f a).isSome = !(g a).isSome) (l : List α) :
    ((select f l).map Prod.fst ++ (select g l).map Prod.fst).Perm (List.range l.length) := by
  have key : ∀ n, (((l.zipIdx n).filterMap fun p => (f p.1).map fun b => (p.2, b)).map Prod.fst ++
      ((l.zipIdx n).filterMap fun p => (g p.1).map fun b => (p.2, b)).map Prod.fst).Perm
      (List.range' n l.length) := by
    induction l with
    | nil => intro n; simp
    | cons a l ih =>
      intro n
      have := hfg a
      rw [List.zipIdx_cons, List.length_cons, List.range'_succ]
      cases hf : f a with
      | some b =>
        have hg : g a = none := by simpa [hf] using this
        simp only [List.filterMap_cons, hf, hg, Option.map_some, Option.map_none, List.map_cons,
          List.cons_append]
        exact (ih (n + 1)).cons n
      | none =>
        obtain ⟨c, hg⟩ : ∃ c, g a = some c := Option.isSome_iff_exists.1 (by simpa [hf] using this)
        simp only [List.filterMap_cons, hf, hg, Option.map_some, Option.map_none, List.map_cons]
        exact (List.perm_middle).trans ((ih (n + 1)).cons n)
  rw [List.range_eq_range']
  exact key 0

/-! ## Items and their results -/

/-- Where the results have the numbers of the items, an item stands beside the result of its
number. -/
theorem mem_zip_of_numbers {xs : List (Nat × α)} {ys : List (Nat × β)}
    (h : ys.map Prod.fst = xs.map Prod.fst) (hn : (xs.map Prod.fst).Nodup) {p : Nat} {a : α} {b : β}
    (hx : (p, a) ∈ xs) (hy : (p, b) ∈ ys) : ((p, a), (p, b)) ∈ xs.zip ys := by
  induction xs generalizing ys with
  | nil => cases hx
  | cons x xs ih =>
    cases ys with
    | nil => cases hy
    | cons y ys =>
      obtain ⟨hhead, htail⟩ := List.cons.inj h
      obtain ⟨hnew, hn⟩ := List.nodup_cons.1 hn
      rw [List.zip_cons_cons]
      rcases List.mem_cons.1 hx with rfl | hx
      · rcases List.mem_cons.1 hy with rfl | hy
        · exact List.mem_cons_self
        · have hp : p ∈ ys.map Prod.fst := List.mem_map.2 ⟨(p, b), hy, rfl⟩
          rw [htail] at hp
          exact absurd hp hnew
      · rcases List.mem_cons.1 hy with rfl | hy
        · have hp : p ∈ xs.map Prod.fst := List.mem_map.2 ⟨(p, a), hx, rfl⟩
          have hhead : p = x.1 := hhead
          rw [hhead] at hp
          exact absurd hp hnew
        · exact List.mem_cons_of_mem _ (ih htail hn hx hy)

/-- Where nothing comes up twice, it comes from one place. -/
theorem eq_of_mem_flatMap {f : α → List β} {l : List α} (hn : (l.flatMap f).Nodup) {x y : α} {b : β}
    (hx : x ∈ l) (hy : y ∈ l) (hbx : b ∈ f x) (hby : b ∈ f y) : x = y := by
  induction l with
  | nil => cases hx
  | cons z l ih =>
    rw [List.flatMap_cons] at hn
    obtain ⟨_, hl, hdisj⟩ := List.nodup_append.1 hn
    rcases List.mem_cons.1 hx with rfl | hxl
    · rcases List.mem_cons.1 hy with rfl | hyl
      · rfl
      · exact absurd rfl (hdisj b hbx b (List.mem_flatMap.2 ⟨y, hyl, hby⟩))
    · rcases List.mem_cons.1 hy with rfl | hyl
      · exact absurd rfl (hdisj b hby b (List.mem_flatMap.2 ⟨x, hxl, hbx⟩))
      · exact ih hl hxl hyl

end Lib
