import Mathlib.Data.List.Nodup
import Mathlib.Data.List.Sort
import Mathlib.Tactic.Common

/-!
# Lib.Keyset

Walks over a sorted list by the position of the last row seen. A request asks for the rows that lie
beyond a position and gets the first `limit` of them; the position of the last of these is what the
next request starts from. `Visits` is the run of all the requests of a walk, `Cuts` is what it takes
for the walk to see every row once.
-/

namespace Lib

/-- Rows in the order that they are listed in, the position that a row leaves behind, and the test
of a row against a position. -/
structure Listing (ρ κ : Type) where
  rows : List ρ
  cursor : ρ → κ
  beyond : κ → ρ → Bool

namespace Listing

variable {ρ κ : Type}

/-- The test of a request, with or without a position. -/
def past (F : Listing ρ κ) : Option κ → ρ → Bool
  | none, _ => true
  | some k, r => F.beyond k r

/-- What a request finds, when it has no limit. -/
def rest (F : Listing ρ κ) (c : Option κ) : List ρ := F.rows.filter (F.past c)

@[simp] theorem rest_none (F : Listing ρ κ) : F.rest none = F.rows := by
  simp [rest, past]

/-- The requests from `c` on end, and what they find in all is `xs`. -/
inductive Visits (F : Listing ρ κ) (limit : Nat) : Option κ → List ρ → Prop
  | last {c : Option κ} (h : (F.rest c).length ≤ limit) : Visits F limit c (F.rest c)
  | more {c : Option κ} {pre post xs : List ρ} {a : ρ} (h : F.rest c = pre ++ a :: post)
      (hlen : pre.length + 1 = limit) (hpost : post ≠ [])
      (hnext : Visits F limit (some (F.cursor a)) xs) : Visits F limit c (pre ++ a :: xs)

theorem Visits.mem {F : Listing ρ κ} {limit : Nat} {c : Option κ} {xs : List ρ}
    (h : F.Visits limit c xs) : ∀ x ∈ xs, x ∈ F.rows := by
  induction h with
  | last _ => exact fun x hx => List.mem_of_mem_filter hx
  | @more c pre post xs a hrest _ _ _ ih =>
    intro x hx
    have hpage : x ∈ pre ++ a :: post → x ∈ F.rows := fun hx =>
      List.mem_of_mem_filter (hrest ▸ hx)
    rcases List.mem_append.1 hx with hx | hx
    · exact hpage (by simp [hx])
    · rcases List.mem_cons.1 hx with rfl | hx
      · exact hpage (by simp)
      · exact ih x hx

/-- A position behind which lie the rows that follow in the list, and no others. -/
theorem rest_eq_iff {F : Listing ρ κ} (hnodup : F.rows.Nodup) {pre post : List ρ} {a : ρ} {k : κ}
    (hrows : F.rows = pre ++ a :: post) :
    F.rest (some k) = post ↔ ∀ r ∈ F.rows, F.beyond k r = true ↔ r ∈ post := by
  constructor
  · rintro rfl r hr
    simp [rest, past, hr]
  · intro h
    rw [hrows] at hnodup h
    obtain ⟨-, hnodup', hdisjoint⟩ := List.nodup_append.1 hnodup
    have hpre : (pre ++ [a]).filter (F.past (some k)) = [] := by
      refine List.filter_eq_nil_iff.2 fun r hr hpast => ?_
      have hpost := (h r (by simp at hr ⊢; tauto)).1 hpast
      rcases List.mem_append.1 hr with hr | hr
      · exact hdisjoint r hr r (List.mem_cons_of_mem _ hpost) rfl
      · obtain rfl := List.mem_singleton.1 hr
        exact (List.nodup_cons.1 hnodup').1 hpost
    have hpost : post.filter (F.past (some k)) = post :=
      List.filter_eq_self.2 fun r hr => (h r (by simp [hr])).2 hr
    have hsplit : F.rows = (pre ++ [a]) ++ post := by simp [hrows]
    rw [rest, hsplit, List.filter_append, hpre, hpost, List.nil_append]

/-- Behind the last row of every full page lie just the rows that have not been seen. -/
def Cuts (F : Listing ρ κ) (limit : Nat) : Prop :=
  ∀ pre a post, F.rows = pre ++ a :: post → post ≠ [] → limit ∣ pre.length + 1 →
    F.rest (some (F.cursor a)) = post

theorem visits_of_rest {F : Listing ρ κ} {limit : Nat} (hpos : 0 < limit) (hcuts : F.Cuts limit)
    {c : Option κ} {pre post : List ρ} (hrows : F.rows = pre ++ post)
    (hlen : limit ∣ pre.length) (hrest : F.rest c = post) : F.Visits limit c post := by
  induction hn : post.length using Nat.strong_induction_on generalizing c pre post with
  | _ n ih =>
    by_cases hshort : post.length ≤ limit
    · subst hrest
      exact .last hshort
    · obtain ⟨m, rfl⟩ : ∃ m, limit = m + 1 := ⟨limit - 1, by omega⟩
      obtain ⟨p, a, q, rfl, hp⟩ : ∃ p a q, post = p ++ a :: q ∧ p.length = m :=
        ⟨post.take m, post[m], post.drop (m + 1), by simp, by simp; omega⟩
      have hq : q ≠ [] := by
        rintro rfl
        simp [hp] at hshort
      have hdvd : m + 1 ∣ (pre ++ p).length + 1 := by
        have : (pre ++ p).length + 1 = pre.length + (m + 1) := by simp [hp]; omega
        rw [this]
        exact Nat.dvd_add hlen (Nat.dvd_refl _)
      have hnext : F.rest (some (F.cursor a)) = q :=
        hcuts (pre ++ p) a q (by simp [hrows]) hq hdvd
      have hdvd' : m + 1 ∣ (pre ++ p ++ [a]).length := by simpa [Nat.add_assoc] using hdvd
      have hlt : q.length < n := by
        simp at hn
        omega
      exact .more hrest (by omega) hq (ih q.length hlt (by simp [hrows]) hdvd' hnext rfl)

theorem visits_of_cuts {F : Listing ρ κ} {limit : Nat} (hpos : 0 < limit) (hcuts : F.Cuts limit) :
    F.Visits limit none F.rows :=
  visits_of_rest hpos hcuts (List.nil_append _).symm (Nat.dvd_zero _) F.rest_none

/-- The rows of a list with no row twice, of which what is left is kept by `p` with a row in front
of it that is in the list only there. -/
theorem cut_of_filter {rows pre p ys post : List ρ} {a : ρ} {q : ρ → Bool} (hnodup : rows.Nodup)
    (hrows : rows = pre ++ (p ++ a :: ys)) (hfilter : rows.filter q = p ++ a :: post)
    (hys : ∀ r ∈ ys, q r = true) : post = ys := by
  subst hrows
  have hmem : ∀ r ∈ p ++ [a], q r = true := by
    intro r hr
    have : r ∈ p ++ a :: post := by
      simp only [List.mem_append, List.mem_cons] at hr ⊢
      tauto
    rw [← hfilter] at this
    exact (List.mem_filter.1 this).2
  have hkept : (p ++ a :: ys).filter q = p ++ a :: ys := by
    refine List.filter_eq_self.2 fun r hr => ?_
    rcases List.mem_append.1 hr with hr | hr
    · exact hmem r (by simp [hr])
    · rcases List.mem_cons.1 hr with rfl | hr
      · exact hmem r (by simp)
      · exact hys r hr
  rw [List.filter_append, hkept] at hfilter
  cases hpre : pre.filter q with
  | nil =>
    rw [hpre, List.nil_append] at hfilter
    simpa using (List.append_cancel_left hfilter).symm
  | cons x xs =>
    exfalso
    have hx : x ∈ pre := (List.mem_filter.1 (by rw [hpre]; exact List.mem_cons_self)).1
    have hx' : x ∈ p ++ a :: ys := by
      rw [hpre] at hfilter
      cases p with
      | nil =>
        obtain ⟨rfl, -⟩ := List.cons.inj hfilter
        simp
      | cons y p =>
        obtain ⟨rfl, -⟩ := List.cons.inj hfilter
        simp
    exact (List.nodup_append.1 hnodup).2.2 x hx x hx' rfl

theorem cuts_of_visits {F : Listing ρ κ} {limit : Nat} (hnodup : F.rows.Nodup)
    (htrans : ∀ k a r, F.beyond k a = true → F.beyond (F.cursor a) r = true → F.beyond k r = true)
    {c : Option κ} {pre post : List ρ} (hvisits : F.Visits limit c post)
    (hrows : F.rows = pre ++ post) (hlen : limit ∣ pre.length) :
    F.rest c = post ∧ ∀ pre' a post', F.rows = pre' ++ a :: post' → post' ≠ [] →
      pre.length < pre'.length + 1 → limit ∣ pre'.length + 1 →
      F.rest (some (F.cursor a)) = post' := by
  induction hvisits generalizing pre with
  | @last c hshort =>
    refine ⟨rfl, fun pre' a post' hrows' hpost' hlt hdvd => ?_⟩
    exfalso
    have hle : limit ≤ pre'.length + 1 - pre.length := Nat.le_of_dvd (by omega) (Nat.dvd_sub hdvd hlen)
    have htotal := congrArg List.length (hrows.symm.trans hrows')
    have := List.length_pos_of_ne_nil hpost'
    simp at htotal
    omega
  | @more c p post ys a hrest hp hpost hnext ih =>
    have hrows' : F.rows = (pre ++ p ++ [a]) ++ ys := by simpa using hrows
    have hdvd : limit ∣ (pre ++ p ++ [a]).length := by
      have : (pre ++ p ++ [a]).length = pre.length + limit := by simp; omega
      rw [this]
      exact Nat.dvd_add hlen (Nat.dvd_refl _)
    obtain ⟨hys, hlater⟩ := ih hrows' hdvd
    have ha : F.past c a = true := by
      have : a ∈ F.rest c := by simp [hrest]
      exact (List.mem_filter.1 this).2
    have hpast : ∀ r ∈ ys, F.past c r = true := by
      intro r hr
      rw [← hys] at hr
      have hr := (List.mem_filter.1 hr).2
      cases c with
      | none => rfl
      | some k => exact htrans k a r ha hr
    have hcut := cut_of_filter hnodup hrows hrest hpast
    refine ⟨by rw [hrest, hcut], fun pre' b post' hrowsb hpost' hlt hdvd' => ?_⟩
    by_cases hb : (pre ++ p ++ [a]).length < pre'.length + 1
    · exact hlater pre' b post' hrowsb hpost' hb hdvd'
    · have hle : limit ≤ pre'.length + 1 - pre.length :=
        Nat.le_of_dvd (by omega) (Nat.dvd_sub hdvd' hlen)
      have heq : (pre ++ p) ++ a :: ys = pre' ++ b :: post' := by
        rw [← hrowsb, hrows]
        simp
      obtain ⟨-, htail⟩ := List.append_inj heq (by simp at hb ⊢; omega)
      obtain ⟨rfl, rfl⟩ := List.cons.inj htail
      exact hys

/-- A walk sees every row, each once and in the order of the list, if and only if the list is cut
behind every full page. -/
theorem visits_rows_iff {F : Listing ρ κ} {limit : Nat} (hpos : 0 < limit) (hnodup : F.rows.Nodup)
    (htrans : ∀ k a r, F.beyond k a = true → F.beyond (F.cursor a) r = true →
      F.beyond k r = true) : F.Visits limit none F.rows ↔ F.Cuts limit := by
  refine ⟨fun h pre a post hrows hpost hdvd => ?_, visits_of_cuts hpos⟩
  obtain ⟨-, hcuts⟩ :=
    cuts_of_visits hnodup htrans h (List.nil_append _).symm (Nat.dvd_zero _)
  exact hcuts pre a post hrows hpost (Nat.succ_pos _) hdvd

/-- Where the test is the order of the list itself, every walk sees all. -/
theorem cuts_of_pairwise {F : Listing ρ κ} {lt : ρ → ρ → Prop} (limit : Nat)
    (hsorted : F.rows.Pairwise lt) (hasymm : ∀ a b, lt a b → ¬ lt b a)
    (hbeyond : ∀ a ∈ F.rows, ∀ b ∈ F.rows, F.beyond (F.cursor a) b = true ↔ lt a b) :
    F.Cuts limit := by
  intro pre a post hrows _ _
  have ha : a ∈ F.rows := by simp [hrows]
  rw [hrows] at hsorted
  obtain ⟨-, hpost, hpre⟩ := List.pairwise_append.1 hsorted
  have hbefore : ∀ r ∈ pre ++ [a], F.beyond (F.cursor a) r = false := by
    intro r hr
    rw [Bool.eq_false_iff, ne_eq, hbeyond a ha r (by simp at hr ⊢; simp [hrows]; tauto)]
    rcases List.mem_append.1 hr with hr | hr
    · exact hasymm r a (hpre r hr a List.mem_cons_self)
    · obtain rfl := List.mem_singleton.1 hr
      exact fun h => hasymm r r h h
  have hafter : ∀ r ∈ post, F.beyond (F.cursor a) r = true := fun r hr =>
    (hbeyond a ha r (by simp [hrows, hr])).2 ((List.pairwise_cons.1 hpost).1 r hr)
  have hsplit : F.rows = (pre ++ [a]) ++ post := by simp [hrows]
  unfold rest
  rw [hsplit, List.filter_append]
  have h1 : (pre ++ [a]).filter (F.past (some (F.cursor a))) = [] :=
    List.filter_eq_nil_iff.2 fun r hr => by simpa [past] using hbefore r hr
  have h2 : post.filter (F.past (some (F.cursor a))) = post :=
    List.filter_eq_self.2 fun r hr => hafter r hr
  rw [h1, h2, List.nil_append]

end Listing

/-! ## Lists -/

/-- Lists that look alike are alike, as far as no two of their rows look alike. -/
theorem eq_of_map_eq {α β : Type} {f : α → β} {xs ys : List α}
    (hinj : ∀ x ∈ xs, ∀ y ∈ ys, f x = f y → x = y) (h : xs.map f = ys.map f) : xs = ys := by
  induction xs generalizing ys with
  | nil => exact (List.map_eq_nil_iff.1 h.symm).symm
  | cons x xs ih =>
    cases ys with
    | nil => simp at h
    | cons y ys =>
      obtain ⟨hhead, htail⟩ := List.cons.inj h
      have hxy := hinj x List.mem_cons_self y List.mem_cons_self hhead
      have hrest := ih (fun a ha b hb => hinj a (List.mem_cons_of_mem _ ha) b
        (List.mem_cons_of_mem _ hb)) htail
      rw [hxy, hrest]

/-- A join that leaves out rows leaves the keys of the others as they are. -/
theorem map_filterMap_sublist {α β γ : Type} {f : α → Option β} {key : α → γ} {key' : β → γ}
    (h : ∀ a b, f a = some b → key' b = key a) (rows : List α) :
    ((rows.filterMap f).map key').Sublist (rows.map key) := by
  induction rows with
  | nil => exact .slnil
  | cons a rows ih =>
    rw [List.filterMap_cons, List.map_cons]
    split
    · exact .cons _ ih
    · rename_i b hb
      rw [List.map_cons, h a b hb]
      exact ih.cons_cons _

/-- Sorting keeps the rows that a test keeps in their order. -/
theorem filter_mergeSort {ρ : Type} {le : ρ → ρ → Bool} (htrans : ∀ a b c, le a b → le b c → le a c)
    (htotal : ∀ a b, le a b || le b a) (rows : List ρ)
    (hantisymm : ∀ a ∈ rows, ∀ b ∈ rows, le a b → le b a → a = b) (p : ρ → Bool) :
    (rows.mergeSort le).filter p = (rows.filter p).mergeSort le := by
  have hperm : ((rows.mergeSort le).filter p).Perm ((rows.filter p).mergeSort le) :=
    ((List.mergeSort_perm rows le).filter p).trans (List.mergeSort_perm _ le).symm
  refine List.Perm.eq_of_pairwise ?_ ((List.pairwise_mergeSort htrans htotal rows).filter p)
    (List.pairwise_mergeSort htrans htotal _) hperm
  intro a b ha hb hab hba
  have hmem : ∀ {r}, r ∈ (rows.mergeSort le).filter p → r ∈ rows := fun hr =>
    (List.mergeSort_perm rows le).subset (List.mem_of_mem_filter hr)
  exact hantisymm a (hmem ha) b (hmem (hperm.symm.subset hb)) hab hba

/-- One row stands in any order. -/
theorem eq_of_perm_of_short {ρ : Type} {rows rows' : List ρ} (hperm : rows.Perm rows')
    (hshort : rows.length ≤ 1) : rows = rows' := by
  match rows, hshort with
  | [], _ => exact (List.nil_perm.1 hperm).symm
  | [_], _ => exact List.singleton_perm.1 hperm

end Lib
