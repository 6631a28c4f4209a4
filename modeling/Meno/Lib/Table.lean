import Mathlib.Data.List.Nodup
import Mathlib.Tactic.Common

/-!
# Lib.Table

A table with a primary key: a list of rows, no two of which have the same key. `get` is the
lookup by key, and every operation is described by what it does to `get`. A later row version
is stored in front; the order of the rows carries no meaning.
-/

namespace Lib

structure Table (ρ : Type) {κ : Type} (key : ρ → κ) where
  rows : List ρ
  nodup : (rows.map key).Nodup

namespace Table

variable {ρ κ : Type} {key : ρ → κ}

theorem eq_of_rows {t t' : Table ρ key} (h : t.rows = t'.rows) : t = t' := by
  cases t
  cases t'
  cases h
  rfl

def empty : Table ρ key := ⟨[], .nil⟩

/-- Keep the rows with `p`. -/
def filter (t : Table ρ key) (p : ρ → Bool) : Table ρ key :=
  ⟨t.rows.filter p, t.nodup.sublist (t.rows.filter_sublist.map key)⟩

@[simp] theorem mem_filter_rows {t : Table ρ key} {p : ρ → Bool} {r : ρ} :
    r ∈ (t.filter p).rows ↔ r ∈ t.rows ∧ p r = true := List.mem_filter

/-- Every row changed to what `f` makes of it. -/
def modify (t : Table ρ key) (f : ρ → ρ) (hf : ∀ r, key (f r) = key r) : Table ρ key where
  rows := t.rows.map f
  nodup := by
    have hkeys : (t.rows.map f).map key = t.rows.map key := by
      rw [List.map_map]
      exact List.map_congr_left fun r _ => hf r
    rw [hkeys]
    exact t.nodup

/-- A change after which a row is one with `p` if it was. -/
theorem filter_modify (t : Table ρ key) {f : ρ → ρ} {hf : ∀ r, key (f r) = key r} {p : ρ → Bool}
    (h : ∀ r, p (f r) = p r) : (t.modify f hf).filter p = (t.filter p).modify f hf := by
  refine eq_of_rows ?_
  show (t.rows.map f).filter p = (t.rows.filter p).map f
  rw [List.filter_map]
  congr 2
  exact funext h

variable [DecidableEq κ]

def get (t : Table ρ key) (k : κ) : Option ρ := t.rows.find? fun r => key r = k

/-- Store `r` under its key, in place of the row that is there. -/
def put (t : Table ρ key) (r : ρ) : Table ρ key where
  rows := r :: t.rows.filter fun x => key x ≠ key r
  nodup := by
    refine List.nodup_cons.2 ⟨?_, t.nodup.sublist (t.rows.filter_sublist.map key)⟩
    simp

def erase (t : Table ρ key) (k : κ) : Table ρ key := t.filter fun x => key x ≠ k

@[simp] theorem mem_put_rows {t : Table ρ key} {r x : ρ} :
    x ∈ (t.put r).rows ↔ x = r ∨ x ∈ t.rows ∧ key x ≠ key r := by
  simp [put]

@[simp] theorem mem_erase_rows {t : Table ρ key} {k : κ} {x : ρ} :
    x ∈ (t.erase k).rows ↔ x ∈ t.rows ∧ key x ≠ k := by
  simp [erase]

theorem mem_rows_iff {t : Table ρ key} {r : ρ} : r ∈ t.rows ↔ t.get (key r) = some r := by
  constructor
  · intro h
    have hsome : (t.get (key r)).isSome := List.find?_isSome.2 ⟨r, h, by simp⟩
    obtain ⟨r', hr'⟩ := Option.isSome_iff_exists.1 hsome
    have hkey : key r' = key r := by simpa using List.find?_some hr'
    have hinj := List.inj_on_of_nodup_map t.nodup (List.mem_of_find?_eq_some hr') h hkey
    rw [hr', hinj]
  · exact List.mem_of_find?_eq_some

theorem key_of_get {t : Table ρ key} {k : κ} {r : ρ} (h : t.get k = some r) : key r = k := by
  simpa using List.find?_some h

theorem get_eq_some_iff {t : Table ρ key} {k : κ} {r : ρ} :
    t.get k = some r ↔ r ∈ t.rows ∧ key r = k := by
  constructor
  · intro h
    exact ⟨List.mem_of_find?_eq_some h, key_of_get h⟩
  · rintro ⟨h, rfl⟩
    exact mem_rows_iff.1 h

@[simp] theorem get_empty (k : κ) : (empty : Table ρ key).get k = none := rfl

theorem get_put (t : Table ρ key) (r : ρ) (k : κ) :
    (t.put r).get k = if k = key r then some r else t.get k := by
  by_cases h : k = key r
  · subst h; simp [get, put]
  · have hne : key r ≠ k := fun e => h e.symm
    rw [if_neg h, get, put, List.find?_cons_of_neg (by simpa using hne), List.find?_filter]
    congr 1
    funext x
    by_cases hx : key x = k <;> simp [hx, h]

@[simp] theorem get_put_self (t : Table ρ key) (r : ρ) : (t.put r).get (key r) = some r := by
  rw [get_put, if_pos rfl]

theorem put_put (t : Table ρ key) {r r' : ρ} (h : key r' = key r) : (t.put r).put r' = t.put r' := by
  simp [put, h, List.filter_filter]

theorem get_filter (t : Table ρ key) (p : ρ → Bool) (k : κ) :
    (t.filter p).get k = (t.get k).filter p := by
  cases h : t.get k with
  | none =>
    cases h' : (t.filter p).get k with
    | none => rfl
    | some r =>
      obtain ⟨hr, hk⟩ := get_eq_some_iff.1 h'
      rw [get_eq_some_iff.2 ⟨(mem_filter_rows.1 hr).1, hk⟩] at h
      cases h
  | some r =>
    obtain ⟨hr, hk⟩ := get_eq_some_iff.1 h
    by_cases hp : p r = true
    · simp only [Option.filter, hp, if_true]
      exact get_eq_some_iff.2 ⟨mem_filter_rows.2 ⟨hr, hp⟩, hk⟩
    · simp only [Option.filter, hp]
      cases h' : (t.filter p).get k with
      | none => rfl
      | some r' =>
        obtain ⟨hr', hk'⟩ := get_eq_some_iff.1 h'
        have : t.get k = some r' := get_eq_some_iff.2 ⟨(mem_filter_rows.1 hr').1, hk'⟩
        rw [h] at this
        cases this
        exact absurd (mem_filter_rows.1 hr').2 hp

/-- Rows with different keys, stored one after the other. -/
theorem get_foldl_put {rs : List ρ} (h : (rs.map key).Nodup) (k : κ) :
    ∀ t : Table ρ key, (rs.foldl put t).get k = (rs.find? fun r => key r = k).or (t.get k) := by
  induction rs with
  | nil => intro t; rfl
  | cons r rs ih =>
    intro t
    obtain ⟨hr, hrs⟩ := List.nodup_cons.1 h
    rw [List.foldl_cons, ih hrs, get_put]
    by_cases hk : k = key r
    · have hnone : (rs.find? fun x => key x = k) = none := by
        rw [List.find?_eq_none]
        intro x hx hkey
        refine hr (List.mem_map.2 ⟨x, hx, ?_⟩)
        rw [← hk]
        exact of_decide_eq_true hkey
      rw [hnone, if_pos hk, List.find?_cons_of_pos (by simp [hk])]
      rfl
    · rw [if_neg hk, List.find?_cons_of_neg (by simpa using fun h => hk h.symm)]

/-- The rows with `p` changed to what `f` makes of them. -/
theorem get_update (t : Table ρ key) (p : ρ → Bool) {f : ρ → ρ} (hf : ∀ r, key (f r) = key r)
    (k : κ) : (((t.rows.filter p).map f).foldl put t).get k =
      (t.get k).map fun r => if p r = true then f r else r := by
  have hkeys : (((t.rows.filter p).map f).map key).Nodup := by
    have hsame : ((t.rows.filter p).map f).map key = (t.rows.filter p).map key := by
      rw [List.map_map]
      exact List.map_congr_left fun r _ => hf r
    rw [hsame]
    exact (t.filter p).nodup
  have hfind : (((t.rows.filter p).map f).find? fun r => key r = k) =
      ((t.filter p).get k).map f := by
    have hsame : ((fun r => decide (key r = k)) ∘ f) = fun r => decide (key r = k) :=
      funext fun r => congrArg (fun k' => decide (k' = k)) (hf r)
    rw [List.find?_map, hsame]
    rfl
  rw [get_foldl_put hkeys, hfind, get_filter]
  cases t.get k with
  | none => rfl
  | some r => by_cases hp : p r = true <;> simp [Option.filter, hp]

theorem get_modify (t : Table ρ key) {f : ρ → ρ} (hf : ∀ r, key (f r) = key r) (k : κ) :
    (t.modify f hf).get k = (t.get k).map f := by
  show (t.rows.map f).find? _ = _
  rw [List.find?_map]
  refine congrArg (fun p => (t.rows.find? p).map f) (funext fun r => ?_)
  exact congrArg (fun k' => decide (k' = k)) (hf r)

theorem get_erase (t : Table ρ key) (k k' : κ) :
    (t.erase k).get k' = if k' = k then none else t.get k' := by
  rw [erase, get_filter]
  cases h : t.get k' with
  | none => simp
  | some r =>
    have := key_of_get h
    by_cases hk : k' = k <;> simp [Option.filter, this, hk]

theorem erase_of_none {t : Table ρ key} {k : κ} (h : t.get k = none) : t.erase k = t := by
  obtain ⟨rows, hnodup⟩ := t
  have hkeep : rows.filter (fun x => key x ≠ k) = rows := by
    rw [List.filter_eq_self]
    intro x hx
    simpa using List.find?_eq_none.1 h x hx
  simp only [erase, filter, hkeep]

theorem rows_put_of_none {t : Table ρ key} {r : ρ} (h : t.get (key r) = none) :
    (t.put r).rows = r :: t.rows := by
  have hkeep : t.rows.filter (fun x => key x ≠ key r) = t.rows := by
    rw [List.filter_eq_self]
    intro x hx
    have hne := List.find?_eq_none.1 h x hx
    simpa using hne
  show r :: t.rows.filter (fun x => key x ≠ key r) = r :: t.rows
  rw [hkeep]

/-- Rows of a kind that the row is not of, and does not replace. -/
theorem filter_rows_put {t : Table ρ key} {r : ρ} {p : ρ → Bool} (hr : p r = false)
    (h : ∀ x, p x = true → key x ≠ key r) : (t.put r).rows.filter p = t.rows.filter p := by
  have hrows : (t.put r).rows = r :: t.rows.filter fun x => key x ≠ key r := rfl
  rw [hrows, List.filter_cons_of_neg (by simp [hr]), List.filter_filter]
  refine List.filter_congr fun x _ => ?_
  cases hp : p x with
  | false => rfl
  | true => simp [h x hp]

/-- A row that `f` makes nothing of, in place of another such row or of none. -/
theorem filterMap_rows_put {β : Type} {t : Table ρ key} {r : ρ} {f : ρ → Option β}
    (hr : f r = none) (h : ∀ x ∈ t.get (key r), f x = none) :
    (t.put r).rows.filterMap f = t.rows.filterMap f := by
  have hrows : (t.put r).rows = r :: t.rows.filter fun x => key x ≠ key r := rfl
  rw [hrows, List.filterMap_cons_none hr, List.filterMap_filter]
  refine List.filterMap_congr fun x hx => ?_
  by_cases hkey : key x = key r
  · have hget : t.get (key r) = some x := get_eq_some_iff.2 ⟨hx, hkey⟩
    simp [hkey, h x hget]
  · simp [hkey]

theorem filter_put (t : Table ρ key) {r : ρ} {p : ρ → Bool} (hr : p r = true) :
    (t.put r).filter p = (t.filter p).put r := by
  refine eq_of_rows ?_
  show (r :: t.rows.filter fun x => key x ≠ key r).filter p =
    r :: (t.rows.filter p).filter fun x => key x ≠ key r
  rw [List.filter_cons_of_pos hr, List.filter_filter, List.filter_filter]
  congr 2
  exact funext fun x => Bool.and_comm _ _

/-- A row without `p`, in place of another such row or of none. -/
theorem filter_put_other {t : Table ρ key} {r : ρ} {p : ρ → Bool} (hr : p r = false)
    (h : ∀ x ∈ t.get (key r), p x = false) : (t.put r).filter p = t.filter p := by
  have hguard : ∀ {x}, p x = false → Option.guard p x = none := fun hx =>
    Option.guard_eq_none_iff.2 (by simpa using hx)
  have hrows := filterMap_rows_put (t := t) (hguard hr) fun x hx => hguard (h x hx)
  rw [List.filterMap_eq_filter] at hrows
  exact eq_of_rows hrows

theorem filter_rows_erase {t : Table ρ key} {k : κ} {p : ρ → Bool}
    (h : ∀ x, p x = true → key x ≠ k) : (t.erase k).rows.filter p = t.rows.filter p := by
  have hrows : (t.erase k).rows = t.rows.filter fun x => key x ≠ k := rfl
  rw [hrows, List.filter_filter]
  refine List.filter_congr fun x _ => ?_
  cases hp : p x with
  | false => rfl
  | true => simp [h x hp]

/-! ## How many rows there are of a kind -/

section Count

variable {t : Table ρ key} {p : ρ → Bool}

/-- 1 for a row with `p`. -/
def one (p : ρ → Bool) (o : Option ρ) : Nat := if o.any p then 1 else 0

omit [DecidableEq κ] in
@[simp] theorem one_none : one p none = 0 := rfl

theorem countP_filter_key (k : κ) (rows : List ρ) (h : (rows.map key).Nodup) :
    (rows.filter fun x => key x ≠ k).countP p + one p (rows.find? fun x => key x = k) =
      rows.countP p := by
  induction rows with
  | nil => rfl
  | cons r rows ih =>
    rw [List.map_cons, List.nodup_cons] at h
    by_cases hk : key r = k
    · have hrest : rows.filter (fun x => key x ≠ k) = rows := by
        rw [List.filter_eq_self]
        intro x hx
        simp only [ne_eq, decide_not, Bool.not_eq_true', decide_eq_false_iff_not]
        rintro rfl
        exact h.1 (hk ▸ List.mem_map_of_mem hx)
      rw [List.filter_cons_of_neg (by simpa using hk), List.find?_cons_of_pos (by simpa using hk),
        hrest, List.countP_cons]
      rfl
    · have hrest := ih h.2
      rw [List.filter_cons_of_pos (by simpa using hk), List.find?_cons_of_neg (by simpa using hk),
        List.countP_cons, List.countP_cons]
      omega

theorem countP_erase (t : Table ρ key) (p : ρ → Bool) (k : κ) :
    (t.erase k).rows.countP p + one p (t.get k) = t.rows.countP p :=
  countP_filter_key k t.rows t.nodup

theorem countP_put (t : Table ρ key) (p : ρ → Bool) (r : ρ) :
    (t.put r).rows.countP p + one p (t.get (key r)) = t.rows.countP p + one p (some r) := by
  have hrest := countP_filter_key (p := p) (key r) t.rows t.nodup
  have hcons : (t.put r).rows.countP p =
      (t.rows.filter fun x => key x ≠ key r).countP p + one p (some r) := List.countP_cons
  rw [hcons, get]
  omega

/-- Rows with the same content under every key are as many. -/
theorem countP_congr {t' : Table ρ key} (h : ∀ k, t'.get k = t.get k) :
    t'.rows.countP p = t.rows.countP p := by
  have hperm : t'.rows.Perm t.rows := by
    refine (List.perm_ext_iff_of_nodup t'.nodup.of_map t.nodup.of_map).2 fun r => ?_
    rw [mem_rows_iff, mem_rows_iff, h]
  exact hperm.countP_eq p

end Count

/-! ## At most one row of a kind in each group -/

section AtMostOne

variable {γ : Type} {t : Table ρ key} {p : ρ → Bool} {g : ρ → γ}

/-- No two rows with `p` are in the same group. -/
def AtMostOne (t : Table ρ key) (p : ρ → Bool) (g : ρ → γ) : Prop :=
  ∀ r ∈ t.rows, ∀ s ∈ t.rows, p r = true → p s = true → g r = g s → r = s

instance [DecidableEq ρ] [DecidableEq γ] : Decidable (t.AtMostOne p g) :=
  inferInstanceAs (Decidable (∀ r ∈ t.rows, ∀ s ∈ t.rows, p r = true → p s = true → g r = g s →
    r = s))

omit [DecidableEq κ] in
theorem atMostOne_empty : (empty : Table ρ key).AtMostOne p g := by
  simp [AtMostOne, empty]

omit [DecidableEq κ] in
theorem AtMostOne.filter (h : t.AtMostOne p g) (q : ρ → Bool) : (t.filter q).AtMostOne p g :=
  fun r hr s hs => h r (mem_filter_rows.1 hr).1 s (mem_filter_rows.1 hs).1

theorem AtMostOne.erase (h : t.AtMostOne p g) (k : κ) : (t.erase k).AtMostOne p g := h.filter _

/-- A row may be put unless its group has another one with `p`. -/
theorem atMostOne_put_iff (h : t.AtMostOne p g) (r : ρ) : (t.put r).AtMostOne p g ↔
    (p r = true → ∀ s ∈ t.rows, key s ≠ key r → p s = true → g s ≠ g r) := by
  constructor
  · intro hone hr s hs hkey hps hg
    have hsame := hone s (mem_put_rows.2 (.inr ⟨hs, hkey⟩)) r (mem_put_rows.2 (.inl rfl)) hps hr hg
    exact hkey (congrArg key hsame)
  · intro hother a ha b hb hpa hpb hg
    rcases mem_put_rows.1 ha with har | ⟨ha', hak⟩
    · subst har
      rcases mem_put_rows.1 hb with hbr | ⟨hb', hbk⟩
      · exact hbr.symm
      · exact absurd hg.symm (hother hpa b hb' hbk hpb)
    · rcases mem_put_rows.1 hb with hbr | ⟨hb', _⟩
      · subst hbr
        exact absurd hg (hother hpb a ha' hak hpa)
      · exact h a ha' b hb' hpa hpb hg

/-- A row with `p` keeps the others out of its group. -/
theorem AtMostOne.others (h : t.AtMostOne p g) {r : ρ} (hr : t.get (key r) = some r)
    (hp : p r = true) : ∀ s ∈ t.rows, key s ≠ key r → p s = true → g s ≠ g r := by
  intro s hs hkey hps hg
  exact hkey (congrArg key (h s hs r (mem_rows_iff.2 hr) hps hp hg))

/-- A row with `p` is stored under another key than one without. -/
theorem key_ne_of_not {k : κ} {r s : ρ} (hr : t.get k = some r) (hp : p r = false) (hs : s ∈ t.rows)
    (hps : p s = true) : key s ≠ k := by
  rintro rfl
  rw [mem_rows_iff.1 hs] at hr
  cases hr
  rw [hp] at hps
  cases hps

end AtMostOne

end Table

end Lib
