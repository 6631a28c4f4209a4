import Mathlib.Tactic.Common
import Meno.Lib.Keyset

/-!
# Lib.Select

The part of SQL's `SELECT` that keyset pagination is written in: conditions with three truth values,
the comparison of a row of expressions with a row of values, `ORDER BY` with directions and places
for the `NULL`s, and `LIMIT`. `seek_iff_before` says when the comparison that continues a listing
agrees with the order that the listing is in.
-/

namespace Lib.Sql

open Std

variable {ρ κ : Type}

/-- What a statement can be refused for before it looks at a row. -/
inductive SyntaxError where
  | sortClause
  | unequalEntries
deriving DecidableEq, Repr

/-! ## Order -/

inductive Direction where
  | asc
  | desc
deriving DecidableEq, Repr

inductive Nulls where
  | first
  | last
deriving DecidableEq, Repr

/-- The words that may follow an expression of an `ORDER BY`. -/
inductive SortWord where
  | dir (d : Direction)
  | nulls (n : Nulls)
deriving DecidableEq, Repr

/-- `[ASC | DESC] [NULLS {FIRST | LAST}]`. A `NULL` counts as greater than every value, if the
statement does not say where to put it. -/
def sortClause : List SortWord → Except SyntaxError (Direction × Nulls)
  | [] => .ok (.asc, .last)
  | [.dir .asc] => .ok (.asc, .last)
  | [.dir .desc] => .ok (.desc, .first)
  | [.nulls n] => .ok (.asc, n)
  | [.dir d, .nulls n] => .ok (d, n)
  | _ => .error .sortClause

/-- An expression of an `ORDER BY`, and the words behind it. -/
structure SortItem (ρ κ : Type) where
  expr : ρ → Option κ
  words : List SortWord

/-- An expression of an `ORDER BY`, and what the words behind it mean. -/
structure SortKey (ρ κ : Type) where
  expr : ρ → Option κ
  dir : Direction
  nulls : Nulls

def SortItem.key (item : SortItem ρ κ) : Except SyntaxError (SortKey ρ κ) := do
  let (dir, nulls) ← sortClause item.words
  return { expr := item.expr, dir, nulls }

/-! ## Conditions -/

inductive CompareOp where
  | lt
  | gt
deriving DecidableEq, Repr

def CompareOp.holds : CompareOp → Ordering → Bool
  | .lt, o => o.isLT
  | .gt, o => o.isGT

/-- `(expr, ..) op (value, ..)`. -/
structure RowCondition (ρ κ : Type) where
  exprs : List (ρ → Option κ)
  op : CompareOp
  values : List κ

/-- A statement over rows that the `FROM` clause has put together. -/
structure Select (ρ κ : Type) where
  conditions : List (ρ → Option Bool)
  seek : Option (RowCondition ρ κ) := none
  orderBy : List (SortItem ρ κ) := []
  limit : Option Nat := none

namespace Select

/-- `AND ..`. -/
def and (s : Select ρ κ) (c : ρ → Option Bool) : Select ρ κ :=
  { s with conditions := s.conditions ++ [c] }

/-- `AND ..` with a parameter, where there is one. -/
def andIf {α : Type} (s : Select ρ κ) (p : Option α) (c : α → ρ → Option Bool) : Select ρ κ :=
  match p with
  | none => s
  | some a => s.and (c a)

/-- The row passes the conditions, whatever position the statement goes on from. -/
def matching (s : Select ρ κ) (r : ρ) : Bool := s.conditions.all fun c => c r == some true

@[simp] theorem matching_where (c : ρ → Option Bool) (r : ρ) :
    ({ conditions := [c] } : Select ρ κ).matching r = (c r == some true) := by
  simp [matching]

@[simp] theorem matching_and (s : Select ρ κ) (c : ρ → Option Bool) (r : ρ) :
    (s.and c).matching r = (s.matching r && c r == some true) := by
  simp [matching, and]

@[simp] theorem matching_andIf {α : Type} (s : Select ρ κ) (p : Option α)
    (c : α → ρ → Option Bool) (r : ρ) :
    (s.andIf p c).matching r = (s.matching r && p.all fun a => c a r == some true) := by
  cases p <;> simp [andIf]

@[simp] theorem seek_and (s : Select ρ κ) (c : ρ → Option Bool) : (s.and c).seek = s.seek :=
  rfl

@[simp] theorem seek_andIf {α : Type} (s : Select ρ κ) (p : Option α)
    (c : α → ρ → Option Bool) : (s.andIf p c).seek = s.seek := by
  cases p <;> rfl

end Select

variable [Ord κ]

/-- Entries are compared from the left up to the first that differ. If one of these is `NULL`, the
comparison is neither true nor false. -/
def compareRow (op : CompareOp) : List (Option κ) → List κ → Option Bool
  | none :: _, _ :: _ => none
  | some x :: xs, y :: ys =>
    match compare x y with
    | .eq => compareRow op xs ys
    | o => some (op.holds o)
  | _, _ => some false

def RowCondition.eval (c : RowCondition ρ κ) (r : ρ) : Option Bool :=
  compareRow c.op (c.exprs.map (· r)) c.values

/-! ## Order -/

def Direction.compare (d : Direction) (x y : κ) : Ordering :=
  match d with
  | .asc => Ord.compare x y
  | .desc => Ord.compare y x

def compareNulls (d : Direction) (n : Nulls) : Option κ → Option κ → Ordering
  | none, none => .eq
  | none, some _ => match n with
    | .first => .lt
    | .last => .gt
  | some _, none => match n with
    | .first => .gt
    | .last => .lt
  | some x, some y => d.compare x y

def SortKey.compare (k : SortKey ρ κ) (a b : ρ) : Ordering :=
  compareNulls k.dir k.nulls (k.expr a) (k.expr b)

/-- The first expression in which two rows differ decides. -/
def compareKeys : List (SortKey ρ κ) → ρ → ρ → Ordering
  | [], _, _ => .eq
  | k :: ks, a, b => (k.compare a b).then (compareKeys ks a b)

def keysLE (keys : List (SortKey ρ κ)) (a b : ρ) : Bool := (compareKeys keys a b).isLE

/-- The rows in the order of the keys. -/
def sort (keys : List (SortKey ρ κ)) (rows : List ρ) : List ρ := rows.mergeSort (keysLE keys)

namespace Select

def beyond (s : Select ρ κ) (r : ρ) : Bool := s.seek.all fun c => c.eval r == some true

def cut (s : Select ρ κ) (rows : List ρ) : List ρ :=
  match s.limit with
  | none => rows
  | some n => rows.take n

def run (s : Select ρ κ) (rows : List ρ) : Except SyntaxError (List ρ) :=
  match s.orderBy.mapM SortItem.key with
  | .error e => .error e
  | .ok keys =>
    if s.seek.any fun c => c.exprs.length != c.values.length then .error .unequalEntries
    else .ok (s.cut (sort keys (rows.filter fun r => s.matching r && s.beyond r)))

end Select

/-! ## What a statement needs to be read -/

def SortWord.isNulls : SortWord → Bool
  | .dir _ => false
  | .nulls _ => true

/-- The comparison has as many expressions as values, and no expression of the `ORDER BY` says more
than once where its `NULL`s go. -/
structure Select.WellFormed (s : Select ρ κ) : Prop where
  seek : ∀ c, s.seek = some c → c.exprs.length = c.values.length
  orderBy : ∀ item ∈ s.orderBy, item.words.countP SortWord.isNulls ≤ 1

theorem nulls_of_sortClause {words : List SortWord} {d : Direction × Nulls}
    (h : sortClause words = .ok d) : words.countP SortWord.isNulls ≤ 1 := by
  unfold sortClause at h
  split at h
  · decide
  · decide
  · decide
  · exact Nat.le_refl 1
  · exact Nat.le_refl 1
  · cases h

omit [Ord κ] in
theorem nulls_of_keys {items : List (SortItem ρ κ)} {keys : List (SortKey ρ κ)}
    (h : items.mapM SortItem.key = .ok keys) :
    ∀ item ∈ items, item.words.countP SortWord.isNulls ≤ 1 := by
  induction items generalizing keys with
  | nil => simp
  | cons item items ih =>
    rw [List.mapM_cons] at h
    cases hclause : sortClause item.words with
    | error e =>
      rw [SortItem.key, hclause] at h
      cases h
    | ok d =>
      cases hrest : items.mapM SortItem.key with
      | error e =>
        rw [SortItem.key, hclause, hrest] at h
        cases h
      | ok rest =>
        intro item' hitem'
        rcases List.mem_cons.1 hitem' with rfl | hitem'
        · exact nulls_of_sortClause hclause
        · exact ih hrest item' hitem'

/-- A statement that is run is well formed. -/
theorem wellFormed_of_run {s : Select ρ κ} {rows found : List ρ} (h : s.run rows = .ok found) :
    s.WellFormed := by
  unfold Select.run at h
  cases hkeys : s.orderBy.mapM SortItem.key with
  | error e => simp [hkeys] at h
  | ok keys =>
    refine ⟨fun c hc => ?_, nulls_of_keys hkeys⟩
    by_contra hlen
    simp [hkeys, hc, hlen] at h

/-! ## Laws of the order -/

theorem sort_perm (keys : List (SortKey ρ κ)) (rows : List ρ) : (sort keys rows).Perm rows :=
  List.mergeSort_perm rows _

theorem mem_sort {keys : List (SortKey ρ κ)} {rows : List ρ} {r : ρ} :
    r ∈ sort keys rows ↔ r ∈ rows :=
  (sort_perm keys rows).mem_iff

theorem eq_of_compareNulls [LawfulEqOrd κ] {d : Direction} {n : Nulls} {x y : Option κ}
    (h : compareNulls d n x y = .eq) : x = y := by
  cases x with
  | none =>
    cases y with
    | none => rfl
    | some y => cases n <;> cases h
  | some x =>
    cases y with
    | none => cases n <;> cases h
    | some y =>
      cases d with
      | asc => exact congrArg some (LawfulEqOrd.eq_of_compare h)
      | desc => exact congrArg some (LawfulEqOrd.eq_of_compare h).symm

/-- Rows that no key tells apart agree in every key. -/
theorem expr_eq_of_compareKeys [LawfulEqOrd κ] {keys : List (SortKey ρ κ)} {a b : ρ}
    (h : compareKeys keys a b = .eq) : ∀ k ∈ keys, k.expr a = k.expr b := by
  induction keys with
  | nil => simp
  | cons k ks ih =>
    simp only [compareKeys, Ordering.then_eq_eq] at h
    intro k' hk'
    rcases List.mem_cons.1 hk' with rfl | hk'
    · exact eq_of_compareNulls h.1
    · exact ih h.2 k' hk'

section Laws

variable [TransOrd κ]

instance (d : Direction) : TransCmp (d.compare : κ → κ → Ordering) :=
  match d with
  | .asc => inferInstanceAs (TransCmp (Ord.compare : κ → κ → Ordering))
  | .desc => inferInstanceAs (TransCmp fun x y : κ => Ord.compare y x)

instance (d : Direction) (n : Nulls) :
    TransCmp (compareNulls d n : Option κ → Option κ → Ordering) where
  eq_swap {a b} := by
    cases a <;> cases b <;> cases n <;>
      first | rfl | exact @OrientedCmp.eq_swap _ d.compare _ _ _
  isLE_trans {a b c} hab hbc := by
    cases a <;> cases b <;> cases c <;> cases n <;>
      first
      | rfl
      | exact @TransCmp.isLE_trans _ d.compare _ _ _ _ hab hbc
      | contradiction

theorem compareKeys_swap (keys : List (SortKey ρ κ)) (a b : ρ) :
    compareKeys keys a b = (compareKeys keys b a).swap := by
  induction keys with
  | nil => rfl
  | cons k ks ih =>
    have hk : k.compare a b = (k.compare b a).swap :=
      @OrientedCmp.eq_swap _ (compareNulls k.dir k.nulls) _ _ _
    simp only [compareKeys, Ordering.swap_then, ← ih, ← hk]

theorem keysLE_trans (keys : List (SortKey ρ κ)) (a b c : ρ) (hab : keysLE keys a b)
    (hbc : keysLE keys b c) : keysLE keys a c := by
  unfold keysLE at hab hbc ⊢
  induction keys with
  | nil => rfl
  | cons k ks ih =>
    simp only [compareKeys, Ordering.isLE_then_iff_and] at hab hbc ⊢
    have hcmp : ∀ x y, k.compare x y = compareNulls k.dir k.nulls (k.expr x) (k.expr y) :=
      fun _ _ => rfl
    simp only [hcmp] at hab hbc ⊢
    refine ⟨TransCmp.isLE_trans hab.1 hbc.1, ?_⟩
    rcases hab.2 with h1 | h1
    · exact .inl (TransCmp.lt_of_lt_of_isLE h1 hbc.1)
    · rcases hbc.2 with h2 | h2
      · exact .inl (TransCmp.lt_of_isLE_of_lt hab.1 h2)
      · exact .inr (ih h1 h2)

theorem keysLE_total (keys : List (SortKey ρ κ)) (a b : ρ) :
    keysLE keys a b || keysLE keys b a := by
  rw [keysLE, keysLE, compareKeys_swap keys b a]
  cases compareKeys keys a b <;> rfl

/-- No two of the rows are alike in every key. -/
def Identify (keys : List (SortKey ρ κ)) (rows : List ρ) : Prop :=
  ∀ a ∈ rows, ∀ b ∈ rows, compareKeys keys a b = .eq → a = b

theorem Identify.antisymm {keys : List (SortKey ρ κ)} {rows : List ρ} (h : Identify keys rows) :
    ∀ a ∈ rows, ∀ b ∈ rows, keysLE keys a b → keysLE keys b a → a = b := by
  intro a ha b hb hab hba
  refine h a ha b hb ?_
  rw [keysLE, compareKeys_swap] at hba
  rw [keysLE] at hab
  cases hcmp : compareKeys keys a b <;> simp_all

theorem sort_filter {keys : List (SortKey ρ κ)} {rows : List ρ} (h : Identify keys rows)
    (p : ρ → Bool) : sort keys (rows.filter p) = (sort keys rows).filter p :=
  (filter_mergeSort (keysLE_trans keys) (keysLE_total keys) rows h.antisymm p).symm

/-- Each row of a sorted list lies before all that follow. -/
theorem sort_pairwise {keys : List (SortKey ρ κ)} {rows : List ρ} (h : Identify keys rows)
    (hnodup : rows.Nodup) : (sort keys rows).Pairwise fun a b => compareKeys keys a b = .lt := by
  have hle : (sort keys rows).Pairwise fun a b => keysLE keys a b :=
    List.pairwise_mergeSort (keysLE_trans keys) (keysLE_total keys) rows
  have hne : (sort keys rows).Pairwise (· ≠ ·) := (sort_perm keys rows).nodup_iff.2 hnodup
  refine (hle.and hne).imp_of_mem fun {a b} ha hb hab => ?_
  have heq := h a (mem_sort.1 ha) b (mem_sort.1 hb)
  obtain ⟨hle, hne⟩ := hab
  rw [keysLE] at hle
  cases hcmp : compareKeys keys a b with
  | lt => rfl
  | eq => exact absurd (heq hcmp) hne
  | gt => simp [hcmp] at hle

omit [TransOrd κ] in
theorem filter_matching_beyond (s : Select ρ κ) (rows : List ρ) :
    (rows.filter fun r => s.matching r && s.beyond r) =
      (rows.filter s.matching).filter s.beyond := by
  rw [List.filter_filter]
  exact List.filter_congr fun r _ => Bool.and_comm _ _

theorem run_eq (s : Select ρ κ) {keys : List (SortKey ρ κ)} {rows : List ρ}
    (hkeys : s.orderBy.mapM SortItem.key = .ok keys)
    (hseek : ∀ c, s.seek = some c → c.exprs.length = c.values.length)
    (h : Identify keys (rows.filter s.matching)) :
    s.run rows = .ok (s.cut ((sort keys (rows.filter s.matching)).filter s.beyond)) := by
  have hany : (s.seek.any fun c => c.exprs.length != c.values.length) = false := by
    cases hc : s.seek with
    | none => rfl
    | some c => simp [hseek c hc]
  simp only [Select.run, hkeys, hany, Bool.false_eq_true, if_false]
  rw [filter_matching_beyond, sort_filter h]

omit [TransOrd κ] in
/-- A statement finds what it finds among the rows that match. -/
theorem run_congr (s : Select ρ κ) {rows rows' : List ρ}
    (h : rows'.filter s.matching = rows.filter s.matching) : s.run rows' = s.run rows := by
  simp only [Select.run, filter_matching_beyond, h]

/-- Where the keys tell all rows apart, the order they are stored in does not matter. -/
theorem sort_eq_of_perm {keys : List (SortKey ρ κ)} {rows rows' : List ρ}
    (h : Identify keys rows) (hperm : rows'.Perm rows) : sort keys rows' = sort keys rows := by
  have hle : ∀ rows : List ρ, (sort keys rows).Pairwise fun a b => keysLE keys a b :=
    List.pairwise_mergeSort (keysLE_trans keys) (keysLE_total keys)
  refine List.Perm.eq_of_pairwise ?_ (hle rows') (hle rows)
    ((sort_perm keys rows').trans (hperm.trans (sort_perm keys rows).symm))
  intro a b ha hb hab hba
  exact h.antisymm a (hperm.mem_iff.1 (mem_sort.1 ha)) b (mem_sort.1 hb) hab hba

theorem run_perm (s : Select ρ κ) {keys : List (SortKey ρ κ)} {rows rows' : List ρ}
    (hkeys : s.orderBy.mapM SortItem.key = .ok keys) (h : Identify keys (rows.filter s.matching))
    (hperm : (rows'.filter s.matching).Perm (rows.filter s.matching)) :
    s.run rows' = s.run rows := by
  have hrows : ∀ rows : List ρ, (rows.filter fun r => s.matching r && s.beyond r) =
      (rows.filter s.matching).filter s.beyond := by
    intro rows
    rw [List.filter_filter]
    exact List.filter_congr fun r _ => Bool.and_comm _ _
  have hid : Identify keys ((rows.filter s.matching).filter s.beyond) :=
    fun a ha b hb => h a (List.mem_filter.1 ha).1 b (List.mem_filter.1 hb).1
  simp only [Select.run, hkeys, hrows, sort_eq_of_perm hid (hperm.filter _)]

/-- A statement that goes on from a position of a listing finds what is left of it. -/
theorem run_eq_rest {s : Select ρ κ} {keys : List (SortKey ρ κ)} {rows : List ρ} {γ : Type}
    {F : Listing ρ γ} {pos : Option γ} {n : Nat} (hkeys : s.orderBy.mapM SortItem.key = .ok keys)
    (hseek : ∀ c, s.seek = some c → c.exprs.length = c.values.length) (hlimit : s.limit = some n)
    (h : Identify keys (rows.filter s.matching)) (hrows : F.rows = sort keys (rows.filter s.matching))
    (hpast : ∀ r, s.beyond r = F.past pos r) : s.run rows = .ok ((F.rest pos).take n) := by
  rw [run_eq s hkeys hseek h, Select.cut, hlimit, Listing.rest, hrows, funext hpast]

end Laws

/-! ## Going on from a row -/

/-- The comparison that continues a listing in direction `d`. -/
def Direction.op : Direction → CompareOp
  | .asc => .gt
  | .desc => .lt

/-- The same expressions, compared with what they were in the row `a`, tell the rows behind `a`
from the others, as long as the clause sorts by them alone and in one direction. -/
theorem seek_iff_before [OrientedOrd κ] (d : Direction) (n : Nulls) (exprs : List (ρ → Option κ))
    {a b : ρ} {values : List κ} (ha : exprs.map (· a) = values.map some)
    (hb : ∀ e ∈ exprs, e b ≠ none) :
    compareRow d.op (exprs.map (· b)) values = some true ↔
      compareKeys (exprs.map fun expr => { expr, dir := d, nulls := n }) a b = .lt := by
  induction exprs generalizing values with
  | nil =>
    cases values with
    | nil => simp [compareRow, compareKeys]
    | cons v vs => cases ha
  | cons e es ih =>
    cases values with
    | nil => cases ha
    | cons v vs =>
      obtain ⟨hv, hvs⟩ := List.cons.inj ha
      obtain ⟨x, hx⟩ := Option.ne_none_iff_exists'.1 (hb e List.mem_cons_self)
      have ih := ih hvs fun e' he' => hb e' (List.mem_cons_of_mem _ he')
      dsimp only at hv hx
      simp only [List.map_cons, compareKeys, SortKey.compare, hv, hx, compareRow, compareNulls]
      cases d with
      | asc =>
        have hswap : compare v x = (compare x v).swap := OrientedOrd.eq_swap
        simp only [Direction.compare, hswap]
        cases compare x v with
        | lt => simp [CompareOp.holds, Direction.op]
        | eq => simpa using ih
        | gt => simp [CompareOp.holds, Direction.op]
      | desc =>
        simp only [Direction.compare]
        cases compare x v with
        | lt => simp [CompareOp.holds, Direction.op]
        | eq => simpa using ih
        | gt => simp [CompareOp.holds, Direction.op]

/-- `ORDER BY e₁ dir, e₂ dir, ..`. -/
def sameKeys (d : Direction) (n : Nulls) (exprs : List (ρ → Option κ)) : List (SortKey ρ κ) :=
  exprs.map fun expr => { expr, dir := d, nulls := n }

/-- The rows in the order of the expressions; a position is what the expressions were in a row. -/
def listing (d : Direction) (n : Nulls) (exprs : List (ρ → Option κ)) (cursor : ρ → List κ)
    (rows : List ρ) : Listing ρ (List κ) where
  rows := sort (sameKeys d n exprs) rows
  cursor := cursor
  beyond values r := compareRow d.op (exprs.map (· r)) values == some true

theorem listing_cuts [TransOrd κ] {d : Direction} {n : Nulls} {exprs : List (ρ → Option κ)}
    {cursor : ρ → List κ} {rows : List ρ} (hid : Identify (sameKeys d n exprs) rows)
    (hnodup : rows.Nodup) (hcursor : ∀ r ∈ rows, exprs.map (· r) = (cursor r).map some)
    (limit : Nat) : (listing d n exprs cursor rows).Cuts limit := by
  refine Listing.cuts_of_pairwise limit (sort_pairwise hid hnodup) ?_ ?_
  · intro a b hab hba
    rw [compareKeys_swap, hba] at hab
    cases hab
  · intro a ha b hb
    have ha := hcursor a (mem_sort.1 ha)
    have hb := hcursor b (mem_sort.1 hb)
    have hsome : ∀ e ∈ exprs, e b ≠ none := by
      intro e he hnone
      have : e b ∈ (cursor b).map some := by
        rw [← hb]
        exact List.mem_map_of_mem he
      simp [hnone] at this
    simpa [listing, sameKeys] using seek_iff_before d n exprs ha hsome

end Lib.Sql
