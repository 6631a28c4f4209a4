import Meno.Shared.Pagination

/-!
# Meno.Shared.Repository

What the list queries of the repositories share: the values that PostgreSQL compares, the cursor
condition, the order and the limit. `timestamp_walk` is the walk through a listing by time and id.
-/

namespace Meno

open Lib Lib.Sql Std

theorem Uuid.lt_iff {a b : Uuid} : a < b ↔ a.bits.toNat < b.bits.toNat :=
  lt_iff_not_ge.trans Nat.not_le

/-! ## Values -/

/-- A value of a column, as comparisons see it. `collated` is a text's place in the order of the
database's collation. -/
inductive SqlValue where
  | timestamptz (t : OffsetDateTime)
  | uuid (id : Uuid)
  | bigint (n : Int)
  | text (collated : List Int)
deriving DecidableEq

namespace SqlValue

def key : SqlValue → List Int
  | timestamptz t => [0, t]
  | uuid id => [1, id.bits.toNat]
  | bigint n => [2, n]
  | text s => 3 :: s

theorem key_inj {a b : SqlValue} (h : a.key = b.key) : a = b := by
  cases a <;> cases b <;> simp [key] at h ⊢
  case uuid.uuid => exact Uuid.toNat_inj (by exact_mod_cast h)
  all_goals exact h

instance : Ord SqlValue := ⟨compareOn key⟩

instance : TransOrd SqlValue := inferInstanceAs (TransCmp (compareOn key))

instance : LawfulEqOrd SqlValue where
  eq_of_compare h := key_inj (LawfulEqOrd.eq_of_compare h)

theorem compare_timestamptz (a b : OffsetDateTime) :
    compare (timestamptz a) (timestamptz b) = compare a b := by
  change compare [0, a] [0, b] = compare a b
  simp [List.compare_cons_cons]

theorem compare_uuid (a b : Uuid) :
    compare (uuid a) (uuid b) = compare (a.bits.toNat : Int) b.bits.toNat := by
  change compare [1, (a.bits.toNat : Int)] [1, (b.bits.toNat : Int)] = _
  simp [List.compare_cons_cons]

end SqlValue

/-! ## Errors -/

inductive FetchError where
  | statement (e : SyntaxError)
  | invalidByteSequence
  | datetimeOutOfRange
  | columnDecode
deriving DecidableEq

inductive ListError where
  | cursor (e : CursorError)
  | database (e : FetchError)
deriving DecidableEq

/-! ## Queries -/

/-- How the finders that go by time take their cursor apart. -/
def timestampCursor (t : CursorText) :
    Option Cursor → Except ListError (Option OffsetDateTime × Option Uuid)
  | none => .ok (none, none)
  | some c =>
    match c.toTimestampId t with
    | .ok (ts, id) => .ok (some ts, some id)
    | .error e => .error (.cursor e)

section Queries

variable {ρ : Type}

def pushCursorCondition (qb : Select ρ SqlValue) (tsCol idCol : ρ → Option SqlValue)
    (cursorTs : Option OffsetDateTime) (cursorId : Option Uuid) (order : Order) :
    Select ρ SqlValue :=
  match cursorTs, cursorId with
  | some ts, some id =>
    { qb with
      seek := some {
        exprs := [tsCol, idCol]
        op := order.cursorOp
        values := [.timestamptz ts, .uuid id] } }
  | _, _ => qb

def pushOrderAndLimit (qb : Select ρ SqlValue) (tsCol idCol : ρ → Option SqlValue) (order : Order)
    (limitPlusOne : Int) : Select ρ SqlValue :=
  { qb with
    orderBy := [⟨tsCol, order.sql⟩, ⟨idCol, order.sql⟩]
    limit := some limitPlusOne.toNat }

/-- The statement is prepared, the keywords are bound if it has any, and it is run. -/
def fetchAll (qb : Select ρ SqlValue) (keywords : Option String) (rows : List ρ) :
    Except ListError (List ρ) :=
  match qb.run rows with
  | .error e => .error (.database (.statement e))
  | .ok found =>
    if keywords.all storable then .ok found else .error (.database .invalidByteSequence)

theorem fetchAll_refused (qb : Select ρ SqlValue) {keywords : Option String} (rows : List ρ)
    (h : keywords.all storable = false) : ∃ e, fetchAll qb keywords rows = .error e := by
  unfold fetchAll
  cases qb.run rows with
  | error e => exact ⟨_, rfl⟩
  | ok found => exact ⟨_, if_neg (by simp [h])⟩

end Queries

namespace Order

def direction : Order → Direction
  | .desc => .desc
  | .asc => .asc

def nulls : Order → Nulls
  | .desc => .last
  | .asc => .first

theorem op_direction (o : Order) : o.direction.op = o.cursorOp := by cases o <;> rfl

/-- One order is the other, read backwards. -/
theorem compareKeys_other {ρ : Type} {o o' : Order} (h : o ≠ o')
    (exprs : List (ρ → Option SqlValue)) (a b : ρ) :
    compareKeys (sameKeys o.direction o.nulls exprs) a b =
      compareKeys (sameKeys o'.direction o'.nulls exprs) b a := by
  induction exprs with
  | nil => rfl
  | cons e es ih =>
    have hentry : ∀ x y : Option SqlValue, compareNulls o.direction o.nulls x y =
        compareNulls o'.direction o'.nulls y x := by
      intro x y
      cases o <;> cases o' <;> first | exact absurd rfl h | (cases x <;> cases y <;> rfl)
    exact congrArg₂ Ordering.then (hentry (e a) (e b)) ih

theorem mapM_key {ρ : Type} (o : Order) (exprs : List (ρ → Option SqlValue)) :
    (exprs.map fun e => (⟨e, o.sql⟩ : SortItem ρ SqlValue)).mapM SortItem.key =
      .ok (sameKeys o.direction o.nulls exprs) := by
  induction exprs with
  | nil => rfl
  | cons e es ih =>
    rw [List.map_cons, List.mapM_cons, ih]
    cases o <;> rfl

end Order

theorem identify_of_id {ρ : Type} {id : ρ → Uuid} {rows : List ρ} (hid : (rows.map id).Nodup)
    (d : Direction) (n : Nulls) {exprs : List (ρ → Option SqlValue)}
    (hmem : (fun r => some (.uuid (id r))) ∈ exprs) : Identify (sameKeys d n exprs) rows := by
  intro a ha b hb h
  have hids := expr_eq_of_compareKeys h ⟨fun r => some (.uuid (id r)), d, n⟩
    (List.mem_map.2 ⟨_, hmem, rfl⟩)
  simp only [Option.some.injEq, SqlValue.uuid.injEq] at hids
  exact List.inj_on_of_nodup_map hid ha hb hids

/-! ## Walks by time and id -/

section TimestampWalk

variable {ρ α : Type}

/-- Later in time, or as late and with a greater id. -/
def newerFirst (time : α → OffsetDateTime) (id : α → Uuid) (a b : α) : Prop :=
  time b < time a ∨ time b = time a ∧ id b < id a

variable {rows : List ρ} {time : ρ → OffsetDateTime} {id : ρ → Uuid}

/-- The two columns that such a listing goes by. -/
def timestampCols (time : ρ → OffsetDateTime) (id : ρ → Uuid) : List (ρ → Option SqlValue) :=
  [fun r => some (.timestamptz (time r)), fun r => some (.uuid (id r))]

def timestampPosition (time : ρ → OffsetDateTime) (id : ρ → Uuid) (r : ρ) : List SqlValue :=
  [.timestamptz (time r), .uuid (id r)]

theorem newerFirst_of_compareKeys {n : Nulls} {a b : ρ}
    (h : compareKeys (sameKeys .desc n (timestampCols time id)) a b = .lt) :
    newerFirst time id a b := by
  simp only [sameKeys, timestampCols, List.map_cons, List.map_nil, compareKeys, SortKey.compare,
    compareNulls, Direction.compare, SqlValue.compare_timestamptz, SqlValue.compare_uuid,
    Ordering.then_eq_lt, Std.compare_eq_lt, LawfulEqOrd.compare_eq_iff_eq] at h
  rcases h with h | ⟨heq, h | ⟨-, h⟩⟩
  · exact .inl h
  · exact .inr ⟨heq, Uuid.lt_iff.2 (by exact_mod_cast h)⟩
  · cases h

theorem identify_timestamp {d : Direction} {n : Nulls} (hid : (rows.map id).Nodup) :
    Identify (sameKeys d n (timestampCols time id)) rows :=
  identify_of_id hid d n (by simp [timestampCols])

/-- A query, for a cursor or none, that lists by time and id and continues by the same two. -/
structure ListsByTime (select : Option OffsetDateTime → Option Uuid → Select ρ SqlValue)
    (time : ρ → OffsetDateTime) (id : ρ → Uuid) (matching : ρ → Bool) (limit : Int) : Prop where
  matching : ∀ ts i, (select ts i).matching = matching
  first : (select none none).seek = none
  seek : ∀ ts i, (select (some ts) (some i)).seek =
    some { exprs := timestampCols time id, op := .lt, values := [.timestamptz ts, .uuid i] }
  orderBy : ∃ n, ∀ ts i, (select ts i).orderBy.mapM SortItem.key =
    .ok (sameKeys .desc n (timestampCols time id))
  limit : ∀ ts i, (select ts i).limit = some (limit.toNat + 1)

theorem listsByTime_push (qb : Select ρ SqlValue) (hseek : qb.seek = none) {limit : Int}
    (hpos : 0 ≤ limit) (time : ρ → OffsetDateTime) (id : ρ → Uuid) :
    ListsByTime
      (fun ts i => pushOrderAndLimit
        (pushCursorCondition qb (fun r => some (.timestamptz (time r))) (fun r => some (.uuid (id r)))
          ts i .desc)
        (fun r => some (.timestamptz (time r))) (fun r => some (.uuid (id r))) .desc (limit + 1))
      time id qb.matching limit where
  matching ts i := by cases ts <;> cases i <;> rfl
  first := hseek
  seek _ _ := rfl
  orderBy := ⟨.last, fun _ _ => rfl⟩
  limit _ _ := congrArg some (Int.toNat_add hpos (by decide))

variable {t : CursorText} {select : Option OffsetDateTime → Option Uuid → Select ρ SqlValue}
  {matching : ρ → Bool} {limit : Int} {item : ρ → α} {createdAt : α → OffsetDateTime}
  {itemId : α → Uuid}

/-- The page of a request: the cursor taken apart, the rows fetched, and the page made of them. -/
def timestampPage (t : CursorText) (select : Option OffsetDateTime → Option Uuid → Select ρ SqlValue)
    (keywords : Option String) (rows : List ρ) (limit : Int) (item : ρ → α) (createdAt : α → OffsetDateTime)
    (itemId : α → Uuid) (c : Option Cursor) : Except ListError (CursorPage α) := do
  let (ts, i) ← timestampCursor t c
  let found ← fetchAll (select ts i) keywords rows
  return .fromRows (found.map item) limit fun x => .fromTimestampId t (createdAt x) (itemId x)

theorem fetchAll_eq (h : ListsByTime select time id matching limit) {keywords : Option String}
    (hkw : keywords.all storable = true) {n : Nulls}
    (hkeys : ∀ ts i, (select ts i).orderBy.mapM SortItem.key =
      .ok (sameKeys .desc n (timestampCols time id)))
    (hid : ((rows.filter matching).map id).Nodup) (ts : Option OffsetDateTime) (i : Option Uuid)
    (hseek : ∀ c, (select ts i).seek = some c → c.exprs.length = c.values.length) :
    fetchAll (select ts i) keywords rows = .ok (((sort (sameKeys .desc n (timestampCols time id))
      (rows.filter matching)).filter (select ts i).beyond).take (limit.toNat + 1)) := by
  have hident : Identify (sameKeys .desc n (timestampCols time id))
      (rows.filter (select ts i).matching) := by
    rw [h.matching]
    exact identify_timestamp hid
  rw [fetchAll, run_eq (select ts i) (hkeys ts i) hseek hident, h.matching, Select.cut, h.limit]
  exact if_pos hkw

theorem timestamp_walk (h : ListsByTime select time id matching limit) {keywords : Option String}
    (hkw : keywords.all storable = true) (hpos : 0 < limit.toNat)
    (hid : ((rows.filter matching).map id).Nodup) (htime : ∀ r ∈ rows, representable (time r) = true)
    (hitem : ∀ r ∈ rows, createdAt (item r) = time r ∧ itemId (item r) = id r) :
    ∃ items, Walk (fun _ => timestampPage t select keywords rows limit item createdAt itemId) 0 none
        items ∧
      items.Perm ((rows.filter matching).map item) ∧
      items.Pairwise (newerFirst createdAt itemId) := by
  obtain ⟨n, hkeys⟩ := h.orderBy
  let F := listing .desc n (timestampCols time id) (timestampPosition time id) (rows.filter matching)
  have hrows : ∀ r ∈ F.rows, r ∈ rows := fun r hr => List.mem_of_mem_filter (mem_sort.1 hr)
  have hident := @identify_timestamp _ (rows.filter matching) time id .desc n hid
  have hnodup : (rows.filter matching).Nodup := List.Nodup.of_map id hid
  have hcuts : F.Cuts limit.toNat :=
    listing_cuts hident hnodup (fun r _ => rfl) limit.toNat
  have hanswered : Walk.Answered
      (fun _ => timestampPage t select keywords rows limit item createdAt itemId) F limit item fun x => .fromTimestampId t (createdAt x) (itemId x) := by
    intro _ c pos hcpos
    rcases hcpos with ⟨rfl, rfl⟩ | ⟨a, ha, rfl, rfl⟩
    · have hfetch := fetchAll_eq h hkw hkeys hid none none (by simp [h.first])
      have hbeyond : ∀ r, (select none none).beyond r = F.past none r := by
        intro r
        simp [Select.beyond, h.first, Listing.past]
      simp only [timestampPage, timestampCursor, ok_bind, hfetch, pure_ok, funext hbeyond]
      rfl
    · have hrepr := htime a (hrows a ha)
      obtain ⟨hcreated, hitemId⟩ := hitem a (hrows a ha)
      have hdecode := Cursor.toTimestampId_fromTimestampId (t := t) hrepr (id a)
      have hfetch := fetchAll_eq h hkw hkeys hid (some (time a)) (some (id a))
        (by simp [h.seek, timestampCols])
      have hbeyond : ∀ r, (select (some (time a)) (some (id a))).beyond r =
          F.past (some (F.cursor a)) r := by
        intro r
        simp only [Select.beyond, h.seek, Option.all_some]
        rfl
      simp only [timestampPage, timestampCursor, hcreated, hitemId, hdecode, ok_bind, hfetch,
        pure_ok, funext hbeyond]
      rfl
  refine ⟨F.rows.map item, ?_, ?_, ?_⟩
  · exact (Walk.walk_iff_visits hanswered hpos).2 ⟨F.rows, Listing.visits_of_cuts hpos hcuts, rfl⟩
  · exact (sort_perm _ _).map item
  · rw [List.pairwise_map]
    refine (sort_pairwise hident hnodup).imp_of_mem fun {a b} ha hb hab => ?_
    obtain ⟨ha1, ha2⟩ := hitem a (hrows a ha)
    obtain ⟨hb1, hb2⟩ := hitem b (hrows b hb)
    have hnewer := newerFirst_of_compareKeys hab
    simpa only [newerFirst, ha1, ha2, hb1, hb2] using hnewer

end TimestampWalk

end Meno
