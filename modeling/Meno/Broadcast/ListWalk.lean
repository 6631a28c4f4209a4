import Meno.Broadcast.Listing
import Meno.Broadcast.Ops
import Meno.Shared.UuidText

/-!
# Meno.Broadcast.ListWalk

Walks through the list of broadcasts. Five orders have each a cursor, a condition that goes on from
it and an `ORDER BY`; `broadcasts_listed_iff` says for which of them, and for which broadcasts, the
three agree.
-/

namespace Meno

open Lib Lib.Sql BroadcastRepository

/-- The times that a `TIMESTAMPTZ` column and an `OffsetDateTime` can hold. -/
def storedTime (ts : OffsetDateTime) : Bool := representable ts && timestamptz ts

/-- The row has values that the columns' types and `OffsetDateTime` can hold. -/
structure Broadcast.Stored (b : Broadcast) : Prop where
  createdAt : storedTime b.createdAt = true
  startTime : b.startTime.all storedTime = true
  endTime : b.endTime.all storedTime = true
  totalParticipants : b.totalParticipants.all isI64 = true

/-- The tables, with such values. -/
structure ListedDb where
  db : BroadcastDb
  broadcasts : ∀ b ∈ db.broadcasts.rows, b.Stored
  joinedTimes : ∀ p ∈ db.participants.rows, storedTime p.joinedAt = true

namespace BroadcastQuery

/-- The same request from `c` on. -/
def resume (query : BroadcastQuery) (c : Option Cursor) : BroadcastQuery :=
  { query with pagination := query.pagination.resume c }

/-- What the request asks to sort by. -/
def columns (rules : TextRules) (query : BroadcastQuery) : List (BroadcastListRow → Option SqlValue) :=
  match query.effectiveSort with
  | .createdAt => [BroadcastListRow.createdAt, BroadcastListRow.id]
  | .title => [BroadcastListRow.title rules, BroadcastListRow.createdAt, BroadcastListRow.id]
  | .startTime => [BroadcastListRow.startTime, BroadcastListRow.id]
  | .endTime => [BroadcastListRow.endTime, BroadcastListRow.id]
  | .totalParticipants => [BroadcastListRow.totalParticipants, BroadcastListRow.id]

def keys (rules : TextRules) (query : BroadcastQuery) : List (SortKey BroadcastListRow SqlValue) :=
  sameKeys query.effectiveOrder.direction query.effectiveOrder.nulls (query.columns rules)

/-- The broadcasts that the filters let through, in the order that is asked for. -/
def requested (rules : TextRules) (db : BroadcastDb) (query : BroadcastQuery)
    (requesterId : Option Uuid) : List BroadcastListRow :=
  Sql.sort (query.keys rules)
    ((broadcastRows db).filter (broadcastsWhere rules db query requesterId).matching)

end BroadcastQuery

/-- Whatever the clock shows at each request, a walk comes to its end, and shows the broadcasts that
are asked for, each once and in their order. -/
def ListsAll (t : CursorText) (rules : TextRules) (clock : Nat → OffsetDateTime) (db : BroadcastDb)
    (query : BroadcastQuery) (requesterId : Option Uuid) : Prop :=
  ∃ items, Walk (fun n c => BroadcastService.getBroadcastsFromDb t rules (clock n) db
      (query.resume c) requesterId) 0 none items ∧
    (query.requested rules db requesterId).mapM listItem = .ok items

/-! ## Times -/

theorem representable_of_stored {ts : OffsetDateTime} (h : storedTime ts = true) :
    representable ts = true := (Bool.and_eq_true _ _ ▸ h).1

/-- A time from a column is compared as it is. -/
theorem sentTime_of_stored {ts : OffsetDateTime} (h : storedTime ts = true) : sentTime ts = ts :=
  (sent_of_timestamptz (Bool.and_eq_true _ _ ▸ h).2).2

theorem bindCursorTime_of_stored {ts : OffsetDateTime} (h : storedTime ts = true) :
    bindCursorTime (some ts) = .ok () :=
  if_pos (decide_eq_true (sent_of_timestamptz (Bool.and_eq_true _ _ ▸ h).2).1)

/-! ## The statements -/

section

variable {t : CursorText} {rules : TextRules} {db : BroadcastDb} {query : BroadcastQuery}
  {requesterId : Option Uuid}

theorem matching_broadcastsSelect (cursor : BroadcastCursor) :
    (broadcastsSelect rules db query requesterId cursor).matching =
      (broadcastsWhere rules db query requesterId).matching := by
  obtain ⟨ts1, ts2, score, id⟩ := cursor
  unfold broadcastsSelect broadcastsSeek pushCursorCondition
  cases query.effectiveSort <;> cases ts1 <;> cases ts2 <;> cases score <;> cases id <;> rfl

theorem seek_broadcastsSelect (cursor : BroadcastCursor) :
    (broadcastsSelect rules db query requesterId cursor).seek =
      (broadcastsSeek query cursor { conditions := [] }).seek := by
  have hwhere : (broadcastsWhere rules db query requesterId).seek = none := by
    unfold broadcastsWhere
    cases query.onlySubscriptions.getD false <;> simp
  obtain ⟨ts1, ts2, score, id⟩ := cursor
  unfold broadcastsSelect broadcastsSeek pushCursorCondition
  cases query.effectiveSort <;> cases ts1 <;> cases ts2 <;> cases score <;> cases id <;>
    first | exact hwhere | rfl

theorem orderBy_broadcastsSelect (cursor : BroadcastCursor)
    (hsort : query.effectiveSort ≠ .startTime) :
    (broadcastsSelect rules db query requesterId cursor).orderBy.mapM SortItem.key =
      .ok (query.keys rules) := by
  unfold broadcastsSelect broadcastsOrderBy BroadcastQuery.keys BroadcastQuery.columns
  cases hs : query.effectiveSort with
  | startTime => exact absurd hs hsort
  | createdAt => exact Order.mapM_key _ [BroadcastListRow.createdAt, BroadcastListRow.id]
  | title =>
    exact Order.mapM_key _ [BroadcastListRow.title rules, BroadcastListRow.createdAt, BroadcastListRow.id]
  | endTime => exact Order.mapM_key _ [BroadcastListRow.endTime, BroadcastListRow.id]
  | totalParticipants => exact Order.mapM_key _ [BroadcastListRow.totalParticipants, BroadcastListRow.id]

/-- `NULLS LAST NULLS LAST`, or `NULLS FIRST NULLS LAST`. -/
theorem orderBy_startTime (cursor : BroadcastCursor) (hsort : query.effectiveSort = .startTime) :
    (broadcastsSelect rules db query requesterId cursor).orderBy.mapM SortItem.key =
      .error .sortClause := by
  unfold broadcastsSelect broadcastsOrderBy
  rw [hsort]
  cases query.effectiveOrder <;> rfl

/-- The cursor condition of `end_time` is no SQL. -/
theorem fetchAll_endTime (hsort : query.effectiveSort = .endTime) {cursor : BroadcastCursor}
    (hts1 : cursor.ts1.isSome) (hts2 : cursor.ts2.isSome) (hid : cursor.id.isSome)
    (rows : List BroadcastListRow) :
    fetchAll (broadcastsSelect rules db query requesterId cursor) query.keywords rows =
      .error (.database (.statement .unequalEntries)) := by
  obtain ⟨ts1, hts1⟩ := Option.isSome_iff_exists.1 hts1
  obtain ⟨ts2, hts2⟩ := Option.isSome_iff_exists.1 hts2
  obtain ⟨id, hid⟩ := Option.isSome_iff_exists.1 hid
  have hseek : (broadcastsSelect rules db query requesterId cursor).seek = some {
      exprs := [BroadcastListRow.endTime, BroadcastListRow.id]
      op := query.effectiveOrder.cursorOp
      values := [.timestamptz (sentTime ts2), .timestamptz (sentTime ts1), .uuid id] } := by
    unfold broadcastsSelect broadcastsSeek
    rw [hsort, hts1, hts2, hid]
    rfl
  have hkeys := @orderBy_broadcastsSelect rules db query requesterId cursor (by simp [hsort])
  rw [fetchAll, Select.run, hkeys, hseek]
  rfl

theorem broadcastRows_id : ((broadcastRows db).map fun r => r.broadcast.id).Nodup := by
  have h := db.broadcasts.nodup
  simpa [broadcastRows, Function.comp_def] using h

theorem matching_id :
    (((broadcastRows db).filter (broadcastsWhere rules db query requesterId).matching).map
      fun r => r.broadcast.id).Nodup :=
  broadcastRows_id.sublist (List.filter_sublist.map _)

theorem identify_keys :
    Identify (query.keys rules)
      ((broadcastRows db).filter (broadcastsWhere rules db query requesterId).matching) := by
  refine identify_of_id matching_id _ _ ?_
  unfold BroadcastQuery.columns
  cases query.effectiveSort <;> simp [BroadcastListRow.id, funext_iff]

theorem mem_requested {r : BroadcastListRow} (h : r ∈ query.requested rules db requesterId) :
    r.broadcast ∈ db.broadcasts.rows := by
  have h := List.mem_of_mem_filter (mem_sort.1 h)
  obtain ⟨b, hb, rfl⟩ := List.mem_map.1 h
  exact hb

theorem requested_nodup : (query.requested rules db requesterId).Nodup :=
  (sort_perm _ _).nodup_iff.2 (List.Nodup.of_map _ matching_id)

/-! ## Items -/

/-- The item of a row, where it has one. -/
def itemOf (row : BroadcastListRow) : BroadcastListItem where
  id := row.broadcast.id
  title := row.broadcast.title
  description := row.broadcast.description
  timeZone := row.broadcast.timeZone
  imageUrl := row.broadcast.imageUrl
  imageId := row.broadcast.imageId
  status := row.broadcast.status
  createdAt := row.broadcast.createdAt
  startTime := row.broadcast.startTime
  endTime := row.broadcast.endTime
  totalParticipants := row.broadcast.totalParticipants.getD 0
  creatorId := row.broadcast.creatorId
  creatorName := (row.creator.map User.fullName).getD "Unknown"
  creatorAvatarUrl := row.creator.bind User.avatarUrl
  creatorAvatarId := row.creator.bind User.avatarId

/-- All the rows can be read. -/
def NoNullCount (rows : List BroadcastListRow) : Prop :=
  ∀ r ∈ rows, r.broadcast.totalParticipants ≠ none

theorem mapM_listItem {rows : List BroadcastListRow} (h : NoNullCount rows) :
    rows.mapM listItem = .ok (rows.map itemOf) := by
  induction rows with
  | nil => rfl
  | cons r rows ih =>
    obtain ⟨n, hn⟩ := Option.ne_none_iff_exists'.1 (h r List.mem_cons_self)
    have hr : listItem r = .ok (itemOf r) := by simp [listItem, itemOf, hn]
    rw [List.mapM_cons, hr, ih fun r' hr' => h r' (List.mem_cons_of_mem _ hr')]
    rfl

theorem noNullCount_of_mapM {rows : List BroadcastListRow} {items : List BroadcastListItem}
    (h : rows.mapM listItem = .ok items) : NoNullCount rows := by
  induction rows generalizing items with
  | nil => simp [NoNullCount]
  | cons r rows ih =>
    rw [List.mapM_cons] at h
    obtain ⟨item, hitem, h⟩ := bind_eq_ok.1 h
    obtain ⟨rest, hrest, -⟩ := bind_eq_ok.1 h
    intro r' hr' hnone
    rcases List.mem_cons.1 hr' with rfl | hr'
    · simp [listItem, hnone] at hitem
    · exact ih hrest r' hr' hnone

/-- Of rows with one that cannot, none is. -/
theorem mapM_listItem_refused {rows : List BroadcastListRow} (h : ¬ NoNullCount rows) :
    rows.mapM listItem = .error (.database .columnDecode) := by
  induction rows with
  | nil => exact absurd (fun r hr => absurd hr (by simp)) h
  | cons r rows ih =>
    cases hn : r.broadcast.totalParticipants with
    | none =>
      have hr : listItem r = .error (.database .columnDecode) := by simp [listItem, hn]
      rw [List.mapM_cons, hr]
      rfl
    | some n =>
      have hrows : ¬ NoNullCount rows := by
        intro hrows
        refine h fun r' hr' => ?_
        rcases List.mem_cons.1 hr' with rfl | hr'
        · simp [hn]
        · exact hrows r' hr'
      have hr : listItem r = .ok (itemOf r) := by simp [listItem, itemOf, hn]
      rw [List.mapM_cons, hr, ih hrows]
      rfl

/-! ## Pages -/

/-- How the page of a sort makes cursors. The clock is looked at for `start_time` only. -/
def encodeCursor (t : CursorText) (sort : BroadcastSortBy) (r : BroadcastListItem) : Cursor :=
  match sort with
  | .endTime => .fromTimestampId t (r.endTime.getD r.createdAt) r.id
  | .totalParticipants => .fromScoreId t r.totalParticipants r.id
  | _ => .fromTimestampId t r.createdAt r.id

theorem buildBroadcastPage_eq {sort : BroadcastSortBy} (hsort : sort ≠ .startTime)
    (now : OffsetDateTime) (rows : List BroadcastListItem) (limit : Int) :
    BroadcastService.buildBroadcastPage t now rows limit sort =
      .fromRows rows limit (encodeCursor t sort) := by
  cases sort with
  | startTime => exact absurd rfl hsort
  | createdAt => rfl
  | title => rfl
  | endTime => rfl
  | totalParticipants => rfl

/-- A request with a cursor that can be read. -/
theorem getBroadcasts_of_cursor {c : Option Cursor} {cursor : BroadcastCursor}
    (hcursor : decodeCursor t query.effectiveSort c = .ok cursor) (now : OffsetDateTime) :
    BroadcastService.getBroadcastsFromDb t rules now db (query.resume c) requesterId =
      (do
        let rows ← fetchAll (broadcastsSelect rules db query requesterId cursor) query.keywords
          (broadcastRows db)
        bindCursorTime cursor.ts1
        let items ← rows.mapM listItem
        return BroadcastService.buildBroadcastPage t now items query.pagination.pageLimit
          query.effectiveSort) := by
  have h : BroadcastService.getBroadcastsFromDb t rules now db (query.resume c) requesterId =
      (do
        let cursor ← decodeCursor t query.effectiveSort c
        let rows ← fetchAll (broadcastsSelect rules db query requesterId cursor) query.keywords
          (broadcastRows db)
        bindCursorTime cursor.ts1
        let items ← rows.mapM listItem
        return BroadcastService.buildBroadcastPage t now items query.pagination.pageLimit
          query.effectiveSort) := by
    unfold BroadcastService.getBroadcastsFromDb findBroadcasts
    simp only [bind_assoc]
    rfl
  rw [h, hcursor, ok_bind]

variable {κ : Type} {F : Listing BroadcastListRow κ}

/-- A request that stands where the listing stands at `pos` is answered from there. -/
theorem page_of_rest (hsort : query.effectiveSort ≠ .startTime)
    (hkw : query.keywords.all storable = true)
    (hcounted : NoNullCount (query.requested rules db requesterId))
    (hrows : F.rows = query.requested rules db requesterId) {c : Option Cursor} {pos : Option κ}
    {cursor : BroadcastCursor} (hcursor : decodeCursor t query.effectiveSort c = .ok cursor)
    (hbound : bindCursorTime cursor.ts1 = .ok ())
    (hseek : ∀ s, (broadcastsSelect rules db query requesterId cursor).seek = some s →
      s.exprs.length = s.values.length)
    (hpast : ∀ r, (broadcastsSelect rules db query requesterId cursor).beyond r = F.past pos r)
    (now : OffsetDateTime) :
    BroadcastService.getBroadcastsFromDb t rules now db (query.resume c) requesterId =
      .ok (.fromRows (((F.rest pos).take (query.pagination.pageLimit.toNat + 1)).map itemOf)
        query.pagination.pageLimit (encodeCursor t query.effectiveSort)) := by
  have hident : Identify (query.keys rules) ((broadcastRows db).filter
      (broadcastsSelect rules db query requesterId cursor).matching) := by
    rw [matching_broadcastsSelect]
    exact identify_keys
  have hlimit : (broadcastsSelect rules db query requesterId cursor).limit =
      some (query.pagination.pageLimit.toNat + 1) :=
    congrArg some query.pagination.toNat_limitPlusOne
  have hrun := run_eq_rest (orderBy_broadcastsSelect cursor hsort) hseek hlimit hident
    (by rw [hrows, matching_broadcastsSelect]; rfl) hpast
  have hfound : NoNullCount ((F.rest pos).take (query.pagination.pageLimit.toNat + 1)) := by
    intro r hr
    refine hcounted r ?_
    rw [← hrows]
    exact List.mem_of_mem_filter (List.mem_of_mem_take hr)
  rw [getBroadcasts_of_cursor hcursor, fetchAll, hrun, hbound]
  simp only [hkw, if_true, ok_bind, mapM_listItem hfound, pure_ok, buildBroadcastPage_eq hsort]

/-- The first request. -/
theorem page_first (hsort : query.effectiveSort ≠ .startTime)
    (hkw : query.keywords.all storable = true)
    (hcounted : NoNullCount (query.requested rules db requesterId))
    (hrows : F.rows = query.requested rules db requesterId) (now : OffsetDateTime) :
    BroadcastService.getBroadcastsFromDb t rules now db (query.resume none) requesterId =
      .ok (.fromRows (((F.rest none).take (query.pagination.pageLimit.toNat + 1)).map itemOf)
        query.pagination.pageLimit (encodeCursor t query.effectiveSort)) := by
  have hseek : (broadcastsSelect rules db query requesterId
      { ts1 := none, ts2 := none, score := none, id := none }).seek = none := by
    unfold broadcastsSelect broadcastsSeek pushCursorCondition broadcastsWhere
    cases query.effectiveSort <;> cases query.onlySubscriptions.getD false <;> simp
  refine page_of_rest hsort hkw hcounted hrows rfl rfl ?_ ?_ now
  · simp [hseek]
  · intro r
    simp [Select.beyond, hseek, Listing.past]

theorem itemOf_inj {a b : BroadcastListRow} (ha : a ∈ query.requested rules db requesterId)
    (hb : b ∈ query.requested rules db requesterId) (h : itemOf a = itemOf b) : a = b :=
  List.inj_on_of_nodup_map matching_id (mem_sort.1 ha) (mem_sort.1 hb)
    (congrArg BroadcastListItem.id h)

/-- A walk that shows what a listing shows. -/
theorem listsAll_iff_visits {clock : Nat → OffsetDateTime}
    (hrows : F.rows = query.requested rules db requesterId)
    (hanswered : NoNullCount (query.requested rules db requesterId) →
      Walk.Answered (fun n c => BroadcastService.getBroadcastsFromDb t rules (clock n) db
        (query.resume c) requesterId) F query.pagination.pageLimit itemOf
        (encodeCursor t query.effectiveSort)) :
    ListsAll t rules clock db query requesterId ↔
      NoNullCount (query.requested rules db requesterId) ∧
        F.Visits query.pagination.pageLimit.toNat none F.rows := by
  have hpos := query.pagination.toNat_pageLimit_pos
  constructor
  · rintro ⟨items, hwalk, hitems⟩
    have hcounted := noNullCount_of_mapM hitems
    refine ⟨hcounted, ?_⟩
    obtain ⟨xs, hvisits, rfl⟩ := (Walk.walk_iff_visits (hanswered hcounted) hpos).1 hwalk
    rw [mapM_listItem hcounted, Except.ok.injEq, ← hrows] at hitems
    have hxs : xs = F.rows := by
      refine (eq_of_map_eq (fun a ha b hb h => ?_) hitems).symm
      rw [hrows] at ha
      exact itemOf_inj ha (hrows ▸ hvisits.mem b hb) h
    rwa [hxs] at hvisits
  · rintro ⟨hcounted, hvisits⟩
    refine ⟨F.rows.map itemOf, ?_, ?_⟩
    · exact (Walk.walk_iff_visits (hanswered hcounted) hpos).2 ⟨F.rows, hvisits, rfl⟩
    · rw [hrows]
      exact mapM_listItem hcounted

/-! ## The five orders -/

/-- The statement goes on from what the cursor of a row says about the columns `exprs`. -/
def GoesOn (t : CursorText) (rules : TextRules) (db : BroadcastDb) (query : BroadcastQuery)
    (requesterId : Option Uuid) (exprs : List (BroadcastListRow → Option SqlValue))
    (values : List SqlValue) (a : BroadcastListRow) : Prop :=
  ∃ cursor, decodeCursor t query.effectiveSort
      (some (encodeCursor t query.effectiveSort (itemOf a))) = .ok cursor ∧
    bindCursorTime cursor.ts1 = .ok () ∧
    (broadcastsSelect rules db query requesterId cursor).seek =
      some { exprs, op := query.effectiveOrder.cursorOp, values }

/-- An order in which the cursor and the condition go by the columns that are sorted by. -/
theorem listsAll_of_goesOn (values : BroadcastListRow → List SqlValue) {clock : Nat → OffsetDateTime}
    {exprs : List (BroadcastListRow → Option SqlValue)}
    (hsort : query.effectiveSort ≠ .startTime) (hkw : query.keywords.all storable = true)
    (hcolumns : query.columns rules = exprs)
    (hvalues : NoNullCount (query.requested rules db requesterId) →
      ∀ r ∈ query.requested rules db requesterId, exprs.map (· r) = (values r).map some ∧
        GoesOn t rules db query requesterId exprs (values r) r) :
    ListsAll t rules clock db query requesterId ↔
      NoNullCount (query.requested rules db requesterId) := by
  let F := listing query.effectiveOrder.direction query.effectiveOrder.nulls exprs values
    ((broadcastRows db).filter (broadcastsWhere rules db query requesterId).matching)
  have hrows : F.rows = query.requested rules db requesterId := by
    change Sql.sort (sameKeys _ _ exprs) _ = _
    rw [← hcolumns]
    rfl
  have hpos := query.pagination.toNat_pageLimit_pos
  refine (listsAll_iff_visits hrows ?_).trans ?_
  · intro hcounted n c pos hat
    rcases hat with ⟨rfl, rfl⟩ | ⟨a, ha, rfl, rfl⟩
    · exact page_first hsort hkw hcounted hrows (clock n)
    · rw [hrows] at ha
      obtain ⟨hexprs, cursor, hcursor, hbound, hseek⟩ := hvalues hcounted a ha
      refine page_of_rest hsort hkw hcounted hrows hcursor hbound ?_ ?_ (clock n)
      · intro s hs
        rw [hseek, Option.some.injEq] at hs
        have := congrArg List.length hexprs
        simpa [← hs] using this
      · intro r
        simp only [Select.beyond, hseek, Option.all_some, RowCondition.eval,
          ← Order.op_direction]
        rfl
  · refine ⟨And.left, fun hcounted => ⟨hcounted, ?_⟩⟩
    have hident : Identify (sameKeys query.effectiveOrder.direction query.effectiveOrder.nulls exprs)
        ((broadcastRows db).filter (broadcastsWhere rules db query requesterId).matching) := by
      rw [← hcolumns]
      exact identify_keys
    refine Listing.visits_of_cuts hpos (listing_cuts hident (List.Nodup.of_map _ matching_id) ?_ _)
    intro r hr
    exact (hvalues hcounted r (mem_sort.2 hr)).1

end

section

variable {t : CursorText} {rules : TextRules} {ldb : ListedDb} {query : BroadcastQuery}
  {requesterId : Option Uuid} {clock : Nat → OffsetDateTime}

theorem listsAll_createdAt (hsort : query.effectiveSort = .createdAt)
    (hkw : query.keywords.all storable = true) :
    ListsAll t rules clock ldb.db query requesterId ↔
      NoNullCount (query.requested rules ldb.db requesterId) := by
  refine listsAll_of_goesOn
    (fun r => [.timestamptz r.broadcast.createdAt, .uuid r.broadcast.id])
    (by simp [hsort]) hkw (by rw [BroadcastQuery.columns, hsort]) ?_
  intro _ r hr
  have hstored := (ldb.broadcasts _ (mem_requested hr)).createdAt
  refine ⟨rfl, ⟨some r.broadcast.createdAt, some r.broadcast.createdAt, none, some r.broadcast.id⟩,
    ?_, bindCursorTime_of_stored hstored, ?_⟩
  · rw [hsort]
    have h := Cursor.toTimestampId_fromTimestampId (t := t) (representable_of_stored hstored)
      r.broadcast.id
    simp [decodeCursor, encodeCursor, itemOf, h]
  · unfold broadcastsSelect broadcastsSeek
    rw [hsort, Option.map_some, sentTime_of_stored hstored]
    rfl

theorem listsAll_totalParticipants (hsort : query.effectiveSort = .totalParticipants)
    (hkw : query.keywords.all storable = true) :
    ListsAll t rules clock ldb.db query requesterId ↔
      NoNullCount (query.requested rules ldb.db requesterId) := by
  refine listsAll_of_goesOn
    (fun r => [.bigint (r.broadcast.totalParticipants.getD 0), .uuid r.broadcast.id])
    (by simp [hsort]) hkw (by rw [BroadcastQuery.columns, hsort]) ?_
  intro hcounted r hr
  obtain ⟨n, hn⟩ := Option.ne_none_iff_exists'.1 (hcounted r hr)
  have hrange := (ldb.broadcasts _ (mem_requested hr)).totalParticipants
  rw [hn, Option.all_some] at hrange
  refine ⟨by simp [BroadcastListRow.totalParticipants, BroadcastListRow.id, hn],
    ⟨none, none, some n, some r.broadcast.id⟩, ?_, rfl, ?_⟩
  · rw [hsort]
    have h := Cursor.toScoreId_fromScoreId (t := t) hrange r.broadcast.id
    simp [decodeCursor, encodeCursor, itemOf, hn, h]
  · unfold broadcastsSelect broadcastsSeek
    rw [hsort, hn]
    rfl

/-- The cursor of an `end_time` page is read, but no statement goes on from it. -/
theorem endTime_refused (hsort : query.effectiveSort = .endTime) {r : BroadcastListRow}
    (hr : r ∈ query.requested rules ldb.db requesterId) (now : OffsetDateTime) :
    BroadcastService.getBroadcastsFromDb t rules now ldb.db
      (query.resume (some (encodeCursor t query.effectiveSort (itemOf r)))) requesterId =
        .error (.database (.statement .unequalEntries)) := by
  have hmem := mem_requested hr
  have htime : representable (r.broadcast.endTime.getD r.broadcast.createdAt) = true := by
    have hend := (ldb.broadcasts _ hmem).endTime
    cases h : r.broadcast.endTime with
    | none => exact representable_of_stored (ldb.broadcasts _ hmem).createdAt
    | some ts => exact representable_of_stored (by simpa [h] using hend)
  let ts := r.broadcast.endTime.getD r.broadcast.createdAt
  have hcursor : decodeCursor t query.effectiveSort
      (some (encodeCursor t query.effectiveSort (itemOf r))) =
        .ok ⟨some ts, some ts, none, some r.broadcast.id⟩ := by
    have h := Cursor.toTimestampId_fromTimestampId (t := t) htime r.broadcast.id
    rw [hsort]
    simp [decodeCursor, encodeCursor, itemOf, h, ts]
  rw [getBroadcasts_of_cursor hcursor, fetchAll_endTime hsort rfl rfl rfl]
  rfl

/-- Without the cursor, which no statement can go on from, there is one page. -/
theorem listsAll_endTime (hsort : query.effectiveSort = .endTime)
    (hkw : query.keywords.all storable = true) :
    ListsAll t rules clock ldb.db query requesterId ↔
      NoNullCount (query.requested rules ldb.db requesterId) ∧
        (query.requested rules ldb.db requesterId).length ≤ query.pagination.pageLimit.toNat := by
  let F : Listing BroadcastListRow Unit :=
    ⟨query.requested rules ldb.db requesterId, fun _ => (), fun _ _ => true⟩
  have hpos := query.pagination.toNat_pageLimit_pos
  have hshort : NoNullCount (query.requested rules ldb.db requesterId) → ∀ items,
      Walk (fun n c => BroadcastService.getBroadcastsFromDb t rules (clock n) ldb.db
        (query.resume c) requesterId) 0 none items ↔
      (query.requested rules ldb.db requesterId).length ≤ query.pagination.pageLimit.toNat ∧
        items = (query.requested rules ldb.db requesterId).map itemOf := by
    intro hcounted items
    have hfirst := page_first (t := t) (F := F) (by simp [hsort]) hkw hcounted rfl (clock 0)
    rw [Listing.rest_none] at hfirst
    exact Walk.walk_iff_short hpos hfirst fun r hr => ⟨_, endTime_refused hsort hr (clock 1)⟩
  constructor
  · rintro ⟨items, hwalk, hitems⟩
    have hcounted := noNullCount_of_mapM hitems
    exact ⟨hcounted, ((hshort hcounted items).1 hwalk).1⟩
  · rintro ⟨hcounted, hle⟩
    exact ⟨_, (hshort hcounted _).2 ⟨hle, rfl⟩, mapM_listItem hcounted⟩

/-- The `ORDER BY` of `start_time` is no SQL. -/
theorem not_listsAll_startTime (hsort : query.effectiveSort = .startTime) :
    ¬ ListsAll t rules clock ldb.db query requesterId := by
  rintro ⟨items, hwalk, -⟩
  refine Walk.not_walk (e := .database (.statement .sortClause)) ?_ hwalk
  rw [getBroadcasts_of_cursor rfl, fetchAll, Select.run, orderBy_startTime _ hsort]
  rfl

/-- Keywords that PostgreSQL cannot hold are refused with the first request. -/
theorem not_listsAll_keywords (hkw : query.keywords.all storable = false) :
    ¬ ListsAll t rules clock ldb.db query requesterId := by
  rintro ⟨items, hwalk, -⟩
  obtain ⟨e, he⟩ := fetchAll_refused
    (broadcastsSelect rules ldb.db query requesterId ⟨none, none, none, none⟩)
    (broadcastRows ldb.db) hkw
  refine Walk.not_walk (e := e) ?_ hwalk
  rw [getBroadcasts_of_cursor rfl, he]
  rfl

/-! ## The order of titles -/

/-- Where a row stands in the order of creation. -/
def creation (r : BroadcastListRow) : OffsetDateTime × Uuid := (r.broadcast.createdAt, r.broadcast.id)

/-- `q` comes behind `p`. -/
def Order.Behind : Order → OffsetDateTime × Uuid → OffsetDateTime × Uuid → Prop
  | .desc, p, q => q.1 < p.1 ∨ q.1 = p.1 ∧ q.2 < p.2
  | .asc, p, q => p.1 < q.1 ∨ p.1 = q.1 ∧ p.2 < q.2

instance (o : Order) (p q : OffsetDateTime × Uuid) : Decidable (o.Behind p q) :=
  match o with
  | .desc => inferInstanceAs (Decidable (_ ∨ _))
  | .asc => inferInstanceAs (Decidable (_ ∨ _))

theorem Order.Behind.trans {o : Order} {p q r : OffsetDateTime × Uuid} (hpq : o.Behind p q)
    (hqr : o.Behind q r) : o.Behind p r := by
  cases o with
  | desc =>
    rcases hpq with hpq | ⟨h1, hpq⟩
    · rcases hqr with hqr | ⟨h2, -⟩
      · exact .inl (hqr.trans hpq)
      · exact .inl (h2 ▸ hpq)
    · rcases hqr with hqr | ⟨h2, hqr⟩
      · exact .inl (h1 ▸ hqr)
      · exact .inr ⟨h2.trans h1, hqr.trans hpq⟩
  | asc =>
    rcases hpq with hpq | ⟨h1, hpq⟩
    · rcases hqr with hqr | ⟨h2, -⟩
      · exact .inl (hpq.trans hqr)
      · exact .inl (h2 ▸ hpq)
    · rcases hqr with hqr | ⟨h2, hqr⟩
      · exact .inl (h1 ▸ hqr)
      · exact .inr ⟨h1.trans h2, hpq.trans hqr⟩

/-- What the cursor condition of `created_at` lets through. -/
theorem compareRow_creation (o : Order) (p : OffsetDateTime × Uuid) (r : BroadcastListRow) :
    compareRow o.cursorOp [BroadcastListRow.createdAt r, BroadcastListRow.id r]
      [.timestamptz p.1, .uuid p.2] = some true ↔ o.Behind p (creation r) := by
  let exprs : List (OffsetDateTime × Uuid → Option SqlValue) :=
    [fun q => some (.timestamptz q.1), fun q => some (.uuid q.2)]
  have hp : exprs.map (· p) = [.timestamptz p.1, .uuid p.2].map some := rfl
  have hr : ∀ e ∈ exprs, e (creation r) ≠ none := by simp [exprs]
  have hseek := seek_iff_before o.direction o.nulls exprs hp hr
  rw [Order.op_direction] at hseek
  refine hseek.trans ?_
  cases o <;>
    simp [exprs, Order.direction, Order.Behind, creation, compareKeys, SortKey.compare, compareNulls,
      Direction.compare, SqlValue.compare_timestamptz, SqlValue.compare_uuid, Ordering.then_eq_lt,
      Std.compare_eq_lt, Uuid.lt_iff]

/-- Behind the last row of every full page, the order of titles and the order of creation have the
same rows. -/
def TitleCut (order : Order) (limit : Nat) (rows : List BroadcastListRow) : Prop :=
  ∀ pre a post, rows = pre ++ a :: post → post ≠ [] → limit ∣ pre.length + 1 →
    ∀ r ∈ rows, order.Behind (creation a) (creation r) ↔ r ∈ post

theorem listsAll_title (hsort : query.effectiveSort = .title)
    (hkw : query.keywords.all storable = true) :
    ListsAll t rules clock ldb.db query requesterId ↔
      NoNullCount (query.requested rules ldb.db requesterId) ∧
        TitleCut query.effectiveOrder query.pagination.pageLimit.toNat
          (query.requested rules ldb.db requesterId) := by
  let F : Listing BroadcastListRow (OffsetDateTime × Uuid) := {
    rows := query.requested rules ldb.db requesterId
    cursor := creation
    beyond := fun p r => decide (query.effectiveOrder.Behind p (creation r)) }
  have hcuts : F.Visits query.pagination.pageLimit.toNat none F.rows ↔
      TitleCut query.effectiveOrder query.pagination.pageLimit.toNat F.rows := by
    rw [Listing.visits_rows_iff query.pagination.toNat_pageLimit_pos requested_nodup ?_]
    · refine forall_congr' fun pre => forall_congr' fun a => forall_congr' fun post =>
        forall_congr' fun hrows => forall_congr' fun _ => forall_congr' fun _ => ?_
      rw [Listing.rest_eq_iff requested_nodup hrows]
      simp [F]
    · intro k a r ha hr
      exact decide_eq_true ((of_decide_eq_true ha).trans (of_decide_eq_true hr))
  refine (listsAll_iff_visits (F := F) rfl ?_).trans (and_congr_right fun _ => hcuts)
  intro hcounted n c pos hat
  rcases hat with ⟨rfl, rfl⟩ | ⟨a, ha, rfl, rfl⟩
  · exact page_first (by simp [hsort]) hkw hcounted rfl (clock n)
  · have hstored := (ldb.broadcasts _ (mem_requested ha)).createdAt
    have hcursor : decodeCursor t query.effectiveSort
        (some (encodeCursor t query.effectiveSort (itemOf a))) =
          .ok ⟨some a.broadcast.createdAt, some a.broadcast.createdAt, none,
            some a.broadcast.id⟩ := by
      have h := Cursor.toTimestampId_fromTimestampId (t := t) (representable_of_stored hstored)
        a.broadcast.id
      rw [hsort]
      simp [decodeCursor, encodeCursor, itemOf, h]
    have hseek : (broadcastsSelect rules ldb.db query requesterId ⟨some a.broadcast.createdAt,
        some a.broadcast.createdAt, none, some a.broadcast.id⟩).seek = some {
          exprs := [BroadcastListRow.createdAt, BroadcastListRow.id]
          op := query.effectiveOrder.cursorOp
          values := [.timestamptz a.broadcast.createdAt, .uuid a.broadcast.id] } := by
      unfold broadcastsSelect broadcastsSeek
      rw [hsort, Option.map_some, sentTime_of_stored hstored]
      rfl
    refine page_of_rest (by simp [hsort]) hkw hcounted rfl hcursor
      (bindCursorTime_of_stored hstored) ?_ ?_ (clock n)
    · intro s hs
      rw [hseek, Option.some.injEq] at hs
      simp [← hs]
    · intro r
      rw [Select.beyond, hseek, Option.all_some, Bool.eq_iff_iff, beq_iff_eq]
      refine (compareRow_creation query.effectiveOrder (creation a) r).trans ?_
      simp [F, Listing.past]

/-! ## All orders -/

/-- What a list in an order needs of the broadcasts in it. -/
def BroadcastSortBy.Continues (sort : BroadcastSortBy) (order : Order) (limit : Nat)
    (rows : List BroadcastListRow) : Prop :=
  match sort with
  | .createdAt => True
  | .title => TitleCut order limit rows
  | .startTime => False
  | .endTime => rows.length ≤ limit
  | .totalParticipants => True

/-- For every filter, every order and every limit. -/
theorem broadcasts_listed_iff (t : CursorText) (rules : TextRules) (clock : Nat → OffsetDateTime)
    (ldb : ListedDb) (query : BroadcastQuery) (requesterId : Option Uuid) :
    ListsAll t rules clock ldb.db query requesterId ↔
      query.keywords.all storable = true ∧
        NoNullCount (query.requested rules ldb.db requesterId) ∧
        query.effectiveSort.Continues query.effectiveOrder query.pagination.pageLimit.toNat
          (query.requested rules ldb.db requesterId) := by
  by_cases hkw : query.keywords.all storable = true
  · simp only [hkw, true_and]
    cases hsort : query.effectiveSort with
    | createdAt => simp [BroadcastSortBy.Continues, listsAll_createdAt hsort hkw]
    | title => exact listsAll_title hsort hkw
    | startTime => simp [BroadcastSortBy.Continues, not_listsAll_startTime hsort]
    | endTime => exact listsAll_endTime hsort hkw
    | totalParticipants => simp [BroadcastSortBy.Continues, listsAll_totalParticipants hsort hkw]
  · have hnot : ¬ ListsAll t rules clock ldb.db query requesterId :=
      not_listsAll_keywords (Bool.not_eq_true _ ▸ hkw)
    exact ⟨fun h => absurd h hnot, fun h => absurd h.1 hkw⟩

end

/-! ## Runs -/

/-- Texts in the order of their code points. -/
def TextRules.codePoints : TextRules where
  search _ _ := true
  key s := s.toList.map fun c => (c.toNat : Int)
  key_inj a b h := by
    refine String.ext (List.map_injective_iff.2 (fun c d hcd => ?_) h)
    exact Char.toNat_inj.1 (by exact_mod_cast hcd)

theorem stored_of_empty {db : BroadcastDb} (h : db.broadcasts = .empty) :
    ∀ b ∈ db.broadcasts.rows, b.Stored := by
  simp [h, Table.empty]

theorem joinedTimes_of_empty {db : BroadcastDb} (h : db.participants = .empty) :
    ∀ p ∈ db.participants.rows, storedTime p.joinedAt = true := by
  simp [h, Table.empty]

def noBroadcasts : ListedDb where
  db := .ofUsers .empty
  broadcasts := stored_of_empty rfl
  joinedTimes := joinedTimes_of_empty rfl

/-- All broadcasts, by the time they started. -/
def byStartTime : BroadcastQuery where
  creatorId := none
  status := none
  keywords := none
  onlySubscriptions := none
  startTimeGt := none
  startTimeLt := none
  startTimeGte := none
  startTimeLte := none
  endTimeGt := none
  endTimeLt := none
  endTimeGte := none
  endTimeLte := none
  startTimeExists := none
  endTimeExists := none
  sortBy := some .startTime
  order := none
  pagination := { cursor := none, limit := none }

theorem by_start_time_refused :
    ¬ ListsAll .urlSafe .codePoints (fun _ => 0) noBroadcasts.db byStartTime none :=
  not_listsAll_startTime rfl

end Meno
