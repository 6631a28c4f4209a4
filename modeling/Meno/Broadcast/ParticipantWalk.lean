import Meno.Broadcast.ListWalk
import Meno.Broadcast.Participation

/-!
# Meno.Broadcast.ParticipantWalk

Walks through the participants of a broadcast. Every page makes cursors of times;
`participants_listed_iff` says when that is enough.
-/

namespace Meno

open Lib Lib.Sql BroadcastRepository

namespace ParticipantQuery

/-- The same request from `c` on. -/
def resume (query : ParticipantQuery) (c : Option Cursor) : ParticipantQuery :=
  { query with pagination := query.pagination.resume c }

/-- The keywords that are searched for. -/
def searched (query : ParticipantQuery) : Option String := query.keywords.filter fun kw => !kw.isEmpty

/-- What the request asks to sort by. -/
def columns (rules : TextRules) (query : ParticipantQuery) :
    List (ParticipantListRow → Option SqlValue) :=
  match query.sort with
  | .role => [ParticipantListRow.rolePriority, ParticipantListRow.id]
  | .joinedAt => [ParticipantListRow.joinedAt, ParticipantListRow.id]
  | .name => [ParticipantListRow.fullName rules, ParticipantListRow.id]

def keys (rules : TextRules) (query : ParticipantQuery) :
    List (SortKey ParticipantListRow SqlValue) :=
  sameKeys (participantsOrder query).direction (participantsOrder query).nulls
    (query.columns rules)

/-- The participants that the filters let through, in the order that is asked for. -/
def requested (rules : TextRules) (db : BroadcastDb) (broadcastId : Uuid)
    (query : ParticipantQuery) : List ParticipantListRow :=
  Sql.sort (query.keys rules)
    ((participantsJoin db).filter (participantsWhere rules broadcastId query).matching)

end ParticipantQuery

/-- Every cursor that a page hands out is accepted, and a walk along them comes to its end and shows
the participants that are asked for, each once and in their order. -/
structure ParticipantsListed (t : CursorText) (rules : TextRules) (db : BroadcastDb)
    (broadcastId : Uuid) (query : ParticipantQuery) : Prop where
  accepted : ∀ c page c',
    BroadcastService.getParticipantsFromDb t rules db broadcastId (query.resume c) = .ok page →
    page.nextCursor = some c' → ∃ page',
      BroadcastService.getParticipantsFromDb t rules db broadcastId (query.resume (some c')) =
        .ok page'
  walked : Walk (fun _ c => BroadcastService.getParticipantsFromDb t rules db broadcastId
    (query.resume c)) 0 none ((query.requested rules db broadcastId).map participantItem)

/-! ## The statements -/

section

variable {t : CursorText} {rules : TextRules} {db : BroadcastDb} {query : ParticipantQuery}
  {broadcastId : Uuid}

theorem matching_participantsSelect (cursor : ParticipantCursor) :
    (participantsSelect rules broadcastId query cursor).matching =
      (participantsWhere rules broadcastId query).matching := by
  obtain ⟨ts, id, name, role⟩ := cursor
  unfold participantsSelect participantsSeek
  cases query.sort <;> cases ts <;> cases id <;> cases name <;> cases role <;> rfl

theorem orderBy_participantsSelect (cursor : ParticipantCursor) :
    (participantsSelect rules broadcastId query cursor).orderBy.mapM SortItem.key =
      .ok (query.keys rules) := by
  unfold participantsSelect participantsOrderBy ParticipantQuery.keys ParticipantQuery.columns
  cases query.sort with
  | role => exact Order.mapM_key _ [ParticipantListRow.rolePriority, ParticipantListRow.id]
  | joinedAt => exact Order.mapM_key _ [ParticipantListRow.joinedAt, ParticipantListRow.id]
  | name => exact Order.mapM_key _ [ParticipantListRow.fullName rules, ParticipantListRow.id]

/-- Every condition compares as many expressions as values. -/
theorem seek_participantsSelect (cursor : ParticipantCursor)
    {s : RowCondition ParticipantListRow SqlValue}
    (h : (participantsSelect rules broadcastId query cursor).seek = some s) :
    s.exprs.length = s.values.length := by
  obtain ⟨ts, id, name, role⟩ := cursor
  have hwhere : (participantsWhere rules broadcastId query).seek = none := by
    simp [participantsWhere]
  unfold participantsSelect participantsSeek at h
  cases hsort : query.sort <;> simp only [hsort] at h <;> cases ts <;> cases id <;> cases name <;>
    cases role <;>
    first
    | exact absurd (hwhere.symm.trans h) (by simp)
    | (obtain rfl := Option.some.inj h; rfl)

theorem participantsJoin_user {r : ParticipantListRow} (h : r ∈ participantsJoin db) :
    r.participant ∈ db.participants.rows ∧ r.user.id = r.participant.participantId := by
  obtain ⟨p, hp, hr⟩ := List.mem_filterMap.1 h
  obtain ⟨u, hu, rfl⟩ := Option.map_eq_some_iff.1 hr
  exact ⟨hp, Table.key_of_get (Option.filter_eq_some_iff.1 hu).1⟩

theorem participantsJoin_key :
    ((participantsJoin db).map fun r => r.participant.key).Nodup := by
  refine db.participants.nodup.sublist (map_filterMap_sublist ?_ _)
  intro p r h
  obtain ⟨u, -, rfl⟩ := Option.map_eq_some_iff.1 h
  rfl

theorem of_matching {r : ParticipantListRow}
    (h : (participantsWhere rules broadcastId query).matching r = true) :
    r.participant.broadcastId = broadcastId := by
  simp only [participantsWhere, Select.matching_andIf, Select.matching_where, Bool.and_eq_true] at h
  simpa using h.1.1

/-- A user takes part in a broadcast once. -/
theorem matching_participantId :
    (((participantsJoin db).filter (participantsWhere rules broadcastId query).matching).map
      fun r => r.participant.participantId).Nodup := by
  have hkeys : (((participantsJoin db).filter
      (participantsWhere rules broadcastId query).matching).map
        fun r => r.participant.key).Nodup :=
    participantsJoin_key.sublist (List.filter_sublist.map _)
  refine List.Nodup.map_on ?_ (List.Nodup.of_map _ hkeys)
  intro a ha b hb hab
  refine List.inj_on_of_nodup_map hkeys ha hb ?_
  exact Prod.ext ((of_matching (List.mem_filter.1 ha).2).trans
    (of_matching (List.mem_filter.1 hb).2).symm) hab

theorem identify_participants :
    Identify (query.keys rules)
      ((participantsJoin db).filter (participantsWhere rules broadcastId query).matching) := by
  refine identify_of_id matching_participantId _ _ ?_
  unfold ParticipantQuery.columns
  cases query.sort <;> simp [ParticipantListRow.id, funext_iff]

theorem mem_participantsRequested {r : ParticipantListRow}
    (h : r ∈ query.requested rules db broadcastId) : r ∈ participantsJoin db :=
  List.mem_of_mem_filter (mem_sort.1 h)

/-! ## Pages -/

theorem fetchAll_participants (cursor : ParticipantCursor) :
    fetchAll (participantsSelect rules broadcastId query cursor) query.searched
      (participantsJoin db) =
      if query.searched.all storable then
        .ok (((query.requested rules db broadcastId).filter
          (participantsSelect rules broadcastId query cursor).beyond).take
            (query.pagination.pageLimit.toNat + 1))
      else .error (.database .invalidByteSequence) := by
  have hident : Identify (query.keys rules) ((participantsJoin db).filter
      (participantsSelect rules broadcastId query cursor).matching) := by
    rw [matching_participantsSelect]
    exact identify_participants
  have hlimit : (participantsSelect rules broadcastId query cursor).limit =
      some (query.pagination.pageLimit.toNat + 1) :=
    congrArg some query.pagination.toNat_limitPlusOne
  rw [fetchAll, run_eq _ (orderBy_participantsSelect cursor)
    (fun _ => seek_participantsSelect cursor) hident, Select.cut, hlimit,
    matching_participantsSelect]
  rfl

/-- The page of the participants that a request finds. -/
def participantPage (t : CursorText) (limit : Int) (rows : List ParticipantListRow) :
    CursorPage ParticipantListItem :=
  .fromRows ((rows.take (limit.toNat + 1)).map participantItem) limit fun r =>
    .fromTimestampId t r.joinedAt r.id

/-- The values of a request, its cursor taken apart, can be bound. -/
def ParticipantQuery.bind (query : ParticipantQuery) (cursor : ParticipantCursor) :
    Except ListError Unit :=
  if cursor.name.all storable && query.searched.all storable then bindCursorTime cursor.ts
  else .error (.database .invalidByteSequence)

/-- The answer to a request, from the cursor taken apart. -/
theorem getParticipants_eq (c : Option Cursor) :
    BroadcastService.getParticipantsFromDb t rules db broadcastId (query.resume c) = (do
      let cursor ← decodeParticipantCursor t query.sort c
      query.bind cursor
      return participantPage t query.pagination.pageLimit
        ((query.requested rules db broadcastId).filter
          (participantsSelect rules broadcastId query cursor).beyond)) := by
  have hfind : findParticipants t rules db broadcastId (query.resume c) = (do
      let cursor ← decodeParticipantCursor t query.sort c
      if !cursor.name.all storable then
        throw (.database .invalidByteSequence)
      let rows ← fetchAll (participantsSelect rules broadcastId query cursor) query.searched
        (participantsJoin db)
      bindCursorTime cursor.ts
      return rows.map participantItem) := rfl
  rw [BroadcastService.getParticipantsFromDb, hfind]
  cases decodeParticipantCursor t query.sort c with
  | error e => rfl
  | ok cursor =>
    simp only [ok_bind, fetchAll_participants, ParticipantQuery.bind]
    cases cursor.name.all storable with
    | false => rfl
    | true =>
      cases query.searched.all storable with
      | false => rfl
      | true =>
        simp only [Bool.and_true, Bool.not_true, Bool.false_eq_true, if_false, if_true, pure_ok,
          ok_bind]
        cases bindCursorTime cursor.ts with
        | error e => rfl
        | ok _ => rfl

/-- A request with a cursor that can be read, and values that can be bound. -/
theorem getParticipants_of_cursor {c : Option Cursor} {cursor : ParticipantCursor}
    (hcursor : decodeParticipantCursor t query.sort c = .ok cursor)
    (hbind : query.bind cursor = .ok ()) :
    BroadcastService.getParticipantsFromDb t rules db broadcastId (query.resume c) =
      .ok (participantPage t query.pagination.pageLimit
        ((query.requested rules db broadcastId).filter
          (participantsSelect rules broadcastId query cursor).beyond)) := by
  rw [getParticipants_eq, hcursor, ok_bind, hbind, ok_bind]
  rfl

/-- A cursor without a name is bound where the keywords are, and its time. -/
theorem bind_ok {cursor : ParticipantCursor} (hname : cursor.name = none)
    (hkw : query.searched.all storable = true) (hts : bindCursorTime cursor.ts = .ok ()) :
    query.bind cursor = .ok () := by
  simp [ParticipantQuery.bind, hname, hkw, hts]

/-- The first request. -/
theorem getParticipants_first (hkw : query.searched.all storable = true) :
    BroadcastService.getParticipantsFromDb t rules db broadcastId (query.resume none) =
      .ok (participantPage t query.pagination.pageLimit (query.requested rules db broadcastId)) := by
  have hseek : (participantsSelect rules broadcastId query
      { ts := none, id := none, name := none, role := none }).seek = none := by
    unfold participantsSelect participantsSeek participantsWhere
    cases query.sort <;> simp
  have hall : ∀ r, (participantsSelect rules broadcastId query
      { ts := none, id := none, name := none, role := none }).beyond r = true := by
    simp [Select.beyond, hseek]
  rw [getParticipants_of_cursor rfl (bind_ok rfl hkw rfl), List.filter_eq_self.2 fun r _ => hall r]

theorem getParticipants_refused (c : Option Cursor) (hkw : query.searched.all storable = false) :
    ∃ e, BroadcastService.getParticipantsFromDb t rules db broadcastId (query.resume c) =
      .error e := by
  rw [getParticipants_eq]
  cases decodeParticipantCursor t query.sort c with
  | error e => exact ⟨e, rfl⟩
  | ok cursor =>
    have hbind : query.bind cursor = .error (.database .invalidByteSequence) :=
      if_neg (by simp [hkw])
    exact ⟨_, by rw [ok_bind, hbind]; rfl⟩

/-- A page that is shown, its cursor taken apart. -/
theorem of_getParticipants {c : Option Cursor} {page : CursorPage ParticipantListItem}
    (h : BroadcastService.getParticipantsFromDb t rules db broadcastId (query.resume c) = .ok page) :
    ∃ cursor, page = participantPage t query.pagination.pageLimit
      ((query.requested rules db broadcastId).filter
        (participantsSelect rules broadcastId query cursor).beyond) := by
  rw [getParticipants_eq] at h
  obtain ⟨cursor, -, h⟩ := bind_eq_ok.1 h
  obtain ⟨_, -, h⟩ := bind_eq_ok.1 h
  exact ⟨cursor, (Except.ok.inj h).symm⟩

theorem nextCursor_participantPage {limit : Int} (hpos : 0 < limit.toNat)
    {rows : List ParticipantListRow} {c : Cursor}
    (h : (participantPage t limit rows).nextCursor = some c) :
    limit.toNat < rows.length ∧
      ∃ r ∈ rows, c = .fromTimestampId t r.participant.joinedAt r.user.id := by
  unfold participantPage at h
  rcases Walk.page_cases rows hpos participantItem fun r => .fromTimestampId t r.joinedAt r.id with
    ⟨-, hpage⟩ | ⟨pre, a, post, rfl, hlen, hpost, hpage⟩
  · rw [hpage] at h
    cases h
  · rw [hpage] at h
    have hpost := List.length_pos_of_ne_nil hpost
    refine ⟨?_, a, by simp, (Option.some.inj h).symm⟩
    simp
    omega

end

/-! ## The three orders -/

section

variable {t : CursorText} {rules : TextRules} {ldb : ListedDb} {query : ParticipantQuery}
  {broadcastId : Uuid}

/-- The cursor of a row, by the time of joining. -/
def joinedCursor (r : ParticipantListRow) : ParticipantCursor where
  ts := some r.participant.joinedAt
  id := some r.participant.participantId
  name := none
  role := none

/-- By the time of joining, a page's cursor is the one that the next request reads. -/
theorem decode_joinedAt (hsort : query.sort = .joinedAt) {r : ParticipantListRow}
    (hr : r ∈ query.requested rules ldb.db broadcastId) :
    decodeParticipantCursor t query.sort
      (some (.fromTimestampId t r.participant.joinedAt r.user.id)) = .ok (joinedCursor r) := by
  obtain ⟨hp, hid⟩ := participantsJoin_user (mem_participantsRequested hr)
  have h := Cursor.toTimestampId_fromTimestampId (t := t)
    (representable_of_stored (ldb.joinedTimes _ hp)) r.participant.participantId
  rw [hsort, hid]
  simp [decodeParticipantCursor, h, joinedCursor]

theorem bind_joinedCursor (hkw : query.searched.all storable = true) {r : ParticipantListRow}
    (hr : r ∈ query.requested rules ldb.db broadcastId) :
    query.bind (joinedCursor r) = .ok () :=
  bind_ok rfl hkw (bindCursorTime_of_stored
    (ldb.joinedTimes _ (participantsJoin_user (mem_participantsRequested hr)).1))

theorem beyond_joinedCursor (hsort : query.sort = .joinedAt) {a : ParticipantListRow}
    (ha : a ∈ query.requested rules ldb.db broadcastId) (r : ParticipantListRow) :
    (participantsSelect rules broadcastId query (joinedCursor a)).beyond r =
      (compareRow (participantsOrder query).direction.op
        [ParticipantListRow.joinedAt r, ParticipantListRow.id r]
        [.timestamptz a.participant.joinedAt, .uuid a.participant.participantId] == some true) := by
  have hseek : (participantsSelect rules broadcastId query (joinedCursor a)).seek = some {
      exprs := [ParticipantListRow.joinedAt, ParticipantListRow.id]
      op := (participantsOrder query).cursorOp
      values := [.timestamptz a.participant.joinedAt, .uuid a.participant.participantId] } := by
    have hstored := ldb.joinedTimes _ (participantsJoin_user (mem_participantsRequested ha)).1
    unfold participantsSelect participantsSeek
    rw [hsort, joinedCursor, Option.map_some, sentTime_of_stored hstored]
  rw [Select.beyond, hseek, Order.op_direction]
  rfl

/-- By role or by name it is not. -/
theorem decode_refused (hsort : query.sort ≠ .joinedAt) (ts : OffsetDateTime) (id : Uuid) :
    decodeParticipantCursor t query.sort (some (.fromTimestampId t ts id)) =
      .error (.cursor .invalidShape) := by
  cases h : query.sort with
  | joinedAt => exact absurd h hsort
  | role => simp [decodeParticipantCursor, Cursor.toScoreId_fromTimestampId]
  | name => simp [decodeParticipantCursor, Cursor.toNameId_fromTimestampId]

theorem participantsListed_joinedAt (hsort : query.sort = .joinedAt)
    (hkw : query.searched.all storable = true) :
    ParticipantsListed t rules ldb.db broadcastId query where
  accepted c page c' hpage hc' := by
    obtain ⟨cursor, rfl⟩ := of_getParticipants hpage
    obtain ⟨-, r, hr, rfl⟩ := nextCursor_participantPage query.pagination.toNat_pageLimit_pos hc'
    have hr := List.mem_of_mem_filter hr
    exact ⟨_, getParticipants_of_cursor (decode_joinedAt hsort hr) (bind_joinedCursor hkw hr)⟩
  walked := by
    let F := listing (participantsOrder query).direction (participantsOrder query).nulls
      [ParticipantListRow.joinedAt, ParticipantListRow.id]
      (fun r => [.timestamptz r.participant.joinedAt, .uuid r.participant.participantId])
      ((participantsJoin ldb.db).filter (participantsWhere rules broadcastId query).matching)
    have hcolumns : query.columns rules = [ParticipantListRow.joinedAt, ParticipantListRow.id] := by
      rw [ParticipantQuery.columns, hsort]
    have hrows : F.rows = query.requested rules ldb.db broadcastId := by
      change Sql.sort (sameKeys _ _ [ParticipantListRow.joinedAt, ParticipantListRow.id]) _ = _
      rw [← hcolumns]
      rfl
    have hpos := query.pagination.toNat_pageLimit_pos
    have hanswered : Walk.Answered (fun _ c => BroadcastService.getParticipantsFromDb t rules ldb.db
        broadcastId (query.resume c)) F query.pagination.pageLimit participantItem
          fun r => .fromTimestampId t r.joinedAt r.id := by
      intro n c pos hat
      rcases hat with ⟨rfl, rfl⟩ | ⟨a, ha, rfl, rfl⟩
      · rw [Listing.rest_none, hrows]
        exact getParticipants_first hkw
      · rw [hrows] at ha
        rw [Listing.rest, hrows]
        have hpast : (participantsSelect rules broadcastId query (joinedCursor a)).beyond =
            F.past (some (F.cursor a)) := funext fun r => beyond_joinedCursor hsort ha r
        rw [← hpast]
        exact getParticipants_of_cursor (decode_joinedAt hsort ha) (bind_joinedCursor hkw ha)
    have hident : Identify (sameKeys (participantsOrder query).direction
        (participantsOrder query).nulls [ParticipantListRow.joinedAt, ParticipantListRow.id])
        ((participantsJoin ldb.db).filter (participantsWhere rules broadcastId query).matching) := by
      rw [← hcolumns]
      exact identify_participants
    have hcuts : F.Cuts query.pagination.pageLimit.toNat :=
      listing_cuts hident (List.Nodup.of_map _ matching_participantId) (fun r _ => rfl) _
    rw [← hrows]
    exact (Walk.walk_iff_visits hanswered hpos).2 ⟨F.rows, Listing.visits_of_cuts hpos hcuts, rfl⟩

/-- By role or by name, one page. -/
theorem participantsListed_short (hsort : query.sort ≠ .joinedAt)
    (hkw : query.searched.all storable = true) :
    ParticipantsListed t rules ldb.db broadcastId query ↔
      (query.requested rules ldb.db broadcastId).length ≤ query.pagination.pageLimit.toNat := by
  have hpos := query.pagination.toNat_pageLimit_pos
  have hwalk : ∀ items, Walk (fun _ c => BroadcastService.getParticipantsFromDb t rules ldb.db
      broadcastId (query.resume c)) 0 none items ↔
      (query.requested rules ldb.db broadcastId).length ≤ query.pagination.pageLimit.toNat ∧
        items = (query.requested rules ldb.db broadcastId).map participantItem := by
    intro items
    refine Walk.walk_iff_short hpos (getParticipants_first hkw) fun r _ => ⟨.cursor .invalidShape, ?_⟩
    rw [getParticipants_eq, decode_refused hsort, error_bind]
  constructor
  · intro h
    exact ((hwalk _).1 h.walked).1
  · intro hle
    refine ⟨fun c page c' hpage hc' => ?_, (hwalk _).2 ⟨hle, rfl⟩⟩
    obtain ⟨cursor, rfl⟩ := of_getParticipants hpage
    have hlt := (nextCursor_participantPage hpos hc').1
    have := List.length_filter_le (participantsSelect rules broadcastId query cursor).beyond
      (query.requested rules ldb.db broadcastId)
    omega

theorem not_participantsListed_keywords (hkw : query.searched.all storable = false) :
    ¬ ParticipantsListed t rules ldb.db broadcastId query := by
  intro h
  obtain ⟨e, he⟩ := @getParticipants_refused t rules ldb.db query broadcastId none hkw
  exact Walk.not_walk he h.walked

end

/-- For every filter, every order and every limit. -/
theorem participants_listed_iff (t : CursorText) (rules : TextRules) (ldb : ListedDb)
    (broadcastId : Uuid) (query : ParticipantQuery) :
    ParticipantsListed t rules ldb.db broadcastId query ↔
      query.searched.all storable = true ∧
        (query.sort = .joinedAt ∨ (query.requested rules ldb.db broadcastId).length ≤
          query.pagination.pageLimit.toNat) := by
  by_cases hkw : query.searched.all storable = true
  · by_cases hsort : query.sort = .joinedAt
    · simp [hkw, hsort, participantsListed_joinedAt hsort hkw]
    · simp [hkw, hsort, participantsListed_short hsort hkw]
  · have hnot : ¬ ParticipantsListed t rules ldb.db broadcastId query :=
      not_participantsListed_keywords (Bool.not_eq_true _ ▸ hkw)
    exact ⟨fun h => absurd h hnot, fun h => absurd h.1 hkw⟩

/-! ## Runs -/

/-- The host and a participant of broadcast 8. -/
def twoParticipants : ListedDb where
  db := { BroadcastDb.ofUsers twoUsers with
    participants := (Table.empty.put {
      broadcastId := ⟨8⟩
      participantId := ⟨1⟩
      role := .host
      joinedAt := 5000
      leftAt := none }).put {
        broadcastId := ⟨8⟩
        participantId := ⟨2⟩
        role := .participant
        joinedAt := 6000
        leftAt := none } }
  broadcasts := stored_of_empty rfl
  joinedTimes := by decide

/-- Everyone, by role, one to a page. -/
def byRole : ParticipantQuery where
  keywords := none
  role := none
  sortBy := none
  order := none
  pagination := { cursor := none, limit := some 1 }

theorem by_role_second_page_refused :
    ¬ ParticipantsListed .urlSafe .codePoints twoParticipants.db ⟨8⟩ byRole := by
  intro h
  have hle := (participantsListed_short (by decide) rfl).1 h
  rw [ParticipantQuery.requested, (sort_perm _ _).length_eq] at hle
  exact absurd hle (by decide)

end Meno
