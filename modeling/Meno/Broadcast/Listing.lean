import Meno.Broadcast.Model
import Meno.Shared.Repository

/-!
# Meno.Broadcast.Listing

The list of broadcasts and the list of a broadcast's participants: `find_broadcasts`,
`find_participants`, and the pages that the service makes of what they find.
-/

namespace Meno

open Lib Lib.Sql Lib.Text

/-! ## Requests -/

inductive BroadcastSortBy where
  | createdAt
  | title
  | startTime
  | endTime
  | totalParticipants
deriving DecidableEq, Repr

inductive ParticipantSortBy where
  | role
  | joinedAt
  | name
deriving DecidableEq, Repr

structure BroadcastQuery where
  creatorId : Option Uuid
  status : Option BroadcastStatus
  keywords : Option String
  onlySubscriptions : Option Bool
  startTimeGt : Option OffsetDateTime
  startTimeLt : Option OffsetDateTime
  startTimeGte : Option OffsetDateTime
  startTimeLte : Option OffsetDateTime
  endTimeGt : Option OffsetDateTime
  endTimeLt : Option OffsetDateTime
  endTimeGte : Option OffsetDateTime
  endTimeLte : Option OffsetDateTime
  startTimeExists : Option Bool
  endTimeExists : Option Bool
  sortBy : Option BroadcastSortBy
  order : Option Order
  pagination : CursorParams

def BroadcastQuery.effectiveOrder (query : BroadcastQuery) : Order := query.order.getD .default

def BroadcastQuery.effectiveSort (query : BroadcastQuery) : BroadcastSortBy :=
  query.sortBy.getD .createdAt

structure ParticipantQuery where
  keywords : Option String
  role : Option ParticipantRole
  sortBy : Option ParticipantSortBy
  order : Option Order
  pagination : CursorParams

def ParticipantQuery.sort (query : ParticipantQuery) : ParticipantSortBy := query.sortBy.getD .role

/-! ## Items -/

structure BroadcastListItem where
  id : Uuid
  title : String
  description : Option String
  timeZone : Option String
  imageUrl : Option String
  imageId : Option String
  status : BroadcastStatus
  createdAt : OffsetDateTime
  startTime : Option OffsetDateTime
  endTime : Option OffsetDateTime
  totalParticipants : Int
  creatorId : Uuid
  creatorName : String
  creatorAvatarUrl : Option String
  creatorAvatarId : Option String
deriving DecidableEq

structure ParticipantListItem where
  id : Uuid
  fullName : String
  avatarId : Option String
  avatarUrl : Option String
  role : ParticipantRole
  joinedAt : OffsetDateTime
deriving DecidableEq

/-- What the list queries leave to PostgreSQL: `search` is the full text search, of a query in a
text, and `key` a text's place in the collation, which no other text has. -/
structure TextRules where
  search : String → String → Bool
  key : String → List Int
  key_inj : ∀ a b, key a = key b → a = b

namespace BroadcastRepository

-- `t` reads and writes cursors.
variable (t : CursorText) (rules : TextRules)

/-! ## Broadcasts -/

/-- A broadcast and its creator, as far as there is a user that has not been deleted. -/
structure BroadcastListRow where
  broadcast : Broadcast
  creator : Option User

/-- `broadcasts b LEFT JOIN users u ON u.id = b.creator_id AND u.deleted_at IS NULL`. -/
def broadcastRows (db : BroadcastDb) : List BroadcastListRow :=
  db.broadcasts.rows.map fun b => {
    broadcast := b
    creator := (db.users.get b.creatorId).filter fun u => u.deletedAt.isNone }

/-- `total_participants` may be `NULL` in the table, but not in an item. -/
def listItem (row : BroadcastListRow) : Except ListError BroadcastListItem :=
  match row.broadcast.totalParticipants with
  | none => .error (.database .columnDecode)
  | some totalParticipants => .ok {
      id := row.broadcast.id
      title := row.broadcast.title
      description := row.broadcast.description
      timeZone := row.broadcast.timeZone
      imageUrl := row.broadcast.imageUrl
      imageId := row.broadcast.imageId
      status := row.broadcast.status
      createdAt := row.broadcast.createdAt
      startTime := row.broadcast.startTime
      endTime := row.broadcast.endTime
      totalParticipants
      creatorId := row.broadcast.creatorId
      creatorName := (row.creator.map User.fullName).getD "Unknown"
      creatorAvatarUrl := row.creator.bind User.avatarUrl
      creatorAvatarId := row.creator.bind User.avatarId }

/-- The cursor of a list of broadcasts, taken apart. -/
structure BroadcastCursor where
  ts1 : Option OffsetDateTime
  ts2 : Option OffsetDateTime
  score : Option Int
  id : Option Uuid

def decodeCursor (sort : BroadcastSortBy) (cursor : Option Cursor) :
    Except ListError BroadcastCursor :=
  match cursor with
  | none => .ok { ts1 := none, ts2 := none, score := none, id := none }
  | some c =>
    if sort = .totalParticipants then
      match c.toScoreId t with
      | .ok (score, id) => .ok { ts1 := none, ts2 := none, score := some score, id := some id }
      | .error e => .error (.cursor e)
    else
      match c.toTimestampId t with
      | .ok (ts, id) => .ok { ts1 := some ts, ts2 := some ts, score := none, id := some id }
      | .error e => .error (.cursor e)

namespace BroadcastListRow

def id (r : BroadcastListRow) : Option SqlValue := some (.uuid r.broadcast.id)

def createdAt (r : BroadcastListRow) : Option SqlValue := some (.timestamptz r.broadcast.createdAt)

def title (rules : TextRules) (r : BroadcastListRow) : Option SqlValue :=
  some (.text (rules.key r.broadcast.title))

def startTime (r : BroadcastListRow) : Option SqlValue := r.broadcast.startTime.map .timestamptz

/-- `COALESCE(b.end_time, b.created_at)`. -/
def endTime (r : BroadcastListRow) : Option SqlValue :=
  some (.timestamptz (r.broadcast.endTime.getD r.broadcast.createdAt))

def totalParticipants (r : BroadcastListRow) : Option SqlValue :=
  r.broadcast.totalParticipants.map .bigint

end BroadcastListRow

/-- The conditions on times compare with the times that are sent. They come from RFC 3339 texts, so
that PostgreSQL has them all. -/
def broadcastsWhere (db : BroadcastDb) (query : BroadcastQuery) (requesterId : Option Uuid) :
    Select BroadcastListRow SqlValue :=
  let qb : Select BroadcastListRow SqlValue :=
    { conditions := [fun r => some r.broadcast.deletedAt.isNone] }
  let qb := qb.andIf query.creatorId fun cid r => some (r.broadcast.creatorId == cid)
  let qb := qb.andIf query.status fun status r => some (r.broadcast.status == status)
  let qb :=
    if query.onlySubscriptions.getD false then
      qb.andIf requesterId fun vid r => some (db.subscribers.contains (vid, r.broadcast.creatorId))
    else qb
  let qb := qb.andIf query.keywords fun kw r =>
    some (rules.search (trim kw)
      (r.broadcast.title ++ " " ++ r.broadcast.description.getD ""))
  let qb := qb.andIf query.startTimeGt fun v r =>
    r.broadcast.startTime.map (decide <| · > sentTime v)
  let qb := qb.andIf query.startTimeGte fun v r =>
    r.broadcast.startTime.map (decide <| · ≥ sentTime v)
  let qb := qb.andIf query.startTimeLt fun v r =>
    r.broadcast.startTime.map (decide <| · < sentTime v)
  let qb := qb.andIf query.startTimeLte fun v r =>
    r.broadcast.startTime.map (decide <| · ≤ sentTime v)
  let qb := qb.andIf query.endTimeGt fun v r =>
    r.broadcast.endTime.map (decide <| · > sentTime v)
  let qb := qb.andIf query.endTimeGte fun v r =>
    r.broadcast.endTime.map (decide <| · ≥ sentTime v)
  let qb := qb.andIf query.endTimeLt fun v r =>
    r.broadcast.endTime.map (decide <| · < sentTime v)
  let qb := qb.andIf query.endTimeLte fun v r =>
    r.broadcast.endTime.map (decide <| · ≤ sentTime v)
  let qb := qb.andIf query.startTimeExists fun e r => some (r.broadcast.startTime.isSome == e)
  qb.andIf query.endTimeExists fun e r => some (r.broadcast.endTime.isSome == e)

/-- The cursor condition. That of `end_time` compares two expressions with three values. -/
def broadcastsSeek (query : BroadcastQuery) (cursor : BroadcastCursor)
    (qb : Select BroadcastListRow SqlValue) : Select BroadcastListRow SqlValue :=
  let order := query.effectiveOrder
  let ts1 := cursor.ts1.map sentTime
  let ts2 := cursor.ts2.map sentTime
  match query.effectiveSort with
  | .createdAt =>
    pushCursorCondition qb BroadcastListRow.createdAt BroadcastListRow.id ts1 cursor.id order
  | .title =>
    pushCursorCondition qb BroadcastListRow.createdAt BroadcastListRow.id ts1 cursor.id order
  | .startTime =>
    match ts1, cursor.id with
    | some ts, some id =>
      { qb with
        seek := some {
          exprs := [BroadcastListRow.startTime, BroadcastListRow.id]
          op := order.cursorOp
          values := [.timestamptz ts, .uuid id] } }
    | _, _ => qb
  | .endTime =>
    match ts1, ts2, cursor.id with
    | some ts1, some ts2, some id =>
      { qb with
        seek := some {
          exprs := [BroadcastListRow.endTime, BroadcastListRow.id]
          op := order.cursorOp
          values := [.timestamptz ts2, .timestamptz ts1, .uuid id] } }
    | _, _, _ => qb
  | .totalParticipants =>
    match cursor.score, cursor.id with
    | some score, some id =>
      { qb with
        seek := some {
          exprs := [BroadcastListRow.totalParticipants, BroadcastListRow.id]
          op := order.cursorOp
          values := [.bigint score, .uuid id] } }
    | _, _ => qb

/-- The order. That of `start_time` says twice where the `NULL`s go. -/
def broadcastsOrderBy (query : BroadcastQuery) : List (SortItem BroadcastListRow SqlValue) :=
  let dir := query.effectiveOrder.sql
  match query.effectiveSort with
  | .createdAt => [⟨BroadcastListRow.createdAt, dir⟩, ⟨BroadcastListRow.id, dir⟩]
  | .title =>
    [⟨BroadcastListRow.title rules, dir⟩, ⟨BroadcastListRow.createdAt, dir⟩, ⟨BroadcastListRow.id, dir⟩]
  | .startTime => [⟨BroadcastListRow.startTime, dir ++ [.nulls .last]⟩, ⟨BroadcastListRow.id, dir⟩]
  | .endTime => [⟨BroadcastListRow.endTime, dir⟩, ⟨BroadcastListRow.id, dir⟩]
  | .totalParticipants => [⟨BroadcastListRow.totalParticipants, dir⟩, ⟨BroadcastListRow.id, dir⟩]

def broadcastsSelect (db : BroadcastDb) (query : BroadcastQuery) (requesterId : Option Uuid)
    (cursor : BroadcastCursor) : Select BroadcastListRow SqlValue :=
  { broadcastsSeek query cursor (broadcastsWhere rules db query requesterId) with
    orderBy := broadcastsOrderBy rules query
    limit := some query.pagination.limitPlusOne.toNat }

/-- The time of a cursor, which is the last of the values to be bound. -/
def bindCursorTime (ts : Option OffsetDateTime) : Except ListError Unit :=
  if ts.all (decide <| firstMicros ≤ sentMicros ·) then .ok ()
  else .error (.database .datetimeOutOfRange)

def findBroadcasts (db : BroadcastDb) (query : BroadcastQuery) (requesterId : Option Uuid) :
    Except ListError (List BroadcastListItem) := do
  let cursor ← decodeCursor t query.effectiveSort query.pagination.cursor
  let rows ← fetchAll (broadcastsSelect rules db query requesterId cursor) query.keywords
    (broadcastRows db)
  bindCursorTime cursor.ts1
  rows.mapM listItem

/-! ## Participants -/

/-- `broadcast_participants bp INNER JOIN users u`. -/
structure ParticipantListRow where
  participant : BroadcastParticipant
  user : User

def participantsJoin (db : BroadcastDb) : List ParticipantListRow :=
  db.participants.rows.filterMap fun p =>
    ((db.users.get p.participantId).filter fun u => u.deletedAt.isNone).map fun u =>
      { participant := p, user := u }

def participantItem (row : ParticipantListRow) : ParticipantListItem where
  id := row.user.id
  fullName := row.user.fullName
  avatarId := row.user.avatarId
  avatarUrl := row.user.avatarUrl
  role := row.participant.role
  joinedAt := row.participant.joinedAt

/-- The cursor of a list of participants, taken apart. -/
structure ParticipantCursor where
  ts : Option OffsetDateTime
  id : Option Uuid
  name : Option String
  role : Option ParticipantRole

def decodeParticipantCursor (sort : ParticipantSortBy) (cursor : Option Cursor) :
    Except ListError ParticipantCursor :=
  match cursor, sort with
  | none, _ => .ok { ts := none, id := none, name := none, role := none }
  | some c, .joinedAt =>
    match c.toTimestampId t with
    | .ok (ts, id) => .ok { ts := some ts, id := some id, name := none, role := none }
    | .error e => .error (.cursor e)
  | some c, .name =>
    match c.toNameId t with
    | .ok (name, id) => .ok { ts := none, id := some id, name := some name, role := none }
    | .error e => .error (.cursor e)
  | some c, .role =>
    match c.toScoreId t with
    | .ok (priority, id) =>
      let role : Option ParticipantRole :=
        if priority = 0 then some .host
        else if priority = 1 then some .cohost
        else if priority = 2 then some .participant
        else none
      .ok { ts := none, id := some id, name := none, role }
    | .error e => .error (.cursor e)

/-- A role as it is stored. -/
def roleText : ParticipantRole → String
  | .host => "host"
  | .cohost => "cohost"
  | .participant => "participant"
  | .none => "none"

namespace ParticipantListRow

def id (r : ParticipantListRow) : Option SqlValue := some (.uuid r.participant.participantId)

def joinedAt (r : ParticipantListRow) : Option SqlValue := some (.timestamptz r.participant.joinedAt)

def fullName (rules : TextRules) (r : ParticipantListRow) : Option SqlValue :=
  some (.text (rules.key r.user.fullName))

def role (rules : TextRules) (r : ParticipantListRow) : Option SqlValue :=
  some (.text (rules.key (roleText r.participant.role)))

/-- The `CASE` expression. -/
def rolePriority (r : ParticipantListRow) : Option SqlValue :=
  match r.participant.role with
  | .host => some (.bigint 0)
  | .cohost => some (.bigint 1)
  | .participant => some (.bigint 2)
  | .none => some (.bigint 3)

end ParticipantListRow

def participantsWhere (broadcastId : Uuid) (query : ParticipantQuery) :
    Select ParticipantListRow SqlValue :=
  let qb : Select ParticipantListRow SqlValue :=
    { conditions := [fun r => some (r.participant.broadcastId == broadcastId)] }
  let qb := qb.andIf query.role fun role r => some (r.participant.role == role)
  qb.andIf (query.keywords.filter fun kw => !kw.isEmpty) fun kw r =>
    some (rules.search kw r.user.fullName)

def participantsSeek (query : ParticipantQuery) (order : Order) (cursor : ParticipantCursor)
    (qb : Select ParticipantListRow SqlValue) : Select ParticipantListRow SqlValue :=
  match query.sort with
  | .role =>
    match cursor.role, cursor.id with
    | some r, some id =>
      { qb with
        seek := some {
          exprs := [ParticipantListRow.role rules, ParticipantListRow.id]
          op := order.cursorOp
          values := [.text (rules.key (roleText r)), .uuid id] } }
    | _, _ => qb
  | .joinedAt =>
    match cursor.ts.map sentTime, cursor.id with
    | some ts, some id =>
      { qb with
        seek := some {
          exprs := [ParticipantListRow.joinedAt, ParticipantListRow.id]
          op := order.cursorOp
          values := [.timestamptz ts, .uuid id] } }
    | _, _ => qb
  | .name =>
    match cursor.name, cursor.id with
    | some n, some id =>
      { qb with
        seek := some {
          exprs := [ParticipantListRow.fullName rules, ParticipantListRow.id]
          op := order.cursorOp
          values := [.text (rules.key n), .uuid id] } }
    | _, _ => qb

def participantsOrderBy (query : ParticipantQuery) (order : Order) :
    List (SortItem ParticipantListRow SqlValue) :=
  let dir := order.sql
  match query.sort with
  | .role => [⟨ParticipantListRow.rolePriority, dir⟩, ⟨ParticipantListRow.id, dir⟩]
  | .joinedAt => [⟨ParticipantListRow.joinedAt, dir⟩, ⟨ParticipantListRow.id, dir⟩]
  | .name => [⟨ParticipantListRow.fullName rules, dir⟩, ⟨ParticipantListRow.id, dir⟩]

/-- Without an order, ascending. -/
def participantsOrder (query : ParticipantQuery) : Order := query.order.getD .asc

def participantsSelect (broadcastId : Uuid) (query : ParticipantQuery)
    (cursor : ParticipantCursor) : Select ParticipantListRow SqlValue :=
  let order := participantsOrder query
  { participantsSeek rules query order cursor (participantsWhere rules broadcastId query) with
    orderBy := participantsOrderBy rules query order
    limit := some query.pagination.limitPlusOne.toNat }

def findParticipants (db : BroadcastDb) (broadcastId : Uuid) (query : ParticipantQuery) :
    Except ListError (List ParticipantListItem) := do
  let cursor ← decodeParticipantCursor t query.sort query.pagination.cursor
  -- The name of a cursor is bound as the keywords are.
  if !cursor.name.all storable then
    throw (.database .invalidByteSequence)
  let rows ← fetchAll (participantsSelect rules broadcastId query cursor)
    (query.keywords.filter fun kw => !kw.isEmpty) (participantsJoin db)
  bindCursorTime cursor.ts
  return rows.map participantItem

end BroadcastRepository

/-! ## Pages -/

namespace BroadcastService

variable (t : CursorText) (rules : TextRules)

/-- `build_broadcast_page`. `now` is what the clock shows. -/
def buildBroadcastPage (now : OffsetDateTime) (rows : List BroadcastListItem) (limit : Int)
    (sort : BroadcastSortBy) : CursorPage BroadcastListItem :=
  .fromRows rows limit fun r =>
    match sort with
    | .title => .fromTimestampId t r.createdAt r.id
    | .createdAt => .fromTimestampId t r.createdAt r.id
    | .startTime => .fromTimestampId t (r.startTime.getD now) r.id
    | .endTime => .fromTimestampId t (r.endTime.getD r.createdAt) r.id
    | .totalParticipants => .fromScoreId t r.totalParticipants r.id

def getBroadcastsFromDb (now : OffsetDateTime) (db : BroadcastDb) (query : BroadcastQuery)
    (requesterId : Option Uuid) : Except ListError (CursorPage BroadcastListItem) := do
  let rows ← BroadcastRepository.findBroadcasts t rules db query requesterId
  return buildBroadcastPage t now rows query.pagination.pageLimit query.effectiveSort

def getParticipantsFromDb (db : BroadcastDb) (broadcastId : Uuid) (query : ParticipantQuery) :
    Except ListError (CursorPage ParticipantListItem) := do
  let rows ← BroadcastRepository.findParticipants t rules db broadcastId query
  return .fromRows rows query.pagination.pageLimit fun r => .fromTimestampId t r.joinedAt r.id

end BroadcastService

end Meno
