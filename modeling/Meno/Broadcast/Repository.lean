import Meno.Lib.Txn
import Meno.Broadcast.Model
import Mathlib.Data.List.Sort

/-!
# Meno.Broadcast.Repository

The SQL statements of `BroadcastRepository` and of the two lookups that the chat module makes,
one definition a statement, and with them the calls to LiveKit and Redis whose answers the service
waits for: those read the store, too, and can fail, but write no row.

Common to all: `NOW()` is the start of the enclosing transaction, the trigger
`update_updated_at_column` stamps every updated broadcast with it, and the trigger
`update_broadcast_participant_count` counts the inserted and deleted participants.
-/

namespace Meno

/-! ## Inputs -/

structure CreateBroadcastInput where
  title : String
  description : Option String
  imageId : Option String
  imageUrl : Option String
  timeZone : Option String
  startTime : Option OffsetDateTime
  recordingEnabled : Bool
  creatorId : Uuid

structure UpdateBroadcastInput where
  broadcastId : Uuid
  title : Option String
  description : Option String
  imageId : Option String
  imageUrl : Option String
  timeZone : Option String
  startTime : Option OffsetDateTime
  recordingEnabled : Option Bool

structure UpsertParticipantInput where
  broadcastId : Uuid
  participantId : Uuid
  role : ParticipantRole
  joinedAt : OffsetDateTime

structure SetActiveInput where
  broadcastId : Uuid
  broadcastToken : Token
  startTime : OffsetDateTime

namespace BroadcastRepository

/-- A statement's answer with its row writes. -/
abbrev Written (β : Type) := β × List BroadcastWrite

/-! ## Column constraints -/

/-- Assignment to `description`, a `VARCHAR(244)`. -/
def storeDescription : Option String → Except DbError (Option String)
  | none => .ok none
  | some d => do
    let d ← varchar 244 d
    return some d

def checkUser (db : BroadcastDb) (id : Uuid) : Except DbError Unit :=
  if (db.users.get id).isSome then .ok () else .error .foreignKeyViolation

def checkBroadcast (db : BroadcastDb) (id : Uuid) : Except DbError Unit :=
  if (db.broadcasts.get id).isSome then .ok () else .error .foreignKeyViolation

/-! ## Broadcasts -/

/-- `id` is the value of `gen_random_uuid()`. `end_reason` is `NOT NULL` in the metadata of the query,
and a default that is no reason of its own reads as `Normal`; in migration 0003 the column is nullable,
with which no new row could be read back. -/
def create (db : BroadcastDb) (now : OffsetDateTime) (id : Uuid) (input : CreateBroadcastInput) :
    Except DbError (Written Broadcast) := do
  bindText input.title
  bindTextOpt input.description
  bindTextOpt input.imageId
  bindTextOpt input.imageUrl
  bindTextOpt input.timeZone
  let description ← storeDescription input.description
  if (db.broadcasts.get id).isSome then throw .uniqueViolation
  checkUser db input.creatorId
  let row : Broadcast := {
    id, description
    title := input.title
    status := .inactive
    creatorId := input.creatorId
    timeZone := input.timeZone
    imageUrl := input.imageUrl
    imageId := input.imageId
    broadcastToken := none
    totalParticipants := some 0
    startTime := input.startTime
    endTime := none
    recordingEnabled := input.recordingEnabled
    recordingUrl := none
    publishedAt := none
    endReason := .normal
    createdAt := now
    updatedAt := now
    deletedAt := none }
  return (row, [.broadcast row])

/-- Only the given columns are assigned. `fetch_one`: no row is an error. -/
def update (db : BroadcastDb) (now : OffsetDateTime) (input : UpdateBroadcastInput) :
    Except DbError (Written Broadcast) := do
  bindTextOpt input.title
  bindTextOpt input.description
  bindTextOpt input.imageId
  bindTextOpt input.imageUrl
  bindTextOpt input.timeZone
  match db.broadcasts.get input.broadcastId with
  | none => throw .rowNotFound
  | some b =>
    let description ← storeDescription input.description
    let row := { b with
      title := input.title.getD b.title
      description := description.or b.description
      imageId := input.imageId.or b.imageId
      imageUrl := input.imageUrl.or b.imageUrl
      timeZone := input.timeZone.or b.timeZone
      startTime := input.startTime.or b.startTime
      recordingEnabled := input.recordingEnabled.getD b.recordingEnabled
      updatedAt := now }
    return (row, [.broadcast row])

def delete (db : BroadcastDb) (now : OffsetDateTime) (id : Uuid) : Except DbError (Written Nat) :=
  match (db.broadcasts.get id).filter fun b => b.deletedAt.isNone with
  | none => .ok (0, [])
  | some b => .ok (1, [.broadcast { b with deletedAt := some now, updatedAt := now }])

/-- Nothing but the id is checked, and `end_time` stays. -/
def setActive (db : BroadcastDb) (now : OffsetDateTime) (input : SetActiveInput) :
    Except DbError (Written Broadcast) :=
  match db.broadcasts.get input.broadcastId with
  | none => .error .rowNotFound
  | some b =>
    let row := { b with
      status := .active
      broadcastToken := some input.broadcastToken
      startTime := some input.startTime
      updatedAt := now }
    .ok (row, [.broadcast row])

def setInactive (db : BroadcastDb) (now : OffsetDateTime) (id : Uuid) (reason : EndReason) :
    Except DbError (Written Nat) :=
  match db.broadcasts.get id with
  | none => .ok (0, [])
  | some b => .ok (1, [.broadcast { b with
      status := .inactive
      endTime := some now
      endReason := reason
      updatedAt := now }])

def findById (db : BroadcastDb) (id : Uuid) : Option Broadcast :=
  (db.broadcasts.get id).filter fun b => b.deletedAt.isNone

def isActiveHost (db : BroadcastDb) (userId : Uuid) : Bool :=
  db.broadcasts.rows.any fun b =>
    b.creatorId == userId && b.status == .active && b.deletedAt.isNone

/-- `fetch_optional` takes the row that comes first. -/
def findActiveBroadcastHostedById (db : BroadcastDb) (userId : Uuid) : Option Broadcast :=
  db.broadcasts.rows.find? fun b =>
    b.creatorId == userId && b.status == .active && b.deletedAt.isNone

/-! ## Users -/

def findUserSummary (db : BroadcastDb) (id : Uuid) : Option UserSummary :=
  ((db.users.get id).filter fun u => u.deletedAt.isNone).map User.summary

def findUsersBatch (db : BroadcastDb) (ids : List Uuid) : List UserSummary :=
  (db.users.rows.filter fun u => ids.contains u.id && u.deletedAt.isNone).map User.summary

def isSubscribed (db : BroadcastDb) (subscriberId creatorId : Uuid) : Bool :=
  db.subscribers.contains (subscriberId, creatorId)

def isBookmarked (db : BroadcastDb) (userId broadcastId : Uuid) : Bool :=
  db.bookmarks.contains (userId, broadcastId)

/-! ## Cohosts -/

/-- `ON CONFLICT DO NOTHING`, also for an id that comes twice. -/
def addCohosts (db : BroadcastDb) (now : OffsetDateTime) (broadcastId invitedBy : Uuid) :
    List Uuid → Except DbError (Written Unit)
  | [] => .ok ((), [])
  | u :: us =>
    if (db.cohosts.get (broadcastId, u)).isSome then addCohosts db now broadcastId invitedBy us
    else do
      checkBroadcast db broadcastId
      checkUser db u
      checkUser db invitedBy
      let row : BroadcastCohost :=
        { broadcastId, cohostId := u, invitedBy, invitedAt := now, removedAt := none }
      let (_, ws) ← addCohosts (db.apply (.cohost row)) now broadcastId invitedBy us
      return ((), .cohost row :: ws)

def removeCohost (db : BroadcastDb) (broadcastId cohostId : Uuid) : Except DbError (Written Unit) :=
  if (db.cohosts.get (broadcastId, cohostId)).isSome then
    .ok ((), [.dropCohost broadcastId cohostId])
  else .ok ((), [])

def getCohosts (db : BroadcastDb) (broadcastId : Uuid) : List UserSummary :=
  (db.cohosts.rows.filter fun c => c.broadcastId == broadcastId && c.removedAt.isNone).filterMap
    fun c => findUserSummary db c.cohostId

/-- `removed_at` is not looked at. -/
def isCohost (db : BroadcastDb) (broadcastId userId : Uuid) : Bool :=
  (db.cohosts.get (broadcastId, userId)).isSome

/-! ## Participants -/

/-- `update_broadcast_participant_count`: an update of the broadcast's row. -/
def countParticipant (db : BroadcastDb) (now : OffsetDateTime) (broadcastId : Uuid) (n : Int) :
    List BroadcastWrite :=
  match db.broadcasts.get broadcastId with
  | none => []
  | some b => [.broadcast { b with
      totalParticipants := b.totalParticipants.map (· + n)
      updatedAt := now }]

/-- `upsert_participant_tx`: on conflict the role and `joined_at` are set, and nothing else. -/
def upsertParticipant (db : BroadcastDb) (now : OffsetDateTime) (input : UpsertParticipantInput) :
    Except DbError (Written Unit) :=
  match db.participants.get (input.broadcastId, input.participantId) with
  | some p => .ok ((), [.participant { p with role := input.role, joinedAt := input.joinedAt }])
  | none => do
    checkBroadcast db input.broadcastId
    checkUser db input.participantId
    let row : BroadcastParticipant := {
      broadcastId := input.broadcastId, participantId := input.participantId,
      role := input.role, joinedAt := input.joinedAt, leftAt := none }
    return ((), .participant row :: countParticipant db now input.broadcastId 1)

def removeParticipant (db : BroadcastDb) (now : OffsetDateTime) (broadcastId userId : Uuid) :
    Except DbError (Written Unit) :=
  if (db.participants.get (broadcastId, userId)).isSome then
    .ok ((), .dropParticipant broadcastId userId :: countParticipant db now broadcastId (-1))
  else .ok ((), [])

/-- `get_participant_ids_and_clear`: the rows stay, with `left_at` set. -/
def getParticipantIdsAndClear (db : BroadcastDb) (now : OffsetDateTime) (broadcastId : Uuid) :
    Except DbError (Written (List Uuid)) :=
  let rows := db.participants.rows.filter fun p => p.broadcastId == broadcastId && p.leftAt.isNone
  .ok ((rows.insertionSort fun p q => p.joinedAt ≤ q.joinedAt).map
      BroadcastParticipant.participantId,
    rows.map fun p => .participant { p with leftAt := some now })

def findParticipant (db : BroadcastDb) (broadcastId participantId : Uuid) :
    Option BroadcastParticipant :=
  db.participants.get (broadcastId, participantId)

/-- `LIMIT 1` without an order: the row that comes first. -/
def findActiveParticipant (db : BroadcastDb) (userId : Uuid) : Option BroadcastParticipant :=
  db.participants.rows.find? fun p => p.participantId == userId && p.leftAt.isNone

def getTotalParticipants (db : BroadcastDb) (broadcastId : Uuid) : Int :=
  (db.participants.rows.filter fun p => p.broadcastId == broadcastId).length

end BroadcastRepository

/-! ## The lookups of the chat module -/

namespace ChatRepository

def isBroadcastParticipant (db : BroadcastDb) (broadcastId participantId : Uuid) : Bool :=
  (db.participants.get (broadcastId, participantId)).any fun p => p.leftAt.isNone

def isActiveBroadcast (db : BroadcastDb) (broadcastId : Uuid) : Bool :=
  (db.broadcasts.get broadcastId).any fun b =>
    b.status == .active && b.endTime.isNone && b.deletedAt.isNone

end ChatRepository

/-! ## The calls -/

inductive BroadcastStmt : Type → Type where
  | create (id : Uuid) (input : CreateBroadcastInput) : BroadcastStmt Broadcast
  | update (input : UpdateBroadcastInput) : BroadcastStmt Broadcast
  | delete (id : Uuid) : BroadcastStmt Nat
  | setActive (input : SetActiveInput) : BroadcastStmt Broadcast
  | setInactive (id : Uuid) (reason : EndReason) : BroadcastStmt Nat
  | addCohosts (broadcastId : Uuid) (cohostIds : List Uuid) (invitedBy : Uuid) : BroadcastStmt Unit
  | removeCohost (broadcastId cohostId : Uuid) : BroadcastStmt Unit
  | upsertParticipant (input : UpsertParticipantInput) : BroadcastStmt Unit
  | removeParticipant (broadcastId userId : Uuid) : BroadcastStmt Unit
  | getParticipantIdsAndClear (broadcastId : Uuid) : BroadcastStmt (List Uuid)
  | findById (id : Uuid) : BroadcastStmt (Option Broadcast)
  | isActiveHost (userId : Uuid) : BroadcastStmt Bool
  | findUserSummary (id : Uuid) : BroadcastStmt (Option UserSummary)
  | findUsersBatch (ids : List Uuid) : BroadcastStmt (List UserSummary)
  | isSubscribed (subscriberId creatorId : Uuid) : BroadcastStmt Bool
  | isBookmarked (userId broadcastId : Uuid) : BroadcastStmt Bool
  | getCohosts (broadcastId : Uuid) : BroadcastStmt (List UserSummary)
  | isCohost (broadcastId userId : Uuid) : BroadcastStmt Bool
  | findParticipant (broadcastId participantId : Uuid) : BroadcastStmt (Option BroadcastParticipant)
  | findActiveParticipant (userId : Uuid) : BroadcastStmt (Option BroadcastParticipant)
  | getTotalParticipants (broadcastId : Uuid) : BroadcastStmt Int
  | isBroadcastParticipant (broadcastId participantId : Uuid) : BroadcastStmt Bool
  | isActiveBroadcast (broadcastId : Uuid) : BroadcastStmt Bool
  /-- The circuit breaker lets a LiveKit call through, or this call fails. -/
  | checkBreaker : BroadcastStmt Unit
  | createRoom (broadcastId : Uuid) : BroadcastStmt Unit
  | mintToken (userId : Uuid) (userName : String) (broadcastId : Uuid) (role : LivekitRole)
      (attributes : Option TokenAttributes) : BroadcastStmt Token
  | removeFromRoom (broadcastId userId : Uuid) : BroadcastStmt Unit
  | updatePermission (broadcastId userId : Uuid) (canPublish : Bool) : BroadcastStmt Unit
  | getLiveCount (broadcastId : Uuid) : BroadcastStmt (Option Int)
  | hostGraceExists (broadcastId : Uuid) : BroadcastStmt Bool
  | recordingReadyExists (broadcastId : Uuid) : BroadcastStmt Bool

open BroadcastRepository (Written) in
/-- What LiveKit does with a call that goes through is not modelled. -/
def BroadcastStmt.exec : {β : Type} → BroadcastStmt β → OffsetDateTime → BroadcastDb →
    Except DbError (Written β)
  | _, .create id input, now, db => BroadcastRepository.create db now id input
  | _, .update input, now, db => BroadcastRepository.update db now input
  | _, .delete id, now, db => BroadcastRepository.delete db now id
  | _, .setActive input, now, db => BroadcastRepository.setActive db now input
  | _, .setInactive id reason, now, db => BroadcastRepository.setInactive db now id reason
  | _, .addCohosts b us invitedBy, now, db => BroadcastRepository.addCohosts db now b invitedBy us
  | _, .removeCohost b u, _, db => BroadcastRepository.removeCohost db b u
  | _, .upsertParticipant input, now, db => BroadcastRepository.upsertParticipant db now input
  | _, .removeParticipant b u, now, db => BroadcastRepository.removeParticipant db now b u
  | _, .getParticipantIdsAndClear b, now, db =>
    BroadcastRepository.getParticipantIdsAndClear db now b
  | _, .findById id, _, db => .ok (BroadcastRepository.findById db id, [])
  | _, .isActiveHost u, _, db => .ok (BroadcastRepository.isActiveHost db u, [])
  | _, .findUserSummary id, _, db => .ok (BroadcastRepository.findUserSummary db id, [])
  | _, .findUsersBatch ids, _, db => .ok (BroadcastRepository.findUsersBatch db ids, [])
  | _, .isSubscribed s c, _, db => .ok (BroadcastRepository.isSubscribed db s c, [])
  | _, .isBookmarked u b, _, db => .ok (BroadcastRepository.isBookmarked db u b, [])
  | _, .getCohosts b, _, db => .ok (BroadcastRepository.getCohosts db b, [])
  | _, .isCohost b u, _, db => .ok (BroadcastRepository.isCohost db b u, [])
  | _, .findParticipant b u, _, db => .ok (BroadcastRepository.findParticipant db b u, [])
  | _, .findActiveParticipant u, _, db => .ok (BroadcastRepository.findActiveParticipant db u, [])
  | _, .getTotalParticipants b, _, db => .ok (BroadcastRepository.getTotalParticipants db b, [])
  | _, .isBroadcastParticipant b u, _, db => .ok (ChatRepository.isBroadcastParticipant db b u, [])
  | _, .isActiveBroadcast b, _, db => .ok (ChatRepository.isActiveBroadcast db b, [])
  | _, .checkBreaker, _, _ => .ok ((), [])
  | _, .createRoom _, _, _ => .ok ((), [])
  | _, .mintToken u name b role attributes, _, _ =>
    .ok ({ identity := u, name, grants := role.getGrant b, attributes }, [])
  | _, .removeFromRoom _ _, _, _ => .ok ((), [])
  | _, .updatePermission _ _ _, _, _ => .ok ((), [])
  | _, .getLiveCount b, _, db => .ok (db.keys.liveCount b, [])
  | _, .hostGraceExists b, _, db => .ok (db.keys.hostGrace b, [])
  | _, .recordingReadyExists b, _, db => .ok (db.keys.recordingReady b, [])

/-- The tables of the broadcast module, with LiveKit and Redis, as a transactional store. -/
def broadcastEngine : Lib.Engine BroadcastStmt BroadcastDb BroadcastWrite OffsetDateTime DbError where
  exec := BroadcastStmt.exec
  apply := BroadcastDb.apply
  fault := .infrastructure

end Meno
