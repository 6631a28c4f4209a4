import Meno.Broadcast.Ops
import Meno.Chat.Dto

/-!
# Meno.Chat.Repository

The statements of `ChatRepository`, over the broadcast module's store with the tables
`chat_messages` and `chat_reactions`, and the two ways in which the chat module sends something:
`send_to_user` of the WebSocket hub and `publish_to_room`. What is sent changes no table; it stands
in the history of a run, with the one it was sent to.
-/

namespace Meno

open Lib

structure ChatMessage where
  id : Uuid
  content : String
  senderId : Uuid
  broadcastId : Uuid
  createdAt : OffsetDateTime
  updatedAt : Option OffsetDateTime
  deletedAt : Option OffsetDateTime
deriving DecidableEq

structure ChatReaction where
  id : Uuid
  content : String
  senderId : Uuid
  broadcastId : Uuid
  createdAt : OffsetDateTime
deriving DecidableEq

structure ChatDb where
  tables : BroadcastDb
  messages : Table ChatMessage ChatMessage.id
  reactions : Table ChatReaction ChatReaction.id

inductive ChatWrite where
  | row (w : BroadcastWrite)
  | message (row : ChatMessage)
  | reaction (row : ChatReaction)
  | sent (userId : Uuid) (payload : WsPayload)
  | published (broadcastId : Uuid) (payload : WsPayload)

namespace ChatDb

def apply (db : ChatDb) : ChatWrite → ChatDb
  | .row w => { db with tables := db.tables.apply w }
  | .message row => { db with messages := db.messages.put row }
  | .reaction row => { db with reactions := db.reactions.put row }
  | .sent _ _ => db
  | .published _ _ => db

/-- No chat yet. -/
def ofTables (tables : BroadcastDb) : ChatDb := { tables, messages := .empty, reactions := .empty }

end ChatDb

namespace ChatRepository

/-- `JOIN users u ON u.id = ..sender_id`. -/
def joinSender (db : ChatDb) (m : ChatMessage) : Option ChatMessageRow :=
  (db.tables.users.get m.senderId).map fun u => {
    id := m.id
    content := m.content
    broadcastId := m.broadcastId
    createdAt := m.createdAt
    updatedAt := m.updatedAt
    deletedAt := m.deletedAt
    senderId := m.senderId
    senderName := u.fullName
    senderBio := u.bio
    senderAvatarId := u.avatarId
    senderAvatarUrl := u.avatarUrl }

/-- `id` is the value of `gen_random_uuid()`. -/
def createMessage (db : ChatDb) (now : OffsetDateTime) (id broadcastId senderId : Uuid)
    (content : String) : Except DbError (ChatMessageRow × List ChatWrite) := do
  bindText content
  let content ← varchar 256 content
  if (db.messages.get id).isSome then throw .uniqueViolation
  BroadcastRepository.checkUser db.tables senderId
  BroadcastRepository.checkBroadcast db.tables broadcastId
  let m : ChatMessage :=
    { id, content, senderId, broadcastId, createdAt := now, updatedAt := none, deletedAt := none }
  match joinSender db m with
  | some row => return (row, [.message m])
  | none => throw .rowNotFound

/-- The message `WHERE id = .. AND sender_id = .. AND deleted_at IS NULL`. -/
def sendersMessage (db : ChatDb) (messageId senderId : Uuid) : Option ChatMessage :=
  (db.messages.get messageId).filter fun m => m.senderId == senderId && m.deletedAt.isNone

def updateMessage (db : ChatDb) (now : OffsetDateTime) (messageId senderId : Uuid)
    (content : String) : Except DbError (Option ChatMessageRow × List ChatWrite) := do
  bindText content
  match sendersMessage db messageId senderId with
  | none => return (none, [])
  | some m =>
    let content ← varchar 256 content
    let m := { m with content, updatedAt := some now }
    return (joinSender db m, [.message m])

def findMessageById (db : ChatDb) (messageId : Uuid) : Option ChatMessageRow :=
  ((db.messages.get messageId).filter fun m => m.deletedAt.isNone).bind (joinSender db)

/-- `rows_affected() == 1`. The trigger `update_updated_at_column` sets `updated_at`, too. -/
def softDeleteMessage (db : ChatDb) (now : OffsetDateTime) (messageId senderId : Uuid) :
    Except DbError (Bool × List ChatWrite) :=
  match sendersMessage db messageId senderId with
  | none => .ok (false, [])
  | some m => .ok (true, [.message { m with deletedAt := some now, updatedAt := some now }])

/-- `id` is the value of `gen_random_uuid()`. -/
def createReaction (db : ChatDb) (now : OffsetDateTime) (id broadcastId senderId : Uuid)
    (content : String) : Except DbError (ChatReactionRow × List ChatWrite) := do
  bindText content
  let content ← varchar 32 content
  if (db.reactions.get id).isSome then throw .uniqueViolation
  BroadcastRepository.checkUser db.tables senderId
  BroadcastRepository.checkBroadcast db.tables broadcastId
  let r : ChatReaction := { id, content, senderId, broadcastId, createdAt := now }
  return ({ id, content, broadcastId, createdAt := now, senderId }, [.reaction r])

end ChatRepository

/-! ## The calls -/

inductive ChatStmt : Type → Type where
  | createMessage (id broadcastId senderId : Uuid) (content : String) : ChatStmt ChatMessageRow
  | updateMessage (messageId senderId : Uuid) (content : String) : ChatStmt (Option ChatMessageRow)
  | findMessageById (messageId : Uuid) : ChatStmt (Option ChatMessageRow)
  | softDeleteMessage (messageId senderId : Uuid) : ChatStmt Bool
  | createReaction (id broadcastId senderId : Uuid) (content : String) : ChatStmt ChatReactionRow
  | isBroadcastParticipant (broadcastId participantId : Uuid) : ChatStmt Bool
  | isActiveBroadcast (broadcastId : Uuid) : ChatStmt Bool
  | sendToUser (userId : Uuid) (payload : WsPayload) : ChatStmt Unit
  | publishToRoom (broadcastId : Uuid) (payload : WsPayload) : ChatStmt Unit

def ChatStmt.exec : {β : Type} → ChatStmt β → OffsetDateTime → ChatDb →
    Except DbError (β × List ChatWrite)
  | _, .createMessage id b u c, now, db => ChatRepository.createMessage db now id b u c
  | _, .updateMessage m u c, now, db => ChatRepository.updateMessage db now m u c
  | _, .findMessageById m, _, db => .ok (ChatRepository.findMessageById db m, [])
  | _, .softDeleteMessage m u, now, db => ChatRepository.softDeleteMessage db now m u
  | _, .createReaction id b u c, now, db => ChatRepository.createReaction db now id b u c
  | _, .isBroadcastParticipant b u, _, db =>
    .ok (ChatRepository.isBroadcastParticipant db.tables b u, [])
  | _, .isActiveBroadcast b, _, db => .ok (ChatRepository.isActiveBroadcast db.tables b, [])
  | _, .sendToUser u p, _, _ => .ok ((), [.sent u p])
  | _, .publishToRoom b p, _, _ => .ok ((), [.published b p])

/-- A statement of either module. -/
inductive WsStmt (β : Type) : Type where
  | broadcast (s : BroadcastStmt β)
  | chat (s : ChatStmt β)

def WsStmt.exec {β : Type} (s : WsStmt β) (now : OffsetDateTime) (db : ChatDb) :
    Except DbError (β × List ChatWrite) :=
  match s with
  | .broadcast s => do
    let (a, ws) ← s.exec now db.tables
    return (a, ws.map .row)
  | .chat s => s.exec now db

def chatEngine : Engine WsStmt ChatDb ChatWrite OffsetDateTime DbError where
  exec := WsStmt.exec
  apply := ChatDb.apply
  fault := .infrastructure

end Meno
