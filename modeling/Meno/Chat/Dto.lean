import Meno.Broadcast.Model
import Meno.Shared.Json

/-!
# Meno.Chat.Dto

The frames that a client sends over its WebSocket, the requests of the chat module that are read
from them, and what the server sends back. A request is read from a frame's `data` as
`#[derive(Deserialize)]` reads a struct: from an object by the names of the fields, of which the
unknown ones are skipped, or from an array by their order.
-/

namespace Meno

/-! ## Events -/

inductive WsEvent where
  | heartbeat
  | newBroadcast
  | endedBroadcast
  | scheduledBroadcast
  | broadcastDeleted
  | broadcastError
  | hostDisconnected
  | hostReconnected
  | participantJoined
  | participantLeft
  | participantKicked
  | numberOfLiveParticipants
  | cohostInvitation
  | cohostAccepted
  | cohostDeclined
  | cohostDemotion
  | newCohost
  | removedCohost
  | recordingReady
  | recordingPublished
  | notification
  | homeInvalidated
  | newMessage
  | editedMessage
  | deletedMessage
  | newReaction
  | sendMessage
  | editMessage
  | deleteMessage
  | sendReaction
deriving DecidableEq

/-- `Display`. -/
def WsEvent.display : WsEvent → String
  | .heartbeat => "heartbeat"
  | .newBroadcast => "newBroadcast"
  | .endedBroadcast => "endedBroadcast"
  | .scheduledBroadcast => "scheduledBroadcast"
  | .broadcastDeleted => "broadcastDeleted"
  | .broadcastError => "broadcastError"
  | .hostDisconnected => "hostDisconnected"
  | .hostReconnected => "hostReconnected"
  | .participantJoined => "participantJoined"
  | .participantLeft => "participantLeft"
  | .participantKicked => "participantKicked"
  | .numberOfLiveParticipants => "numberOfLiveParticipants"
  | .cohostInvitation => "cohostInvitation"
  | .cohostAccepted => "cohostAccepted"
  | .cohostDeclined => "cohostDeclined"
  | .cohostDemotion => "cohostDemotion"
  | .newCohost => "newCohost"
  | .removedCohost => "removedCohost"
  | .recordingReady => "recordingReady"
  | .recordingPublished => "recordingPublished"
  | .notification => "notification"
  | .homeInvalidated => "homeInvalidated"
  | .newMessage => "newMessage"
  | .editedMessage => "editedMessage"
  | .deletedMessage => "deletedMessage"
  | .newReaction => "newReaction"
  | .sendMessage => "sendMessage"
  | .editMessage => "editMessage"
  | .deleteMessage => "deleteMessage"
  | .sendReaction => "sendReaction"

/-! ## JSON -/

structure ClientMessage where
  event : WsEvent
  data : Value

/-- The field and the message of a failed `#[validate(..)]`. -/
structure ValidationError where
  field : String
  message : String
deriving DecidableEq

/-- What the libraries do with texts: `serde_json::from_str`, `Uuid::parse_str`, the `Display` of a
`serde_json::Error` and of a `sqlx::Error`, and the `Debug` of `ValidationErrors`. -/
structure Codec where
  fromStr : String → Option ClientMessage
  parseUuid : String → Option Uuid
  displayError : DeError → String
  displayDb : DbError → String
  debugValidation : ValidationError → String

/-! ## Reading a struct -/

inductive FieldType where
  | uuid
  | text
deriving DecidableEq

namespace Codec

variable (c : Codec)

def readUuid : Value → Except DeError Uuid
  | .string s =>
    match c.parseUuid s with
    | some u => .ok u
    | none => .error (.invalidUuid s)
  | v => .error (.invalidType v "a formatted UUID string")

end Codec

namespace Value

def check (c : Codec) (v : Value) : FieldType → Except DeError Unit
  | .uuid => do
    let _ ← c.readUuid v
    return ()
  | .text => do
    let _ ← v.readText
    return ()

/-- The fields of an object are read as they come, before any is found missing. -/
def checkFields (c : Codec) (types : List (String × FieldType)) :
    List (String × Value) → Except DeError Unit
  | [] => .ok ()
  | (name, v) :: rest =>
    match types.lookup name with
    | none => checkFields c types rest
    | some type => do
      v.check c type
      checkFields c types rest

def checkObject (c : Codec) (types : List (String × FieldType)) : Value → Except DeError Unit
  | .object fields => checkFields c types fields
  | _ => .ok ()

end Value

/-! ## Requests -/

structure SendMessageRequest where
  broadcastId : Uuid
  senderId : Uuid
  content : String
deriving DecidableEq

structure EditMessageRequest where
  broadcastId : Uuid
  messageId : Uuid
  senderId : Uuid
  content : String
deriving DecidableEq

structure DeleteMessageRequest where
  broadcastId : Uuid
  messageId : Uuid
  senderId : Uuid
deriving DecidableEq

structure SendReactionRequest where
  broadcastId : Uuid
  senderId : Uuid
  content : String
deriving DecidableEq

/-- `#[validate(length(min = 1, max = ..))]`, in characters. -/
def validateLength (field message : String) (max : Nat) (s : String) :
    Except ValidationError Unit :=
  if 1 ≤ s.length ∧ s.length ≤ max then .ok () else .error { field, message }

namespace SendMessageRequest

def fromValue (c : Codec) (v : Value) : Except DeError SendMessageRequest := do
  let field := Value.field "struct SendMessageRequest" 3
  v.checkObject c [("broadcast_id", .uuid), ("sender_id", .uuid), ("content", .text)]
  let broadcastId ← c.readUuid (← field 0 "broadcast_id" v)
  let senderId ← c.readUuid (← field 1 "sender_id" v)
  let content ← (← field 2 "content" v).readText
  v.finish 3
  return { broadcastId, senderId, content }

def validate (req : SendMessageRequest) : Except ValidationError Unit :=
  validateLength "content" "Message must be 1–256 characters" 256 req.content

end SendMessageRequest

namespace EditMessageRequest

def fromValue (c : Codec) (v : Value) : Except DeError EditMessageRequest := do
  let field := Value.field "struct EditMessageRequest" 4
  v.checkObject c
    [("broadcast_id", .uuid), ("message_id", .uuid), ("sender_id", .uuid), ("content", .text)]
  let broadcastId ← c.readUuid (← field 0 "broadcast_id" v)
  let messageId ← c.readUuid (← field 1 "message_id" v)
  let senderId ← c.readUuid (← field 2 "sender_id" v)
  let content ← (← field 3 "content" v).readText
  v.finish 4
  return { broadcastId, messageId, senderId, content }

def validate (req : EditMessageRequest) : Except ValidationError Unit :=
  validateLength "content" "Message must be 1–256 characters" 256 req.content

end EditMessageRequest

namespace DeleteMessageRequest

def fromValue (c : Codec) (v : Value) : Except DeError DeleteMessageRequest := do
  let field := Value.field "struct DeleteMessageRequest" 3
  v.checkObject c [("broadcast_id", .uuid), ("message_id", .uuid), ("sender_id", .uuid)]
  let broadcastId ← c.readUuid (← field 0 "broadcast_id" v)
  let messageId ← c.readUuid (← field 1 "message_id" v)
  let senderId ← c.readUuid (← field 2 "sender_id" v)
  v.finish 3
  return { broadcastId, messageId, senderId }

end DeleteMessageRequest

namespace SendReactionRequest

def fromValue (c : Codec) (v : Value) : Except DeError SendReactionRequest := do
  let field := Value.field "struct SendReactionRequest" 3
  v.checkObject c [("broadcast_id", .uuid), ("sender_id", .uuid), ("content", .text)]
  let broadcastId ← c.readUuid (← field 0 "broadcast_id" v)
  let senderId ← c.readUuid (← field 1 "sender_id" v)
  let content ← (← field 2 "content" v).readText
  v.finish 3
  return { broadcastId, senderId, content }

def validate (req : SendReactionRequest) : Except ValidationError Unit :=
  validateLength "content" "Reaction must be 1–32 characters" 32 req.content

end SendReactionRequest

/-! ## Rows and responses -/

/-- A row of `chat_messages` joined with its sender. -/
structure ChatMessageRow where
  id : Uuid
  content : String
  broadcastId : Uuid
  createdAt : OffsetDateTime
  updatedAt : Option OffsetDateTime
  deletedAt : Option OffsetDateTime
  senderId : Uuid
  senderName : String
  senderBio : Option String
  senderAvatarId : Option String
  senderAvatarUrl : Option String
deriving DecidableEq

/-- `CHAT_MESSAGE_EDIT_WINDOW_SECONDS`. -/
def chatMessageEditWindowSeconds : Int := 900

/-- `now` is `OffsetDateTime::now_utc()`, and `whole_seconds` rounds to zero. -/
def ChatMessageRow.canBeEdited (row : ChatMessageRow) (now : OffsetDateTime) : Bool :=
  !decide (row.createdAt > now) &&
    decide ((now - row.createdAt).tdiv 1000000000 ≤ chatMessageEditWindowSeconds)

structure ChatReactionRow where
  id : Uuid
  content : String
  broadcastId : Uuid
  createdAt : OffsetDateTime
  senderId : Uuid
deriving DecidableEq

structure ChatMessageResponse where
  id : Uuid
  content : String
  broadcastId : Uuid
  sender : UserSummary
  createdAt : OffsetDateTime
  updatedAt : Option OffsetDateTime
  isEdited : Bool
deriving DecidableEq

def ChatMessageRow.response (row : ChatMessageRow) : ChatMessageResponse where
  id := row.id
  content := row.content
  broadcastId := row.broadcastId
  sender := {
    id := row.senderId
    fullName := row.senderName
    bio := row.senderBio
    avatarId := row.senderAvatarId
    avatarUrl := row.senderAvatarUrl }
  createdAt := row.createdAt
  updatedAt := row.updatedAt
  isEdited := row.updatedAt.isSome

structure ChatReactionResponse where
  id : Uuid
  content : String
  broadcastId : Uuid
  senderId : Uuid
  createdAt : OffsetDateTime
deriving DecidableEq

def ChatReactionRow.response (row : ChatReactionRow) : ChatReactionResponse :=
  { id := row.id, content := row.content, broadcastId := row.broadcastId,
    senderId := row.senderId, createdAt := row.createdAt }

/-! ## What the server sends -/

inductive WsErrorCode where
  | tokenExpired
  | broadcastForciblyEnded
  | kickedFromRoom
  | roomNotFound
  | mediaServerError
  | unsupported
deriving DecidableEq

def WsErrorCode.isRecoverable : WsErrorCode → Bool
  | .tokenExpired => true
  | .mediaServerError => true
  | _ => false

/-- `WsError`; its `data` is never set. -/
structure WsError where
  broadcastId : Uuid
  code : WsErrorCode
  message : String
  recoverable : Bool
deriving DecidableEq

/-- `WsPayload`, with the event's data before it is made JSON. -/
inductive WsPayload where
  | heartbeat (timestamp : Int) (userId : Uuid)
  | broadcastError (e : WsError)
  | newMessage (m : ChatMessageResponse)
  | editedMessage (m : ChatMessageResponse)
  | deletedMessage (broadcastId messageId : Uuid)
  | newReaction (r : ChatReactionResponse)
deriving DecidableEq

def WsPayload.error (broadcastId : Uuid) (code : WsErrorCode) (message : String) : WsPayload :=
  .broadcastError { broadcastId, code, message, recoverable := code.isRecoverable }

end Meno
