import Meno.Chat.Repository

/-!
# Meno.Chat.Service

The operations of `ChatService`, the WebSocket handlers of the chat module, and the dispatcher that
reads a client's text frame and calls them. `id` is the id of the row that a frame creates, and
`now` what the service reads from its clock. The cache that is invalidated and the presence key that
a heartbeat renews are left out.
-/

namespace Meno

open Lib

inductive ChatError where
  | editWindowExpired
  | notFound
  | broadcastNotLive
  | notParticipant
  | notSender
  | database (e : DbError)
deriving DecidableEq

/-- `Display`. -/
def ChatError.display (c : Codec) : ChatError → String
  | .editWindowExpired => "Message editing window has expired"
  | .notFound => "Message not found"
  | .broadcastNotLive => "Broadcast is not currently live"
  | .notParticipant => "You are not a participant in this broadcast"
  | .notSender => "You can only edit your own messages"
  | .database e => c.displayDb e

/-- An operation of the chat service. -/
abbrev ChatSvc (α : Type) := Txn WsStmt DbError ChatError α

namespace ChatService

def query {β : Type} (s : ChatStmt β) : ChatSvc β :=
  Act.ask ChatError.database (.exec .pool (.chat s))

/-- One branch of a `tokio::join!`. -/
def lookup {β : Type} (s : ChatStmt β) : ChatSvc (Except ChatError β) := Act.attempt (query s)

/-- `.ok_or(error)?`. -/
def okOr {α : Type} (error : ChatError) : Option α → ChatSvc α
  | some a => pure a
  | none => throw error

/-- `if cond { return Err(error) }`. -/
def refuse (error : ChatError) (cond : Bool) : ChatSvc Unit :=
  if cond then throw error else pure ()

/-- `publish_to_room` only logs what goes wrong. -/
def publishToRoom (broadcastId : Uuid) (payload : WsPayload) : ChatSvc Unit := do
  let _ ← lookup (.publishToRoom broadcastId payload)
  return ()

def sendMessage (id : Uuid) (req : SendMessageRequest) : ChatSvc ChatMessageResponse := do
  let isActiveResult ← lookup (.isActiveBroadcast req.broadcastId)
  let isParticipantResult ← lookup (.isBroadcastParticipant req.broadcastId req.senderId)
  let isActive ← Act.ofExcept isActiveResult
  let isParticipant ← Act.ofExcept isParticipantResult
  refuse .broadcastNotLive !isActive
  refuse .notParticipant !isParticipant
  let row ← query (.createMessage id req.broadcastId req.senderId req.content)
  let response := row.response
  publishToRoom req.broadcastId (.newMessage response)
  return response

def editMessage (now : OffsetDateTime) (req : EditMessageRequest) :
    ChatSvc ChatMessageResponse := do
  let messageResult ← lookup (.findMessageById req.messageId)
  let isActiveResult ← lookup (.isActiveBroadcast req.broadcastId)
  let message ← okOr .notFound (← Act.ofExcept messageResult)
  refuse .broadcastNotLive !(← Act.ofExcept isActiveResult)
  refuse .notSender (req.senderId != message.senderId)
  refuse .editWindowExpired !(message.canBeEdited now)
  let row ← okOr .notFound (← query (.updateMessage req.messageId req.senderId req.content))
  let response := row.response
  publishToRoom req.broadcastId (.editedMessage response)
  return response

def deleteMessage (req : DeleteMessageRequest) : ChatSvc Unit := do
  let deleted ← query (.softDeleteMessage req.messageId req.senderId)
  refuse .notSender !deleted
  publishToRoom req.broadcastId (.deletedMessage req.broadcastId req.messageId)

def sendReaction (id : Uuid) (req : SendReactionRequest) : ChatSvc ChatReactionResponse := do
  let isActiveResult ← lookup (.isActiveBroadcast req.broadcastId)
  let isParticipantResult ← lookup (.isBroadcastParticipant req.broadcastId req.senderId)
  refuse .broadcastNotLive !(← Act.ofExcept isActiveResult)
  refuse .notParticipant !(← Act.ofExcept isParticipantResult)
  let row ← query (.createReaction id req.broadcastId req.senderId req.content)
  let response := row.response
  publishToRoom req.broadcastId (.newReaction response)
  return response

end ChatService

/-! ## The handlers -/

/-- What a handler does; nothing is returned to its caller. -/
abbrev WsHandler := Prog (Cmd WsStmt DbError) Unit

/-- `Uuid::nil()`. -/
def Uuid.nil : Uuid := ⟨0⟩

namespace WsHandlers

variable (c : Codec)

/-- What is sent can get lost, and nobody is told. -/
def sendToUser (userId : Uuid) (payload : WsPayload) : WsHandler :=
  .call (.exec .pool (.chat (.sendToUser userId payload))) fun _ => .ret ()

def sendError (userId broadcastId : Uuid) (code : WsErrorCode) (message : String) : WsHandler :=
  sendToUser userId (.error broadcastId code message)

def sendUnsupportedError (userId : Uuid) (message : String) : WsHandler :=
  sendError userId .nil .unsupported message

/-- `handle_validation_error`, when the request does not pass. -/
def validated (senderId broadcastId : Uuid) (result : Except ValidationError Unit)
    (next : WsHandler) : WsHandler :=
  match result with
  | .ok () => next
  | .error e => sendError senderId broadcastId .unsupported s!"Validation error: {c.debugValidation e}"

/-- An operation that failed is answered with its error, under the code for that. -/
def replyErr {α : Type} (senderId broadcastId : Uuid)
    (code : ChatError → WsErrorCode) (op : ChatSvc α) : WsHandler := do
  match ← ExceptT.run op with
  | .ok _ => return ()
  | .error err => sendError senderId broadcastId (code err) (err.display c)

def sendCode : ChatError → WsErrorCode
  | .broadcastNotLive => .broadcastForciblyEnded
  | .notParticipant => .kickedFromRoom
  | _ => .unsupported

def editCode : ChatError → WsErrorCode
  | .notFound => .unsupported
  | .notSender => .kickedFromRoom
  | .editWindowExpired => .unsupported
  | .broadcastNotLive => .broadcastForciblyEnded
  | _ => .unsupported

def deleteCode : ChatError → WsErrorCode
  | .notSender => .kickedFromRoom
  | _ => .unsupported

def handleWsSendMessage (id : Uuid) (req : SendMessageRequest) : WsHandler :=
  validated c req.senderId req.broadcastId req.validate <|
    replyErr c req.senderId req.broadcastId sendCode (ChatService.sendMessage id req)

def handleWsEditMessage (now : OffsetDateTime) (req : EditMessageRequest) : WsHandler :=
  validated c req.senderId req.broadcastId req.validate <|
    replyErr c req.senderId req.broadcastId editCode (ChatService.editMessage now req)

def handleWsDeleteMessage (req : DeleteMessageRequest) : WsHandler :=
  replyErr c req.senderId req.broadcastId deleteCode (ChatService.deleteMessage req)

def handleWsSendReaction (id : Uuid) (req : SendReactionRequest) : WsHandler :=
  validated c req.senderId req.broadcastId req.validate <|
    replyErr c req.senderId req.broadcastId sendCode (ChatService.sendReaction id req)

/-- `match serde_json::from_value(msg.data)`. -/
def decoded {α : Type} (userId : Uuid) (req : Except DeError α) (handle : α → WsHandler) :
    WsHandler :=
  match req with
  | .error e => sendUnsupportedError userId s!"Invalid payload: {c.displayError e}"
  | .ok data => handle data

def handleClientMessage (userId id : Uuid) (now : OffsetDateTime) (rawText : String) : WsHandler :=
  match c.fromStr rawText with
  | none => return ()
  | some msg =>
    match msg.event with
    | .heartbeat => sendToUser userId (.heartbeat (now.fdiv 1000000000) userId)
    | .sendMessage =>
      decoded c userId (SendMessageRequest.fromValue c msg.data) (handleWsSendMessage c id)
    | .editMessage =>
      decoded c userId (EditMessageRequest.fromValue c msg.data) (handleWsEditMessage c now)
    | .deleteMessage =>
      decoded c userId (DeleteMessageRequest.fromValue c msg.data) (handleWsDeleteMessage c)
    | .sendReaction =>
      decoded c userId (SendReactionRequest.fromValue c msg.data) (handleWsSendReaction c id)
    | event => sendUnsupportedError userId s!"Unsupported event: {event.display}"

end WsHandlers

/-! ## What a server is given to do -/

/-- A text frame on a connection of the user, or an operation on a broadcast. -/
inductive WsOp where
  | frame (userId id : Uuid) (now : OffsetDateTime) (rawText : String)
  | broadcast (op : BroadcastOp)

inductive WsAnswer where
  | frame
  | broadcast (r : Except BroadcastError BroadcastAnswer)

def WsOp.prog (c : Codec) : WsOp → Prog (Cmd WsStmt DbError) WsAnswer
  | .frame userId id now rawText =>
    (fun _ => .frame) <$> WsHandlers.handleClientMessage c userId id now rawText
  | .broadcast op => .broadcast <$> Prog.lift (Cmd.lift .broadcast) (ExceptT.run op.prog)

end Meno
