import Meno.Chat.Service

/-!
# Meno.Chat.Writers

`send_message`, `edit_message` and `delete_message` with the invalidation that each of them spawns.
Without it they are the operations of `Meno.Chat.Service` (`uncached_sendMessage` and the others).
-/

namespace Meno

open Lib

/-! ## The operations -/

/-- What the operations call: the repository, the bridge to the rooms, and the cache. -/
inductive WriterCall : Type → Type where
  | createMessage (id broadcastId senderId : Uuid) (content : String) :
      WriterCall (Except DbError ChatMessageRow)
  | updateMessage (messageId senderId : Uuid) (content : String) :
      WriterCall (Except DbError (Option ChatMessageRow))
  | findMessageById (messageId : Uuid) : WriterCall (Except DbError (Option ChatMessageRow))
  | softDeleteMessage (messageId senderId : Uuid) : WriterCall (Except DbError Bool)
  | isBroadcastParticipant (broadcastId participantId : Uuid) : WriterCall (Except DbError Bool)
  | isActiveBroadcast (broadcastId : Uuid) : WriterCall (Except DbError Bool)
  | publishToRoom (broadcastId : Uuid) (payload : WsPayload) : WriterCall (Except DbError Unit)
  /-- Spawns a task. -/
  | invalidateChat (broadcastId : Uuid) : WriterCall Unit

abbrev WriterOp (α : Type) := Act WriterCall ChatError α

namespace WriterOp

def query {α : Type} (c : WriterCall (Except DbError α)) : WriterOp α :=
  Act.ask ChatError.database c

def lookup {α : Type} (c : WriterCall (Except DbError α)) : WriterOp (Except ChatError α) :=
  Act.attempt (query c)

def okOr {α : Type} (error : ChatError) : Option α → WriterOp α
  | some a => pure a
  | none => throw error

def refuse (error : ChatError) (cond : Bool) : WriterOp Unit :=
  if cond then throw error else pure ()

def invalidateChat (broadcastId : Uuid) : WriterOp Unit :=
  ExceptT.mk (.call (.invalidateChat broadcastId) fun _ => .ret (.ok ()))

def publishToRoom (broadcastId : Uuid) (payload : WsPayload) : WriterOp Unit := do
  let _ ← lookup (.publishToRoom broadcastId payload)
  return ()

def sendMessage (id : Uuid) (req : SendMessageRequest) : WriterOp ChatMessageResponse := do
  let isActiveResult ← lookup (.isActiveBroadcast req.broadcastId)
  let isParticipantResult ← lookup (.isBroadcastParticipant req.broadcastId req.senderId)
  let isActive ← Act.ofExcept isActiveResult
  let isParticipant ← Act.ofExcept isParticipantResult
  refuse .broadcastNotLive !isActive
  refuse .notParticipant !isParticipant
  let row ← query (.createMessage id req.broadcastId req.senderId req.content)
  invalidateChat req.broadcastId
  let response := row.response
  publishToRoom req.broadcastId (.newMessage response)
  return response

def editMessage (now : OffsetDateTime) (req : EditMessageRequest) :
    WriterOp ChatMessageResponse := do
  let messageResult ← lookup (.findMessageById req.messageId)
  let isActiveResult ← lookup (.isActiveBroadcast req.broadcastId)
  let message ← okOr .notFound (← Act.ofExcept messageResult)
  refuse .broadcastNotLive !(← Act.ofExcept isActiveResult)
  refuse .notSender (req.senderId != message.senderId)
  refuse .editWindowExpired !(message.canBeEdited now)
  let row ← okOr .notFound (← query (.updateMessage req.messageId req.senderId req.content))
  let response := row.response
  invalidateChat req.broadcastId
  publishToRoom req.broadcastId (.editedMessage response)
  return response

def deleteMessage (req : DeleteMessageRequest) : WriterOp Unit := do
  let deleted ← query (.softDeleteMessage req.messageId req.senderId)
  refuse .notSender !deleted
  invalidateChat req.broadcastId
  publishToRoom req.broadcastId (.deletedMessage req.broadcastId req.messageId)

end WriterOp

/-! ## The same operations without the cache -/

/-- The program with its calls on the pool, and no invalidation. -/
def uncached {α : Type} : Prog WriterCall α → Prog (Cmd WsStmt DbError) α
  | .ret a => .ret a
  | .call (.createMessage id b u content) k =>
    .call (.exec .pool (.chat (.createMessage id b u content))) fun r => uncached (k r)
  | .call (.updateMessage m u content) k =>
    .call (.exec .pool (.chat (.updateMessage m u content))) fun r => uncached (k r)
  | .call (.findMessageById m) k =>
    .call (.exec .pool (.chat (.findMessageById m))) fun r => uncached (k r)
  | .call (.softDeleteMessage m u) k =>
    .call (.exec .pool (.chat (.softDeleteMessage m u))) fun r => uncached (k r)
  | .call (.isBroadcastParticipant b u) k =>
    .call (.exec .pool (.chat (.isBroadcastParticipant b u))) fun r => uncached (k r)
  | .call (.isActiveBroadcast b) k =>
    .call (.exec .pool (.chat (.isActiveBroadcast b))) fun r => uncached (k r)
  | .call (.publishToRoom b payload) k =>
    .call (.exec .pool (.chat (.publishToRoom b payload))) fun r => uncached (k r)
  | .call (.invalidateChat _) k => uncached (k ())

namespace WriterOp

def uncached {α : Type} (x : WriterOp α) : ChatSvc α := ExceptT.mk (Meno.uncached x.run)

section Uncached

variable {α β : Type}

theorem uncached_run_bind (p : Prog WriterCall α) (f : α → Prog WriterCall β) :
    Meno.uncached (p >>= f) = Meno.uncached p >>= fun a => Meno.uncached (f a) := by
  induction p with
  | ret a => rfl
  | call c k ih =>
    cases c with
    | invalidateChat b => exact ih ()
    | _ => exact congrArg _ (funext ih)

@[simp] theorem uncached_pure (a : α) : uncached (pure a) = pure a := rfl

@[simp] theorem uncached_bind (x : WriterOp α) (f : α → WriterOp β) :
    uncached (x >>= f) = uncached x >>= fun a => uncached (f a) := by
  have hb : (x >>= f).run = x.run >>= ExceptT.bindCont f := rfl
  have hb' : ExceptT.run (uncached x >>= fun a => uncached (f a)) =
      Meno.uncached x.run >>= ExceptT.bindCont fun a => uncached (f a) := rfl
  refine ExceptT.ext ?_
  rw [hb', uncached, hb, uncached_run_bind]
  refine congrArg (Meno.uncached x.run >>= ·) (funext fun r => ?_)
  cases r <;> rfl

@[simp] theorem uncached_map (f : α → β) (x : WriterOp α) :
    uncached (f <$> x) = f <$> uncached x := by
  rw [map_eq_pure_bind, map_eq_pure_bind, uncached_bind]
  rfl

@[simp] theorem uncached_attempt (x : WriterOp α) :
    uncached (Act.attempt x) = Act.attempt (uncached x) := by
  have hrun : (Act.attempt x).run = x.run >>= fun r => .ret (.ok r) := rfl
  refine ExceptT.ext ?_
  change Meno.uncached (Act.attempt x).run = _
  rw [hrun, uncached_run_bind]
  rfl

@[simp] theorem uncached_ofExcept (r : Except ChatError α) :
    uncached (Act.ofExcept r) = Act.ofExcept r := by
  cases r <;> rfl

@[simp] theorem uncached_okOr (error : ChatError) (o : Option α) :
    uncached (okOr error o) = ChatService.okOr error o := by
  cases o <;> rfl

@[simp] theorem uncached_refuse (error : ChatError) (cond : Bool) :
    uncached (refuse error cond) = ChatService.refuse error cond := by
  cases cond <;> rfl

@[simp] theorem uncached_invalidateChat (b : Uuid) : uncached (invalidateChat b) = pure () := rfl

/-- A call on the pool. -/
theorem uncached_query {c : WriterCall (Except DbError α)} {s : ChatStmt α}
    (h : ∀ k : Except DbError α → Prog WriterCall (Except ChatError α),
      Meno.uncached (.call c k) = .call (.exec .pool (.chat s)) fun r => Meno.uncached (k r)) :
    uncached (query c) = ChatService.query s := by
  refine ExceptT.ext ((h _).trans (congrArg _ (funext fun r => ?_)))
  cases r <;> rfl

@[simp] theorem uncached_isActiveBroadcast (b : Uuid) :
    uncached (query (.isActiveBroadcast b)) = ChatService.query (.isActiveBroadcast b) :=
  uncached_query fun _ => rfl

@[simp] theorem uncached_isBroadcastParticipant (b u : Uuid) :
    uncached (query (.isBroadcastParticipant b u)) =
      ChatService.query (.isBroadcastParticipant b u) :=
  uncached_query fun _ => rfl

@[simp] theorem uncached_findMessageById (m : Uuid) :
    uncached (query (.findMessageById m)) = ChatService.query (.findMessageById m) :=
  uncached_query fun _ => rfl

@[simp] theorem uncached_createMessage (id b u : Uuid) (content : String) :
    uncached (query (.createMessage id b u content)) =
      ChatService.query (.createMessage id b u content) :=
  uncached_query fun _ => rfl

@[simp] theorem uncached_updateMessage (m u : Uuid) (content : String) :
    uncached (query (.updateMessage m u content)) =
      ChatService.query (.updateMessage m u content) :=
  uncached_query fun _ => rfl

@[simp] theorem uncached_softDeleteMessage (m u : Uuid) :
    uncached (query (.softDeleteMessage m u)) = ChatService.query (.softDeleteMessage m u) :=
  uncached_query fun _ => rfl

@[simp] theorem uncached_publishToRoom (b : Uuid) (payload : WsPayload) :
    uncached (publishToRoom b payload) = ChatService.publishToRoom b payload := by
  have hquery : uncached (query (.publishToRoom b payload)) =
      ChatService.query (.publishToRoom b payload) := uncached_query fun _ => rfl
  simp [publishToRoom, ChatService.publishToRoom, lookup, ChatService.lookup, hquery]

end Uncached

/-- Without the cache, these are the operations that the dispatcher calls. -/
theorem uncached_sendMessage (id : Uuid) (req : SendMessageRequest) :
    uncached (sendMessage id req) = ChatService.sendMessage id req := by
  simp [sendMessage, ChatService.sendMessage, lookup, ChatService.lookup]

theorem uncached_editMessage (now : OffsetDateTime) (req : EditMessageRequest) :
    uncached (editMessage now req) = ChatService.editMessage now req := by
  simp [editMessage, ChatService.editMessage, lookup, ChatService.lookup]

theorem uncached_deleteMessage (req : DeleteMessageRequest) :
    uncached (deleteMessage req) = ChatService.deleteMessage req := by
  simp [deleteMessage, ChatService.deleteMessage]

end WriterOp

end Meno
