import Meno.Chat.Dto
import Meno.Lib.Prog
import Meno.Lib.Table

/-!
# Meno.Ws.Hub

`WsService` and `WsPubSubBridge`: the connections and rooms of one instance of the API, and how what
is published over Redis gets into the queues of its connections. The methods are programs over the
accesses to the maps of the instance and the calls to Redis, each of which is made at one time.

What is published has a number, which stands for its call. A queue is all that has been put into it.
-/

namespace Meno.Ws

open Lib

/-! ## Messages -/

structure WsPayload where
  event : WsEvent
  data : Value

def hello : WsPayload where
  event := .newMessage
  data := .string "hello"

structure Post where
  number : Nat
  payload : WsPayload

def numbers (posts : List Post) : List Nat := posts.map Post.number

inductive WsPubSubEnvelope where
  | room (roomId : Uuid) (post : Post)
  | user (userId : Uuid) (post : Post)
  | broadcast (post : Post)

def WsPubSubEnvelope.post : WsPubSubEnvelope → Post
  | .room _ post => post
  | .user _ post => post
  | .broadcast post => post

/-! ## The maps of an instance -/

structure ConnectionSender where
  connId : Nat
  queue : List Post

def ConnectionSender.send (s : ConnectionSender) (post : Post) : ConnectionSender :=
  { s with queue := s.queue ++ [post] }

structure Client where
  userId : Uuid
  senders : List ConnectionSender

def Client.send (c : Client) (post : Post) : Client :=
  { c with senders := c.senders.map (·.send post) }

/-- `DashSet<Uuid>`. -/
abbrev UserSet := Table Uuid id

structure Room where
  broadcastId : Uuid
  members : UserSet

/-- `connSeq` does not wrap round, as the program's `usize` does after 2^64 registrations. -/
structure WsService where
  clients : Table Client Client.userId
  rooms : Table Room Room.broadcastId
  connSeq : Nat

def maxWsConnectionsPerUser : Nat := 5

namespace WsService

def new : WsService where
  clients := .empty
  rooms := .empty
  connSeq := 0

variable (h : WsService)

/-- The connections of a user. -/
def senders (userId : Uuid) : List ConnectionSender :=
  ((h.clients.get userId).map Client.senders).getD []

/-- The users in a room. -/
def members (broadcastId : Uuid) : UserSet := ((h.rooms.get broadcastId).map Room.members).getD .empty

/-! ### Connections -/

def register (userId : Uuid) : Option Nat × WsService :=
  if maxWsConnectionsPerUser ≤ (h.senders userId).length then (none, h)
  else
    let sender : ConnectionSender := { connId := h.connSeq, queue := [] }
    (some h.connSeq, {
      h with
      clients := h.clients.put { userId, senders := h.senders userId ++ [sender] }
      connSeq := h.connSeq + 1 })

/-- The first half of `unregister`: whether the user has no connection then. -/
def retainOthers (userId : Uuid) (connId : Nat) : Bool × WsService :=
  match h.clients.get userId with
  | none => (false, h)
  | some entry =>
    let senders := entry.senders.filter fun c => c.connId ≠ connId
    (senders.isEmpty, { h with clients := h.clients.put { entry with senders } })

def removeClient (userId : Uuid) : WsService := { h with clients := h.clients.erase userId }

def isOnline (userId : Uuid) : Bool := (h.clients.get userId).isSome

def unregister (userId : Uuid) (connId : Nat) : WsService :=
  match h.retainOthers userId connId with
  | (true, h) => h.removeClient userId
  | (false, h) => h

/-! ### Rooms -/

def insertRoomMember (broadcastId userId : Uuid) : WsService :=
  { h with rooms := h.rooms.put { broadcastId, members := (h.members broadcastId).put userId } }

/-- Whether there is the room, and the user taken out of it. -/
def removeRoomMember (broadcastId userId : Uuid) : Bool × WsService :=
  match h.rooms.get broadcastId with
  | none => (false, h)
  | some room =>
    (true, { h with rooms := h.rooms.put { room with members := room.members.erase userId } })

def roomIsEmpty (broadcastId : Uuid) : Bool := (h.members broadcastId).rows.isEmpty

def removeRoom (broadcastId : Uuid) : WsService := { h with rooms := h.rooms.erase broadcastId }

def addLocalRoomMember (broadcastId userId : Uuid) : Bool × WsService :=
  (h.roomIsEmpty broadcastId, h.insertRoomMember broadcastId userId)

def clearLocalRoom (broadcastId : Uuid) : List Uuid × WsService :=
  ((h.members broadcastId).rows, h.removeRoom broadcastId)

/-! ### Delivery -/

/-- Into the queues of the user's connections, if there is an entry for the user. -/
def sendToSenders (userId : Uuid) (post : Post) : Bool × WsService :=
  match h.clients.get userId with
  | none => (false, h)
  | some client => (true, { h with clients := h.clients.put (client.send post) })

/-- The guard of the room is held until all its users are sent to. -/
def sendToRoom (broadcastId : Uuid) (post : Post) : WsService :=
  (h.members broadcastId).rows.foldl (fun h userId => (h.sendToSenders userId post).2) h

def broadcastAll (post : Post) : WsService :=
  { h with clients := h.clients.modify (·.send post) fun _ => rfl }

/-! ### Who gets what -/

variable {h} {u u' b : Uuid}

theorem senders_put (c : Client) :
    { h with clients := h.clients.put c }.senders u =
      if u = c.userId then c.senders else h.senders u := by
  simp only [senders, Table.get_put]
  split <;> rfl

theorem senders_register : (h.register u).2.senders u' =
    if u' = u ∧ (h.senders u).length < maxWsConnectionsPerUser then
      h.senders u ++ [{ connId := h.connSeq, queue := [] }]
    else h.senders u' := by
  unfold register
  split
  · rename_i hfull
    rw [if_neg fun hfits => absurd hfits.2 (Nat.not_lt.2 hfull)]
  · rename_i hfits
    have hput := @senders_put h u'
      { userId := u, senders := h.senders u ++ [{ connId := h.connSeq, queue := [] }] }
    by_cases hu : u' = u
    · rw [if_pos ⟨hu, Nat.lt_of_not_le hfits⟩]
      exact hput.trans (if_pos hu)
    · rw [if_neg fun h => hu h.1]
      exact hput.trans (if_neg hu)

theorem senders_retainOthers (connId : Nat) : (h.retainOthers u connId).2.senders u' =
    if u' = u then (h.senders u).filter fun c => c.connId ≠ connId else h.senders u' := by
  cases hget : h.clients.get u with
  | none =>
    have hnone : h.senders u = [] := by rw [senders, hget]; rfl
    simp only [retainOthers, hget]
    split
    · rename_i hu
      rw [hu, hnone]
      rfl
    · rfl
  | some entry =>
    have hkey : entry.userId = u := Table.key_of_get hget
    have hsome : h.senders u = entry.senders := by rw [senders, hget]; rfl
    simp only [retainOthers, hget, senders_put, hkey, hsome]

theorem senders_removeClient :
    (h.removeClient u).senders u' = if u' = u then [] else h.senders u' := by
  simp only [senders, removeClient, Table.get_erase]
  split <;> rfl

theorem senders_sendToSenders (post : Post) : (h.sendToSenders u post).2.senders u' =
    if u' = u then (h.senders u).map (·.send post) else h.senders u' := by
  cases hget : h.clients.get u with
  | none =>
    have hnone : h.senders u = [] := by rw [senders, hget]; rfl
    simp only [sendToSenders, hget]
    split
    · rename_i hu
      rw [hu, hnone]
      rfl
    · rfl
  | some client =>
    have hkey : client.userId = u := Table.key_of_get hget
    have hsome : h.senders u = client.senders := by rw [senders, hget]; rfl
    simp only [sendToSenders, hget, senders_put, Client.send, hkey, hsome]

@[simp] theorem rooms_sendToSenders (post : Post) : (h.sendToSenders u post).2.rooms = h.rooms := by
  simp only [sendToSenders]
  split <;> rfl

/-- Each of some users once. -/
theorem senders_foldl (post : Post) (us : List Uuid) (hus : us.Nodup) :
    ∀ h : WsService, (us.foldl (fun h u => (h.sendToSenders u post).2) h).senders u =
      if u ∈ us then (h.senders u).map (·.send post) else h.senders u := by
  induction us with
  | nil => intro h; rfl
  | cons v us ih =>
    intro h
    obtain ⟨hv, hus⟩ := List.nodup_cons.1 hus
    rw [List.foldl_cons, ih hus, senders_sendToSenders]
    by_cases huv : u = v
    · subst huv
      simp [hv]
    · simp [huv]

theorem senders_sendToRoom (post : Post) : (h.sendToRoom b post).senders u =
    if u ∈ (h.members b).rows then (h.senders u).map (·.send post) else h.senders u := by
  have hnodup : (h.members b).rows.Nodup := by
    have hkeys := (h.members b).nodup
    rwa [List.map_id] at hkeys
  exact senders_foldl post _ hnodup h

theorem senders_broadcastAll (post : Post) :
    (h.broadcastAll post).senders u = (h.senders u).map (·.send post) := by
  have hget : (h.broadcastAll post).clients.get u = (h.clients.get u).map (·.send post) := by
    have hfind : ∀ l : List Client, (l.map (·.send post)).find? (fun c => c.userId = u) =
        (l.find? fun c => c.userId = u).map (·.send post) := by
      intro l
      rw [List.find?_map]
      rfl
    exact hfind h.clients.rows
  rw [senders, senders, hget]
  cases h.clients.get u <;> rfl

/-! ### Who is in which room -/

variable {b' : Uuid}

theorem members_put (room : Room) : { h with rooms := h.rooms.put room }.members b =
    if b = room.broadcastId then room.members else h.members b := by
  simp only [members, Table.get_put]
  split <;> rfl

theorem members_insertRoomMember : (h.insertRoomMember b u).members b' =
    if b' = b then (h.members b).put u else h.members b' := members_put _

theorem members_removeRoomMember : (h.removeRoomMember b u).2.members b' =
    if b' = b then (h.members b).erase u else h.members b' := by
  cases hget : h.rooms.get b with
  | none =>
    have hnone : h.members b = .empty := by rw [members, hget]; rfl
    simp only [removeRoomMember, hget]
    split
    · rename_i hb
      rw [hb, hnone]
      rfl
    · rfl
  | some room =>
    have hkey : room.broadcastId = b := Table.key_of_get hget
    have hsome : h.members b = room.members := by rw [members, hget]; rfl
    simp only [removeRoomMember, hget, members_put, hkey, hsome]

theorem members_removeRoom :
    (h.removeRoom b).members b' = if b' = b then .empty else h.members b' := by
  simp only [members, removeRoom, Table.get_erase]
  split <;> rfl

theorem members_sendToSenders (post : Post) :
    (h.sendToSenders u post).2.members b = h.members b := by
  rw [members, members, rooms_sendToSenders]

theorem members_sendToRoom (post : Post) : (h.sendToRoom b post).members b' = h.members b' := by
  have hall : ∀ (us : List Uuid) (h : WsService),
      (us.foldl (fun h u => (h.sendToSenders u post).2) h).members b' = h.members b' := by
    intro us
    induction us with
    | nil => intro h; rfl
    | cons u us ih => intro h; exact (ih _).trans (members_sendToSenders post)
  exact hall _ h

end WsService

/-! ## Redis -/

inductive RedisError where
  | unavailable

/-- `MESSAGE_BUFFER_SIZE`. -/
def messageBufferSize : Nat := 50

structure RedisState where
  /-- The sets `room:{broadcast_id}:members`. -/
  roomMembers : Uuid → UserSet
  /-- The lists `ws_buffer`, newest first. -/
  buffers : Uuid → List Post

/-- What the programs of an instance act on. -/
structure Local where
  hub : WsService
  /-- The room channels that are subscribed to one by one. -/
  channels : UserSet
  /-- What has arrived from Redis and is not delivered. -/
  inbox : List WsPubSubEnvelope
  redis : RedisState

/-! ## Calls -/

inductive WsCmd : Type → Type
  | insertRoomMember (broadcastId userId : Uuid) : WsCmd Unit
  | removeRoomMember (broadcastId userId : Uuid) : WsCmd Bool
  | roomIsEmpty (broadcastId : Uuid) : WsCmd Bool
  | removeRoom (broadcastId : Uuid) : WsCmd Unit
  | addLocalRoomMember (broadcastId userId : Uuid) : WsCmd Bool
  | clearLocalRoom (broadcastId : Uuid) : WsCmd (List Uuid)
  | sendToRoom (broadcastId : Uuid) (post : Post) : WsCmd Unit
  | sendToSenders (userId : Uuid) (post : Post) : WsCmd Bool
  | broadcastAll (post : Post) : WsCmd Unit
  /-- `message_rx().recv()`. -/
  | recv : WsCmd (Option WsPubSubEnvelope)
  | sadd (broadcastId : Uuid) (userIds : List Uuid) : WsCmd (Except RedisError Unit)
  | expireRoom (broadcastId : Uuid) : WsCmd (Except RedisError Unit)
  | srem (broadcastId userId : Uuid) : WsCmd (Except RedisError Unit)
  | scard (broadcastId : Uuid) : WsCmd (Except RedisError Nat)
  | delRoom (broadcastId : Uuid) : WsCmd (Except RedisError Unit)
  | subscribe (broadcastId : Uuid) : WsCmd (Except RedisError Unit)
  | unsubscribe (broadcastId : Uuid) : WsCmd (Except RedisError Unit)
  | lpush (userId : Uuid) (post : Post) : WsCmd (Except RedisError Unit)
  | ltrim (userId : Uuid) : WsCmd (Except RedisError Unit)
  | expireBuffer (userId : Uuid) : WsCmd (Except RedisError Unit)
  /-- The script that reads the list and deletes it. -/
  | takeBuffer (userId : Uuid) : WsCmd (Except RedisError (List Post))

namespace RedisState

variable (r : RedisState)

def setRoom (broadcastId : Uuid) (users : UserSet) : RedisState :=
  { r with roomMembers := Function.update r.roomMembers broadcastId users }

def setBuffer (userId : Uuid) (posts : List Post) : RedisState :=
  { r with buffers := Function.update r.buffers userId posts }

end RedisState

/-- The answer to a call when Redis is up. -/
def exec : {β : Type} → WsCmd β → Local → β × Local
  | _, .insertRoomMember b u, s => ((), { s with hub := s.hub.insertRoomMember b u })
  | _, .removeRoomMember b u, s =>
    let (found, hub) := s.hub.removeRoomMember b u
    (found, { s with hub })
  | _, .roomIsEmpty b, s => (s.hub.roomIsEmpty b, s)
  | _, .removeRoom b, s => ((), { s with hub := s.hub.removeRoom b })
  | _, .addLocalRoomMember b u, s =>
    let (wasEmpty, hub) := s.hub.addLocalRoomMember b u
    (wasEmpty, { s with hub })
  | _, .clearLocalRoom b, s =>
    let (users, hub) := s.hub.clearLocalRoom b
    (users, { s with hub })
  | _, .sendToRoom b post, s => ((), { s with hub := s.hub.sendToRoom b post })
  | _, .sendToSenders u post, s =>
    let (found, hub) := s.hub.sendToSenders u post
    (found, { s with hub })
  | _, .broadcastAll post, s => ((), { s with hub := s.hub.broadcastAll post })
  | _, .recv, s => (s.inbox.head?, { s with inbox := s.inbox.tail })
  | _, .sadd b us, s =>
    (.ok (), { s with redis := s.redis.setRoom b (us.foldl Table.put (s.redis.roomMembers b)) })
  | _, .expireRoom _, s => (.ok (), s)
  | _, .srem b u, s =>
    (.ok (), { s with redis := s.redis.setRoom b ((s.redis.roomMembers b).erase u) })
  | _, .scard b, s => (.ok (s.redis.roomMembers b).rows.length, s)
  | _, .delRoom b, s => (.ok (), { s with redis := s.redis.setRoom b .empty })
  | _, .subscribe b, s => (.ok (), { s with channels := s.channels.put b })
  | _, .unsubscribe b, s => (.ok (), { s with channels := s.channels.erase b })
  | _, .lpush u post, s =>
    (.ok (), { s with redis := s.redis.setBuffer u (post :: s.redis.buffers u) })
  | _, .ltrim u, s =>
    (.ok (), { s with
      redis := s.redis.setBuffer u ((s.redis.buffers u).take (messageBufferSize + 1)) })
  | _, .expireBuffer _, s => (.ok (), s)
  | _, .takeBuffer u, s => (.ok (s.redis.buffers u), { s with redis := s.redis.setBuffer u [] })

namespace WsCmd

/-- The answer when Redis cannot be reached. -/
def failure : {β : Type} → WsCmd β → Option β
  | _, .sadd _ _ => some (.error .unavailable)
  | _, .expireRoom _ => some (.error .unavailable)
  | _, .srem _ _ => some (.error .unavailable)
  | _, .scard _ => some (.error .unavailable)
  | _, .delRoom _ => some (.error .unavailable)
  | _, .subscribe _ => some (.error .unavailable)
  | _, .unsubscribe _ => some (.error .unavailable)
  | _, .lpush _ _ => some (.error .unavailable)
  | _, .ltrim _ => some (.error .unavailable)
  | _, .expireBuffer _ => some (.error .unavailable)
  | _, .takeBuffer _ => some (.error .unavailable)
  | _, _ => none

end WsCmd

/-- The answer when Redis can be reached or not. -/
def execIf (down : Bool) {β : Type} (c : WsCmd β) (s : Local) : β × Local :=
  match down, c.failure with
  | true, some b => (b, s)
  | _, _ => exec c s

/-! ## The methods -/

abbrev WsProg := Prog WsCmd

def WsCmd.call {β : Type} (c : WsCmd β) : WsProg β := .call c .ret

namespace WsService

/-- The room leaves the map when nobody is left in it. -/
def removeLocalRoomMember (broadcastId userId : Uuid) : WsProg Bool := do
  let found ← (WsCmd.removeRoomMember broadcastId userId).call
  if found then
    let becameEmpty ← (WsCmd.roomIsEmpty broadcastId).call
    if becameEmpty then
      (WsCmd.removeRoom broadcastId).call
    return becameEmpty
  else
    return false

end WsService

namespace WsPubSubBridge

def joinRoom (userId broadcastId : Uuid) : Act WsCmd RedisError Unit := do
  Act.ask id (.sadd broadcastId [userId])
  Act.ask id (.expireRoom broadcastId)
  let first ← ExceptT.lift (WsCmd.addLocalRoomMember broadcastId userId).call
  if first then
    let _ ← Act.attempt (Act.ask id (.subscribe broadcastId) : Act WsCmd RedisError Unit)

def leaveRoom (userId broadcastId : Uuid) : Act WsCmd RedisError Unit := do
  Act.ask id (.srem broadcastId userId)
  if (← Act.ask id (.scard broadcastId)) = 0 then
    let _ ← Act.attempt (Act.ask id (.delRoom broadcastId) : Act WsCmd RedisError Unit)
  let last ← ExceptT.lift (WsService.removeLocalRoomMember broadcastId userId)
  if last then
    let _ ← Act.attempt (Act.ask id (.unsubscribe broadcastId) : Act WsCmd RedisError Unit)

def initRoom (broadcastId : Uuid) (initialParticipantIds : List Uuid) :
    Act WsCmd RedisError Unit := do
  if initialParticipantIds.isEmpty then return
  Act.ask id (.sadd broadcastId initialParticipantIds)
  Act.ask id (.expireRoom broadcastId)

def teardownLocalRoom (broadcastId : Uuid) : WsProg Unit := do
  let users ← (WsCmd.clearLocalRoom broadcastId).call
  if !users.isEmpty then
    let _ ← (WsCmd.unsubscribe broadcastId).call

end WsPubSubBridge

namespace WsService

def joinRoom (userId broadcastId : Uuid) : WsProg Unit := do
  (WsCmd.insertRoomMember broadcastId userId).call
  let _ ← (WsPubSubBridge.joinRoom userId broadcastId).run

/-- Taken out of the room twice: here and by the bridge. -/
def leaveRoom (userId broadcastId : Uuid) : WsProg Unit := do
  let _ ← removeLocalRoomMember broadcastId userId
  let _ ← (WsPubSubBridge.leaveRoom userId broadcastId).run

def bufferMessage (userId : Uuid) (post : Post) : WsProg Unit := do
  let _ ← (WsCmd.lpush userId post).call
  let _ ← (WsCmd.ltrim userId).call
  let _ ← (WsCmd.expireBuffer userId).call

def sendToUser (userId : Uuid) (post : Post) : WsProg Unit := do
  if ← (WsCmd.sendToSenders userId post).call then return
  bufferMessage userId post

/-- Oldest first. -/
def drainMessageBuffer (userId : Uuid) : WsProg (List Post) := do
  match ← (WsCmd.takeBuffer userId).call with
  | .error _ => return []
  | .ok items => return items.reverse

end WsService

def deliverLocally : WsPubSubEnvelope → WsProg Unit
  | .room roomId post => do
    (WsCmd.sendToRoom roomId post).call
    if post.payload.event = .endedBroadcast ∨ post.payload.event = .broadcastDeleted then
      WsPubSubBridge.teardownLocalRoom roomId
  | .user userId post => WsService.sendToUser userId post
  | .broadcast post => (WsCmd.broadcastAll post).call

/-- The first `n` rounds. -/
def runSubscriberLoop : Nat → WsProg Unit
  | 0 => return
  | n + 1 => do
    match ← WsCmd.recv.call with
    | none => runSubscriberLoop n
    | some envelope =>
      deliverLocally envelope
      runSubscriberLoop n

end Meno.Ws
