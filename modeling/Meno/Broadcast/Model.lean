import Meno.Basic
import Meno.Lib.Table

/-!
# Meno.Broadcast.Model

The rows that the broadcast module works on, and the tokens it mints. `broadcasts`,
`broadcast_cohosts` and `broadcast_participants` are written by it; the users, the subscriptions,
the bookmarks and the Redis keys are only read.
-/

namespace Meno

/-! ## Enumerations -/

inductive BroadcastStatus where
  | active
  | inactive
deriving DecidableEq, Repr

inductive ParticipantRole where
  | host
  | cohost
  | participant
  | none
deriving DecidableEq, Repr

inductive EndReason where
  | normal
  | hostDisconnected
  | adminForced
  | quotaExceeded
  | none
deriving DecidableEq, Repr

/-- What a client is shown of a broadcast's state. -/
inductive BroadcastState where
  | live
  | reconnecting
  | ended
  | scheduled
  | draft
deriving DecidableEq, Repr

/-! ## LiveKit tokens -/

inductive LivekitRole where
  | host
  | cohost
  | participant
deriving DecidableEq, Repr

def ParticipantRole.toLivekit : ParticipantRole → Option LivekitRole
  | .host => some .host
  | .cohost => some .cohost
  | .participant => some .participant
  | .none => Option.none

/-- The rights that a token grants in its room. -/
structure VideoGrants where
  room : Uuid
  roomJoin : Bool
  canSubscribe : Bool
  canPublish : Bool
  roomAdmin : Bool
deriving DecidableEq

def LivekitRole.getGrant (role : LivekitRole) (room : Uuid) : VideoGrants :=
  match role with
  | .host => { room, roomJoin := true, canSubscribe := true, canPublish := true, roomAdmin := true }
  | .cohost =>
    { room, roomJoin := true, canSubscribe := true, canPublish := true, roomAdmin := false }
  | .participant =>
    { room, roomJoin := true, canSubscribe := true, canPublish := false, roomAdmin := false }

/-- The attributes `meno_role` and `meno_broadcast_id`. -/
structure TokenAttributes where
  role : ParticipantRole
  broadcastId : Uuid
deriving DecidableEq

/-- What a LiveKit token says, without its encoding and signature. -/
structure Token where
  identity : Uuid
  name : String
  grants : VideoGrants
  attributes : Option TokenAttributes
deriving DecidableEq

/-! ## Rows -/

/-- The columns of a user that the broadcast module reads. -/
structure User where
  id : Uuid
  fullName : String
  bio : Option String
  avatarId : Option String
  avatarUrl : Option String
  deletedAt : Option OffsetDateTime
deriving DecidableEq

structure UserSummary where
  id : Uuid
  fullName : String
  bio : Option String
  avatarId : Option String
  avatarUrl : Option String
deriving DecidableEq

def User.summary (u : User) : UserSummary :=
  { id := u.id, fullName := u.fullName, bio := u.bio, avatarId := u.avatarId,
    avatarUrl := u.avatarUrl }

structure Broadcast where
  id : Uuid
  title : String
  description : Option String
  status : BroadcastStatus
  creatorId : Uuid
  timeZone : Option String
  imageUrl : Option String
  imageId : Option String
  broadcastToken : Option Token
  totalParticipants : Option Int
  startTime : Option OffsetDateTime
  endTime : Option OffsetDateTime
  recordingEnabled : Bool
  recordingUrl : Option String
  publishedAt : Option OffsetDateTime
  endReason : EndReason
  createdAt : OffsetDateTime
  updatedAt : OffsetDateTime
  deletedAt : Option OffsetDateTime
deriving DecidableEq

namespace Broadcast

def isActive (b : Broadcast) : Bool := b.status == .active

def isNotActive (b : Broadcast) : Bool := b.status != .active

def getPartialState (b : Broadcast) (now : OffsetDateTime) : BroadcastState :=
  match b.status with
  | .active => .live
  | .inactive =>
    if b.endTime.isSome then .ended
    else if b.startTime.any (· > now) then .scheduled
    else .draft

end Broadcast

structure BroadcastCohost where
  broadcastId : Uuid
  cohostId : Uuid
  invitedBy : Uuid
  invitedAt : OffsetDateTime
  removedAt : Option OffsetDateTime
deriving DecidableEq

def BroadcastCohost.key (c : BroadcastCohost) : Uuid × Uuid := (c.broadcastId, c.cohostId)

structure BroadcastParticipant where
  broadcastId : Uuid
  participantId : Uuid
  role : ParticipantRole
  joinedAt : OffsetDateTime
  leftAt : Option OffsetDateTime
deriving DecidableEq

def BroadcastParticipant.key (p : BroadcastParticipant) : Uuid × Uuid :=
  (p.broadcastId, p.participantId)

/-! ## The store -/

/-- The Redis keys `live_count`, `host_grace` and `recording_ready` of a broadcast. -/
structure BroadcastKeys where
  liveCount : Uuid → Option Int
  hostGrace : Uuid → Bool
  recordingReady : Uuid → Bool

structure BroadcastDb where
  users : Lib.Table User User.id
  broadcasts : Lib.Table Broadcast Broadcast.id
  cohosts : Lib.Table BroadcastCohost BroadcastCohost.key
  participants : Lib.Table BroadcastParticipant BroadcastParticipant.key
  /-- `user_subscribers`: subscriber and subscription. -/
  subscribers : List (Uuid × Uuid)
  /-- `broadcast_bookmarks`: user and broadcast. -/
  bookmarks : List (Uuid × Uuid)
  keys : BroadcastKeys

/-- What a statement changes, row by row. -/
inductive BroadcastWrite where
  | broadcast (row : Broadcast)
  | cohost (row : BroadcastCohost)
  | dropCohost (broadcastId cohostId : Uuid)
  | participant (row : BroadcastParticipant)
  | dropParticipant (broadcastId participantId : Uuid)

namespace BroadcastDb

def apply (db : BroadcastDb) : BroadcastWrite → BroadcastDb
  | .broadcast row => { db with broadcasts := db.broadcasts.put row }
  | .cohost row => { db with cohosts := db.cohosts.put row }
  | .dropCohost b u => { db with cohosts := db.cohosts.erase (b, u) }
  | .participant row => { db with participants := db.participants.put row }
  | .dropParticipant b u => { db with participants := db.participants.erase (b, u) }

@[simp] theorem users_apply (db : BroadcastDb) (w : BroadcastWrite) :
    (db.apply w).users = db.users := by
  cases w <;> rfl

@[simp] theorem keys_apply (db : BroadcastDb) (w : BroadcastWrite) :
    (db.apply w).keys = db.keys := by
  cases w <;> rfl

@[simp] theorem participants_broadcast (db : BroadcastDb) (row : Broadcast) :
    (db.apply (.broadcast row)).participants = db.participants := rfl

@[simp] theorem broadcasts_participant (db : BroadcastDb) (row : BroadcastParticipant) :
    (db.apply (.participant row)).broadcasts = db.broadcasts := rfl

@[simp] theorem participants_participant (db : BroadcastDb) (row : BroadcastParticipant) :
    (db.apply (.participant row)).participants = db.participants.put row := rfl

@[simp] theorem broadcasts_broadcast (db : BroadcastDb) (row : Broadcast) :
    (db.apply (.broadcast row)).broadcasts = db.broadcasts.put row := rfl

end BroadcastDb

end Meno
