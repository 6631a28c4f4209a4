import Meno.Broadcast.Dto
import Meno.Broadcast.Repository

/-!
# Meno.Broadcast.Service

The operations of `BroadcastService` as programs over the calls of the repository. `query .pool` is
a statement on the repository's pool, `query .tx` one on `&mut *tx`; `tokio::join!` runs its
lookups to completion, and their outcomes are looked at in the order of the code.

What an operation spawns or sends (cache invalidation, WebSocket messages, jobs, the live count)
is not part of its answer and writes none of the tables; it is left out here. `now` is what the
service reads from `OffsetDateTime::now_utc()`.
-/

namespace Meno

open Lib

/-- An operation of the broadcast service. -/
abbrev BroadcastSvc (α : Type) := Txn BroadcastStmt DbError BroadcastError α

def maxCohosts : Nat := 3

namespace BroadcastService

def query {β : Type} (e : Executor) (s : BroadcastStmt β) : BroadcastSvc β :=
  Act.ask BroadcastError.database (.exec e s)

def beginTx : BroadcastSvc Unit := Act.ask BroadcastError.database .begin

def commitTx : BroadcastSvc Unit := Act.ask BroadcastError.database .commit

/-- `.ok_or(error)?`. -/
def okOr {α : Type} (error : BroadcastError) : Option α → BroadcastSvc α
  | some a => pure a
  | none => throw error

/-- `if cond { return Err(error) }`. -/
def refuse (error : BroadcastError) (cond : Bool) : BroadcastSvc Unit :=
  if cond then throw error else pure ()

/-- One branch of a `tokio::join!`. -/
def lookup {β : Type} (s : BroadcastStmt β) : BroadcastSvc (Except BroadcastError β) :=
  Act.attempt (query .pool s)

/-- `result?.ok_or(error)?` on the outcome of such a branch. -/
def found {α : Type} (error : BroadcastError) (result : Except BroadcastError (Option α)) :
    BroadcastSvc α := do
  okOr error (← Act.ofExcept result)

/-! ## LiveKit and Redis -/

def mintToken (userId : Uuid) (userName : String) (broadcastId : Uuid) (role : LivekitRole)
    (attributes : Option TokenAttributes) : BroadcastSvc Token :=
  Act.ask (fun _ => .liveKitAccess) <|
    .exec .pool (.mintToken userId userName broadcastId role attributes)

def createRoom (broadcastId : Uuid) : BroadcastSvc Unit := do
  Act.ask (fun _ => .liveKitUnavailable) (.exec .pool .checkBreaker)
  Act.ask (fun _ => .liveKit) (.exec .pool (.createRoom broadcastId))

def getLiveCount (broadcastId : Uuid) : BroadcastSvc (Option Int) :=
  Act.ask (fun _ => .redis) (.exec .pool (.getLiveCount broadcastId))

/-- `redis.exists(&key).await.unwrap_or(false)`. -/
def existsOrFalse (s : BroadcastStmt Bool) : BroadcastSvc Bool := do
  match ← lookup s with
  | .ok b => return b
  | .error _ => return false

/-! ## Responses -/

/-- `Duration::whole_seconds` of a time span. -/
def wholeSeconds (span : Int) : Int := span.tdiv 1000000000

def buildResponse (now : OffsetDateTime) (broadcast : Broadcast) (creator : UserSummary)
    (cohosts : List UserSummary) (ctx : BroadcastContext) : BroadcastResponse where
  id := broadcast.id
  title := broadcast.title
  description := broadcast.description
  timeZone := broadcast.timeZone
  imageUrl := broadcast.imageUrl
  imageId := broadcast.imageId
  createdAt := broadcast.createdAt
  startTime := broadcast.startTime
  endTime := broadcast.endTime
  publishedAt := broadcast.publishedAt
  durationSeconds := match broadcast.startTime, broadcast.endTime with
    | some start, some «end» => some (wholeSeconds («end» - start))
    | _, _ => none
  status := broadcast.status
  state :=
    if broadcast.status = .active then
      if ctx.isReconnecting then .reconnecting else .live
    else broadcast.getPartialState now
  participantRole := ctx.participantRole
  isSubscribedToCreator := ctx.isSubscribedToCreator
  isBookmarked := ctx.isBookmarked
  liveParticipantsCount := ctx.liveCount
  totalParticipants := ctx.totalCount
  recordingEnabled := broadcast.recordingEnabled
  recordingUrl := broadcast.recordingUrl
  endReason := broadcast.endReason
  timeRemainingSeconds := ctx.timeRemainingSeconds
  lastListenedAt := ctx.lastListenedAt
  creator
  cohosts

/-- Whether the viewer subscribes to the creator, and the bookmark: `is_bookmarked` is asked with
the creator's id where it takes a broadcast's. -/
def viewerSignals (creatorId : Uuid) : Option Uuid → BroadcastSvc (Bool × Bool)
  | none => pure (false, false)
  | some pid => do
    let isSubRes ← lookup (.isSubscribed pid creatorId)
    let isBmRes ← lookup (.isBookmarked pid creatorId)
    let isSubscribed ← Act.ofExcept isSubRes
    let isBookmarked ← Act.ofExcept isBmRes
    return (isSubscribed, isBookmarked)

def buildCtx (broadcast : Broadcast) (participantId : Option Uuid)
    (participantRole : Option ParticipantRole) (liveCount totalCount : Int) :
    BroadcastSvc BroadcastContext := do
  let isReconnecting ← existsOrFalse (.hostGraceExists broadcast.id)
  let (isSubscribed, isBookmarked) ← viewerSignals broadcast.creatorId participantId
  return {
    participantId, isReconnecting, liveCount, totalCount
    participantRole := participantRole.getD .participant
    isSubscribedToCreator := isSubscribed
    isBookmarked }

/-- The context of a response to the creator. -/
def hostCtx (creatorId : Uuid) (count : Int) : BroadcastContext where
  participantId := some creatorId
  participantRole := .host
  liveCount := count
  totalCount := count

/-! ## Create, update, delete -/

def deduplicateCohosts (cohostIds : List Uuid) (creatorId : Uuid) :
    BroadcastSvc (List UserSummary) := do
  if cohostIds.isEmpty then
    return []
  else
    refuse (.cohostLimitExceeded maxCohosts) (cohostIds.length > 3)
    refuse .cannotAddSelfAsCohost (cohostIds.contains creatorId)
    let deduped := (cohostIds.insertionSort (· ≤ ·)).dedup
    let users ← query .pool (.findUsersBatch deduped)
    refuse .oneOrMoreUsersNotFound (users.length != deduped.length)
    return users

/-- The repository's `add_cohosts` makes no statement for no ids. -/
def addCohosts (broadcastId : Uuid) (cohostIds : List Uuid) (invitedBy : Uuid) :
    BroadcastSvc Unit :=
  if cohostIds.isEmpty then pure ()
  else query .tx (.addCohosts broadcastId cohostIds invitedBy)

/-- `id` is the one that the database generates; `later` is the time when the response is built. -/
def create (now later : OffsetDateTime) (id : Uuid) (req : CreateBroadcastRequest)
    (creatorId : Uuid) : BroadcastSvc BroadcastResponse := do
  refuse .alreadyLive (← query .pool (.isActiveHost creatorId))
  refuse .startTimeInPast (req.startTime.any (· ≤ now))
  let cohostIds := req.cohosts.getD []
  let cohosts ← deduplicateCohosts cohostIds creatorId
  beginTx
  let broadcast ← query .tx <| .create id {
    title := req.title, description := req.description, imageId := req.imageId,
    imageUrl := req.imageUrl, timeZone := req.timeZone, startTime := req.startTime,
    recordingEnabled := req.recordingEnabled.getD false, creatorId }
  addCohosts broadcast.id cohostIds creatorId
  commitTx
  let creator ← okOr .userNotFound (← query .pool (.findUserSummary broadcast.creatorId))
  return buildResponse later broadcast creator cohosts (hostCtx creatorId 0)

def update (now : OffsetDateTime) (req : UpdateBroadcastRequest) (broadcastId creatorId : Uuid) :
    BroadcastSvc BroadcastResponse := do
  let broadcastResult ← lookup (.findById broadcastId)
  let creatorResult ← lookup (.findUserSummary creatorId)
  let broadcast ← found .notFound broadcastResult
  let creator ← found .userNotFound creatorResult
  refuse .notCreator (broadcast.creatorId != creatorId)
  refuse .cannotModifyLiveBroadcast (broadcast.status == .active)
  let cohostIds := req.cohosts.getD []
  let cohosts ← deduplicateCohosts cohostIds creatorId
  beginTx
  let broadcast ← query .tx <| .update {
    title := req.title, description := req.description, imageId := req.imageId,
    imageUrl := req.imageUrl, timeZone := req.timeZone, startTime := req.startTime,
    recordingEnabled := req.recordingEnabled, broadcastId }
  addCohosts broadcast.id cohostIds creatorId
  commitTx
  return buildResponse now broadcast creator cohosts (hostCtx creatorId 0)

/-- `find_by_id` finds no deleted broadcast, so that the check of `deleted_at` finds none. -/
def delete (broadcastId creatorId : Uuid) : BroadcastSvc Unit := do
  let broadcastResult ← lookup (.findById broadcastId)
  let creatorResult ← lookup (.findUserSummary creatorId)
  let broadcast ← found .notFound broadcastResult
  let _ ← found .userNotFound creatorResult
  if broadcast.deletedAt.isSome then
    return ()
  else
    refuse .cannotModifyLiveBroadcast (broadcast.status == .active)
    refuse .notCreator (broadcast.creatorId != creatorId)
    let _ ← query .pool (.delete broadcastId)

/-! ## Start and end -/

def start (now : OffsetDateTime) (broadcastId userId : Uuid) :
    BroadcastSvc BroadcastSessionResponse := do
  let broadcastResult ← lookup (.findById broadcastId)
  let creatorResult ← lookup (.findUserSummary userId)
  let broadcast ← found .notFound broadcastResult
  let creator ← found .userNotFound creatorResult
  refuse .notCreator (broadcast.creatorId != userId)
  refuse .alreadyLive (broadcast.status == .active)
  createRoom broadcastId
  let broadcastToken ← mintToken creator.id creator.fullName broadcastId .host none
  beginTx
  let broadcast ← query .tx (.setActive { broadcastId, broadcastToken, startTime := now })
  query .tx <| .upsertParticipant {
    broadcastId, participantId := creator.id, role := .host, joinedAt := now }
  commitTx
  let cohosts ← query .pool (.getCohosts broadcastId)
  return {
    broadcast := buildResponse now broadcast creator cohosts (hostCtx creator.id 1)
    token := broadcastToken }

/-- `end`. -/
def endBroadcast (now : OffsetDateTime) (broadcastId userId : Uuid) :
    BroadcastSvc EndBroadcastResponse := do
  let broadcast ← okOr .notFound (← query .pool (.findById broadcastId))
  refuse .cannotEnd (broadcast.creatorId != userId)
  refuse .notLive (broadcast.status != .active)
  beginTx
  let participantIds ← query .tx (.getParticipantIdsAndClear broadcastId)
  let _ ← query .tx (.setInactive broadcastId .normal)
  commitTx
  let recordingReady ←
    if broadcast.recordingEnabled then existsOrFalse (.recordingReadyExists broadcastId)
    else pure false
  return {
    broadcastId
    broadcastTitle := broadcast.title
    broadcastImageUrl := broadcast.imageUrl
    creatorId := broadcast.creatorId
    endedReason := .normal
    endedAt := now
    durationSecs := (broadcast.startTime.map fun s => wholeSeconds (now - s)).getD 0
    totalParticipants := participantIds.length
    recordingEnabled := broadcast.recordingEnabled
    recordingReady }

/-! ## Join and leave -/

/-- The role `join` gives. -/
def joinRole (isCohost : Bool) : ParticipantRole := if isCohost then .cohost else .participant

/-- The `LivekitRole` of that role. -/
def joinLivekitRole : ParticipantRole → LivekitRole
  | .cohost => .cohost
  | _ => .participant

/-- The error of a user who is in a broadcast already. -/
def alreadyIn (broadcastId : Uuid) : Option BroadcastParticipant → BroadcastSvc Unit
  | none => pure ()
  | some participant =>
    if participant.broadcastId = broadcastId then throw .alreadyParticipant
    else throw .alreadyAParticipant

def join (now : OffsetDateTime) (broadcastId userId : Uuid) :
    BroadcastSvc BroadcastSessionResponse := do
  let broadcastResult ← lookup (.findById broadcastId)
  let userResult ← lookup (.findUserSummary userId)
  let isCohostResult ← lookup (.isCohost broadcastId userId)
  let isParticipantResult ← lookup (.findActiveParticipant userId)
  let broadcast ← found .notFound broadcastResult
  let user ← found .userNotFound userResult
  let isCohost ← Act.ofExcept isCohostResult
  refuse .notLive (broadcast.status != .active)
  refuse .creatorCannotJoin (broadcast.creatorId == userId)
  alreadyIn broadcastId (← Act.ofExcept isParticipantResult)
  let role := joinRole isCohost
  let broadcastToken ← mintToken userId user.fullName broadcastId (joinLivekitRole role) none
  beginTx
  query .tx (.upsertParticipant { broadcastId, participantId := userId, role, joinedAt := now })
  commitTx
  let creatorResult ← lookup (.findUserSummary broadcast.creatorId)
  let cohostsResult ← lookup (.getCohosts broadcastId)
  let totalCountResult ← lookup (.getTotalParticipants broadcastId)
  let creator ← found .userNotFound creatorResult
  let cohosts ← Act.ofExcept cohostsResult
  let totalCount ← Act.ofExcept totalCountResult
  let liveCount := (← getLiveCount broadcastId).getD 1
  let ctx ← buildCtx broadcast (some userId) (some role) liveCount totalCount
  return {
    broadcast := buildResponse now broadcast creator cohosts ctx
    token := broadcastToken }

def leave (now : OffsetDateTime) (broadcastId userId : Uuid) :
    BroadcastSvc LeaveBroadcastResponse := do
  let broadcastResult ← lookup (.findById broadcastId)
  let userResult ← lookup (.findUserSummary userId)
  let participantResult ← lookup (.findParticipant broadcastId userId)
  let broadcast ← found .notFound broadcastResult
  let _ ← found .userNotFound userResult
  let participant ← found .notParticipant participantResult
  if broadcast.isNotActive || participant.leftAt.isSome then
    return { success := true, broadcastId, userId, leftAt := participant.leftAt.getD now }
  else
    query .pool (.removeParticipant broadcastId userId)
    return { success := true, broadcastId, userId, leftAt := now }

/-! ## Cohosts -/

/-- The limit is checked when the list could be read. -/
def refuseFull (cohosts : Except BroadcastError (List UserSummary)) : BroadcastSvc Unit :=
  match cohosts with
  | .ok cohosts => refuse (.cohostLimitExceeded maxCohosts) (cohosts.length == maxCohosts)
  | .error _ => pure ()

def addCohost (now : OffsetDateTime) (broadcastId requesterId cohostId : Uuid) :
    BroadcastSvc CohostSessionResponse := do
  refuse .alreadyCohost (← query .pool (.isCohost broadcastId cohostId))
  let broadcastResult ← lookup (.findById broadcastId)
  let cohostUserResult ← lookup (.findUserSummary cohostId)
  let cohostsResult ← lookup (.getCohosts broadcastId)
  let broadcast ← found .notFound broadcastResult
  let cohost ← found .userNotFound cohostUserResult
  refuseFull cohostsResult
  refuse .notLive (broadcast.status != .active)
  refuse .notCreator (broadcast.creatorId != requesterId)
  refuse .cannotAddSelfAsCohost (broadcast.creatorId == cohostId)
  let broadcastToken ← mintToken cohost.id cohost.fullName broadcastId .cohost none
  beginTx
  addCohosts broadcastId [cohostId] requesterId
  query .tx <| .upsertParticipant {
    broadcastId, participantId := cohostId, role := .cohost, joinedAt := now }
  commitTx
  return { user := cohost, token := broadcastToken }

/-- The demoted cohost's new token goes out as a message; only minting it can fail. -/
def removeCohost (now : OffsetDateTime) (broadcastId cohostId requesterId : Uuid)
    (removeFromRoom : Bool) : BroadcastSvc Unit := do
  let broadcastResult ← lookup (.findById broadcastId)
  let cohostUserResult ← lookup (.findUserSummary cohostId)
  let isCohostResult ← lookup (.isCohost broadcastId cohostId)
  let broadcast ← found .notFound broadcastResult
  let cohostUser ← found .userNotFound cohostUserResult
  let isCohost ← Act.ofExcept isCohostResult
  refuse .notLive (broadcast.status != .active)
  refuse .notCreator (broadcast.creatorId != requesterId)
  if !isCohost then
    return ()
  else
    beginTx
    query .tx (.removeCohost broadcastId cohostId)
    if removeFromRoom then
      query .tx (.removeParticipant broadcastId cohostId)
    else
      query .tx <| .upsertParticipant {
        broadcastId, participantId := cohostId, role := .participant, joinedAt := now }
    commitTx
    if removeFromRoom then
      let _ ← lookup (.removeFromRoom broadcastId cohostId)
    else
      let _ ← lookup (.updatePermission broadcastId cohostId false)
      let _ ← mintToken cohostUser.id cohostUser.fullName broadcastId .participant none

/-! ## Tokens -/

/-- The role that the tables give a user now. -/
def currentRole (broadcast : Broadcast) (userId : Uuid)
    (participantResult : Except BroadcastError (Option BroadcastParticipant)) :
    BroadcastSvc ParticipantRole := do
  if broadcast.creatorId = userId then
    return .host
  else
    match ← Act.ofExcept participantResult with
    | none => throw .notParticipant
    | some p => if p.leftAt.isSome then throw .notParticipant else return p.role

/-- Six hours in nanoseconds. -/
def tokenTtl : Int := 6 * 3600 * 1000000000

def refreshToken (now : OffsetDateTime) (broadcastId userId : Uuid) :
    BroadcastSvc BroadcastRefreshTokenResponse := do
  let broadcastResult ← lookup (.findById broadcastId)
  let participantResult ← lookup (.findParticipant broadcastId userId)
  let userResult ← lookup (.findUserSummary userId)
  let broadcast ← found .notFound broadcastResult
  let user ← found .userNotFound userResult
  refuse .notLive (!broadcast.isActive)
  let role ← currentRole broadcast userId participantResult
  let livekitRole ← okOr .notParticipant role.toLivekit
  let token ← mintToken userId user.fullName broadcastId livekitRole (some { role, broadcastId })
  return { broadcastId, token, expiresAt := now + tokenTtl }

end BroadcastService

end Meno
