import Meno.Broadcast.Model

/-!
# Meno.Broadcast.Dto

Requests, responses and errors of the broadcast service.
-/

namespace Meno

structure CreateBroadcastRequest where
  title : String
  description : Option String
  imageId : Option String
  imageUrl : Option String
  timeZone : Option String
  startTime : Option OffsetDateTime
  recordingEnabled : Option Bool
  cohosts : Option (List Uuid)

structure UpdateBroadcastRequest where
  title : Option String
  description : Option String
  imageId : Option String
  imageUrl : Option String
  startTime : Option OffsetDateTime
  timeZone : Option String
  recordingEnabled : Option Bool
  cohosts : Option (List Uuid)

/-- What the response says about the viewer and what does not come from the broadcast's row. -/
structure BroadcastContext where
  participantId : Option Uuid := none
  isReconnecting : Bool := false
  liveCount : Int := 0
  totalCount : Int := 0
  participantRole : ParticipantRole := .none
  isSubscribedToCreator : Bool := false
  isBookmarked : Bool := false
  timeRemainingSeconds : Option Int := none
  lastListenedAt : Option OffsetDateTime := none

structure BroadcastResponse where
  id : Uuid
  title : String
  description : Option String
  timeZone : Option String
  imageUrl : Option String
  imageId : Option String
  createdAt : OffsetDateTime
  startTime : Option OffsetDateTime
  endTime : Option OffsetDateTime
  publishedAt : Option OffsetDateTime
  durationSeconds : Option Int
  status : BroadcastStatus
  state : BroadcastState
  participantRole : ParticipantRole
  isSubscribedToCreator : Bool
  isBookmarked : Bool
  liveParticipantsCount : Int
  totalParticipants : Int
  recordingEnabled : Bool
  recordingUrl : Option String
  endReason : EndReason
  timeRemainingSeconds : Option Int
  lastListenedAt : Option OffsetDateTime
  creator : UserSummary
  cohosts : List UserSummary
deriving DecidableEq

structure BroadcastSessionResponse where
  broadcast : BroadcastResponse
  token : Token
deriving DecidableEq

structure CohostSessionResponse where
  user : UserSummary
  token : Token
deriving DecidableEq

structure LeaveBroadcastResponse where
  success : Bool
  broadcastId : Uuid
  userId : Uuid
  leftAt : OffsetDateTime
deriving DecidableEq

structure BroadcastRefreshTokenResponse where
  broadcastId : Uuid
  token : Token
  expiresAt : OffsetDateTime
deriving DecidableEq

structure EndBroadcastResponse where
  broadcastId : Uuid
  broadcastTitle : String
  broadcastImageUrl : Option String
  creatorId : Uuid
  endedReason : EndReason
  endedAt : OffsetDateTime
  durationSecs : Int
  totalParticipants : Int
  recordingEnabled : Bool
  recordingReady : Bool
deriving DecidableEq

inductive BroadcastError where
  | notLive
  | alreadyLive
  | notParticipant
  | alreadyParticipant
  | alreadyAParticipant
  | startTimeInPast
  | notCreator
  | creatorCannotJoin
  | cannotEnd
  | cannotAddSelfAsCohost
  | cohostLimitExceeded (max : Nat)
  | oneOrMoreUsersNotFound
  | cannotModifyLiveBroadcast
  | notFound
  | userNotFound
  | alreadyCohost
  | liveKitUnavailable
  | liveKitAccess
  | liveKit
  | redis
  | database (e : DbError)
deriving DecidableEq

end Meno
