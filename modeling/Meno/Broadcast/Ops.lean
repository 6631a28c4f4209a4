import Meno.Broadcast.Service

/-!
# Meno.Broadcast.Ops

The operations of the broadcast service as one type, and the stores that runs of them reach. Every
operation comes with the times it reads from the service's clock.
-/

namespace Meno

open Lib

inductive BroadcastOp where
  | create (now later : OffsetDateTime) (id : Uuid) (req : CreateBroadcastRequest) (creatorId : Uuid)
  | update (now : OffsetDateTime) (req : UpdateBroadcastRequest) (broadcastId creatorId : Uuid)
  | delete (broadcastId creatorId : Uuid)
  | start (now : OffsetDateTime) (broadcastId userId : Uuid)
  | endBroadcast (now : OffsetDateTime) (broadcastId userId : Uuid)
  | join (now : OffsetDateTime) (broadcastId userId : Uuid)
  | leave (now : OffsetDateTime) (broadcastId userId : Uuid)
  | addCohost (now : OffsetDateTime) (broadcastId requesterId cohostId : Uuid)
  | removeCohost (now : OffsetDateTime) (broadcastId cohostId requesterId : Uuid)
      (removeFromRoom : Bool)
  | refreshToken (now : OffsetDateTime) (broadcastId userId : Uuid)

inductive BroadcastAnswer where
  | broadcast (r : BroadcastResponse)
  | session (r : BroadcastSessionResponse)
  | ended (r : EndBroadcastResponse)
  | left (r : LeaveBroadcastResponse)
  | cohost (r : CohostSessionResponse)
  | token (r : BroadcastRefreshTokenResponse)
  | done

namespace BroadcastOp

def prog : BroadcastOp → BroadcastSvc BroadcastAnswer
  | .create now later id req c => do
    return .broadcast (← BroadcastService.create now later id req c)
  | .update now req b c => do return .broadcast (← BroadcastService.update now req b c)
  | .delete b c => do
    BroadcastService.delete b c
    return .done
  | .start now b u => do return .session (← BroadcastService.start now b u)
  | .endBroadcast now b u => do return .ended (← BroadcastService.endBroadcast now b u)
  | .join now b u => do return .session (← BroadcastService.join now b u)
  | .leave now b u => do return .left (← BroadcastService.leave now b u)
  | .addCohost now b r u => do return .cohost (← BroadcastService.addCohost now b r u)
  | .removeCohost now b u r fromRoom => do
    BroadcastService.removeCohost now b u r fromRoom
    return .done
  | .refreshToken now b u => do return .token (← BroadcastService.refreshToken now b u)

/-- The operation run alone: its result and the store it leaves. -/
def run (op : BroadcastOp) (t : OffsetDateTime) (faults : List Bool) (db : BroadcastDb) :
    Except BroadcastError BroadcastAnswer × BroadcastDb :=
  Txn.run broadcastEngine op.prog db t faults

end BroadcastOp

/-- A store with users and nothing else. -/
def BroadcastDb.ofUsers (users : Table User User.id) : BroadcastDb where
  users
  broadcasts := .empty
  cohosts := .empty
  participants := .empty
  subscribers := []
  bookmarks := []
  keys := { liveCount := fun _ => none, hostGrace := fun _ => false,
            recordingReady := fun _ => false }

/-- The stores that runs of whole operations reach. -/
inductive BroadcastReached (users : Table User User.id) : BroadcastDb → Prop where
  | init : BroadcastReached users (.ofUsers users)
  | step {db : BroadcastDb} (op : BroadcastOp) (t : OffsetDateTime) (faults : List Bool) :
      BroadcastReached users db → BroadcastReached users (op.run t faults db).2

end Meno
