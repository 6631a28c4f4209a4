import Meno.Broadcast.Detail
import Meno.Lib.Erase
import Meno.Ws.Hub

/-!
# Meno.Broadcast.Effects

What `start` and `remove_cohost` do besides the tables: the room that is seeded in Redis, the events
that are published, the job that is queued, the tasks that are spawned. The operations are programs
over `ServiceCall`; without the other calls they are those of `BroadcastService` (`removeCohost_tables`,
`start_tables`). The caches, the count of live participants and `started_at` are left out.
-/

namespace Meno

open Lib

/-! ## Events, jobs and tasks -/

structure BroadcastStartedFanOutJob where
  broadcastId : Uuid
  creatorId : Uuid
  title : String
  imageUrl : Option String
deriving DecidableEq

inductive BroadcastPayload where
  | cohostDemotion (broadcastId : Uuid) (token : Token)
  | removedCohost (cohost : UserSummary)
  | numberOfLiveParticipants (broadcastId : Uuid) (count : Int)
  | newBroadcast (broadcast : BroadcastResponse)
  /-- The `NewBroadcast` of the job. -/
  | startedFanOut (job : BroadcastStartedFanOutJob)
  | homeInvalidated

def BroadcastPayload.event : BroadcastPayload → WsEvent
  | cohostDemotion _ _ => .cohostDemotion
  | removedCohost _ => .removedCohost
  | numberOfLiveParticipants _ _ => .numberOfLiveParticipants
  | newBroadcast _ => .newBroadcast
  | startedFanOut _ => .newBroadcast
  | homeInvalidated => .homeInvalidated

inductive Recipient where
  | room (broadcastId : Uuid)
  | user (userId : Uuid)
  | all
deriving DecidableEq

structure Published where
  recipient : Recipient
  payload : BroadcastPayload

/-- What a spawned task is given. -/
inductive SpawnedTask where
  | countDown (broadcastId : Uuid)
  | announceRemoval (broadcastId : Uuid) (cohost : UserSummary)
  | announceStart (response : BroadcastResponse)

/-! ## What the tasks do -/

inductive TaskCall : Type → Type where
  | getSubscriberIds (creatorId : Uuid) : TaskCall (Except DbError (List Uuid))
  /-- `DECR` of the count of live participants. -/
  | decr (broadcastId : Uuid) : TaskCall (Except Ws.RedisError Int)
  | publish (published : Published) : TaskCall Unit

def TaskCall.call {β : Type} (c : TaskCall β) : Prog TaskCall β := .call c .ret

def publish (recipient : Recipient) (payload : BroadcastPayload) : Prog TaskCall Unit :=
  (TaskCall.publish ⟨recipient, payload⟩).call

/-- Up to ten users one by one, more of them by a pipeline: the payload is published to each. -/
def publishToUsers (payload : BroadcastPayload) : List Uuid → Prog TaskCall Unit
  | [] => return
  | u :: us => do
    publish (.user u) payload
    publishToUsers payload us

namespace SpawnedTask

/-- The subscribers are told when they could be read. -/
def announceTo (response : BroadcastResponse) : Except DbError (List Uuid) → Prog TaskCall Unit
  | .ok subIds => publishToUsers (.newBroadcast response) subIds
  | .error _ => return

def prog : SpawnedTask → Prog TaskCall Unit
  | countDown b => do
    let remaining := match ← (TaskCall.decr b).call with
      | .ok n => max n 0
      | .error _ => 0
    publish (.room b) (.numberOfLiveParticipants b remaining)
  | announceRemoval b cohost => publish (.room b) (.removedCohost cohost)
  | announceStart response => do
    announceTo response (← (TaskCall.getSubscriberIds response.creator.id).call)
    publish .all .homeInvalidated

end SpawnedTask

/-! ## The operations -/

namespace BroadcastService

/-- `remove_cohost` up to its commit; nothing for a user who is no cohost. -/
def removeCohostCommit (now : OffsetDateTime) (broadcastId cohostId requesterId : Uuid)
    (removeFromRoom : Bool) : BroadcastSvc (Option UserSummary) := do
  let broadcastResult ← lookup (.findById broadcastId)
  let cohostUserResult ← lookup (.findUserSummary cohostId)
  let isCohostResult ← lookup (.isCohost broadcastId cohostId)
  let broadcast ← found .notFound broadcastResult
  let cohostUser ← found .userNotFound cohostUserResult
  let isCohost ← Act.ofExcept isCohostResult
  refuse .notLive (broadcast.status != .active)
  refuse .notCreator (broadcast.creatorId != requesterId)
  if !isCohost then
    return none
  else
    beginTx
    query .tx (.removeCohost broadcastId cohostId)
    if removeFromRoom then
      query .tx (.removeParticipant broadcastId cohostId)
    else
      query .tx <| .upsertParticipant {
        broadcastId, participantId := cohostId, role := .participant, joinedAt := now }
    commitTx
    return some cohostUser

end BroadcastService

inductive ServiceCall : Type → Type 1 where
  | tables {β : Type} (c : Cmd BroadcastStmt DbError β) : ServiceCall β
  | initRoom (broadcastId : Uuid) (initialParticipantIds : List Uuid) : ServiceCall Unit
  | publishToUser (userId : Uuid) (payload : BroadcastPayload) : ServiceCall Unit
  | pushBroadcastStartedFanout (job : BroadcastStartedFanOutJob) : ServiceCall Unit
  | spawn (task : SpawnedTask) : ServiceCall Unit

abbrev ServiceOp (α : Type) := Act ServiceCall BroadcastError α

namespace ServiceOp

def tables {α : Type} (x : BroadcastSvc α) : ServiceOp α := ExceptT.mk
    (Prog.lift .tables (ExceptT.run x))

/-- A call whose failure is only logged. -/
def effect (c : ServiceCall Unit) : ServiceOp Unit := ExceptT.mk (.call c fun _ => .ret (.ok ()))

def removeCohost (now : OffsetDateTime) (broadcastId cohostId requesterId : Uuid)
    (removeFromRoom : Bool) : ServiceOp Unit := do
  match ← tables (BroadcastService.removeCohostCommit now broadcastId cohostId requesterId removeFromRoom) with
  | none => return ()
  | some cohostUser =>
    if removeFromRoom then
      let _ ← tables (BroadcastService.lookup (.removeFromRoom broadcastId cohostId))
      effect (.spawn (.countDown broadcastId))
    else
      let _ ← tables (BroadcastService.lookup (.updatePermission broadcastId cohostId false))
      let newToken ← tables <| BroadcastService.mintToken cohostUser.id cohostUser.fullName broadcastId
        .participant none
      effect (.publishToUser cohostId (.cohostDemotion broadcastId newToken))
    effect (.spawn (.announceRemoval broadcastId cohostUser))

def start (now : OffsetDateTime) (broadcastId userId : Uuid) :
    ServiceOp BroadcastSessionResponse := do
  let (broadcast, creator, broadcastToken) ← tables (BroadcastService.startCommit now broadcastId userId)
  effect (.initRoom broadcastId [creator.id])
  effect <| .pushBroadcastStartedFanout {
    broadcastId, creatorId := broadcast.creatorId, title := broadcast.title
    imageUrl := broadcast.imageUrl }
  let cohosts ← tables (BroadcastService.query .pool (.getCohosts broadcastId))
  let response := BroadcastService.buildResponse now broadcast creator cohosts
    (BroadcastService.hostCtx creator.id 1)
  effect (.spawn (.announceStart response))
  return { broadcast := response, token := broadcastToken }

/-! ### Without the other calls -/

/-- The calls to the tables; what the others always answer. -/
def onlyTables : {β : Type} → ServiceCall β → Cmd BroadcastStmt DbError β ⊕ β
  | _, .tables c => .inl c
  | _, .initRoom _ _ => .inr ()
  | _, .publishToUser _ _ => .inr ()
  | _, .pushBroadcastStartedFanout _ => .inr ()
  | _, .spawn _ => .inr ()

@[simp] theorem erase_tables {α : Type} (x : BroadcastSvc α) :
    Act.erase onlyTables (tables x) = x := by
  have hsame : (Prog.lift .tables (ExceptT.run x)).erase onlyTables = ExceptT.run x :=
    Prog.erase_lift (f := onlyTables) (g := .tables) (fun _ => rfl) (ExceptT.run x)
  exact ExceptT.ext hsame

@[simp] theorem erase_initRoom (b : Uuid) (us : List Uuid) :
    Act.erase onlyTables (effect (.initRoom b us)) = pure () := rfl

@[simp] theorem erase_publishToUser (u : Uuid) (payload : BroadcastPayload) :
    Act.erase onlyTables (effect (.publishToUser u payload)) = pure () := rfl

@[simp] theorem erase_push (job : BroadcastStartedFanOutJob) :
    Act.erase onlyTables (effect (.pushBroadcastStartedFanout job)) = pure () := rfl

@[simp] theorem erase_spawn (task : SpawnedTask) :
    Act.erase onlyTables (effect (.spawn task)) = pure () := rfl

theorem removeCohost_tables (now : OffsetDateTime) (b u r : Uuid) (fromRoom : Bool) :
    Act.erase onlyTables (removeCohost now b u r fromRoom) =
      BroadcastService.removeCohost now b u r fromRoom := by
  simp only [removeCohost, BroadcastService.removeCohostCommit, BroadcastService.removeCohost, Act.erase_bind,
    erase_tables, bind_assoc]
  refine bind_congr fun _ => bind_congr fun _ => bind_congr fun _ => bind_congr fun _ =>
    bind_congr fun _ => bind_congr fun isCohost => bind_congr fun _ => bind_congr fun _ => ?_
  cases isCohost with
  | false => rfl
  | true =>
    cases fromRoom with
    | false => simp
    | true => simp

theorem start_tables (now : OffsetDateTime) (b u : Uuid) :
    Act.erase onlyTables (start now b u) = BroadcastService.start now b u := by
  rw [BroadcastService.start_eq, start, Act.erase_bind, erase_tables]
  refine bind_congr fun r => ?_
  simp [BroadcastService.startRespond]

end ServiceOp

/-! ## Where they run -/

/-- What an operation can reach besides the tables: the instance that it runs on, the hubs of the
others, and what it has published, queued and spawned. The tasks that it has spawned publish, and have no other effect on
it. -/
structure Surroundings (ι : Type) where
  node : Ws.Local
  others : ι → Ws.WsService
  published : List Published
  jobs : List BroadcastStartedFanOutJob
  spawned : List SpawnedTask
  /-- Which of the coming calls to Redis and to the queue fail. -/
  outages : List Bool

structure ServiceState (ι : Type) where
  session : Session BroadcastDb BroadcastWrite OffsetDateTime
  around : Surroundings ι

namespace Surroundings

variable {ι : Type}

/-- The next call to Redis or to the queue fails. -/
def down (e : Surroundings ι) : Bool := e.outages.headD false

def perform (e : Surroundings ι) : {β : Type} → ServiceCall β → Surroundings ι
  | _, .tables _ => e
  | _, .initRoom b us => { e with
      node := ((Ws.WsPubSubBridge.initRoom b us).answer (Ws.execIf e.down) e.node).2
      outages := e.outages.tail }
  | _, .publishToUser u payload => { e with
      published := if e.down then e.published else e.published ++ [⟨.user u, payload⟩]
      outages := e.outages.tail }
  | _, .pushBroadcastStartedFanout job => { e with
      jobs := if e.down then e.jobs else e.jobs ++ [job]
      outages := e.outages.tail }
  | _, .spawn task => { e with spawned := e.spawned ++ [task] }

end Surroundings

namespace ServiceState

variable {ι : Type}

def db (st : ServiceState ι) : BroadcastDb := st.session.committed

def handle : {β : Type} → ServiceCall β → ServiceState ι → β × ServiceState ι
  | _, .tables c, st =>
    let (answer, session) := Session.handle broadcastEngine c st.session
    (answer, { st with session })
  | _, .initRoom b us, st => ((), { st with around := st.around.perform (.initRoom b us) })
  | _, .publishToUser u payload, st =>
    ((), { st with around := st.around.perform (.publishToUser u payload) })
  | _, .pushBroadcastStartedFanout job, st =>
    ((), { st with around := st.around.perform (.pushBroadcastStartedFanout job) })
  | _, .spawn task, st => ((), { st with around := st.around.perform (.spawn task) })

/-- Before an operation. -/
def start (db : BroadcastDb) (t : OffsetDateTime) (faults : List Bool) (around : Surroundings ι) :
    ServiceState ι where
  session := Session.start db t faults
  around

theorem answer_effect {α : Type} (c : ServiceCall Unit) (f : Unit → ServiceOp α)
    (st : ServiceState ι) :
    (ServiceOp.effect c >>= f).answer handle st = (f ()).answer handle (handle c st).2 := rfl

/-- A part that only uses the tables. -/
theorem answer_tables_part {α : Type} (x : BroadcastSvc α) (st : ServiceState ι) :
    (ServiceOp.tables x).answer handle st = ((Act.answer (Session.handle broadcastEngine) x
      st.session).1, { st with session :=
        (Act.answer (Session.handle broadcastEngine) x st.session).2 }) := by
  have hrun : ∀ (p : Prog (Cmd BroadcastStmt DbError) (Except BroadcastError α))
      (st : ServiceState ι), Prog.run (fun c => handle (.tables c)) p st =
        ((Prog.run (Session.handle broadcastEngine) p st.session).1, { st with session :=
          (Prog.run (Session.handle broadcastEngine) p st.session).2 }) := by
    intro p
    induction p with
    | ret r => intro st; rfl
    | call c k ih => intro st; exact ih _ _
  exact (Prog.run_lift .tables handle (ExceptT.run x) st).trans (hrun _ st)

/-- To the tables, an operation is what it is without the other calls. -/
theorem answer_tables {α : Type} (x : ServiceOp α) (db : BroadcastDb) (t : OffsetDateTime)
    (faults : List Bool) (around : Surroundings ι) :
    Txn.run broadcastEngine (Act.erase ServiceOp.onlyTables x) db t faults =
      ((x.answer handle (start db t faults around)).1,
        (x.answer handle (start db t faults around)).2.db) := by
  have hrun := Prog.run_erase (f := ServiceOp.onlyTables) handle (Session.handle broadcastEngine)
    ServiceState.session ?_ ?_ x.run (start db t faults around)
  · have hsession : (start db t faults around).session = Session.start db t faults := rfl
    rw [hsession] at hrun
    have hsame : Txn.run broadcastEngine (Act.erase ServiceOp.onlyTables x) db t faults =
        ((Prog.run (Session.handle broadcastEngine) (Prog.erase ServiceOp.onlyTables x.run)
          (Session.start db t faults)).1,
        (Prog.run (Session.handle broadcastEngine) (Prog.erase ServiceOp.onlyTables x.run)
          (Session.start db t faults)).2.committed) := rfl
    rw [hsame, hrun]
    rfl
  · intro β c d s hc
    cases c with
    | tables c => cases hc; rfl
    | initRoom | publishToUser | pushBroadcastStartedFanout | spawn => cases hc
  · intro β c b s hc
    cases c with
    | tables c => cases hc
    | initRoom | publishToUser | pushBroadcastStartedFanout | spawn => exact ⟨rfl, rfl⟩

end ServiceState

end Meno
