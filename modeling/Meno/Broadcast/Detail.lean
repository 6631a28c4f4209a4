import Meno.Lib.Expiring
import Meno.Broadcast.LiveRows

/-!
# Meno.Broadcast.Detail

`get_broadcast`, and the response that it keeps in Redis for a minute. It sets the key in the
background (`coalesce_cache`), and the operations that change a broadcast delete it in the
background, or do not. The calls of the spawned tasks that are about the key, or about what the
response shows, come one by one and in any order; the rest of the tasks is left out.
-/

namespace Meno

open Lib BroadcastRepository BroadcastService

/-! ## What is fetched -/

namespace BroadcastService

/-- A broadcast that is not active has no live count. -/
def shownLiveCount (broadcastId : Uuid) (broadcast : Broadcast) : BroadcastSvc Int :=
  if broadcast.isActive then do
    return (← getLiveCount broadcastId).getD 1
  else pure 0

/-- What `get_broadcast` does when nothing is kept. -/
def fetchBroadcast (now : OffsetDateTime) (broadcastId : Uuid) : BroadcastSvc BroadcastResponse := do
  let broadcast ← okOr .notFound (← query .pool (.findById broadcastId))
  let creatorResult ← lookup (.findUserSummary broadcast.creatorId)
  let cohostsResult ← lookup (.getCohosts broadcastId)
  let totalParticipantsResult ← lookup (.getTotalParticipants broadcastId)
  let creator ← found .userNotFound creatorResult
  let cohosts ← Act.ofExcept cohostsResult
  let totalCount ← Act.ofExcept totalParticipantsResult
  let liveCount ← shownLiveCount broadcastId broadcast
  let ctx ← buildCtx broadcast none none liveCount totalCount
  return buildResponse now broadcast creator cohosts ctx

/-- The calls of `start` up to its commit. -/
def startCommit (now : OffsetDateTime) (broadcastId userId : Uuid) :
    BroadcastSvc (Broadcast × UserSummary × Token) := do
  let broadcastResult ← lookup (.findById broadcastId)
  let creatorResult ← lookup (.findUserSummary userId)
  let broadcast ← found .notFound broadcastResult
  let creator ← found .userNotFound creatorResult
  refuse .notCreator (broadcast.creatorId != userId)
  refuse .alreadyLive (broadcast.status == .active)
  createRoom broadcastId
  let broadcastToken ← mintToken creator.id creator.fullName broadcastId .host none
  beginTx
  let broadcast ← query .tx (.setActive { broadcastId, broadcastToken, startTime := now })
  query .tx <| .upsertParticipant {
    broadcastId, participantId := creator.id, role := .host, joinedAt := now }
  commitTx
  return (broadcast, creator, broadcastToken)

/-- The response that `start` puts together after its commit. -/
def startRespond (now : OffsetDateTime) (broadcastId : Uuid)
    (r : Broadcast × UserSummary × Token) : BroadcastSvc BroadcastSessionResponse := do
  let (broadcast, creator, broadcastToken) := r
  let cohosts ← query .pool (.getCohosts broadcastId)
  return {
    broadcast := buildResponse now broadcast creator cohosts (hostCtx creator.id 1)
    token := broadcastToken }

theorem start_eq (now : OffsetDateTime) (b u : Uuid) :
    start now b u = startCommit now b u >>= startRespond now b := by
  simp only [start, startCommit, startRespond, bind_assoc, pure_bind]

end BroadcastService

/-- What `get_broadcast` reads of a broadcast. -/
structure Reading where
  broadcast : Option Broadcast
  creator : Option UserSummary
  cohosts : List UserSummary
  totalParticipants : Int
  /-- As it is shown. -/
  liveCount : Int
  hostGrace : Bool
deriving DecidableEq

namespace BroadcastDb

def reading (db : BroadcastDb) (b : Uuid) : Reading where
  broadcast := findById db b
  creator := (findById db b).bind fun row => findUserSummary db row.creatorId
  cohosts := getCohosts db b
  totalParticipants := getTotalParticipants db b
  liveCount := if (findById db b).any Broadcast.isActive then (db.keys.liveCount b).getD 1 else 0
  hostGrace := db.keys.hostGrace b

def setHostGrace (db : BroadcastDb) (b : Uuid) (isSet : Bool) : BroadcastDb :=
  { db with keys := { db.keys with hostGrace := Function.update db.keys.hostGrace b isSet } }

end BroadcastDb

namespace Reading

def context (r : Reading) : BroadcastContext where
  isReconnecting := r.hostGrace
  liveCount := r.liveCount
  totalCount := r.totalParticipants
  participantRole := .participant

def response (r : Reading) (now : OffsetDateTime) : Except BroadcastError BroadcastResponse :=
  match r.broadcast, r.creator with
  | none, _ => .error .notFound
  | some _, none => .error .userNotFound
  | some broadcast, some creator =>
    .ok (buildResponse now broadcast creator r.cohosts r.context)

end Reading

/-- `fetchBroadcast`, when all its calls are answered. -/
def fetched (db : BroadcastDb) (now : OffsetDateTime) (b : Uuid) :
    Except BroadcastError BroadcastResponse :=
  (Txn.run broadcastEngine (fetchBroadcast now b) db now []).1

section Fetched

variable {db : BroadcastDb} {now t : OffsetDateTime} {b : Uuid} {row : Broadcast}

theorem ends_shownLiveCount {P : Int → BroadcastDb → Option (List BroadcastWrite) → Prop}
    {F : BroadcastError → BroadcastDb → Option (List BroadcastWrite) → Prop}
    {txn : Option (List BroadcastWrite)}
    (hP : P (if row.isActive then (db.keys.liveCount b).getD 1 else 0) db txn) :
    Txn.Ends broadcastEngine true t (shownLiveCount b row) P F db txn := by
  unfold shownLiveCount
  split
  · rename_i hactive
    rw [if_pos hactive] at hP
    exact Txn.ends_bind (Txn.ends_read rfl (Txn.ends_pure hP) nofun)
  · rename_i hactive
    rw [if_neg hactive] at hP
    exact Txn.ends_pure hP

theorem fetchBroadcast_ends : Txn.Ends broadcastEngine true t (fetchBroadcast now b)
    (fun response _ _ => (db.reading b).response now = .ok response)
    (fun e _ _ => (db.reading b).response now = .error e) db none := by
  have hfound : (db.reading b).broadcast = findById db b := rfl
  refine Txn.ends_bind (Txn.ends_read rfl ?_ nofun)
  refine Txn.ends_bind (ends_okOr (fun row hrow => ?_) fun hnone => ?_)
  swap
  · rw [hnone] at hfound
    simp [Reading.response, hfound]
  have hcreator : (db.reading b).creator = findUserSummary db row.creatorId := by
    simp [BroadcastDb.reading, hrow]
  rw [hrow] at hfound
  refine Txn.ends_bind (ends_lookup rfl fun creatorResult hc => ?_)
  refine Txn.ends_bind (ends_lookup rfl fun cohostsResult hcohosts => ?_)
  refine Txn.ends_bind (ends_lookup rfl fun totalResult htotal => ?_)
  refine Txn.ends_bind (ends_found hc (fun creator hsome => ?_) (fun hnone => ?_) nofun)
  swap
  · rw [hnone] at hcreator
    simp [Reading.response, hfound, hcreator]
  rw [hsome] at hcreator
  refine Txn.ends_bind (ends_outcome hcohosts ?_ nofun)
  refine Txn.ends_bind (ends_outcome htotal ?_ nofun)
  refine Txn.ends_bind (ends_shownLiveCount ?_)
  refine Txn.ends_bind (Txn.ends_bind (Txn.ends_bind (ends_lookup rfl ?_)))
  rintro _ (rfl | ⟨hcalm, -⟩)
  swap
  · cases hcalm
  have hid : row.id = b := Table.key_of_get (Option.filter_eq_some_iff.1 hrow).1
  refine Txn.ends_pure (Txn.ends_bind (Txn.ends_pure (Txn.ends_pure (Txn.ends_pure ?_))))
  simp [Reading.response, hsome, Reading.context, BroadcastDb.reading, hrow, hid]

theorem fetched_eq (db : BroadcastDb) (now : OffsetDateTime) (b : Uuid) :
    fetched db now b = (db.reading b).response now := by
  obtain ⟨s, hs⟩ := Txn.run_ends [] (@fetchBroadcast_ends db now now b) fun _ => rfl
  revert hs
  unfold fetched
  generalize Txn.run broadcastEngine (fetchBroadcast now b) db now [] = out
  obtain ⟨e | response, d⟩ := out
  · exact fun h => h.symm
  · exact fun h => h.symm

end Fetched

/-! ## The tasks -/

/-- A response under the key of its broadcast; and, which nobody sees, when and of what it was
made. -/
structure KeptResponse where
  response : BroadcastResponse
  made : OffsetDateTime
  seen : Reading
  built : seen.response made = .ok response

inductive DetailCall where
  /-- `invalidate_broadcast_cache`. -/
  | invalidate (broadcastId : Uuid)
  /-- The `SET` of `coalesce_cache`. -/
  | fill (broadcastId : Uuid) (kept : KeptResponse)
  | count (task : CountTask)
  | deleteHostGrace (broadcastId : Uuid)

def DetailCall.broadcastId : DetailCall → Uuid
  | invalidate b => b
  | fill b _ => b
  | count task => task.broadcastId
  | deleteHostGrace b => b

/-- The tasks that an operation spawns. `delete`, `add_cohost` and `remove_cohost` do not
invalidate. -/
def BroadcastOp.details (op : BroadcastOp) (t : OffsetDateTime) (faults : List Bool)
    (db : BroadcastDb) : List (List DetailCall) :=
  let ok := (op.run t faults db).1.isOk
  match op with
  | .update _ _ b _ => if ok then [[.invalidate b]] else []
  | .delete b _ => if ok then [[.count (.deleteLiveCount b), .deleteHostGrace b]] else []
  | .start now b u =>
    (if (Txn.run broadcastEngine (startCommit now b u) db t faults).1.isOk then [[.invalidate b]]
      else []) ++ if ok then [[.count (.setLiveCount b)]] else []
  | .endBroadcast _ b _ =>
    if ok then [[.invalidate b], [.count (.deleteLiveCount b), .deleteHostGrace b]] else []
  | .join now b u =>
    if (Txn.run broadcastEngine (joinCommit now b u) db t faults).1.isOk then
      [[.invalidate b], [.count (.incrementLiveCount b)]]
    else []
  | .leave _ b u =>
    if ok && leaves db b u then [[.invalidate b], [.count (.decrementLiveCount b)]] else []
  | .removeCohost _ b u _ fromRoom =>
    if ok && isCohost db b u && fromRoom then [[.count (.decr b)]] else []
  | _ => []

/-! ## Runs -/

/-- The tables and keys, the responses that are kept, and what is left of the spawned tasks, oldest
first. -/
structure DetailState where
  db : BroadcastDb
  cache : Expiring Uuid KeptResponse OffsetDateTime
  tasks : List (List DetailCall)
  clock : OffsetDateTime

inductive DetailEvent where
  /-- An operation, at the time of its statements, with the calls that fail. -/
  | call (op : BroadcastOp) (t : OffsetDateTime) (faults : List Bool)
  /-- A whole `get_broadcast`. One that does not get the lock is here when it has stopped waiting. -/
  | getBroadcast (broadcastId : Uuid) (acquiresLock : Bool)
  /-- The next call of the `i`-th task. -/
  | task (i : Nat) (fails : Bool)
  /-- A host's grace period begins, or is over. -/
  | hostGrace (broadcastId : Uuid) (isSet : Bool)

structure DetailEntry where
  time : OffsetDateTime
  event : DetailEvent

/-- `TTL_60_SECS` as a time span. -/
def detailTtl : Int := 60 * 1000000000

namespace DetailState

/-- Nothing is kept, and nothing is under way. -/
def start (db : BroadcastDb) (clock : OffsetDateTime) : DetailState where
  db := db
  cache := .empty
  tasks := []
  clock := clock

variable (s : DetailState)

def getBroadcast (now : OffsetDateTime) (b : Uuid) (acquiresLock : Bool) :
    Except BroadcastError BroadcastResponse × DetailState :=
  match s.cache.find now b with
  | some kept => (.ok kept.response, s)
  | none =>
    match h : fetched s.db now b with
    | .error e => (.error e, s)
    | .ok response =>
      let kept : KeptResponse := {
        response
        made := now
        seen := s.db.reading b
        built := (fetched_eq s.db now b).symm.trans h }
      (.ok response,
        if acquiresLock then { s with tasks := s.tasks ++ [[.fill b kept]] } else s)

/-- A call of a task, and the call that it may lead to. -/
def call (time : OffsetDateTime) (fails : Bool) : DetailCall → DetailState × Option DetailCall
  | .invalidate b => (if fails then s else { s with cache := s.cache.set b none }, none)
  | .fill b kept =>
    let entry := { value := kept, deadline := some (time + detailTtl) }
    (if fails then s else { s with cache := s.cache.set b (some entry) }, none)
  | .count task =>
    let (key, rest) := task.call fails (s.db.keys.liveCount task.broadcastId)
    ({ s with db := s.db.setLiveCount task.broadcastId key }, rest.map .count)
  | .deleteHostGrace b => (if fails then s else { s with db := s.db.setHostGrace b false }, none)

def runTask (time : OffsetDateTime) (i : Nat) (fails : Bool) : DetailState :=
  match s.tasks[i]? with
  | some (call :: rest) =>
    let (s', again) := s.call time fails call
    { s' with tasks := s.tasks.set i (again.toList ++ rest) }
  | _ => s

def happen (time : OffsetDateTime) : DetailEvent → DetailState
  | .call op t faults =>
    { s with
      db := (op.run t faults s.db).2
      tasks := s.tasks ++ op.details t faults s.db }
  | .getBroadcast b acquiresLock => (s.getBroadcast time b acquiresLock).2
  | .task i fails => s.runTask time i fails
  | .hostGrace b isSet => { s with db := s.db.setHostGrace b isSet }

def step (e : DetailEntry) : DetailState := { s.happen e.time e.event with clock := e.time }

def run (es : List DetailEntry) : DetailState := es.foldl step s

/-- Calls that are still to be made. -/
def pending : List DetailCall := s.tasks.flatten

end DetailState

end Meno
