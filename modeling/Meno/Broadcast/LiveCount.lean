import Meno.Lib.Timeline
import Meno.Broadcast.Participation
import Mathlib.Logic.Function.Basic

/-!
# Meno.Broadcast.LiveCount

The Redis key `live_count` of a broadcast and the tasks that write it. An operation that has changed
who takes part spawns a task for the key and answers without waiting for it, so the tasks' calls to
Redis come later, one by one and in any order. What a spawned task does besides (the other keys, the
messages) is left out.
-/

namespace Meno

open Lib

open BroadcastRepository BroadcastService

/-! ## The tasks -/

/-- What is left of a spawned task. -/
inductive CountTask where
  | setLiveCount (broadcastId : Uuid)
  | incrementLiveCount (broadcastId : Uuid)
  | decrementLiveCount (broadcastId : Uuid)
  /-- The second call of `decrement_live_count`, when nobody remains. -/
  | del (broadcastId : Uuid)
  /-- The task of `remove_cohost`, which calls Redis itself. -/
  | decr (broadcastId : Uuid)
  | deleteLiveCount (broadcastId : Uuid)
deriving DecidableEq

namespace CountTask

def broadcastId : CountTask → Uuid
  | setLiveCount b => b
  | incrementLiveCount b => b
  | decrementLiveCount b => b
  | del b => b
  | decr b => b
  | deleteLiveCount b => b

/-- The next call to Redis, which fails or not: the key after it, and what is left of the task. -/
def call (fails : Bool) (key : Option Int) : CountTask → Option Int × Option CountTask
  | setLiveCount _ => (if fails then key else some 1, none)
  | incrementLiveCount _ => (if fails then key else some (key.getD 0 + 1), none)
  | decrementLiveCount b =>
    let count := key.getD 0 - 1
    let remaining := max (if fails then 0 else count) 0
    (if fails then key else some count, if remaining = 0 then some (del b) else none)
  | del _ => (if fails then key else none, none)
  | decr _ => (if fails then key else some (key.getD 0 - 1), none)
  | deleteLiveCount _ => (if fails then key else none, none)

end CountTask

/-! ## What the operations spawn -/

/-- `leave` finds the broadcast live and the user in it. -/
def leaves (db : BroadcastDb) (b u : Uuid) : Bool :=
  match findById db b, findParticipant db b u with
  | some broadcast, some participant => !(broadcast.isNotActive || participant.leftAt.isSome)
  | _, _ => false

namespace BroadcastOp

/-- `join` spawns its task after the commit, before it puts its response together. -/
def spawns (op : BroadcastOp) (t : OffsetDateTime) (faults : List Bool) (db : BroadcastDb) :
    List CountTask :=
  let ok := (op.run t faults db).1.isOk
  match op with
  | .start _ b _ => if ok then [.setLiveCount b] else []
  | .endBroadcast _ b _ => if ok then [.deleteLiveCount b] else []
  | .join now b u =>
    if (Txn.run broadcastEngine (joinCommit now b u) db t faults).1.isOk then
      [.incrementLiveCount b]
    else []
  | .leave _ b u => if ok && leaves db b u then [.decrementLiveCount b] else []
  | .removeCohost _ b u _ fromRoom =>
    if ok && isCohost db b u && fromRoom then [.decr b] else []
  | _ => []

end BroadcastOp

/-! ## Runs -/

/-- The tables and the keys, and the spawned tasks that are not done, oldest first. -/
structure CountState where
  db : BroadcastDb
  tasks : List CountTask

inductive CountEvent where
  /-- An operation, at the time of its statements, with the calls that fail. -/
  | call (op : BroadcastOp) (t : OffsetDateTime) (faults : List Bool)
  /-- The next call of the `i`-th task. -/
  | task (i : Nat) (fails : Bool)

def BroadcastDb.setLiveCount (db : BroadcastDb) (b : Uuid) (key : Option Int) : BroadcastDb :=
  { db with keys := { db.keys with liveCount := Function.update db.keys.liveCount b key } }

namespace CountState

def runTask (st : CountState) (i : Nat) (fails : Bool) : CountState :=
  match st.tasks[i]? with
  | none => st
  | some task =>
    let b := task.broadcastId
    let (key, rest) := task.call fails (st.db.keys.liveCount b)
    { db := st.db.setLiveCount b key
      tasks := st.tasks.take i ++ rest.toList ++ st.tasks.drop (i + 1) }

def step (st : CountState) : CountEvent → CountState
  | .call op t faults =>
    { db := (op.run t faults st.db).2
      tasks := st.tasks ++ op.spawns t faults st.db }
  | .task i fails => st.runTask i fails

def run (st : CountState) (es : List CountEvent) : CountState := es.foldl step st

/-- The tasks that are to be done for a broadcast. -/
def pending (st : CountState) (b : Uuid) : List CountTask :=
  st.tasks.filter fun task => task.broadcastId = b

/-- The value of the key, which a broadcast without participants has lost. -/
def liveCount (st : CountState) (b : Uuid) : Int := (st.db.keys.liveCount b).getD 0

end CountState

/-- The rows that count: those of the broadcast without `left_at`. -/
def BroadcastParticipant.livesIn (b : Uuid) (p : BroadcastParticipant) : Bool :=
  p.broadcastId == b && p.leftAt.isNone

def liveRows (db : BroadcastDb) (b : Uuid) : Nat :=
  db.participants.rows.countP (BroadcastParticipant.livesIn b)

end Meno
