import Meno.Broadcast.Ops
import Meno.Lib.Timeline

/-!
# Meno.Broadcast.Connections

The WebSocket connections of the hosts, the grace period of a host who is gone, and the jobs that
end abandoned broadcasts. A connection is opened, is lost (an error, or too many pongs missed) or is
closed; the handlers of the source run when that happens, each of them at one time, and so do the
jobs of the queue, the deletions that `end` and `delete` spawn, and the requests to the broadcast
service. `LiveCall` names the calls of a handler that can fail.

The rooms and presence of the hub, the messages but for `host_disconnected`, and `grace_started`,
which nothing reads, are left out.
-/

namespace Meno

open Lib BroadcastRepository

/-! ## The grace period -/

structure GracePeriodConfig where
  tier1Secs : Nat := 120
  tier2Secs : Nat := 90
  tier3Secs : Nat := 60
  tier4PlusSecs : Nat := 30

def GracePeriodConfig.getGraceSeconds (config : GracePeriodConfig) : Nat → Nat
  | 1 => config.tier1Secs
  | 2 => config.tier2Secs
  | 3 => config.tier3Secs
  | _ => config.tier4PlusSecs

/-- `n` seconds as a time span. -/
def seconds (n : Nat) : Int := n * 1000000000

/-- `TTL_3600_SECS`. -/
def disconnectCountTtl : Nat := 3600

/-! ## The state -/

structure EndBroadcastJob where
  broadcastId : Uuid
  hostId : Uuid
  reason : EndReason
deriving DecidableEq

/-- A connection of the hub, with what `handle_socket` found about its user when it was opened. -/
structure Connection where
  connId : Nat
  userId : Uuid
  isHost : Bool
deriving DecidableEq

/-- A message `host_disconnected`: when it was sent, and the grace period that it announces. -/
structure HostDisconnected where
  sentAt : OffsetDateTime
  hostId : Uuid
  gracePeriod : Nat
deriving DecidableEq

structure LiveState where
  db : BroadcastDb
  /-- The Redis key `host_grace`: when it expires. -/
  hostGrace : Uuid → Option OffsetDateTime
  /-- The Redis key `disconnect_count`: its value, and when it expires if ever. -/
  disconnectCount : Uuid → Option (Nat × Option OffsetDateTime)
  /-- The `EndBroadcastJob`s that are to be run. -/
  jobs : List EndBroadcastJob
  /-- The deletions of `host_grace` that are spawned and have not run. -/
  spawned : List Uuid
  conns : List Connection
  clock : OffsetDateTime
  /-- The latest `host_disconnected` of a broadcast. -/
  announced : Uuid → Option HostDisconnected
  /-- Since when a user who has been connected has no connection. -/
  gone : Uuid → Option OffsetDateTime

/-- Nothing but users. -/
def LiveState.init (users : Table User User.id) : LiveState where
  db := .ofUsers users
  hostGrace := fun _ => none
  disconnectCount := fun _ => none
  jobs := []
  spawned := []
  conns := []
  clock := 0
  announced := fun _ => none
  gone := fun _ => none

inductive LiveCall where
  | findActiveHostedBy
  | isActiveHost
  | exists
  | del
  | incr
  | expire
  | setEx
  | push
deriving DecidableEq

namespace LiveState

/-! ## Redis -/

variable (s : LiveState)

/-- The key `host_grace` exists at `t`. -/
def inGrace (t : OffsetDateTime) (b : Uuid) : Bool := (s.hostGrace b).any (t < ·)

def delGrace (b : Uuid) : LiveState := { s with hostGrace := Function.update s.hostGrace b none }

def setGrace (t : OffsetDateTime) (b : Uuid) (secs : Nat) : LiveState :=
  { s with hostGrace := Function.update s.hostGrace b (some (t + seconds secs)) }

/-- `INCR disconnect_count`: an expired key counts from zero, and has no expiry. -/
def incrDisconnects (t : OffsetDateTime) (b : Uuid) : Nat × LiveState :=
  let (n, expiry) := ((s.disconnectCount b).filter fun c => c.2.all (t < ·)).getD (0, none)
  (n + 1, { s with disconnectCount := Function.update s.disconnectCount b (some (n + 1, expiry)) })

def expireDisconnects (t : OffsetDateTime) (b : Uuid) (secs : Nat) : LiveState :=
  { s with
    disconnectCount := Function.update s.disconnectCount b
      (((s.disconnectCount b).filter fun c => c.2.all (t < ·)).map fun c =>
        (c.1, some (t + seconds secs))) }

/-- The tables at `t`, as the service sees them. -/
def dbAt (t : OffsetDateTime) : BroadcastDb :=
  { s.db with keys := { s.db.keys with hostGrace := s.inGrace t } }

/-! ## The handlers -/

section Handlers

variable (t : OffsetDateTime) (fails : List LiveCall)

/-- The key is deleted when the host is found, the key is there, and none of the calls fails. -/
def handleReconnect (userId : Uuid) : LiveState :=
  match if .findActiveHostedBy ∈ fails then none
    else findActiveBroadcastHostedById s.db userId with
  | none => s
  | some broadcast =>
    let wasInGrace := .exists ∉ fails && s.inGrace t broadcast.id
    if !wasInGrace then s
    else if .del ∈ fails then s
    else s.delGrace broadcast.id

/-- `handle_disconnect`. The job is pushed to be run at once. -/
def handleDisconnect (userId : Uuid) (isHost : Bool) : LiveState :=
  if !isHost then s
  else
    match if .findActiveHostedBy ∈ fails then none
      else findActiveBroadcastHostedById s.db userId with
    | none => s
    | some broadcast =>
      let (disconnectCount, s) :=
        if .incr ∈ fails then (1, s) else s.incrDisconnects t broadcast.id
      let s :=
        if .expire ∈ fails then s else s.expireDisconnects t broadcast.id disconnectCountTtl
      let graceSecs := GracePeriodConfig.getGraceSeconds {} disconnectCount
      let s := if .setEx ∈ fails then s else s.setGrace t broadcast.id graceSecs
      let message := { sentAt := t, hostId := userId, gracePeriod := graceSecs }
      let s := { s with announced := Function.update s.announced broadcast.id (some message) }
      if .push ∈ fails then s
      else
        let job := { broadcastId := broadcast.id, hostId := userId, reason := .hostDisconnected }
        { s with jobs := s.jobs ++ [job] }

/-- `handle_socket` up to its read loop. -/
def connect (connId : Nat) (userId : Uuid) : LiveState :=
  let s := { s with gone := Function.update s.gone userId none }
  let s := s.handleReconnect t fails userId
  let isHost := .isActiveHost ∉ fails && isActiveHost s.db userId
  { s with conns := { connId, userId, isHost } :: s.conns }

/-- The connection leaves the hub. -/
def unregister (conn : Connection) : LiveState :=
  let conns := s.conns.filter fun c => c.connId ≠ conn.connId
  { s with
    conns
    gone := if conns.any (·.userId = conn.userId) then s.gone
      else Function.update s.gone conn.userId (some t) }

/-- `handle_socket` after its read loop, which says whether the connection was lost. -/
def disconnect (connId : Nat) (isDisconnected : Bool) : LiveState :=
  match s.conns.find? (·.connId = connId) with
  | none => s
  | some conn =>
    let s := s.unregister t conn
    if isDisconnected then s.handleDisconnect t fails conn.userId conn.isHost else s

/-- A request to the broadcast service. `end` and `delete` spawn a deletion of `host_grace`. -/
def request (faults : List Bool) (op : BroadcastOp) :
    Except BroadcastError BroadcastAnswer × LiveState :=
  let (r, db) := op.run t faults (s.dbAt t)
  let spawned := match op, r with
    | .endBroadcast _ b _, .ok _ => s.spawned ++ [b]
    | .delete b _, .ok _ => s.spawned ++ [b]
    | _, _ => s.spawned
  (r, { s with db, spawned })

/-- `end_broadcast`, for the job of the queue at `i`. A job that fails stays, to be run again. -/
def endBroadcastJob (faults : List Bool) (i : Nat) : LiveState :=
  match s.jobs[i]? with
  | none => s
  | some job =>
    let stillInGrace := .exists ∉ fails && s.inGrace t job.broadcastId
    if !stillInGrace then { s with jobs := s.jobs.eraseIdx i }
    else
      let s := if .del ∈ fails then s else s.delGrace job.broadcastId
      match s.request t faults (.endBroadcast t job.broadcastId job.hostId) with
      | (.ok _, s) => { s with jobs := s.jobs.eraseIdx i }
      | (.error _, s) => s

end Handlers

end LiveState

/-! ## Runs -/

inductive LiveEvent where
  | connect (connId : Nat) (userId : Uuid)
  | disconnect (connId : Nat) (isDisconnected : Bool)
  | runJob (i : Nat)
  | runSpawned (i : Nat)
  | request (op : BroadcastOp)

/-- Something that happens: when, and which calls fail, those of the handler and, by number, those
of the service. -/
structure LiveEntry where
  time : OffsetDateTime
  event : LiveEvent
  fails : List LiveCall := []
  faults : List Bool := []

namespace LiveState

def happen (s : LiveState) (t : OffsetDateTime) (fails : List LiveCall) (faults : List Bool) :
    LiveEvent → LiveState
  | .connect connId userId => s.connect t fails connId userId
  | .disconnect connId isDisconnected => s.disconnect t fails connId isDisconnected
  | .runJob i => s.endBroadcastJob t fails faults i
  | .runSpawned i =>
    match s.spawned[i]? with
    | none => s
    | some b =>
      let s := { s with spawned := s.spawned.eraseIdx i }
      if .del ∈ fails then s else s.delGrace b
  | .request op => (s.request t faults op).2

def step (s : LiveState) (e : LiveEntry) : LiveState :=
  { s.happen e.time e.fails e.faults e.event with clock := e.time }

end LiveState

/-- The state after a run. -/
def LiveState.run (s : LiveState) (es : List LiveEntry) : LiveState := es.foldl LiveState.step s

/-- Time does not run backwards. -/
def LiveState.Later (s : LiveState) (e : LiveEntry) : Prop := s.clock ≤ e.time

instance (s : LiveState) (e : LiveEntry) : Decidable (s.Later e) :=
  inferInstanceAs (Decidable (_ ≤ _))

end Meno
