import Meno.Broadcast.Ops

/-!
# Meno.Subscribers.Repository

Subscriptions, the counters of a user's row, and the two triggers that are there to keep them. The
store is the broadcast module's with `user_subscribers` as a table and the counter columns of
`users`; a broadcast statement is the one of the broadcast module, followed by the triggers of the
rows that it wrote.
-/

namespace Meno

open Lib

/-! ## Rows -/

structure UserSubscriber where
  subscriberId : Uuid
  subscriptionId : Uuid
  createdAt : OffsetDateTime
deriving DecidableEq

def UserSubscriber.key (r : UserSubscriber) : Uuid × Uuid := (r.subscriberId, r.subscriptionId)

/-- The columns `followers`, `following` and `broadcasts` of a user. -/
structure UserCounts where
  id : Uuid
  followers : Int
  following : Int
  broadcasts : Int
deriving DecidableEq

def UserCounts.zero (id : Uuid) : UserCounts := { id, followers := 0, following := 0, broadcasts := 0 }

structure CountedDb where
  /-- All but its `subscribers`. -/
  tables : BroadcastDb
  subscribers : Table UserSubscriber UserSubscriber.key
  counts : Table UserCounts UserCounts.id

inductive CountedWrite where
  | row (w : BroadcastWrite)
  | subscriber (row : UserSubscriber)
  | dropSubscriber (subscriberId subscriptionId : Uuid)
  | counts (row : UserCounts)

namespace CountedDb

/-- The store as the broadcast module's statements find it. -/
def broadcastDb (db : CountedDb) : BroadcastDb :=
  { db.tables with subscribers := db.subscribers.rows.map UserSubscriber.key }

def apply (db : CountedDb) : CountedWrite → CountedDb
  | .row w => { db with tables := db.tables.apply w }
  | .subscriber row => { db with subscribers := db.subscribers.put row }
  | .dropSubscriber s c => { db with subscribers := db.subscribers.erase (s, c) }
  | .counts row => { db with counts := db.counts.put row }

/-- Users with the default 0 in every counter, and nothing else. -/
def ofUsers (users : Table User User.id) : CountedDb where
  tables := .ofUsers users
  subscribers := .empty
  counts := {
    rows := users.rows.map fun u => .zero u.id
    nodup := by
      rw [List.map_map]
      exact users.nodup }

/-! ## Triggers -/

/-- What a row trigger is called for. -/
inductive RowEvent (ρ : Type) where
  | insert (new : ρ)
  | update (old new : ρ)
  | delete (old : ρ)

/-- `NEW`. -/
def RowEvent.new {ρ : Type} : RowEvent ρ → Option ρ
  | .insert new => some new
  | .update _ new => some new
  | .delete _ => none

/-- `OLD`. -/
def RowEvent.old {ρ : Type} : RowEvent ρ → Option ρ
  | .insert _ => none
  | .update old _ => some old
  | .delete old => some old

/-- `UPDATE users SET .. WHERE id = ..`, after the writes `ws`. -/
def updateUsers (db : CountedDb) (ws : List CountedWrite) (id : Option Uuid)
    (set : UserCounts → UserCounts) : List CountedWrite :=
  match id.bind (ws.foldl apply db).counts.get with
  | none => ws
  | some row => ws ++ [.counts (set row)]

/-- `update_follow_counts`. What is compared with the operation is the text `'TG_OP'`, not the
variable. -/
def updateFollowCounts (db : CountedDb) (event : RowEvent UserSubscriber) : List CountedWrite :=
  if "TG_OP" = "INSERT" then
    let ws := updateUsers db [] (event.new.map UserSubscriber.subscriptionId)
      fun u => { u with followers := u.followers + 1 }
    updateUsers db ws (event.new.map UserSubscriber.subscriberId)
      fun u => { u with following := u.following + 1 }
  else if "TG_OP" = "DELETE" then
    let ws := updateUsers db [] (event.old.map UserSubscriber.subscriptionId)
      fun u => { u with followers := u.followers - 1 }
    updateUsers db ws (event.old.map UserSubscriber.subscriberId)
      fun u => { u with following := u.following - 1 }
  else []

/-- `trigger_follow_counts`: after `INSERT` and `DELETE` on `user_subscribers`. -/
def triggerFollowCounts (db : CountedDb) (event : RowEvent UserSubscriber) : List CountedWrite :=
  match event with
  | .insert _ => updateFollowCounts db event
  | .update _ _ => []
  | .delete _ => updateFollowCounts db event

/-- `update_broadcasts_count`, with the same comparison. -/
def updateBroadcastsCount (db : CountedDb) (event : RowEvent Broadcast) : List CountedWrite :=
  let deleted (b : Option Broadcast) : Bool := (b.bind Broadcast.deletedAt).isSome
  if "TG_OP" = "INSERT" then
    updateUsers db [] (event.new.map Broadcast.creatorId)
      fun u => { u with broadcasts := u.broadcasts + 1 }
  else if "TG_OP" = "UPDATE" then
    if !deleted event.old && deleted event.new then
      updateUsers db [] (event.old.map Broadcast.creatorId)
        fun u => { u with broadcasts := u.broadcasts - 1 }
    else if deleted event.old && !deleted event.new then
      updateUsers db [] (event.new.map Broadcast.creatorId)
        fun u => { u with broadcasts := u.broadcasts + 1 }
    else []
  else if "TG_OP" = "DELETE" then
    updateUsers db [] (event.old.map Broadcast.creatorId)
      fun u => { u with broadcasts := u.broadcasts - 1 }
  else []

/-- `trigger_broadcasts_count`: after `INSERT` and `DELETE` on `broadcasts`, and not after the
`UPDATE` that a soft delete is. -/
def triggerBroadcastsCount (db : CountedDb) (event : RowEvent Broadcast) : List CountedWrite :=
  match event with
  | .insert _ => updateBroadcastsCount db event
  | .update _ _ => []
  | .delete _ => updateBroadcastsCount db event

/-- A row write of the broadcast module, and what its trigger writes after it. -/
def fire (db : CountedDb) (w : BroadcastWrite) : List CountedWrite :=
  match w with
  | .broadcast row =>
    match db.tables.broadcasts.get row.id with
    | none => .row w :: triggerBroadcastsCount (db.apply (.row w)) (.insert row)
    | some old => .row w :: triggerBroadcastsCount (db.apply (.row w)) (.update old row)
  | _ => [.row w]

def fireAll (db : CountedDb) : List BroadcastWrite → List CountedWrite
  | [] => []
  | w :: ws => db.fire w ++ ((db.fire w).foldl apply db).fireAll ws

end CountedDb

/-! ## Statements -/

namespace SubscribersRepository

/-- `ON CONFLICT DO NOTHING`. -/
def create (db : CountedDb) (now : OffsetDateTime) (subscriberId subscriptionId : Uuid) :
    Except DbError (Unit × List CountedWrite) := do
  if subscriberId = subscriptionId then throw .checkViolation
  else if (db.subscribers.get (subscriberId, subscriptionId)).isSome then return ((), [])
  else
    BroadcastRepository.checkUser db.tables subscriberId
    BroadcastRepository.checkUser db.tables subscriptionId
    let row : UserSubscriber := { subscriberId, subscriptionId, createdAt := now }
    return ((), .subscriber row :: (db.apply (.subscriber row)).triggerFollowCounts (.insert row))

def delete (db : CountedDb) (subscriberId subscriptionId : Uuid) :
    Except DbError (Unit × List CountedWrite) :=
  match db.subscribers.get (subscriberId, subscriptionId) with
  | none => .ok ((), [])
  | some row =>
    let w : CountedWrite := .dropSubscriber subscriberId subscriptionId
    .ok ((), w :: (db.apply w).triggerFollowCounts (.delete row))

end SubscribersRepository

/-- `find_user_by_id` of the identity reader: deleted users are found, too. -/
def findUserById (db : CountedDb) (id : Uuid) : Option User := db.tables.users.get id

inductive SubscriberStmt : Type → Type where
  | create (subscriberId subscriptionId : Uuid) : SubscriberStmt Unit
  | delete (subscriberId subscriptionId : Uuid) : SubscriberStmt Unit
  | findUserById (id : Uuid) : SubscriberStmt (Option User)

def SubscriberStmt.exec : {β : Type} → SubscriberStmt β → OffsetDateTime → CountedDb →
    Except DbError (β × List CountedWrite)
  | _, .create s c, now, db => SubscribersRepository.create db now s c
  | _, .delete s c, _, db => SubscribersRepository.delete db s c
  | _, .findUserById id, _, db => .ok (Meno.findUserById db id, [])

/-- A statement of either module. -/
inductive CountedStmt (β : Type) : Type where
  | broadcast (s : BroadcastStmt β)
  | subscribers (s : SubscriberStmt β)

def CountedStmt.exec {β : Type} (s : CountedStmt β) (now : OffsetDateTime) (db : CountedDb) :
    Except DbError (β × List CountedWrite) :=
  match s with
  | .broadcast s => do
    let (a, ws) ← s.exec now db.broadcastDb
    return (a, db.fireAll ws)
  | .subscribers s => s.exec now db

def countedEngine : Engine CountedStmt CountedDb CountedWrite OffsetDateTime DbError where
  exec := CountedStmt.exec
  apply := CountedDb.apply
  fault := .infrastructure

/-! ## Operations -/

inductive SubscribersError where
  | cannotSubscribeToSelf
  | subscriberNotFound
  | database (e : DbError)
deriving DecidableEq

namespace SubscribersService

abbrev SubscribersSvc (α : Type) := Txn CountedStmt DbError SubscribersError α

def query {β : Type} (s : SubscriberStmt β) : SubscribersSvc β :=
  Act.ask SubscribersError.database (.exec .pool (.subscribers s))

/-- A failed notification is only logged. -/
def subscribe (authUserId subscriptionId : Uuid) : SubscribersSvc Unit := do
  if authUserId = subscriptionId then throw .cannotSubscribeToSelf
  else
    match ← query (.findUserById subscriptionId) with
    | none => throw .subscriberNotFound
    | some _ => query (.create authUserId subscriptionId)

def unsubscribe (authUserId subscriptionId : Uuid) : SubscribersSvc Unit := do
  if authUserId = subscriptionId then throw .cannotSubscribeToSelf
  else
    match ← query (.findUserById subscriptionId) with
    | none => throw .subscriberNotFound
    | some _ => query (.delete authUserId subscriptionId)

end SubscribersService

/-- What changes what the counters count: subscriptions, and the operations on broadcasts. -/
inductive CountedOp where
  | subscribe (authUserId subscriptionId : Uuid)
  | unsubscribe (authUserId subscriptionId : Uuid)
  | broadcast (op : BroadcastOp)

inductive CountedAnswer where
  | subscribers (r : Except SubscribersError Unit)
  | broadcast (r : Except BroadcastError BroadcastAnswer)

def CountedOp.prog : CountedOp → Prog (Cmd CountedStmt DbError) CountedAnswer
  | .subscribe u s => .subscribers <$> ExceptT.run (SubscribersService.subscribe u s)
  | .unsubscribe u s => .subscribers <$> ExceptT.run (SubscribersService.unsubscribe u s)
  | .broadcast op => .broadcast <$> Prog.lift (Cmd.lift .broadcast) (ExceptT.run op.prog)

end Meno
