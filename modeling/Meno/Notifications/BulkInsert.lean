import Meno.Notifications.Sending

/-!
# Meno.Notifications.BulkInsert

`create_bulk` called again with the same arguments. `ON CONFLICT DO NOTHING` is there to make that
safe, but the only unique key of `notifications` is its generated id: the rows are inserted again.
-/

namespace Meno

open Lib

/-- The arguments of `create_bulk`. -/
structure BulkNotification where
  ownerIds : List Uuid
  templateId : Uuid
  actorId : Option Uuid
  broadcastId : Option Uuid

/-- What the columns of one statement default to: `gen_random_uuid()` for each row, and `now()`. -/
structure BulkDefaults where
  ids : Nat → Uuid
  now : OffsetDateTime

/-- `SELECT unnest($1::uuid[]), $2, $3, $4`. -/
def BulkNotification.rows (n : BulkNotification) (defaults : BulkDefaults) : List NewNotification :=
  n.ownerIds.mapIdx fun i ownerId => {
    id := defaults.ids i, ownerId, templateId := n.templateId, actorId := n.actorId
    broadcastId := n.broadcastId, createdAt := defaults.now }

/-- Such a notification of the user. -/
def BulkNotification.isFor (n : BulkNotification) (ownerId : Uuid) (row : Notification) : Bool :=
  row.ownerId == ownerId && row.templateId == n.templateId && row.actorId == n.actorId &&
    row.broadcastId == n.broadcastId

/-- The foreign keys of `notifications`. -/
def Notification.references (n : Notification) (db : NotificationsDb) (broadcasts : List Uuid) :
    Bool :=
  (db.users.get n.ownerId).isSome && (db.templates.get n.templateId).isSome &&
    n.actorId.all (fun a => (db.users.get a).isSome) && n.broadcastId.all broadcasts.contains

namespace NotificationRepo

/-- The rows that were inserted are counted. A row without what it refers to fails the statement. -/
def createBulk (defaults : BulkDefaults) (fails : Bool) (broadcasts : List Uuid)
    (n : BulkNotification) (db : NotificationsDb) : Except DbError (Nat × NotificationsDb) :=
  if n.ownerIds = [] then .ok (0, db)
  else if fails then .error .infrastructure
  else
    let (db', created) := NotificationRepository.createBulk db (n.rows defaults)
    if created.all fun row => row.references db broadcasts then .ok (created.length, db')
    else .error .foreignKeyViolation

/-- None of the ids is in the table, and no two of them are the same. -/
structure FreshIds (db : NotificationsDb) (ns : List NewNotification) : Prop where
  nodup : (ns.map NewNotification.id).Nodup
  new : ∀ n ∈ ns, db.notifications.get n.id = none

/-- A call that succeeded. -/
def Called (broadcasts : List Uuid) (n : BulkNotification) (db : NotificationsDb)
    (out : Nat × NotificationsDb) : Prop :=
  ∃ defaults, FreshIds db (n.rows defaults) ∧ createBulk defaults false broadcasts n db = .ok out

/-- Two successful calls with the same arguments, one after the other. -/
structure Retried (broadcasts : List Uuid) (n : BulkNotification) (db : NotificationsDb)
    (once twice : Nat × NotificationsDb) : Prop where
  first : Called broadcasts n db once
  second : Called broadcasts n once.2 twice

/-- The second call inserted nothing, and each of the users has the notification once. -/
structure SafeToRetry (n : BulkNotification) (once twice : Nat × NotificationsDb) : Prop where
  nothing : twice.1 = 0
  unchanged : twice.2.notifications.rows = once.2.notifications.rows
  single : ∀ ownerId ∈ n.ownerIds,
    twice.2.notifications.rows.countP (n.isFor ownerId) = 1

/-! ## One call -/

section Calls

variable {db : NotificationsDb} {ns : List NewNotification} {broadcasts : List Uuid}
  {n : BulkNotification} {out once twice : Nat × NotificationsDb}

theorem FreshIds.insert {m : NewNotification} (h : FreshIds db (m :: ns)) :
    db.insert m.row = .ok { db with notifications := db.notifications.put m.row } ∧
      FreshIds { db with notifications := db.notifications.put m.row } ns := by
  obtain ⟨hm, hns⟩ := List.nodup_cons.1 h.nodup
  have hnone : db.notifications.get m.row.id = none := h.new m List.mem_cons_self
  refine ⟨by rw [NotificationsDb.insert, hnone], hns, fun n hn => ?_⟩
  have hne : n.id ≠ m.row.id := by
    intro hid
    have hmem : n.id ∈ ns.map NewNotification.id := List.mem_map_of_mem hn
    rw [hid] at hmem
    exact hm hmem
  exact (Table.get_put _ _ _).trans ((if_neg hne).trans (h.new n (List.mem_cons_of_mem _ hn)))

/-- No row is in conflict with another. -/
theorem created_createBulk (h : FreshIds db ns) :
    (NotificationRepository.createBulk db ns).2 = ns.map NewNotification.row := by
  induction ns generalizing db with
  | nil => rfl
  | cons m ns ih =>
    obtain ⟨hinsert, hns⟩ := h.insert
    rw [NotificationRepository.createBulk, hinsert]
    exact congrArg (m.row :: ·) (ih hns)

theorem db_createBulk (db : NotificationsDb) (ns : List NewNotification) :
    (NotificationRepository.createBulk db ns).1 =
      ns.foldl (fun db n => db.insertOrIgnore n.row) db := by
  induction ns generalizing db with
  | nil => rfl
  | cons m ns ih =>
    rw [NotificationRepository.createBulk, List.foldl_cons, NotificationsDb.insertOrIgnore]
    cases db.insert m.row with
    | ok db' => exact ih db'
    | error e => exact ih db

/-- A call inserts a row for every user of its list, whatever is there already. -/
theorem Called.inserted (h : Called broadcasts n db out) : out.1 = n.ownerIds.length ∧
    ∀ ownerId, out.2.notifications.rows.countP (n.isFor ownerId) =
      db.notifications.rows.countP (n.isFor ownerId) + n.ownerIds.count ownerId := by
  obtain ⟨defaults, hfresh, hcall⟩ := h
  unfold createBulk at hcall
  split at hcall
  · rename_i hnil
    obtain rfl := Except.ok.inj hcall
    simp [hnil]
  · rw [if_neg Bool.false_ne_true] at hcall
    dsimp only at hcall
    split at hcall
    · obtain rfl := Except.ok.inj hcall
      have hlength : (n.rows defaults).length = n.ownerIds.length := List.length_mapIdx
      have howners : (n.rows defaults).map NewNotification.ownerId = n.ownerIds :=
        List.ext_getElem (by simp [BulkNotification.rows]) (by simp [BulkNotification.rows])
      refine ⟨?_, fun ownerId => ?_⟩
      · rw [created_createBulk hfresh, List.length_map, hlength]
      · have hrow : ∀ m ∈ n.rows defaults, n.isFor ownerId m.row = true ↔
            (m.ownerId == ownerId) = true := by
          intro m hm
          obtain ⟨i, hi, rfl⟩ := List.mem_mapIdx.1 hm
          simp [BulkNotification.isFor, NewNotification.row]
        rw [db_createBulk, NotificationsDb.countP_insertAll hfresh.nodup hfresh.new,
          List.countP_congr hrow, ← howners, List.count, List.countP_map]
        rfl
    · cases hcall

/-! ## Two calls -/

/-- Every owner has got the notification twice for each place in the list. -/
theorem Retried.counted (h : Retried broadcasts n db once twice) (ownerId : Uuid) :
    twice.2.notifications.rows.countP (n.isFor ownerId) =
      db.notifications.rows.countP (n.isFor ownerId) + 2 * n.ownerIds.count ownerId := by
  rw [h.second.inserted.2, h.first.inserted.2]
  omega

/-- **A retry is safe**, exactly if there is nobody to notify. -/
theorem retry_safe_iff (h : Retried broadcasts n db once twice) :
    SafeToRetry n once twice ↔ n.ownerIds = [] := by
  constructor
  · intro hsafe
    rw [← List.length_eq_zero_iff, ← h.second.inserted.1]
    exact hsafe.nothing
  · intro hnil
    obtain ⟨defaults, -, hcall⟩ := h.second
    rw [createBulk, if_pos hnil] at hcall
    obtain rfl := Except.ok.inj hcall
    refine ⟨rfl, rfl, fun ownerId howner => ?_⟩
    rw [hnil] at howner
    exact absurd howner List.not_mem_nil

end Calls

/-- One user, a template, and no notifications. -/
def exampleDb : NotificationsDb where
  notifications := .empty
  templates := Table.empty.put {
    id := ⟨5⟩, type := "live_broadcast_started", title := "Live Now"
    body := "\x7bactor\x7d is live: \x7btitle\x7d", imageUrl := none }
  types := ["live_broadcast_started"]
  users := Table.empty.put {
    id := ⟨1⟩, fullName := "Ann", bio := none, avatarId := none, avatarUrl := none
    deletedAt := none }

/-- A notification of that user, twice. -/
theorem exists_retried : ∃ once twice, Retried [] ⟨[⟨1⟩], ⟨5⟩, none, none⟩ exampleDb once twice :=
  ⟨_, _, ⟨⟨fun _ => ⟨1⟩, 0⟩, ⟨by decide, by decide⟩, rfl⟩,
    ⟨⟨fun _ => ⟨2⟩, 1⟩, ⟨by decide, by decide⟩, rfl⟩⟩

theorem one_owner_unsafe : ∃ once twice, Retried [] ⟨[⟨1⟩], ⟨5⟩, none, none⟩ exampleDb once twice ∧
    ¬ SafeToRetry ⟨[⟨1⟩], ⟨5⟩, none, none⟩ once twice := by
  obtain ⟨once, twice, h⟩ := exists_retried
  exact ⟨once, twice, h, fun hsafe => List.cons_ne_nil _ _ ((retry_safe_iff h).1 hsafe)⟩

/-- Ann hears twice that somebody is live. -/
theorem retry_inserts_again :
    ¬ ∀ (broadcasts : List Uuid) (n : BulkNotification) (db : NotificationsDb)
      (once twice : Nat × NotificationsDb), Retried broadcasts n db once twice →
        SafeToRetry n once twice := by
  intro h
  obtain ⟨once, twice, hretried⟩ := exists_retried
  have hnothing := (h _ _ _ _ _ hretried).nothing
  rw [hretried.second.inserted.1] at hnothing
  cases hnothing

end NotificationRepo

end Meno
