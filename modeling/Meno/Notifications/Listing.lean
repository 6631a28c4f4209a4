import Meno.Broadcast.Model
import Meno.Shared.Repository

/-!
# Meno.Notifications.Listing

The pages of a user's notifications, newest first, with their texts filled in.
-/

namespace Meno

open Lib Lib.Sql

structure Notification where
  id : Uuid
  ownerId : Uuid
  templateId : Uuid
  actorId : Option Uuid
  broadcastId : Option Uuid
  read : Bool
  readAt : Option OffsetDateTime
  archivedAt : Option OffsetDateTime
  createdAt : OffsetDateTime
deriving DecidableEq

structure NotificationTemplate where
  id : Uuid
  type : String
  title : String
  body : String
  imageUrl : Option String
deriving DecidableEq

structure NotificationsDb where
  notifications : Table Notification Notification.id
  templates : Table NotificationTemplate NotificationTemplate.id
  /-- The codes of `notification_types`. -/
  types : List String
  users : Table User User.id

structure NotificationQuery where
  unreadOnly : Bool
  pagination : CursorParams

structure NotificationListItem where
  id : Uuid
  typeCode : String
  title : String
  body : String
  imageUrl : Option String
  read : Bool
  broadcastId : Option Uuid
  actor : Option UserSummary
  createdAt : OffsetDateTime
  deepLink : String
deriving DecidableEq

/-- A notification with what the query joins to it. -/
structure NotificationViewRow where
  notification : Notification
  template : NotificationTemplate
  /-- The actor, as far as there is a user that has not been deleted. -/
  actor : Option User

namespace NotificationRepository

-- `t` reads and writes cursors.
variable (t : CursorText)

/-- `notifications n JOIN notification_templates .. JOIN notification_types .. LEFT JOIN users`. -/
def notificationRows (db : NotificationsDb) : List NotificationViewRow :=
  db.notifications.rows.filterMap fun n =>
    ((db.templates.get n.templateId).filter fun template => db.types.contains template.type).map
      fun template => {
        notification := n
        template
        actor := (n.actorId.bind db.users.get).filter fun u => u.deletedAt.isNone }

def notificationsWhere (query : NotificationQuery) (ownerId : Uuid) :
    Select NotificationViewRow SqlValue :=
  let qb : Select NotificationViewRow SqlValue :=
    { conditions := [fun r => some (r.notification.ownerId == ownerId)] }
  let qb := qb.and fun r => some r.notification.archivedAt.isNone
  if query.unreadOnly then qb.and fun r => some (r.notification.read == false) else qb

/-- The statement spells out what the other lists leave to the shared helpers. -/
def notificationsSelect (query : NotificationQuery) (ownerId : Uuid)
    (cursorTs : Option OffsetDateTime) (cursorId : Option Uuid) :
    Select NotificationViewRow SqlValue :=
  let createdAt := fun r : NotificationViewRow => some (SqlValue.timestamptz r.notification.createdAt)
  let id := fun r : NotificationViewRow => some (SqlValue.uuid r.notification.id)
  let qb := notificationsWhere query ownerId
  let qb := match cursorTs, cursorId with
    | some ts, some i =>
      { qb with
        seek := some { exprs := [createdAt, id], op := .lt, values := [.timestamptz ts, .uuid i] } }
    | _, _ => qb
  { qb with
    orderBy := [⟨createdAt, [.dir .desc]⟩, ⟨id, [.dir .desc]⟩]
    limit := some query.pagination.limitPlusOne.toNat }

/-- What is joined from the actor's row is missing where the user has been deleted. -/
def listItem (row : NotificationViewRow) : NotificationListItem where
  id := row.notification.id
  typeCode := row.template.type
  title := row.template.title
  body := row.template.body
  imageUrl := row.template.imageUrl
  read := row.notification.read
  broadcastId := row.notification.broadcastId
  actor := row.notification.actorId.map fun id => {
    id
    fullName := (row.actor.map User.fullName).getD ""
    bio := row.actor.bind User.bio
    avatarId := row.actor.bind User.avatarId
    avatarUrl := row.actor.bind User.avatarUrl }
  createdAt := row.notification.createdAt
  deepLink := ""

def findNotifications (db : NotificationsDb) (query : NotificationQuery) (ownerId : Uuid) :
    Except ListError (List NotificationListItem) := do
  let (cursorTs, cursorId) ← timestampCursor t query.pagination.cursor
  let rows ← fetchAll (notificationsSelect query ownerId cursorTs cursorId) none
    (notificationRows db)
  return rows.map listItem

end NotificationRepository

namespace NotificationService

/-- `build_item_vars` and `interpolate`: an item has at most the variable `actor`. -/
def interpolate (template : String) (actor : Option UserSummary) : String :=
  match actor with
  | none => template
  | some a => template.replace "\x7bactor\x7d" a.fullName

def buildDeepLink (t : CursorText) (typeCode : String) (broadcastId actorId : Option Uuid) :
    String :=
  if ["added_as_cohost", "live_broadcast_started", "scheduled_broadcast",
      "broadcast_ended"].contains typeCode then
    (broadcastId.map fun id => "meno://broadcasts/" ++ t.uuid id).getD "meno://home"
  else if typeCode = "user_subscribed" then
    (actorId.map fun id => "meno://profile/" ++ t.uuid id).getD "meno://home"
  else "meno://home"

def render (t : CursorText) (item : NotificationListItem) : NotificationListItem :=
  { item with
    title := interpolate item.title item.actor
    body := interpolate item.body item.actor
    deepLink :=
      buildDeepLink t item.typeCode item.broadcastId (item.actor.map UserSummary.id) }

def list (t : CursorText) (db : NotificationsDb) (ownerId : Uuid) (query : NotificationQuery) :
    Except ListError (CursorPage NotificationListItem) := do
  let rows ← NotificationRepository.findNotifications t db query ownerId
  let rows := rows.map (render t)
  return .fromRows rows query.pagination.pageLimit fun r => .fromTimestampId t r.createdAt r.id

end NotificationService

/-! ## Walks -/

def NotificationQuery.resume (query : NotificationQuery) (c : Option Cursor) : NotificationQuery :=
  { query with pagination := query.pagination.resume c }

/-- A notification of the user that is neither archived nor, where only unread ones are asked for,
read. -/
def NotificationQuery.wants (query : NotificationQuery) (ownerId : Uuid)
    (r : NotificationViewRow) : Bool :=
  r.notification.ownerId == ownerId && r.notification.archivedAt.isNone &&
    (!query.unreadOnly || !r.notification.read)

section

variable {t : CursorText} {db : NotificationsDb}

theorem matching_notificationsWhere (query : NotificationQuery) (ownerId : Uuid) :
    (NotificationRepository.notificationsWhere query ownerId).matching = query.wants ownerId := by
  funext r
  unfold NotificationRepository.notificationsWhere NotificationQuery.wants
  cases query.unreadOnly <;> simp

theorem list_resume (query : NotificationQuery) (ownerId : Uuid) (c : Option Cursor) :
    NotificationService.list t db ownerId (query.resume c) =
      timestampPage t (NotificationRepository.notificationsSelect query ownerId) none
        (NotificationRepository.notificationRows db) query.pagination.pageLimit
        (NotificationService.render t ∘ NotificationRepository.listItem)
        NotificationListItem.createdAt NotificationListItem.id c := by
  simp only [NotificationService.list, NotificationRepository.findNotifications,
    NotificationQuery.resume, CursorParams.cursor_resume, CursorParams.pageLimit_resume,
    timestampPage, bind_assoc, pure_bind, List.map_map]
  rfl

theorem listsByTime_notifications (query : NotificationQuery) (ownerId : Uuid) :
    ListsByTime (NotificationRepository.notificationsSelect query ownerId)
      (fun r => r.notification.createdAt) (fun r => r.notification.id) (query.wants ownerId)
      query.pagination.pageLimit where
  matching ts i := by
    rw [← matching_notificationsWhere]
    cases ts <;> cases i <;> rfl
  first := by
    unfold NotificationRepository.notificationsSelect NotificationRepository.notificationsWhere
    cases query.unreadOnly <;> rfl
  seek _ _ := rfl
  orderBy := ⟨.first, fun _ _ => rfl⟩
  limit _ _ := congrArg some (Int.toNat_add query.pagination.pageLimit_pos.le (by decide))

theorem notificationRows_mem {n : Notification} {r : NotificationViewRow}
    (h : ((db.templates.get n.templateId).filter fun template =>
      db.types.contains template.type).map (fun template => ({
        notification := n
        template
        actor := (n.actorId.bind db.users.get).filter fun u => u.deletedAt.isNone } :
          NotificationViewRow)) = some r) : r.notification = n := by
  obtain ⟨_, -, rfl⟩ := Option.map_eq_some_iff.1 h
  rfl

theorem notifications_walk (query : NotificationQuery)
    (htimes : ∀ n ∈ db.notifications.rows, representable n.createdAt = true) (ownerId : Uuid) :
    ∃ items, Walk (fun _ c => NotificationService.list t db ownerId (query.resume c)) 0 none items ∧
      items.Perm (((NotificationRepository.notificationRows db).filter (query.wants ownerId)).map
        (NotificationService.render t ∘ NotificationRepository.listItem)) ∧
      items.Pairwise (newerFirst NotificationListItem.createdAt NotificationListItem.id) := by
  have hpos := query.pagination.pageLimit_pos
  have hnodup : (((NotificationRepository.notificationRows db).filter (query.wants ownerId)).map
      fun r => r.notification.id).Nodup :=
    db.notifications.nodup.sublist ((List.filter_sublist.map _).trans
      (map_filterMap_sublist (fun _ _ h => congrArg _ (notificationRows_mem h)) _))
  simp only [list_resume]
  refine timestamp_walk (listsByTime_notifications query ownerId) rfl (by omega) hnodup
    (fun r hr => ?_) fun _ _ => ⟨rfl, rfl⟩
  obtain ⟨n, hn, hr⟩ := List.mem_filterMap.1 hr
  rw [notificationRows_mem hr]
  exact htimes n hn

end

end Meno
