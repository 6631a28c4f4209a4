import Meno.Shared.Repository
import Meno.Subscribers.Repository

/-!
# Meno.Subscribers.Listing

The pages of a user's subscribers and of a user's subscriptions, newest first.
-/

namespace Meno

open Lib Lib.Sql

structure SubscriberItem where
  id : Uuid
  fullName : String
  bio : Option String
  avatarUrl : Option String
  isFollowing : Bool
  subscribedAt : OffsetDateTime
deriving DecidableEq

namespace SubscribersRepository

-- `t` reads and writes cursors.
variable (t : CursorText)

/-- Those of the candidates that the viewer is subscribed to. -/
def batchIsSubscribed (db : CountedDb) (viewerId : Uuid) (candidateIds : List Uuid) : List Uuid :=
  (db.subscribers.rows.filter fun us =>
    us.subscriberId == viewerId && candidateIds.contains us.subscriptionId).map
      UserSubscriber.subscriptionId

/-- `user_subscribers us INNER JOIN users u ON u.id = .. AND u.deleted_at IS NULL`. -/
def subscribersJoin (db : CountedDb) (on : UserSubscriber → Uuid) :
    List (UserSubscriber × User) :=
  db.subscribers.rows.filterMap fun us =>
    ((db.tables.users.get (on us)).filter fun u => u.deletedAt.isNone).map fun u => (us, u)

def subscriberItem (isFollowing : Bool) (row : UserSubscriber × User) : SubscriberItem where
  id := row.2.id
  fullName := row.2.fullName
  bio := row.2.bio
  avatarUrl := row.2.avatarUrl
  isFollowing := isFollowing
  subscribedAt := row.1.createdAt

/-- Both lists: `owner` is the column that is compared with the user's id, `other` the one that the
users are joined on and that the list goes by. -/
def listSelect (owner other : UserSubscriber → Uuid) (id : Uuid) (params : CursorParams)
    (cursorTs : Option OffsetDateTime) (cursorId : Option Uuid) :
    Select (UserSubscriber × User) SqlValue :=
  let createdAt := fun r : UserSubscriber × User => some (.timestamptz r.1.createdAt)
  let otherId := fun r : UserSubscriber × User => some (.uuid (other r.1))
  let qb : Select (UserSubscriber × User) SqlValue :=
    { conditions := [fun r => some (owner r.1 == id)] }
  let qb := pushCursorCondition qb createdAt otherId cursorTs cursorId .desc
  pushOrderAndLimit qb createdAt otherId .desc params.limitPlusOne

/-- Does the viewer follow each of these users? -/
def markFollowed (db : CountedDb) (viewerId : Option Uuid) (rows : List SubscriberItem) :
    List SubscriberItem :=
  match viewerId with
  | none => rows
  | some vid =>
    let followed := batchIsSubscribed db vid (rows.map SubscriberItem.id)
    rows.map fun row => { row with isFollowing := followed.contains row.id }

def findList (owner other : UserSubscriber → Uuid) (db : CountedDb) (id : Uuid)
    (viewerId : Option Uuid) (params : CursorParams) : Except ListError (List SubscriberItem) := do
  let (cursorTs, cursorId) ← timestampCursor t params.cursor
  let rows ← fetchAll (listSelect owner other id params cursorTs cursorId) none
    (subscribersJoin db other)
  return markFollowed db viewerId (rows.map (subscriberItem false))

def findSubscribers (db : CountedDb) (subscriptionId : Uuid) (viewerId : Option Uuid)
    (params : CursorParams) : Except ListError (List SubscriberItem) :=
  findList t UserSubscriber.subscriptionId UserSubscriber.subscriberId db subscriptionId viewerId
    params

def findSubscriptions (db : CountedDb) (subscriberId : Uuid) (viewerId : Option Uuid)
    (params : CursorParams) : Except ListError (List SubscriberItem) :=
  findList t UserSubscriber.subscriberId UserSubscriber.subscriptionId db subscriberId viewerId
    params

end SubscribersRepository

namespace SubscribersService

/-- What the four list functions do with the rows that they found. -/
def page (t : CursorText) (params : CursorParams) (rows : List SubscriberItem) :
    CursorPage SubscriberItem :=
  .fromRows rows params.pageLimit fun r => .fromTimestampId t r.subscribedAt r.id

def userSubscribers (t : CursorText) (db : CountedDb) (userId : Uuid) (viewerId : Option Uuid)
    (params : CursorParams) : Except ListError (CursorPage SubscriberItem) := do
  let rows ← SubscribersRepository.findSubscribers t db userId viewerId params
  return page t params rows

def userSubscriptions (t : CursorText) (db : CountedDb) (userId : Uuid) (viewerId : Option Uuid)
    (params : CursorParams) : Except ListError (CursorPage SubscriberItem) := do
  let rows ← SubscribersRepository.findSubscriptions t db userId viewerId params
  return page t params rows

end SubscribersService

/-! ## Walks -/

section

variable {t : CursorText} {db : CountedDb} {owner other : UserSubscriber → Uuid}

/-- The viewer, if there is one, is subscribed to the user. -/
def CountedDb.follows (db : CountedDb) (viewerId : Option Uuid) (id : Uuid) : Bool :=
  viewerId.any fun vid =>
    db.subscribers.rows.any fun us => us.subscriberId == vid && us.subscriptionId == id

/-- An item as it is shown to the viewer. -/
def CountedDb.subscriberItem (db : CountedDb) (viewerId : Option Uuid)
    (row : UserSubscriber × User) : SubscriberItem :=
  SubscribersRepository.subscriberItem (db.follows viewerId row.2.id) row

theorem contains_batchIsSubscribed {viewerId id : Uuid} {candidateIds : List Uuid}
    (h : id ∈ candidateIds) :
    (SubscribersRepository.batchIsSubscribed db viewerId candidateIds).contains id =
      db.follows (some viewerId) id := by
  rw [Bool.eq_iff_iff]
  simp only [SubscribersRepository.batchIsSubscribed, CountedDb.follows, List.contains_iff_mem,
    List.mem_map, List.mem_filter, Option.any_some, List.any_eq_true, Bool.and_eq_true,
    beq_iff_eq]
  constructor
  · rintro ⟨us, ⟨hus, hviewer, -⟩, hid⟩
    exact ⟨us, hus, hviewer, hid⟩
  · rintro ⟨us, hus, hviewer, rfl⟩
    exact ⟨us, ⟨hus, hviewer, h⟩, rfl⟩

theorem markFollowed_map (viewerId : Option Uuid) (rows : List (UserSubscriber × User)) :
    SubscribersRepository.markFollowed db viewerId
        (rows.map (SubscribersRepository.subscriberItem false)) =
      rows.map (db.subscriberItem viewerId) := by
  cases viewerId with
  | none => rfl
  | some vid =>
    simp only [SubscribersRepository.markFollowed, List.map_map]
    refine List.map_congr_left fun row hrow => ?_
    have hid : row.2.id ∈ rows.map (SubscriberItem.id ∘ SubscribersRepository.subscriberItem false) :=
      List.mem_map.2 ⟨row, hrow, rfl⟩
    exact congrArg (fun b => SubscribersRepository.subscriberItem b row)
      (contains_batchIsSubscribed hid)

theorem findList_resume (id : Uuid) (viewerId : Option Uuid) (params : CursorParams)
    (c : Option Cursor) :
    (SubscribersRepository.findList t owner other db id viewerId (params.resume c) >>= fun rows =>
        .ok (SubscribersService.page t (params.resume c) rows)) =
      timestampPage t (SubscribersRepository.listSelect owner other id params) none
        (SubscribersRepository.subscribersJoin db other) params.pageLimit
        (db.subscriberItem viewerId) SubscriberItem.subscribedAt SubscriberItem.id c := by
  simp only [SubscribersRepository.findList, CursorParams.cursor_resume, markFollowed_map,
    timestampPage, bind_assoc, pure_bind]
  rfl

theorem subscribersJoin_mem {us : UserSubscriber} {row : UserSubscriber × User}
    (h : (((db.tables.users.get (other us)).filter fun u => u.deletedAt.isNone).map
      fun u => (us, u)) = some row) : row.1 = us ∧ row.2.id = other us := by
  obtain ⟨u, hu, rfl⟩ := Option.map_eq_some_iff.1 h
  obtain ⟨hget, -⟩ := Option.filter_eq_some_iff.1 hu
  exact ⟨rfl, Table.key_of_get hget⟩

/-- The two columns of the table's key: what one does not tell apart among the rows that agree in
the other is the same row. -/
def TellsApart (owner other : UserSubscriber → Uuid) : Prop :=
  ∀ a b : UserSubscriber, owner a = owner b → other a = other b → a.key = b.key

theorem list_walk (hapart : TellsApart owner other)
    (htimes : ∀ us ∈ db.subscribers.rows, representable us.createdAt = true) (id : Uuid)
    (viewerId : Option Uuid) (params : CursorParams) :
    ∃ items, Walk (fun _ c =>
        (SubscribersRepository.findList t owner other db id viewerId (params.resume c) >>= fun rows =>
          .ok (SubscribersService.page t (params.resume c) rows))) 0 none items ∧
      items.Perm (((SubscribersRepository.subscribersJoin db other).filter
        fun row => owner row.1 == id).map (db.subscriberItem viewerId)) ∧
      items.Pairwise (newerFirst SubscriberItem.subscribedAt SubscriberItem.id) := by
  have hpos := params.pageLimit_pos
  have hlists := listsByTime_push
    ({ conditions := [fun r => some (owner r.1 == id)] } : Select (UserSubscriber × User) SqlValue)
    rfl hpos.le (fun r => r.1.createdAt) (fun r => other r.1)
  have hwants : ({ conditions := [fun r => some (owner r.1 == id)] } :
      Select (UserSubscriber × User) SqlValue).matching = fun r => owner r.1 == id := by
    funext r
    simp
  rw [hwants] at hlists
  simp only [findList_resume]
  have hkeys : ((SubscribersRepository.subscribersJoin db other).map fun r => r.1.key).Nodup :=
    db.subscribers.nodup.sublist
      (map_filterMap_sublist (fun _ _ h => congrArg _ (subscribersJoin_mem h).1) _)
  refine timestamp_walk hlists rfl (by omega) ?_ ?_ ?_
  · refine List.Nodup.map_on ?_ (List.Nodup.filter _ (List.Nodup.of_map _ hkeys))
    intro a ha b hb hab
    obtain ⟨ha, hida⟩ := List.mem_filter.1 ha
    obtain ⟨hb, hidb⟩ := List.mem_filter.1 hb
    have howner : owner a.1 = owner b.1 := (beq_iff_eq.1 hida).trans (beq_iff_eq.1 hidb).symm
    exact List.inj_on_of_nodup_map hkeys ha hb (hapart _ _ howner hab)
  · intro r hr
    obtain ⟨us, hus, hr⟩ := List.mem_filterMap.1 hr
    obtain ⟨rfl, -⟩ := subscribersJoin_mem hr
    exact htimes r.1 hus
  · intro r hr
    obtain ⟨us, -, hr⟩ := List.mem_filterMap.1 hr
    obtain ⟨rfl, hid⟩ := subscribersJoin_mem hr
    exact ⟨rfl, hid⟩

theorem subscribers_walk (htimes : ∀ us ∈ db.subscribers.rows, representable us.createdAt = true)
    (userId : Uuid) (viewerId : Option Uuid) (params : CursorParams) :
    ∃ items, Walk (fun _ c => SubscribersService.userSubscribers t db userId viewerId
        (params.resume c)) 0 none items ∧
      items.Perm (((SubscribersRepository.subscribersJoin db UserSubscriber.subscriberId).filter
        fun row => row.1.subscriptionId == userId).map (db.subscriberItem viewerId)) ∧
      items.Pairwise (newerFirst SubscriberItem.subscribedAt SubscriberItem.id) :=
  list_walk (fun _ _ h1 h2 => Prod.ext h2 h1) htimes userId viewerId params

theorem subscriptions_walk (htimes : ∀ us ∈ db.subscribers.rows, representable us.createdAt = true)
    (userId : Uuid) (viewerId : Option Uuid) (params : CursorParams) :
    ∃ items, Walk (fun _ c => SubscribersService.userSubscriptions t db userId viewerId
        (params.resume c)) 0 none items ∧
      items.Perm (((SubscribersRepository.subscribersJoin db UserSubscriber.subscriptionId).filter
        fun row => row.1.subscriberId == userId).map (db.subscriberItem viewerId)) ∧
      items.Pairwise (newerFirst SubscriberItem.subscribedAt SubscriberItem.id) :=
  list_walk (fun _ _ h1 h2 => Prod.ext h1 h2) htimes userId viewerId params

end

end Meno
