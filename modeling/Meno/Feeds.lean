import Meno.Chat.Listing
import Meno.Notes.Listing
import Meno.Notifications.Listing
import Meno.Shared.UuidText
import Meno.Subscribers.Listing

/-!
# Meno.Feeds

The lists that go by time, newest first. Whoever follows their cursors sees all that matches.
-/

namespace Meno

/-- The tables of the six lists. Every `created_at` in them is a time that an `OffsetDateTime` can
hold: the rows are read into it. -/
structure FeedDb where
  notes : NotesDb
  chat : ChatDb
  subscribers : CountedDb
  notifications : NotificationsDb
  noteTimes : ∀ n ∈ notes.notes.rows, representable n.createdAt = true
  folderTimes : ∀ f ∈ notes.folders.rows, representable f.createdAt = true
  messageTimes : ∀ m ∈ chat.messages.rows, representable m.createdAt = true
  subscriberTimes : ∀ us ∈ subscribers.subscribers.rows, representable us.createdAt = true
  notificationTimes : ∀ n ∈ notifications.notifications.rows, representable n.createdAt = true

/-- A walk that starts without a cursor comes to its end, and shows each of `expected` once, in the
order of time and id. -/
def ShowsAll {α : Type} (fetch : Option Cursor → Except ListError (CursorPage α))
    (expected : List α) (createdAt : α → OffsetDateTime) (id : α → Uuid) : Prop :=
  ∃ items, Walk (fun _ => fetch) 0 none items ∧ items.Perm expected ∧
    items.Pairwise (newerFirst createdAt id)

/-- A request for each of the lists, by the user `userId`. The users of the third list and the
fourth are shown to `viewerId`. -/
structure FeedRequest where
  userId : Uuid
  viewerId : Option Uuid
  notesQuery : NotesQuery
  foldersQuery : FoldersQuery
  messageQuery : ChatMessageQuery
  params : CursorParams
  notificationQuery : NotificationQuery

/-- The keywords are text that PostgreSQL can hold. -/
def FeedRequest.storable (q : FeedRequest) : Prop :=
  q.notesQuery.keywords.all Meno.storable = true ∧ q.foldersQuery.keywords.all Meno.storable = true

/-- The six lists, each walked with its filter and limit. -/
structure FeedsShowAll (t : CursorText) (search : String → String → Bool) (db : FeedDb)
    (q : FeedRequest) : Prop where
  notes : ShowsAll
    (fun c => NotesService.getNotes t search db.notes q.userId (q.notesQuery.resume c))
    ((db.notes.notes.rows.filter (q.notesQuery.wants search q.userId)).map Dto.ofRow)
    Dto.createdAt Dto.id
  folders : ShowsAll
    (fun c => NotesService.getFolders t search db.notes q.userId (q.foldersQuery.resume c))
    ((db.notes.folders.rows.filter (q.foldersQuery.wants search q.userId)).map Dto.ofRow)
    Dto.createdAt Dto.id
  messages : ShowsAll (fun c => ChatService.fetchMessages t db.chat (q.messageQuery.resume c))
    (((ChatRepository.messagesOfUsers db.chat).filter q.messageQuery.wants).map
      ChatMessageRow.response)
    ChatMessageResponse.createdAt ChatMessageResponse.id
  subscribers : ShowsAll
    (fun c => SubscribersService.userSubscribers t db.subscribers q.userId q.viewerId
      (q.params.resume c))
    (((SubscribersRepository.subscribersJoin db.subscribers UserSubscriber.subscriberId).filter
      fun row => row.1.subscriptionId == q.userId).map (db.subscribers.subscriberItem q.viewerId))
    SubscriberItem.subscribedAt SubscriberItem.id
  subscriptions : ShowsAll
    (fun c => SubscribersService.userSubscriptions t db.subscribers q.userId q.viewerId
      (q.params.resume c))
    (((SubscribersRepository.subscribersJoin db.subscribers UserSubscriber.subscriptionId).filter
      fun row => row.1.subscriberId == q.userId).map (db.subscribers.subscriberItem q.viewerId))
    SubscriberItem.subscribedAt SubscriberItem.id
  notifications : ShowsAll
    (fun c => NotificationService.list t db.notifications q.userId (q.notificationQuery.resume c))
    (((NotificationRepository.notificationRows db.notifications).filter
      (q.notificationQuery.wants q.userId)).map
        (NotificationService.render t ∘ NotificationRepository.listItem))
    NotificationListItem.createdAt NotificationListItem.id

/-- For every content of the tables, every filter and every limit. -/
theorem feeds_show_all (t : CursorText) (search : String → String → Bool) (db : FeedDb)
    (q : FeedRequest) (hkw : q.storable) : FeedsShowAll t search db q where
  notes := notes_walk hkw.1 db.noteTimes q.userId
  folders := folders_walk hkw.2 db.folderTimes q.userId
  messages := messages_walk q.messageQuery db.messageTimes
  subscribers := subscribers_walk db.subscriberTimes q.userId q.viewerId q.params
  subscriptions := subscriptions_walk db.subscriberTimes q.userId q.viewerId q.params
  notifications := notifications_walk q.notificationQuery db.notificationTimes q.userId

/-! ## Runs -/

/-- A note of the user 9. -/
def noteRow (n : Nat) : Note where
  id := ⟨BitVec.ofNat 128 n⟩
  fields := { title := "", content := "", pinned := false, folderId := none }
  creatorId := ⟨9⟩
  version := 1
  createdAt := 5
  updatedAt := 5
  deletedAt := none

/-- Two notes of one user, made at the same time, and nothing else. -/
def twoNotes : FeedDb where
  notes := {
    notes := (Lib.Table.empty.put (noteRow 1)).put (noteRow 2)
    folders := .empty }
  chat := .ofTables (.ofUsers .empty)
  subscribers := .ofUsers .empty
  notifications := { notifications := .empty, templates := .empty, types := [], users := .empty }
  noteTimes := by decide
  folderTimes := by decide
  messageTimes := by decide
  subscriberTimes := by decide
  notificationTimes := by decide

/-- One note to a page, with or without keywords. -/
def onePerPage (keywords : Option String) : FeedRequest where
  userId := ⟨9⟩
  viewerId := none
  notesQuery :=
    { folderId := none, pinned := none, keywords, pagination := { cursor := none, limit := some 1 } }
  foldersQuery :=
    { pinned := none, keywords := none, pagination := { cursor := none, limit := some 1 } }
  messageQuery := { broadcastId := ⟨7⟩, pagination := { cursor := none, limit := some 1 } }
  params := { cursor := none, limit := some 1 }
  notificationQuery := { unreadOnly := false, pagination := { cursor := none, limit := some 1 } }

theorem two_notes_shown :
    FeedsShowAll .urlSafe (fun _ _ => true) twoNotes (onePerPage none) :=
  feeds_show_all .urlSafe (fun _ _ => true) twoNotes (onePerPage none) ⟨rfl, rfl⟩

/-- A keyword with the character NUL is refused with the request. -/
theorem nul_keyword_refused :
    ¬ FeedsShowAll .urlSafe (fun _ _ => true) twoNotes
      (onePerPage (some (String.ofList [Char.ofNat 0]))) := by
  intro h
  have hrefused : NotesService.getNotes .urlSafe (fun _ _ => true) twoNotes.notes ⟨9⟩
      ((onePerPage (some (String.ofList [Char.ofNat 0]))).notesQuery.resume none) =
      .error (.database .invalidByteSequence) := rfl
  obtain ⟨items, hwalk, -⟩ := h.notes
  cases hwalk with
  | last hpage _ => exact absurd (hrefused.symm.trans hpage) (by simp)
  | next hpage _ _ _ => exact absurd (hrefused.symm.trans hpage) (by simp)

end Meno
