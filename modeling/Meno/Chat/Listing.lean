import Meno.Chat.Repository
import Meno.Shared.Repository

/-!
# Meno.Chat.Listing

The pages of a broadcast's chat, newest first.
-/

namespace Meno

open Lib Lib.Sql

structure ChatMessageQuery where
  broadcastId : Uuid
  pagination : CursorParams

namespace ChatRepository

-- `t` reads and writes cursors.
variable (t : CursorText)

/-- `chat_messages m JOIN users u ON u.id = m.sender_id AND u.deleted_at IS NULL`. -/
def messagesOfUsers (db : ChatDb) : List ChatMessageRow :=
  db.messages.rows.filterMap fun m =>
    if (db.tables.users.get m.senderId).any (·.deletedAt.isNone) then joinSender db m else none

def messagesWhere (broadcastId : Uuid) : Select ChatMessageRow SqlValue :=
  let qb : Select ChatMessageRow SqlValue :=
    { conditions := [fun m => some (m.broadcastId == broadcastId)] }
  qb.and fun m => some m.deletedAt.isNone

def messagesSelect (query : ChatMessageQuery) (cursorTs : Option OffsetDateTime)
    (cursorId : Option Uuid) : Select ChatMessageRow SqlValue :=
  let createdAt := fun m : ChatMessageRow => some (.timestamptz m.createdAt)
  let id := fun m : ChatMessageRow => some (.uuid m.id)
  let qb := messagesWhere query.broadcastId
  let qb := pushCursorCondition qb createdAt id cursorTs cursorId .desc
  pushOrderAndLimit qb createdAt id .desc query.pagination.limitPlusOne

def findMessages (db : ChatDb) (query : ChatMessageQuery) :
    Except ListError (List ChatMessageResponse) := do
  let (cursorTs, cursorId) ← timestampCursor t query.pagination.cursor
  let rows ← fetchAll (messagesSelect query cursorTs cursorId) none (messagesOfUsers db)
  return rows.map ChatMessageRow.response

end ChatRepository

/-- The fetcher of `get_messages`: the page as the database has it. -/
def ChatService.fetchMessages (t : CursorText) (db : ChatDb) (query : ChatMessageQuery) :
    Except ListError (CursorPage ChatMessageResponse) := do
  let rows ← ChatRepository.findMessages t db query
  return .fromRows rows query.pagination.pageLimit fun r => .fromTimestampId t r.createdAt r.id

/-! ## Walks -/

def ChatMessageQuery.resume (query : ChatMessageQuery) (c : Option Cursor) : ChatMessageQuery :=
  { query with pagination := query.pagination.resume c }

/-- A message that has not been deleted, in the chat of the broadcast. -/
def ChatMessageQuery.wants (query : ChatMessageQuery) (m : ChatMessageRow) : Bool :=
  m.broadcastId == query.broadcastId && m.deletedAt.isNone

section

variable {t : CursorText} {db : ChatDb}

theorem messageOfUser {m : ChatMessage} {r : ChatMessageRow}
    (h : (if (db.tables.users.get m.senderId).any (·.deletedAt.isNone) then
      ChatRepository.joinSender db m else none) = some r) :
    r.id = m.id ∧ r.createdAt = m.createdAt := by
  split at h
  · obtain ⟨u, -, rfl⟩ := Option.map_eq_some_iff.1 h
    exact ⟨rfl, rfl⟩
  · cases h

theorem matching_messagesSelect (query : ChatMessageQuery) (ts : Option OffsetDateTime)
    (id : Option Uuid) :
    (ChatRepository.messagesSelect query ts id).matching = query.wants := by
  have hwhere : (ChatRepository.messagesSelect query ts id).matching =
      (ChatRepository.messagesWhere query.broadcastId).matching := by
    cases ts <;> cases id <;> rfl
  rw [hwhere]
  funext m
  simp [ChatRepository.messagesWhere, ChatMessageQuery.wants]

/-- A page is made of the messages that the request wants. -/
theorem fetchMessages_congr {db' : ChatDb} {query : ChatMessageQuery}
    (h : (ChatRepository.messagesOfUsers db').filter query.wants =
      (ChatRepository.messagesOfUsers db).filter query.wants) :
    ChatService.fetchMessages t db' query = ChatService.fetchMessages t db query := by
  have hfetch : ∀ ts id, fetchAll (ChatRepository.messagesSelect query ts id) none
      (ChatRepository.messagesOfUsers db') = fetchAll (ChatRepository.messagesSelect query ts id)
        none (ChatRepository.messagesOfUsers db) := by
    intro ts id
    have hrun := run_congr (ChatRepository.messagesSelect query ts id)
      (by rwa [matching_messagesSelect] : (ChatRepository.messagesOfUsers db').filter _ =
        (ChatRepository.messagesOfUsers db).filter _)
    rw [fetchAll, hrun, fetchAll]
  simp only [ChatService.fetchMessages, ChatRepository.findMessages, hfetch]

/-- Whoever asks does not see the message. -/
def ChatMessageQuery.Hides (query : ChatMessageQuery) (db : ChatDb) (m : ChatMessage) : Prop :=
  ∀ r, ChatRepository.joinSender db m = some r → query.wants r = false

/-- Whoever sees neither a message nor what it replaces gets the same page. -/
theorem fetchMessages_message {query : ChatMessageQuery} {m : ChatMessage}
    (hm : query.Hides db m) (hold : ∀ m' ∈ db.messages.get m.id, query.Hides db m') :
    ChatService.fetchMessages t (db.apply (.message m)) query =
      ChatService.fetchMessages t db query := by
  have hnone : ∀ m, query.Hides db m →
      ((if (db.tables.users.get m.senderId).any (·.deletedAt.isNone) then
        ChatRepository.joinSender db m else none).filter query.wants) = none := by
    intro m hm
    split
    · cases hjoin : ChatRepository.joinSender db m with
      | none => rfl
      | some r => simp [Option.filter, hm r hjoin]
    · rfl
  refine fetchMessages_congr ?_
  unfold ChatRepository.messagesOfUsers
  rw [List.filter_filterMap, List.filter_filterMap]
  exact Table.filterMap_rows_put (hnone m hm) fun m' hm' => hnone m' (hold m' hm')

theorem fetchMessages_resume (query : ChatMessageQuery) (c : Option Cursor) :
    ChatService.fetchMessages t db (query.resume c) =
      timestampPage t (ChatRepository.messagesSelect query) none (ChatRepository.messagesOfUsers db)
        query.pagination.pageLimit ChatMessageRow.response ChatMessageResponse.createdAt
        ChatMessageResponse.id c := by
  simp only [ChatService.fetchMessages, ChatRepository.findMessages, ChatMessageQuery.resume,
    CursorParams.cursor_resume, CursorParams.pageLimit_resume, timestampPage, bind_assoc, pure_bind]
  rfl

theorem messages_walk (query : ChatMessageQuery)
    (htimes : ∀ m ∈ db.messages.rows, representable m.createdAt = true) :
    ∃ items, Walk (fun _ c => ChatService.fetchMessages t db (query.resume c)) 0 none items ∧
      items.Perm (((ChatRepository.messagesOfUsers db).filter query.wants).map
        ChatMessageRow.response) ∧
      items.Pairwise (newerFirst ChatMessageResponse.createdAt ChatMessageResponse.id) := by
  have hpos := query.pagination.pageLimit_pos
  have hlists := listsByTime_push (ChatRepository.messagesWhere query.broadcastId)
    (by simp [ChatRepository.messagesWhere]) hpos.le ChatMessageRow.createdAt ChatMessageRow.id
  have hwants : (ChatRepository.messagesWhere query.broadcastId).matching = query.wants := by
    funext m
    simp [ChatRepository.messagesWhere, ChatMessageQuery.wants]
  rw [hwants] at hlists
  have hnodup : (((ChatRepository.messagesOfUsers db).filter query.wants).map
      ChatMessageRow.id).Nodup :=
    db.messages.nodup.sublist ((List.filter_sublist.map _).trans
      (map_filterMap_sublist (fun _ _ h => (messageOfUser h).1) _))
  simp only [fetchMessages_resume]
  refine timestamp_walk hlists rfl (by omega) hnodup (fun r hr => ?_) fun _ _ => ⟨rfl, rfl⟩
  obtain ⟨m, hm, hr⟩ := List.mem_filterMap.1 hr
  rw [(messageOfUser hr).2]
  exact htimes m hm

end

end Meno
