import Meno.Lib.Schedule
import Meno.Broadcast.Participation
import Meno.Broadcast.Statements
import Meno.Chat.Service

/-!
# Meno.Chat.Sender

As whom the chat acts for a client. The documentation of the handlers says that the dispatcher puts
the authenticated user into `sender_id`; the dispatcher takes it from the client's frame with the
rest of the request. So a frame is handled as the user of its connection exactly when no chat
request is read from it or the client has named itself (`chat_acts_as_user_iff`).
-/

namespace Meno

open Lib

/-! ## Rows under keys -/

inductive ChatKey where
  | row (k : BroadcastKey)
  | message (id : Uuid)
  | reaction (id : Uuid)
  | sent (userId : Uuid)
  | published (broadcastId : Uuid)
deriving DecidableEq

inductive ChatRow where
  | row (r : BroadcastRow)
  | message (r : ChatMessage)
  | reaction (r : ChatReaction)

def ChatWrite.key : ChatWrite → ChatKey
  | .row w => .row w.key
  | .message r => .message r.id
  | .reaction r => .reaction r.id
  | .sent u _ => .sent u
  | .published b _ => .published b

/-- What is sent leaves no row. -/
def ChatWrite.value : ChatWrite → Option ChatRow
  | .row w => w.value.map .row
  | .message r => some (.message r)
  | .reaction r => some (.reaction r)
  | .sent _ _ => none
  | .published _ _ => none

def ChatDb.look (db : ChatDb) : ChatKey → Option ChatRow
  | .row k => (db.tables.look k).map .row
  | .message id => (db.messages.get id).map .message
  | .reaction id => (db.reactions.get id).map .reaction
  | .sent _ => none
  | .published _ => none

theorem ChatDb.look_apply (db : ChatDb) (w : ChatWrite) (k : ChatKey) :
    (db.apply w).look k = if k = w.key then w.value else db.look k := by
  cases w with
  | row w =>
    cases k with
    | row k =>
      simp only [look, apply, BroadcastDb.look_apply, ChatWrite.key, ChatWrite.value,
        ChatKey.row.injEq]
      split <;> rfl
    | _ => rfl
  | message r =>
    cases k with
    | message id =>
      simp only [look, apply, Table.get_put, ChatWrite.key, ChatWrite.value, ChatKey.message.injEq]
      split <;> rfl
    | _ => rfl
  | reaction r =>
    cases k with
    | reaction id =>
      simp only [look, apply, Table.get_put, ChatWrite.key, ChatWrite.value, ChatKey.reaction.injEq]
      split <;> rfl
    | _ => rfl
  | sent u p =>
    cases k with
    | sent u' => simp [look, ChatWrite.value]
    | _ => rfl
  | published b p =>
    cases k with
    | published b' => simp [look, ChatWrite.value]
    | _ => rfl

def chatKeyed : Keyed chatEngine ChatKey ChatRow where
  key := ChatWrite.key
  value := ChatWrite.value
  look := ChatDb.look
  look_apply := ChatDb.look_apply

abbrev WsWorld (ι : Type) := World WsStmt ChatDb ChatWrite OffsetDateTime DbError WsAnswer ι

/-- The worlds that frames and operations reach, interleaved in any way. -/
abbrev WsReaches {ι : Type} [DecidableEq ι] (c : Codec) (ops : ι → WsOp) (db : ChatDb)
    (t : OffsetDateTime) (w : WsWorld ι) : Prop :=
  World.Reaches chatKeyed (fun i => (ops i).prog c) db t w

/-! ## As whom something is done -/

/-- The sender of a message or reaction that is written, and the one an error is sent to. -/
def ChatWrite.actor : ChatWrite → Option Uuid
  | .message r => some r.senderId
  | .reaction r => some r.senderId
  | .sent u (.broadcastError _) => some u
  | _ => none

/-- All that caller `i` has done so far was done as `u`. -/
def ActsAs {ι : Type} (w : WsWorld ι) (i : ι) (u : Uuid) : Prop :=
  ∀ x, (i, x) ∈ w.log → ∀ a, x.actor = some a → a = u

/-- A statement that acts as nobody but `u`. -/
def WsStmt.ActsAs (u : Uuid) : {β : Type} → WsStmt β → Prop
  | _, .broadcast _ => True
  | _, .chat (.createMessage _ _ s _) => s = u
  | _, .chat (.updateMessage _ s _) => s = u
  | _, .chat (.softDeleteMessage _ s) => s = u
  | _, .chat (.createReaction _ _ s _) => s = u
  | _, .chat (.sendToUser v (.broadcastError _)) => v = u
  | _, .chat _ => True

/-- The `sender_id` of the chat request in a frame, if there is one in it. -/
def requestSender (c : Codec) (rawText : String) : Option Uuid :=
  match c.fromStr rawText with
  | none => none
  | some msg =>
    match msg.event with
    | .sendMessage => (SendMessageRequest.fromValue c msg.data).toOption.map (·.senderId)
    | .editMessage => (EditMessageRequest.fromValue c msg.data).toOption.map (·.senderId)
    | .deleteMessage => (DeleteMessageRequest.fromValue c msg.data).toOption.map (·.senderId)
    | .sendReaction => (SendReactionRequest.fromValue c msg.data).toOption.map (·.senderId)
    | _ => none

/-! ## Statements -/

section Statements

variable {db : ChatDb} {now : OffsetDateTime} {u : Uuid}

theorem sendersMessage_sender {messageId senderId : Uuid} {m : ChatMessage}
    (h : ChatRepository.sendersMessage db messageId senderId = some m) : m.senderId = senderId := by
  obtain ⟨-, hm⟩ := Option.filter_eq_some_iff.1 h
  simp only [Bool.and_eq_true, beq_iff_eq] at hm
  exact hm.1

/-- What is written is written as the sender that the statement names. -/
theorem exec_actsAs {β : Type} {s : WsStmt β} (hs : s.ActsAs u) {b : β} {ws : List ChatWrite}
    (h : chatEngine.exec s now db = .ok (b, ws)) :
    ∀ x ∈ ws, ∀ a, x.actor = some a → a = u := by
  have hone : ∀ {x : ChatWrite} {v : Uuid}, x.actor = some v → v = u →
      ∀ y ∈ [x], ∀ a, y.actor = some a → a = u := by
    rintro x v hx rfl y hy a ha
    rw [List.mem_singleton.1 hy, hx] at ha
    exact (Option.some.inj ha).symm
  cases s with
  | broadcast s =>
    obtain ⟨⟨b', ws'⟩, -, he⟩ := bind_eq_ok.1 h
    cases he
    intro x hx
    obtain ⟨y, -, rfl⟩ := List.mem_map.1 hx
    simp [ChatWrite.actor]
  | chat s =>
    cases s with
    | createMessage id b s c =>
      simp only [chatEngine, WsStmt.exec, ChatStmt.exec, ChatRepository.createMessage,
        bind_eq_ok] at h
      obtain ⟨_, _, c, _, h⟩ := h
      split at h
      · cases h
      · simp only [pure_ok, bind_eq_ok] at h
        obtain ⟨_, _, _, _, h⟩ := h
        split at h
        · cases h
          exact hone rfl hs
        · cases h
    | updateMessage m s c =>
      obtain ⟨_, _, h⟩ := bind_eq_ok.1 h
      split at h
      · cases h
        simp
      · rename_i found hfound
        obtain ⟨c, _, h⟩ := bind_eq_ok.1 h
        cases h
        exact hone rfl ((sendersMessage_sender hfound).trans hs)
    | softDeleteMessage m s =>
      simp only [chatEngine, WsStmt.exec, ChatStmt.exec, ChatRepository.softDeleteMessage] at h
      split at h
      · cases h
        simp
      · rename_i found hfound
        cases h
        exact hone rfl ((sendersMessage_sender hfound).trans hs)
    | createReaction id b s c =>
      simp only [chatEngine, WsStmt.exec, ChatStmt.exec, ChatRepository.createReaction,
        bind_eq_ok] at h
      obtain ⟨_, _, c, _, h⟩ := h
      split at h
      · cases h
      · simp only [pure_ok, bind_eq_ok] at h
        obtain ⟨_, _, _, _, h⟩ := h
        cases h
        exact hone rfl hs
    | sendToUser v p =>
      cases h
      cases p with
      | broadcastError e => exact hone rfl hs
      | _ => simp [ChatWrite.actor]
    | publishToRoom b p =>
      cases h
      simp [ChatWrite.actor]
    | findMessageById _ => cases h; simp
    | isBroadcastParticipant _ _ => cases h; simp
    | isActiveBroadcast _ => cases h; simp

end Statements

/-! ## What the handlers do -/

namespace WsHandlers

open ChatService

variable {c : Codec} {u v : Uuid} {id : Uuid} {now : OffsetDateTime}

/-- The calls that act as `u`, or as nobody. -/
abbrev AllAs (u : Uuid) : {β : Type} → Cmd WsStmt DbError β → Prop :=
  World.AllGood fun s => WsStmt.ActsAs u s

theorem uses_query {β : Type} {s : ChatStmt β} (h : (WsStmt.chat s).ActsAs u) :
    Act.Uses (AllAs u) (ChatService.query s) := Act.uses_ask h

theorem uses_lookup {β : Type} {s : ChatStmt β} (h : (WsStmt.chat s).ActsAs u) :
    Act.Uses (AllAs u) (ChatService.lookup s) := Act.uses_attempt (uses_query h)

theorem uses_okOr {α : Type} {e : ChatError} (o : Option α) :
    Act.Uses (AllAs u) (ChatService.okOr e o) := by
  cases o <;> trivial

theorem uses_refuse {e : ChatError} (cond : Bool) : Act.Uses (AllAs u) (refuse e cond) := by
  cases cond <;> trivial

theorem uses_publishToRoom {b : Uuid} {p : WsPayload} :
    Act.Uses (AllAs u) (publishToRoom b p) :=
  Act.uses_bind (uses_lookup trivial) fun _ => Act.uses_pure _

theorem uses_sendMessage (req : SendMessageRequest) :
    Act.Uses (AllAs req.senderId) (sendMessage id req) := by
  refine Act.uses_bind (uses_lookup trivial) fun _ => ?_
  refine Act.uses_bind (uses_lookup trivial) fun _ => ?_
  refine Act.uses_bind (Act.uses_ofExcept _) fun _ => ?_
  refine Act.uses_bind (Act.uses_ofExcept _) fun _ => ?_
  refine Act.uses_bind (uses_refuse _) fun _ => ?_
  refine Act.uses_bind (uses_refuse _) fun _ => ?_
  refine Act.uses_bind (uses_query rfl) fun _ => ?_
  exact Act.uses_bind uses_publishToRoom fun _ => Act.uses_pure _

theorem uses_editMessage (req : EditMessageRequest) :
    Act.Uses (AllAs req.senderId) (editMessage now req) := by
  refine Act.uses_bind (uses_lookup trivial) fun _ => ?_
  refine Act.uses_bind (uses_lookup trivial) fun _ => ?_
  refine Act.uses_bind (Act.uses_ofExcept _) fun _ => ?_
  refine Act.uses_bind (uses_okOr _) fun _ => ?_
  refine Act.uses_bind (Act.uses_ofExcept _) fun _ => ?_
  refine Act.uses_bind (uses_refuse _) fun _ => ?_
  refine Act.uses_bind (uses_refuse _) fun _ => ?_
  refine Act.uses_bind (uses_refuse _) fun _ => ?_
  refine Act.uses_bind (uses_query rfl) fun _ => ?_
  refine Act.uses_bind (uses_okOr _) fun _ => ?_
  exact Act.uses_bind uses_publishToRoom fun _ => Act.uses_pure _

theorem uses_deleteMessage (req : DeleteMessageRequest) :
    Act.Uses (AllAs req.senderId) (deleteMessage req) := by
  refine Act.uses_bind (uses_query rfl) fun _ => ?_
  exact Act.uses_bind (uses_refuse _) fun _ => uses_publishToRoom

theorem uses_sendReaction (req : SendReactionRequest) :
    Act.Uses (AllAs req.senderId) (sendReaction id req) := by
  refine Act.uses_bind (uses_lookup trivial) fun _ => ?_
  refine Act.uses_bind (uses_lookup trivial) fun _ => ?_
  refine Act.uses_bind (Act.uses_ofExcept _) fun _ => ?_
  refine Act.uses_bind (uses_refuse _) fun _ => ?_
  refine Act.uses_bind (Act.uses_ofExcept _) fun _ => ?_
  refine Act.uses_bind (uses_refuse _) fun _ => ?_
  refine Act.uses_bind (uses_query rfl) fun _ => ?_
  exact Act.uses_bind uses_publishToRoom fun _ => Act.uses_pure _

theorem uses_sendError {b : Uuid} {code : WsErrorCode} {message : String} :
    (sendError u b code message).Uses (AllAs u) := ⟨rfl, fun _ => trivial⟩

theorem uses_validated {b : Uuid} {result : Except ValidationError Unit} {next : WsHandler}
    (h : next.Uses (AllAs u)) : (validated c u b result next).Uses (AllAs u) := by
  cases result with
  | ok _ => exact h
  | error e => exact uses_sendError

theorem uses_replyErr {α : Type} {b : Uuid} {code : ChatError → WsErrorCode} {op : ChatSvc α}
    (h : Act.Uses (AllAs u) op) : (replyErr c u b code op).Uses (AllAs u) := by
  refine Prog.uses_bind h fun r => ?_
  cases r with
  | ok _ => trivial
  | error e => exact uses_sendError

theorem uses_decoded {α : Type} {v : Uuid} {req : Except DeError α} {handle : α → WsHandler}
    {sender : α → Uuid} (hsender : (req.toOption.map sender).getD v = u)
    (h : ∀ r, (handle r).Uses (AllAs (sender r))) : (decoded c v req handle).Uses (AllAs u) := by
  subst hsender
  cases req with
  | error e => exact uses_sendError
  | ok r => exact h r

/-- A frame is handled as the sender of its request, and as the user without one. -/
theorem uses_handleClientMessage {rawText : String}
    (hsender : (requestSender c rawText).getD u = v) :
    (handleClientMessage c u id now rawText).Uses (AllAs v) := by
  unfold requestSender at hsender
  unfold handleClientMessage
  cases hmsg : c.fromStr rawText with
  | none => trivial
  | some msg =>
    rw [hmsg] at hsender
    obtain ⟨event, data⟩ := msg
    cases event with
    | sendMessage =>
      exact uses_decoded hsender fun _ => uses_validated (uses_replyErr (uses_sendMessage _))
    | editMessage =>
      exact uses_decoded hsender fun _ => uses_validated (uses_replyErr (uses_editMessage _))
    | deleteMessage => exact uses_decoded hsender fun _ => uses_replyErr (uses_deleteMessage _)
    | sendReaction =>
      exact uses_decoded hsender fun _ => uses_validated (uses_replyErr (uses_sendReaction _))
    | heartbeat => exact ⟨trivial, fun _ => trivial⟩
    | _ =>
      -- An event that clients do not send: its error goes to the user.
      cases hsender
      exact uses_sendError

/-! ## A request that goes wrong -/

/-- When all its statements fail, an operation ends in an error. -/
def Breaks {α : Type} (op : ChatSvc α) : Prop :=
  ∃ e, Prog.FailsTo DbError.infrastructure (ExceptT.run op) (.ret (.error e))

theorem breaks_sendMessage (req : SendMessageRequest) : Breaks (sendMessage id req) :=
  ⟨_, .pool (.pool .refl)⟩

theorem breaks_editMessage (req : EditMessageRequest) : Breaks (editMessage now req) :=
  ⟨_, .pool (.pool .refl)⟩

theorem breaks_deleteMessage (req : DeleteMessageRequest) : Breaks (deleteMessage req) :=
  ⟨_, .pool .refl⟩

theorem breaks_sendReaction (req : SendReactionRequest) : Breaks (sendReaction id req) :=
  ⟨_, .pool (.pool .refl)⟩

/-- The handling of a request can come to an error reply to `s`. -/
def Replies (s : Uuid) (p : WsHandler) : Prop :=
  ∃ b code message, p.FailsTo .infrastructure (sendError s b code message)

theorem replies_replyErr {α : Type} {s b : Uuid} {code : ChatError → WsErrorCode} {op : ChatSvc α}
    (h : Breaks op) : Replies s (replyErr c s b code op) := by
  obtain ⟨e, he⟩ := h
  exact ⟨b, code e, e.display c, he.bind⟩

theorem replies_validated {s b : Uuid} {result : Except ValidationError Unit} {next : WsHandler}
    (h : Replies s next) : Replies s (validated c s b result next) := by
  cases result with
  | ok _ => exact h
  | error e => exact ⟨_, _, _, .refl⟩

theorem replies_decoded {α : Type} {s : Uuid} {req : Except DeError α} {handle : α → WsHandler}
    {sender : α → Uuid} (hsender : req.toOption.map sender = some s)
    (h : ∀ r, Replies (sender r) (handle r)) : Replies s (decoded c u req handle) := by
  cases req with
  | error e => cases hsender
  | ok r =>
    cases hsender
    exact h r

theorem replies_handleClientMessage {rawText : String} {s : Uuid}
    (hsender : requestSender c rawText = some s) :
    Replies s (handleClientMessage c u id now rawText) := by
  unfold requestSender at hsender
  unfold handleClientMessage
  cases hmsg : c.fromStr rawText with
  | none =>
    rw [hmsg] at hsender
    cases hsender
  | some msg =>
    rw [hmsg] at hsender
    obtain ⟨event, data⟩ := msg
    cases event with
    | sendMessage =>
      exact replies_decoded hsender fun _ =>
        replies_validated (replies_replyErr (breaks_sendMessage _))
    | editMessage =>
      exact replies_decoded hsender fun _ =>
        replies_validated (replies_replyErr (breaks_editMessage _))
    | deleteMessage =>
      exact replies_decoded hsender fun _ => replies_replyErr (breaks_deleteMessage _)
    | sendReaction =>
      exact replies_decoded hsender fun _ =>
        replies_validated (replies_replyErr (breaks_sendReaction _))
    | _ => cases hsender

end WsHandlers

/-! ## Runs -/

section Runs

open WsHandlers

variable {c : Codec} {u id : Uuid} {now t : OffsetDateTime} {rawText : String} {ι : Type}
  [DecidableEq ι] {ops : ι → WsOp} {db : ChatDb} {w : WsWorld ι} {i : ι}

/-- In every run a frame is handled as the sender of its request, and as the user without one. -/
theorem actsAs_of_reaches (hop : ops i = .frame u id now rawText)
    (h : WsReaches c ops db t w) : ActsAs w i ((requestSender c rawText).getD u) := by
  have huses : Prog.Uses (AllAs ((requestSender c rawText).getD u)) ((ops i).prog c) := by
    rw [hop]
    exact Prog.uses_bind (uses_handleClientMessage rfl) fun _ => trivial
  exact World.log_of_uses (fun hs _ _ _ _ he => exec_actsAs hs he) huses h

/-- When the database is gone, the sender of a request is sent an error. -/
theorem exists_reply {s : Uuid} (hop : ops i = .frame u id now rawText)
    (hsender : requestSender c rawText = some s) :
    ∃ w : WsWorld ι, WsReaches c ops db t w ∧ ∃ x, (i, x) ∈ w.log ∧ x.actor = some s := by
  have hreplies : Replies s (handleClientMessage c u id now rawText) :=
    replies_handleClientMessage hsender
  obtain ⟨b, code, message, hfails⟩ := hreplies
  have hstart : ((World.start db t fun j => (ops j).prog c : WsWorld ι).callers i).prog =
      (handleClientMessage c u id now rawText >>= fun _ => .ret .frame) := by
    show (ops i).prog c = _
    rw [hop]
    rfl
  obtain ⟨w, hw, hidle, hp⟩ := World.exists_of_failsTo (K := chatKeyed)
    (hfails.bind (f := fun _ => .ret WsAnswer.frame)) .refl (fun _ => rfl) hstart
  obtain ⟨hreply, -⟩ := World.exists_pool false hw hidle hp
  exact ⟨_, hreply, _, List.mem_append_right _ (List.mem_singleton.2 rfl), rfl⟩

end Runs

/-- A frame is handled as the user of its connection, in every run, exactly when no chat request is
read from it or the client has named that user in it. -/
theorem chat_acts_as_user_iff (c : Codec) (u id : Uuid) (now : OffsetDateTime) (rawText : String) :
    (∀ (ι : Type) [DecidableEq ι] (ops : ι → WsOp) (i : ι) (db : ChatDb) (t : OffsetDateTime)
      (w : WsWorld ι), ops i = .frame u id now rawText → WsReaches c ops db t w → ActsAs w i u) ↔
      ∀ s, requestSender c rawText = some s → s = u := by
  constructor
  · intro h s hs
    have hrun : ∃ w : WsWorld Unit,
        WsReaches c (fun _ => .frame u id now rawText) (.ofTables (.ofUsers .empty)) 0 w ∧
          ∃ x, ((), x) ∈ w.log ∧ x.actor = some s := exists_reply rfl hs
    obtain ⟨w, hw, x, hx, hactor⟩ := hrun
    exact h Unit _ () _ 0 w rfl hw x hx s hactor
  · intro h ι _ ops i db t w hop hw
    have hacts := actsAs_of_reaches hop hw
    cases hs : requestSender c rawText with
    | none =>
      rw [hs] at hacts
      exact hacts
    | some s =>
      rw [hs] at hacts
      obtain rfl := h s hs
      exact hacts

/-! ## Another's name -/

/-- The frame `{"event":"sendMessage","data":{..}}` in which a client writes as user 1. -/
def forgedFrame : String :=
  "\x7b\"event\":\"sendMessage\",\"data\":\x7b" ++
    "\"broadcast_id\":\"00000000-0000-0000-0000-000000000009\"," ++
    "\"sender_id\":\"00000000-0000-0000-0000-000000000001\",\"content\":\"hello\"\x7d\x7d"

/-- The libraries on that frame. -/
def forgedCodec : Codec where
  fromStr text :=
    if text = forgedFrame then
      some ⟨.sendMessage, .object [
        ("broadcast_id", .string "00000000-0000-0000-0000-000000000009"),
        ("content", .string "hello"),
        ("sender_id", .string "00000000-0000-0000-0000-000000000001")]⟩
    else none
  parseUuid text :=
    if text = "00000000-0000-0000-0000-000000000001" then some ⟨1⟩
    else if text = "00000000-0000-0000-0000-000000000009" then some ⟨9⟩
    else none
  displayError _ := ""
  displayDb _ := ""
  debugValidation _ := ""

/-- User 1 starts broadcast 9, and user 2 sends the frame. -/
def forgedCalls : Fin 3 → WsOp
  | 0 => .broadcast (.create 1 1 ⟨9⟩ morningPrayer ⟨1⟩)
  | 1 => .broadcast (.start 2 ⟨9⟩ ⟨1⟩)
  | 2 => .frame ⟨2⟩ ⟨5⟩ 3 forgedFrame

/-- The message is stored as one of user 1. -/
theorem speaks_as_another : ∃ w : WsWorld (Fin 3),
    WsReaches forgedCodec forgedCalls (.ofTables (.ofUsers twoUsers)) 0 w ∧
      (w.committed.messages.get ⟨5⟩).map ChatMessage.senderId = some ⟨1⟩ ∧ ¬ActsAs w 2 ⟨2⟩ := by
  have hrun : ∃ w : WsWorld (Fin 3),
      WsReaches forgedCodec forgedCalls (.ofTables (.ofUsers twoUsers)) 0 w ∧
        (w.committed.messages.get ⟨5⟩).map ChatMessage.senderId = some ⟨1⟩ ∧
        ∃ e ∈ w.log, e.1 = 2 ∧ e.2.actor = some ⟨1⟩ :=
    World.reaches_of_runSchedule
      (List.replicate 5 (1, 0) ++ List.replicate 10 (2, 1) ++ List.replicate 5 (3, 2))
      (by decide +kernel)
  obtain ⟨w, hw, hstored, ⟨i, x⟩, hx, rfl, hactor⟩ := hrun
  refine ⟨w, hw, hstored, fun h => ?_⟩
  exact absurd (h x hx _ hactor) (by decide)

end Meno
