import Meno.Lib.RowHistory
import Meno.Lib.Tenants
import Meno.Chat.Sender

/-!
# Meno.Chat.Histories

The life of a message. It is sent once, edited while it is not deleted, deleted once, and nothing
comes after that; a reaction never changes. All of this is done by frames that name the message's
sender as theirs, whoever's connection they come from. `exec_living` says what one statement does,
and the runs follow from it.
-/

namespace Meno

open Lib

/-! ## One step -/

inductive MessageStep : Option ChatRow → Option ChatRow → Prop
  | sent {m : ChatMessage} : m.updatedAt = none → m.deletedAt = none →
      MessageStep none (some (.message m))
  | edited {m : ChatMessage} {content : String} {now : OffsetDateTime} : m.deletedAt = none →
      MessageStep (some (.message m))
        (some (.message { m with content, updatedAt := some now }))
  | deleted {m : ChatMessage} {now : OffsetDateTime} : m.deletedAt = none →
      MessageStep (some (.message m))
        (some (.message { m with deletedAt := some now, updatedAt := some now }))

/-- The step that a row of the chat makes; the rows of broadcasts may make any. -/
def ChatKey.Step : ChatKey → Option ChatRow → Option ChatRow → Prop
  | .message _, o, o' => MessageStep o o'
  | .reaction _, o, o' => o = none ∧ ∃ r, o' = some (.reaction r)
  | _, _, _ => True

/-- A write in order makes such a step. -/
def ChatDb.InOrder (db : ChatDb) (w : ChatWrite) : Prop := w.key.Step (db.look w.key) w.value

section Statements

variable {db : ChatDb} {now : OffsetDateTime}

theorem look_sendersMessage {messageId senderId : Uuid} {m : ChatMessage}
    (h : ChatRepository.sendersMessage db messageId senderId = some m) :
    db.look (.message m.id) = some (.message m) ∧ m.deletedAt = none := by
  obtain ⟨hget, hm⟩ := Option.filter_eq_some_iff.1 h
  simp only [Bool.and_eq_true, Option.isNone_iff_eq_none] at hm
  refine ⟨?_, hm.2⟩
  show (db.messages.get m.id).map _ = _
  rw [Table.key_of_get hget, hget]
  rfl

theorem chain_single {w : ChatWrite} (h : db.InOrder w) :
    chatEngine.Chain ChatDb.InOrder db [w] := ⟨h, trivial⟩

theorem exec_living {β : Type} {s : WsStmt β} {b : β} {ws : List ChatWrite}
    (h : chatEngine.exec s now db = .ok (b, ws)) : chatEngine.Chain ChatDb.InOrder db ws := by
  cases s with
  | broadcast s =>
    obtain ⟨⟨b', ws'⟩, -, he⟩ := bind_eq_ok.1 h
    cases he
    refine World.chain_of_forall ?_ db
    intro x hx d
    obtain ⟨y, -, rfl⟩ := List.mem_map.1 hx
    trivial
  | chat s =>
    cases s with
    | createMessage id b s c =>
      simp only [chatEngine, WsStmt.exec, ChatStmt.exec, ChatRepository.createMessage,
        bind_eq_ok] at h
      obtain ⟨_, _, c, _, h⟩ := h
      split at h
      · cases h
      · rename_i hnew
        simp only [pure_ok, bind_eq_ok] at h
        obtain ⟨_, _, _, _, h⟩ := h
        split at h
        · cases h
          refine chain_single ?_
          have hnone : db.look (.message id) = none := by
            show (db.messages.get id).map _ = none
            simpa using hnew
          show MessageStep (db.look (.message id)) _
          rw [hnone]
          exact .sent rfl rfl
        · cases h
    | updateMessage m s c =>
      obtain ⟨_, _, h⟩ := bind_eq_ok.1 h
      split at h
      · cases h
        trivial
      · rename_i found hfound
        obtain ⟨c, _, h⟩ := bind_eq_ok.1 h
        cases h
        obtain ⟨hlook, hlive⟩ := look_sendersMessage hfound
        refine chain_single ?_
        show MessageStep (db.look (.message found.id)) _
        rw [hlook]
        exact .edited hlive
    | softDeleteMessage m s =>
      simp only [chatEngine, WsStmt.exec, ChatStmt.exec, ChatRepository.softDeleteMessage] at h
      split at h
      · cases h
        trivial
      · rename_i found hfound
        cases h
        obtain ⟨hlook, hlive⟩ := look_sendersMessage hfound
        refine chain_single ?_
        show MessageStep (db.look (.message found.id)) _
        rw [hlook]
        exact .deleted hlive
    | createReaction id b s c =>
      simp only [chatEngine, WsStmt.exec, ChatStmt.exec, ChatRepository.createReaction,
        bind_eq_ok] at h
      obtain ⟨_, _, c, _, h⟩ := h
      split at h
      · cases h
      · rename_i hnew
        simp only [pure_ok, bind_eq_ok] at h
        obtain ⟨_, _, _, _, h⟩ := h
        cases h
        refine chain_single ⟨?_, _, rfl⟩
        show (db.reactions.get id).map _ = none
        simpa using hnew
    | sendToUser v p =>
      cases h
      exact chain_single trivial
    | publishToRoom b p =>
      cases h
      exact chain_single trivial
    | findMessageById _ => cases h; trivial
    | isBroadcastParticipant _ _ => cases h; trivial
    | isActiveBroadcast _ => cases h; trivial

end Statements

theorem chat_disciplined :
    World.Disciplined (K := chatKeyed) (fun _ => True) ChatDb.InOrder where
  exec _ he := exec_living he
  row db db' w hsame h := by
    have hlook : db.look w.key = db'.look w.key := hsame
    unfold ChatDb.InOrder at h ⊢
    rw [← hlook]
    exact h

theorem chat_living : Living chatKeyed ChatDb.InOrder ChatKey.Step := fun _ _ h => h

/-! ## What every step keeps -/

/-- The message is the same one, and exactly the same if it was deleted before. -/
structure SameMessage (m m' : ChatMessage) : Prop where
  senderId : m'.senderId = m.senderId
  broadcastId : m'.broadcastId = m.broadcastId
  createdAt : m'.createdAt = m.createdAt
  final : m.deletedAt ≠ none → m' = m

theorem sameMessage_step {m : ChatMessage} {o o' : Option ChatRow}
    (h : ∃ m', o = some (.message m') ∧ SameMessage m m') (hs : MessageStep o o') :
    ∃ m', o' = some (.message m') ∧ SameMessage m m' := by
  obtain ⟨m', rfl, hsame⟩ := h
  have hlive : m'.deletedAt = none → m.deletedAt = none := by
    intro hm'
    by_contra hm
    rw [hsame.final hm] at hm'
    exact hm hm'
  cases hs with
  | edited hm' =>
    refine ⟨_, rfl, hsame.senderId, hsame.broadcastId, hsame.createdAt, fun hm => ?_⟩
    exact absurd (hlive hm') hm
  | deleted hm' =>
    refine ⟨_, rfl, hsame.senderId, hsame.broadcastId, hsame.createdAt, fun hm => ?_⟩
    exact absurd (hlive hm') hm

/-! ## Runs -/

/-- A frame with a request that names the user as its sender, whoever's connection it comes from. -/
def WsOp.Names (c : Codec) (u : Uuid) : WsOp → Prop
  | .frame _ _ _ rawText => requestSender c rawText = some u
  | .broadcast _ => False

/-- The sender of what is written. -/
def ChatWrite.author : ChatWrite → Option Uuid
  | .message m => some m.senderId
  | .reaction r => some r.senderId
  | _ => none

section Runs

variable {ι : Type} [DecidableEq ι] {c : Codec} {ops : ι → WsOp} {db : ChatDb} {t : OffsetDateTime}
  {w : WsWorld ι}

theorem uses_broadcast (op : BroadcastOp) :
    ((WsOp.broadcast op).prog c).Uses (World.AllGood fun s => ∃ s', s = WsStmt.broadcast s') := by
  refine Prog.uses_bind (Prog.uses_lift ?_ _) fun _ => trivial
  intro β cmd
  cases cmd with
  | exec e s => exact ⟨s, rfl⟩
  | begin => trivial
  | commit => trivial

/-- A statement that only tells a user something. -/
def WsStmt.Tells : {β : Type} → WsStmt β → Prop
  | _, .chat (.sendToUser _ _) => True
  | _, _ => False

theorem author_of_tells {β : Type} {s : WsStmt β} (hs : s.Tells) {now : OffsetDateTime}
    {d : ChatDb} {b : β} {ws : List ChatWrite} (he : s.exec now d = .ok (b, ws)) :
    ∀ x ∈ ws, x.author = none := by
  cases s with
  | broadcast s => exact hs.elim
  | chat s =>
    cases s with
    | sendToUser v p =>
      cases he
      exact List.forall_mem_singleton.2 rfl
    | _ => exact hs.elim

theorem tells_decoded {α : Type} {v : Uuid} {req : Except DeError α} {handle : α → WsHandler}
    {sender : α → Uuid} (hsender : req.toOption.map sender = none) :
    (WsHandlers.decoded c v req handle).Uses (World.AllGood WsStmt.Tells) := by
  cases req with
  | error e => exact ⟨trivial, fun _ => trivial⟩
  | ok r => cases hsender

/-- Nothing is written for a frame without a request. -/
theorem tells_handleClientMessage {u id : Uuid} {now : OffsetDateTime} {rawText : String}
    (hsender : requestSender c rawText = none) :
    (WsHandlers.handleClientMessage c u id now rawText).Uses (World.AllGood WsStmt.Tells) := by
  unfold requestSender at hsender
  unfold WsHandlers.handleClientMessage
  cases hmsg : c.fromStr rawText with
  | none => trivial
  | some msg =>
    rw [hmsg] at hsender
    obtain ⟨event, data⟩ := msg
    cases event with
    | sendMessage | editMessage | deleteMessage | sendReaction => exact tells_decoded hsender
    | _ => exact ⟨trivial, fun _ => trivial⟩

theorem author_of_reaches (h : WsReaches c ops db t w) {i : ι} {x : ChatWrite} {u : Uuid}
    (hx : (i, x) ∈ w.log) (hu : x.author = some u) : (ops i).Names c u := by
  cases hop : ops i with
  | frame userId id now rawText =>
    cases hsender : requestSender c rawText with
    | some s =>
      have hacts := actsAs_of_reaches hop h x hx u (by cases x <;> cases hu <;> rfl)
      rw [hsender] at hacts
      exact hsender.trans (congrArg some hacts.symm)
    | none =>
      have htells : Prog.Uses (World.AllGood WsStmt.Tells) ((ops i).prog c) := by
        rw [hop]
        exact Prog.uses_bind (tells_handleClientMessage hsender) fun _ => trivial
      have hnone : x.author = none := by
        refine World.log_of_uses (P := fun x => x.author = none) (i := i) ?_ htells h x hx
        exact fun hs _ _ _ _ he => author_of_tells hs he
      rw [hnone] at hu
      cases hu
  | broadcast op =>
    have hnone : x.author = none := by
      refine World.log_of_uses (P := fun x => x.author = none) ?_ (hop ▸ uses_broadcast op) h x hx
      rintro β s ⟨s', rfl⟩ now d b ws he y hy
      obtain ⟨⟨b', ws'⟩, -, he⟩ := bind_eq_ok.1 he
      cases he
      obtain ⟨z, -, rfl⟩ := List.mem_map.1 hy
      rfl
    rw [hnone] at hu
    cases hu

end Runs

/-- `life`: a message is sent, then edited, then deleted, and a reaction is sent. `current`: the
tables hold what came last. `kept`: so no message goes away or changes its place, and one that is
deleted stays as it is. `authored`: all of it is done by frames that name the sender. -/
structure ChatHistory {ι : Type} [DecidableEq ι] (c : Codec) (ops : ι → WsOp) (db : ChatDb)
    (w : WsWorld ι) : Prop where
  life : ∀ k, List.IsChain k.Step (db.look k :: history chatKeyed (w.log.map Prod.snd) k)
  current : ∀ k, w.committed.look k =
    (history chatKeyed (w.log.map Prod.snd) k).getLast?.getD (db.look k)
  kept : ∀ id m, db.messages.get id = some m →
    ∃ m', w.committed.messages.get id = some m' ∧ SameMessage m m'
  reactions : ∀ id r, db.reactions.get id = some r → w.committed.reactions.get id = some r
  authored : ∀ i x u, (i, x) ∈ w.log → x.author = some u → (ops i).Names c u

theorem chat_history {ι : Type} [DecidableEq ι] (c : Codec) (ops : ι → WsOp) (db : ChatDb)
    (t : OffsetDateTime) (w : WsWorld ι) (h : WsReaches c ops db t w) : ChatHistory c ops db w := by
  have hinv := World.inv_of_reaches chat_disciplined
    (fun i => World.uses_anything ((ops i).prog c)) h
  have hlife : ∀ k : ChatKey,
      List.IsChain k.Step (db.look k :: history chatKeyed (w.log.map Prod.snd) k) :=
    fun k => isChain_history chat_living _ db hinv.lawful
  have hcurrent : ∀ k, w.committed.look k =
      (history chatKeyed (w.log.map Prod.snd) k).getLast?.getD (db.look k) := by
    intro k
    have hlast := look_applyAll_eq (K := chatKeyed) (k := k) (w.log.map Prod.snd) db
    rw [hinv.replay] at hlast
    exact hlast
  refine ⟨hlife, hcurrent, ?_, ?_, fun i x u hx hu => author_of_reaches h hx hu⟩
  · intro id m hm
    have hstart : db.look (.message id) = some (.message m) := by
      show (db.messages.get id).map _ = _
      rw [hm]
      rfl
    have hlast : ∃ m', w.committed.look (.message id) = some (.message m') ∧ SameMessage m m' := by
      rw [hcurrent]
      exact getLast_of_isChain (I := fun o => ∃ m', o = some (.message m') ∧ SameMessage m m')
        (fun _ _ => sameMessage_step) (hlife (.message id))
        ⟨m, hstart, rfl, rfl, rfl, fun _ => rfl⟩
    obtain ⟨m', hm', hsame⟩ := hlast
    obtain ⟨m'', hm'', he⟩ := Option.map_eq_some_iff.1 hm'
    cases he
    exact ⟨m', hm'', hsame⟩
  · intro id r hr
    have hstart : db.look (.reaction id) = some (.reaction r) := by
      show (db.reactions.get id).map _ = _
      rw [hr]
      rfl
    have hlast : w.committed.look (.reaction id) = some (.reaction r) := by
      rw [hcurrent]
      exact getLast_of_isChain (I := fun o => o = some (.reaction r))
        (fun o o' ho hs => by cases ho.symm.trans hs.1) (hlife (.reaction id)) hstart
    obtain ⟨r', hr', he⟩ := Option.map_eq_some_iff.1 hlast
    cases he
    exact hr'

/-- The frame `{"event":"deleteMessage","data":{..}}` in which user 1 takes message 9 back. -/
def deletionFrame : String :=
  "\x7b\"event\":\"deleteMessage\",\"data\":\x7b" ++
    "\"broadcast_id\":\"00000000-0000-0000-0000-000000000009\"," ++
    "\"message_id\":\"00000000-0000-0000-0000-000000000009\"," ++
    "\"sender_id\":\"00000000-0000-0000-0000-000000000001\"\x7d\x7d"

/-- The libraries on that frame. -/
def deletionCodec : Codec :=
  { forgedCodec with
    fromStr := fun text =>
      if text = deletionFrame then
        some ⟨.deleteMessage, .object [
          ("broadcast_id", .string "00000000-0000-0000-0000-000000000009"),
          ("message_id", .string "00000000-0000-0000-0000-000000000009"),
          ("sender_id", .string "00000000-0000-0000-0000-000000000001")]⟩
      else none }

def hello : ChatMessage :=
  { id := ⟨9⟩, content := "hello", senderId := ⟨1⟩, broadcastId := ⟨9⟩, createdAt := 0,
    updatedAt := none, deletedAt := none }

def withHello : ChatDb := (ChatDb.ofTables (.ofUsers twoUsers)).apply (.message hello)

theorem chat_history_deleted : ∃ w : WsWorld (Fin 1),
    (w.committed.messages.get ⟨9⟩).map ChatMessage.deletedAt = some (some 1) ∧
      ChatHistory deletionCodec (fun _ => .frame ⟨1⟩ ⟨5⟩ 1 deletionFrame) withHello w := by
  have hrun : ∃ w : WsWorld (Fin 1),
      WsReaches deletionCodec (fun _ => .frame ⟨1⟩ ⟨5⟩ 1 deletionFrame) withHello 0 w ∧
        (w.committed.messages.get ⟨9⟩).map ChatMessage.deletedAt = some (some 1) :=
    World.reaches_of_runSchedule [(1, 0), (2, 0)] (by decide +kernel)
  obtain ⟨w, hw, hdeleted⟩ := hrun
  exact ⟨w, hdeleted, chat_history _ _ _ _ _ hw⟩

end Meno
