import Meno.Broadcast.Participation
import Meno.Chat.Writers

/-!
# Meno.Chat.OwnRoom

`edit_message` and `delete_message`, which are given the id of a message and the id of a broadcast.
The message is found by its own id alone; the broadcast that is named is the one whose liveness an
edit asks for, whose pages are invalidated and whose room is told. `stays_in_room_iff` says when
that is the message's own broadcast, and live.
-/

namespace Meno

open Lib ChatRepository

/-! ## What a request does outside the tables -/

/-- The cached pages that are invalidated, the room that is told of an event. -/
inductive RoomEffect where
  | invalidated (broadcastId : Uuid)
  | published (broadcastId : Uuid) (payload : WsPayload)

def RoomEffect.broadcastId : RoomEffect → Uuid
  | .invalidated b => b
  | .published b _ => b

structure RoomSession where
  session : Session ChatDb ChatWrite OffsetDateTime
  effects : List RoomEffect

namespace RoomSession

def statement {α : Type} (s : ChatStmt α) (st : RoomSession) : Except DbError α × RoomSession :=
  let (answer, session) := Session.handle chatEngine (.exec .pool (.chat s)) st.session
  (answer, { st with session })

/-- What is published arrives, unless the call fails. -/
def publish (broadcastId : Uuid) (payload : WsPayload) (st : RoomSession) :
    Except DbError Unit × RoomSession :=
  match st.statement (.publishToRoom broadcastId payload) with
  | (.ok (), st) => (.ok (), { st with effects := st.effects ++ [.published broadcastId payload] })
  | (.error e, st) => (.error e, st)

def handle : {β : Type} → WriterCall β → RoomSession → β × RoomSession
  | _, .createMessage id b u content, st => st.statement (.createMessage id b u content)
  | _, .updateMessage m u content, st => st.statement (.updateMessage m u content)
  | _, .findMessageById m, st => st.statement (.findMessageById m)
  | _, .softDeleteMessage m u, st => st.statement (.softDeleteMessage m u)
  | _, .isBroadcastParticipant b u, st => st.statement (.isBroadcastParticipant b u)
  | _, .isActiveBroadcast b, st => st.statement (.isActiveBroadcast b)
  | _, .publishToRoom b payload, st => st.publish b payload
  | _, .invalidateChat b, st => ((), { st with effects := st.effects ++ [.invalidated b] })

end RoomSession

/-! ## The requests -/

/-- `now` is what the service reads from its clock. -/
inductive RoomRequest where
  | edit (now : OffsetDateTime) (req : EditMessageRequest)
  | delete (req : DeleteMessageRequest)

namespace RoomRequest

def messageId : RoomRequest → Uuid
  | edit _ req => req.messageId
  | delete req => req.messageId

def broadcastId : RoomRequest → Uuid
  | edit _ req => req.broadcastId
  | delete req => req.broadcastId

/-- What the request leaves; `time` is the `NOW()` of its statements. -/
def run (r : RoomRequest) (db : ChatDb) (time : OffsetDateTime) (faults : List Bool) :
    RoomSession :=
  let st : RoomSession := { session := Session.start db time faults, effects := [] }
  match r with
  | edit now req => (Act.answer RoomSession.handle (WriterOp.editMessage now req) st).2
  | delete req => (Act.answer RoomSession.handle (WriterOp.deleteMessage req) st).2

/-- Nothing is in the way of the request's write: the calls up to it do not fail, and the message is
there, and one of the sender's. For an edit the broadcast that it names is live, the message can
still be edited, and the new text can be stored. -/
def Accepted (db : ChatDb) (faults : List Bool) : RoomRequest → Prop
  | edit now req =>
    Txn.quiet 3 faults = true ∧ (∃ content, bindText req.content = .ok () ∧
      varchar 256 req.content = .ok content) ∧ isActiveBroadcast db.tables req.broadcastId = true ∧
      ∃ row, findMessageById db req.messageId = some row ∧ req.senderId = row.senderId ∧
        row.canBeEdited now = true
  | delete req =>
    Txn.quiet 1 faults = true ∧ (sendersMessage db req.messageId req.senderId).isSome = true

/-- The broadcast that is named is the message's own, and live. -/
def NamesLive (db : ChatDb) (r : RoomRequest) : Prop :=
  isActiveBroadcast db.tables r.broadcastId = true ∧
    ∀ m ∈ db.messages.get r.messageId, m.broadcastId = r.broadcastId

/-- A message is changed only while its own broadcast is live, and only the pages and the room of
the message's own broadcast hear of the request. -/
structure StaysInRoom (db : ChatDb) (time : OffsetDateTime) (faults : List Bool)
    (r : RoomRequest) : Prop where
  changes : ∀ id, ∀ m ∈ db.messages.get id,
    (r.run db time faults).session.committed.messages.get id ≠ some m →
      isActiveBroadcast db.tables m.broadcastId = true
  effects : ∀ e ∈ (r.run db time faults).effects, ∀ m ∈ db.messages.get r.messageId,
    e.broadcastId = m.broadcastId

end RoomRequest

/-! ## Calls -/

section Calls

variable {st : RoomSession} {α : Type}

namespace RoomSession

/-- What the session is after a call that has written `ws`. -/
def after (st : RoomSession) (ws : List ChatWrite) : RoomSession :=
  { st with session := { st.session.tick with
      committed := chatEngine.applyAll st.session.committed ws } }

theorem statement_eq (s : ChatStmt α) : st.statement s =
    if st.session.faults.headD false then (.error .infrastructure, st.after [])
    else match s.exec st.session.now st.session.committed with
      | .ok (a, ws) => (.ok a, st.after ws)
      | .error e => (.error e, st.after []) := by
  have hexec : chatEngine.exec (.chat s) st.session.now st.session.committed =
      s.exec st.session.now st.session.committed := rfl
  simp only [statement, Session.handle, hexec]
  split
  · rfl
  · cases s.exec st.session.now st.session.committed <;> rfl

/-- A statement. -/
theorem wp_query {c : WriterCall (Except DbError α)} {s : ChatStmt α}
    {Q : Except ChatError α → RoomSession → Prop}
    (hc : handle c st = st.statement s)
    (hfault : st.session.faults.headD false = true →
      Q (.error (.database .infrastructure)) (st.after []))
    (hok : ∀ a ws, st.session.faults.headD false = false →
      s.exec st.session.now st.session.committed = .ok (a, ws) → Q (.ok a) (st.after ws))
    (herror : ∀ e, s.exec st.session.now st.session.committed = .error e →
      Q (.error (.database e)) (st.after [])) :
    Act.wp handle (WriterOp.query c) Q st := by
  rw [WriterOp.query, Act.wp_ask, hc, statement_eq]
  cases hf : st.session.faults.headD false with
  | true => exact hfault hf
  | false =>
    rw [if_neg Bool.false_ne_true]
    cases hs : s.exec st.session.now st.session.committed with
    | error e => exact herror e hs
    | ok r => exact hok r.1 r.2 hf hs

/-- A lookup that only reads. -/
theorem wp_lookup {c : WriterCall (Except DbError α)} {s : ChatStmt α} {a : α}
    {Q : Except ChatError (Except ChatError α) → RoomSession → Prop}
    (hc : handle c st = st.statement s)
    (h : s.exec st.session.now st.session.committed = .ok (a, [])) :
    Act.wp handle (WriterOp.lookup c) Q st ↔
      Q (.ok (if st.session.faults.headD false then .error (.database .infrastructure) else .ok a))
        (st.after []) := by
  rw [WriterOp.lookup, Act.wp_attempt, WriterOp.query, Act.wp_ask, hc, statement_eq, h]
  cases st.session.faults.headD false <;> exact Iff.rfl

/-- The event goes to the room that is named, or nowhere. -/
theorem wp_publishToRoom {b : Uuid} {payload : WsPayload}
    {Q : Except ChatError Unit → RoomSession → Prop}
    (h : ∀ st' : RoomSession, st'.session.committed = st.session.committed →
      (st'.effects = st.effects ∨ st'.effects = st.effects ++ [.published b payload]) →
        Q (.ok ()) st') :
    Act.wp handle (WriterOp.publishToRoom b payload) Q st := by
  have hstatement : st.statement (.publishToRoom b payload) =
      if st.session.faults.headD false then (.error .infrastructure, st.after [])
      else (.ok (), st.after [.published b payload]) := statement_eq _
  rw [WriterOp.publishToRoom, Act.wp_bind, WriterOp.lookup, Act.wp_attempt, WriterOp.query,
    Act.wp_ask]
  simp only [handle, publish, hstatement]
  cases st.session.faults.headD false with
  | true => exact h _ rfl (.inl rfl)
  | false => exact h _ rfl (.inr rfl)

theorem wp_invalidateChat {b : Uuid} {f : Unit → WriterOp α}
    {Q : Except ChatError α → RoomSession → Prop} :
    Act.wp handle (WriterOp.invalidateChat b >>= f) Q st ↔
      Act.wp handle (f ()) Q { st with effects := st.effects ++ [.invalidated b] } := Iff.rfl

end RoomSession

end Calls

/-! ## What a request leaves -/

namespace RoomRequest

/-- A request that is not accepted leaves everything as it is; one that is writes its message, and
invalidates and tells the broadcast that it names. -/
inductive Outcome (db : ChatDb) (faults : List Bool) (r : RoomRequest) (st : RoomSession) : Prop
  | refused (hr : ¬r.Accepted db faults) (hdb : st.session.committed = db)
      (heffects : st.effects = [])
  | accepted {m m' : ChatMessage} (hr : r.Accepted db faults)
      (hm : db.messages.get r.messageId = some m) (hid : m'.id = m.id)
      (hdeleted : m'.deletedAt = none → isActiveBroadcast db.tables r.broadcastId = true)
      (hlive : m.deletedAt = none) (hdb : st.session.committed = db.apply (.message m'))
      (hinvalidated : .invalidated r.broadcastId ∈ st.effects)
      (heffects : ∀ e ∈ st.effects, e.broadcastId = r.broadcastId)

section Outcome

variable {db : ChatDb} {time : OffsetDateTime} {faults : List Bool}

/-- The message is written; then the invalidation, and the event, which may get lost. -/
theorem outcome_of_written {r : RoomRequest} {m : ChatMessage} (m' : ChatMessage)
    {payload : WsPayload} (st : RoomSession) {st' : RoomSession} (hr : r.Accepted db faults)
    (hm : db.messages.get r.messageId = some m) (hid : m'.id = m.id)
    (hdeleted : m'.deletedAt = none → isActiveBroadcast db.tables r.broadcastId = true)
    (hlive : m.deletedAt = none) (hdb : st'.session.committed = db.apply (.message m'))
    (hnone : st.effects = [])
    (heffects : st'.effects = st.effects ++ [.invalidated r.broadcastId] ∨
      st'.effects =
        st.effects ++ [.invalidated r.broadcastId] ++ [.published r.broadcastId payload]) :
    Outcome db faults r st' := by
  rw [hnone] at heffects
  refine .accepted hr hm hid hdeleted hlive hdb ?_ ?_
  · rcases heffects with h | h <;> simp [h]
  · intro e he
    rcases heffects with h | h
    · rw [h] at he
      obtain rfl := List.mem_singleton.1 he
      rfl
    · rw [h] at he
      rcases List.mem_append.1 he with he | he
      · obtain rfl := List.mem_singleton.1 he
        rfl
      · obtain rfl := List.mem_singleton.1 he
        rfl

/-- A message that a lookup finds, joined with its sender. -/
theorem message_of_found {id : Uuid} {row : ChatMessageRow}
    (h : findMessageById db id = some row) :
    ∃ m, db.messages.get id = some m ∧ m.deletedAt = none ∧ m.senderId = row.senderId ∧
      (joinSender db m).isSome = true := by
  obtain ⟨m, hm, hjoin⟩ := Option.bind_eq_some_iff.1 h
  obtain ⟨hget, hlive⟩ := Option.filter_eq_some_iff.1 hm
  refine ⟨m, hget, Option.isNone_iff_eq_none.1 hlive, ?_, by rw [hjoin]; rfl⟩
  obtain ⟨u, -, rfl⟩ := Option.map_eq_some_iff.1 hjoin
  rfl

/-- The update of an edit that has passed the checks. -/
theorem outcome_update {now : OffsetDateTime} {req : EditMessageRequest} {row : ChatMessageRow}
    {st : RoomSession} (hdb : st.session.committed = db) (hnow : st.session.now = time)
    (hnone : st.effects = []) (hfaults : st.session.faults = faults.tail.tail)
    (hquiet : Txn.quiet 2 faults = true)
    (hfind : findMessageById db req.messageId = some row)
    (hlive : isActiveBroadcast db.tables req.broadcastId = true)
    (hsender : req.senderId = row.senderId) (hedit : row.canBeEdited now = true) :
    Act.wp RoomSession.handle (do
      let row ← WriterOp.okOr .notFound
        (← WriterOp.query (.updateMessage req.messageId req.senderId req.content))
      let response := row.response
      WriterOp.invalidateChat req.broadcastId
      WriterOp.publishToRoom req.broadcastId (.editedMessage response)
      return response : WriterOp ChatMessageResponse)
      (fun _ st' => Outcome db faults (edit now req) st') st := by
  obtain ⟨m, hget, hundeleted, hown, hjoin⟩ := message_of_found hfind
  have hmine : sendersMessage db req.messageId req.senderId = some m := by
    rw [sendersMessage, Option.filter_eq_some_iff]
    refine ⟨hget, ?_⟩
    simp [hundeleted, hown, hsender]
  have hthird : faults.tail.tail.headD false = false → Txn.quiet 3 faults = true := by
    intro h
    obtain ⟨h₁, hrest⟩ := Txn.quiet_succ.1 hquiet
    obtain ⟨h₂, -⟩ := Txn.quiet_succ.1 hrest
    exact Txn.quiet_succ.2 ⟨h₁, Txn.quiet_succ.2 ⟨h₂, Txn.quiet_succ.2 ⟨h, rfl⟩⟩⟩
  rw [Act.wp_bind]
  refine RoomSession.wp_query (s := .updateMessage req.messageId req.senderId req.content) rfl
    ?_ ?_ ?_
  · intro hfault
    refine .refused (fun hr => ?_) hdb hnone
    obtain ⟨-, hrest⟩ := Txn.quiet_succ.1 hr.1
    obtain ⟨-, hrest⟩ := Txn.quiet_succ.1 hrest
    rw [hfaults] at hfault
    cases hfault.symm.trans (Txn.quiet_succ.1 hrest).1
  · intro updated ws hfault hexec
    have hexec : updateMessage st.session.committed st.session.now req.messageId req.senderId
        req.content = .ok (updated, ws) := hexec
    rw [hdb, hnow, updateMessage, hmine] at hexec
    simp only [bind_eq_ok, pure_eq_ok] at hexec
    obtain ⟨⟨⟩, htext, content, hvarchar, hwrite⟩ := hexec
    cases hwrite
    obtain ⟨row', hrow'⟩ : ∃ row', joinSender db { m with content, updatedAt := some time } =
        some row' := by
      obtain ⟨row', hrow'⟩ := Option.isSome_iff_exists.1 hjoin
      obtain ⟨u, hu, -⟩ := Option.map_eq_some_iff.1 hrow'
      exact ⟨_, by rw [joinSender, hu]; rfl⟩
    rw [hfaults] at hfault
    have hr : (edit now req).Accepted db faults :=
      ⟨hthird hfault, ⟨content, htext, hvarchar⟩, hlive, row, hfind, hsender, hedit⟩
    simp only [hrow']
    show Act.wp RoomSession.handle (WriterOp.invalidateChat req.broadcastId >>= fun _ =>
      WriterOp.publishToRoom req.broadcastId _ >>= fun _ => pure _) _ _
    rw [RoomSession.wp_invalidateChat, Act.wp_bind]
    refine RoomSession.wp_publishToRoom fun st' hdb' heffects => ?_
    refine outcome_of_written { m with content, updatedAt := some time } st hr hget rfl
      (fun _ => hlive) hundeleted ?_ hnone heffects
    show st'.session.committed = _
    rw [hdb', ← hdb]
    rfl
  · intro e hexec
    have hexec : updateMessage st.session.committed st.session.now req.messageId req.senderId
        req.content = .error e := hexec
    rw [hdb, hnow, updateMessage, hmine] at hexec
    refine .refused (fun hr => ?_) hdb hnone
    obtain ⟨-, ⟨content, htext, hvarchar⟩, -⟩ := hr
    rw [htext, hvarchar] at hexec
    cases hexec

theorem outcome_edit (now : OffsetDateTime) (req : EditMessageRequest) :
    Outcome db faults (edit now req) ((edit now req).run db time faults) := by
  let st : RoomSession := { session := Session.start db time faults, effects := [] }
  suffices h : Act.wp RoomSession.handle (WriterOp.editMessage now req)
      (fun _ st' => Outcome db faults (edit now req) st') st from h
  rw [WriterOp.editMessage, Act.wp_bind, RoomSession.wp_lookup (s := .findMessageById req.messageId)
    rfl rfl]
  simp only
  rw [Act.wp_bind, RoomSession.wp_lookup (s := .isActiveBroadcast req.broadcastId) rfl rfl]
  simp only
  have hrefused : ∀ e : ChatError, ¬(edit now req).Accepted db faults →
      Outcome db faults (edit now req) ((st.after []).after []) := fun _ hr => .refused hr rfl rfl
  cases hf₁ : st.session.faults.headD false with
  | true =>
    refine hrefused (.database .infrastructure) fun hr => ?_
    have hquiet := (Txn.quiet_succ.1 hr.1).1
    cases hf₁.symm.trans hquiet
  | false =>
    rw [if_neg Bool.false_ne_true, Act.ofExcept, pure_bind]
    cases hfind : findMessageById db req.messageId with
    | none =>
      rw [show findMessageById st.session.committed req.messageId = none from hfind]
      refine hrefused .notFound fun hr => ?_
      obtain ⟨row, hrow, -⟩ := hr.2.2.2
      cases hfind.symm.trans hrow
    | some row =>
      rw [show findMessageById st.session.committed req.messageId = some row from hfind]
      have hrow : ∀ row', findMessageById db req.messageId = some row' → row' = row :=
        fun row' h => Option.some.inj (h.symm.trans hfind)
      show Act.wp RoomSession.handle (Act.ofExcept _ >>= _) _ _
      cases hf₂ : (st.after []).session.faults.headD false with
      | true =>
        refine hrefused (.database .infrastructure) fun hr => ?_
        have hquiet := (Txn.quiet_succ.1 (Txn.quiet_succ.1 hr.1).2).1
        cases hf₂.symm.trans hquiet
      | false =>
        rw [if_neg Bool.false_ne_true, Act.ofExcept, pure_bind]
        cases hlive : isActiveBroadcast db.tables req.broadcastId with
        | false =>
          rw [show isActiveBroadcast (st.after []).session.committed.tables req.broadcastId = false
            from hlive]
          refine hrefused .broadcastNotLive fun hr => ?_
          cases hlive.symm.trans hr.2.2.1
        | true =>
          rw [show isActiveBroadcast (st.after []).session.committed.tables req.broadcastId = true
            from hlive]
          show Act.wp RoomSession.handle (WriterOp.refuse .notSender _ >>= _) _ _
          by_cases hsender : req.senderId = row.senderId
          · have hself : (req.senderId != row.senderId) = false := by simp [hsender]
            rw [hself]
            show Act.wp RoomSession.handle (WriterOp.refuse .editWindowExpired _ >>= _) _ _
            cases hedit : row.canBeEdited now with
            | false =>
              refine hrefused .editWindowExpired fun hr => ?_
              obtain ⟨row', hfound, -, hstill⟩ := hr.2.2.2
              rw [hrow row' hfound] at hstill
              cases hedit.symm.trans hstill
            | true =>
              refine outcome_update rfl (show _ = time from rfl) rfl rfl ?_ hfind hlive hsender hedit
              exact Txn.quiet_succ.2 ⟨hf₁, Txn.quiet_succ.2 ⟨hf₂, rfl⟩⟩
          · rw [bne_iff_ne.2 hsender]
            refine hrefused .notSender fun hr => ?_
            obtain ⟨row', hfound, hsame, -⟩ := hr.2.2.2
            exact hsender (hrow row' hfound ▸ hsame)

theorem outcome_delete (req : DeleteMessageRequest) :
    Outcome db faults (delete req) ((delete req).run db time faults) := by
  let st : RoomSession := { session := Session.start db time faults, effects := [] }
  suffices h : Act.wp RoomSession.handle (WriterOp.deleteMessage req)
      (fun _ st' => Outcome db faults (delete req) st') st from h
  rw [WriterOp.deleteMessage, Act.wp_bind]
  refine RoomSession.wp_query (s := .softDeleteMessage req.messageId req.senderId) rfl ?_ ?_ ?_
  · intro hfault
    refine .refused (fun hr => ?_) rfl rfl
    cases hfault.symm.trans (Txn.quiet_succ.1 hr.1).1
  · intro deleted ws hfault hexec
    have hexec : softDeleteMessage db time req.messageId req.senderId = .ok (deleted, ws) := hexec
    unfold softDeleteMessage at hexec
    cases hm : sendersMessage db req.messageId req.senderId with
    | none =>
      rw [hm] at hexec
      cases hexec
      refine .refused (fun hr => ?_) rfl rfl
      have hsome := hr.2
      rw [hm] at hsome
      cases hsome
    | some m =>
      rw [hm] at hexec
      cases hexec
      obtain ⟨hget, hmine⟩ := Option.filter_eq_some_iff.1 hm
      rw [Bool.and_eq_true, Option.isNone_iff_eq_none] at hmine
      have hr : (delete req).Accepted db faults :=
        ⟨Txn.quiet_succ.2 ⟨hfault, rfl⟩, by rw [hm]; rfl⟩
      show Act.wp RoomSession.handle (WriterOp.invalidateChat req.broadcastId >>= fun _ =>
        WriterOp.publishToRoom req.broadcastId _) _ _
      rw [RoomSession.wp_invalidateChat]
      refine RoomSession.wp_publishToRoom fun st' hdb heffects => ?_
      refine outcome_of_written { m with deletedAt := some time, updatedAt := some time }
        { session := Session.start db time faults, effects := [] } hr hget rfl (fun h => ?_) hmine.2
        hdb rfl heffects
      cases h
  · intro e hexec
    have hexec : softDeleteMessage db time req.messageId req.senderId = .error e := hexec
    unfold softDeleteMessage at hexec
    split at hexec <;> cases hexec

end Outcome

/-- The message of an edit or a delete is changed only while its own broadcast is live, and its own
broadcast's pages and room hear of it, just where the request is refused or names the message's
broadcast, and that is live. -/
theorem stays_in_room_iff (db : ChatDb) (time : OffsetDateTime) (faults : List Bool)
    (r : RoomRequest) :
    StaysInRoom db time faults r ↔ (r.Accepted db faults → r.NamesLive db) := by
  have houtcome : Outcome db faults r (r.run db time faults) := by
    cases r with
    | edit now req => exact outcome_edit now req
    | delete req => exact outcome_delete req
  cases houtcome with
  | refused hr hdb heffects =>
    refine ⟨fun _ haccepted => absurd haccepted hr, fun _ => ⟨?_, ?_⟩⟩
    · intro id m hm hchanged
      rw [hdb] at hchanged
      exact absurd hm hchanged
    · rw [heffects]
      simp
  | @accepted m m' hr hm hid hdeleted hlive hdb hinvalidated heffects =>
    have hkey : m'.id = r.messageId := hid.trans (Table.key_of_get hm)
    have hmessages : ∀ id, (r.run db time faults).session.committed.messages.get id =
        if id = r.messageId then some m' else db.messages.get id := by
      intro id
      rw [hdb, ← hkey]
      exact Table.get_put ..
    constructor
    · intro hstays _
      have hown : r.broadcastId = m.broadcastId := hstays.effects _ hinvalidated m hm
      refine ⟨?_, fun m₀ hm₀ => ?_⟩
      · by_cases hkept : m'.deletedAt = none
        · exact hdeleted hkept
        · rw [hown]
          refine hstays.changes r.messageId m hm ?_
          rw [hmessages, if_pos rfl]
          intro hsame
          rw [Option.some.inj hsame] at hkept
          exact hkept hlive
      · cases hm.symm.trans hm₀
        exact hown.symm
    · intro hnames
      obtain ⟨hactive, hown⟩ := hnames hr
      refine ⟨?_, ?_⟩
      · intro id m₀ hm₀ hchanged
        rw [hmessages] at hchanged
        by_cases hmessage : id = r.messageId
        · rw [hmessage] at hm₀
          rw [hown m₀ hm₀]
          exact hactive
        · rw [if_neg hmessage] at hchanged
          exact absurd hm₀ hchanged
      · intro e he m₀ hm₀
        rw [heffects e he, hown m₀ hm₀]

/-- A broadcast of user 1. -/
def broadcastOf (id : Uuid) (status : BroadcastStatus) (endTime : Option OffsetDateTime) :
    Broadcast where
  id := id
  title := "Prayer"
  description := none
  status := status
  creatorId := ⟨1⟩
  timeZone := none
  imageUrl := none
  imageId := none
  broadcastToken := none
  totalParticipants := none
  startTime := some 5
  endTime := endTime
  recordingEnabled := false
  recordingUrl := none
  publishedAt := none
  endReason := .none
  createdAt := 5
  updatedAt := 5
  deletedAt := none

/-- Broadcast 8 has ended, with a message of user 2; broadcast 9 is live. -/
def endedAndLive : ChatDb where
  tables := { BroadcastDb.ofUsers twoUsers with
    broadcasts := (Table.empty.put (broadcastOf ⟨8⟩ .inactive (some 9))).put
      (broadcastOf ⟨9⟩ .active none) }
  messages := Table.empty.put {
    id := ⟨5⟩
    content := "Amen"
    senderId := ⟨2⟩
    broadcastId := ⟨8⟩
    createdAt := 7
    updatedAt := none
    deletedAt := none }
  reactions := .empty

/-- The sender of message 5 edits it under the name of broadcast 9. -/
theorem edited_in_ended_broadcast :
    ¬StaysInRoom endedAndLive 20 [] (edit 20 {
      broadcastId := ⟨9⟩, messageId := ⟨5⟩, senderId := ⟨2⟩, content := "Hallelujah" }) := by
  intro h
  have hended : isActiveBroadcast endedAndLive.tables ⟨8⟩ = true := by
    refine h.changes ⟨5⟩ ⟨⟨5⟩, "Amen", ⟨2⟩, ⟨8⟩, 7, none, none⟩ rfl ?_
    decide +kernel
  revert hended
  decide

end RoomRequest

end Meno
