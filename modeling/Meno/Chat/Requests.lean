import Meno.Chat.CachedPages
import Meno.Chat.Writers
import Meno.Shared.Redis

/-!
# Meno.Chat.Requests

Any number of `get_messages`, `send_message`, `edit_message` and `delete_message`, and the
invalidations that these spawn: the store they share, and their steps. A request has settled at its
end what it owes the cache (`outline_request`).
-/

namespace Meno

open Lib Lib.Text Coalescing Redis

/-! ## Requests -/

inductive ChatRequest where
  | get (req : GetMessagesRequest)
  | send (id : Uuid) (req : SendMessageRequest)
  | edit (now : OffsetDateTime) (req : EditMessageRequest)
  | delete (req : DeleteMessageRequest)

inductive ChatAnswer where
  | page (r : Except GetMessagesError ChatPage)
  | message (r : Except ChatError ChatMessageResponse)
  | deleted (r : Except ChatError Unit)

inductive ChatCall (β : Type) : Type where
  | page (c : PageCall β)
  | write (c : WriterCall β)

namespace ChatRequest

def broadcastId : ChatRequest → Uuid
  | get req => req.query.broadcastId
  | send _ req => req.broadcastId
  | edit _ req => req.broadcastId
  | delete req => req.broadcastId

/-- To the end of the task that fills the cache. An invalidation is a task of its own. -/
def prog : ChatRequest → Prog ChatCall ChatAnswer
  | get req => .page <$> Prog.lift .page (ChatService.getMessages req)
  | send id req => .message <$> Prog.lift .write (ExceptT.run (WriterOp.sendMessage id req))
  | edit now req => .message <$> Prog.lift .write (ExceptT.run (WriterOp.editMessage now req))
  | delete req => .deleted <$> Prog.lift .write (ExceptT.run (WriterOp.deleteMessage req))

end ChatRequest

/-! ## The store -/

structure ChatStore where
  db : ChatDb
  cache : PageCache
  /-- The invalidation that a request has spawned: its broadcast, and its deletion once that has
  begun. -/
  tasks : Nat → Option (Uuid × Option Deletion)
  /-- Ghost: the broadcast whose messages a request has written, until it spawns its task. -/
  owed : Nat → Option Uuid
  /-- Ghost: no message of the broadcast has been written since the request's last fetch. -/
  unchanged : Nat → Uuid → Bool

/-- The pattern of `invalidate_chat`. -/
def chatPattern (broadcastId : Uuid) : String :=
  String.ofList ("chat:".toList ++ broadcastId.text.toList ++ ":msgs:*".toList)

namespace ChatStore

/-- What is under the keys has changed, and every deletion that is under way sees it. -/
def recached (st : ChatStore) (cache : PageCache) : ChatStore :=
  { st with
    cache
    tasks := fun i => (st.tasks i).map fun task =>
      (task.1, task.2.map (Sweep.watch · (Deletion.Present cache.entries cache.now))) }

def write (st : ChatStore) : ChatWrite → ChatStore
  | .message m =>
    { st with
      db := st.db.apply (.message m)
      unchanged := fun i b => st.unchanged i b && b != m.broadcastId }
  | w => { st with db := st.db.apply w }

/-- A statement on the pool, which may fail. One that fails has done nothing: there is none here that
is committed and whose answer is lost. -/
def Ran {α : Type} (s : ChatStmt α) (st : ChatStore) (r : Except DbError α) (st' : ChatStore) :
    Prop :=
  match r with
  | .ok a => ∃ now ws, s.exec now st.db = .ok (a, ws) ∧ st' = ws.foldl write st
  | .error _ => st' = st

end ChatStore

namespace WriterCall

variable (i : Nat)

def Performs : {β : Type} → WriterCall β → ChatStore → β → ChatStore → Prop
  | _, .createMessage id b u content, st, r, st' =>
    ChatStore.Ran (.createMessage id b u content) st r st'
  | _, .updateMessage m u content, st, r, st' =>
    ChatStore.Ran (.updateMessage m u content) st r st'
  | _, .findMessageById m, st, r, st' => ChatStore.Ran (.findMessageById m) st r st'
  | _, .softDeleteMessage m u, st, r, st' => ChatStore.Ran (.softDeleteMessage m u) st r st'
  | _, .isBroadcastParticipant b u, st, r, st' =>
    ChatStore.Ran (.isBroadcastParticipant b u) st r st'
  | _, .isActiveBroadcast b, st, r, st' => ChatStore.Ran (.isActiveBroadcast b) st r st'
  | _, .publishToRoom b payload, st, r, st' => ChatStore.Ran (.publishToRoom b payload) st r st'
  | _, .invalidateChat b, st, _, st' =>
    st' = { st with tasks := Function.update st.tasks i (some (b, none)) }

/-- Whose messages a request has written, as its answers say, and not yet invalidated. -/
def owedAfter (broadcastId : Uuid) : {β : Type} → WriterCall β → β → Option Uuid → Option Uuid
  | _, .createMessage _ _ _ _, .ok _, _ => some broadcastId
  | _, .updateMessage _ _ _, .ok (some _), _ => some broadcastId
  | _, .softDeleteMessage _ _, .ok true, _ => some broadcastId
  | _, .invalidateChat _, _, _ => none
  | _, _, _, owed => owed

end WriterCall

/-- The ghost of a fetch. -/
def PageCall.unchangedAfter {β : Type} (c : PageCall β) (unchanged : Uuid → Bool) : Uuid → Bool :=
  match c with
  | .lookup _ => unchanged
  | .cache _ _ c => if c.fetches then fun _ => true else unchanged

/-- A call of request `i`. -/
def ChatCall.Answers (t : CursorText) (requests : Nat → ChatRequest) (i : Nat) {β : Type}
    (c : ChatCall β) (st : ChatStore) (r : β) (st' : ChatStore) : Prop :=
  match c with
  | .page c => ∃ cache, c.Answers t st.db st.cache r cache ∧ st' = { st.recached cache with
      unchanged := Function.update st.unchanged i (c.unchangedAfter (st.unchanged i)) }
  | .write c => ∃ st₁, c.Performs i st r st₁ ∧ st' = { st₁ with
      owed := Function.update st.owed i
        (c.owedAfter (requests i).broadcastId r (st.owed i)) }

/-- Time passes, keys are evicted, and the invalidations go on. -/
inductive ChatStore.Background : ChatStore → ChatStore → Prop
  | cache {st : ChatStore} {cache : PageCache} (hs : CacheState.Background st.cache cache) :
      Background st (st.recached cache)
  | begin {st : ChatStore} {i : Nat} {b : Uuid} (htask : st.tasks i = some (b, none)) (rest : Nat) :
      Background st
        { st with
          tasks := Function.update st.tasks i (some (b, some
            (Deletion.start (chatPattern b) st.cache.entries st.cache.now rest))) }
  | own {st : ChatStore} {i : Nat} {b : Uuid} {sw sw' : Deletion} {removed : List String}
      (htask : st.tasks i = some (b, some sw))
      (hown : Deletion.Own (chatPattern b) sw removed sw') :
      Background st (ChatStore.recached
        { st with tasks := Function.update st.tasks i (some (b, some sw')) }
        { st.cache with entries := st.cache.entries.remove removed })
  -- A deletion that has failed is only logged.
  | finish {st : ChatStore} {i : Nat} {b : Uuid} {sw : Deletion}
      (htask : st.tasks i = some (b, some sw)) (hover : ¬ sw.Running) :
      Background st { st with tasks := Function.update st.tasks i none }

/-- Any number of requests before they begin, with nothing in the cache. -/
def chatRequests (requests : Nat → ChatRequest) (db : ChatDb) (now : Nat) :
    Pool ChatStore ChatCall ChatAnswer Nat where
  store := {
    db
    cache := .empty String ChatPage now
    tasks := fun _ => none
    owed := fun _ => none
    unchanged := fun _ _ => false }
  prog i := (requests i).prog

abbrev ChatSteps (t : CursorText) (requests : Nat → ChatRequest) :
    Pool ChatStore ChatCall ChatAnswer Nat → Pool ChatStore ChatCall ChatAnswer Nat → Prop :=
  Pool.Steps (ChatCall.Answers t requests) ChatStore.Background

/-! ## Careful runs -/

namespace ChatStore

/-- An invalidation of the broadcast has still to begin. -/
def Awaited (st : ChatStore) (b : Uuid) : Prop :=
  (∃ i, st.owed i = some b) ∨ ∃ i, st.tasks i = some (b, none)

def NoneFailed (st : ChatStore) : Prop :=
  ∀ i b sw, st.tasks i = some (b, some sw) → sw.phase ≠ .failed

/-- The message, if it is there, is one of the broadcast. -/
def Names (st : ChatStore) (messageId broadcastId : Uuid) : Prop :=
  ∀ m ∈ st.db.messages.get messageId, m.broadcastId = broadcastId

end ChatStore

def WriterCall.NamesOwn (broadcastId : Uuid) : {β : Type} → WriterCall β → ChatStore → Prop
  | _, .updateMessage m _ _, st => st.Names m broadcastId
  | _, .softDeleteMessage m _, st => st.Names m broadcastId
  | _, _, _ => True

/-- A page is cached as long as no message of its broadcast has been written since it was read, or
an invalidation has still to begin; and an edit or a delete names the broadcast of its message. -/
def ChatCall.Careful (requests : Nat → ChatRequest) (i : Nat) {β : Type} (c : ChatCall β)
    (st : ChatStore) : Prop :=
  match c with
  | .page (.lookup _) => True
  | .page (.cache _ query c) =>
    c.sets = true → st.unchanged i query.broadcastId = true ∨ st.Awaited query.broadcastId
  | .write c => c.NamesOwn (requests i).broadcastId st

abbrev CarefulSteps (t : CursorText) (requests : Nat → ChatRequest) :
    Pool ChatStore ChatCall ChatAnswer Nat → Pool ChatStore ChatCall ChatAnswer Nat → Prop :=
  Pool.Steps
    (fun i _ c st r st' => c.Answers t requests i st r st' ∧ c.Careful requests i st)
    fun st st' => ChatStore.Background st st' ∧ st.NoneFailed

/-- Every request has come to its end, or is a `get_messages` that has not begun; and no
invalidation is left. -/
def Finished (requests : Nat → ChatRequest) (p : Pool ChatStore ChatCall ChatAnswer Nat) : Prop :=
  (∀ i, (∃ r, p.prog i = .ret r) ∨
    ∃ req, requests i = .get req ∧ p.prog i = (requests i).prog) ∧
    ∀ i, p.store.tasks i = none

/-! ## What a request has done -/

/-- What a request has seen, and whose messages it has written and not yet invalidated. -/
structure ChatView where
  reader : ReaderView
  owed : Option Uuid

namespace ChatView

def nothing : ChatView := { reader := .nothing, owed := none }

def after (broadcastId : Uuid) {β : Type} (c : ChatCall β) (r : β) (g : ChatView) : ChatView :=
  match c with
  | .page c => { g with reader := g.reader.after c r }
  | .write c => { g with owed := c.owedAfter broadcastId r g.owed }

end ChatView

/-- A message is written before anything is owed, and the invalidation is of what is owed. -/
def WriterCall.Before (broadcastId : Uuid) : {β : Type} → WriterCall β → Option Uuid → Prop
  | _, .createMessage _ b _ _, owed => b = broadcastId ∧ owed = none
  | _, .updateMessage _ _ _, owed => owed = none
  | _, .softDeleteMessage _ _, owed => owed = none
  | _, .invalidateChat b, owed => b = broadcastId ∧ owed = some broadcastId
  | _, _, _ => True

namespace ChatRequest

def Before (req : ChatRequest) {β : Type} (c : ChatCall β) (g : ChatView) : Prop :=
  match c with
  | .page c => ∃ reader, req = .get reader ∧ reader.Before c g.reader
  | .write c => (∀ reader, req ≠ .get reader) ∧ c.Before req.broadcastId g.owed

end ChatRequest

section Outline

variable {b : Uuid} {α β : Type}

abbrev OwedOutline (b : Uuid) (x : WriterOp α) (Q : Except ChatError α → Option Uuid → Prop)
    (owed : Option Uuid) : Prop :=
  Act.Outline (WriterCall.Before b) (WriterCall.owedAfter b) x Q owed

/-- A call that writes nothing and invalidates nothing. -/
def WriterCall.Reads {β : Type} (c : WriterCall β) : Prop :=
  ∀ b owed, c.Before b owed ∧ ∀ r, c.owedAfter b r owed = owed

namespace WriterOp

theorem reads_uses {x : WriterOp α} {f : α → WriterOp β} {owed : Option Uuid}
    {Q : Except ChatError β → Option Uuid → Prop} (hx : Act.Uses WriterCall.Reads x)
    (hf : ∀ a, OwedOutline b (f a) Q owed) (herror : ∀ e, Q (.error e) owed) :
    OwedOutline b (x >>= f) Q owed := by
  refine Act.outline_bind (Act.outline_of_neutral (fun c g hc => (hc b g).1)
    (fun c r g hc => (hc b g).2 r) hx fun r => ?_)
  cases r with
  | ok a => exact hf a
  | error e => exact herror e

theorem uses_lookup {c : WriterCall (Except DbError α)} (hc : c.Reads) :
    Act.Uses WriterCall.Reads (lookup c) :=
  Act.uses_attempt (Act.uses_ask hc)

theorem uses_refuse (error : ChatError) (cond : Bool) :
    Act.Uses WriterCall.Reads (refuse error cond) := by
  cases cond <;> trivial

theorem uses_okOr (error : ChatError) (o : Option α) :
    Act.Uses WriterCall.Reads (okOr error o) := by
  cases o <;> trivial

theorem uses_publishToRoom (broadcastId : Uuid) (payload : WsPayload) :
    Act.Uses WriterCall.Reads (publishToRoom broadcastId payload) := by
  have hreads : (WriterCall.publishToRoom broadcastId payload).Reads :=
    fun _ _ => ⟨trivial, fun _ => rfl⟩
  exact Act.uses_bind (uses_lookup hreads) fun _ => trivial

/-- Nothing is owed at the end. -/
abbrev Settles (b : Uuid) (x : WriterOp α) (owed : Option Uuid) : Prop :=
  OwedOutline b x (fun _ owed => owed = none) owed

/-- What is owed is invalidated. -/
theorem settles_invalidate {x : WriterOp α} (hx : Act.Uses WriterCall.Reads x) :
    Settles b (invalidateChat b >>= fun _ => x) (some b) := by
  refine Act.outline_bind ⟨⟨rfl, rfl⟩, fun _ => ?_⟩
  change Settles b x none
  exact Act.outline_of_neutral (fun c g hc => (hc b g).1) (fun c r g hc => (hc b g).2 r) hx
    fun _ => rfl

theorem settles_sendMessage (id : Uuid) (req : SendMessageRequest) :
    Settles req.broadcastId (sendMessage id req) none := by
  refine reads_uses (uses_lookup fun _ _ => ⟨trivial, fun _ => rfl⟩) (fun isActive => ?_)
    fun _ => rfl
  refine reads_uses (uses_lookup fun _ _ => ⟨trivial, fun _ => rfl⟩) (fun isParticipant => ?_)
    fun _ => rfl
  refine reads_uses (Act.uses_ofExcept _) (fun _ => ?_) fun _ => rfl
  refine reads_uses (Act.uses_ofExcept _) (fun _ => ?_) fun _ => rfl
  refine reads_uses (uses_refuse _ _) (fun _ => ?_) fun _ => rfl
  refine reads_uses (uses_refuse _ _) (fun _ => ?_) fun _ => rfl
  refine Act.outline_bind (Act.outline_ask ⟨rfl, rfl⟩ (fun row => ?_) fun _ => rfl)
  exact settles_invalidate (Act.uses_bind (uses_publishToRoom _ _) fun _ => trivial)

theorem settles_editMessage (now : OffsetDateTime) (req : EditMessageRequest) :
    Settles req.broadcastId (editMessage now req) none := by
  refine reads_uses (uses_lookup fun _ _ => ⟨trivial, fun _ => rfl⟩) (fun message => ?_)
    fun _ => rfl
  refine reads_uses (uses_lookup fun _ _ => ⟨trivial, fun _ => rfl⟩) (fun isActive => ?_)
    fun _ => rfl
  refine reads_uses (Act.uses_ofExcept _) (fun _ => ?_) fun _ => rfl
  refine reads_uses (uses_okOr _ _) (fun _ => ?_) fun _ => rfl
  refine reads_uses (Act.uses_ofExcept _) (fun _ => ?_) fun _ => rfl
  refine reads_uses (uses_refuse _ _) (fun _ => ?_) fun _ => rfl
  refine reads_uses (uses_refuse _ _) (fun _ => ?_) fun _ => rfl
  refine reads_uses (uses_refuse _ _) (fun _ => ?_) fun _ => rfl
  refine Act.outline_bind (Act.outline_ask rfl (fun row => ?_) fun _ => rfl)
  cases row with
  | none => exact rfl
  | some row => exact settles_invalidate (Act.uses_bind (uses_publishToRoom _ _) fun _ => trivial)

theorem settles_deleteMessage (req : DeleteMessageRequest) :
    Settles req.broadcastId (deleteMessage req) none := by
  refine Act.outline_bind (Act.outline_ask rfl (fun deleted => ?_) fun _ => rfl)
  cases deleted with
  | false => exact rfl
  | true => exact settles_invalidate (uses_publishToRoom _ _)

end WriterOp

/-- The operation as a request. -/
theorem outline_write {req : ChatRequest} (hreq : ∀ reader, req ≠ .get reader) {x : WriterOp α}
    {f : Except ChatError α → ChatAnswer} (hx : WriterOp.Settles req.broadcastId x none) :
    (f <$> Prog.lift ChatCall.write x.run).guarded req.Before (ChatView.after req.broadcastId)
      (fun _ g => g.owed = none) .nothing := by
  rw [map_eq_pure_bind]
  refine Prog.guarded_bind (Prog.guarded_mono (fun r g h => h.2) (Prog.guarded_lift
    (Prog.guarded_map (P := fun _ => True) (f := ChatView.owed) ?_ ?_ trivial hx)))
  · exact fun c g _ hbefore => ⟨hreq, hbefore⟩
  · exact fun c r g _ => ⟨trivial, rfl⟩

theorem outline_read (reader : GetMessagesRequest) :
    (ChatAnswer.page <$> Prog.lift ChatCall.page (ChatService.getMessages reader)).guarded
      (ChatRequest.get reader).Before (ChatView.after reader.query.broadcastId)
      (fun _ g => g.owed = none) .nothing := by
  rw [map_eq_pure_bind]
  refine Prog.guarded_bind (Prog.guarded_mono (fun r g h => h.1) (Prog.guarded_lift
    (Prog.guarded_map (P := fun g : ChatView => g.owed = none) (f := ChatView.reader) ?_ ?_ rfl
      reader.outline_getMessages)))
  · exact fun c g _ hbefore => ⟨reader, rfl, hbefore⟩
  · exact fun c r g hg => ⟨hg, rfl⟩

/-- Every request has settled at its end what it owes. -/
theorem outline_request (req : ChatRequest) :
    req.prog.guarded req.Before (ChatView.after req.broadcastId) (fun _ g => g.owed = none)
      .nothing := by
  cases req with
  | get reader => exact outline_read reader
  | send id req => exact outline_write (by rintro _ ⟨⟩) (WriterOp.settles_sendMessage id req)
  | edit now req => exact outline_write (by rintro _ ⟨⟩) (WriterOp.settles_editMessage now req)
  | delete req => exact outline_write (by rintro _ ⟨⟩) (WriterOp.settles_deleteMessage req)

end Outline

end Meno
