import Meno.Chat.Invalidation

/-!
# Meno.Chat.FreshPages

The requests that come when all writers and invalidations have finished. A page that was read before
a write may be cached after the invalidation for it has run, and is then shown to them
(`deleted_message_shown`); `fresh_after_writes` is about the runs in which none is, every edit and
delete names the broadcast of its message, and no invalidation fails.
-/

namespace Meno

open Lib Lib.Text Coalescing Redis

/-! ## Later requests -/

section Later

variable {t : CursorText} {db : ChatDb} {requests : Nat → ChatRequest} {st st' : ChatStore}
  {g : Nat → ReaderView} {i : Nat} {β : Type} {c : ChatCall β} {r : β}

namespace ChatRequest

/-- What a request asks for, when it is one of `get_messages`. -/
def reader : ChatRequest → GetMessagesRequest
  | get reader => reader
  | send _ { broadcastId, .. } | edit _ { broadcastId, .. } | delete { broadcastId, .. } => {
    userId := ⟨0⟩
    query := { broadcastId, pagination := { cursor := none, limit := none } } }

/-- A request that only reads. -/
def Reads (req : ChatRequest) {β : Type} (c : ChatCall β) (g : ReaderView) : Prop :=
  match c with
  | .page c => req.reader.Before c g
  | .write _ => False

theorem prog_ne_ret (req : ChatRequest) (r : ChatAnswer) : req.prog ≠ .ret r := by
  cases req with
  | get reader => intro h; cases h
  | send id req => intro h; cases h
  | edit now req => intro h; cases h
  | delete req => intro h; cases h

end ChatRequest

def ReaderView.read {β : Type} (c : ChatCall β) (r : β) (g : ReaderView) : ReaderView :=
  match c with
  | .page c => g.after c r
  | .write _ => g

theorem outline_reader (reader : GetMessagesRequest) :
    (ChatRequest.get reader).prog.guarded (ChatRequest.get reader).Reads ReaderView.read
      (fun r g => ∃ a, r = .page a ∧ GetMessagesRequest.Answered a g) .nothing := by
  rw [ChatRequest.prog, map_eq_pure_bind]
  exact Prog.guarded_bind (Prog.guarded_mono (fun a g h => ⟨a, rfl, h⟩)
    (Prog.guarded_lift reader.outline_getMessages))

variable (t db requests) in
/-- The tables stay as they are, and every page in the cache is as they have it. -/
structure LaterInv (st : ChatStore) (g : Nat → ReaderView) : Prop where
  tables : st.db = db
  tasks : ∀ i, st.tasks i = none
  warm : WarmInv t db (fun i => (requests i).reader) st.cache g

theorem tasks_recached (h : ∀ i, st.tasks i = none) (cache : PageCache) (i : Nat) :
    (st.recached cache).tasks i = none := by
  simp [ChatStore.recached, h]

theorem LaterInv.call (h : LaterInv t db requests st g) (hpre : (requests i).Reads c (g i))
    (hs : c.Answers t requests i st r st') :
    LaterInv t db requests st' (Function.update g i (ReaderView.read c r (g i))) := by
  cases c with
  | page c =>
    obtain ⟨cache, hanswers, rfl⟩ := hs
    rw [h.tables] at hanswers
    exact ⟨h.tables, tasks_recached h.tasks cache, h.warm.call hpre hanswers⟩
  | write c => exact absurd hpre id

theorem LaterInv.background (h : LaterInv t db requests st g)
    (hs : ChatStore.Background st st') : LaterInv t db requests st' g := by
  cases hs with
  | @cache cache hs => exact ⟨h.tables, tasks_recached h.tasks cache, h.warm.background hs⟩
  | begin htask rest =>
    rw [h.tasks] at htask
    cases htask
  | own htask hown =>
    rw [h.tasks] at htask
    cases htask
  | finish htask hover =>
    rw [h.tasks] at htask
    cases htask

/-- The runs that go on when all writers have finished. -/
theorem later_of_steps {p p' : Pool ChatStore ChatCall ChatAnswer Nat}
    (h : ChatSteps t requests p p') (hfinished : Finished requests p)
    (hpages : ∀ key e, p.store.cache.entries key = some e →
      Expiring.Alive e p.store.cache.now → PageOf t p.store.db key e.value) :
    p'.Outlined (fun i => (requests i).Reads) (fun _ => ReaderView.read)
      (fun i r g => p.prog i = (requests i).prog →
        ∃ a, r = .page a ∧ GetMessagesRequest.Answered a g)
      (LaterInv t p.store.db requests) := by
  obtain ⟨hended, htasks⟩ := hfinished
  refine Pool.outlined_of_steps (fun _ _ _ _ _ _ _ hpre hexec hinv => hinv.call hpre hexec)
    (fun _ _ _ hs hinv => hinv.background hs) h
    ⟨fun _ => .nothing, ⟨rfl, htasks, hpages, fun i => right_nothing _⟩, fun i => ?_⟩
  rcases hended i with ⟨r, hret⟩ | ⟨req, hreq, hprog⟩
  · rw [hret]
    exact fun hprog => absurd (hprog.symm.trans hret) ((requests i).prog_ne_ret r)
  · have hreads := outline_reader req
    rw [← hreq] at hreads
    rw [hprog]
    exact Prog.guarded_mono (fun r g ha _ => ha) hreads

/-- What a request is answered with is a page that the tables have. -/
theorem page_of_answered {req : GetMessagesRequest} {g : ReaderView} {page : ChatPage}
    (h : GetMessagesRequest.Answered (.ok page) g) (hright : g.Right t db req) :
    PageOf t db (ChatService.cacheKey req.query) page := by
  rcases h with ⟨-, ⟨page, hfound, ⟨⟩⟩ | hfetched⟩ | ⟨-, ⟨⟩⟩
  · exact hright.found page hfound
  · exact ⟨req.query, rfl, (hright.fetched _ hfetched).symm⟩

end Later

/-- Once all requests and invalidations have finished, after a run in which every page was cached
as `ChatCall.Careful` has it and no invalidation failed, the tables stay as they are, and every
later `get_messages` is answered with a page that they have. -/
theorem fresh_after_writes (t : CursorText) (requests : Nat → ChatRequest) (db : ChatDb) (now : Nat)
    {p p' : Pool ChatStore ChatCall ChatAnswer Nat}
    (h : CarefulSteps t requests (chatRequests requests db now) p)
    (hfinished : Finished requests p) (h' : ChatSteps t requests p p') :
    p'.store.db = p.store.db ∧
      ∀ i req page, requests i = .get req → p.prog i = (requests i).prog →
        p'.prog i = .ret (.page (.ok page)) →
        PageOf t p.store.db (ChatService.cacheKey req.query) page := by
  obtain ⟨g, hinv, hanswered⟩ := (later_of_steps h' hfinished
    fun key e he halive => fresh_of_finished h hfinished he halive).returned
  refine ⟨hinv.tables, fun i req page hreq hprog hret => ?_⟩
  obtain ⟨a, ha, hanswer⟩ := hanswered i _ hret hprog
  cases ha
  have hright := hinv.warm.right i
  rw [hreq] at hright
  exact page_of_answered hanswer hright

/-! ### Runs -/

section Up

variable (t : CursorText) (requests : Nat → ChatRequest) (now : OffsetDateTime)

namespace ChatStore

def runUp {α : Type} (s : ChatStmt α) (st : ChatStore) : Except DbError α × ChatStore :=
  match s.exec now st.db with
  | .ok (a, ws) => (.ok a, ws.foldl write st)
  | .error e => (.error e, st)

theorem ran_runUp {α : Type} (s : ChatStmt α) (st : ChatStore) :
    Ran s st (st.runUp now s).1 (st.runUp now s).2 := by
  unfold runUp
  split
  · rename_i a ws hexec
    exact ⟨now, ws, hexec, rfl⟩
  · rfl

end ChatStore

namespace WriterCall

def performUp (i : Nat) : {β : Type} → WriterCall β → ChatStore → β × ChatStore
  | _, .createMessage id b u content, st => st.runUp now (.createMessage id b u content)
  | _, .updateMessage m u content, st => st.runUp now (.updateMessage m u content)
  | _, .findMessageById m, st => st.runUp now (.findMessageById m)
  | _, .softDeleteMessage m u, st => st.runUp now (.softDeleteMessage m u)
  | _, .isBroadcastParticipant b u, st => st.runUp now (.isBroadcastParticipant b u)
  | _, .isActiveBroadcast b, st => st.runUp now (.isActiveBroadcast b)
  | _, .publishToRoom b payload, st => st.runUp now (.publishToRoom b payload)
  | _, .invalidateChat b, st =>
    ((), { st with tasks := Function.update st.tasks i (some (b, none)) })

theorem performs_performUp (i : Nat) {β : Type} (c : WriterCall β) (st : ChatStore) :
    c.Performs i st (c.performUp now i st).1 (c.performUp now i st).2 := by
  cases c with
  | createMessage id b u content => exact st.ran_runUp now (.createMessage id b u content)
  | updateMessage m u content => exact st.ran_runUp now (.updateMessage m u content)
  | findMessageById m => exact st.ran_runUp now (.findMessageById m)
  | softDeleteMessage m u => exact st.ran_runUp now (.softDeleteMessage m u)
  | isBroadcastParticipant b u => exact st.ran_runUp now (.isBroadcastParticipant b u)
  | isActiveBroadcast b => exact st.ran_runUp now (.isActiveBroadcast b)
  | publishToRoom b payload => exact st.ran_runUp now (.publishToRoom b payload)
  | invalidateChat b => rfl

end WriterCall

namespace ChatCall

/-- The database and Redis are up, it is `now` for the database, and no broadcast is live. -/
def answerUp (i : Nat) {β : Type} (c : ChatCall β) (st : ChatStore) : β × ChatStore :=
  match c with
  | .page c =>
    let a := c.answerUp t st.db st.cache
    (a.1, { st.recached a.2 with
      unchanged := Function.update st.unchanged i (c.unchangedAfter (st.unchanged i)) })
  | .write c =>
    let a := c.performUp now i st
    (a.1, { a.2 with
      owed := Function.update st.owed i (c.owedAfter (requests i).broadcastId a.1 (st.owed i)) })

theorem answers_answerUp (i : Nat) {β : Type} (c : ChatCall β) (st : ChatStore) :
    c.Answers t requests i st (c.answerUp t requests now i st).1
      (c.answerUp t requests now i st).2 := by
  cases c with
  | page c => exact ⟨_, PageCall.answers_answerUp t st.db c st.cache, rfl⟩
  | write c => exact ⟨_, c.performs_performUp now i st, rfl⟩

end ChatCall

end Up

/-- No task but one has anything to do. -/
theorem noneFailed_of_others {st : ChatStore} {i : Nat} (task : Option (Uuid × Option Deletion))
    (htasks : st.tasks = Function.update (fun _ => none) i task)
    (htask : ∀ b sw, task = some (b, some sw) → sw.phase ≠ .failed) : st.NoneFailed := by
  intro j b sw hj
  rw [htasks] at hj
  by_cases hji : j = i
  · subst hji
    rw [Function.update_self] at hj
    exact htask b sw hj
  · rw [Function.update_of_ne hji] at hj
    cases hj

/-- An invalidation that finds nothing to delete. -/
theorem background_invalidate {st : ChatStore} {i : Nat} {b : Uuid}
    (htasks : st.tasks = Function.update (fun _ => none) i (some (b, none)))
    (hempty : st.cache.entries = .empty) :
    Relation.ReflTransGen (fun st st' => ChatStore.Background st st' ∧ st.NoneFailed) st
      { st with tasks := fun _ => none } := by
  let sw := Deletion.start (chatPattern b) st.cache.entries st.cache.now 0
  have hnothing : ∀ key, ¬ sw.there key := by
    rintro key ⟨-, hpresent⟩
    rw [hempty] at hpresent
    cases hpresent
  have hown : Deletion.Own (chatPattern b) sw [] (sw.paged "0" [] "0") :=
    .page rfl (by rintro k ⟨⟩) (fun _ k hk => absurd hk (hnothing k)) fun h => absurd rfl h
  let swept := (sw.paged "0" [] "0").watch
    (Deletion.Present (st.cache.entries.remove []) st.cache.now)
  let st₁ := { st with tasks := Function.update st.tasks i (some (b, some sw)) }
  let st₂ := ChatStore.recached
    { st₁ with tasks := Function.update st₁.tasks i (some (b, some (sw.paged "0" [] "0"))) }
    { st.cache with entries := st.cache.entries.remove [] }
  have htasks₁ : st₁.tasks = Function.update (fun _ => none) i (some (b, some sw)) :=
    (congrArg (Function.update · i _) htasks).trans (Function.update_idem _ _ _)
  have htasks₂ : st₂.tasks = Function.update (fun _ => none) i (some (b, some swept)) := by
    funext j
    by_cases hj : j = i
    · subst hj
      simp [st₂, ChatStore.recached, swept]
    · simp [st₂, st₁, ChatStore.recached, htasks, Function.update_of_ne hj]
  have hend : { st₂ with tasks := Function.update st₂.tasks i none } =
      { st with tasks := fun _ => none } := by
    rw [htasks₂, Function.update_idem, Function.update_eq_self]
    simp [st₂, st₁, ChatStore.recached, Expiring.remove_nil]
  have hbegin : ChatStore.Background st st₁ := .begin (by rw [htasks, Function.update_self]) 0
  have hpage : ChatStore.Background st₁ st₂ := .own (Function.update_self _ _ _) hown
  have hfinish : ChatStore.Background st₂ { st₂ with tasks := Function.update st₂.tasks i none } :=
    .finish (by rw [htasks₂, Function.update_self]) id
  rw [← hend]
  exact .head ⟨hbegin, noneFailed_of_others _ htasks (by rintro b sw ⟨⟩)⟩
    (.head ⟨hpage, noneFailed_of_others _ htasks₁ (by rintro b sw ⟨⟩ ⟨⟩)⟩
      (.single ⟨hfinish, noneFailed_of_others _ htasks₂ (by rintro b sw ⟨⟩ ⟨⟩)⟩))

/-- What the page in an answer shows. -/
def ChatAnswer.shown : ChatAnswer → Option Nat
  | .page (.ok shown) => some shown.data.length
  | _ => none

theorem page_of_shown {a : ChatAnswer} {n : Nat} (h : a.shown = some n) :
    ∃ page, a = .page (.ok page) ∧ page.data.length = n := by
  unfold ChatAnswer.shown at h
  split at h
  · cases h
    exact ⟨_, rfl, rfl⟩
  · cases h

/-- The participant has said one thing. -/
def oneMessage : ChatDb :=
  quietChat.apply (.message {
    id := ⟨5⟩
    content := "Amen"
    senderId := ⟨2⟩
    broadcastId := ⟨8⟩
    createdAt := 7
    updatedAt := none
    deletedAt := none })

def firstPage : GetMessagesRequest where
  userId := ⟨2⟩
  query := { broadcastId := ⟨8⟩, pagination := { cursor := none, limit := none } }

/-- Request 1 deletes the message, and all others ask for the first page. -/
def oneDeleted (i : Nat) : ChatRequest :=
  if i = 1 then .delete { broadcastId := ⟨8⟩, messageId := ⟨5⟩, senderId := ⟨2⟩ }
  else .get firstPage

/-- One request alone, at time 9. -/
def atNine (i : Nat) (q : Prog ChatCall ChatAnswer) (st : ChatStore) : ChatAnswer × ChatStore :=
  q.run (fun c st => c.answerUp .urlSafe oneDeleted 9 i st) st

theorem steps_atNine {i : Nat} {q : Prog ChatCall ChatAnswer}
    {prog : Nat → Prog ChatCall ChatAnswer} {st : ChatStore} (hq : prog i = q) :
    ChatSteps .urlSafe oneDeleted { store := st, prog } {
      store := (atNine i q st).2
      prog := Function.update prog i (.ret (atNine i q st).1) } :=
  Pool.steps_alone (fun c st _ => c.answers_answerUp _ _ 9 i st) hq
    (Pool.alone_of_forall (fun _ _ => trivial) _ _)

theorem steps_shown {p : Pool ChatStore ChatCall ChatAnswer Nat} {i n : Nat}
    (h : (atNine i (p.prog i) p.store).1.shown = some n) :
    ∃ p' page, ChatSteps .urlSafe oneDeleted p p' ∧ p'.prog i = .ret (.page (.ok page)) ∧
      page.data.length = n := by
  obtain ⟨page, hpage, hlength⟩ := page_of_shown h
  have hret : Function.update p.prog i (.ret (atNine i (p.prog i) p.store).1) i =
      .ret (.page (.ok page)) := by rw [Function.update_self, hpage]
  exact ⟨_, page, steps_atNine (i := i) rfl, hret, hlength⟩

/-- The message is deleted, and the cache invalidated, before anyone asks. -/
def deletedFirst : Pool ChatStore ChatCall ChatAnswer Nat :=
  let start := chatRequests oneDeleted oneMessage 0
  let deleted := atNine 1 (oneDeleted 1).prog start.store
  { store := { deleted.2 with tasks := fun _ => none }
    prog := Function.update start.prog 1 (.ret deleted.1) }

theorem steps_deletedFirst :
    CarefulSteps .urlSafe oneDeleted (chatRequests oneDeleted oneMessage 0) deletedFirst := by
  let start := chatRequests oneDeleted oneMessage 0
  let deleted := atNine 1 (oneDeleted 1).prog start.store
  have hdelete : CarefulSteps .urlSafe oneDeleted start {
      store := deleted.2
      prog := Function.update start.prog 1 (.ret deleted.1) } := by
    refine Pool.steps_alone (i := (1 : Nat))
      (fun c st hc => ⟨c.answers_answerUp _ _ 9 1 st, hc⟩) rfl ⟨?_, trivial, trivial, trivial⟩
    rintro m ⟨⟩
    rfl
  exact hdelete.trans (Pool.steps_env (@background_invalidate deleted.2 1 ⟨8⟩ rfl rfl))

theorem fresh_after_delete : ∃ p p' page,
    CarefulSteps .urlSafe oneDeleted (chatRequests oneDeleted oneMessage 0) p ∧
      Finished oneDeleted p ∧ ChatSteps .urlSafe oneDeleted p p' ∧
      p.prog 2 = (oneDeleted 2).prog ∧ p'.prog 2 = .ret (.page (.ok page)) ∧
      PageOf .urlSafe p.store.db (ChatService.cacheKey firstPage.query) page := by
  have hfinished : Finished oneDeleted deletedFirst := by
    refine ⟨fun i => ?_, fun _ => rfl⟩
    by_cases hi : i = 1
    · subst hi
      exact .inl ⟨_, rfl⟩
    · exact .inr ⟨firstPage, if_neg hi, Function.update_of_ne hi _ _⟩
  have hshown : (atNine 2 (deletedFirst.prog 2) deletedFirst.store).1.shown = some 0 := by
    decide +kernel
  obtain ⟨p', page, hsteps, hret, -⟩ := steps_shown hshown
  exact ⟨deletedFirst, p', page, steps_deletedFirst, hfinished, hsteps, rfl, hret,
    (fresh_after_writes .urlSafe oneDeleted oneMessage 0 steps_deletedFirst hfinished hsteps).2
      2 firstPage page rfl rfl hret⟩

section Late

variable (p : Pool ChatStore ChatCall ChatAnswer Nat)

/-- Request 0 has come to its page. -/
def lateRead : Prog ChatCall ChatAnswer × ChatStore :=
  (p.prog 0).runFor (fun c st => c.answerUp .urlSafe oneDeleted 9 0 st) 5 p.store

/-- Request 1 then runs to its end. -/
def lateDeleted : ChatAnswer × ChatStore := atNine 1 (p.prog 1) (lateRead p).2

/-- Request 0 caches its page after the invalidation. -/
def lateCached : Pool ChatStore ChatCall ChatAnswer Nat :=
  let cached := atNine 0 (lateRead p).1 { (lateDeleted p).2 with tasks := fun _ => none }
  { store := cached.2
    prog := Function.update (Function.update (Function.update p.prog 0 (lateRead p).1) 1
      (.ret (lateDeleted p).1)) 0 (.ret cached.1) }

variable {p}

theorem steps_lateCached {b : Uuid}
    (htasks : (lateDeleted p).2.tasks = Function.update (fun _ => none) (1 : Nat) (some (b, none)))
    (hempty : (lateDeleted p).2.cache.entries = .empty) :
    ChatSteps .urlSafe oneDeleted p (lateCached p) := by
  let prog := Function.update p.prog 0 (lateRead p).1
  have hread : ChatSteps .urlSafe oneDeleted p { store := (lateRead p).2, prog } :=
    Pool.steps_runFor (i := (0 : Nat)) (fun c st => c.answers_answerUp _ _ 9 0 st) rfl
  have hdelete : ChatSteps .urlSafe oneDeleted { store := (lateRead p).2, prog } {
      store := (lateDeleted p).2
      prog := Function.update prog 1 (.ret (lateDeleted p).1) } :=
    steps_atNine (Function.update_of_ne (by decide) _ _)
  have hinvalidate : ChatSteps .urlSafe oneDeleted {
      store := (lateDeleted p).2
      prog := Function.update prog 1 (.ret (lateDeleted p).1) } {
      store := { (lateDeleted p).2 with tasks := fun _ => none }
      prog := Function.update prog 1 (.ret (lateDeleted p).1) } :=
    Pool.steps_env (Relation.ReflTransGen.mono (fun _ _ hs => hs.1) _ _
      (background_invalidate htasks hempty))
  have hprog : Function.update prog 1 (.ret (lateDeleted p).1) 0 = (lateRead p).1 :=
    (Function.update_of_ne (by decide) _ _).trans (Function.update_self 0 _ _)
  exact hread.trans (hdelete.trans (hinvalidate.trans (steps_atNine hprog)))

end Late

def cachedLate : Pool ChatStore ChatCall ChatAnswer Nat :=
  lateCached (chatRequests oneDeleted oneMessage 0)

/-- A deleted message is shown to those who ask later. -/
theorem deleted_message_shown : ∃ p p' page,
    ChatSteps .urlSafe oneDeleted (chatRequests oneDeleted oneMessage 0) p ∧
      Finished oneDeleted p ∧ ChatSteps .urlSafe oneDeleted p p' ∧
      p.prog 2 = (oneDeleted 2).prog ∧ p'.prog 2 = .ret (.page (.ok page)) ∧
      page.data.length = 1 ∧
      ¬ PageOf .urlSafe p.store.db (ChatService.cacheKey firstPage.query) page := by
  have hfinished : Finished oneDeleted cachedLate := by
    refine ⟨fun i => ?_, fun _ => rfl⟩
    by_cases h0 : i = 0
    · subst h0
      exact .inl ⟨_, rfl⟩
    by_cases h1 : i = 1
    · subst h1
      exact .inl ⟨_, rfl⟩
    · refine .inr ⟨firstPage, if_neg h1, ?_⟩
      exact (Function.update_of_ne h0 _ _).trans
        ((Function.update_of_ne h1 _ _).trans (Function.update_of_ne h0 _ _))
  have hshown : (atNine 2 (cachedLate.prog 2) cachedLate.store).1.shown = some 1 := by
    decide +kernel
  have hempty : (ChatAnswer.page
      (ChatService.fetched .urlSafe cachedLate.store.db firstPage.query)).shown = some 0 := by
    decide +kernel
  obtain ⟨p', page, hsteps, hret, hlength⟩ := steps_shown hshown
  have hlate : ChatSteps .urlSafe oneDeleted (chatRequests oneDeleted oneMessage 0) cachedLate := by
    refine @steps_lateCached _ ⟨8⟩ ?_ rfl
    funext i
    by_cases hi : i = 1
    · subst hi
      rfl
    · rw [Function.update_of_ne hi]
      exact Function.update_of_ne hi _ (fun _ => none)
  refine ⟨cachedLate, p', page, hlate, hfinished, hsteps, rfl, hret, hlength, ?_⟩
  rintro ⟨query, hkey, hpage⟩
  have hquery : ¬ query.Reserved := by
    intro hreserved
    obtain ⟨e, he⟩ := ChatService.fetched_of_reserved cachedLate.store.db hreserved
    rw [hpage] at he
    cases he
  rw [← ChatService.fetched_eq_of_key hkey hquery (by rintro (h | h) <;> cases h), hpage] at hempty
  have hzero : page.data.length = 0 := Option.some.inj hempty
  rw [hlength] at hzero
  cases hzero

end Meno
