import Meno.Broadcast.CacheKeys
import Meno.Broadcast.Participation
import Meno.Chat.Listing
import Meno.Shared.CoalescedCache

/-!
# Meno.Chat.CachedPages

`get_messages`: the pages of a chat are read through the cache. A request without a cursor, one with
the empty text for a cursor and one with `_start` for a cursor have one key; from the database only
the first of them gets a page. `one_answer_iff` is about any number of requests, over tables that
stay as they are.
-/

namespace Meno

open Lib Lib.Text Coalescing

abbrev ChatPage := CursorPage ChatMessageResponse

abbrev PageCache := CacheState String ChatPage

structure GetMessagesRequest where
  userId : Uuid
  query : ChatMessageQuery

inductive GetMessagesError where
  | notParticipant
  | list (e : ListError)
deriving DecidableEq

/-! ## The calls -/

inductive ChatLookup : Type → Type where
  | isBroadcastParticipant (broadcastId participantId : Uuid) : ChatLookup Bool
  | isLive (broadcastId : Uuid) : ChatLookup (Reply Bool)

/-- A call of `get_messages`. Those of `coalesce_cache` are for a key, and the fetcher asks for the
messages of a query. -/
inductive PageCall (β : Type) : Type where
  | lookup (l : ChatLookup β)
  | cache (key : String) (query : ChatMessageQuery)
      (c : CoalesceCall ChatPage GetMessagesError β)

namespace ChatService

def ttl10Secs : Nat := 10

def ttl60Secs : Nat := 60

def chatListCacheKey (broadcastId : Uuid) (cursor : Option (List Char)) (limit : Int) : String :=
  match cursor with
  | some (c :: cs) => String.ofList ("chat:".toList ++ broadcastId.text.toList ++
      ":msgs:cur=".toList ++ (c :: cs) ++ ":lim=".toList ++ showInt limit)
  | _ => String.ofList ("chat:".toList ++ broadcastId.text.toList ++
      ":msgs:cur=_start:lim=".toList ++ showInt limit)

def cacheKey (query : ChatMessageQuery) : String :=
  chatListCacheKey query.broadcastId (some query.pagination.cursorStr) query.pagination.pageLimit

def ask {β : Type} (l : ChatLookup β) : Prog PageCall β := .call (.lookup l) .ret

def cachedPage (query : ChatMessageQuery) : Prog PageCall (Except GetMessagesError ChatPage) := do
  let isLive ← ask (.isLive query.broadcastId)
  let ttl := if isLive.ok.getD false then ttl10Secs else ttl60Secs
  Prog.lift (.cache (cacheKey query) query) (worker ttl)

def getMessages (req : GetMessagesRequest) : Prog PageCall (Except GetMessagesError ChatPage) := do
  let isParticipant ← ask (.isBroadcastParticipant req.query.broadcastId req.userId)
  if isParticipant then cachedPage req.query else return .error .notParticipant

end ChatService

/-! ## The tables and the cache -/

section Tables

variable (t : CursorText) (db : ChatDb)

/-- What the fetcher answers. -/
def ChatService.fetched (query : ChatMessageQuery) : Except GetMessagesError ChatPage :=
  (ChatService.fetchMessages t db query).mapError .list

namespace ChatLookup

/-- What the tables, and Redis, say. -/
def Says : {β : Type} → ChatLookup β → β → Prop
  | _, .isBroadcastParticipant b u, r => r = ChatRepository.isBroadcastParticipant db.tables b u
  | _, .isLive _, _ => True

def answerUp : {β : Type} → ChatLookup β → β
  | _, .isBroadcastParticipant b u => ChatRepository.isBroadcastParticipant db.tables b u
  | _, .isLive _ => .received false

end ChatLookup

namespace PageCall

/-- Whether a broadcast is live may be answered in any way. -/
def Answers {β : Type} (c : PageCall β) (st : PageCache) (r : β) (st' : PageCache) : Prop :=
  match c with
  | .lookup l => l.Says db r ∧ st' = st
  | .cache key query c => CacheState.Answers key (ChatService.fetched t db query) c st r st'

/-- Redis is up, and no broadcast is live. -/
def answerUp {β : Type} (c : PageCall β) (st : PageCache) : β × PageCache :=
  match c with
  | .lookup l => (l.answerUp db, st)
  | .cache key query c => CacheState.answerUp key (ChatService.fetched t db query) c st

theorem answers_answerUp {β : Type} (c : PageCall β) (st : PageCache) :
    Answers t db c st (answerUp t db c st).1 (answerUp t db c st).2 := by
  cases c with
  | lookup l =>
    refine ⟨?_, rfl⟩
    cases l with
    | isBroadcastParticipant b u => rfl
    | isLive b => trivial
  | cache key query c => exact CacheState.answers_answerUp _ _ c st

end PageCall

/-- Any number of requests, before they begin. -/
def chatReaders (requests : Nat → GetMessagesRequest) (now : Nat) :
    Pool PageCache PageCall (Except GetMessagesError ChatPage) Nat where
  store := .empty String ChatPage now
  prog i := ChatService.getMessages (requests i)

abbrev ReaderSteps := Pool.Steps (ρ := Except GetMessagesError ChatPage) (ι := Nat)
  (fun _ => PageCall.Answers t db) CacheState.Background

/-- Every call with this request that returns, in any run with any other requests, answers `r`. -/
def AlwaysAnswers (req : GetMessagesRequest) (r : Except GetMessagesError ChatPage) : Prop :=
  ∀ requests now p, ReaderSteps t db (chatReaders requests now) p →
    ∀ i, requests i = req → ∀ r', p.prog i = .ret r' → r' = r

end Tables

/-! ## Keys -/

namespace ChatMessageQuery

/-- The cursors that have the key of a request without one. -/
def Reserved (query : ChatMessageQuery) : Prop :=
  query.pagination.cursor = some ⟨""⟩ ∨ query.pagination.cursor = some ⟨"_start"⟩

instance (query : ChatMessageQuery) : Decidable query.Reserved :=
  inferInstanceAs (Decidable (_ ∨ _))

end ChatMessageQuery

namespace ChatService

/-- A cursor in a key. -/
def cursorName : List Char → List Char
  | [] => "_start".toList
  | cs => cs

theorem toList_cacheKey (query : ChatMessageQuery) :
    (cacheKey query).toList = "chat:".toList ++ (query.broadcastId.text.toList ++
      (":msgs:cur=".toList ++ (cursorName query.pagination.cursorStr ++
        ':' :: ("lim=".toList ++ showInt query.pagination.pageLimit)))) := by
  have hstart : ":msgs:cur=_start:lim=".toList =
      ":msgs:cur=".toList ++ ("_start".toList ++ ':' :: "lim=".toList) := by decide
  have hlim : ":lim=".toList = ':' :: "lim=".toList := by decide
  unfold cacheKey chatListCacheKey cursorName
  cases query.pagination.cursorStr with
  | nil => simp only [String.toList_ofList, hstart, List.append_assoc, List.cons_append]
  | cons c cs => simp only [String.toList_ofList, hlim, List.append_assoc, List.cons_append]

variable {query query' : ChatMessageQuery}

/-- Only the name of the cursor can be the same for different cursors. -/
theorem cacheKey_inj (h : cacheKey query = cacheKey query') :
    query.broadcastId = query'.broadcastId ∧
      cursorName query.pagination.cursorStr = cursorName query'.pagination.cursorStr ∧
      query.pagination.pageLimit = query'.pagination.pageLimit := by
  have htext := congrArg String.toList h
  rw [toList_cacheKey, toList_cacheKey] at htext
  obtain ⟨hid, htext⟩ := List.append_inj (List.append_cancel_left htext)
    (by rw [Uuid.length_text, Uuid.length_text])
  have hcolon : ∀ n, ':' ∉ "lim=".toList ++ showInt n := by
    intro n hmem
    rcases List.mem_append.1 hmem with hmem | hmem
    · exact absurd hmem (by decide)
    · exact colon_not_mem_showInt n hmem
  obtain ⟨hcursor, hlimit⟩ := last_sep_inj (hcolon _) (hcolon _) (List.append_cancel_left htext)
  exact ⟨Uuid.text_inj hid, hcursor, showInt_inj (List.append_cancel_left hlimit)⟩

theorem cursorName_of_not_reserved (h : ¬ query.Reserved) :
    (query.pagination.cursor = none ∧ cursorName query.pagination.cursorStr = "_start".toList) ∨
      ∃ c, query.pagination.cursor = some c ∧
        cursorName query.pagination.cursorStr = c.text.toList ∧
          c.text.toList ≠ "_start".toList := by
  unfold CursorParams.cursorStr
  cases hc : query.pagination.cursor with
  | none => exact .inl ⟨rfl, rfl⟩
  | some c =>
    obtain ⟨text⟩ := c
    have hstart : text ≠ "_start" := by
      rintro rfl
      exact h (.inr hc)
    have hempty : text.toList ≠ [] := by
      intro hnil
      exact h (.inl (by rw [hc, String.toList_eq_nil_iff.1 hnil]))
    refine .inr ⟨⟨text⟩, rfl, ?_, fun htext => hstart (String.toList_inj.1 htext)⟩
    change cursorName text.toList = text.toList
    cases htext : text.toList with
    | nil => exact absurd htext hempty
    | cons c cs => rfl

/-- Other requests with one key ask for the same page. -/
theorem fetched_eq_of_key {t : CursorText} {db : ChatDb} (h : cacheKey query = cacheKey query')
    (hquery : ¬ query.Reserved) (hquery' : ¬ query'.Reserved) :
    fetched t db query = fetched t db query' := by
  obtain ⟨hid, hname, hlimit⟩ := cacheKey_inj h
  have hcursor : query.pagination.cursor = query'.pagination.cursor := by
    rcases cursorName_of_not_reserved hquery with ⟨hnone, hstart⟩ | ⟨c, hc, htext, hne⟩
    · rcases cursorName_of_not_reserved hquery' with ⟨hnone', -⟩ | ⟨c', -, htext', hne'⟩
      · rw [hnone, hnone']
      · exact absurd (htext'.symm.trans (hname.symm.trans hstart)) hne'
    · rcases cursorName_of_not_reserved hquery' with ⟨-, hstart'⟩ | ⟨c', hc', htext', -⟩
      · exact absurd (htext.symm.trans (hname.trans hstart')) hne
      · obtain ⟨text⟩ := c
        obtain ⟨text'⟩ := c'
        have htexts : text = text' :=
          String.toList_inj.1 (htext.symm.trans (hname.trans htext'))
        rw [hc, hc', htexts]
  simp only [fetched, fetchMessages, ChatRepository.findMessages, ChatRepository.messagesSelect,
    CursorParams.limitPlusOne, hid, hlimit, hcursor]

theorem cacheKey_of_reserved (h : query.Reserved) :
    cacheKey (query.resume none) = cacheKey query := by
  have hname : cursorName (query.resume none).pagination.cursorStr =
      cursorName query.pagination.cursorStr := by
    rcases h with h | h
    all_goals
      rw [CursorParams.cursorStr, CursorParams.cursorStr, h]
      rfl
  rw [← String.toList_inj, toList_cacheKey, toList_cacheKey, hname]
  rfl

/-- The text for no cursor is no cursor. -/
theorem fetched_of_reserved (db : ChatDb) (h : query.Reserved) :
    ∃ e, fetched .urlSafe db query = .error (.list (.cursor e)) := by
  have hempty : (⟨""⟩ : Cursor).toTimestampId .urlSafe = .error .invalidShape := by decide
  have hstart : (⟨"_start"⟩ : Cursor).toTimestampId .urlSafe = .error .invalidEncoding := by decide
  rcases h with h | h
  · refine ⟨.invalidShape, ?_⟩
    simp only [fetched, fetchMessages, ChatRepository.findMessages, timestampCursor, h, hempty]
    rfl
  · refine ⟨.invalidEncoding, ?_⟩
    simp only [fetched, fetchMessages, ChatRepository.findMessages, timestampCursor, h, hstart]
    rfl

/-- Without a cursor there is a page. -/
theorem fetched_first (t : CursorText) (db : ChatDb) (h : query.pagination.cursor = none) :
    ∃ page, fetched t db query = .ok page := by
  simp only [fetched, fetchMessages, ChatRepository.findMessages, h]
  exact ⟨_, rfl⟩

end ChatService

/-! ## What a request has seen -/

/-- What a request has been told of its user, and what its worker has seen. -/
structure ReaderView where
  participant : Option Bool
  seen : Seen ChatPage GetMessagesError

namespace ReaderView

def nothing : ReaderView := { participant := none, seen := .nothing }

def told : {β : Type} → ChatLookup β → β → ReaderView → ReaderView
  | _, .isBroadcastParticipant _ _, r, g => { g with participant := some r }
  | _, .isLive _, _, g => g

def after {β : Type} (c : PageCall β) (r : β) (g : ReaderView) : ReaderView :=
  match c with
  | .lookup l => told l r g
  | .cache _ _ c => { g with seen := g.seen.after c r }

end ReaderView

namespace GetMessagesRequest

/-- A request asks about its own user, and uses its own key and query. -/
def Asks (req : GetMessagesRequest) : {β : Type} → ChatLookup β → Prop
  | _, .isBroadcastParticipant b u => b = req.query.broadcastId ∧ u = req.userId
  | _, .isLive b => b = req.query.broadcastId

def Before (req : GetMessagesRequest) {β : Type} (c : PageCall β) (g : ReaderView) : Prop :=
  match c with
  | .lookup l => req.Asks l
  | .cache key query c => key = ChatService.cacheKey req.query ∧ query = req.query ∧ g.seen.before c

/-- What a request is answered with. -/
def Answered (r : Except GetMessagesError ChatPage) (g : ReaderView) : Prop :=
  (g.participant = some true ∧ g.seen.Told r) ∨
    (g.participant = some false ∧ r = .error .notParticipant)

theorem outline_getMessages (req : GetMessagesRequest) :
    (ChatService.getMessages req).guarded req.Before ReaderView.after Answered .nothing := by
  refine ⟨⟨rfl, rfl⟩, fun isParticipant => ?_⟩
  cases isParticipant with
  | false => exact .inr ⟨rfl, rfl⟩
  | true =>
    refine ⟨rfl, fun isLive => Prog.guarded_lift ?_⟩
    refine Prog.guarded_mono (fun r g h => .inl h) (Prog.guarded_map
      (P := fun g : ReaderView => g.participant = some true) (f := ReaderView.seen) ?_ ?_ rfl
      (outline_seen _ _))
    · exact fun c g _ hbefore => ⟨rfl, rfl, hbefore⟩
    · exact fun c b g hg => ⟨hg, rfl⟩

end GetMessagesRequest

/-! ## What is under a key -/

section Kept

variable {t : CursorText} {db : ChatDb} {requests : Nat → GetMessagesRequest}

variable (t db) in
/-- The page is one that the fetcher answers to a request with this key. -/
def PageOf (key : String) (page : ChatPage) : Prop :=
  ∃ query, ChatService.cacheKey query = key ∧ ChatService.fetched t db query = .ok page

variable (t db) in
/-- What a request has seen is what the tables say, and what was there under its key. -/
structure ReaderView.Right (req : GetMessagesRequest) (g : ReaderView) : Prop where
  participant : ∀ b, g.participant = some b →
    b = ChatRepository.isBroadcastParticipant db.tables req.query.broadcastId req.userId
  found : ∀ page, g.seen.found = some page → PageOf t db (ChatService.cacheKey req.query) page
  fetched : ∀ r, g.seen.fetched = some r → r = ChatService.fetched t db req.query

variable (t db requests) in
structure WarmInv (st : PageCache) (g : Nat → ReaderView) : Prop where
  entries : ∀ key e, st.entries key = some e → Expiring.Alive e st.now → PageOf t db key e.value
  right : ∀ i, (g i).Right t db (requests i)

theorem right_nothing (req : GetMessagesRequest) : ReaderView.nothing.Right t db req where
  participant b hb := by cases hb
  found page hpage := by cases hpage
  fetched r hr := by cases hr

variable {st st' : PageCache} {g : Nat → ReaderView} {i : Nat} {β : Type} {c : PageCall β} {b : β}

theorem WarmInv.right_after (h : WarmInv t db requests st g) (hpre : (requests i).Before c (g i))
    (hs : PageCall.Answers t db c st b st') : ((g i).after c b).Right t db (requests i) := by
  obtain ⟨hparticipant, hfound, hfetched⟩ := h.right i
  cases c with
  | lookup l =>
    cases l with
    | isBroadcastParticipant b' u =>
      obtain ⟨rfl, rfl⟩ := hpre
      refine ⟨fun b' hb' => ?_, hfound, hfetched⟩
      cases hb'
      exact hs.1
    | isLive b' => exact ⟨hparticipant, hfound, hfetched⟩
  | cache key query c =>
    obtain ⟨rfl, rfl, -⟩ := hpre
    obtain ⟨hpossible, -⟩ := hs
    refine ⟨hparticipant, fun page hpage => ?_, fun r hr => ?_⟩
    · rcases Seen.found_after hpossible hpage with hpage | ⟨e, he, halive, rfl⟩
      · exact hfound page hpage
      · exact h.entries _ e he halive
    · rcases Seen.fetched_after hpossible hr with hr | rfl
      · exact hfetched r hr
      · rfl

theorem WarmInv.entries_after (h : WarmInv t db requests st g) (hpre : (requests i).Before c (g i))
    (hs : PageCall.Answers t db c st b st') :
    ∀ key e, st'.entries key = some e → Expiring.Alive e st'.now → PageOf t db key e.value := by
  cases c with
  | lookup l =>
    obtain ⟨-, rfl⟩ := hs
    exact h.entries
  | cache key query c =>
    obtain ⟨rfl, rfl, hbefore⟩ := hpre
    obtain ⟨-, rfl⟩ := hs
    intro key e he halive
    rw [CacheState.now_effect] at halive
    rcases Seen.entry_after hbefore he with he | ⟨-, rfl, hfetched⟩
    · exact h.entries key e he halive
    · exact ⟨_, rfl, ((h.right i).fetched _ hfetched).symm⟩

theorem WarmInv.call (h : WarmInv t db requests st g) (hpre : (requests i).Before c (g i))
    (hs : PageCall.Answers t db c st b st') :
    WarmInv t db requests st' (Function.update g i ((g i).after c b)) where
  entries := h.entries_after hpre hs
  right j := by
    by_cases hj : j = i
    · subst hj
      rw [Function.update_self]
      exact h.right_after hpre hs
    · rw [Function.update_of_ne hj]
      exact h.right j

theorem WarmInv.background (h : WarmInv t db requests st g) (hs : CacheState.Background st st') :
    WarmInv t db requests st' g where
  entries key e he halive := by
    obtain ⟨he, halive⟩ := CacheState.entry_background hs he halive
    exact h.entries key e he halive
  right := h.right

/-- Whatever is in the cache, a request is answered with a page for its key, or with what the
fetcher answers. -/
theorem answered_of_steps {now : Nat}
    {p : Pool PageCache PageCall (Except GetMessagesError ChatPage) Nat}
    (h : ReaderSteps t db (chatReaders requests now) p) {r : Except GetMessagesError ChatPage}
    (hret : p.prog i = .ret r) :
    if ChatRepository.isBroadcastParticipant db.tables (requests i).query.broadcastId
        (requests i).userId then
      (∃ page, PageOf t db (ChatService.cacheKey (requests i).query) page ∧ r = .ok page) ∨
        r = ChatService.fetched t db (requests i).query
    else r = .error .notParticipant := by
  have hstart : WarmInv t db requests (chatReaders requests now).store fun _ => .nothing :=
    ⟨fun key e he _ => (by cases he), fun i => right_nothing _⟩
  obtain ⟨g, hinv, hanswered⟩ := (Pool.outlined_of_steps
    (fun _ _ _ _ _ _ _ hpre hexec hinv => hinv.call hpre hexec)
    (fun _ _ _ hs hinv => hinv.background hs) h
    ⟨_, hstart, fun i => (requests i).outline_getMessages⟩).returned
  have hright := hinv.right i
  rcases hanswered i r hret with ⟨htrue, htold⟩ | ⟨hfalse, rfl⟩
  · rw [← hright.participant true htrue, if_pos rfl]
    rcases htold with ⟨page, hfound, rfl⟩ | hfetched
    · exact .inl ⟨page, hright.found page hfound, rfl⟩
    · exact .inr (hright.fetched r hfetched)
  · rw [← hright.participant false hfalse, if_neg (by decide)]

end Kept

/-! ## One request alone -/

section Alone

variable {t : CursorText} {db : ChatDb} {req req' : GetMessagesRequest} {st : PageCache}

/-- A participant's request is a worker of its key. -/
theorem run_getMessages (h : ChatRepository.isBroadcastParticipant db.tables req.query.broadcastId
    req.userId = true) :
    (ChatService.getMessages req).run (PageCall.answerUp t db) st =
      (worker ChatService.ttl60Secs).run (CacheState.answerUp (ChatService.cacheKey req.query)
        (ChatService.fetched t db req.query)) st := by
  have hrun : (ChatService.getMessages req).run (PageCall.answerUp t db) st =
      (if ChatRepository.isBroadcastParticipant db.tables req.query.broadcastId req.userId then
        ChatService.cachedPage req.query else return .error .notParticipant).run
        (PageCall.answerUp t db) st := rfl
  rw [hrun, if_pos h]
  exact Prog.run_lift _ _ _ st

variable (t db) in
/-- The first request runs alone. -/
theorem steps_first (requests : Nat → GetMessagesRequest) :
    ReaderSteps t db (chatReaders requests 0) {
      store := ((ChatService.getMessages (requests 0)).run (PageCall.answerUp t db)
        (.empty String ChatPage 0)).2
      prog := Function.update (chatReaders requests 0).prog 0 (.ret
        ((ChatService.getMessages (requests 0)).run (PageCall.answerUp t db)
          (.empty String ChatPage 0)).1) } :=
  Pool.steps_alone (i := (0 : Nat)) (fun c s _ => PageCall.answers_answerUp t db c s) rfl
    (Pool.alone_of_forall (fun _ _ => trivial) _ _)

/-- With nothing in the cache, a participant gets what the fetcher answers. -/
theorem eq_fetched_of_alwaysAnswers {r : Except GetMessagesError ChatPage}
    (h : ChatRepository.isBroadcastParticipant db.tables req.query.broadcastId req.userId = true)
    (hr : AlwaysAnswers t db req r) : ChatService.fetched t db req.query = r := by
  have hcold : ((ChatService.getMessages req).run (PageCall.answerUp t db)
      (.empty String ChatPage 0)).1 = ChatService.fetched t db req.query := by
    rw [run_getMessages h]
    exact run_worker_missing rfl rfl
  refine hr (fun _ => req) 0 _ (steps_first t db fun _ => req) 0 rfl _ ?_
  simp only [Function.update_self, hcold]

/-- After another request with the same key, a participant gets the page of that. -/
theorem eq_other_of_alwaysAnswers {r : Except GetMessagesError ChatPage} {page : ChatPage}
    (h : ChatRepository.isBroadcastParticipant db.tables req.query.broadcastId req.userId = true)
    (h' : ChatRepository.isBroadcastParticipant db.tables req'.query.broadcastId req'.userId = true)
    (hkey : ChatService.cacheKey req'.query = ChatService.cacheKey req.query)
    (hpage : ChatService.fetched t db req'.query = .ok page) (hr : AlwaysAnswers t db req r) :
    .ok page = r := by
  let requests : Nat → GetMessagesRequest := fun i => if i = 0 then req' else req
  let st := ((ChatService.getMessages req').run (PageCall.answerUp t db)
    (.empty String ChatPage 0)).2
  have hcached : st.entries.find st.now (ChatService.cacheKey req.query) = some page := by
    have hst : st = ((worker ChatService.ttl60Secs).run (CacheState.answerUp
        (ChatService.cacheKey req'.query) (.ok page : Except GetMessagesError ChatPage))
        (.empty String ChatPage 0)).2 := by
      rw [← hpage]
      exact congrArg Prod.snd (run_getMessages h')
    rw [hst, ← hkey]
    exact run_worker_caches rfl rfl
  have hwarm : ((ChatService.getMessages req).run (PageCall.answerUp t db) st).1 = .ok page := by
    rw [run_getMessages h, run_worker_found hcached]
  have hsteps := (steps_first t db requests).trans (Pool.steps_alone (i := (1 : Nat))
    (fun c s _ => PageCall.answers_answerUp t db c s) (Function.update_of_ne (by decide) _ _)
    (Pool.alone_of_forall (fun _ _ => trivial) _ _))
  refine hr requests 0 _ hsteps 1 rfl _ ?_
  rw [← hwarm]
  simp only [Function.update_self]
  rfl

/-- A reserved cursor is refused, and shown the first page after a request without a cursor. -/
theorem not_alwaysAnswers_of_reserved
    (h : ChatRepository.isBroadcastParticipant db.tables req.query.broadcastId req.userId = true)
    (hreserved : req.query.Reserved) : ¬ ∃ r, AlwaysAnswers .urlSafe db req r := by
  rintro ⟨r, hr⟩
  let first : GetMessagesRequest := { req with query := req.query.resume none }
  have hkey : ChatService.cacheKey first.query = ChatService.cacheKey req.query :=
    ChatService.cacheKey_of_reserved hreserved
  obtain ⟨page, hpage⟩ := @ChatService.fetched_first first.query .urlSafe db rfl
  obtain ⟨e, he⟩ := ChatService.fetched_of_reserved db hreserved
  have hcold := eq_fetched_of_alwaysAnswers h hr
  have hwarm := @eq_other_of_alwaysAnswers _ _ _ first _ _ h h hkey hpage hr
  rw [he, ← hwarm] at hcold
  cases hcold

end Alone

/-- A request has one answer in all runs, unless its user is a participant and its cursor is one
that has the key of none. -/
theorem one_answer_iff (db : ChatDb) (req : GetMessagesRequest) :
    (∃ r, AlwaysAnswers .urlSafe db req r) ↔
      (ChatRepository.isBroadcastParticipant db.tables req.query.broadcastId req.userId = true →
        ¬ req.query.Reserved) := by
  constructor
  · exact fun h hparticipant hreserved => not_alwaysAnswers_of_reserved hparticipant hreserved h
  · intro hcursor
    refine ⟨if ChatRepository.isBroadcastParticipant db.tables req.query.broadcastId req.userId then
      ChatService.fetched .urlSafe db req.query else .error .notParticipant, ?_⟩
    rintro requests now p h i rfl r hret
    have hanswered := answered_of_steps h hret
    split at hanswered
    · rename_i hparticipant
      rw [if_pos hparticipant]
      rcases hanswered with ⟨page, ⟨query, hkey, hpage⟩, rfl⟩ | rfl
      · have hquery : ¬ query.Reserved := by
          intro hreserved
          obtain ⟨e, he⟩ := ChatService.fetched_of_reserved db hreserved
          rw [hpage] at he
          cases he
        rw [← hpage, ChatService.fetched_eq_of_key hkey hquery (hcursor hparticipant)]
      · rfl
    · rename_i hparticipant
      rw [if_neg hparticipant, hanswered]

/-! ### Runs -/

/-- One participant and no message. -/
def quietChat : ChatDb := .ofTables { BroadcastDb.ofUsers twoUsers with
  participants := Table.empty.put {
    broadcastId := ⟨8⟩
    participantId := ⟨2⟩
    role := .participant
    joinedAt := 6
    leftAt := none } }

theorem empty_cursor_answered_twice :
    let req : GetMessagesRequest := {
      userId := ⟨2⟩
      query := { broadcastId := ⟨8⟩, pagination := { cursor := some ⟨""⟩, limit := none } } }
    ChatRepository.isBroadcastParticipant quietChat.tables req.query.broadcastId req.userId = true ∧
      ¬ ∃ r, AlwaysAnswers .urlSafe quietChat req r := by
  have hparticipant :
      ChatRepository.isBroadcastParticipant quietChat.tables ⟨8⟩ ⟨2⟩ = true := by decide
  exact ⟨hparticipant, not_alwaysAnswers_of_reserved hparticipant (.inl rfl)⟩

end Meno
