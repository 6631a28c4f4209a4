import Meno.Chat.Requests

/-!
# Meno.Chat.Invalidation

What is in the cache while messages are written: every page is as the tables have it, or an
invalidation will delete it, in the runs in which pages are cached in time (`ChatCall.Careful`) and
no invalidation fails.
-/

namespace Meno

open Lib Lib.Text Coalescing Redis

/-! ## What is in the cache -/

/-- What the keys of a broadcast's pages begin with. -/
def pagesOf (broadcastId : Uuid) : List Char :=
  "chat:".toList ++ (broadcastId.text.toList ++ ":msgs:".toList)

theorem toList_chatPattern (broadcastId : Uuid) :
    (chatPattern broadcastId).toList = pagesOf broadcastId ++ ['*'] := by
  have hstar : ":msgs:*".toList = ":msgs:".toList ++ ['*'] := by decide
  have htext : (chatPattern broadcastId).toList =
      "chat:".toList ++ broadcastId.text.toList ++ ":msgs:*".toList := String.toList_ofList
  rw [htext, hstar, pagesOf, List.append_assoc, List.append_assoc, List.append_assoc]

theorem plain_pagesOf (broadcastId : Uuid) : (pagesOf broadcastId).all Glob.plain = true := by
  have hdigits : "-0123456789abcdef".toList.all Glob.plain = true := by decide
  have hchat : "chat:".toList.all Glob.plain = true := by decide
  have hmsgs : ":msgs:".toList.all Glob.plain = true := by decide
  refine List.all_eq_true.2 fun c hc => ?_
  simp only [pagesOf, List.mem_append] at hc
  rcases hc with hc | hc | hc
  · exact List.all_eq_true.1 hchat c hc
  · exact List.all_eq_true.1 hdigits c (Uuid.mem_text hc)
  · exact List.all_eq_true.1 hmsgs c hc

theorem accepts_cacheKey (query : ChatMessageQuery) :
    Glob.Accepts (chatPattern query.broadcastId) (ChatService.cacheKey query) := by
  have hcur : ":msgs:cur=".toList = ":msgs:".toList ++ "cur=".toList := by decide
  refine (Glob.accepts_iff_begins (toList_chatPattern _) (plain_pagesOf _)).2 ?_
  rw [ChatService.toList_cacheKey, pagesOf, hcur, List.prefix_append_right_inj,
    List.prefix_append_right_inj, List.append_assoc]
  exact List.prefix_append _ _

namespace ChatStore

/-- An invalidation of the broadcast will delete what is under the key. -/
def Doomed (st : ChatStore) (b : Uuid) (key : String) : Prop :=
  st.Awaited b ∨ ∃ i sw, st.tasks i = some (b, some sw) ∧ sw.there key

/-- The page is as the tables have it, or will be deleted. -/
def Accounted (t : CursorText) (st : ChatStore) (key : String) (page : ChatPage) : Prop :=
  ∃ query, ChatService.cacheKey query = key ∧
    (ChatService.fetched t st.db query = .ok page ∨ st.Doomed query.broadcastId key)

end ChatStore

/-- A task is of the request's broadcast, and its deletion is right so far. -/
def TaskOk (broadcastId : Uuid) (task : Option (Uuid × Option Deletion)) : Prop :=
  ∀ b d, task = some (b, d) →
    b = broadcastId ∧ ∀ sw, d = some sw → Deletion.Inv (chatPattern b) sw

structure ChatInv (t : CursorText) (requests : Nat → ChatRequest) (st : ChatStore)
    (g : Nat → ChatView) : Prop where
  owed : ∀ i, st.owed i = (g i).owed
  readers : ∀ i reader, requests i = .get reader → (g i).owed = none
  tasks : ∀ i, TaskOk (requests i).broadcastId (st.tasks i)
  entries : ∀ key e, st.cache.entries key = some e → Expiring.Alive e st.cache.now →
    st.Accounted t key e.value
  fetched : ∀ i reader r, requests i = .get reader → (g i).reader.seen.fetched = some r →
    st.unchanged i reader.query.broadcastId = true → r = ChatService.fetched t st.db reader.query

section Inv

variable {t : CursorText} {requests : Nat → ChatRequest} {st st' : ChatStore}
  {g g' : Nat → ChatView} {i : Nat} {b : Uuid} {key : String} {cache : PageCache}

/-! ### Other things under the keys -/

theorem ChatStore.awaited_recached (st : ChatStore) (cache : PageCache) :
    (st.recached cache).Awaited b ↔ st.Awaited b := by
  unfold ChatStore.Awaited ChatStore.recached
  refine or_congr Iff.rfl (exists_congr fun i => ?_)
  dsimp only
  rcases st.tasks i with _ | ⟨b', _ | sw⟩ <;> simp

theorem ChatStore.doomed_recached (hdoomed : st.Doomed b key)
    (hpresent : Deletion.Present cache.entries cache.now key) :
    (st.recached cache).Doomed b key := by
  rcases hdoomed with hawaited | ⟨i, sw, htask, hthere⟩
  · exact .inl ((st.awaited_recached cache).2 hawaited)
  · refine .inr ⟨i, sw.watch (Deletion.Present cache.entries cache.now), ?_, hthere, hpresent⟩
    simp [ChatStore.recached, htask]

theorem present_of_alive {cache : PageCache} {e : Entry ChatPage Nat}
    (he : cache.entries key = some e) (halive : Expiring.Alive e cache.now) :
    Deletion.Present cache.entries cache.now key := by
  simp [Deletion.Present, Expiring.entry, he, Option.filter, halive]

/-- What is under the keys may go, and may be replaced by what is accounted for. -/
theorem ChatInv.recached (h : ChatInv t requests st g)
    (hentries : ∀ key e, cache.entries key = some e → Expiring.Alive e cache.now →
      st.Accounted t key e.value) : ChatInv t requests (st.recached cache) g where
  owed := h.owed
  readers := h.readers
  tasks i b d htask := by
    obtain ⟨⟨b', d'⟩, hold, hnew⟩ := Option.map_eq_some_iff.1 htask
    obtain ⟨rfl, rfl⟩ := Prod.mk.inj hnew
    obtain ⟨hb, hinv⟩ := h.tasks i _ _ hold
    refine ⟨hb, fun sw hsw => ?_⟩
    obtain ⟨sw₀, rfl, rfl⟩ := Option.map_eq_some_iff.1 hsw
    exact Sweep.inv_watch (hinv sw₀ rfl)
  entries key e he halive := by
    obtain ⟨query, hkey, hpage⟩ := hentries key e he halive
    exact ⟨query, hkey, hpage.imp_right
      (ChatStore.doomed_recached · (present_of_alive he halive))⟩
  fetched := h.fetched

/-! ### What is written -/

theorem createMessage_ok {db : ChatDb} {now : OffsetDateTime} {id b u : Uuid} {content : String}
    {row : ChatMessageRow} {ws : List ChatWrite}
    (h : ChatRepository.createMessage db now id b u content = .ok (row, ws)) :
    ∃ m, ws = [.message m] ∧ m.broadcastId = b ∧ db.messages.get m.id = none := by
  unfold ChatRepository.createMessage at h
  obtain ⟨_, -, h⟩ := bind_eq_ok.1 h
  obtain ⟨content, -, h⟩ := bind_eq_ok.1 h
  split at h
  · cases h
  · rename_i hfree
    obtain ⟨_, -, h⟩ := bind_eq_ok.1 h
    obtain ⟨_, -, h⟩ := bind_eq_ok.1 h
    dsimp only at h
    split at h
    · cases h
      exact ⟨_, rfl, rfl, by simpa using hfree⟩
    · cases h

/-- A message takes the place of an older version of it. -/
structure Replaces (db : ChatDb) (messageId : Uuid) (m : ChatMessage) : Prop where
  old : ∃ old, db.messages.get messageId = some old ∧ m.id = old.id ∧
    m.broadcastId = old.broadcastId ∧ m.senderId = old.senderId

theorem updateMessage_ok {db : ChatDb} {now : OffsetDateTime} {messageId u : Uuid}
    {content : String} {row : Option ChatMessageRow} {ws : List ChatWrite}
    (h : ChatRepository.updateMessage db now messageId u content = .ok (row, ws)) :
    (row = none ∧ ws = []) ∨ ∃ m, Replaces db messageId m ∧ ws = [.message m] ∧
      row = ChatRepository.joinSender db m := by
  unfold ChatRepository.updateMessage at h
  obtain ⟨_, -, h⟩ := bind_eq_ok.1 h
  cases hold : ChatRepository.sendersMessage db messageId u with
  | none =>
    rw [hold] at h
    cases h
    exact .inl ⟨rfl, rfl⟩
  | some old =>
    rw [hold] at h
    obtain ⟨content, -, h⟩ := bind_eq_ok.1 h
    cases h
    have hget := (Option.filter_eq_some_iff.1 hold).1
    refine .inr ⟨_, ?_, rfl, rfl⟩
    exact ⟨old, hget, rfl, rfl, rfl⟩

theorem softDeleteMessage_ok {db : ChatDb} {now : OffsetDateTime} {messageId u : Uuid}
    {deleted : Bool} {ws : List ChatWrite}
    (h : ChatRepository.softDeleteMessage db now messageId u = .ok (deleted, ws)) :
    (deleted = false ∧ ws = []) ∨
      ∃ m, Replaces db messageId m ∧ ws = [.message m] ∧ deleted = true := by
  unfold ChatRepository.softDeleteMessage at h
  cases hold : ChatRepository.sendersMessage db messageId u with
  | none =>
    rw [hold] at h
    cases h
    exact .inl ⟨rfl, rfl⟩
  | some old =>
    rw [hold] at h
    cases h
    have hget := (Option.filter_eq_some_iff.1 hold).1
    refine .inr ⟨_, ?_, rfl, rfl⟩
    exact ⟨old, hget, rfl, rfl, rfl⟩

/-! ### Calls -/

/-- What a request has seen is another thing, and it owes what it owed. -/
theorem ChatInv.view {unchanged : Nat → Uuid → Bool} (h : ChatInv t requests st g)
    (howed : ∀ j, (g' j).owed = (g j).owed)
    (hfetched : ∀ j reader r, requests j = .get reader →
      (g' j).reader.seen.fetched = some r → unchanged j reader.query.broadcastId = true →
        r = ChatService.fetched t st.db reader.query) :
    ChatInv t requests { st with unchanged } g' where
  owed j := by rw [howed, ← h.owed j]
  readers j reader hreq := by rw [howed, h.readers j reader hreq]
  tasks := h.tasks
  entries := h.entries
  fetched := hfetched

variable {β : Type} {r : β}

/-- What is there after a call of `get_messages` is accounted for. -/
theorem ChatInv.entries_page {c : PageCall β} (h : ChatInv t requests st g)
    (hpre : (requests i).Before (.page c) (g i)) (hs : c.Answers t st.db st.cache r cache)
    (hcareful : (ChatCall.page c).Careful requests i st) (key : String) (e : Entry ChatPage Nat)
    (he : cache.entries key = some e) (halive : Expiring.Alive e cache.now) :
    st.Accounted t key e.value := by
  obtain ⟨reader, hreq, hbefore⟩ := hpre
  cases c with
  | lookup l =>
    obtain ⟨-, rfl⟩ := hs
    exact h.entries key e he halive
  | cache k query c =>
    obtain ⟨rfl, rfl, hseen⟩ := hbefore
    obtain ⟨-, rfl⟩ := hs
    rw [CacheState.now_effect] at halive
    rcases Seen.entry_after hseen he with he | ⟨hsets, rfl, hfetched⟩
    · exact h.entries key e he halive
    · refine ⟨reader.query, rfl, ?_⟩
      rcases hcareful hsets with hunchanged | hawaited
      · exact .inl (h.fetched i reader _ hreq hfetched hunchanged).symm
      · exact .inr (.inl hawaited)

/-- What a request has fetched is what the tables say, as long as they are unchanged. -/
theorem ChatInv.fetched_page {c : PageCall β} (h : ChatInv t requests st g)
    (hpre : (requests i).Before (.page c) (g i)) (hs : c.Answers t st.db st.cache r cache)
    {reader : GetMessagesRequest} (hreq : requests i = .get reader)
    {a : Except GetMessagesError ChatPage}
    (ha : ((g i).reader.after c r).seen.fetched = some a)
    (hunchanged : c.unchangedAfter (st.unchanged i) reader.query.broadcastId = true) :
    a = ChatService.fetched t st.db reader.query := by
  obtain ⟨reader', hreq', hbefore⟩ := hpre
  obtain rfl : reader = reader' := ChatRequest.get.inj (hreq.symm.trans hreq')
  cases c with
  | lookup l =>
    cases l with
    | isBroadcastParticipant b u => exact h.fetched i reader a hreq ha hunchanged
    | isLive b => exact h.fetched i reader a hreq ha hunchanged
  | cache k query c =>
    obtain ⟨rfl, rfl, -⟩ := hbefore
    obtain ⟨hpossible, -⟩ := hs
    cases c with
    | fetch =>
      cases ha
      exact hpossible
    | get | setLock | sleep | set | delLock => exact h.fetched i reader a hreq ha hunchanged

theorem ChatInv.page {c : PageCall β} (h : ChatInv t requests st g)
    (hpre : (requests i).Before (.page c) (g i))
    (hs : (ChatCall.page c).Answers t requests i st r st')
    (hcareful : (ChatCall.page c).Careful requests i st) :
    ChatInv t requests st' (Function.update g i ((g i).after b (.page c) r)) := by
  obtain ⟨cache, hanswers, rfl⟩ := hs
  refine (h.recached (h.entries_page hpre hanswers hcareful)).view (fun j => ?_) ?_
  · by_cases hj : j = i
    · subst hj
      rw [Function.update_self]
      rfl
    · rw [Function.update_of_ne hj]
  · intro j reader a hreq ha hunchanged
    by_cases hj : j = i
    · subst hj
      rw [Function.update_self] at ha hunchanged
      exact h.fetched_page hpre hanswers hreq ha hunchanged
    · rw [Function.update_of_ne hj] at ha hunchanged
      exact h.fetched j reader a hreq ha hunchanged

/-- A message of another broadcast, or without a sender, is on no page of this one. -/
theorem hides_of {query : ChatMessageQuery} {db : ChatDb} {m : ChatMessage}
    (h : m.broadcastId ≠ query.broadcastId ∨ ChatRepository.joinSender db m = none) :
    query.Hides db m := by
  intro r hr
  rcases h with hne | hnone
  · obtain ⟨u, -, rfl⟩ := Option.map_eq_some_iff.1 hr
    simp [ChatMessageQuery.wants, hne]
  · rw [hnone] at hr
    cases hr

/-- The row that is replaced has the broadcast and the sender of the one that is written. -/
def SameChat (db : ChatDb) (m : ChatMessage) : Prop :=
  ∀ old ∈ db.messages.get m.id, old.broadcastId = m.broadcastId ∧ old.senderId = m.senderId

theorem fetched_write {query : ChatMessageQuery} {db : ChatDb} {m : ChatMessage}
    (hsame : SameChat db m)
    (h : m.broadcastId ≠ query.broadcastId ∨ ChatRepository.joinSender db m = none) :
    ChatService.fetched t (db.apply (.message m)) query = ChatService.fetched t db query := by
  have hold : ∀ old ∈ db.messages.get m.id, query.Hides db old := by
    intro old hget
    obtain ⟨hb, hu⟩ := hsame old hget
    refine hides_of (h.imp (fun hne => hb ▸ hne) fun hnone => ?_)
    simpa [ChatRepository.joinSender, hu] using hnone
  rw [ChatService.fetched, fetchMessages_message (hides_of h) hold, ChatService.fetched]

theorem owed_update {f : Nat → Option Uuid} (h : ∀ j, f j = (g j).owed) (owed : Option Uuid)
    (j : Nat) :
    Function.update f i owed j = (Function.update g i { g i with owed } j).owed := by
  by_cases hj : j = i
  · subst hj
    rw [Function.update_self, Function.update_self]
  · rw [Function.update_of_ne hj, Function.update_of_ne hj]
    exact h j

theorem tasks_update {tasks : Nat → Option (Uuid × Option Deletion)}
    {task : Option (Uuid × Option Deletion)}
    (h : ∀ j, TaskOk (requests j).broadcastId (tasks j))
    (htask : TaskOk (requests i).broadcastId task) (j : Nat) :
    TaskOk (requests j).broadcastId (Function.update tasks i task j) :=
  (Function.forall_update_iff tasks (p := fun j task => TaskOk (requests j).broadcastId task)).2
    ⟨htask, fun j _ => h j⟩ j

theorem ChatInv.write {m : ChatMessage} {owed : Option Uuid} (h : ChatInv t requests st g)
    (hwriter : ∀ reader, requests i ≠ .get reader) (hnone : (g i).owed = none)
    (hsame : SameChat st.db m)
    (howed : owed = some m.broadcastId ∨ ChatRepository.joinSender st.db m = none) :
    ChatInv t requests
      { st.write (.message m) with owed := Function.update st.owed i owed }
      (Function.update g i { g i with owed }) where
  owed := owed_update h.owed owed
  readers j reader hreq := by
    have hj : j ≠ i := fun hj => hwriter reader (hj ▸ hreq)
    rw [Function.update_of_ne hj]
    exact h.readers j reader hreq
  tasks := h.tasks
  entries key e he halive := by
    obtain ⟨query, hkey, hpage⟩ := h.entries key e he halive
    refine ⟨query, hkey, ?_⟩
    by_cases hsees : m.broadcastId ≠ query.broadcastId ∨ ChatRepository.joinSender st.db m = none
    · refine hpage.imp (fun hpage => (fetched_write hsame hsees).trans hpage) ?_
      rintro ((⟨j, hj⟩ | htask) | hsweep)
      · have hji : j ≠ i := by
          rintro rfl
          rw [h.owed, hnone] at hj
          cases hj
        exact .inl (.inl ⟨j, (Function.update_of_ne hji _ _).trans hj⟩)
      · exact .inl (.inr htask)
      · exact .inr hsweep
    · obtain ⟨hb, hjoin⟩ := not_or.1 hsees
      rw [not_not] at hb
      obtain rfl := howed.resolve_right hjoin
      exact .inr (.inl (.inl ⟨i, (Function.update_self i _ _).trans (congrArg some hb)⟩))
  fetched j reader r hreq hr hunchanged := by
    have hj : j ≠ i := fun hj => hwriter reader (hj ▸ hreq)
    rw [Function.update_of_ne hj] at hr
    obtain ⟨hunchanged, hb⟩ := (Bool.and_eq_true _ _).mp hunchanged
    rw [h.fetched j reader r hreq hr hunchanged]
    exact (fetched_write hsame (.inl (by simpa using hb : _ ≠ _).symm)).symm

theorem ChatInv.spawn (h : ChatInv t requests st g) (hwriter : ∀ reader, requests i ≠ .get reader)
    (howed : (g i).owed = some (requests i).broadcastId) :
    ChatInv t requests
      { st with
        tasks := Function.update st.tasks i (some ((requests i).broadcastId, none))
        owed := Function.update st.owed i none }
      (Function.update g i { g i with owed := none }) where
  owed := owed_update h.owed none
  readers j reader hreq := by
    have hj : j ≠ i := fun hj => hwriter reader (hj ▸ hreq)
    rw [Function.update_of_ne hj]
    exact h.readers j reader hreq
  tasks := by
    refine tasks_update h.tasks ?_
    rintro b d ⟨⟩
    exact ⟨rfl, fun sw hsw => (by cases hsw)⟩
  entries key e he halive := by
    obtain ⟨query, hkey, hpage⟩ := h.entries key e he halive
    refine ⟨query, hkey, hpage.imp_right ?_⟩
    -- Whatever the request had to invalidate, it now does.
    have hown : ∀ b, b = (requests i).broadcastId → ∃ j,
        Function.update st.tasks i (some ((requests i).broadcastId, none)) j = some (b, none) :=
      fun b hb => ⟨i, by rw [Function.update_self, hb]⟩
    rintro ((⟨j, hj⟩ | ⟨j, hj⟩) | ⟨j, sw, hj, hthere⟩)
    · by_cases hji : j = i
      · subst hji
        rw [h.owed, howed] at hj
        exact .inl (.inr (hown _ (Option.some.inj hj).symm))
      · exact .inl (.inl ⟨j, (Function.update_of_ne hji _ _).trans hj⟩)
    · by_cases hji : j = i
      · subst hji
        exact .inl (.inr (hown _ (h.tasks j _ _ hj).1))
      · exact .inl (.inr ⟨j, (Function.update_of_ne hji _ _).trans hj⟩)
    · by_cases hji : j = i
      · subst hji
        exact .inl (.inr (hown _ (h.tasks j _ _ hj).1))
      · exact .inr ⟨j, sw, (Function.update_of_ne hji _ _).trans hj, hthere⟩
  fetched j reader r hreq hr hunchanged := by
    have hj : j ≠ i := fun hj => hwriter reader (hj ▸ hreq)
    rw [Function.update_of_ne hj] at hr
    exact h.fetched j reader r hreq hr hunchanged

/-- A statement that writes no message. -/
theorem ran_quiet {α : Type} {s : ChatStmt α} {a : Except DbError α}
    (hs : ∀ now db a ws, s.exec now db = .ok (a, ws) →
      ws = [] ∨ ∃ b payload, ws = [.published b payload])
    (h : ChatStore.Ran s st a st') : st' = st := by
  cases a with
  | error e => exact h
  | ok a =>
    obtain ⟨now, ws, hexec, rfl⟩ := h
    rcases hs _ _ _ _ hexec with rfl | ⟨b, payload, rfl⟩
    · rfl
    · rfl

theorem ChatInv.same (h : ChatInv t requests st g) :
    ChatInv t requests { st with owed := Function.update st.owed i (st.owed i) }
      (Function.update g i { g i with owed := st.owed i }) := by
  have hview : ({ g i with owed := st.owed i } : ChatView) = g i := by rw [h.owed i]
  rw [hview, Function.update_eq_self, Function.update_eq_self]
  exact h

theorem sameChat_of_replaces {db : ChatDb} {messageId : Uuid} {m : ChatMessage}
    (h : Replaces db messageId m) : SameChat db m := by
  obtain ⟨old, hget, hid, hb, hu⟩ := h
  intro old' hget'
  rw [hid, Table.key_of_get hget, hget] at hget'
  cases hget'
  exact ⟨hb.symm, hu.symm⟩

theorem broadcast_of_replaces {messageId : Uuid} {m : ChatMessage}
    (h : Replaces st.db messageId m) (hnames : st.Names messageId b) : m.broadcastId = b := by
  obtain ⟨old, hget, -, hb, -⟩ := h
  rw [hb]
  exact hnames old hget

theorem ChatInv.write_call {c : WriterCall β} (h : ChatInv t requests st g)
    (hpre : (requests i).Before (.write c) (g i))
    (hs : (ChatCall.write c).Answers t requests i st r st')
    (hcareful : (ChatCall.write c).Careful requests i st) :
    ChatInv t requests st'
      (Function.update g i ((g i).after (requests i).broadcastId (.write c) r)) := by
  obtain ⟨hwriter, hbefore⟩ := hpre
  obtain ⟨st₁, hperforms, rfl⟩ := hs
  have hafter : (g i).after (requests i).broadcastId (.write c) r =
      { g i with owed := c.owedAfter (requests i).broadcastId r (st.owed i) } := by
    rw [h.owed i]
    rfl
  rw [hafter]
  cases c with
  | createMessage id b u content =>
    cases r with
    | error e =>
      obtain rfl : st₁ = st := hperforms
      exact h.same
    | ok row =>
      obtain ⟨now, ws, hexec, rfl⟩ := hperforms
      obtain ⟨m, rfl, rfl, hfree⟩ := createMessage_ok hexec
      obtain ⟨hb, hnone⟩ := hbefore
      have hsame : SameChat st.db m := fun old hold => by rw [hfree] at hold; cases hold
      exact h.write hwriter hnone hsame (.inl (congrArg some hb.symm))
  | updateMessage messageId u content =>
    cases r with
    | error e =>
      obtain rfl : st₁ = st := hperforms
      exact h.same
    | ok row =>
      obtain ⟨now, ws, hexec, rfl⟩ := hperforms
      rcases updateMessage_ok hexec with ⟨rfl, rfl⟩ | ⟨m, hreplaces, rfl, hrow⟩
      · exact h.same
      · have hown := broadcast_of_replaces hreplaces hcareful
        refine h.write hwriter hbefore (sameChat_of_replaces hreplaces) ?_
        cases row with
        | none => exact .inr hrow.symm
        | some row => exact .inl (congrArg some hown.symm)
  | softDeleteMessage messageId u =>
    cases r with
    | error e =>
      obtain rfl : st₁ = st := hperforms
      exact h.same
    | ok deleted =>
      obtain ⟨now, ws, hexec, rfl⟩ := hperforms
      rcases softDeleteMessage_ok hexec with ⟨rfl, rfl⟩ | ⟨m, hreplaces, rfl, rfl⟩
      · exact h.same
      · have hown := broadcast_of_replaces hreplaces hcareful
        exact h.write hwriter hbefore (sameChat_of_replaces hreplaces)
          (.inl (congrArg some hown.symm))
  | invalidateChat b =>
    obtain ⟨rfl, howed⟩ := hbefore
    obtain rfl : st₁ = _ := hperforms
    exact h.spawn hwriter howed
  | findMessageById messageId =>
    obtain rfl := ran_quiet (fun _ _ _ _ hexec => (by cases hexec; exact .inl rfl)) hperforms
    exact h.same
  | isBroadcastParticipant b u =>
    obtain rfl := ran_quiet (fun _ _ _ _ hexec => (by cases hexec; exact .inl rfl)) hperforms
    exact h.same
  | isActiveBroadcast b =>
    obtain rfl := ran_quiet (fun _ _ _ _ hexec => (by cases hexec; exact .inl rfl)) hperforms
    exact h.same
  | publishToRoom b payload =>
    obtain rfl := ran_quiet
      (fun _ _ _ _ hexec => (by cases hexec; exact .inr ⟨_, _, rfl⟩)) hperforms
    exact h.same

theorem ChatInv.call {c : ChatCall β} (h : ChatInv t requests st g)
    (hpre : (requests i).Before c (g i)) (hs : c.Answers t requests i st r st')
    (hcareful : c.Careful requests i st) :
    ChatInv t requests st' (Function.update g i ((g i).after (requests i).broadcastId c r)) := by
  cases c with
  | page c => exact h.page hpre hs hcareful
  | write c => exact h.write_call hpre hs hcareful

/-! ### Invalidations -/

/-- A task goes on: what it was to delete is deleted by it later. -/
theorem doomed_update {b₀ : Uuid} {old : Option Deletion} {task : Option (Uuid × Option Deletion)}
    (htask : st.tasks i = some (b₀, old))
    (hnew : b = b₀ → (∀ sw, old = some sw → sw.there key) →
      ∃ sw, task = some (b₀, some sw) ∧ sw.there key) (hdoomed : st.Doomed b key) :
    ChatStore.Doomed { st with tasks := Function.update st.tasks i task } b key := by
  have hother : ∀ j, j ≠ i → ∀ d, st.tasks j = some (b, d) →
      Function.update st.tasks i task j = some (b, d) :=
    fun j hj d hd => (Function.update_of_ne hj _ _).trans hd
  have hown : ∀ d, st.tasks i = some (b, d) → (∀ sw, d = some sw → sw.there key) →
      ∃ j sw, Function.update st.tasks i task j = some (b, some sw) ∧ sw.there key := by
    intro d hd hthere
    obtain ⟨rfl, rfl⟩ := Prod.mk.inj (Option.some.inj (htask.symm.trans hd))
    obtain ⟨sw, hsw, hkey⟩ := hnew rfl hthere
    exact ⟨i, sw, by rw [Function.update_self, hsw], hkey⟩
  rcases hdoomed with (howed | ⟨j, hj⟩) | ⟨j, sw, hj, hthere⟩
  · exact .inl (.inl howed)
  · by_cases hji : j = i
    · subst hji
      exact .inr (hown none hj fun sw hsw => by cases hsw)
    · exact .inl (.inr ⟨j, hother j hji _ hj⟩)
  · by_cases hji : j = i
    · subst hji
      exact .inr (hown _ hj fun sw' hsw => by cases hsw; exact hthere)
    · exact .inr ⟨j, sw, hother j hji _ hj, hthere⟩

/-- A task goes on, and removes some keys. -/
theorem ChatInv.retask (h : ChatInv t requests st g) (removed : List String)
    (task : Option (Uuid × Option Deletion)) (htask : TaskOk (requests i).broadcastId task)
    (hdoomed : ∀ query, ChatService.cacheKey query ∉ removed →
      Deletion.Present st.cache.entries st.cache.now (ChatService.cacheKey query) →
      st.Doomed query.broadcastId (ChatService.cacheKey query) →
      ChatStore.Doomed { st with tasks := Function.update st.tasks i task } query.broadcastId
        (ChatService.cacheKey query)) :
    ChatInv t requests
      { st with
        tasks := Function.update st.tasks i task
        cache := { st.cache with entries := st.cache.entries.remove removed } } g where
  owed := h.owed
  readers := h.readers
  tasks := tasks_update h.tasks htask
  entries key e he halive := by
    have he : (if key ∈ removed then none else st.cache.entries key) = some e := he
    split at he
    · cases he
    · rename_i hkept
      obtain ⟨query, rfl, hpage⟩ := h.entries key e he halive
      exact ⟨query, rfl, hpage.imp_right (hdoomed query hkept (present_of_alive he halive))⟩
  fetched := h.fetched

theorem ChatInv.background (h : ChatInv t requests st g) (hs : ChatStore.Background st st')
    (hnone : st.NoneFailed) : ChatInv t requests st' g := by
  cases hs with
  | cache hs =>
    refine h.recached fun key e he halive => ?_
    obtain ⟨he, halive⟩ := CacheState.entry_background hs he halive
    exact h.entries key e he halive
  | @begin i b htask rest =>
    have hnamed := (h.tasks i _ _ htask).1
    have hretask := h.retask (i := i) []
      (some (b, some (Deletion.start (chatPattern b) st.cache.entries st.cache.now rest)))
      (by rintro b d ⟨⟩; exact ⟨hnamed, by rintro sw ⟨⟩; exact Sweep.inv_start⟩)
      (fun query _ hpresent => doomed_update htask fun hb _ =>
        ⟨_, rfl, hb ▸ accepts_cacheKey query, hpresent⟩)
    rwa [Expiring.remove_nil] at hretask
  | @own i b sw sw' removed htask hown =>
    obtain ⟨hnamed, hinv⟩ := h.tasks i _ _ htask
    have hretask := h.retask (i := i) removed (some (b, some sw'))
      (by rintro b d ⟨⟩; exact ⟨hnamed, by rintro sw ⟨⟩; exact Sweep.inv_own (hinv _ rfl) hown⟩)
      (fun query hkept _ => doomed_update htask fun _ hthere =>
        ⟨_, rfl, Sweep.there_of_own hown (hthere sw rfl) hkept⟩)
    exact hretask.recached hretask.entries
  | @finish i b sw htask hover =>
    obtain ⟨-, hinv⟩ := h.tasks i _ _ htask
    have hended : sw.phase = .ended := by
      have hfailed := hnone i b sw htask
      unfold Sweep.Running at hover
      cases hphase : sw.phase with
      | scanning cursor => rw [hphase] at hover; exact absurd trivial hover
      | removing keys cursor => rw [hphase] at hover; exact absurd trivial hover
      | ended => rfl
      | failed => exact absurd hphase hfailed
    have hretask := h.retask (i := i) [] none (by rintro b d ⟨⟩)
      (fun query _ _ => doomed_update htask fun _ hthere =>
        absurd (hthere sw rfl) (Sweep.not_there_of_ended (hinv sw rfl) hended _))
    rwa [Expiring.remove_nil] at hretask

/-! ## Runs -/

/-- A run that begins with nothing under the keys. -/
theorem inv_of_steps {db : ChatDb} {now : Nat} {p : Pool ChatStore ChatCall ChatAnswer Nat}
    (h : CarefulSteps t requests (chatRequests requests db now) p) :
    p.Outlined (fun i => (requests i).Before) (fun i => ChatView.after (requests i).broadcastId)
      (fun _ _ g => g.owed = none) (ChatInv t requests) := by
  have hstart : ChatInv t requests (chatRequests requests db now).store fun _ => .nothing :=
    ⟨fun _ => rfl, fun _ _ _ => rfl, by rintro i b d ⟨⟩, by rintro key e ⟨⟩, by rintro i _ r _ ⟨⟩⟩
  exact Pool.outlined_of_steps (fun _ _ _ _ _ _ _ hpre hexec hinv => hinv.call hpre hexec.1 hexec.2)
    (fun _ _ _ hs hinv => hinv.background hs.1 hs.2) h
    ⟨_, hstart, fun i => outline_request (requests i)⟩

/-- With nothing left to be invalidated, every page is as the tables have it. -/
theorem ChatInv.fresh (h : ChatInv t requests st g) (howed : ∀ i, (g i).owed = none)
    (htasks : ∀ i, st.tasks i = none) {e : Entry ChatPage Nat} (he : st.cache.entries key = some e)
    (halive : Expiring.Alive e st.cache.now) : PageOf t st.db key e.value := by
  obtain ⟨query, hkey, hpage⟩ := h.entries key e he halive
  refine ⟨query, hkey, hpage.resolve_right ?_⟩
  rintro ((⟨i, hi⟩ | ⟨i, hi⟩) | ⟨i, sw, hi, -⟩)
  · rw [h.owed, howed] at hi
    cases hi
  · rw [htasks] at hi
    cases hi
  · rw [htasks] at hi
    cases hi

/-- The pages that are there when all have finished. -/
theorem fresh_of_finished {db : ChatDb} {now : Nat} {p : Pool ChatStore ChatCall ChatAnswer Nat}
    (h : CarefulSteps t requests (chatRequests requests db now) p) (hfinished : Finished requests p)
    {e : Entry ChatPage Nat} (he : p.store.cache.entries key = some e)
    (halive : Expiring.Alive e p.store.cache.now) : PageOf t p.store.db key e.value := by
  obtain ⟨hended, htasks⟩ := hfinished
  obtain ⟨g, hinv, hsettled⟩ := (inv_of_steps h).returned
  refine hinv.fresh (fun i => ?_) htasks he halive
  rcases hended i with ⟨r, hret⟩ | ⟨reader, hreq, -⟩
  · exact hsettled i r hret
  · exact hinv.readers i reader hreq

end Inv

end Meno
