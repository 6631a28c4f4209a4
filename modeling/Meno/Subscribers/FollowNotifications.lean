import Meno.Notifications.Sending
import Meno.Subscribers.Counters

/-!
# Meno.Subscribers.FollowNotifications

Subscribing notifies the user that is subscribed to. The insert does nothing for a user that is
subscribed already, the notification is sent all the same, and its actor is the user that was looked
up: the one that is notified.
-/

namespace Meno

open Lib

namespace FollowRuns

inductive FollowCall where
  | subscribe (authUserId subscriptionId : Uuid)
  | unsubscribe (authUserId subscriptionId : Uuid)

/-- What a call does not determine: the time, which statements of the subscription fail, and the
run of the notification. -/
structure FollowRun where
  now : OffsetDateTime
  faults : List Bool
  notify : NotifyRun

structure FollowStore where
  db : CountedDb
  notifications : NotificationsStore

structure Followed where
  result : Except SubscribersError Unit
  store : FollowStore
  created : List Notification := []

/-- `codes::USER_SUBSCRIBED`. -/
def userSubscribed : String := "user_subscribed"

-- `t` writes the ids of the links.
variable (t : CursorText)

/-- The user that was looked up is the actor; a failed notification is only logged. -/
def subscribe (run : FollowRun) (st : FollowStore) (authUserId subscriptionId : Uuid) : Followed :=
  match Txn.run countedEngine (SubscribersService.subscribe authUserId subscriptionId) st.db run.now
    run.faults with
  | (.error e, db) => { result := .error e, store := { st with db } }
  | (.ok (), db) =>
    let user := findUserById st.db subscriptionId
    let out := NotificationService.notify t run.notify st.notifications subscriptionId
      userSubscribed (user.map User.summary) none none
    { result := .ok (), store := { db, notifications := out.store }, created := out.created }

def unsubscribe (run : FollowRun) (st : FollowStore) (authUserId subscriptionId : Uuid) :
    Followed :=
  match Txn.run countedEngine (SubscribersService.unsubscribe authUserId subscriptionId) st.db
    run.now run.faults with
  | (result, db) => { result, store := { st with db } }

def FollowCall.run (run : FollowRun) (st : FollowStore) : FollowCall → Followed
  | .subscribe authUserId subscriptionId => FollowRuns.subscribe t run st authUserId subscriptionId
  | .unsubscribe authUserId subscriptionId => FollowRuns.unsubscribe run st authUserId subscriptionId

/-! ## Sequences of calls -/

/-- Who came to follow whom, and the notifications that were created, both in their order. -/
structure FollowLog where
  follows : List (Uuid × Uuid) := []
  notifications : List Notification := []

/-- The subscriptions that were not there before. -/
def newFollows (before after : CountedDb) : List (Uuid × Uuid) :=
  (after.subscribers.rows.map UserSubscriber.key).filter fun k => (before.subscribers.get k).isNone

def step (s : FollowStore × FollowLog) (c : FollowCall × FollowRun) : FollowStore × FollowLog :=
  let out := c.1.run t c.2 s.1
  (out.store, {
    follows := s.2.follows ++ newFollows s.1.db out.store.db
    notifications := s.2.notifications ++ out.created })

def history (st : FollowStore) (calls : List (FollowCall × FollowRun)) : FollowStore × FollowLog :=
  calls.foldl (step t) (st, {})

/-- Every user has as many notifications as came to follow, each with a follower for its actor. -/
structure FollowLog.Matches (log : FollowLog) : Prop where
  count : ∀ u, log.notifications.countP (fun n => n.ownerId = u) =
    log.follows.countP (fun p => p.2 = u)
  actor : ∀ n ∈ log.notifications, ∃ p ∈ log.follows, p.2 = n.ownerId ∧ n.actorId = some p.1

/-- The subscription is there, or it can be made. -/
def accepts (run : FollowRun) (db : CountedDb) (authUserId subscriptionId : Uuid) : Bool :=
  authUserId ≠ subscriptionId && !run.faults.headD false && !run.faults.tail.headD false &&
    (findUserById db subscriptionId).isSome &&
    ((db.subscribers.get (authUserId, subscriptionId)).isSome ||
      (findUserById db authUserId).isSome)

/-- The template is in the cache, or it can be found. -/
def available (fails : List NotifyStatement) (store : NotificationsStore) : Bool :=
  (store.templates userSubscribed).isSome || !fails.contains .findTemplateByCode &&
    (NotificationRepository.findTemplateByCode store userSubscribed).isSome

/-- There is a template, and the row can be inserted. -/
def notifies (run : NotifyRun) (store : NotificationsStore) : Bool :=
  available run.fails store && !run.fails.contains .create &&
    (store.db.notifications.get (run.ids 0)).isNone

/-- The call makes no subscription, and no notification. -/
def FollowCall.isSilent (run : FollowRun) (st : FollowStore) : FollowCall → Bool
  | .subscribe a b => !accepts run st.db a b ||
      (st.db.subscribers.get (a, b)).isSome && !notifies run.notify st.notifications
  | .unsubscribe _ _ => true

/-! ## One call -/

section Calls

variable {t} {run : FollowRun} {st : FollowStore} {db : CountedDb} {a b : Uuid}

/-- The statement of a call, after the user has been looked up. -/
theorem run_query (s : SubscriberStmt Unit) (now : OffsetDateTime) (faults : List Bool) :
    Txn.run countedEngine (SubscribersService.query (.findUserById b) >>= fun user =>
        match user with
        | none => throw .subscriberNotFound
        | some _ => SubscribersService.query s) db now faults =
      if faults.headD false then (.error (.database .infrastructure), db)
      else
        match findUserById db b with
        | none => (.error .subscriberNotFound, db)
        | some _ =>
          if faults.tail.headD false then (.error (.database .infrastructure), db)
          else
            match s.exec now db with
            | .error e => (.error (.database e), db)
            | .ok (_, ws) => (.ok (), ws.foldl CountedDb.apply db) := by
  have hfind : countedEngine.exec (.subscribers (.findUserById b)) now db =
      .ok (findUserById db b, []) := rfl
  have hs : countedEngine.exec (.subscribers s) now db = s.exec now db := rfl
  simp only [Txn.run, SubscribersService.query, Act.answer_bind, Act.answer_ask, Session.handle,
    Session.start, Session.tick, hfind]
  cases faults.headD false with
  | true => rfl
  | false =>
    simp only [Bool.false_eq_true, if_false, Engine.applyAll_nil]
    cases findUserById db b with
    | none => rfl
    | some user =>
      simp only [Act.answer_ask, Session.handle, hs]
      cases faults.tail.headD false with
      | true => rfl
      | false =>
        simp only [Bool.false_eq_true, if_false]
        cases s.exec now db <;> rfl

theorem run_subscribe (now : OffsetDateTime) (faults : List Bool) (hne : a ≠ b) :
    Txn.run countedEngine (SubscribersService.subscribe a b) db now faults =
      if faults.headD false then (.error (.database .infrastructure), db)
      else
        match findUserById db b with
        | none => (.error .subscriberNotFound, db)
        | some _ =>
          if faults.tail.headD false then (.error (.database .infrastructure), db)
          else
            match SubscribersRepository.create db now a b with
            | .error e => (.error (.database e), db)
            | .ok (_, ws) => (.ok (), ws.foldl CountedDb.apply db) := by
  rw [SubscribersService.subscribe, if_neg hne]
  exact run_query (.create a b) now faults

theorem create_eq (now : OffsetDateTime) (hne : a ≠ b) :
    SubscribersRepository.create db now a b =
      if (db.subscribers.get (a, b)).isSome then .ok ((), [])
      else if (findUserById db a).isSome && (findUserById db b).isSome then
        .ok ((), [.subscriber { subscriberId := a, subscriptionId := b, createdAt := now }])
      else .error .foreignKeyViolation := by
  unfold SubscribersRepository.create
  rw [if_neg hne]
  cases (db.subscribers.get (a, b)).isSome with
  | true => rfl
  | false =>
    have hcheck : ∀ id, BroadcastRepository.checkUser db.tables id =
        if (findUserById db id).isSome then .ok () else .error .foreignKeyViolation := fun _ => rfl
    simp only [hcheck, CountedDb.triggerFollowCounts_eq, Bool.false_eq_true, if_false,
      Bool.and_eq_true]
    by_cases ha : (findUserById db a).isSome = true
    · by_cases hb : (findUserById db b).isSome = true
      · rw [if_pos ha, if_pos hb, if_pos ⟨ha, hb⟩]
        rfl
      · have hboth : ¬ ((findUserById db a).isSome = true ∧ (findUserById db b).isSome = true) :=
          fun h => hb h.2
        rw [if_pos ha, if_neg hb, if_neg hboth]
        rfl
    · have hboth : ¬ ((findUserById db a).isSome = true ∧ (findUserById db b).isSome = true) :=
        fun h => ha h.1
      rw [if_neg ha, if_neg hboth]
      rfl

theorem subscribe_refused (h : accepts run st.db a b = false) :
    ∃ e, subscribe t run st a b = { result := .error e, store := st } := by
  unfold subscribe
  by_cases hne : a = b
  · rw [SubscribersService.subscribe, if_pos hne]
    exact ⟨.cannotSubscribeToSelf, rfl⟩
  · rw [run_subscribe _ _ hne, create_eq _ hne]
    unfold accepts at h
    cases hfirst : run.faults.headD false with
    | true => exact ⟨_, rfl⟩
    | false =>
      cases hfind : findUserById st.db b with
      | none => exact ⟨_, rfl⟩
      | some user =>
        cases hsecond : run.faults.tail.headD false with
        | true => exact ⟨_, rfl⟩
        | false =>
          rw [hfirst, hsecond, hfind, decide_eq_true hne] at h
          simp only [Bool.not_false, Bool.and_self, Option.isSome_some, Bool.true_and,
            Bool.or_eq_false_iff] at h
          rw [h.1, h.2]
          exact ⟨_, rfl⟩

theorem subscribe_accepted (h : accepts run st.db a b = true) :
    ∃ user, findUserById st.db b = some user ∧ a ≠ b ∧
      subscribe t run st a b =
        let out := NotificationService.notify t run.notify st.notifications b userSubscribed
          (some user.summary) none none
        { result := .ok ()
          store := {
            db := if (st.db.subscribers.get (a, b)).isSome then st.db
              else st.db.apply (.subscriber {
                subscriberId := a, subscriptionId := b, createdAt := run.now })
            notifications := out.store }
          created := out.created } := by
  simp only [accepts, Bool.and_eq_true, Bool.or_eq_true, Bool.not_eq_true', decide_eq_true_eq]
    at h
  obtain ⟨⟨⟨⟨hne, hfirst⟩, hsecond⟩, hfind⟩, hpair⟩ := h
  obtain ⟨user, huser⟩ := Option.isSome_iff_exists.1 hfind
  refine ⟨user, huser, hne, ?_⟩
  unfold subscribe
  rw [run_subscribe _ _ hne, create_eq _ hne, hfirst, hsecond, huser]
  cases hthere : (st.db.subscribers.get (a, b)).isSome with
  | true => rfl
  | false =>
    have ha : (findUserById st.db a).isSome = true := hpair.resolve_left (by simp [hthere])
    simp [ha]

theorem run_unsubscribe (now : OffsetDateTime) (faults : List Bool) (hne : a ≠ b) :
    Txn.run countedEngine (SubscribersService.unsubscribe a b) db now faults =
      if faults.headD false then (.error (.database .infrastructure), db)
      else
        match findUserById db b with
        | none => (.error .subscriberNotFound, db)
        | some _ =>
          if faults.tail.headD false then (.error (.database .infrastructure), db)
          else
            match SubscribersRepository.delete db a b with
            | .error e => (.error (.database e), db)
            | .ok (_, ws) => (.ok (), ws.foldl CountedDb.apply db) := by
  rw [SubscribersService.unsubscribe, if_neg hne]
  exact run_query (.delete a b) now faults

theorem unsubscribe_db : (unsubscribe run st a b).created = [] ∧
    ((unsubscribe run st a b).store.db = st.db ∨
      (unsubscribe run st a b).store.db = st.db.apply (.dropSubscriber a b)) := by
  refine ⟨rfl, ?_⟩
  simp only [unsubscribe]
  by_cases hne : a = b
  · rw [SubscribersService.unsubscribe, if_pos hne]
    exact .inl rfl
  · rw [run_unsubscribe _ _ hne]
    cases run.faults.headD false with
    | true => exact .inl rfl
    | false =>
      cases findUserById st.db b with
      | none => exact .inl rfl
      | some user =>
        cases run.faults.tail.headD false with
        | true => exact .inl rfl
        | false =>
          unfold SubscribersRepository.delete
          cases st.db.subscribers.get (a, b) with
          | none => exact .inl rfl
          | some row =>
            simp only [CountedDb.triggerFollowCounts_eq]
            exact .inr rfl

/-- The template is looked up without a change to the tables. -/
theorem getTemplate_cases (fails : List NotifyStatement) (store : NotificationsStore) :
    (available fails store = false ∧
      ∃ e, NotificationService.getTemplate store fails userSubscribed = .error e) ∨
    (available fails store = true ∧
      ∃ template store', NotificationService.getTemplate store fails userSubscribed =
        .ok (template, store') ∧ store'.db = store.db) := by
  unfold NotificationService.getTemplate available
  cases store.templates userSubscribed with
  | some template => exact .inr ⟨rfl, _, _, rfl, rfl⟩
  | none =>
    by_cases hfails : NotifyStatement.findTemplateByCode ∈ fails
    · exact .inl ⟨by simp [hfails], _, if_pos hfails⟩
    · rw [if_neg hfails]
      cases NotificationRepository.findTemplateByCode store userSubscribed with
      | none => exact .inl ⟨by simp, _, rfl⟩
      | some template => exact .inr ⟨by simp [hfails], _, _, rfl, rfl⟩

/-- The one notification is for the user and by the user. -/
theorem created_notify (run : NotifyRun) (store : NotificationsStore) (ownerId : Uuid)
    (actor : UserSummary) :
    (notifies run store = false ∧ (NotificationService.notify t run store ownerId userSubscribed
        (some actor) none none).created = []) ∨
      (notifies run store = true ∧ ∃ n, (NotificationService.notify t run store ownerId
          userSubscribed (some actor) none none).created = [n] ∧ n.ownerId = ownerId ∧
        n.actorId = some actor.id) := by
  unfold NotificationService.notify notifies
  rcases getTemplate_cases run.fails store with ⟨hno, e, hget⟩ | ⟨hyes, template, store', hget, hdb⟩
  · rw [hget, hno]
    exact .inl ⟨rfl, rfl⟩
  · rw [hyes]
    simp only [hget, hdb]
    by_cases hcreate : NotifyStatement.create ∈ run.fails
    · exact .inl ⟨by simp [hcreate], by rw [if_pos hcreate]⟩
    · rw [if_neg hcreate, NotificationsDb.insert]
      cases hid : store.db.notifications.get (run.ids 0) with
      | some m => exact .inl ⟨by simp, by simp only [NewNotification.row, hid]⟩
      | none =>
        simp only [NewNotification.row, hid]
        exact .inr ⟨by simp [hcreate], _, rfl, rfl, rfl⟩

theorem rows_notify (run : NotifyRun) (store : NotificationsStore) (ownerId : Uuid)
    (actor : Option UserSummary) :
    (NotificationService.notify t run store ownerId userSubscribed actor none
        none).store.db.notifications.rows =
      (NotificationService.notify t run store ownerId userSubscribed actor none
        none).created.reverse ++ store.db.notifications.rows := by
  unfold NotificationService.notify
  rcases getTemplate_cases run.fails store with ⟨-, e, hget⟩ | ⟨-, template, store', hget, hdb⟩
  · rw [hget]
    rfl
  · simp only [hget]
    by_cases hcreate : NotifyStatement.create ∈ run.fails
    · rw [if_pos hcreate, hdb]
      rfl
    · rw [if_neg hcreate, NotificationsDb.insert, hdb]
      cases hid : store.db.notifications.get (run.ids 0) with
      | some m =>
        simp only [NewNotification.row, hid, hdb]
        rfl
      | none =>
        simp only [NewNotification.row, hid]
        exact Table.rows_put_of_none hid

theorem newFollows_drop (db : CountedDb) (a b : Uuid) :
    newFollows db (db.apply (.dropSubscriber a b)) = [] := by
  rw [newFollows, List.filter_eq_nil_iff]
  intro k hk
  obtain ⟨row, hrow, rfl⟩ := List.mem_map.1 hk
  have hget := Table.mem_rows_iff.1 (Table.mem_erase_rows.1 hrow).1
  simp [hget]

theorem newFollows_self (db : CountedDb) : newFollows db db = [] := by
  rw [newFollows, List.filter_eq_nil_iff]
  intro k hk
  obtain ⟨row, hrow, rfl⟩ := List.mem_map.1 hk
  simp [Table.mem_rows_iff.1 hrow]

theorem newFollows_put {row : UserSubscriber} (h : (db.subscribers.get row.key).isSome = false) :
    newFollows db (db.apply (.subscriber row)) = [row.key] := by
  have hnone : db.subscribers.get row.key = none := by simpa using h
  have hrows : (db.apply (.subscriber row)).subscribers.rows = row :: db.subscribers.rows :=
    Table.rows_put_of_none hnone
  have hself : (db.subscribers.rows.map UserSubscriber.key).filter
      (fun k => (db.subscribers.get k).isNone) = [] := newFollows_self db
  rw [newFollows, hrows, List.map_cons, List.filter_cons, hnone, hself]
  rfl

/-- What the calls that are not silent do: they make a subscription, or a notification by the user
that is notified, or both. -/
theorem FollowCall.effect (c : FollowCall) (run : FollowRun) (st : FollowStore) :
    (c.isSilent run st = true ∧ newFollows st.db (c.run t run st).store.db = [] ∧
      (c.run t run st).created = []) ∨
    ∃ a b, a ≠ b ∧ c.isSilent run st = false ∧
      (newFollows st.db (c.run t run st).store.db = [(a, b)] ∧ (c.run t run st).created = [] ∨
        (newFollows st.db (c.run t run st).store.db = [] ∨
          newFollows st.db (c.run t run st).store.db = [(a, b)]) ∧
        ∃ n, (c.run t run st).created = [n] ∧ n.ownerId = b ∧ n.actorId = some b) := by
  cases c with
  | unsubscribe a b =>
    obtain ⟨hcreated, hdb | hdb⟩ := @unsubscribe_db run st a b
    · exact .inl ⟨rfl, by rw [FollowCall.run, hdb, newFollows_self], hcreated⟩
    · exact .inl ⟨rfl, by rw [FollowCall.run, hdb, newFollows_drop], hcreated⟩
  | subscribe a b =>
    rw [FollowCall.run, FollowCall.isSilent]
    cases haccepts : accepts run st.db a b with
    | false =>
      obtain ⟨e, hcall⟩ := subscribe_refused (t := t) haccepts
      rw [hcall]
      exact .inl ⟨rfl, newFollows_self st.db, rfl⟩
    | true =>
      obtain ⟨user, huser, hne, hcall⟩ := subscribe_accepted (t := t) haccepts
      have hkey : user.id = b := Table.key_of_get (show st.db.tables.users.get b = _ from huser)
      have hactor : user.summary.id = b := hkey
      have hcreated := created_notify (t := t) run.notify st.notifications b user.summary
      rw [hactor] at hcreated
      rw [hcall]
      dsimp only
      cases hthere : (st.db.subscribers.get (a, b)).isSome with
      | true =>
        rcases hcreated with ⟨hno, hcreated⟩ | ⟨hyes, hcreated⟩
        · exact .inl ⟨by rw [hno]; rfl, newFollows_self st.db, hcreated⟩
        · exact .inr ⟨a, b, hne, by rw [hyes]; rfl, .inr ⟨.inl (newFollows_self st.db), hcreated⟩⟩
      | false =>
        have hnew : newFollows st.db (st.db.apply (.subscriber {
            subscriberId := a, subscriptionId := b, createdAt := run.now })) = [(a, b)] :=
          newFollows_put hthere
        refine .inr ⟨a, b, hne, rfl, ?_⟩
        rcases hcreated with ⟨-, hcreated⟩ | ⟨-, hcreated⟩
        · exact .inl ⟨hnew, hcreated⟩
        · exact .inr ⟨.inr hnew, hcreated⟩

end Calls

/-! ## Histories -/

section Histories

variable {t} {st : FollowStore} {calls : List (FollowCall × FollowRun)}

theorem history_concat (c : FollowCall × FollowRun) :
    history t st (calls ++ [c]) = step t (history t st calls) c := by
  rw [history, List.foldl_append]
  rfl

/-- Nobody follows themselves. -/
theorem ne_of_follows (calls : List (FollowCall × FollowRun)) :
    ∀ p ∈ (history t st calls).2.follows, p.1 ≠ p.2 := by
  induction calls using List.reverseRecOn with
  | nil => exact fun p hp => absurd hp List.not_mem_nil
  | append_singleton calls c ih =>
    intro p hp
    rw [history_concat] at hp
    rcases List.mem_append.1 hp with hp | hp
    · exact ih p hp
    · rcases c.1.effect (t := t) c.2 (history t st calls).1 with ⟨-, hnew, -⟩ | ⟨a, b, hne, -, h⟩
      · rw [hnew] at hp
        exact absurd hp List.not_mem_nil
      · rcases h with ⟨hnew, -⟩ | ⟨hnew | hnew, -⟩
        · rw [hnew, List.mem_singleton] at hp
          rwa [hp]
        · rw [hnew] at hp
          exact absurd hp List.not_mem_nil
        · rw [hnew, List.mem_singleton] at hp
          rwa [hp]

/-- Every call is silent in the state in which it is made. -/
def Silent (t : CursorText) (st : FollowStore) (calls : List (FollowCall × FollowRun)) : Prop :=
  ∀ before c, before ++ [c] <+: calls → c.1.isSilent c.2 (history t st before).1 = true

theorem log_of_silent (h : Silent t st calls) : (history t st calls).2 = {} := by
  induction calls using List.reverseRecOn with
  | nil => rfl
  | append_singleton calls c ih =>
    have hlog := ih fun before c' hbefore => h before c' (hbefore.trans (List.prefix_append _ _))
    have hlast := h calls c (List.prefix_refl _)
    rcases c.1.effect (t := t) c.2 (history t st calls).1 with ⟨-, hnew, hcreated⟩ |
      ⟨a, b, -, hloud, -⟩
    · rw [history_concat, step, hlog, hnew, hcreated]
      rfl
    · rw [hlast] at hloud
      cases hloud

/-- What the log says after each call, the call had to be silent for. -/
theorem silent_of_matches (h : ∀ before, before <+: calls → (history t st before).2.Matches) :
    Silent t st calls := by
  intro before c hprefix
  have hmatch := h before ((List.prefix_append _ _).trans hprefix)
  have hmatch' := h (before ++ [c]) hprefix
  rcases c.1.effect (t := t) c.2 (history t st before).1 with ⟨hsilent, -⟩ |
    ⟨a, b, -, -, ⟨hnew, hcreated⟩ | ⟨-, n, hcreated, howner, hactor⟩⟩
  · exact hsilent
  · -- One more follower, and no notification.
    have hcount := hmatch.count b
    have hcount' := hmatch'.count b
    rw [history_concat] at hcount'
    simp only [step, hnew, hcreated, List.append_nil, List.countP_append] at hcount'
    simp [hcount] at hcount'
  · -- The actor of the notification is its owner, who does not follow himself.
    have hn : n ∈ (history t st (before ++ [c])).2.notifications := by
      rw [history_concat]
      exact List.mem_append_right _ (hcreated ▸ List.mem_singleton.2 rfl)
    obtain ⟨p, hp, hpair, hpactor⟩ := hmatch'.actor n hn
    have hself : p.1 = p.2 := by
      rw [hpair, howner]
      exact Option.some.inj (hpactor.symm.trans hactor)
    exact absurd hself (ne_of_follows _ p hp)

theorem FollowCall.rows (c : FollowCall) (run : FollowRun) (st : FollowStore) :
    (c.run t run st).store.notifications.db.notifications.rows =
      (c.run t run st).created.reverse ++ st.notifications.db.notifications.rows := by
  cases c with
  | unsubscribe a b => rfl
  | subscribe a b =>
    rw [FollowCall.run]
    cases haccepts : accepts run st.db a b with
    | false =>
      obtain ⟨e, hcall⟩ := subscribe_refused (t := t) haccepts
      rw [hcall]
      rfl
    | true =>
      obtain ⟨user, -, -, hcall⟩ := subscribe_accepted (t := t) haccepts
      rw [hcall]
      exact rows_notify run.notify st.notifications b (some user.summary)

/-- The table has got the notifications of the log. -/
theorem rows_history (calls : List (FollowCall × FollowRun)) :
    (history t st calls).1.notifications.db.notifications.rows =
      (history t st calls).2.notifications.reverse ++ st.notifications.db.notifications.rows := by
  induction calls using List.reverseRecOn with
  | nil => rfl
  | append_singleton calls c ih =>
    have hcall := c.1.rows (t := t) c.2 (history t st calls).1
    rw [ih] at hcall
    rw [history_concat, step, List.reverse_append, List.append_assoc]
    exact hcall

/-- The notifications that the table has got since `st` match the follows. -/
def Matched (st : FollowStore) (s : FollowStore × FollowLog) : Prop :=
  ∃ created, s.1.notifications.db.notifications.rows =
      created.reverse ++ st.notifications.db.notifications.rows ∧
    FollowLog.Matches { follows := s.2.follows, notifications := created }

theorem matched_iff : Matched st (history t st calls) ↔ (history t st calls).2.Matches := by
  have hrows := @rows_history t st calls
  constructor
  · rintro ⟨created, hcreated, hmatches⟩
    have hlog : created = (history t st calls).2.notifications :=
      List.reverse_inj.1 (List.append_cancel_right (hcreated.symm.trans hrows))
    rwa [hlog] at hmatches
  · exact fun h => ⟨_, hrows, h⟩

/-- **Notifications match follows** throughout, exactly if nobody comes to follow anybody and
nothing is notified. -/
theorem notifications_match_iff (t : CursorText) (st : FollowStore)
    (calls : List (FollowCall × FollowRun)) :
    (∀ before, before <+: calls → Matched st (history t st before)) ↔ Silent t st calls := by
  refine ⟨fun h => silent_of_matches fun before hprefix => matched_iff.1 (h before hprefix),
    fun h before hprefix => matched_iff.2 ?_⟩
  rw [log_of_silent fun before' c hbefore => h before' c (hbefore.trans hprefix)]
  exact ⟨fun u => rfl, fun n hn => absurd hn List.not_mem_nil⟩

end Histories

def named (id : Uuid) (fullName : String) : User where
  id := id
  fullName := fullName
  bio := none
  avatarId := none
  avatarUrl := none
  deletedAt := none

/-- Ann and Bob, and the template. -/
def annAndBob : FollowStore where
  db := .ofUsers ((Table.empty.put (named ⟨1⟩ "Ann")).put (named ⟨2⟩ "Bob"))
  notifications := .first {
    id := ⟨5⟩, type := userSubscribed, title := "New Follower"
    body := "\x7bactor\x7d started following you", imageUrl := none } none

def annFollowsBob : FollowCall × FollowRun :=
  (.subscribe ⟨1⟩ ⟨2⟩, ⟨0, [], .first ⟨TemplateVars.entries, fun _ => .refl _⟩⟩)

/-- Bob is told that Bob follows him. -/
theorem wrong_follower_named :
    ¬ ∀ (t : CursorText) (st : FollowStore) (calls : List (FollowCall × FollowRun)),
      ∀ before, before <+: calls → Matched st (history t st before) := by
  intro h
  have hsilent := silent_of_matches (fun before hprefix => matched_iff.1
    (h .urlSafe annAndBob [annFollowsBob] before hprefix)) [] annFollowsBob (List.prefix_refl _)
  exact absurd hsilent (by decide)

end FollowRuns

end Meno
