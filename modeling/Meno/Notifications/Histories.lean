import Meno.Lib.RowHistory
import Meno.Lib.Timeline
import Meno.Notifications.UnreadCount

/-!
# Meno.Notifications.Histories

The life of a notification. It is created unread, its owner reads it, once, and only its owner
deletes it; nothing of it changes but whether and when it was read. A deletion is a call and then a task, with any number of
steps between the two (`TasksFrom`).
-/

namespace Meno

open Lib

/-! ## Who does what -/

/-- The new rows of a call. -/
def UnreadEvent.creates : UnreadEvent → List NewNotification
  | .call (.notify n) false => [n]
  | .call (.notifyMany ns) false => ns
  | _ => []

/-- The owner reads it, or all of the own ones. -/
def UnreadEvent.MarksRead (n : Notification) (now : OffsetDateTime) (e : UnreadEvent) : Prop :=
  e = .call (.markRead n.id n.ownerId now) false ∨ e = .call (.markAllRead n.ownerId now) false

/-- The owner asks for the deletion. -/
def UnreadEvent.Deletes (n : Notification) (e : UnreadEvent) : Prop :=
  e = .call (.delete n.id n.ownerId) false

/-- What a step of the run `es` makes of the row of `id`. -/
inductive NotificationStep (es : List UnreadEvent) (id : Uuid) :
    Option Notification → Option Notification → Prop
  | stays (o : Option Notification) : NotificationStep es id o o
  | created {e : UnreadEvent} {n : NewNotification} : e ∈ es → n ∈ e.creates → n.id = id →
      NotificationStep es id none (some n.row)
  | read {e : UnreadEvent} {n : Notification} {now : OffsetDateTime} : e ∈ es →
      e.MarksRead n now → n.id = id → n.read = false →
      NotificationStep es id (some n) (some (n.asRead now))
  | deleted {e : UnreadEvent} {n : Notification} : e ∈ es → e.Deletes n → n.id = id →
      NotificationStep es id (some n) none

namespace NotificationsDb

variable {db db' : NotificationsDb} {id u : Uuid} {now : OffsetDateTime}

theorem get_insert {n : Notification} (h : db.insert n = .ok db') (id : Uuid) :
    db'.notifications.get id = db.notifications.get id ∨
      db.notifications.get id = none ∧ n.id = id ∧ db'.notifications.get id = some n := by
  unfold insert at h
  split at h
  · cases h
  · rename_i hnone
    obtain rfl := Except.ok.inj h
    by_cases hid : id = n.id
    · subst hid
      exact .inr ⟨hnone, rfl, Table.get_put_self _ _⟩
    · exact .inl ((Table.get_put _ _ _).trans (if_neg hid))

/-- By induction on the rows: the first of the new ones with the id stays. -/
theorem get_insertAll {ns : List NewNotification} (id : Uuid) :
    (ns.foldl (fun db n => db.insertOrIgnore n.row) db).notifications.get id =
        db.notifications.get id ∨
      db.notifications.get id = none ∧ ∃ n ∈ ns, n.id = id ∧
        (ns.foldl (fun db n => db.insertOrIgnore n.row) db).notifications.get id = some n.row := by
  induction ns generalizing db with
  | nil => exact .inl rfl
  | cons n ns ih =>
    have hfirst : (db.insertOrIgnore n.row).notifications.get id = db.notifications.get id ∨
        db.notifications.get id = none ∧ n.id = id ∧
          (db.insertOrIgnore n.row).notifications.get id = some n.row := by
      unfold insertOrIgnore
      cases h : db.insert n.row with
      | error e => exact .inl rfl
      | ok db' => exact get_insert h id
    rw [List.foldl_cons]
    rcases @ih (db.insertOrIgnore n.row) with hrest | ⟨hnone, m, hm, hid, hrest⟩
    · rw [hrest]
      rcases hfirst with hfirst | ⟨hnone, hid, hfirst⟩
      · exact .inl hfirst
      · exact .inr ⟨hnone, n, List.mem_cons_self, hid, hfirst⟩
    · rcases hfirst with hfirst | ⟨-, -, hfirst⟩
      · exact .inr ⟨hfirst ▸ hnone, m, List.mem_cons_of_mem n hm, hid, hrest⟩
      · rw [hfirst] at hnone
        cases hnone

theorem get_markRead (h : db.markRead id u now = some db') (id' : Uuid) :
    db'.notifications.get id' = db.notifications.get id' ∨
      ∃ n, db.notifications.get id' = some n ∧ n.id = id ∧ n.ownerId = u ∧ n.read = false ∧
        db'.notifications.get id' = some (n.asRead now) := by
  obtain ⟨n, hn, rfl⟩ := Option.map_eq_some_iff.1 h
  obtain ⟨hget, hunread⟩ := Option.filter_eq_some_iff.1 hn
  obtain ⟨howner, hread⟩ : n.ownerId = u ∧ n.read = false := by simpa using hunread
  obtain rfl : n.id = id := Table.key_of_get hget
  by_cases hid : id' = n.id
  · subst hid
    have hput := Table.get_put_self db.notifications (n.asRead now)
    exact .inr ⟨n, hget, rfl, howner, hread, hput⟩
  · exact .inl ((Table.get_put _ _ _).trans (if_neg hid))

theorem get_markAllRead (id : Uuid) : (db.markAllRead u now).notifications.get id =
    (db.notifications.get id).map fun n => if n.unread u then n.asRead now else n :=
  Table.get_modify _ (fun n => by split <;> rfl) _

theorem get_delete (id' : Uuid) : (db.delete id u).notifications.get id' =
    (db.notifications.get id').filter fun n => !(n.id == id && n.ownerId == u) :=
  Table.get_filter _ _ _

end NotificationsDb

namespace UnreadState

open NotificationsDb

/-- Every deletion that is under way was asked for. -/
def TasksFrom (es : List UnreadEvent) (st : UnreadState) : Prop :=
  ∀ id u w, .delete id u w ∈ st.tasks → .call (.delete id u) false ∈ es

variable {es : List UnreadEvent} {st : UnreadState} {e : UnreadEvent} {fails : Bool}

/-! ## One step -/

theorem tasksFrom_append {db : NotificationsDb} {tasks : List UnreadTask} (h : TasksFrom es st)
    (ht : ∀ id u w, .delete id u w ∈ tasks → .call (.delete id u) false ∈ es) :
    TasksFrom es { st with db, tasks := st.tasks ++ tasks } := by
  intro id u w hmem
  rcases List.mem_append.1 hmem with hmem | hmem
  · exact h id u w hmem
  · exact ht id u w hmem

theorem TasksFrom.call (h : TasksFrom es st) {c : NotificationCall} (hc : .call c fails ∈ es) :
    TasksFrom es (st.call fails c) := by
  cases c with
  | notify n =>
    simp only [UnreadState.call]
    split
    · split
      · exact h
      · exact tasksFrom_append h (by simp)
    · exact h
  | notifyMany ns =>
    simp only [UnreadState.call]
    split
    · exact h
    · exact tasksFrom_append h (by simp)
  | markRead id u now =>
    simp only [UnreadState.call]
    split
    · split
      · exact h
      · exact tasksFrom_append h (by simp)
    · exact h
  | markAllRead u now =>
    simp only [UnreadState.call]
    split
    · exact h
    · exact tasksFrom_append h (by simp)
  | delete id u =>
    cases fails with
    | true => exact h
    | false =>
      refine tasksFrom_append h ?_
      intro id' u' w hmem
      cases List.mem_singleton.1 hmem
      exact hc

theorem TasksFrom.task (h : TasksFrom es st) (t : UnreadTask) :
    TasksFrom es (st.task fails t) := by
  cases fails with
  | true => cases t <;> exact h
  | false =>
    cases t with
    | delete id u w =>
      refine tasksFrom_append h ?_
      cases w <;> simp
    | _ => exact h

theorem TasksFrom.step (h : TasksFrom es st) (he : e ∈ es) : TasksFrom es (st.step e) := by
  cases e with
  | call c fails => exact h.call he
  | task i fails =>
    rw [UnreadState.step]
    cases hi : st.tasks[i]? with
    | none => exact h
    | some t =>
      refine TasksFrom.task ?_ t
      exact fun id u w hmem => h id u w (List.mem_of_mem_eraseIdx hmem)
  | expire u => exact h

theorem row_call {c : NotificationCall} (hc : .call c fails ∈ es) (id : Uuid) :
    NotificationStep es id (st.db.notifications.get id)
      ((st.call fails c).db.notifications.get id) := by
  cases fails with
  | true =>
    cases c <;> simp only [UnreadState.call] <;>
      first | exact .stays _ | (split <;> exact .stays _)
  | false =>
    cases c with
    | notify n =>
      simp only [UnreadState.call]
      split
      · rename_i db hins
        rcases get_insert hins id with hget | ⟨hnone, hid, hget⟩
        · exact hget ▸ .stays _
        · rw [hnone]
          exact hget ▸ .created hc List.mem_cons_self hid
      · exact .stays _
    | notifyMany ns =>
      show NotificationStep es id _
        ((ns.foldl (fun db n => db.insertOrIgnore n.row) st.db).notifications.get id)
      rcases @get_insertAll st.db ns id with hget | ⟨hnone, n, hn, hid, hget⟩
      · exact hget ▸ .stays _
      · rw [hnone]
        exact hget ▸ .created hc hn hid
    | markRead id' u now =>
      simp only [UnreadState.call]
      split
      · rename_i db hread
        rcases get_markRead hread id with hget | ⟨n, hn, hid', rfl, hunread, hget⟩
        · exact hget ▸ .stays _
        · obtain rfl : n.id = id := Table.key_of_get hn
          rw [hn]
          exact hget ▸ .read hc (.inl (by rw [hid'])) rfl hunread
      · exact .stays _
    | markAllRead u now =>
      show NotificationStep es id _ ((st.db.markAllRead u now).notifications.get id)
      rw [get_markAllRead]
      cases hn : st.db.notifications.get id with
      | none => exact .stays _
      | some n =>
        rw [Option.map_some]
        split
        · rename_i hunread
          simp only [Notification.unread, Bool.and_eq_true, beq_iff_eq,
            Bool.not_eq_true'] at hunread
          exact .read hc (.inr (by rw [hunread.1.1])) (Table.key_of_get hn) hunread.1.2
        · exact .stays _
    | delete id' u => exact .stays _

theorem row_task (st : UnreadState) {t : UnreadTask}
    (ht : ∀ id u w, t = .delete id u w → .call (.delete id u) false ∈ es) (id : Uuid) :
    NotificationStep es id (st.db.notifications.get id)
      ((st.task fails t).db.notifications.get id) := by
  cases fails with
  | true => cases t <;> exact .stays _
  | false =>
    cases t with
    | delete id' u w =>
      show NotificationStep es id _ ((st.db.delete id' u).notifications.get id)
      rw [get_delete]
      cases hn : st.db.notifications.get id with
      | none => exact .stays _
      | some n =>
        rw [Option.filter_some]
        split
        · exact .stays _
        · rename_i hdel
          simp only [Bool.not_eq_true', Bool.not_eq_false, Bool.and_eq_true, beq_iff_eq] at hdel
          obtain ⟨rfl, rfl⟩ := hdel
          exact .deleted (ht _ _ _ rfl) rfl (Table.key_of_get hn)
    | _ => exact .stays _

theorem row_step (h : TasksFrom es st) (he : e ∈ es) (id : Uuid) :
    NotificationStep es id (st.db.notifications.get id)
      ((st.step e).db.notifications.get id) := by
  cases e with
  | call c fails => exact row_call he id
  | task i fails =>
    rw [UnreadState.step]
    cases hi : st.tasks[i]? with
    | none => exact .stays _
    | some t =>
      refine row_task { st with tasks := st.tasks.eraseIdx i } ?_ id
      rintro id' u w rfl
      exact h id' u w (List.mem_of_getElem? hi)
  | expire u => exact .stays _

/-! ## Runs -/

/-- The rows of `id` after the steps of a run. -/
def rowsAfter (id : Uuid) : UnreadState → List UnreadEvent → List (Option Notification)
  | _, [] => []
  | st, e :: es => (st.step e).db.notifications.get id :: rowsAfter id (st.step e) es

theorem row_run (id : Uuid) (es : List UnreadEvent) : ∀ st : UnreadState,
    (es.foldl step st).db.notifications.get id =
      (rowsAfter id st es).getLast?.getD (st.db.notifications.get id) := by
  induction es with
  | nil => exact fun _ => rfl
  | cons e es ih =>
    intro st
    rw [List.foldl_cons, ih, rowsAfter, List.getLast?_cons]
    rfl

/-- By induction on the rest of the run. -/
theorem isChain_rowsAfter (id : Uuid) (rest : List UnreadEvent) : ∀ st : UnreadState,
    TasksFrom es st → (∀ e ∈ rest, e ∈ es) → List.IsChain (NotificationStep es id)
      (st.db.notifications.get id :: rowsAfter id st rest) := by
  induction rest with
  | nil => exact fun _ _ _ => .singleton _
  | cons e rest ih =>
    intro st h hes
    have he : e ∈ es := hes e List.mem_cons_self
    have hrest := ih _ (h.step he) fun e' he' => hes e' (List.mem_cons_of_mem e he')
    exact .cons_cons (row_step h he id) hrest

/-- It is the same notification, but for its owner's having read it. -/
def SameNotification (es : List UnreadEvent) (n n' : Notification) : Prop :=
  n' = n ∨ ∃ now, n.read = false ∧ n' = n.asRead now ∧ ∃ e ∈ es, e.MarksRead n now

theorem SameNotification.read {n n' : Notification} {now : OffsetDateTime}
    (h : SameNotification es n n') (he : e ∈ es) (hmarks : e.MarksRead n' now)
    (hread : n'.read = false) : SameNotification es n (n'.asRead now) := by
  rcases h with rfl | ⟨_, -, rfl, -⟩
  · exact .inr ⟨now, hread, rfl, e, he, hmarks⟩
  · cases hread

/-- What is stored was there before the run, or a call of the run has created it. -/
def Originates (db : NotificationsDb) (es : List UnreadEvent) (id : Uuid)
    (o : Option Notification) : Prop :=
  ∀ n' ∈ o, ∃ n, (db.notifications.get id = some n ∨ ∃ e ∈ es, ∃ c ∈ e.creates, c.row = n) ∧
    SameNotification es n n'

theorem originates_step {db : NotificationsDb} {id : Uuid} (o o' : Option Notification)
    (h : Originates db es id o) (hs : NotificationStep es id o o') : Originates db es id o' := by
  cases hs with
  | stays => exact h
  | created he hc hid =>
    rintro n' ⟨⟩
    exact ⟨_, .inr ⟨_, he, _, hc, rfl⟩, .inl rfl⟩
  | read he hmarks hid hread =>
    rintro n' ⟨⟩
    obtain ⟨n, hn, hsame⟩ := h _ rfl
    exact ⟨n, hn, hsame.read he hmarks hread⟩
  | deleted => nofun

/-- The notification is still there. -/
def Remains (es : List UnreadEvent) (n : Notification) (o : Option Notification) : Prop :=
  ∃ n', o = some n' ∧ SameNotification es n n'

theorem remains_step {id : Uuid} {n : Notification} (hdel : ∀ e ∈ es, ¬ e.Deletes n)
    (o o' : Option Notification) (h : Remains es n o) (hs : NotificationStep es id o o') :
    Remains es n o' := by
  obtain ⟨n', rfl, hsame⟩ := h
  cases hs with
  | stays => exact ⟨n', rfl, hsame⟩
  | read he hmarks hid hread => exact ⟨_, rfl, hsame.read he hmarks hread⟩
  | deleted he hd hid =>
    refine absurd ?_ (hdel _ he)
    rcases hsame with rfl | ⟨_, -, rfl, -⟩ <;> exact hd

/-- `life`: the rows that are stored under an id make the steps of a life. `origin`: what is stored
in the end was there at the beginning or was created by a call. `kept`: what is stored at any moment
stays, until its owner asks for its deletion. -/
structure NotificationHistory (db : NotificationsDb) (es : List UnreadEvent) : Prop where
  life : ∀ id, List.IsChain (NotificationStep es id)
    (db.notifications.get id :: rowsAfter id (start db) es)
  origin : ∀ id, Originates db es id ((run db es).db.notifications.get id)
  kept : ∀ es₁ es₂, es = es₁ ++ es₂ → ∀ id n, (run db es₁).db.notifications.get id = some n →
    (∀ e ∈ es, ¬ e.Deletes n) → Remains es n ((run db es).db.notifications.get id)

theorem notification_history (db : NotificationsDb) (es : List UnreadEvent) :
    NotificationHistory db es := by
  have hstart : TasksFrom es (start db) := nofun
  have hlife : ∀ id, List.IsChain (NotificationStep es id)
      (db.notifications.get id :: rowsAfter id (start db) es) := fun id =>
    isChain_rowsAfter id es _ hstart fun e he => he
  refine ⟨hlife, fun id => ?_, ?_⟩
  · rw [run, row_run]
    exact getLast_of_isChain originates_step (hlife id) fun n hn => ⟨n, .inl hn, .inl rfl⟩
  · rintro es₁ es₂ rfl id n hn hdel
    have htasks : TasksFrom (es₁ ++ es₂) (run db es₁) :=
      foldl_keeps (fun _ _ h he => h.step he) hstart fun e he => List.mem_append_left es₂ he
    have hrest := isChain_rowsAfter id es₂ _ htasks fun e he => List.mem_append_right es₁ he
    have hremains : Remains (es₁ ++ es₂) n ((run db es₁).db.notifications.get id) :=
      ⟨n, hn, .inl rfl⟩
    rw [run, List.foldl_append, row_run]
    exact getLast_of_isChain (remains_step hdel) hrest hremains

end UnreadState

end Meno
