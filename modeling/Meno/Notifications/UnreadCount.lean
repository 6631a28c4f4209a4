import Mathlib.Data.List.Count
import Mathlib.Data.List.Perm.Basic
import Meno.Notifications.Listing

/-!
# Meno.Notifications.UnreadCount

The unread counter in Redis and the calls that move it. A call changes the table first and the
counter later, in a call of its own that other calls may overtake; `notify_many` leaves its
increments to a task. What is still to be done to the counter and the counter itself add up to the
unread notifications (`Settled`), as long as no key is created or set at a time when they do not
(`Counts`).
-/

namespace Meno

open Lib

/-! ## Statements -/

/-- What `count_unread` counts. -/
def Notification.unread (ownerId : Uuid) (n : Notification) : Bool :=
  n.ownerId == ownerId && !n.read && n.archivedAt.isNone

def Notification.asRead (now : OffsetDateTime) (n : Notification) : Notification :=
  { n with read := true, readAt := some now }

namespace NotificationsDb

variable (db : NotificationsDb)

def insert (n : Notification) : Except DbError NotificationsDb :=
  match db.notifications.get n.id with
  | some _ => .error .uniqueViolation
  | none => .ok { db with notifications := db.notifications.put n }

/-- `ON CONFLICT DO NOTHING`. -/
def insertOrIgnore (n : Notification) : NotificationsDb :=
  match db.insert n with
  | .ok db => db
  | .error _ => db

def countUnread (ownerId : Uuid) : Nat := db.notifications.rows.countP (Notification.unread ownerId)

def isUnread (id ownerId : Uuid) : Bool :=
  (db.notifications.get id).any fun n => n.ownerId == ownerId && !n.read

/-- Nothing if no row is updated. -/
def markRead (id ownerId : Uuid) (now : OffsetDateTime) : Option NotificationsDb :=
  ((db.notifications.get id).filter fun n => n.ownerId == ownerId && !n.read).map fun n =>
    { db with notifications := db.notifications.put (n.asRead now) }

def markAllRead (ownerId : Uuid) (now : OffsetDateTime) : NotificationsDb :=
  { db with
    notifications := db.notifications.modify
      (fun n => if n.unread ownerId then n.asRead now else n)
      (fun n => by split <;> rfl) }

def delete (id ownerId : Uuid) : NotificationsDb :=
  { db with notifications := db.notifications.filter fun n => !(n.id == id && n.ownerId == ownerId) }

end NotificationsDb

/-! ## Calls -/

/-- What is left of a call, or of a task that it spawned. -/
inductive UnreadTask where
  | incr (ownerId : Uuid)
  | decrementUnread (ownerId : Uuid)
  /-- The `SET` of `mark_all_read`. -/
  | reset (ownerId : Uuid)
  /-- `delete` after `is_unread`. -/
  | delete (id ownerId : Uuid) (wasUnread : Bool)
deriving DecidableEq

def UnreadTask.ownerId : UnreadTask → Uuid
  | incr ownerId => ownerId
  | decrementUnread ownerId => ownerId
  | reset ownerId => ownerId
  | delete _ ownerId _ => ownerId

/-- The rows as they are created, with the ids and the time that the database gives them. -/
structure NewNotification where
  id : Uuid
  ownerId : Uuid
  templateId : Uuid
  actorId : Option Uuid
  broadcastId : Option Uuid
  createdAt : OffsetDateTime
deriving DecidableEq

def NewNotification.row (n : NewNotification) : Notification :=
  { n with read := false, readAt := none, archivedAt := none }

inductive NotificationCall where
  | notify (n : NewNotification)
  | notifyMany (ns : List NewNotification)
  | markRead (id ownerId : Uuid) (now : OffsetDateTime)
  | markAllRead (ownerId : Uuid) (now : OffsetDateTime)
  | delete (id ownerId : Uuid)

structure UnreadState where
  db : NotificationsDb
  /-- `u:{id}:unread`. -/
  counter : Uuid → Option Int
  tasks : List UnreadTask

namespace UnreadState

variable (st : UnreadState)

/-- The first statement of a call; if that fails, the call does. -/
def call (fails : Bool) : NotificationCall → UnreadState
  | .notify n =>
    match st.db.insert n.row with
    | .ok db => if fails then st else { st with db, tasks := st.tasks ++ [.incr n.ownerId] }
    | .error _ => st
  | .notifyMany ns =>
    if fails then st
    else
      { st with
        db := ns.foldl (fun db n => db.insertOrIgnore n.row) st.db
        tasks := st.tasks ++ ns.map fun n => .incr n.ownerId }
  | .markRead id ownerId now =>
    match st.db.markRead id ownerId now with
    | some db => if fails then st else { st with db, tasks := st.tasks ++ [.decrementUnread ownerId] }
    | none => st
  | .markAllRead ownerId now =>
    if fails then st
    else { st with db := st.db.markAllRead ownerId now, tasks := st.tasks ++ [.reset ownerId] }
  | .delete id ownerId =>
    if fails then st
    else { st with tasks := st.tasks ++ [.delete id ownerId (st.db.isUnread id ownerId)] }

def set (ownerId : Uuid) (n : Option Int) : UnreadState :=
  { st with counter := Function.update st.counter ownerId n }

/-- The next call of a task. -/
def task (fails : Bool) : UnreadTask → UnreadState
  | .incr ownerId =>
    if fails then st else st.set ownerId (some ((st.counter ownerId).getD 0 + 1))
  | .decrementUnread ownerId =>
    let v := (st.counter ownerId).getD 0 - 1
    if fails then st else st.set ownerId (some (if v < 0 then 0 else v))
  | .reset ownerId => if fails then st else st.set ownerId (some 0)
  | .delete id ownerId wasUnread =>
    if fails then st
    else
      { st with
        db := st.db.delete id ownerId
        tasks := st.tasks ++ if wasUnread then [.decrementUnread ownerId] else [] }

end UnreadState

inductive UnreadEvent where
  | call (c : NotificationCall) (fails : Bool)
  /-- The next call of the `i`-th task. -/
  | task (i : Nat) (fails : Bool)
  | expire (ownerId : Uuid)

namespace UnreadState

def step (st : UnreadState) : UnreadEvent → UnreadState
  | .call c fails => st.call fails c
  | .task i fails =>
    match st.tasks[i]? with
    | some task => { st with tasks := st.tasks.eraseIdx i }.task fails task
    | none => st
  | .expire ownerId => st.set ownerId none

def start (db : NotificationsDb) : UnreadState := { db, counter := fun _ => none, tasks := [] }

def run (db : NotificationsDb) (es : List UnreadEvent) : UnreadState := es.foldl step (start db)

/-- What is not found in Redis, or not to be had from it, is counted. -/
def unreadCount (st : UnreadState) (ownerId : Uuid) (fails : Bool) : Int :=
  if fails then st.db.countUnread ownerId
  else (st.counter ownerId).getD (st.db.countUnread ownerId)

end UnreadState

/-! ## What keeps counter and table in step -/

/-- What tasks are still to add to a counter. -/
def UnreadTask.due (tasks : List UnreadTask) (ownerId : Uuid) : Int :=
  tasks.count (.incr ownerId) - tasks.count (.decrementUnread ownerId)

namespace UnreadState

def due (st : UnreadState) (ownerId : Uuid) : Int := UnreadTask.due st.tasks ownerId

/-- New notifications have new ids, and what is marked read is not archived. -/
def CallCounts (st : UnreadState) (ownerId : Uuid) : NotificationCall → Prop
  | .notifyMany ns =>
    (ns.map NewNotification.id).Nodup ∧ ∀ n ∈ ns, st.db.notifications.get n.id = none
  | .markRead id ownerId' _ =>
    ownerId' = ownerId → ∀ n ∈ st.db.notifications.get id, n.ownerId = ownerId → n.read = false →
      n.archivedAt = none
  | _ => True

/-- The call to Redis goes through, unless there is no counter. A counter is created when all unread
notifications are still to be counted, and set to zero when none is left to count; none is taken
from a counter that stands at zero. What is deleted is as unread as it was when the call began. -/
def TaskCounts (st : UnreadState) (ownerId : Uuid) (i : Nat) (fails : Bool) : Prop :=
  ∀ task, st.tasks[i]? = some task → task.ownerId = ownerId →
    UnreadTask.reset ownerId ∉ st.tasks.eraseIdx i →
    match task with
    | .incr _ =>
      if fails then st.counter ownerId = none
      else st.counter ownerId = none → st.db.countUnread ownerId = st.due ownerId
    | .decrementUnread _ =>
      if fails then st.counter ownerId = none
      else (∀ n ∈ st.counter ownerId, 0 < n) ∧
        (st.counter ownerId = none → st.db.countUnread ownerId = st.due ownerId + 1)
    | .reset _ =>
      if fails then ∀ n ∈ st.counter ownerId, n + st.due ownerId = st.db.countUnread ownerId
      else st.db.countUnread ownerId = st.due ownerId
    | .delete id _ wasUnread =>
      fails = true ∨ wasUnread = (st.db.notifications.get id).any (Notification.unread ownerId)

def Counts (ownerId : Uuid) (st : UnreadState) : UnreadEvent → Prop
  | .call c _ => st.CallCounts ownerId c
  | .task i fails => st.TaskCounts ownerId i fails
  | .expire _ => True

/-- A counter that no task sets to zero, and what is due to it, are the unread notifications. -/
def Settled (ownerId : Uuid) (st : UnreadState) : Prop :=
  UnreadTask.reset ownerId ∉ st.tasks →
    ∀ n ∈ st.counter ownerId, n + st.due ownerId = st.db.countUnread ownerId

end UnreadState

/-! ## How many are due -/

namespace UnreadTask

variable {tasks tasks' : List UnreadTask} {task : UnreadTask} {o : Uuid}

@[simp] theorem due_append : due (tasks ++ tasks') o = due tasks o + due tasks' o := by
  simp only [due, List.count_append, Nat.cast_add]
  omega

@[simp] theorem due_nil : due [] o = 0 := rfl

theorem due_incr (o o' : Uuid) : due [.incr o'] o = if o' = o then 1 else 0 := by
  simp [due, List.count_singleton]

theorem due_decrementUnread (o o' : Uuid) :
    due [.decrementUnread o'] o = if o' = o then -1 else 0 := by
  by_cases h : o' = o <;> simp [due, h]

theorem due_reset (o o' : Uuid) : due [.reset o'] o = 0 := by simp [due]

theorem due_delete (o id o' : Uuid) (w : Bool) : due [.delete id o' w] o = 0 := by simp [due]

theorem due_eraseIdx {i : Nat} (h : tasks[i]? = some task) :
    due tasks o = due [task] o + due (tasks.eraseIdx i) o := by
  obtain ⟨hi, rfl⟩ := List.getElem?_eq_some_iff.1 h
  have hperm := List.getElem_cons_eraseIdx_perm hi
  rw [← due_append, List.singleton_append, due, due, hperm.count_eq, hperm.count_eq]

theorem due_map_incr (os : List Uuid) : due (os.map .incr) o = os.count o := by
  have hincr : (os.map UnreadTask.incr).count (.incr o) = os.count o :=
    List.count_map_of_injective _ _ (fun _ _ => UnreadTask.incr.inj) _
  have hdecr : (os.map UnreadTask.incr).count (.decrementUnread o) = 0 := by
    simp [List.count_eq_zero]
  rw [due, hincr, hdecr]
  simp

end UnreadTask

/-! ## How many are unread -/

namespace NotificationsDb

variable {db db' : NotificationsDb} {n : Notification} {id o o' : Uuid}

/-- What a new row adds to a count. -/
theorem countP_insert (h : db.insert n = .ok db') (p : Notification → Bool) :
    db'.notifications.rows.countP p = db.notifications.rows.countP p + if p n then 1 else 0 := by
  unfold insert at h
  split at h
  · cases h
  · rename_i hnone
    obtain rfl := Except.ok.inj h
    have hput := Table.countP_put db.notifications p n
    rw [hnone] at hput
    exact hput

theorem get_insertOrIgnore_of_ne (h : id ≠ n.id) :
    (db.insertOrIgnore n).notifications.get id = db.notifications.get id := by
  unfold insertOrIgnore insert
  cases db.notifications.get n.id with
  | some m => rfl
  | none => exact (Table.get_put _ _ _).trans (if_neg h)

theorem countP_insertAll {ns : List NewNotification}
    (hnodup : (ns.map NewNotification.id).Nodup)
    (hnew : ∀ n ∈ ns, db.notifications.get n.id = none) (p : Notification → Bool) :
    (ns.foldl (fun db n => db.insertOrIgnore n.row) db).notifications.rows.countP p =
      db.notifications.rows.countP p + ns.countP fun n => p n.row := by
  induction ns generalizing db with
  | nil => rfl
  | cons n ns ih =>
    rw [List.map_cons, List.nodup_cons] at hnodup
    have hnew' : ∀ m ∈ ns, (db.insertOrIgnore n.row).notifications.get m.id = none := by
      intro m hm
      have hne : m.id ≠ n.row.id := by
        intro hid
        have hmem : m.id ∈ ns.map NewNotification.id := List.mem_map_of_mem hm
        rw [hid] at hmem
        exact hnodup.1 hmem
      rw [get_insertOrIgnore_of_ne hne]
      exact hnew m (List.mem_cons_of_mem _ hm)
    have hinsert : db.insert n.row = .ok (db.insertOrIgnore n.row) := by
      rw [insertOrIgnore, insert, show db.notifications.get n.row.id = none from
        hnew n List.mem_cons_self]
    rw [List.foldl_cons, ih hnodup.2 hnew', List.countP_cons, countP_insert hinsert]
    omega

theorem countUnread_insertAll {ns : List NewNotification}
    (hnodup : (ns.map NewNotification.id).Nodup)
    (hnew : ∀ n ∈ ns, db.notifications.get n.id = none) :
    (ns.foldl (fun db n => db.insertOrIgnore n.row) db).countUnread o =
      db.countUnread o + (ns.map NewNotification.ownerId).count o := by
  have hrow : (fun n : NewNotification => n.row.unread o) = fun n => n.ownerId == o := by
    funext n
    simp [Notification.unread, NewNotification.row]
  rw [countUnread, countP_insertAll hnodup hnew, hrow, List.count, List.countP_map]
  rfl

/-- Marking an unread notification that is not archived takes one from its owner's count. -/
theorem countUnread_markRead {now : OffsetDateTime} (h : db.markRead id o' now = some db')
    (harchived : o' = o → ∀ n ∈ db.notifications.get id, n.ownerId = o → n.read = false →
      n.archivedAt = none) :
    db'.countUnread o + (if o' = o then 1 else 0) = db.countUnread o := by
  obtain ⟨n, hn, rfl⟩ := Option.map_eq_some_iff.1 h
  obtain ⟨hget, hunread⟩ := Option.filter_eq_some_iff.1 hn
  obtain ⟨howner, hread⟩ : n.ownerId = o' ∧ n.read = false := by simpa using hunread
  obtain rfl : n.id = id := Table.key_of_get hget
  have hput := Table.countP_put db.notifications (Notification.unread o) (n.asRead now)
  rw [show db.notifications.get (n.asRead now).id = some n from hget] at hput
  have hafter : Table.one (Notification.unread o) (some (n.asRead now)) = 0 := by
    simp [Table.one, Notification.unread, Notification.asRead]
  have hbefore : Table.one (Notification.unread o) (some n) = if o' = o then 1 else 0 := by
    by_cases ho : o' = o
    · have harch := harchived ho n hget (howner.trans ho) hread
      simp [Table.one, Notification.unread, howner, ho, hread, harch]
    · simp [Table.one, Notification.unread, howner, ho]
  rw [hafter, hbefore] at hput
  exact hput

theorem countUnread_markAllRead_other (now : OffsetDateTime) (h : o' ≠ o) :
    (db.markAllRead o' now).countUnread o = db.countUnread o := by
  unfold countUnread markAllRead Table.modify
  rw [List.countP_map]
  refine List.countP_congr fun n _ => ?_
  by_cases hn : n.unread o' = true
  · have howner : n.ownerId = o' := by
      simp only [Notification.unread, Bool.and_eq_true, beq_iff_eq] at hn
      exact hn.1.1
    rw [Function.comp_apply, if_pos hn]
    simp [Notification.unread, Notification.asRead, howner, h]
  · rw [Function.comp_apply, if_neg hn]

theorem delete_eq : (db.delete id o').notifications =
    if (db.notifications.get id).any (fun n => n.ownerId == o') then db.notifications.erase id
    else db.notifications := by
  have hkeep : ∀ n ∈ db.notifications.rows, n.id = id → db.notifications.get id = some n := by
    rintro n hn rfl
    exact Table.mem_rows_iff.1 hn
  split
  · rename_i h
    obtain ⟨m, hm, howner⟩ := (Option.any_eq_true _ _).1 h
    simp only [delete, Table.erase, Table.filter, Table.mk.injEq]
    refine List.filter_congr fun n hn => ?_
    by_cases hid : n.id = id
    · obtain rfl : m = n := Option.some.inj (hm.symm.trans (hkeep n hn hid))
      simp [hid, beq_iff_eq.1 howner]
    · simp [hid]
  · rename_i h
    have hall : db.notifications.rows.filter (fun n => !(n.id == id && n.ownerId == o')) =
        db.notifications.rows := by
      refine List.filter_eq_self.2 fun n hn => ?_
      by_cases hid : n.id = id
      · rw [hkeep n hn hid] at h
        simpa [hid] using h
      · simp [hid]
    simp only [delete, Table.filter, hall]

/-- A deletion takes one from its owner's count if it meets an unread notification. -/
theorem countUnread_delete : (db.delete id o').countUnread o +
    (if o' = o then Table.one (Notification.unread o) (db.notifications.get id) else 0) =
      db.countUnread o := by
  have herase := Table.countP_erase db.notifications (Notification.unread o) id
  unfold countUnread
  rw [delete_eq]
  cases hget : db.notifications.get id with
  | none => simp
  | some n =>
    rw [hget] at herase
    by_cases howner : n.ownerId = o'
    · rw [if_pos (by simpa using howner)]
      by_cases ho : o' = o
      · rw [if_pos ho]
        exact herase
      · have hnone : Table.one (Notification.unread o) (some n) = 0 := by
          simp [Table.one, Notification.unread, howner, ho]
        rw [hnone] at herase
        rw [if_neg ho]
        exact herase
    · rw [if_neg (by simpa using howner)]
      by_cases ho : o' = o
      · have hnone : Table.one (Notification.unread o) (some n) = 0 := by
          simp [Table.one, Notification.unread, ho ▸ howner]
        rw [if_pos ho, hnone, Nat.add_zero]
      · rw [if_neg ho, Nat.add_zero]

end NotificationsDb

/-! ## Steps -/

namespace UnreadState

open UnreadTask NotificationsDb

variable {st : UnreadState} {o : Uuid} {fails : Bool}

/-- A call that sets no counter and adds as many to what is due as become unread. -/
theorem Settled.called {db : NotificationsDb} {tasks : List UnreadTask} (h : st.Settled o)
    (hdue : (db.countUnread o : Int) = st.db.countUnread o + UnreadTask.due tasks o) :
    Settled o { st with db, tasks := st.tasks ++ tasks } := by
  intro hreset n hn
  have hsettled := h (fun hmem => hreset (List.mem_append_left _ hmem)) n hn
  have htasks : due { st with db, tasks := st.tasks ++ tasks } o =
      st.due o + UnreadTask.due tasks o := due_append
  show n + due { st with db, tasks := st.tasks ++ tasks } o = db.countUnread o
  rw [htasks, hdue]
  omega

theorem Settled.call (h : st.Settled o) {c : NotificationCall} (hc : st.CallCounts o c) :
    (st.call fails c).Settled o := by
  cases c with
  | notify n =>
    rw [UnreadState.call]
    cases hinsert : st.db.insert n.row with
    | error e => exact h
    | ok db =>
      cases fails with
      | true => exact h
      | false =>
        refine h.called ?_
        have hrow : n.row.unread o = (n.ownerId == o) := by
          simp [Notification.unread, NewNotification.row]
        rw [countUnread, countP_insert hinsert, hrow, due_incr]
        by_cases ho : n.ownerId = o <;> simp [ho, countUnread]
  | notifyMany ns =>
    cases fails with
    | true => exact h
    | false =>
      refine h.called ?_
      have hmap : ns.map (fun n => UnreadTask.incr n.ownerId) =
          (ns.map NewNotification.ownerId).map .incr := by rw [List.map_map]; rfl
      rw [countUnread_insertAll hc.1 hc.2, hmap, due_map_incr, Nat.cast_add]
  | markRead id o' now =>
    rw [UnreadState.call]
    cases hmark : st.db.markRead id o' now with
    | none => exact h
    | some db =>
      cases fails with
      | true => exact h
      | false =>
        refine h.called ?_
        have hcount := countUnread_markRead hmark hc
        rw [due_decrementUnread, ← hcount]
        by_cases ho : o' = o <;> simp [ho]
  | markAllRead o' now =>
    cases fails with
    | true => exact h
    | false =>
      by_cases ho : o' = o
      · intro hreset
        subst ho
        exact absurd (List.mem_append_right _ (List.mem_singleton.2 rfl)) hreset
      · refine h.called ?_
        rw [countUnread_markAllRead_other now ho, due_reset]
        omega
  | delete id o' =>
    cases fails with
    | true => exact h
    | false =>
      refine h.called ?_
      rw [due_delete]
      omega

@[simp] theorem counter_set_self (st : UnreadState) (o : Uuid) (n : Option Int) :
    (st.set o n).counter o = n := Function.update_self _ _ _

theorem counter_set_of_ne {o o' : Uuid} (h : o ≠ o') (st : UnreadState) (n : Option Int) :
    (st.set o' n).counter o = st.counter o := Function.update_of_ne h _ _

theorem Settled.expire (h : st.Settled o) (o' : Uuid) : (st.set o' none).Settled o := by
  intro hreset n hn
  by_cases ho : o = o'
  · subst ho
    rw [counter_set_self] at hn
    cases hn
  · rw [counter_set_of_ne ho] at hn
    exact h hreset n hn

/-- A step that leaves an owner's counter, rows and due tasks. -/
theorem Settled.elsewhere {st' : UnreadState} (h : st.Settled o)
    (hcounter : st'.counter o = st.counter o) (hdue : st'.due o = st.due o)
    (hunread : st'.db.countUnread o = st.db.countUnread o)
    (hreset : .reset o ∉ st'.tasks → .reset o ∉ st.tasks) : st'.Settled o := by
  intro hnone n hn
  rw [hcounter] at hn
  rw [hdue, hunread]
  exact h (hreset hnone) n hn

section Task

variable {i : Nat} {task : UnreadTask}

theorem mem_tasks_iff (hi : st.tasks[i]? = some task) {t : UnreadTask} :
    t ∈ st.tasks ↔ t = task ∨ t ∈ st.tasks.eraseIdx i := by
  obtain ⟨hlt, rfl⟩ := List.getElem?_eq_some_iff.1 hi
  rw [← (List.getElem_cons_eraseIdx_perm hlt).mem_iff, List.mem_cons]

/-- The next call of another owner's task. -/
theorem Settled.task_elsewhere (h : st.Settled o) (hi : st.tasks[i]? = some task)
    (ho : task.ownerId ≠ o) :
    ({ st with tasks := st.tasks.eraseIdx i }.task fails task).Settled o := by
  have hreset : .reset o ∉ st.tasks.eraseIdx i → .reset o ∉ st.tasks := by
    intro hrest hmem
    rcases (mem_tasks_iff hi).1 hmem with rfl | hmem
    · exact ho rfl
    · exact hrest hmem
  have hzero : UnreadTask.due [task] o = 0 := by
    cases task with
    | incr o' => exact (due_incr o o').trans (if_neg ho)
    | decrementUnread o' => exact (due_decrementUnread o o').trans (if_neg ho)
    | reset o' => exact due_reset o o'
    | delete id o' w => exact due_delete o id o' w
  have hdue : UnreadTask.due (st.tasks.eraseIdx i) o = st.due o := by
    rw [due, due_eraseIdx hi, hzero, Int.zero_add]
  have herased : Settled o { st with tasks := st.tasks.eraseIdx i } :=
    h.elsewhere rfl hdue rfl hreset
  cases fails with
  | true => cases task <;> exact herased
  | false =>
    cases task with
    | delete id o' w =>
      have hne : ¬ o' = o := ho
      have hunread := @countUnread_delete st.db id o o'
      rw [if_neg hne, Nat.add_zero] at hunread
      refine herased.elsewhere rfl ?_ hunread (fun hnone hmem => hnone (List.mem_append_left _ hmem))
      refine due_append.trans ?_
      cases w with
      | false => exact Int.add_zero _
      | true =>
        rw [if_pos rfl, due_decrementUnread, if_neg hne]
        exact Int.add_zero _
    | _ => exact herased.elsewhere (counter_set_of_ne (Ne.symm ho) _ _) rfl rfl id

/-- The next call of an own task that meets its condition. -/
theorem Settled.task_own (h : st.Settled o) (hi : st.tasks[i]? = some task)
    (ho : task.ownerId = o) (hc : st.TaskCounts o i fails) :
    ({ st with tasks := st.tasks.eraseIdx i }.task fails task).Settled o := by
  have hdue : st.due o = UnreadTask.due [task] o + UnreadTask.due (st.tasks.eraseIdx i) o :=
    due_eraseIdx hi
  have hsettled : task ≠ .reset o → .reset o ∉ st.tasks.eraseIdx i →
      ∀ n ∈ st.counter o, n + st.due o = st.db.countUnread o := by
    intro hne hrest
    refine h fun hmem => ?_
    rcases (mem_tasks_iff hi).1 hmem with heq | hmem
    · exact hne heq.symm
    · exact hrest hmem
  cases task with
  | incr o' =>
    obtain rfl : o' = o := ho
    rw [due_incr, if_pos rfl] at hdue
    have hc := hc _ hi rfl
    cases fails with
    | true =>
      intro hrest n hn
      have hnone : st.counter o' = none := hc hrest
      have hn : n ∈ st.counter o' := hn
      rw [hnone] at hn
      cases hn
    | false =>
      intro hrest n hn
      have hc : st.counter o' = none → (st.db.countUnread o' : Int) = st.due o' := hc hrest
      have hsettled := hsettled nofun hrest
      obtain rfl : (st.counter o').getD 0 + 1 = n := by
        rw [UnreadState.task, if_neg Bool.false_ne_true, counter_set_self] at hn
        exact Option.some.inj hn
      show (st.counter o').getD 0 + 1 + UnreadTask.due (st.tasks.eraseIdx i) o' =
        (st.db.countUnread o' : Int)
      cases hcounter : st.counter o' with
      | none =>
        have hc := hc hcounter
        simp only [Option.getD_none]
        omega
      | some m =>
        have hm := hsettled m hcounter
        simp only [Option.getD_some]
        omega
  | decrementUnread o' =>
    obtain rfl : o' = o := ho
    rw [due_decrementUnread, if_pos rfl] at hdue
    have hc := hc _ hi rfl
    cases fails with
    | true =>
      intro hrest n hn
      have hnone : st.counter o' = none := hc hrest
      have hn : n ∈ st.counter o' := hn
      rw [hnone] at hn
      cases hn
    | false =>
      intro hrest n hn
      have hc : (∀ n ∈ st.counter o', 0 < n) ∧
        (st.counter o' = none → (st.db.countUnread o' : Int) = st.due o' + 1) := hc hrest
      have hsettled := hsettled nofun hrest
      obtain rfl : (if (st.counter o').getD 0 - 1 < 0 then 0 else (st.counter o').getD 0 - 1) = n := by
        rw [UnreadState.task, if_neg Bool.false_ne_true, counter_set_self] at hn
        exact Option.some.inj hn
      show (if (st.counter o').getD 0 - 1 < 0 then 0 else (st.counter o').getD 0 - 1) +
        UnreadTask.due (st.tasks.eraseIdx i) o' = (st.db.countUnread o' : Int)
      cases hcounter : st.counter o' with
      | none =>
        have hc := hc.2 hcounter
        simp only [Option.getD_none]
        omega
      | some m =>
        have hm := hsettled m hcounter
        have hpos := hc.1 m hcounter
        simp only [Option.getD_some]
        omega
  | reset o' =>
    obtain rfl : o' = o := ho
    rw [due_reset, Int.zero_add] at hdue
    have hc := hc _ hi rfl
    cases fails with
    | true =>
      intro hrest n hn
      have hc : ∀ n ∈ st.counter o', n + st.due o' = (st.db.countUnread o' : Int) := hc hrest
      have hn' := hc n hn
      rw [hdue] at hn'
      exact hn'
    | false =>
      intro hrest n hn
      have hc : (st.db.countUnread o' : Int) = st.due o' := hc hrest
      obtain rfl : (0 : Int) = n := by
        rw [UnreadState.task, if_neg Bool.false_ne_true, counter_set_self] at hn
        exact Option.some.inj hn
      show 0 + UnreadTask.due (st.tasks.eraseIdx i) o' = (st.db.countUnread o' : Int)
      omega
  | delete id o' w =>
    obtain rfl : o' = o := ho
    rw [due_delete, Int.zero_add] at hdue
    have hc := hc _ hi rfl
    cases fails with
    | true =>
      intro hrest n hn
      have hn' := hsettled nofun hrest n hn
      rw [hdue] at hn'
      exact hn'
    | false =>
      intro hrest n hn
      have hrest : .reset o' ∉ st.tasks.eraseIdx i := fun hmem =>
        hrest (List.mem_append_left _ hmem)
      have hn' := hsettled nofun hrest n hn
      have hw : w = (st.db.notifications.get id).any (Notification.unread o') :=
        (hc hrest).resolve_left Bool.false_ne_true
      have hunread := @countUnread_delete st.db id o' o'
      rw [if_pos rfl, Table.one, ← hw] at hunread
      show n + UnreadTask.due (st.tasks.eraseIdx i ++ if w then [.decrementUnread o'] else []) o' =
        ((st.db.delete id o').countUnread o' : Int)
      cases w with
      | false =>
        simp only [Bool.false_eq_true, if_false, List.append_nil] at hunread ⊢
        omega
      | true =>
        rw [due_append, if_pos rfl, due_decrementUnread, if_pos rfl]
        simp only [if_true] at hunread
        omega

end Task

/-! ## Runs -/

theorem Settled.step (h : st.Settled o) {e : UnreadEvent} (hc : Counts o st e) :
    (st.step e).Settled o := by
  cases e with
  | call c fails => exact h.call hc
  | task i fails =>
    rw [UnreadState.step]
    cases hi : st.tasks[i]? with
    | none => exact h
    | some task =>
      by_cases ho : task.ownerId = o
      · exact h.task_own hi ho hc
      · exact h.task_elsewhere hi ho
  | expire o' => exact h.expire o'

/-- Every step of a run meets its condition. -/
def RunCounts (o : Uuid) : UnreadState → List UnreadEvent → Prop
  | _, [] => True
  | st, e :: es => Counts o st e ∧ RunCounts o (st.step e) es

theorem Settled.run {es : List UnreadEvent} (h : st.Settled o) (hc : RunCounts o st es) :
    (es.foldl UnreadState.step st).Settled o := by
  induction es generalizing st with
  | nil => exact h
  | cons e es ih => exact ih (h.step hc.1) hc.2

theorem settled_start (db : NotificationsDb) (o : Uuid) : (start db).Settled o := by
  intro _ n hn
  cases hn

/-! ### No counter is negative -/

/-- No owner's counter is negative. -/
def NonNeg (st : UnreadState) : Prop := ∀ o, ∀ n ∈ st.counter o, 0 ≤ n

theorem NonNeg.set (h : st.NonNeg) {n : Option Int} (hn : ∀ m ∈ n, 0 ≤ m) (o : Uuid) :
    (st.set o n).NonNeg := by
  intro o' m hm
  by_cases ho : o' = o
  · rw [ho, counter_set_self] at hm
    exact hn m hm
  · rw [counter_set_of_ne ho] at hm
    exact h o' m hm

theorem NonNeg.getD (h : st.NonNeg) (o : Uuid) : 0 ≤ (st.counter o).getD 0 := by
  cases hn : st.counter o with
  | none => exact le_refl 0
  | some n => exact h o n hn

theorem counter_call (c : NotificationCall) : (st.call fails c).counter = st.counter := by
  cases fails with
  | true => cases c <;> simp only [UnreadState.call] <;> first | rfl | (split <;> rfl)
  | false => cases c <;> simp only [UnreadState.call] <;> first | rfl | (split <;> rfl)

theorem NonNeg.task (h : st.NonNeg) (t : UnreadTask) : (st.task fails t).NonNeg := by
  cases fails with
  | true => cases t <;> exact h
  | false =>
    cases t with
    | incr o =>
      have hpos := h.getD o
      refine h.set ?_ o
      rintro m ⟨⟩
      omega
    | decrementUnread o =>
      refine h.set ?_ o
      rintro m ⟨⟩
      split <;> omega
    | reset o =>
      refine h.set ?_ o
      rintro m ⟨⟩
      exact le_refl 0
    | delete id o w => exact h

theorem NonNeg.step (h : st.NonNeg) (e : UnreadEvent) : (st.step e).NonNeg := by
  cases e with
  | call c fails =>
    intro o n hn
    rw [UnreadState.step, counter_call] at hn
    exact h o n hn
  | task i fails =>
    rw [UnreadState.step]
    cases st.tasks[i]? with
    | none => exact h
    | some t =>
      have herased : NonNeg { st with tasks := st.tasks.eraseIdx i } := h
      exact herased.task t
  | expire o => exact h.set (by rintro m ⟨⟩) o

theorem nonNeg_run (db : NotificationsDb) (es : List UnreadEvent) : (run db es).NonNeg := by
  have hfold : ∀ {st : UnreadState}, st.NonNeg → (es.foldl UnreadState.step st).NonNeg := by
    induction es with
    | nil => exact fun h => h
    | cons e es ih => exact fun h => ih (h.step e)
  refine hfold ?_
  intro o n hn
  cases hn

/-- The count is never negative, and once the calls of a user are over, it is that of the table, in
every run whose steps meet their conditions. -/
theorem unread_count_agrees (db : NotificationsDb) (o : Uuid) (es : List UnreadEvent)
    (fails : Bool) :
    0 ≤ (run db es).unreadCount o fails ∧
      (RunCounts o (start db) es → (∀ task ∈ (run db es).tasks, task.ownerId ≠ o) →
        (run db es).unreadCount o fails = (run db es).db.countUnread o) := by
  constructor
  · unfold unreadCount
    split
    · exact Int.natCast_nonneg _
    · cases hn : (run db es).counter o with
      | none => exact Int.natCast_nonneg _
      | some n => exact nonNeg_run db es o n hn
  · intro hc hdone
    have hdue : (run db es).due o = 0 := by
      have hincr : .incr o ∉ (run db es).tasks := fun hmem => hdone _ hmem rfl
      have hdecr : .decrementUnread o ∉ (run db es).tasks := fun hmem => hdone _ hmem rfl
      rw [due, UnreadTask.due, List.count_eq_zero.2 hincr, List.count_eq_zero.2 hdecr]
      rfl
    have hsettled : (run db es).Settled o := (settled_start db o).run hc
    unfold unreadCount
    split
    · rfl
    · cases hn : (run db es).counter o with
      | none => rfl
      | some n =>
        have hn' := hsettled (fun hmem => hdone _ hmem rfl) n hn
        rw [hdue, Int.add_zero] at hn'
        exact hn'

/-! ### Runs -/

/-- A notification for the first user. -/
def notified (id : Uuid) : NewNotification where
  id := id
  ownerId := ⟨1⟩
  templateId := ⟨9⟩
  actorId := none
  broadcastId := none
  createdAt := 0

def noNotifications : NotificationsDb where
  notifications := .empty
  templates := .empty
  types := []
  users := .empty

/-- Two notifications, of which one is read. -/
def oneOfTwoRead : List UnreadEvent :=
  [.call (.notify (notified ⟨10⟩)) false, .task 0 false,
   .call (.notify (notified ⟨11⟩)) false, .task 0 false,
   .call (.markRead ⟨10⟩ ⟨1⟩ 5) false, .task 0 false]

theorem one_of_two_unread :
    0 ≤ (run noNotifications oneOfTwoRead).unreadCount ⟨1⟩ false ∧
      (run noNotifications oneOfTwoRead).unreadCount ⟨1⟩ false =
        (run noNotifications oneOfTwoRead).db.countUnread ⟨1⟩ := by
  have hagrees := unread_count_agrees noNotifications ⟨1⟩ oneOfTwoRead false
  have hcounts : RunCounts ⟨1⟩ (start noNotifications) oneOfTwoRead := by
    refine ⟨trivial, ?_, trivial, ?_, ?_, ?_, trivial⟩
    · rintro task ⟨⟩ - -
      decide
    · rintro task ⟨⟩ - -
      decide
    · rintro - n ⟨⟩ - -
      rfl
    · rintro task ⟨⟩ - -
      decide
  exact ⟨hagrees.1, hagrees.2 hcounts (by decide)⟩

/-- A counter that was set to zero expires with one unread notification, and the next one is counted
as the first. -/
def expiresWithOne : List UnreadEvent :=
  [.call (.markAllRead ⟨1⟩ 0) false, .task 0 false,
   .call (.notify (notified ⟨10⟩)) false, .task 0 false,
   .expire ⟨1⟩,
   .call (.notify (notified ⟨11⟩)) false, .task 0 false]

theorem counted_as_first :
    (run noNotifications expiresWithOne).tasks = [] ∧
      (run noNotifications expiresWithOne).unreadCount ⟨1⟩ false = 1 ∧
      (run noNotifications expiresWithOne).db.countUnread ⟨1⟩ = 2 := by decide

end UnreadState

end Meno
