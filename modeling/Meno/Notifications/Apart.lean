import Meno.Lib.Timeline
import Meno.Notifications.UnreadCount

/-!
# Meno.Notifications.Apart

What do the calls of all the others do to a user's notifications? A user's part of the system is the
user's rows, the counter and the tasks that are left for them. Each step of the whole is a step of
that part, by a call or a task of the user, or leaves it as it is (`part_step`). So what a user sees
is what the user's own steps alone would show.
-/

namespace Meno

open Lib

def Notification.isOf (o : Uuid) (n : Notification) : Bool := n.ownerId == o

def NewNotification.isFor (o : Uuid) (n : NewNotification) : Bool := n.ownerId == o

def UnreadTask.isOf (o : Uuid) (t : UnreadTask) : Bool := t.ownerId == o

/-! ## Rows -/

namespace NotificationsDb

/-- The tables with the notifications of one user. -/
def part (db : NotificationsDb) (o : Uuid) : NotificationsDb :=
  { db with notifications := db.notifications.filter (Notification.isOf o) }

/-- No new notification has the id of one of another user. -/
structure OwnIds (db : NotificationsDb) (ns : List NewNotification) : Prop where
  stored : ∀ n ∈ ns, ∀ m ∈ db.notifications.get n.id, m.ownerId = n.ownerId
  new : ∀ n ∈ ns, ∀ m ∈ ns, m.id = n.id → m.ownerId = n.ownerId

variable {db db' : NotificationsDb} {n : Notification} {id o u : Uuid}

theorem part_eq_of {ns ns' : Table Notification Notification.id}
    (h : ns.filter (Notification.isOf o) = ns'.filter (Notification.isOf o)) :
    part { db with notifications := ns } o = part { db with notifications := ns' } o := by
  unfold part
  rw [h]

theorem get_part (id : Uuid) : (db.part o).notifications.get id =
    (db.notifications.get id).filter (Notification.isOf o) := Table.get_filter _ _ _

/-! ### New rows -/

theorem get_insertOrIgnore_self : (db.insertOrIgnore n).notifications.get n.id =
    (db.notifications.get n.id).or (some n) := by
  unfold insertOrIgnore insert
  cases h : db.notifications.get n.id with
  | none => exact Table.get_put_self _ _
  | some m => exact h

/-- A row of the user is inserted where its id is not taken, which only the user's own rows take. -/
theorem insert_part (hn : n.ownerId = o)
    (hstored : ∀ m ∈ db.notifications.get n.id, m.ownerId = o) :
    (db.part o).insert n = (db.insert n).map fun db => db.part o := by
  have hget : (db.part o).notifications.get n.id =
      (db.notifications.get n.id).filter (Notification.isOf o) := get_part n.id
  unfold insert
  rw [hget]
  cases h : db.notifications.get n.id with
  | none =>
    have hput := Table.filter_put (p := Notification.isOf o) db.notifications (beq_iff_eq.2 hn)
    simp only [Option.filter_none, Except.map, part, hput]
  | some m =>
    have hm : Notification.isOf o m = true := beq_iff_eq.2 (hstored m h)
    simp only [Option.filter_some, hm, if_true, Except.map]

theorem insertOrIgnore_part (hn : n.ownerId = o)
    (hstored : ∀ m ∈ db.notifications.get n.id, m.ownerId = o) :
    (db.part o).insertOrIgnore n = (db.insertOrIgnore n).part o := by
  unfold insertOrIgnore
  rw [insert_part hn hstored]
  cases db.insert n <;> rfl

theorem part_insert_other (hn : n.ownerId ≠ o) (h : db.insert n = .ok db') :
    db'.part o = db.part o := by
  unfold insert at h
  split at h
  · cases h
  · rename_i hnone
    obtain rfl := Except.ok.inj h
    refine part_eq_of (Table.filter_put_other (beq_eq_false_iff_ne.2 hn) ?_)
    rw [hnone]
    rintro x ⟨⟩

theorem part_insertOrIgnore_other (hn : n.ownerId ≠ o) :
    (db.insertOrIgnore n).part o = db.part o := by
  unfold insertOrIgnore
  cases h : db.insert n with
  | ok db' => exact part_insert_other hn h
  | error e => rfl

theorem OwnIds.rest {n : NewNotification} {ns : List NewNotification} (h : db.OwnIds (n :: ns)) :
    (db.insertOrIgnore n.row).OwnIds ns where
  stored m hm x hx := by
    have hm' := List.mem_cons_of_mem n hm
    by_cases hid : m.id = n.row.id
    · have howner := h.new m hm' n List.mem_cons_self hid.symm
      rw [hid, get_insertOrIgnore_self] at hx
      cases hget : db.notifications.get n.row.id with
      | none =>
        rw [hget] at hx
        obtain rfl := Option.some.inj hx
        exact howner
      | some y =>
        rw [hget] at hx
        obtain rfl := Option.some.inj hx
        exact (h.stored n List.mem_cons_self y hget).trans howner
    · rw [get_insertOrIgnore_of_ne hid] at hx
      exact h.stored m hm' x hx
  new m hm m' hm' := h.new m (List.mem_cons_of_mem n hm) m' (List.mem_cons_of_mem n hm')

/-- By induction on the rows of a bulk insert. -/
theorem part_insertAll {ns : List NewNotification} (h : db.OwnIds ns) :
    (ns.foldl (fun db n => db.insertOrIgnore n.row) db).part o =
      (ns.filter (NewNotification.isFor o)).foldl (fun db n => db.insertOrIgnore n.row)
        (db.part o) := by
  induction ns generalizing db with
  | nil => rfl
  | cons n ns ih =>
    rw [List.foldl_cons, ih h.rest]
    by_cases hn : n.ownerId = o
    · have hstored : ∀ m ∈ db.notifications.get n.row.id, m.ownerId = o := fun m hm =>
        (h.stored n List.mem_cons_self m hm).trans hn
      have hfor : NewNotification.isFor o n = true := beq_iff_eq.2 hn
      rw [List.filter_cons_of_pos hfor, List.foldl_cons,
        insertOrIgnore_part (n := n.row) hn hstored]
    · have hfor : ¬ NewNotification.isFor o n = true := fun h => hn (beq_iff_eq.1 h)
      rw [List.filter_cons_of_neg hfor, part_insertOrIgnore_other (n := n.row) hn]

/-! ### Changed rows -/

theorem markRead_part (now : OffsetDateTime) :
    (db.part o).markRead id o now = (db.markRead id o now).map fun db => db.part o := by
  unfold markRead
  rw [get_part]
  cases hget : db.notifications.get id with
  | none => rfl
  | some n =>
    by_cases hn : Notification.isOf o n = true
    · rw [Option.filter_some, if_pos hn]
      simp only [Option.filter_some, Option.map_map]
      split
      · have hput := Table.filter_put (p := Notification.isOf o) (r := n.asRead now)
          db.notifications hn
        simp only [Option.map_some, Function.comp_apply, part, hput]
      · rfl
    · have howner : (n.ownerId == o) = false := Bool.eq_false_iff.2 hn
      simp only [Option.filter_some, if_neg hn, howner, Bool.false_and, Bool.false_eq_true,
        if_false, Option.filter_none, Option.map_none]

theorem part_markRead_other {now : OffsetDateTime} (hu : u ≠ o)
    (h : db.markRead id u now = some db') : db'.part o = db.part o := by
  obtain ⟨n, hn, rfl⟩ := Option.map_eq_some_iff.1 h
  obtain ⟨hget, hunread⟩ := Option.filter_eq_some_iff.1 hn
  obtain ⟨howner, -⟩ : n.ownerId = u ∧ n.read = false := by simpa using hunread
  have hother : Notification.isOf o n = false := beq_eq_false_iff_ne.2 (howner ▸ hu)
  obtain rfl : n.id = id := Table.key_of_get hget
  refine part_eq_of (Table.filter_put_other hother ?_)
  intro x hx
  obtain rfl := Option.some.inj (hget.symm.trans hx)
  exact hother

theorem part_markAllRead (now : OffsetDateTime) :
    (db.markAllRead u now).part o = (db.part o).markAllRead u now := by
  unfold markAllRead part
  refine congrArg (fun ns => ({ db with notifications := ns } : NotificationsDb)) ?_
  refine Table.filter_modify _ fun n => ?_
  split <;> rfl

theorem markAllRead_part_other (now : OffsetDateTime) (hu : u ≠ o) :
    (db.part o).markAllRead u now = db.part o := by
  unfold markAllRead part
  refine congrArg (fun ns => ({ db with notifications := ns } : NotificationsDb)) ?_
  refine Table.eq_of_rows ((List.map_congr_left fun n hn => ?_).trans (List.map_id _))
  have howner : n.ownerId = o := beq_iff_eq.1 (List.mem_filter.1 hn).2
  simp [Notification.unread, howner, Ne.symm hu]

theorem part_delete : (db.delete id u).part o = (db.part o).delete id u := by
  unfold delete part
  refine congrArg (fun ns => ({ db with notifications := ns } : NotificationsDb)) ?_
  refine Table.eq_of_rows ?_
  show (List.filter _ _).filter _ = (List.filter _ _).filter _
  rw [List.filter_filter, List.filter_filter]
  congr 1
  exact funext fun x => Bool.and_comm _ _

theorem delete_part_other (hu : u ≠ o) : (db.part o).delete id u = db.part o := by
  unfold delete part
  refine congrArg (fun ns => ({ db with notifications := ns } : NotificationsDb)) ?_
  refine Table.eq_of_rows (List.filter_eq_self.2 fun n hn => ?_)
  have howner : n.ownerId = o := beq_iff_eq.1 (List.mem_filter.1 hn).2
  simp [howner, Ne.symm hu]

/-! ### What is read -/

theorem isUnread_part : (db.part o).isUnread id o = db.isUnread id o := by
  unfold isUnread
  rw [get_part, Option.any_filter]
  refine congrArg (fun p => Option.any p (db.notifications.get id)) (funext fun n => ?_)
  cases hn : n.ownerId == o <;> simp [Notification.isOf, hn]

theorem countUnread_part : (db.part o).countUnread o = db.countUnread o := by
  show (List.filter _ _).countP _ = List.countP _ _
  rw [List.countP_filter]
  refine List.countP_congr fun n _ => ?_
  simp only [Notification.unread, Notification.isOf, Bool.and_eq_true]
  tauto

end NotificationsDb

/-! ## Steps -/

/-- What a call is to a user. -/
def NotificationCall.own (o : Uuid) : NotificationCall → Option NotificationCall
  | .notify n => if n.ownerId = o then some (.notify n) else none
  | .notifyMany ns =>
    match ns.filter (NewNotification.isFor o) with
    | [] => none
    | n :: ns => some (.notifyMany (n :: ns))
  | .markRead id u now => if u = o then some (.markRead id u now) else none
  | .markAllRead u now => if u = o then some (.markAllRead u now) else none
  | .delete id u => if u = o then some (.delete id u) else none

namespace UnreadState

def part (st : UnreadState) (o : Uuid) : UnreadState where
  db := st.db.part o
  counter := fun u => if u = o then st.counter u else none
  tasks := st.tasks.filter (UnreadTask.isOf o)

/-- What a step is to a user: a task of the user stands among the user's own. -/
def own (o : Uuid) (st : UnreadState) : UnreadEvent → Option UnreadEvent
  | .call c fails => (c.own o).map fun c => .call c fails
  | .task i fails =>
    if (st.tasks[i]?).any (UnreadTask.isOf o) then
      some (.task (place (UnreadTask.isOf o) st.tasks i) fails)
    else none
  | .expire u => if u = o then some (.expire u) else none

/-- The ids that the database gives are not those of other users' notifications. -/
def GivesOwnIds (st : UnreadState) : UnreadEvent → Prop
  | .call (.notify n) _ => st.db.OwnIds [n]
  | .call (.notifyMany ns) _ => st.db.OwnIds ns
  | _ => True

open NotificationsDb

variable {st : UnreadState} {o : Uuid} {fails : Bool}

@[simp] theorem counter_part (st : UnreadState) (o : Uuid) : (st.part o).counter o = st.counter o :=
  if_pos rfl

theorem part_set_own (st : UnreadState) (o : Uuid) (n : Option Int) :
    (st.set o n).part o = (st.part o).set o n := by
  have hcounter : (fun u => if u = o then (st.set o n).counter u else none) =
      Function.update (st.part o).counter o n := by
    funext u
    by_cases hu : u = o
    · subst hu
      simp
    · simp [hu, part]
  show UnreadState.mk _ _ _ = UnreadState.mk _ _ _
  rw [hcounter]
  rfl

theorem part_set_other {u : Uuid} (hu : u ≠ o) (st : UnreadState) (n : Option Int) :
    (st.set u n).part o = st.part o := by
  have hcounter : (fun u' => if u' = o then (st.set u n).counter u' else none) =
      (st.part o).counter := by
    funext u'
    by_cases hu' : u' = o
    · subst hu'
      simp [counter_set_of_ne (Ne.symm hu), part]
    · simp [hu', part]
  show UnreadState.mk _ _ _ = UnreadState.mk _ _ _
  rw [hcounter]
  rfl

/-- A change of the tables that leaves tasks behind. -/
theorem part_append (db : NotificationsDb) (tasks : List UnreadTask) :
    part { st with db, tasks := st.tasks ++ tasks } o =
      { st.part o with
        db := db.part o
        tasks := (st.part o).tasks ++ tasks.filter (UnreadTask.isOf o) } := by
  show UnreadState.mk _ _ _ = UnreadState.mk _ _ _
  rw [List.filter_append]
  rfl

/-- A call that leaves a task of the user behind. -/
theorem part_append_own (db : NotificationsDb) {t : UnreadTask} (ht : t.ownerId = o) :
    part { st with db, tasks := st.tasks ++ [t] } o =
      { st.part o with db := db.part o, tasks := (st.part o).tasks ++ [t] } := by
  have hown : [t].filter (UnreadTask.isOf o) = [t] := List.filter_cons_of_pos (beq_iff_eq.2 ht)
  rw [part_append, hown]

/-- A call that leaves a task of another user behind, and the user's rows as they are. -/
theorem part_append_other {db : NotificationsDb} {t : UnreadTask} (ht : t.ownerId ≠ o)
    (hdb : db.part o = st.db.part o) :
    part { st with db, tasks := st.tasks ++ [t] } o = st.part o := by
  have hother : [t].filter (UnreadTask.isOf o) = [] :=
    List.filter_cons_of_neg fun h => ht (beq_iff_eq.1 h)
  rw [part_append, hother, List.append_nil, hdb]
  rfl

theorem part_notify {n : NewNotification} (h : st.db.OwnIds [n]) :
    (st.call fails (.notify n)).part o =
      ((NotificationCall.notify n).own o).toList.foldl (fun st c => st.call fails c)
        (st.part o) := by
  by_cases hn : n.ownerId = o
  · have hstored : ∀ m ∈ st.db.notifications.get n.row.id, m.ownerId = o := fun m hm =>
      (h.stored n List.mem_cons_self m hm).trans hn
    have hinsert := insert_part (n := n.row) hn hstored
    rw [NotificationCall.own, if_pos hn]
    show _ = (st.part o).call fails (.notify n)
    simp only [UnreadState.call]
    rw [show (st.part o).db = st.db.part o from rfl, hinsert]
    cases st.db.insert n.row with
    | error e => rfl
    | ok db =>
      cases fails with
      | true => rfl
      | false => exact part_append_own db hn
  · rw [NotificationCall.own, if_neg hn]
    show _ = st.part o
    simp only [UnreadState.call]
    cases hins : st.db.insert n.row with
    | error e => rfl
    | ok db =>
      cases fails with
      | true => rfl
      | false => exact part_append_other hn (part_insert_other (n := n.row) hn hins)

theorem filter_incr (ns : List NewNotification) :
    (ns.map fun n => UnreadTask.incr n.ownerId).filter (UnreadTask.isOf o) =
      (ns.filter (NewNotification.isFor o)).map fun n => UnreadTask.incr n.ownerId := by
  rw [List.filter_map]
  rfl

theorem part_notifyMany {ns : List NewNotification} (h : st.db.OwnIds ns) :
    (st.call fails (.notifyMany ns)).part o =
      ((NotificationCall.notifyMany ns).own o).toList.foldl (fun st c => st.call fails c)
        (st.part o) := by
  have hall : (st.call fails (.notifyMany ns)).part o =
      (st.part o).call fails (.notifyMany (ns.filter (NewNotification.isFor o))) := by
    cases fails with
    | true => rfl
    | false =>
      refine (part_append _ _).trans ?_
      rw [filter_incr, part_insertAll h]
      rfl
  rw [hall, NotificationCall.own]
  cases ns.filter (NewNotification.isFor o) with
  | nil =>
    cases fails with
    | true => rfl
    | false =>
      show UnreadState.mk _ _ _ = UnreadState.mk _ _ _
      rw [List.map_nil, List.append_nil]
      rfl
  | cons n ns => rfl

theorem part_markRead (id u : Uuid) (now : OffsetDateTime) :
    (st.call fails (.markRead id u now)).part o =
      ((NotificationCall.markRead id u now).own o).toList.foldl (fun st c => st.call fails c)
        (st.part o) := by
  by_cases hu : u = o
  · subst hu
    rw [NotificationCall.own, if_pos rfl]
    show _ = (st.part u).call fails (.markRead id u now)
    simp only [UnreadState.call]
    rw [show (st.part u).db = st.db.part u from rfl, markRead_part]
    cases st.db.markRead id u now with
    | none => rfl
    | some db =>
      cases fails with
      | true => rfl
      | false => exact part_append_own db rfl
  · rw [NotificationCall.own, if_neg hu]
    show _ = st.part o
    simp only [UnreadState.call]
    cases hread : st.db.markRead id u now with
    | none => rfl
    | some db =>
      cases fails with
      | true => rfl
      | false => exact part_append_other hu (part_markRead_other hu hread)

theorem part_markAllRead (u : Uuid) (now : OffsetDateTime) :
    (st.call fails (.markAllRead u now)).part o =
      ((NotificationCall.markAllRead u now).own o).toList.foldl (fun st c => st.call fails c)
        (st.part o) := by
  by_cases hu : u = o
  · subst hu
    rw [NotificationCall.own, if_pos rfl]
    cases fails with
    | true => rfl
    | false =>
      refine (part_append_own _ rfl).trans ?_
      rw [NotificationsDb.part_markAllRead]
      rfl
  · rw [NotificationCall.own, if_neg hu]
    cases fails with
    | true => rfl
    | false =>
      have hdb : (st.db.markAllRead u now).part o = st.db.part o :=
        (NotificationsDb.part_markAllRead now).trans (markAllRead_part_other now hu)
      exact part_append_other hu hdb

theorem part_callDelete (id u : Uuid) : (st.call fails (.delete id u)).part o =
    ((NotificationCall.delete id u).own o).toList.foldl (fun st c => st.call fails c)
      (st.part o) := by
  by_cases hu : u = o
  · subst hu
    rw [NotificationCall.own, if_pos rfl]
    cases fails with
    | true => rfl
    | false =>
      refine (part_append_own _ rfl).trans ?_
      rw [← isUnread_part]
      rfl
  · rw [NotificationCall.own, if_neg hu]
    cases fails with
    | true => rfl
    | false => exact part_append_other hu rfl

theorem part_call {c : NotificationCall} (h : st.GivesOwnIds (.call c fails)) :
    (st.call fails c).part o =
      (c.own o).toList.foldl (fun st c => st.call fails c) (st.part o) := by
  cases c with
  | notify n => exact part_notify h
  | notifyMany ns => exact part_notifyMany h
  | markRead id u now => exact part_markRead id u now
  | markAllRead u now => exact part_markAllRead u now
  | delete id u => exact part_callDelete id u

theorem part_task_own {t : UnreadTask} (ht : t.ownerId = o) :
    (st.task fails t).part o = (st.part o).task fails t := by
  cases fails with
  | true => cases t <;> rfl
  | false =>
    cases t with
    | incr u =>
      obtain rfl : u = o := ht
      refine (part_set_own _ _ _).trans ?_
      rw [← counter_part]
      rfl
    | decrementUnread u =>
      obtain rfl : u = o := ht
      refine (part_set_own _ _ _).trans ?_
      rw [← counter_part]
      rfl
    | reset u =>
      obtain rfl : u = o := ht
      exact part_set_own _ _ _
    | delete id u w =>
      obtain rfl : u = o := ht
      cases w with
      | false =>
        refine (part_append _ _).trans ?_
        rw [part_delete]
        rfl
      | true =>
        refine (part_append_own _ rfl).trans ?_
        rw [part_delete]
        rfl

theorem part_task_other {t : UnreadTask} (ht : t.ownerId ≠ o) :
    (st.task fails t).part o = st.part o := by
  cases fails with
  | true => cases t <;> rfl
  | false =>
    cases t with
    | delete id u w =>
      have hdb : (st.db.delete id u).part o = st.db.part o :=
        part_delete.trans (delete_part_other ht)
      cases w with
      | false =>
        refine (part_append _ _).trans ?_
        rw [hdb, if_neg Bool.false_ne_true, List.filter_nil, List.append_nil]
        rfl
      | true => exact part_append_other ht hdb
    | _ => exact part_set_other ht _ _

theorem part_step (o : Uuid) (st : UnreadState) (e : UnreadEvent) (h : st.GivesOwnIds e) :
    (st.step e).part o = (st.own o e).toList.foldl step (st.part o) := by
  cases e with
  | call c fails =>
    refine (part_call h).trans ?_
    rw [own]
    cases c.own o <;> rfl
  | task i fails =>
    simp only [step, own]
    cases hi : st.tasks[i]? with
    | none => rfl
    | some t =>
      by_cases ht : t.ownerId = o
      · have hown : UnreadTask.isOf o t = true := beq_iff_eq.2 ht
        rw [part_task_own ht, Option.any_some, if_pos hown]
        show _ = (st.part o).step (.task (place (UnreadTask.isOf o) st.tasks i) fails)
        have hplace : (st.part o).tasks[place (UnreadTask.isOf o) st.tasks i]? = some t :=
          getElem?_place hown _ hi
        have herase : ({ st with tasks := st.tasks.eraseIdx i } : UnreadState).part o =
            { st.part o with
              tasks := (st.part o).tasks.eraseIdx (place (UnreadTask.isOf o) st.tasks i) } := by
          show UnreadState.mk _ _ _ = UnreadState.mk _ _ _
          rw [filter_eraseIdx hown _ hi]
          rfl
        simp only [step, hplace, herase]
      · have hother : UnreadTask.isOf o t = false := beq_eq_false_iff_ne.2 ht
        rw [part_task_other ht, Option.any_some, if_neg (by simp [hother])]
        show UnreadState.mk _ _ _ = UnreadState.mk _ _ _
        rw [filter_eraseIdx_other hother _ hi]
  | expire u =>
    rw [own]
    by_cases hu : u = o
    · subst hu
      rw [if_pos rfl]
      exact part_set_own _ _ _
    · rw [if_neg hu]
      exact part_set_other hu _ _

/-! ## What a user sees -/

theorem filter_notificationRows {db : NotificationsDb} {q : NotificationViewRow → Bool}
    (hq : ∀ r, q r = true → r.notification.ownerId = o) :
    (NotificationRepository.notificationRows (db.part o)).filter q =
      (NotificationRepository.notificationRows db).filter q := by
  show (List.filterMap _ (List.filter _ _)).filter q = (List.filterMap _ _).filter q
  rw [List.filterMap_filter, List.filter_filterMap, List.filter_filterMap]
  refine List.filterMap_congr fun n _ => ?_
  by_cases hn : Notification.isOf o n = true
  · rw [if_pos hn]
    rfl
  · rw [if_neg hn, Option.filter_none]
    refine (Option.filter_eq_none_iff.2 fun r hr hqr => hn (beq_iff_eq.2 ?_)).symm
    rw [← notificationRows_mem hr]
    exact hq r hqr

theorem list_part (t : CursorText) (db : NotificationsDb) (query : NotificationQuery) :
    NotificationService.list t (db.part o) o query = NotificationService.list t db o query := by
  have hfetch : ∀ ts i, fetchAll (NotificationRepository.notificationsSelect query o ts i) none
      (NotificationRepository.notificationRows (db.part o)) =
        fetchAll (NotificationRepository.notificationsSelect query o ts i) none
          (NotificationRepository.notificationRows db) := by
    intro ts i
    unfold fetchAll
    rw [Sql.run_congr]
    refine filter_notificationRows fun r hr => ?_
    rw [(listsByTime_notifications query o).matching] at hr
    simp only [NotificationQuery.wants, Bool.and_eq_true, beq_iff_eq] at hr
    exact hr.1.1
  unfold NotificationService.list NotificationRepository.findNotifications
  simp only [hfetch]

theorem unreadCount_part (st : UnreadState) (o : Uuid) (fails : Bool) :
    (st.part o).unreadCount o fails = st.unreadCount o fails := by
  unfold unreadCount
  rw [counter_part]
  have hcount : (st.part o).db.countUnread o = st.db.countUnread o := countUnread_part
  rw [hcount]

/-! ## Runs -/

/-- The run of the user's own steps, with the user's own rows. -/
def ownRun (o : Uuid) (db : NotificationsDb) (es : List UnreadEvent) : UnreadState :=
  run (db.part o) (ownSteps step (own o) (start db) es)

/-- `part`: what is the user's in a run is what the user's own steps make of it. `unreadCount` and
`list`: so is everything that the user is shown. -/
structure NotificationsApart (db : NotificationsDb) (es : List UnreadEvent) (o : Uuid) : Prop where
  part : (run db es).part o = ownRun o db es
  unreadCount : ∀ fails, (run db es).unreadCount o fails = (ownRun o db es).unreadCount o fails
  list : ∀ t query, NotificationService.list t (run db es).db o query =
    NotificationService.list t (ownRun o db es).db o query

theorem part_start (db : NotificationsDb) (o : Uuid) : (start db).part o = start (db.part o) := by
  have hcounter : (fun u => if u = o then (start db).counter u else none) = fun _ => none :=
    funext fun u => ite_self none
  show UnreadState.mk _ _ _ = UnreadState.mk _ _ _
  rw [hcounter]
  rfl

theorem notifications_apart (db : NotificationsDb) (es : List UnreadEvent) (o : Uuid)
    (h : Along step GivesOwnIds (start db) es) : NotificationsApart db es o := by
  have hpart : (run db es).part o = ownRun o db es := by
    refine (view_run (fun st => st.part o) (part_step o) es _ h).trans ?_
    rw [part_start]
    rfl
  refine ⟨hpart, fun fails => ?_, fun t query => ?_⟩
  · rw [← hpart, unreadCount_part]
  · rw [← hpart]
    exact (list_part t _ query).symm

/-- Both users are told of a broadcast, and the second tries the ids of the first. -/
def meddling : List UnreadEvent :=
  [.call (.notifyMany [notified ⟨10⟩, { notified ⟨11⟩ with ownerId := ⟨2⟩ }]) false,
   .task 1 false,
   .task 0 false,
   .call (.markRead ⟨10⟩ ⟨2⟩ 5) false,
   .call (.markAllRead ⟨2⟩ 6) false,
   .call (.delete ⟨10⟩ ⟨2⟩) false,
   .task 0 false,
   .task 0 false]

theorem notifications_apart_meddling :
    (run noNotifications meddling).db.notifications.rows.length = 2 ∧
      (run noNotifications meddling).unreadCount ⟨2⟩ false = 0 ∧
      (run noNotifications meddling).unreadCount ⟨1⟩ false = 1 ∧
      NotificationsApart noNotifications meddling ⟨1⟩ := by
  refine ⟨by decide, by decide, by decide, notifications_apart _ _ _ ?_⟩
  refine ⟨⟨?_, ?_⟩, trivial, trivial, trivial, trivial, trivial, trivial, trivial, trivial⟩
  · rintro n - m ⟨⟩
  · decide

end UnreadState

end Meno
