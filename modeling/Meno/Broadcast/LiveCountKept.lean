import Meno.Lib.Deferred
import Meno.Broadcast.LiveRows

/-!
# Meno.Broadcast.LiveCountKept

When the Redis live count is the number of live participants. The count and the tasks that are still
to be done settle to the number of live rows, as long as every operation changes the rows by what its
task does to the count, and every task is done before the ones that may overtake it. `Counts` says
which operations and tasks break that: `live_count_kept` is about the runs without them.
-/

namespace Meno

open Lib BroadcastRepository BroadcastService

/-! ## The tasks as updates of a counter -/

def CountTask.update : CountTask → Update
  | setLiveCount _ => .put 1
  | incrementLiveCount _ => .add 1
  | decrementLiveCount _ => .add (-1)
  | del _ => .add 0
  | decr _ => .add (-1)
  | deleteLiveCount _ => .put 0

/-- What the tasks of a broadcast do to its count. -/
def countUpdates (tasks : List CountTask) (b : Uuid) : List Update :=
  (tasks.filter fun task => task.broadcastId = b).map CountTask.update

section Updates

variable {task : CountTask} {tasks tasks' : List CountTask} {b : Uuid}

@[simp] theorem countUpdates_append : countUpdates (tasks ++ tasks') b =
    countUpdates tasks b ++ countUpdates tasks' b := by
  simp [countUpdates]

theorem countUpdates_cons_self (h : task.broadcastId = b) :
    countUpdates (task :: tasks) b = task.update :: countUpdates tasks b := by
  simp [countUpdates, h]

theorem countUpdates_cons_other (h : task.broadcastId ≠ b) :
    countUpdates (task :: tasks) b = countUpdates tasks b := by
  simp [countUpdates, h]

@[simp] theorem countUpdates_nil : countUpdates [] b = [] := rfl

@[simp] theorem countUpdates_singleton :
    countUpdates [task] b = if task.broadcastId = b then [task.update] else [] := by
  by_cases h : task.broadcastId = b <;> simp [countUpdates, h]

theorem countUpdates_eq_nil (h : ∀ task ∈ tasks, task.broadcastId ≠ b) :
    countUpdates tasks b = [] := by
  simp only [countUpdates, List.map_eq_nil_iff, List.filter_eq_nil_iff, decide_eq_true_eq]
  exact h

/-- The rest of a task only deletes the key of a count that is zero. -/
theorem settle_rest {fails : Bool} {key : Option Int} {v : Int} {us vs : List Update} :
    settle v (us ++ countUpdates (task.call fails key).2.toList b ++ vs) =
      settle v (us ++ vs) := by
  have hrest : countUpdates (task.call fails key).2.toList b = [] ∨
      countUpdates (task.call fails key).2.toList b = [.add 0] := by
    cases task with
    | decrementLiveCount b' =>
      by_cases hr : max (if fails then 0 else key.getD 0 - 1) 0 = 0
      · have hcall : ((CountTask.decrementLiveCount b').call fails key).2 = some (.del b') :=
          if_pos hr
        rw [hcall]
        by_cases hb : b' = b
        · exact .inr (countUpdates_cons_self hb)
        · exact .inl (countUpdates_cons_other hb)
      · have hcall : ((CountTask.decrementLiveCount b').call fails key).2 = none := if_neg hr
        rw [hcall]
        exact .inl rfl
    | _ => exact .inl rfl
  rcases hrest with h | h
  · rw [h, List.append_nil]
  · rw [h, List.append_assoc]
    exact settle_add_zero

end Updates

/-! ## What keeps rows and count in step -/

/-- The operation changes the live rows of `b` by what its task does to the count: a start or a join
finds no row of the user, and the start does not fail after its commit; `add_cohost`, which spawns
no task, and the demotion of a cohost find one; a cohost who is removed from the room is in it. -/
def CallCounts (db : BroadcastDb) (b : Uuid) (faults : List Bool) : BroadcastOp → Prop
  | .start _ b' u => b' = b → StartCommits db b u faults →
    db.participants.get (b, u) = none ∧ ¬Fails faults 9
  | .join _ b' u => b' = b → JoinReaches db b u faults → db.participants.get (b, u) = none
  | .addCohost _ b' r u => b' = b → AddCohostCommits db b r u faults →
    db.participants.get (b, u) ≠ none
  | .removeCohost _ b' u r true => b' = b → RemoveCohostCommits db b u r faults →
    ∃ p, db.participants.get (b, u) = some p ∧ p.leftAt = none
  | .removeCohost _ b' u r false => b' = b → RemoveCohostCommits db b u r faults →
    db.participants.get (b, u) ≠ none
  | _ => True

/-- The call of the `i`-th task does what it is for, and in its turn, unless the broadcast is not
live or a task that sets or deletes the key comes later. -/
def TaskCounts (st : CountState) (b h : Uuid) (i : Nat) (fails : Bool) : Prop :=
  ∀ task, st.tasks[i]? = some task → task.broadcastId = b → InStatus .active st.db b h →
    overwrites (countUpdates (st.tasks.drop (i + 1)) b) = false →
    match task with
    | .setLiveCount _ | .deleteLiveCount _ =>
      fails = false ∧ countUpdates (st.tasks.take i) b = []
    | .incrementLiveCount _ | .decrementLiveCount _ | .decr _ =>
      fails = false ∧ overwrites (countUpdates (st.tasks.take i) b) = false
    | .del _ =>
      fails = true ∨ overwrites (countUpdates (st.tasks.take i) b) = true ∨ st.liveCount b = 0

def Counts (b h : Uuid) (st : CountState) : CountEvent → Prop
  | .call op _ faults => CallCounts st.db b faults op
  | .task i fails => TaskCounts st b h i fails

/-! ## The invariant -/

/-- The broadcast is not live and nobody is in it, or its count settles to the number of those who
are. -/
inductive Counted (b h : Uuid) (st : CountState) : Prop where
  | idle : InStatus .inactive st.db b h → liveRows st.db b = 0 → Counted b h st
  | live : InStatus .active st.db b h →
    settle (st.liveCount b) (countUpdates st.tasks b) = liveRows st.db b → Counted b h st

section Task

variable {st : CountState} {b h : Uuid} {i : Nat} {fails : Bool}

/-- A task that counts may be done when it is. -/
theorem settle_call {task : CountTask} {key : Option Int} {us vs : List Update}
    (hcounts : overwrites vs = false → match task with
      | .setLiveCount _ | .deleteLiveCount _ => fails = false ∧ us = []
      | .incrementLiveCount _ | .decrementLiveCount _ | .decr _ =>
        fails = false ∧ overwrites us = false
      | .del _ => fails = true ∨ overwrites us = true ∨ key.getD 0 = 0) :
    settle ((task.call fails key).1.getD 0) (us ++ vs) =
      settle (key.getD 0) (us ++ task.update :: vs) := by
  cases hvs : overwrites vs with
  | true =>
    rw [settle_append, settle_append]
    exact settle_of_overwrites hvs
  | false =>
    have hcounts := hcounts hvs
    cases task with
    | setLiveCount b =>
      obtain ⟨rfl, rfl⟩ := hcounts
      rfl
    | deleteLiveCount b =>
      obtain ⟨rfl, rfl⟩ := hcounts
      rfl
    | incrementLiveCount b =>
      obtain ⟨rfl, hus⟩ := hcounts
      exact settle_early (u := .add 1) (.inr (.inr ⟨rfl, hus⟩))
    | decrementLiveCount b =>
      obtain ⟨rfl, hus⟩ := hcounts
      exact settle_early (u := .add (-1)) (.inr (.inr ⟨rfl, hus⟩))
    | decr b =>
      obtain ⟨rfl, hus⟩ := hcounts
      exact settle_early (u := .add (-1)) (.inr (.inr ⟨rfl, hus⟩))
    | del b =>
      have hzero : settle (key.getD 0) (us ++ .add 0 :: vs) = settle (key.getD 0) (us ++ vs) :=
        settle_add_zero
      refine Eq.trans ?_ hzero.symm
      rcases hcounts with rfl | hus | hkey
      · rfl
      · rw [settle_append, settle_append]
        exact congrArg (settle · vs) (settle_of_overwrites hus)
      · rw [hkey]
        cases fails with
        | true => exact congrArg (settle · (us ++ vs)) hkey
        | false => rfl

theorem Counted.task (hst : Counted b h st) (ht : TaskCounts st b h i fails) :
    Counted b h (st.runTask i fails) := by
  unfold CountState.runTask
  cases hi : st.tasks[i]? with
  | none => exact hst
  | some task =>
    cases hst with
    | idle hin hrows => exact .idle hin hrows
    | live hin hsettle =>
      refine .live hin ?_
      obtain ⟨hlt, hget⟩ := List.getElem?_eq_some_iff.1 hi
      have htasks : st.tasks = st.tasks.take i ++ task :: st.tasks.drop (i + 1) := by
        rw [← hget, ← List.drop_eq_getElem_cons hlt, List.take_append_drop]
      have hrows : settle (st.liveCount b) (countUpdates (st.tasks.take i) b ++
          countUpdates (task :: st.tasks.drop (i + 1)) b) = liveRows st.db b := by
        rw [← hsettle, ← countUpdates_append, ← htasks]
      refine Eq.trans ?_ hrows
      simp only [countUpdates_append, settle_rest, CountState.liveCount, BroadcastDb.setLiveCount]
      by_cases hb : task.broadcastId = b
      · rw [countUpdates_cons_self hb, hb, Function.update_self]
        exact settle_call fun hvs => ht task hi hb hin hvs
      · rw [countUpdates_cons_other hb, Function.update_of_ne (Ne.symm hb)]

end Task

/-! ### The operations -/

section Call

variable {st : CountState} {b h u : Uuid} {t now : OffsetDateTime} {faults : List Bool}
  {op : BroadcastOp}

theorem spawns_elsewhere {db : BroadcastDb} (hroom : op.room ≠ some b) :
    countUpdates (op.spawns t faults db) b = [] := by
  refine countUpdates_eq_nil fun task htask hb => hroom ?_
  rw [← hb]
  cases op with
  | start | endBroadcast | join | leave | removeCohost =>
    simp only [BroadcastOp.spawns, List.mem_ite_nil_right, List.mem_singleton] at htask
    rw [htask.2]
    rfl
  | _ => cases htask

/-- A live broadcast that is found is counted. -/
theorem Counted.live_of_found (hst : Counted b h st)
    (hrow : ∃ row, findById st.db b = some row ∧ row.status = .active) :
    InStatus .active st.db b h ∧
      settle (st.liveCount b) (countUpdates st.tasks b) = liveRows st.db b := by
  obtain ⟨row, hrow, hactive⟩ := hrow
  cases hst with
  | idle hin _ =>
    have hinactive := (hin.found hrow).2
    rw [hactive] at hinactive
    cases hinactive
  | live hin hsettle => exact ⟨hin, hsettle⟩

theorem step_liveCount : (st.step (.call op t faults)).liveCount b = st.liveCount b :=
  congrArg (fun keys : BroadcastKeys => (keys.liveCount b).getD 0) (keys_op op faults)

/-- A call that changes no row and spawns no task. -/
theorem Counted.kept (hst : Counted b h st) (hsame : SameRows st.db (op.run t faults st.db).2)
    (hspawns : countUpdates (op.spawns t faults st.db) b = []) :
    Counted b h (st.step (.call op t faults)) := by
  have hrows : liveRows (op.run t faults st.db).2 b = liveRows st.db b := liveRows_congr hsame b
  cases hst with
  | idle hin hnone => exact .idle (hin.sameRows hsame) (hrows.trans hnone)
  | live hin hsettle =>
    refine .live (hin.sameRows hsame) ?_
    rw [step_liveCount, CountState.step, countUpdates_append, hspawns, List.append_nil, hsettle,
      hrows]

/-- A call that changes the rows by what its task does to the count. -/
theorem Counted.moved (hst : InStatus .active st.db b h ∧
      settle (st.liveCount b) (countUpdates st.tasks b) = liveRows st.db b)
    (hend : ∀ now, op ≠ .endBroadcast now b h) {n : Int}
    (hrows : (liveRows (op.run t faults st.db).2 b : Int) = liveRows st.db b + n)
    (hspawns : ∀ v, settle v (countUpdates (op.spawns t faults st.db) b) = v + n) :
    Counted b h (st.step (.call op t faults)) := by
  refine .live (hst.1.op op (fun hne => by cases hne) fun _ => hend) ?_
  rw [step_liveCount, CountState.step, countUpdates_append, settle_append, hspawns, hst.2]
  exact hrows.symm

theorem Counted.elsewhere (hst : Counted b h st) (hroom : op.room ≠ some b) :
    Counted b h (st.step (.call op t faults)) := by
  have hrows : liveRows (op.run t faults st.db).2 b = liveRows st.db b :=
    liveRows_elsewhere hroom faults
  have hstart : ∀ now, op ≠ .start now b h := fun now hop => hroom (hop ▸ rfl)
  have hend : ∀ now, op ≠ .endBroadcast now b h := fun now hop => hroom (hop ▸ rfl)
  cases hst with
  | idle hin hnone =>
    exact .idle (hin.op op (fun _ => hstart) fun _ => hend) (hrows.trans hnone)
  | live hin hsettle =>
    refine Counted.moved (n := 0) ⟨hin, hsettle⟩ hend ?_ ?_
    · rw [hrows]
      omega
    · intro v
      rw [spawns_elsewhere hroom]
      exact (Int.add_zero v).symm

theorem Counted.start (hst : Counted b h st) (hc : CallCounts st.db b faults (.start now b u)) :
    Counted b h (st.step (.call (.start now b u) t faults)) := by
  rcases run_start st.db t now b u faults with
    ⟨hok, hcommits, hstarts, row', hrow', hactive⟩ | ⟨hno, hsame | ⟨hcommits, hlate⟩⟩
  · obtain ⟨hnone, -⟩ := hc rfl hcommits
    obtain ⟨row, hrow, hu, hinactive⟩ := hcommits.row
    cases hst with
    | live hin _ =>
      have hactive := (hin.found hrow).2
      rw [hinactive] at hactive
      cases hactive
    | idle hin hzero =>
      have hh : row.creatorId = h := (hin.found hrow).1
      have hcreator : IsCreator st.db b h :=
        ⟨row, (Option.filter_eq_some_iff.1 hrow).1, hh⟩
      obtain ⟨row'', hrow'', hh''⟩ := hcreator.op (t := t) (.start now b u) faults
      rw [hrow'] at hrow''
      cases hrow''
      have hrows : liveRows ((BroadcastOp.start now b u).run t faults st.db).2 b =
          liveRows st.db b + 1 := liveRows_upsert_new hstarts.participants hnone
      rw [hzero, Nat.zero_add] at hrows
      refine .live ⟨row', hrow', hh'', hactive⟩ ?_
      have hspawns : countUpdates ((BroadcastOp.start now b u).spawns t faults st.db) b =
          [.put 1] := by
        simp [BroadcastOp.spawns, hok, CountTask.broadcastId, CountTask.update]
      rw [CountState.step, countUpdates_append, settle_append, hspawns, hrows]
      rfl
  · refine hst.kept hsame ?_
    simp [BroadcastOp.spawns, hno]
  · exact absurd hlate (hc rfl hcommits).2

theorem Counted.endBroadcast (hst : Counted b h st) :
    Counted b h (st.step (.call (.endBroadcast now b u) t faults)) := by
  rcases run_endBroadcast st.db t now b u faults with ⟨hc, hok, -⟩ | ⟨-, hno, hd⟩
  · obtain ⟨row, hrow, -, hactive⟩ := hc.row
    refine .idle ((hst.live_of_found ⟨row, hrow, hactive⟩).1.ended hc) ?_
    have hclears : Txn.Ends broadcastEngine false t (BroadcastService.endBroadcast now b u)
      _ _ st.db none := endBroadcast_clears
    rcases Txn.run_map_ends hclears BroadcastAnswer.ended faults (by simp) with
      ⟨-, _, _, hzero⟩ | ⟨hno, -⟩
    · exact hzero
    · exact absurd (hok.symm.trans hno) (by simp)
  · refine hst.kept (fun k => congrArg (·.look k) hd) ?_
    simp [BroadcastOp.spawns, hno]

theorem Counted.join (hst : Counted b h st) (hc : CallCounts st.db b faults (.join now b u)) :
    Counted b h (st.step (.call (.join now b u) t faults)) := by
  obtain ⟨hd, ⟨hreaches, hok, hput⟩ | ⟨-, hno, hsame⟩⟩ := run_join st.db t now b u faults
  · obtain ⟨row, hrow, hactive, -⟩ := hreaches.row
    refine Counted.moved (n := 1) (hst.live_of_found ⟨row, hrow, hactive⟩)
      (fun _ hne => by cases hne) ?_ ?_
    · rw [hd]
      exact congrArg Nat.cast (liveRows_upsert_new hput (hc rfl hreaches))
    · simp [BroadcastOp.spawns, hok, CountTask.broadcastId, CountTask.update, Update.apply]
  · refine hst.kept (fun k => congrArg (·.look k) (hd.trans hsame)) ?_
    simp [BroadcastOp.spawns, hno]

theorem Counted.leave (hst : Counted b h st) :
    Counted b h (st.step (.call (.leave now b u) t faults)) := by
  have hleave : Txn.Ends broadcastEngine false t (BroadcastService.leave now b u) _ _ st.db none :=
    leave_ends
  have hsame : ∀ d, d = st.db → SameRows st.db d := fun _ hd k => congrArg (·.look k) hd
  rcases Txn.run_map_ends hleave BroadcastAnswer.left faults (by simp) with
    ⟨hok, _, _, ⟨hno, hd⟩ | ⟨hleaves, herase⟩⟩ | ⟨hno, _, _, hd⟩
  · refine hst.kept (hsame _ hd) ?_
    simp [BroadcastOp.spawns, hno]
  · obtain ⟨hrow, p, hp, hleft⟩ := of_leaves hleaves
    refine Counted.moved (n := -1) (hst.live_of_found hrow) (fun _ hne => by cases hne) ?_ ?_
    · have hrows : liveRows ((BroadcastOp.leave now b u).run t faults st.db).2 b + 1 =
          liveRows st.db b := liveRows_erase_live hp hleft herase
      omega
    · have hok : ((BroadcastOp.leave now b u).run t faults st.db).1.isOk = true := hok
      simp [BroadcastOp.spawns, hok, hleaves, CountTask.broadcastId, CountTask.update, Update.apply]
  · refine hst.kept (hsame _ hd) ?_
    have hno : ((BroadcastOp.leave now b u).run t faults st.db).1.isOk = false := hno
    simp [BroadcastOp.spawns, hno]

theorem Counted.addCohost {r : Uuid} (hst : Counted b h st)
    (hc : CallCounts st.db b faults (.addCohost now b r u)) :
    Counted b h (st.step (.call (.addCohost now b r u) t faults)) := by
  have hadd : Txn.EndsAt broadcastEngine faults t (BroadcastService.addCohost now b r u) _ _ 0
    st.db none := addCohost_endsAt
  rcases Txn.run_map_endsAt hadd BroadcastAnswer.cohost with
    ⟨-, _, _, _, hcommits, hput⟩ | ⟨-, _, _, _, -, hd⟩
  · obtain ⟨row, hrow, hactive, -⟩ := hcommits.row
    refine Counted.moved (n := 0) (hst.live_of_found ⟨row, hrow, hactive⟩)
      (fun _ hne => by cases hne) ?_ ?_
    · have hrows : liveRows ((BroadcastOp.addCohost now b r u).run t faults st.db).2 b =
          liveRows st.db b := liveRows_upsert_old hput (hc rfl hcommits)
      omega
    · simp [BroadcastOp.spawns]
  · exact hst.kept (fun k => congrArg (·.look k) hd) rfl

theorem Counted.removeCohost {r : Uuid} {fromRoom : Bool} (hst : Counted b h st)
    (hc : CallCounts st.db b faults (.removeCohost now b u r fromRoom)) :
    Counted b h (st.step (.call (.removeCohost now b u r fromRoom) t faults)) := by
  let op := BroadcastOp.removeCohost now b u r fromRoom
  have hremove : Txn.EndsAt broadcastEngine faults t
    (BroadcastService.removeCohost now b u r fromRoom) _ _ 0 st.db none :=
    removeCohost_endsAt fromRoom
  have hsame : ∀ d, d = st.db → SameRows st.db d := fun _ hd k => congrArg (·.look k) hd
  -- whatever the answer is, a task is spawned if the cohost is removed from the room
  have hmoved : RemoveCohostCommits st.db b u r faults →
      CohostRemoved st.db now b u fromRoom (op.run t faults st.db).2 →
      countUpdates (op.spawns t faults st.db) b = (if fromRoom then [.add (-1)] else []) →
      Counted b h (st.step (.call op t faults)) := by
    intro hcommits hremoved hspawns
    obtain ⟨row, hrow, hactive, -⟩ := hcommits.row
    have hlive := hst.live_of_found ⟨row, hrow, hactive⟩
    cases fromRoom with
    | true =>
      obtain ⟨p, hp, hleft⟩ := hc rfl hcommits
      refine Counted.moved (n := -1) hlive (by simp [op]) ?_ ?_
      · have hrows : liveRows (op.run t faults st.db).2 b + 1 = liveRows st.db b :=
          liveRows_erase_live hp hleft hremoved
        omega
      · simp [hspawns, Update.apply]
    | false =>
      refine Counted.moved (n := 0) hlive (by simp [op]) ?_ ?_
      · have hrows : liveRows (op.run t faults st.db).2 b = liveRows st.db b :=
          liveRows_upsert_old hremoved (hc rfl hcommits)
        omega
      · simp [hspawns]
  rcases Txn.run_map_endsAt hremove (fun _ => BroadcastAnswer.done) with
    ⟨hok, _, _, _, ⟨hno, hd⟩ | ⟨hcommits, hremoved⟩⟩ |
    ⟨hno, _, _, _, ⟨-, hd⟩ | ⟨hcommits, hstays, hremoved⟩⟩
  · refine hst.kept (hsame _ hd) ?_
    simp [BroadcastOp.spawns, hno]
  · refine hmoved hcommits hremoved ?_
    have hok : (op.run t faults st.db).1.isOk = true := hok
    cases fromRoom <;>
      simp [op, BroadcastOp.spawns, hok, hcommits.cohost, CountTask.broadcastId, CountTask.update]
  · refine hst.kept (hsame _ hd) ?_
    have hno : (op.run t faults st.db).1.isOk = false := hno
    simp [op, BroadcastOp.spawns, hno]
  · refine hmoved hcommits hremoved ?_
    simp [op, BroadcastOp.spawns, hstays]

theorem Counted.call (hst : Counted b h st) (hc : CallCounts st.db b faults op) :
    Counted b h (st.step (.call op t faults)) := by
  by_cases hroom : op.room = some b
  swap
  · exact hst.elsewhere hroom
  cases op with
  | start now b' u =>
    obtain rfl : b' = b := Option.some.inj hroom
    exact hst.start hc
  | endBroadcast now b' u =>
    obtain rfl : b' = b := Option.some.inj hroom
    exact hst.endBroadcast
  | join now b' u =>
    obtain rfl : b' = b := Option.some.inj hroom
    exact hst.join hc
  | leave now b' u =>
    obtain rfl : b' = b := Option.some.inj hroom
    exact hst.leave
  | addCohost now b' r u =>
    obtain rfl : b' = b := Option.some.inj hroom
    exact hst.addCohost hc
  | removeCohost now b' u r fromRoom =>
    obtain rfl : b' = b := Option.some.inj hroom
    exact hst.removeCohost hc
  | _ => cases hroom

end Call

theorem Counted.step {st : CountState} {b h : Uuid} {e : CountEvent} (hst : Counted b h st)
    (he : Counts b h st e) : Counted b h (st.step e) := by
  cases e with
  | call op t faults => exact hst.call he
  | task i fails => exact hst.task he

/-! ## The count of a broadcast -/

/-- Once its tasks are done, the count of a live broadcast is the number of its live rows. -/
def CountKept (b h : Uuid) (st : CountState) : Prop :=
  InStatus .active st.db b h → st.pending b = [] → st.liveCount b = liveRows st.db b

/-- In every run of operations and tasks that count, from a broadcast that is not live. -/
theorem live_count_kept (st : CountState) (b h : Uuid) (es : List CountEvent)
    (hidle : InStatus .inactive st.db b h) (hnone : liveRows st.db b = 0)
    (hes : Along CountState.step (Counts b h) st es) : CountKept b h (st.run es) := by
  intro hactive hpending
  have hst : Counted b h (st.run es) :=
    Along.invariant (fun _ _ hst he => hst.step he) (.idle hidle hnone) hes
  cases hst with
  | idle hin _ =>
    obtain ⟨row, hrow, -, hinactive⟩ := hin
    obtain ⟨row', hrow', -, hactive⟩ := hactive
    rw [hrow] at hrow'
    cases hrow'
    rw [hinactive] at hactive
    cases hactive
  | live _ hsettle =>
    have hnil : countUpdates (st.run es).tasks b = [] := congrArg (List.map _) hpending
    rwa [hnil] at hsettle

/-! ## Short runs -/

/-- User 1 has created broadcast 9. -/
def created : CountState where
  db := storeAfter (firstSession.take 1)
  tasks := []

/-- User 1 starts the broadcast, and user 2 joins it. -/
def startAndJoin : List CountEvent :=
  [.call (.start 2 ⟨9⟩ ⟨1⟩) 2 [], .task 0 false, .call (.join 3 ⟨9⟩ ⟨2⟩) 3 [], .task 0 false]

theorem two_are_counted :
    CountKept ⟨9⟩ ⟨1⟩ (created.run startAndJoin) ∧ (created.run startAndJoin).liveCount ⟨9⟩ = 2 := by
  refine ⟨live_count_kept created ⟨9⟩ ⟨1⟩ startAndJoin (by decide) (by decide) ?_, by decide⟩
  refine ⟨fun _ _ => by decide, ?_, fun _ _ => by decide, ?_, trivial⟩
  all_goals
    intro task htask _ _ _
    cases htask
    decide

/-- User 2 is added as a cohost. -/
def cohostAdded : List CountEvent :=
  [.call (.start 2 ⟨9⟩ ⟨1⟩) 2 [], .task 0 false, .call (.addCohost 3 ⟨9⟩ ⟨1⟩ ⟨2⟩) 3 []]

/-- The task of the join is done before that of the start. -/
def joinOvertakes : List CountEvent :=
  [.call (.start 2 ⟨9⟩ ⟨1⟩) 2 [], .call (.join 3 ⟨9⟩ ⟨2⟩) 3 [], .task 1 false, .task 0 false]

/-- The broadcast is ended and started again. -/
def startedAgain : List CountEvent :=
  [.call (.start 2 ⟨9⟩ ⟨1⟩) 2 [], .task 0 false, .call (.endBroadcast 4 ⟨9⟩ ⟨1⟩) 4 [],
    .task 0 false, .call (.start 5 ⟨9⟩ ⟨1⟩) 5 [], .task 0 false]

/-- Two rows and a count of one, twice, and no row for a count of one. -/
theorem live_participants_are_not_counted :
    InStatus .inactive created.db ⟨9⟩ ⟨1⟩ ∧ liveRows created.db ⟨9⟩ = 0 ∧
      ∀ es ∈ [cohostAdded, joinOvertakes, startedAgain], ¬CountKept ⟨9⟩ ⟨1⟩ (created.run es) := by
  refine ⟨by decide, by decide, ?_⟩
  have hoff : ∀ st, InStatus .active st.db ⟨9⟩ ⟨1⟩ ∧ st.pending ⟨9⟩ = [] ∧
      st.liveCount ⟨9⟩ ≠ (liveRows st.db ⟨9⟩ : Int) → ¬CountKept ⟨9⟩ ⟨1⟩ st :=
    fun st ⟨hactive, hpending, hne⟩ hkept => hne (hkept hactive hpending)
  intro es hes
  simp only [List.mem_cons, List.not_mem_nil, or_false] at hes
  rcases hes with rfl | rfl | rfl
  all_goals
    apply hoff
    decide

end Meno
