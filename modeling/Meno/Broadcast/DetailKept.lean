import Meno.Broadcast.Detail
import Meno.Broadcast.Ending

/-!
# Meno.Broadcast.DetailKept

When a kept response is what would be fetched. An operation changes what is read of its own broadcast
only, and most operations that do spawn the deletion of the key (`reading_op`).
`detail_cache_transparent` is about the runs in which nothing else changes what is read of a
broadcast while its response is kept, and nothing is kept that has been overtaken.
-/

namespace Meno

open Lib BroadcastRepository BroadcastService

/-! ## What is read of other broadcasts -/

def BroadcastKey.broadcastId : BroadcastKey → Uuid
  | .broadcast id => id
  | .cohost b _ => b
  | .participant b _ => b

/-- The broadcast that an operation is about. -/
def BroadcastOp.subject : BroadcastOp → Uuid
  | .create _ _ id _ _ => id
  | .update _ _ b _ => b
  | .delete b _ => b
  | .start _ b _ => b
  | .endBroadcast _ b _ => b
  | .join _ b _ => b
  | .leave _ b _ => b
  | .addCohost _ b _ _ => b
  | .removeCohost _ b _ _ _ => b
  | .refreshToken _ b _ => b

section Frame

variable {db d : BroadcastDb} {t now : OffsetDateTime} {b u : Uuid} {faults : List Bool}

theorem reading_apply {w : BroadcastWrite} (h : w.key.broadcastId ≠ b) :
    (db.apply w).reading b = db.reading b := by
  cases w with
  | broadcast row =>
    have hget : (db.broadcasts.put row).get b = db.broadcasts.get b := by
      have hne : b ≠ row.id := Ne.symm h
      rw [Table.get_put, if_neg hne]
    simp only [BroadcastDb.reading, findById, BroadcastDb.apply, hget]
    rfl
  | cohost row =>
    have hne : row.broadcastId ≠ b := h
    have hcohosts : getCohosts (db.apply (.cohost row)) b = getCohosts db b := by
      refine congrArg (List.filterMap fun c : BroadcastCohost => findUserSummary db c.cohostId) ?_
      refine Table.filter_rows_put (by simp [hne]) fun x hx hkey => hne ?_
      have hxb : x.broadcastId = b := by simpa using (Bool.and_eq_true_iff.1 hx).1
      exact (congrArg Prod.fst hkey).symm.trans hxb
    rw [BroadcastDb.reading, hcohosts]
    rfl
  | dropCohost b' u =>
    have hcohosts : getCohosts (db.apply (.dropCohost b' u)) b = getCohosts db b := by
      refine congrArg (List.filterMap fun c : BroadcastCohost => findUserSummary db c.cohostId) ?_
      refine Table.filter_rows_erase fun x hx hkey => h ?_
      have hxb : x.broadcastId = b := by simpa using (Bool.and_eq_true_iff.1 hx).1
      exact (congrArg Prod.fst hkey).symm.trans hxb
    rw [BroadcastDb.reading, hcohosts]
    rfl
  | participant row =>
    have hne : row.broadcastId ≠ b := h
    have htotal : getTotalParticipants (db.apply (.participant row)) b = getTotalParticipants db b := by
      refine congrArg (fun rows : List BroadcastParticipant => (rows.length : Int)) ?_
      refine Table.filter_rows_put (by simp [hne]) fun x hx hkey => hne ?_
      have hxb : x.broadcastId = b := by simpa using hx
      exact (congrArg Prod.fst hkey).symm.trans hxb
    rw [BroadcastDb.reading, htotal]
    rfl
  | dropParticipant b' u =>
    have htotal : getTotalParticipants (db.apply (.dropParticipant b' u)) b =
        getTotalParticipants db b := by
      refine congrArg (fun rows : List BroadcastParticipant => (rows.length : Int)) ?_
      refine Table.filter_rows_erase fun x hx hkey => h ?_
      have hxb : x.broadcastId = b := by simpa using hx
      exact (congrArg Prod.fst hkey).symm.trans hxb
    rw [BroadcastDb.reading, htotal]
    rfl

theorem reading_applyAll {ws : List BroadcastWrite} (h : ∀ w ∈ ws, w.key.broadcastId ≠ b) :
    (broadcastEngine.applyAll db ws).reading b = db.reading b :=
  applyAll_invariant (I := fun d : BroadcastDb => d.reading b = db.reading b)
    (fun _ _ hd hw => (reading_apply hw).trans hd) rfl h

/-- `create` and `update` add cohosts to the row that they are answered. -/
def BroadcastOp.storesRow : BroadcastOp → Bool
  | .create _ _ _ _ _ => true
  | .update _ _ _ _ => true
  | _ => false

theorem subject_of_writes {op : BroadcastOp} (hop : op.storesRow = false) {β : Type}
    {s : BroadcastStmt β} {k : BroadcastKey} (h : op.Writes s) (ht : s.Touches k) :
    k.broadcastId = op.subject := by
  have hkey : ∀ {b' : Uuid}, k.broadcastId = b' → b' = op.subject → k.broadcastId = op.subject :=
    fun hk hb => hk.trans hb
  cases s with
  | create id input => cases op <;> first | (cases hop; done) | cases h
  | update input => cases op <;> first | (cases hop; done) | cases h
  | delete id =>
    refine hkey (congrArg BroadcastKey.broadcastId ht) ?_
    cases op <;> first | exact h | cases h
  | setActive input =>
    refine hkey (congrArg BroadcastKey.broadcastId ht) ?_
    cases op <;> first | exact h | cases h
  | setInactive id reason =>
    refine hkey (congrArg BroadcastKey.broadcastId ht) ?_
    cases op <;> first | exact h | cases h
  | addCohosts id us c =>
    obtain ⟨u, hu⟩ := ht
    refine hkey (congrArg BroadcastKey.broadcastId hu) ?_
    cases op <;> first | exact h | (cases hop; done) | cases h
  | removeCohost id u =>
    refine hkey (congrArg BroadcastKey.broadcastId ht) ?_
    cases op <;> first | exact h | cases h
  | upsertParticipant input =>
    have hk : k.broadcastId = input.broadcastId := by
      rcases ht with rfl | rfl <;> rfl
    refine hkey hk ?_
    cases op <;> first | exact h | cases h
  | removeParticipant id u =>
    have hk : k.broadcastId = id := by
      rcases ht with rfl | rfl <;> rfl
    refine hkey hk ?_
    cases op <;> first | exact h | cases h
  | getParticipantIdsAndClear id =>
    obtain ⟨u, hu⟩ := ht
    refine hkey (congrArg BroadcastKey.broadcastId hu) ?_
    cases op <;> first | exact h | cases h
  | _ => exact ht.elim

theorem id_of_update {input : UpdateBroadcastInput} {row : Broadcast} {ws : List BroadcastWrite}
    (h : BroadcastRepository.update db t input = .ok (row, ws)) : row.id = input.broadcastId := by
  simp only [BroadcastRepository.update, bind_eq_ok] at h
  obtain ⟨_, _, _, _, _, _, _, _, _, _, h⟩ := h
  cases hold : db.broadcasts.get input.broadcastId with
  | none =>
    rw [hold] at h
    cases h
  | some old =>
    rw [hold] at h
    simp only [bind_eq_ok, pure_eq_ok, Prod.mk.injEq] at h
    obtain ⟨_, _, rfl, -⟩ := h
    have hkey : old.id = input.broadcastId := Table.key_of_get hold
    exact hkey

theorem keys_of_update {input : UpdateBroadcastInput} {row : Broadcast} {ws : List BroadcastWrite}
    (h : BroadcastRepository.update db t input = .ok (row, ws)) :
    ∀ w ∈ ws, w.key = .broadcast input.broadcastId :=
  @exec_touches db t ws _ (.update input) row h

/-- A row and its cohosts are no matter of other broadcasts. -/
theorem reading_stored {c b' : Uuid} {us : List Uuid} {ws ws' : List BroadcastWrite}
    (hws : ∀ w ∈ ws, w.key = .broadcast b')
    (h : BroadcastRepository.addCohosts (broadcastEngine.applyAll db ws) t b' c us = .ok ((), ws'))
    (hb : b ≠ b') : (broadcastEngine.applyAll db (ws ++ ws')).reading b = db.reading b := by
  refine reading_applyAll fun w hw => ?_
  rcases List.mem_append.1 hw with hw | hw
  · rw [hws w hw]
    exact Ne.symm hb
  · obtain ⟨u, hu⟩ := addCohosts_touches us h w hw
    rw [hu]
    exact Ne.symm hb

/-- `update` changes no other broadcast, and nothing when it fails. -/
theorem update_reads {req : UpdateBroadcastRequest} {b' c : Uuid} :
    Txn.Ends broadcastEngine false t (update now req b' c)
      (fun _ d _ => ∀ b, b ≠ b' → d.reading b = db.reading b) (fun _ d _ => d = db) db none := by
  refine Txn.ends_bind (ends_lookup rfl fun broadcastResult hb => ?_)
  refine Txn.ends_bind (ends_lookup rfl fun creatorResult hc => ?_)
  refine Txn.ends_bind (ends_found hb (fun row hrow => ?_) (fun _ => rfl) fun _ => rfl)
  refine Txn.ends_bind (ends_found hc (fun creator _ => ?_) (fun _ => rfl) fun _ => rfl)
  refine Txn.ends_bind (ends_refuse (fun _ => ?_) fun _ => rfl)
  refine Txn.ends_bind (ends_refuse (fun _ => ?_) fun _ => rfl)
  refine Txn.ends_bind (ends_deduplicateCohosts (fun cohosts => ?_) fun _ => rfl)
  refine Txn.ends_bind (Txn.ends_begin ?_ fun _ => rfl)
  refine Txn.ends_bind (Txn.ends_tx (fun row' ws hws => ?_) (fun _ _ => rfl) fun _ => rfl)
  rw [List.nil_append]
  refine Txn.ends_bind (ends_addCohosts (fun ws' hws' => ?_) fun _ => rfl)
  refine Txn.ends_bind (Txn.ends_commit ?_ fun _ => rfl)
  refine Txn.ends_pure fun b hne => ?_
  rw [id_of_update hws] at hws'
  exact reading_stored (keys_of_update hws) hws' hne

/-- `create` changes no other broadcast, and none that is there. -/
theorem create_reads {later : OffsetDateTime} {id c : Uuid} {req : CreateBroadcastRequest} :
    Txn.Ends broadcastEngine false t (create now later id req c)
      (fun _ d _ => (∀ b, b ≠ id → d.reading b = db.reading b) ∧
        (d = db ∨ findById db id = none))
      (fun _ d _ => (∀ b, b ≠ id → d.reading b = db.reading b) ∧
        (d = db ∨ findById db id = none)) db none := by
  have hsame : (∀ b, b ≠ id → db.reading b = db.reading b) ∧ (db = db ∨ findById db id = none) :=
    ⟨fun _ _ => rfl, .inl rfl⟩
  refine Txn.ends_bind (Txn.ends_read rfl ?_ fun _ => hsame)
  refine Txn.ends_bind (ends_refuse (fun _ => ?_) fun _ => hsame)
  refine Txn.ends_bind (ends_refuse (fun _ => ?_) fun _ => hsame)
  refine Txn.ends_bind (ends_deduplicateCohosts (fun cohosts => ?_) fun _ => hsame)
  refine Txn.ends_bind (Txn.ends_begin ?_ fun _ => hsame)
  refine Txn.ends_bind (Txn.ends_tx (fun row ws hws => ?_) (fun _ _ => hsame) fun _ => hsame)
  obtain ⟨hins, hid, -, rfl⟩ := insertable_of_create hws
  rw [List.nil_append]
  refine Txn.ends_bind (ends_addCohosts (fun ws' hws' => ?_) fun _ => hsame)
  refine Txn.ends_bind (Txn.ends_commit ?_ fun _ => hsame)
  rw [hid] at hws'
  have hstored : (∀ b, b ≠ id → (broadcastEngine.applyAll db ([.broadcast row] ++ ws')).reading b =
      db.reading b) ∧ (broadcastEngine.applyAll db ([.broadcast row] ++ ws') = db ∨
        findById db id = none) := by
    refine ⟨fun b hne => reading_stored (List.forall_mem_singleton.2 ?_) hws' hne, .inr ?_⟩
    · exact congrArg BroadcastKey.broadcast hid
    have hfresh : db.broadcasts.get id = none := hins.fresh
    rw [findById, hfresh]
    rfl
  refine Txn.ends_bind (Txn.ends_read rfl ?_ fun _ => hstored)
  exact Txn.ends_bind (ends_okOr (fun _ _ => Txn.ends_pure hstored) fun _ => hstored)

theorem start_unchanged : Txn.Ends broadcastEngine false t (startCommit now b u)
    (fun _ _ _ => True) (fun _ d _ => d = db) db none := by
  refine Txn.ends_bind (ends_lookup rfl fun broadcastResult hb => ?_)
  refine Txn.ends_bind (ends_lookup rfl fun creatorResult hc => ?_)
  refine Txn.ends_bind (ends_found hb (fun row hrow => ?_) (fun _ => rfl) fun _ => rfl)
  refine Txn.ends_bind (ends_found hc (fun creator _ => ?_) (fun _ => rfl) fun _ => rfl)
  refine Txn.ends_bind (ends_refuse (fun _ => ?_) fun _ => rfl)
  refine Txn.ends_bind (ends_refuse (fun _ => ?_) fun _ => rfl)
  refine Txn.ends_bind (ends_createRoom ?_ (fun _ => rfl) fun _ => rfl)
  refine Txn.ends_bind (ends_mintToken ?_ fun _ => rfl)
  refine Txn.ends_bind (Txn.ends_begin ?_ fun _ => rfl)
  refine Txn.ends_bind (Txn.ends_tx (fun row' ws hws => ?_) (fun _ _ => rfl) fun _ => rfl)
  refine Txn.ends_bind (Txn.ends_tx (fun _ ws' hws' => ?_) (fun _ _ => rfl) fun _ => rfl)
  refine Txn.ends_bind (Txn.ends_commit ?_ fun _ => rfl)
  exact Txn.ends_pure trivial

/-- What a start does it has done at its commit. -/
theorem run_startCommit (db : BroadcastDb) (t now : OffsetDateTime) (b u : Uuid)
    (faults : List Bool) :
    let out := Txn.run broadcastEngine (startCommit now b u) db t faults
    out.1.isOk = true ∨ ((BroadcastOp.start now b u).run t faults db).2 = db := by
  have hread : ∀ {β : Type} (s : BroadcastStmt β), s.isRead = true → ∀ t d a ws,
      broadcastEngine.exec s t d = .ok (a, ws) → ws = [] := fun _ hs _ _ _ _ he => exec_read hs he
  have hstart : (BroadcastOp.start now b u).run t faults db =
      ((Txn.run broadcastEngine (start now b u) db t faults).1.map .session,
        (Txn.run broadcastEngine (start now b u) db t faults).2) :=
    Txn.run_map BroadcastAnswer.session _ db t faults
  have hrest : ((BroadcastOp.start now b u).run t faults db).2 =
      (Txn.run broadcastEngine (startCommit now b u) db t faults).2 := by
    rw [hstart, start_eq]
    refine Txn.run_bind_reads hread (fun r => ?_) db t faults
    exact Act.uses_bind (uses_query rfl) fun _ => Act.uses_pure _
  rw [hrest]
  obtain ⟨_, hend⟩ := Txn.run_ends faults (@start_unchanged db t now b u) (by simp)
  revert hend
  generalize Txn.run broadcastEngine (startCommit now b u) db t faults = out
  obtain ⟨e | r, d⟩ := out
  · exact .inr
  · exact fun _ => .inl rfl

end Frame

/-! ## What an operation changes -/

/-- The operations that change what is read of their broadcast, and do not delete its key. -/
def BroadcastOp.Silent : BroadcastOp → Uuid → Prop
  | .delete b _, b' => b = b'
  | .addCohost _ b _ _, b' => b = b'
  | .removeCohost _ b _ _ _, b' => b = b'
  | _, _ => False

section Operation

variable {db : BroadcastDb} {t : OffsetDateTime} {b : Uuid} {op : BroadcastOp}

theorem reading_elsewhere (h : op.subject ≠ b) (faults : List Bool) :
    (op.run t faults db).2.reading b = db.reading b := by
  cases hop : op.storesRow with
  | false =>
    let kept (d : BroadcastDb) : Prop := d.reading b = db.reading b
    let elsewhere (w : BroadcastWrite) : Prop := w.key.broadcastId ≠ b
    have happly : ∀ d w, kept d → elsewhere w → kept (broadcastEngine.apply d w) :=
      fun d w hd hw => (reading_apply hw).trans hd
    refine Txn.run_invariant happly ?_ (uses_writes op) rfl faults
    intro β s hs d a ws _ he w hw hk
    exact h ((subject_of_writes hop hs (exec_touches he w hw)).symm.trans hk)
  | true =>
    cases op with
    | create now later id req c =>
      have hend : Txn.Ends broadcastEngine false t (create now later id req c) _ _ db none :=
        create_reads
      rcases Txn.run_map_ends hend BroadcastAnswer.broadcast faults (by simp) with
        ⟨-, _, _, hsame, -⟩ | ⟨-, _, _, hsame, -⟩
      · exact hsame b (Ne.symm h)
      · exact hsame b (Ne.symm h)
    | update now req b' c =>
      have hend : Txn.Ends broadcastEngine false t (update now req b' c) _ _ db none :=
        update_reads
      rcases Txn.run_map_ends hend BroadcastAnswer.broadcast faults (by simp) with
        ⟨-, _, _, hsame⟩ | ⟨-, _, _, hsame⟩
      · exact hsame b (Ne.symm h)
      · exact congrArg (BroadcastDb.reading · b) hsame
    | _ => cases hop

/-- An operation that changes what is read of a broadcast deletes its key, unless it is one of the
three that do not, or creates the broadcast. -/
theorem reading_op (op : BroadcastOp) (t : OffsetDateTime) (faults : List Bool) (db : BroadcastDb)
    (b : Uuid) :
    (op.run t faults db).2.reading b = db.reading b ∨
      .invalidate b ∈ (op.details t faults db).flatten ∨ op.Silent b ∨ findById db b = none := by
  by_cases h : op.subject = b
  swap
  · exact .inl (reading_elsewhere h faults)
  cases op with
  | create now later id req c =>
    obtain rfl : id = b := h
    have hend : Txn.Ends broadcastEngine false t (create now later id req c) _ _ db none :=
      create_reads
    rcases Txn.run_map_ends hend BroadcastAnswer.broadcast faults (by simp) with
      ⟨-, _, _, -, hd | hnone⟩ | ⟨-, _, _, -, hd | hnone⟩
    · exact .inl (congrArg (BroadcastDb.reading · id) hd)
    · exact .inr (.inr (.inr hnone))
    · exact .inl (congrArg (BroadcastDb.reading · id) hd)
    · exact .inr (.inr (.inr hnone))
  | update now req b' c =>
    obtain rfl : b' = b := h
    have hend : Txn.Ends broadcastEngine false t (update now req b' c) _ _ db none := update_reads
    rcases Txn.run_map_ends hend BroadcastAnswer.broadcast faults (by simp) with
      ⟨hok, -⟩ | ⟨-, _, _, hd⟩
    · have hok : ((BroadcastOp.update now req b' c).run t faults db).1.isOk = true := hok
      exact .inr (.inl (by simp [BroadcastOp.details, hok]))
    · exact .inl (congrArg (BroadcastDb.reading · b') hd)
  | delete b' c => exact .inr (.inr (.inl h))
  | start now b' u =>
    obtain rfl : b' = b := h
    rcases run_startCommit db t now b' u faults with hok | hd
    · exact .inr (.inl (by simp [BroadcastOp.details, hok]))
    · exact .inl (congrArg (BroadcastDb.reading · b') hd)
  | endBroadcast now b' u =>
    obtain rfl : b' = b := h
    rcases run_endBroadcast db t now b' u faults with ⟨-, hok, -⟩ | ⟨-, -, hd⟩
    · exact .inr (.inl (by simp [BroadcastOp.details, hok]))
    · exact .inl (congrArg (BroadcastDb.reading · b') hd)
  | join now b' u =>
    obtain rfl : b' = b := h
    obtain ⟨hd, ⟨-, hok, -⟩ | ⟨-, -, hsame⟩⟩ := run_join db t now b' u faults
    · exact .inr (.inl (by simp [BroadcastOp.details, hok]))
    · exact .inl (congrArg (BroadcastDb.reading · b') (hd.trans hsame))
  | leave now b' u =>
    obtain rfl : b' = b := h
    have hleave : Txn.Ends broadcastEngine false t (leave now b' u) _ _ db none := leave_ends
    rcases Txn.run_map_ends hleave BroadcastAnswer.left faults (by simp) with
      ⟨hok, _, _, ⟨-, hd⟩ | ⟨hleaves, -⟩⟩ | ⟨-, _, _, hd⟩
    · exact .inl (congrArg (BroadcastDb.reading · b') hd)
    · have hok : ((BroadcastOp.leave now b' u).run t faults db).1.isOk = true := hok
      exact .inr (.inl (by simp [BroadcastOp.details, hok, hleaves]))
    · exact .inl (congrArg (BroadcastDb.reading · b') hd)
  | addCohost now b' r u => exact .inr (.inr (.inl h))
  | removeCohost now b' u r fromRoom => exact .inr (.inr (.inl h))
  | refreshToken now b' u =>
    let kept (d : BroadcastDb) : Prop := d.reading b = db.reading b
    let never (_ : BroadcastWrite) : Prop := False
    have happly : ∀ d w, kept d → never w → kept (broadcastEngine.apply d w) :=
      fun _ _ _ hno => hno.elim
    refine .inl (Txn.run_invariant happly ?_ (uses_writes (.refreshToken now b' u)) rfl faults)
    intro β s hs d a ws _ he w hw
    rw [exec_read (s := s) (by cases s <;> first | rfl | cases hs) he] at hw
    cases hw

end Operation

/-! ## Runs -/

namespace DetailState

/-- The deletion of the broadcast's key is still to come. -/
def Invalidates (s : DetailState) (b : Uuid) : Prop := .invalidate b ∈ s.pending

/-- What is found under the key was read as it is read now. -/
def Current (s : DetailState) (now : OffsetDateTime) (b : Uuid) : Prop :=
  ∀ kept ∈ s.cache.find now b, kept.seen = s.db.reading b

/-- A change of what is read: none of the broadcast, or nothing is kept of it, or its key is to be
deleted. -/
def Leaves (s : DetailState) (now : OffsetDateTime) (b : Uuid) (db' : BroadcastDb) : Prop :=
  s.Invalidates b ∨ s.cache.find now b = none ∨ db'.reading b = s.db.reading b

/-- The call is made in time. -/
def Timely (s : DetailState) (now : OffsetDateTime) (b : Uuid) (fails : Bool)
    (rest : List DetailCall) : DetailCall → Prop
  | .invalidate b' => b' = b → fails = true → .invalidate b ∈ rest ∨ s.Current now b
  | .fill b' kept => b' = b → fails = false → s.Invalidates b ∨ kept.seen = s.db.reading b
  | .count task => s.Leaves now b (s.call now fails (.count task)).1.db
  | .deleteHostGrace b' => s.Leaves now b (s.call now fails (.deleteHostGrace b')).1.db

/-- Time goes on. `delete`, `add_cohost`, `remove_cohost`, the live count and the grace period change
what is read of the broadcast only while nothing is kept of it, or its key is to be deleted. Nothing
is kept that has been overtaken, and the deletion of its key does not fail. -/
def Careful (b : Uuid) (s : DetailState) (e : DetailEntry) : Prop :=
  s.clock ≤ e.time ∧
    match e.event with
    | .call op t faults => op.Silent b → s.Leaves e.time b (op.run t faults s.db).2
    | .getBroadcast _ _ => True
    | .task i fails => ∀ call rest, s.tasks[i]? = some (call :: rest) →
        s.Timely e.time b fails (s.tasks.set i rest).flatten call
    | .hostGrace b' isSet => s.Leaves e.time b (s.db.setHostGrace b' isSet)

/-- The invariant. -/
def Sound (b : Uuid) (s : DetailState) : Prop := s.Invalidates b ∨ s.Current s.clock b

section Step

variable {s : DetailState} {b : Uuid} {now : OffsetDateTime}

theorem Current.later (h : s.Current s.clock b) (hnow : s.clock ≤ now) : s.Current now b :=
  fun kept hkept => h kept (Expiring.find_of_later hnow hkept)

/-- What is kept of a broadcast was made when it was there. -/
theorem find_eq_none (h : s.Current now b) (hnone : findById s.db b = none) :
    s.cache.find now b = none := by
  refine Option.eq_none_iff_forall_ne_some.2 fun kept hkept => ?_
  have hseen : kept.seen.broadcast = none := by
    rw [h kept hkept]
    exact hnone
  have hbuilt := kept.built
  rw [Reading.response, hseen] at hbuilt
  cases hbuilt

/-- A change of what is read that is in time. -/
theorem Sound.leaves {db' : BroadcastDb} (h : s.Sound b) (hnow : s.clock ≤ now)
    (hleaves : s.Leaves now b db') :
    s.Invalidates b ∨ ∀ kept ∈ s.cache.find now b, kept.seen = db'.reading b := by
  rcases h with hinv | hcurrent
  · exact .inl hinv
  · rcases hleaves with hinv | hnone | hsame
    · exact .inl hinv
    · refine .inr fun kept hkept => ?_
      rw [hnone] at hkept
      cases hkept
    · rw [hsame]
      exact .inr (hcurrent.later hnow)

theorem Sound.call {op : BroadcastOp} {t : OffsetDateTime} {faults : List Bool} (h : s.Sound b)
    (hs : s.Careful b ⟨now, .call op t faults⟩) : (s.step ⟨now, .call op t faults⟩).Sound b := by
  obtain ⟨hnow, hsilent⟩ := hs
  have happend : ∀ call, call ∈ s.pending ∨ call ∈ (op.details t faults s.db).flatten →
      call ∈ (s.step ⟨now, .call op t faults⟩).pending := by
    intro call hcall
    rw [pending, step, happen, List.flatten_append]
    exact List.mem_append.2 hcall
  have hleaves : s.Leaves now b (op.run t faults s.db).2 →
      (s.step ⟨now, .call op t faults⟩).Sound b := fun hleaves =>
    (h.leaves hnow hleaves).imp_left fun hinv => happend _ (.inl hinv)
  rcases reading_op op t faults s.db b with hsame | hinv | hop | hnone
  · exact hleaves (.inr (.inr hsame))
  · exact .inl (happend _ (.inr hinv))
  · exact hleaves (hsilent hop)
  · rcases h with hinv | hcurrent
    · exact .inl (happend _ (.inl hinv))
    · exact hleaves (.inr (.inl (find_eq_none (hcurrent.later hnow) hnone)))

theorem Sound.getBroadcast {b' : Uuid} {acquiresLock : Bool} (h : s.Sound b) (hnow : s.clock ≤ now) :
    (s.step ⟨now, .getBroadcast b' acquiresLock⟩).Sound b := by
  have hsame : ∃ tasks, s.step ⟨now, .getBroadcast b' acquiresLock⟩ =
      { s with tasks := s.tasks ++ tasks, clock := now } := by
    simp only [step, happen, DetailState.getBroadcast]
    split
    · exact ⟨[], by rw [List.append_nil]⟩
    · split
      · exact ⟨[], by rw [List.append_nil]⟩
      · cases acquiresLock with
        | true => exact ⟨_, rfl⟩
        | false => exact ⟨[], by rw [List.append_nil]; rfl⟩
  obtain ⟨tasks, hsame⟩ := hsame
  rw [hsame]
  refine h.imp (fun hinv => ?_) fun hcurrent => hcurrent.later hnow
  rw [Invalidates, pending, List.flatten_append]
  exact List.mem_append_left _ hinv

theorem Sound.hostGrace {b' : Uuid} {isSet : Bool} (h : s.Sound b)
    (hs : s.Careful b ⟨now, .hostGrace b' isSet⟩) : (s.step ⟨now, .hostGrace b' isSet⟩).Sound b :=
  h.leaves hs.1 hs.2

/-! ### Tasks -/

/-- The calls of a list of tasks of which one is changed. -/
theorem flatten_set {tasks : List (List DetailCall)} {task task' : List DetailCall} {i : Nat}
    (hi : tasks[i]? = some task) :
    (tasks.set i task').flatten =
      (tasks.take i).flatten ++ (task' ++ (tasks.drop (i + 1)).flatten) := by
  have hlt := (List.getElem?_eq_some_iff.1 hi).1
  rw [List.set_eq_take_append_cons_drop, if_pos hlt, List.flatten_append, List.flatten_cons]

/-- Of the calls that are still to be made, the task's next one is made. -/
theorem mem_pending {call c : DetailCall} {rest : List DetailCall} {i : Nat}
    (hi : s.tasks[i]? = some (call :: rest)) (hc : c ∈ s.pending) :
    c = call ∨ c ∈ (s.tasks.set i rest).flatten := by
  have hset : s.tasks.set i (call :: rest) = s.tasks := by
    obtain ⟨hlt, hget⟩ := List.getElem?_eq_some_iff.1 hi
    rw [← hget, List.set_getElem_self]
  rw [pending, ← hset, flatten_set hi] at hc
  rw [flatten_set hi]
  simp only [List.mem_append, List.mem_cons] at hc ⊢
  tauto

theorem mem_again {c : DetailCall} {task rest again : List DetailCall} {i : Nat}
    (hi : s.tasks[i]? = some task) (hc : c ∈ (s.tasks.set i rest).flatten) :
    c ∈ (s.tasks.set i (again ++ rest)).flatten := by
  rw [flatten_set hi] at hc ⊢
  simp only [List.mem_append] at hc ⊢
  tauto

/-- A call that leaves what is kept of the broadcast. -/
theorem Sound.leavesCall {db' : BroadcastDb} (h : s.Sound b) (hnow : s.clock ≤ now)
    (hleaves : s.Leaves now b db') {s' : DetailState} (hdb : s'.db = db')
    (hcache : s'.cache.find now b = s.cache.find now b) (hclock : s'.clock = now)
    (hkept : s.Invalidates b → s'.Invalidates b) : s'.Sound b := by
  refine (h.leaves hnow hleaves).imp hkept fun hcurrent kept hkept => ?_
  rw [hclock, hcache] at hkept
  rw [hdb]
  exact hcurrent kept hkept

theorem Sound.task {i : Nat} {fails : Bool} (h : s.Sound b)
    (hs : s.Careful b ⟨now, .task i fails⟩) : (s.step ⟨now, .task i fails⟩).Sound b := by
  obtain ⟨hnow, htimely⟩ := hs
  dsimp only at htimely
  cases hi : s.tasks[i]? with
  | none =>
    have hsame : s.step ⟨now, .task i fails⟩ = { s with clock := now } := by
      simp only [step, happen, runTask, hi]
    rw [hsame]
    exact h.imp_right fun hcurrent => hcurrent.later hnow
  | some task =>
    cases task with
    | nil =>
      have hsame : s.step ⟨now, .task i fails⟩ = { s with clock := now } := by
        simp only [step, happen, runTask, hi]
      rw [hsame]
      exact h.imp_right fun hcurrent => hcurrent.later hnow
    | cons call rest =>
      have htimely := htimely call rest hi
      have hrun : s.step ⟨now, .task i fails⟩ = {
          (s.call now fails call).1 with
          tasks := s.tasks.set i ((s.call now fails call).2.toList ++ rest)
          clock := now } := by
        simp only [step, happen, runTask, hi]
      rw [hrun]
      -- Other deletions stay.
      have hkept : call ≠ .invalidate b → s.Invalidates b →
          .invalidate b ∈ (s.tasks.set i ((s.call now fails call).2.toList ++ rest)).flatten := by
        intro hne hinv
        rcases mem_pending hi hinv with hcall | hrest
        · exact absurd hcall.symm hne
        · exact mem_again hi hrest
      cases call with
      | invalidate b' =>
        by_cases hb : b' = b
        · subst hb
          cases fails with
          | true =>
            refine (htimely rfl rfl).imp (mem_again hi) fun hcurrent => ?_
            exact hcurrent
          | false =>
            refine .inr fun kept hkept => ?_
            obtain ⟨entry, hentry, -, -⟩ := Expiring.find_eq_some hkept
            have hnone : none = some entry := (if_pos rfl).symm.trans hentry
            cases hnone
        · have hne : DetailCall.invalidate b' ≠ .invalidate b := fun h => hb (by cases h; rfl)
          refine h.leavesCall hnow (.inr (.inr rfl)) ?_ ?_ rfl (hkept hne)
          · cases fails <;> rfl
          · cases fails with
            | true => rfl
            | false => exact Expiring.find_congr (if_neg (Ne.symm hb)) now
      | fill b' kept =>
        by_cases hb : b' = b
        · subst hb
          cases fails with
          | true => exact h.leavesCall hnow (.inr (.inr rfl)) rfl rfl rfl (hkept nofun)
          | false =>
            refine (htimely rfl rfl).imp (hkept nofun) fun hseen found hfound => ?_
            obtain ⟨entry, hentry, rfl, -⟩ := Expiring.find_eq_some hfound
            obtain rfl := Option.some.inj ((if_pos rfl).symm.trans hentry)
            exact hseen
        · refine h.leavesCall hnow (.inr (.inr rfl)) ?_ ?_ rfl (hkept nofun)
          · cases fails <;> rfl
          · cases fails with
            | true => rfl
            | false => exact Expiring.find_congr (if_neg (Ne.symm hb)) now
      | count task => exact h.leavesCall hnow htimely rfl rfl rfl (hkept nofun)
      | deleteHostGrace b' =>
        refine h.leavesCall hnow htimely rfl ?_ rfl (hkept nofun)
        cases fails <;> rfl

end Step

/-- Every step that is careful. -/
theorem Sound.step {s : DetailState} {b : Uuid} {e : DetailEntry} (h : s.Sound b)
    (hs : s.Careful b e) : (s.step e).Sound b := by
  obtain ⟨now, event⟩ := e
  cases event with
  | call op t faults => exact h.call hs
  | getBroadcast b' acquiresLock => exact h.getBroadcast hs.1
  | task i fails => exact h.task hs
  | hostGrace b' isSet => exact h.hostGrace hs

/-- The time matters for the state of a broadcast that is not live. -/
theorem response_congr {r : Reading} {now later : OffsetDateTime}
    (h : ∀ row ∈ r.broadcast, row.getPartialState now = row.getPartialState later) :
    r.response now = r.response later := by
  unfold Reading.response
  cases hrow : r.broadcast with
  | none => rfl
  | some row =>
    cases r.creator with
    | none => rfl
    | some creator => simp only [buildResponse, h row hrow]

/-- What is answered when nothing is found. -/
theorem getBroadcast_of_none {s : DetailState} {b : Uuid} {now : OffsetDateTime}
    (h : s.cache.find now b = none) (acquiresLock : Bool) :
    (s.getBroadcast now b acquiresLock).1 = fetched s.db now b := by
  simp only [DetailState.getBroadcast, h]
  split
  · rename_i e he
    exact he.symm
  · rename_i response hresponse
    exact hresponse.symm

theorem getBroadcast_of_current {s : DetailState} {b : Uuid} {now : OffsetDateTime}
    (hcurrent : s.Current now b)
    (hstart : ∀ kept ∈ s.cache.find now b, ∀ row ∈ findById s.db b,
      row.getPartialState kept.made = row.getPartialState now) (acquiresLock : Bool) :
    (s.getBroadcast now b acquiresLock).1 = fetched s.db now b := by
  cases hfind : s.cache.find now b with
  | none => exact getBroadcast_of_none hfind acquiresLock
  | some kept =>
    have hbuilt := kept.built
    rw [hcurrent kept hfind] at hbuilt
    rw [fetched_eq, ← response_congr (hstart kept hfind), hbuilt]
    simp only [DetailState.getBroadcast, hfind]

end DetailState

/-- For every broadcast, in every run from an empty cache whose steps are careful: when the tasks
that are about the broadcast are done, and no start time has passed since its response was made,
`get_broadcast` answers as with an empty cache. -/
theorem detail_cache_transparent (db : BroadcastDb) (clock : OffsetDateTime) (b : Uuid)
    (es : List DetailEntry)
    (hes : Along DetailState.step (DetailState.Careful b) (.start db clock) es)
    (hdone : ∀ call ∈ ((DetailState.start db clock).run es).pending, call.broadcastId ≠ b)
    (now : OffsetDateTime) (hnow : ((DetailState.start db clock).run es).clock ≤ now)
    (hstart : ∀ kept ∈ ((DetailState.start db clock).run es).cache.find now b,
      ∀ row ∈ findById ((DetailState.start db clock).run es).db b,
        row.getPartialState kept.made = row.getPartialState now)
    (acquiresLock acquiresLock' : Bool) :
    (((DetailState.start db clock).run es).getBroadcast now b acquiresLock).1 =
      ({ (DetailState.start db clock).run es with cache := .empty }.getBroadcast now b
        acquiresLock').1 := by
  have hstarts : (DetailState.start db clock).Sound b := by
    refine .inr fun kept hkept => ?_
    cases hkept
  have hsound : ((DetailState.start db clock).run es).Sound b :=
    Along.invariant (fun _ _ h hs => DetailState.Sound.step h hs) hstarts hes
  have hcurrent : ((DetailState.start db clock).run es).Current now b := by
    rcases hsound with hinv | hcurrent
    · exact absurd rfl (hdone _ hinv)
    · exact hcurrent.later hnow
  let emptied : DetailState := { (DetailState.start db clock).run es with cache := .empty }
  have hempty : (emptied.getBroadcast now b acquiresLock').1 = fetched emptied.db now b :=
    DetailState.getBroadcast_of_none rfl acquiresLock'
  exact (DetailState.getBroadcast_of_current hcurrent hstart acquiresLock).trans hempty.symm

/-- User 1 creates broadcast 8 and looks at it. -/
def lookedAt : List DetailEntry :=
  [⟨1, .call (.create 1 1 ⟨8⟩ morningPrayer ⟨1⟩) 1 []⟩, ⟨2, .getBroadcast ⟨8⟩ true⟩,
    ⟨2, .task 0 false⟩]

def eveningPrayer : UpdateBroadcastRequest where
  title := some "Evening prayer"
  description := none
  imageId := none
  imageUrl := none
  startTime := none
  timeZone := none
  recordingEnabled := none
  cohosts := none

def renamed : List DetailEntry :=
  lookedAt ++ [⟨3, .call (.update 3 eveningPrayer ⟨8⟩ ⟨1⟩) 3 []⟩, ⟨3, .task 1 false⟩]

/-- The new title is shown. -/
theorem new_title_is_shown :
    (((DetailState.start (.ofUsers twoUsers) 0).run renamed).getBroadcast 4 ⟨8⟩ true).1 =
      ({ (DetailState.start (.ofUsers twoUsers) 0).run renamed with cache := .empty }.getBroadcast 4 ⟨8⟩
        true).1 := by
  refine detail_cache_transparent (.ofUsers twoUsers) 0 ⟨8⟩ renamed ?_ ?_ 4 (by decide) ?_ true true
  · refine ⟨⟨by decide, nofun⟩, ⟨by decide, trivial⟩, ⟨by decide, ?_⟩, ⟨by decide, nofun⟩,
      ⟨by decide, ?_⟩, trivial⟩
    · rintro call rest ⟨⟩
      exact fun _ _ => .inr rfl
    · rintro call rest ⟨⟩
      exact fun _ hfails => absurd hfails (by decide)
  · rintro call (hcall : call ∈ [])
    cases hcall
  · rintro kept ⟨⟩

/-- Or deletes it instead; its key is left. -/
def deletedWhileKept : List DetailEntry :=
  lookedAt ++ [⟨3, .call (.delete ⟨8⟩ ⟨1⟩) 3 []⟩, ⟨3, .task 1 false⟩, ⟨3, .task 1 false⟩]

theorem deleted_broadcast_is_served :
    ((DetailState.start (.ofUsers twoUsers) 0).run deletedWhileKept).pending = [] ∧
      (((DetailState.start (.ofUsers twoUsers) 0).run deletedWhileKept).getBroadcast 4 ⟨8⟩
        true).1.isOk = true ∧
      ({ (DetailState.start (.ofUsers twoUsers) 0).run deletedWhileKept with
        cache := .empty }.getBroadcast 4 ⟨8⟩ true).1 = .error .notFound := by
  refine ⟨?_, ?_, ?_⟩
  · rfl
  · rfl
  · rfl

end Meno
