import Meno.Broadcast.FailedCalls
import Meno.Broadcast.PublishRights
import Mathlib.Tactic.IntervalCases

/-!
# Meno.Broadcast.Ending

When `end` ends a broadcast, exactly, and what the operations may do to the row of a broadcast:
nothing but `end`, asked for by its creator, makes it inactive, and nothing changes its creator.
-/

namespace Meno

open Lib BroadcastRepository BroadcastService

/-- The broadcast is live: it is found, and active. -/
def IsLive (db : BroadcastDb) (b : Uuid) : Prop :=
  ∃ row, findById db b = some row ∧ row.status = .active

instance (db : BroadcastDb) (b : Uuid) : Decidable (IsLive db b) :=
  match h : findById db b with
  | none => .isFalse (by simp [IsLive, h])
  | some row => decidable_of_iff (row.status = .active) (by simp [IsLive, h])

/-- The end commits: it is the creator's, of a live broadcast, and none of its first five calls
fails. -/
structure EndCommits (db : BroadcastDb) (b u : Uuid) (faults : List Bool) : Prop where
  row : ∃ row, findById db b = some row ∧ row.creatorId = u ∧ row.status = .active
  calls : ∀ n < 5, ¬Fails faults n

instance (db : BroadcastDb) (b u : Uuid) (faults : List Bool) :
    Decidable (EndCommits db b u faults) :=
  have : Decidable (∃ row, findById db b = some row ∧ row.creatorId = u ∧ row.status = .active) :=
    match h : findById db b with
    | none => .isFalse (by simp)
    | some row => decidable_of_iff (row.creatorId = u ∧ row.status = .active) (by simp)
  decidable_of_iff (_ ∧ ∀ n < 5, ¬Fails faults n) ⟨fun h => ⟨h.1, h.2⟩, fun h => ⟨h.row, h.calls⟩⟩

/-- `d` is `db` after the end of `b`. -/
structure Ended (db : BroadcastDb) (b : Uuid) (d : BroadcastDb) : Prop where
  others : ∀ id ≠ b, d.broadcasts.get id = db.broadcasts.get id
  row : ∃ row, d.broadcasts.get b = some row ∧ row.status = .inactive

section End

variable {db : BroadcastDb} {t now : OffsetDateTime} {b u : Uuid} {faults : List Bool}

theorem not_live_of_ended {d : BroadcastDb} (h : Ended db b d) : ¬IsLive d b := by
  obtain ⟨row, hget, hst⟩ := h.row
  rintro ⟨row', hrow', hst'⟩
  obtain ⟨hget', -⟩ := Option.filter_eq_some_iff.1 hrow'
  rw [hget] at hget'
  cases hget'
  rw [hst] at hst'
  cases hst'

theorem clear_broadcasts {ids : List Uuid} {ws : List BroadcastWrite}
    (h : getParticipantIdsAndClear db t b = .ok (ids, ws)) :
    (broadcastEngine.applyAll db ws).broadcasts = db.broadcasts := by
  refine broadcasts_applyAll fun w hw id he => ?_
  obtain ⟨u, hu⟩ := exec_touches (s := .getParticipantIdsAndClear b) h w hw
  rw [hu] at he
  cases he

theorem setInactive_ended {reason : EndReason} {n : Nat} {ws : List BroadcastWrite} {d : BroadcastDb}
    (hd : d.broadcasts = db.broadcasts) {row : Broadcast} (hrow : db.broadcasts.get b = some row)
    (h : setInactive d t b reason = .ok (n, ws)) : Ended db b (broadcastEngine.applyAll d ws) := by
  have hid : row.id = b := Table.key_of_get hrow
  simp only [setInactive, hd, hrow] at h
  cases h
  refine ⟨?_, ?_⟩
  · intro id hne
    refine (Table.get_put _ _ _).trans ?_
    rw [if_neg fun he => hne (he.trans hid), hd]
  · exact ⟨_, (Table.get_put _ _ _).trans (if_pos hid.symm), rfl⟩

theorem endBroadcast_endsAt : Txn.EndsAt broadcastEngine faults t (endBroadcast now b u)
    (fun _ _ d _ => EndCommits db b u faults ∧ Ended db b d)
    (fun _ _ d _ => ¬EndCommits db b u faults ∧ d = db) 0 db none := by
  have hcall : ∀ n < 5, Fails faults n → ¬EndCommits db b u faults ∧ db = db :=
    fun n hn hf => ⟨fun hc => hc.calls n hn hf, rfl⟩
  refine Txn.endsAt_bind (Txn.endsAt_read rfl (fun h₀ => ?_) (hcall 0 (by omega)))
  refine Txn.endsAt_bind (endsAt_okOr (fun row hrow => ?_) fun hnone => ?_)
  swap
  · refine ⟨fun hc => ?_, rfl⟩
    obtain ⟨_, hrow, _⟩ := hc.row
    rw [hnone] at hrow
    cases hrow
  refine Txn.endsAt_bind (endsAt_refuse (fun howner => ?_) fun hother => ?_)
  swap
  · refine ⟨fun hc => ?_, rfl⟩
    have hown := (of_found hrow hc.row).1
    simp [hown] at hother
  refine Txn.endsAt_bind (endsAt_refuse (fun hactive => ?_) fun hinactive => ?_)
  swap
  · refine ⟨fun hc => ?_, rfl⟩
    have hst := (of_found hrow hc.row).2
    simp [hst] at hinactive
  obtain ⟨hget, -⟩ := Option.filter_eq_some_iff.1 hrow
  refine Txn.endsAt_bind (Txn.endsAt_begin (fun h₁ => ?_) (hcall 1 (by omega)))
  refine Txn.endsAt_bind (Txn.endsAt_tx (fun h₂ ids ws hws => ?_) (fun _ e he => by cases he)
    (hcall 2 (by omega)))
  rw [List.nil_append]
  refine Txn.endsAt_bind (Txn.endsAt_tx (fun h₃ n ws' hws' => ?_) (fun _ e he => ?_)
    (hcall 3 (by omega)))
  swap
  · simp only [broadcastEngine, BroadcastStmt.exec, setInactive] at he
    split at he <;> cases he
  refine Txn.endsAt_bind (Txn.endsAt_commit (fun h₄ => ?_) (hcall 4 (by omega)))
  rw [broadcastEngine.applyAll_append]
  have hended : Ended db b (broadcastEngine.applyAll (broadcastEngine.applyAll db ws) ws') :=
    setInactive_ended (clear_broadcasts hws) hget hws'
  have hcommits : EndCommits db b u faults := {
    row := ⟨row, hrow, by simpa using howner, by simpa using hactive⟩
    calls := by
      intro n hn
      interval_cases n <;> assumption }
  cases row.recordingEnabled with
  | true =>
    exact Txn.endsAt_bind (endsAt_existsOrFalse rfl fun _ => Txn.endsAt_pure ⟨hcommits, hended⟩)
  | false => exact Txn.endsAt_bind (Txn.endsAt_pure (Txn.endsAt_pure ⟨hcommits, hended⟩))

/-- The operation ends the broadcast or does nothing, and its result says which. -/
theorem run_endBroadcast (db : BroadcastDb) (t now : OffsetDateTime) (b u : Uuid)
    (faults : List Bool) :
    let out := (BroadcastOp.endBroadcast now b u).run t faults db
    EndCommits db b u faults ∧ out.1.isOk = true ∧ Ended db b out.2 ∨
      ¬EndCommits db b u faults ∧ out.1.isOk = false ∧ out.2 = db := by
  rcases Txn.run_map_endsAt endBroadcast_endsAt BroadcastAnswer.ended with
    ⟨hok, _, _, _, hc, hd⟩ | ⟨hno, _, _, _, hc, hd⟩
  · exact .inl ⟨hc, hok, hd⟩
  · exact .inr ⟨hc, hno, hd⟩

end End

/-! ## The other operations -/

/-- The broadcast is `h`'s, and its status is `st`. -/
def InStatus (st : BroadcastStatus) (db : BroadcastDb) (b h : Uuid) : Prop :=
  ∃ row, db.broadcasts.get b = some row ∧ row.creatorId = h ∧ row.status = st

instance (st : BroadcastStatus) (db : BroadcastDb) (b h : Uuid) : Decidable (InStatus st db b h) :=
  match hb : db.broadcasts.get b with
  | none => .isFalse (by simp [InStatus, hb])
  | some row => decidable_of_iff (row.creatorId = h ∧ row.status = st) (by simp [InStatus, hb])

/-- A write that leaves it so. -/
def KeepsStatus (st : BroadcastStatus) (b h : Uuid) (w : BroadcastWrite) : Prop :=
  ∀ row, w = .broadcast row → row.id = b → row.creatorId = h ∧ row.status = st

/-- A statement other than the one that gives the broadcast the other status. -/
def BroadcastStmt.Spares (st : BroadcastStatus) (b : Uuid) : {β : Type} → BroadcastStmt β → Prop
  | _, .setActive input => st = .inactive → input.broadcastId ≠ b
  | _, .setInactive id _ => st = .active → id ≠ b
  | _, _ => True

section Spares

variable {st : BroadcastStatus} {db : BroadcastDb} {t : OffsetDateTime} {b h : Uuid}
  {ws : List BroadcastWrite}

theorem InStatus.apply {w : BroadcastWrite} (hin : InStatus st db b h) (hw : KeepsStatus st b h w) :
    InStatus st (db.apply w) b h := by
  obtain ⟨row, hrow, hc, hst⟩ := hin
  cases w with
  | broadcast row' =>
    by_cases hid : b = row'.id
    · obtain ⟨hc', hst'⟩ := hw row' rfl hid.symm
      exact ⟨row', (Table.get_put _ _ _).trans (if_pos hid), hc', hst'⟩
    · exact ⟨row, (Table.get_put _ _ _).trans ((if_neg hid).trans hrow), hc, hst⟩
  | cohost => exact ⟨row, hrow, hc, hst⟩
  | dropCohost => exact ⟨row, hrow, hc, hst⟩
  | participant => exact ⟨row, hrow, hc, hst⟩
  | dropParticipant => exact ⟨row, hrow, hc, hst⟩

/-- The row may be written with the same status, or with `st`. -/
theorem keepsStatus_row (hin : InStatus st db b h) {id : Uuid} {old row : Broadcast}
    (hold : db.broadcasts.get id = some old) (hid : row.id = old.id)
    (hc : row.creatorId = old.creatorId) (hst : row.status = old.status ∨ row.status = st) :
    KeepsStatus st b h (.broadcast row) := by
  rintro _ ⟨⟩ hb
  obtain ⟨row', hrow', hc', hst'⟩ := hin
  have holdid : old.id = id := Table.key_of_get hold
  rw [← hb, hid, holdid, hold] at hrow'
  cases hrow'
  refine ⟨hc.trans hc', ?_⟩
  rcases hst with hst | hst
  · exact hst.trans hst'
  · exact hst

theorem countParticipant_keeps (hin : InStatus st db b h) {id : Uuid} {n : Int} :
    ∀ w ∈ countParticipant db t id n, KeepsStatus st b h w := by
  unfold countParticipant
  cases hold : db.broadcasts.get id with
  | none => simp
  | some old =>
    intro w hw
    rw [List.mem_singleton.1 hw]
    exact keepsStatus_row hin hold rfl rfl (.inl rfl)

theorem addCohosts_keeps {id c : Uuid} (us : List Uuid) :
    ∀ {db : BroadcastDb} {ws : List BroadcastWrite},
      BroadcastRepository.addCohosts db t id c us = .ok ((), ws) →
      ∀ w ∈ ws, KeepsStatus st b h w := by
  induction us with
  | nil =>
    intro db ws he
    cases he
    simp
  | cons u us ih =>
    intro db ws he
    rw [BroadcastRepository.addCohosts] at he
    split at he
    · exact ih he
    · simp only [bind_eq_ok, pure_eq_ok, Prod.mk.injEq, true_and] at he
      obtain ⟨_, _, _, _, _, _, ⟨_, ws'⟩, hrest, rfl⟩ := he
      intro w hw
      rcases List.mem_cons.1 hw with rfl | hw
      · rintro _ ⟨⟩
      · exact ih hrest w hw

/-- What a statement that spares the broadcast writes keeps its status. -/
theorem exec_keepsStatus {β : Type} {s : BroadcastStmt β} {a : β} (hs : s.Spares st b)
    (hin : InStatus st db b h) (he : s.exec t db = .ok (a, ws)) : ∀ w ∈ ws, KeepsStatus st b h w := by
  cases s with
  | create id input =>
    obtain ⟨hins, hid, -, rfl⟩ := insertable_of_create he
    intro w hw
    rw [List.mem_singleton.1 hw]
    rintro _ ⟨⟩ hb
    obtain ⟨row', hrow', -⟩ := hin
    rw [← hb, hid, hins.fresh] at hrow'
    cases hrow'
  | update input =>
    simp only [BroadcastStmt.exec, BroadcastRepository.update, bind_eq_ok] at he
    obtain ⟨_, _, _, _, _, _, _, _, _, _, he⟩ := he
    cases hold : db.broadcasts.get input.broadcastId with
    | none => rw [hold] at he; cases he
    | some old =>
      rw [hold] at he
      simp only [bind_eq_ok, pure_eq_ok, Prod.mk.injEq] at he
      obtain ⟨_, _, _, rfl⟩ := he
      intro w hw
      rw [List.mem_singleton.1 hw]
      exact keepsStatus_row hin hold rfl rfl (.inl rfl)
  | delete id =>
    simp only [BroadcastStmt.exec, BroadcastRepository.delete] at he
    cases hold : (db.broadcasts.get id).filter fun b => b.deletedAt.isNone with
    | none => rw [hold] at he; cases he; simp
    | some old =>
      rw [hold] at he
      cases he
      intro w hw
      rw [List.mem_singleton.1 hw]
      exact keepsStatus_row hin (Option.filter_eq_some_iff.1 hold).1 rfl rfl (.inl rfl)
  | setActive input =>
    simp only [BroadcastStmt.exec, setActive] at he
    cases hold : db.broadcasts.get input.broadcastId with
    | none => rw [hold] at he; cases he
    | some old =>
      rw [hold] at he
      cases he
      intro w hw
      rw [List.mem_singleton.1 hw]
      cases st with
      | active => exact keepsStatus_row hin hold rfl rfl (.inr rfl)
      | inactive =>
        rintro _ ⟨⟩ hb
        have holdid : old.id = input.broadcastId := Table.key_of_get hold
        exact absurd (holdid.symm.trans hb) (hs rfl)
  | setInactive id reason =>
    simp only [BroadcastStmt.exec, setInactive] at he
    cases hold : db.broadcasts.get id with
    | none => rw [hold] at he; cases he; simp
    | some old =>
      rw [hold] at he
      cases he
      intro w hw
      rw [List.mem_singleton.1 hw]
      cases st with
      | inactive => exact keepsStatus_row hin hold rfl rfl (.inr rfl)
      | active =>
        rintro _ ⟨⟩ hb
        have holdid : old.id = id := Table.key_of_get hold
        exact absurd (holdid.symm.trans hb) (hs rfl)
  | addCohosts id us c => exact addCohosts_keeps us he
  | removeCohost id u =>
    simp only [BroadcastStmt.exec, BroadcastRepository.removeCohost] at he
    split at he
    all_goals
      cases he
      simp [KeepsStatus]
  | upsertParticipant input =>
    simp only [BroadcastStmt.exec, upsertParticipant] at he
    split at he
    · cases he
      simp [KeepsStatus]
    · simp only [bind_eq_ok, pure_eq_ok, Prod.mk.injEq, true_and] at he
      obtain ⟨_, _, _, _, rfl⟩ := he
      intro w hw
      rcases List.mem_cons.1 hw with rfl | hw
      · rintro _ ⟨⟩
      · exact countParticipant_keeps hin w hw
  | removeParticipant id u =>
    simp only [BroadcastStmt.exec, removeParticipant] at he
    split at he
    · cases he
      intro w hw
      rcases List.mem_cons.1 hw with rfl | hw
      · rintro _ ⟨⟩
      · exact countParticipant_keeps hin w hw
    · cases he
      simp
  | getParticipantIdsAndClear id =>
    cases he
    intro w hw
    obtain ⟨p, _, rfl⟩ := List.mem_map.1 hw
    rintro _ ⟨⟩
  | _ => cases he; simp

end Spares

/-! A creator stays the creator. -/

/-- A write that keeps the creator. -/
def KeepsCreator (b u : Uuid) (w : BroadcastWrite) : Prop :=
  ∀ row, w = .broadcast row → row.id = b → row.creatorId = u

section Creator

variable {db : BroadcastDb} {t : OffsetDateTime} {b u : Uuid}

theorem IsCreator.keep {w : BroadcastWrite} (h : IsCreator db b u) (hw : KeepsCreator b u w) :
    IsCreator (db.apply w) b u := by
  obtain ⟨row, hrow, hc⟩ := h
  cases w with
  | broadcast row' =>
    by_cases hid : b = row'.id
    · exact ⟨row', (Table.get_put _ _ _).trans (if_pos hid), hw row' rfl hid.symm⟩
    · exact ⟨row, (Table.get_put _ _ _).trans ((if_neg hid).trans hrow), hc⟩
  | cohost => exact ⟨row, hrow, hc⟩
  | dropCohost => exact ⟨row, hrow, hc⟩
  | participant => exact ⟨row, hrow, hc⟩
  | dropParticipant => exact ⟨row, hrow, hc⟩

theorem keepsCreator_of_legal {w : BroadcastWrite} (h : IsCreator db b u) (hl : w.Legal db) :
    KeepsCreator b u w := by
  rintro row rfl rfl
  obtain ⟨row', hrow', hc⟩ := h.apply hl
  rw [BroadcastDb.broadcasts_broadcast, Table.get_put_self] at hrow'
  cases hrow'
  exact hc

theorem IsCreator.op (h : IsCreator db b u) (op : BroadcastOp) (faults : List Bool) :
    IsCreator (op.run t faults db).2 b u := by
  have happly : ∀ d w, IsCreator d b u → KeepsCreator b u w →
      IsCreator (broadcastEngine.apply d w) b u := fun _ _ h hw => h.keep hw
  have hlegal : ∀ d w, IsCreator d b u → BroadcastWrite.Legal d w → KeepsCreator b u w :=
    fun _ _ h hl => keepsCreator_of_legal h hl
  have hexec : ∀ {β : Type} (s : BroadcastStmt β), True → ∀ d a ws, IsCreator d b u →
      broadcastEngine.exec s t d = .ok (a, ws) → ∀ w ∈ ws, KeepsCreator b u w :=
    fun _ _ _ _ _ h he => keep_of_chain hlegal happly h (BroadcastStmt.exec_legal he)
  exact Txn.run_invariant happly hexec (World.uses_anything _) h faults

end Creator

/-- Only a start sets a broadcast active. -/
theorem BroadcastOp.start_of_writes {op : BroadcastOp} {input : SetActiveInput}
    (h : op.Writes (.setActive input)) : ∃ now u, op = .start now input.broadcastId u := by
  cases op with
  | start now id u =>
    obtain rfl : input.broadcastId = id := h
    exact ⟨now, u, rfl⟩
  | _ => cases h

/-- Only an end sets a broadcast inactive. -/
theorem BroadcastOp.end_of_writes {op : BroadcastOp} {id : Uuid} {reason : EndReason}
    (h : op.Writes (.setInactive id reason)) : ∃ now u, op = .endBroadcast now id u := by
  cases op with
  | endBroadcast now id' u =>
    obtain rfl : id = id' := h
    exact ⟨now, u, rfl⟩
  | _ => cases h

/-- Every operation but the start or the end of the broadcast spares it, statement by statement. -/
theorem uses_spares (op : BroadcastOp) (hstart : st = .inactive → ∀ now u, op ≠ .start now b u)
    (hend : st = .active → ∀ now u, op ≠ .endBroadcast now b u) :
    Act.Uses (World.AllGood fun s => BroadcastStmt.Spares st b s) op.prog := by
  refine World.uses_allGood_mono ?_ (uses_writes op)
  intro β s hs
  cases s with
  | setActive input =>
    rintro hst rfl
    obtain ⟨now, u, hop⟩ := BroadcastOp.start_of_writes hs
    exact hstart hst now u hop
  | setInactive id reason =>
    rintro hst rfl
    obtain ⟨now, u, hop⟩ := BroadcastOp.end_of_writes hs
    exact hend hst now u hop
  | _ => trivial

/-- A start by another user does nothing. -/
theorem run_start_other {db : BroadcastDb} {t now : OffsetDateTime} {faults : List Bool} {b u : Uuid}
    (h : ∀ row, findById db b = some row → row.creatorId ≠ u) :
    SameRows db ((BroadcastOp.start now b u).run t faults db).2 := by
  have hno : ¬StartCommits db b u faults := by
    intro hc
    obtain ⟨row, hrow, hu, -⟩ := hc.row
    exact h row hrow hu
  rcases Txn.run_map_endsAt start_endsAt BroadcastAnswer.session with
    ⟨-, _, _, _, hc, -⟩ | ⟨-, _, _, _, ⟨-, hsame⟩ | ⟨hc, -⟩⟩
  · exact absurd hc hno
  · exact hsame.rows
  · exact absurd hc hno

theorem InStatus.sameRows {st : BroadcastStatus} {db d : BroadcastDb} {b h : Uuid}
    (hin : InStatus st db b h) (hsame : SameRows db d) : InStatus st d b h := by
  obtain ⟨row, hrow, hin⟩ := hin
  exact ⟨row, (BroadcastDb.broadcast_of_look (hsame (.broadcast b))).trans hrow, hin⟩

/-- Who finds the broadcast finds it as it is. -/
theorem InStatus.found {st : BroadcastStatus} {db : BroadcastDb} {b h : Uuid} {row : Broadcast}
    (hin : InStatus st db b h) (hrow : findById db b = some row) :
    row.creatorId = h ∧ row.status = st := by
  obtain ⟨row', hget, hin⟩ := hin
  rw [(Option.filter_eq_some_iff.1 hrow).1] at hget
  cases hget
  exact hin

/-- An end that commits makes the broadcast inactive. -/
theorem InStatus.ended {st : BroadcastStatus} {db : BroadcastDb} {t now : OffsetDateTime}
    {faults : List Bool} {b h u : Uuid} (hin : InStatus st db b h) (hc : EndCommits db b u faults) :
    InStatus .inactive ((BroadcastOp.endBroadcast now b u).run t faults db).2 b h := by
  obtain ⟨row, hrow, hh, -⟩ := hin
  have hcreator : IsCreator ((BroadcastOp.endBroadcast now b u).run t faults db).2 b h :=
    IsCreator.op ⟨row, hrow, hh⟩ _ faults
  obtain ⟨row', hrow', hh'⟩ := hcreator
  rcases run_endBroadcast db t now b u faults with ⟨-, -, hended⟩ | ⟨hno, -⟩
  · obtain ⟨row'', hrow'', hst⟩ := hended.row
    rw [hrow'] at hrow''
    cases hrow''
    exact ⟨row', hrow', hh', hst⟩
  · exact absurd hc hno

/-- Nothing but its creator's start or end changes the status of a broadcast. -/
theorem InStatus.op {st : BroadcastStatus} {db : BroadcastDb} {t : OffsetDateTime}
    {faults : List Bool} {b h : Uuid} (hin : InStatus st db b h) (op : BroadcastOp)
    (hstart : st = .inactive → ∀ now, op ≠ .start now b h)
    (hend : st = .active → ∀ now, op ≠ .endBroadcast now b h) :
    InStatus st (op.run t faults db).2 b h := by
  by_cases hspares : (st = .inactive → ∀ now u, op ≠ .start now b u) ∧
      (st = .active → ∀ now u, op ≠ .endBroadcast now b u)
  · have happly : ∀ d w, InStatus st d b h → KeepsStatus st b h w →
        InStatus st (broadcastEngine.apply d w) b h := fun _ _ hin hw => hin.apply hw
    exact Txn.run_invariant happly (fun _ hs _ _ _ hin he => exec_keepsStatus hs hin he)
      (uses_spares op hspares.1 hspares.2) hin faults
  · -- another user's start or end is refused
    cases st with
    | inactive =>
      obtain ⟨now, u, rfl⟩ : ∃ now u, op = .start now b u := by simpa using hspares
      refine hin.sameRows (run_start_other fun row hrow hu => hstart rfl now ?_)
      rw [← hu, (hin.found hrow).1]
    | active =>
      obtain ⟨now, u, rfl⟩ : ∃ now u, op = .endBroadcast now b u := by simpa using hspares
      rcases run_endBroadcast db t now b u faults with ⟨hc, -, -⟩ | ⟨-, -, hd⟩
      · obtain ⟨row, hrow, hu, -⟩ := hc.row
        exact absurd (by rw [← hu, (hin.found hrow).1]) (hend rfl now)
      · rw [hd]
        exact hin

end Meno
