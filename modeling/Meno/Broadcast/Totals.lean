import Meno.Lib.Merge
import Meno.Lib.Schedule
import Meno.Broadcast.Limits
import Meno.Broadcast.Writes
import Mathlib.Data.Finset.Card
import Mathlib.Data.Finset.Dedup

/-!
# Meno.Broadcast.Totals

The number of participants of all time. It is kept twice: `get_total_participants` counts the rows,
and the trigger `update_broadcast_participant_count` adds and subtracts in the broadcast's row. The
two agree after every interleaving (`tallied_of_reaches`): a statement that inserts or deletes a
participant writes both rows, and the invariant is one of the whole statement.

They are the number of users who ever took part only as long as no participant's row is deleted:
`leave`, and `remove_cohost` when it also removes from the room, delete the row, and both numbers go
down.
-/

namespace Meno

open Lib BroadcastRepository

/-! ## The column and the rows -/

/-- `broadcasts.total_participants`; 0 as long as there is no broadcast. -/
def totalColumn (db : BroadcastDb) (id : Uuid) : Option Int :=
  (db.broadcasts.get id).elim (some 0) Broadcast.totalParticipants

/-- The column agrees with the rows, for every broadcast. -/
def Tallied (db : BroadcastDb) : Prop :=
  ∀ id, totalColumn db id = some (getTotalParticipants db id)

def participantRows (id : Uuid) (db : BroadcastDb) : Nat :=
  db.participants.rows.countP fun p => p.broadcastId == id

/-- What a row counts among the participants of a broadcast. -/
def BroadcastRow.counts (id : Uuid) : Option BroadcastRow → Nat
  | some (.participant row) => Table.one (fun p => p.broadcastId == id) (some row)
  | _ => 0

theorem getTotalParticipants_eq (db : BroadcastDb) (id : Uuid) :
    getTotalParticipants db id = participantRows id db := by
  rw [getTotalParticipants, participantRows, List.countP_eq_length_filter]

theorem counts_look (db : BroadcastDb) (id b u : Uuid) :
    BroadcastRow.counts id (db.look (.participant b u)) =
      Table.one (fun p => p.broadcastId == id) (db.participants.get (b, u)) := by
  rw [BroadcastDb.look]
  cases db.participants.get (b, u) <;> rfl

/-- What a write changes in the number of rows, it changes by its own row. -/
theorem participantRows_apply (id : Uuid) (db : BroadcastDb) (x : BroadcastWrite) :
    participantRows id (db.apply x) + BroadcastRow.counts id (db.look x.key) =
      participantRows id db + BroadcastRow.counts id x.value := by
  have hother : ∀ k, (∀ b u, k ≠ .participant b u) → BroadcastRow.counts id (db.look k) = 0 := by
    intro k hk
    cases k with
    | broadcast b => rw [BroadcastDb.look]; cases db.broadcasts.get b <;> rfl
    | cohost b u => rw [BroadcastDb.look]; cases db.cohosts.get (b, u) <;> rfl
    | participant b u => exact absurd rfl (hk b u)
  cases x with
  | broadcast row => rw [hother _ (by rintro b u ⟨⟩)]; rfl
  | cohost row => rw [hother _ (by rintro b u ⟨⟩)]; rfl
  | dropCohost b u => rw [hother _ (by rintro b u ⟨⟩)]; rfl
  | participant row =>
    rw [BroadcastWrite.key, counts_look]
    exact Table.countP_put db.participants _ row
  | dropParticipant b u =>
    rw [BroadcastWrite.key, counts_look]
    exact Table.countP_erase db.participants _ (b, u)

theorem totalColumn_of_look {db db' : BroadcastDb} {id : Uuid}
    (h : db.look (.broadcast id) = db'.look (.broadcast id)) :
    totalColumn db id = totalColumn db' id := by
  rw [totalColumn, totalColumn, BroadcastDb.broadcast_of_look h]

/-- Statements that write different rows can keep the tally each on its own: of a broadcast whose
row one of them leaves alone, that one leaves the number of participants alone. -/
theorem tallied_mergeable : Mergeable broadcastKeyed Tallied := by
  intro db ws ps hapart h hws hps id
  have hsum := count_merge broadcastKeyed (participantRows_apply id) db hapart
  have h₀ := h id
  have h₁ := hws id
  have h₂ := hps id
  rw [getTotalParticipants_eq] at h₀ h₁ h₂ ⊢
  by_cases hmine : ∃ x ∈ ws, x.key = .broadcast id
  · obtain ⟨x, hx, hkey⟩ := hmine
    have hfree : ∀ p ∈ ps, broadcastKeyed.key p ≠ .broadcast id := by
      intro p hp he
      exact hapart p hp x hx (he.trans hkey.symm)
    have hcol : totalColumn (broadcastEngine.applyAll db ps) id = totalColumn db id :=
      totalColumn_of_look (look_applyAll_other broadcastKeyed ps db hfree)
    have hcol' : totalColumn (broadcastEngine.applyAll (broadcastEngine.applyAll db ws) ps) id =
        totalColumn (broadcastEngine.applyAll db ws) id :=
      totalColumn_of_look (look_applyAll_other broadcastKeyed ps _ hfree)
    rw [hcol', h₁]
    rw [hcol, h₀] at h₂
    simp only [Option.some.injEq, Int.natCast_inj] at h₂ ⊢
    omega
  · have hfree : ∀ x ∈ ws, broadcastKeyed.key x ≠ .broadcast id := by
      intro x hx he
      exact hmine ⟨x, hx, he⟩
    have hcol : totalColumn (broadcastEngine.applyAll db ws) id = totalColumn db id :=
      totalColumn_of_look (look_applyAll_other broadcastKeyed ws db hfree)
    have hcol' : totalColumn (broadcastEngine.applyAll (broadcastEngine.applyAll db ws) ps) id =
        totalColumn (broadcastEngine.applyAll db ps) id :=
      totalColumn_of_look (look_merge broadcastKeyed db hfree)
    rw [hcol', h₂]
    rw [hcol, h₀] at h₁
    simp only [Option.some.injEq, Int.natCast_inj] at h₁ ⊢
    omega

/-! ## One statement -/

section Statements

variable {db : BroadcastDb}

theorem tallied_congr {db' : BroadcastDb} (hb : db'.broadcasts = db.broadcasts)
    (hp : ∀ id, participantRows id db' = participantRows id db) (h : Tallied db) : Tallied db' := by
  intro id
  rw [getTotalParticipants_eq, hp id, ← getTotalParticipants_eq, ← h id, totalColumn, totalColumn,
    hb]

theorem totalColumn_put (row : Broadcast) (id : Uuid) : totalColumn (db.apply (.broadcast row)) id =
    if id = row.id then row.totalParticipants else totalColumn db id := by
  rw [totalColumn, BroadcastDb.broadcasts_broadcast, Table.get_put]
  split <;> rfl

/-- Writing a broadcast with the total it has, or a new one with none. -/
theorem tallied_broadcast {row : Broadcast} (h : Tallied db)
    (htotal : row.totalParticipants = totalColumn db row.id) :
    Tallied (db.apply (.broadcast row)) := by
  intro id
  have hrow := h id
  rw [totalColumn_put]
  split
  · rename_i he
    rw [htotal, ← he]
    exact hrow
  · exact hrow

theorem totalColumn_of_get {b : Broadcast} {id : Uuid} (h : db.broadcasts.get id = some b) :
    totalColumn db b.id = b.totalParticipants := by
  rw [Table.key_of_get h, totalColumn, h]
  rfl

/-- A participant's row that is there is written anew. -/
theorem participantRows_again {row : BroadcastParticipant} (id : Uuid)
    (h : (db.participants.get row.key).isSome) :
    participantRows id (db.apply (.participant row)) = participantRows id db := by
  obtain ⟨old, hold⟩ := Option.isSome_iff_exists.1 h
  have hkey : old.key = row.key := Table.key_of_get hold
  have hb : old.broadcastId = row.broadcastId := (Prod.mk.inj hkey).1
  have hcount := Table.countP_put db.participants (fun p => p.broadcastId == id) row
  rw [hold] at hcount
  simp only [Table.one, Option.any_some, hb] at hcount
  exact Nat.add_right_cancel hcount

theorem tallied_again {row : BroadcastParticipant} (h : Tallied db)
    (hsome : (db.participants.get row.key).isSome) : Tallied (db.apply (.participant row)) :=
  @tallied_congr db (db.apply (.participant row)) rfl (fun id => participantRows_again id hsome) h

/-- The participants of one broadcast are `n` more, and so is its column. -/
theorem tallied_count {db' : BroadcastDb} {b : Uuid} {n : Int} {now : OffsetDateTime}
    (h : Tallied db) (hsome : (db.broadcasts.get b).isSome) (hb : db'.broadcasts = db.broadcasts)
    (hp : ∀ id, (participantRows id db' : Int) = participantRows id db + if id = b then n else 0) :
    Tallied (broadcastEngine.applyAll db' (countParticipant db now b n)) := by
  obtain ⟨old, hold⟩ := Option.isSome_iff_exists.1 hsome
  have hid : old.id = b := Table.key_of_get hold
  have holdcol := h b
  rw [← hid, totalColumn_of_get hold, hid, getTotalParticipants_eq] at holdcol
  intro id
  simp only [countParticipant, hold, Engine.applyAll_cons, Engine.applyAll_nil]
  rw [getTotalParticipants_eq]
  show totalColumn (db'.apply (.broadcast _)) id = some (participantRows id db' : Int)
  rw [totalColumn_put, hp id]
  simp only [hid]
  split
  · rename_i he
    rw [he, holdcol]
    rfl
  · have hrow := h id
    rw [getTotalParticipants_eq] at hrow
    rw [totalColumn, hb, ← totalColumn, hrow, Int.add_zero]

theorem participantRows_new {row : BroadcastParticipant} (id : Uuid)
    (h : db.participants.get row.key = none) :
    participantRows id (db.apply (.participant row)) =
      participantRows id db + if id = row.broadcastId then 1 else 0 := by
  have hcount := Table.countP_put db.participants (fun p => p.broadcastId == id) row
  rw [h] at hcount
  simp only [Table.one, Option.any_some, Option.any_none, beq_iff_eq,
    eq_comm (a := row.broadcastId)] at hcount
  exact hcount

theorem participantRows_drop {b u : Uuid} (id : Uuid) (h : (db.participants.get (b, u)).isSome) :
    participantRows id (db.apply (.dropParticipant b u)) + (if id = b then 1 else 0) =
      participantRows id db := by
  obtain ⟨old, hold⟩ := Option.isSome_iff_exists.1 h
  have hkey : old.key = (b, u) := Table.key_of_get hold
  have hb : old.broadcastId = b := (Prod.mk.inj hkey).1
  have hcount := Table.countP_erase db.participants (fun p => p.broadcastId == id) (b, u)
  rw [hold] at hcount
  simp only [Table.one, Option.any_some, hb, beq_iff_eq, eq_comm (a := b)] at hcount
  exact hcount

theorem upsertParticipant_tallied {now : OffsetDateTime} {input : UpsertParticipantInput}
    {ws : List BroadcastWrite} (h : Tallied db)
    (he : upsertParticipant db now input = .ok ((), ws)) :
    Tallied (broadcastEngine.applyAll db ws) := by
  unfold upsertParticipant at he
  cases hp : db.participants.get (input.broadcastId, input.participantId) with
  | some p =>
    rw [hp] at he
    cases he
    have hkey : p.key = (input.broadcastId, input.participantId) := Table.key_of_get hp
    refine tallied_again h ?_
    show (db.participants.get p.key).isSome
    rw [hkey, hp]
    rfl
  | none =>
    rw [hp] at he
    simp only [bind_eq_ok, pure_eq_ok, Prod.mk.injEq, true_and] at he
    obtain ⟨_, hb, _, _, rfl⟩ := he
    have hsome : (db.broadcasts.get input.broadcastId).isSome := by
      unfold checkBroadcast at hb
      split at hb
      · assumption
      · cases hb
    refine tallied_count h hsome rfl fun id => ?_
    have hnew := @participantRows_new db ⟨input.broadcastId, input.participantId, input.role,
      input.joinedAt, none⟩ id hp
    show ((participantRows id (db.apply _) : Nat) : Int) = _
    rw [hnew]
    split <;> rfl

/-- The row of a participant is there, so the broadcast's is, too. -/
theorem broadcast_of_participant {b u : Uuid} (h : Tallied db)
    (hp : (db.participants.get (b, u)).isSome) : (db.broadcasts.get b).isSome := by
  cases hb : db.broadcasts.get b with
  | some row => rfl
  | none =>
    have hcol := h b
    have hdrop := participantRows_drop b hp
    rw [getTotalParticipants_eq, totalColumn, hb] at hcol
    simp only [Option.elim_none, Option.some.injEq] at hcol
    rw [if_pos rfl] at hdrop
    omega

theorem removeParticipant_tallied {now : OffsetDateTime} {b u : Uuid} {ws : List BroadcastWrite}
    (h : Tallied db) (he : removeParticipant db now b u = .ok ((), ws)) :
    Tallied (broadcastEngine.applyAll db ws) := by
  unfold removeParticipant at he
  split at he
  · rename_i hp
    cases he
    refine tallied_count h (broadcast_of_participant h hp) rfl fun id => ?_
    have hdrop := participantRows_drop id hp
    show ((participantRows id (db.apply (.dropParticipant b u)) : Nat) : Int) = _
    split
    · rename_i hid
      rw [if_pos hid] at hdrop
      omega
    · rename_i hid
      rw [if_neg hid] at hdrop
      omega
  · cases he
    exact h

/-- `left_at` is set in rows that stay. -/
theorem getParticipantIdsAndClear_tallied {now : OffsetDateTime} {b : Uuid} {ids : List Uuid}
    {ws : List BroadcastWrite} (h : Tallied db)
    (he : getParticipantIdsAndClear db now b = .ok (ids, ws)) :
    Tallied (broadcastEngine.applyAll db ws) := by
  cases he
  have key : ∀ (rows : List BroadcastParticipant) (d : BroadcastDb), Tallied d →
      (∀ p ∈ rows, (d.participants.get p.key).isSome) →
      Tallied (broadcastEngine.applyAll d
        (rows.map fun p => .participant { p with leftAt := some now })) := by
    intro rows
    induction rows with
    | nil => intro d hd _; exact hd
    | cons p rows ih =>
      intro d hd hrows
      refine ih _ ?_ fun q hq => ?_
      · exact tallied_again hd (hrows p List.mem_cons_self)
      · show ((d.participants.put _).get q.key).isSome
        rw [Table.get_put]
        split
        · rfl
        · exact hrows q (List.mem_cons_of_mem _ hq)
  refine key _ db h fun p hp => ?_
  rw [Table.mem_rows_iff.1 (List.mem_filter.1 hp).1]
  rfl

theorem addCohosts_tallied {now : OffsetDateTime} {b c : Uuid} {us : List Uuid}
    {ws : List BroadcastWrite} (h : Tallied db) (he : addCohosts db now b c us = .ok ((), ws)) :
    Tallied (broadcastEngine.applyAll db ws) := by
  have hkeys := addCohosts_touches us he
  have hb : (broadcastEngine.applyAll db ws).broadcasts = db.broadcasts := by
    refine broadcasts_applyAll fun w hw id hkey => ?_
    obtain ⟨u, hu⟩ := hkeys w hw
    rw [hkey] at hu
    cases hu
  have hp : (broadcastEngine.applyAll db ws).participants = db.participants := by
    refine participants_applyAll fun w hw b u hkey => ?_
    obtain ⟨u', hu⟩ := hkeys w hw
    rw [hkey] at hu
    cases hu
  refine tallied_congr hb (fun id => ?_) h
  rw [participantRows, hp, participantRows]

end Statements

/-- Every statement keeps the tally. -/
theorem exec_tallied {β : Type} (s : BroadcastStmt β) : broadcastEngine.Keeps Tallied s := by
  intro now db a ws he h
  cases s with
  | create id input =>
    simp only [broadcastEngine, BroadcastStmt.exec, BroadcastRepository.create, bind_eq_ok] at he
    obtain ⟨_, _, _, _, _, _, _, _, _, _, _, _, he⟩ := he
    split at he
    · cases he
    · rename_i hnew
      simp only [bind_eq_ok, pure_eq_ok, Prod.mk.injEq] at he
      obtain ⟨_, _, _, rfl⟩ := he
      refine tallied_broadcast h ?_
      rw [totalColumn, Option.not_isSome_iff_eq_none.1 hnew]
      rfl
  | update input =>
    simp only [broadcastEngine, BroadcastStmt.exec, BroadcastRepository.update, bind_eq_ok] at he
    obtain ⟨_, _, _, _, _, _, _, _, _, _, he⟩ := he
    cases hold : db.broadcasts.get input.broadcastId with
    | none => rw [hold] at he; cases he
    | some old =>
      rw [hold] at he
      simp only [bind_eq_ok, pure_eq_ok, Prod.mk.injEq] at he
      obtain ⟨_, _, _, rfl⟩ := he
      exact tallied_broadcast h (totalColumn_of_get hold).symm
  | delete id =>
    simp only [broadcastEngine, BroadcastStmt.exec, BroadcastRepository.delete] at he
    cases hold : (db.broadcasts.get id).filter fun b => b.deletedAt.isNone with
    | none => rw [hold] at he; cases he; exact h
    | some old =>
      rw [hold] at he
      cases he
      exact tallied_broadcast h (totalColumn_of_get (Option.filter_eq_some_iff.1 hold).1).symm
  | setActive input =>
    simp only [broadcastEngine, BroadcastStmt.exec, setActive] at he
    cases hold : db.broadcasts.get input.broadcastId with
    | none => rw [hold] at he; cases he
    | some old =>
      rw [hold] at he
      cases he
      exact tallied_broadcast h (totalColumn_of_get hold).symm
  | setInactive id reason =>
    simp only [broadcastEngine, BroadcastStmt.exec, setInactive] at he
    cases hold : db.broadcasts.get id with
    | none => rw [hold] at he; cases he; exact h
    | some old =>
      rw [hold] at he
      cases he
      exact tallied_broadcast h (totalColumn_of_get hold).symm
  | addCohosts b us c => exact addCohosts_tallied h he
  | removeCohost b u =>
    simp only [broadcastEngine, BroadcastStmt.exec, BroadcastRepository.removeCohost] at he
    split at he
    · cases he
      exact h
    · cases he
      exact h
  | upsertParticipant input => exact upsertParticipant_tallied h he
  | removeParticipant b u => exact removeParticipant_tallied h he
  | getParticipantIdsAndClear b => exact getParticipantIdsAndClear_tallied h he
  | _ => cases he; exact h

/-- The column is the number of rows in every world that interleaved operations reach. -/
theorem tallied_of_reaches {ι : Type} [DecidableEq ι] {ops : ι → BroadcastOp}
    {users : Table User User.id} {t : OffsetDateTime} {w : BroadcastWorld ι}
    (h : BroadcastReaches ops (.ofUsers users) t w) : Tallied w.committed := by
  have hmerged := World.merged_of_reaches broadcast_disciplined (fun _ => World.uses_anything _)
    tallied_mergeable exec_tallied ?_ h
  · exact hmerged.committed
  · intro id
    rfl

/-! ## The users who ever took part -/

/-- The user whose participant row a write stores. -/
def BroadcastWrite.participantOf (b : Uuid) : BroadcastWrite → Option Uuid
  | .participant row => if row.broadcastId = b then some row.participantId else none
  | _ => none

/-- The users who have ever become participants of the broadcast, by the history. -/
def everParticipants {ι : Type} (w : BroadcastWorld ι) (b : Uuid) : Finset Uuid :=
  (w.log.filterMap fun x => x.2.participantOf b).toFinset

/-- The write deletes no participant of the broadcast. -/
def KeepsParticipants (b : Uuid) : BroadcastWrite → Prop
  | .dropParticipant b' _ => b' ≠ b
  | _ => True

instance (b : Uuid) : (x : BroadcastWrite) → Decidable (KeepsParticipants b x)
  | .dropParticipant b' _ => inferInstanceAs (Decidable (b' ≠ b))
  | .broadcast _ => isTrue trivial
  | .cohost _ => isTrue trivial
  | .dropCohost _ _ => isTrue trivial
  | .participant _ => isTrue trivial

/-- As long as none is deleted, who has ever had a row has it still. -/
theorem isSome_get_applyAll {b u : Uuid} (ws : List BroadcastWrite) :
    ∀ db : BroadcastDb, (∀ x ∈ ws, KeepsParticipants b x) →
      (((broadcastEngine.applyAll db ws).participants.get (b, u)).isSome ↔
        (db.participants.get (b, u)).isSome ∨ ∃ x ∈ ws, x.participantOf b = some u) := by
  induction ws with
  | nil => simp
  | cons x ws ih =>
    intro db hws
    have hone : ((db.apply x).participants.get (b, u)).isSome ↔
        (db.participants.get (b, u)).isSome ∨ x.participantOf b = some u := by
      cases x with
      | participant row =>
        have hkey : (b, u) = row.key ↔ row.broadcastId = b ∧ row.participantId = u := by
          rw [eq_comm, BroadcastParticipant.key, Prod.mk.injEq]
        rw [BroadcastDb.participants_participant, Table.get_put]
        split
        · rename_i he
          simp [BroadcastWrite.participantOf, hkey.1 he]
        · rename_i he
          simp [BroadcastWrite.participantOf, mt hkey.2 he]
      | dropParticipant b' u' =>
        have hne : (b, u) ≠ (b', u') := by
          rintro he
          exact hws _ List.mem_cons_self (Prod.mk.inj he).1.symm
        show ((db.participants.erase (b', u')).get (b, u)).isSome ↔ _
        rw [Table.get_erase, if_neg hne]
        simp [BroadcastWrite.participantOf]
      | _ => simp [BroadcastWrite.participantOf, BroadcastDb.apply]
    rw [Engine.applyAll_cons, ih _ fun y hy => hws y (List.mem_cons_of_mem x hy)]
    show ((db.apply x).participants.get (b, u)).isSome ∨ _ ↔ _
    rw [hone, or_assoc]
    simp

theorem getTotalParticipants_eq_card {db : BroadcastDb} {b : Uuid} {s : Finset Uuid}
    (h : ∀ u, u ∈ s ↔ (db.participants.get (b, u)).isSome) :
    getTotalParticipants db b = s.card := by
  let rows := db.participants.rows.filter fun p => p.broadcastId == b
  have hin : ∀ p, p ∈ rows ↔ p ∈ db.participants.rows ∧ p.broadcastId = b := by
    intro p
    simp [rows]
  have hkeys : (rows.map BroadcastParticipant.key).Nodup :=
    db.participants.nodup.sublist (List.filter_sublist.map _)
  have hnodup : (rows.map BroadcastParticipant.participantId).Nodup := by
    refine List.Nodup.map_on ?_ hkeys.of_map
    intro p hp q hq he
    have hkey : p.key = q.key := Prod.ext (((hin p).1 hp).2.trans ((hin q).1 hq).2.symm) he
    exact List.inj_on_of_nodup_map hkeys hp hq hkey
  have hset : s = (rows.map BroadcastParticipant.participantId).toFinset := by
    ext u
    rw [h u, List.mem_toFinset, List.mem_map, Option.isSome_iff_exists]
    constructor
    · rintro ⟨p, hp⟩
      obtain ⟨hmem, hkey⟩ := Table.get_eq_some_iff.1 hp
      obtain ⟨hb, hu⟩ := Prod.mk.inj hkey
      exact ⟨p, (hin p).2 ⟨hmem, hb⟩, hu⟩
    · rintro ⟨p, hp, rfl⟩
      obtain ⟨hmem, hb⟩ := (hin p).1 hp
      refine ⟨p, ?_⟩
      rw [← hb]
      exact Table.mem_rows_iff.1 hmem
  rw [hset, List.toFinset_card_of_nodup hnodup, List.length_map]
  rfl

section AllTime

variable {ι : Type} [DecidableEq ι] {ops : ι → BroadcastOp} {users : Table User User.id}
  {t : OffsetDateTime} {w w' : BroadcastWorld ι} {b : Uuid}

/-- The total counts everybody who ever took part, and the column says the same. -/
def AllTimeTotal (w : BroadcastWorld ι) (b : Uuid) : Prop :=
  getTotalParticipants w.committed b = (everParticipants w b).card ∧
    ∀ row, w.committed.broadcasts.get b = some row →
      row.totalParticipants = some (getTotalParticipants w.committed b)

theorem allTimeTotal_of_reachesIf
    (h : BroadcastReachesIf (fun _ => KeepsParticipants b) ops (.ofUsers users) t w) :
    AllTimeTotal w b := by
  have hinv := World.inv_of_reaches broadcast_disciplined (fun _ => World.uses_anything _) h.reaches
  have hkeep := World.forall_log_of_reachesIf h
  refine ⟨getTotalParticipants_eq_card fun u => ?_, fun row hrow => ?_⟩
  · have hnow := isSome_get_applyAll (u := u) _ (.ofUsers users) hkeep
    rw [hinv.replay] at hnow
    rw [hnow, everParticipants, List.mem_toFinset, ← World.filterMap_log, List.mem_filterMap]
    simp [BroadcastDb.ofUsers]
  · have hcol := tallied_of_reaches h.reaches b
    rw [totalColumn, hrow] at hcol
    exact hcol

theorem everParticipants_mono
    (hs : World.StepIf broadcastKeyed (fun _ => KeepsParticipants b) w w') :
    everParticipants w b ⊆ everParticipants w' b := by
  have hlog := World.log_step hs.1
  intro u hu
  simp only [everParticipants, List.mem_toFinset, ← World.filterMap_log] at hu ⊢
  rw [hlog, List.filterMap_append]
  exact List.mem_append_left _ hu

/-- In every run in which no participant of the broadcast is deleted, the reported total is the
number of users who ever took part, it is what the trigger's column says, and it never goes down. -/
theorem total_is_all_time
    (h : BroadcastReachesIf (fun _ => KeepsParticipants b) ops (.ofUsers users) t w)
    (h' : Relation.ReflTransGen (World.StepIf broadcastKeyed fun _ => KeepsParticipants b) w w') :
    AllTimeTotal w b ∧
      getTotalParticipants w.committed b ≤ getTotalParticipants w'.committed b := by
  have hw := allTimeTotal_of_reachesIf h
  have hw' := allTimeTotal_of_reachesIf (Relation.ReflTransGen.trans h h')
  have hmono : everParticipants w b ⊆ everParticipants w' b := by
    clear hw hw' h
    induction h' with
    | refl => exact Finset.Subset.refl _
    | tail _ hs ih => exact ih.trans (everParticipants_mono hs)
  refine ⟨hw, ?_⟩
  rw [hw.1, hw'.1]
  exact_mod_cast Finset.card_le_card hmono

end AllTime

/-- User 1 creates broadcast 9 and starts it; user 2 joins and leaves. -/
def visit : Fin 4 → BroadcastOp
  | 0 => .create 1 1 ⟨9⟩ morningPrayer ⟨1⟩
  | 1 => .start 2 ⟨9⟩ ⟨1⟩
  | 2 => .join 3 ⟨9⟩ ⟨2⟩
  | 3 => .leave 4 ⟨9⟩ ⟨2⟩

/-- Until the guest leaves, the total goes from 1 to 2. -/
theorem total_counts_the_guest : ∃ w w' : BroadcastWorld (Fin 4),
    getTotalParticipants w.committed ⟨9⟩ = 1 ∧ getTotalParticipants w'.committed ⟨9⟩ = 2 ∧
      AllTimeTotal w ⟨9⟩ ∧
      getTotalParticipants w.committed ⟨9⟩ ≤ getTotalParticipants w'.committed ⟨9⟩ := by
  have hrun : ∃ w ∈ World.runSchedule broadcastKeyed (fun _ => KeepsParticipants ⟨9⟩)
        (List.replicate 5 (1, 0) ++ List.replicate 10 (2, 1))
        (World.start (.ofUsers twoUsers) 0 (callers visit)),
      ∃ w' ∈ World.runSchedule broadcastKeyed (fun _ => KeepsParticipants ⟨9⟩)
        (List.replicate 15 (3, 2)) w,
        getTotalParticipants w.committed ⟨9⟩ = 1 ∧ getTotalParticipants w'.committed ⟨9⟩ = 2 := by
    decide +kernel
  obtain ⟨w, hw, w', hw', hone, htwo⟩ := hrun
  have hstart : BroadcastReachesIf (fun _ => KeepsParticipants ⟨9⟩) visit (.ofUsers twoUsers) 0
      (World.start (.ofUsers twoUsers) 0 (callers visit)) := .refl
  have hreach := World.reaches_runSchedule _ hstart hw
  exact ⟨w, w', hone, htwo, total_is_all_time hreach (World.steps_runSchedule _ hw')⟩

/-- When the guest leaves, the total goes down to 1; two users have taken part. -/
theorem total_forgets_the_guest : ∃ w w' : BroadcastWorld (Fin 4),
    BroadcastReaches visit (.ofUsers twoUsers) 0 w ∧
      Relation.ReflTransGen (World.Step broadcastKeyed) w w' ∧
      getTotalParticipants w'.committed ⟨9⟩ < getTotalParticipants w.committed ⟨9⟩ ∧
      getTotalParticipants w'.committed ⟨9⟩ ≠ (everParticipants w' ⟨9⟩).card := by
  have hrun : ∃ w ∈ World.runSchedule broadcastKeyed (fun _ _ => True)
        (List.replicate 5 (1, 0) ++ List.replicate 10 (2, 1) ++ List.replicate 15 (3, 2))
        (World.start (.ofUsers twoUsers) 0 (callers visit)),
      ∃ w' ∈ World.runSchedule broadcastKeyed (fun _ _ => True) (List.replicate 5 (4, 3)) w,
        getTotalParticipants w'.committed ⟨9⟩ < getTotalParticipants w.committed ⟨9⟩ ∧
        getTotalParticipants w'.committed ⟨9⟩ ≠ (everParticipants w' ⟨9⟩).card := by
    decide +kernel
  obtain ⟨w, hw, w', hw', hless, hne⟩ := hrun
  have hstart : BroadcastReachesIf (fun _ _ => True) visit (.ofUsers twoUsers) 0
      (World.start (.ofUsers twoUsers) 0 (callers visit)) := .refl
  have hreach := World.reaches_runSchedule _ hstart hw
  have hsteps := World.steps_runSchedule _ hw'
  have hplain := Relation.ReflTransGen.mono (fun _ _ hs => hs.1) _ _ hsteps
  exact ⟨w, w', hreach.reaches, hplain, hless, hne⟩

end Meno
