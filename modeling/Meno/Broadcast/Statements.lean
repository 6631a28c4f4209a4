import Meno.Lib.Commits
import Meno.Broadcast.Ops

/-!
# Meno.Broadcast.Statements

What the statements of the broadcast module may do to a row. `BroadcastWrite.Legal` lists it, for one row write,
by the row that is there: `exec_legal` says that every statement writes a chain of legal writes.
What the committed tables look like after any interleaving of operations follows from that.
-/

namespace Meno

open Lib

/-! ## Rows under keys -/

inductive BroadcastKey where
  | broadcast (id : Uuid)
  | cohost (broadcastId cohostId : Uuid)
  | participant (broadcastId participantId : Uuid)
deriving DecidableEq

/-- A row of any of the three tables. -/
inductive BroadcastRow where
  | broadcast (row : Broadcast)
  | cohost (row : BroadcastCohost)
  | participant (row : BroadcastParticipant)

def BroadcastWrite.key : BroadcastWrite → BroadcastKey
  | .broadcast row => .broadcast row.id
  | .cohost row => .cohost row.broadcastId row.cohostId
  | .dropCohost b u => .cohost b u
  | .participant row => .participant row.broadcastId row.participantId
  | .dropParticipant b u => .participant b u

def BroadcastWrite.value : BroadcastWrite → Option BroadcastRow
  | .broadcast row => some (.broadcast row)
  | .cohost row => some (.cohost row)
  | .dropCohost _ _ => none
  | .participant row => some (.participant row)
  | .dropParticipant _ _ => none

def BroadcastDb.look (db : BroadcastDb) : BroadcastKey → Option BroadcastRow
  | .broadcast id => (db.broadcasts.get id).map .broadcast
  | .cohost b u => (db.cohosts.get (b, u)).map .cohost
  | .participant b u => (db.participants.get (b, u)).map .participant

theorem BroadcastDb.look_apply (db : BroadcastDb) (w : BroadcastWrite) (k : BroadcastKey) :
    (db.apply w).look k = if k = w.key then w.value else db.look k := by
  cases w with
  | broadcast row =>
    cases k with
    | broadcast id =>
      simp only [look, apply, Table.get_put, BroadcastWrite.key, BroadcastWrite.value,
        BroadcastKey.broadcast.injEq]
      split <;> rfl
    | cohost b u => rfl
    | participant b u => rfl
  | cohost row =>
    cases k with
    | broadcast id => rfl
    | cohost b u =>
      simp only [look, apply, Table.get_put, BroadcastCohost.key, BroadcastWrite.key,
        BroadcastWrite.value, Prod.mk.injEq, BroadcastKey.cohost.injEq]
      split <;> rfl
    | participant b u => rfl
  | dropCohost b' u' =>
    cases k with
    | broadcast id => rfl
    | cohost b u =>
      simp only [look, apply, Table.get_erase, BroadcastWrite.key, BroadcastWrite.value,
        Prod.mk.injEq, BroadcastKey.cohost.injEq]
      split <;> rfl
    | participant b u => rfl
  | participant row =>
    cases k with
    | broadcast id => rfl
    | cohost b u => rfl
    | participant b u =>
      simp only [look, apply, Table.get_put, BroadcastParticipant.key, BroadcastWrite.key,
        BroadcastWrite.value, Prod.mk.injEq, BroadcastKey.participant.injEq]
      split <;> rfl
  | dropParticipant b' u' =>
    cases k with
    | broadcast id => rfl
    | cohost b u => rfl
    | participant b u =>
      simp only [look, apply, Table.get_erase, BroadcastWrite.key, BroadcastWrite.value,
        Prod.mk.injEq, BroadcastKey.participant.injEq]
      split <;> rfl

def broadcastKeyed : Keyed broadcastEngine BroadcastKey BroadcastRow where
  key := BroadcastWrite.key
  value := BroadcastWrite.value
  look := BroadcastDb.look
  look_apply := BroadcastDb.look_apply

/-! ## Legal writes -/

/-- What decides whether a broadcast is live, and whose it is, stays. -/
structure Broadcast.SameState (b row : Broadcast) : Prop where
  creatorId : row.creatorId = b.creatorId
  status : row.status = b.status
  endTime : row.endTime = b.endTime
  deletedAt : row.deletedAt = b.deletedAt

inductive BroadcastWrite.Legal (db : BroadcastDb) : BroadcastWrite → Prop where
  | createBroadcast {row : Broadcast} : db.broadcasts.get row.id = none → row.status = .inactive →
      row.endTime = none → row.deletedAt = none → Legal db (.broadcast row)
  | editBroadcast {b row : Broadcast} : db.broadcasts.get row.id = some b → b.SameState row →
      Legal db (.broadcast row)
  | deleteBroadcast {b : Broadcast} {t : OffsetDateTime} : db.broadcasts.get b.id = some b →
      b.deletedAt = none → Legal db (.broadcast { b with deletedAt := some t, updatedAt := t })
  | activate {b : Broadcast} {token : Token} {start t : OffsetDateTime} :
      db.broadcasts.get b.id = some b → Legal db (.broadcast { b with
        status := .active
        broadcastToken := some token
        startTime := some start
        updatedAt := t })
  | deactivate {b : Broadcast} {reason : EndReason} {t : OffsetDateTime} :
      db.broadcasts.get b.id = some b → Legal db (.broadcast { b with
        status := .inactive
        endTime := some t
        endReason := reason
        updatedAt := t })
  | addCohost {row : BroadcastCohost} : db.cohosts.get row.key = none → Legal db (.cohost row)
  | dropCohost {b u : Uuid} : Legal db (.dropCohost b u)
  | addParticipant {row : BroadcastParticipant} : db.participants.get row.key = none →
      row.leftAt = none → Legal db (.participant row)
  | setRole {p : BroadcastParticipant} {role : ParticipantRole} {t : OffsetDateTime} :
      db.participants.get p.key = some p → Legal db (.participant { p with role, joinedAt := t })
  | setLeft {p : BroadcastParticipant} {t : OffsetDateTime} : db.participants.get p.key = some p →
      Legal db (.participant { p with leftAt := some t })
  | dropParticipant {b u : Uuid} : Legal db (.dropParticipant b u)

section Look

variable {db db' : BroadcastDb}

theorem BroadcastDb.broadcast_of_look {id : Uuid}
    (h : db.look (.broadcast id) = db'.look (.broadcast id)) :
    db.broadcasts.get id = db'.broadcasts.get id :=
  Option.map_injective (fun _ _ hr => by cases hr; rfl) h

theorem BroadcastDb.cohost_of_look {b u : Uuid} (h : db.look (.cohost b u) = db'.look (.cohost b u)) :
    db.cohosts.get (b, u) = db'.cohosts.get (b, u) :=
  Option.map_injective (fun _ _ hr => by cases hr; rfl) h

theorem BroadcastDb.participant_of_look {b u : Uuid}
    (h : db.look (.participant b u) = db'.look (.participant b u)) :
    db.participants.get (b, u) = db'.participants.get (b, u) :=
  Option.map_injective (fun _ _ hr => by cases hr; rfl) h

end Look

/-- Whether a write is legal is a matter of the row it writes. -/
theorem BroadcastWrite.legal_row (db db' : BroadcastDb) (w : BroadcastWrite)
    (hsame : broadcastKeyed.look db (broadcastKeyed.key w) =
      broadcastKeyed.look db' (broadcastKeyed.key w)) (h : Legal db w) : Legal db' w := by
  cases h with
  | createBroadcast hnone hst hend hdel =>
    exact .createBroadcast ((BroadcastDb.broadcast_of_look hsame).symm.trans hnone) hst hend hdel
  | editBroadcast hb h => exact .editBroadcast ((BroadcastDb.broadcast_of_look hsame).symm.trans hb) h
  | deleteBroadcast hb h => exact .deleteBroadcast ((BroadcastDb.broadcast_of_look hsame).symm.trans hb) h
  | activate hb => exact .activate ((BroadcastDb.broadcast_of_look hsame).symm.trans hb)
  | deactivate hb => exact .deactivate ((BroadcastDb.broadcast_of_look hsame).symm.trans hb)
  | addCohost hnone => exact .addCohost ((BroadcastDb.cohost_of_look hsame).symm.trans hnone)
  | dropCohost => exact .dropCohost
  | addParticipant hnone hleft =>
    exact .addParticipant ((BroadcastDb.participant_of_look hsame).symm.trans hnone) hleft
  | setRole hp => exact .setRole ((BroadcastDb.participant_of_look hsame).symm.trans hp)
  | setLeft hp => exact .setLeft ((BroadcastDb.participant_of_look hsame).symm.trans hp)
  | dropParticipant => exact .dropParticipant

/-! ## The statements -/

namespace BroadcastRepository

open BroadcastWrite (Legal legal_row)

section Exec

variable {db : BroadcastDb} {now : OffsetDateTime} {ws : List BroadcastWrite}

theorem get_self {b : Broadcast} {id : Uuid} (h : db.broadcasts.get id = some b) :
    db.broadcasts.get b.id = some b := by
  have hid : b.id = id := Table.key_of_get h
  rw [hid, h]

theorem chain_countParticipant {db' : BroadcastDb} (h : db'.broadcasts = db.broadcasts)
    (now : OffsetDateTime) (b : Uuid) (n : Int) :
    broadcastEngine.Chain Legal db' (countParticipant db now b n) := by
  unfold countParticipant
  cases hb : db.broadcasts.get b with
  | none => trivial
  | some row =>
    have hget : db'.broadcasts.get row.id = some row := by rw [h, get_self hb]
    exact ⟨.editBroadcast hget ⟨rfl, rfl, rfl, rfl⟩, trivial⟩

theorem create_legal {id : Uuid} {input : CreateBroadcastInput} {row : Broadcast}
    (h : create db now id input = .ok (row, ws)) : broadcastEngine.Chain Legal db ws := by
  simp only [create, bind_eq_ok] at h
  obtain ⟨_, _, _, _, _, _, _, _, _, _, _, _, h⟩ := h
  by_cases hnew : (db.broadcasts.get id).isSome = true
  · rw [if_pos hnew] at h
    cases h
  · rw [if_neg hnew] at h
    simp only [bind_eq_ok, pure_eq_ok, Prod.mk.injEq] at h
    obtain ⟨_, _, rfl, rfl⟩ := h
    exact ⟨.createBroadcast (by simpa using hnew) rfl rfl rfl, trivial⟩

theorem update_legal {input : UpdateBroadcastInput} {row : Broadcast}
    (h : update db now input = .ok (row, ws)) : broadcastEngine.Chain Legal db ws := by
  simp only [update, bind_eq_ok] at h
  obtain ⟨_, _, _, _, _, _, _, _, _, _, h⟩ := h
  cases hb : db.broadcasts.get input.broadcastId with
  | none => rw [hb] at h; cases h
  | some b =>
    rw [hb] at h
    simp only [bind_eq_ok, pure_eq_ok, Prod.mk.injEq] at h
    obtain ⟨_, _, rfl, rfl⟩ := h
    have hget : db.broadcasts.get b.id = some b := get_self hb
    exact ⟨.editBroadcast hget ⟨rfl, rfl, rfl, rfl⟩, trivial⟩

theorem addCohosts_legal {b c : Uuid} (us : List Uuid) :
    ∀ {db : BroadcastDb} {ws : List BroadcastWrite}, addCohosts db now b c us = .ok ((), ws) →
      broadcastEngine.Chain Legal db ws := by
  induction us with
  | nil =>
    intro db ws h
    cases h
    trivial
  | cons u us ih =>
    intro db ws h
    rw [addCohosts] at h
    split at h
    · exact ih h
    · rename_i hnew
      simp only [bind_eq_ok, pure_eq_ok, Prod.mk.injEq, true_and] at h
      obtain ⟨_, _, _, _, _, _, ⟨_, ws'⟩, hrest, rfl⟩ := h
      have hnone : db.cohosts.get (b, u) = none := by simpa using hnew
      exact ⟨.addCohost hnone, ih hrest⟩

theorem upsertParticipant_legal {input : UpsertParticipantInput}
    (h : upsertParticipant db now input = .ok ((), ws)) : broadcastEngine.Chain Legal db ws := by
  unfold upsertParticipant at h
  cases hp : db.participants.get (input.broadcastId, input.participantId) with
  | some p =>
    rw [hp] at h
    cases h
    have hkey : p.key = (input.broadcastId, input.participantId) := Table.key_of_get hp
    refine ⟨.setRole ?_, trivial⟩
    rw [hkey, hp]
  | none =>
    rw [hp] at h
    simp only [bind_eq_ok, pure_eq_ok, Prod.mk.injEq, true_and] at h
    obtain ⟨_, _, _, _, rfl⟩ := h
    exact ⟨.addParticipant hp rfl, chain_countParticipant rfl now _ 1⟩

theorem getParticipantIdsAndClear_legal {b : Uuid} {ids : List Uuid}
    (h : getParticipantIdsAndClear db now b = .ok (ids, ws)) :
    broadcastEngine.Chain Legal db ws := by
  cases h
  refine chain_of_nodup broadcastKeyed legal_row _ db ?_ ?_
  · intro w hw
    obtain ⟨p, hp, rfl⟩ := List.mem_map.1 hw
    exact .setLeft (Table.mem_rows_iff.1 (List.mem_filter.1 hp).1)
  · rw [List.map_map]
    have hkeys : broadcastKeyed.key ∘ (fun p : BroadcastParticipant =>
        BroadcastWrite.participant { p with leftAt := some now }) =
        (fun k : Uuid × Uuid => BroadcastKey.participant k.1 k.2) ∘ BroadcastParticipant.key := rfl
    rw [hkeys, ← List.map_map]
    refine List.Nodup.map ?_ (db.participants.nodup.sublist (List.filter_sublist.map _))
    rintro ⟨b, u⟩ ⟨b', u'⟩ he
    cases he
    rfl

theorem delete_legal {id : Uuid} {n : Nat} (h : delete db now id = .ok (n, ws)) :
    broadcastEngine.Chain Legal db ws := by
  unfold delete at h
  cases hb : (db.broadcasts.get id).filter fun b => b.deletedAt.isNone with
  | none => rw [hb] at h; cases h; trivial
  | some b =>
    rw [hb] at h
    cases h
    obtain ⟨hget, hdel⟩ := Option.filter_eq_some_iff.1 hb
    exact ⟨.deleteBroadcast (get_self hget) (by simpa using hdel), trivial⟩

theorem setActive_legal {input : SetActiveInput} {row : Broadcast}
    (h : setActive db now input = .ok (row, ws)) : broadcastEngine.Chain Legal db ws := by
  unfold setActive at h
  cases hb : db.broadcasts.get input.broadcastId with
  | none => rw [hb] at h; cases h
  | some b =>
    rw [hb] at h
    cases h
    exact ⟨.activate (get_self hb), trivial⟩

theorem setInactive_legal {id : Uuid} {reason : EndReason} {n : Nat}
    (h : setInactive db now id reason = .ok (n, ws)) : broadcastEngine.Chain Legal db ws := by
  unfold setInactive at h
  cases hb : db.broadcasts.get id with
  | none => rw [hb] at h; cases h; trivial
  | some b =>
    rw [hb] at h
    cases h
    exact ⟨.deactivate (get_self hb), trivial⟩

theorem removeCohost_legal {b u : Uuid} (h : removeCohost db b u = .ok ((), ws)) :
    broadcastEngine.Chain Legal db ws := by
  unfold removeCohost at h
  split at h
  · cases h
    exact ⟨.dropCohost, trivial⟩
  · cases h
    trivial

theorem removeParticipant_legal {b u : Uuid} (h : removeParticipant db now b u = .ok ((), ws)) :
    broadcastEngine.Chain Legal db ws := by
  unfold removeParticipant at h
  split at h
  · cases h
    exact ⟨.dropParticipant, chain_countParticipant rfl now b (-1)⟩
  · cases h
    trivial

end Exec

end BroadcastRepository

open BroadcastRepository in
/-- Every statement writes a chain of legal writes. -/
theorem BroadcastStmt.exec_legal {β : Type} {s : BroadcastStmt β} {a : β} {db : BroadcastDb}
    {now : OffsetDateTime} {ws : List BroadcastWrite} (h : s.exec now db = .ok (a, ws)) :
    broadcastEngine.Chain BroadcastWrite.Legal db ws := by
  cases s with
  | create id input => exact create_legal h
  | update input => exact update_legal h
  | delete id => exact delete_legal h
  | setActive input => exact setActive_legal h
  | setInactive id reason => exact setInactive_legal h
  | addCohosts b us invitedBy => exact addCohosts_legal us h
  | removeCohost b u => exact removeCohost_legal h
  | upsertParticipant input => exact upsertParticipant_legal h
  | removeParticipant b u => exact removeParticipant_legal h
  | getParticipantIdsAndClear b => exact getParticipantIdsAndClear_legal h
  | _ => cases h; trivial

/-! ## Interleaved operations -/

theorem broadcast_disciplined :
    World.Disciplined (K := broadcastKeyed) (T := OffsetDateTime) (fun _ => True) BroadcastWrite.Legal where
  exec := fun _ h => BroadcastStmt.exec_legal h
  row := BroadcastWrite.legal_row

abbrev BroadcastWorld (ι : Type) :=
  World BroadcastStmt BroadcastDb BroadcastWrite OffsetDateTime DbError
    (Except BroadcastError BroadcastAnswer) ι

/-- The callers' programs: any family of operations. -/
def callers {ι : Type} (ops : ι → BroadcastOp) (i : ι) :
    Prog (Cmd BroadcastStmt DbError) (Except BroadcastError BroadcastAnswer) :=
  ExceptT.run (ops i).prog

/-- The worlds that the operations reach, interleaved in any way. -/
abbrev BroadcastReaches {ι : Type} [DecidableEq ι] (ops : ι → BroadcastOp) (db : BroadcastDb)
    (t : OffsetDateTime) (w : BroadcastWorld ι) : Prop :=
  World.Reaches broadcastKeyed (callers ops) db t w

/-- Those that they reach when the row writes of every commit meet `cond`. -/
abbrev BroadcastReachesIf {ι : Type} [DecidableEq ι] (cond : BroadcastDb → BroadcastWrite → Prop)
    (ops : ι → BroadcastOp) (db : BroadcastDb) (t : OffsetDateTime) (w : BroadcastWorld ι) : Prop :=
  World.ReachesIf broadcastKeyed cond (callers ops) db t w

/-- What legal writes preserve when they meet `cond` holds of the committed tables. -/
theorem committed_of_legal {ι : Type} [DecidableEq ι] {cond : BroadcastDb → BroadcastWrite → Prop}
    {I : BroadcastDb → Prop} (hstep : ∀ db x, I db → BroadcastWrite.Legal db x → cond db x → I (db.apply x))
    {ops : ι → BroadcastOp} {db : BroadcastDb} (h₀ : I db) {t : OffsetDateTime}
    {w : BroadcastWorld ι} (h : BroadcastReachesIf cond ops db t w) : I w.committed :=
  World.committed_of_reachesIf broadcast_disciplined (fun _ => World.uses_anything _) hstep h₀ h

end Meno
