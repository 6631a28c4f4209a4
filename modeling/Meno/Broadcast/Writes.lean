import Meno.Broadcast.Statements

/-!
# Meno.Broadcast.Writes

Which rows a statement can write (`exec_touches`), and which statements an operation can come to
make, whatever they answer: reads, and the few that write the rows of the broadcast it is about
(`uses_writes`). What an operation leaves alone follows from the statements that it never makes.
-/

namespace Meno

open Lib

/-- A statement that writes nothing, and the calls to LiveKit and Redis. -/
def BroadcastStmt.isRead : {β : Type} → BroadcastStmt β → Bool
  | _, .create _ _ => false
  | _, .update _ => false
  | _, .delete _ => false
  | _, .setActive _ => false
  | _, .setInactive _ _ => false
  | _, .addCohosts _ _ _ => false
  | _, .removeCohost _ _ => false
  | _, .upsertParticipant _ => false
  | _, .removeParticipant _ _ => false
  | _, .getParticipantIdsAndClear _ => false
  | _, _ => true

theorem exec_read {β : Type} {s : BroadcastStmt β} {a : β} {db : BroadcastDb} {t : OffsetDateTime}
    {ws : List BroadcastWrite} (hs : s.isRead = true) (h : s.exec t db = .ok (a, ws)) : ws = [] := by
  cases s <;> first
    | exact absurd hs Bool.false_ne_true
    | (cases h; rfl)

/-! ## The rows that a statement writes -/

open BroadcastRepository in
def BroadcastStmt.Touches : {β : Type} → BroadcastStmt β → BroadcastKey → Prop
  | _, .create id _, k => k = .broadcast id
  | _, .update input, k => k = .broadcast input.broadcastId
  | _, .delete id, k => k = .broadcast id
  | _, .setActive input, k => k = .broadcast input.broadcastId
  | _, .setInactive id _, k => k = .broadcast id
  | _, .addCohosts b _ _, k => ∃ u, k = .cohost b u
  | _, .removeCohost b u, k => k = .cohost b u
  | _, .upsertParticipant input, k =>
    k = .participant input.broadcastId input.participantId ∨ k = .broadcast input.broadcastId
  | _, .removeParticipant b u, k => k = .participant b u ∨ k = .broadcast b
  | _, .getParticipantIdsAndClear b, k => ∃ u, k = .participant b u
  | _, _, _ => False

section Touches

open BroadcastRepository

variable {db : BroadcastDb} {t : OffsetDateTime} {ws : List BroadcastWrite}

theorem countParticipant_touches {b : Uuid} {n : Int} :
    ∀ w ∈ countParticipant db t b n, w.key = .broadcast b := by
  unfold countParticipant
  cases hb : db.broadcasts.get b with
  | none => simp
  | some row =>
    have hid : row.id = b := Table.key_of_get hb
    simp [BroadcastWrite.key, hid]

theorem addCohosts_touches {b c : Uuid} (us : List Uuid) :
    ∀ {db : BroadcastDb} {ws : List BroadcastWrite}, addCohosts db t b c us = .ok ((), ws) →
      ∀ w ∈ ws, ∃ u, w.key = .cohost b u := by
  induction us with
  | nil =>
    intro db ws h
    cases h
    simp
  | cons u us ih =>
    intro db ws h
    rw [addCohosts] at h
    split at h
    · exact ih h
    · simp only [bind_eq_ok, pure_eq_ok, Prod.mk.injEq, true_and] at h
      obtain ⟨_, _, _, _, _, _, ⟨_, ws'⟩, hrest, rfl⟩ := h
      intro w hw
      rcases List.mem_cons.1 hw with rfl | hw
      · exact ⟨u, rfl⟩
      · exact ih hrest w hw

theorem upsertParticipant_touches {input : UpsertParticipantInput}
    (h : upsertParticipant db t input = .ok ((), ws)) : ∀ w ∈ ws,
      w.key = .participant input.broadcastId input.participantId ∨
        w.key = .broadcast input.broadcastId := by
  unfold upsertParticipant at h
  cases hp : db.participants.get (input.broadcastId, input.participantId) with
  | some p =>
    rw [hp] at h
    cases h
    have hkey : p.key = (input.broadcastId, input.participantId) := Table.key_of_get hp
    obtain ⟨hb, hu⟩ := Prod.mk.inj hkey
    simp [BroadcastWrite.key, hb, hu]
  | none =>
    rw [hp] at h
    simp only [bind_eq_ok, pure_eq_ok, Prod.mk.injEq, true_and] at h
    obtain ⟨_, _, _, _, rfl⟩ := h
    intro w hw
    rcases List.mem_cons.1 hw with rfl | hw
    · exact .inl rfl
    · exact .inr (countParticipant_touches w hw)

theorem removeParticipant_touches {b u : Uuid} (h : removeParticipant db t b u = .ok ((), ws)) :
    ∀ w ∈ ws, w.key = .participant b u ∨ w.key = .broadcast b := by
  unfold removeParticipant at h
  split at h
  · cases h
    intro w hw
    rcases List.mem_cons.1 hw with rfl | hw
    · exact .inl rfl
    · exact .inr (countParticipant_touches w hw)
  · cases h
    simp

/-- A row that is looked up by its id is written under it. -/
theorem key_of_get {id : Uuid} {old row : Broadcast} (h : db.broadcasts.get id = some old)
    (hid : row.id = old.id) : (BroadcastWrite.broadcast row).key = .broadcast id := by
  have hold : old.id = id := Table.key_of_get h
  rw [BroadcastWrite.key, hid, hold]

theorem exec_touches {β : Type} {s : BroadcastStmt β} {a : β} (h : s.exec t db = .ok (a, ws)) :
    ∀ w ∈ ws, s.Touches w.key := by
  cases s with
  | create id input =>
    simp only [BroadcastStmt.exec, BroadcastRepository.create, bind_eq_ok] at h
    obtain ⟨_, _, _, _, _, _, _, _, _, _, _, _, h⟩ := h
    split at h
    · cases h
    · simp only [bind_eq_ok, pure_eq_ok, Prod.mk.injEq] at h
      obtain ⟨_, _, _, rfl⟩ := h
      simp [BroadcastStmt.Touches, BroadcastWrite.key]
  | update input =>
    simp only [BroadcastStmt.exec, BroadcastRepository.update, bind_eq_ok] at h
    obtain ⟨_, _, _, _, _, _, _, _, _, _, h⟩ := h
    cases hold : db.broadcasts.get input.broadcastId with
    | none => rw [hold] at h; cases h
    | some old =>
      rw [hold] at h
      simp only [bind_eq_ok, pure_eq_ok, Prod.mk.injEq] at h
      obtain ⟨_, _, _, rfl⟩ := h
      exact List.forall_mem_singleton.2 (key_of_get hold rfl)
  | delete id =>
    simp only [BroadcastStmt.exec, BroadcastRepository.delete] at h
    cases hold : (db.broadcasts.get id).filter fun b => b.deletedAt.isNone with
    | none => rw [hold] at h; cases h; simp
    | some old =>
      rw [hold] at h
      cases h
      exact List.forall_mem_singleton.2 (key_of_get (Option.filter_eq_some_iff.1 hold).1 rfl)
  | setActive input =>
    simp only [BroadcastStmt.exec, setActive] at h
    cases hold : db.broadcasts.get input.broadcastId with
    | none => rw [hold] at h; cases h
    | some old =>
      rw [hold] at h
      cases h
      exact List.forall_mem_singleton.2 (key_of_get hold rfl)
  | setInactive id reason =>
    simp only [BroadcastStmt.exec, setInactive] at h
    cases hold : db.broadcasts.get id with
    | none => rw [hold] at h; cases h; simp
    | some old =>
      rw [hold] at h
      cases h
      exact List.forall_mem_singleton.2 (key_of_get hold rfl)
  | addCohosts b us c => exact addCohosts_touches us h
  | removeCohost b u =>
    simp only [BroadcastStmt.exec, BroadcastRepository.removeCohost] at h
    split at h
    · cases h
      simp [BroadcastStmt.Touches, BroadcastWrite.key]
    · cases h
      simp
  | upsertParticipant input => exact upsertParticipant_touches h
  | removeParticipant b u => exact removeParticipant_touches h
  | getParticipantIdsAndClear b =>
    cases h
    intro w hw
    obtain ⟨p, hp, rfl⟩ := List.mem_map.1 hw
    obtain ⟨hb, -⟩ : p.broadcastId = b ∧ p.leftAt = none := by
      simpa using (List.mem_filter.1 hp).2
    exact ⟨p.participantId, by rw [← hb]; rfl⟩
  | _ => cases h; simp

end Touches

section Tables

variable {db : BroadcastDb} {ws : List BroadcastWrite}

theorem broadcasts_applyAll (h : ∀ w ∈ ws, ∀ id, w.key ≠ .broadcast id) :
    (broadcastEngine.applyAll db ws).broadcasts = db.broadcasts := by
  refine applyAll_invariant (I := fun d : BroadcastDb => d.broadcasts = db.broadcasts) ?_ rfl h
  intro d w hd hw
  cases w with
  | broadcast row => exact absurd rfl (hw row.id)
  | _ => exact hd

theorem participants_applyAll (h : ∀ w ∈ ws, ∀ b u, w.key ≠ .participant b u) :
    (broadcastEngine.applyAll db ws).participants = db.participants := by
  refine applyAll_invariant (I := fun d : BroadcastDb => d.participants = db.participants) ?_ rfl h
  intro d w hd hw
  cases w with
  | participant row => exact absurd rfl (hw row.broadcastId row.participantId)
  | dropParticipant b u => exact absurd rfl (hw b u)
  | _ => exact hd

end Tables

/-! ## The statements of an operation -/

namespace BroadcastService

section Uses

variable {ok : {β : Type} → Cmd BroadcastStmt DbError β → Prop}

theorem uses_okOr {α : Type} (error : BroadcastError) (o : Option α) :
    Act.Uses ok (okOr error o) := by
  cases o with
  | none => exact Act.uses_throw _
  | some a => exact Act.uses_pure _

theorem uses_refuse (error : BroadcastError) (cond : Bool) :
    Act.Uses ok (refuse error cond) := by
  cases cond with
  | false => exact Act.uses_pure _
  | true => exact Act.uses_throw _

theorem uses_query {β : Type} {e : Executor} {s : BroadcastStmt β}
    (h : ok (.exec e s)) : Act.Uses ok (query e s) := Act.uses_ask h

theorem uses_lookup {β : Type} {s : BroadcastStmt β} (h : ok (.exec .pool s)) :
    Act.Uses ok (lookup s) := Act.uses_attempt (uses_query h)

theorem uses_found {α : Type} (error : BroadcastError) (r : Except BroadcastError (Option α)) :
    Act.Uses ok (found error r) :=
  Act.uses_bind (Act.uses_ofExcept _) fun _ => uses_okOr _ _

theorem uses_begin (h : ok .begin) : Act.Uses ok beginTx := Act.uses_ask h

theorem uses_commit (h : ok .commit) : Act.Uses ok commitTx := Act.uses_ask h

section Reads

variable (hread : ∀ {β : Type} (s : BroadcastStmt β), s.isRead = true → ok (.exec .pool s))
include hread

theorem uses_mintToken (u : Uuid) (name : String) (id : Uuid) (role : LivekitRole)
    (attributes : Option TokenAttributes) :
    Act.Uses ok (mintToken u name id role attributes) :=
  Act.uses_ask (hread _ rfl)

theorem uses_createRoom (id : Uuid) : Act.Uses ok (createRoom id) :=
  Act.uses_bind (Act.uses_ask (hread _ rfl)) fun _ => Act.uses_ask (hread _ rfl)

theorem uses_existsOrFalse {s : BroadcastStmt Bool} (h : s.isRead = true) :
    Act.Uses ok (existsOrFalse s) := by
  refine Act.uses_bind (uses_lookup (hread s h)) fun r => ?_
  cases r <;> exact Act.uses_pure _

theorem uses_buildCtx (row : Broadcast) (pid : Option Uuid) (role : Option ParticipantRole)
    (liveCount totalCount : Int) :
    Act.Uses ok (buildCtx row pid role liveCount totalCount) := by
  refine Act.uses_bind (uses_existsOrFalse hread rfl) fun _ => Act.uses_bind ?_ fun _ =>
    Act.uses_pure _
  cases pid with
  | none => exact Act.uses_pure _
  | some pid =>
    refine Act.uses_bind (uses_lookup (hread _ rfl)) fun _ => ?_
    refine Act.uses_bind (uses_lookup (hread _ rfl)) fun _ => ?_
    refine Act.uses_bind (Act.uses_ofExcept _) fun _ => ?_
    exact Act.uses_bind (Act.uses_ofExcept _) fun _ => Act.uses_pure _

theorem uses_deduplicateCohosts (ids : List Uuid) (c : Uuid) :
    Act.Uses ok (deduplicateCohosts ids c) := by
  unfold deduplicateCohosts
  split
  · exact Act.uses_pure _
  · refine Act.uses_bind (uses_refuse _ _) fun _ => ?_
    refine Act.uses_bind (uses_refuse _ _) fun _ => ?_
    refine Act.uses_bind (uses_query (hread _ rfl)) fun _ => ?_
    exact Act.uses_bind (uses_refuse _ _) fun _ => Act.uses_pure _

end Reads

theorem uses_addCohosts {id c : Uuid} {ids : List Uuid} 
    (h : ok (.exec .tx (.addCohosts id ids c))) :
    Act.Uses ok (BroadcastService.addCohosts id ids c) := by
  unfold BroadcastService.addCohosts
  split
  · exact Act.uses_pure _
  · exact uses_query h

theorem uses_alreadyIn (id : Uuid) (o : Option BroadcastParticipant) :
    Act.Uses ok (alreadyIn id o) := by
  cases o with
  | none => exact Act.uses_pure _
  | some p =>
    by_cases hb : p.broadcastId = id
    · simp only [alreadyIn, hb, if_true]
      exact Act.uses_throw _
    · simp only [alreadyIn, hb, if_false]
      exact Act.uses_throw _

theorem uses_refuseFull (cohosts : Except BroadcastError (List UserSummary)) :
    Act.Uses ok (refuseFull cohosts) := by
  cases cohosts with
  | error e => exact Act.uses_pure _
  | ok us => exact uses_refuse _ _

theorem uses_currentRole (row : Broadcast) (u : Uuid)
    (r : Except BroadcastError (Option BroadcastParticipant)) :
    Act.Uses ok (currentRole row u r) := by
  unfold currentRole
  split
  · exact Act.uses_pure _
  · refine Act.uses_bind (Act.uses_ofExcept _) fun o => ?_
    cases o with
    | none => exact Act.uses_throw _
    | some p =>
      by_cases hleft : p.leftAt.isSome = true
      · simp only [hleft, if_true]
        exact Act.uses_throw _
      · simp only [hleft]
        exact Act.uses_pure _

end Uses

end BroadcastService

namespace BroadcastOp

/-- The writing statements of an operation, and all that only read. `create` and `update` add cohosts
to the row that they are answered. -/
def Writes : BroadcastOp → {β : Type} → BroadcastStmt β → Prop
  | .create _ _ id _ _, _, .create id' _ => id' = id
  | .create _ _ _ _ _, _, .addCohosts _ _ _ => True
  | .update _ _ id _, _, .update input => input.broadcastId = id
  | .update _ _ _ _, _, .addCohosts _ _ _ => True
  | .delete id _, _, .delete id' => id' = id
  | .start _ id _, _, .setActive input => input.broadcastId = id
  | .start _ id _, _, .upsertParticipant input => input.broadcastId = id
  | .endBroadcast _ id _, _, .getParticipantIdsAndClear id' => id' = id
  | .endBroadcast _ id _, _, .setInactive id' _ => id' = id
  | .join _ id _, _, .upsertParticipant input => input.broadcastId = id
  | .leave _ id _, _, .removeParticipant id' _ => id' = id
  | .addCohost _ id _ _, _, .addCohosts id' _ _ => id' = id
  | .addCohost _ id _ _, _, .upsertParticipant input => input.broadcastId = id
  | .removeCohost _ id _ _ _, _, .removeCohost id' _ => id' = id
  | .removeCohost _ id _ _ _, _, .removeParticipant id' _ => id' = id
  | .removeCohost _ id _ _ _, _, .upsertParticipant input => input.broadcastId = id
  | _, _, s => s.isRead = true

end BroadcastOp

open BroadcastService in
/-- Every operation makes statements of its own only. -/
theorem uses_writes (op : BroadcastOp) : Act.Uses (World.AllGood op.Writes) op.prog := by
  have hread : ∀ {β : Type} (s : BroadcastStmt β), s.isRead = true →
      World.AllGood op.Writes (.exec .pool s : Cmd BroadcastStmt DbError _) := by
    intro β s hs
    cases s <;> first
      | exact absurd hs Bool.false_ne_true
      | (cases op <;> rfl)
  cases op with
  | create now later id req c =>
    refine Act.uses_bind ?_ fun _ => Act.uses_pure _
    refine Act.uses_bind (uses_query rfl) fun _ => Act.uses_bind (uses_refuse _ _) fun _ => ?_
    refine Act.uses_bind (uses_refuse _ _) fun _ => ?_
    refine Act.uses_bind (uses_deduplicateCohosts hread _ _) fun _ => Act.uses_bind (uses_begin trivial) fun _ => ?_
    refine Act.uses_bind (uses_query rfl) fun _ => Act.uses_bind (uses_addCohosts trivial) fun _ => ?_
    refine Act.uses_bind (uses_commit trivial) fun _ => Act.uses_bind (uses_query rfl) fun _ => ?_
    exact Act.uses_bind (uses_okOr _ _) fun _ => Act.uses_pure _
  | update now req id c =>
    refine Act.uses_bind ?_ fun _ => Act.uses_pure _
    refine Act.uses_bind (uses_lookup rfl) fun _ => Act.uses_bind (uses_lookup rfl) fun _ => ?_
    refine Act.uses_bind (uses_found _ _) fun _ => Act.uses_bind (uses_found _ _) fun _ => ?_
    refine Act.uses_bind (uses_refuse _ _) fun _ => Act.uses_bind (uses_refuse _ _) fun _ => ?_
    refine Act.uses_bind (uses_deduplicateCohosts hread _ _) fun _ => Act.uses_bind (uses_begin trivial) fun _ => ?_
    refine Act.uses_bind (uses_query rfl) fun _ => Act.uses_bind (uses_addCohosts trivial) fun _ => ?_
    exact Act.uses_bind (uses_commit trivial) fun _ => Act.uses_pure _
  | delete id c =>
    refine Act.uses_bind ?_ fun _ => Act.uses_pure _
    refine Act.uses_bind (uses_lookup rfl) fun _ => Act.uses_bind (uses_lookup rfl) fun _ => ?_
    refine Act.uses_bind (uses_found _ _) fun row => Act.uses_bind (uses_found _ _) fun _ => ?_
    by_cases hdel : row.deletedAt.isSome = true
    · simp only [hdel, if_true]
      exact Act.uses_pure _
    · simp only [hdel]
      refine Act.uses_bind (uses_refuse _ _) fun _ => Act.uses_bind (uses_refuse _ _) fun _ => ?_
      exact Act.uses_bind (uses_query rfl) fun _ => Act.uses_pure _
  | start now id u =>
    refine Act.uses_bind ?_ fun _ => Act.uses_pure _
    refine Act.uses_bind (uses_lookup rfl) fun _ => Act.uses_bind (uses_lookup rfl) fun _ => ?_
    refine Act.uses_bind (uses_found _ _) fun _ => Act.uses_bind (uses_found _ _) fun _ => ?_
    refine Act.uses_bind (uses_refuse _ _) fun _ => Act.uses_bind (uses_refuse _ _) fun _ => ?_
    refine Act.uses_bind (uses_createRoom hread _) fun _ => ?_
    refine Act.uses_bind (uses_mintToken hread _ _ _ _ _) fun _ => Act.uses_bind (uses_begin trivial) fun _ => ?_
    refine Act.uses_bind (uses_query rfl) fun _ => Act.uses_bind (uses_query rfl) fun _ => ?_
    refine Act.uses_bind (uses_commit trivial) fun _ => ?_
    exact Act.uses_bind (uses_query rfl) fun _ => Act.uses_pure _
  | endBroadcast now id u =>
    refine Act.uses_bind ?_ fun _ => Act.uses_pure _
    refine Act.uses_bind (uses_query rfl) fun _ => Act.uses_bind (uses_okOr _ _) fun row => ?_
    refine Act.uses_bind (uses_refuse _ _) fun _ => Act.uses_bind (uses_refuse _ _) fun _ => ?_
    refine Act.uses_bind (uses_begin trivial) fun _ => Act.uses_bind (uses_query rfl) fun _ => ?_
    refine Act.uses_bind (uses_query rfl) fun _ => Act.uses_bind (uses_commit trivial) fun _ => ?_
    cases row.recordingEnabled with
    | true => exact Act.uses_bind (uses_existsOrFalse hread rfl) fun _ => Act.uses_pure _
    | false => exact Act.uses_bind (Act.uses_pure _) fun _ => Act.uses_pure _
  | join now id u =>
    refine Act.uses_bind ?_ fun _ => Act.uses_pure _
    refine Act.uses_bind (uses_lookup rfl) fun _ => Act.uses_bind (uses_lookup rfl) fun _ => ?_
    refine Act.uses_bind (uses_lookup rfl) fun _ => Act.uses_bind (uses_lookup rfl) fun _ => ?_
    refine Act.uses_bind (uses_found _ _) fun _ => Act.uses_bind (uses_found _ _) fun _ => ?_
    refine Act.uses_bind (Act.uses_ofExcept _) fun _ => Act.uses_bind (uses_refuse _ _) fun _ => ?_
    refine Act.uses_bind (uses_refuse _ _) fun _ => Act.uses_bind (Act.uses_ofExcept _) fun _ => ?_
    refine Act.uses_bind (uses_alreadyIn _ _) fun _ => ?_
    refine Act.uses_bind (uses_mintToken hread _ _ _ _ _) fun _ => Act.uses_bind (uses_begin trivial) fun _ => ?_
    refine Act.uses_bind (uses_query rfl) fun _ => Act.uses_bind (uses_commit trivial) fun _ => ?_
    refine Act.uses_bind (uses_lookup rfl) fun _ => Act.uses_bind (uses_lookup rfl) fun _ => ?_
    refine Act.uses_bind (uses_lookup rfl) fun _ => Act.uses_bind (uses_found _ _) fun _ => ?_
    refine Act.uses_bind (Act.uses_ofExcept _) fun _ => Act.uses_bind (Act.uses_ofExcept _) fun _ => ?_
    refine Act.uses_bind (Act.uses_ask rfl) fun _ => ?_
    exact Act.uses_bind (uses_buildCtx hread _ _ _ _ _) fun _ => Act.uses_pure _
  | leave now id u =>
    refine Act.uses_bind ?_ fun _ => Act.uses_pure _
    refine Act.uses_bind (uses_lookup rfl) fun _ => Act.uses_bind (uses_lookup rfl) fun _ => ?_
    refine Act.uses_bind (uses_lookup rfl) fun _ => Act.uses_bind (uses_found _ _) fun row => ?_
    refine Act.uses_bind (uses_found _ _) fun _ => Act.uses_bind (uses_found _ _) fun p => ?_
    cases row.isNotActive || p.leftAt.isSome with
    | true => exact Act.uses_pure _
    | false => exact Act.uses_bind (uses_query rfl) fun _ => Act.uses_pure _
  | addCohost now id r u =>
    refine Act.uses_bind ?_ fun _ => Act.uses_pure _
    refine Act.uses_bind (uses_query rfl) fun _ => Act.uses_bind (uses_refuse _ _) fun _ => ?_
    refine Act.uses_bind (uses_lookup rfl) fun _ => Act.uses_bind (uses_lookup rfl) fun _ => ?_
    refine Act.uses_bind (uses_lookup rfl) fun _ => Act.uses_bind (uses_found _ _) fun _ => ?_
    refine Act.uses_bind (uses_found _ _) fun _ => Act.uses_bind (uses_refuseFull _) fun _ => ?_
    refine Act.uses_bind (uses_refuse _ _) fun _ => Act.uses_bind (uses_refuse _ _) fun _ => ?_
    refine Act.uses_bind (uses_refuse _ _) fun _ => ?_
    refine Act.uses_bind (uses_mintToken hread _ _ _ _ _) fun _ => Act.uses_bind (uses_begin trivial) fun _ => ?_
    refine Act.uses_bind (uses_addCohosts rfl) fun _ => Act.uses_bind (uses_query rfl) fun _ => ?_
    exact Act.uses_bind (uses_commit trivial) fun _ => Act.uses_pure _
  | removeCohost now id u r fromRoom =>
    refine Act.uses_bind ?_ fun _ => Act.uses_pure _
    refine Act.uses_bind (uses_lookup rfl) fun _ => Act.uses_bind (uses_lookup rfl) fun _ => ?_
    refine Act.uses_bind (uses_lookup rfl) fun _ => Act.uses_bind (uses_found _ _) fun _ => ?_
    refine Act.uses_bind (uses_found _ _) fun _ => Act.uses_bind (Act.uses_ofExcept _) fun isCohost => ?_
    refine Act.uses_bind (uses_refuse _ _) fun _ => Act.uses_bind (uses_refuse _ _) fun _ => ?_
    cases isCohost with
    | false => exact Act.uses_pure _
    | true =>
      refine Act.uses_bind (uses_begin trivial) fun _ => Act.uses_bind (uses_query rfl) fun _ => ?_
      cases fromRoom with
      | true =>
        refine Act.uses_bind (uses_query rfl) fun _ => Act.uses_bind (uses_commit trivial) fun _ => ?_
        exact Act.uses_bind (uses_lookup rfl) fun _ => Act.uses_pure _
      | false =>
        refine Act.uses_bind (uses_query rfl) fun _ => Act.uses_bind (uses_commit trivial) fun _ => ?_
        refine Act.uses_bind (uses_lookup rfl) fun _ => ?_
        exact Act.uses_bind (uses_mintToken hread _ _ _ _ _) fun _ => Act.uses_pure _
  | refreshToken now id u =>
    refine Act.uses_bind ?_ fun _ => Act.uses_pure _
    refine Act.uses_bind (uses_lookup rfl) fun _ => Act.uses_bind (uses_lookup rfl) fun _ => ?_
    refine Act.uses_bind (uses_lookup rfl) fun _ => Act.uses_bind (uses_found _ _) fun _ => ?_
    refine Act.uses_bind (uses_found _ _) fun _ => Act.uses_bind (uses_refuse _ _) fun _ => ?_
    refine Act.uses_bind (uses_currentRole _ _ _) fun _ => Act.uses_bind (uses_okOr _ _) fun _ => ?_
    exact Act.uses_bind (uses_mintToken hread _ _ _ _ _) fun _ => Act.uses_pure _

end Meno
