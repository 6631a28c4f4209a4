import Meno.Broadcast.Participation
import Meno.Broadcast.Statements

/-!
# Meno.Broadcast.PublishRights

Who may publish. A participant's role is written in `broadcast_participants`, who is a cohost in
`broadcast_cohosts`, and who is the creator in `broadcasts`; tokens are minted from all three.
`RolesKept` is what the tables say of each other. One lemma for each kind of row write shows that
they go on saying it, and from it every token that may publish is the creator's or a cohost's.
-/

namespace Meno

open Lib BroadcastRepository BroadcastService

@[simp] theorem getGrant_room (role : LivekitRole) (room : Uuid) :
    (role.getGrant room).room = room := by
  cases role <;> rfl

def IsCreator (db : BroadcastDb) (broadcastId userId : Uuid) : Prop :=
  ∃ row, db.broadcasts.get broadcastId = some row ∧ row.creatorId = userId

/-- Who takes part as a cohost is one, and who takes part as the host is the creator; the
participant `x` may be an exception to the first. -/
structure RolesKept (x : Option (Uuid × Uuid)) (db : BroadcastDb) : Prop where
  cohost : ∀ p ∈ db.participants.rows, p.role = .cohost → p.leftAt = none → x ≠ some p.key →
    (db.cohosts.get p.key).isSome = true
  host : ∀ p ∈ db.participants.rows, p.role = .host → IsCreator db p.broadcastId p.participantId

/-! ## One row write -/

section Write

variable {x : Option (Uuid × Uuid)} {db : BroadcastDb}

theorem rolesKept_empty (users : Table User User.id) : RolesKept none (.ofUsers users) where
  cohost p hp := by cases hp
  host p hp := by cases hp

theorem RolesKept.weaken (h : RolesKept none db) (x : Option (Uuid × Uuid)) : RolesKept x db where
  cohost p hp hrole hleft _ := h.cohost p hp hrole hleft (by simp)
  host := h.host

/-- The exception is over when the participant is no cohost any more. -/
theorem RolesKept.restore {b u : Uuid} (h : RolesKept (some (b, u)) db)
    (hrole : ∀ p, db.participants.get (b, u) = some p → p.role ≠ .cohost) : RolesKept none db where
  cohost p hp hr hleft _ := by
    refine h.cohost p hp hr hleft ?_
    intro hx
    have hget := Table.mem_rows_iff.1 hp
    rw [← Option.some.inj hx] at hget
    exact hrole p hget hr
  host := h.host

/-- A creator stays the creator. -/
theorem IsCreator.apply {b u : Uuid} (h : IsCreator db b u) {w : BroadcastWrite} (hl : w.Legal db) :
    IsCreator (db.apply w) b u := by
  obtain ⟨row, hrow, hc⟩ := h
  have hput : ∀ row' : Broadcast,
      (∀ old, db.broadcasts.get row'.id = some old → row'.creatorId = old.creatorId) →
      IsCreator (db.apply (.broadcast row')) b u := by
    intro row' hold
    by_cases hid : b = row'.id
    · subst hid
      exact ⟨row', Table.get_put_self _ _, (hold row hrow).trans hc⟩
    · exact ⟨row, (Table.get_put _ _ _).trans ((if_neg hid).trans hrow), hc⟩
  have hsame : ∀ old : Broadcast, db.broadcasts.get old.id = some old → ∀ row' : Broadcast,
      row'.id = old.id → row'.creatorId = old.creatorId →
      IsCreator (db.apply (.broadcast row')) b u := by
    intro old hold row' hid hcr
    refine hput row' ?_
    intro old' hold'
    rw [hid, hold] at hold'
    cases hold'
    exact hcr
  cases hl with
  | createBroadcast hnone => exact hput _ (by simp [hnone])
  | editBroadcast hb hsame => exact hput _ (by simp [hb, hsame.creatorId])
  | deleteBroadcast hb => exact hsame _ hb _ rfl rfl
  | activate hb => exact hsame _ hb _ rfl rfl
  | deactivate hb => exact hsame _ hb _ rfl rfl
  | addCohost => exact ⟨row, hrow, hc⟩
  | dropCohost => exact ⟨row, hrow, hc⟩
  | addParticipant => exact ⟨row, hrow, hc⟩
  | setRole => exact ⟨row, hrow, hc⟩
  | setLeft => exact ⟨row, hrow, hc⟩
  | dropParticipant => exact ⟨row, hrow, hc⟩

theorem IsCreator.chain {b u : Uuid} (ws : List BroadcastWrite) :
    ∀ {db : BroadcastDb}, IsCreator db b u → broadcastEngine.Chain BroadcastWrite.Legal db ws →
      IsCreator (broadcastEngine.applyAll db ws) b u := by
  induction ws with
  | nil => intro db h _; exact h
  | cons w ws ih => intro db h hl; exact ih (h.apply hl.1) hl.2

/-- The writes that touch no role and take no cohost away. -/
def BroadcastWrite.isPlain : BroadcastWrite → Bool
  | .participant _ => false
  | .dropCohost _ _ => false
  | _ => true

theorem RolesKept.plain (h : RolesKept x db) {w : BroadcastWrite} (hl : w.Legal db)
    (hw : w.isPlain = true) : RolesKept x (db.apply w) := by
  cases w with
  | participant row => cases hw
  | dropCohost b u => cases hw
  | broadcast row =>
    refine ⟨h.cohost, ?_⟩
    intro p hp hrole
    exact (h.host p hp hrole).apply hl
  | cohost row =>
    refine ⟨?_, h.host⟩
    intro p hp hrole hleft hx
    have hold := h.cohost p hp hrole hleft hx
    have hget : (db.apply (.cohost row)).cohosts.get p.key =
        if p.key = row.key then some row else db.cohosts.get p.key := Table.get_put _ _ _
    rw [hget]
    split
    · rfl
    · exact hold
  | dropParticipant b u =>
    refine ⟨?_, ?_⟩
    · intro p hp
      exact h.cohost p (Table.mem_erase_rows.1 hp).1
    · intro p hp
      exact h.host p (Table.mem_erase_rows.1 hp).1

/-- A participant's row may be written with a role that the other tables give them. -/
theorem RolesKept.participant (h : RolesKept x db) {row : BroadcastParticipant}
    (hcohost : row.role = .cohost → row.leftAt = none → (db.cohosts.get row.key).isSome = true)
    (hhost : row.role = .host → IsCreator db row.broadcastId row.participantId) :
    RolesKept x (db.apply (.participant row)) where
  cohost p hp hrole hleft hx := by
    rcases Table.mem_put_rows.1 hp with rfl | ⟨hp, _⟩
    · exact hcohost hrole hleft
    · exact h.cohost p hp hrole hleft hx
  host p hp hrole := by
    rcases Table.mem_put_rows.1 hp with rfl | ⟨hp, _⟩
    · exact hhost hrole
    · exact h.host p hp hrole

theorem RolesKept.dropCohost (h : RolesKept none db) (b u : Uuid) :
    RolesKept (some (b, u)) (db.apply (.dropCohost b u)) where
  cohost p hp hrole hleft hx := by
    have hget : (db.apply (.dropCohost b u)).cohosts.get p.key =
        if p.key = (b, u) then none else db.cohosts.get p.key := Table.get_erase _ _ _
    have hne : p.key ≠ (b, u) := fun hkey => hx (congrArg some hkey.symm)
    rw [hget, if_neg hne]
    exact h.cohost p hp hrole hleft (by simp)
  host := h.host

end Write

/-! ## One statement -/

/-- The statements that write roles or take cohosts away. -/
def BroadcastStmt.isPlain : {β : Type} → BroadcastStmt β → Bool
  | _, .upsertParticipant _ => false
  | _, .removeCohost _ _ => false
  | _, .getParticipantIdsAndClear _ => false
  | _, _ => true

section Exec

variable {x : Option (Uuid × Uuid)} {db : BroadcastDb} {now : OffsetDateTime}
  {ws : List BroadcastWrite}

theorem countParticipant_plain {b : Uuid} {n : Int} :
    ∀ w ∈ countParticipant db now b n, w.isPlain = true := by
  unfold countParticipant
  cases db.broadcasts.get b <;> simp [BroadcastWrite.isPlain]

theorem addCohosts_plain {b c : Uuid} (us : List Uuid) :
    ∀ {db : BroadcastDb} {ws : List BroadcastWrite},
      BroadcastRepository.addCohosts db now b c us = .ok ((), ws) →
      ∀ w ∈ ws, w.isPlain = true := by
  induction us with
  | nil =>
    intro db ws h
    cases h
    simp
  | cons u us ih =>
    intro db ws h
    rw [BroadcastRepository.addCohosts] at h
    split at h
    · exact ih h
    · simp only [bind_eq_ok, pure_eq_ok, Prod.mk.injEq, true_and] at h
      obtain ⟨_, _, _, _, _, _, ⟨_, ws'⟩, hrest, rfl⟩ := h
      simpa [BroadcastWrite.isPlain] using ih hrest

theorem exec_plain {β : Type} {s : BroadcastStmt β} {a : β} (hs : s.isPlain = true)
    (h : s.exec now db = .ok (a, ws)) : ∀ w ∈ ws, w.isPlain = true := by
  cases s with
  | upsertParticipant input => cases hs
  | removeCohost b u => cases hs
  | getParticipantIdsAndClear b => cases hs
  | create id input =>
    simp only [BroadcastStmt.exec, BroadcastRepository.create, bind_eq_ok] at h
    obtain ⟨_, _, _, _, _, _, _, _, _, _, _, _, h⟩ := h
    by_cases hnew : (db.broadcasts.get id).isSome = true
    · rw [if_pos hnew] at h
      cases h
    · rw [if_neg hnew] at h
      simp only [bind_eq_ok, pure_eq_ok, Prod.mk.injEq] at h
      obtain ⟨_, _, _, rfl⟩ := h
      simp [BroadcastWrite.isPlain]
  | update input =>
    simp only [BroadcastStmt.exec, BroadcastRepository.update, bind_eq_ok] at h
    obtain ⟨_, _, _, _, _, _, _, _, _, _, h⟩ := h
    split at h
    · cases h
    · simp only [bind_eq_ok, pure_eq_ok, Prod.mk.injEq] at h
      obtain ⟨_, _, _, rfl⟩ := h
      simp [BroadcastWrite.isPlain]
  | delete id =>
    simp only [BroadcastStmt.exec, BroadcastRepository.delete] at h
    split at h
    all_goals
      cases h
      simp [BroadcastWrite.isPlain]
  | setActive input =>
    simp only [BroadcastStmt.exec, setActive] at h
    split at h
    · cases h
    · cases h
      simp [BroadcastWrite.isPlain]
  | setInactive id reason =>
    simp only [BroadcastStmt.exec, setInactive] at h
    split at h
    all_goals
      cases h
      simp [BroadcastWrite.isPlain]
  | addCohosts b us c => exact addCohosts_plain us h
  | removeParticipant b u =>
    simp only [BroadcastStmt.exec, removeParticipant] at h
    split at h
    · cases h
      simpa [BroadcastWrite.isPlain] using countParticipant_plain
    · cases h
      simp
  | _ => cases h; simp

theorem RolesKept.chain (ws : List BroadcastWrite) :
    ∀ {db : BroadcastDb}, RolesKept x db → broadcastEngine.Chain BroadcastWrite.Legal db ws →
      (∀ w ∈ ws, w.isPlain = true) → RolesKept x (broadcastEngine.applyAll db ws) := by
  induction ws with
  | nil => intro db h _ _; exact h
  | cons w ws ih =>
    intro db h hl hw
    refine ih (h.plain hl.1 (hw w List.mem_cons_self)) hl.2 ?_
    intro w' hw'
    exact hw w' (List.mem_cons_of_mem _ hw')

theorem RolesKept.exec (h : RolesKept x db) {β : Type} {s : BroadcastStmt β} {a : β}
    (hs : s.isPlain = true) (he : s.exec now db = .ok (a, ws)) :
    RolesKept x (broadcastEngine.applyAll db ws) :=
  h.chain ws (BroadcastStmt.exec_legal he) (exec_plain hs he)

/-- An upsert with a role that the other tables give the user. -/
theorem RolesKept.upsert (h : RolesKept x db) {input : UpsertParticipantInput}
    (hcohost : input.role = .cohost →
      (db.cohosts.get (input.broadcastId, input.participantId)).isSome = true)
    (hhost : input.role = .host → IsCreator db input.broadcastId input.participantId)
    (he : upsertParticipant db now input = .ok ((), ws)) :
    RolesKept x (broadcastEngine.applyAll db ws) := by
  have hkey := upserted_key db input
  have hrow : RolesKept x (db.apply (.participant (upserted db input))) := by
    refine h.participant ?_ ?_
    · rw [upserted_role, hkey]
      intro hr _
      exact hcohost hr
    · rw [upserted_role]
      intro hr
      obtain ⟨hb, hu⟩ := Prod.mk.inj hkey
      rw [hb, hu]
      exact hhost hr
  have hl := upsertParticipant_legal he
  unfold upsertParticipant at he
  unfold upserted at hrow
  cases hp : db.participants.get (input.broadcastId, input.participantId) with
  | some p =>
    rw [hp] at he hrow
    cases he
    exact hrow
  | none =>
    rw [hp] at he hrow
    simp only [bind_eq_ok, pure_eq_ok, Prod.mk.injEq, true_and] at he
    obtain ⟨_, _, _, _, rfl⟩ := he
    exact hrow.chain _ hl.2 countParticipant_plain

theorem upsertParticipant_cohosts {input : UpsertParticipantInput}
    (he : upsertParticipant db now input = .ok ((), ws)) :
    (broadcastEngine.applyAll db ws).cohosts = db.cohosts := by
  unfold upsertParticipant at he
  cases hp : db.participants.get (input.broadcastId, input.participantId) with
  | some p =>
    rw [hp] at he
    cases he
    rfl
  | none =>
    rw [hp] at he
    simp only [bind_eq_ok, pure_eq_ok, Prod.mk.injEq, true_and] at he
    obtain ⟨_, _, _, _, rfl⟩ := he
    unfold countParticipant
    cases db.broadcasts.get input.broadcastId <;> rfl

theorem removeParticipant_get {b u : Uuid} (he : removeParticipant db now b u = .ok ((), ws)) :
    (broadcastEngine.applyAll db ws).participants.get (b, u) = none := by
  unfold removeParticipant at he
  split at he
  · cases he
    have hget : (db.participants.erase (b, u)).get (b, u) = none := by
      rw [Table.get_erase, if_pos rfl]
    unfold countParticipant
    cases db.broadcasts.get b <;> exact hget
  · rename_i hnone
    cases he
    simpa using hnone

/-- Whoever is in the list is a cohost afterwards. -/
theorem addCohosts_isCohost {b c u : Uuid} (us : List Uuid) :
    ∀ {db : BroadcastDb} {ws : List BroadcastWrite},
      BroadcastRepository.addCohosts db now b c us = .ok ((), ws) →
      u ∈ us ∨ isCohost db b u = true → isCohost (broadcastEngine.applyAll db ws) b u = true := by
  induction us with
  | nil =>
    intro db ws h hu
    cases h
    simpa using hu
  | cons v us ih =>
    intro db ws h hu
    rw [BroadcastRepository.addCohosts] at h
    split at h
    · rename_i hv
      refine ih h ?_
      rcases hu with hu | hu
      · rcases List.mem_cons.1 hu with rfl | hu
        · exact .inr hv
        · exact .inl hu
      · exact .inr hu
    · simp only [bind_eq_ok, pure_eq_ok, Prod.mk.injEq, true_and] at h
      obtain ⟨_, _, _, _, _, _, ⟨_, ws'⟩, hrest, rfl⟩ := h
      let db' := db.apply (.cohost ⟨b, v, c, now, none⟩)
      have hget : ∀ k, db'.cohosts.get k =
          if k = (b, v) then some ⟨b, v, c, now, none⟩ else db.cohosts.get k :=
        fun k => Table.get_put _ _ k
      have hall : u ∈ us ∨ isCohost db' b u = true →
          isCohost (broadcastEngine.applyAll db' ws') b u = true := ih hrest
      refine hall ?_
      unfold isCohost at hu ⊢
      rw [hget]
      by_cases huv : u = v
      · simp [huv]
      · rw [if_neg (by simpa using huv)]
        exact hu.imp_left fun hmem => (List.mem_cons.1 hmem).resolve_left huv

/-- Participants who leave keep their roles. -/
theorem RolesKept.clear (h : RolesKept x db) {b : Uuid} {ids : List Uuid}
    (he : getParticipantIdsAndClear db now b = .ok (ids, ws)) :
    RolesKept x (broadcastEngine.applyAll db ws) := by
  cases he
  have key : ∀ (ps : List BroadcastParticipant) (d : BroadcastDb), RolesKept x d →
      (∀ p ∈ ps, p.role = .host → IsCreator d p.broadcastId p.participantId) →
      RolesKept x (broadcastEngine.applyAll d
        (ps.map fun p => .participant { p with leftAt := some now })) := by
    intro ps
    induction ps with
    | nil => intro d hd _; exact hd
    | cons p ps ih =>
      intro d hd hps
      refine ih _ (hd.participant (by simp) (hps p List.mem_cons_self)) ?_
      intro q hq
      exact hps q (List.mem_cons_of_mem _ hq)
  refine key _ db h ?_
  intro p hp
  exact h.host p (List.mem_filter.1 hp).1

/-- A statement in a transaction. -/
theorem RolesKept.tx {ws' : List BroadcastWrite} (h : RolesKept x (broadcastEngine.applyAll db ws))
    {β : Type} {s : BroadcastStmt β} {a : β} (hs : s.isPlain = true)
    (he : broadcastEngine.exec s now (broadcastEngine.applyAll db ws) = .ok (a, ws')) :
    RolesKept x (broadcastEngine.applyAll db (ws ++ ws')) := by
  rw [broadcastEngine.applyAll_append]
  exact h.exec hs he

end Exec

/-! ## One operation -/

/-- The token may publish by what the tables say. -/
def MayPublish (db : BroadcastDb) (token : Token) : Prop :=
  IsCreator db token.grants.room token.identity ∨
    isCohost db token.grants.room token.identity = true

section Ops

variable {db : BroadcastDb} {t now : OffsetDateTime} {b u c : Uuid}

/-- The operation keeps the roles, whether it ends well or not. -/
abbrev KeepsRoles {α : Type} (t : OffsetDateTime) (x : BroadcastSvc α) (db : BroadcastDb) : Prop :=
  Txn.Ends broadcastEngine false t x (fun _ d _ => RolesKept none d) (fun _ d _ => RolesKept none d)
    db none

theorem create_roles (h : RolesKept none db) (later : OffsetDateTime) (id : Uuid)
    (req : CreateBroadcastRequest) : KeepsRoles t (create now later id req c) db := by
  refine Txn.ends_bind (Txn.ends_read rfl ?_ fun _ => h)
  refine Txn.ends_bind (ends_refuse (fun _ => ?_) fun _ => h)
  refine Txn.ends_bind (ends_refuse (fun _ => ?_) fun _ => h)
  refine Txn.ends_bind (ends_deduplicateCohosts (fun cohosts => ?_) fun _ => h)
  refine Txn.ends_bind (Txn.ends_begin ?_ fun _ => h)
  refine Txn.ends_bind (Txn.ends_tx (fun row ws he => ?_) (fun _ _ => h) fun _ => h)
  have hrow : RolesKept none (broadcastEngine.applyAll db ([] ++ ws)) := RolesKept.tx h rfl he
  refine Txn.ends_bind (ends_addCohosts (fun ws' he' => ?_) fun _ => h)
  have hall := hrow.tx (s := .addCohosts row.id (req.cohosts.getD []) c) rfl he'
  refine Txn.ends_bind (Txn.ends_commit ?_ fun _ => h)
  refine Txn.ends_bind (Txn.ends_read rfl ?_ fun _ => hall)
  refine Txn.ends_bind (ends_okOr (fun creator _ => ?_) fun _ => hall)
  exact Txn.ends_pure hall

theorem update_roles (h : RolesKept none db) (req : UpdateBroadcastRequest) :
    KeepsRoles t (update now req b c) db := by
  refine Txn.ends_bind (ends_lookup rfl fun broadcastResult hb => ?_)
  refine Txn.ends_bind (ends_lookup rfl fun creatorResult hc => ?_)
  refine Txn.ends_bind (ends_found hb (fun row _ => ?_) (fun _ => h) fun _ => h)
  refine Txn.ends_bind (ends_found hc (fun creator _ => ?_) (fun _ => h) fun _ => h)
  refine Txn.ends_bind (ends_refuse (fun _ => ?_) fun _ => h)
  refine Txn.ends_bind (ends_refuse (fun _ => ?_) fun _ => h)
  refine Txn.ends_bind (ends_deduplicateCohosts (fun cohosts => ?_) fun _ => h)
  refine Txn.ends_bind (Txn.ends_begin ?_ fun _ => h)
  refine Txn.ends_bind (Txn.ends_tx (fun row ws he => ?_) (fun _ _ => h) fun _ => h)
  have hrow : RolesKept none (broadcastEngine.applyAll db ([] ++ ws)) := RolesKept.tx h rfl he
  refine Txn.ends_bind (ends_addCohosts (fun ws' he' => ?_) fun _ => h)
  have hall := hrow.tx (s := .addCohosts row.id (req.cohosts.getD []) c) rfl he'
  refine Txn.ends_bind (Txn.ends_commit ?_ fun _ => h)
  exact Txn.ends_pure hall

theorem delete_roles (h : RolesKept none db) : KeepsRoles t (delete b c) db := by
  refine Txn.ends_bind (ends_lookup rfl fun broadcastResult hb => ?_)
  refine Txn.ends_bind (ends_lookup rfl fun creatorResult hc => ?_)
  refine Txn.ends_bind (ends_found hb (fun row _ => ?_) (fun _ => h) fun _ => h)
  refine Txn.ends_bind (ends_found hc (fun creator _ => ?_) (fun _ => h) fun _ => h)
  split
  · exact Txn.ends_pure h
  · refine Txn.ends_bind (ends_refuse (fun _ => ?_) fun _ => h)
    refine Txn.ends_bind (ends_refuse (fun _ => ?_) fun _ => h)
    refine Txn.ends_bind (Txn.ends_pool (fun _ ws he => ?_) (fun _ _ => h) fun _ => h)
    exact Txn.ends_pure (h.exec (s := .delete b) rfl he)

theorem endBroadcast_roles (h : RolesKept none db) : KeepsRoles t (endBroadcast now b u) db := by
  refine Txn.ends_bind (Txn.ends_read rfl ?_ fun _ => h)
  refine Txn.ends_bind (ends_okOr (fun row _ => ?_) fun _ => h)
  refine Txn.ends_bind (ends_refuse (fun _ => ?_) fun _ => h)
  refine Txn.ends_bind (ends_refuse (fun _ => ?_) fun _ => h)
  refine Txn.ends_bind (Txn.ends_begin ?_ fun _ => h)
  refine Txn.ends_bind (Txn.ends_tx (fun ids ws he => ?_) (fun _ _ => h) fun _ => h)
  have hcleared : RolesKept none (broadcastEngine.applyAll db ([] ++ ws)) := RolesKept.clear h he
  refine Txn.ends_bind (Txn.ends_tx (fun n ws' he' => ?_) (fun _ _ => h) fun _ => h)
  have hall := hcleared.tx (s := .setInactive b .normal) rfl he'
  refine Txn.ends_bind (Txn.ends_commit ?_ fun _ => h)
  dsimp only
  split
  · exact Txn.ends_bind (ends_existsOrFalse rfl fun _ => Txn.ends_pure hall)
  · exact Txn.ends_bind (Txn.ends_pure (Txn.ends_pure hall))

theorem leave_roles (h : RolesKept none db) : KeepsRoles t (leave now b u) db := by
  refine Txn.ends_bind (ends_lookup rfl fun broadcastResult hb => ?_)
  refine Txn.ends_bind (ends_lookup rfl fun userResult hu => ?_)
  refine Txn.ends_bind (ends_lookup rfl fun participantResult hp => ?_)
  refine Txn.ends_bind (ends_found hb (fun row _ => ?_) (fun _ => h) fun _ => h)
  refine Txn.ends_bind (ends_found hu (fun user _ => ?_) (fun _ => h) fun _ => h)
  refine Txn.ends_bind (ends_found hp (fun p _ => ?_) (fun _ => h) fun _ => h)
  split
  · exact Txn.ends_pure h
  · refine Txn.ends_bind (Txn.ends_pool (fun _ ws he => ?_) (fun _ _ => h) fun _ => h)
    exact Txn.ends_pure (h.exec (s := .removeParticipant b u) rfl he)

/-- Between its two statements the one who is removed is a participant as a cohost and none. -/
theorem removeCohost_roles (h : RolesKept none db) (fromRoom : Bool) :
    KeepsRoles t (removeCohost now b u c fromRoom) db := by
  refine Txn.ends_bind (ends_lookup rfl fun broadcastResult hb => ?_)
  refine Txn.ends_bind (ends_lookup rfl fun userResult hu => ?_)
  refine Txn.ends_bind (ends_lookup rfl fun isCohostResult hco => ?_)
  refine Txn.ends_bind (ends_found hb (fun row _ => ?_) (fun _ => h) fun _ => h)
  refine Txn.ends_bind (ends_found hu (fun user _ => ?_) (fun _ => h) fun _ => h)
  refine Txn.ends_bind (ends_outcome hco ?_ fun _ => h)
  refine Txn.ends_bind (ends_refuse (fun _ => ?_) fun _ => h)
  refine Txn.ends_bind (ends_refuse (fun _ => ?_) fun _ => h)
  split
  · exact Txn.ends_pure h
  refine Txn.ends_bind (Txn.ends_begin ?_ fun _ => h)
  refine Txn.ends_bind (Txn.ends_tx (fun _ ws he => ?_) (fun _ _ => h) fun _ => h)
  have hdrop : RolesKept (some (b, u)) (broadcastEngine.applyAll db ([] ++ ws)) := by
    have he : BroadcastRepository.removeCohost db b u = .ok ((), ws) := he
    unfold BroadcastRepository.removeCohost at he
    split at he
    · cases he
      exact h.dropCohost b u
    · cases he
      exact h.weaken _
  cases fromRoom with
  | true =>
    refine Txn.ends_bind (Txn.ends_tx (fun _ ws' he' => ?_) (fun _ _ => h) fun _ => h)
    have hexc := hdrop.tx (s := .removeParticipant b u) rfl he'
    have hall : RolesKept none (broadcastEngine.applyAll db ([] ++ ws ++ ws')) := by
      refine hexc.restore ?_
      rw [broadcastEngine.applyAll_append]
      intro p hp
      rw [removeParticipant_get he'] at hp
      cases hp
    refine Txn.ends_bind (Txn.ends_commit ?_ fun _ => h)
    refine Txn.ends_bind (ends_lookup rfl fun r _ => ?_)
    exact Txn.ends_pure hall
  | false =>
    refine Txn.ends_bind (Txn.ends_tx (fun _ ws' he' => ?_) (fun _ _ => h) fun _ => h)
    have hall : RolesKept none (broadcastEngine.applyAll db ([] ++ ws ++ ws')) := by
      rw [broadcastEngine.applyAll_append]
      refine (hdrop.upsert (by simp) (by simp) he').restore ?_
      rw [(upsertParticipant_ok he').participants, get_put_upserted]
      intro p hp
      cases hp
      simp [upserted_role]
    refine Txn.ends_bind (Txn.ends_commit ?_ fun _ => h)
    refine Txn.ends_bind (ends_lookup rfl fun r _ => ?_)
    refine Txn.ends_bind (ends_mintToken ?_ fun _ => hall)
    exact Txn.ends_pure hall

/-! ## The operations that return a token -/

/-- The operation keeps the roles, and the token it returns may publish only for those who may. -/
abbrev KeepsRights {α : Type} (t : OffsetDateTime) (x : BroadcastSvc α) (token : α → Token)
    (db : BroadcastDb) : Prop :=
  Txn.Ends broadcastEngine false t x (fun a d _ => RolesKept none d ∧
      ((token a).grants.canPublish = true → MayPublish d (token a)))
    (fun _ d _ => RolesKept none d) db none

theorem isCreator_of_find {row : Broadcast} (hrow : findById db b = some row)
    (hc : (row.creatorId != u) = false) : IsCreator db b u := by
  obtain ⟨hget, _⟩ := Option.filter_eq_some_iff.1 hrow
  exact ⟨row, hget, by simpa using hc⟩

theorem start_rights (h : RolesKept none db) :
    KeepsRights t (start now b u) BroadcastSessionResponse.token db := by
  refine Txn.ends_bind (ends_lookup rfl fun broadcastResult hb => ?_)
  refine Txn.ends_bind (ends_lookup rfl fun creatorResult hu => ?_)
  refine Txn.ends_bind (ends_found hb (fun row hrow => ?_) (fun _ => h) fun _ => h)
  refine Txn.ends_bind (ends_found hu (fun creator hcreator => ?_) (fun _ => h) fun _ => h)
  refine Txn.ends_bind (ends_refuse (fun howner => ?_) fun _ => h)
  refine Txn.ends_bind (ends_refuse (fun hinactive => ?_) fun _ => h)
  refine Txn.ends_bind (ends_createRoom ?_ (fun _ => h) fun _ => h)
  refine Txn.ends_bind (ends_mintToken ?_ fun _ => h)
  have hid := findUserSummary_id hcreator
  have hcr : IsCreator db b creator.id := by
    rw [hid]
    exact isCreator_of_find hrow howner
  refine Txn.ends_bind (Txn.ends_begin ?_ fun _ => h)
  refine Txn.ends_bind (Txn.ends_tx (fun active ws he => ?_) (fun _ _ => h) fun _ => h)
  have hactive : RolesKept none (broadcastEngine.applyAll db ([] ++ ws)) := RolesKept.tx h rfl he
  have hcr₁ : IsCreator (broadcastEngine.applyAll db ([] ++ ws)) b creator.id :=
    hcr.chain ws (setActive_legal he)
  refine Txn.ends_bind (Txn.ends_tx (fun _ ws' he' => ?_) (fun _ _ => h) fun _ => h)
  have hall : RolesKept none (broadcastEngine.applyAll db ([] ++ ws ++ ws')) := by
    rw [broadcastEngine.applyAll_append]
    exact hactive.upsert (by simp) (fun _ => hcr₁) he'
  have hcr₂ : IsCreator (broadcastEngine.applyAll db ([] ++ ws ++ ws')) b creator.id := by
    rw [broadcastEngine.applyAll_append]
    exact hcr₁.chain ws' (upsertParticipant_legal he')
  refine Txn.ends_bind (Txn.ends_commit ?_ fun _ => h)
  refine Txn.ends_bind (Txn.ends_read rfl ?_ fun _ => hall)
  exact Txn.ends_pure ⟨hall, fun _ => .inl hcr₂⟩

theorem join_rights (h : RolesKept none db) :
    KeepsRights t (join now b u) BroadcastSessionResponse.token db := by
  refine Txn.ends_bind (ends_lookup rfl fun broadcastResult hb => ?_)
  refine Txn.ends_bind (ends_lookup rfl fun userResult hu => ?_)
  refine Txn.ends_bind (ends_lookup rfl fun isCohostResult hc => ?_)
  refine Txn.ends_bind (ends_lookup rfl fun isParticipantResult hp => ?_)
  refine Txn.ends_bind (ends_found hb (fun row hrow => ?_) (fun _ => h) fun _ => h)
  refine Txn.ends_bind (ends_found hu (fun user huser => ?_) (fun _ => h) fun _ => h)
  refine Txn.ends_bind (ends_outcome hc ?_ fun _ => h)
  refine Txn.ends_bind (ends_refuse (fun _ => ?_) fun _ => h)
  refine Txn.ends_bind (ends_refuse (fun _ => ?_) fun _ => h)
  refine Txn.ends_bind (ends_outcome hp ?_ fun _ => h)
  refine Txn.ends_bind (alreadyIn_ends (fun _ => ?_) (fun _ _ _ => h) fun _ _ _ => h)
  refine Txn.ends_bind (ends_mintToken ?_ fun _ => h)
  refine Txn.ends_bind (Txn.ends_begin ?_ fun _ => h)
  refine Txn.ends_bind (Txn.ends_tx (fun _ ws he => ?_) (fun _ _ => h) fun _ => h)
  have hrole : joinRole (isCohost db b u) = .cohost → isCohost db b u = true := by
    cases isCohost db b u <;> simp [joinRole]
  have hall : RolesKept none (broadcastEngine.applyAll db ([] ++ ws)) := by
    refine RolesKept.upsert h hrole ?_ he
    intro hhost
    cases hco : isCohost db b u <;> simp [joinRole, hco] at hhost
  have hmay : ((joinLivekitRole (joinRole (isCohost db b u))).getGrant b).canPublish = true →
      isCohost (broadcastEngine.applyAll db ([] ++ ws)) b u = true := by
    intro hpub
    have hcohosts : (broadcastEngine.applyAll db ([] ++ ws)).cohosts = db.cohosts :=
      upsertParticipant_cohosts he
    unfold isCohost
    rw [hcohosts]
    cases hco : isCohost db b u with
    | true => exact hco
    | false => simp [joinRole, joinLivekitRole, LivekitRole.getGrant, hco] at hpub
  refine Txn.ends_bind (Txn.ends_commit ?_ fun _ => h)
  refine Txn.ends_bind (ends_lookup rfl fun creatorResult hcr => ?_)
  refine Txn.ends_bind (ends_lookup rfl fun cohostsResult hco => ?_)
  refine Txn.ends_bind (ends_lookup rfl fun totalCountResult htc => ?_)
  refine Txn.ends_bind (ends_found hcr (fun _ _ => ?_) (fun _ => hall) fun _ => hall)
  refine Txn.ends_bind (ends_outcome hco ?_ fun _ => hall)
  refine Txn.ends_bind (ends_outcome htc ?_ fun _ => hall)
  refine Txn.ends_bind (Txn.ends_read rfl ?_ fun _ => hall)
  refine Txn.ends_bind (ends_buildCtx (fun ctx => ?_) fun _ => hall)
  refine Txn.ends_pure ⟨hall, fun hpub => .inr ?_⟩
  simpa using hmay hpub

theorem addCohost_rights (h : RolesKept none db) :
    KeepsRights t (addCohost now b c u) CohostSessionResponse.token db := by
  refine Txn.ends_bind (Txn.ends_read rfl ?_ fun _ => h)
  refine Txn.ends_bind (ends_refuse (fun _ => ?_) fun _ => h)
  refine Txn.ends_bind (ends_lookup rfl fun broadcastResult hb => ?_)
  refine Txn.ends_bind (ends_lookup rfl fun cohostUserResult hu => ?_)
  refine Txn.ends_bind (ends_lookup rfl fun cohostsResult hco => ?_)
  refine Txn.ends_bind (ends_found hb (fun row hrow => ?_) (fun _ => h) fun _ => h)
  refine Txn.ends_bind (ends_found hu (fun cohost hcohost => ?_) (fun _ => h) fun _ => h)
  refine Txn.ends_bind (ends_refuseFull (fun _ => ?_) fun _ => h)
  refine Txn.ends_bind (ends_refuse (fun _ => ?_) fun _ => h)
  refine Txn.ends_bind (ends_refuse (fun _ => ?_) fun _ => h)
  refine Txn.ends_bind (ends_refuse (fun _ => ?_) fun _ => h)
  refine Txn.ends_bind (ends_mintToken ?_ fun _ => h)
  refine Txn.ends_bind (Txn.ends_begin ?_ fun _ => h)
  refine Txn.ends_bind (ends_addCohosts (fun ws he => ?_) fun _ => h)
  have hadded : RolesKept none (broadcastEngine.applyAll db ([] ++ ws)) :=
    RolesKept.tx (s := .addCohosts b [u] c) h rfl he
  have hco : isCohost (broadcastEngine.applyAll db ([] ++ ws)) b u = true :=
    addCohosts_isCohost [u] he (.inl List.mem_cons_self)
  refine Txn.ends_bind (Txn.ends_tx (fun _ ws' he' => ?_) (fun _ _ => h) fun _ => h)
  have hall : RolesKept none (broadcastEngine.applyAll db ([] ++ ws ++ ws')) := by
    rw [broadcastEngine.applyAll_append]
    refine hadded.upsert ?_ (by simp) he'
    intro _
    exact hco
  have hmay : isCohost (broadcastEngine.applyAll db ([] ++ ws ++ ws')) b u = true := by
    rw [broadcastEngine.applyAll_append, isCohost, upsertParticipant_cohosts he']
    exact hco
  refine Txn.ends_bind (Txn.ends_commit ?_ fun _ => h)
  refine Txn.ends_pure ⟨hall, fun _ => .inr ?_⟩
  have hid := findUserSummary_id hcohost
  simpa [hid] using hmay

/-- The role that the tables give is the host's for the creator and a cohost's for a cohost. -/
theorem currentRole_rights (h : RolesKept none db) {row : Broadcast}
    {r : Except BroadcastError (Option BroadcastParticipant)} (hrow : findById db b = some row)
    (hr : Outcome false (findParticipant db b u) r) :
    Txn.Ends broadcastEngine false t (currentRole row u r)
      (fun role d _ => d = db ∧ (role = .host → IsCreator db b u) ∧
        (role = .cohost → isCohost db b u = true))
      (fun _ d _ => RolesKept none d) db none := by
  unfold currentRole
  by_cases hc : row.creatorId = u
  · rw [if_pos hc]
    exact Txn.ends_pure ⟨rfl, fun _ => isCreator_of_find hrow (by simpa using hc), by simp⟩
  · rw [if_neg hc]
    refine Txn.ends_bind (ends_outcome hr ?_ fun _ => h)
    cases hp : findParticipant db b u with
    | none => exact Txn.ends_throw h
    | some p =>
      have hkey : p.key = (b, u) := Table.key_of_get hp
      obtain ⟨hpb, hpu⟩ := Prod.mk.inj hkey
      have hmem := (Table.get_eq_some_iff.1 hp).1
      cases hleft : p.leftAt with
      | some s =>
        simp only [hleft, Option.isSome_some, if_true]
        exact Txn.ends_throw h
      | none =>
        simp only [hleft, Option.isSome_none, Bool.false_eq_true, if_false]
        refine Txn.ends_pure ⟨rfl, ?_, ?_⟩
        · intro hrole
          have hhost := h.host p hmem hrole
          rwa [hpb, hpu] at hhost
        · intro hrole
          have hcohost := h.cohost p hmem hrole hleft (by simp)
          rwa [hkey] at hcohost

theorem refreshToken_rights (h : RolesKept none db) :
    KeepsRights t (refreshToken now b u) BroadcastRefreshTokenResponse.token db := by
  refine Txn.ends_bind (ends_lookup rfl fun broadcastResult hb => ?_)
  refine Txn.ends_bind (ends_lookup rfl fun participantResult hp => ?_)
  refine Txn.ends_bind (ends_lookup rfl fun userResult hu => ?_)
  refine Txn.ends_bind (ends_found hb (fun row hrow => ?_) (fun _ => h) fun _ => h)
  refine Txn.ends_bind (ends_found hu (fun user _ => ?_) (fun _ => h) fun _ => h)
  refine Txn.ends_bind (ends_refuse (fun _ => ?_) fun _ => h)
  refine Txn.ends_bind (Txn.ends_mono (currentRole_rights h hrow hp) ?_ fun _ _ _ hF => hF)
  rintro role d t' ⟨rfl, hhost, hcohost⟩
  refine Txn.ends_bind (ends_okOr (fun livekitRole hlk => ?_) fun _ => h)
  refine Txn.ends_bind (ends_mintToken ?_ fun _ => h)
  refine Txn.ends_pure ⟨h, ?_⟩
  intro hpub
  cases role with
  | host => exact .inl (by simpa using hhost rfl)
  | cohost => exact .inr (by simpa using hcohost rfl)
  | participant =>
    cases hlk
    cases hpub
  | none => cases hlk

end Ops

/-! ## All operations -/

/-- The token of an answer, if it has one. -/
def BroadcastAnswer.tokenOf : BroadcastAnswer → Option Token
  | .session r => some r.token
  | .cohost r => some r.token
  | .token r => some r.token
  | _ => none

/-- What an operation ends with: the roles are kept, and its token is for somebody who may have
it. -/
def RightsKept (r : Except BroadcastError BroadcastAnswer × BroadcastDb) : Prop :=
  RolesKept none r.2 ∧ ∀ answer, r.1 = .ok answer → ∀ token, answer.tokenOf = some token →
    token.grants.canPublish = true → MayPublish r.2 token

theorem rightsKept_of_ends {α : Type} {x : BroadcastSvc α} {f : α → BroadcastAnswer} {db : BroadcastDb}
    {t : OffsetDateTime} (faults : List Bool)
    (h : Txn.Ends broadcastEngine false t x (fun a d _ => RolesKept none d ∧
      ∀ token, (f a).tokenOf = some token → token.grants.canPublish = true → MayPublish d token)
      (fun _ d _ => RolesKept none d) db none) :
    RightsKept (Txn.run broadcastEngine (x >>= fun a => pure (f a)) db t faults) := by
  rw [Txn.run_map]
  obtain ⟨_, hend⟩ := Txn.run_ends faults h (by simp)
  revert hend
  cases (Txn.run broadcastEngine x db t faults).1 with
  | error e =>
    intro hroles
    exact ⟨hroles, fun _ h => by cases h⟩
  | ok a =>
    rintro ⟨hroles, htoken⟩
    refine ⟨hroles, ?_⟩
    rintro answer ha
    cases ha
    exact htoken

/-- An operation that returns no token. -/
theorem rightsKept_of_roles {α : Type} {x : BroadcastSvc α} {f : α → BroadcastAnswer}
    {db : BroadcastDb} {t : OffsetDateTime} (faults : List Bool) (h : KeepsRoles t x db)
    (hf : ∀ a, (f a).tokenOf = none) :
    RightsKept (Txn.run broadcastEngine (x >>= fun a => pure (f a)) db t faults) := by
  refine rightsKept_of_ends faults (Txn.ends_mono h ?_ fun _ _ _ hF => hF)
  intro a d _ hroles
  exact ⟨hroles, fun token ht => by rw [hf a] at ht; cases ht⟩

/-- An operation whose answer carries its token. -/
theorem rightsKept_of_rights {α : Type} {x : BroadcastSvc α} {f : α → BroadcastAnswer}
    {tok : α → Token} {db : BroadcastDb} {t : OffsetDateTime} (faults : List Bool)
    (h : KeepsRights t x tok db) (hf : ∀ a, (f a).tokenOf = some (tok a)) :
    RightsKept (Txn.run broadcastEngine (x >>= fun a => pure (f a)) db t faults) := by
  refine rightsKept_of_ends faults (Txn.ends_mono h ?_ fun _ _ _ hF => hF)
  rintro a d _ ⟨hroles, hmay⟩
  refine ⟨hroles, ?_⟩
  intro token ht
  rw [hf a] at ht
  cases ht
  exact hmay

theorem op_rightsKept {db : BroadcastDb} (h : RolesKept none db) (op : BroadcastOp)
    (t : OffsetDateTime) (faults : List Bool) : RightsKept (op.run t faults db) := by
  cases op with
  | create now later id req c =>
    exact rightsKept_of_roles faults (create_roles h later id req) fun _ => rfl
  | update now req b c => exact rightsKept_of_roles faults (update_roles h req) fun _ => rfl
  | delete b c => exact rightsKept_of_roles faults (delete_roles h) fun _ => rfl
  | start now b u => exact rightsKept_of_rights faults (start_rights h) fun _ => rfl
  | endBroadcast now b u => exact rightsKept_of_roles faults (endBroadcast_roles h) fun _ => rfl
  | join now b u => exact rightsKept_of_rights faults (join_rights h) fun _ => rfl
  | leave now b u => exact rightsKept_of_roles faults (leave_roles h) fun _ => rfl
  | addCohost now b r u => exact rightsKept_of_rights faults (addCohost_rights h) fun _ => rfl
  | removeCohost now b u r fromRoom =>
    exact rightsKept_of_roles faults (removeCohost_roles h fromRoom) fun _ => rfl
  | refreshToken now b u => exact rightsKept_of_rights faults (refreshToken_rights h) fun _ => rfl

/-- In every store that whole operations reach the roles follow the cohost list and the creator,
and an operation there returns no publishing token but for the creator and the cohosts. -/
theorem publish_rights {users : Table User User.id} {db : BroadcastDb}
    (h : BroadcastReached users db) : RolesKept none db ∧
      ∀ (op : BroadcastOp) (t : OffsetDateTime) (faults : List Bool),
        RightsKept (op.run t faults db) := by
  have hroles : RolesKept none db := by
    induction h with
    | init => exact rolesKept_empty users
    | step op t faults _ ih => exact (op_rightsKept ih op t faults).1
  exact ⟨hroles, op_rightsKept hroles⟩

/-- User 1 creates broadcast 9 with user 2 as a cohost and starts it, and user 2 joins. -/
def withCohost : List BroadcastOp :=
  [.create 1 1 ⟨9⟩ { morningPrayer with cohosts := some [⟨2⟩] } ⟨1⟩, .start 2 ⟨9⟩ ⟨1⟩,
    .join 3 ⟨9⟩ ⟨2⟩]

/-- Whatever is asked for next, only users 1 and 2 are given tokens that may publish. -/
theorem withCohost_rights :
    (findParticipant (storeAfter withCohost) ⟨9⟩ ⟨2⟩).any (·.role = .cohost) = true ∧
      RolesKept none (storeAfter withCohost) ∧
      ∀ (op : BroadcastOp) (t : OffsetDateTime) (faults : List Bool),
        RightsKept (op.run t faults (storeAfter withCohost)) :=
  ⟨by decide, publish_rights (reached_storeAfter withCohost)⟩

end Meno
