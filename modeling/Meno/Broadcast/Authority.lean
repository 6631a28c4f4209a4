import Meno.Broadcast.Backing
import Meno.Broadcast.Control
import Meno.Lib.Tenants

/-!
# Meno.Broadcast.Authority

Who may do what to a broadcast, whatever else goes on. Between the lookup that shows the requester
to be the creator and the statement that writes, other operations come and go; `broadcast_authority`
says that the creator is the same at the write, and that nobody but the creator changes the
broadcast, its cohosts and its participants, except that everybody may join and leave.
-/

namespace Meno

open Lib

/-! ## One step of a row -/

/-- A broadcast is created once. Its creator stays, and so does the time at which it was deleted. -/
inductive BroadcastStep : Option BroadcastRow → Option BroadcastRow → Prop
  | created {row : Broadcast} : row.status = .inactive → row.endTime = none →
      row.deletedAt = none → BroadcastStep none (some (.broadcast row))
  | changed {b row : Broadcast} : row.creatorId = b.creatorId →
      (b.deletedAt ≠ none → row.deletedAt = b.deletedAt) →
      BroadcastStep (some (.broadcast b)) (some (.broadcast row))

def BroadcastKey.Step : BroadcastKey → Option BroadcastRow → Option BroadcastRow → Prop
  | .broadcast _, o, o' => BroadcastStep o o'
  | _, _, _ => True

/-- The row has a creator, and `c` is the one. -/
def CreatedBy (c : Uuid) (o : Option BroadcastRow) : Prop :=
  ∃ b, o = some (.broadcast b) ∧ b.creatorId = c

theorem createdBy_step {c : Uuid} {o o' : Option BroadcastRow} (h : CreatedBy c o)
    (hs : BroadcastStep o o') : CreatedBy c o' := by
  obtain ⟨b, rfl, hc⟩ := h
  cases hs with
  | changed hcreator _ => exact ⟨_, rfl, hcreator.trans hc⟩

theorem look_broadcast {db : BroadcastDb} {id : Uuid} {b : Broadcast}
    (h : db.broadcasts.get id = some b) : db.look (.broadcast id) = some (.broadcast b) :=
  congrArg (Option.map BroadcastRow.broadcast) h

theorem broadcast_living : Living broadcastKeyed BroadcastWrite.Legal BroadcastKey.Step := by
  intro db w h
  have hsome : ∀ {b row : Broadcast}, db.broadcasts.get row.id = some b →
      BroadcastStep (some (.broadcast b)) (some (.broadcast row)) →
      BroadcastStep (db.look (.broadcast row.id)) (some (.broadcast row)) := by
    intro b row hb hs
    rw [look_broadcast hb]
    exact hs
  cases h with
  | @createBroadcast row hnone hstatus hend hdel =>
    show BroadcastStep (db.look (.broadcast row.id)) _
    rw [BroadcastDb.look, hnone]
    exact .created hstatus hend hdel
  | editBroadcast hb hsame => exact hsome hb (.changed hsame.creatorId fun _ => hsame.deletedAt)
  | deleteBroadcast hb hlive => exact hsome hb (.changed rfl fun hdel => absurd hlive hdel)
  | activate hb => exact hsome hb (.changed rfl fun _ => rfl)
  | deactivate hb => exact hsome hb (.changed rfl fun _ => rfl)
  | _ => trivial

section Creator

variable {db : BroadcastDb} {ws : List BroadcastWrite} {id c : Uuid}

theorem creator_of_createdBy (h : CreatedBy c (db.look (.broadcast id))) :
    ∃ b, db.broadcasts.get id = some b ∧ b.creatorId = c := by
  obtain ⟨b, hlook, hc⟩ := h
  obtain ⟨b', hget, he⟩ := Option.map_eq_some_iff.1 hlook
  cases he
  exact ⟨b, hget, hc⟩

/-- Who has once been the creator of a broadcast is its creator. -/
theorem creator_of_stood {b : Broadcast}
    (hlawful : broadcastEngine.Chain BroadcastWrite.Legal db ws)
    (h : Stood broadcastKeyed db ws (.broadcast id) (.broadcast b)) :
    ∃ b', (broadcastEngine.applyAll db ws).broadcasts.get id = some b' ∧
      b'.creatorId = b.creatorId :=
  creator_of_createdBy (h.kept broadcast_living (fun _ _ => createdBy_step) hlawful ⟨b, rfl, rfl⟩)

end Creator

/-! ## What the answers tell is so -/

section Sound

variable {ι : Type} (db : BroadcastDb) (log : List (ι × BroadcastWrite))

def Sighting.Sound : Sighting → Prop
  | .found id b => Stood broadcastKeyed db (log.map Prod.snd) (.broadcast id) (.broadcast b)
  | .stored id b => b.id = id
  | .user id u => u.id = id
  | .cohost id u => ∃ c, Stood broadcastKeyed db (log.map Prod.snd) (.cohost id u) (.cohost c)

variable {db log}

theorem Sighting.Sound.append {f : Sighting} (h : f.Sound db log)
    (log' : List (ι × BroadcastWrite)) : f.Sound db (log ++ log') := by
  cases f with
  | found id b =>
    rw [Sound, List.map_append]
    exact Stood.append h _
  | stored id b => exact h
  | user id u => exact h
  | cohost id u =>
    obtain ⟨c, hc⟩ := h
    refine ⟨c, ?_⟩
    rw [List.map_append]
    exact hc.append _

theorem sound_learned {d : BroadcastDb}
    (hreplay : broadcastEngine.applyAll db (log.map Prod.snd) = d) {β : Type} {s : BroadcastStmt β}
    {now : OffsetDateTime} {a : β} {ws : List BroadcastWrite} (h : s.exec now d = .ok (a, ws)) :
    ∀ f ∈ Sighting.learned (.exec .pool s : Cmd BroadcastStmt DbError _) (.ok a),
      f.Sound db log := by
  cases s with
  | findById id =>
    cases h
    cases hfound : BroadcastRepository.findById d id with
    | none => exact List.forall_mem_nil _
    | some b =>
      refine List.forall_mem_singleton.2 (stood_of_look ?_)
      rw [hreplay]
      exact look_broadcast (Option.filter_eq_some_iff.1 hfound).1
  | findUserSummary id =>
    cases h
    cases hfound : BroadcastRepository.findUserSummary d id with
    | none => exact List.forall_mem_nil _
    | some u =>
      obtain ⟨user, huser, rfl⟩ := Option.map_eq_some_iff.1 hfound
      have hid : user.id = id := Table.key_of_get (Option.filter_eq_some_iff.1 huser).1
      exact List.forall_mem_singleton.2 hid
  | isCohost id u =>
    cases h
    cases hfound : BroadcastRepository.isCohost d id u with
    | false => exact List.forall_mem_nil _
    | true =>
      obtain ⟨c, hc⟩ := Option.isSome_iff_exists.1 hfound
      refine List.forall_mem_singleton.2 ⟨c, stood_of_look ?_⟩
      rw [hreplay]
      exact congrArg (Option.map BroadcastRow.cohost) hc
  | _ => exact List.forall_mem_nil _

/-- In a transaction an operation learns only what it has stored. -/
theorem sound_stored {d : BroadcastDb} {β : Type} {s : BroadcastStmt β} {now : OffsetDateTime}
    {a : β} {ws : List BroadcastWrite} (h : s.exec now d = .ok (a, ws)) :
    ∀ f ∈ Sighting.learned (.exec .tx s : Cmd BroadcastStmt DbError _) (.ok a), f.Sound db log := by
  cases s with
  | create id input =>
    simp only [BroadcastStmt.exec, BroadcastRepository.create, bind_eq_ok] at h
    obtain ⟨_, _, _, _, _, _, _, _, _, _, _, _, h⟩ := h
    split at h
    · cases h
    · simp only [bind_eq_ok, pure_eq_ok, Prod.mk.injEq] at h
      obtain ⟨_, _, rfl, -⟩ := h
      exact List.forall_mem_singleton.2 rfl
  | update input =>
    simp only [BroadcastStmt.exec, BroadcastRepository.update, bind_eq_ok] at h
    obtain ⟨_, _, _, _, _, _, _, _, _, _, h⟩ := h
    cases hold : d.broadcasts.get input.broadcastId with
    | none => rw [hold] at h; cases h
    | some old =>
      rw [hold] at h
      simp only [bind_eq_ok, pure_eq_ok, Prod.mk.injEq] at h
      obtain ⟨_, _, rfl, -⟩ := h
      have hid : old.id = input.broadcastId := Table.key_of_get hold
      exact List.forall_mem_singleton.2 hid
  | _ => exact List.forall_mem_nil _

@[simp] theorem Sighting.learned_error {β : Type} (e : Executor) (s : BroadcastStmt β)
    (err : DbError) :
    learned (.exec e s) (.error err) = [] := by
  cases s <;> cases e <;> rfl

end Sound

/-! ## Writes -/

def BroadcastWrite.broadcastId : BroadcastWrite → Uuid
  | .broadcast row => row.id
  | .cohost row => row.broadcastId
  | .dropCohost id _ => id
  | .participant row => row.broadcastId
  | .dropParticipant id _ => id

/-- The operation makes a new broadcast. -/
def BroadcastOp.Creates : BroadcastOp → Prop
  | .create _ _ _ _ _ => True
  | _ => False

/-- The operation ends the broadcast. -/
def BroadcastOp.Ends : BroadcastOp → Prop
  | .endBroadcast _ _ _ => True
  | _ => False

/-- What a write keeps of the row that is there: a new broadcast takes no other's place, those who
come and go only count, and the end of a broadcast changes no role. -/
structure BroadcastOp.Keeps (op : BroadcastOp) (db : BroadcastDb) (x : BroadcastWrite) : Prop where
  creates : op.Creates → ∀ row, x = .broadcast row → db.broadcasts.get row.id = none
  counts : op.attends ≠ none → ∀ row, x = .broadcast row → ∃ b n now,
    db.broadcasts.get row.id = some b ∧ row = { b with totalParticipants := n, updatedAt := now }
  roles : op.Ends → ∀ row, x = .participant row → ∃ p,
    db.participants.get row.key = some p ∧ p.role = row.role

section Keeps

open BroadcastRepository

variable {op : BroadcastOp} {db db' : BroadcastDb} {now : OffsetDateTime}
  {ws : List BroadcastWrite} {x : BroadcastWrite}

theorem BroadcastOp.keeps_row (d d' : BroadcastDb) (x : BroadcastWrite)
    (hsame : broadcastKeyed.look d (broadcastKeyed.key x) =
      broadcastKeyed.look d' (broadcastKeyed.key x)) (h : op.Keeps d x) : op.Keeps d' x where
  creates hop row hx := by
    have hnone := h.creates hop row hx
    subst hx
    exact (BroadcastDb.broadcast_of_look hsame).symm.trans hnone
  counts hop row hx := by
    obtain ⟨b, n, t, hb, hrow⟩ := h.counts hop row hx
    subst hx
    exact ⟨b, n, t, (BroadcastDb.broadcast_of_look hsame).symm.trans hb, hrow⟩
  roles hop row hx := by
    obtain ⟨p, hp, hrole⟩ := h.roles hop row hx
    subst hx
    exact ⟨p, (BroadcastDb.participant_of_look hsame).symm.trans hp, hrole⟩

/-- Of the other operations nothing is said. -/
theorem keeps_others (hcreates : ¬ op.Creates) (hattends : op.attends = none) (hends : ¬ op.Ends)
    (x : BroadcastWrite) : op.Keeps db x :=
  ⟨fun hop => absurd hop hcreates, fun hop => absurd hattends hop, fun hop => absurd hop hends⟩

theorem keeps_participant (hends : ¬ op.Ends) (row : BroadcastParticipant) :
    op.Keeps db (.participant row) :=
  ⟨fun _ _ hx => (by cases hx), fun _ _ hx => (by cases hx), fun hop => absurd hop hends⟩

/-- Nothing is said of the rows that are taken away, and of the lists of cohosts. -/
theorem keeps_of_other_row (hb : ∀ row, x ≠ .broadcast row) (hp : ∀ row, x ≠ .participant row) :
    op.Keeps db x :=
  ⟨fun _ row hx => absurd hx (hb row), fun _ row hx => absurd hx (hb row),
    fun _ row hx => absurd hx (hp row)⟩

theorem create_keeps {id : Uuid} {input : CreateBroadcastInput} {row : Broadcast}
    (hattends : op.attends = none) (hends : ¬ op.Ends)
    (h : create db now id input = .ok (row, ws)) : broadcastEngine.Chain op.Keeps db ws := by
  simp only [create, bind_eq_ok] at h
  obtain ⟨_, _, _, _, _, _, _, _, _, _, _, _, h⟩ := h
  by_cases hnew : (db.broadcasts.get id).isSome = true
  · rw [if_pos hnew] at h
    cases h
  · rw [if_neg hnew] at h
    simp only [bind_eq_ok, pure_eq_ok, Prod.mk.injEq] at h
    obtain ⟨_, _, -, rfl⟩ := h
    refine ⟨⟨fun _ row hx => ?_, fun hop => absurd hattends hop, fun hop => absurd hop hends⟩,
      trivial⟩
    cases hx
    simpa using hnew

theorem keeps_countParticipant (hcreates : ¬ op.Creates) (h : db'.broadcasts = db.broadcasts)
    (id : Uuid) (n : Int) :
    broadcastEngine.Chain op.Keeps db' (countParticipant db now id n) := by
  unfold countParticipant
  cases hb : db.broadcasts.get id with
  | none => trivial
  | some b =>
    refine ⟨⟨fun hop => absurd hop hcreates, fun _ row hx => ?_, fun _ _ hx => by cases hx⟩,
      trivial⟩
    cases hx
    exact ⟨b, _, _, h ▸ get_self hb, rfl⟩

theorem upsertParticipant_keeps (hcreates : ¬ op.Creates) (hends : ¬ op.Ends)
    {input : UpsertParticipantInput}
    (h : upsertParticipant db now input = .ok ((), ws)) : broadcastEngine.Chain op.Keeps db ws := by
  unfold upsertParticipant at h
  cases hp : db.participants.get (input.broadcastId, input.participantId) with
  | some p =>
    rw [hp] at h
    cases h
    exact ⟨keeps_participant hends _, trivial⟩
  | none =>
    rw [hp] at h
    simp only [bind_eq_ok, pure_eq_ok, Prod.mk.injEq, true_and] at h
    obtain ⟨_, _, _, _, rfl⟩ := h
    exact ⟨keeps_participant hends _, keeps_countParticipant hcreates rfl _ 1⟩

theorem removeParticipant_keeps (hcreates : ¬ op.Creates) {id u : Uuid}
    (h : removeParticipant db now id u = .ok ((), ws)) : broadcastEngine.Chain op.Keeps db ws := by
  unfold removeParticipant at h
  split at h
  · cases h
    refine ⟨keeps_of_other_row ?_ ?_, keeps_countParticipant hcreates rfl id (-1)⟩
    · exact fun _ hx => by cases hx
    · exact fun _ hx => by cases hx
  · cases h
    trivial

theorem clear_nodup (db : BroadcastDb) (now : OffsetDateTime) (id : Uuid) :
    (((db.participants.rows.filter fun p => p.broadcastId == id && p.leftAt.isNone).map
      fun p => BroadcastWrite.participant { p with leftAt := some now }).map
        broadcastKeyed.key).Nodup := by
  rw [List.map_map]
  have hkeys : broadcastKeyed.key ∘ (fun p : BroadcastParticipant =>
      BroadcastWrite.participant { p with leftAt := some now }) =
      (fun k : Uuid × Uuid => BroadcastKey.participant k.1 k.2) ∘ BroadcastParticipant.key := rfl
  rw [hkeys, ← List.map_map]
  refine List.Nodup.map ?_ (db.participants.nodup.sublist (List.filter_sublist.map _))
  rintro ⟨b, u⟩ ⟨b', u'⟩ he
  cases he
  rfl

theorem clear_keeps {id : Uuid} {ids : List Uuid} (hcreates : ¬ op.Creates)
    (hattends : op.attends = none)
    (h : getParticipantIdsAndClear db now id = .ok (ids, ws)) :
    broadcastEngine.Chain op.Keeps db ws := by
  cases h
  refine chain_of_nodup broadcastKeyed BroadcastOp.keeps_row _ db ?_ ?_
  · intro x hx
    obtain ⟨p, hp, rfl⟩ := List.mem_map.1 hx
    refine ⟨fun hop => absurd hop hcreates, fun hop => absurd hattends hop, fun _ row hx => ?_⟩
    cases hx
    exact ⟨p, Table.mem_rows_iff.1 (List.mem_filter.1 hp).1, rfl⟩
  · exact clear_nodup db now id

theorem keeps_of_read {β : Type} {s : BroadcastStmt β} {a : β} (hs : s.isRead = true)
    (h : broadcastEngine.exec s now db = .ok (a, ws)) : broadcastEngine.Chain op.Keeps db ws := by
  rw [exec_read hs h]
  trivial

theorem broadcast_confined (op : BroadcastOp) :
    World.Disciplined (K := broadcastKeyed) (T := OffsetDateTime) op.Writes op.Keeps where
  row := op.keeps_row
  exec := by
    intro β s now d a ws hs h
    cases op with
    | create _ _ id req c =>
      cases s with
      | create id input => exact create_keeps rfl not_false h
      | addCohosts id us c =>
        change (BroadcastStmt.addCohosts id us c).exec now d = .ok (a, ws) at h
        have htouches := exec_touches h
        refine World.chain_of_forall (fun x hx d => keeps_of_other_row ?_ ?_) d
        · rintro row rfl
          obtain ⟨u, hu⟩ := htouches _ hx
          cases hu
        · rintro row rfl
          obtain ⟨u, hu⟩ := htouches _ hx
          cases hu
      | _ => exact keeps_of_read hs h
    | join _ id u =>
      cases s with
      | upsertParticipant input => exact upsertParticipant_keeps not_false not_false h
      | _ => exact keeps_of_read hs h
    | leave _ id u =>
      cases s with
      | removeParticipant id u => exact removeParticipant_keeps not_false h
      | _ => exact keeps_of_read hs h
    | endBroadcast _ id u =>
      cases s with
      | getParticipantIdsAndClear id => exact clear_keeps not_false rfl h
      | setInactive id reason =>
        change (BroadcastStmt.setInactive id reason).exec now d = .ok (a, ws) at h
        have htouches := exec_touches h
        refine World.chain_of_forall (fun x hx d => ?_) d
        refine ⟨fun hop => hop.elim, fun hop => absurd rfl hop, ?_⟩
        rintro - row rfl
        cases htouches _ hx
      | _ => exact keeps_of_read hs h
    | _ =>
      refine World.chain_of_forall (fun x _ d => ?_) d
      refine keeps_others ?_ ?_ ?_ x
      · exact not_false
      · rfl
      · exact not_false

end Keeps

/-! ## What speaks for a write -/

section Support

open BroadcastRepository

variable {ι : Type} (db : BroadcastDb) (op : BroadcastOp) (log : List (ι × BroadcastWrite))

def BroadcastOp.Supported : BroadcastWrite → Prop
  | .broadcast row => (∃ now later req, op = .create now later row.id req row.creatorId) ∨
      op.ByCreator (·.Sound db log) row.id ∨ op.attends = some row.id
  | .cohost row =>
    op.Invites (·.Sound db log) row.broadcastId row.invitedBy row.cohostId
  | .dropCohost id _ => op.ByCreator (·.Sound db log) id
  | .participant row =>
    op.GivesRole (·.Sound db log) row.broadcastId row.participantId row.role ∨
      op.Ends ∧ op.ByCreator (·.Sound db log) row.broadcastId
  | .dropParticipant id u => op.ByCreator (·.Sound db log) id ∨ ∃ now, op = .leave now id u

variable {db op log}

theorem BroadcastOp.Supported.append (log log' : List (ι × BroadcastWrite)) (x : BroadcastWrite)
    (h : op.Supported db log x) : op.Supported db (log ++ log') x := by
  have hk : ∀ f : Sighting, f.Sound db log → f.Sound db (log ++ log') := fun _ hf => hf.append log'
  cases x with
  | broadcast row => exact h.imp_right (Or.imp_left (ByCreator.mono hk))
  | cohost row => exact Invites.mono hk h
  | dropCohost id u => exact ByCreator.mono hk h
  | participant row => exact h.imp (GivesRole.mono hk) (And.imp_right (ByCreator.mono hk))
  | dropParticipant id u => exact h.imp_left (ByCreator.mono hk)

variable {d : BroadcastDb} {now : OffsetDateTime} {ws : List BroadcastWrite} {x : BroadcastWrite}
  {id : Uuid}

theorem supported_of_key (hkey : x.key = .broadcast id)
    (h : op.ByCreator (·.Sound db log) id ∨ op.attends = some id) : op.Supported db log x := by
  cases x with
  | broadcast row =>
    cases hkey
    exact .inr h
  | _ => cases hkey

theorem addCohosts_writes {c : Uuid} (us : List Uuid) :
    ∀ {d : BroadcastDb} {ws : List BroadcastWrite}, addCohosts d now id c us = .ok ((), ws) →
      ∀ x ∈ ws, ∃ u ∈ us, x = .cohost ⟨id, u, c, now, none⟩ := by
  induction us with
  | nil =>
    intro d ws h x hx
    cases h
    cases hx
  | cons u us ih =>
    intro d ws h x hx
    rw [addCohosts] at h
    split at h
    · obtain ⟨u', hu', hx⟩ := ih h x hx
      exact ⟨u', List.mem_cons_of_mem _ hu', hx⟩
    · simp only [bind_eq_ok, pure_eq_ok, Prod.mk.injEq, true_and] at h
      obtain ⟨_, _, _, _, _, _, ⟨_, ws'⟩, hrest, rfl⟩ := h
      rcases List.mem_cons.1 hx with rfl | hx
      · exact ⟨u, List.mem_cons_self, rfl⟩
      · obtain ⟨u', hu', hx⟩ := ih hrest x hx
        exact ⟨u', List.mem_cons_of_mem _ hu', hx⟩

/-- Who gives a role is the creator, or comes in. -/
theorem creator_or_attends {u : Uuid} {role : ParticipantRole}
    (h : op.GivesRole (·.Sound db log) id u role) :
    op.ByCreator (·.Sound db log) id ∨ op.attends = some id := by
  cases h with
  | start hfound _ => exact .inl ⟨_, rfl, hfound⟩
  | joinAsCohost _ _ _ => exact .inr rfl
  | join _ _ => exact .inr rfl
  | addCohost hfound _ => exact .inl ⟨_, rfl, hfound⟩
  | removeCohost hfound => exact .inl ⟨_, rfl, hfound⟩

theorem upsertParticipant_supported {input : UpsertParticipantInput}
    (hrole : op.GivesRole (·.Sound db log) input.broadcastId input.participantId input.role)
    (h : upsertParticipant d now input = .ok ((), ws)) : ∀ x ∈ ws, op.Supported db log x := by
  intro x hx
  unfold upsertParticipant at h
  cases hp : d.participants.get (input.broadcastId, input.participantId) with
  | some p =>
    rw [hp] at h
    cases h
    cases List.mem_singleton.1 hx
    have hkey : p.key = (input.broadcastId, input.participantId) := Table.key_of_get hp
    obtain ⟨hb, hu⟩ := Prod.mk.inj hkey
    refine .inl ?_
    show op.GivesRole _ p.broadcastId p.participantId input.role
    rw [hb, hu]
    exact hrole
  | none =>
    rw [hp] at h
    simp only [bind_eq_ok, pure_eq_ok, Prod.mk.injEq, true_and] at h
    obtain ⟨_, _, _, _, rfl⟩ := h
    rcases List.mem_cons.1 hx with rfl | hx
    · exact .inl hrole
    · exact supported_of_key (countParticipant_touches x hx) (creator_or_attends hrole)

theorem removeParticipant_supported {u : Uuid}
    (hmay : op.ByCreator (·.Sound db log) id ∨ ∃ now, op = .leave now id u)
    (h : removeParticipant d now id u = .ok ((), ws)) : ∀ x ∈ ws, op.Supported db log x := by
  intro x hx
  unfold removeParticipant at h
  split at h
  · cases h
    rcases List.mem_cons.1 hx with rfl | hx
    · exact hmay
    · refine supported_of_key (countParticipant_touches x hx) (hmay.imp_right ?_)
      rintro ⟨now, rfl⟩
      rfl
  · cases h
    cases hx

theorem supported_of_exec {g : List Sighting} (hg : ∀ f ∈ g, f.Sound db log) {β : Type}
    {e : Executor} {s : BroadcastStmt β} {a : β}
    (hmay : op.May (.exec e s : Cmd BroadcastStmt DbError _) g)
    (h : s.exec now d = .ok (a, ws)) : ∀ x ∈ ws, op.Supported db log x := by
  intro x hx
  cases s with
  | create id input =>
    simp only [BroadcastStmt.exec, BroadcastRepository.create, bind_eq_ok] at h
    obtain ⟨_, _, _, _, _, _, _, _, _, _, _, _, h⟩ := h
    split at h
    · cases h
    · simp only [bind_eq_ok, pure_eq_ok, Prod.mk.injEq] at h
      obtain ⟨_, _, -, rfl⟩ := h
      cases List.mem_singleton.1 hx
      exact .inl hmay
  | update input => exact supported_of_key (exec_touches h x hx) (.inl (hmay.mono hg))
  | delete id => exact supported_of_key (exec_touches h x hx) (.inl (hmay.mono hg))
  | setActive input => exact supported_of_key (exec_touches h x hx) (.inl (hmay.mono hg))
  | setInactive id reason => exact supported_of_key (exec_touches h x hx) (.inl (hmay.mono hg))
  | addCohosts id us c =>
    obtain ⟨u, hu, rfl⟩ := addCohosts_writes us h x hx
    exact (hmay u hu).mono hg
  | removeCohost id u =>
    simp only [BroadcastStmt.exec, removeCohost] at h
    split at h
    · cases h
      cases List.mem_singleton.1 hx
      exact hmay.mono hg
    · cases h
      cases hx
  | upsertParticipant input => exact upsertParticipant_supported (hmay.mono hg) h x hx
  | removeParticipant id u =>
    exact removeParticipant_supported (hmay.imp_left (BroadcastOp.ByCreator.mono hg)) h x hx
  | getParticipantIdsAndClear id =>
    cases h
    obtain ⟨p, hp, rfl⟩ := List.mem_map.1 hx
    obtain ⟨hby, now, u, rfl⟩ := hmay
    obtain ⟨rfl, -⟩ : p.broadcastId = id ∧ p.leftAt = none := by
      simpa using (List.mem_filter.1 hp).2
    exact .inr ⟨trivial, hby.mono hg⟩
  | _ =>
    cases h
    cases hx

theorem invites_cases {c u : Uuid} (h : op.Invites (·.Sound db log) id c u) :
    (∃ now later req, op = .create now later id req c ∧ u ∈ req.cohosts.getD []) ∨
      ∃ b, op.controls = some (id, c) ∧ b.creatorId = c ∧ op.Names id c u ∧
        Sighting.Sound db log (.found id b) := by
  cases h with
  | create hu hstored =>
    cases hstored
    exact .inl ⟨_, _, _, rfl, hu⟩
  | @update now id u req b b' hu hfound hstored =>
    cases hstored
    exact .inr ⟨b, rfl, rfl, .update hu, hfound⟩
  | @addCohost now id u b hfound => exact .inr ⟨b, rfl, rfl, .addCohost, hfound⟩

theorem givesRole_cases {u : Uuid} {role : ParticipantRole}
    (h : op.GivesRole (·.Sound db log) id u role) : op.ByCreator (·.Sound db log) id ∨
      ∃ now b, op = .join now id u ∧ b.creatorId ≠ u ∧ role ≠ .host ∧
        Sighting.Sound db log (.found id b) := by
  cases h with
  | start hfound _ => exact .inl ⟨_, rfl, hfound⟩
  | joinAsCohost hfound hother _ => exact .inr ⟨_, _, rfl, hother, by decide, hfound⟩
  | join hfound hother => exact .inr ⟨_, _, rfl, hother, by decide, hfound⟩
  | addCohost hfound _ => exact .inl ⟨_, rfl, hfound⟩
  | removeCohost hfound => exact .inl ⟨_, rfl, hfound⟩

end Support

/-! ## Who may write what -/

/-- What a write of the creator's leaves as it is: the broadcast stays the creator's, and who
becomes a cohost is named in the request. -/
def BroadcastWrite.InNameOf (op : BroadcastOp) (c : Uuid) : BroadcastWrite → Prop
  | .broadcast row => row.creatorId = c
  | .cohost row => row.invitedBy = c ∧ op.Names row.broadcastId c row.cohostId
  | _ => True

/-- Who may make a write, by the store that it is made in. -/
inductive BroadcastOp.Entitled (db : BroadcastDb) : BroadcastOp → BroadcastWrite → Prop
  | creates {now later : OffsetDateTime} {req : CreateBroadcastRequest} {row : Broadcast} :
      db.broadcasts.get row.id = none →
      Entitled db (.create now later row.id req row.creatorId) (.broadcast row)
  | invites {now later : OffsetDateTime} {req : CreateBroadcastRequest} {row : BroadcastCohost} :
      row.cohostId ∈ req.cohosts.getD [] →
      Entitled db (.create now later row.broadcastId req row.invitedBy) (.cohost row)
  | controls {op : BroadcastOp} {x : BroadcastWrite} {b : Broadcast} :
      db.broadcasts.get x.broadcastId = some b →
      op.controls = some (x.broadcastId, b.creatorId) → x.InNameOf op b.creatorId → Entitled db op x
  | joins {now : OffsetDateTime} {row : BroadcastParticipant} {b : Broadcast} :
      db.broadcasts.get row.broadcastId = some b → b.creatorId ≠ row.participantId →
      row.role ≠ .host →
      Entitled db (.join now row.broadcastId row.participantId) (.participant row)
  | leaves {now : OffsetDateTime} {id u : Uuid} :
      Entitled db (.leave now id u) (.dropParticipant id u)
  | counts {op : BroadcastOp} {b : Broadcast} {n : Option Int} {now : OffsetDateTime} :
      db.broadcasts.get b.id = some b → op.attends = some b.id →
      Entitled db op (.broadcast { b with totalParticipants := n, updatedAt := now })

section Entitled

variable {ι : Type} {db : BroadcastDb} {op : BroadcastOp} {log : List (ι × BroadcastWrite)}
  {d : BroadcastDb} {id : Uuid}

/-- Who was found to be the creator is it at the write. -/
theorem creator_of_sound (hd : broadcastEngine.applyAll db (log.map Prod.snd) = d)
    (hlawful : broadcastEngine.Chain BroadcastWrite.Legal db (log.map Prod.snd)) {b : Broadcast}
    (h : Sighting.Sound db log (.found id b)) :
    ∃ b', d.broadcasts.get id = some b' ∧ b'.creatorId = b.creatorId :=
  hd ▸ creator_of_stood hlawful h

theorem controls_of_byCreator (hd : broadcastEngine.applyAll db (log.map Prod.snd) = d)
    (hlawful : broadcastEngine.Chain BroadcastWrite.Legal db (log.map Prod.snd))
    (h : op.ByCreator (·.Sound db log) id) :
    ∃ b, d.broadcasts.get id = some b ∧ op.controls = some (id, b.creatorId) := by
  obtain ⟨b, hop, hfound⟩ := h
  obtain ⟨b', hget, hc⟩ := creator_of_sound hd hlawful hfound
  exact ⟨b', hget, by rw [hop, hc]⟩

/-- A broadcast's row stays its creator's. -/
theorem creator_of_legal {b row : Broadcast} (hget : d.broadcasts.get row.id = some b)
    (h : BroadcastWrite.Legal d (.broadcast row)) : row.creatorId = b.creatorId := by
  have hstep : BroadcastStep (d.look (.broadcast row.id)) (some (.broadcast row)) :=
    broadcast_living d _ h
  rw [look_broadcast hget] at hstep
  cases hstep with
  | changed hc _ => exact hc

theorem entitled_of_supported (hd : broadcastEngine.applyAll db (log.map Prod.snd) = d)
    (hlawful : broadcastEngine.Chain BroadcastWrite.Legal db (log.map Prod.snd))
    {x : BroadcastWrite} (hlegal : x.Legal d) (hkeeps : op.Keeps d x)
    (h : op.Supported db log x) : op.Entitled d x := by
  cases x with
  | broadcast row =>
    rcases h with ⟨now, later, req, rfl⟩ | hby | hattends
    · exact .creates (hkeeps.creates trivial row rfl)
    · obtain ⟨b, hget, hop⟩ := controls_of_byCreator hd hlawful hby
      exact .controls hget hop (creator_of_legal hget hlegal)
    · obtain ⟨b, n, now, hget, rfl⟩ := hkeeps.counts (by simp [hattends]) row rfl
      exact .counts hget hattends
  | cohost row =>
    rcases invites_cases h with ⟨now, later, req, rfl, hu⟩ | ⟨b, hop, hc, hnames, hfound⟩
    · exact .invites hu
    · obtain ⟨b', hget, hc'⟩ := creator_of_sound hd hlawful hfound
      have hcreator : b'.creatorId = row.invitedBy := hc'.trans hc
      exact .controls hget (by rw [hcreator]; exact hop) ⟨hcreator.symm, hcreator ▸ hnames⟩
  | dropCohost id u =>
    obtain ⟨b, hget, hop⟩ := controls_of_byCreator hd hlawful h
    exact .controls hget hop trivial
  | participant row =>
    have hcontrols : op.ByCreator (·.Sound db log) row.broadcastId →
        op.Entitled d (.participant row) := by
      intro hby
      obtain ⟨b, hget, hop⟩ := controls_of_byCreator hd hlawful hby
      exact .controls hget hop trivial
    rcases h with hrole | ⟨-, hby⟩
    · rcases givesRole_cases hrole with hby | ⟨now, b, rfl, hother, hrole, hfound⟩
      · exact hcontrols hby
      · obtain ⟨b', hget, hc⟩ := creator_of_sound hd hlawful hfound
        exact .joins hget (by rwa [hc]) hrole
    · exact hcontrols hby
  | dropParticipant id u =>
    rcases h with hby | ⟨now, rfl⟩
    · obtain ⟨b, hget, hop⟩ := controls_of_byCreator hd hlawful hby
      exact .controls hget hop trivial
    · exact .leaves

end Entitled

/-! ## Runs -/

section Runs

variable {ι : Type} [DecidableEq ι] {ops : ι → BroadcastOp} {db : BroadcastDb} {t : OffsetDateTime}
  {w : BroadcastWorld ι}

/-- The committed tables are what the history has made of the first ones. -/
abbrev Replayed (db : BroadcastDb) (v : BroadcastWorld ι) : Prop :=
  broadcastEngine.applyAll db (v.log.map Prod.snd) = v.committed

theorem sightings_linked (i : ι) :
    World.Linked broadcastKeyed (fun (v _ : BroadcastWorld ι) => Replayed db v) (ops i).May
      Sighting.observe (fun g v => ∀ f ∈ g, f.Sound db v.log) i where
  own := by
    intro v β c k fault g _ hs _ hg f hf
    have hlearned : ∀ f ∈ Sighting.learned c
        (Session.handle broadcastEngine c (v.session i c fault)).1, f.Sound db v.log := by
      cases c with
      | begin => exact List.forall_mem_nil _
      | commit => exact List.forall_mem_nil _
      | exec e s =>
        cases hanswer : (Session.handle broadcastEngine (.exec e s)
            (v.session i (.exec e s) fault)).1 with
        | error err =>
          rw [Sighting.learned_error]
          exact List.forall_mem_nil _
        | ok a =>
          obtain ⟨ws, hexec, -⟩ := World.writes_of_answered hanswer
          cases e with
          | pool => exact sound_learned hs.2 hexec
          | tx => exact sound_stored hexec
    rcases List.mem_append.1 hf with hf | hf
    · exact (hlearned f hf).append _
    · exact (hg f hf).append _
  others := by
    intro v v' g hs _ hg f hf
    cases hs.1 with
    | call => exact (hg f hf).append _
    | rollback => exact hg f hf
    | tick => exact hg f hf

theorem runs_replayed (h : BroadcastReaches ops db t w) :
    World.StepsMay broadcastKeyed (fun v _ => Replayed db v)
      (World.start db t (callers ops)) w := by
  induction h with
  | refl => exact .refl
  | tail hw hs ih => exact ih.tail ⟨hs, (World.apart_of_reaches hw).replay⟩

theorem supported_of_log (h : BroadcastReaches ops db t w) {i : ι} {x : BroadcastWrite}
    {before after : List (ι × BroadcastWrite)} (hlog : w.log = before ++ (i, x) :: after) :
    (ops i).Supported db before x := by
  refine World.Sourced.log ?_ before x after hlog
  refine World.sourced_of_steps (sightings_linked i) BroadcastOp.Supported.append ?_
    (runs_replayed h) (List.forall_mem_nil _) (ops i).backed_prog ⟨?_, ?_⟩
  · intro v β c fault g hmay hg x hx
    cases c with
    | begin => cases hx
    | commit => cases hx
    | exec e s =>
      obtain ⟨a, ws, hexec, hx⟩ := World.mem_writes hx
      exact supported_of_exec hg hmay hexec x hx
  · exact fun x hx => nomatch hx
  · intro before x after hlog
    cases before <;> cases hlog

theorem lawful_of_log (h : BroadcastReaches ops db t w) {before after : List (ι × BroadcastWrite)}
    (hlog : w.log = before ++ after) :
    broadcastEngine.Chain BroadcastWrite.Legal db (before.map Prod.snd) ∧
      broadcastEngine.Chain BroadcastWrite.Legal
        (broadcastEngine.applyAll db (before.map Prod.snd)) (after.map Prod.snd) := by
  have hinv := World.inv_of_reaches broadcast_disciplined (fun i => World.uses_anything _) h
  have hlawful := hinv.lawful
  rw [hlog, List.map_append] at hlawful
  exact chain_append.1 hlawful

theorem keeps_of_log (h : BroadcastReaches ops db t w) {i : ι} {x : BroadcastWrite}
    {before after : List (ι × BroadcastWrite)} (hlog : w.log = before ++ (i, x) :: after) :
    (ops i).Keeps (broadcastEngine.applyAll db (before.map Prod.snd)) x := by
  have hconfined := World.confined_of_reaches (fun i => broadcast_confined (ops i))
    (fun i => uses_writes (ops i)) h
  have hchain := hconfined.log
  rw [hlog] at hchain
  exact (World.logChain_append.1 hchain).2.1

theorem entitled_of_log (h : BroadcastReaches ops db t w) {i : ι} {x : BroadcastWrite}
    {before after : List (ι × BroadcastWrite)} (hlog : w.log = before ++ (i, x) :: after) :
    (ops i).Entitled (broadcastEngine.applyAll db (before.map Prod.snd)) x := by
  obtain ⟨hlawful, hlegal⟩ := lawful_of_log h hlog
  exact entitled_of_supported rfl hlawful hlegal.1 (keeps_of_log h hlog) (supported_of_log h hlog)

/-! ## Roles -/

/-- The user was on the list of cohosts before, or has been named by the creator, or by who created
the broadcast. -/
def Appointed (ops : ι → BroadcastOp) (db : BroadcastDb) (log : List (ι × BroadcastWrite))
    (id u : Uuid) : Prop :=
  (db.cohosts.get (id, u)).isSome = true ∨ ∃ i c, (ops i).Names id c u ∧
    ((ops i).Creates ∨ ∃ b, Sighting.Sound db log (.found id b) ∧ b.creatorId = c)

/-- How a user has come by a role. -/
def RoleEarned (ops : ι → BroadcastOp) (db : BroadcastDb) (log : List (ι × BroadcastWrite))
    (id u : Uuid) : ParticipantRole → Prop
  | .host => ∃ b, Sighting.Sound db log (.found id b) ∧ b.creatorId = u
  | .cohost => Appointed ops db log id u
  | .participant => True
  | .none => False

omit [DecidableEq ι] in
theorem Appointed.append {log : List (ι × BroadcastWrite)} {id u : Uuid}
    (h : Appointed ops db log id u) (log' : List (ι × BroadcastWrite)) :
    Appointed ops db (log ++ log') id u := by
  rcases h with hthere | ⟨i, c, hnames, hcreates | ⟨b, hfound, hc⟩⟩
  · exact .inl hthere
  · exact .inr ⟨i, c, hnames, .inl hcreates⟩
  · exact .inr ⟨i, c, hnames, .inr ⟨b, hfound.append log', hc⟩⟩

omit [DecidableEq ι] in
theorem RoleEarned.append {log : List (ι × BroadcastWrite)} {id u : Uuid} {role : ParticipantRole}
    (h : RoleEarned ops db log id u role) (log' : List (ι × BroadcastWrite)) :
    RoleEarned ops db (log ++ log') id u role := by
  cases role with
  | host =>
    obtain ⟨b, hfound, hc⟩ := h
    exact ⟨b, hfound.append log', hc⟩
  | cohost => exact Appointed.append h log'
  | participant => trivial
  | none => exact h.elim

/-- Who is found on the list of cohosts has been appointed. -/
theorem appointed_of_cohost (h : BroadcastReaches ops db t w) {id u : Uuid}
    {before after : List (ι × BroadcastWrite)} (hlog : w.log = before ++ after)
    (hsound : Sighting.Sound db before (.cohost id u)) : Appointed ops db before id u := by
  obtain ⟨c, hstart | ⟨x, hx, hkey, hvalue⟩⟩ := hsound
  · obtain ⟨c', hc', -⟩ := Option.map_eq_some_iff.1 hstart
    exact .inl (by rw [hc']; rfl)
  · obtain ⟨⟨j, x⟩, hmem, rfl⟩ := List.mem_map.1 hx
    obtain ⟨before', after', rfl⟩ := List.append_of_mem hmem
    rw [List.append_assoc] at hlog
    have hsupported : (ops j).Supported db before' x := supported_of_log h hlog
    cases x with
    | cohost row =>
      cases hkey
      refine Appointed.append ?_ _
      rcases invites_cases hsupported with ⟨now, later, req, hop, hu⟩ | ⟨b, -, hc, hnames, hfound⟩
      · refine .inr ⟨j, row.invitedBy, ?_, .inl ?_⟩
        · rw [hop]
          exact .create hu
        · rw [hop]
          trivial
      · exact .inr ⟨j, row.invitedBy, hnames, .inr ⟨b, hfound, hc⟩⟩
    | _ => cases hkey <;> cases hvalue

theorem earned_of_gives (h : BroadcastReaches ops db t w) {i : ι} {id u : Uuid}
    {role : ParticipantRole} {before after : List (ι × BroadcastWrite)}
    (hlog : w.log = before ++ after) (hgives : (ops i).GivesRole (·.Sound db before) id u role) :
    RoleEarned ops db before id u role := by
  cases hop : ops i with
  | start now id' c =>
    rw [hop] at hgives
    cases hgives with
    | @start _ _ b user hfound huser => exact ⟨b, hfound, huser.symm⟩
  | join now id' u' =>
    rw [hop] at hgives
    cases hgives with
    | joinAsCohost _ _ hcohost => exact appointed_of_cohost h hlog hcohost
    | join _ _ => trivial
  | addCohost now id' c u' =>
    rw [hop] at hgives
    cases hgives with
    | @addCohost _ _ _ b hfound _ =>
      refine .inr ⟨i, b.creatorId, ?_, .inr ⟨b, hfound, rfl⟩⟩
      rw [hop]
      exact .addCohost
  | removeCohost now id' u' c fromRoom =>
    rw [hop] at hgives
    cases hgives with
    | removeCohost _ => trivial
  | _ =>
    rw [hop] at hgives
    cases hgives

theorem role_earned (h : BroadcastReaches ops db t w) (before : List (ι × BroadcastWrite)) :
    ∀ after, w.log = before ++ after → ∀ p : BroadcastParticipant,
      (broadcastEngine.applyAll db (before.map Prod.snd)).participants.get p.key = some p →
        (∃ p', db.participants.get p.key = some p' ∧ p'.role = p.role) ∨
          RoleEarned ops db before p.broadcastId p.participantId p.role := by
  induction before using List.reverseRecOn with
  | nil => exact fun _ _ p hp => .inl ⟨p, hp, rfl⟩
  | append_singleton before x ih =>
    obtain ⟨i, x⟩ := x
    intro after hlog p hp
    rw [List.append_assoc] at hlog
    have hearlier := ih _ hlog
    rw [List.map_append, Engine.applyAll_append] at hp
    have hlook : ((broadcastEngine.applyAll db (before.map Prod.snd)).apply x).look
        (.participant p.broadcastId p.participantId) = some (.participant p) :=
      congrArg (Option.map BroadcastRow.participant) hp
    rw [BroadcastDb.look_apply] at hlook
    split at hlook
    · rename_i hkey
      -- the row is what the last write has stored
      cases x with
      | participant row =>
        cases hlook
        rcases supported_of_log h hlog with hgives | ⟨hends, -⟩
        · exact .inr ((earned_of_gives h hlog hgives).append _)
        · obtain ⟨p', hp', hrole⟩ := (keeps_of_log h hlog).roles hends p rfl
          have hsame : p'.key = p.key := Table.key_of_get hp'
          obtain ⟨hb, hu⟩ := Prod.mk.inj hsame
          have hold := hearlier p' (by rw [hsame]; exact hp')
          rw [hsame, hrole, hb, hu] at hold
          exact hold.imp_right fun h => h.append _
      | _ => cases hkey <;> cases hlook
    · obtain ⟨p', hp', he⟩ := Option.map_eq_some_iff.1 hlook
      cases he
      exact (hearlier p hp').imp_right fun h => h.append _

end Runs

/-- `writes`: whoever writes is entitled to it by what the tables hold at that moment. `life`: the
row of a broadcast is created once, its creator never changes, and a deletion is never taken back.
`hosts`, `cohosts`: the role of a host is its creator's, and that of a cohost is given by the
creator; a role may also be an old one. -/
structure BroadcastAuthority {ι : Type} [DecidableEq ι] (ops : ι → BroadcastOp) (db : BroadcastDb)
    (w : BroadcastWorld ι) : Prop where
  writes : ∀ before i x after, w.log = before ++ (i, x) :: after →
    (ops i).Entitled (broadcastEngine.applyAll db (before.map Prod.snd)) x
  life : ∀ id, List.IsChain BroadcastStep (db.look (.broadcast id) ::
    history broadcastKeyed (w.log.map Prod.snd) (.broadcast id))
  current : ∀ id, w.committed.look (.broadcast id) =
    (history broadcastKeyed (w.log.map Prod.snd) (.broadcast id)).getLast?.getD
      (db.look (.broadcast id))
  hosts : ∀ p, w.committed.participants.get p.key = some p → p.role = .host →
    (∃ p', db.participants.get p.key = some p' ∧ p'.role = .host) ∨
      ∃ b, w.committed.broadcasts.get p.broadcastId = some b ∧ b.creatorId = p.participantId
  cohosts : ∀ p, w.committed.participants.get p.key = some p → p.role = .cohost →
    (∃ p', db.participants.get p.key = some p' ∧ p'.role = .cohost) ∨
      (db.cohosts.get p.key).isSome = true ∨
      ∃ i c, (ops i).Names p.broadcastId c p.participantId ∧ ((ops i).Creates ∨
        ∃ b, w.committed.broadcasts.get p.broadcastId = some b ∧ b.creatorId = c)

theorem broadcast_authority {ι : Type} [DecidableEq ι] (ops : ι → BroadcastOp) (db : BroadcastDb)
    (t : OffsetDateTime) (w : BroadcastWorld ι) (h : BroadcastReaches ops db t w) :
    BroadcastAuthority ops db w := by
  have hreplay : broadcastEngine.applyAll db (w.log.map Prod.snd) = w.committed :=
    (World.apart_of_reaches h).replay
  have hall : w.log = w.log ++ [] := (List.append_nil _).symm
  have hlawful := (lawful_of_log h hall).1
  have hearned : ∀ p, w.committed.participants.get p.key = some p →
      (∃ p', db.participants.get p.key = some p' ∧ p'.role = p.role) ∨
        RoleEarned ops db w.log p.broadcastId p.participantId p.role := by
    intro p hp
    refine role_earned h w.log [] hall p ?_
    rw [hreplay]
    exact hp
  refine ⟨fun before i x after hlog => entitled_of_log h hlog, fun id => ?_, fun id => ?_, ?_, ?_⟩
  · exact isChain_history (k := .broadcast id) broadcast_living _ db hlawful
  · have hlast := look_applyAll_eq (K := broadcastKeyed) (k := .broadcast id)
      (w.log.map Prod.snd) db
    rw [hreplay] at hlast
    exact hlast
  · intro p hp hrole
    have hhost := hearned p hp
    rw [hrole] at hhost
    refine hhost.imp_right ?_
    rintro ⟨b, hfound, hc⟩
    obtain ⟨b', hget, hc'⟩ := creator_of_sound hreplay hlawful hfound
    exact ⟨b', hget, hc'.trans hc⟩
  · intro p hp hrole
    have hcohost := hearned p hp
    rw [hrole] at hcohost
    refine hcohost.imp_right (Or.imp_right ?_)
    rintro ⟨i, c, hnames, hcreates | ⟨b, hfound, hc⟩⟩
    · exact ⟨i, c, hnames, .inl hcreates⟩
    · obtain ⟨b', hget, hc'⟩ := creator_of_sound hreplay hlawful hfound
      exact ⟨i, c, hnames, .inr ⟨b', hget, hc'.trans hc⟩⟩

/-- User 1 starts broadcast 8, and user 2 joins it. -/
def startThenJoin : Fin 2 → BroadcastOp
  | 0 => .start 2 ⟨8⟩ ⟨1⟩
  | 1 => .join 3 ⟨8⟩ ⟨2⟩

theorem broadcast_authority_joined : ∃ w : BroadcastWorld (Fin 2),
    (w.committed.participants.rows.map fun p => (p.participantId, p.role)) =
      [(⟨2⟩, .participant), (⟨1⟩, .host)] ∧ BroadcastAuthority startThenJoin draftOfOne w := by
  have hrun : ∃ w : BroadcastWorld (Fin 2), BroadcastReaches startThenJoin draftOfOne 1 w ∧
      (w.committed.participants.rows.map fun p => (p.participantId, p.role)) =
        [(⟨2⟩, .participant), (⟨1⟩, .host)] :=
    World.reaches_of_runSchedule (List.replicate 10 (2, 0) ++ List.replicate 8 (3, 1))
      (by decide +kernel)
  obtain ⟨w, hw, hroles⟩ := hrun
  exact ⟨w, hroles, broadcast_authority _ _ _ _ hw⟩

end Meno
