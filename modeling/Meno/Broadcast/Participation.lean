import Meno.Broadcast.Ops
import Meno.Broadcast.Rules

/-!
# Meno.Broadcast.Participation

Who takes part in a broadcast. A participant's row stays when the broadcast ends, with `left_at`
set, and the upsert of the next session finds it. It sets the role and `joined_at` only: a user
whose row is left over from an earlier session has joined, by the answer, and still counts as gone.
`participation_iff` says when `join` and `start` make the user a participant.
-/

namespace Meno

open Lib

open BroadcastRepository BroadcastService

/-! ## The statements -/

/-- Only the columns that the participant trigger updates differ. -/
def Broadcast.Recounted (b b' : Broadcast) : Prop :=
  ∃ n t, b' = { b with totalParticipants := n, updatedAt := t }

/-- The row after `upsert_participant_tx`. -/
def upserted (db : BroadcastDb) (input : UpsertParticipantInput) : BroadcastParticipant :=
  match db.participants.get (input.broadcastId, input.participantId) with
  | some p => { p with role := input.role, joinedAt := input.joinedAt }
  | none => {
      broadcastId := input.broadcastId, participantId := input.participantId,
      role := input.role, joinedAt := input.joinedAt, leftAt := none }

theorem joinRole_ne_none (isCohost : Bool) : joinRole isCohost ≠ .none := by
  cases isCohost <;> simp [joinRole]

/-- The rest of the store under an upsert: `db'` is `db` with the row `p`. -/
structure Upserts (db : BroadcastDb) (p : BroadcastParticipant) (db' : BroadcastDb) : Prop where
  users : db'.users = db.users
  participants : db'.participants = db.participants.put p
  broadcasts : ∀ id b, db.broadcasts.get id = some b →
    ∃ b', db'.broadcasts.get id = some b' ∧ b.Recounted b'

section Upsert

variable {db : BroadcastDb} {input : UpsertParticipantInput}

theorem upserted_key (db : BroadcastDb) (input : UpsertParticipantInput) :
    (upserted db input).key = (input.broadcastId, input.participantId) := by
  unfold upserted
  cases h : db.participants.get (input.broadcastId, input.participantId) with
  | none => rfl
  | some p =>
    have hkey : p.key = (input.broadcastId, input.participantId) := Table.key_of_get h
    exact hkey

theorem upserted_role (db : BroadcastDb) (input : UpsertParticipantInput) :
    (upserted db input).role = input.role := by
  unfold upserted
  cases db.participants.get (input.broadcastId, input.participantId) <;> rfl

/-- An upsert keeps `left_at` where there is a row. -/
theorem upserted_leftAt (db : BroadcastDb) (input : UpsertParticipantInput) :
    (upserted db input).leftAt =
      (db.participants.get (input.broadcastId, input.participantId)).bind
        BroadcastParticipant.leftAt := by
  unfold upserted
  cases db.participants.get (input.broadcastId, input.participantId) <;> rfl

theorem upserted_congr {db' : BroadcastDb} (h : db'.participants = db.participants) :
    upserted db' input = upserted db input := by
  unfold upserted
  rw [h]

theorem upsertParticipant_ok {now : OffsetDateTime} {ws : List BroadcastWrite}
    (h : upsertParticipant db now input = .ok ((), ws)) :
    Upserts db (upserted db input) (broadcastEngine.applyAll db ws) := by
  unfold upsertParticipant at h
  unfold upserted
  cases hp : db.participants.get (input.broadcastId, input.participantId) with
  | some p =>
    rw [hp] at h
    cases h
    refine ⟨rfl, rfl, ?_⟩
    intro id b hb
    exact ⟨b, hb, b.totalParticipants, b.updatedAt, rfl⟩
  | none =>
    rw [hp] at h
    simp only [bind_eq_ok, pure_eq_ok, Prod.mk.injEq, true_and] at h
    obtain ⟨_, _, _, _, rfl⟩ := h
    unfold countParticipant
    cases hc : db.broadcasts.get input.broadcastId with
    | none =>
      refine ⟨rfl, rfl, ?_⟩
      intro id b hb
      exact ⟨b, hb, b.totalParticipants, b.updatedAt, rfl⟩
    | some c =>
      refine ⟨rfl, rfl, ?_⟩
      intro id b hb
      have hcid := Table.key_of_get hc
      by_cases hid : id = input.broadcastId
      · subst hid
        rw [hc] at hb
        cases hb
        refine ⟨_, ?_, c.totalParticipants.map (· + 1), now, rfl⟩
        exact (Table.get_put _ _ _).trans (if_pos hcid.symm)
      · refine ⟨b, ?_, b.totalParticipants, b.updatedAt, rfl⟩
        refine (Table.get_put _ _ _).trans ?_
        rw [if_neg fun he => hid (he.trans hcid)]
        exact hb

theorem findUserSummary_id {id : Uuid} {user : UserSummary}
    (h : findUserSummary db id = some user) : user.id = id := by
  unfold findUserSummary at h
  cases hu : db.users.get id with
  | none => simp [hu] at h
  | some r =>
    rw [hu] at h
    simp only [Option.map_eq_some_iff, Option.filter_eq_some_iff] at h
    obtain ⟨r', ⟨hr, _⟩, rfl⟩ := h
    cases hr
    have hid : r.id = id := Table.key_of_get hu
    exact hid

theorem setActive_participants {now : OffsetDateTime} {i : SetActiveInput} {row : Broadcast}
    {ws : List BroadcastWrite} (h : setActive db now i = .ok (row, ws)) :
    (broadcastEngine.applyAll db ws).participants = db.participants := by
  unfold setActive at h
  cases hb : db.broadcasts.get i.broadcastId with
  | none => rw [hb] at h; cases h
  | some b => rw [hb] at h; cases h; rfl

end Upsert

/-! ## Taking part -/

/-- The user's row of the broadcast is there, with `left_at` set. -/
def LeftOver (db : BroadcastDb) (broadcastId userId : Uuid) : Prop :=
  ∃ p, db.participants.get (broadcastId, userId) = some p ∧ p.leftAt.isSome = true

instance (db : BroadcastDb) (b u : Uuid) : Decidable (LeftOver db b u) :=
  decidable_of_iff ((db.participants.get (b, u)).any fun p => p.leftAt.isSome) <| by
    simp [LeftOver, Option.any_eq_true]

/-- The user takes part in the broadcast, for every reader of the row. -/
structure TakesPart (db : BroadcastDb) (broadcastId userId : Uuid) : Prop where
  row : ∃ p, db.participants.get (broadcastId, userId) = some p ∧ p.leftAt = none
  chat : ChatRepository.isBroadcastParticipant db broadcastId userId = true
  token : ∀ now t faults,
    (Txn.run broadcastEngine (refreshToken now broadcastId userId) db t faults).1 ≠
      .error .notParticipant

section TakesPart

variable {db : BroadcastDb} {b u : Uuid} {p : BroadcastParticipant}

theorem currentRole_ends (hp : db.participants.get (b, u) = some p) (hleft : p.leftAt = none)
    (hrole : p.role ≠ .none) {t : OffsetDateTime} {row : Broadcast}
    {r : Except BroadcastError (Option BroadcastParticipant)}
    (hr : Outcome false (findParticipant db b u) r) :
    Txn.Ends broadcastEngine false t (currentRole row u r) (fun role _ _ => role ≠ .none)
      (fun e _ _ => e ≠ .notParticipant) db none := by
  unfold currentRole
  by_cases hc : row.creatorId = u
  · rw [if_pos hc]
    exact Txn.ends_pure (by simp)
  · rw [if_neg hc]
    refine Txn.ends_bind (ends_outcome hr ?_ fun _ => by simp)
    rw [findParticipant, hp]
    simp only [hleft, Option.isSome_none, Bool.false_eq_true, if_false]
    exact Txn.ends_pure hrole

/-- Whoever has a row without `left_at` is never told not to be a participant. -/
theorem refreshToken_ends (hp : db.participants.get (b, u) = some p) (hleft : p.leftAt = none)
    (hrole : p.role ≠ .none) (now t : OffsetDateTime) :
    Txn.Ends broadcastEngine false t (refreshToken now b u) (fun _ _ _ => True)
      (fun e _ _ => e ≠ .notParticipant) db none := by
  refine Txn.ends_bind (ends_lookup rfl fun broadcastResult hb => ?_)
  refine Txn.ends_bind (ends_lookup rfl fun participantResult hpr => ?_)
  refine Txn.ends_bind (ends_lookup rfl fun userResult hu => ?_)
  refine Txn.ends_bind (ends_found hb (fun row _ => ?_) (fun _ => by simp) fun _ => by simp)
  refine Txn.ends_bind (ends_found hu (fun user _ => ?_) (fun _ => by simp) fun _ => by simp)
  refine Txn.ends_bind (ends_refuse (fun _ => ?_) fun _ => by simp)
  refine Txn.ends_bind (Txn.ends_mono (currentRole_ends hp hleft hrole hpr) ?_ fun _ _ _ h => h)
  intro role d' t' hne
  refine Txn.ends_bind (ends_okOr (fun livekitRole _ => ?_) ?_)
  · refine Txn.ends_bind (ends_mintToken ?_ fun _ => by simp)
    exact Txn.ends_pure trivial
  · intro hnone
    cases role <;> simp [ParticipantRole.toLivekit] at hnone hne

theorem takesPart_of_row (hp : db.participants.get (b, u) = some p) (hleft : p.leftAt = none)
    (hrole : p.role ≠ .none) : TakesPart db b u where
  row := ⟨p, hp, hleft⟩
  chat := by simp [ChatRepository.isBroadcastParticipant, hp, hleft]
  token now t faults := by
    obtain ⟨_, h⟩ := Txn.run_ends faults (refreshToken_ends hp hleft hrole now t)
      (by simp)
    intro he
    rw [he] at h
    exact h rfl

theorem findActiveParticipant_eq_none : findActiveParticipant db u = none ↔
    ∀ b p, db.participants.get (b, u) = some p → p.leftAt.isSome = true := by
  unfold findActiveParticipant
  rw [List.find?_eq_none]
  constructor
  · intro h b p hp
    obtain ⟨hmem, hkey⟩ := Table.get_eq_some_iff.1 hp
    have hpu : p.participantId = u := (Prod.mk.inj hkey).2
    simpa [hpu, Option.isSome_iff_ne_none] using h p hmem
  · intro h p hmem hact
    simp only [Bool.and_eq_true, beq_iff_eq, Option.isNone_iff_eq_none] at hact
    obtain ⟨rfl, hnone⟩ := hact
    have hsome := h p.broadcastId p (Table.mem_rows_iff.1 hmem)
    rw [hnone] at hsome
    cases hsome

end TakesPart

/-! ## Join and start -/

/-- `join` up to its commit. -/
def joinCommit (now : OffsetDateTime) (broadcastId userId : Uuid) :
    BroadcastSvc (Broadcast × ParticipantRole × Token) := do
  let broadcastResult ← lookup (.findById broadcastId)
  let userResult ← lookup (.findUserSummary userId)
  let isCohostResult ← lookup (.isCohost broadcastId userId)
  let isParticipantResult ← lookup (.findActiveParticipant userId)
  let broadcast ← found .notFound broadcastResult
  let user ← found .userNotFound userResult
  let isCohost ← Act.ofExcept isCohostResult
  refuse .notLive (broadcast.status != .active)
  refuse .creatorCannotJoin (broadcast.creatorId == userId)
  alreadyIn broadcastId (← Act.ofExcept isParticipantResult)
  let role := joinRole isCohost
  let broadcastToken ← mintToken userId user.fullName broadcastId (joinLivekitRole role) none
  beginTx
  query .tx (.upsertParticipant { broadcastId, participantId := userId, role, joinedAt := now })
  commitTx
  return (broadcast, role, broadcastToken)

/-- The response that `join` puts together after its commit. -/
def joinRespond (now : OffsetDateTime) (broadcastId userId : Uuid)
    (r : Broadcast × ParticipantRole × Token) : BroadcastSvc BroadcastSessionResponse := do
  let (broadcast, role, broadcastToken) := r
  let creatorResult ← lookup (.findUserSummary broadcast.creatorId)
  let cohostsResult ← lookup (.getCohosts broadcastId)
  let totalCountResult ← lookup (.getTotalParticipants broadcastId)
  let creator ← found .userNotFound creatorResult
  let cohosts ← Act.ofExcept cohostsResult
  let totalCount ← Act.ofExcept totalCountResult
  let liveCount := (← getLiveCount broadcastId).getD 1
  let ctx ← buildCtx broadcast (some userId) (some role) liveCount totalCount
  return {
    broadcast := buildResponse now broadcast creator cohosts ctx
    token := broadcastToken }

theorem join_eq (now : OffsetDateTime) (b u : Uuid) :
    join now b u = joinCommit now b u >>= joinRespond now b u := by
  simp only [join, joinCommit, joinRespond, bind_assoc, pure_bind]

/-- What a join that ends well has found in `db` and done to it. -/
structure Joins (db : BroadcastDb) (t now : OffsetDateTime) (b u : Uuid) (db' : BroadcastDb) :
    Prop where
  row : ∃ row, findById db b = some row ∧ row.status = .active ∧ row.creatorId ≠ u
  user : ∃ user, findUserSummary db u = some user
  free : findActiveParticipant db u = none
  upserts : Upserts db (upserted db {
    broadcastId := b, participantId := u, role := joinRole (isCohost db b u), joinedAt := now }) db'

/-- What a start that ends well has found in `db` and done to it. -/
structure Starts (db : BroadcastDb) (t now : OffsetDateTime) (b u : Uuid) (db' : BroadcastDb) :
    Prop where
  row : ∃ row, findById db b = some row ∧ row.status = .inactive ∧ row.creatorId = u
  participants : db'.participants = db.participants.put (upserted db {
    broadcastId := b, participantId := u, role := .host, joinedAt := now })

section Spec

variable {db : BroadcastDb} {t now : OffsetDateTime} {b u : Uuid}

theorem alreadyIn_ends {calm : Bool} {txn : Option (List BroadcastWrite)}
    {o : Option BroadcastParticipant} {P : Unit → BroadcastDb → Option (List BroadcastWrite) → Prop}
    {F : BroadcastError → BroadcastDb → Option (List BroadcastWrite) → Prop}
    (hnone : o = none → P () db txn)
    (hhere : ∀ p, o = some p → p.broadcastId = b → F .alreadyParticipant db txn)
    (helsewhere : ∀ p, o = some p → p.broadcastId ≠ b → F .alreadyAParticipant db txn) :
    Txn.Ends broadcastEngine calm t (alreadyIn b o) P F db txn := by
  cases o with
  | none => exact Txn.ends_pure (hnone rfl)
  | some p =>
    by_cases hb : p.broadcastId = b
    · simp only [alreadyIn, hb, if_true]
      exact Txn.ends_throw (hhere p rfl hb)
    · simp only [alreadyIn, hb, if_false]
      exact Txn.ends_throw (helsewhere p rfl hb)

theorem join_ends : Txn.Ends broadcastEngine false t (join now b u)
    (fun _ db' _ => Joins db t now b u db') (fun _ _ _ => True) db none := by
  refine Txn.ends_bind (ends_lookup rfl fun broadcastResult hb => ?_)
  refine Txn.ends_bind (ends_lookup rfl fun userResult hu => ?_)
  refine Txn.ends_bind (ends_lookup rfl fun isCohostResult hc => ?_)
  refine Txn.ends_bind (ends_lookup rfl fun isParticipantResult hp => ?_)
  refine Txn.ends_bind (ends_found hb (fun row hrow => ?_) (fun _ => trivial) fun _ => trivial)
  refine Txn.ends_bind (ends_found hu (fun user huser => ?_) (fun _ => trivial) fun _ => trivial)
  refine Txn.ends_bind (ends_outcome hc ?_ fun _ => trivial)
  refine Txn.ends_bind (ends_refuse (fun hlive => ?_) fun _ => trivial)
  refine Txn.ends_bind (ends_refuse (fun hother => ?_) fun _ => trivial)
  refine Txn.ends_bind (ends_outcome hp ?_ fun _ => trivial)
  refine Txn.ends_bind (alreadyIn_ends (fun hfree => ?_) (fun _ _ _ => trivial) fun _ _ _ => trivial)
  refine Txn.ends_bind (ends_mintToken ?_ fun _ => trivial)
  refine Txn.ends_bind (Txn.ends_begin ?_ fun _ => trivial)
  refine Txn.ends_bind (Txn.ends_tx (fun _ ws hws => ?_) (fun _ _ => trivial) fun _ => trivial)
  refine Txn.ends_bind (Txn.ends_commit ?_ fun _ => trivial)
  have hjoins : Joins db t now b u (broadcastEngine.applyAll db ws) := {
    row := ⟨row, hrow, by simpa using hlive, by simpa using hother⟩
    user := ⟨user, huser⟩
    free := hfree
    upserts := upsertParticipant_ok hws }
  -- the rest only reads
  refine Txn.ends_bind (ends_lookup rfl fun creatorResult hcr => ?_)
  refine Txn.ends_bind (ends_lookup rfl fun cohostsResult hco => ?_)
  refine Txn.ends_bind (ends_lookup rfl fun totalCountResult htc => ?_)
  refine Txn.ends_bind (ends_found hcr (fun _ _ => ?_) (fun _ => trivial) fun _ => trivial)
  refine Txn.ends_bind (ends_outcome hco ?_ fun _ => trivial)
  refine Txn.ends_bind (ends_outcome htc ?_ fun _ => trivial)
  refine Txn.ends_bind (Txn.ends_read rfl ?_ fun _ => trivial)
  refine Txn.ends_bind (ends_buildCtx (fun ctx => ?_) fun _ => trivial)
  exact Txn.ends_pure hjoins

theorem setActive_row {row : Broadcast} {i : SetActiveInput} {row' : Broadcast}
    {ws : List BroadcastWrite} (hrow : db.broadcasts.get i.broadcastId = some row)
    (h : setActive db t i = .ok (row', ws)) :
    (broadcastEngine.applyAll db ws).broadcasts.get i.broadcastId = some row' ∧
      row'.status = .active ∧ (broadcastEngine.applyAll db ws).users = db.users := by
  simp only [setActive, hrow] at h
  cases h
  have hid : row.id = i.broadcastId := Table.key_of_get hrow
  refine ⟨?_, rfl, rfl⟩
  exact (Table.get_put _ _ _).trans (if_pos hid.symm)

/-- A start that ends well has made the broadcast active. -/
theorem start_activates : Txn.Ends broadcastEngine false t (start now b u)
    (fun _ db' _ => Starts db t now b u db' ∧
      ∃ row, db'.broadcasts.get b = some row ∧ row.status = .active) (fun _ _ _ => True) db none := by
  refine Txn.ends_bind (ends_lookup rfl fun broadcastResult hb => ?_)
  refine Txn.ends_bind (ends_lookup rfl fun creatorResult hu => ?_)
  refine Txn.ends_bind (ends_found hb (fun row hrow => ?_) (fun _ => trivial) fun _ => trivial)
  refine Txn.ends_bind (ends_found hu (fun creator hcreator => ?_) (fun _ => trivial) fun _ => trivial)
  refine Txn.ends_bind (ends_refuse (fun howner => ?_) fun _ => trivial)
  refine Txn.ends_bind (ends_refuse (fun hinactive => ?_) fun _ => trivial)
  refine Txn.ends_bind (ends_createRoom ?_ (fun _ => trivial) fun _ => trivial)
  refine Txn.ends_bind (ends_mintToken ?_ fun _ => trivial)
  refine Txn.ends_bind (Txn.ends_begin ?_ fun _ => trivial)
  refine Txn.ends_bind (Txn.ends_tx (fun active ws hws => ?_) (fun _ _ => trivial) fun _ => trivial)
  refine Txn.ends_bind (Txn.ends_tx (fun _ ws' hws' => ?_) (fun _ _ => trivial) fun _ => trivial)
  refine Txn.ends_bind (Txn.ends_commit ?_ fun _ => trivial)
  refine Txn.ends_bind (Txn.ends_read rfl ?_ fun _ => trivial)
  rw [List.nil_append] at hws' ⊢
  rw [broadcastEngine.applyAll_append]
  refine Txn.ends_pure ⟨⟨⟨row, hrow, ?_, by simpa using howner⟩, ?_⟩, ?_⟩
  · cases hst : row.status with
    | inactive => rfl
    | active => simp [hst] at hinactive
  · have hid := findUserSummary_id hcreator
    subst hid
    rw [(upsertParticipant_ok hws').participants]
    have hpart : (broadcastEngine.applyAll db ws).participants = db.participants :=
      setActive_participants hws
    rw [upserted_congr hpart, hpart]
  · obtain ⟨hget, hactive, -⟩ := setActive_row (Option.filter_eq_some_iff.1 hrow).1 hws
    obtain ⟨_, hget', n, s, rfl⟩ := (upsertParticipant_ok hws').broadcasts b active hget
    exact ⟨_, hget', hactive⟩

theorem start_ends : Txn.Ends broadcastEngine false t (start now b u)
    (fun _ db' _ => Starts db t now b u db') (fun _ _ _ => True) db none :=
  Txn.ends_mono start_activates (fun _ _ _ h => h.1) fun _ _ _ h => h

/-- A user who takes part cannot join again. -/
theorem joinAgain_ends
    (hrow : ∃ row, findById db b = some row ∧ row.status = .active ∧ row.creatorId ≠ u)
    (huser : ∃ user, findUserSummary db u = some user)
    (hin : ∃ p, findActiveParticipant db u = some p ∧ p.broadcastId = b) :
    Txn.Ends broadcastEngine true t (join now b u) (fun _ _ _ => False)
      (fun e _ _ => e = .alreadyParticipant) db none := by
  obtain ⟨row, hrow, hactive, hother⟩ := hrow
  obtain ⟨user, huser⟩ := huser
  obtain ⟨p, hp, hpb⟩ := hin
  refine Txn.ends_bind (ends_lookup rfl fun broadcastResult hb => ?_)
  refine Txn.ends_bind (ends_lookup rfl fun userResult hu => ?_)
  refine Txn.ends_bind (ends_lookup rfl fun isCohostResult hc => ?_)
  refine Txn.ends_bind (ends_lookup rfl fun isParticipantResult hpr => ?_)
  rw [hrow] at hb
  rw [huser] at hu
  rw [hp] at hpr
  refine Txn.ends_bind (ends_found hb (fun row' hrow' => ?_) (by simp) (by simp))
  refine Txn.ends_bind (ends_found hu (fun _ _ => ?_) (by simp) (by simp))
  refine Txn.ends_bind (ends_outcome hc ?_ (by simp))
  cases hrow'
  refine Txn.ends_bind (ends_refuse (fun _ => ?_) (by simp [hactive]))
  refine Txn.ends_bind (ends_refuse (fun _ => ?_) (by simp [hother]))
  refine Txn.ends_bind (ends_outcome hpr ?_ (by simp))
  refine Txn.ends_bind (alreadyIn_ends (by simp) (fun _ _ _ => rfl) ?_)
  intro p' hp' hne
  cases hp'
  exact absurd hpb hne

end Spec

/-! ## Who takes part after it -/

section TakesPart

variable {db db' : BroadcastDb} {input : UpsertParticipantInput}

theorem get_put_upserted : (db.participants.put (upserted db input)).get
    (input.broadcastId, input.participantId) = some (upserted db input) := by
  rw [← upserted_key db input, Table.get_put_self]

/-- After an upsert the user takes part unless the row was left over. -/
theorem takesPart_iff_of_upsert (h : db'.participants = db.participants.put (upserted db input))
    (hrole : input.role ≠ .none) :
    TakesPart db' input.broadcastId input.participantId ↔
      ¬ LeftOver db input.broadcastId input.participantId := by
  have hget : db'.participants.get (input.broadcastId, input.participantId) =
      some (upserted db input) := by rw [h, get_put_upserted]
  have hleft := upserted_leftAt db input
  constructor
  · rintro ⟨⟨p, hp, hnone⟩, _, _⟩ ⟨q, hq, hsome⟩
    rw [hget] at hp
    cases hp
    rw [hleft, hq, Option.bind_some] at hnone
    rw [hnone] at hsome
    cases hsome
  · intro hno
    refine takesPart_of_row hget ?_ (by rwa [upserted_role])
    rw [hleft]
    cases hq : db.participants.get (input.broadcastId, input.participantId) with
    | none => rfl
    | some q =>
      rw [Option.bind_some, ← Option.not_isSome_iff_eq_none]
      exact fun hsome => hno ⟨q, hq, hsome⟩

variable {t now : OffsetDateTime} {b u : Uuid}

/-- After a join that made the user a participant, joining again is refused. -/
theorem Joins.join_again (h : Joins db t now b u db') (hpart : TakesPart db' b u)
    (now' t' : OffsetDateTime) :
    (Txn.run broadcastEngine (join now' b u) db' t' []).1 = .error .alreadyParticipant := by
  obtain ⟨⟨row, hrow, hactive, hother⟩, ⟨user, huser⟩, hfree, hups⟩ := h
  have hrow' : ∃ row', findById db' b = some row' ∧ row'.status = .active ∧ row'.creatorId ≠ u := by
    obtain ⟨hget, hdel⟩ := Option.filter_eq_some_iff.1 hrow
    obtain ⟨_, hget', n, s, rfl⟩ := hups.broadcasts b row hget
    exact ⟨_, Option.filter_eq_some_iff.2 ⟨hget', hdel⟩, hactive, hother⟩
  have huser' : ∃ user, findUserSummary db' u = some user := by
    refine ⟨user, ?_⟩
    rw [findUserSummary, hups.users]
    exact huser
  have hin : ∃ p, findActiveParticipant db' u = some p ∧ p.broadcastId = b := by
    obtain ⟨p, hp, hleft⟩ := hpart.row
    cases hact : findActiveParticipant db' u with
    | none =>
      have hsome := findActiveParticipant_eq_none.1 hact b p hp
      rw [hleft] at hsome
      cases hsome
    | some q =>
      refine ⟨q, rfl, ?_⟩
      obtain ⟨hqu, hqnone⟩ : q.participantId = u ∧ q.leftAt = none := by
        simpa using List.find?_some hact
      have hqget := Table.mem_rows_iff.1 (List.mem_of_find?_eq_some hact)
      rw [hups.participants, Table.get_put, upserted_key] at hqget
      by_cases hkey : q.key = (b, u)
      · exact (Prod.mk.inj hkey).1
      · -- another row of the user was there before the join, which was then refused
        rw [if_neg hkey] at hqget
        have hq : db.participants.get (q.broadcastId, u) = some q := by rw [← hqu]; exact hqget
        have hsome := findActiveParticipant_eq_none.1 hfree q.broadcastId q hq
        rw [hqnone] at hsome
        cases hsome
  obtain ⟨_, hend⟩ := Txn.run_ends [] (joinAgain_ends hrow' huser' hin) fun _ => rfl
  revert hend
  cases (Txn.run broadcastEngine (join now' b u) db' t' []).1 with
  | ok a => intro hend; exact hend.elim
  | error e => intro hend; rw [hend]

end TakesPart

/-- A user who joins, and a creator who starts, takes part afterwards exactly when no row of theirs
is left over from an earlier session; only then is a second join refused. -/
theorem participation_iff (db : BroadcastDb) (t : OffsetDateTime) (faults : List Bool)
    (now : OffsetDateTime) (b u : Uuid) :
    ((Txn.run broadcastEngine (join now b u) db t faults).1.isOk = true →
      ((TakesPart (Txn.run broadcastEngine (join now b u) db t faults).2 b u ∧
        ∀ now' t', (Txn.run broadcastEngine (join now' b u)
          (Txn.run broadcastEngine (join now b u) db t faults).2 t' []).1 =
            .error .alreadyParticipant) ↔ ¬ LeftOver db b u)) ∧
    ((Txn.run broadcastEngine (start now b u) db t faults).1.isOk = true →
      (TakesPart (Txn.run broadcastEngine (start now b u) db t faults).2 b u ↔
        ¬ LeftOver db b u)) := by
  constructor
  · intro hok
    have hjoins := Txn.run_isOk join_ends (by simp) hok
    have hiff := takesPart_iff_of_upsert hjoins.upserts.participants (joinRole_ne_none _)
    constructor
    · rintro ⟨hpart, _⟩
      exact hiff.1 hpart
    · intro hno
      have hpart := hiff.2 hno
      exact ⟨hpart, hjoins.join_again hpart⟩
  · intro hok
    have hstarts := Txn.run_isOk start_ends (by simp) hok
    exact takesPart_iff_of_upsert hstarts.participants (by simp)

/-! ## A second session -/

/-- Two users, 1 and 2. -/
def twoUsers : Table User User.id where
  rows := [⟨⟨1⟩, "Ada", none, none, none, none⟩, ⟨⟨2⟩, "Ben", none, none, none, none⟩]
  nodup := by decide

def morningPrayer : CreateBroadcastRequest where
  title := "Morning prayer"
  description := none
  imageId := none
  imageUrl := none
  timeZone := none
  startTime := none
  recordingEnabled := none
  cohosts := none

/-- User 1 creates broadcast 9 and starts it, user 2 joins, and user 1 ends it. -/
def firstSession : List BroadcastOp :=
  [.create 1 1 ⟨9⟩ morningPrayer ⟨1⟩, .start 2 ⟨9⟩ ⟨1⟩, .join 3 ⟨9⟩ ⟨2⟩, .endBroadcast 4 ⟨9⟩ ⟨1⟩]

/-- The store that a run of operations without faults reaches; the n-th is at time n. -/
def storeAfter (ops : List BroadcastOp) : BroadcastDb :=
  (ops.zipIdx 1).foldl (fun db op => (op.1.run op.2 [] db).2) (.ofUsers twoUsers)

theorem reached_storeAfter (ops : List BroadcastOp) :
    BroadcastReached twoUsers (storeAfter ops) := by
  have key : ∀ (ops : List (BroadcastOp × Nat)) (db : BroadcastDb), BroadcastReached twoUsers db →
      BroadcastReached twoUsers (ops.foldl (fun db op => (op.1.run op.2 [] db).2) db) := by
    intro ops
    induction ops with
    | nil => intro db h; exact h
    | cons op ops ih => intro db h; exact ih _ (h.step op.1 op.2 [])
  exact key _ _ .init

/-- In their first session both the host and the user who joins take part. -/
theorem firstSession_participates :
    TakesPart (Txn.run broadcastEngine (join 3 ⟨9⟩ ⟨2⟩) (storeAfter (firstSession.take 2)) 3 []).2
      ⟨9⟩ ⟨2⟩ ∧
    TakesPart (Txn.run broadcastEngine (start 2 ⟨9⟩ ⟨1⟩) (storeAfter (firstSession.take 1)) 2 []).2
      ⟨9⟩ ⟨1⟩ := by
  refine ⟨(((participation_iff _ _ _ _ _ _).1 ?_).2 ?_).1,
    ((participation_iff _ _ _ _ _ _).2 ?_).2 ?_⟩
  all_goals decide

/-- In the second session neither does: both calls answer well, and the rows keep `left_at`. -/
theorem secondSession_leaves_out :
    BroadcastReached twoUsers (storeAfter firstSession) ∧
    (Txn.run broadcastEngine (start 5 ⟨9⟩ ⟨1⟩) (storeAfter firstSession) 5 []).1.isOk = true ∧
    ChatRepository.isBroadcastParticipant
      (Txn.run broadcastEngine (start 5 ⟨9⟩ ⟨1⟩) (storeAfter firstSession) 5 []).2 ⟨9⟩ ⟨1⟩ = false ∧
    BroadcastReached twoUsers (storeAfter (firstSession ++ [.start 5 ⟨9⟩ ⟨1⟩])) ∧
    (Txn.run broadcastEngine (join 6 ⟨9⟩ ⟨2⟩)
      (storeAfter (firstSession ++ [.start 5 ⟨9⟩ ⟨1⟩])) 6 []).1.isOk = true ∧
    (let db := storeAfter (firstSession ++ [.start 5 ⟨9⟩ ⟨1⟩, .join 6 ⟨9⟩ ⟨2⟩])
     ChatRepository.isBroadcastParticipant db ⟨9⟩ ⟨2⟩ = false ∧
     (Txn.run broadcastEngine (refreshToken 7 ⟨9⟩ ⟨2⟩) db 7 []).1 = .error .notParticipant ∧
     (Txn.run broadcastEngine (join 7 ⟨9⟩ ⟨2⟩) db 7 []).1.isOk = true) := by
  refine ⟨reached_storeAfter _, ?_, ?_, reached_storeAfter _, ?_, ?_, ?_, ?_⟩
  all_goals decide

end Meno
