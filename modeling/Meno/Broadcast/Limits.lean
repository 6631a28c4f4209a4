import Meno.Broadcast.Live

/-!
# Meno.Broadcast.Limits

Two limits on rows: a user takes part in one broadcast at a time, and a broadcast has at most
`maxCohosts` cohosts. Neither is a constraint of the tables. `join` looks for another participation
and commits later; `start` and `addCohost` do not look at all. `update` counts the cohosts of the
request and not the stored ones, and `addCohost` compares a count it read before with `==`.
-/

namespace Meno

open Lib BroadcastRepository

/-! ## One participation for each user -/

def BroadcastParticipant.isIn (p : BroadcastParticipant) : Bool := p.leftAt.isNone

/-- Each user takes part in at most one broadcast. -/
def OneParticipation (db : BroadcastDb) : Prop :=
  db.participants.AtMostOne BroadcastParticipant.isIn BroadcastParticipant.participantId

instance (db : BroadcastDb) : Decidable (OneParticipation db) :=
  inferInstanceAs (Decidable
    (db.participants.AtMostOne BroadcastParticipant.isIn BroadcastParticipant.participantId))

/-- A new participant takes part in no other broadcast. -/
def NotElsewhere (db : BroadcastDb) : BroadcastWrite → Prop
  | .participant row => db.participants.get row.key = none → ∀ p ∈ db.participants.rows,
      p.isIn = true → p.participantId ≠ row.participantId
  | _ => True

instance (db : BroadcastDb) : (w : BroadcastWrite) → Decidable (NotElsewhere db w)
  | .participant row =>
    have : Decidable (db.participants.get row.key = none) :=
      decidable_of_iff (_ = true) Option.isNone_iff_eq_none
    show Decidable (_ → ∀ p ∈ db.participants.rows, p.isIn = true → _ ≠ _) from inferInstance
  | .broadcast _ => isTrue trivial
  | .cohost _ => isTrue trivial
  | .dropCohost _ _ => isTrue trivial
  | .dropParticipant _ _ => isTrue trivial

/-- One row write: it keeps the users to one participation exactly when a participant who is new in
a broadcast is in no other one. -/
theorem oneParticipation_iff {db : BroadcastDb} {w : BroadcastWrite} (h : OneParticipation db)
    (hl : w.Legal db) : OneParticipation (db.apply w) ↔ NotElsewhere db w := by
  have hput : ∀ row : BroadcastParticipant, OneParticipation (db.apply (.participant row)) ↔
      (row.isIn = true → ∀ p ∈ db.participants.rows, p.key ≠ row.key → p.isIn = true →
        p.participantId ≠ row.participantId) := Table.atMostOne_put_iff h
  cases hl with
  | @addParticipant row hnone hleft =>
    have hin : row.isIn = true := by simp [BroadcastParticipant.isIn, hleft]
    have hfresh : ∀ p ∈ db.participants.rows, p.key ≠ row.key := by
      intro p hp hkey
      rw [← hkey, Table.mem_rows_iff.1 hp] at hnone
      cases hnone
    simp only [hput, NotElsewhere, hnone, hin, true_implies]
    refine forall₂_congr fun p hp => ?_
    constructor
    · intro hall
      exact hall (hfresh p hp)
    · intro hall _
      exact hall
  | @setRole p role t hp =>
    have hkey : ({ p with role, joinedAt := t } : BroadcastParticipant).key = p.key := rfl
    have hothers : p.isIn = true → ∀ q ∈ db.participants.rows, q.key ≠ p.key → q.isIn = true →
        q.participantId ≠ p.participantId := Table.AtMostOne.others h hp
    simp only [hput, NotElsewhere, hkey, hp, reduceCtorEq, false_implies, iff_true]
    exact hothers
  | @setLeft p t hp =>
    have hkey : ({ p with leftAt := some t } : BroadcastParticipant).key = p.key := rfl
    simp [hput, NotElsewhere, hkey, hp, BroadcastParticipant.isIn]
  | dropParticipant => exact iff_of_true (Table.AtMostOne.erase h _) trivial
  | createBroadcast hnone hst hend hdel => exact iff_of_true h trivial
  | editBroadcast hb hsame => exact iff_of_true h trivial
  | deleteBroadcast hb hdel => exact iff_of_true h trivial
  | activate hb => exact iff_of_true h trivial
  | deactivate hb => exact iff_of_true h trivial
  | addCohost hnone => exact iff_of_true h trivial
  | dropCohost => exact iff_of_true h trivial

/-- A user's participation is the one that `find_active_participant` finds. -/
theorem findActiveParticipant_eq {db : BroadcastDb} (h : OneParticipation db)
    {p : BroadcastParticipant} (hp : p ∈ db.participants.rows) (hin : p.isIn = true) :
    findActiveParticipant db p.participantId = some p := by
  have hsome : (findActiveParticipant db p.participantId).isSome = true := by
    refine List.find?_isSome.2 ⟨p, hp, ?_⟩
    simpa [BroadcastParticipant.isIn] using hin
  obtain ⟨q, hq⟩ := Option.isSome_iff_exists.1 hsome
  have hfound := List.find?_some hq
  simp only [Bool.and_eq_true, beq_iff_eq] at hfound
  rw [hq, h p hp q (List.mem_of_find?_eq_some hq) hin hfound.2 hfound.1.symm]

/-- In every run in which a participant is new in a broadcast only while in no other one, each user
takes part in at most one broadcast, and the lookup finds it. -/
theorem one_participation {ι : Type} [DecidableEq ι] (ops : ι → BroadcastOp)
    (users : Table User User.id) (t : OffsetDateTime) (w : BroadcastWorld ι)
    (h : BroadcastReachesIf NotElsewhere ops (.ofUsers users) t w) :
    OneParticipation w.committed ∧ ∀ p ∈ w.committed.participants.rows, p.isIn = true →
      findActiveParticipant w.committed p.participantId = some p := by
  have hone : OneParticipation w.committed := by
    refine committed_of_legal ?_ ?_ h
    · intro db x hdb hl hx
      exact (oneParticipation_iff hdb hl).2 hx
    · exact Table.atMostOne_empty
  exact ⟨hone, fun p hp hin => findActiveParticipant_eq hone hp hin⟩

/-- Five users, 1 to 5. -/
def crowd : Table User User.id where
  rows := [⟨⟨1⟩, "Ada", none, none, none, none⟩, ⟨⟨2⟩, "Ben", none, none, none, none⟩,
    ⟨⟨3⟩, "Cy", none, none, none, none⟩, ⟨⟨4⟩, "Di", none, none, none, none⟩,
    ⟨⟨5⟩, "Eve", none, none, none, none⟩]
  nodup := by decide

/-- Users 1 and 3 have broadcasts 8 and 9. User 2 joins 8, joins 9 and is made a cohost of 9. -/
def twoRooms : Fin 7 → BroadcastOp
  | 0 => .create 1 1 ⟨8⟩ morningPrayer ⟨1⟩
  | 1 => .start 2 ⟨8⟩ ⟨1⟩
  | 2 => .create 3 3 ⟨9⟩ morningPrayer ⟨3⟩
  | 3 => .start 4 ⟨9⟩ ⟨3⟩
  | 4 => .join 5 ⟨8⟩ ⟨2⟩
  | 5 => .join 5 ⟨9⟩ ⟨2⟩
  | 6 => .addCohost 6 ⟨9⟩ ⟨3⟩ ⟨2⟩

/-- Both broadcasts are started. -/
def roomsOpen : List (OffsetDateTime × Fin 7) :=
  List.replicate 5 (1, 0) ++ List.replicate 10 (2, 1) ++ List.replicate 5 (3, 2) ++
    List.replicate 10 (4, 3)

/-- The second join, after the first, is refused. -/
theorem one_room_at_a_time : ∃ w : BroadcastWorld (Fin 7),
    BroadcastReachesIf NotElsewhere twoRooms (.ofUsers crowd) 0 w ∧
      ChatRepository.isBroadcastParticipant w.committed ⟨8⟩ ⟨2⟩ = true ∧
      OneParticipation w.committed ∧ ∀ p ∈ w.committed.participants.rows, p.isIn = true →
        findActiveParticipant w.committed p.participantId = some p := by
  have hrun : ∃ w : BroadcastWorld (Fin 7),
      BroadcastReachesIf NotElsewhere twoRooms (.ofUsers crowd) 0 w ∧
        ChatRepository.isBroadcastParticipant w.committed ⟨8⟩ ⟨2⟩ = true :=
    World.exists_of_runSchedule (roomsOpen ++ List.replicate 15 (5, 4) ++ List.replicate 4 (5, 5))
      (by decide +kernel)
  obtain ⟨w, hw, hin⟩ := hrun
  exact ⟨w, hw, hin, one_participation twoRooms crowd 0 w hw⟩

/-- A participant of one broadcast is made a cohost of the other; or both joins make their check
before either commits. -/
theorem in_two_rooms :
    (∃ w : BroadcastWorld (Fin 7), BroadcastReaches twoRooms (.ofUsers crowd) 0 w ∧
      (w.callers 6).prog.isOk = true ∧ ¬OneParticipation w.committed) ∧
    ∃ w : BroadcastWorld (Fin 7), BroadcastReaches twoRooms (.ofUsers crowd) 0 w ∧
      (w.callers 4).prog.isOk = true ∧ (w.callers 5).prog.isOk = true ∧
        ¬OneParticipation w.committed := by
  constructor
  · exact World.reaches_of_runSchedule
      (roomsOpen ++ List.replicate 15 (5, 4) ++ List.replicate 9 (6, 6)) (by decide +kernel)
  · exact World.reaches_of_runSchedule (roomsOpen ++ List.replicate 4 (5, 4) ++
      List.replicate 15 (5, 5) ++ List.replicate 11 (5, 4)) (by decide +kernel)

/-! ## The number of cohosts -/

def cohostCount (db : BroadcastDb) (broadcastId : Uuid) : Nat :=
  (db.cohosts.rows.filter fun c => c.broadcastId == broadcastId).length

def WithinLimit (db : BroadcastDb) : Prop :=
  ∀ b, cohostCount db b ≤ maxCohosts

/-- There is room for a cohost who is new. -/
def HasRoom (db : BroadcastDb) : BroadcastWrite → Prop
  | .cohost row => db.cohosts.get row.key = none →
      cohostCount db row.broadcastId < maxCohosts
  | _ => True

instance (db : BroadcastDb) : (w : BroadcastWrite) → Decidable (HasRoom db w)
  | .cohost row =>
    have : Decidable (db.cohosts.get row.key = none) :=
      decidable_of_iff (_ = true) Option.isNone_iff_eq_none
    show Decidable (_ → cohostCount db row.broadcastId < maxCohosts) from inferInstance
  | .broadcast _ => isTrue trivial
  | .dropCohost _ _ => isTrue trivial
  | .participant _ => isTrue trivial
  | .dropParticipant _ _ => isTrue trivial

theorem cohostCount_add {db : BroadcastDb} {row : BroadcastCohost}
    (hnone : db.cohosts.get row.key = none) (b : Uuid) :
    cohostCount (db.apply (.cohost row)) b =
      cohostCount db b + if row.broadcastId = b then 1 else 0 := by
  have hrows : (db.apply (.cohost row)).cohosts.rows = row :: db.cohosts.rows :=
    Table.rows_put_of_none hnone
  rw [cohostCount, hrows]
  by_cases hb : row.broadcastId = b
  · simp [cohostCount, hb]
  · simp [cohostCount, hb]

/-- One row write: it keeps the limit exactly when it finds room for the cohost it adds. -/
theorem withinLimit_iff {db : BroadcastDb} {w : BroadcastWrite} (h : WithinLimit db)
    (hl : w.Legal db) : WithinLimit (db.apply w) ↔ HasRoom db w := by
  cases hl with
  | @addCohost row hnone =>
    simp only [WithinLimit, cohostCount_add hnone, HasRoom, hnone, true_implies]
    constructor
    · intro hall
      have hb := hall row.broadcastId
      rw [if_pos rfl] at hb
      omega
    · intro hroom b
      have hb := h b
      by_cases hrow : row.broadcastId = b
      · subst hrow
        rw [if_pos rfl]
        omega
      · rw [if_neg hrow]
        omega
  | @dropCohost b u =>
    refine iff_of_true ?_ trivial
    intro b'
    have hsub : (db.apply (.dropCohost b u)).cohosts.rows.Sublist db.cohosts.rows :=
      List.filter_sublist
    exact (hsub.filter _).length_le.trans (h b')
  | addParticipant hnone hleft => exact iff_of_true h trivial
  | setRole hp => exact iff_of_true h trivial
  | setLeft hp => exact iff_of_true h trivial
  | dropParticipant => exact iff_of_true h trivial
  | createBroadcast hnone hst hend hdel => exact iff_of_true h trivial
  | editBroadcast hb hsame => exact iff_of_true h trivial
  | deleteBroadcast hb hdel => exact iff_of_true h trivial
  | activate hb => exact iff_of_true h trivial
  | deactivate hb => exact iff_of_true h trivial

/-- In every run in which whatever adds cohosts finds room for them when it commits, no broadcast
has more than `maxCohosts` cohosts. -/
theorem cohosts_within_limit {ι : Type} [DecidableEq ι] (ops : ι → BroadcastOp)
    (users : Table User User.id) (t : OffsetDateTime) (w : BroadcastWorld ι)
    (h : BroadcastReachesIf HasRoom ops (.ofUsers users) t w) : WithinLimit w.committed := by
  refine committed_of_legal ?_ ?_ h
  · intro db x hdb hl hx
    exact (withinLimit_iff hdb hl).2 hx
  · intro b
    exact Nat.zero_le _

/-- The edit of a broadcast that names cohosts and nothing else. -/
def inviting (cohosts : List Uuid) : UpdateBroadcastRequest where
  title := none
  description := none
  imageId := none
  imageUrl := none
  startTime := none
  timeZone := none
  recordingEnabled := none
  cohosts := some cohosts

/-- User 1 creates broadcast 9 with two cohosts, and then invites one more, and two more. -/
def invitations : Fin 3 → BroadcastOp
  | 0 => .create 1 1 ⟨9⟩ { morningPrayer with cohosts := some [⟨2⟩, ⟨3⟩] } ⟨1⟩
  | 1 => .update 2 (inviting [⟨4⟩]) ⟨9⟩ ⟨1⟩
  | 2 => .update 3 (inviting [⟨4⟩, ⟨5⟩]) ⟨9⟩ ⟨1⟩

theorem third_cohost_within_limit : ∃ w : BroadcastWorld (Fin 3),
    BroadcastReachesIf HasRoom invitations (.ofUsers crowd) 0 w ∧
      cohostCount w.committed ⟨9⟩ = 3 ∧ WithinLimit w.committed := by
  have hrun : ∃ w : BroadcastWorld (Fin 3),
      BroadcastReachesIf HasRoom invitations (.ofUsers crowd) 0 w ∧
        cohostCount w.committed ⟨9⟩ = 3 :=
    World.exists_of_runSchedule (List.replicate 7 (1, 0) ++ List.replicate 7 (2, 1))
      (by decide +kernel)
  obtain ⟨w, hw, hthree⟩ := hrun
  exact ⟨w, hw, hthree, cohosts_within_limit invitations crowd 0 w hw⟩

/-- An edit whose list is within the limit takes the stored cohosts past it. -/
theorem four_cohosts : ∃ w : BroadcastWorld (Fin 3),
    BroadcastReaches invitations (.ofUsers crowd) 0 w ∧
      cohostCount w.committed ⟨9⟩ = 4 ∧ ¬WithinLimit w.committed := by
  have hrun : ∃ w : BroadcastWorld (Fin 3), BroadcastReaches invitations (.ofUsers crowd) 0 w ∧
      cohostCount w.committed ⟨9⟩ = 4 :=
    World.reaches_of_runSchedule (List.replicate 7 (1, 0) ++ List.replicate 7 (3, 2))
      (by decide +kernel)
  obtain ⟨w, hw, hfour⟩ := hrun
  refine ⟨w, hw, hfour, ?_⟩
  intro hall
  have hle := hall ⟨9⟩
  rw [hfour] at hle
  exact absurd hle (by decide)

end Meno
