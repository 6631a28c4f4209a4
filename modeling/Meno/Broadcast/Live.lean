import Meno.Lib.Schedule
import Meno.Broadcast.Participation
import Meno.Broadcast.Statements

/-!
# Meno.Broadcast.Live

When is a broadcast live, and how many live broadcasts can a creator have? `set_active` sets the
status and leaves `end_time`, and checks no other broadcast. So a broadcast that is started again
is live by its status and ended by its `end_time`; and a creator can start several drafts. For each
of the two the step lemma says exactly which row writes do the damage.
-/

namespace Meno

open Lib BroadcastRepository

/-! ## One meaning of live -/

/-- No broadcast is active and has an `end_time`. -/
def NoneEndedLive (db : BroadcastDb) : Prop :=
  ∀ b ∈ db.broadcasts.rows, b.status = .active → b.endTime = none

/-- Both modules answer alike whether a broadcast that is not deleted is live. -/
def SameAnswer (db : BroadcastDb) : Prop :=
  ∀ id b, findById db id = some b → ChatRepository.isActiveBroadcast db id = b.isActive

/-- What is made active has never been ended. -/
def NeverEnded (db : BroadcastDb) : BroadcastWrite → Prop
  | .broadcast row => ∀ b, db.broadcasts.get row.id = some b → b.status = .inactive →
      row.status = .active → b.endTime = none
  | _ => True

instance (db : BroadcastDb) : Decidable (NoneEndedLive db) :=
  inferInstanceAs (Decidable (∀ b ∈ db.broadcasts.rows, b.status = .active → b.endTime = none))

instance (db : BroadcastDb) (w : BroadcastWrite) : Decidable (NeverEnded db w) := by
  cases w with
  | broadcast row =>
    exact inferInstanceAs (Decidable (∀ b ∈ db.broadcasts.get row.id, b.status = .inactive →
      row.status = .active → b.endTime = none))
  | _ => exact isTrue trivial

theorem sameAnswer_of_noneEndedLive {db : BroadcastDb} (h : NoneEndedLive db) : SameAnswer db := by
  intro id b hb
  obtain ⟨hget, hdel⟩ := Option.filter_eq_some_iff.1 hb
  have hmem : b ∈ db.broadcasts.rows := (Table.get_eq_some_iff.1 hget).1
  have hend := h b hmem
  cases hst : b.status with
  | inactive =>
    have hne : (BroadcastStatus.inactive == BroadcastStatus.active) = false := rfl
    simp [ChatRepository.isActiveBroadcast, Broadcast.isActive, hget, hst, hne]
  | active => simpa [ChatRepository.isActiveBroadcast, Broadcast.isActive, hget, hst, hend hst] using hdel

/-- One row write: it keeps the two columns together exactly when what it makes active has never
been ended. -/
theorem noneEndedLive_iff {db : BroadcastDb} {w : BroadcastWrite} (h : NoneEndedLive db)
    (hl : w.Legal db) : NoneEndedLive (db.apply w) ↔ NeverEnded db w := by
  have hput : ∀ row : Broadcast, NoneEndedLive (db.apply (.broadcast row)) ↔
      (row.status = .active → row.endTime = none) := by
    intro row
    constructor
    · intro hrow
      exact hrow row (by simp)
    · intro hrow b hb
      rcases Table.mem_put_rows.1 hb with rfl | ⟨hb, _⟩
      · exact hrow
      · exact h b hb
  cases hl with
  | createBroadcast hnone hst hend hdel => simp [hput, NeverEnded, hst]
  | @editBroadcast b row hb hsame =>
    have hold := h b (Table.get_eq_some_iff.1 hb).1
    simp only [hput, NeverEnded, hb, Option.some.injEq, forall_eq', hsame.status, hsame.endTime]
    simp +contextual [hold]
  | @deleteBroadcast b t hb hdel =>
    have hold := h b (Table.get_eq_some_iff.1 hb).1
    simp only [hput, NeverEnded, hb, Option.some.injEq, forall_eq']
    simp +contextual [hold]
  | @activate b token start t hb =>
    have hold := h b (Table.get_eq_some_iff.1 hb).1
    simp only [hput, NeverEnded, hb, Option.some.injEq, forall_eq']
    cases hst : b.status with
    | active => simp [hold hst]
    | inactive => simp
  | deactivate hb => simp [hput, NeverEnded]
  | addCohost hnone => exact iff_of_true h trivial
  | dropCohost => exact iff_of_true h trivial
  | addParticipant hnone hleft => exact iff_of_true h trivial
  | setRole hp => exact iff_of_true h trivial
  | setLeft hp => exact iff_of_true h trivial
  | dropParticipant => exact iff_of_true h trivial

/-- In every run in which no broadcast that was ended is made active again, a live broadcast has no
`end_time`, and the broadcast and the chat module agree about what is live. -/
theorem one_meaning_of_live {ι : Type} [DecidableEq ι] (ops : ι → BroadcastOp)
    (users : Table User User.id) (t : OffsetDateTime) (w : BroadcastWorld ι)
    (h : BroadcastReachesIf NeverEnded ops (.ofUsers users) t w) :
    NoneEndedLive w.committed ∧ SameAnswer w.committed := by
  have hlive : NoneEndedLive w.committed := by
    refine committed_of_legal ?_ ?_ h
    · intro db x hdb hl hx
      exact (noneEndedLive_iff hdb hl).2 hx
    · intro b hb
      cases hb
  exact ⟨hlive, sameAnswer_of_noneEndedLive hlive⟩

/-- User 1 creates broadcast 9, starts it, ends it, and starts it again. -/
def restart : Fin 4 → BroadcastOp
  | 0 => .create 1 1 ⟨9⟩ morningPrayer ⟨1⟩
  | 1 => .start 2 ⟨9⟩ ⟨1⟩
  | 2 => .endBroadcast 3 ⟨9⟩ ⟨1⟩
  | 3 => .start 4 ⟨9⟩ ⟨1⟩

/-- The calls of the first three operations, one operation after the other. -/
def untilEnd : List (OffsetDateTime × Fin 4) :=
  List.replicate 5 (1, 0) ++ List.replicate 10 (2, 1) ++ List.replicate 5 (3, 2)

/-- Up to the end of the first session the answers agree. -/
theorem first_session_same_answer : ∃ w : BroadcastWorld (Fin 4),
    BroadcastReachesIf NeverEnded restart (.ofUsers twoUsers) 0 w ∧
      ((findById w.committed ⟨9⟩).any fun b => b.endTime.isSome) = true ∧
      NoneEndedLive w.committed ∧ SameAnswer w.committed := by
  have hrun : ∃ w : BroadcastWorld (Fin 4),
      BroadcastReachesIf NeverEnded restart (.ofUsers twoUsers) 0 w ∧
        ((findById w.committed ⟨9⟩).any fun b => b.endTime.isSome) = true :=
    World.exists_of_runSchedule untilEnd (by decide +kernel)
  obtain ⟨w, hw, hended⟩ := hrun
  exact ⟨w, hw, hended, one_meaning_of_live restart twoUsers 0 w hw⟩

/-- After the second start the broadcast is live for `join` and not for the chat. -/
theorem restarted_is_live_and_ended : ∃ w : BroadcastWorld (Fin 4),
    BroadcastReaches restart (.ofUsers twoUsers) 0 w ∧ ¬NoneEndedLive w.committed ∧
      ((findById w.committed ⟨9⟩).any Broadcast.isActive) = true ∧
      ChatRepository.isActiveBroadcast w.committed ⟨9⟩ = false := by
  exact World.reaches_of_runSchedule (untilEnd ++ List.replicate 10 (4, 3)) (by decide +kernel)

/-! ## One live broadcast for each creator -/

def Broadcast.isLive (b : Broadcast) : Bool := b.status == .active && b.deletedAt.isNone

/-- Each user has at most one live broadcast. -/
def OneLive (db : BroadcastDb) : Prop :=
  db.broadcasts.AtMostOne Broadcast.isLive Broadcast.creatorId

instance (db : BroadcastDb) : Decidable (OneLive db) :=
  inferInstanceAs (Decidable (db.broadcasts.AtMostOne Broadcast.isLive Broadcast.creatorId))

/-- When a broadcast becomes live, no other one of the creator is. -/
def NoneOtherLive (db : BroadcastDb) : BroadcastWrite → Prop
  | .broadcast row => ∀ b, db.broadcasts.get row.id = some b → b.status = .inactive →
      row.isLive = true → ∀ c ∈ db.broadcasts.rows, c.isLive = true → c.creatorId ≠ row.creatorId
  | _ => True

instance (db : BroadcastDb) (w : BroadcastWrite) : Decidable (NoneOtherLive db w) := by
  cases w with
  | broadcast row =>
    exact inferInstanceAs (Decidable (∀ b ∈ db.broadcasts.get row.id, b.status = .inactive →
      row.isLive = true → ∀ c ∈ db.broadcasts.rows, c.isLive = true → c.creatorId ≠ row.creatorId))
  | _ => exact isTrue trivial

theorem findActiveBroadcastHostedById_eq {db : BroadcastDb} (h : OneLive db) {b : Broadcast}
    (hb : b ∈ db.broadcasts.rows) (hlive : b.isLive = true) :
    findActiveBroadcastHostedById db b.creatorId = some b := by
  have hsome : (findActiveBroadcastHostedById db b.creatorId).isSome = true := by
    refine List.find?_isSome.2 ⟨b, hb, ?_⟩
    simpa [Broadcast.isLive] using hlive
  obtain ⟨c, hc⟩ := Option.isSome_iff_exists.1 hsome
  have hfound := List.find?_some hc
  simp only [Bool.and_eq_true, beq_iff_eq, and_assoc] at hfound
  have hclive : c.isLive = true := by simpa [Broadcast.isLive] using hfound.2
  rw [hc, h b hb c (List.mem_of_find?_eq_some hc) hlive hclive hfound.1.symm]

/-- One row write: it keeps the creators to one live broadcast exactly when what it makes live is
the only one of its creator. -/
theorem oneLive_iff {db : BroadcastDb} {w : BroadcastWrite} (h : OneLive db) (hl : w.Legal db) :
    OneLive (db.apply w) ↔ NoneOtherLive db w := by
  have hput : ∀ row : Broadcast, OneLive (db.apply (.broadcast row)) ↔ (row.isLive = true →
      ∀ c ∈ db.broadcasts.rows, c.id ≠ row.id → c.isLive = true → c.creatorId ≠ row.creatorId) :=
    Table.atMostOne_put_iff h
  cases hl with
  | @createBroadcast row hnone hst hend hdel => simp [hput, NoneOtherLive, Broadcast.isLive, hst]
  | @editBroadcast b row hb hsame =>
    have hid : b.id = row.id := Table.key_of_get hb
    have hrow : row.isLive = b.isLive := by
      simp [Broadcast.isLive, hsame.status, hsame.deletedAt]
    rw [← hid] at hb
    rw [hput, hrow, ← hid, hsame.creatorId]
    refine iff_of_true (Table.AtMostOne.others h hb) ?_
    intro b' hb' hst hrl
    rw [← hid, hb] at hb'
    cases hb'
    rw [hrow] at hrl
    simp [Broadcast.isLive, hst] at hrl
  | @deleteBroadcast b t hb hdel => simp [hput, NoneOtherLive, Broadcast.isLive]
  | deactivate hb => simp [hput, NoneOtherLive, Broadcast.isLive]
  | @activate b token start t hb =>
    simp only [hput, NoneOtherLive, hb, Option.some.injEq, forall_eq']
    cases hst : b.status with
    | active =>
      refine iff_of_true ?_ (by simp)
      intro hrl
      refine Table.AtMostOne.others h hb ?_
      simpa [Broadcast.isLive, hst] using hrl
    | inactive =>
      have hdead : b.isLive = false := by simp [Broadcast.isLive, hst]
      simp only [true_implies]
      refine forall_congr' fun hrl => forall₂_congr fun c hc => ?_
      constructor
      · intro hall hcl
        exact hall (Table.key_ne_of_not hb hdead hc hcl) hcl
      · intro hall _ hcl
        exact hall hcl
  | addCohost hnone => exact iff_of_true h trivial
  | dropCohost => exact iff_of_true h trivial
  | addParticipant hnone hleft => exact iff_of_true h trivial
  | setRole hp => exact iff_of_true h trivial
  | setLeft hp => exact iff_of_true h trivial
  | dropParticipant => exact iff_of_true h trivial

/-- In every run in which a broadcast becomes live only while no other one of its creator is, each
user has at most one live broadcast, and it is the one that the lookup by host finds. -/
theorem one_live_broadcast {ι : Type} [DecidableEq ι] (ops : ι → BroadcastOp)
    (users : Table User User.id) (t : OffsetDateTime) (w : BroadcastWorld ι)
    (h : BroadcastReachesIf NoneOtherLive ops (.ofUsers users) t w) :
    OneLive w.committed ∧ ∀ b ∈ w.committed.broadcasts.rows, b.isLive = true →
      findActiveBroadcastHostedById w.committed b.creatorId = some b := by
  have hone : OneLive w.committed := by
    refine committed_of_legal ?_ ?_ h
    · intro db x hdb hl hx
      exact (oneLive_iff hdb hl).2 hx
    · exact Table.atMostOne_empty
  exact ⟨hone, fun b hb hlive => findActiveBroadcastHostedById_eq hone hb hlive⟩

/-- User 1 creates broadcasts 8 and 9, and starts both, or ends 8 before. -/
def twoDrafts : Fin 5 → BroadcastOp
  | 0 => .create 1 1 ⟨8⟩ morningPrayer ⟨1⟩
  | 1 => .create 2 2 ⟨9⟩ morningPrayer ⟨1⟩
  | 2 => .start 3 ⟨8⟩ ⟨1⟩
  | 3 => .endBroadcast 4 ⟨8⟩ ⟨1⟩
  | 4 => .start 5 ⟨9⟩ ⟨1⟩

/-- The calls up to the start of the first one. -/
def firstStarted : List (OffsetDateTime × Fin 5) :=
  List.replicate 5 (1, 0) ++ List.replicate 5 (2, 1) ++ List.replicate 10 (3, 2)

/-- The second draft is started when the first broadcast has ended. -/
theorem one_after_the_other : ∃ w : BroadcastWorld (Fin 5),
    BroadcastReachesIf NoneOtherLive twoDrafts (.ofUsers twoUsers) 0 w ∧
      ((findActiveBroadcastHostedById w.committed ⟨1⟩).any fun b => b.id = ⟨9⟩) = true ∧
      OneLive w.committed ∧ ∀ b ∈ w.committed.broadcasts.rows, b.isLive = true →
        findActiveBroadcastHostedById w.committed b.creatorId = some b := by
  have hrun : ∃ w : BroadcastWorld (Fin 5),
      BroadcastReachesIf NoneOtherLive twoDrafts (.ofUsers twoUsers) 0 w ∧
        ((findActiveBroadcastHostedById w.committed ⟨1⟩).any fun b => b.id = ⟨9⟩) = true :=
    World.exists_of_runSchedule (firstStarted ++ List.replicate 5 (4, 3) ++ List.replicate 10 (5, 4))
      (by decide +kernel)
  obtain ⟨w, hw, hfound⟩ := hrun
  exact ⟨w, hw, hfound, one_live_broadcast twoDrafts twoUsers 0 w hw⟩

/-- Without that, both are live. -/
theorem both_drafts_live : ∃ w : BroadcastWorld (Fin 5),
    BroadcastReaches twoDrafts (.ofUsers twoUsers) 0 w ∧ ¬OneLive w.committed ∧
      ((findById w.committed ⟨8⟩).any Broadcast.isLive) = true ∧
      ((findById w.committed ⟨9⟩).any Broadcast.isLive) = true :=
  World.reaches_of_runSchedule (firstStarted ++ List.replicate 10 (5, 4)) (by decide +kernel)

end Meno
