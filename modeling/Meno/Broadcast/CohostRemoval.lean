import Meno.Broadcast.Effects

/-!
# Meno.Broadcast.CohostRemoval

`remove_cohost`, for what it leaves of the user's participation. The rows go with the cohost's when
the user is to leave the room, and the row is written with a lower role when not; a cohost who has
never joined gets one then. The room itself, in Redis and in the hubs, is not touched on either
branch.
-/

namespace Meno

open Lib BroadcastRepository ServiceOp

variable {ι : Type}

/-! ## What a removal takes away -/

namespace Surroundings

/-- The user is in the room's set in Redis, or in the room on one of the instances. -/
def InRoom (e : Surroundings ι) (b u : Uuid) : Prop :=
  u ∈ (e.node.redis.roomMembers b).rows ∨ u ∈ (e.node.hub.members b).rows ∨
    ∃ i, u ∈ ((e.others i).members b).rows

end Surroundings

/-- Nobody comes to take part, and who is to leave the room neither takes part nor is in it. -/
structure TakesAway (before after : ServiceState ι) (b u : Uuid) (fromRoom : Bool) : Prop where
  participation : ChatRepository.isBroadcastParticipant before.db b u = false →
    ChatRepository.isBroadcastParticipant after.db b u = false
  leaves : fromRoom = true →
    ChatRepository.isBroadcastParticipant after.db b u = false ∧ ¬after.around.InRoom b u

/-- A cohost who stays has a row, be it one that was left. Who is to leave is in no room, and does
not take part without being a cohost. -/
def Removable (st : ServiceState ι) (b u : Uuid) : (fromRoom : Bool) → Prop
  | true => ¬st.around.InRoom b u ∧
    (isCohost st.db b u = true ∨ ChatRepository.isBroadcastParticipant st.db b u = false)
  | false => isCohost st.db b u = true → (st.db.participants.get (b, u)).isSome = true

/-! ## The room -/

/-- All calls but the one that seeds a room. -/
def LeavesRooms : {β : Type} → ServiceCall β → Prop
  | _, .initRoom _ _ => False
  | _, _ => True

theorem uses_tables {α : Type} (x : BroadcastSvc α) : Act.Uses LeavesRooms (tables x) :=
  Prog.uses_lift (fun _ => trivial) (ExceptT.run x)

theorem uses_effect (c : ServiceCall Unit) (h : LeavesRooms c) : Act.Uses LeavesRooms (effect c) :=
  ⟨h, fun _ => trivial⟩

theorem removeCohost_leavesRooms (now : OffsetDateTime) (b u r : Uuid) (fromRoom : Bool) :
    Act.Uses LeavesRooms (removeCohost now b u r fromRoom) := by
  refine Act.uses_bind (uses_tables _) fun cohost => ?_
  cases cohost with
  | none => exact Act.uses_pure ()
  | some cohostUser =>
    cases fromRoom with
    | true =>
      refine Act.uses_bind (uses_tables _) fun _ => ?_
      exact Act.uses_bind (uses_effect _ trivial) fun _ => uses_effect _ trivial
    | false =>
      refine Act.uses_bind (uses_tables _) fun _ => Act.uses_bind (uses_tables _) fun _ => ?_
      exact Act.uses_bind (uses_effect _ trivial) fun _ => uses_effect _ trivial

/-- The room is as it was, however the call ends. -/
theorem removeCohost_inRoom (st : ServiceState ι) (now : OffsetDateTime) (b u r b' u' : Uuid)
    (fromRoom : Bool) :
    ((removeCohost now b u r fromRoom).answer ServiceState.handle st).2.around.InRoom b' u' ↔
      st.around.InRoom b' u' := by
  have hcall : ∀ {β : Type} (c : ServiceCall β) (s : ServiceState ι), LeavesRooms c →
      (s.around.InRoom b' u' ↔ st.around.InRoom b' u') →
        ((s.handle c).2.around.InRoom b' u' ↔ st.around.InRoom b' u') := by
    intro β c s hc hs
    cases c with
    | initRoom => exact hc.elim
    | tables | publishToUser | pushBroadcastStartedFanout | spawn => exact hs
  exact Prog.run_keeps hcall (removeCohost_leavesRooms now b u r fromRoom) Iff.rfl

/-! ## The participants -/

section Participants

variable {db d : BroadcastDb} {now : OffsetDateTime} {b u : Uuid}

theorem participant_erased (h : CohostRemoved db now b u true d) :
    ChatRepository.isBroadcastParticipant d b u = false := by
  have hget : d.participants.get (b, u) = none := by
    rw [h, if_pos rfl, Table.get_erase, if_pos rfl]
  rw [ChatRepository.isBroadcastParticipant, hget]
  rfl

/-- After the demotion there is a row, which is left if it was. -/
theorem participant_demoted (h : CohostRemoved db now b u false d) :
    ChatRepository.isBroadcastParticipant d b u =
      ((db.participants.get (b, u)).bind BroadcastParticipant.leftAt).isNone := by
  have hget : d.participants.get (b, u) = some (upserted db (cohostInput now b u .participant)) := by
    rw [h, if_neg Bool.false_ne_true]
    exact get_put_upserted
  rw [ChatRepository.isBroadcastParticipant, hget, Option.any_some, upserted_leftAt]
  rfl

theorem participant_demoted_iff (h : CohostRemoved db now b u false d) :
    (ChatRepository.isBroadcastParticipant db b u = false →
      ChatRepository.isBroadcastParticipant d b u = false) ↔
        (db.participants.get (b, u)).isSome = true := by
  rw [participant_demoted h, ChatRepository.isBroadcastParticipant]
  cases db.participants.get (b, u) with
  | none => simp
  | some p => simp [Option.isSome_iff_ne_none]

end Participants

/-! ## Exactly when -/

section Ok

variable {db : BroadcastDb} {t now : OffsetDateTime} {faults : List Bool} {around : Surroundings ι}
  {b u r : Uuid} {fromRoom : Bool}

/-- The tables after a call that returns `Ok`. -/
theorem removeCohost_ok
    (hok : ((removeCohost now b u r fromRoom).answer ServiceState.handle
      (.start db t faults around)).1 = .ok ()) :
    let d := ((removeCohost now b u r fromRoom).answer ServiceState.handle
      (.start db t faults around)).2.db
    isCohost db b u = false ∧ d = db ∨
      isCohost db b u = true ∧ CohostRemoved db now b u fromRoom d := by
  have hrun := ServiceState.answer_tables (removeCohost now b u r fromRoom) db t faults around
  rw [removeCohost_tables] at hrun
  have hends : Txn.EndsAt broadcastEngine faults t
    (BroadcastService.removeCohost now b u r fromRoom) _ _ 0 db none := removeCohost_endsAt fromRoom
  obtain ⟨_, _, hend⟩ := Txn.run_endsAt hends
  rw [hrun, hok] at hend
  obtain hsame | ⟨hcommits, hremoved⟩ := hend
  · exact .inl hsame
  · exact .inr ⟨hcommits.cohost, hremoved⟩

end Ok

/-- A removal that returns `Ok` takes only away exactly when the user is `Removable` before. -/
theorem removeCohost_takesAway_iff (db : BroadcastDb) (t now : OffsetDateTime) (faults : List Bool)
    (around : Surroundings ι) (b u r : Uuid) (fromRoom : Bool)
    (hok : ((removeCohost now b u r fromRoom).answer ServiceState.handle
      (.start db t faults around)).1 = .ok ()) :
    TakesAway (.start db t faults around) ((removeCohost now b u r fromRoom).answer
        ServiceState.handle (.start db t faults around)).2 b u fromRoom ↔
      Removable (.start db t faults around) b u fromRoom := by
  have hroom := removeCohost_inRoom (.start db t faults around) now b u r b u fromRoom
  have hrows := removeCohost_ok hok
  revert hroom hrows
  generalize ((removeCohost now b u r fromRoom).answer ServiceState.handle
    (.start db t faults around)).2 = after
  intro hroom hrows
  have hpart : after.db = db → ChatRepository.isBroadcastParticipant after.db b u =
      ChatRepository.isBroadcastParticipant db b u :=
    congrArg fun d => ChatRepository.isBroadcastParticipant d b u
  cases fromRoom with
  | true =>
    obtain ⟨hnot, hsame⟩ | ⟨hcohost, hremoved⟩ := hrows
    · -- nothing is done for who is no cohost
      have hpart := hpart hsame
      constructor
      · intro h
        exact ⟨fun hin => (h.leaves rfl).2 (hroom.2 hin), .inr (hpart ▸ (h.leaves rfl).1)⟩
      · rintro ⟨hout, hcohost | hgone⟩
        · exact absurd (hcohost.symm.trans hnot) (by decide)
        · exact ⟨fun _ => hpart.trans hgone, fun _ => ⟨hpart.trans hgone, fun hin =>
            hout (hroom.1 hin)⟩⟩
    · have hgone := participant_erased hremoved
      constructor
      · intro h
        exact ⟨fun hin => (h.leaves rfl).2 (hroom.2 hin), .inl hcohost⟩
      · rintro ⟨hout, -⟩
        exact ⟨fun _ => hgone, fun _ => ⟨hgone, fun hin => hout (hroom.1 hin)⟩⟩
  | false =>
    obtain ⟨hnot, hsame⟩ | ⟨hcohost, hremoved⟩ := hrows
    · constructor
      · intro _ hcohost
        exact absurd (hcohost.symm.trans hnot) (by decide)
      · intro _
        exact ⟨fun hgone => (hpart hsame).trans hgone, fun h => absurd h (by decide)⟩
    · have hiff := participant_demoted_iff hremoved
      constructor
      · intro h _
        exact hiff.1 h.participation
      · intro h
        exact ⟨hiff.2 (h hcohost), fun h => absurd h (by decide)⟩

/-! ## Cohosts who are removed -/

/-- User 1 has created broadcast 9 with user 2 as a cohost, and is live. -/
def cohostInvited : List BroadcastOp :=
  [.create 1 1 ⟨9⟩ { morningPrayer with cohosts := some [⟨2⟩] } ⟨1⟩, .start 2 ⟨9⟩ ⟨1⟩]

/-- One instance, with some users in the room of broadcast 9. -/
def oneInstance (room : Ws.UserSet) : Surroundings Empty where
  node := {
    hub := { Ws.WsService.new with rooms := .put .empty { broadcastId := ⟨9⟩, members := room } }
    channels := .empty
    inbox := []
    redis := { roomMembers := fun _ => room, buffers := fun _ => [] } }
  others := Empty.elim
  published := []
  jobs := []
  spawned := []
  outages := []

/-- A cohost who is there, and whose connection is not. -/
theorem cohost_taken_away :
    TakesAway (.start (storeAfter (cohostInvited ++ [.join 3 ⟨9⟩ ⟨2⟩])) 4 [] (oneInstance .empty))
      ((removeCohost 4 ⟨9⟩ ⟨2⟩ ⟨1⟩ true).answer ServiceState.handle
        (.start (storeAfter (cohostInvited ++ [.join 3 ⟨9⟩ ⟨2⟩])) 4 [] (oneInstance .empty))).2
      ⟨9⟩ ⟨2⟩ true := by
  refine (removeCohost_takesAway_iff _ 4 4 [] (oneInstance .empty) ⟨9⟩ ⟨2⟩ ⟨1⟩ true rfl).2 ⟨?_, ?_⟩
  · rintro (h | h | ⟨i, _⟩)
    · exact absurd h (by decide)
    · exact absurd h (by decide)
    · exact i.elim
  · exact .inl (by decide)

/-- A cohost who has never joined takes part once demoted, and one who is to leave stays in the
room. -/
theorem cohost_kept :
    (((removeCohost 3 ⟨9⟩ ⟨2⟩ ⟨1⟩ false).answer ServiceState.handle
        (.start (storeAfter cohostInvited) 3 [] (oneInstance .empty))).1 = .ok () ∧
      ¬TakesAway (.start (storeAfter cohostInvited) 3 [] (oneInstance .empty))
        ((removeCohost 3 ⟨9⟩ ⟨2⟩ ⟨1⟩ false).answer ServiceState.handle
          (.start (storeAfter cohostInvited) 3 [] (oneInstance .empty))).2 ⟨9⟩ ⟨2⟩ false) ∧
    (((removeCohost 4 ⟨9⟩ ⟨2⟩ ⟨1⟩ true).answer ServiceState.handle
        (.start (storeAfter (cohostInvited ++ [.join 3 ⟨9⟩ ⟨2⟩])) 4 [] (oneInstance (.put .empty ⟨2⟩)))).1 =
          .ok () ∧
      ¬TakesAway
        (.start (storeAfter (cohostInvited ++ [.join 3 ⟨9⟩ ⟨2⟩])) 4 [] (oneInstance (.put .empty ⟨2⟩)))
        ((removeCohost 4 ⟨9⟩ ⟨2⟩ ⟨1⟩ true).answer ServiceState.handle
          (.start (storeAfter (cohostInvited ++ [.join 3 ⟨9⟩ ⟨2⟩])) 4 []
            (oneInstance (.put .empty ⟨2⟩)))).2 ⟨9⟩ ⟨2⟩ true) := by
  refine ⟨⟨rfl, fun h => ?_⟩, rfl, fun h => ?_⟩
  · exact absurd (h.participation (by decide)) (by decide)
  · refine (h.leaves rfl).2 ((removeCohost_inRoom _ _ _ _ _ _ _ _).2 (.inl ?_))
    decide

end Meno
