import Meno.Broadcast.Participation

/-!
# Meno.Broadcast.Control

Who controls a broadcast: only its creator. Six operations compare the requester with the creator,
each at a place of its own among the other early exits. `stranger_refused` follows all of them:
whatever the store holds and whichever calls fail, a requester who is not the creator gets an error,
and no row has changed.
-/

namespace Meno

open Lib BroadcastService BroadcastRepository

/-- The user is not the creator of a broadcast that has the id. -/
def NotCreatorOf (db : BroadcastDb) (id u : Uuid) : Prop :=
  ∀ b, db.broadcasts.get id = some b → b.creatorId ≠ u

/-- The operation controls a broadcast, and the requester is not the creator of that. -/
def BroadcastOp.ByStranger (db : BroadcastDb) : BroadcastOp → Prop
  | .start _ id u => NotCreatorOf db id u
  | .endBroadcast _ id u => NotCreatorOf db id u
  | .update _ _ id u => NotCreatorOf db id u
  | .delete id u => NotCreatorOf db id u
  | .addCohost _ id requesterId _ => NotCreatorOf db id requesterId
  | .removeCohost _ id _ requesterId _ => NotCreatorOf db id requesterId
  | _ => False

theorem NotCreatorOf.of_found {db : BroadcastDb} {id u : Uuid} (h : NotCreatorOf db id u)
    {b : Broadcast} (hb : findById db id = some b) : b.creatorId ≠ u :=
  h b (Option.filter_eq_some_iff.1 hb).1

/-- The program ends in an error, and the store is `db` as before. -/
def Denied {α : Type} (t : OffsetDateTime) (db : BroadcastDb) (x : BroadcastSvc α) : Prop :=
  Txn.Ends broadcastEngine false t x (fun _ _ _ => False) (fun _ d _ => d = db) db none

namespace BroadcastService

section Denied

variable {db : BroadcastDb} {t now : OffsetDateTime} {id u v : Uuid}

theorem deletedAt_of_found {b : Broadcast} (hb : findById db id = some b) : b.deletedAt = none := by
  have hlive := (Option.filter_eq_some_iff.1 hb).2
  simpa using hlive

/-- The ownership test: what comes after it is not reached. -/
theorem denied_notCreator {α : Type} {error : BroadcastError} {b : Broadcast}
    {f : Unit → BroadcastSvc α} (h : b.creatorId ≠ u) :
    Denied t db (refuse error (b.creatorId != u) >>= f) := by
  refine Txn.ends_bind (ends_refuse (fun hsame => ?_) fun _ => rfl)
  exact absurd (by simpa using hsame) h

/-- A test before it: it refuses, or the program goes on. -/
theorem denied_refuse {α : Type} {error : BroadcastError} {cond : Bool} {f : Unit → BroadcastSvc α}
    (h : cond = false → Denied t db (f ())) : Denied t db (refuse error cond >>= f) :=
  Txn.ends_bind (ends_refuse h fun _ => rfl)

theorem denied_read {α β : Type} {s : BroadcastStmt β} {a : β} {f : β → BroadcastSvc α}
    (hs : s.exec t db = .ok (a, [])) (h : Denied t db (f a)) :
    Denied t db (query .pool s >>= f) :=
  Txn.ends_bind (Txn.ends_read hs h fun _ => rfl)

theorem denied_lookup {α β : Type} {s : BroadcastStmt β} {a : β}
    {f : Except BroadcastError β → BroadcastSvc α} (hs : s.exec t db = .ok (a, []))
    (h : ∀ r, Outcome false a r → Denied t db (f r)) : Denied t db (lookup s >>= f) :=
  Txn.ends_bind (ends_lookup hs h)

theorem denied_outcome {α β : Type} {a : β} {r : Except BroadcastError β} {f : β → BroadcastSvc α}
    (hr : Outcome false a r) (h : Denied t db (f a)) : Denied t db (Act.ofExcept r >>= f) :=
  Txn.ends_bind (ends_outcome hr h fun _ => rfl)

theorem denied_found {α β : Type} {error : BroadcastError} {o : Option β}
    {r : Except BroadcastError (Option β)} {f : β → BroadcastSvc α} (hr : Outcome false o r)
    (h : ∀ a, o = some a → Denied t db (f a)) : Denied t db (found error r >>= f) :=
  Txn.ends_bind (ends_found hr h (fun _ => rfl) fun _ => rfl)

theorem denied_okOr {α β : Type} {error : BroadcastError} {o : Option β} {f : β → BroadcastSvc α}
    (h : ∀ a, o = some a → Denied t db (f a)) : Denied t db (okOr error o >>= f) :=
  Txn.ends_bind (ends_okOr h fun _ => rfl)

variable (h : NotCreatorOf db id u)
include h

theorem update_denied (req : UpdateBroadcastRequest) : Denied t db (update now req id u) := by
  refine denied_lookup rfl fun broadcastResult hb => denied_lookup rfl fun creatorResult hc => ?_
  refine denied_found hb fun b hrow => denied_found hc fun creator _ => ?_
  exact denied_notCreator (h.of_found hrow)

/-- The early `Ok` for a deleted broadcast is not reached: the lookup finds none. -/
theorem delete_denied : Denied t db (delete id u) := by
  refine denied_lookup rfl fun broadcastResult hb => denied_lookup rfl fun creatorResult hc => ?_
  refine denied_found hb fun b hrow => denied_found hc fun creator _ => ?_
  have hlive : b.deletedAt.isSome = false := by rw [deletedAt_of_found hrow]; rfl
  simp only [hlive, Bool.false_eq_true, if_false]
  refine denied_refuse fun _ => ?_
  exact denied_notCreator (h.of_found hrow)

theorem start_denied : Denied t db (start now id u) := by
  refine denied_lookup rfl fun broadcastResult hb => denied_lookup rfl fun creatorResult hc => ?_
  refine denied_found hb fun b hrow => denied_found hc fun creator _ => ?_
  exact denied_notCreator (h.of_found hrow)

theorem endBroadcast_denied : Denied t db (endBroadcast now id u) := by
  refine denied_read rfl (denied_okOr fun b hrow => ?_)
  exact denied_notCreator (h.of_found hrow)

theorem addCohost_denied : Denied t db (addCohost now id u v) := by
  refine denied_read rfl (denied_refuse fun _ => ?_)
  refine denied_lookup rfl fun broadcastResult hb => denied_lookup rfl fun cohostResult hc => ?_
  refine denied_lookup rfl fun cohostsResult _ => ?_
  refine denied_found hb fun b hrow => denied_found hc fun cohost _ => ?_
  refine Txn.ends_bind (ends_refuseFull (fun _ => ?_) fun _ => rfl)
  refine denied_refuse fun _ => ?_
  exact denied_notCreator (h.of_found hrow)

/-- The ownership test stands before the early `Ok` for a user who is no cohost. -/
theorem removeCohost_denied (fromRoom : Bool) : Denied t db (removeCohost now id v u fromRoom) := by
  refine denied_lookup rfl fun broadcastResult hb => denied_lookup rfl fun cohostResult hc => ?_
  refine denied_lookup rfl fun isCohostResult hi => ?_
  refine denied_found hb fun b hrow => denied_found hc fun cohost _ => ?_
  refine denied_outcome hi (denied_refuse fun _ => ?_)
  exact denied_notCreator (h.of_found hrow)

end Denied

end BroadcastService

/-- What `Denied` says of a run of the operation that has the program. -/
theorem run_of_denied {α : Type} {x : BroadcastSvc α} {g : α → BroadcastAnswer} {t : OffsetDateTime}
    {db : BroadcastDb} (h : Denied t db x) (faults : List Bool) :
    ∃ e, Txn.run broadcastEngine (x >>= fun a => pure (g a)) db t faults = (.error e, db) := by
  have hdenied : Denied t db (x >>= fun a => pure (g a)) :=
    Txn.ends_bind (Txn.ends_mono h (fun _ _ _ hno => hno.elim) fun _ _ _ hd => hd)
  obtain ⟨_, hend⟩ := Txn.run_ends faults hdenied (fun hc => by cases hc)
  revert hend
  rcases Txn.run broadcastEngine (x >>= fun a => pure (g a)) db t faults with ⟨e | a, d⟩
  · rintro rfl
    exact ⟨e, rfl⟩
  · exact False.elim

/-- Start, end, update, delete, add_cohost and remove_cohost by anybody but the broadcast's creator
are refused and change no row, from every store and whichever calls fail. -/
theorem stranger_refused (op : BroadcastOp) (db : BroadcastDb) (t : OffsetDateTime)
    (faults : List Bool) (h : op.ByStranger db) : ∃ e, op.run t faults db = (.error e, db) := by
  cases op with
  | start now id u => exact run_of_denied (start_denied h) faults
  | endBroadcast now id u => exact run_of_denied (endBroadcast_denied h) faults
  | update now req id u => exact run_of_denied (update_denied h req) faults
  | delete id u => exact run_of_denied (delete_denied h) faults
  | addCohost now id requesterId cohostId => exact run_of_denied (addCohost_denied h) faults
  | removeCohost now id cohostId requesterId fromRoom =>
    exact run_of_denied (removeCohost_denied h fromRoom) faults
  | create now later id req c => exact h.elim
  | join now id u => exact h.elim
  | leave now id u => exact h.elim
  | refreshToken now id u => exact h.elim

/-- The store after user 1 has created broadcast 8. -/
def draftOfOne : BroadcastDb :=
  (BroadcastOp.run (.create 1 1 ⟨8⟩ morningPrayer ⟨1⟩) 1 [] (.ofUsers twoUsers)).2

/-- User 2 may not delete it. -/
theorem stranger_cannot_delete :
    ∃ e, BroadcastOp.run (.delete ⟨8⟩ ⟨2⟩) 3 [] draftOfOne = (.error e, draftOfOne) := by
  refine stranger_refused (.delete ⟨8⟩ ⟨2⟩) draftOfOne 3 [] ?_
  intro b hb
  cases hb
  decide

end Meno
