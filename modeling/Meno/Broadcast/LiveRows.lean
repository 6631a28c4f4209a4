import Meno.Broadcast.LiveCount
import Meno.Broadcast.Ending

/-!
# Meno.Broadcast.LiveRows

What the operations do to the number of live rows of a broadcast. An upsert adds one when the user
has no row, and none when a row is there, whether it is live or left over; a removal takes away the
row that is there; the end leaves none. An operation on another broadcast changes nothing.
-/

namespace Meno

open Lib BroadcastRepository BroadcastService

/-! ## The tables -/

section Rows

variable {db d : BroadcastDb} {b u : Uuid}

open BroadcastParticipant (livesIn)

theorem liveRows_congr (h : SameRows db d) (b : Uuid) : liveRows d b = liveRows db b :=
  Table.countP_congr fun k => BroadcastDb.participant_of_look (h (.participant k.1 k.2))

theorem liveRows_upsert {input : UpsertParticipantInput}
    (h : d.participants = db.participants.put (upserted db input)) :
    liveRows d input.broadcastId = liveRows db input.broadcastId +
      if db.participants.get (input.broadcastId, input.participantId) = none then 1 else 0 := by
  have hput := Table.countP_put db.participants (livesIn input.broadcastId) (upserted db input)
  rw [upserted_key, ← h] at hput
  unfold liveRows
  cases hp : db.participants.get (input.broadcastId, input.participantId) with
  | none =>
    have hone : Table.one (livesIn input.broadcastId) (some (upserted db input)) = 1 := by
      simp [Table.one, livesIn, upserted, hp]
    rw [hp, hone] at hput
    simpa using hput
  | some p =>
    have hone : Table.one (livesIn input.broadcastId) (some (upserted db input)) =
        Table.one (livesIn input.broadcastId) (some p) := by
      simp [Table.one, livesIn, upserted, hp]
    rw [hp, hone] at hput
    simpa using hput

theorem liveRows_upsert_new {input : UpsertParticipantInput}
    (h : d.participants = db.participants.put (upserted db input))
    (hnew : db.participants.get (input.broadcastId, input.participantId) = none) :
    liveRows d input.broadcastId = liveRows db input.broadcastId + 1 := by
  rw [liveRows_upsert h, if_pos hnew]

theorem liveRows_upsert_old {input : UpsertParticipantInput}
    (h : d.participants = db.participants.put (upserted db input))
    (hold : db.participants.get (input.broadcastId, input.participantId) ≠ none) :
    liveRows d input.broadcastId = liveRows db input.broadcastId := by
  rw [liveRows_upsert h, if_neg hold, Nat.add_zero]

theorem liveRows_erase (h : d.participants = db.participants.erase (b, u)) :
    liveRows d b + Table.one (livesIn b) (db.participants.get (b, u)) = liveRows db b := by
  have herase := Table.countP_erase db.participants (livesIn b) (b, u)
  rwa [← h] at herase

theorem liveRows_erase_live {p : BroadcastParticipant} (hp : db.participants.get (b, u) = some p)
    (hleft : p.leftAt = none) (h : d.participants = db.participants.erase (b, u)) :
    liveRows d b + 1 = liveRows db b := by
  have hkey : p.key = (b, u) := Table.key_of_get hp
  have hb : p.broadcastId = b := (Prod.mk.inj hkey).1
  have hone : Table.one (livesIn b) (some p) = 1 := by simp [Table.one, livesIn, hb, hleft]
  have herase := liveRows_erase h
  rwa [hp, hone] at herase

theorem liveRows_eq_zero (h : ∀ p ∈ d.participants.rows, p.broadcastId = b → p.leftAt ≠ none) :
    liveRows d b = 0 := by
  refine List.countP_eq_zero.2 fun p hp hlive => ?_
  obtain ⟨hb, hleft⟩ : p.broadcastId = b ∧ p.leftAt = none := by simpa [livesIn] using hlive
  exact h p hp hb hleft

/-- A write elsewhere. -/
theorem liveRows_apply {w : BroadcastWrite} (hw : ∀ u, w.key ≠ .participant b u) :
    liveRows (db.apply w) b = liveRows db b := by
  have helse : ∀ {k : Uuid × Uuid}, k.1 ≠ b →
      Table.one (livesIn b) (db.participants.get k) = 0 := by
    intro k hk
    cases hp : db.participants.get k with
    | none => rfl
    | some p =>
      have hb : p.broadcastId = k.1 := congrArg Prod.fst (Table.key_of_get hp)
      simp [Table.one, livesIn, hb, hk]
  cases w with
  | participant row =>
    have hb : row.broadcastId ≠ b := fun h => hw row.participantId (by rw [← h]; rfl)
    have hput := Table.countP_put db.participants (livesIn b) row
    have hone : Table.one (livesIn b) (some row) = 0 := by simp [Table.one, livesIn, hb]
    rw [helse (k := row.key) hb, hone] at hput
    exact hput
  | dropParticipant b' u =>
    have hb : b' ≠ b := fun h => hw u (by rw [← h]; rfl)
    have herase := Table.countP_erase db.participants (livesIn b) (b', u)
    rw [helse (k := (b', u)) hb] at herase
    exact herase
  | _ => rfl

end Rows

/-! ## The statements -/

section Statements

variable {db : BroadcastDb} {t : OffsetDateTime} {b u : Uuid} {ws : List BroadcastWrite}

theorem removeParticipant_ok (h : removeParticipant db t b u = .ok ((), ws)) :
    (broadcastEngine.applyAll db ws).participants = db.participants.erase (b, u) := by
  unfold removeParticipant at h
  split at h
  · cases h
    have hcount : (broadcastEngine.applyAll (db.apply (.dropParticipant b u))
        (countParticipant db t b (-1))).participants =
        (db.apply (.dropParticipant b u)).participants := by
      refine participants_applyAll fun w hw b' u' he => ?_
      rw [countParticipant_touches w hw] at he
      cases he
    exact hcount
  · rename_i hnone
    cases h
    exact (Table.erase_of_none (by simpa using hnone)).symm

/-- A row after `get_participant_ids_and_clear` has `left_at`, or was not a live one before. -/
theorem clear_ok {ids : List Uuid} (h : getParticipantIdsAndClear db t b = .ok (ids, ws)) :
    ∀ p ∈ (broadcastEngine.applyAll db ws).participants.rows, p.broadcastId = b →
      p.leftAt ≠ none := by
  cases h
  have key : ∀ (ps : List BroadcastParticipant) (d : BroadcastDb),
      ∀ p ∈ (broadcastEngine.applyAll d (ps.map fun q =>
        .participant { q with leftAt := some t })).participants.rows, p.leftAt = none →
        p ∈ d.participants.rows ∧ ∀ q ∈ ps, p.key ≠ q.key := by
    intro ps
    induction ps with
    | nil =>
      intro d p hp _
      exact ⟨hp, by simp⟩
    | cons q ps ih =>
      intro d p hp hleft
      obtain ⟨hmem, hne⟩ := ih _ p hp hleft
      rcases Table.mem_put_rows.1 hmem with rfl | ⟨hmem, hkey⟩
      · cases hleft
      · exact ⟨hmem, List.forall_mem_cons.2 ⟨hkey, hne⟩⟩
  intro p hp hb hleft
  obtain ⟨hmem, hne⟩ := key _ _ p hp hleft
  exact hne p (List.mem_filter.2 ⟨hmem, by simp [hb, hleft]⟩) rfl

end Statements

/-! ## Operations on another broadcast -/

/-- The broadcast whose participants an operation may change. -/
def BroadcastOp.room : BroadcastOp → Option Uuid
  | .start _ b _ => some b
  | .endBroadcast _ b _ => some b
  | .join _ b _ => some b
  | .leave _ b _ => some b
  | .addCohost _ b _ _ => some b
  | .removeCohost _ b _ _ _ => some b
  | _ => none

section Elsewhere

variable {db : BroadcastDb} {t : OffsetDateTime} {b u : Uuid} {op : BroadcastOp}

theorem room_of_writes {β : Type} {s : BroadcastStmt β} (h : op.Writes s)
    (ht : s.Touches (.participant b u)) : op.room = some b := by
  cases s with
  | upsertParticipant input =>
    obtain ⟨rfl, rfl⟩ : b = input.broadcastId ∧ u = input.participantId := by
      simpa [BroadcastStmt.Touches] using ht
    cases op <;> first
      | exact congrArg some h.symm
      | cases h
  | removeParticipant id v =>
    obtain ⟨rfl, rfl⟩ : b = id ∧ u = v := by simpa [BroadcastStmt.Touches] using ht
    cases op <;> first
      | exact congrArg some h.symm
      | cases h
  | getParticipantIdsAndClear id =>
    obtain rfl : b = id := by simpa [BroadcastStmt.Touches] using ht
    cases op <;> first
      | exact congrArg some h.symm
      | cases h
  | _ => simp [BroadcastStmt.Touches] at ht

theorem liveRows_elsewhere (h : op.room ≠ some b) (faults : List Bool) :
    liveRows (op.run t faults db).2 b = liveRows db b := by
  let kept (d : BroadcastDb) : Prop := liveRows d b = liveRows db b
  let elsewhere (w : BroadcastWrite) : Prop := ∀ u, w.key ≠ .participant b u
  have happly : ∀ d w, kept d → elsewhere w → kept (broadcastEngine.apply d w) :=
    fun d w hd hw => (liveRows_apply hw).trans hd
  refine Txn.run_invariant happly ?_ (uses_writes op) rfl faults
  intro β s hs d a ws _ he w hw u hk
  exact h (room_of_writes hs (hk ▸ exec_touches he w hw))

/-- No operation writes a key of Redis. -/
theorem keys_op (op : BroadcastOp) (faults : List Bool) :
    (op.run t faults db).2.keys = db.keys := by
  let kept (d : BroadcastDb) : Prop := d.keys = db.keys
  have happly : ∀ d w, kept d → True → kept (broadcastEngine.apply d w) :=
    fun d w hd _ => (BroadcastDb.keys_apply d w).trans hd
  exact Txn.run_invariant happly (fun _ _ _ _ _ _ _ _ _ => trivial) (uses_writes op) rfl faults

end Elsewhere

/-! ## Operations on the broadcast -/

section Join

variable {db : BroadcastDb} {t now : OffsetDateTime} {b u : Uuid} {faults : List Bool}

theorem joinRespond_reads (r : Broadcast × ParticipantRole × Token) :
    Act.Uses (Txn.OnPool fun s => BroadcastStmt.isRead s = true) (joinRespond now b u r) := by
  have hread : ∀ {β : Type} (s : BroadcastStmt β), s.isRead = true →
      Txn.OnPool (fun s => BroadcastStmt.isRead s = true)
        (.exec .pool s : Cmd BroadcastStmt DbError _) := fun _ h => h
  refine Act.uses_bind (uses_lookup rfl) fun _ => Act.uses_bind (uses_lookup rfl) fun _ => ?_
  refine Act.uses_bind (uses_lookup rfl) fun _ => Act.uses_bind (uses_found _ _) fun _ => ?_
  refine Act.uses_bind (Act.uses_ofExcept _) fun _ => Act.uses_bind (Act.uses_ofExcept _) fun _ => ?_
  refine Act.uses_bind (Act.uses_ask rfl) fun _ => ?_
  exact Act.uses_bind (uses_buildCtx hread _ _ _ _ _) fun _ => Act.uses_pure _

/-- What a join does it has done at its commit. -/
theorem run_join (db : BroadcastDb) (t now : OffsetDateTime) (b u : Uuid) (faults : List Bool) :
    let out := Txn.run broadcastEngine (joinCommit now b u) db t faults
    ((BroadcastOp.join now b u).run t faults db).2 = out.2 ∧
      (JoinReaches db b u faults ∧ out.1.isOk = true ∧
          out.2.participants = db.participants.put (upserted db (joinInput db now b u)) ∨
        ¬JoinReaches db b u faults ∧ out.1.isOk = false ∧ out.2 = db) := by
  constructor
  · have hread : ∀ {β : Type} (s : BroadcastStmt β), s.isRead = true → ∀ t d a ws,
        broadcastEngine.exec s t d = .ok (a, ws) → ws = [] := fun _ hs _ _ _ _ he => exec_read hs he
    have hjoin : (BroadcastOp.join now b u).run t faults db =
        ((Txn.run broadcastEngine (join now b u) db t faults).1.map .session,
          (Txn.run broadcastEngine (join now b u) db t faults).2) :=
      Txn.run_map BroadcastAnswer.session _ db t faults
    rw [hjoin, join_eq]
    exact Txn.run_bind_reads hread joinRespond_reads db t faults
  · have hend := @joinCommit_endsAt db t now b u faults
    obtain ⟨_, _, h⟩ := Txn.run_endsAt hend
    revert h
    generalize Txn.run broadcastEngine (joinCommit now b u) db t faults = out
    obtain ⟨e | r, d⟩ := out
    · rintro ⟨hno, hd⟩
      exact .inr ⟨hno, rfl, hd⟩
    · rintro ⟨hreaches, -, -, -, ws, hws, rfl⟩
      exact .inl ⟨hreaches, rfl, (upsertParticipant_ok hws).participants⟩

end Join

section Start

variable {db : BroadcastDb} {t now : OffsetDateTime} {b u : Uuid} {faults : List Bool}

/-- A start succeeds, or fails after its commit, or changes nothing. -/
theorem run_start (db : BroadcastDb) (t now : OffsetDateTime) (b u : Uuid) (faults : List Bool) :
    let out := (BroadcastOp.start now b u).run t faults db
    out.1.isOk = true ∧ StartCommits db b u faults ∧ Starts db t now b u out.2 ∧
        (∃ row, out.2.broadcasts.get b = some row ∧ row.status = .active) ∨
      out.1.isOk = false ∧ (SameRows db out.2 ∨ StartCommits db b u faults ∧ Fails faults 9) := by
  have hstart : Txn.EndsAt broadcastEngine faults t (start now b u) _ _ 0 db none := start_endsAt
  have hactivates : Txn.Ends broadcastEngine false t (start now b u) _ _ db none := start_activates
  have hspec := Txn.run_map_ends hactivates BroadcastAnswer.session faults (by simp)
  rcases Txn.run_map_endsAt hstart BroadcastAnswer.session with
    ⟨hok, _, _, _, hcommits, -⟩ | ⟨hno, _, _, _, ⟨-, hsame⟩ | ⟨hcommits, hlate, -⟩⟩
  · rcases hspec with ⟨-, _, _, hstarts, hrow⟩ | ⟨hno, -⟩
    · exact .inl ⟨hok, hcommits, hstarts, hrow⟩
    · rw [hok] at hno
      cases hno
  · exact .inr ⟨hno, .inl hsame.rows⟩
  · exact .inr ⟨hno, .inr ⟨hcommits, hlate⟩⟩

end Start

section Leave

variable {db : BroadcastDb} {t now : OffsetDateTime} {b u : Uuid} {faults : List Bool}

theorem leave_ends : Txn.Ends broadcastEngine false t (leave now b u)
    (fun _ d _ => leaves db b u = false ∧ d = db ∨
      leaves db b u = true ∧ d.participants = db.participants.erase (b, u))
    (fun _ d _ => d = db) db none := by
  refine Txn.ends_bind (ends_lookup rfl fun broadcastResult hb => ?_)
  refine Txn.ends_bind (ends_lookup rfl fun userResult hu => ?_)
  refine Txn.ends_bind (ends_lookup rfl fun participantResult hp => ?_)
  refine Txn.ends_bind (ends_found hb (fun row hrow => ?_) (fun _ => rfl) fun _ => rfl)
  refine Txn.ends_bind (ends_found hu (fun _ _ => ?_) (fun _ => rfl) fun _ => rfl)
  refine Txn.ends_bind (ends_found hp (fun p hp => ?_) (fun _ => rfl) fun _ => rfl)
  have hleaves : leaves db b u = !(row.isNotActive || p.leftAt.isSome) := by
    simp [leaves, hrow, hp]
  cases hstay : row.isNotActive || p.leftAt.isSome with
  | true => exact Txn.ends_pure (.inl ⟨by rw [hleaves, hstay]; rfl, rfl⟩)
  | false =>
    refine Txn.ends_bind (Txn.ends_pool (fun _ ws hws => ?_) (fun _ _ => rfl) fun _ => rfl)
    exact Txn.ends_pure (.inr ⟨by rw [hleaves, hstay]; rfl, removeParticipant_ok hws⟩)

/-- Who leaves has a live row in a live broadcast. -/
theorem of_leaves (h : leaves db b u = true) :
    (∃ row, findById db b = some row ∧ row.status = .active) ∧
      ∃ p, db.participants.get (b, u) = some p ∧ p.leftAt = none := by
  unfold leaves at h
  cases hrow : findById db b with
  | none => simp [hrow] at h
  | some row =>
    cases hp : findParticipant db b u with
    | none => simp [hrow, hp] at h
    | some p =>
      simp only [hrow, hp, Bool.not_or, Bool.and_eq_true, Bool.not_eq_true'] at h
      exact ⟨⟨row, rfl, by simpa [Broadcast.isNotActive] using h.1⟩, p, hp, by simpa using h.2⟩

end Leave

/-! ### Cohosts -/

/-- The cohost is added: the creator's call for another user, not yet a cohost, of a broadcast that
is live and has room; the calls do not fail, but for that of the limit, the fourth. -/
structure AddCohostCommits (db : BroadcastDb) (b r u : Uuid) (faults : List Bool) : Prop where
  fresh : isCohost db b u = false
  row : ∃ row, findById db b = some row ∧ row.status = .active ∧ row.creatorId = r ∧
    row.creatorId ≠ u
  user : ∃ user, findUserSummary db u = some user
  inviter : (db.users.get r).isSome = true
  room : Fails faults 3 ∨ (getCohosts db b).length ≠ maxCohosts
  calls : ∀ n ∈ [0, 1, 2, 4, 5, 6, 7, 8], ¬Fails faults n

/-- The cohost is removed: the creator's call for a cohost of a broadcast that is live, none of the
first seven calls fails, and the participant's row can be written. -/
structure RemoveCohostCommits (db : BroadcastDb) (b u r : Uuid) (faults : List Bool) : Prop where
  cohost : isCohost db b u = true
  row : ∃ row, findById db b = some row ∧ row.status = .active ∧ row.creatorId = r
  user : ∃ user, findUserSummary db u = some user
  calls : ∀ n < 7, ¬Fails faults n

section Cohosts

variable {db : BroadcastDb} {t now : OffsetDateTime} {b r u : Uuid} {faults : List Bool}

def cohostInput (now : OffsetDateTime) (b u : Uuid) (role : ParticipantRole) :
    UpsertParticipantInput where
  broadcastId := b
  participantId := u
  role
  joinedAt := now

theorem endsAt_refuseFull {n k : Nat} {d : BroadcastDb} {txn : Option (List BroadcastWrite)}
    {us : List UserSummary} {result : Except BroadcastError (List UserSummary)}
    {P : Unit → Nat → BroadcastDb → Option (List BroadcastWrite) → Prop}
    {F : BroadcastError → Nat → BroadcastDb → Option (List BroadcastWrite) → Prop}
    (hr : OutcomeAt faults k us result) (hno : Fails faults k ∨ us.length ≠ maxCohosts → P () n d txn)
    (hfull : ¬Fails faults k → us.length = maxCohosts → ∀ e, F e n d txn) :
    Txn.EndsAt broadcastEngine faults t (refuseFull result) P F n d txn := by
  rcases hr with ⟨hk, rfl⟩ | ⟨hk, rfl⟩
  · refine endsAt_refuse (fun hlen => hno (.inr ?_)) fun hlen => hfull hk ?_ _
    · simpa using hlen
    · simpa using hlen
  · exact Txn.endsAt_pure (hno (.inl hk))

/-- Whoever adds a cohost is a user. -/
theorem inviter_of_addCohosts {ws : List BroadcastWrite} (hfresh : isCohost db b u = false)
    (h : BroadcastRepository.addCohosts db t b r [u] = .ok ((), ws)) :
    (db.users.get r).isSome = true := by
  have hnone : (db.cohosts.get (b, u)).isSome = false := hfresh
  simp only [BroadcastRepository.addCohosts, hnone, Bool.false_eq_true, if_false, bind_eq_ok] at h
  obtain ⟨_, _, _, _, _, hr, _⟩ := h
  exact checkUser_eq_ok.1 hr

theorem addCohost_endsAt : Txn.EndsAt broadcastEngine faults t (addCohost now b r u)
    (fun _ _ d _ => AddCohostCommits db b r u faults ∧ d.participants =
      db.participants.put (upserted db (cohostInput now b u .cohost)))
    (fun _ _ d _ => ¬AddCohostCommits db b r u faults ∧ d = db) 0 db none := by
  have hcall : ∀ n ∈ [0, 1, 2, 4, 5, 6, 7, 8], Fails faults n →
      ¬AddCohostCommits db b r u faults ∧ db = db :=
    fun n hn hf => ⟨fun hc => hc.calls n hn hf, rfl⟩
  refine Txn.endsAt_bind (Txn.endsAt_read rfl (fun h₀ => ?_) (hcall 0 (by simp)))
  refine Txn.endsAt_bind (endsAt_refuse (fun hfresh => ?_) fun hcohost => ?_)
  swap
  · refine ⟨fun hc => ?_, rfl⟩
    have hfresh := hc.fresh
    simp [hfresh] at hcohost
  refine Txn.endsAt_bind (endsAt_lookup rfl fun broadcastResult hb => ?_)
  refine Txn.endsAt_bind (endsAt_lookup rfl fun userResult hu => ?_)
  refine Txn.endsAt_bind (endsAt_lookup rfl fun cohostsResult hco => ?_)
  refine Txn.endsAt_bind (endsAt_found hb (fun h₁ row hrow => ?_) (fun hnone => ?_)
    (hcall 1 (by simp)))
  swap
  · refine ⟨fun hc => ?_, rfl⟩
    obtain ⟨_, hrow, _⟩ := hc.row
    rw [hnone] at hrow
    cases hrow
  refine Txn.endsAt_bind (endsAt_found hu (fun h₂ user huser => ?_) (fun hnone => ?_)
    (hcall 2 (by simp)))
  swap
  · refine ⟨fun hc => ?_, rfl⟩
    obtain ⟨_, huser⟩ := hc.user
    rw [hnone] at huser
    cases huser
  refine Txn.endsAt_bind (endsAt_refuseFull hco (fun hroom => ?_) fun h₃ hfull _ => ?_)
  swap
  · exact ⟨fun hc => hc.room.elim h₃ fun hne => hne hfull, rfl⟩
  refine Txn.endsAt_bind (endsAt_refuse (fun hlive => ?_) fun hinactive => ?_)
  swap
  · refine ⟨fun hc => ?_, rfl⟩
    have hst := (of_found hrow hc.row).1
    simp [hst] at hinactive
  refine Txn.endsAt_bind (endsAt_refuse (fun howner => ?_) fun hother => ?_)
  swap
  · refine ⟨fun hc => ?_, rfl⟩
    have hown := (of_found hrow hc.row).2.1
    simp [hown] at hother
  refine Txn.endsAt_bind (endsAt_refuse (fun hne => ?_) fun hself => ?_)
  swap
  · refine ⟨fun hc => ?_, rfl⟩
    have hne := (of_found hrow hc.row).2.2
    simp [hne] at hself
  refine Txn.endsAt_bind (endsAt_mintToken (fun h₄ => ?_) (hcall 4 (by simp)))
  refine Txn.endsAt_bind (Txn.endsAt_begin (fun h₅ => ?_) (hcall 5 (by simp)))
  have hget := Option.isSome_of_eq_some (Option.filter_eq_some_iff.1 hrow).1
  have husers : ∀ v ∈ [u], (db.users.get v).isSome = true := by simpa using user_of_summary huser
  refine Txn.endsAt_bind (Txn.endsAt_tx (fun h₆ _ ws hws => ?_) (fun _ e he => ?_)
    (hcall 6 (by simp)))
  swap
  · refine ⟨fun hc => ?_, rfl⟩
    exact addCohosts_error [u] hget hc.inviter husers he
  have hbroadcasts : (broadcastEngine.applyAll db ws).broadcasts = db.broadcasts :=
    addCohosts_broadcasts hws
  have hparticipants : (broadcastEngine.applyAll db ws).participants = db.participants := by
    refine participants_applyAll fun w hw b' u' he => ?_
    obtain ⟨v, hv⟩ := addCohosts_touches [u] hws w hw
    rw [hv] at he
    cases he
  refine Txn.endsAt_bind (Txn.endsAt_tx (fun h₇ _ ws' hws' => ?_) (fun _ e he => ?_)
    (hcall 7 (by simp)))
  swap
  · refine absurd he (upsertParticipant_error ?_ ?_)
    · rw [List.nil_append, hbroadcasts]
      exact hget
    · rw [users_applyAll]
      exact user_of_summary huser
  refine Txn.endsAt_bind (Txn.endsAt_commit (fun h₈ => ?_) (hcall 8 (by simp)))
  refine Txn.endsAt_pure ⟨?_, ?_⟩
  · refine ⟨hfresh, ⟨row, hrow, by simpa using hlive, by simpa using howner, by simpa using hne⟩,
      ⟨user, huser⟩, ?_, hroom, ?_⟩
    · exact inviter_of_addCohosts hfresh hws
    · intro n hn
      simp only [List.mem_cons, List.not_mem_nil, or_false] at hn
      rcases hn with rfl | rfl | rfl | rfl | rfl | rfl | rfl | rfl <;> assumption
  · rw [List.nil_append] at hws' ⊢
    rw [broadcastEngine.applyAll_append, (upsertParticipant_ok hws').participants, hparticipants,
      upserted_congr hparticipants]
    rfl

/-- The participants after a cohost is removed. -/
def CohostRemoved (db : BroadcastDb) (now : OffsetDateTime) (b u : Uuid) (fromRoom : Bool)
    (d : BroadcastDb) : Prop :=
  d.participants = if fromRoom then db.participants.erase (b, u)
    else db.participants.put (upserted db (cohostInput now b u .participant))

theorem removeCohost_participants {ws : List BroadcastWrite}
    (h : BroadcastRepository.removeCohost db b u = .ok ((), ws)) :
    (broadcastEngine.applyAll db ws).participants = db.participants ∧
      (broadcastEngine.applyAll db ws).broadcasts = db.broadcasts := by
  have htouches := exec_touches (s := .removeCohost b u) (t := 0) h
  constructor
  · refine participants_applyAll fun w hw b' u' he => ?_
    rw [htouches w hw] at he
    cases he
  · refine broadcasts_applyAll fun w hw id he => ?_
    rw [htouches w hw] at he
    cases he

theorem removeCohost_endsAt (fromRoom : Bool) :
    Txn.EndsAt broadcastEngine faults t (removeCohost now b u r fromRoom)
      (fun _ _ d _ => isCohost db b u = false ∧ d = db ∨
        RemoveCohostCommits db b u r faults ∧ CohostRemoved db now b u fromRoom d)
      (fun _ _ d _ => ¬RemoveCohostCommits db b u r faults ∧ d = db ∨
        RemoveCohostCommits db b u r faults ∧ fromRoom = false ∧
          CohostRemoved db now b u fromRoom d) 0 db none := by
  have hcall : ∀ n < 7, Fails faults n → ¬RemoveCohostCommits db b u r faults ∧ db = db ∨
      RemoveCohostCommits db b u r faults ∧ fromRoom = false ∧
        CohostRemoved db now b u fromRoom db :=
    fun n hn hf => .inl ⟨fun hc => hc.calls n hn hf, rfl⟩
  refine Txn.endsAt_bind (endsAt_lookup rfl fun broadcastResult hb => ?_)
  refine Txn.endsAt_bind (endsAt_lookup rfl fun userResult hu => ?_)
  refine Txn.endsAt_bind (endsAt_lookup rfl fun isCohostResult hco => ?_)
  refine Txn.endsAt_bind (endsAt_found hb (fun h₀ row hrow => ?_) (fun hnone => ?_)
    (hcall 0 (by omega)))
  swap
  · refine .inl ⟨fun hc => ?_, rfl⟩
    obtain ⟨_, hrow, _⟩ := hc.row
    rw [hnone] at hrow
    cases hrow
  refine Txn.endsAt_bind (endsAt_found hu (fun h₁ user huser => ?_) (fun hnone => ?_)
    (hcall 1 (by omega)))
  swap
  · refine .inl ⟨fun hc => ?_, rfl⟩
    obtain ⟨_, huser⟩ := hc.user
    rw [hnone] at huser
    cases huser
  refine Txn.endsAt_bind (endsAt_outcome hco (fun h₂ => ?_) (hcall 2 (by omega)))
  refine Txn.endsAt_bind (endsAt_refuse (fun hlive => ?_) fun hinactive => ?_)
  swap
  · refine .inl ⟨fun hc => ?_, rfl⟩
    have hst := (of_found hrow hc.row).1
    simp [hst] at hinactive
  refine Txn.endsAt_bind (endsAt_refuse (fun howner => ?_) fun hother => ?_)
  swap
  · refine .inl ⟨fun hc => ?_, rfl⟩
    have hown := (of_found hrow hc.row).2
    simp [hown] at hother
  cases hcohost : isCohost db b u with
  | false => exact Txn.endsAt_pure (.inl ⟨rfl, rfl⟩)
  | true =>
    have hget := Option.isSome_of_eq_some (Option.filter_eq_some_iff.1 hrow).1
    refine Txn.endsAt_bind (Txn.endsAt_begin (fun h₃ => ?_) (hcall 3 (by omega)))
    refine Txn.endsAt_bind (Txn.endsAt_tx (fun h₄ _ ws hws => ?_) (fun _ e he => ?_)
      (hcall 4 (by omega)))
    swap
    · simp only [broadcastEngine, BroadcastStmt.exec, BroadcastRepository.removeCohost] at he
      split at he <;> cases he
    rw [List.nil_append]
    obtain ⟨hparticipants, hbroadcasts⟩ :
        (broadcastEngine.applyAll db ws).participants = db.participants ∧
          (broadcastEngine.applyAll db ws).broadcasts = db.broadcasts :=
      removeCohost_participants hws
    have hcommits : (¬Fails faults 5) → (¬Fails faults 6) → RemoveCohostCommits db b u r faults := by
      intro h₅ h₆
      refine ⟨hcohost, ⟨row, hrow, by simpa using hlive, by simpa using howner⟩, ⟨user, huser⟩, ?_⟩
      intro n hn
      interval_cases n <;> assumption
    cases fromRoom with
    | true =>
      refine Txn.endsAt_bind (Txn.endsAt_tx (fun h₅ _ ws' hws' => ?_) (fun _ e he => ?_)
        (hcall 5 (by omega)))
      swap
      · simp only [broadcastEngine, BroadcastStmt.exec, removeParticipant] at he
        split at he <;> cases he
      refine Txn.endsAt_bind (Txn.endsAt_commit (fun h₆ => ?_) (hcall 6 (by omega)))
      refine Txn.endsAt_bind (endsAt_lookup rfl fun _ _ => Txn.endsAt_pure ?_)
      refine .inr ⟨hcommits h₅ h₆, ?_⟩
      rw [CohostRemoved, broadcastEngine.applyAll_append, removeParticipant_ok hws', hparticipants]
      rfl
    | false =>
      refine Txn.endsAt_bind (Txn.endsAt_tx (fun h₅ _ ws' hws' => ?_) (fun _ e he => ?_)
        (hcall 5 (by omega)))
      swap
      · refine absurd he (upsertParticipant_error ?_ ?_)
        · rw [hbroadcasts]
          exact hget
        · rw [users_applyAll]
          exact user_of_summary huser
      refine Txn.endsAt_bind (Txn.endsAt_commit (fun h₆ => ?_) (hcall 6 (by omega)))
      have hremoved : CohostRemoved db now b u false (broadcastEngine.applyAll db (ws ++ ws')) := by
        rw [CohostRemoved, broadcastEngine.applyAll_append,
          (upsertParticipant_ok hws').participants, hparticipants, upserted_congr hparticipants]
        rfl
      refine Txn.endsAt_bind (endsAt_lookup rfl fun _ _ => ?_)
      refine Txn.endsAt_bind (endsAt_mintToken (fun _ => ?_) fun _ => ?_)
      · exact Txn.endsAt_pure (.inr ⟨hcommits h₅ h₆, hremoved⟩)
      · exact .inr ⟨hcommits h₅ h₆, rfl, hremoved⟩

end Cohosts

section End

variable {db : BroadcastDb} {t now : OffsetDateTime} {b u : Uuid}

/-- An end that ends well leaves no live row. -/
theorem endBroadcast_clears : Txn.Ends broadcastEngine false t (endBroadcast now b u)
    (fun _ d _ => liveRows d b = 0) (fun _ _ _ => True) db none := by
  refine Txn.ends_bind (Txn.ends_read rfl ?_ fun _ => trivial)
  refine Txn.ends_bind (ends_okOr (fun row _ => ?_) fun _ => trivial)
  refine Txn.ends_bind (ends_refuse (fun _ => ?_) fun _ => trivial)
  refine Txn.ends_bind (ends_refuse (fun _ => ?_) fun _ => trivial)
  refine Txn.ends_bind (Txn.ends_begin ?_ fun _ => trivial)
  refine Txn.ends_bind (Txn.ends_tx (fun ids ws hws => ?_) (fun _ _ => trivial) fun _ => trivial)
  refine Txn.ends_bind (Txn.ends_tx (fun n ws' hws' => ?_) (fun _ _ => trivial) fun _ => trivial)
  refine Txn.ends_bind (Txn.ends_commit ?_ fun _ => trivial)
  rw [List.nil_append] at hws' ⊢
  have hclear : liveRows (broadcastEngine.applyAll db (ws ++ ws')) b = 0 := by
    rw [broadcastEngine.applyAll_append]
    refine liveRows_eq_zero ?_
    rw [participants_applyAll fun w hw b' u' he => ?_]
    · exact clear_ok hws
    · rw [exec_touches (s := .setInactive b .normal) hws' w hw] at he
      cases he
  cases row.recordingEnabled with
  | true => exact Txn.ends_bind (ends_existsOrFalse rfl fun _ => Txn.ends_pure hclear)
  | false => exact Txn.ends_bind (Txn.ends_pure (Txn.ends_pure hclear))

end End


end Meno
