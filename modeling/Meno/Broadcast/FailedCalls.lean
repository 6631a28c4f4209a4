import Meno.Lib.Faults
import Meno.Broadcast.Participation
import Meno.Broadcast.Writes
import Mathlib.Data.List.Dedup
import Mathlib.Tactic.IntervalCases

/-!
# Meno.Broadcast.FailedCalls

What a failed operation leaves behind. `create`, `start` and `join` commit their transaction and
then go on asking the database and Redis for the response; a call that fails there, or a creator who
is not found there, makes the operation report an error for what it has done. For each of the three
it is said which calls come before the commit, which come after, and that nothing else goes wrong.
-/

namespace Meno

open Lib BroadcastRepository BroadcastService

/-! ## Traces -/

/-- The rows of the three tables are the same. -/
def SameRows (db db' : BroadcastDb) : Prop := ∀ k, db'.look k = db.look k

/-- The call was refused for what was done before. -/
def Refused {α : Type} (r : Except BroadcastError α) : Prop :=
  r = .error .alreadyLive ∨ r = .error .alreadyParticipant

/-- The rows of `d` are those of `db`, and making the call on it (with any clock, and any failing
calls) is not refused unless it would have been on `db`. -/
structure Harmless {κ α : Type} (call : κ → BroadcastSvc α) (db d : BroadcastDb) : Prop where
  rows : SameRows db d
  again : ∀ k t faults, Refused (Txn.run broadcastEngine (call k) d t faults).1 →
    Refused (Txn.run broadcastEngine (call k) db t faults).1

/-- A call that ends with an error has changed no row, and no repeat is refused because of it. -/
def NoTrace {κ α : Type} (call : κ → BroadcastSvc α) (k : κ) (t : OffsetDateTime)
    (faults : List Bool) (db : BroadcastDb) : Prop :=
  ∀ e, (Txn.run broadcastEngine (call k) db t faults).1 = .error e →
    Harmless call db (Txn.run broadcastEngine (call k) db t faults).2

/-- The call fails without a change of the rows, or it fails after it has committed one. -/
def Trace {κ α : Type} (call : κ → BroadcastSvc α) (commits after : Prop) (db d : BroadcastDb) :
    Prop :=
  ¬commits ∧ Harmless call db d ∨ commits ∧ after ∧ ¬SameRows db d

section Trace

variable {κ α : Type} {call : κ → BroadcastSvc α} {k : κ} {t : OffsetDateTime}
  {faults : List Bool} {db d : BroadcastDb} {commits after : Prop}

theorem Harmless.refl (call : κ → BroadcastSvc α) (db : BroadcastDb) : Harmless call db db :=
  ⟨fun _ => rfl, fun _ _ _ h => h⟩

/-- Before the commit. -/
theorem trace_of_not (h : ¬commits) : Trace call commits after db db := .inl ⟨h, .refl call db⟩

theorem not_sameRows {k : BroadcastKey} (h : d.look k ≠ db.look k) : ¬SameRows db d :=
  fun hsame => h (hsame k)

theorem look_ne {b : Uuid} {row row' : Broadcast} (h : db.broadcasts.get b = some row)
    (h' : d.broadcasts.get b = some row') (hst : row'.status ≠ row.status) :
    d.look (.broadcast b) ≠ db.look (.broadcast b) := by
  intro hsame
  have hrows : some row' = some row := h'.symm.trans ((BroadcastDb.broadcast_of_look hsame).trans h)
  cases hrows
  exact hst rfl

theorem noTrace_iff_of_endsAt
    (h : Txn.EndsAt broadcastEngine faults t (call k) (fun _ _ _ _ => ¬(commits ∧ after))
      (fun _ _ d _ => Trace call commits after db d) 0 db none) :
    NoTrace call k t faults db ↔ ¬(commits ∧ after) := by
  obtain ⟨m, txn, hend⟩ := Txn.run_endsAt h
  unfold NoTrace
  revert hend
  generalize Txn.run broadcastEngine (call k) db t faults = out
  obtain ⟨e | a, d⟩ := out
  · rintro (⟨hno, hd⟩ | ⟨hcommits, hafter, hd⟩)
    · exact iff_of_true (fun _ _ => hd) fun hboth => hno hboth.1
    · refine iff_of_false ?_ fun hno => hno ⟨hcommits, hafter⟩
      intro hall
      exact hd (hall e rfl).rows
  · intro hno
    exact iff_of_true (fun _ h => by cases h) hno

end Trace

/-! ## Start -/

/-- The start commits: it is the creator's, of a broadcast that is not live, and none of its first
nine calls fails. -/
structure StartCommits (db : BroadcastDb) (b u : Uuid) (faults : List Bool) : Prop where
  row : ∃ row, findById db b = some row ∧ row.creatorId = u ∧ row.status = .inactive
  user : ∃ user, findUserSummary db u = some user
  calls : ∀ n < 9, ¬Fails faults n

section Start

variable {db : BroadcastDb} {t now : OffsetDateTime} {b u : Uuid} {faults : List Bool}

/-- What is said of the broadcast that is there is said of the one that was found. -/
theorem of_found {P : Broadcast → Prop} {row : Broadcast} (hrow : findById db b = some row)
    (h : ∃ row', findById db b = some row' ∧ P row') : P row := by
  obtain ⟨row', hrow', hP⟩ := h
  rw [hrow] at hrow'
  cases hrow'
  exact hP

theorem user_of_summary {user : UserSummary} (h : findUserSummary db u = some user) :
    (db.users.get u).isSome = true := by
  unfold findUserSummary at h
  cases hu : db.users.get u with
  | none => simp [hu] at h
  | some r => rfl

/-- An upsert fails only when the broadcast or the user is missing. -/
theorem upsertParticipant_error {input : UpsertParticipantInput} {e : DbError}
    (hrow : (db.broadcasts.get input.broadcastId).isSome = true)
    (huser : (db.users.get input.participantId).isSome = true) :
    upsertParticipant db t input ≠ .error e := by
  unfold upsertParticipant
  cases db.participants.get (input.broadcastId, input.participantId) with
  | some p => simp
  | none => simp [checkBroadcast, checkUser, hrow, huser, ok_bind, pure_ok]

theorem start_endsAt : Txn.EndsAt broadcastEngine faults t (start now b u)
    (fun _ _ _ _ => StartCommits db b u faults ∧ ¬Fails faults 9)
    (fun _ _ d _ => Trace (fun now => start now b u) (StartCommits db b u faults)
      (Fails faults 9) db d) 0 db none := by
  have hcall : ∀ n < 9, Fails faults n →
      Trace (fun now => start now b u) (StartCommits db b u faults) (Fails faults 9) db db :=
    fun n hn hf => trace_of_not fun hc => hc.calls n hn hf
  refine Txn.endsAt_bind (endsAt_lookup rfl fun broadcastResult hb => ?_)
  refine Txn.endsAt_bind (endsAt_lookup rfl fun creatorResult hu => ?_)
  refine Txn.endsAt_bind (endsAt_found hb (fun h₀ row hrow => ?_) (fun hnone => ?_)
    (hcall 0 (by omega)))
  swap
  · refine trace_of_not fun hc => ?_
    obtain ⟨_, hrow, _⟩ := hc.row
    rw [hnone] at hrow
    cases hrow
  refine Txn.endsAt_bind (endsAt_found hu (fun h₁ creator hcreator => ?_) (fun hnone => ?_)
    (hcall 1 (by omega)))
  swap
  · refine trace_of_not fun hc => ?_
    obtain ⟨_, huser⟩ := hc.user
    rw [hnone] at huser
    cases huser
  refine Txn.endsAt_bind (endsAt_refuse (fun howner => ?_) fun hother => ?_)
  swap
  · refine trace_of_not fun hc => ?_
    have hown := (of_found hrow hc.row).1
    simp [hown] at hother
  refine Txn.endsAt_bind (endsAt_refuse (fun hinactive => ?_) fun hactive => ?_)
  swap
  · refine trace_of_not fun hc => ?_
    have hst := (of_found hrow hc.row).2
    simp [hst] at hactive
  have hst : row.status = .inactive := by
    cases h : row.status with
    | inactive => rfl
    | active => simp [h] at hinactive
  obtain ⟨hget, -⟩ := Option.filter_eq_some_iff.1 hrow
  have hid := findUserSummary_id hcreator
  subst hid
  refine Txn.endsAt_bind (endsAt_createRoom (fun h₂ h₃ => ?_) (hcall 2 (by omega))
    (hcall 3 (by omega)))
  refine Txn.endsAt_bind (endsAt_mintToken (fun h₄ => ?_) (hcall 4 (by omega)))
  refine Txn.endsAt_bind (Txn.endsAt_begin (fun h₅ => ?_) (hcall 5 (by omega)))
  refine Txn.endsAt_bind (Txn.endsAt_tx (fun h₆ row' ws hws => ?_) (fun _ e he => ?_)
    (hcall 6 (by omega)))
  swap
  · -- the row is there
    simp [broadcastEngine, Engine.applyAll, BroadcastStmt.exec, setActive, hget] at he
  obtain ⟨hget', hactive, husers⟩ := setActive_row hget hws
  refine Txn.endsAt_bind (Txn.endsAt_tx (fun h₇ _ ws' hws' => ?_) (fun _ e he => ?_)
    (hcall 7 (by omega)))
  swap
  · refine absurd he (upsertParticipant_error ?_ ?_)
    · exact Option.isSome_of_eq_some hget'
    · exact husers ▸ user_of_summary hcreator
  refine Txn.endsAt_bind (Txn.endsAt_commit (fun h₈ => ?_) (hcall 8 (by omega)))
  have hcommits : StartCommits db b creator.id faults := {
    row := ⟨row, hrow, by simpa using howner, hst⟩
    user := ⟨creator, hcreator⟩
    calls := by
      intro n hn
      interval_cases n <;> assumption }
  refine Txn.endsAt_bind (Txn.endsAt_read rfl (fun h₉ => ?_) fun h₉ => ?_)
  · exact Txn.endsAt_pure ⟨hcommits, h₉⟩
  · refine .inr ⟨hcommits, h₉, not_sameRows (k := .broadcast b) ?_⟩
    obtain ⟨row'', hget'', n, t', hre⟩ := (upsertParticipant_ok hws').broadcasts b row' hget'
    rw [List.nil_append, broadcastEngine.applyAll_append]
    have hst'' : row''.status ≠ row.status := by
      rw [hst, hre, hactive]
      decide
    exact look_ne hget hget'' hst''

end Start

/-! ## Join -/

/-- The user's row after a join. -/
def joined (db : BroadcastDb) (now : OffsetDateTime) (b u : Uuid) : BroadcastParticipant :=
  upserted db {
    broadcastId := b, participantId := u, role := joinRole (isCohost db b u), joinedAt := now }

/-- The join commits a change: it is a user's who is in no broadcast, of one that is live and of
another creator, none of its first eight calls fails, and the row left over from an earlier session,
if there is one, is not the very row that the join writes. -/
structure JoinCommits (db : BroadcastDb) (now : OffsetDateTime) (b u : Uuid) (faults : List Bool) :
    Prop where
  row : ∃ row, findById db b = some row ∧ row.status = .active ∧ row.creatorId ≠ u
  user : ∃ user, findUserSummary db u = some user
  free : findActiveParticipant db u = none
  changes : db.participants.get (b, u) ≠ some (joined db now b u)
  calls : ∀ n < 8, ¬Fails faults n

/-- The creator is not found for the response, or a call fails on the way to it. That of
`host_grace`, the twelfth, is answered by `false`. -/
def JoinFailsLate (db : BroadcastDb) (b : Uuid) (faults : List Bool) : Prop :=
  (∃ row, findById db b = some row ∧ findUserSummary db row.creatorId = none) ∨
    ∃ n ∈ [8, 9, 10, 11, 13, 14], Fails faults n

section Join

variable {db : BroadcastDb} {t now : OffsetDateTime} {b u : Uuid} {faults : List Bool}

theorem endsAt_alreadyIn {n : Nat} {d : BroadcastDb} {txn : Option (List BroadcastWrite)}
    {o : Option BroadcastParticipant}
    {P : Unit → Nat → BroadcastDb → Option (List BroadcastWrite) → Prop}
    {F : BroadcastError → Nat → BroadcastDb → Option (List BroadcastWrite) → Prop}
    (hnone : o = none → P () n d txn) (hsome : ∀ e, o ≠ none → F e n d txn) :
    Txn.EndsAt broadcastEngine faults t (alreadyIn b o) P F n d txn := by
  cases o with
  | none => exact Txn.endsAt_pure (hnone rfl)
  | some p =>
    by_cases hb : p.broadcastId = b
    · simp only [alreadyIn, hb, if_true]
      exact Txn.endsAt_throw (hsome _ (by simp))
    · simp only [alreadyIn, hb, if_false]
      exact Txn.endsAt_throw (hsome _ (by simp))

/-- An upsert that writes the row that is there. -/
theorem sameRows_of_upsert {input : UpsertParticipantInput} {p : BroadcastParticipant}
    {ws : List BroadcastWrite} (hsame : upserted db input = p)
    (hp : db.participants.get (input.broadcastId, input.participantId) = some p)
    (h : upsertParticipant db t input = .ok ((), ws)) :
    SameRows db (broadcastEngine.applyAll db ws) := by
  have hkey : p.key = (input.broadcastId, input.participantId) := Table.key_of_get hp
  simp only [upserted, hp] at hsame
  simp only [upsertParticipant, hp, hsame] at h
  cases h
  intro k
  refine (BroadcastDb.look_apply db (.participant p) k).trans ?_
  by_cases hk : k = .participant p.broadcastId p.participantId
  · subst hk
    refine (if_pos rfl).trans ?_
    show _ = (db.participants.get p.key).map _
    rw [hkey, hp]
    rfl
  · exact if_neg hk

/-- A user who is in no broadcast can join. -/
theorem join_not_refused (hfree : findActiveParticipant db u = none) :
    ¬Refused (Txn.run broadcastEngine (join now b u) db t faults).1 := by
  have h : Txn.Ends broadcastEngine false t (join now b u) (fun _ _ _ => True)
      (fun e _ _ => e ≠ .alreadyLive ∧ e ≠ .alreadyParticipant) db none := by
    have hdb : BroadcastError.database .infrastructure ≠ .alreadyLive ∧
        BroadcastError.database .infrastructure ≠ .alreadyParticipant := by simp
    refine Txn.ends_bind (ends_lookup rfl fun broadcastResult hb => ?_)
    refine Txn.ends_bind (ends_lookup rfl fun userResult hu => ?_)
    refine Txn.ends_bind (ends_lookup rfl fun isCohostResult hc => ?_)
    refine Txn.ends_bind (ends_lookup rfl fun isParticipantResult hp => ?_)
    refine Txn.ends_bind (ends_found hb (fun _ _ => ?_) (by simp) fun _ => hdb)
    refine Txn.ends_bind (ends_found hu (fun _ _ => ?_) (by simp) fun _ => hdb)
    refine Txn.ends_bind (ends_outcome hc ?_ fun _ => hdb)
    refine Txn.ends_bind (ends_refuse (fun _ => ?_) (by simp))
    refine Txn.ends_bind (ends_refuse (fun _ => ?_) (by simp))
    refine Txn.ends_bind (ends_outcome hp ?_ fun _ => hdb)
    refine Txn.ends_bind (alreadyIn_ends (fun _ => ?_) ?_ ?_)
    · refine Txn.ends_bind (ends_mintToken ?_ (by simp))
      refine Txn.ends_bind (Txn.ends_begin ?_ fun _ => hdb)
      refine Txn.ends_bind (Txn.ends_tx (fun _ ws _ => ?_) (by simp) fun _ => hdb)
      refine Txn.ends_bind (Txn.ends_commit ?_ fun _ => hdb)
      refine Txn.ends_bind (ends_lookup rfl fun creatorResult hcr => ?_)
      refine Txn.ends_bind (ends_lookup rfl fun cohostsResult hco => ?_)
      refine Txn.ends_bind (ends_lookup rfl fun totalCountResult htc => ?_)
      refine Txn.ends_bind (ends_found hcr (fun _ _ => ?_) (by simp) fun _ => hdb)
      refine Txn.ends_bind (ends_outcome hco ?_ fun _ => hdb)
      refine Txn.ends_bind (ends_outcome htc ?_ fun _ => hdb)
      refine Txn.ends_bind (Txn.ends_read rfl ?_ (by simp))
      refine Txn.ends_bind (ends_buildCtx (fun ctx => ?_) fun _ => hdb)
      exact Txn.ends_pure trivial
    · intro p hsome
      rw [hfree] at hsome
      cases hsome
    · intro p hsome
      rw [hfree] at hsome
      cases hsome
  obtain ⟨_, h⟩ := Txn.run_ends faults h (by simp)
  rintro (hre | hre)
  · rw [hre] at h
    exact h.1 rfl
  · rw [hre] at h
    exact h.2 rfl

/-- What a join looks for, and the calls up to its commit: it is a user's who is in no broadcast, of
one that is live and of another creator, and none of the eight calls fails. -/
structure JoinReaches (db : BroadcastDb) (b u : Uuid) (faults : List Bool) : Prop where
  row : ∃ row, findById db b = some row ∧ row.status = .active ∧ row.creatorId ≠ u
  user : ∃ user, findUserSummary db u = some user
  free : findActiveParticipant db u = none
  calls : ∀ n < 8, ¬Fails faults n

theorem joinCommits_iff : JoinCommits db now b u faults ↔
    JoinReaches db b u faults ∧ db.participants.get (b, u) ≠ some (joined db now b u) := by
  constructor
  · intro h
    exact ⟨⟨h.row, h.user, h.free, h.calls⟩, h.changes⟩
  · rintro ⟨h, hch⟩
    exact ⟨h.row, h.user, h.free, hch, h.calls⟩

/-- What a join asks to upsert. -/
def joinInput (db : BroadcastDb) (now : OffsetDateTime) (b u : Uuid) : UpsertParticipantInput where
  broadcastId := b
  participantId := u
  role := joinRole (isCohost db b u)
  joinedAt := now

theorem joinCommit_endsAt : Txn.EndsAt broadcastEngine faults t (joinCommit now b u)
    (fun r n d txn => JoinReaches db b u faults ∧ findById db b = some r.1 ∧ n = 8 ∧ txn = none ∧
      ∃ ws, upsertParticipant db t (joinInput db now b u) = .ok ((), ws) ∧
        d = broadcastEngine.applyAll db ws)
    (fun _ _ d _ => ¬JoinReaches db b u faults ∧ d = db) 0 db none := by
  have hcall : ∀ n < 8, Fails faults n → ¬JoinReaches db b u faults ∧ db = db :=
    fun n hn hf => ⟨fun hc => hc.calls n hn hf, rfl⟩
  refine Txn.endsAt_bind (endsAt_lookup rfl fun broadcastResult hb => ?_)
  refine Txn.endsAt_bind (endsAt_lookup rfl fun userResult hu => ?_)
  refine Txn.endsAt_bind (endsAt_lookup rfl fun isCohostResult hc => ?_)
  refine Txn.endsAt_bind (endsAt_lookup rfl fun isParticipantResult hp => ?_)
  refine Txn.endsAt_bind (endsAt_found hb (fun h₀ row hrow => ?_) (fun hnone => ?_)
    (hcall 0 (by omega)))
  swap
  · refine ⟨fun hc => ?_, rfl⟩
    obtain ⟨_, hrow, _⟩ := hc.row
    rw [hnone] at hrow
    cases hrow
  refine Txn.endsAt_bind (endsAt_found hu (fun h₁ user huser => ?_) (fun hnone => ?_)
    (hcall 1 (by omega)))
  swap
  · refine ⟨fun hc => ?_, rfl⟩
    obtain ⟨_, huser⟩ := hc.user
    rw [hnone] at huser
    cases huser
  refine Txn.endsAt_bind (endsAt_outcome hc (fun h₂ => ?_) (hcall 2 (by omega)))
  refine Txn.endsAt_bind (endsAt_refuse (fun hlive => ?_) fun hinactive => ?_)
  swap
  · refine ⟨fun hc => ?_, rfl⟩
    have hst := (of_found hrow hc.row).1
    simp [hst] at hinactive
  refine Txn.endsAt_bind (endsAt_refuse (fun hother => ?_) fun hown => ?_)
  swap
  · refine ⟨fun hc => ?_, rfl⟩
    have hne := (of_found hrow hc.row).2
    simp [hne] at hown
  refine Txn.endsAt_bind (endsAt_outcome hp (fun h₃ => ?_) (hcall 3 (by omega)))
  refine Txn.endsAt_bind (endsAt_alreadyIn (fun hfree => ?_) fun _ hin => ?_)
  swap
  · exact ⟨fun hc => hin hc.free, rfl⟩
  refine Txn.endsAt_bind (endsAt_mintToken (fun h₄ => ?_) (hcall 4 (by omega)))
  refine Txn.endsAt_bind (Txn.endsAt_begin (fun h₅ => ?_) (hcall 5 (by omega)))
  refine Txn.endsAt_bind (Txn.endsAt_tx (fun h₆ _ ws hws => ?_) (fun _ e he => ?_)
    (hcall 6 (by omega)))
  swap
  · obtain ⟨hget, -⟩ := Option.filter_eq_some_iff.1 hrow
    exact absurd he (upsertParticipant_error (Option.isSome_of_eq_some hget) (user_of_summary huser))
  refine Txn.endsAt_bind (Txn.endsAt_commit (fun h₇ => ?_) (hcall 7 (by omega)))
  refine Txn.endsAt_pure ⟨?_, hrow, rfl, rfl, ws, hws, rfl⟩
  exact {
    row := ⟨row, hrow, by simpa using hlive, by simpa using hother⟩
    user := ⟨user, huser⟩
    free := hfree
    calls := by
      intro n hn
      interval_cases n <;> assumption }

theorem join_endsAt : Txn.EndsAt broadcastEngine faults t (join now b u)
    (fun _ _ _ _ => ¬(JoinCommits db now b u faults ∧ JoinFailsLate db b faults))
    (fun _ _ d _ => Trace (fun now => join now b u) (JoinCommits db now b u faults)
      (JoinFailsLate db b faults) db d) 0 db none := by
  rw [join_eq]
  refine Txn.endsAt_bind (Txn.endsAt_mono joinCommit_endsAt ?_ ?_)
  swap
  · rintro _ _ _ _ ⟨hno, rfl⟩
    exact trace_of_not fun hc => hno (joinCommits_iff.1 hc).1
  rintro ⟨row, role, token⟩ _ _ _ ⟨hreaches, hrow, rfl, rfl, ws, hws, rfl⟩
  have hups : Upserts db (joined db now b u) (broadcastEngine.applyAll db ws) :=
    upsertParticipant_ok hws
  -- the rest only reads
  have hlate : JoinFailsLate db b faults → Trace (fun now => join now b u)
      (JoinCommits db now b u faults) (JoinFailsLate db b faults) db
      (broadcastEngine.applyAll db ws) := by
    intro hlate
    by_cases hch : db.participants.get (b, u) = some (joined db now b u)
    · have hsame : SameRows db (broadcastEngine.applyAll db ws) := sameRows_of_upsert rfl hch hws
      refine .inl ⟨fun hc => hc.changes hch, hsame, fun _ _ _ hre => ?_⟩
      refine absurd hre (join_not_refused ?_)
      have hfree := hreaches.free
      rw [findActiveParticipant_eq_none] at hfree ⊢
      intro b' p hp
      rw [BroadcastDb.participant_of_look (hsame (.participant b' u))] at hp
      exact hfree b' p hp
    · refine .inr ⟨joinCommits_iff.2 ⟨hreaches, hch⟩, hlate, ?_⟩
      refine not_sameRows (k := .participant b u) fun hsame => hch ?_
      rw [← BroadcastDb.participant_of_look hsame, hups.participants]
      exact get_put_upserted
  have hcall : ∀ n ∈ [8, 9, 10, 11, 13, 14], Fails faults n → Trace (fun now => join now b u)
      (JoinCommits db now b u faults) (JoinFailsLate db b faults) db
      (broadcastEngine.applyAll db ws) :=
    fun n hn hf => hlate (.inr ⟨n, hn, hf⟩)
  refine Txn.endsAt_bind (endsAt_lookup rfl fun creatorResult hcr => ?_)
  refine Txn.endsAt_bind (endsAt_lookup rfl fun cohostsResult hco => ?_)
  refine Txn.endsAt_bind (endsAt_lookup rfl fun totalCountResult htc => ?_)
  have husers : ∀ id, findUserSummary (broadcastEngine.applyAll db ws) id =
      findUserSummary db id := by
    intro id
    rw [findUserSummary, hups.users, findUserSummary]
  refine Txn.endsAt_bind (endsAt_found hcr (fun h₈ creator hcreator => ?_) (fun hnone => ?_)
    (hcall 8 (by simp)))
  swap
  · exact hlate (.inl ⟨row, hrow, (husers _).symm.trans hnone⟩)
  refine Txn.endsAt_bind (endsAt_outcome hco (fun h₉ => ?_) (hcall 9 (by simp)))
  refine Txn.endsAt_bind (endsAt_outcome htc (fun h₁₀ => ?_) (hcall 10 (by simp)))
  refine Txn.endsAt_bind (Txn.endsAt_read rfl (fun h₁₁ => ?_) (hcall 11 (by simp)))
  refine Txn.endsAt_bind (Txn.endsAt_bind (endsAt_existsOrFalse rfl fun isReconnecting => ?_))
  refine Txn.endsAt_bind (Txn.endsAt_bind (endsAt_lookup rfl fun isSubRes hsub => ?_))
  refine Txn.endsAt_bind (endsAt_lookup rfl fun isBmRes hbm => ?_)
  refine Txn.endsAt_bind (endsAt_outcome hsub (fun h₁₃ => ?_) (hcall 13 (by simp)))
  refine Txn.endsAt_bind (endsAt_outcome hbm (fun h₁₄ => ?_) (hcall 14 (by simp)))
  refine Txn.endsAt_pure (Txn.endsAt_pure (Txn.endsAt_pure ?_))
  rintro ⟨-, ⟨row', hrow', hnone⟩ | ⟨n, hn, hf⟩⟩
  · rw [hrow] at hrow'
    cases hrow'
    rw [← husers, hcreator] at hnone
    cases hnone
  · simp only [List.mem_cons, List.not_mem_nil, or_false] at hn
    rcases hn with rfl | rfl | rfl | rfl | rfl | rfl <;> contradiction

end Join

/-! ## Create -/

/-- The row that `create` inserts passes the column and key constraints. -/
structure Insertable (db : BroadcastDb) (id : Uuid) (input : CreateBroadcastInput) : Prop where
  title : storable input.title = true
  texts : ∀ s ∈ [input.description, input.imageId, input.imageUrl, input.timeZone],
    storable (s.getD "") = true
  description : ∃ d, storeDescription input.description = .ok d
  fresh : db.broadcasts.get id = none
  creator : (db.users.get input.creatorId).isSome = true

/-- The cohosts of a request: few enough, without the creator, and all of them users. -/
structure CohostsFound (db : BroadcastDb) (ids : List Uuid) (creatorId : Uuid) : Prop where
  few : ids.length ≤ 3
  others : creatorId ∉ ids
  users : ∀ u ∈ ids, ∃ user, findUserSummary db u = some user

section CreateStatements

variable {db : BroadcastDb} {t : OffsetDateTime} {id : Uuid}

theorem users_applyAll (ws : List BroadcastWrite) :
    (broadcastEngine.applyAll db ws).users = db.users := by
  induction ws generalizing db with
  | nil => rfl
  | cons w ws ih =>
    have hrest : (broadcastEngine.applyAll (db.apply w) ws).users = (db.apply w).users := ih
    exact hrest.trans (BroadcastDb.users_apply db w)

theorem bindText_eq_ok {s : String} {a : Unit} : bindText s = .ok a ↔ storable s = true := by
  unfold bindText
  split <;> simp [*]

theorem checkUser_eq_ok {u : Uuid} {a : Unit} :
    checkUser db u = .ok a ↔ (db.users.get u).isSome = true := by
  unfold checkUser
  split <;> simp [*]

theorem insertable_of_create {input : CreateBroadcastInput} {row : Broadcast}
    {ws : List BroadcastWrite} (h : BroadcastRepository.create db t id input = .ok (row, ws)) :
    Insertable db id input ∧ row.id = id ∧ row.creatorId = input.creatorId ∧
      ws = [.broadcast row] := by
  simp only [BroadcastRepository.create, bind_eq_ok, bindTextOpt, bindText_eq_ok] at h
  obtain ⟨_, h₁, _, h₂, _, h₃, _, h₄, _, h₅, d, hd, h⟩ := h
  by_cases hnew : (db.broadcasts.get id).isSome = true
  · rw [if_pos hnew] at h
    cases h
  · rw [if_neg hnew] at h
    simp only [bind_eq_ok, checkUser_eq_ok, pure_eq_ok, Prod.mk.injEq] at h
    obtain ⟨_, huser, rfl, rfl⟩ := h
    refine ⟨⟨h₁, ?_, ⟨d, hd⟩, by simpa using hnew, huser⟩, rfl, rfl, rfl⟩
    simp [h₂, h₃, h₄, h₅]

theorem create_error {input : CreateBroadcastInput} {e : DbError} (h : Insertable db id input) :
    BroadcastRepository.create db t id input ≠ .error e := by
  obtain ⟨h₁, htexts, ⟨d, hd⟩, hfresh, huser⟩ := h
  simp only [List.mem_cons, List.not_mem_nil, or_false, forall_eq_or_imp, forall_eq] at htexts
  obtain ⟨h₂, h₃, h₄, h₅⟩ := htexts
  simp [BroadcastRepository.create, bindTextOpt, bindText, checkUser, h₁, h₂, h₃, h₄, h₅, hd,
    hfresh, huser, ok_bind, pure_ok]

/-- The users of a batch are as many as its ids when each of them is found. -/
theorem findUsersBatch_length (ids : List Uuid) (hnodup : ids.Nodup) :
    (findUsersBatch db ids).length = ids.length ↔
      ∀ u ∈ ids, ∃ user, findUserSummary db u = some user := by
  let found := (db.users.rows.filter fun u => ids.contains u.id && u.deletedAt.isNone).map User.id
  have hmem : ∀ u, u ∈ found ↔ u ∈ ids ∧ ∃ user, findUserSummary db u = some user := by
    intro u
    simp only [found, List.mem_map, List.mem_filter, Bool.and_eq_true, List.contains_iff_mem,
      findUserSummary, Option.map_eq_some_iff, Option.filter_eq_some_iff]
    constructor
    · rintro ⟨r, ⟨hr, hid, hdel⟩, rfl⟩
      exact ⟨hid, r.summary, r, ⟨Table.mem_rows_iff.1 hr, hdel⟩, rfl⟩
    · rintro ⟨hid, _, r, ⟨hr, hdel⟩, -⟩
      obtain ⟨hrow, rfl⟩ := Table.get_eq_some_iff.1 hr
      exact ⟨r, ⟨hrow, hid, hdel⟩, rfl⟩
  have hfound : found.Nodup := db.users.nodup.sublist (List.filter_sublist.map _)
  have hlen : (findUsersBatch db ids).length = found.length := by simp [findUsersBatch, found]
  have hsub : found.Subperm ids := List.subperm_of_subset hfound fun u hu => ((hmem u).1 hu).1
  rw [hlen]
  constructor
  · intro heq u hu
    exact ((hmem u).1 ((hsub.perm_of_length_le heq.ge).mem_iff.2 hu)).2
  · intro hall
    refine le_antisymm hsub.length_le (List.subperm_of_subset hnodup fun u hu => ?_).length_le
    exact (hmem u).2 ⟨hu, hall u hu⟩

theorem addCohosts_broadcasts {b c : Uuid} {us : List Uuid} {ws : List BroadcastWrite}
    (h : BroadcastRepository.addCohosts db t b c us = .ok ((), ws)) :
    (broadcastEngine.applyAll db ws).broadcasts = db.broadcasts := by
  refine broadcasts_applyAll fun w hw id he => ?_
  obtain ⟨u, hu⟩ := addCohosts_touches us h w hw
  rw [hu] at he
  cases he

/-- With the broadcast and the users there, cohosts can be added. -/
theorem addCohosts_error {b c : Uuid} {e : DbError} (us : List Uuid) :
    ∀ {db : BroadcastDb}, (db.broadcasts.get b).isSome = true → (db.users.get c).isSome = true →
      (∀ u ∈ us, (db.users.get u).isSome = true) →
      BroadcastRepository.addCohosts db t b c us ≠ .error e := by
  induction us with
  | nil =>
    intro db _ _ _ h
    cases h
  | cons u us ih =>
    intro db hb hc hus h
    have hrest := fun db' (hd : db' = db ∨ ∃ row, db' = db.apply (.cohost row)) =>
      show BroadcastRepository.addCohosts db' t b c us ≠ .error e by
        rcases hd with rfl | ⟨row, rfl⟩ <;>
          exact ih hb hc fun v hv => hus v (List.mem_cons_of_mem u hv)
    rw [BroadcastRepository.addCohosts] at h
    split at h
    · exact hrest db (.inl rfl) h
    · simp only [checkBroadcast, hb, checkUser, hc, hus u List.mem_cons_self, if_true, ok_bind] at h
      cases hws : BroadcastRepository.addCohosts (db.apply (.cohost ⟨b, u, c, t, none⟩)) t b c us with
      | ok r =>
        rw [hws] at h
        cases h
      | error e' =>
        rw [hws] at h
        cases h
        exact hrest _ (.inr ⟨_, rfl⟩) hws

end CreateStatements

/-- The calls that a request's cohosts cost, each time: none for none. -/
def cohostCalls (ids : List Uuid) : Nat := if ids.isEmpty then 0 else 1

theorem cohostCalls_cases (ids : List Uuid) :
    ids = [] ∧ cohostCalls ids = 0 ∨ ids ≠ [] ∧ cohostCalls ids = 1 := by
  unfold cohostCalls
  cases ids <;> simp

/-- The input that `create` makes of a request. -/
def createInput (req : CreateBroadcastRequest) (creatorId : Uuid) : CreateBroadcastInput where
  title := req.title
  description := req.description
  imageId := req.imageId
  imageUrl := req.imageUrl
  timeZone := req.timeZone
  startTime := req.startTime
  recordingEnabled := req.recordingEnabled.getD false
  creatorId := creatorId

/-- The call that asks for the creator after the commit. -/
def responseCall (req : CreateBroadcastRequest) : Nat := 4 + 2 * cohostCalls (req.cohosts.getD [])

/-- The create commits: the creator is not live, the request is accepted, its row can be stored, and
no call before the response fails. -/
structure CreateCommits (db : BroadcastDb) (now : OffsetDateTime) (id : Uuid)
    (req : CreateBroadcastRequest) (c : Uuid) (faults : List Bool) : Prop where
  free : isActiveHost db c = false
  ahead : ∀ start, req.startTime = some start → now < start
  cohosts : CohostsFound db (req.cohosts.getD []) c
  insertable : Insertable db id (createInput req c)
  calls : ∀ n < responseCall req, ¬Fails faults n

section Create

variable {db : BroadcastDb} {t now later : OffsetDateTime} {id : Uuid}
  {req : CreateBroadcastRequest} {c : Uuid} {faults : List Bool}

theorem endsAt_deduplicateCohosts {n : Nat} {ids : List Uuid} {d : BroadcastDb}
    {txn : Option (List BroadcastWrite)}
    {P : List UserSummary → Nat → BroadcastDb → Option (List BroadcastWrite) → Prop}
    {F : BroadcastError → Nat → BroadcastDb → Option (List BroadcastWrite) → Prop}
    (hok : CohostsFound d ids c → (ids ≠ [] → ¬Fails faults n) →
      ∀ users, P users (n + cohostCalls ids) d txn)
    (hbad : ¬CohostsFound d ids c → ∀ e m, F e m d txn)
    (hfail : ids ≠ [] → Fails faults n → ∀ e m, F e m d txn) :
    Txn.EndsAt broadcastEngine faults t (deduplicateCohosts ids c) P F n d txn := by
  unfold deduplicateCohosts
  unfold cohostCalls at hok
  cases hids : ids.isEmpty with
  | true =>
    have hnil : ids = [] := by simpa using hids
    subst hnil
    exact Txn.endsAt_pure (hok ⟨by simp, by simp, by simp⟩ (by simp) [])
  | false =>
    have hne : ids ≠ [] := by simpa using hids
    simp only [hids, Bool.false_eq_true, if_false] at hok ⊢
    refine Txn.endsAt_bind (endsAt_refuse (fun hfew => ?_) fun hmany => ?_)
    swap
    · refine hbad (fun h => ?_) _ _
      have hfew := h.few
      have hmany : ids.length > 3 := by simpa using hmany
      omega
    refine Txn.endsAt_bind (endsAt_refuse (fun hothers => ?_) fun hself => ?_)
    swap
    · exact hbad (fun h => h.others (by simpa using hself)) _ _
    have hnodup := List.nodup_dedup (ids.insertionSort (· ≤ ·))
    have hmem : ∀ u, u ∈ (ids.insertionSort (· ≤ ·)).dedup ↔ u ∈ ids := by simp
    refine Txn.endsAt_bind (Txn.endsAt_read rfl (fun hn => ?_) fun hn => hfail hne hn _ _)
    refine Txn.endsAt_bind (endsAt_refuse (fun hlen => ?_) fun hlen => ?_)
    · refine Txn.endsAt_pure (hok ⟨by simpa using hfew, by simpa using hothers, ?_⟩ (fun _ => hn) _)
      have hall := (findUsersBatch_length _ hnodup).1 (by simpa using hlen)
      exact fun u hu => hall u ((hmem u).2 hu)
    · refine hbad (fun h => ?_) _ _
      have hall := (findUsersBatch_length _ hnodup).2 fun u hu => h.users u ((hmem u).1 hu)
      simp [hall] at hlen

theorem endsAt_addCohosts {n : Nat} {b : Uuid} {ids : List Uuid} {d : BroadcastDb}
    {ws : List BroadcastWrite}
    {P : Unit → Nat → BroadcastDb → Option (List BroadcastWrite) → Prop}
    {F : BroadcastError → Nat → BroadcastDb → Option (List BroadcastWrite) → Prop}
    (hok : (ids ≠ [] → ¬Fails faults n) → ∀ ws', BroadcastRepository.addCohosts
      (broadcastEngine.applyAll d ws) t b c ids = .ok ((), ws') →
      P () (n + cohostCalls ids) d (some (ws ++ ws')))
    (herr : ∀ e, BroadcastRepository.addCohosts (broadcastEngine.applyAll d ws) t b c ids =
      .error e → ∀ e m, F e m d (some ws))
    (hfail : ids ≠ [] → Fails faults n → ∀ e m, F e m d (some ws)) :
    Txn.EndsAt broadcastEngine faults t (BroadcastService.addCohosts b ids c) P F n d (some ws) := by
  unfold BroadcastService.addCohosts
  unfold cohostCalls at hok
  cases hids : ids.isEmpty with
  | true =>
    have hnil : ids = [] := by simpa using hids
    subst hnil
    have hP := hok (by simp) [] rfl
    rw [List.append_nil] at hP
    exact Txn.endsAt_pure hP
  | false =>
    have hne : ids ≠ [] := by simpa using hids
    simp only [hids, Bool.false_eq_true, if_false] at hok ⊢
    exact Txn.endsAt_tx (fun hn _ ws' he => hok (fun _ => hn) ws' he)
      (fun _ e he => herr e he _ _) fun hn => hfail hne hn _ _

theorem startTime_ahead {o : Option OffsetDateTime} :
    (o.any (· ≤ now)) = false ↔ ∀ start, o = some start → now < start := by
  cases o <;> simp

/-- `create` as a call that may be made again, at another time and with another generated id. -/
def createCall (req : CreateBroadcastRequest) (c : Uuid)
    (k : OffsetDateTime × OffsetDateTime × Uuid) : BroadcastSvc BroadcastResponse :=
  BroadcastService.create k.1 k.2.1 k.2.2 req c

theorem create_endsAt : Txn.EndsAt broadcastEngine faults t (createCall req c (now, later, id))
    (fun _ _ _ _ => ¬(CreateCommits db now id req c faults ∧
      (Fails faults (responseCall req) ∨ findUserSummary db c = none)))
    (fun _ _ d _ => Trace (createCall req c) (CreateCommits db now id req c faults)
      (Fails faults (responseCall req) ∨ findUserSummary db c = none) db d) 0 db none := by
  have hcall : ∀ n < responseCall req, Fails faults n →
      Trace (createCall req c) (CreateCommits db now id req c faults)
        (Fails faults (responseCall req) ∨ findUserSummary db c = none) db db :=
    fun n hn hf => trace_of_not fun hc => hc.calls n hn hf
  unfold createCall BroadcastService.create
  refine Txn.endsAt_bind (Txn.endsAt_read rfl (fun h₀ => ?_) (hcall 0 (by simp [responseCall])))
  refine Txn.endsAt_bind (endsAt_refuse (fun hfree => ?_) fun hlive => ?_)
  swap
  · refine trace_of_not fun hc => ?_
    rw [hc.free] at hlive
    cases hlive
  refine Txn.endsAt_bind (endsAt_refuse (fun hahead => ?_) fun hpast => ?_)
  swap
  · refine trace_of_not fun hc => ?_
    rw [startTime_ahead.2 hc.ahead] at hpast
    cases hpast
  refine Txn.endsAt_bind (endsAt_deduplicateCohosts (fun hcohosts h₁ cohosts => ?_)
    (fun hno _ _ => trace_of_not fun hc => hno hc.cohosts) fun hne hf _ _ => ?_)
  swap
  · exact hcall 1 (by simp [responseCall]; omega) hf
  refine Txn.endsAt_bind (Txn.endsAt_begin (fun h₂ => ?_) (hcall _ (by simp [responseCall]; omega)))
  refine Txn.endsAt_bind (Txn.endsAt_tx (fun h₃ row ws hws => ?_) (fun _ e he => ?_)
    (hcall _ (by simp [responseCall]; omega)))
  swap
  · exact trace_of_not fun hc => create_error hc.insertable he
  obtain ⟨hins, hrid, hrcreator, rfl⟩ := insertable_of_create hws
  rw [List.nil_append]
  have hget : (broadcastEngine.applyAll db [.broadcast row]).broadcasts.get id = some row := by
    subst hrid
    exact Table.get_put_self _ _
  refine Txn.endsAt_bind (endsAt_addCohosts (fun h₄ ws' hws' => ?_) (fun e he => ?_)
    fun hne hf _ _ => ?_)
  rotate_left
  · refine absurd he (addCohosts_error _ ?_ ?_ ?_)
    · rw [hrid]
      exact Option.isSome_of_eq_some hget
    · exact hins.creator
    · intro u hu
      obtain ⟨user, huser⟩ := hcohosts.users u hu
      exact user_of_summary huser
  · refine hcall _ ?_ hf
    rcases cohostCalls_cases (req.cohosts.getD []) with ⟨hnil, -⟩ | ⟨-, hm⟩
    · exact absurd hnil hne
    · simp [responseCall, hm]
  refine Txn.endsAt_bind (Txn.endsAt_commit (fun h₅ => ?_) (hcall _ (by simp [responseCall]; omega)))
  have hresponse : 0 + 1 + cohostCalls (req.cohosts.getD []) + 1 + 1 +
      cohostCalls (req.cohosts.getD []) + 1 = responseCall req := by
    simp [responseCall]
    omega
  have hcalls : ∀ n < responseCall req, ¬Fails faults n := by
    intro n hn
    rcases cohostCalls_cases (req.cohosts.getD []) with ⟨hnil, hm⟩ | ⟨hne, hm⟩
    · rw [responseCall, hm] at hn
      rw [hm] at h₂ h₃ h₅
      interval_cases n <;> assumption
    · have h₁ := h₁ hne
      have h₄ := h₄ hne
      rw [responseCall, hm] at hn
      rw [hm] at h₂ h₃ h₄ h₅
      interval_cases n <;> assumption
  have hcommits : CreateCommits db now id req c faults := {
    free := hfree
    ahead := startTime_ahead.1 hahead
    cohosts := hcohosts
    insertable := hins
    calls := hcalls }
  have husers : (broadcastEngine.applyAll (broadcastEngine.applyAll db [.broadcast row]) ws').users =
      db.users := by
    rw [users_applyAll, users_applyAll]
  have hcreator : findUserSummary (broadcastEngine.applyAll db ([.broadcast row] ++ ws'))
      row.creatorId = findUserSummary db c := by
    rw [broadcastEngine.applyAll_append, findUserSummary, husers, hrcreator]
    rfl
  have hlate : Fails faults (responseCall req) ∨ findUserSummary db c = none →
      Trace (createCall req c) (CreateCommits db now id req c faults)
        (Fails faults (responseCall req) ∨ findUserSummary db c = none) db
        (broadcastEngine.applyAll db ([.broadcast row] ++ ws')) := by
    intro hlate
    refine .inr ⟨hcommits, hlate, not_sameRows (k := .broadcast id) fun hsame => ?_⟩
    have hsame := BroadcastDb.broadcast_of_look hsame
    have hfresh : db.broadcasts.get id = none := hins.fresh
    rw [broadcastEngine.applyAll_append, addCohosts_broadcasts hws', hget, hfresh] at hsame
    cases hsame
  refine Txn.endsAt_bind (Txn.endsAt_read rfl (fun h₆ => ?_) fun h₆ => ?_)
  · refine Txn.endsAt_bind (endsAt_okOr (fun creator hsome => ?_) fun hnone => ?_)
    · refine Txn.endsAt_pure ?_
      rintro ⟨-, hf | hnone⟩
      · exact h₆ (hresponse ▸ hf)
      · rw [hcreator, hnone] at hsome
        cases hsome
    · exact hlate (.inr (hcreator.symm.trans hnone))
  · exact hlate (.inl (hresponse ▸ h₆))

end Create

/-! ## The three operations -/

/-- `create`, `start` and `join` leave a trace when a call fails after their commit, or when the
creator is not found for the response, and only then. -/
theorem no_trace_iff (db : BroadcastDb) (t : OffsetDateTime) (faults : List Bool) :
    (∀ now later id req c, NoTrace (createCall req c) (now, later, id) t faults db ↔
      ¬(CreateCommits db now id req c faults ∧
        (Fails faults (responseCall req) ∨ findUserSummary db c = none))) ∧
    (∀ now b u, NoTrace (fun now => start now b u) now t faults db ↔
      ¬(StartCommits db b u faults ∧ Fails faults 9)) ∧
    (∀ now b u, NoTrace (fun now => join now b u) now t faults db ↔
      ¬(JoinCommits db now b u faults ∧ JoinFailsLate db b faults)) := by
  refine ⟨?_, ?_, ?_⟩
  · intro now later id req c
    exact noTrace_iff_of_endsAt create_endsAt
  · intro now b u
    exact noTrace_iff_of_endsAt (Txn.endsAt_mono start_endsAt
      (fun _ _ _ _ hok hboth => hok.2 hboth.2) fun _ _ _ _ h => h)
  · intro now b u
    exact noTrace_iff_of_endsAt join_endsAt

/-- The `n`-th call fails, and no other. -/
def onlyFault (n : Nat) : List Bool := List.replicate n false ++ [true]

/-- User 1's start fails at its last call, after the commit. The broadcast is live, and the start
that is made again is refused, which it would not have been before. -/
theorem failed_start_is_live :
    let db := storeAfter (firstSession.take 1)
    let out := Txn.run broadcastEngine (start 2 ⟨9⟩ ⟨1⟩) db 2 (onlyFault 9)
    out.1 = .error (.database .infrastructure) ∧
    ((findById out.2 ⟨9⟩).any Broadcast.isActive) = true ∧
    (Txn.run broadcastEngine (start 3 ⟨9⟩ ⟨1⟩) out.2 3 []).1 = .error .alreadyLive ∧
    (Txn.run broadcastEngine (start 3 ⟨9⟩ ⟨1⟩) db 3 []).1.isOk = true ∧
    ¬NoTrace (fun now => start now ⟨9⟩ ⟨1⟩) 2 2 (onlyFault 9) db := by
  intro db out
  have herr : out.1 = .error (.database .infrastructure) := by decide
  have hagain : (Txn.run broadcastEngine (start 3 ⟨9⟩ ⟨1⟩) out.2 3 []).1 = .error .alreadyLive := by
    decide
  have hfirst : (Txn.run broadcastEngine (start 3 ⟨9⟩ ⟨1⟩) db 3 []).1.isOk = true := by decide
  refine ⟨herr, by decide, hagain, hfirst, fun h => ?_⟩
  rcases (h _ herr).again 3 3 [] (.inl hagain) with hre | hre
  · rw [hre] at hfirst
    cases hfirst
  · rw [hre] at hfirst
    cases hfirst

end Meno
