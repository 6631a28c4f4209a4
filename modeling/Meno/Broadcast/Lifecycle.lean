import Meno.Lib.Serial
import Meno.Broadcast.FailedCalls

/-!
# Meno.Broadcast.Lifecycle

`start`, `end` and `delete` of one broadcast, call by call. Each finds the broadcast, decides on what
it has found, and later writes the row by its id, whatever the row is by then. `Lifecycle` is what of
the store the three depend on, and for each of them a `Decision` says what it does when it is made
alone. `start_undecided`, `end_undecided` and `delete_undecided` run them among others: as long as
the call that makes the change finds the broadcast in the status that was checked, the operation does
at that call what it would do alone.
-/

namespace Meno

open Lib BroadcastRepository BroadcastService

/-! ## What the three operations look at -/

/-- The creator, the broadcast's row, and whether the creator has a participant's row. -/
structure Lifecycle where
  user : Option UserSummary
  row : Option Broadcast
  present : Bool
deriving DecidableEq

def lifecycle (b u : Uuid) (db : BroadcastDb) : Lifecycle where
  user := findUserSummary db u
  row := db.broadcasts.get b
  present := (db.participants.get (b, u)).isSome

namespace Lifecycle

/-- The broadcast is there and not deleted, the creator's, and of this status. -/
def Found (u : Uuid) (status : BroadcastStatus) (c : Lifecycle) : Prop :=
  ∃ row, c.row = some row ∧ row.deletedAt = none ∧ row.creatorId = u ∧ row.status = status

/-- The row that `start` leaves: `set_active`, and a new participant is counted. -/
def startedRow (now t : OffsetDateTime) (b : Uuid) (user : UserSummary) (present : Bool)
    (row : Broadcast) : Broadcast :=
  { row with
    status := .active
    broadcastToken := some {
      identity := user.id, name := user.fullName, grants := LivekitRole.host.getGrant b,
      attributes := none }
    startTime := some now
    totalParticipants := if present then row.totalParticipants else row.totalParticipants.map (· + 1)
    updatedAt := t }

def endedRow (t : OffsetDateTime) (row : Broadcast) : Broadcast :=
  { row with status := .inactive, endTime := some t, endReason := .normal, updatedAt := t }

def deletedRow (t : OffsetDateTime) (row : Broadcast) : Broadcast :=
  { row with deletedAt := some t, updatedAt := t }

/-- `start` needs its first nine calls, and reads the cohosts with the tenth. -/
def start (now : OffsetDateTime) (b u : Uuid) (faults : List Bool) :
    Decision Lifecycle OffsetDateTime where
  passes c := c.Found u .inactive ∧ c.user.isSome = true ∧ ∀ n < 9, ¬Fails faults n
  well := !faults.getD 9 false
  effect t c := match c.user with
    | none => c
    | some user => { c with row := c.row.map (startedRow now t b user c.present), present := true }

def endBroadcast (u : Uuid) (faults : List Bool) : Decision Lifecycle OffsetDateTime where
  passes c := c.Found u .active ∧ ∀ n < 5, ¬Fails faults n
  well := true
  effect t c := { c with row := c.row.map (endedRow t) }

def delete (u : Uuid) (faults : List Bool) : Decision Lifecycle OffsetDateTime where
  passes c := c.Found u .inactive ∧ c.user.isSome = true ∧ ∀ n < 3, ¬Fails faults n
  well := true
  effect t c := { c with row := c.row.map (deletedRow t) }

end Lifecycle

/-! ## What the others may do -/

/-- No user is written, no broadcast disappears, and none changes its creator. -/
def Steady (b : Uuid) (db db' : BroadcastDb) : Prop :=
  db'.users = db.users ∧ ∀ row, db.broadcasts.get b = some row →
    ∃ row', db'.broadcasts.get b = some row' ∧ row'.creatorId = row.creatorId

theorem Steady.refl (b : Uuid) (db : BroadcastDb) : Steady b db db :=
  ⟨rfl, fun row hrow => ⟨row, hrow, rfl⟩⟩

theorem Steady.trans (b : Uuid) (db db' db'' : BroadcastDb) (h : Steady b db db')
    (h' : Steady b db' db'') : Steady b db db'' := by
  refine ⟨h'.1.trans h.1, fun row hrow => ?_⟩
  obtain ⟨row', hrow', hc⟩ := h.2 row hrow
  obtain ⟨row'', hrow'', hc'⟩ := h'.2 row' hrow'
  exact ⟨row'', hrow'', hc'.trans hc⟩

/-- A broadcast's row that is written over the one that is there, by the same creator. -/
theorem steady_put {b : Uuid} {db : BroadcastDb} {old row : Broadcast}
    (hold : db.broadcasts.get row.id = some old) (hc : row.creatorId = old.creatorId) :
    Steady b db (db.apply (.broadcast row)) := by
  refine ⟨rfl, fun row₀ hrow₀ => ?_⟩
  have hget := Table.get_put db.broadcasts row b
  by_cases hid : b = row.id
  · rw [if_pos hid] at hget
    rw [hid, hold] at hrow₀
    cases hrow₀
    exact ⟨row, hget, hc⟩
  · rw [if_neg hid] at hget
    exact ⟨row₀, hget.trans hrow₀, rfl⟩

theorem steady_of_legal (b : Uuid) (db : BroadcastDb) (w : BroadcastWrite) (h : w.Legal db) :
    Steady b db (db.apply w) := by
  cases h with
  | @createBroadcast row hnone _ _ _ =>
    refine ⟨rfl, fun row₀ hrow₀ => ⟨row₀, ?_, rfl⟩⟩
    have hget := Table.get_put db.broadcasts row b
    have hid : b ≠ row.id := fun hid => by simp [hid, hnone] at hrow₀
    rw [if_neg hid] at hget
    exact hget.trans hrow₀
  | editBroadcast hb hsame => exact steady_put hb hsame.creatorId
  | deleteBroadcast hb _ => exact steady_put hb rfl
  | activate hb => exact steady_put hb rfl
  | deactivate hb => exact steady_put hb rfl
  | addCohost _ => exact ⟨rfl, fun row hrow => ⟨row, hrow, rfl⟩⟩
  | dropCohost => exact ⟨rfl, fun row hrow => ⟨row, hrow, rfl⟩⟩
  | addParticipant _ _ => exact ⟨rfl, fun row hrow => ⟨row, hrow, rfl⟩⟩
  | setRole _ => exact ⟨rfl, fun row hrow => ⟨row, hrow, rfl⟩⟩
  | setLeft _ => exact ⟨rfl, fun row hrow => ⟨row, hrow, rfl⟩⟩
  | dropParticipant => exact ⟨rfl, fun row hrow => ⟨row, hrow, rfl⟩⟩

theorem Steady.user {b u : Uuid} {db db' : BroadcastDb} (h : Steady b db db') :
    findUserSummary db' u = findUserSummary db u := by
  rw [findUserSummary, h.1, findUserSummary]

/-- What is assumed of the surroundings of an operation that has to find the broadcast in a status:
the others keep to `Steady`, and where the change is made, `cond`, the broadcast is found as before. -/
structure Around (b u : Uuid) (status : BroadcastStatus) (link : BroadcastDb → BroadcastDb → Prop)
    (cond : BroadcastDb → Prop) : Prop where
  trans : ∀ db db' db'', link db db' → link db' db'' → link db db''
  steady : ∀ db db', link db db' → Steady b db db'
  still : ∀ db db', link db db' → cond db' → (lifecycle b u db).Found u status →
    (lifecycle b u db').Found u status

namespace Lifecycle

theorem found_iff {b u : Uuid} {db : BroadcastDb} {status : BroadcastStatus} :
    (lifecycle b u db).Found u status ↔
      ∃ row, findById db b = some row ∧ row.creatorId = u ∧ row.status = status := by
  simp only [Found, lifecycle, findById, Option.filter_eq_some_iff, Option.isNone_iff_eq_none,
    and_assoc]

end Lifecycle

/-! ## Outcomes that are there -/

namespace BroadcastService

variable {α β : Type} {error e : BroadcastError}

@[simp] theorem throw_bind (f : α → BroadcastSvc β) : (throw e >>= f : BroadcastSvc β) = throw e :=
  rfl

@[simp] theorem found_some (a : α) : found error (.ok (some a)) = (pure a : BroadcastSvc α) := rfl

@[simp] theorem found_none : found error (.ok none) = (throw error : BroadcastSvc α) := rfl

@[simp] theorem found_error : found error (.error e) = (throw e : BroadcastSvc α) := rfl

@[simp] theorem okOr_some (a : α) : okOr error (some a) = (pure a : BroadcastSvc α) := rfl

@[simp] theorem refuse_false : refuse error false = pure () := rfl

@[simp] theorem refuse_true : refuse error true = throw error := rfl

end BroadcastService

/-! ## The lookups -/

section Lookups

variable {α : Type} {b u : Uuid} {t : OffsetDateTime} {faults : List Bool}
  {link : BroadcastDb → BroadcastDb → Prop}
  {may : {β : Type} → Cmd BroadcastStmt DbError β → BroadcastDb → Prop}
  {δ : Decision Lifecycle OffsetDateTime} {f : Broadcast → UserSummary → BroadcastSvc α}

/-- The two lookups with which `start` and `delete` begin. What is not found, or found in another
status or another's, refuses the call as early as it is read. -/
theorem lookups_undecided (hpasses : ∀ c, δ.passes c → c.Found u .inactive ∧ c.user.isSome = true)
    (hcall : ∀ n < 2, Fails faults n → ∀ d, ¬δ.passes (lifecycle b u d))
    (hrefuse : ∀ row creator, row.deletedAt = none → ¬(row.creatorId = u ∧ row.status = .inactive) →
      ∃ e, f row creator = throw e)
    (hgo : ∀ d₁ d₂ row creator, ¬Fails faults 0 → ¬Fails faults 1 →
      (lifecycle b u d₁).Found u .inactive → d₁.broadcasts.get b = some row →
      row.deletedAt = none → row.creatorId = u → row.status = .inactive → link d₁ d₂ →
      findUserSummary d₂ u = some creator → Prog.Undecided broadcastEngine broadcastKeyed faults
        (lifecycle b u) link may δ (ExceptT.run (f row creator)) none t 2 d₂) (db : BroadcastDb) :
    Prog.Undecided broadcastEngine broadcastKeyed faults (lifecycle b u) link may δ
      (ExceptT.run (do
        let broadcastResult ← lookup (.findById b)
        let creatorResult ← lookup (.findUserSummary u)
        let broadcast ← found .notFound broadcastResult
        let creator ← found .userNotFound creatorResult
        f broadcast creator)) none t 0 db := by
  refine undecided_attempt (fun _ _ => rfl) (fun h₀ d₁ hr₁ => ?_) fun h₀ d₁ hr₁ => ?_
  swap
  · exact .inr ⟨hcall 0 (by omega) h₀ d₁, settled_attempt (fun _ _ => rfl) fun r => rfl⟩
  by_cases hfound : (lifecycle b u d₁).Found u .inactive
  swap
  · -- refused by what has been found, whatever the second lookup says
    refine .inr ⟨fun hp => hfound (hpasses _ hp).1, settled_attempt (fun _ _ => rfl) fun r => ?_⟩
    rw [Lifecycle.found_iff] at hfound
    cases hrow : findById d₁ b with
    | none => rfl
    | some row =>
      rcases r with e | (_ | creator)
      · rfl
      · rfl
      · have hdel : row.deletedAt = none := by
          simpa using (Option.filter_eq_some_iff.1 hrow).2
        obtain ⟨e, he⟩ := hrefuse row creator hdel fun hst => hfound ⟨row, hrow, hst⟩
        simp only [found_some, pure_bind, he]
        rfl
  obtain ⟨row, hrow, hc, hst⟩ := Lifecycle.found_iff.1 hfound
  refine .inl (undecided_attempt (fun _ _ => rfl) (fun h₁ d₂ hr₂ => ?_) fun h₁ d₂ hr₂ => ?_)
  swap
  · rw [hrow]
    exact goes_throw (hcall 1 (by omega) h₁ d₂)
  cases huser : findUserSummary d₂ u with
  | none =>
    rw [hrow]
    refine goes_throw fun hp => ?_
    have hsome : (findUserSummary d₂ u).isSome = true := (hpasses _ hp).2
    simp [huser] at hsome
  | some creator =>
    obtain ⟨hget, hdel⟩ := Option.filter_eq_some_iff.1 hrow
    simp only [hrow, found_some, pure_bind]
    exact .inl (hgo d₁ d₂ row creator h₀ h₁ hfound hget (by simpa using hdel) hc hst hr₂.1 huser)

end Lookups

/-! ## Start -/

/-- What `start` asks to make active. -/
def startInput (now : OffsetDateTime) (b : Uuid) (creator : UserSummary) : SetActiveInput where
  broadcastId := b
  broadcastToken := {
    identity := creator.id, name := creator.fullName, grants := LivekitRole.host.getGrant b,
    attributes := none }
  startTime := now

/-- The creator as a participant. -/
def hostInput (now : OffsetDateTime) (b : Uuid) (creator : UserSummary) : UpsertParticipantInput where
  broadcastId := b
  participantId := creator.id
  role := .host
  joinedAt := now

section StartRows

variable {b : Uuid} {now t : OffsetDateTime} {creator : UserSummary}

theorem setActive_writes {db : BroadcastDb} {row active : Broadcast} {ws : List BroadcastWrite}
    (hrow : db.broadcasts.get b = some row)
    (h : setActive db t (startInput now b creator) = .ok (active, ws)) :
    ws = [.broadcast active] ∧ active = Lifecycle.startedRow now t b creator true row := by
  simp only [setActive, startInput, hrow] at h
  cases h
  exact ⟨rfl, rfl⟩

theorem get_setActive {db : BroadcastDb} {row active : Broadcast} {ws : List BroadcastWrite}
    (hrow : db.broadcasts.get b = some row)
    (h : setActive db t (startInput now b creator) = .ok (active, ws)) (db' : BroadcastDb) :
    (broadcastEngine.applyAll db' ws).broadcasts.get b = some active := by
  obtain ⟨rfl, rfl⟩ := setActive_writes hrow h
  have hid : row.id = b := Table.key_of_get hrow
  exact (Table.get_put _ _ _).trans (if_pos hid.symm)

/-- A row that is there is not counted, and a new one is. -/
theorem upsertHost_writes {db : BroadcastDb} {row : Broadcast} {ws : List BroadcastWrite}
    (hrow : db.broadcasts.get b = some row)
    (h : upsertParticipant db t (hostInput now b creator) = .ok ((), ws)) :
    ∃ p : BroadcastParticipant, p.key = (b, creator.id) ∧
      ws = .participant p :: if (db.participants.get (b, creator.id)).isSome then []
        else [.broadcast { row with
          totalParticipants := row.totalParticipants.map (· + 1)
          updatedAt := t }] := by
  unfold upsertParticipant at h
  cases hp : db.participants.get (b, creator.id) with
  | some p =>
    have hkey : p.key = (b, creator.id) := Table.key_of_get hp
    simp only [hostInput, hp] at h
    cases h
    exact ⟨{ p with role := .host, joinedAt := now }, hkey, rfl⟩
  | none =>
    simp only [hostInput, hp, bind_eq_ok, pure_eq_ok, Prod.mk.injEq, true_and] at h
    obtain ⟨_, _, _, _, rfl⟩ := h
    refine ⟨⟨b, creator.id, .host, now, none⟩, rfl, ?_⟩
    simp [countParticipant, hrow]

/-- The rows that `start` reads between its own calls, it has locked by then: what it commits is the
effect on the store it commits to. -/
theorem lifecycle_started {db db' db'' : BroadcastDb} {row active : Broadcast}
    {ws ws' : List BroadcastWrite} (hrow : db.broadcasts.get b = some row)
    (hws : setActive db t (startInput now b creator) = .ok (active, ws))
    (hsame : ∀ x ∈ ws, db'.look x.key = db.look x.key)
    (hws' : upsertParticipant (broadcastEngine.applyAll db' ws) t (hostInput now b creator) =
      .ok ((), ws'))
    (hsame' : ∀ x ∈ ws ++ ws', db''.look x.key = db'.look x.key)
    (huser : findUserSummary db'' creator.id = some creator) {faults : List Bool} :
    lifecycle b creator.id (broadcastEngine.applyAll db'' (ws ++ ws')) =
      (Lifecycle.start now b creator.id faults).effect t (lifecycle b creator.id db'') := by
  have hget := get_setActive hrow hws db'
  obtain ⟨rfl, rfl⟩ := setActive_writes hrow hws
  have hid : row.id = b := Table.key_of_get hrow
  have hkey : (Lifecycle.startedRow now t b creator true row).id = b := hid
  have hrow' : db'.broadcasts.get b = some row := by
    have hlook := hsame _ List.mem_cons_self
    rw [BroadcastWrite.key, hkey] at hlook
    exact (BroadcastDb.broadcast_of_look hlook).trans hrow
  have hrow'' : db''.broadcasts.get b = some row := by
    have hlook := hsame' _ List.mem_cons_self
    rw [BroadcastWrite.key, hkey] at hlook
    exact (BroadcastDb.broadcast_of_look hlook).trans hrow'
  obtain ⟨p, hp, rfl⟩ := upsertHost_writes hget hws'
  have hpres : db''.participants.get (b, creator.id) = db'.participants.get (b, creator.id) := by
    have hlook := hsame' _ (List.mem_cons_of_mem _ List.mem_cons_self)
    have hpk : BroadcastWrite.key (.participant p) = .participant b creator.id := by
      obtain ⟨hb, hu⟩ := Prod.mk.inj hp
      rw [BroadcastWrite.key, hb, hu]
    rw [hpk] at hlook
    exact BroadcastDb.participant_of_look hlook
  have hput : ∀ (d : BroadcastDb) (row : Broadcast), row.id = b →
      (d.broadcasts.put row).get b = some row :=
    fun d row hrow => (Table.get_put _ _ _).trans (if_pos hrow.symm)
  have huser' : ∀ ws, findUserSummary (broadcastEngine.applyAll db'' ws) creator.id = some creator := by
    intro ws
    rw [findUserSummary, users_applyAll]
    exact huser
  have hhost : ((db''.participants.put p).get (b, creator.id)).isSome = true := by
    rw [← hp, Table.get_put_self]
    rfl
  have heff : (Lifecycle.start now b creator.id faults).effect t (lifecycle b creator.id db'') =
      ⟨some creator, some (Lifecycle.startedRow now t b creator
        (db'.participants.get (b, creator.id)).isSome row), true⟩ := by
    simp [Lifecycle.start, lifecycle, huser, hrow'', hpres]
  rw [heff, lifecycle, huser']
  cases hpr : (db'.participants.get (b, creator.id)).isSome with
  | true =>
    have hpr' : ((broadcastEngine.applyAll db' [.broadcast (Lifecycle.startedRow now t b creator true
        row)]).participants.get (b, creator.id)).isSome = true := hpr
    rw [if_pos hpr']
    exact congrArg₂ (Lifecycle.mk _) (hput db'' _ hkey) hhost
  | false =>
    have hpr' : ¬((broadcastEngine.applyAll db' [.broadcast (Lifecycle.startedRow now t b creator true
        row)]).participants.get (b, creator.id)).isSome = true := by
      rw [Bool.not_eq_true]
      exact hpr
    rw [if_neg hpr']
    exact congrArg₂ (Lifecycle.mk _) (hput _ _ hkey) hhost

end StartRows

section Start

variable {b u : Uuid} {now t : OffsetDateTime} {faults : List Bool}
  {link : BroadcastDb → BroadcastDb → Prop}
  {may : {β : Type} → Cmd BroadcastStmt DbError β → BroadcastDb → Prop}

theorem start_undecided (h : Around b u .inactive link (may .commit)) (db : BroadcastDb) :
    Prog.Undecided broadcastEngine broadcastKeyed faults (lifecycle b u) link may
      (Lifecycle.start now b u faults) (ExceptT.run (BroadcastOp.start now b u).prog) none t 0 db := by
  have hcall : ∀ n < 9, Fails faults n → ∀ d,
      ¬(Lifecycle.start now b u faults).passes (lifecycle b u d) :=
    fun n hn hf d hp => hp.2.2 n hn hf
  simp only [BroadcastOp.prog, BroadcastService.start, bind_assoc]
  have hpasses : ∀ c, (Lifecycle.start now b u faults).passes c →
      c.Found u .inactive ∧ c.user.isSome = true := fun c hp => ⟨hp.1, hp.2.1⟩
  refine lookups_undecided hpasses (fun n hn => hcall n (by omega)) ?_ ?_ db
  · intro row creator _ hno
    by_cases hc : row.creatorId = u
    · have hst : row.status = .active := by
        cases hst : row.status with
        | active => rfl
        | inactive => exact absurd ⟨hc, hst⟩ hno
      have howner : (row.creatorId != u) = false := by simp [hc]
      exact ⟨.alreadyLive, by rw [howner, hst]; rfl⟩
    · have hother : (row.creatorId != u) = true := by simp [hc]
      exact ⟨.notCreator, by rw [hother]; rfl⟩
  intro d₁ d₂ row creator h₀ h₁ hfound hrow _ hc hst hl₂ huser
  have hid := findUserSummary_id huser
  subst hid
  have howner : (row.creatorId != creator.id) = false := by simp [hc]
  have hidle : (row.status == .active) = false := by rw [hst]; rfl
  simp only [howner, hidle, refuse_false, pure_bind, createRoom, bind_assoc]
  refine undecided_read (fun _ _ => rfl) (fun h₂ d₃ hr₃ => ?_) (hcall 2 (by omega))
  refine .inl (undecided_read (fun _ _ => rfl) (fun h₃ d₄ hr₄ => ?_) (hcall 3 (by omega)))
  refine .inl (undecided_read (fun _ _ => rfl) (fun h₄ d₅ hr₅ => ?_) (hcall 4 (by omega)))
  refine .inl (undecided_begin (fun h₅ d₆ since hr₆ => ?_) (hcall 5 (by omega)))
  have huserOf : ∀ d, link d₁ d → findUserSummary d creator.id = some creator :=
    fun d hl => (h.steady _ _ hl).user.trans ((h.steady _ _ hl₂).user.symm.trans huser)
  have hl₃ := h.trans _ _ _ hl₂ hr₃.1
  have hl₅ := h.trans _ _ _ (h.trans _ _ _ hl₃ hr₄.1) hr₅.1
  have hl₆ : link d₁ d₆ := h.trans _ _ _ hl₅ hr₆.1
  refine undecided_tx (fun h₆ d₇ hr₇ active ws hws => ?_) (fun d₇ hr₇ e he => ?_) (hcall 6 (by omega))
  swap
  · -- the row is there
    obtain ⟨row', hrow', -⟩ := (h.steady _ _ (h.trans _ _ _ hl₆ hr₇.1)).2 row hrow
    simp [broadcastEngine, Engine.applyAll, BroadcastStmt.exec, setActive, hrow'] at he
  have hl₇ : link d₁ d₇ := h.trans _ _ _ hl₆ hr₇.1
  obtain ⟨row', hrow', -⟩ := (h.steady _ _ hl₇).2 row hrow
  refine undecided_tx (fun h₇ d₈ hr₈ _ ws' hws' => ?_) (fun d₈ hr₈ e he => ?_) (hcall 7 (by omega))
  swap
  · refine absurd he (upsertParticipant_error ?_ ?_)
    · exact Option.isSome_of_eq_some (get_setActive hrow' hws d₈)
    · have hsome := user_of_summary (huserOf d₈ (h.trans _ _ _ hl₇ hr₈.1))
      rwa [← users_applyAll ws] at hsome
  refine undecided_commit (fun h₈ d₉ hr₉ hmay => ?_) (hcall 8 (by omega))
  have hl₉ : link d₁ d₉ := h.trans _ _ _ (h.trans _ _ _ hl₇ hr₈.1) hr₉.1
  have huser₉ := huserOf d₉ hl₉
  refine ⟨⟨h.still _ _ hl₉ hmay hfound, ?_, ?_⟩, ?_, ?_⟩
  · exact Option.isSome_of_eq_some huser₉
  · intro n hn
    interval_cases n <;> assumption
  · exact lifecycle_started hrow' hws hr₈.2 hws' hr₉.2 huser₉
  · refine settled_read (fun _ _ => rfl) (fun h₉ _ => ?_) fun h₉ => ?_
    · rw [Fails, Bool.not_eq_true] at h₉
      simp only [Lifecycle.start, h₉]
      rfl
    · rw [Fails] at h₉
      simp only [Lifecycle.start, h₉]
      rfl

end Start

/-! ## Delete -/

theorem lifecycle_put {b : Uuid} (u : Uuid) {row : Broadcast} (hid : row.id = b) (db : BroadcastDb) :
    lifecycle b u (db.apply (.broadcast row)) = { lifecycle b u db with row := some row } := by
  have hget : (db.broadcasts.put row).get b = some row :=
    (Table.get_put _ _ _).trans (if_pos hid.symm)
  show Lifecycle.mk _ ((db.broadcasts.put row).get b) _ = _
  rw [hget]
  rfl

section Delete

variable {b u : Uuid} {t : OffsetDateTime} {faults : List Bool}
  {link : BroadcastDb → BroadcastDb → Prop}
  {may : {β : Type} → Cmd BroadcastStmt DbError β → BroadcastDb → Prop}

theorem delete_undecided (h : Around b u .inactive link (may (.exec .pool (.delete b))))
    (db : BroadcastDb) :
    Prog.Undecided broadcastEngine broadcastKeyed faults (lifecycle b u) link may
      (Lifecycle.delete u faults) (ExceptT.run (BroadcastOp.delete b u).prog) none t 0 db := by
  have hcall : ∀ n < 3, Fails faults n → ∀ d,
      ¬(Lifecycle.delete u faults).passes (lifecycle b u d) :=
    fun n hn hf d hp => hp.2.2 n hn hf
  have hpasses : ∀ c, (Lifecycle.delete u faults).passes c →
      c.Found u .inactive ∧ c.user.isSome = true := fun c hp => ⟨hp.1, hp.2.1⟩
  simp only [BroadcastOp.prog, BroadcastService.delete, bind_assoc]
  refine lookups_undecided hpasses (fun n hn => hcall n (by omega)) ?_ ?_ db
  · intro row creator hdel hno
    simp only [hdel, Option.isSome_none]
    by_cases hst : row.status = .active
    · exact ⟨.cannotModifyLiveBroadcast, by rw [hst]; rfl⟩
    · have hidle : row.status = .inactive := by
        cases hst' : row.status with
        | active => exact absurd hst' hst
        | inactive => rfl
      have hother : (row.creatorId != u) = true := by
        simpa using fun hc => hno ⟨hc, hidle⟩
      exact ⟨.notCreator, by rw [hidle, hother]; rfl⟩
  intro d₁ d₂ row creator h₀ h₁ hfound hrow hdel hc hst hl₂ huser
  have howner : (row.creatorId != u) = false := by simp [hc]
  have hidle : (row.status == .active) = false := by rw [hst]; rfl
  simp only [hdel, Option.isSome_none, Bool.false_eq_true, if_false, howner, hidle, refuse_false,
    pure_bind, bind_assoc]
  refine undecided_pool (fun h₂ d₃ clock hr₃ hmay => ?_) (hcall 2 (by omega))
  have hl₃ : link d₁ d₃ := h.trans _ _ _ hl₂ hr₃.1
  have hfound₃ := h.still _ _ hl₃ hmay hfound
  obtain ⟨row', hrow', -, -⟩ := Lifecycle.found_iff.1 hfound₃
  have hget : d₃.broadcasts.get b = some row' := (Option.filter_eq_some_iff.1 hrow').1
  have hid : row'.id = b := Table.key_of_get hget
  refine ⟨1, [.broadcast (Lifecycle.deletedRow clock row')], ?_, ⟨hfound₃, ?_, ?_⟩, ?_, rfl⟩
  · unfold findById at hrow'
    simp only [broadcastEngine, BroadcastStmt.exec, BroadcastRepository.delete, hrow']
    rfl
  · have huser₃ : findUserSummary d₃ u = some creator :=
      (h.steady _ _ hr₃.1).user.trans huser
    exact Option.isSome_of_eq_some huser₃
  · intro n hn
    interval_cases n <;> assumption
  · have heff : (lifecycle b u d₃).row = some row' := hget
    have hput := lifecycle_put u (show (Lifecycle.deletedRow clock row').id = b from hid) d₃
    refine hput.trans ?_
    simp only [Lifecycle.delete, heff, Option.map_some]

end Delete

/-! ## End -/

section End

variable {b u : Uuid} {now t : OffsetDateTime} {faults : List Bool}
  {link : BroadcastDb → BroadcastDb → Prop}
  {may : {β : Type} → Cmd BroadcastStmt DbError β → BroadcastDb → Prop}

/-- Rows of participants that are written over remain. -/
theorem present_applyAll {db : BroadcastDb} {ws : List BroadcastWrite}
    (hws : ∀ w ∈ ws, ∃ p, w = .participant p ∧ (db.participants.get p.key).isSome = true)
    (k : Uuid × Uuid) : ((broadcastEngine.applyAll db ws).participants.get k).isSome =
      (db.participants.get k).isSome := by
  refine applyAll_invariant (I := fun d : BroadcastDb => (d.participants.get k).isSome =
    (db.participants.get k).isSome) ?_ rfl hws
  rintro d w hd ⟨p, rfl, hp⟩
  show ((d.participants.put p).get k).isSome = _
  rw [Table.get_put]
  split
  · rename_i hk
    rw [hk, hp]
    rfl
  · exact hd

theorem clear_writes {db : BroadcastDb} {ids : List Uuid} {ws : List BroadcastWrite}
    (h : getParticipantIdsAndClear db t b = .ok (ids, ws)) :
    ∀ w ∈ ws, ∃ p, w = .participant p ∧ (db.participants.get p.key).isSome = true := by
  cases h
  intro w hw
  obtain ⟨p, hp, rfl⟩ := List.mem_map.1 hw
  have hget : db.participants.get p.key = some p :=
    Table.mem_rows_iff.1 (List.mem_filter.1 hp).1
  exact ⟨_, rfl, Option.isSome_of_eq_some hget⟩

/-- What `end` commits is the effect on the store it commits to. -/
theorem lifecycle_ended {db db' db'' : BroadcastDb} {ids : List Uuid} {m : Nat} {row : Broadcast}
    {ws ws' : List BroadcastWrite} (hws : getParticipantIdsAndClear db t b = .ok (ids, ws))
    (hrow : db'.broadcasts.get b = some row)
    (hws' : setInactive (broadcastEngine.applyAll db' ws) t b .normal = .ok (m, ws'))
    (hsame : ∀ x ∈ ws, db'.look x.key = db.look x.key)
    (hsame' : ∀ x ∈ ws ++ ws', db''.look x.key = db'.look x.key) :
    lifecycle b u (broadcastEngine.applyAll db'' (ws ++ ws')) =
      (Lifecycle.endBroadcast u faults).effect t (lifecycle b u db'') := by
  have hpart : ∀ w ∈ ws, ∃ p, w = .participant p ∧ (db''.participants.get p.key).isSome = true := by
    intro w hw
    obtain ⟨p, rfl, hp⟩ := clear_writes hws w hw
    have hlook := (hsame' _ (List.mem_append_left _ hw)).trans (hsame _ hw)
    refine ⟨p, rfl, ?_⟩
    have hget : db''.participants.get p.key = db.participants.get p.key :=
      BroadcastDb.participant_of_look hlook
    rw [hget]
    exact hp
  have hbroadcasts : ∀ d, (broadcastEngine.applyAll d ws).broadcasts = d.broadcasts := by
    intro d
    refine broadcasts_applyAll fun w hw id he => ?_
    obtain ⟨p, rfl, -⟩ := hpart w hw
    cases he
  have hid : row.id = b := Table.key_of_get hrow
  unfold setInactive at hws'
  rw [hbroadcasts, hrow] at hws'
  cases hws'
  have hrow'' : db''.broadcasts.get b = some row := by
    have hlook := hsame' (.broadcast (Lifecycle.endedRow t row))
      (List.mem_append_right _ List.mem_cons_self)
    have hkey : BroadcastWrite.key (.broadcast (Lifecycle.endedRow t row)) = .broadcast b :=
      congrArg BroadcastKey.broadcast hid
    rw [hkey] at hlook
    exact (BroadcastDb.broadcast_of_look hlook).trans hrow
  rw [broadcastEngine.applyAll_append]
  have hput := lifecycle_put u (show (Lifecycle.endedRow t row).id = b from hid)
    (broadcastEngine.applyAll db'' ws)
  refine hput.trans ?_
  have hcleared : lifecycle b u (broadcastEngine.applyAll db'' ws) = lifecycle b u db'' := by
    rw [lifecycle, hbroadcasts, present_applyAll hpart, findUserSummary, users_applyAll]
    rfl
  have hseen : (lifecycle b u db'').row = some row := hrow''
  rw [hcleared]
  simp only [Lifecycle.endBroadcast, hseen, Option.map_some]

theorem setInactive_error {db : BroadcastDb} {reason : EndReason} {e : DbError} :
    setInactive db t b reason ≠ .error e := by
  unfold setInactive
  cases db.broadcasts.get b <;> simp

theorem end_undecided (h : Around b u .active link (may .commit)) (db : BroadcastDb) :
    Prog.Undecided broadcastEngine broadcastKeyed faults (lifecycle b u) link may
      (Lifecycle.endBroadcast u faults) (ExceptT.run (BroadcastOp.endBroadcast now b u).prog) none t
        0 db := by
  have hcall : ∀ n < 5, Fails faults n → ∀ d,
      ¬(Lifecycle.endBroadcast u faults).passes (lifecycle b u d) :=
    fun n hn hf d hp => hp.2 n hn hf
  simp only [BroadcastOp.prog, BroadcastService.endBroadcast, bind_assoc]
  refine undecided_read (fun _ _ => rfl) (fun h₀ d₁ hr₁ => ?_) (hcall 0 (by omega))
  by_cases hfound : (lifecycle b u d₁).Found u .active
  swap
  · refine .inr ⟨fun hp => hfound hp.1, ?_⟩
    rw [Lifecycle.found_iff] at hfound
    cases hrow : findById d₁ b with
    | none => rfl
    | some row =>
      by_cases hc : row.creatorId = u
      · have hidle : (row.status != .active) = true := by
          simpa using fun hst => hfound ⟨row, hrow, hc, hst⟩
        have howner : (row.creatorId != u) = false := by simp [hc]
        simp only [okOr_some, pure_bind, howner, hidle]
        rfl
      · have hother : (row.creatorId != u) = true := by simp [hc]
        simp only [okOr_some, pure_bind, hother]
        rfl
  obtain ⟨row, hrow, hc, hst⟩ := Lifecycle.found_iff.1 hfound
  have hget : d₁.broadcasts.get b = some row := (Option.filter_eq_some_iff.1 hrow).1
  have howner : (row.creatorId != u) = false := by simp [hc]
  have hlive : (row.status != .active) = false := by rw [hst]; rfl
  simp only [hrow, okOr_some, pure_bind, howner, hlive, refuse_false]
  refine .inl (undecided_begin (fun h₁ d₂ since hr₂ => ?_) (hcall 1 (by omega)))
  refine undecided_tx (fun h₂ d₃ hr₃ ids ws hws => ?_) (fun d₃ hr₃ e he => ?_) (hcall 2 (by omega))
  swap
  · cases he
  have hl₃ : link d₁ d₃ := h.trans _ _ _ hr₂.1 hr₃.1
  refine undecided_tx (fun h₃ d₄ hr₄ m ws' hws' => ?_) (fun d₄ hr₄ e he => ?_) (hcall 3 (by omega))
  swap
  · exact absurd he setInactive_error
  have hl₄ : link d₁ d₄ := h.trans _ _ _ hl₃ hr₄.1
  obtain ⟨row', hrow', -⟩ := (h.steady _ _ hl₄).2 row hget
  refine undecided_commit (fun h₄ d₅ hr₅ hmay => ?_) (hcall 4 (by omega))
  have hl₅ : link d₁ d₅ := h.trans _ _ _ hl₄ hr₅.1
  refine ⟨⟨h.still _ _ hl₅ hmay hfound, ?_⟩, ?_, ?_⟩
  · intro n hn
    interval_cases n <;> assumption
  · exact lifecycle_ended hws hrow' hws' hr₄.2 hr₅.2
  · split
    · simp only [existsOrFalse, bind_assoc]
      refine settled_attempt (fun _ _ => rfl) fun r => ?_
      cases r <;> rfl
    · rfl

end End

end Meno
