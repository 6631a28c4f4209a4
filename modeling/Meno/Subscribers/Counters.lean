import Meno.Lib.Merge
import Meno.Lib.Tenants
import Meno.Lib.Schedule
import Meno.Broadcast.Limits
import Meno.Broadcast.Writes
import Meno.Subscribers.Repository

/-!
# Meno.Subscribers.Counters

What becomes of the counters. Both trigger functions compare the text `'TG_OP'` with the names of
the operations, so none of their branches is ever taken, and no statement writes a counter
(`fireAll_eq`). They stay at the 0 that a user starts with. `counters_kept_iff` says what that
means for their purpose: they are right as long as there is nothing to count.
-/

namespace Meno

open Lib BroadcastRepository

/-! ## The triggers -/

namespace CountedDb

theorem updateFollowCounts_eq (db : CountedDb) (event : RowEvent UserSubscriber) :
    db.updateFollowCounts event = [] := by
  simp [updateFollowCounts]

theorem updateBroadcastsCount_eq (db : CountedDb) (event : RowEvent Broadcast) :
    db.updateBroadcastsCount event = [] := by
  simp [updateBroadcastsCount]

theorem triggerFollowCounts_eq (db : CountedDb) (event : RowEvent UserSubscriber) :
    db.triggerFollowCounts event = [] := by
  cases event with
  | insert new => exact db.updateFollowCounts_eq (.insert new)
  | update old new => rfl
  | delete old => exact db.updateFollowCounts_eq (.delete old)

theorem triggerBroadcastsCount_eq (db : CountedDb) (event : RowEvent Broadcast) :
    db.triggerBroadcastsCount event = [] := by
  cases event with
  | insert new => exact db.updateBroadcastsCount_eq (.insert new)
  | update old new => rfl
  | delete old => exact db.updateBroadcastsCount_eq (.delete old)

theorem fire_eq (db : CountedDb) (w : BroadcastWrite) : db.fire w = [.row w] := by
  cases w with
  | broadcast row =>
    simp only [fire, triggerBroadcastsCount_eq]
    split <;> rfl
  | _ => rfl

/-- A broadcast statement writes its own rows, and no counter. -/
theorem fireAll_eq (ws : List BroadcastWrite) : ∀ db : CountedDb, db.fireAll ws = ws.map .row := by
  induction ws with
  | nil => intro db; rfl
  | cons w ws ih =>
    intro db
    rw [fireAll, ih, fire_eq]
    rfl

end CountedDb

/-! ## Rows under keys -/

inductive CountedKey where
  | row (k : BroadcastKey)
  | subscriber (subscriberId subscriptionId : Uuid)
  | counts (id : Uuid)
deriving DecidableEq

inductive CountedRow where
  | row (r : BroadcastRow)
  | subscriber (r : UserSubscriber)
  | counts (r : UserCounts)

def CountedWrite.key : CountedWrite → CountedKey
  | .row w => .row w.key
  | .subscriber r => .subscriber r.subscriberId r.subscriptionId
  | .dropSubscriber s c => .subscriber s c
  | .counts r => .counts r.id

def CountedWrite.value : CountedWrite → Option CountedRow
  | .row w => w.value.map .row
  | .subscriber r => some (.subscriber r)
  | .dropSubscriber _ _ => none
  | .counts r => some (.counts r)

def CountedDb.look (db : CountedDb) : CountedKey → Option CountedRow
  | .row k => (db.tables.look k).map .row
  | .subscriber s c => (db.subscribers.get (s, c)).map .subscriber
  | .counts id => (db.counts.get id).map .counts

theorem CountedDb.look_apply (db : CountedDb) (w : CountedWrite) (k : CountedKey) :
    (db.apply w).look k = if k = w.key then w.value else db.look k := by
  cases w with
  | row w =>
    cases k with
    | row k =>
      simp only [look, apply, BroadcastDb.look_apply, CountedWrite.key, CountedWrite.value,
        CountedKey.row.injEq]
      split <;> rfl
    | subscriber s c => rfl
    | counts id => rfl
  | subscriber r =>
    cases k with
    | row k => rfl
    | subscriber s c =>
      simp only [look, apply, Table.get_put, UserSubscriber.key, CountedWrite.key,
        CountedWrite.value, Prod.mk.injEq, CountedKey.subscriber.injEq]
      split <;> rfl
    | counts id => rfl
  | dropSubscriber s' c' =>
    cases k with
    | row k => rfl
    | subscriber s c =>
      simp only [look, apply, Table.get_erase, CountedWrite.key, CountedWrite.value,
        Prod.mk.injEq, CountedKey.subscriber.injEq]
      split <;> rfl
    | counts id => rfl
  | counts r =>
    cases k with
    | row k => rfl
    | subscriber s c => rfl
    | counts id =>
      simp only [look, apply, Table.get_put, CountedWrite.key, CountedWrite.value,
        CountedKey.counts.injEq]
      split <;> rfl

def countedKeyed : Keyed countedEngine CountedKey CountedRow where
  key := CountedWrite.key
  value := CountedWrite.value
  look := CountedDb.look
  look_apply := CountedDb.look_apply

abbrev CountedWorld (ι : Type) :=
  World CountedStmt CountedDb CountedWrite OffsetDateTime DbError CountedAnswer ι

/-- The worlds that the operations reach, interleaved in any way. -/
abbrev CountedReaches {ι : Type} [DecidableEq ι] (ops : ι → CountedOp) (db : CountedDb)
    (t : OffsetDateTime) (w : CountedWorld ι) : Prop :=
  World.Reaches countedKeyed (fun i => (ops i).prog) db t w

/-! ## What a run keeps -/

/-- A row's users exist, and a counter is 0. -/
def CountedRow.Fits (users : Table User User.id) : CountedRow → Prop
  | .row (.broadcast b) => (users.get b.creatorId).isSome
  | .row _ => True
  | .subscriber r => (users.get r.subscriberId).isSome ∧ (users.get r.subscriptionId).isSome
  | .counts r => r = .zero r.id

/-- The users stay, each with a row of counters. -/
def SameUsers (users : Table User User.id) (db : CountedDb) : Prop :=
  db.tables.users = users ∧ ∀ u, (users.get u).isSome → (db.counts.get u).isSome

def RowsFit (users : Table User User.id) (db : CountedDb) : Prop :=
  ∀ k r, db.look k = some r → r.Fits users

section Keeps

variable {users : Table User User.id} {db : CountedDb}

theorem sameUsers_apply (db : CountedDb) (w : CountedWrite) (h : SameUsers users db) :
    SameUsers users (db.apply w) := by
  obtain ⟨husers, hcounts⟩ := h
  cases w with
  | row w => exact ⟨(BroadcastDb.users_apply _ _).trans husers, hcounts⟩
  | counts r =>
    refine ⟨husers, fun u hu => ?_⟩
    show ((db.counts.put r).get u).isSome
    rw [Table.get_put]
    split
    · rfl
    · exact hcounts u hu
  | _ => exact ⟨husers, hcounts⟩

theorem sameUsers_applyAll {ws : List CountedWrite} (h : SameUsers users db) :
    SameUsers users (countedEngine.applyAll db ws) := by
  have hall : ∀ w ∈ ws, (fun _ : CountedWrite => True) w := fun _ _ => trivial
  exact applyAll_invariant (fun d w hd _ => sameUsers_apply d w hd) h hall

theorem rowsFit_applyAll {ws : List CountedWrite} (h : RowsFit users db)
    (hws : ∀ w ∈ ws, ∀ r ∈ w.value, r.Fits users) : RowsFit users (countedEngine.applyAll db ws) := by
  refine applyAll_invariant ?_ h hws
  intro d w hd hw k r hr
  rw [show countedEngine.apply d w = d.apply w from rfl, CountedDb.look_apply] at hr
  split at hr
  · exact hw r hr
  · exact hd k r hr

theorem checkUser_ok {d : BroadcastDb} {u : Uuid} {a : Unit} (h : checkUser d u = .ok a) :
    (d.users.get u).isSome := by
  unfold checkUser at h
  split at h
  · assumption
  · cases h

/-- The broadcasts that a statement writes have a creator, when those have that are there. -/
theorem exec_creators {β : Type} {s : BroadcastStmt β} {d : BroadcastDb} {now : OffsetDateTime}
    {a : β} {ws : List BroadcastWrite} (he : s.exec now d = .ok (a, ws))
    (h : ∀ id b, d.broadcasts.get id = some b → (d.users.get b.creatorId).isSome) :
    ∀ row, BroadcastWrite.broadcast row ∈ ws → (d.users.get row.creatorId).isSome := by
  have hone : ∀ {id : Uuid} {old row : Broadcast}, d.broadcasts.get id = some old →
      row.creatorId = old.creatorId → ∀ row', BroadcastWrite.broadcast row' ∈
        [BroadcastWrite.broadcast row] → (d.users.get row'.creatorId).isSome := by
    intro id old row hold hcreator row' hrow
    cases List.mem_singleton.1 hrow
    rw [hcreator]
    exact h id old hold
  have hcount : ∀ (b : Uuid) (n : Int) (row' : Broadcast), BroadcastWrite.broadcast row' ∈
      countParticipant d now b n → (d.users.get row'.creatorId).isSome := by
    intro b n row' hrow
    unfold countParticipant at hrow
    cases hb : d.broadcasts.get b with
    | none => rw [hb] at hrow; cases hrow
    | some old => rw [hb] at hrow; exact hone hb (by rfl) row' hrow
  cases s with
  | create id input =>
    simp only [BroadcastStmt.exec, BroadcastRepository.create, bind_eq_ok] at he
    obtain ⟨_, _, _, _, _, _, _, _, _, _, _, _, he⟩ := he
    split at he
    · cases he
    · simp only [bind_eq_ok, pure_eq_ok, Prod.mk.injEq] at he
      obtain ⟨_, huser, _, rfl⟩ := he
      intro row hrow
      cases List.mem_singleton.1 hrow
      exact checkUser_ok huser
  | update input =>
    simp only [BroadcastStmt.exec, BroadcastRepository.update, bind_eq_ok] at he
    obtain ⟨_, _, _, _, _, _, _, _, _, _, he⟩ := he
    cases hold : d.broadcasts.get input.broadcastId with
    | none => rw [hold] at he; cases he
    | some old =>
      rw [hold] at he
      simp only [bind_eq_ok, pure_eq_ok, Prod.mk.injEq] at he
      obtain ⟨_, _, _, rfl⟩ := he
      exact hone hold rfl
  | delete id =>
    simp only [BroadcastStmt.exec, BroadcastRepository.delete] at he
    cases hold : (d.broadcasts.get id).filter fun b => b.deletedAt.isNone with
    | none => rw [hold] at he; cases he; simp
    | some old =>
      rw [hold] at he
      cases he
      exact hone (Option.filter_eq_some_iff.1 hold).1 rfl
  | setActive input =>
    simp only [BroadcastStmt.exec, setActive] at he
    cases hold : d.broadcasts.get input.broadcastId with
    | none => rw [hold] at he; cases he
    | some old =>
      rw [hold] at he
      cases he
      exact hone hold rfl
  | setInactive id reason =>
    simp only [BroadcastStmt.exec, setInactive] at he
    cases hold : d.broadcasts.get id with
    | none => rw [hold] at he; cases he; simp
    | some old =>
      rw [hold] at he
      cases he
      exact hone hold rfl
  | addCohosts b us c =>
    intro row hrow
    obtain ⟨u, hu⟩ := addCohosts_touches us he _ hrow
    cases hu
  | removeCohost b u =>
    simp only [BroadcastStmt.exec, BroadcastRepository.removeCohost] at he
    split at he
    · cases he
      simp
    · cases he
      simp
  | upsertParticipant input =>
    simp only [BroadcastStmt.exec, upsertParticipant] at he
    cases hp : d.participants.get (input.broadcastId, input.participantId) with
    | some p =>
      rw [hp] at he
      cases he
      simp
    | none =>
      rw [hp] at he
      simp only [bind_eq_ok, pure_eq_ok, Prod.mk.injEq, true_and] at he
      obtain ⟨_, _, _, _, rfl⟩ := he
      intro row hrow
      rcases List.mem_cons.1 hrow with hrow | hrow
      · cases hrow
      · exact hcount _ _ row hrow
  | removeParticipant b u =>
    simp only [BroadcastStmt.exec, BroadcastRepository.removeParticipant] at he
    split at he
    · cases he
      intro row hrow
      rcases List.mem_cons.1 hrow with hrow | hrow
      · cases hrow
      · exact hcount _ _ row hrow
    · cases he
      simp
  | getParticipantIdsAndClear b =>
    cases he
    intro row hrow
    obtain ⟨p, _, hp⟩ := List.mem_map.1 hrow
    cases hp
  | _ => cases he; simp

theorem broadcast_fits {ws : List BroadcastWrite} {β : Type} {s : BroadcastStmt β} {a : β}
    {now : OffsetDateTime} (husers : SameUsers users db) (h : RowsFit users db)
    (he : s.exec now db.broadcastDb = .ok (a, ws)) :
    ∀ w ∈ ws.map CountedWrite.row, ∀ r ∈ w.value, r.Fits users := by
  have hcreators : ∀ row, BroadcastWrite.broadcast row ∈ ws → (users.get row.creatorId).isSome := by
    have hrows := exec_creators he fun id b hb => ?_
    · rw [← husers.1]
      exact hrows
    · have hlook : db.look (.row (.broadcast id)) = some (.row (.broadcast b)) := by
        have hget : db.tables.broadcasts.get id = some b := hb
        simp [CountedDb.look, BroadcastDb.look, hget]
      have hfits := h _ _ hlook
      rw [← husers.1] at hfits
      exact hfits
  intro w hw r hr
  obtain ⟨x, hx, rfl⟩ := List.mem_map.1 hw
  cases x with
  | broadcast row => cases hr; exact hcreators row hx
  | cohost row => cases hr; trivial
  | dropCohost b u => cases hr
  | participant row => cases hr; trivial
  | dropParticipant b u => cases hr

/-- Every statement keeps the users and the counters as they are. -/
theorem exec_fits {β : Type} (s : CountedStmt β) :
    countedEngine.Keeps (fun db => SameUsers users db ∧ RowsFit users db) s := by
  intro now db a ws he h
  obtain ⟨husers, hrows⟩ := h
  refine ⟨sameUsers_applyAll husers, rowsFit_applyAll hrows ?_⟩
  cases s with
  | broadcast s =>
    simp only [countedEngine, CountedStmt.exec, bind_eq_ok, pure_eq_ok, Prod.mk.injEq] at he
    obtain ⟨⟨a', ws'⟩, he, rfl, rfl⟩ := he
    rw [CountedDb.fireAll_eq]
    exact broadcast_fits husers hrows he
  | subscribers s =>
    cases s with
    | create s c =>
      simp only [countedEngine, CountedStmt.exec, SubscriberStmt.exec,
        SubscribersRepository.create] at he
      split at he
      · cases he
      · split at he
        · cases he
          simp
        · simp only [bind_eq_ok, pure_eq_ok, Prod.mk.injEq, true_and] at he
          obtain ⟨_, hs, _, hc, rfl⟩ := he
          rw [CountedDb.triggerFollowCounts_eq]
          intro w hw r hr
          cases List.mem_singleton.1 hw
          cases hr
          rw [← husers.1]
          exact ⟨checkUser_ok hs, checkUser_ok hc⟩
    | delete s c =>
      simp only [countedEngine, CountedStmt.exec, SubscriberStmt.exec,
        SubscribersRepository.delete] at he
      cases hrow : db.subscribers.get (s, c) with
      | none => rw [hrow] at he; cases he; simp
      | some row =>
        rw [hrow] at he
        cases he
        rw [CountedDb.triggerFollowCounts_eq]
        intro w hw r hr
        cases List.mem_singleton.1 hw
        cases hr
    | findUserById id => cases he; simp

end Keeps

/-! ## Whether the counters are right -/

/-- Every counter is the number of the rows that it stands for. -/
def CountersKept (db : CountedDb) : Prop :=
  ∀ c ∈ db.counts.rows,
    c.followers = db.subscribers.rows.countP (fun r => r.subscriptionId == c.id) ∧
    c.following = db.subscribers.rows.countP (fun r => r.subscriberId == c.id) ∧
    c.broadcasts =
      db.tables.broadcasts.rows.countP (fun b => b.creatorId == c.id && b.deletedAt.isNone)

/-- Nobody subscribes to anybody, and every broadcast is deleted. -/
def NothingToCount (db : CountedDb) : Prop :=
  db.subscribers.rows = [] ∧ ∀ b ∈ db.tables.broadcasts.rows, b.deletedAt.isSome

instance (db : CountedDb) : Decidable (CountersKept db) :=
  inferInstanceAs (Decidable (∀ c ∈ db.counts.rows, _ ∧ _ ∧ _))

instance (db : CountedDb) : Decidable (NothingToCount db) :=
  inferInstanceAs (Decidable (_ ∧ _))

theorem fits_of_reaches {ι : Type} [DecidableEq ι] {ops : ι → CountedOp}
    {users : Table User User.id} {t : OffsetDateTime} {w : CountedWorld ι}
    (h : CountedReaches ops (.ofUsers users) t w) :
    SameUsers users w.committed ∧ RowsFit users w.committed := by
  have hmerge : Mergeable countedKeyed fun db => SameUsers users db ∧ RowsFit users db :=
    (mergeable_of_apply countedKeyed sameUsers_apply).and countedKeyed (mergeable_rows countedKeyed)
  refine (World.merged_of_reaches (World.anything_disciplined countedKeyed)
    (fun _ => World.uses_anything _) hmerge exec_fits ?_ h).committed
  refine ⟨⟨rfl, fun u hu => ?_⟩, fun k r hr => ?_⟩
  · obtain ⟨user, huser⟩ := Option.isSome_iff_exists.1 hu
    obtain ⟨hmem, hid⟩ := Table.get_eq_some_iff.1 huser
    rw [← hid, Option.isSome_iff_exists]
    exact ⟨.zero user.id, Table.get_eq_some_iff.2 ⟨List.mem_map_of_mem hmem, rfl⟩⟩
  · cases k with
    | row k => cases k <;> cases hr
    | subscriber s c => cases hr
    | counts id =>
      obtain ⟨row, hrow, rfl⟩ := Option.map_eq_some_iff.1 hr
      obtain ⟨hmem, _⟩ := Table.get_eq_some_iff.1 hrow
      obtain ⟨user, _, rfl⟩ := List.mem_map.1 hmem
      rfl

/-- A user who has a row of counters finds 0 in it. -/
theorem counts_of_fits {users : Table User User.id} {db : CountedDb} (h : SameUsers users db)
    (hfit : RowsFit users db) {u : Uuid} (hu : (users.get u).isSome) :
    UserCounts.zero u ∈ db.counts.rows := by
  obtain ⟨row, hrow⟩ := Option.isSome_iff_exists.1 (h.2 u hu)
  obtain ⟨hmem, hid⟩ := Table.get_eq_some_iff.1 hrow
  have hzero : row = .zero row.id := by
    refine hfit (.counts u) (.counts row) ?_
    rw [CountedDb.look, hrow]
    rfl
  rw [← hid, ← hzero]
  exact hmem

/-- In every store that subscriptions and broadcasts reach, interleaved in any way, the counters are
right exactly if there is nothing to count. -/
theorem counters_kept_iff {ι : Type} [DecidableEq ι] (ops : ι → CountedOp)
    (users : Table User User.id) (t : OffsetDateTime) (w : CountedWorld ι)
    (h : CountedReaches ops (.ofUsers users) t w) :
    CountersKept w.committed ↔ NothingToCount w.committed := by
  obtain ⟨hsame, hfit⟩ := fits_of_reaches h
  generalize w.committed = db at hsame hfit
  constructor
  · intro hkept
    refine ⟨List.eq_nil_iff_forall_not_mem.2 fun r hr => ?_, fun b hb => ?_⟩
    · have hfits : (CountedRow.subscriber r).Fits users := by
        refine hfit (.subscriber r.subscriberId r.subscriptionId) _ ?_
        have hget : db.subscribers.get (r.subscriberId, r.subscriptionId) = some r :=
          Table.mem_rows_iff.1 hr
        rw [CountedDb.look, hget]
        rfl
      have hnone := (hkept _ (counts_of_fits hsame hfit hfits.2)).1
      have hpos : 0 < db.subscribers.rows.countP fun r' => r'.subscriptionId == r.subscriptionId :=
        List.countP_pos_iff.2 ⟨r, hr, by simp⟩
      simp only [UserCounts.zero] at hnone
      omega
    · have hfits : (CountedRow.row (.broadcast b)).Fits users := by
        refine hfit (.row (.broadcast b.id)) _ ?_
        rw [CountedDb.look, BroadcastDb.look, Table.mem_rows_iff.1 hb]
        rfl
      have hnone := (hkept _ (counts_of_fits hsame hfit hfits)).2.2
      by_contra hlive
      have hpos : 0 < db.tables.broadcasts.rows.countP fun b' =>
          b'.creatorId == b.creatorId && b'.deletedAt.isNone :=
        List.countP_pos_iff.2 ⟨b, hb, by simpa using hlive⟩
      simp only [UserCounts.zero] at hnone
      omega
  · rintro ⟨hempty, hdeleted⟩ c hc
    have hzero : c = .zero c.id := by
      refine hfit (.counts c.id) (.counts c) ?_
      rw [CountedDb.look, Table.mem_rows_iff.1 hc]
      rfl
    have hnone : db.tables.broadcasts.rows.countP
        (fun b => b.creatorId == c.id && b.deletedAt.isNone) = 0 := by
      refine List.countP_eq_zero.2 fun b hb => ?_
      have hdel := hdeleted b hb
      simp [Option.isNone_iff_eq_none, Option.isSome_iff_ne_none.1 hdel]
    rw [hempty, hnone, hzero]
    exact ⟨rfl, rfl, rfl⟩

/-- User 2 subscribes to user 1, user 1 creates broadcast 9; both are undone. -/
def comeAndGo : Fin 4 → CountedOp
  | 0 => .subscribe ⟨2⟩ ⟨1⟩
  | 1 => .broadcast (.create 1 1 ⟨9⟩ morningPrayer ⟨1⟩)
  | 2 => .unsubscribe ⟨2⟩ ⟨1⟩
  | 3 => .broadcast (.delete ⟨9⟩ ⟨1⟩)

/-- With everything undone the counters are right. -/
theorem counters_right_again : ∃ w : CountedWorld (Fin 4),
    CountedReaches comeAndGo (.ofUsers twoUsers) 0 w ∧ w.log.length = 4 ∧
      (CountersKept w.committed ↔ NothingToCount w.committed) ∧ CountersKept w.committed := by
  have hrun : ∃ w : CountedWorld (Fin 4), CountedReaches comeAndGo (.ofUsers twoUsers) 0 w ∧
      w.log.length = 4 ∧ CountersKept w.committed :=
    World.reaches_of_runSchedule
      (List.replicate 3 (1, 0) ++ List.replicate 6 (1, 1) ++ List.replicate 3 (2, 2) ++
        List.replicate 4 (2, 3))
      (by decide +kernel)
  obtain ⟨w, hw, hlen, hkept⟩ := hrun
  exact ⟨w, hw, hlen, counters_kept_iff comeAndGo twoUsers 0 w hw, hkept⟩

/-- User 1 has a follower and a broadcast, and 0 of both. -/
theorem counters_stay_zero : ∃ w : CountedWorld (Fin 4),
    CountedReaches comeAndGo (.ofUsers twoUsers) 0 w ∧
      w.committed.subscribers.rows.length = 1 ∧ w.committed.tables.broadcasts.rows.length = 1 ∧
      w.committed.counts.get ⟨1⟩ = some (.zero ⟨1⟩) ∧ ¬CountersKept w.committed :=
  World.reaches_of_runSchedule (List.replicate 3 (1, 0) ++ List.replicate 6 (1, 1))
    (by decide +kernel)

end Meno
