import Meno.Broadcast.Connections
import Meno.Broadcast.Ending

/-!
# Meno.Broadcast.Grace

The grace period of a host who is gone. `end_broadcast` ends the broadcast when it finds the key
`host_grace`, and the key is there until the grace period is over: so what it ends is always a
broadcast whose host is within the grace period, and what is to be ended by it, never.
-/

namespace Meno

open Lib BroadcastRepository BroadcastService

/-! ## The condition and the property -/

/-- The host has had no connection for the whole grace period that was announced last. -/
def WholeGrace (s : LiveState) (t : OffsetDateTime) (job : EndBroadcastJob) : Prop :=
  ∃ m a, s.announced job.broadcastId = some m ∧ s.gone job.hostId = some a ∧
    a + seconds m.gracePeriod ≤ t

/-- A job that ends a live broadcast finds its host gone for the whole grace period. -/
def GraceKept (s : LiveState) (e : LiveEntry) : Prop :=
  ∀ i job, e.event = .runJob i → s.jobs[i]? = some job → IsLive s.db job.broadcastId →
    ¬IsLive (s.step e).db job.broadcastId → WholeGrace s e.time job

/-- The job finds the key, and its end commits. -/
structure FindsKey (s : LiveState) (e : LiveEntry) (job : EndBroadcastJob) : Prop where
  key : s.inGrace e.time job.broadcastId = true
  answer : .exists ∉ e.fails
  commits : EndCommits s.db job.broadcastId job.hostId e.faults

/-- No job that is run finds the key of a broadcast that it can end. -/
def NoJobFindsKey (s : LiveState) (e : LiveEntry) : Prop :=
  ∀ i job, e.event = .runJob i → s.jobs[i]? = some job → ¬FindsKey s e job

/-- The key is stored when a host is gone. -/
def KeyStored (_ : LiveState) (e : LiveEntry) : Prop := .setEx ∉ e.fails

/-! ## One job -/

section Job

variable {s : LiveState} {e : LiveEntry} {i : Nat} {job : EndBroadcastJob}

theorem isLive_congr {db db' : BroadcastDb} (h : db'.broadcasts = db.broadcasts) (b : Uuid) :
    IsLive db' b ↔ IsLive db b := by
  unfold IsLive findById
  rw [h]

/-- The tables after a job: those after the end that it asks for, if it finds the key. -/
theorem job_db (he : e.event = .runJob i) (hjob : s.jobs[i]? = some job) :
    (.exists ∉ e.fails ∧ s.inGrace e.time job.broadcastId = true ∧
      ∃ db, db.broadcasts = s.db.broadcasts ∧ (s.step e).db =
        ((BroadcastOp.endBroadcast e.time job.broadcastId job.hostId).run e.time e.faults db).2) ∨
    ¬(.exists ∉ e.fails ∧ s.inGrace e.time job.broadcastId = true) ∧ (s.step e).db = s.db := by
  simp only [LiveState.step, he, LiveState.happen, LiveState.endBroadcastJob, hjob]
  by_cases hkey : .exists ∉ e.fails ∧ s.inGrace e.time job.broadcastId = true
  · refine .inl ⟨hkey.1, hkey.2, ?_⟩
    let s' := if .del ∈ e.fails then s else s.delGrace job.broadcastId
    refine ⟨s'.dbAt e.time, ?_, ?_⟩
    · unfold s'
      split <;> rfl
    · simp only [hkey.1, hkey.2, not_false_eq_true, decide_true, Bool.and_self, Bool.not_true,
        Bool.false_eq_true, if_false]
      generalize hres : LiveState.request _ e.time e.faults _ = res
      have hdb : res.2.db = _ := congrArg (fun r => r.2.db) hres.symm
      obtain ⟨r, s''⟩ := res
      cases r <;> exact hdb
  · refine .inr ⟨hkey, ?_⟩
    have hno : (decide (.exists ∉ e.fails) && s.inGrace e.time job.broadcastId) = false := by
      simpa using hkey
    simp only [hno, Bool.not_false, if_true]

/-- A job that finds the key of a broadcast that it can end, ends it. -/
theorem job_ends (he : e.event = .runJob i) (hjob : s.jobs[i]? = some job)
    (h : FindsKey s e job) : ¬IsLive (s.step e).db job.broadcastId := by
  rcases job_db he hjob with ⟨-, -, db, hsame, hdb⟩ | ⟨hno, -⟩
  · rw [hdb]
    rcases run_endBroadcast db e.time e.time job.broadcastId job.hostId e.faults with
      ⟨-, -, hended⟩ | ⟨hno, -, -⟩
    · exact not_live_of_ended hended
    · refine absurd ⟨?_, h.commits.calls⟩ hno
      simpa only [findById, hsame] using h.commits.row
  · exact absurd ⟨h.answer, h.key⟩ hno

/-- Otherwise it leaves the broadcasts as they are. -/
theorem job_spares (he : e.event = .runJob i) (hjob : s.jobs[i]? = some job)
    (h : ¬FindsKey s e job) : (s.step e).db.broadcasts = s.db.broadcasts := by
  rcases job_db he hjob with ⟨hanswer, hkey, db, hsame, hdb⟩ | ⟨-, hdb⟩
  · rw [hdb]
    rcases run_endBroadcast db e.time e.time job.broadcastId job.hostId e.faults with
      ⟨hc, -, -⟩ | ⟨-, -, hd⟩
    · refine absurd ⟨hkey, hanswer, ?_, hc.calls⟩ h
      simpa only [findById, hsame] using hc.row
    · rw [hd, hsame]
  · rw [hdb]

end Job

/-! ## The key and the announcement -/

/-- At `t`, the key expires when the grace period that was announced last is over, and the host was
connected until it was announced, or longer. -/
structure GraceInv (t : OffsetDateTime) (s : LiveState) : Prop where
  key : ∀ b x, s.hostGrace b = some x →
    ∃ m, s.announced b = some m ∧ x = m.sentAt + seconds m.gracePeriod
  sent : ∀ b m, s.announced b = some m → m.sentAt ≤ t
  left : ∀ u a, s.gone u = some a → a ≤ t
  after : ∀ b m a, s.announced b = some m → s.gone m.hostId = some a → m.sentAt ≤ a
  creator : ∀ b m, s.announced b = some m → IsCreator s.db b m.hostId
  present : ∀ c ∈ s.conns, s.gone c.userId = none

/-- What may happen besides connections that come and go: keys are deleted, and the tables
change. -/
structure Quiet (s s' : LiveState) : Prop where
  key : ∀ b x, s'.hostGrace b = some x → s.hostGrace b = some x
  announced : s'.announced = s.announced
  gone : s'.gone = s.gone
  conns : s'.conns = s.conns
  creator : ∀ b u, IsCreator s.db b u → IsCreator s'.db b u

section Quiet

variable {s s' s'' : LiveState} {t : OffsetDateTime} {fails : List LiveCall} {faults : List Bool}

theorem Quiet.refl (s : LiveState) : Quiet s s := ⟨fun _ _ h => h, rfl, rfl, rfl, fun _ _ h => h⟩

theorem Quiet.trans (h : Quiet s s') (h' : Quiet s' s'') : Quiet s s'' where
  key b x hx := h.key b x (h'.key b x hx)
  announced := h'.announced.trans h.announced
  gone := h'.gone.trans h.gone
  conns := h'.conns.trans h.conns
  creator b u hc := h'.creator b u (h.creator b u hc)

theorem quiet_delGrace (s : LiveState) (b : Uuid) : Quiet s (s.delGrace b) := by
  refine ⟨?_, rfl, rfl, rfl, fun _ _ h => h⟩
  intro b' x hx
  by_cases hb : b' = b
  · simp [LiveState.delGrace, hb] at hx
  · simpa [LiveState.delGrace, hb] using hx

theorem quiet_request (s : LiveState) (op : BroadcastOp) : Quiet s (s.request t faults op).2 := by
  refine ⟨fun _ _ h => h, rfl, rfl, rfl, ?_⟩
  intro b u h
  have hat : IsCreator (s.dbAt t) b u := h
  exact hat.op op faults

theorem quiet_handleReconnect (s : LiveState) (u : Uuid) : Quiet s (s.handleReconnect t fails u) := by
  unfold LiveState.handleReconnect
  split
  · exact .refl s
  · dsimp only
    split
    · exact .refl s
    · split
      · exact .refl s
      · exact quiet_delGrace s _

theorem quiet_jobs (s : LiveState) (jobs : List EndBroadcastJob) : Quiet s { s with jobs } :=
  ⟨fun _ _ h => h, rfl, rfl, rfl, fun _ _ h => h⟩

theorem quiet_endBroadcastJob (s : LiveState) (i : Nat) :
    Quiet s (s.endBroadcastJob t fails faults i) := by
  unfold LiveState.endBroadcastJob
  split
  · exact .refl s
  · rename_i job hjob
    dsimp only
    split
    · exact quiet_jobs s _
    · have hdel : Quiet s (if .del ∈ fails then s else s.delGrace job.broadcastId) := by
        split
        · exact .refl s
        · exact quiet_delGrace s _
      have hreq : ∀ s', Quiet s s' → Quiet s (s'.request t faults
          (.endBroadcast t job.broadcastId job.hostId)).2 :=
        fun s' hs' => hs'.trans (quiet_request s' _)
      have hreq := hreq _ hdel
      generalize LiveState.request _ t faults _ = res at hreq ⊢
      obtain ⟨r, s'⟩ := res
      cases r with
      | ok a => exact hreq.trans (quiet_jobs s' _)
      | error e => exact hreq

theorem GraceInv.quiet (h : GraceInv t s) (hq : Quiet s s') : GraceInv t s' where
  key b x hx := by
    rw [hq.announced]
    exact h.key b x (hq.key b x hx)
  sent b m hm := h.sent b m (hq.announced ▸ hm)
  left u a ha := h.left u a (hq.gone ▸ ha)
  after b m a hm ha := h.after b m a (hq.announced ▸ hm) (hq.gone ▸ ha)
  creator b m hm := hq.creator b _ (h.creator b m (hq.announced ▸ hm))
  present c hc := by
    rw [hq.gone]
    exact h.present c (hq.conns ▸ hc)

theorem GraceInv.mono (h : GraceInv t s) {t' : OffsetDateTime} (ht : t ≤ t') : GraceInv t' s where
  key := h.key
  sent b m hm := (h.sent b m hm).trans ht
  left u a ha := (h.left u a ha).trans ht
  after := h.after
  creator := h.creator
  present := h.present

end Quiet

/-! ## Connections -/

section Connections

variable {s : LiveState} {t : OffsetDateTime} {fails : List LiveCall}

theorem GraceInv.arrive (h : GraceInv t s) (u : Uuid) :
    GraceInv t { s with gone := Function.update s.gone u none } where
  key := h.key
  sent := h.sent
  left u' a ha := by
    by_cases hu : u' = u
    · simp [hu] at ha
    · exact h.left u' a (by simpa [hu] using ha)
  after b m a hm ha := by
    by_cases hu : m.hostId = u
    · simp [hu] at ha
    · exact h.after b m a hm (by simpa [hu] using ha)
  creator := h.creator
  present c hc := by
    by_cases hu : c.userId = u
    · simp [hu]
    · simpa [hu] using h.present c hc

theorem GraceInv.connect (h : GraceInv t s) (connId : Nat) (u : Uuid) :
    GraceInv t (s.connect t fails connId u) := by
  have hq : Quiet { s with gone := Function.update s.gone u none }
      (LiveState.handleReconnect { s with gone := Function.update s.gone u none } t fails u) :=
    quiet_handleReconnect _ u
  have hre := (h.arrive u).quiet hq
  refine ⟨hre.key, hre.sent, hre.left, hre.after, hre.creator, ?_⟩
  intro c hc
  rcases List.mem_cons.1 hc with rfl | hc
  · show (LiveState.handleReconnect _ t fails u).gone u = none
    rw [hq.gone]
    simp
  · exact hre.present c hc

theorem gone_unregister {conn : Connection} {u : Uuid} {a : OffsetDateTime}
    (h : (s.unregister t conn).gone u = some a) : a = t ∨ s.gone u = some a := by
  simp only [LiveState.unregister] at h
  split at h
  · exact .inr h
  · by_cases hu : u = conn.userId
    · simp only [hu, Function.update_self] at h
      exact .inl (Option.some.inj h).symm
    · exact .inr (by simpa [hu] using h)

theorem GraceInv.unregister (h : GraceInv t s) (conn : Connection) :
    GraceInv t (s.unregister t conn) where
  key := h.key
  sent := h.sent
  left u a ha := by
    rcases gone_unregister ha with rfl | ha
    · exact le_rfl
    · exact h.left u a ha
  after b m a hm ha := by
    rcases gone_unregister ha with rfl | ha
    · exact h.sent b m hm
    · exact h.after b m a hm ha
  creator := h.creator
  present c hc := by
    obtain ⟨hmem, -⟩ := List.mem_filter.1 hc
    have hold := h.present c hmem
    simp only [LiveState.unregister]
    split
    · exact hold
    · rename_i hany
      have hne : c.userId ≠ conn.userId := by
        intro hu
        refine hany (List.any_eq_true.2 ⟨c, hc, ?_⟩)
        simpa using hu
      simpa [hne] using hold

/-- The user of a connection that is there is gone from now on, or not at all. -/
theorem gone_after_unregister (h : GraceInv t s) {conn : Connection} (hmem : conn ∈ s.conns)
    {a : OffsetDateTime} (ha : (s.unregister t conn).gone conn.userId = some a) : a = t := by
  rcases gone_unregister ha with rfl | ha
  · rfl
  · rw [h.present conn hmem] at ha
    cases ha

/-- A host who is found is announced as gone, and the key is stored. -/
theorem handleDisconnect_some {u : Uuid} {broadcast : Broadcast} (hset : .setEx ∉ fails)
    (hfound : (if .findActiveHostedBy ∈ fails then none
      else findActiveBroadcastHostedById s.db u) = some broadcast) :
    ∃ secs, (s.handleDisconnect t fails u true).hostGrace =
        Function.update s.hostGrace broadcast.id (some (t + seconds secs)) ∧
      (s.handleDisconnect t fails u true).announced =
        Function.update s.announced broadcast.id (some ⟨t, u, secs⟩) ∧
      (s.handleDisconnect t fails u true).gone = s.gone ∧
      (s.handleDisconnect t fails u true).conns = s.conns ∧
      (s.handleDisconnect t fails u true).db = s.db := by
  simp only [LiveState.handleDisconnect, hfound, hset, if_false, Bool.not_true, Bool.false_eq_true]
  refine ⟨GracePeriodConfig.getGraceSeconds {}
    (if .incr ∈ fails then (1, s) else s.incrDisconnects t broadcast.id).1, ?_⟩
  by_cases hincr : .incr ∈ fails <;> by_cases hexp : .expire ∈ fails <;>
    by_cases hpush : .push ∈ fails <;> simp only [hincr, hexp, hpush, if_true, if_false] <;>
    exact ⟨rfl, rfl, rfl, rfl, rfl⟩

theorem isCreator_of_found {u : Uuid} {broadcast : Broadcast}
    (hfound : (if .findActiveHostedBy ∈ fails then none
      else findActiveBroadcastHostedById s.db u) = some broadcast) :
    IsCreator s.db broadcast.id u := by
  split at hfound
  · cases hfound
  · have hmem := List.mem_of_find?_eq_some hfound
    have hcond := List.find?_some hfound
    simp only [Bool.and_eq_true, beq_iff_eq] at hcond
    exact ⟨broadcast, Table.mem_rows_iff.1 hmem, hcond.1.1⟩

theorem GraceInv.handleDisconnect (h : GraceInv t s) (hset : .setEx ∉ fails) (u : Uuid)
    (hgone : ∀ a, s.gone u = some a → a = t) (isHost : Bool) :
    GraceInv t (s.handleDisconnect t fails u isHost) := by
  cases isHost with
  | false => exact h
  | true =>
    cases hfound : if .findActiveHostedBy ∈ fails then none
      else findActiveBroadcastHostedById s.db u with
    | none =>
      simp only [LiveState.handleDisconnect, hfound]
      exact h
    | some broadcast =>
      obtain ⟨secs, hkey, hann, hgone', hconns, hdb⟩ := handleDisconnect_some hset hfound (t := t)
      refine ⟨?_, ?_, ?_, ?_, ?_, ?_⟩
      · rw [hkey, hann]
        intro b x hx
        by_cases hb : b = broadcast.id
        · simp only [hb, Function.update_self, Option.some.injEq, exists_eq_left'] at hx ⊢
          exact hx.symm
        · simpa [hb] using h.key b x (by simpa [hb] using hx)
      · rw [hann]
        intro b m hm
        by_cases hb : b = broadcast.id
        · simp only [hb, Function.update_self, Option.some.injEq] at hm
          rw [← hm]
        · exact h.sent b m (by simpa [hb] using hm)
      · rw [hgone']
        exact h.left
      · rw [hann, hgone']
        intro b m a hm ha
        by_cases hb : b = broadcast.id
        · simp only [hb, Function.update_self, Option.some.injEq] at hm
          subst hm
          exact (hgone a ha).ge
        · exact h.after b m a (by simpa [hb] using hm) ha
      · rw [hann, hdb]
        intro b m hm
        by_cases hb : b = broadcast.id
        · simp only [hb, Function.update_self, Option.some.injEq] at hm
          subst hm
          rw [hb]
          exact isCreator_of_found hfound
        · exact h.creator b m (by simpa [hb] using hm)
      · rw [hgone', hconns]
        exact h.present

end Connections

/-! ## Runs -/

section Run

variable {s : LiveState} {e : LiveEntry}

theorem GraceInv.happen {t : OffsetDateTime} {fails : List LiveCall} {faults : List Bool}
    (h : GraceInv t s) (hset : .setEx ∉ fails) (event : LiveEvent) :
    GraceInv t (s.happen t fails faults event) := by
  cases event with
  | connect connId u => exact h.connect connId u
  | disconnect connId isDisconnected =>
    simp only [LiveState.happen, LiveState.disconnect]
    split
    · exact h
    · rename_i conn hconn
      have hmem := List.mem_of_find?_eq_some hconn
      cases isDisconnected with
      | false => exact h.unregister conn
      | true =>
        refine (h.unregister conn).handleDisconnect hset conn.userId ?_ conn.isHost
        intro a ha
        exact gone_after_unregister h hmem ha
  | runJob i => exact h.quiet (quiet_endBroadcastJob s i)
  | runSpawned i =>
    simp only [LiveState.happen]
    split
    · exact h
    · rename_i b hb
      have hq : Quiet s { s with spawned := s.spawned.eraseIdx i } :=
        ⟨fun _ _ h => h, rfl, rfl, rfl, fun _ _ h => h⟩
      split
      · exact h.quiet hq
      · exact h.quiet (hq.trans (quiet_delGrace _ b))
  | request op => exact h.quiet (quiet_request s op)

theorem GraceInv.step (h : GraceInv s.clock s) (hlater : s.Later e) (hset : KeyStored s e) :
    GraceInv (s.step e).clock (s.step e) := by
  have hnext : GraceInv e.time (s.happen e.time e.fails e.faults e.event) :=
    (h.mono hlater).happen hset e.event
  exact ⟨hnext.key, hnext.sent, hnext.left, hnext.after, hnext.creator, hnext.present⟩

theorem graceInv_init (users : Table User User.id) :
    GraceInv (LiveState.init users).clock (.init users) where
  key b x hx := by cases hx
  sent b m hm := by cases hm
  left u a ha := by cases ha
  after b m a hm := by cases hm
  creator b m hm := by cases hm
  present c hc := by cases hc

/-- A job that does not find the key ends nothing. -/
theorem graceKept_of_noKey (h : NoJobFindsKey s e) : GraceKept s e := by
  intro i job he hjob hlive hdead
  refine absurd ?_ hdead
  rwa [isLive_congr (job_spares he hjob (h i job he hjob))]

/-- Who finds the key finds the grace period not yet over. -/
theorem graceKept_iff (h : GraceInv s.clock s) : GraceKept s e ↔ NoJobFindsKey s e := by
  refine ⟨?_, graceKept_of_noKey⟩
  intro hkept i job he hjob hfinds
  obtain ⟨row, hrow, hhost, hactive⟩ := hfinds.commits.row
  obtain ⟨m, a, hm, ha, hwhole⟩ :=
    hkept i job he hjob ⟨row, hrow, hactive⟩ (job_ends he hjob hfinds)
  obtain ⟨x, hx, hlt⟩ : ∃ x, s.hostGrace job.broadcastId = some x ∧ e.time < x := by
    have hkey := hfinds.key
    unfold LiveState.inGrace at hkey
    cases hx : s.hostGrace job.broadcastId with
    | none => simp [hx] at hkey
    | some x => exact ⟨x, rfl, by simpa [hx] using hkey⟩
  obtain ⟨m', hm', hexpiry⟩ := h.key _ x hx
  rw [hm] at hm'
  cases hm'
  have hsame : m.hostId = job.hostId := by
    obtain ⟨row', hrow', hcreator⟩ := h.creator _ m hm
    rw [(Option.filter_eq_some_iff.1 hrow).1] at hrow'
    cases hrow'
    rw [← hcreator, hhost]
  have hafter : m.sentAt ≤ a := h.after _ m a hm (hsame ▸ ha)
  have hover : x ≤ e.time := by
    rw [hexpiry]
    exact (Int.add_le_add_right hafter _).trans hwhole
  exact absurd hlt (not_lt.2 hover)

end Run

/-- In every run without a job that finds the key of a broadcast it can end, no host within the
grace period is cut off; and where the key is stored whenever a host is gone, in no other run. -/
theorem grace_kept_iff (users : Table User User.id) :
    (∀ es, Along LiveState.step NoJobFindsKey (.init users) es →
      Along LiveState.step GraceKept (.init users) es) ∧
    (∀ es, Along LiveState.step LiveState.Later (.init users) es →
      Along LiveState.step KeyStored (.init users) es →
      (Along LiveState.step GraceKept (.init users) es ↔
        Along LiveState.step NoJobFindsKey (.init users) es)) := by
  constructor
  · intro es h
    exact h.mono fun _ _ => graceKept_of_noKey
  · intro es hlater hset
    have hstep : ∀ s e, GraceInv s.clock s → s.Later e ∧ KeyStored s e →
        GraceInv (s.step e).clock (s.step e) := fun _ _ h hg => h.step hg.1 hg.2
    have hiff : ∀ s e, GraceInv s.clock s → s.Later e ∧ KeyStored s e →
        (GraceKept s e ↔ NoJobFindsKey s e) := fun _ _ h _ => graceKept_iff h
    exact Along.congr (I := fun s => GraceInv s.clock s) hstep hiff (graceInv_init users)
      (hlater.and hset)

/-! ## A host who reconnects, and one who is cut off -/

instance (s : LiveState) (e : LiveEntry) (job : EndBroadcastJob) : Decidable (FindsKey s e job) :=
  decidable_of_iff (s.inGrace e.time job.broadcastId = true ∧ .exists ∉ e.fails ∧
      EndCommits s.db job.broadcastId job.hostId e.faults)
    ⟨fun h => ⟨h.1, h.2.1, h.2.2⟩, fun h => ⟨h.key, h.answer, h.commits⟩⟩

instance (s : LiveState) (e : LiveEntry) : Decidable (NoJobFindsKey s e) :=
  match h : e.event with
  | .runJob i =>
    match hjob : s.jobs[i]? with
    | none => .isTrue fun i' job he hj => by
        rw [h] at he
        cases he
        rw [hjob] at hj
        cases hj
    | some job => decidable_of_iff (¬FindsKey s e job) <| by
        constructor
        · intro hno i' job' he hj
          rw [h] at he
          cases he
          rw [hjob] at hj
          cases hj
          exact hno
        · intro hall
          exact hall i job h hjob
  | .connect _ _ | .disconnect _ _ | .runSpawned _ | .request _ => .isTrue fun i job he => by
      rw [h] at he
      cases he

instance (s : LiveState) (e : LiveEntry) : Decidable (KeyStored s e) :=
  inferInstanceAs (Decidable (_ ∉ _))

/-- User 1 creates broadcast 9, starts it, connects, and is gone ten seconds later. -/
def hostDrops : List LiveEntry :=
  [{ time := 1, event := .request (.create 1 1 ⟨9⟩ morningPrayer ⟨1⟩) },
   { time := 2, event := .request (.start 2 ⟨9⟩ ⟨1⟩) },
   { time := 3, event := .connect 1 ⟨1⟩ },
   { time := seconds 10, event := .disconnect 1 true }]

/-- The host comes back before the job is run. -/
theorem host_returns : Along LiveState.step GraceKept (.init twoUsers) (hostDrops ++
    [{ time := seconds 20, event := .connect 2 ⟨1⟩ }, { time := seconds 30, event := .runJob 0 }]) :=
  ((grace_kept_iff twoUsers).2 _ (by decide) (by decide)).2 (by decide)

/-- One second after the host was gone, with 120 seconds to come back, the job ends the broadcast. -/
theorem host_is_cut_off :
    let s := (LiveState.init twoUsers).run hostDrops
    let e : LiveEntry := { time := seconds 11, event := .runJob 0 }
    s.announced ⟨9⟩ = some ⟨seconds 10, ⟨1⟩, 120⟩ ∧ s.gone ⟨1⟩ = some (seconds 10) ∧
    IsLive s.db ⟨9⟩ ∧ ¬IsLive (s.step e).db ⟨9⟩ ∧
    ¬Along LiveState.step GraceKept (.init twoUsers) (hostDrops ++ [e]) := by
  intro s e
  have hann : s.announced ⟨9⟩ = some ⟨seconds 10, ⟨1⟩, 120⟩ := by decide
  have hgone : s.gone ⟨1⟩ = some (seconds 10) := by decide
  have hlive : IsLive s.db ⟨9⟩ := by decide
  have hdead : ¬IsLive (s.step e).db ⟨9⟩ := by decide
  refine ⟨hann, hgone, hlive, hdead, fun h => ?_⟩
  obtain ⟨m, a, hm, ha, hover⟩ :=
    (along_append.1 h).2.1 0 ⟨⟨9⟩, ⟨1⟩, .hostDisconnected⟩ rfl (by decide) hlive hdead
  have hm' : some m = some ⟨seconds 10, ⟨1⟩, 120⟩ := hm.symm.trans hann
  have ha' : some a = some (seconds 10) := ha.symm.trans hgone
  cases hm'
  cases ha'
  exact absurd hover (by decide)

end Meno
