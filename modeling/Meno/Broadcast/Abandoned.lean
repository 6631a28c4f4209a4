import Meno.Broadcast.Grace

/-!
# Meno.Broadcast.Abandoned

What becomes of a broadcast whose host does not come back. A job that is run when the grace period
is over finds no key, takes the host for reconnected and is done: nothing ends the broadcast. It is
the same when the connection was opened before the broadcast was started, and no job was queued.
-/

namespace Meno

open Lib BroadcastRepository BroadcastService

/-- What may happen when `h`, the host of `b`, is gone: anything but that the host connects or
starts the broadcast again. -/
structure HostAway (b h : Uuid) (_ : LiveState) (e : LiveEntry) : Prop where
  connect : ∀ connId, e.event ≠ .connect connId h
  start : ∀ now, e.event ≠ .request (.start now b h)

/-- The host asks for the end, and the end commits. -/
def HostEnds (b h : Uuid) (s : LiveState) (e : LiveEntry) : Prop :=
  ∃ now, e.event = .request (.endBroadcast now b h) ∧ EndCommits s.db b h e.faults

/-- A job of the broadcast is run that finds the key. -/
def JobEnds (b : Uuid) (s : LiveState) (e : LiveEntry) : Prop :=
  ∃ i job, e.event = .runJob i ∧ s.jobs[i]? = some job ∧ job.broadcastId = b ∧ FindsKey s e job

/-- A job of the broadcast is run at or after the expiry of the grace period. -/
def JobsLate (b : Uuid) (s : LiveState) (e : LiveEntry) : Prop :=
  ∀ i job, e.event = .runJob i → s.jobs[i]? = some job → job.broadcastId = b →
    ∀ expiry, s.hostGrace b = some expiry → expiry ≤ e.time

section Step

variable {s : LiveState} {e : LiveEntry} {t : OffsetDateTime} {fails : List LiveCall}
  {faults : List Bool} {st : BroadcastStatus} {b h : Uuid}

theorem inStatus_congr {db db' : BroadcastDb} (hsame : db'.broadcasts = db.broadcasts) :
    InStatus st db' b h ↔ InStatus st db b h := by
  unfold InStatus
  rw [hsame]

theorem endCommits_congr {db db' : BroadcastDb} (hsame : db'.broadcasts = db.broadcasts) :
    EndCommits db' b h faults ↔ EndCommits db b h faults := by
  have hrow : findById db' b = findById db b := by rw [findById, hsame, findById]
  constructor
  · intro hc
    exact ⟨hrow ▸ hc.row, hc.calls⟩
  · intro hc
    exact ⟨hrow ▸ hc.row, hc.calls⟩

theorem handleReconnect_db (s : LiveState) (u : Uuid) : (s.handleReconnect t fails u).db = s.db := by
  unfold LiveState.handleReconnect
  split
  · rfl
  · dsimp only
    split
    · rfl
    · split <;> rfl

theorem handleDisconnect_db (s : LiveState) (u : Uuid) (isHost : Bool) :
    (s.handleDisconnect t fails u isHost).db = s.db := by
  unfold LiveState.handleDisconnect
  split
  · rfl
  split
  · rfl
  · by_cases hincr : .incr ∈ fails <;> by_cases hexp : .expire ∈ fails <;>
      by_cases hset : .setEx ∈ fails <;> by_cases hpush : .push ∈ fails <;>
      simp only [hincr, hexp, hset, hpush, if_true, if_false] <;> rfl

/-- Only requests and jobs touch the tables. -/
theorem step_db (hjob : ∀ i, e.event ≠ .runJob i) (hreq : ∀ op, e.event ≠ .request op) :
    (s.step e).db = s.db := by
  obtain ⟨t, event, fails, faults⟩ := e
  cases event with
  | connect connId u => exact handleReconnect_db _ u
  | disconnect connId isDisconnected =>
    simp only [LiveState.step, LiveState.happen, LiveState.disconnect]
    split
    · rfl
    · split
      · exact handleDisconnect_db _ _ _
      · rfl
  | runJob i => exact absurd rfl (hjob i)
  | runSpawned i =>
    simp only [LiveState.step, LiveState.happen]
    split
    · rfl
    · split <;> rfl
  | request op => exact absurd rfl (hreq op)

/-- A step keeps the status of the broadcast, unless it is the host's start or end of it, or a job
of it that finds the key. -/
theorem InStatus.step (hin : InStatus st s.db b h) (haway : HostAway b h s e)
    (hend : st = .active → ¬HostEnds b h s e) (hjob : st = .active → ¬JobEnds b s e) :
    InStatus st (s.step e).db b h := by
  by_cases hquiet : (∀ i, e.event ≠ .runJob i) ∧ ∀ op, e.event ≠ .request op
  · rw [step_db hquiet.1 hquiet.2]
    exact hin
  obtain ⟨t, event, fails, faults⟩ := e
  cases event with
  | connect | disconnect | runSpawned => simp at hquiet
  | runJob i =>
    cases hfound : s.jobs[i]? with
    | none =>
      simp only [LiveState.step, LiveState.happen, LiveState.endBroadcastJob, hfound]
      exact hin
    | some job =>
      by_cases hfinds : FindsKey s ⟨t, .runJob i, fails, faults⟩ job
      · rcases job_db (e := ⟨t, .runJob i, fails, faults⟩) rfl hfound with
          ⟨-, -, db, hsame, hdb⟩ | ⟨-, hdb⟩
        · rw [hdb]
          refine InStatus.op ((inStatus_congr hsame).2 hin) _ (fun _ _ => by simp) ?_
          rintro hst now ⟨⟩
          exact hjob hst ⟨i, job, rfl, hfound, rfl, hfinds⟩
        · rwa [hdb]
      · exact (inStatus_congr (job_spares rfl hfound hfinds)).2 hin
  | request op =>
    have hat : InStatus st (s.dbAt t) b h := hin
    by_cases hop : ∃ now, op = .endBroadcast now b h
    · obtain ⟨now, rfl⟩ := hop
      rcases run_endBroadcast (s.dbAt t) t now b h faults with ⟨hc, -, -⟩ | ⟨-, -, hd⟩
      · cases st with
        | active => exact absurd ⟨now, rfl, hc.row, hc.calls⟩ (hend rfl)
        | inactive =>
          obtain ⟨row, hrow, -, hactive⟩ := hc.row
          rw [(hat.found hrow).2] at hactive
          cases hactive
      · show InStatus st (BroadcastOp.run _ t faults (s.dbAt t)).2 b h
        rw [hd]
        exact hat
    · refine hat.op op ?_ fun _ now he => hop ⟨now, he⟩
      rintro - now rfl
      exact haway.start now rfl

/-- The host's end and such a job make it inactive. -/
theorem inactive_of_ends (hin : InStatus .active s.db b h) (he : HostEnds b h s e ∨ JobEnds b s e) :
    InStatus .inactive (s.step e).db b h := by
  obtain ⟨t, event, fails, faults⟩ := e
  rcases he with ⟨now, rfl, hc⟩ | ⟨i, job, rfl, hfound, rfl, hfinds⟩
  · have hat : InStatus .active (s.dbAt t) b h := hin
    exact hat.ended ⟨hc.row, hc.calls⟩
  · rcases job_db (e := ⟨t, .runJob i, fails, faults⟩) rfl hfound with
      ⟨-, -, db, hsame, hdb⟩ | ⟨hno, -⟩
    · rw [hdb]
      exact InStatus.ended ((inStatus_congr hsame).2 hin) ((endCommits_congr hsame).2 hfinds.commits)
    · exact absurd ⟨hfinds.answer, hfinds.key⟩ hno

end Step

/-! ## Runs -/

section Run

variable {s : LiveState} {b h : Uuid} {es : List LiveEntry}

theorem inactive_run (hin : InStatus .inactive s.db b h)
    (haway : Along LiveState.step (HostAway b h) s es) : InStatus .inactive (s.run es).db b h :=
  Along.invariant (I := fun s => InStatus .inactive s.db b h)
    (fun _ _ hin haway => hin.step haway (by simp) (by simp)) hin haway

/-- While the host is away, the broadcast is ended by the host's own request, or by a job that finds
the key. -/
theorem inactive_iff (haway : Along LiveState.step (HostAway b h) s es)
    (hair : InStatus .active s.db b h) : InStatus .inactive (s.run es).db b h ↔
      ¬Along LiveState.step (fun s e => ¬HostEnds b h s e ∧ ¬JobEnds b s e) s es := by
  induction es generalizing s with
  | nil =>
    refine iff_of_false ?_ fun hno => hno trivial
    rintro ⟨row, hrow, -, hst⟩
    obtain ⟨row', hrow', -, hst'⟩ := hair
    rw [show s.run [] = s from rfl, hrow'] at hrow
    cases hrow
    rw [hst'] at hst
    cases hst
  | cons e es ih =>
    by_cases he : HostEnds b h s e ∨ JobEnds b s e
    · have hdead : InStatus .inactive ((s.step e).run es).db b h :=
        inactive_run (inactive_of_ends hair he) haway.2
      refine iff_of_true hdead ?_
      rintro ⟨⟨hno, hno'⟩, -⟩
      exact he.elim hno hno'
    · rw [not_or] at he
      have hnext := hair.step haway.1 (fun _ => he.1) fun _ => he.2
      refine (ih haway.2 hnext).trans (not_congr ?_)
      exact ⟨fun hrest => ⟨he, hrest⟩, fun hall => hall.2⟩

/-- A job that is run when the grace period is over finds no key. -/
theorem not_jobEnds {e : LiveEntry} (hlate : JobsLate b s e) : ¬JobEnds b s e := by
  rintro ⟨i, job, he, hjob, hb, hfinds⟩
  have hkey := hfinds.key
  rw [hb] at hkey
  unfold LiveState.inGrace at hkey
  cases hx : s.hostGrace b with
  | none => simp [hx] at hkey
  | some expiry =>
    have hover := hlate i job he hjob hb expiry hx
    simp only [hx, Option.any_some, decide_eq_true_eq] at hkey
    exact absurd hkey (not_lt.2 hover)

end Run

/-- While the host is away and the jobs are run at or after the expiry of the grace period, the
broadcast becomes inactive only by a request of the host's. No job ends it. -/
theorem abandoned_iff (s : LiveState) (b h : Uuid) (hair : InStatus .active s.db b h)
    (es : List LiveEntry) (haway : Along LiveState.step (HostAway b h) s es)
    (hlate : Along LiveState.step (fun s e => JobsLate b s e) s es) :
    InStatus .inactive (s.run es).db b h ↔
      ¬Along LiveState.step (fun s e => ¬HostEnds b h s e) s es := by
  rw [inactive_iff haway hair, not_iff_not]
  constructor
  · intro hall
    exact hall.mono fun _ _ he => he.1
  · intro hall
    exact (hall.and hlate).mono fun _ _ he => ⟨he.1, not_jobEnds he.2⟩

/-- The only job, run one second after the grace period. -/
def lateJob : LiveEntry := { time := seconds 131, event := .runJob 0 }

/-- User 1 is gone, and the job is run when the grace period is over. -/
theorem late_job_spares :
    InStatus .inactive (((LiveState.init twoUsers).run hostDrops).run [lateJob]).db ⟨9⟩ ⟨1⟩ ↔
      ¬Along LiveState.step (fun s e => ¬HostEnds ⟨9⟩ ⟨1⟩ s e)
        ((LiveState.init twoUsers).run hostDrops) [lateJob] := by
  refine abandoned_iff _ ⟨9⟩ ⟨1⟩ (by decide) [lateJob] ⟨⟨?_, ?_⟩, trivial⟩ ⟨?_, trivial⟩
  · intro connId he
    cases he
  · intro now he
    cases he
  · intro i job _ _ _ expiry hexpiry
    have hgrace : ((LiveState.init twoUsers).run hostDrops).hostGrace ⟨9⟩ = some (seconds 130) := by
      decide
    rw [hgrace] at hexpiry
    cases hexpiry
    decide

/-- User 1 connects before the start: the connection does not count as a host's. -/
def earlyConnection : List LiveEntry :=
  [{ time := 1, event := .request (.create 1 1 ⟨9⟩ morningPrayer ⟨1⟩) },
   { time := 2, event := .connect 1 ⟨1⟩ },
   { time := 3, event := .request (.start 3 ⟨9⟩ ⟨1⟩) },
   { time := seconds 10, event := .disconnect 1 true }]

/-- The host has lost the only connection, every job has been run after the grace period, and the
broadcast is live: in the first run the job was done in vain, in the second there was none. -/
theorem live_without_host :
    (let s := (LiveState.init twoUsers).run (hostDrops ++ [lateJob])
     s.conns = [] ∧ s.jobs = [] ∧ s.inGrace s.clock ⟨9⟩ = false ∧ IsLive s.db ⟨9⟩) ∧
    (let s := (LiveState.init twoUsers).run earlyConnection
     s.conns = [] ∧ s.jobs = [] ∧ s.announced ⟨9⟩ = none ∧ IsLive s.db ⟨9⟩) := by
  decide

end Meno
