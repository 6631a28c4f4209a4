import Meno.Broadcast.Effects
import Meno.Lib.Outbox
import Meno.Subscribers.Repository

/-!
# Meno.Broadcast.GoingLive

Who is told that a broadcast has gone live. `start` queues the job `broadcast_started_fanout` and
spawns a task; both look up the subscribers of the creator and publish a `NewBroadcast` to each of
them. They run at any time and in any order. `announced_once_iff` says when every subscriber is sent
one.
-/

namespace Meno

open Lib BroadcastRepository BroadcastService

/-! ## The job -/

def broadcastStartedFanout (job : BroadcastStartedFanOutJob) : Act TaskCall DbError Unit := do
  let ids ← Act.ask id (.getSubscriberIds job.creatorId)
  if ids.isEmpty then return
  ExceptT.lift (publishToUsers (.startedFanOut job) ids)

/-- What is done when a job has failed. -/
def orElse (again : Prog TaskCall Unit) : Except DbError Unit → Prog TaskCall Unit
  | .ok () => return
  | .error _ => again

/-- A job under `RetryPolicy::retries(n)`. -/
def withRetries (job : Act TaskCall DbError Unit) : Nat → Prog TaskCall Unit
  | 0 => do orElse (return) (← job.run)
  | n + 1 => do orElse (withRetries job n) (← job.run)

/-- What the worker does with the jobs of the queue. -/
def work : List BroadcastStartedFanOutJob → Prog TaskCall Unit
  | [] => return
  | job :: jobs => do
    withRetries (broadcastStartedFanout job) 3
    work jobs

def runTasks : List SpawnedTask → Prog TaskCall Unit
  | [] => return
  | task :: tasks => do
    task.prog
    runTasks tasks

/-! ## Where they run -/

/-- The subscribers of a creator: `subscriber_id` of the rows with this `subscription_id`. -/
def subscriberIds (subscribers : Table UserSubscriber UserSubscriber.key) (creatorId : Uuid) :
    List Uuid :=
  (subscribers.rows.filter fun r => r.subscriptionId == creatorId).map UserSubscriber.subscriberId

/-- What the calls of one of them meet: which of its coming lookups fail, to whom what it publishes
is lost, and the count of live participants that it finds. -/
structure TaskEnv where
  failing : List Bool
  lost : Recipient → Bool
  liveCount : Int

namespace TaskEnv

def answer (subscribers : Table UserSubscriber UserSubscriber.key) :
    {β : Type} → TaskCall β → TaskEnv → β × TaskEnv × List Published
  | _, .getSubscriberIds creatorId, env =>
    (if env.failing.headD false then .error .infrastructure
      else .ok (subscriberIds subscribers creatorId),
      { env with failing := env.failing.tail }, [])
  | _, .decr _, env =>
    (if env.failing.headD false then .error .unavailable else .ok (env.liveCount - 1),
      { env with failing := env.failing.tail }, [])
  | _, .publish published, env =>
    ((), env, if env.lost published.recipient then [] else [published])

end TaskEnv

/-- The two ways to the subscribers. -/
inductive FanoutPath where
  | job
  | task
deriving DecidableEq

instance : Fintype FanoutPath where
  elems := {.job, .task}
  complete := by intro p; cases p <;> decide

/-- What is to run after an operation. -/
def background {ι : Type} (around : Surroundings ι) (envs : FanoutPath → TaskEnv) :
    Workers TaskCall TaskEnv Published Unit FanoutPath where
  prog
    | .job => work around.jobs
    | .task => runTasks around.spawned
  state := envs
  outbox := around.published

/-- A `NewBroadcast` to the user. -/
def announces (u : Uuid) (published : Published) : Bool :=
  decide (published.recipient = .user u) && decide (published.payload.event = .newBroadcast)

/-- What an operation finds around it that has published, queued and spawned nothing. -/
def Surroundings.fresh {ι : Type} (node : Ws.Local) (others : ι → Ws.WsService)
    (outages : List Bool) : Surroundings ι where
  node
  others
  published := []
  jobs := []
  spawned := []
  outages

/-- One of the first lookups is answered, and what is published to the user is not lost. -/
def TaskEnv.Reaches (env : TaskEnv) (attempts : Nat) (s : Uuid) : Prop :=
  (∃ i, i < attempts ∧ ¬Fails env.failing i) ∧ env.lost (.user s) = false

instance (env : TaskEnv) (attempts : Nat) (s : Uuid) : Decidable (env.Reaches attempts s) :=
  inferInstanceAs (Decidable ((∃ i, i < attempts ∧ ¬Fails env.failing i) ∧ _))

/-! ## What is sent to a subscriber -/

section Sends

variable {subscribers : Table UserSubscriber UserSubscriber.key} {s : Uuid} {u : Uuid}

open TaskEnv (answer)

theorem nodup_subscriberIds (u : Uuid) : (subscriberIds subscribers u).Nodup := by
  refine List.Nodup.map_on ?_ (List.Nodup.filter _ (List.Nodup.of_map _ subscribers.nodup))
  intro r hr r' hr' hsame
  rw [List.mem_filter] at hr hr'
  refine List.inj_on_of_nodup_map subscribers.nodup hr.1 hr'.1 (Prod.ext hsame ?_)
  have hto : r.subscriptionId = u := by simpa using hr.2
  have hto' : r'.subscriptionId = u := by simpa using hr'.2
  exact hto.trans hto'.symm

/-- How often a user is sent a `NewBroadcast` by a program that runs alone. -/
def sends (subscribers : Table UserSubscriber UserSubscriber.key) (s : Uuid) {α : Type}
    (p : Prog TaskCall α) (env : TaskEnv) : Nat :=
  (p.outputs (answer subscribers) env).countP (announces s)

theorem sends_bind {α β : Type} (p : Prog TaskCall α) (f : α → Prog TaskCall β) (env : TaskEnv) :
    sends subscribers s (p >>= f) env = sends subscribers s p env +
      sends subscribers s (f (p.outcome (answer subscribers) env).1)
        (p.outcome (answer subscribers) env).2 := by
  rw [sends, Prog.outputs_bind, List.countP_append]
  rfl

theorem outcome_publishToUsers (payload : BroadcastPayload) (us : List Uuid) (env : TaskEnv) :
    (publishToUsers payload us).outcome (answer subscribers) env = ((), env) := by
  induction us with
  | nil => rfl
  | cons u us ih => exact ih

theorem sends_publishToUsers {payload : BroadcastPayload} (hp : payload.event = .newBroadcast)
    (us : List Uuid) (env : TaskEnv) : sends subscribers s (publishToUsers payload us) env =
      if env.lost (.user s) then 0 else us.count s := by
  induction us with
  | nil => simp [sends, publishToUsers, Prog.outputs]
  | cons u us ih =>
    have hfirst : sends subscribers s (publish (.user u) payload) env =
        if env.lost (.user s) then 0 else if u = s then 1 else 0 := by
      by_cases hu : u = s
      · subst hu
        cases hl : env.lost (.user u) <;>
          simp [sends, publish, TaskCall.call, Prog.outputs, answer, hl, announces, hp]
      · cases hl : env.lost (.user u) <;>
          simp [sends, publish, TaskCall.call, Prog.outputs, answer, hl, announces, hu]
    have hrest : sends subscribers s (publishToUsers payload (u :: us)) env =
        sends subscribers s (publish (.user u) payload) env +
          sends subscribers s (publishToUsers payload us) env := sends_bind _ _ _
    rw [hrest, hfirst, ih, List.count_cons]
    by_cases hu : u = s <;> cases env.lost (.user s) <;> simp [hu, Nat.add_comm]

/-- The subscribers as a lookup finds them. -/
def lookedUp (subscribers : Table UserSubscriber UserSubscriber.key) (u : Uuid) (env : TaskEnv) :
    Except DbError (List Uuid) :=
  if env.failing.headD false then .error .infrastructure else .ok (subscriberIds subscribers u)

/-- What is left of an attempt after its lookup. -/
def passOn (payload : BroadcastPayload) : Except DbError (List Uuid) → Prog TaskCall
    (Except DbError Unit)
  | .ok ids => do
    publishToUsers payload ids
    return .ok ()
  | .error e => return .error e

theorem broadcastStartedFanout_run (job : BroadcastStartedFanOutJob) :
    (broadcastStartedFanout job).run =
      (TaskCall.getSubscriberIds job.creatorId).call >>= passOn (.startedFanOut job) := by
  refine congrArg (Prog.call _) (funext fun r => ?_)
  rcases r with e | ids
  · rfl
  · cases ids <;> rfl

theorem outcome_getSubscriberIds (creatorId : Uuid) (env : TaskEnv) :
    (TaskCall.getSubscriberIds creatorId).call.outcome (answer subscribers) env =
      (lookedUp subscribers creatorId env, { env with failing := env.failing.tail }) := rfl

/-- An attempt at a job ends as its lookup does. -/
theorem outcome_broadcastStartedFanout (job : BroadcastStartedFanOutJob) (env : TaskEnv) :
    (broadcastStartedFanout job).run.outcome (answer subscribers) env =
      ((lookedUp subscribers job.creatorId env).map fun _ => (),
        { env with failing := env.failing.tail }) := by
  rw [broadcastStartedFanout_run, Prog.outcome_bind, outcome_getSubscriberIds]
  cases lookedUp subscribers job.creatorId env with
  | error e => rfl
  | ok ids =>
    dsimp only [passOn]
    rw [Prog.outcome_bind, outcome_publishToUsers]
    rfl

theorem sends_broadcastStartedFanout (job : BroadcastStartedFanOutJob) (env : TaskEnv) :
    sends subscribers s (broadcastStartedFanout job).run env =
      if env.failing.headD false ∨ env.lost (.user s) then 0
      else (subscriberIds subscribers job.creatorId).count s := by
  rw [broadcastStartedFanout_run, sends_bind, outcome_getSubscriberIds]
  cases hf : env.failing.headD false with
  | true =>
    simp only [lookedUp, hf]
    rfl
  | false =>
    have hpass : sends subscribers s (passOn (.startedFanOut job)
        (.ok (subscriberIds subscribers job.creatorId)))
          { env with failing := env.failing.tail } =
        sends subscribers s (publishToUsers (.startedFanOut job)
          (subscriberIds subscribers job.creatorId)) { env with failing := env.failing.tail } :=
      (sends_bind _ _ _).trans (Nat.add_zero _)
    have hnone : sends subscribers s (TaskCall.getSubscriberIds job.creatorId).call env = 0 := rfl
    simp only [lookedUp, hf, Bool.false_eq_true, if_false, false_or]
    rw [hpass, sends_publishToUsers rfl, hnone, Nat.zero_add]

theorem fails_zero {faults : List Bool} : Fails faults 0 ↔ faults.headD false = true := by
  rw [← Session.fails_iff, List.drop_zero]

theorem fails_tail {faults : List Bool} {i : Nat} :
    Fails faults.tail i ↔ Fails faults (i + 1) := by
  cases faults <;> simp [Fails]

/-- A job is tried until a lookup is answered, `n` more times at most. -/
theorem sends_withRetries (job : BroadcastStartedFanOutJob) (n : Nat) : ∀ env : TaskEnv,
    sends subscribers s (withRetries (broadcastStartedFanout job) n) env =
      if env.Reaches (n + 1) s then (subscriberIds subscribers job.creatorId).count s else 0 := by
  induction n with
  | zero =>
    intro env
    have hone : sends subscribers s (withRetries (broadcastStartedFanout job) 0) env =
        sends subscribers s (broadcastStartedFanout job).run env := by
      refine (sends_bind _ _ _).trans ?_
      cases ((broadcastStartedFanout job).run.outcome (answer subscribers) env).1 <;> rfl
    rw [hone, sends_broadcastStartedFanout]
    simp only [TaskEnv.Reaches, Nat.zero_add, Nat.lt_one_iff, exists_eq_left, fails_zero]
    cases env.failing.headD false <;> cases env.lost (.user s) <;> rfl
  | succ n ih =>
    intro env
    have hsplit : sends subscribers s (withRetries (broadcastStartedFanout job) (n + 1)) env =
        sends subscribers s (broadcastStartedFanout job).run env + sends subscribers s
          (orElse (withRetries (broadcastStartedFanout job) n)
            ((broadcastStartedFanout job).run.outcome (answer subscribers) env).1)
          ((broadcastStartedFanout job).run.outcome (answer subscribers) env).2 := by
      rw [← sends_bind]
      rfl
    rw [hsplit, outcome_broadcastStartedFanout, sends_broadcastStartedFanout]
    cases hf : env.failing.headD false with
    | true =>
      have hlater : env.Reaches (n + 1 + 1) s ↔
          { env with failing := env.failing.tail }.Reaches (n + 1) s := by
        simp only [TaskEnv.Reaches, Nat.exists_lt_succ_left, fails_zero, hf, not_true, false_or,
          fails_tail]
      simp only [lookedUp, hf, hlater]
      exact (Nat.zero_add _).trans (ih _)
    | false =>
      have hnow : env.Reaches (n + 1 + 1) s ↔ env.lost (.user s) = false := by
        refine and_iff_right ⟨0, Nat.succ_pos _, ?_⟩
        rw [fails_zero, hf]
        exact Bool.false_ne_true
      simp only [lookedUp, hf, hnow, Bool.false_eq_true, false_or]
      cases env.lost (.user s) <;> rfl

theorem sends_work (job : BroadcastStartedFanOutJob) (env : TaskEnv) :
    sends subscribers s (work [job]) env =
      if env.Reaches 4 s then (subscriberIds subscribers job.creatorId).count s else 0 := by
  have hone : sends subscribers s (work [job]) env =
      sends subscribers s (withRetries (broadcastStartedFanout job) 3) env :=
    (sends_bind _ _ _).trans (Nat.add_zero _)
  rw [hone, sends_withRetries]

theorem sends_announceStart (response : BroadcastResponse) (env : TaskEnv) :
    sends subscribers s (runTasks [.announceStart response]) env =
      if env.Reaches 1 s then (subscriberIds subscribers response.creator.id).count s else 0 := by
  have hhome : ∀ env, sends subscribers s (publish .all .homeInvalidated) env = 0 := by
    intro env
    cases hl : env.lost .all <;>
      simp [sends, publish, TaskCall.call, Prog.outputs, answer, hl, announces]
  have hone : sends subscribers s (runTasks [.announceStart response]) env =
      sends subscribers s (SpawnedTask.announceTo response
        (lookedUp subscribers response.creator.id env))
          { env with failing := env.failing.tail } := by
    have hlast : sends subscribers s (runTasks [.announceStart response]) env =
        sends subscribers s (SpawnedTask.prog (.announceStart response)) env :=
      (sends_bind _ _ _).trans (Nat.add_zero _)
    have hlookup : sends subscribers s (SpawnedTask.prog (.announceStart response)) env =
        0 + sends subscribers s (SpawnedTask.announceTo response
          (lookedUp subscribers response.creator.id env) >>= fun _ =>
            publish .all .homeInvalidated) { env with failing := env.failing.tail } :=
      sends_bind (TaskCall.getSubscriberIds response.creator.id).call _ env
    rw [hlast, hlookup, sends_bind, hhome, Nat.zero_add, Nat.add_zero]
  have hreaches : env.Reaches 1 s ↔ env.failing.headD false = false ∧ env.lost (.user s) = false := by
    simp only [TaskEnv.Reaches, Nat.lt_one_iff, exists_eq_left, fails_zero, Bool.not_eq_true]
  rw [hone, lookedUp]
  simp only [hreaches]
  cases env.failing.headD false with
  | true => rfl
  | false =>
    have hpass : sends subscribers s (SpawnedTask.announceTo response
        (.ok (subscriberIds subscribers response.creator.id)))
          { env with failing := env.failing.tail } =
        sends subscribers s (publishToUsers (.newBroadcast response)
          (subscriberIds subscribers response.creator.id))
            { env with failing := env.failing.tail } := rfl
    rw [if_neg Bool.false_ne_true, hpass, sends_publishToUsers rfl]
    cases env.lost (.user s) <;> simp

end Sends

/-! ## What a start leaves to be run -/

section Start

variable {ι : Type} {db : BroadcastDb} {t now : OffsetDateTime} {b u : Uuid}

/-- Whose start is committed. -/
theorem startCommit_creator : Txn.Ends broadcastEngine false t (BroadcastService.startCommit now b u)
    (fun r _ _ => r.1.creatorId = u ∧ r.2.1.id = u) (fun _ _ _ => True) db none := by
  refine Txn.ends_bind (ends_lookup rfl fun broadcastResult hb => ?_)
  refine Txn.ends_bind (ends_lookup rfl fun creatorResult hu => ?_)
  refine Txn.ends_bind (ends_found hb (fun row hrow => ?_) (fun _ => trivial) fun _ => trivial)
  refine Txn.ends_bind (ends_found hu (fun creator hcreator => ?_) (fun _ => trivial) fun _ => trivial)
  refine Txn.ends_bind (ends_refuse (fun howner => ?_) fun _ => trivial)
  refine Txn.ends_bind (ends_refuse (fun _ => ?_) fun _ => trivial)
  refine Txn.ends_bind (ends_createRoom ?_ (fun _ => trivial) fun _ => trivial)
  refine Txn.ends_bind (ends_mintToken ?_ fun _ => trivial)
  refine Txn.ends_bind (Txn.ends_begin ?_ fun _ => trivial)
  refine Txn.ends_bind (Txn.ends_tx (fun active ws hws => ?_) (fun _ _ => trivial) fun _ => trivial)
  refine Txn.ends_bind (Txn.ends_tx (fun _ ws' hws' => ?_) (fun _ _ => trivial) fun _ => trivial)
  refine Txn.ends_bind (Txn.ends_commit ?_ fun _ => trivial)
  refine Txn.ends_pure ⟨?_, findUserSummary_id hcreator⟩
  have hrow' : db.broadcasts.get b = some row := (Option.filter_eq_some_iff.1 hrow).1
  have hactive : active.creatorId = row.creatorId := by
    have hset : BroadcastRepository.setActive db t _ = .ok (active, ws) := hws
    simp only [BroadcastRepository.setActive, hrow'] at hset
    cases hset
    rfl
  rw [hactive]
  simpa using howner

/-- A start that returns `Ok` has queued the job, unless the queue failed, and spawned the task. -/
theorem start_ok {faults : List Bool} {around : Surroundings ι} {r : BroadcastSessionResponse}
    {after : ServiceState ι}
    (hok : (ServiceOp.start now b u).answer ServiceState.handle (.start db t faults around) =
      (.ok r, after)) :
    ∃ (job : BroadcastStartedFanOutJob) (response : BroadcastResponse),
      job.creatorId = u ∧ response.creator.id = u ∧
      after.around.jobs = (if Fails around.outages 1 then around.jobs else around.jobs ++ [job]) ∧
      after.around.spawned = around.spawned ++ [.announceStart response] ∧
      after.around.published = around.published := by
  obtain ⟨⟨row, creator, token⟩, st₁, hcommit, hrest⟩ :=
    (Act.answer_bind_eq_ok ServiceState.handle).1 hok
  rw [ServiceState.answer_tables_part] at hcommit
  obtain ⟨hanswer, hst₁⟩ := Prod.mk.inj hcommit
  have haround : st₁.around = around := by rw [← hst₁]; rfl
  obtain ⟨hrow, hcreator⟩ : row.creatorId = u ∧ creator.id = u :=
    startCommit_creator.of_ok (d := db) ⟨rfl, rfl, rfl, fun h => absurd h (by decide)⟩
      (Prod.ext hanswer rfl)
  simp only [ServiceState.answer_effect] at hrest
  obtain ⟨cohosts, st₂, hcohosts, hlast⟩ := (Act.answer_bind_eq_ok ServiceState.handle).1 hrest
  rw [ServiceState.answer_tables_part] at hcohosts
  let job : BroadcastStartedFanOutJob :=
    { broadcastId := b, creatorId := row.creatorId, title := row.title, imageUrl := row.imageUrl }
  have hst₂ : st₂.around = (around.perform (.initRoom b [creator.id])).perform
      (.pushBroadcastStartedFanout job) := by
    rw [← haround]
    exact (congrArg ServiceState.around (Prod.mk.inj hcohosts).2).symm
  have hafter : after.around = st₂.around.perform
      (.spawn (.announceStart (buildResponse now row creator cohosts (hostCtx creator.id 1)))) :=
    (congrArg ServiceState.around (Prod.mk.inj hlast).2).symm
  have hdown : Fails around.outages 1 ↔
      (around.perform (.initRoom b [creator.id])).down = true := by
    rw [← fails_tail, ← Session.fails_iff, List.drop_zero]
    rfl
  refine ⟨job, buildResponse now row creator cohosts (hostCtx creator.id 1), hrow, hcreator, ?_⟩
  rw [hafter, hst₂]
  refine ⟨?_, rfl, rfl⟩
  simp only [hdown]
  rfl

end Start

/-! ## Exactly when -/

/-- After a start that returns `Ok` the job and the task are run to their ends. Every subscriber is
sent one `NewBroadcast` exactly when every one of them is reached by one of the two, and not by the
other. -/
theorem announced_once_iff {ι : Type} (db : BroadcastDb) (t now : OffsetDateTime)
    (faults outages : List Bool) (b u : Uuid) (node : Ws.Local) (others : ι → Ws.WsService)
    (subscribers : Table UserSubscriber UserSubscriber.key) (envs : FanoutPath → TaskEnv)
    (schedule : List FanoutPath) (r : BroadcastSessionResponse) (after : ServiceState ι)
    (hok : (ServiceOp.start now b u).answer ServiceState.handle
      (.start db t faults (.fresh node others outages)) = (.ok r, after))
    (hdone : ((background after.around envs).run (TaskEnv.answer subscribers) schedule).Done) :
    (∀ s ∈ subscriberIds subscribers u,
      ((background after.around envs).run (TaskEnv.answer subscribers) schedule).outbox.countP
        (announces s) = 1) ↔
      ∀ s ∈ subscriberIds subscribers u,
        ¬(¬Fails outages 1 ∧ (envs .job).Reaches 4 s ↔ (envs .task).Reaches 1 s) := by
  obtain ⟨job, response, hjob, hresponse, hjobs, hspawned, hpublished⟩ := start_ok hok
  refine forall₂_congr fun s hs => ?_
  have hcount : (subscriberIds subscribers u).count s = 1 :=
    List.count_eq_one_of_mem (nodup_subscriberIds u) hs
  have hsent := Workers.sent_of_done (p := announces s) hdone
  have hboth : ∀ f : FanoutPath → Nat, ∑ i, f i = f .job + f .task :=
    fun f => Finset.sum_pair (by decide)
  have hnone : (background after.around envs).outbox.countP (announces s) = 0 :=
    congrArg (List.countP (announces s)) hpublished
  have htask : Workers.toSend (TaskEnv.answer subscribers) (announces s)
      (background after.around envs) .task = if (envs .task).Reaches 1 s then 1 else 0 := by
    have hsends : Workers.toSend (TaskEnv.answer subscribers) (announces s)
        (background after.around envs) .task =
          sends subscribers s (runTasks after.around.spawned) (envs .task) := rfl
    have hone : after.around.spawned = [.announceStart response] := hspawned
    rw [hsends, hone, sends_announceStart, hresponse, hcount]
  have hjobSends : Workers.toSend (TaskEnv.answer subscribers) (announces s)
      (background after.around envs) .job =
        if ¬Fails outages 1 ∧ (envs .job).Reaches 4 s then 1 else 0 := by
    have hsends : Workers.toSend (TaskEnv.answer subscribers) (announces s)
        (background after.around envs) .job =
          sends subscribers s (work after.around.jobs) (envs .job) := rfl
    have hqueued : after.around.jobs = if Fails outages 1 then [] else [job] := hjobs
    rw [hsends, hqueued]
    by_cases hfails : Fails outages 1
    · simp only [hfails, if_true, not_true, false_and, if_false]
      rfl
    · simp only [hfails, if_false, not_false_eq_true, true_and]
      rw [sends_work, hjob, hcount]
  rw [hsent, hnone, hboth, hjobSends, htask]
  by_cases h : ¬Fails outages 1 ∧ (envs .job).Reaches 4 s <;>
    by_cases h' : (envs .task).Reaches 1 s <;> simp [h, h']

/-! ## Going live with one subscriber -/

/-- User 1 starts broadcast 9 on an instance that nobody is connected to. -/
def goLive (outages : List Bool) : Except BroadcastError BroadcastSessionResponse ×
    ServiceState Empty :=
  (ServiceOp.start 2 ⟨9⟩ ⟨1⟩).answer ServiceState.handle <|
    .start (storeAfter (firstSession.take 1)) 2 [] <|
      .fresh {
        hub := .new, channels := .empty, inbox := []
        redis := { roomMembers := fun _ => .empty, buffers := fun _ => [] } } Empty.elim outages

def oneSubscriber : Table UserSubscriber UserSubscriber.key :=
  .put .empty { subscriberId := ⟨3⟩, subscriptionId := ⟨1⟩, createdAt := 0 }

/-- No lookup fails, and nothing is lost. -/
def smooth : TaskEnv where
  failing := []
  lost := fun _ => false
  liveCount := 1

def afterGoingLive (outages : List Bool) (schedule : List FanoutPath) :
    Workers TaskCall TaskEnv Published Unit FanoutPath :=
  (background (goLive outages).2.around fun _ => smooth).run (TaskEnv.answer oneSubscriber) schedule

/-- When the queue does not take the job, the task alone tells the subscriber. -/
theorem announced_by_the_task :
    (afterGoingLive [false, true] [.task, .task, .task]).outbox.countP (announces ⟨3⟩) = 1 := by
  have hok : ∃ r, (goLive [false, true]).1 = .ok r := by
    cases h : (goLive [false, true]).1 with
    | ok r => exact ⟨r, rfl⟩
    | error e =>
      have hisOk : (goLive [false, true]).1.isOk = true := by decide +kernel
      rw [h] at hisOk
      cases hisOk
  obtain ⟨r, hr⟩ := hok
  refine (announced_once_iff (storeAfter (firstSession.take 1)) 2 2 [] [false, true] ⟨9⟩ ⟨1⟩ _
    Empty.elim oneSubscriber (fun _ => smooth) [.task, .task, .task] r (goLive [false, true]).2
    (Prod.ext hr rfl) ?_).2 ?_ ⟨3⟩ (by decide)
  · intro i
    have hret : ((afterGoingLive [false, true] [.task, .task, .task]).prog i).isRet = true := by
      cases i <;> decide +kernel
    exact Prog.isRet_iff.1 hret
  · decide

/-- When all goes well, the subscriber is told twice. -/
theorem announced_twice :
    (goLive []).1.isOk = true ∧
    (∀ i, ((afterGoingLive [] [.job, .task, .task, .job, .task]).prog i).isRet = true) ∧
    subscriberIds oneSubscriber ⟨1⟩ = [⟨3⟩] ∧
    (afterGoingLive [] [.job, .task, .task, .job, .task]).outbox.countP (announces ⟨3⟩) = 2 := by
  refine ⟨by decide +kernel, ?_, by decide, by decide +kernel⟩
  intro i
  cases i <;> decide +kernel

end Meno
