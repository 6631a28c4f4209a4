import Meno.Ws.OfflineBuffer

/-!
# Meno.Ws.UserDelivery

What is passed to `publish_to_user` and `publish_to_users`, on any number of instances. Each
instance is told of it, and each decides for itself: it puts it into the queues of the user's
connections, or stores it for later if it has no entry of the user. Between the look at its entries
and each call to Redis other things happen, a connection of the user among them.
`delivered_exactly_once` is about the runs in which no instance without the user stores what others
deliver, or store too.
-/

namespace Meno.Ws

open Lib

/-! ## Publishing -/

/-- `MAX_PUBLISH_RETRIES`. -/
def maxPublishRetries : Nat := 3

/-- A PUBLISH to the main channel that is to be made. In a pipeline it is made once. -/
structure Publish where
  userId : Uuid
  post : Post
  attempts : Nat
  pipelined : Bool

def Publish.key (p : Publish) : Uuid × Nat := (p.userId, p.post.number)

/-- The PUBLISH that is left to make. -/
def Publish.retry (p : Publish) : CallEnd → Option Publish
  | .answered => none
  | _ =>
    if p.pipelined ∨ maxPublishRetries ≤ p.attempts + 1 then none
    else some { p with attempts := p.attempts + 1 }

/-! ## The instances -/

/-- The instances, each with what is left of its delivery, Redis, and the calls of `publish_to_user`
and `publish_to_users` so far; and what is seen from outside, by numbers: which connections are open
and what the next number was when they were opened, what was passed for a user, and what has been
put into queues of the user's connections, stored, and replayed. -/
structure UserState (ι : Type) where
  hub : ι → WsService
  redis : RedisState
  inbox : ι → List (Uuid × Post)
  delivering : ι → WsProg Unit
  publishes : List Publish
  next : Nat
  opened : ι → Uuid → List Nat
  since : ι → Nat → Nat
  passed : Uuid → List Nat
  queued : Uuid → List Nat
  stored : Uuid → List Nat
  replayed : Uuid → List Nat

inductive UserEvent (ι : Type) where
  /-- `publish_to_user` for one user, `publish_to_users` for some. -/
  | publishToUsers (userIds : List Uuid) (payload : WsPayload)
  | publish (k : Nat) (answer : CallEnd)
  /-- The next envelope is taken, and the entry of its user looked up. -/
  | deliver (i : ι)
  /-- The next call to Redis of a delivery that has not found an entry. -/
  | proceed (i : ι) (answer : CallEnd)
  /-- The receiver has fallen behind by `n` messages. -/
  | lagged (i : ι) (n : Nat)
  | register (i : ι) (userId : Uuid)
  /-- What has been stored is sent to a new connection. -/
  | drain (i : ι) (userId : Uuid) (answer : CallEnd)
  | retainOthers (i : ι) (userId : Uuid) (connId : Nat)
  | removeClient (i : ι) (userId : Uuid)
  | bufferExpires (userId : Uuid)

/-- What a delivery is about to store. -/
def aboutToPush : WsProg Unit → Option (Uuid × Post)
  | .call (.lpush u post) _ => some (u, post)
  | _ => none

namespace UserState

variable {ι : Type}

def start (ι : Type) : UserState ι where
  hub := fun _ => .new
  redis := { roomMembers := fun _ => .empty, buffers := fun _ => [] }
  inbox := fun _ => []
  delivering := fun _ => .ret ()
  publishes := []
  next := 0
  opened := fun _ _ => []
  since := fun _ _ => 0
  passed := fun _ => []
  queued := fun _ => []
  stored := fun _ => []
  replayed := fun _ => []

variable (s : UserState ι)

/-- An instance, without its rooms' channels. -/
def localAt (i : ι) : Local where
  hub := s.hub i
  channels := .empty
  inbox := []
  redis := s.redis

def publishToUsers (userIds : List Uuid) (payload : WsPayload) : UserState ι :=
  let publishes := userIds.map fun userId => {
    userId
    post := { number := s.next, payload }
    attempts := 0
    pipelined := decide (10 < userIds.length) }
  { s with
    publishes := s.publishes ++ publishes
    next := s.next + 1
    passed := fun u => if u ∈ userIds then s.passed u ++ [s.next] else s.passed u }

def publish (k : Nat) (answer : CallEnd) : UserState ι :=
  match s.publishes[k]? with
  | none => s
  | some p =>
    { s with
      publishes :=
        match p.retry answer with
        | none => s.publishes.eraseIdx k
        | some again => s.publishes.set k again
      inbox :=
        if answer = .failed then s.inbox else fun i => s.inbox i ++ [(p.userId, p.post)] }

variable [DecidableEq ι]

/-- The loop takes no envelope before the last one is delivered. -/
def deliver (i : ι) : UserState ι :=
  match s.delivering i, s.inbox i with
  | .ret _, (u, post) :: rest =>
    let (prog, node) :=
      (deliverLocally (.user u post)).runFor CallEnd.answered.exec 1 (s.localAt i)
    { s with
      hub := Function.update s.hub i node.hub
      redis := node.redis
      inbox := Function.update s.inbox i rest
      delivering := Function.update s.delivering i prog
      queued :=
        if ((s.hub i).senders u).isEmpty then s.queued
        else Function.update s.queued u (s.queued u ++ [post.number]) }
  | _, _ => s

/-- A push that is done. -/
def storedBy (prog : WsProg Unit) (answer : CallEnd) : Uuid → List Nat :=
  match aboutToPush prog, answer with
  | none, _ => s.stored
  | some _, .failed => s.stored
  | some (u, post), _ => Function.update s.stored u (s.stored u ++ [post.number])

def proceed (i : ι) (answer : CallEnd) : UserState ι :=
  let (prog, node) := (s.delivering i).runFor answer.exec 1 (s.localAt i)
  { s with
    hub := Function.update s.hub i node.hub
    redis := node.redis
    delivering := Function.update s.delivering i prog
    stored := s.storedBy (s.delivering i) answer }

def register (i : ι) (userId : Uuid) : UserState ι :=
  match (s.hub i).register userId with
  | (none, _) => s
  | (some connId, hub) =>
    { s with
      hub := Function.update s.hub i hub
      opened := Function.update s.opened i
        (Function.update (s.opened i) userId (s.opened i userId ++ [connId]))
      since := Function.update s.since i (Function.update (s.since i) connId s.next) }

def drain (i : ι) (userId : Uuid) (answer : CallEnd) : UserState ι :=
  let (posts, node) :=
    (WsService.drainMessageBuffer userId).run answer.exec (s.localAt i)
  { s with
    redis := node.redis
    replayed := Function.update s.replayed userId
      (s.replayed userId ++ numbers posts) }

def retainOthers (i : ι) (userId : Uuid) (connId : Nat) : UserState ι :=
  { s with
    hub := Function.update s.hub i ((s.hub i).retainOthers userId connId).2
    opened := Function.update s.opened i
      (Function.update (s.opened i) userId ((s.opened i userId).filter fun c => c ≠ connId)) }

def step (s : UserState ι) : UserEvent ι → UserState ι
  | .publishToUsers us payload => s.publishToUsers us payload
  | .publish k answer => s.publish k answer
  | .deliver i => s.deliver i
  | .proceed i answer => s.proceed i answer
  | .lagged i n => { s with inbox := Function.update s.inbox i ((s.inbox i).drop n) }
  | .register i u => s.register i u
  | .drain i u answer => s.drain i u answer
  | .retainOthers i u connId => s.retainOthers i u connId
  | .removeClient i u => { s with hub := Function.update s.hub i ((s.hub i).removeClient u) }
  | .bufferExpires u => { s with redis := s.redis.setBuffer u [] }

abbrev run (es : List (UserEvent ι)) : UserState ι := es.foldl step s

/-! ## The property -/

omit [DecidableEq ι] in
/-- Instance `i` has been told of the number for the user. -/
def Told (i : ι) (u : Uuid) (n : Nat) : Prop :=
  (u, n) ∉ s.publishes.map Publish.key ∧ ∀ p ∈ s.inbox i, (p.1, p.2.number) ≠ (u, n)

/-- What is passed for a user gets into the queue of every connection that is open then, and of no
connection twice. What is stored is stored once and not put into queues, so that nothing is replayed
that was received. -/
structure ExactlyOnce (s : UserState ι) : Prop where
  queues : ∀ i u, ∀ connId ∈ s.opened i u, ∃ c ∈ (s.hub i).senders u, c.connId = connId ∧
    ∀ n ∈ s.passed u, (numbers c.queue).count n ≤ 1 ∧
      (s.since i connId ≤ n → s.Told i u n → (numbers c.queue).count n = 1)
  stored : ∀ u, (s.stored u).Nodup ∧ ∀ n ∈ s.stored u, n ∉ s.queued u
  replayed : ∀ u, (s.replayed u).Nodup ∧ ∀ n ∈ s.replayed u, n ∈ s.stored u

/-- What is stored is stored for a user who has no open connection on any instance then. -/
def StoresOffline (s : UserState ι) : UserEvent ι → Prop
  | .proceed i answer => ∀ u, (s.proceed i answer).stored u ≠ s.stored u → ∀ j, s.opened j u = []
  | _ => True

/-- Nobody is named twice. A PUBLISH does not lose its answer and is not given up. An instance that
has no entry for the user is the only one, and still has none when it stores. No message is dropped,
and the entry of a user is removed when it is still empty. -/
def Careful (s : UserState ι) : UserEvent ι → Prop
  | .publishToUsers us _ => us.Nodup
  | .publish k answer => ∀ p ∈ s.publishes[k]?,
    answer = .answered ∨ answer = .failed ∧ (p.retry .failed).isSome
  | .deliver i => ∀ p ∈ (s.inbox i).head?, (s.hub i).isOnline p.1 = false → ∀ j, j = i
  | .proceed i answer => ∀ p ∈ aboutToPush (s.delivering i), answer = .failed ∨
    (s.hub i).isOnline p.1 = false
  | .lagged i n => (s.inbox i).take n = []
  | .removeClient i u => (s.hub i).senders u = []
  | _ => True

/-! ## The invariant -/

/-- What is left when the message is pushed. -/
def trimming (u : Uuid) : WsProg Unit := do
  let _ ← (WsCmd.ltrim u).call
  let _ ← (WsCmd.expireBuffer u).call

def expiring (u : Uuid) : WsProg Unit := do
  let _ ← (WsCmd.expireBuffer u).call

/-- What can be left of a delivery. -/
inductive Buffering : WsProg Unit → Prop where
  | push (u : Uuid) (post : Post) : Buffering (WsService.bufferMessage u post)
  | trim (u : Uuid) : Buffering (trimming u)
  | expire (u : Uuid) : Buffering (expiring u)
  | done : Buffering (.ret ())

omit [DecidableEq ι] in
/-- The invariant: what is under way is not to be found where it has not got to. -/
structure Inv (s : UserState ι) : Prop where
  publishes : (s.publishes.map Publish.key).Nodup
  pending : ∀ p ∈ s.publishes, p.post.number < s.next ∧ p.post.number ∉ s.queued p.userId ∧
    p.post.number ∉ s.stored p.userId
  notArrived : ∀ p ∈ s.publishes, ∀ i, ∀ q ∈ s.inbox i, (q.1, q.2.number) ≠ p.key
  notQueued : ∀ p ∈ s.publishes, ∀ i, ∀ c ∈ (s.hub i).senders p.userId,
    p.post.number ∉ numbers c.queue
  inbox : ∀ i, ((s.inbox i).map fun q => (q.1, q.2.number)).Nodup
  arrived : ∀ i, ∀ q ∈ s.inbox i, q.2.number < s.next ∧ q.2.number ∉ s.stored q.1 ∧
    ∀ c ∈ (s.hub i).senders q.1, q.2.number ∉ numbers c.queue
  parts : ∀ i, Buffering (s.delivering i)
  pushing : ∀ i, ∀ p ∈ aboutToPush (s.delivering i), (∀ j, j = i) ∧ p.2.number < s.next ∧
    p.2.number ∉ s.queued p.1 ∧ p.2.number ∉ s.stored p.1 ∧ ∀ j, s.Told j p.1 p.2.number
  queued : ∀ u, ∀ n ∈ s.queued u, n < s.next ∧ ∃ j, s.Told j u n
  stored : ∀ u, (s.stored u).Nodup ∧ ∀ n ∈ s.stored u, n < s.next ∧ n ∉ s.queued u
  buffers : ∀ u, (numbers (s.redis.buffers u)).Nodup ∧
    ∀ n ∈ numbers (s.redis.buffers u), n ∈ s.stored u ∧ n ∉ s.replayed u
  replayed : ∀ u, (s.replayed u).Nodup ∧ ∀ n ∈ s.replayed u, n ∈ s.stored u
  passed : ∀ u, ∀ n ∈ s.passed u, n < s.next
  opened : ∀ i u, s.opened i u = ((s.hub i).senders u).map ConnectionSender.connId
  fresh : ∀ i u, ∀ c ∈ (s.hub i).senders u, c.connId < (s.hub i).connSeq
  queues : ∀ i u, ∀ c ∈ (s.hub i).senders u, (numbers c.queue).Nodup ∧
    ∀ n ∈ numbers c.queue, n < s.next
  complete : ∀ i u, ∀ c ∈ (s.hub i).senders u, ∀ n ∈ s.passed u, s.since i c.connId ≤ n →
    s.Told i u n → n ∈ numbers c.queue

section Step

variable {s : UserState ι}

omit [DecidableEq ι] in
theorem inv_start : (start ι).Inv where
  publishes := .nil
  pending _ hp := nomatch hp
  notArrived _ hp := nomatch hp
  notQueued _ hp := nomatch hp
  inbox _ := .nil
  arrived _ _ hq := nomatch hq
  parts _ := .done
  pushing _ _ hp := nomatch hp
  queued _ _ hn := nomatch hn
  stored _ := ⟨.nil, fun _ hn => nomatch hn⟩
  buffers _ := ⟨.nil, fun _ hn => nomatch hn⟩
  replayed _ := ⟨.nil, fun _ hn => nomatch hn⟩
  passed _ _ hn := nomatch hn
  opened _ _ := rfl
  fresh _ _ _ hc := nomatch hc
  queues _ _ _ hc := nomatch hc
  complete _ _ _ hc := nomatch hc

/-! ### Publishing -/

omit [DecidableEq ι] in
theorem Inv.publishToUsers (h : s.Inv) {us : List Uuid} (hus : us.Nodup) (payload : WsPayload) :
    (s.publishToUsers us payload).Inv := by
  have hnew : ∀ p ∈ (s.publishToUsers us payload).publishes,
      p ∈ s.publishes ∨ p.userId ∈ us ∧ p.post.number = s.next := by
    intro p hp
    rcases List.mem_append.1 hp with hp | hp
    · exact .inl hp
    · obtain ⟨u, hu, rfl⟩ := List.mem_map.1 hp
      exact .inr ⟨hu, rfl⟩
  have hkeys : (s.publishToUsers us payload).publishes.map Publish.key =
      s.publishes.map Publish.key ++ us.map fun u => (u, s.next) := by
    simp [UserState.publishToUsers, Publish.key, Function.comp_def]
  have htold : ∀ j u n, (s.publishToUsers us payload).Told j u n → s.Told j u n := by
    rintro j u n ⟨hpublishes, hinbox⟩
    rw [hkeys] at hpublishes
    exact ⟨fun hmem => hpublishes (List.mem_append_left _ hmem), hinbox⟩
  have hold : ∀ j u n, n < s.next → s.Told j u n → (s.publishToUsers us payload).Told j u n := by
    rintro j u n hlt ⟨hpublishes, hinbox⟩
    refine ⟨fun hmem => ?_, hinbox⟩
    rw [hkeys] at hmem
    rcases List.mem_append.1 hmem with hmem | hmem
    · exact hpublishes hmem
    · obtain ⟨v, -, hv⟩ := List.mem_map.1 hmem
      have hnext : s.next = n := congrArg Prod.snd hv
      omega
  refine { h with
    publishes := ?_, pending := ?_, notArrived := ?_, notQueued := ?_, arrived := ?_, pushing := ?_
    queued := ?_, stored := ?_, passed := ?_, queues := ?_, complete := ?_ }
  · rw [hkeys]
    refine List.Nodup.append h.publishes (hus.map fun _ _ hsame => congrArg Prod.fst hsame) ?_
    intro key hold hkey
    obtain ⟨p, hp, rfl⟩ := List.mem_map.1 hold
    obtain ⟨u, -, hu⟩ := List.mem_map.1 hkey
    have hnext : s.next = p.post.number := congrArg Prod.snd hu
    have hlt := (h.pending p hp).1
    omega
  · intro p hp
    rcases hnew p hp with hp | ⟨-, hnext⟩
    · obtain ⟨hlt, hrest⟩ := h.pending p hp
      exact ⟨Nat.lt_succ_of_lt hlt, hrest⟩
    · rw [hnext]
      refine ⟨Nat.lt_succ_self _, fun hqueued => ?_, fun hstored => ?_⟩
      · exact Nat.lt_irrefl _ (h.queued _ _ hqueued).1
      · exact Nat.lt_irrefl _ ((h.stored _).2 _ hstored).1
  · intro p hp i q hq hkey
    rcases hnew p hp with hp | ⟨-, hnext⟩
    · exact h.notArrived p hp i q hq hkey
    · have hlt := (h.arrived i q hq).1
      have hnumber : q.2.number = p.post.number := congrArg Prod.snd hkey
      omega
  · intro p hp i c hc hmem
    rcases hnew p hp with hp | ⟨-, hnext⟩
    · exact h.notQueued p hp i c hc hmem
    · have hlt := (h.queues i _ c hc).2 _ hmem
      omega
  · intro i q hq
    obtain ⟨hlt, hrest⟩ := h.arrived i q hq
    exact ⟨Nat.lt_succ_of_lt hlt, hrest⟩
  · intro i p hp
    obtain ⟨honly, hlt, hqueued, hstored, hdone⟩ := h.pushing i p hp
    exact ⟨honly, Nat.lt_succ_of_lt hlt, hqueued, hstored, fun j => hold j _ _ hlt (hdone j)⟩
  · intro u n hn
    obtain ⟨hlt, j, hdone⟩ := h.queued u n hn
    exact ⟨Nat.lt_succ_of_lt hlt, j, hold j u n hlt hdone⟩
  · intro u
    refine ⟨(h.stored u).1, fun n hn => ?_⟩
    obtain ⟨hlt, hrest⟩ := (h.stored u).2 n hn
    exact ⟨Nat.lt_succ_of_lt hlt, hrest⟩
  · intro u n (hn : n ∈ if u ∈ us then s.passed u ++ [s.next] else s.passed u)
    have hle : n < s.next ∨ n = s.next := by
      split at hn
      · rcases List.mem_append.1 hn with hn | hn
        · exact .inl (h.passed u n hn)
        · exact .inr (List.mem_singleton.1 hn)
      · exact .inl (h.passed u n hn)
    have hgoal : n < s.next + 1 := by omega
    exact hgoal
  · intro i u c hc
    exact ⟨(h.queues i u c hc).1, fun n hn => Nat.lt_succ_of_lt ((h.queues i u c hc).2 n hn)⟩
  · intro i u c hc n hn hsince hdone
    have hn : n ∈ if u ∈ us then s.passed u ++ [s.next] else s.passed u := hn
    have hold : n ∈ s.passed u := by
      split at hn
      · rename_i hu
        rcases List.mem_append.1 hn with hn | hn
        · exact hn
        · refine absurd ?_ hdone.1
          rw [hkeys, List.mem_singleton.1 hn]
          exact List.mem_append_right _ (List.mem_map.2 ⟨u, hu, rfl⟩)
      · exact hn
    exact h.complete i u c hc n hold hsince (htold i u n hdone)

/-- Of publishes with different keys, one is made. -/
theorem mem_eraseIdx_iff {ps : List Publish} (hnodup : (ps.map Publish.key).Nodup) {k : Nat}
    {p q : Publish} (hk : ps[k]? = some p) :
    q ∈ ps.eraseIdx k ↔ q ∈ ps ∧ q.key ≠ p.key := by
  rw [List.mem_eraseIdx_iff_getElem?]
  constructor
  · rintro ⟨j, hne, hj⟩
    refine ⟨List.mem_of_getElem? hj, fun hsame => hne ?_⟩
    obtain ⟨hjlt, rfl⟩ := List.getElem?_eq_some_iff.1 hj
    obtain ⟨hklt, rfl⟩ := List.getElem?_eq_some_iff.1 hk
    have hkeys : (ps.map Publish.key).get ⟨j, by simpa using hjlt⟩ =
        (ps.map Publish.key).get ⟨k, by simpa using hklt⟩ := by simpa using hsame
    exact (List.Nodup.getElem_inj_iff hnodup).1 hkeys
  · rintro ⟨hq, hne⟩
    obtain ⟨j, hj⟩ := List.getElem?_of_mem hq
    refine ⟨j, ?_, hj⟩
    rintro rfl
    rw [hk] at hj
    cases hj
    exact hne rfl

omit [DecidableEq ι] in
/-- The same numbers are still to be published. -/
theorem Inv.again (h : s.Inv) {publishes : List Publish}
    (hkeys : publishes.map Publish.key = s.publishes.map Publish.key) :
    { s with publishes }.Inv := by
  have hmem : ∀ p ∈ publishes, ∃ p' ∈ s.publishes, p'.key = p.key := by
    intro p hp
    have hkey : p.key ∈ s.publishes.map Publish.key := hkeys ▸ List.mem_map_of_mem hp
    exact List.mem_map.1 hkey
  have htold : ∀ j u n, { s with publishes }.Told j u n ↔ s.Told j u n := by
    intro j u n
    simp only [Told, hkeys]
  refine { h with
    publishes := ?_, pending := ?_, notArrived := ?_, notQueued := ?_, pushing := ?_, queued := ?_
    complete := ?_ }
  · exact hkeys ▸ h.publishes
  · intro p hp
    obtain ⟨p', hp', hkey⟩ := hmem p hp
    have hpending := h.pending p' hp'
    rwa [show p'.userId = p.userId from congrArg Prod.fst hkey,
      show p'.post.number = p.post.number from congrArg Prod.snd hkey] at hpending
  · intro p hp i q hq
    obtain ⟨p', hp', hkey⟩ := hmem p hp
    exact hkey ▸ h.notArrived p' hp' i q hq
  · intro p hp i c hc
    obtain ⟨p', hp', hkey⟩ := hmem p hp
    have huser : p'.userId = p.userId := congrArg Prod.fst hkey
    have hnumber : p'.post.number = p.post.number := congrArg Prod.snd hkey
    have hqueue := h.notQueued p' hp' i c (huser ▸ hc)
    rwa [hnumber] at hqueue
  · intro i p hp
    obtain ⟨honly, hlt, hqueued, hstored, hdone⟩ := h.pushing i p hp
    exact ⟨honly, hlt, hqueued, hstored, fun j => (htold j _ _).2 (hdone j)⟩
  · intro u n hn
    obtain ⟨hlt, j, hj⟩ := h.queued u n hn
    exact ⟨hlt, j, (htold j u n).2 hj⟩
  · intro i u c hc n hn hsince hdone
    exact h.complete i u c hc n hn hsince ((htold i u n).1 hdone)

omit [DecidableEq ι] in
/-- All instances are told. -/
theorem Inv.published (h : s.Inv) {k : Nat} {p : Publish} (hk : s.publishes[k]? = some p) :
    { s with
      publishes := s.publishes.eraseIdx k
      inbox := fun i => s.inbox i ++ [(p.userId, p.post)] }.Inv := by
  have hp : p ∈ s.publishes := List.mem_of_getElem? hk
  have hothers : ∀ q, q ∈ s.publishes.eraseIdx k ↔ q ∈ s.publishes ∧ q.key ≠ p.key :=
    fun q => mem_eraseIdx_iff h.publishes hk
  have harrived : ∀ i, ∀ q ∈ s.inbox i ++ [(p.userId, p.post)],
      q ∈ s.inbox i ∨ q = (p.userId, p.post) := by
    intro i q hq
    simpa using hq
  obtain ⟨hlt, hqueued, hstored⟩ := h.pending p hp
  have htold : ∀ j u n, { s with
      publishes := s.publishes.eraseIdx k
      inbox := fun i => s.inbox i ++ [(p.userId, p.post)] }.Told j u n ↔
        s.Told j u n ∧ (u, n) ≠ p.key := by
    intro j u n
    constructor
    · rintro ⟨hpublishes, hinbox⟩
      have hne : (u, n) ≠ p.key := (hinbox (p.userId, p.post) (by simp)).symm
      refine ⟨⟨fun hmem => hpublishes ?_, fun q hq => hinbox q (List.mem_append_left _ hq)⟩, hne⟩
      obtain ⟨q, hq, hkey⟩ := List.mem_map.1 hmem
      exact List.mem_map.2 ⟨q, (hothers q).2 ⟨hq, hkey ▸ hne⟩, hkey⟩
    · rintro ⟨⟨hpublishes, hinbox⟩, hne⟩
      refine ⟨fun hmem => hpublishes ?_, fun q hq => ?_⟩
      · obtain ⟨q, hq, hkey⟩ := List.mem_map.1 hmem
        exact List.mem_map.2 ⟨q, ((hothers q).1 hq).1, hkey⟩
      · rcases harrived j q hq with hq | rfl
        · exact hinbox q hq
        · exact hne.symm
  refine { h with
    publishes := ?_, pending := ?_, notArrived := ?_, notQueued := ?_, inbox := ?_, arrived := ?_
    pushing := ?_, queued := ?_, complete := ?_ }
  · exact h.publishes.sublist ((List.eraseIdx_sublist _ k).map _)
  · exact fun q hq => h.pending q ((hothers q).1 hq).1
  · intro q hq i x hx
    rcases harrived i x hx with hx | rfl
    · exact h.notArrived q ((hothers q).1 hq).1 i x hx
    · exact ((hothers q).1 hq).2.symm
  · exact fun q hq => h.notQueued q ((hothers q).1 hq).1
  · intro i
    rw [List.map_append, List.map_singleton, List.nodup_append_comm]
    refine List.nodup_cons.2 ⟨fun hmem => ?_, h.inbox i⟩
    obtain ⟨q, hq, hkey⟩ := List.mem_map.1 hmem
    exact h.notArrived p hp i q hq hkey
  · intro i q hq
    rcases harrived i q hq with hq | rfl
    · exact h.arrived i q hq
    · exact ⟨hlt, hstored, h.notQueued p hp i⟩
  · intro i q hq
    obtain ⟨honly, hqlt, hqqueued, hqstored, hdone⟩ := h.pushing i q hq
    refine ⟨honly, hqlt, hqqueued, hqstored, fun j => (htold j _ _).2 ⟨hdone j, fun hkey => ?_⟩⟩
    exact (hdone j).1 (hkey ▸ List.mem_map_of_mem hp)
  · intro u n hn
    obtain ⟨hn', j, hj⟩ := h.queued u n hn
    refine ⟨hn', j, (htold j u n).2 ⟨hj, fun hkey => ?_⟩⟩
    cases hkey
    exact hqueued hn
  · intro i u c hc n hn hsince hdone
    exact h.complete i u c hc n hn hsince ((htold i u n).1 hdone).1

omit [DecidableEq ι] in
theorem Inv.publish (h : s.Inv) {k : Nat} {answer : CallEnd}
    (hs : ∀ p ∈ s.publishes[k]?, answer = .answered ∨ answer = .failed ∧ (p.retry .failed).isSome) :
    (s.publish k answer).Inv := by
  unfold UserState.publish
  split
  · exact h
  rename_i p hk
  have hp : p ∈ s.publishes := List.mem_of_getElem? hk
  rcases hs p hk with rfl | ⟨rfl, hsome⟩
  · exact h.published hk
  · obtain ⟨next, hnext⟩ := Option.isSome_iff_exists.1 hsome
    rw [hnext]
    refine h.again ?_
    have hkey : next.key = p.key := by
      simp only [Publish.retry] at hnext
      split at hnext
      · cases hnext
      · obtain rfl := Option.some.inj hnext
        rfl
    obtain ⟨hlt, rfl⟩ := List.getElem?_eq_some_iff.1 hk
    rw [List.map_set, hkey]
    have hset : (s.publishes.map Publish.key).set k
        ((s.publishes.map Publish.key).get ⟨k, by simpa using hlt⟩) = s.publishes.map Publish.key :=
      List.set_getElem_self _
    simpa using hset

/-! ### Delivering -/

section Deliver

variable {i : ι} {u : Uuid} {post : Post} {rest : List (Uuid × Post)}

omit [DecidableEq ι] in
/-- What is taken is not found again. -/
theorem Inv.others (h : s.Inv) (hinbox : s.inbox i = (u, post) :: rest) :
    ∀ q ∈ rest, q ∈ s.inbox i ∧ (q.1, q.2.number) ≠ (u, post.number) := by
  intro q hq
  refine ⟨hinbox ▸ List.mem_cons_of_mem _ hq, fun hsame => ?_⟩
  have hnodup := h.inbox i
  rw [hinbox, List.map_cons, List.nodup_cons] at hnodup
  exact hnodup.1 (List.mem_map.2 ⟨q, hq, hsame⟩)

/-- An envelope is taken from an inbox. -/
structure Taken (s s' : UserState ι) (i : ι) (u : Uuid) (post : Post)
    (rest : List (Uuid × Post)) : Prop where
  inbox : s'.inbox = Function.update s.inbox i rest
  publishes : s'.publishes = s.publishes

variable {s' : UserState ι}

theorem Taken.mem (ht : s.Taken s' i u post rest) (h : s.Inv)
    (hinbox : s.inbox i = (u, post) :: rest) {j : ι} {q : Uuid × Post} (hq : q ∈ s'.inbox j) :
    q ∈ s.inbox j ∧ (j = i → (q.1, q.2.number) ≠ (u, post.number)) := by
  rw [ht.inbox] at hq
  by_cases hj : j = i
  · subst hj
    rw [Function.update_self] at hq
    exact (h.others hinbox q hq).imp_right fun hne _ => hne
  · rw [Function.update_of_ne hj] at hq
    exact ⟨hq, fun hji => absurd hji hj⟩

theorem Taken.told (ht : s.Taken s' i u post rest) (h : s.Inv)
    (hinbox : s.inbox i = (u, post) :: rest) {j : ι} {v : Uuid} {n : Nat} :
    s'.Told j v n ↔ s.Told j v n ∨ j = i ∧ (v, n) = (u, post.number) := by
  have hmem : (u, post) ∈ s.inbox i := hinbox ▸ List.mem_cons_self
  have hpending : (u, post.number) ∉ s.publishes.map Publish.key := by
    intro hkey
    obtain ⟨p, hp, hkey⟩ := List.mem_map.1 hkey
    exact h.notArrived p hp i _ hmem hkey.symm
  constructor
  · rintro ⟨hpublishes, harrived⟩
    rw [ht.publishes] at hpublishes
    by_cases hnew : j = i ∧ (v, n) = (u, post.number)
    · exact .inr hnew
    · refine .inl ⟨hpublishes, fun q hq hsame => ?_⟩
      refine harrived q ?_ hsame
      rw [ht.inbox]
      by_cases hj : j = i
      · subst hj
        rw [Function.update_self]
        rw [hinbox] at hq
        rcases List.mem_cons.1 hq with rfl | hq
        · exact absurd ⟨rfl, hsame.symm⟩ hnew
        · exact hq
      · rwa [Function.update_of_ne hj]
  · rintro (⟨hpublishes, harrived⟩ | ⟨rfl, hsame⟩)
    · exact ⟨ht.publishes ▸ hpublishes, fun q hq => harrived q (ht.mem h hinbox hq).1⟩
    · cases hsame
      exact ⟨ht.publishes ▸ hpending, fun q hq => (ht.mem h hinbox hq).2 rfl⟩

theorem Taken.inboxes (ht : s.Taken s' i u post rest) (h : s.Inv)
    (hinbox : s.inbox i = (u, post) :: rest) (j : ι) :
    ((s'.inbox j).map fun q => (q.1, q.2.number)).Nodup := by
  rw [ht.inbox]
  by_cases hj : j = i
  · subst hj
    rw [Function.update_self]
    have hnodup := h.inbox j
    rw [hinbox, List.map_cons, List.nodup_cons] at hnodup
    exact hnodup.2
  · rw [Function.update_of_ne hj]
    exact h.inbox j

/-- A number is put at the end of a user's list. -/
theorem mem_update_append {f : Uuid → List Nat} {v : Uuid} {k n : Nat} :
    n ∈ Function.update f u (f u ++ [k]) v ↔ n ∈ f v ∨ v = u ∧ n = k := by
  by_cases hv : v = u
  · subst hv
    rw [Function.update_self, List.mem_append, List.mem_singleton]
    simp
  · rw [Function.update_of_ne hv]
    simp [hv]

section Sent

variable {hub : ι → WsService} {j : ι} {v : Uuid} {c : ConnectionSender}

/-- The connections are the same, those of the user on the instance with one post more. -/
theorem senders_sent :
    (Function.update hub i ((hub i).sendToSenders u post).2 j).senders v =
      if j = i ∧ v = u then ((hub j).senders v).map (·.send post) else (hub j).senders v := by
  by_cases hj : j = i
  · subst hj
    rw [Function.update_self, WsService.senders_sendToSenders]
    by_cases hv : v = u
    · simp [hv]
    · simp [hv]
  · rw [Function.update_of_ne hj, if_neg fun h => hj h.1]

theorem connSeq_sent :
    (Function.update hub i ((hub i).sendToSenders u post).2 j).connSeq = (hub j).connSeq := by
  by_cases hj : j = i
  · subst hj
    rw [Function.update_self]
    simp only [WsService.sendToSenders]
    split <;> rfl
  · rw [Function.update_of_ne hj]

theorem queue_sent (hc : c ∈ (Function.update hub i ((hub i).sendToSenders u post).2 j).senders v) :
    ∃ c' ∈ (hub j).senders v, c'.connId = c.connId ∧
      (c.queue = c'.queue ∧ ¬(j = i ∧ v = u) ∨ c.queue = c'.queue ++ [post] ∧ j = i ∧ v = u) := by
  rw [senders_sent] at hc
  split at hc
  · rename_i hjv
    obtain ⟨c', hc', rfl⟩ := List.mem_map.1 hc
    exact ⟨c', hc', rfl, .inr ⟨rfl, hjv⟩⟩
  · rename_i hjv
    exact ⟨c, hc, rfl, .inl ⟨rfl, hjv⟩⟩

theorem numbers_sent
    (hc : c ∈ (Function.update hub i ((hub i).sendToSenders u post).2 j).senders v) {n : Nat}
    (hn : n ∈ numbers c.queue) :
    (∃ c' ∈ (hub j).senders v, n ∈ numbers c'.queue) ∨ j = i ∧ v = u ∧ n = post.number := by
  obtain ⟨c', hc', -, ⟨hsame, -⟩ | ⟨hadded, hj, hv⟩⟩ := queue_sent hc
  · exact .inl ⟨c', hc', hsame ▸ hn⟩
  · rw [hadded, numbers, List.map_append, List.mem_append] at hn
    rcases hn with hn | hn
    · exact .inl ⟨c', hc', hn⟩
    · exact .inr ⟨hj, hv, List.mem_singleton.1 hn⟩

end Sent

/-- The user has connections, or an entry without any. -/
theorem Inv.deliverOnline (h : s.Inv) (hinbox : s.inbox i = (u, post) :: rest)
    {queued : Uuid → List Nat} (hqueued : queued = s.queued ∨
      queued = Function.update s.queued u (s.queued u ++ [post.number])) :
    { s with
      hub := Function.update s.hub i ((s.hub i).sendToSenders u post).2
      inbox := Function.update s.inbox i rest
      queued }.Inv := by
  have ht : s.Taken { s with
      hub := Function.update s.hub i ((s.hub i).sendToSenders u post).2
      inbox := Function.update s.inbox i rest
      queued } i u post rest := ⟨rfl, rfl⟩
  have hmem : (u, post) ∈ s.inbox i := hinbox ▸ List.mem_cons_self
  obtain ⟨hlt, hstored, hunseen⟩ := h.arrived i _ hmem
  have hnew : ∀ v n, n ∈ queued v → n ∈ s.queued v ∨ v = u ∧ n = post.number := by
    intro v n hn
    rcases hqueued with rfl | rfl
    · exact .inl hn
    · exact mem_update_append.1 hn
  refine { h with
    pending := ?_, notArrived := ?_, notQueued := ?_, inbox := ht.inboxes h hinbox, arrived := ?_
    pushing := ?_, queued := ?_, stored := ?_, opened := ?_, fresh := ?_, queues := ?_
    complete := ?_ }
  · intro p hp
    obtain ⟨hplt, hpqueued, hpstored⟩ := h.pending p hp
    refine ⟨hplt, fun hn => ?_, hpstored⟩
    rcases hnew _ _ hn with hn | ⟨hu, hn⟩
    · exact hpqueued hn
    · exact h.notArrived p hp i _ hmem (Prod.ext hu.symm hn.symm)
  · exact fun p hp j q hq => h.notArrived p hp j q (ht.mem h hinbox hq).1
  · intro p hp j c hc hn
    rcases numbers_sent hc hn with ⟨c', hc', hn⟩ | ⟨-, hu, hn⟩
    · exact h.notQueued p hp j c' hc' hn
    · exact h.notArrived p hp i _ hmem (Prod.ext hu.symm hn.symm)
  · intro j q hq
    obtain ⟨hq, hne⟩ := ht.mem h hinbox hq
    obtain ⟨hqlt, hqstored, hqunseen⟩ := h.arrived j q hq
    refine ⟨hqlt, hqstored, fun c hc hn => ?_⟩
    rcases numbers_sent hc hn with ⟨c', hc', hn⟩ | ⟨hj, hu, hn⟩
    · exact hqunseen c' hc' hn
    · exact hne hj (Prod.ext hu hn)
  · intro j q hq
    obtain ⟨honly, hqlt, hqqueued, hqstored, hdone⟩ := h.pushing j q hq
    refine ⟨honly, hqlt, fun hn => ?_, hqstored, fun j' => (ht.told h hinbox).2 (.inl (hdone j'))⟩
    rcases hnew _ _ hn with hn | ⟨hu, hn⟩
    · exact hqqueued hn
    · exact (hdone i).2 _ hmem (Prod.ext hu.symm hn.symm)
  · intro v n hn
    rcases hnew v n hn with hn | ⟨rfl, rfl⟩
    · obtain ⟨hnlt, j, hj⟩ := h.queued v n hn
      exact ⟨hnlt, j, (ht.told h hinbox).2 (.inl hj)⟩
    · exact ⟨hlt, i, (ht.told h hinbox).2 (.inr ⟨rfl, rfl⟩)⟩
  · intro v
    refine ⟨(h.stored v).1, fun n hn => ?_⟩
    obtain ⟨hnlt, hnqueued⟩ := (h.stored v).2 n hn
    refine ⟨hnlt, fun hmem => ?_⟩
    rcases hnew v n hmem with hmem | ⟨rfl, rfl⟩
    · exact hnqueued hmem
    · exact hstored hn
  · intro j v
    rw [senders_sent, h.opened]
    split
    · rw [List.map_map]
      rfl
    · rfl
  · intro j v c hc
    obtain ⟨c', hc', hid, -⟩ := queue_sent hc
    have hfresh := h.fresh j v c' hc'
    rw [hid] at hfresh
    have hseq : (Function.update s.hub i ((s.hub i).sendToSenders u post).2 j).connSeq =
        (s.hub j).connSeq := connSeq_sent
    exact hseq ▸ hfresh
  · intro j v c hc
    obtain ⟨c', hc', -, hcase⟩ := queue_sent hc
    obtain ⟨hnodup, hqlt⟩ := h.queues j v c' hc'
    rcases hcase with ⟨hsame, -⟩ | ⟨hadded, rfl, rfl⟩
    · rw [hsame]
      exact ⟨hnodup, hqlt⟩
    · rw [hadded, numbers, List.map_append]
      constructor
      · rw [List.nodup_append_comm]
        exact List.nodup_cons.2 ⟨hunseen c' hc', hnodup⟩
      · intro n hn
        rcases List.mem_append.1 hn with hn | hn
        · exact hqlt n hn
        · rw [List.mem_singleton.1 hn]
          exact hlt
  · intro j v c hc n hn hsince hdone
    obtain ⟨c', hc', hid, hcase⟩ := queue_sent hc
    have hsince : s.since j c.connId ≤ n := hsince
    rw [← hid] at hsince
    rcases (ht.told h hinbox).1 hdone with htold | ⟨rfl, hnew⟩
    · have hold := h.complete j v c' hc' n hn hsince htold
      rcases hcase with ⟨hsame, -⟩ | ⟨hadded, -⟩
      · rwa [hsame]
      · rw [hadded, numbers, List.map_append]
        exact List.mem_append_left _ hold
    · cases hnew
      rcases hcase with ⟨-, hno⟩ | ⟨hadded, -⟩
      · exact absurd ⟨rfl, rfl⟩ hno
      · rw [hadded, numbers, List.map_append]
        exact List.mem_append_right _ (List.mem_singleton.2 rfl)

/-- The user has no connection. -/
theorem Inv.skip (h : s.Inv) (hinbox : s.inbox i = (u, post) :: rest)
    (hnone : (s.hub i).senders u = []) :
    { s with inbox := Function.update s.inbox i rest }.Inv := by
  have ht : s.Taken { s with inbox := Function.update s.inbox i rest } i u post rest := ⟨rfl, rfl⟩
  refine { h with
    notArrived := ?_, inbox := ht.inboxes h hinbox, arrived := ?_, pushing := ?_, queued := ?_
    complete := ?_ }
  · exact fun p hp j q hq => h.notArrived p hp j q (ht.mem h hinbox hq).1
  · exact fun j q hq => h.arrived j q (ht.mem h hinbox hq).1
  · intro j q hq
    obtain ⟨honly, hlt, hqueued, hstored, hdone⟩ := h.pushing j q hq
    exact ⟨honly, hlt, hqueued, hstored, fun j' => (ht.told h hinbox).2 (.inl (hdone j'))⟩
  · intro v n hn
    obtain ⟨hlt, j, hj⟩ := h.queued v n hn
    exact ⟨hlt, j, (ht.told h hinbox).2 (.inl hj)⟩
  · intro j v c hc n hn hsince hdone
    rcases (ht.told h hinbox).1 hdone with htold | ⟨rfl, hnew⟩
    · exact h.complete j v c hc n hn hsince htold
    · cases hnew
      have hc : c ∈ (s.hub j).senders u := hc
      rw [hnone] at hc
      cases hc

omit [DecidableEq ι] in
/-- What nobody has got and nobody will get is stored. -/
theorem Inv.store (h : s.Inv) (hlt : post.number < s.next) (hqueued : post.number ∉ s.queued u)
    (hstored : post.number ∉ s.stored u)
    (htold : ∀ j, s.Told j u post.number)
    (hpushing : ∀ j, ∀ p ∈ aboutToPush (s.delivering j), (p.1, p.2.number) ≠ (u, post.number))
    (i : ι) :
    { s with
      redis := s.redis.setBuffer u (post :: s.redis.buffers u)
      stored := Function.update s.stored u (s.stored u ++ [post.number]) }.Inv := by
  have hnew : ∀ v n, n ∈ Function.update s.stored u (s.stored u ++ [post.number]) v →
      n ∈ s.stored v ∨ v = u ∧ n = post.number := fun v n => mem_update_append.1
  have hkept : ∀ v n, n ∈ s.stored v →
      n ∈ Function.update s.stored u (s.stored u ++ [post.number]) v :=
    fun v n hn => mem_update_append.2 (.inl hn)
  have hlog : ∀ v, (Function.update s.stored u (s.stored u ++ [post.number]) v).Nodup := by
    intro v
    by_cases hv : v = u
    · subst hv
      rw [Function.update_self, List.nodup_append_comm]
      exact List.nodup_cons.2 ⟨hstored, (h.stored v).1⟩
    · rw [Function.update_of_ne hv]
      exact (h.stored v).1
  have hstores : post.number ∈ Function.update s.stored u (s.stored u ++ [post.number]) u :=
    mem_update_append.2 (.inr ⟨rfl, rfl⟩)
  refine { h with
    pending := ?_, arrived := ?_, pushing := ?_, stored := ?_, buffers := ?_, replayed := ?_ }
  · intro p hp
    obtain ⟨hplt, hpqueued, hpstored⟩ := h.pending p hp
    refine ⟨hplt, hpqueued, fun hn => ?_⟩
    rcases hnew _ _ hn with hn | ⟨hu, hn⟩
    · exact hpstored hn
    · have hkey : p.key = (u, post.number) := Prod.ext hu hn
      exact (htold i).1 (hkey ▸ List.mem_map_of_mem hp)
  · intro j q hq
    obtain ⟨hqlt, hqstored, hqunseen⟩ := h.arrived j q hq
    refine ⟨hqlt, fun hn => ?_, hqunseen⟩
    rcases hnew _ _ hn with hn | ⟨hu, hn⟩
    · exact hqstored hn
    · exact (htold j).2 q hq (Prod.ext hu hn)
  · intro j p hp
    obtain ⟨honly, hplt, hpqueued, hpstored, hdone⟩ := h.pushing j p hp
    refine ⟨honly, hplt, hpqueued, fun hn => ?_, hdone⟩
    rcases hnew _ _ hn with hn | ⟨hu, hn⟩
    · exact hpstored hn
    · exact hpushing j p hp (Prod.ext hu hn)
  · intro v
    constructor
    · exact hlog v
    · intro n hn
      rcases hnew v n hn with hn | ⟨rfl, rfl⟩
      · exact (h.stored v).2 n hn
      · exact ⟨hlt, hqueued⟩
  · intro v
    by_cases hv : v = u
    · subst hv
      have hbuffer : (s.redis.setBuffer v (post :: s.redis.buffers v)).buffers v =
          post :: s.redis.buffers v := Function.update_self ..
      rw [hbuffer]
      obtain ⟨hnodup, hall⟩ := h.buffers v
      constructor
      · exact List.nodup_cons.2 ⟨fun hn => hstored (hall _ hn).1, hnodup⟩
      · intro n hn
        rcases List.mem_cons.1 hn with rfl | hn
        · exact ⟨hstores, fun hreplayed => hstored ((h.replayed v).2 _ hreplayed)⟩
        · exact ⟨hkept v n (hall n hn).1, (hall n hn).2⟩
    · have hbuffer : (s.redis.setBuffer u (post :: s.redis.buffers u)).buffers v =
          s.redis.buffers v := Function.update_of_ne hv ..
      rw [hbuffer]
      exact ⟨(h.buffers v).1, fun n hn =>
        ⟨hkept v n ((h.buffers v).2 n hn).1, ((h.buffers v).2 n hn).2⟩⟩
  · exact fun v => ⟨(h.replayed v).1, fun n hn => hkept v n ((h.replayed v).2 n hn)⟩

omit [DecidableEq ι] in
/-- A list in Redis gets shorter. -/
theorem Inv.shorten (h : s.Inv) {u : Uuid} {posts : List Post}
    (hsub : posts.Sublist (s.redis.buffers u)) :
    { s with redis := s.redis.setBuffer u posts }.Inv := by
  refine { h with buffers := fun v => ?_ }
  by_cases hv : v = u
  · subst hv
    have hbuffer : (s.redis.setBuffer v posts).buffers v = posts := Function.update_self ..
    rw [hbuffer]
    have hnumbers : (numbers posts).Sublist (numbers (s.redis.buffers v)) := hsub.map _
    exact ⟨(h.buffers v).1.sublist hnumbers, fun n hn => (h.buffers v).2 n (hnumbers.subset hn)⟩
  · have hbuffer : (s.redis.setBuffer u posts).buffers v = s.redis.buffers v :=
      Function.update_of_ne hv ..
    rw [hbuffer]
    exact h.buffers v

/-- The loop of an instance goes on with a part that does not push. -/
theorem Inv.goOn (h : s.Inv) (i : ι) {prog : WsProg Unit} (hpart : Buffering prog)
    (hnone : aboutToPush prog = none) :
    { s with delivering := Function.update s.delivering i prog }.Inv := by
  have hparts : ∀ j, Buffering (Function.update s.delivering i prog j) := by
    intro j
    by_cases hj : j = i
    · subst hj
      rw [Function.update_self]
      exact hpart
    · rw [Function.update_of_ne hj]
      exact h.parts j
  have hpushing : ∀ j, ∀ p ∈ aboutToPush (Function.update s.delivering i prog j),
      p ∈ aboutToPush (s.delivering j) := by
    intro j p hp
    by_cases hj : j = i
    · subst hj
      rw [Function.update_self, hnone] at hp
      cases hp
    · rwa [Function.update_of_ne hj] at hp
  exact { h with parts := hparts, pushing := fun j p hp => h.pushing j p (hpushing j p hp) }

/-- The loop of the only instance goes on to push what nobody has got. -/
theorem Inv.goOnToPush (h : s.Inv) (honly : ∀ j, j = i) (hlt : post.number < s.next)
    (hqueued : post.number ∉ s.queued u) (hstored : post.number ∉ s.stored u)
    (htold : ∀ j, s.Told j u post.number) :
    { s with
      delivering := Function.update s.delivering i (WsService.bufferMessage u post) }.Inv := by
  have hself : ∀ j, Function.update s.delivering i (WsService.bufferMessage u post) j =
      WsService.bufferMessage u post := by
    intro j
    rw [honly j, Function.update_self]
  have hparts : ∀ j, Buffering
      (Function.update s.delivering i (WsService.bufferMessage u post) j) := by
    intro j
    rw [hself j]
    exact .push u post
  refine { h with parts := hparts, pushing := fun j p hp => ?_ }
  have hp : p ∈ aboutToPush
      (Function.update s.delivering i (WsService.bufferMessage u post) j) := hp
  rw [hself j] at hp
  cases hp
  exact ⟨fun j' => (honly j').trans (honly j).symm, hlt, hqueued, hstored, htold⟩

omit [DecidableEq ι] in
theorem senders_of_offline (h : (s.hub i).isOnline u = false) : (s.hub i).senders u = [] := by
  rw [WsService.isOnline, Option.isSome_eq_false_iff, Option.isNone_iff_eq_none] at h
  rw [WsService.senders, h]
  rfl

/-- The look-up of an envelope's user. -/
theorem runFor_user (l : Local) : (deliverLocally (.user u post)).runFor CallEnd.answered.exec 1 l =
    if l.hub.isOnline u = true then
      (.ret (), { l with hub := (l.hub.sendToSenders u post).2 })
    else (WsService.bufferMessage u post, l) := by
  have hrun : (deliverLocally (.user u post)).runFor CallEnd.answered.exec 1 l =
      (if (l.hub.sendToSenders u post).1 then .ret () else WsService.bufferMessage u post,
        { l with hub := (l.hub.sendToSenders u post).2 }) := by
    have hcond : ∀ b : Bool, (if b then pure () else WsService.bufferMessage u post : WsProg Unit) =
        if b then .ret () else WsService.bufferMessage u post := fun _ => rfl
    exact congrArg (·, _) (hcond _)
  rw [hrun]
  cases hget : l.hub.clients.get u with
  | none => simp [WsService.isOnline, WsService.sendToSenders, hget]
  | some client => simp [WsService.isOnline, WsService.sendToSenders, hget]

theorem deliver_online (hidle : s.delivering i = .ret ()) (hinbox : s.inbox i = (u, post) :: rest)
    (hentry : (s.hub i).isOnline u = true) :
    s.deliver i = { s with
      hub := Function.update s.hub i ((s.hub i).sendToSenders u post).2
      inbox := Function.update s.inbox i rest
      queued :=
        if ((s.hub i).senders u).isEmpty then s.queued
        else Function.update s.queued u (s.queued u ++ [post.number]) } := by
  have hrun := (@runFor_user u post (s.localAt i)).trans (if_pos hentry)
  have hsame : Function.update s.delivering i (.ret ()) = s.delivering := by
    rw [← hidle, Function.update_eq_self]
  simp only [UserState.deliver, hidle, hinbox, hrun, hsame]
  rfl

theorem deliver_offline (hidle : s.delivering i = .ret ()) (hinbox : s.inbox i = (u, post) :: rest)
    (hentry : (s.hub i).isOnline u = false) :
    s.deliver i = { s with
      inbox := Function.update s.inbox i rest
      delivering := Function.update s.delivering i (WsService.bufferMessage u post) } := by
  have hno : ¬(s.localAt i).hub.isOnline u = true := by
    rw [show (s.localAt i).hub.isOnline u = false from hentry]
    exact Bool.false_ne_true
  have hrun := (@runFor_user u post (s.localAt i)).trans (if_neg hno)
  have hhub : Function.update s.hub i (s.localAt i).hub = s.hub := Function.update_eq_self i s.hub
  have hnone : (s.hub i).senders u = [] := senders_of_offline hentry
  simp only [UserState.deliver, hidle, hinbox, hrun, hhub, hnone, List.isEmpty_nil, if_true]
  rfl

theorem Inv.deliver (h : s.Inv)
    (hs : ∀ q ∈ (s.inbox i).head?, (s.hub i).isOnline q.1 = false → ∀ j, j = i) :
    (s.deliver i).Inv := by
  cases hprog : s.delivering i with
  | call c k =>
    have hsame : s.deliver i = s := by simp only [UserState.deliver, hprog]
    rw [hsame]
    exact h
  | ret a =>
    cases hinbox : s.inbox i with
    | nil =>
      have hsame : s.deliver i = s := by simp only [UserState.deliver, hprog, hinbox]
      rw [hsame]
      exact h
    | cons q rest =>
      obtain ⟨u, post⟩ := q
      cases hentry : (s.hub i).isOnline u with
      | true =>
        rw [deliver_online hprog hinbox hentry]
        refine h.deliverOnline hinbox ?_
        split
        · exact .inl rfl
        · exact .inr rfl
      | false =>
        rw [deliver_offline hprog hinbox hentry]
        have hmem : (u, post) ∈ s.inbox i := hinbox ▸ List.mem_cons_self
        have honly := hs (u, post) (by rw [hinbox]; rfl) hentry
        have ht : s.Taken { s with inbox := Function.update s.inbox i rest } i u post rest :=
          ⟨rfl, rfl⟩
        obtain ⟨hlt, hstored, -⟩ := h.arrived i _ hmem
        have hskip := h.skip hinbox (senders_of_offline hentry)
        refine hskip.goOnToPush honly hlt (fun hqueued => ?_) hstored fun j =>
          (ht.told h hinbox).2 (.inr ⟨honly j, rfl⟩)
        obtain ⟨-, j, -, hj⟩ := h.queued u _ hqueued
        obtain rfl := honly j
        exact hj (u, post) hmem rfl

/-- The calls to Redis leave the entries as they are. -/
theorem proceed_eq {prog : WsProg Unit} {answer : CallEnd} (hprog : s.delivering i = prog)
    (hhub : (prog.runFor answer.exec 1 (s.localAt i)).2.hub = s.hub i) :
    s.proceed i answer = { s with
      redis := (prog.runFor answer.exec 1 (s.localAt i)).2.redis
      delivering := Function.update s.delivering i (prog.runFor answer.exec 1 (s.localAt i)).1
      stored := s.storedBy prog answer } := by
  simp only [UserState.proceed, hprog, hhub, Function.update_eq_self]

theorem Inv.proceed (h : s.Inv) (i : ι) (answer : CallEnd) : (s.proceed i answer).Inv := by
  have hpart := h.parts i
  have hpushing := h.pushing i
  generalize hprog : s.delivering i = prog at hpart hpushing
  cases hpart with
  | push u post =>
    have hgone := h.goOn i (.trim u) rfl
    obtain ⟨honly, hlt, hqueued, hstored, htold⟩ := hpushing (u, post) rfl
    have hnone : ∀ j, aboutToPush (Function.update s.delivering i (trimming u) j) = none := by
      intro j
      rw [honly j, Function.update_self]
      rfl
    have hstore := hgone.store hlt hqueued hstored htold
      (fun j p hp => nomatch (hnone j ▸ hp : p ∈ (none : Option (Uuid × Post)))) i
    cases answer with
    | answered =>
      rw [proceed_eq hprog rfl]
      exact hstore
    | failed =>
      rw [proceed_eq hprog rfl]
      exact hgone
    | lost =>
      rw [proceed_eq hprog rfl]
      exact hstore
  | trim u =>
    have hgone := h.goOn i (.expire u) rfl
    have htrim := hgone.shorten (List.take_sublist (messageBufferSize + 1) (s.redis.buffers u))
    cases answer with
    | answered =>
      rw [proceed_eq hprog rfl]
      exact htrim
    | failed =>
      rw [proceed_eq hprog rfl]
      exact hgone
    | lost =>
      rw [proceed_eq hprog rfl]
      exact htrim
  | expire u =>
    have hgone := h.goOn i .done rfl
    cases answer <;>
    · rw [proceed_eq hprog rfl]
      exact hgone
  | done =>
    rw [proceed_eq hprog rfl]
    exact h.goOn i .done rfl

end Deliver

/-! ### Connections -/

/-- Of one user on one instance. -/
theorem update_update {α : Type} (f : ι → Uuid → α) (i j : ι) (u v : Uuid) (a : α) :
    Function.update f i (Function.update (f i) u a) j v = if j = i ∧ v = u then a else f j v := by
  by_cases hj : j = i
  · subst hj
    rw [Function.update_self]
    by_cases hv : v = u
    · subst hv
      simp
    · rw [Function.update_of_ne hv, if_neg fun h => hv h.2]
  · rw [Function.update_of_ne hj, if_neg fun h => hj h.1]

theorem Inv.register (h : s.Inv) (i : ι) (u : Uuid) : (s.register i u).Inv := by
  unfold UserState.register
  by_cases hfull : maxWsConnectionsPerUser ≤ ((s.hub i).senders u).length
  · have hno : (s.hub i).register u = (none, s.hub i) := if_pos hfull
    rw [hno]
    exact h
  have hlt : ((s.hub i).senders u).length < maxWsConnectionsPerUser := Nat.lt_of_not_le hfull
  have hreg : ((s.hub i).register u).1 = some (s.hub i).connSeq := by
    rw [WsService.register, if_neg hfull]
  have hseq : ((s.hub i).register u).2.connSeq = (s.hub i).connSeq + 1 := by
    rw [WsService.register, if_neg hfull]
  have hsenders := @WsService.senders_register (s.hub i) u
  rw [← Prod.mk.eta (p := (s.hub i).register u), hreg]
  dsimp only
  generalize ((s.hub i).register u).2 = hub at hseq hsenders
  have hconns : ∀ j v, ∀ c ∈ (Function.update s.hub i hub j).senders v, c ∈ (s.hub j).senders v ∨
      j = i ∧ v = u ∧ c = { connId := (s.hub i).connSeq, queue := [] } := by
    intro j v c hc
    by_cases hj : j = i
    · subst hj
      rw [Function.update_self, hsenders] at hc
      split at hc
      · rename_i hv
        obtain ⟨rfl, -⟩ := hv
        rw [List.mem_append, List.mem_singleton] at hc
        exact hc.imp_right fun hc => ⟨rfl, rfl, hc⟩
      · exact .inl hc
    · rw [Function.update_of_ne hj] at hc
      exact .inl hc
  have hopened : ∀ j v,
      (if j = i ∧ v = u then s.opened i u ++ [(s.hub i).connSeq] else s.opened j v) =
        ((Function.update s.hub i hub j).senders v).map ConnectionSender.connId := by
    intro j v
    by_cases hj : j = i
    · subst hj
      rw [Function.update_self, hsenders]
      by_cases hv : v = u
      · subst hv
        rw [if_pos ⟨rfl, rfl⟩, if_pos ⟨rfl, hlt⟩, List.map_append, h.opened]
        rfl
      · rw [if_neg fun h => hv h.2, if_neg fun h => hv h.1, h.opened]
    · rw [Function.update_of_ne hj, if_neg fun h => hj h.1, h.opened]
  refine { h with
    notQueued := ?_, arrived := ?_, opened := ?_, fresh := ?_, queues := ?_, complete := ?_ }
  · intro p hp j c hc hn
    rcases hconns j _ c hc with hc | ⟨-, -, rfl⟩
    · exact h.notQueued p hp j c hc hn
    · cases hn
  · intro j q hq
    obtain ⟨hqlt, hqstored, hqunseen⟩ := h.arrived j q hq
    refine ⟨hqlt, hqstored, fun c hc hn => ?_⟩
    rcases hconns j _ c hc with hc | ⟨-, -, rfl⟩
    · exact hqunseen c hc hn
    · cases hn
  · exact fun j v => (update_update s.opened i j u v _).trans (hopened j v)
  · intro j v c hc
    have hle : (s.hub j).connSeq ≤ (Function.update s.hub i hub j).connSeq := by
      by_cases hj : j = i
      · subst hj
        rw [Function.update_self, hseq]
        exact Nat.le_succ _
      · rw [Function.update_of_ne hj]
    rcases hconns j v c hc with hc | ⟨rfl, -, rfl⟩
    · exact Nat.lt_of_lt_of_le (h.fresh j v c hc) hle
    · have hsucc : (s.hub j).connSeq < (Function.update s.hub j hub j).connSeq := by
        rw [Function.update_self, hseq]
        exact Nat.lt_succ_self _
      exact hsucc
  · intro j v c hc
    rcases hconns j v c hc with hc | ⟨-, -, rfl⟩
    · exact h.queues j v c hc
    · exact ⟨.nil, fun _ hn => nomatch hn⟩
  · intro j v c hc n hn hsince hdone
    have hsince : Function.update s.since i
        (Function.update (s.since i) (s.hub i).connSeq s.next) j c.connId ≤ n := hsince
    rcases hconns j v c hc with hc | ⟨rfl, -, rfl⟩
    · refine h.complete j v c hc n hn ?_ hdone
      have hold : c.connId ≠ (s.hub j).connSeq := (h.fresh j v c hc).ne
      by_cases hj : j = i
      · subst hj
        rwa [Function.update_self, Function.update_of_ne hold] at hsince
      · rwa [Function.update_of_ne hj] at hsince
    · rw [Function.update_self, Function.update_self] at hsince
      exact absurd (h.passed v n hn) (Nat.not_lt.2 hsince)

/-- Connections that go. -/
theorem Inv.fewer (h : s.Inv) {i : ι} {hub : WsService} {opened : ι → Uuid → List Nat}
    (hsub : ∀ v, ∀ c ∈ hub.senders v, c ∈ (s.hub i).senders v)
    (hseq : hub.connSeq = (s.hub i).connSeq)
    (hopened : ∀ j v, opened j v =
      ((Function.update s.hub i hub j).senders v).map ConnectionSender.connId) :
    { s with hub := Function.update s.hub i hub, opened }.Inv := by
  have hconns : ∀ j v, ∀ c ∈ (Function.update s.hub i hub j).senders v,
      c ∈ (s.hub j).senders v := by
    intro j v c hc
    by_cases hj : j = i
    · subst hj
      rw [Function.update_self] at hc
      exact hsub v c hc
    · rwa [Function.update_of_ne hj] at hc
  refine { h with
    notQueued := ?_, arrived := ?_, opened := hopened, fresh := ?_, queues := ?_, complete := ?_ }
  · exact fun p hp j c hc => h.notQueued p hp j c (hconns j _ c hc)
  · intro j q hq
    obtain ⟨hqlt, hqstored, hqunseen⟩ := h.arrived j q hq
    exact ⟨hqlt, hqstored, fun c hc => hqunseen c (hconns j _ c hc)⟩
  · intro j v c hc
    have hsame : (Function.update s.hub i hub j).connSeq = (s.hub j).connSeq := by
      by_cases hj : j = i
      · subst hj
        rw [Function.update_self, hseq]
      · rw [Function.update_of_ne hj]
    exact hsame ▸ h.fresh j v c (hconns j v c hc)
  · exact fun j v c hc => h.queues j v c (hconns j v c hc)
  · exact fun j v c hc => h.complete j v c (hconns j v c hc)

theorem Inv.retainOthers (h : s.Inv) (i : ι) (u : Uuid) (connId : Nat) :
    (s.retainOthers i u connId).Inv := by
  have hsenders := @WsService.senders_retainOthers (s.hub i) u
  refine h.fewer (fun v c hc => ?_) ?_ fun j v => ?_
  · rw [hsenders] at hc
    split at hc
    · rename_i hv
      exact hv ▸ (List.mem_filter.1 hc).1
    · exact hc
  · simp only [WsService.retainOthers]
    split <;> rfl
  · rw [update_update]
    by_cases hj : j = i
    · subst hj
      rw [Function.update_self, hsenders]
      by_cases hv : v = u
      · subst hv
        rw [if_pos ⟨rfl, rfl⟩, if_pos rfl, h.opened, List.filter_map]
        rfl
      · rw [if_neg fun h => hv h.2, if_neg hv, h.opened]
    · rw [Function.update_of_ne hj, if_neg fun h => hj h.1, h.opened]

theorem Inv.removeClient (h : s.Inv) {i : ι} {u : Uuid} (hnone : (s.hub i).senders u = []) :
    { s with hub := Function.update s.hub i ((s.hub i).removeClient u) }.Inv := by
  have hsenders : ∀ v, ((s.hub i).removeClient u).senders v = (s.hub i).senders v := by
    intro v
    rw [WsService.senders_removeClient]
    split
    · rename_i hv
      rw [hv, hnone]
    · rfl
  refine h.fewer (fun v c hc => hsenders v ▸ hc) rfl fun j v => ?_
  by_cases hj : j = i
  · subst hj
    rw [Function.update_self, hsenders, h.opened]
  · rw [Function.update_of_ne hj, h.opened]

/-! ### The buffers -/

omit [DecidableEq ι] in
theorem Inv.bufferExpires (h : s.Inv) (u : Uuid) :
    { s with redis := s.redis.setBuffer u [] }.Inv := h.shorten (List.nil_sublist _)

omit [DecidableEq ι] in
theorem Inv.replay (h : s.Inv) (u : Uuid) :
    { s with
      redis := s.redis.setBuffer u []
      replayed := Function.update s.replayed u
        (s.replayed u ++ numbers (s.redis.buffers u).reverse) }.Inv := by
  obtain ⟨hnodup, hall⟩ := h.buffers u
  have hreverse : numbers (s.redis.buffers u).reverse = (numbers (s.redis.buffers u)).reverse :=
    List.map_reverse
  have hlog : ∀ v, (Function.update s.replayed u
      (s.replayed u ++ numbers (s.redis.buffers u).reverse) v).Nodup ∧
      ∀ n ∈ Function.update s.replayed u
        (s.replayed u ++ numbers (s.redis.buffers u).reverse) v, n ∈ s.stored v := by
    intro v
    by_cases hv : v = u
    · subst hv
      rw [Function.update_self, hreverse]
      refine ⟨List.Nodup.append (h.replayed v).1 (List.nodup_reverse.2 hnodup) ?_, ?_⟩
      · exact fun n hn hmem => (hall n (List.mem_reverse.1 hmem)).2 hn
      · intro n hn
        rcases List.mem_append.1 hn with hn | hn
        · exact (h.replayed v).2 n hn
        · exact (hall n (List.mem_reverse.1 hn)).1
    · rw [Function.update_of_ne hv]
      exact h.replayed v
  have hexpired := h.bufferExpires u
  refine { hexpired with buffers := fun v => ?_, replayed := hlog }
  refine ⟨(hexpired.buffers v).1, fun n hn => ⟨((hexpired.buffers v).2 n hn).1, ?_⟩⟩
  by_cases hv : v = u
  · subst hv
    have hnone : (s.redis.setBuffer v []).buffers v = [] := Function.update_self ..
    have hn : n ∈ numbers ((s.redis.setBuffer v []).buffers v) := hn
    rw [hnone] at hn
    cases hn
  · have hold := ((hexpired.buffers v).2 n hn).2
    have hsame : Function.update s.replayed u
        (s.replayed u ++ numbers (s.redis.buffers u).reverse) v = s.replayed v :=
      Function.update_of_ne hv ..
    exact fun hmem => hold (hsame ▸ hmem)

omit [DecidableEq ι] in
theorem Inv.drain (h : s.Inv) (i : ι) (u : Uuid) (answer : CallEnd) : (s.drain i u answer).Inv := by
  have hsame : Function.update s.replayed u (s.replayed u ++ numbers []) = s.replayed := by
    rw [numbers, List.map_nil, List.append_nil, Function.update_eq_self]
  cases answer with
  | answered => exact h.replay u
  | failed =>
    have hfailed : s.drain i u .failed = { s with
        replayed := Function.update s.replayed u (s.replayed u ++ numbers []) } := rfl
    rw [hfailed, hsame]
    exact h
  | lost =>
    have hlost : s.drain i u .lost = { s with
        redis := s.redis.setBuffer u []
        replayed := Function.update s.replayed u (s.replayed u ++ numbers []) } := rfl
    rw [hlost, hsame]
    exact h.bufferExpires u

theorem Inv.step (h : s.Inv) {e : UserEvent ι} (hs : s.Careful e) : (s.step e).Inv := by
  cases e with
  | publishToUsers us payload => exact h.publishToUsers hs payload
  | publish k answer => exact h.publish hs
  | deliver i => exact h.deliver hs
  | proceed i answer => exact h.proceed i answer
  | lagged i n =>
    have hdrop : (s.inbox i).drop n = s.inbox i := by
      have hall := List.take_append_drop n (s.inbox i)
      have hnone : (s.inbox i).take n = [] := hs
      rwa [hnone] at hall
    have hsame : Function.update s.inbox i ((s.inbox i).drop n) = s.inbox := by
      rw [hdrop, Function.update_eq_self]
    have hstep : s.step (.lagged i n) = s := by rw [UserState.step, hsame]
    rw [hstep]
    exact h
  | register i u => exact h.register i u
  | drain i u answer => exact h.drain i u answer
  | retainOthers i u connId => exact h.retainOthers i u connId
  | removeClient i u => exact h.removeClient hs
  | bufferExpires u => exact h.bufferExpires u

omit [DecidableEq ι] in
theorem Inv.exactlyOnce (h : s.Inv) : s.ExactlyOnce where
  queues i u connId hopen := by
    rw [h.opened] at hopen
    obtain ⟨c, hc, rfl⟩ := List.mem_map.1 hopen
    refine ⟨c, hc, rfl, fun n hn => ⟨List.nodup_iff_count_le_one.1 (h.queues i u c hc).1 n, ?_⟩⟩
    intro hsince htold
    exact List.count_eq_one_of_mem (h.queues i u c hc).1 (h.complete i u c hc n hn hsince htold)
  stored u := ⟨(h.stored u).1, fun n hn => ((h.stored u).2 n hn).2⟩
  replayed := h.replayed

/-- The instance that stores has no entry for the user, and is the only one. -/
theorem Inv.storesOffline (h : s.Inv) {e : UserEvent ι} (hs : s.Careful e) : s.StoresOffline e := by
  cases e with
  | proceed i answer =>
    intro u hstored j
    cases hpush : aboutToPush (s.delivering i) with
    | none =>
      simp only [UserState.proceed, storedBy, hpush] at hstored
      exact absurd rfl hstored
    | some p =>
      obtain ⟨v, post⟩ := p
      have honly := (h.pushing i (v, post) hpush).1
      rcases hs (v, post) hpush with rfl | hentry
      · simp only [UserState.proceed, storedBy, hpush] at hstored
        exact absurd rfl hstored
      have hv : u = v := by
        by_contra hne
        refine hstored ?_
        simp only [UserState.proceed, storedBy, hpush]
        cases answer <;> simp [hne]
      subst hv
      rw [h.opened, honly j, senders_of_offline hentry]
      rfl
  | _ => trivial

end Step

/-- For any number of instances: in every run whose steps are careful, what is passed for a user is
put once into the queue of every connection that was open then, and nothing is stored while the user
has a connection, nor stored twice, nor replayed when it was put into a queue. -/
theorem delivered_exactly_once (es : List (UserEvent ι))
    (hes : Along step Careful (start ι) es) :
    ((start ι).run es).ExactlyOnce ∧ Along step StoresOffline (start ι) es := by
  have hinv : ((start ι).run es).Inv := Along.invariant (fun _ _ h hs => h.step hs) inv_start hes
  exact ⟨hinv.exactlyOnce,
    Along.of_invariant (fun _ _ h hs => h.step hs) (fun _ _ h hs => h.storesOffline hs)
      inv_start hes⟩

/-- User 1 is away and comes back: the first payload is replayed, the second one delivered. -/
def awayAndBack : List (UserEvent Unit) :=
  [.publishToUsers [⟨1⟩] hello, .publish 0 .failed, .publish 0 .answered, .deliver (),
    .proceed () .answered, .register () ⟨1⟩, .proceed () .answered, .drain () ⟨1⟩ .answered,
    .publishToUsers [⟨1⟩] hello, .publish 0 .answered, .proceed () .answered, .deliver ()]

theorem away_and_back :
    ((start Unit).run awayAndBack).replayed ⟨1⟩ = [0] ∧
      ((start Unit).run awayAndBack).queued ⟨1⟩ = [1] ∧
      ((start Unit).run awayAndBack).ExactlyOnce ∧
        Along step StoresOffline (start Unit) awayAndBack := by
  refine ⟨rfl, rfl, delivered_exactly_once awayAndBack ?_⟩
  refine ⟨List.nodup_singleton _, ?_, ?_, fun _ _ _ _ => rfl, fun p hp => ?_, trivial, nofun,
    trivial, List.nodup_singleton _, ?_, nofun, fun _ _ _ _ => rfl, trivial⟩
  · rintro p ⟨⟩
    exact .inr ⟨rfl, rfl⟩
  · exact fun _ _ => .inl rfl
  · cases hp
    exact .inr rfl
  · exact fun _ _ => .inl rfl

/-- User 1 is connected to one of two instances; the other one stores what that one delivers, and
replays it to the next connection. -/
def deliveredAndReplayed : List (UserEvent Bool) :=
  [.register false ⟨1⟩, .publishToUsers [⟨1⟩] hello, .publish 0 .answered, .deliver false,
    .deliver true, .proceed true .answered, .proceed true .answered, .proceed true .answered,
    .register false ⟨1⟩, .drain false ⟨1⟩ .answered]

/-- User 1 connects to the only instance when that has not found an entry and not stored yet. -/
def storedWhileConnected : List (UserEvent Unit) :=
  [.publishToUsers [⟨1⟩] hello, .publish 0 .answered, .deliver (), .register () ⟨1⟩,
    .drain () ⟨1⟩ .answered, .proceed () .answered]

theorem delivered_and_replayed :
    (((start Bool).run deliveredAndReplayed).queued ⟨1⟩ = [0] ∧
      ((start Bool).run deliveredAndReplayed).replayed ⟨1⟩ = [0] ∧
      ¬ ((start Bool).run deliveredAndReplayed).ExactlyOnce) ∧
    ¬ Along step StoresOffline (start Unit) storedWhileConnected := by
  have hqueued : ((start Bool).run deliveredAndReplayed).queued ⟨1⟩ = [0] := rfl
  have hreplayed : ((start Bool).run deliveredAndReplayed).replayed ⟨1⟩ = [0] := rfl
  refine ⟨⟨hqueued, hreplayed, fun h => ?_⟩, ?_⟩
  · have hstored := (h.replayed ⟨1⟩).2 0 (hreplayed ▸ List.mem_singleton.2 rfl)
    exact (h.stored ⟨1⟩).2 0 hstored (hqueued ▸ List.mem_singleton.2 rfl)
  · rintro ⟨-, -, -, -, -, hstores, -⟩
    have hopen := hstores ⟨1⟩ (by decide) ()
    cases hopen

end UserState

end Meno.Ws
