import Meno.Lib.Timeline
import Meno.Ws.Hub

/-!
# Meno.Ws.SenderLock

The tasks of one connection that share its sink behind a mutex: the replay of what was buffered, the
heartbeat task, and the write task, which takes the lock once and keeps it for as long as it runs.
`pings_not_locked_out_iff` says in which runs a ping that is due can always be sent.
-/

namespace Meno.Ws

open Lib

/-! ## The tasks -/

/-- The block of `handle_socket` that replays the buffered messages. -/
inductive Replay where
  | locking (payloads : List WsPayload)
  /-- It has the lock. -/
  | sending (payloads : List WsPayload)
  | done

inductive HeartbeatTask where
  | notSpawned
  | ticking
  | locking
  /-- It has the lock. -/
  | pinging
  | ended
deriving DecidableEq

inductive WriteTask where
  | notSpawned
  | locking
  /-- It has the lock, and waits for the next message. -/
  | receiving
  | ended
deriving DecidableEq

/-- The capacity of the channel between `WsService` and the write task. -/
def hubCapacity : Nat := 128

/-- The tasks, the messages in the channel and whether its sender is still there, the count that the
read loop keeps, and what has been sent. -/
structure SocketTasks where
  replay : Replay
  heartbeat : HeartbeatTask
  write : WriteTask
  queue : List WsPayload
  isOpen : Bool
  missedPongs : Nat
  pings : Nat
  written : List WsPayload

inductive SocketEvent where
  | replayLocks
  | replaySends
  | spawnHeartbeat
  | spawnWrite
  | tick
  | heartbeatLocks
  | ping (sent : Bool)
  | writeLocks
  | write (sent : Bool)
  /-- `recv` returns `None`. -/
  | writeEnds
  /-- `WsService` puts a message into the channel. -/
  | enqueue (payload : WsPayload)
  /-- The sender is dropped. -/
  | close
  /-- The read loop stores `missed_pongs`. -/
  | missed (missedPongs : Nat)
  | abort

/-- The connection is there, and what is sent gets through. -/
def SocketEvent.isWell : SocketEvent → Bool
  | .ping sent => sent
  | .write sent => sent
  | .close => false
  | .abort => false
  | _ => true

def SocketEvent.isWrite : SocketEvent → Bool
  | .write _ => true
  | _ => false

namespace Replay

def holdsLock : Replay → Bool
  | .sending _ => true
  | _ => false

def isDone : Replay → Bool
  | .done => true
  | _ => false

/-- The guard is dropped after the last message. -/
def next : List WsPayload → Replay
  | [] => .done
  | payloads => .sending payloads

end Replay

namespace SocketTasks

def start (buffered : List WsPayload) : SocketTasks where
  replay := if buffered.isEmpty then .done else .locking buffered
  heartbeat := .notSpawned
  write := .notSpawned
  queue := []
  isOpen := true
  missedPongs := 0
  pings := 0
  written := []

variable (s : SocketTasks)

def lockFree : Bool :=
  !s.replay.holdsLock && s.heartbeat ≠ .pinging && s.write ≠ .receiving

/-- The write task calls `recv`, which is ready at once with `None` when nothing can come any more. -/
def receive : SocketTasks :=
  { s with write := if s.queue.isEmpty && !s.isOpen then .ended else .receiving }

def step (maxMissed : Nat) (s : SocketTasks) : SocketEvent → SocketTasks
  | .replayLocks =>
    match s.replay with
    | .locking payloads => if s.lockFree then { s with replay := .sending payloads } else s
    | _ => s
  | .replaySends =>
    match s.replay with
    | .sending (payload :: rest) =>
      { s with replay := Replay.next rest, written := s.written ++ [payload] }
    | _ => s
  | .spawnHeartbeat =>
    if s.replay.isDone ∧ s.heartbeat = .notSpawned then { s with heartbeat := .ticking } else s
  | .spawnWrite =>
    if s.heartbeat ≠ .notSpawned ∧ s.write = .notSpawned then { s with write := .locking } else s
  | .tick =>
    if s.heartbeat = .ticking then
      { s with heartbeat := if maxMissed ≤ s.missedPongs then .ended else .locking }
    else s
  | .heartbeatLocks =>
    if s.heartbeat = .locking ∧ s.lockFree then { s with heartbeat := .pinging } else s
  | .ping sent =>
    if s.heartbeat = .pinging then
      if sent then { s with heartbeat := .ticking, pings := s.pings + 1 }
      else { s with heartbeat := .ended }
    else s
  | .writeLocks =>
    if s.write = .locking ∧ s.lockFree then s.receive else s
  | .write sent =>
    if s.write = .receiving then
      match s.queue with
      | [] => s
      | payload :: rest =>
        if sent then receive { s with queue := rest, written := s.written ++ [payload] }
        else { s with queue := rest, write := .ended }
    else s
  | .writeEnds =>
    if s.write = .receiving ∧ s.queue.isEmpty ∧ !s.isOpen then { s with write := .ended } else s
  | .enqueue payload =>
    if s.isOpen ∧ s.queue.length < hubCapacity then { s with queue := s.queue ++ [payload] } else s
  | .close => { s with isOpen := false }
  | .missed n => { s with missedPongs := n }
  | .abort =>
    if s.write ≠ .notSpawned then { s with heartbeat := .ended, write := .ended } else s

abbrev run (maxMissed : Nat) (buffered : List WsPayload) (es : List SocketEvent) : SocketTasks :=
  es.foldl (step maxMissed) (start buffered)

/-! ## The property -/

/-- A ping can be sent, and no more messages have to be written first than are queued. -/
def CanPing (maxMissed : Nat) (s : SocketTasks) : Prop :=
  ∃ es : List SocketEvent, (∀ e ∈ es, e.isWell = true) ∧
    es.countP SocketEvent.isWrite ≤ s.queue.length ∧ s.pings < (es.foldl (step maxMissed) s).pings

structure NotLockedOut (maxMissed : Nat) (s : SocketTasks) : Prop where
  idle : ¬(s.write = .receiving ∧ s.queue = [])
  ping : s.heartbeat = .locking → s.CanPing maxMissed

/-- While the sender of its channel is there: the write task is given the lock when there is a message
for it and no ping is due, it writes a message when another one is behind it, and no ping falls due
while it has the lock. -/
def LocksBriefly (maxMissed : Nat) (s : SocketTasks) : SocketEvent → Prop
  | .writeLocks => s.isOpen = true → s.write = .locking → s.lockFree = true →
    s.queue ≠ [] ∧ s.heartbeat ≠ .locking
  | .write sent => s.isOpen = true → s.write = .receiving → sent = true → 2 ≤ s.queue.length
  | .tick => s.isOpen = true → s.write = .receiving → s.heartbeat = .ticking →
    maxMissed ≤ s.missedPongs
  | _ => True

/-! ## What locks the pings out -/

/-- The write task that has the lock has something to do, and will let it go when a ping is due. -/
def Clear (s : SocketTasks) : Prop :=
  s.write = .receiving → s.queue ≠ [] ∧ (s.isOpen = true → s.heartbeat ≠ .locking)

/-- The tasks are spawned one after the other, after the replay. -/
structure Spawned (s : SocketTasks) : Prop where
  heartbeat : s.heartbeat ≠ .notSpawned → s.replay.isDone = true
  write : s.write ≠ .notSpawned → s.heartbeat ≠ .notSpawned

variable {s} {maxMissed : Nat} {e : SocketEvent} {buffered : List WsPayload}

theorem spawned_start : (start buffered).Spawned where
  heartbeat h := absurd rfl h
  write h := absurd rfl h

theorem Spawned.step (h : s.Spawned) (e : SocketEvent) : (s.step maxMissed e).Spawned := by
  obtain ⟨hheartbeat, hwrite⟩ := h
  cases e with
  | replayLocks => constructor <;> grind [SocketTasks.step, Replay.isDone]
  | replaySends => constructor <;> grind [SocketTasks.step, Replay.isDone]
  | spawnHeartbeat => constructor <;> grind [SocketTasks.step]
  | spawnWrite => constructor <;> grind [SocketTasks.step]
  | tick => constructor <;> grind [SocketTasks.step]
  | heartbeatLocks => constructor <;> grind [SocketTasks.step]
  | ping sent => constructor <;> grind [SocketTasks.step]
  | writeLocks => constructor <;> grind [SocketTasks.step, receive]
  | write sent => constructor <;> grind [SocketTasks.step, receive]
  | writeEnds => constructor <;> grind [SocketTasks.step]
  | enqueue payload => constructor <;> grind [SocketTasks.step]
  | close => exact ⟨hheartbeat, hwrite⟩
  | missed n => exact ⟨hheartbeat, hwrite⟩
  | abort => constructor <;> grind [SocketTasks.step]

theorem clear_start : (start buffered).Clear := by
  intro h
  cases h

/-- Only what the write task does, and a ping that falls due, can lead out of `Clear`. -/
theorem Clear.step_iff (h : s.Clear) : (s.step maxMissed e).Clear ↔ s.LocksBriefly maxMissed e := by
  cases e with
  | tick =>
    have hstep : s.step maxMissed .tick = if s.heartbeat = .ticking then
        { s with heartbeat := if maxMissed ≤ s.missedPongs then .ended else .locking } else s := rfl
    rw [hstep]
    split
    · rename_i hticking
      split
      · rename_i hmissed
        refine iff_of_true (fun hwrite => ⟨(h hwrite).1, fun _ hlocking => ?_⟩) fun _ _ _ => hmissed
        cases hlocking
      · rename_i hfew
        constructor
        · intro hclear hopen hwrite _
          exact absurd rfl ((hclear hwrite).2 hopen)
        · intro hbrief hwrite
          exact ⟨(h hwrite).1, fun hopen _ => hfew (hbrief hopen hwrite hticking)⟩
    · rename_i hother
      exact iff_of_true h fun _ _ hticking => absurd hticking hother
  | writeLocks =>
    have hstep : s.step maxMissed .writeLocks =
        if s.write = .locking ∧ s.lockFree then s.receive else s := rfl
    rw [hstep]
    split
    · rename_i hfree
      cases hopen : s.isOpen with
      | true => simp [Clear, LocksBriefly, receive, hopen, hfree.1, hfree.2]
      | false =>
        refine iff_of_true ?_ fun h => absurd h (by simp [hopen])
        simp [Clear, receive, hopen]
    · rename_i hwaits
      exact iff_of_true h fun _ hlocking hfree => absurd ⟨hlocking, hfree⟩ hwaits
  | write sent =>
    by_cases hwrite : s.write = .receiving
    · obtain ⟨hqueue, hping⟩ := h hwrite
      obtain ⟨payload, rest, hrest⟩ := List.exists_cons_of_ne_nil hqueue
      cases sent with
      | false => simp [SocketTasks.step, hwrite, hrest, Clear, LocksBriefly]
      | true =>
        cases hopen : s.isOpen with
        | true => simp [SocketTasks.step, hwrite, hrest, receive, hopen, Clear, LocksBriefly, hping hopen,
            Nat.one_le_iff_ne_zero]
        | false => simp [SocketTasks.step, hwrite, hrest, receive, hopen, Clear, LocksBriefly]
    · simp [SocketTasks.step, hwrite, Clear, LocksBriefly]
  | enqueue payload =>
    have hstep : s.step maxMissed (.enqueue payload) =
        if s.isOpen ∧ s.queue.length < hubCapacity then { s with queue := s.queue ++ [payload] }
        else s := rfl
    refine iff_of_true ?_ trivial
    rw [hstep]
    split
    · intro hwrite
      exact ⟨by simp, (h hwrite).2⟩
    · exact h
  | _ => grind [SocketTasks.step, Clear, LocksBriefly]

/-! ## Pings -/

/-- The write task has the lock, keeps it, and a ping is due. -/
def LockedOut (s : SocketTasks) : Prop :=
  s.write = .receiving ∧ s.isOpen = true ∧ s.heartbeat = .locking

theorem LockedOut.stays (h : s.LockedOut) (he : e.isWell = true) :
    (s.step maxMissed e).LockedOut ∧ (s.step maxMissed e).pings = s.pings := by
  obtain ⟨hwrite, hopen, hlocking⟩ := h
  cases e with
  | close => cases he
  | abort => cases he
  | write sent =>
    have hsent : sent = true := he
    cases hqueue : s.queue with
    | nil => simp [SocketTasks.step, hwrite, hqueue, LockedOut, hopen, hlocking]
    | cons payload rest =>
      simp [SocketTasks.step, hwrite, hqueue, hsent, receive, LockedOut, hopen, hlocking]
  | replayLocks => grind [SocketTasks.step, LockedOut]
  | replaySends => grind [SocketTasks.step, LockedOut]
  | enqueue payload =>
    simp only [SocketTasks.step]
    split
    · exact ⟨⟨hwrite, hopen, hlocking⟩, rfl⟩
    · exact ⟨⟨hwrite, hopen, hlocking⟩, rfl⟩
  | _ => simp [SocketTasks.step, LockedOut, lockFree, hwrite, hopen, hlocking]

theorem LockedOut.not_canPing (h : s.LockedOut) : ¬s.CanPing maxMissed := by
  rintro ⟨es, hwell, -, hpings⟩
  have hstuck : (es.foldl (step maxMissed) s).LockedOut ∧
      (es.foldl (step maxMissed) s).pings = s.pings := by
    refine foldl_keeps (I := fun s' : SocketTasks => s'.LockedOut ∧ s'.pings = s.pings)
      ?_ ⟨h, rfl⟩ hwell
    rintro s' e ⟨hs', hsame⟩ he
    obtain ⟨hnext, hpings⟩ := hs'.stays he
    exact ⟨hnext, hpings.trans hsame⟩
  rw [hstuck.2] at hpings
  exact Nat.lt_irrefl _ hpings

/-- A write task that nothing can come to any more writes what is queued and ends. -/
theorem write_all (maxMissed : Nat) (queue : List WsPayload) : ∀ s : SocketTasks,
    s.queue = queue → queue ≠ [] → s.write = .receiving → s.isOpen = false →
      ∃ written, (List.replicate queue.length (.write true)).foldl (step maxMissed) s =
        { s with queue := [], write := .ended, written } := by
  induction queue with
  | nil => intro s _ hne; exact absurd rfl hne
  | cons payload rest ih =>
    intro s hqueue _ hwrite hopen
    have hstep : s.step maxMissed (.write true) =
        receive { s with queue := rest, written := s.written ++ [payload] } := by
      simp [SocketTasks.step, hwrite, hqueue]
    rw [List.length_cons, List.replicate_succ, List.foldl_cons, hstep]
    cases rest with
    | nil =>
      refine ⟨s.written ++ [payload], ?_⟩
      simp [receive, hopen]
    | cons next rest =>
      obtain ⟨written, hend⟩ := ih (receive { s with
        queue := next :: rest, written := s.written ++ [payload] }) rfl (by simp)
        (by simp [receive]) hopen
      refine ⟨written, ?_⟩
      rw [hend]
      rfl

/-- With the lock free. -/
theorem ping_of_lockFree (hlocking : s.heartbeat = .locking) (hfree : s.lockFree = true) :
    ([.heartbeatLocks, .ping true].foldl (step maxMissed) s).pings = s.pings + 1 := by
  simp [SocketTasks.step, hlocking, hfree]

theorem canPing (h : s.Spawned) (hclear : s.Clear) (hlocking : s.heartbeat = .locking) :
    s.CanPing maxMissed := by
  have hdone : s.replay.isDone = true := h.heartbeat (by rw [hlocking]; decide)
  have hnot : s.replay.holdsLock = false := by
    cases hreplay : s.replay with
    | done => rfl
    | locking payloads => rfl
    | sending payloads =>
      rw [hreplay] at hdone
      cases hdone
  by_cases hwrite : s.write = .receiving
  · obtain ⟨hqueue, hopen⟩ := hclear hwrite
    have hclosed : s.isOpen = false := by
      cases hopened : s.isOpen with
      | false => rfl
      | true => exact absurd hlocking (hopen hopened)
    obtain ⟨written, hend⟩ := write_all maxMissed s.queue s rfl hqueue hwrite hclosed
    refine ⟨List.replicate s.queue.length (.write true) ++ [.heartbeatLocks, .ping true], ?_, ?_, ?_⟩
    · intro e he
      rcases List.mem_append.1 he with he | he
      · rw [List.eq_of_mem_replicate he]
        rfl
      · simp only [List.mem_cons, List.not_mem_nil, or_false] at he
        rcases he with rfl | rfl <;> rfl
    · rw [List.countP_append, List.countP_replicate]
      exact Nat.le_refl _
    · rw [List.foldl_append, hend, ping_of_lockFree]
      · exact Nat.lt_succ_self _
      · exact hlocking
      · simp [lockFree, hnot, hlocking]
  · refine ⟨[.heartbeatLocks, .ping true], ?_, Nat.zero_le _, ?_⟩
    · intro e he
      simp only [List.mem_cons, List.not_mem_nil, or_false] at he
      rcases he with rfl | rfl <;> rfl
    · rw [ping_of_lockFree hlocking (by simp [lockFree, hnot, hlocking, hwrite])]
      exact Nat.lt_succ_self _

theorem notLockedOut_iff (h : s.Spawned) : s.NotLockedOut maxMissed ↔ s.Clear := by
  constructor
  · rintro ⟨hidle, hping⟩ hwrite
    refine ⟨fun hqueue => hidle ⟨hwrite, hqueue⟩, fun hopen hlocking => ?_⟩
    exact LockedOut.not_canPing ⟨hwrite, hopen, hlocking⟩ (hping hlocking)
  · intro hclear
    exact ⟨fun hidle => (hclear hidle.1).1 hidle.2, fun hlocking => canPing h hclear hlocking⟩

end SocketTasks

open SocketTasks

/-- For every `max_missed_pings`, every replay and every run of the tasks: the write task never has the
lock with nothing to write, and a ping that is due can always be sent, if and only if the write task
has the lock only as `LocksBriefly` says. -/
theorem pings_not_locked_out_iff (maxMissed : Nat) (buffered : List WsPayload)
    (es : List SocketEvent) :
    (∀ n, (run maxMissed buffered (es.take n)).NotLockedOut maxMissed) ↔
      Along (step maxMissed) (LocksBriefly maxMissed) (start buffered) es := by
  rw [forall_take_iff]
  have hstart : (start buffered).NotLockedOut maxMissed :=
    (notLockedOut_iff spawned_start).2 clear_start
  rw [and_iff_right hstart]
  refine Along.iff_of_invariant (I := fun s => s.Spawned ∧ s.Clear) ?_ ?_ ⟨spawned_start, clear_start⟩
  · intro s e h
    rw [notLockedOut_iff (h.1.step e), h.2.step_iff]
  · intro s e h he
    exact ⟨h.1.step e, h.2.step_iff.2 he⟩

/-- A connection that nothing is sent to: the first ping is sent, then the write task is given the
lock, and the next ping falls due. -/
def quietConnection : List SocketEvent :=
  [.spawnHeartbeat, .spawnWrite, .tick, .heartbeatLocks, .ping true, .writeLocks, .tick]

theorem quiet_connection_locked_out : (run 2 [] quietConnection).pings = 1 ∧
    ¬(∀ n, (run 2 [] (quietConnection.take n)).NotLockedOut 2) := by
  refine ⟨rfl, fun h => ?_⟩
  have hlocked : (run 2 [] (quietConnection.take 7)).LockedOut := ⟨rfl, rfl, rfl⟩
  exact hlocked.not_canPing ((h 7).ping rfl)

end Meno.Ws
