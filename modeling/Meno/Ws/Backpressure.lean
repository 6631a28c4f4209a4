import Meno.Ws.Registry
import Meno.Ws.SenderLock

/-!
# Meno.Ws.Backpressure

The subscriber loop of an instance, send by send. A send waits while the channel of its connection is
full, and everything behind it waits too. `stalled_client_iff` says when a connection whose write task
makes no progress does not keep the loop from the others.
-/

namespace Meno.Ws

open Lib

/-! ## The loop -/

/-- What is left to do for the message that is being delivered. -/
inductive Sending where
  /-- To a user; a message for the user alone is stored if there is no entry. -/
  | user (userId : Uuid) (post : Post) (buffers : Bool)
  /-- To one of the connections in the entry of the user, whose guard is held. -/
  | connection (userId : Uuid) (connId : Nat) (post : Post)
  | teardown (broadcastId : Uuid)

/-- An instance, with what the loop has left to do, what has been put into the channels of its
connections, how much of it their write tasks have taken, and the connections whose receiver is
dropped. -/
structure SubscriberState where
  node : Local
  todo : List Sending
  sent : Nat → List Post
  taken : Nat → Nat
  closed : List Nat

inductive SubscriberEvent where
  | publish (envelope : WsPubSubEnvelope)
  /-- The loop takes its next message, or does what is next for the one it has. -/
  | deliver (redisDown : Bool)
  /-- The write task of a connection takes a message. -/
  | write (connId : Nat)
  | dropReceiver (connId : Nat)
  | register (userId : Uuid)
  | retainOthers (userId : Uuid) (connId : Nat)
  | removeClient (userId : Uuid)
  | insertRoomMember (broadcastId userId : Uuid)
  | removeRoomMember (broadcastId userId : Uuid)
  | removeRoom (broadcastId : Uuid)

/-- The sends that `deliver_locally` makes. -/
def WsService.sendings (h : WsService) : WsPubSubEnvelope → List Sending
  | .room roomId post =>
    (h.members roomId).rows.map (.user · post false) ++
      if post.payload.event = .endedBroadcast ∨ post.payload.event = .broadcastDeleted then
        [.teardown roomId]
      else []
  | .user userId post => [.user userId post true]
  | .broadcast post => h.clients.rows.map fun client => .user client.userId post false

/-- The connections that a send is for, with what they get. -/
def Sending.due (h : WsService) : Sending → List (Nat × Post)
  | .user userId post _ => (h.connIds userId).map (·, post)
  | .connection _ connId post => [(connId, post)]
  | .teardown _ => []

/-- The connections that a message is for. -/
def WsService.addressed (h : WsService) : WsPubSubEnvelope → List Nat
  | .room roomId _ => (h.members roomId).rows.flatMap h.connIds
  | .user userId _ => h.connIds userId
  | .broadcast _ => h.clients.rows.flatMap fun client => h.connIds client.userId

/-- The loop, or a write task other than the one of `connId`. -/
def SubscriberEvent.isOther (connId : Nat) : SubscriberEvent → Bool
  | .deliver _ => true
  | .write c => c ≠ connId
  | _ => false

namespace SubscriberState

def start (redis : RedisState) : SubscriberState where
  node := { hub := .new, channels := .empty, inbox := [], redis }
  todo := []
  sent := fun _ => []
  taken := fun _ => 0
  closed := []

variable (s : SubscriberState)

/-- How many messages are in the channel. -/
def waiting (connId : Nat) : Nat := (s.sent connId).length - s.taken connId

/-- A send would wait. -/
def isFull (connId : Nat) : Bool := connId ∉ s.closed && hubCapacity ≤ s.waiting connId

def put (connId : Nat) (post : Post) : SubscriberState :=
  if connId ∈ s.closed then s
  else { s with sent := Function.update s.sent connId (s.sent connId ++ [post]) }

def deliver (redisDown : Bool) : SubscriberState :=
  match s.todo with
  | [] =>
    match s.node.inbox with
    | [] => s
    | envelope :: rest =>
      { s with node := { s.node with inbox := rest }, todo := s.node.hub.sendings envelope }
  | .user userId post buffers :: rest =>
    if s.node.hub.isOnline userId then
      { s with todo := (s.node.hub.connIds userId).map (.connection userId · post) ++ rest }
    else if buffers then
      { s with
        node := ((WsService.bufferMessage userId post).run (execIf redisDown) s.node).2
        todo := rest }
    else { s with todo := rest }
  | .connection _ connId post :: rest =>
    if s.isFull connId then s else { s.put connId post with todo := rest }
  | .teardown broadcastId :: rest =>
    { s with
      node := ((WsPubSubBridge.teardownLocalRoom broadcastId).run (execIf redisDown) s.node).2
      todo := rest }

/-- The guard of the user's entry is held. -/
def guarded (userId : Uuid) : Bool := s.todo.any fun
  | .connection userId' _ _ => userId' = userId
  | _ => false

def withHub (hub : WsService) : SubscriberState := { s with node := { s.node with hub } }

def step (s : SubscriberState) : SubscriberEvent → SubscriberState
  | .publish envelope => { s with node := { s.node with inbox := s.node.inbox ++ [envelope] } }
  | .deliver redisDown => s.deliver redisDown
  | .write c =>
    if s.taken c < (s.sent c).length then
      { s with taken := Function.update s.taken c (s.taken c + 1) }
    else s
  | .dropReceiver c => { s with closed := c :: s.closed }
  | .register u => if s.guarded u then s else s.withHub (s.node.hub.register u).2
  | .retainOthers u c => if s.guarded u then s else s.withHub (s.node.hub.retainOthers u c).2
  | .removeClient u => if s.guarded u then s else s.withHub (s.node.hub.removeClient u)
  | .insertRoomMember b u => s.withHub (s.node.hub.insertRoomMember b u)
  | .removeRoomMember b u => s.withHub (s.node.hub.removeRoomMember b u).2
  | .removeRoom b => s.withHub (s.node.hub.removeRoom b)

abbrev run (redis : RedisState) (es : List SubscriberEvent) : SubscriberState :=
  es.foldl step (start redis)

theorem run_concat (redis : RedisState) (es : List SubscriberEvent) (e : SubscriberEvent) :
    run redis (es ++ [e]) = (run redis es).step e := List.foldl_concat ..

/-! ## The property -/

def due : List (Nat × Post) := s.todo.flatMap (Sending.due s.node.hub)

/-- The connection has got the message between two states, or is not there any more. -/
def Got (s s' : SubscriberState) (connId : Nat) (post : Post) : Prop :=
  connId ∈ s.closed ∨ post ∈ (s'.sent connId).drop (s.sent connId).length

/-- Without the write task of `connId`, the loop can get to the end of the message it delivers, and all
other connections that the message is for get it. -/
def CanFinish (connId : Nat) (s : SubscriberState) : Prop :=
  ∃ es : List SubscriberEvent, (∀ e ∈ es, e.isOther connId = true) ∧
    (es.foldl step s).todo = [] ∧
      ∀ p ∈ s.due, p.1 ≠ connId → Got s (es.foldl step s) p.1 p.2

/-- So it is with the message that is being delivered, and, when none is, with the next one. -/
structure NotStalled (connId : Nat) (s : SubscriberState) : Prop where
  current : CanFinish connId s
  next : s.todo = [] → s.node.inbox ≠ [] → CanFinish connId (s.deliver false)

/-- Nothing is left to be sent to the connection, and the next message is not for it. -/
def SparesClient (connId : Nat) (s : SubscriberState) : Prop :=
  connId ∉ s.due.map Prod.fst ∧
    (s.todo = [] → ∀ envelope ∈ s.node.inbox.head?, connId ∉ s.node.hub.addressed envelope)

/-! ## What the sends of a message come to -/

variable {s s' s₁ : SubscriberState} {c c' : Nat} {u : Uuid} {post : Post}
  {rest : List Sending} {down : Bool}

theorem due_sendings (h : WsService) (envelope : WsPubSubEnvelope) :
    ((h.sendings envelope).flatMap (Sending.due h)).map Prod.fst = h.addressed envelope := by
  have husers : ∀ (us : List Uuid) (post : Post) (buffers : Bool),
      ((us.map (Sending.user · post buffers)).flatMap (Sending.due h)).map Prod.fst =
        us.flatMap h.connIds := by
    intro us post buffers
    induction us with
    | nil => rfl
    | cons u us ih =>
      rw [List.map_cons, List.flatMap_cons, List.map_append, ih, List.flatMap_cons]
      congr 1
      exact (List.map_map ..).trans (List.map_id _)
  cases envelope with
  | room b post =>
    have hsplit : h.sendings (.room b post) = (h.members b).rows.map (.user · post false) ++
        if post.payload.event = .endedBroadcast ∨ post.payload.event = .broadcastDeleted then
          [.teardown b] else [] := rfl
    rw [hsplit, List.flatMap_append, List.map_append, husers]
    split
    · exact List.append_nil _
    · exact List.append_nil _
  | user u post =>
    have hone := husers [u] post true
    rw [List.flatMap_singleton] at hone
    exact hone
  | broadcast post =>
    have hall := husers (h.clients.rows.map Client.userId) post false
    have hsends : h.sendings (.broadcast post) =
        (h.clients.rows.map Client.userId).map (.user · post false) := by
      rw [List.map_map]
      rfl
    rw [hsends, hall, List.flatMap_map]
    rfl

theorem hub_buffer (down : Bool) (u : Uuid) (post : Post) (l : Local) :
    ((WsService.bufferMessage u post).run (execIf down) l).2.hub = l.hub := by
  cases down <;> rfl

theorem hub_teardown (down : Bool) (b : Uuid) (l : Local) :
    ((WsPubSubBridge.teardownLocalRoom b).run (execIf down) l).2.hub = l.hub.removeRoom b := by
  have hclear : execIf down (.clearLocalRoom b) l =
      ((l.hub.members b).rows, { l with hub := l.hub.removeRoom b }) := by cases down <;> rfl
  have hrun : (WsPubSubBridge.teardownLocalRoom b).run (execIf down) l =
      (if !(execIf down (.clearLocalRoom b) l).1.isEmpty then do
          let _ ← (WsCmd.unsubscribe b).call
        else pure () : WsProg Unit).run (execIf down) (execIf down (.clearLocalRoom b) l).2 := rfl
  rw [hrun, hclear]
  split
  · cases down <;> rfl
  · rfl

theorem connIds_offline {h : WsService} (hu : h.isOnline u = false) : h.connIds u = [] := by
  by_contra hne
  obtain ⟨c, hc⟩ := List.exists_mem_of_ne_nil _ hne
  rw [WsService.isOnline_of_mem hc] at hu
  cases hu

/-! ## The loop gets on -/

/-- Steps without the write task of `c`. They only add to what has been sent. -/
structure GoesOn (c : Nat) (s s' : SubscriberState) : Prop where
  steps : ∃ es : List SubscriberEvent, (∀ e ∈ es, e.isOther c = true) ∧ es.foldl step s = s'
  connIds : ∀ u, s'.node.hub.connIds u = s.node.hub.connIds u
  closed : s'.closed = s.closed
  sent : ∀ x, s.sent x <+: s'.sent x

theorem goesOn_refl (c : Nat) (s : SubscriberState) : GoesOn c s s :=
  ⟨⟨[], (fun _ he => nomatch he), rfl⟩, fun _ => rfl, rfl, fun _ => List.prefix_refl _⟩

theorem GoesOn.trans (h : GoesOn c s s₁) (h' : GoesOn c s₁ s') : GoesOn c s s' := by
  obtain ⟨es, hes, rfl⟩ := h.steps
  obtain ⟨es', hes', hend⟩ := h'.steps
  refine ⟨⟨es ++ es', ?_, ?_⟩, fun u => (h'.connIds u).trans (h.connIds u),
    h'.closed.trans h.closed, fun x => (h.sent x).trans (h'.sent x)⟩
  · intro e he
    rcases List.mem_append.1 he with he | he
    · exact hes e he
    · exact hes' e he
  · rw [List.foldl_append, hend]

theorem Got.later (h : Got s s₁ c' post) (hs : GoesOn c s₁ s') : Got s s' c' post := by
  rcases h with hclosed | hgot
  · exact .inl hclosed
  · obtain ⟨more, hmore⟩ := hs.sent c'
    refine .inr ?_
    rw [← hmore, List.drop_append]
    exact List.mem_append_left _ hgot

theorem Got.earlier (h : Got s₁ s' c' post) (hs : GoesOn c s s₁) : Got s s' c' post := by
  rcases h with hclosed | hgot
  · exact .inl (hs.closed ▸ hclosed)
  · have hle := (hs.sent c').length_le
    have hdrop : (s'.sent c').drop (s₁.sent c').length =
        ((s'.sent c').drop (s.sent c').length).drop ((s₁.sent c').length - (s.sent c').length) := by
      rw [List.drop_drop, Nat.add_sub_cancel' hle]
    rw [hdrop] at hgot
    exact .inr (List.mem_of_mem_drop hgot)

/-- The write task of another connection takes what is in its channel. -/
theorem write_waiting (c' n : Nat) : ∀ s : SubscriberState, ∃ taken : Nat → Nat,
    (List.replicate n (.write c')).foldl step s = { s with taken } ∧
      (s.sent c').length - taken c' = s.waiting c' - n := by
  induction n with
  | zero => intro s; exact ⟨s.taken, rfl, rfl⟩
  | succ n ih =>
    intro s
    rw [List.replicate_succ, List.foldl_cons]
    have hstep : s.step (.write c') = if s.taken c' < (s.sent c').length then
        { s with taken := Function.update s.taken c' (s.taken c' + 1) } else s := rfl
    rw [hstep]
    split
    · rename_i hsome
      obtain ⟨taken, hend, hwaiting⟩ :=
        ih { s with taken := Function.update s.taken c' (s.taken c' + 1) }
      refine ⟨taken, hend, ?_⟩
      simp only [waiting, Function.update_self] at hwaiting
      rw [hwaiting, waiting]
      omega
    · obtain ⟨taken, hend, hwaiting⟩ := ih s
      refine ⟨taken, hend, ?_⟩
      rw [hwaiting, waiting]
      omega

theorem node_put : (s.put c' post).node = s.node := by
  unfold put
  split <;> rfl

theorem closed_put : (s.put c' post).closed = s.closed := by
  unfold put
  split <;> rfl

theorem taken_put : (s.put c' post).taken = s.taken := by
  unfold put
  split <;> rfl

theorem sent_put (x : Nat) : (s.put c' post).sent x =
    if x = c' ∧ c' ∉ s.closed then s.sent c' ++ [post] else s.sent x := by
  unfold put
  split
  · rename_i hclosed
    rw [if_neg fun h => h.2 hclosed]
  · rename_i hopen
    by_cases hx : x = c'
    · rw [if_pos ⟨hx, hopen⟩, hx]
      exact Function.update_self ..
    · rw [if_neg fun h => hx h.1]
      exact Function.update_of_ne hx ..

theorem deliver_connection (htodo : s.todo = .connection u c' post :: rest)
    (hfits : s.isFull c' = false) : s.deliver down = { s.put c' post with todo := rest } := by
  simp [deliver, htodo, hfits]

/-- A send to another connection. -/
theorem send_one (htodo : s.todo = .connection u c' post :: rest) (hne : c' ≠ c) :
    ∃ s', GoesOn c s s' ∧ s'.todo = rest ∧ Got s s' c' post := by
  obtain ⟨taken, hwritten, hempty⟩ := write_waiting c' (s.waiting c') s
  have hfits : SubscriberState.isFull { s with taken } c' = false := by
    rw [Nat.sub_self] at hempty
    simp [isFull, waiting, hempty, hubCapacity]
  have hdeliver : SubscriberState.deliver { s with taken } false =
      { SubscriberState.put { s with taken } c' post with todo := rest } :=
    deliver_connection htodo hfits
  have hsent : ∀ x, (SubscriberState.put { s with taken } c' post).sent x =
      if x = c' ∧ c' ∉ s.closed then s.sent c' ++ [post] else s.sent x := sent_put
  refine ⟨{ SubscriberState.put { s with taken } c' post with todo := rest }, ⟨?_, ?_, ?_, ?_⟩, rfl, ?_⟩
  · refine ⟨List.replicate (s.waiting c') (.write c') ++ [.deliver false], ?_, ?_⟩
    · intro e he
      rcases List.mem_append.1 he with he | he
      · rw [List.eq_of_mem_replicate he]
        exact decide_eq_true hne
      · rw [List.mem_singleton.1 he]
        rfl
    · rw [List.foldl_append, hwritten]
      exact hdeliver
  · intro v
    show (SubscriberState.put { s with taken } c' post).node.hub.connIds v = _
    rw [node_put]
  · exact closed_put
  · intro x
    show s.sent x <+: (SubscriberState.put { s with taken } c' post).sent x
    rw [hsent]
    split
    · rename_i hx
      rw [hx.1]
      exact List.prefix_append ..
    · exact List.prefix_refl _
  · by_cases hclosed : c' ∈ s.closed
    · exact .inl hclosed
    · refine .inr ?_
      show post ∈ ((SubscriberState.put { s with taken } c' post).sent c').drop (s.sent c').length
      rw [hsent, if_pos ⟨rfl, hclosed⟩, List.drop_left]
      exact List.mem_singleton.2 rfl

theorem send_all (cs : List Nat) (hcs : c ∉ cs) : ∀ s : SubscriberState,
    s.todo = cs.map (.connection u · post) ++ rest →
      ∃ s', GoesOn c s s' ∧ s'.todo = rest ∧ ∀ c' ∈ cs, Got s s' c' post := by
  induction cs with
  | nil => intro s htodo; exact ⟨s, goesOn_refl c s, htodo, fun _ hc => nomatch hc⟩
  | cons c' cs ih =>
    intro s htodo
    obtain ⟨s₁, hone, htodo₁, hgot₁⟩ := send_one htodo (List.ne_of_not_mem_cons hcs).symm
    obtain ⟨s', hrest, htodo', hgot⟩ := ih (List.not_mem_of_not_mem_cons hcs) s₁ htodo₁
    refine ⟨s', hone.trans hrest, htodo', fun x hx => ?_⟩
    rcases List.mem_cons.1 hx with rfl | hx
    · exact hgot₁.later hrest
    · exact (hgot x hx).earlier hone

theorem deliver_online (down : Bool) {buffers : Bool} (htodo : s.todo = .user u post buffers :: rest)
    (hu : s.node.hub.isOnline u = true) : s.deliver down = { s with
      todo := (s.node.hub.connIds u).map (.connection u · post) ++ rest } := by
  simp [deliver, htodo, hu]

theorem deliver_offline (down : Bool) {buffers : Bool} (htodo : s.todo = .user u post buffers :: rest)
    (hu : s.node.hub.isOnline u = false) :
    ∃ node : Local, node.hub = s.node.hub ∧ s.deliver down = { s with node, todo := rest } := by
  cases buffers with
  | true =>
    refine ⟨_, hub_buffer down u post s.node, ?_⟩
    simp [deliver, htodo, hu]
  | false => exact ⟨s.node, rfl, by simp [deliver, htodo, hu]⟩

theorem deliver_teardown (down : Bool) {b : Uuid} (htodo : s.todo = .teardown b :: rest) :
    ∃ node : Local, node.hub = s.node.hub.removeRoom b ∧
      s.deliver down = { s with node, todo := rest } := by
  refine ⟨_, hub_teardown down b s.node, ?_⟩
  simp [deliver, htodo]

theorem goesOn_deliver (hids : ∀ u, (s.deliver false).node.hub.connIds u = s.node.hub.connIds u)
    (hclosed : (s.deliver false).closed = s.closed) (hsent : (s.deliver false).sent = s.sent) :
    GoesOn c s (s.deliver false) := by
  refine ⟨⟨[.deliver false], ?_, rfl⟩, hids, hclosed, fun x => hsent ▸ List.prefix_refl _⟩
  intro e he
  rw [List.mem_singleton.1 he]
  rfl

/-- What a send is for depends on the entries only. -/
theorem due_congr {h h' : WsService} (hids : ∀ u, h'.connIds u = h.connIds u) :
    Sending.due h' = Sending.due h := by
  funext send
  cases send with
  | user u post buffers => rw [Sending.due, Sending.due, hids]
  | connection u c post => rfl
  | teardown b => rfl

/-- All sends of a message, one after the other. -/
theorem finish (c : Nat) (todo : List Sending) : ∀ s : SubscriberState, s.todo = todo →
    c ∉ s.due.map Prod.fst → ∃ s', GoesOn c s s' ∧ s'.todo = [] ∧ ∀ p ∈ s.due, Got s s' p.1 p.2 := by
  induction todo with
  | nil =>
    intro s htodo _
    refine ⟨s, goesOn_refl c s, htodo, fun p hp => ?_⟩
    rw [due, htodo] at hp
    cases hp
  | cons send rest ih =>
    intro s htodo hc
    have hsplit : s.due = Sending.due s.node.hub send ++ rest.flatMap (Sending.due s.node.hub) := by
      rw [due, htodo, List.flatMap_cons]
    rw [hsplit, List.map_append, List.mem_append, not_or] at hc
    have hfirst : ∃ s₁, GoesOn c s s₁ ∧ s₁.todo = rest ∧
        ∀ p ∈ Sending.due s.node.hub send, Got s s₁ p.1 p.2 := by
      cases send with
      | user u post buffers =>
        cases hu : s.node.hub.isOnline u with
        | true =>
          have hids : c ∉ s.node.hub.connIds u := by
            intro hmem
            refine hc.1 (List.mem_map.2 ⟨(c, post), ?_, rfl⟩)
            exact List.mem_map.2 ⟨c, hmem, rfl⟩
          have hdeliver := deliver_online false htodo hu
          have hstart : GoesOn c s (s.deliver false) :=
            goesOn_deliver (by rw [hdeliver]; exact fun _ => rfl) (by rw [hdeliver]) (by rw [hdeliver])
          obtain ⟨s₁, hall, htodo₁, hgot⟩ :=
            send_all (s.node.hub.connIds u) hids (s.deliver false) (by rw [hdeliver])
          refine ⟨s₁, hstart.trans hall, htodo₁, fun p hp => ?_⟩
          obtain ⟨c', hc', rfl⟩ := List.mem_map.1 hp
          exact (hgot c' hc').earlier hstart
        | false =>
          obtain ⟨node, hhub, hdeliver⟩ := deliver_offline false htodo hu
          refine ⟨s.deliver false, goesOn_deliver ?_ ?_ ?_, ?_, fun p hp => ?_⟩
          · rw [hdeliver]
            exact fun v => by rw [hhub]
          · rw [hdeliver]
          · rw [hdeliver]
          · rw [hdeliver]
          · rw [Sending.due, connIds_offline hu] at hp
            cases hp
      | connection u c' post =>
        have hne : c' ≠ c := fun hsame => hc.1 (hsame ▸ List.mem_singleton.2 rfl)
        obtain ⟨s₁, hsend, htodo₁, hgot⟩ := send_one htodo hne
        refine ⟨s₁, hsend, htodo₁, fun p hp => ?_⟩
        rw [List.mem_singleton.1 hp]
        exact hgot
      | teardown b =>
        obtain ⟨node, hhub, hdeliver⟩ := deliver_teardown false htodo
        refine ⟨s.deliver false, goesOn_deliver ?_ ?_ ?_, ?_, fun p hp => nomatch hp⟩
        · rw [hdeliver]
          intro v
          show node.hub.connIds v = s.node.hub.connIds v
          rw [hhub]
          rfl
        · rw [hdeliver]
        · rw [hdeliver]
        · rw [hdeliver]
    obtain ⟨s₁, hone, htodo₁, hgot₁⟩ := hfirst
    have hdue : s₁.due = rest.flatMap (Sending.due s.node.hub) := by
      rw [due, htodo₁, due_congr hone.connIds]
    obtain ⟨s', hrest, htodo', hgot⟩ := ih s₁ htodo₁ (by rw [hdue]; exact hc.2)
    refine ⟨s', hone.trans hrest, htodo', fun p hp => ?_⟩
    rw [hsplit] at hp
    rcases List.mem_append.1 hp with hp | hp
    · exact (hgot₁ p hp).later hrest
    · exact (hgot p (by rw [hdue]; exact hp)).earlier hone

/-! ## The loop gets stuck -/

/-- A send to a full channel is left to be made. -/
structure Stuck (c : Nat) (s : SubscriberState) : Prop where
  full : s.isFull c = true
  pending : c ∈ s.due.map Prod.fst

theorem deliver_blocked (htodo : s.todo = .connection u c' post :: rest)
    (hfull : s.isFull c' = true) : s.deliver down = s := by
  simp [deliver, htodo, hfull]

theorem due_connections (h : WsService) (u : Uuid) (post : Post) (cs : List Nat) :
    (cs.map (.connection u · post)).flatMap (Sending.due h) = cs.map (·, post) := by
  induction cs with
  | nil => rfl
  | cons c cs ih =>
    rw [List.map_cons, List.flatMap_cons, ih]
    rfl

theorem Stuck.stays (h : Stuck c s) {e : SubscriberEvent} (he : e.isOther c = true) :
    Stuck c (s.step e) := by
  obtain ⟨hfull, hdue⟩ := h
  cases e with
  | write c' =>
    have hne : c' ≠ c := of_decide_eq_true he
    have hstep : s.step (.write c') = if s.taken c' < (s.sent c').length then
        { s with taken := Function.update s.taken c' (s.taken c' + 1) } else s := rfl
    rw [hstep]
    split
    · refine ⟨?_, hdue⟩
      have hsame : Function.update s.taken c' (s.taken c' + 1) c = s.taken c :=
        Function.update_of_ne hne.symm ..
      simp only [isFull, waiting, hsame]
      exact hfull
    · exact ⟨hfull, hdue⟩
  | deliver down =>
    show Stuck c (s.deliver down)
    cases htodo : s.todo with
    | nil =>
      rw [due, htodo] at hdue
      cases hdue
    | cons send rest =>
      have hsplit : s.due = Sending.due s.node.hub send ++ rest.flatMap (Sending.due s.node.hub) := by
        rw [due, htodo, List.flatMap_cons]
      rw [hsplit, List.map_append, List.mem_append] at hdue
      cases send with
      | user u post buffers =>
        cases hu : s.node.hub.isOnline u with
        | true =>
          rw [deliver_online down htodo hu]
          refine ⟨hfull, ?_⟩
          rw [due, List.flatMap_append, due_connections, List.map_append]
          exact List.mem_append.2 hdue
        | false =>
          obtain ⟨node, hhub, hdeliver⟩ := deliver_offline down htodo hu
          rw [hdeliver]
          refine ⟨hfull, ?_⟩
          rw [due, hhub]
          refine hdue.resolve_left fun hmem => ?_
          rw [Sending.due, connIds_offline hu] at hmem
          cases hmem
      | connection u c' post =>
        cases hfull' : s.isFull c' with
        | true =>
          rw [deliver_blocked htodo hfull']
          refine ⟨hfull, ?_⟩
          rw [hsplit, List.map_append]
          exact List.mem_append.2 hdue
        | false =>
          have hne : c ≠ c' := by
            rintro rfl
            rw [hfull] at hfull'
            cases hfull'
          rw [deliver_connection htodo hfull']
          refine ⟨?_, ?_⟩
          · have hsent : (s.put c' post).sent c = s.sent c := by
              rw [sent_put, if_neg fun hc => hne hc.1]
            simp only [isFull, waiting, closed_put, taken_put, hsent]
            exact hfull
          · rw [due]
            simp only [node_put]
            exact hdue.resolve_left fun hmem => hne (List.mem_singleton.1 hmem)
      | teardown b =>
        obtain ⟨node, hhub, hdeliver⟩ := deliver_teardown down htodo
        rw [hdeliver]
        refine ⟨hfull, ?_⟩
        have hids : ∀ v, node.hub.connIds v = s.node.hub.connIds v := by
          intro v
          rw [hhub]
          rfl
        rw [due, due_congr hids]
        exact hdue.resolve_left fun hmem => nomatch hmem
  | _ => cases he

theorem Stuck.not_canFinish (h : Stuck c s) : ¬CanFinish c s := by
  rintro ⟨es, hes, hdone, -⟩
  have hstuck : Stuck c (es.foldl step s) := foldl_keeps (fun _ _ hs he => hs.stays he) h hes
  have hdue := hstuck.pending
  rw [due, hdone] at hdue
  cases hdue

theorem canFinish_iff (hfull : s.isFull c = true) :
    CanFinish c s ↔ c ∉ s.due.map Prod.fst := by
  constructor
  · intro hfinish hdue
    exact Stuck.not_canFinish ⟨hfull, hdue⟩ hfinish
  · intro hspared
    obtain ⟨s', hsteps, htodo, hgot⟩ := finish c s.todo s rfl hspared
    obtain ⟨es, hes, rfl⟩ := hsteps.steps
    exact ⟨es, hes, htodo, fun p hp _ => hgot p hp⟩

/-- The next message, when the loop takes it. -/
theorem due_next {envelope : WsPubSubEnvelope} {inbox : List WsPubSubEnvelope} (htodo : s.todo = [])
    (hinbox : s.node.inbox = envelope :: inbox) :
    (s.deliver down).due.map Prod.fst = s.node.hub.addressed envelope := by
  have hdeliver : s.deliver down = { s with
      node := { s.node with inbox }, todo := s.node.hub.sendings envelope } := by
    simp [deliver, htodo, hinbox]
  rw [hdeliver]
  exact due_sendings _ _

theorem isFull_next (htodo : s.todo = []) : (s.deliver down).isFull c = s.isFull c := by
  cases hinbox : s.node.inbox with
  | nil => simp [deliver, htodo, hinbox]
  | cons envelope inbox =>
    simp only [deliver, htodo, hinbox]
    rfl

theorem notStalled_iff (hfull : s.isFull c = true) : NotStalled c s ↔ SparesClient c s := by
  have hnext : s.todo = [] → ((s.node.inbox ≠ [] → CanFinish c (s.deliver false)) ↔
      ∀ envelope ∈ s.node.inbox.head?, c ∉ s.node.hub.addressed envelope) := by
    intro htodo
    rw [canFinish_iff (by rw [isFull_next htodo, hfull])]
    cases hinbox : s.node.inbox with
    | nil => exact iff_of_true (fun hne => absurd rfl hne) fun _ he => nomatch he
    | cons envelope inbox =>
      rw [due_next htodo hinbox]
      simp
  constructor
  · rintro ⟨hcurrent, hlater⟩
    exact ⟨(canFinish_iff hfull).1 hcurrent, fun htodo => (hnext htodo).1 (hlater htodo)⟩
  · rintro ⟨hcurrent, hlater⟩
    exact ⟨(canFinish_iff hfull).2 hcurrent, fun htodo => (hnext htodo).2 (hlater htodo)⟩

end SubscriberState

open SubscriberState

/-- In every run of an instance: no connection whose channel is full and whose write task makes no
progress keeps the loop from the others and from its next message, if and only if in no state of the
run something is to be sent to such a connection. -/
theorem stalled_client_iff (redis : RedisState) (es : List SubscriberEvent) :
    (∀ n c, (run redis (es.take n)).isFull c = true → NotStalled c (run redis (es.take n))) ↔
      ∀ n c, (run redis (es.take n)).isFull c = true → SparesClient c (run redis (es.take n)) :=
  forall_congr' fun _ => forall_congr' fun _ => forall_congr' notStalled_iff

/-- Users 1 and 2 are connected. User 1 is sent 128 messages, and the write task takes none of them. -/
def flooded : List SubscriberEvent :=
  [.register ⟨1⟩, .register ⟨2⟩] ++ (List.range 128).flatMap fun n =>
    [.publish (.user ⟨1⟩ { number := n, payload := hello }), .deliver false, .deliver false,
      .deliver false]

def noRedis : RedisState where
  roomMembers := fun _ => .empty
  buffers := fun _ => []

/-- The next message is for everybody. -/
def nextMessage : SubscriberEvent := .publish (.broadcast { number := 128, payload := hello })

theorem flooded_client_stalls :
    ¬∀ n c, (run noRedis ((flooded ++ [nextMessage]).take n)).isFull c = true →
      NotStalled c (run noRedis ((flooded ++ [nextMessage]).take n)) := by
  intro h
  have hstate : run noRedis ((flooded ++ [nextMessage]).take (flooded ++ [nextMessage]).length) =
      (run noRedis flooded).step nextMessage := by
    rw [List.take_length]
    exact run_concat ..
  have hfull : ((run noRedis flooded).step nextMessage).isFull 0 = true := by decide +kernel
  have hdone : (run noRedis flooded).todo.isEmpty = true ∧
      (run noRedis flooded).node.inbox.isEmpty = true := by decide +kernel
  have haddressed : 0 ∈ (run noRedis flooded).node.hub.clients.rows.flatMap fun client =>
      (run noRedis flooded).node.hub.connIds client.userId := by decide +kernel
  have hspares := h (flooded ++ [nextMessage]).length 0
  rw [hstate, notStalled_iff hfull] at hspares
  have hnext := (hspares hfull).2
  generalize run noRedis flooded = s at hdone haddressed hnext
  have hinbox : (s.step nextMessage).node.inbox =
      [.broadcast { number := 128, payload := hello }] := by
    show s.node.inbox ++ [_] = _
    rw [List.isEmpty_iff.1 hdone.2, List.nil_append]
  rw [hinbox] at hnext
  exact hnext (List.isEmpty_iff.1 hdone.1) _ rfl haddressed

end Meno.Ws
