import Meno.Lib.Pool
import Meno.Ws.Hub

/-!
# Meno.Ws.RoomDelivery

How often a payload of a room gets into the queue of a connection. An instance has all rooms by the
pattern, and subscribes to a room besides when `add_local_room_member` finds it empty; `join_room` has
put the user into the room before, but waits for Redis in between. `delivered_at_most_once` is about
the runs in which the room is not found empty, `undisturbed_is_careful` about when that is so.
-/

namespace Meno.Ws

open Lib

/-! ## One instance -/

/-- How far a task is: the number of what it has received and not delivered, the room that it has
put its user into and not yet asked about, and whether it was told to subscribe. -/
structure Progress where
  held : Option Nat
  joining : Option Uuid
  first : Bool

namespace Progress

def none : Progress where
  held := .none
  joining := .none
  first := false

def after : {β : Type} → WsCmd β → β → Progress → Progress
  | _, .insertRoomMember b _, _, g => { g with joining := some b }
  | _, .sadd _ _, .error _, g => { g with joining := .none }
  | _, .expireRoom _, .error _, g => { g with joining := .none }
  | _, .addLocalRoomMember _ _, first, g => { g with joining := .none, first }
  | _, .recv, some envelope, g => { g with held := some envelope.post.number }
  | _, .sendToRoom _ _, _, g => { g with held := .none }
  | _, .sendToSenders _ _, _, g => { g with held := .none }
  | _, .broadcastAll _, _, g => { g with held := .none }
  | _, _, _, g => g

end Progress

/-- An instance, what it is subscribed to but for the rooms one by one, and the number of the next
publish. -/
structure InstanceState (ι : Type) where
  node : Local
  mainChannel : Bool
  roomPattern : Bool
  next : Nat
  progress : Option ι → Progress

inductive RoomCall where
  | join (userId broadcastId : Uuid)
  | leave (userId broadcastId : Uuid)

def RoomCall.prog : RoomCall → WsProg Unit
  | .join u b => WsService.joinRoom u b
  | .leave u b => WsService.leaveRoom u b

section Steps

variable {ι : Type}

namespace InstanceState

/-- Redis delivers what is published in a room for the channel and for the pattern. -/
def copies (st : InstanceState ι) (b : Uuid) : Nat :=
  (if b ∈ st.node.channels.rows then 1 else 0) + if st.roomPattern then 1 else 0

def arrive (st : InstanceState ι) (envelopes : List WsPubSubEnvelope) : InstanceState ι :=
  { st with
    node := { st.node with inbox := st.node.inbox ++ envelopes }
    next := st.next + 1 }

def setHub (st : InstanceState ι) (hub : WsService) : InstanceState ι :=
  { st with node := { st.node with hub } }

end InstanceState

/-- What happens on the instance besides its joins, leaves and receive loop, and in Redis. -/
inductive Background where
  | publishToRoom (broadcastId : Uuid) (payload : WsPayload)
  | publishToUser (userId : Uuid) (payload : WsPayload)
  | broadcastAll (payload : WsPayload)
  | subscribeMain
  | psubscribeRooms
  /-- The receiver has fallen behind by `n` messages. -/
  | lagged (n : Nat)
  | register (userId : Uuid)
  | retainOthers (userId : Uuid) (connId : Nat)
  | removeClient (userId : Uuid)
  | redis (r : RedisState)

namespace InstanceState

def happen (st : InstanceState ι) : Background → InstanceState ι
  | .publishToRoom b payload =>
    st.arrive (List.replicate (st.copies b) (.room b ⟨st.next, payload⟩))
  | .publishToUser u payload =>
    st.arrive (if st.mainChannel then [.user u ⟨st.next, payload⟩] else [])
  | .broadcastAll payload =>
    st.arrive (if st.mainChannel then [.broadcast ⟨st.next, payload⟩] else [])
  | .subscribeMain => { st with mainChannel := true }
  | .psubscribeRooms => { st with roomPattern := true }
  | .lagged n => { st with node := { st.node with inbox := st.node.inbox.drop n } }
  | .register u => st.setHub (st.node.hub.register u).2
  | .retainOthers u connId => st.setHub (st.node.hub.retainOthers u connId).2
  | .removeClient u => st.setHub (st.node.hub.removeClient u)
  | .redis r => { st with node := { st.node with redis := r } }

/-- Nothing is subscribed to, and nothing has happened. -/
def start (r : RedisState) : InstanceState ι where
  node := { hub := .new, channels := .empty, inbox := [], redis := r }
  mainChannel := false
  roomPattern := false
  next := 0
  progress := fun _ => .none

end InstanceState

def Happens (st st' : InstanceState ι) : Prop := ∃ e, st' = st.happen e

variable [DecidableEq ι]

/-- A call is answered, or Redis cannot be reached. -/
def Answers (i : Option ι) {β : Type} (c : WsCmd β) (st : InstanceState ι) (b : β)
    (st' : InstanceState ι) : Prop :=
  ∃ node, (exec c st.node = (b, node) ∨ c.failure = some b ∧ node = st.node) ∧
    st' = { st with
      node
      progress := Function.update st.progress i ((st.progress i).after c b) }

omit [DecidableEq ι] in
/-- Somebody is in the room that `add_local_room_member` is asked about. -/
def Careful : {β : Type} → WsCmd β → InstanceState ι → Prop
  | _, .addLocalRoomMember b _, st => (st.node.hub.members b).rows ≠ []
  | _, _, _ => True

def CarefulAnswers (i : Option ι) {β : Type} (c : WsCmd β) (st : InstanceState ι) (b : β)
    (st' : InstanceState ι) : Prop :=
  Answers i c st b st' ∧ Careful c st

/-- The receive loop and the calls before they begin. -/
def beginning (rounds : Nat) (calls : ι → RoomCall) (r : RedisState) :
    Pool (InstanceState ι) WsCmd Unit (Option ι) where
  store := .start r
  prog
    | none => runSubscriberLoop rounds
    | some i => (calls i).prog

end Steps

/-! ## The outlines -/

/-- What is delivered has been received. A task that subscribes was told to. -/
def before : {β : Type} → WsCmd β → Progress → Prop
  | _, .recv, g => g.held = .none
  | _, .sendToRoom _ post, g => g.held = some post.number
  | _, .sendToSenders _ post, g => g.held = some post.number
  | _, .broadcastAll post, g => g.held = some post.number
  | _, .subscribe _, g => g.first = true
  | _, .addLocalRoomMember b _, g => g.joining = some b
  | _, _, _ => True

/-- Calls that leave the progress of a task as it is. -/
def Neutral : {β : Type} → WsCmd β → Prop
  | _, .insertRoomMember _ _ => False
  | _, .sadd _ _ => False
  | _, .expireRoom _ => False
  | _, .addLocalRoomMember _ _ => False
  | _, .recv => False
  | _, .sendToRoom _ _ => False
  | _, .sendToSenders _ _ => False
  | _, .broadcastAll _ => False
  | _, .subscribe _ => False
  | _, _ => True

theorem before_of_neutral {β : Type} (c : WsCmd β) (g : Progress) (h : Neutral c) : before c g := by
  cases c <;> trivial

theorem after_of_neutral {β : Type} (c : WsCmd β) (b : β) (g : Progress) (h : Neutral c) :
    g.after c b = g := by
  cases c <;> first | rfl | exact h.elim

theorem uses_removeLocalRoomMember (b u : Uuid) :
    Prog.Uses Neutral (WsService.removeLocalRoomMember b u) := by
  refine ⟨trivial, fun found => ?_⟩
  cases found with
  | false => trivial
  | true =>
    refine ⟨trivial, fun becameEmpty => ?_⟩
    cases becameEmpty with
    | false => trivial
    | true => exact ⟨trivial, fun _ => trivial⟩

theorem uses_bridge_leaveRoom (u b : Uuid) :
    Act.Uses Neutral (WsPubSubBridge.leaveRoom u b) := by
  refine Act.uses_bind (Act.uses_ask trivial) fun _ => Act.uses_bind (Act.uses_ask trivial) ?_
  intro remaining
  have hlast : Act.Uses Neutral (do
      let last ← ExceptT.lift (WsService.removeLocalRoomMember b u)
      if last then
        let _ ← Act.attempt (Act.ask id (.unsubscribe b) : Act WsCmd RedisError Unit)) := by
    refine Act.uses_bind (Prog.uses_bind (uses_removeLocalRoomMember b u) fun _ => trivial) ?_
    intro last
    cases last with
    | false => exact Act.uses_pure _
    | true => exact Act.uses_bind (Act.uses_attempt (Act.uses_ask trivial)) fun _ => Act.uses_pure _
  split
  · exact Act.uses_bind (Act.uses_attempt (Act.uses_ask trivial)) fun _ => hlast
  · exact hlast

theorem uses_leaveRoom (u b : Uuid) : Prog.Uses Neutral (WsService.leaveRoom u b) :=
  Prog.uses_bind (uses_removeLocalRoomMember b u) fun _ =>
    Prog.uses_bind (uses_bridge_leaveRoom u b) fun _ => trivial

theorem outline_joinRoom (u b : Uuid) {g : Progress} :
    Prog.guarded before Progress.after (WsService.joinRoom u b) (fun _ _ => True) g := by
  refine ⟨trivial, fun _ => ⟨trivial, ?_⟩⟩
  rintro (_ | _)
  · trivial
  refine ⟨trivial, ?_⟩
  rintro (_ | _)
  · trivial
  refine ⟨rfl, fun first => ?_⟩
  cases first with
  | false => trivial
  | true =>
    refine ⟨rfl, ?_⟩
    rintro (_ | _) <;> trivial

/-- What is delivered is not held any longer. -/
theorem outline_deliverLocally (e : WsPubSubEnvelope) {g : Progress}
    (h : g.held = some e.post.number) :
    Prog.guarded before Progress.after (deliverLocally e) (fun _ g' => g'.held = .none) g := by
  cases e with
  | room b post =>
    refine ⟨h, fun _ => ?_⟩
    split
    · refine ⟨trivial, fun users => ?_⟩
      cases users with
      | nil => rfl
      | cons _ _ => exact ⟨trivial, fun _ => rfl⟩
    · rfl
  | user u post =>
    refine ⟨h, fun found => ?_⟩
    cases found with
    | true => rfl
    | false => exact ⟨trivial, fun _ => ⟨trivial, fun _ => ⟨trivial, fun _ => rfl⟩⟩⟩
  | broadcast post => exact ⟨h, fun _ => rfl⟩

theorem outline_runSubscriberLoop (rounds : Nat) :
    ∀ {g : Progress}, g.held = .none →
      Prog.guarded before Progress.after (runSubscriberLoop rounds) (fun _ _ => True) g := by
  induction rounds with
  | zero => intro g _; trivial
  | succ n ih =>
    intro g hg
    refine ⟨hg, fun received => ?_⟩
    cases received with
    | none => exact ih hg
    | some e =>
      have hround : Prog.guarded before Progress.after
          (deliverLocally e >>= fun _ => runSubscriberLoop n) (fun _ _ => True)
          { g with held := some e.post.number } :=
        Prog.guarded_bind (Prog.guarded_mono (fun _ _ h => ih h) (outline_deliverLocally e rfl))
      exact hround

/-! ## The invariant -/

/-- No connection has got the post with the number. -/
def Unseen (h : WsService) (n : Nat) : Prop := ∀ u, ∀ c ∈ h.senders u, n ∉ numbers c.queue

section Invariant

variable {ι : Type} {st : InstanceState ι} {g : Option ι → Progress}

/-- The post with the number has arrived and is not delivered. -/
def Waits (st : InstanceState ι) (g : Option ι → Progress) (n : Nat) : Prop :=
  (∃ e ∈ st.node.inbox, e.post.number = n) ∨ ∃ i, (g i).held = some n

/-- No room is subscribed to. Queues have each post once, and nothing that is still to come. -/
structure OnceInv (st : InstanceState ι) (g : Option ι → Progress) : Prop where
  progress : st.progress = g
  channels : st.node.channels.rows = []
  notFirst : ∀ i, (g i).first = false
  once : ∀ u, ∀ c ∈ st.node.hub.senders u, (numbers c.queue).Nodup
  seen : ∀ u, ∀ c ∈ st.node.hub.senders u, ∀ n ∈ numbers c.queue, n < st.next
  inbox : (st.node.inbox.map fun e => e.post.number).Nodup
  waits : ∀ n, Waits st g n → n < st.next ∧ Unseen st.node.hub n
  taken : ∀ i, ∀ n ∈ (g i).held, ∀ e ∈ st.node.inbox, e.post.number ≠ n
  apart : ∀ i j, ∀ n ∈ (g i).held, n ∈ (g j).held → i = j

/-- Queues that are there already or empty, and nothing more to come. -/
theorem OnceInv.mono (h : OnceInv st g) {st' : InstanceState ι} {g' : Option ι → Progress}
    (hprogress : st'.progress = g') (hchannels : st'.node.channels.rows = [])
    (hfirst : ∀ i, (g' i).first = false) (hheld : ∀ i, (g' i).held = (g i).held)
    (hqueues : ∀ u, ∀ c ∈ st'.node.hub.senders u,
      c.queue = [] ∨ ∃ c' ∈ st.node.hub.senders u, c'.queue = c.queue)
    (hinbox : st'.node.inbox.Sublist st.node.inbox) (hnext : st'.next = st.next) :
    OnceInv st' g' where
  progress := hprogress
  channels := hchannels
  notFirst := hfirst
  once u c hc := by
    rcases hqueues u c hc with hnil | ⟨c', hc', hsame⟩
    · rw [hnil]
      exact .nil
    · rw [← hsame]
      exact h.once u c' hc'
  seen u c hc n hn := by
    rw [hnext]
    rcases hqueues u c hc with hnil | ⟨c', hc', hsame⟩
    · rw [hnil] at hn
      cases hn
    · rw [← hsame] at hn
      exact h.seen u c' hc' n hn
  inbox := h.inbox.sublist (hinbox.map _)
  waits n hn := by
    have hwaits : Waits st g n := by
      rcases hn with ⟨e, he, hen⟩ | ⟨i, hi⟩
      · exact .inl ⟨e, hinbox.subset he, hen⟩
      · exact .inr ⟨i, (hheld i).symm.trans hi⟩
    obtain ⟨hlt, hunseen⟩ := h.waits n hwaits
    refine ⟨hnext ▸ hlt, fun u c hc hmem => ?_⟩
    rcases hqueues u c hc with hnil | ⟨c', hc', hsame⟩
    · rw [hnil] at hmem
      cases hmem
    · rw [← hsame] at hmem
      exact hunseen u c' hc' hmem
  taken i n hn e he := by
    rw [hheld i] at hn
    exact h.taken i n hn e (hinbox.subset he)
  apart i j n hi hj := by
    rw [hheld] at hi hj
    exact h.apart i j n hi hj

/-- Something is published; it arrives at most once. -/
theorem OnceInv.arrive (h : OnceInv st g) {envelopes : List WsPubSubEnvelope}
    (hnumber : ∀ e ∈ envelopes, e.post.number = st.next) (hlength : envelopes.length ≤ 1) :
    OnceInv (st.arrive envelopes) g where
  progress := h.progress
  channels := h.channels
  notFirst := h.notFirst
  once := h.once
  seen u c hc n hn := Nat.lt_succ_of_lt (h.seen u c hc n hn)
  inbox := by
    have hnew : (envelopes.map fun e => e.post.number).Nodup := by
      match envelopes, hlength with
      | [], _ => exact .nil
      | [e], _ => exact List.nodup_singleton _
    have hall : ((st.node.inbox ++ envelopes).map fun e => e.post.number).Nodup := by
      rw [List.map_append]
      refine List.Nodup.append h.inbox hnew ?_
      intro n hold hn
      obtain ⟨e, he, rfl⟩ := List.mem_map.1 hold
      obtain ⟨e', he', hsame⟩ := List.mem_map.1 hn
      have hlt := (h.waits e.post.number (.inl ⟨e, he, rfl⟩)).1
      have hnext := hnumber e' he'
      omega
    exact hall
  waits n hn := by
    have hwaits : Waits st g n ∨ n = st.next := by
      rcases hn with ⟨e, he, hen⟩ | hheld
      · rcases List.mem_append.1 he with he | he
        · exact .inl (.inl ⟨e, he, hen⟩)
        · exact .inr (hen.symm.trans (hnumber e he))
      · exact .inl (.inr hheld)
    rcases hwaits with hwaits | rfl
    · exact ⟨Nat.lt_succ_of_lt (h.waits n hwaits).1, (h.waits n hwaits).2⟩
    · exact ⟨Nat.lt_succ_self _, fun u c hc hmem => Nat.lt_irrefl _ (h.seen u c hc _ hmem)⟩
  taken i n hn e he := by
    rcases List.mem_append.1 he with he | he
    · exact h.taken i n hn e he
    · have hlt := (h.waits n (.inr ⟨i, hn⟩)).1
      have hnext := hnumber e he
      omega
  apart := h.apart

/-- The post that a task holds is put into queues. -/
theorem OnceInv.deliver [DecidableEq ι] (h : OnceInv st g) {i : Option ι} {post : Post}
    (hheld : (g i).held = some post.number) {hub : WsService}
    (hqueues : ∀ u, ∀ c ∈ hub.senders u, ∃ c' ∈ st.node.hub.senders u,
      c.queue = c'.queue ∨ c.queue = c'.queue ++ [post]) :
    OnceInv { st.setHub hub with progress := Function.update g i { g i with held := .none } }
      (Function.update g i { g i with held := .none }) := by
  have hothers : ∀ j n, n ∈ (Function.update g i { g i with held := .none } j).held →
      n ∈ (g j).held ∧ n ≠ post.number := by
    intro j n hn
    by_cases hj : j = i
    · subst hj
      rw [Function.update_self] at hn
      cases hn
    · rw [Function.update_of_ne hj] at hn
      refine ⟨hn, ?_⟩
      rintro rfl
      exact hj (h.apart j i _ hn hheld)
  have hfound := h.waits post.number (.inr ⟨i, hheld⟩)
  constructor
  · rfl
  · exact h.channels
  · intro j
    by_cases hj : j = i
    · subst hj
      rw [Function.update_self]
      exact h.notFirst j
    · rw [Function.update_of_ne hj]
      exact h.notFirst j
  · intro u c hc
    obtain ⟨c', hc', hsame | hnew⟩ := hqueues u c hc
    · rw [hsame]
      exact h.once u c' hc'
    · rw [hnew, numbers, List.map_append, List.nodup_append_comm]
      exact List.nodup_cons.2 ⟨hfound.2 u c' hc', h.once u c' hc'⟩
  · intro u c hc n hn
    obtain ⟨c', hc', hsame | hnew⟩ := hqueues u c hc
    · rw [hsame] at hn
      exact h.seen u c' hc' n hn
    · rw [hnew, numbers, List.map_append, List.mem_append] at hn
      rcases hn with hn | hn
      · exact h.seen u c' hc' n hn
      · rw [List.mem_singleton.1 hn]
        exact hfound.1
  · exact h.inbox
  · intro n hn
    have hwaits : Waits st g n ∧ n ≠ post.number := by
      rcases hn with ⟨e, he, rfl⟩ | ⟨j, hj⟩
      · exact ⟨.inl ⟨e, he, rfl⟩, h.taken i _ hheld e he⟩
      · exact ⟨.inr ⟨j, (hothers j n hj).1⟩, (hothers j n hj).2⟩
    obtain ⟨hlt, hunseen⟩ := h.waits n hwaits.1
    refine ⟨hlt, fun u c hc hmem => ?_⟩
    obtain ⟨c', hc', hsame | hnew⟩ := hqueues u c hc
    · rw [hsame] at hmem
      exact hunseen u c' hc' hmem
    · rw [hnew, numbers, List.map_append, List.mem_append] at hmem
      rcases hmem with hmem | hmem
      · exact hunseen u c' hc' hmem
      · exact hwaits.2 (List.mem_singleton.1 hmem)
  · intro j n hn
    exact h.taken j n (hothers j n hn).1
  · intro j k n hj hk
    exact h.apart j k n (hothers j n hj).1 (hothers k n hk).1

/-- The next one is received. -/
theorem OnceInv.receive [DecidableEq ι] (h : OnceInv st g) {i : Option ι}
    (hnone : (g i).held = .none) {e : WsPubSubEnvelope} {rest : List WsPubSubEnvelope}
    (hinbox : st.node.inbox = e :: rest) :
    OnceInv { st with
      node := { st.node with inbox := rest }
      progress := Function.update g i { g i with held := some e.post.number } }
      (Function.update g i { g i with held := some e.post.number }) := by
  have hothers : ∀ j n, n ∈ (Function.update g i { g i with held := some e.post.number } j).held →
      j = i ∧ n = e.post.number ∨ j ≠ i ∧ n ∈ (g j).held := by
    intro j n hn
    by_cases hj : j = i
    · subst hj
      rw [Function.update_self] at hn
      exact .inl ⟨rfl, (Option.some.inj hn).symm⟩
    · rw [Function.update_of_ne hj] at hn
      exact .inr ⟨hj, hn⟩
  have hmem : ∀ e' ∈ rest, e' ∈ st.node.inbox := fun e' he' => by
    rw [hinbox]
    exact List.mem_cons_of_mem _ he'
  have hfirst : e ∈ st.node.inbox := by
    rw [hinbox]
    exact List.mem_cons_self
  have hnodup := h.inbox
  rw [hinbox, List.map_cons, List.nodup_cons] at hnodup
  constructor
  · rfl
  · exact h.channels
  · intro j
    by_cases hj : j = i
    · subst hj
      rw [Function.update_self]
      exact h.notFirst j
    · rw [Function.update_of_ne hj]
      exact h.notFirst j
  · exact h.once
  · exact h.seen
  · exact hnodup.2
  · intro n hn
    refine h.waits n ?_
    rcases hn with ⟨e', he', hen⟩ | ⟨j, hj⟩
    · exact .inl ⟨e', hmem e' he', hen⟩
    · rcases hothers j n hj with ⟨-, hen⟩ | ⟨-, hheld⟩
      · exact .inl ⟨e, hfirst, hen.symm⟩
      · exact .inr ⟨j, hheld⟩
  · intro j n hn e' he'
    rcases hothers j n hn with ⟨-, rfl⟩ | ⟨-, hheld⟩
    · intro hsame
      exact hnodup.1 (List.mem_map.2 ⟨e', he', hsame⟩)
    · exact h.taken j n hheld e' (hmem e' he')
  · intro j k n hj hk
    rcases hothers j n hj with ⟨rfl, rfl⟩ | ⟨-, hheld⟩
    · rcases hothers k _ hk with ⟨rfl, -⟩ | ⟨-, hheld⟩
      · rfl
      · exact absurd rfl (h.taken k _ hheld e hfirst)
    · rcases hothers k n hk with ⟨-, rfl⟩ | ⟨-, hheld'⟩
      · exact absurd rfl (h.taken j _ hheld e hfirst)
      · exact h.apart j k n hheld hheld'

/-! ### Calls -/

/-- Calls that deliver nothing and subscribe to nothing. -/
def Spares : {β : Type} → WsCmd β → Prop
  | _, .addLocalRoomMember _ _ => False
  | _, .recv => False
  | _, .sendToRoom _ _ => False
  | _, .sendToSenders _ _ => False
  | _, .broadcastAll _ => False
  | _, .subscribe _ => False
  | _, _ => True

theorem clients_removeRoomMember (h : WsService) (b u : Uuid) :
    (h.removeRoomMember b u).2.clients = h.clients := by
  simp only [WsService.removeRoomMember]
  split <;> rfl

theorem exec_spares {β : Type} {c : WsCmd β} (hc : Spares c) (s : Local) :
    (exec c s).2.hub.clients = s.hub.clients ∧ (exec c s).2.inbox = s.inbox ∧
      (s.channels.rows = [] → (exec c s).2.channels.rows = []) := by
  cases c with
  | removeRoomMember b u => exact ⟨clients_removeRoomMember s.hub b u, rfl, id⟩
  | unsubscribe b =>
    exact ⟨rfl, rfl, fun hnone => congrArg (List.filter fun x => decide (id x ≠ b)) hnone⟩
  | addLocalRoomMember _ _ => exact hc.elim
  | recv => exact hc.elim
  | sendToRoom _ _ => exact hc.elim
  | sendToSenders _ _ => exact hc.elim
  | broadcastAll _ => exact hc.elim
  | subscribe _ => exact hc.elim
  | _ => exact ⟨rfl, rfl, id⟩

theorem after_spares {β : Type} {c : WsCmd β} (hc : Spares c) (b : β) (g : Progress) :
    (g.after c b).held = g.held ∧ (g.after c b).first = g.first := by
  cases c with
  | sadd _ _ => cases b <;> exact ⟨rfl, rfl⟩
  | expireRoom _ => cases b <;> exact ⟨rfl, rfl⟩
  | addLocalRoomMember _ _ => exact hc.elim
  | recv => exact hc.elim
  | sendToRoom _ _ => exact hc.elim
  | sendToSenders _ _ => exact hc.elim
  | broadcastAll _ => exact hc.elim
  | subscribe _ => exact hc.elim
  | _ => exact ⟨rfl, rfl⟩

variable [DecidableEq ι] {i : Option ι} {β : Type} {c : WsCmd β} {b : β} {st' : InstanceState ι}

theorem OnceInv.keeps (h : OnceInv st g) {node : Local} {progress : Progress}
    (hclients : node.hub.clients = st.node.hub.clients) (hinbox : node.inbox = st.node.inbox)
    (hchannels : node.channels.rows = []) (hheld : progress.held = (g i).held)
    (hfirst : progress.first = false) :
    OnceInv { st with node, progress := Function.update g i progress }
      (Function.update g i progress) := by
  refine h.mono rfl hchannels ?_ ?_ ?_ ?_ rfl
  · intro j
    by_cases hj : j = i
    · subst hj
      rw [Function.update_self]
      exact hfirst
    · rw [Function.update_of_ne hj]
      exact h.notFirst j
  · intro j
    by_cases hj : j = i
    · subst hj
      rw [Function.update_self]
      exact hheld
    · rw [Function.update_of_ne hj]
  · intro u c hc
    refine .inr ⟨c, ?_, rfl⟩
    have hsame : node.hub.senders u = st.node.hub.senders u := by
      rw [WsService.senders, hclients]
      rfl
    exact hsame ▸ hc
  · rw [hinbox]

theorem OnceInv.spares (h : OnceInv st g) (hc : Spares c) (hs : Answers i c st b st') :
    OnceInv st' (Function.update g i ((g i).after c b)) := by
  obtain rfl : st.progress = g := h.progress
  obtain ⟨node, hnode, rfl⟩ := hs
  obtain ⟨hheld, hfirst⟩ := after_spares hc b (st.progress i)
  have hfirst := hfirst.trans (h.notFirst i)
  obtain ⟨hclients, hinbox, hchannels⟩ := exec_spares hc st.node
  rcases hnode with hexec | ⟨-, rfl⟩
  · obtain rfl : (exec c st.node).2 = node := congrArg Prod.snd hexec
    exact h.keeps hclients hinbox (hchannels h.channels) hheld hfirst
  · exact h.keeps rfl rfl h.channels hheld hfirst

/-- What is sent to some of the connections. -/
theorem queues_of_senders {hub hub' : WsService} {post : Post} {u : Uuid} {p : Prop} [Decidable p]
    (h : hub'.senders u = if p then (hub.senders u).map (·.send post) else hub.senders u) :
    ∀ c ∈ hub'.senders u, ∃ c' ∈ hub.senders u, c.queue = c'.queue ∨ c.queue = c'.queue ++ [post] := by
  intro c hc
  rw [h] at hc
  split at hc
  · obtain ⟨c', hc', rfl⟩ := List.mem_map.1 hc
    exact ⟨c', hc', .inr rfl⟩
  · exact ⟨c, hc, .inl rfl⟩

theorem OnceInv.call (h : OnceInv st g) (hbefore : before c (g i))
    (hs : CarefulAnswers i c st b st') :
    OnceInv st' (Function.update g i ((g i).after c b)) := by
  obtain ⟨hanswer, hcareful⟩ := hs
  obtain rfl : st.progress = g := h.progress
  cases c with
  | addLocalRoomMember room u =>
    obtain ⟨node, hexec | ⟨hfail, -⟩, rfl⟩ := hanswer
    · cases hexec
      -- The answer is no, as somebody is there.
      have hfirst : st.node.hub.roomIsEmpty room = false := by
        rw [WsService.roomIsEmpty, List.isEmpty_eq_false_iff]
        exact hcareful
      refine h.keeps rfl rfl h.channels rfl ?_
      exact hfirst
    · cases hfail
  | recv =>
    obtain ⟨node, hexec | ⟨hfail, -⟩, rfl⟩ := hanswer
    · cases hexec
      cases hinbox : st.node.inbox with
      | nil => exact h.keeps rfl hinbox.symm h.channels rfl (h.notFirst i)
      | cons e rest => exact h.receive hbefore hinbox
    · cases hfail
  | sendToRoom room post =>
    obtain ⟨node, hexec | ⟨hfail, -⟩, rfl⟩ := hanswer
    · cases hexec
      exact h.deliver hbefore fun u => queues_of_senders (WsService.senders_sendToRoom post)
    · cases hfail
  | sendToSenders u post =>
    obtain ⟨node, hexec | ⟨hfail, -⟩, rfl⟩ := hanswer
    · cases hexec
      refine h.deliver hbefore fun u' => queues_of_senders (p := u' = u) ?_
      refine (WsService.senders_sendToSenders post).trans ?_
      by_cases hu : u' = u
      · rw [hu]
      · rw [if_neg hu, if_neg hu]
    · cases hfail
  | broadcastAll post =>
    obtain ⟨node, hexec | ⟨hfail, -⟩, rfl⟩ := hanswer
    · cases hexec
      refine h.deliver hbefore fun u => queues_of_senders (p := True) ?_
      exact (WsService.senders_broadcastAll post).trans (if_pos trivial).symm
    · cases hfail
  | subscribe room =>
    have hno := h.notFirst i
    rw [hbefore] at hno
    cases hno
  | _ => exact h.spares trivial hanswer

omit [DecidableEq ι] in
theorem OnceInv.happens (h : OnceInv st g) (hs : Happens st st') : OnceInv st' g := by
  obtain ⟨e, rfl⟩ := hs
  have hsame : ∀ u, ∀ c ∈ st.node.hub.senders u,
      c.queue = [] ∨ ∃ c' ∈ st.node.hub.senders u, c'.queue = c.queue :=
    fun u c hc => .inr ⟨c, hc, rfl⟩
  have hmain : ∀ e : WsPubSubEnvelope, e.post.number = st.next →
      OnceInv (st.arrive (if st.mainChannel then [e] else [])) g := by
    intro e he
    cases st.mainChannel with
    | true => exact h.arrive (by simpa using he) (Nat.le_refl 1)
    | false => exact h.arrive (fun _ hno => nomatch hno) (Nat.zero_le 1)
  cases e with
  | publishToRoom room payload =>
    refine h.arrive (fun e he => ?_) ?_
    · rw [List.eq_of_mem_replicate he]
      rfl
    · have hnone : room ∉ st.node.channels.rows := by
        rw [h.channels]
        exact List.not_mem_nil
      rw [List.length_replicate, InstanceState.copies, if_neg hnone]
      split <;> omega
  | publishToUser u payload => exact hmain (.user u ⟨st.next, payload⟩) rfl
  | broadcastAll payload => exact hmain (.broadcast ⟨st.next, payload⟩) rfl
  | subscribeMain =>
    exact h.mono h.progress h.channels h.notFirst (fun _ => rfl) hsame (.refl _) rfl
  | psubscribeRooms =>
    exact h.mono h.progress h.channels h.notFirst (fun _ => rfl) hsame (.refl _) rfl
  | lagged n =>
    exact h.mono h.progress h.channels h.notFirst (fun _ => rfl) hsame (List.drop_sublist n _) rfl
  | register u =>
    refine h.mono h.progress h.channels h.notFirst (fun _ => rfl) (fun u' c hc => ?_) (.refl _) rfl
    have hc : c ∈ (st.node.hub.register u).2.senders u' := hc
    rw [WsService.senders_register] at hc
    split at hc
    · rename_i hu
      rcases List.mem_append.1 hc with hc | hc
      · exact hsame u' c (hu.1 ▸ hc)
      · rw [List.mem_singleton.1 hc]
        exact .inl rfl
    · exact hsame u' c hc
  | retainOthers u connId =>
    refine h.mono h.progress h.channels h.notFirst (fun _ => rfl) (fun u' c hc => ?_) (.refl _) rfl
    have hc : c ∈ (st.node.hub.retainOthers u connId).2.senders u' := hc
    rw [WsService.senders_retainOthers] at hc
    split at hc
    · rename_i hu
      exact hsame u' c (hu ▸ (List.mem_filter.1 hc).1)
    · exact hsame u' c hc
  | removeClient u =>
    refine h.mono h.progress h.channels h.notFirst (fun _ => rfl) (fun u' c hc => ?_) (.refl _) rfl
    have hc : c ∈ (st.node.hub.removeClient u).senders u' := hc
    rw [WsService.senders_removeClient] at hc
    split at hc
    · cases hc
    · exact hsame u' c hc
  | redis r => exact h.mono h.progress h.channels h.notFirst (fun _ => rfl) hsame (.refl _) rfl

end Invariant

/-! ## Runs -/

section Runs

variable {ι : Type} [DecidableEq ι]

omit [DecidableEq ι] in
theorem onceInv_start (r : RedisState) :
    OnceInv (.start r : InstanceState ι) fun _ => .none where
  progress := rfl
  channels := rfl
  notFirst _ := rfl
  once _ _ hc := nomatch hc
  seen _ _ hc := nomatch hc
  inbox := .nil
  waits n hn := by
    rcases hn with ⟨_, he, -⟩ | ⟨_, hi⟩
    · cases he
    · cases hi
  taken _ _ hn := nomatch hn
  apart _ _ _ hn := nomatch hn

omit [DecidableEq ι] in
theorem outlined_beginning (rounds : Nat) (calls : ι → RoomCall) (r : RedisState) :
    (beginning rounds calls r).Outlined (fun _ => before) (fun _ => Progress.after)
      (fun _ _ _ => True) OnceInv := by
  refine ⟨fun _ => .none, onceInv_start r, fun i => ?_⟩
  cases i with
  | none => exact outline_runSubscriberLoop rounds rfl
  | some i =>
    have hcall : Prog.guarded before Progress.after (calls i).prog (fun _ _ => True) .none := by
      cases calls i with
      | join u b => exact outline_joinRoom u b
      | leave u b =>
        exact Prog.guarded_of_neutral before_of_neutral after_of_neutral (uses_leaveRoom u b)
          fun _ => trivial
    exact hcall

/-- For any number of joins and leaves, interleaved with the receive loop of the instance and with
whatever else happens: as long as no room is found empty by a join that has put its user into it,
each queue has each post once. -/
theorem delivered_at_most_once (rounds : Nat) (calls : ι → RoomCall) (r : RedisState)
    (p : Pool (InstanceState ι) WsCmd Unit (Option ι))
    (hrun : Pool.Steps CarefulAnswers Happens (beginning rounds calls r) p) :
    ∀ client ∈ p.store.node.hub.clients.rows, ∀ sender ∈ client.senders,
      (sender.queue.map Post.number).Nodup := by
  obtain ⟨g, hinv, -⟩ := Pool.outlined_of_steps
    (fun i _ _ _ _ _ _ hbefore hs h => h.call hbefore hs) (fun _ _ _ hs h => h.happens hs) hrun
    (outlined_beginning rounds calls r)
  intro client hclient sender hsender
  refine hinv.once client.userId sender ?_
  rw [WsService.senders, Table.mem_rows_iff.1 hclient]
  exact hsender

/-! ### Undisturbed joins -/

/-- No room is left empty while a join has put its user into it and not yet asked about it. -/
def Undisturbed : {β : Type} → WsCmd β → InstanceState ι → Prop
  | _, .removeRoomMember b u, st =>
    (∃ i, (st.progress i).joining = some b) → ∃ v ∈ (st.node.hub.members b).rows, v ≠ u
  | _, .removeRoom b, st => ∀ i, (st.progress i).joining ≠ some b
  | _, .clearLocalRoom b, st => ∀ i, (st.progress i).joining ≠ some b
  | _, _, _ => True

def UndisturbedAnswers (i : Option ι) {β : Type} (c : WsCmd β) (st : InstanceState ι) (b : β)
    (st' : InstanceState ι) : Prop :=
  Answers i c st b st' ∧ Undisturbed c st

structure JoinInv (st : InstanceState ι) (g : Option ι → Progress) : Prop where
  progress : st.progress = g
  entered : ∀ i, ∀ b ∈ (g i).joining, (st.node.hub.members b).rows ≠ []

theorem JoinInv.keeps {st : InstanceState ι} {g : Option ι → Progress} {i : Option ι}
    (h : JoinInv st g) {node : Local} {progress : Progress}
    (hjoining : ∀ b ∈ progress.joining, b ∈ (g i).joining ∨ (node.hub.members b).rows ≠ [])
    (hrooms : ∀ b, (∃ j, (g j).joining = some b) → (st.node.hub.members b).rows ≠ [] →
      (node.hub.members b).rows ≠ []) :
    JoinInv { st with node, progress := Function.update g i progress }
      (Function.update g i progress) where
  progress := rfl
  entered j b hb := by
    by_cases hj : j = i
    · subst hj
      rw [Function.update_self] at hb
      rcases hjoining b hb with hold | hnew
      · exact hrooms b ⟨j, hold⟩ (h.entered j b hold)
      · exact hnew
    · rw [Function.update_of_ne hj] at hb
      exact hrooms b ⟨j, hb⟩ (h.entered j b hb)

theorem put_ne_nil (users : UserSet) (u : Uuid) : (users.put u).rows ≠ [] := List.cons_ne_nil _ _

theorem JoinInv.call {st st' : InstanceState ι} {g : Option ι → Progress} {i : Option ι} {β : Type}
    {c : WsCmd β} {b : β} (h : JoinInv st g) (hs : UndisturbedAnswers i c st b st') :
    JoinInv st' (Function.update g i ((g i).after c b)) := by
  obtain ⟨⟨node, hnode, rfl⟩, hundisturbed⟩ := hs
  obtain rfl : st.progress = g := h.progress
  have hinsert : ∀ (room u b' : Uuid), (st.node.hub.members b').rows ≠ [] →
      ((st.node.hub.insertRoomMember room u).members b').rows ≠ [] := by
    intro room u b' hb'
    rw [WsService.members_insertRoomMember]
    split
    · exact put_ne_nil _ _
    · exact hb'
  rcases hnode with hexec | ⟨hfail, rfl⟩
  · obtain rfl : (exec c st.node).2 = node := congrArg Prod.snd hexec
    cases c with
    | insertRoomMember room u =>
      refine h.keeps ?_ fun b' _ => hinsert room u b'
      rintro _ ⟨⟩
      refine .inr ?_
      have hmembers := @WsService.members_insertRoomMember st.node.hub u room room
      rw [if_pos rfl] at hmembers
      exact hmembers ▸ put_ne_nil _ _
    | addLocalRoomMember room u => exact h.keeps (fun _ hno => nomatch hno) fun b' _ => hinsert room u b'
    | removeRoomMember room u =>
      refine h.keeps (fun _ hb => .inl hb) fun b' hjoin hb' => ?_
      have hmembers := @WsService.members_removeRoomMember st.node.hub u room b'
      by_cases hroom : b' = room
      · subst hroom
        obtain ⟨v, hv, hne⟩ := hundisturbed hjoin
        rw [if_pos rfl] at hmembers
        have hleft : v ∈ ((st.node.hub.members b').erase u).rows := Table.mem_erase_rows.2 ⟨hv, hne⟩
        exact hmembers ▸ List.ne_nil_of_mem hleft
      · rw [if_neg hroom] at hmembers
        exact hmembers ▸ hb'
    | removeRoom room =>
      refine h.keeps (fun _ hb => .inl hb) fun b' hjoin hb' => ?_
      have hmembers := @WsService.members_removeRoom st.node.hub room b'
      obtain ⟨j, hj⟩ := hjoin
      rw [if_neg fun hroom : b' = room => hundisturbed j (hroom ▸ hj)] at hmembers
      exact hmembers ▸ hb'
    | clearLocalRoom room =>
      refine h.keeps (fun _ hb => .inl hb) fun b' hjoin hb' => ?_
      have hmembers := @WsService.members_removeRoom st.node.hub room b'
      obtain ⟨j, hj⟩ := hjoin
      rw [if_neg fun hroom : b' = room => hundisturbed j (hroom ▸ hj)] at hmembers
      exact hmembers ▸ hb'
    | sendToRoom room post =>
      refine h.keeps (fun _ hb => .inl hb) fun b' _ hb' => ?_
      exact (@WsService.members_sendToRoom st.node.hub room b' post) ▸ hb'
    | sendToSenders u post =>
      refine h.keeps (fun _ hb => .inl hb) fun b' _ hb' => ?_
      exact (@WsService.members_sendToSenders st.node.hub u b' post) ▸ hb'
    | recv =>
      refine h.keeps (fun b' hb => .inl ?_) fun b' _ hb' => hb'
      cases b <;> exact hb
    | sadd room us =>
      cases hexec
      exact h.keeps (fun _ hb => .inl hb) fun b' _ hb' => hb'
    | expireRoom room =>
      cases hexec
      exact h.keeps (fun _ hb => .inl hb) fun b' _ hb' => hb'
    | _ => exact h.keeps (fun _ hb => .inl hb) fun b' _ hb' => hb'
  · refine h.keeps (fun b' hb => .inl ?_) fun b' _ hb' => hb'
    cases c <;> first | exact hb | cases hfail
    · cases hb
    · cases hb

omit [DecidableEq ι] in
theorem JoinInv.happens {st st' : InstanceState ι} {g : Option ι → Progress} (h : JoinInv st g)
    (hs : Happens st st') : JoinInv st' g := by
  obtain ⟨e, rfl⟩ := hs
  have hkeeps : ∀ hub : WsService, (∀ b, hub.members b = st.node.hub.members b) →
      JoinInv (st.setHub hub) g := by
    intro hub hmembers
    refine ⟨h.progress, fun i b hb => ?_⟩
    exact (congrArg Table.rows (hmembers b)).trans_ne (h.entered i b hb)
  cases e with
  | register u =>
    refine hkeeps _ fun b => ?_
    unfold WsService.register
    split <;> rfl
  | retainOthers u connId =>
    refine hkeeps _ fun b => ?_
    unfold WsService.retainOthers
    split <;> rfl
  | removeClient u => exact hkeeps _ fun b => rfl
  | _ => exact ⟨h.progress, h.entered⟩

/-- Undisturbed joins find their user in the room. -/
theorem undisturbed_is_careful (rounds : Nat) (calls : ι → RoomCall) (r : RedisState)
    (p : Pool (InstanceState ι) WsCmd Unit (Option ι))
    (hrun : Pool.Steps UndisturbedAnswers Happens (beginning rounds calls r) p) :
    Pool.Steps CarefulAnswers Happens (beginning rounds calls r) p := by
  have hbegin : (beginning rounds calls r).Outlined (fun _ => before) (fun _ => Progress.after)
      (fun _ _ _ => True) JoinInv := by
    obtain ⟨g, hinv, hprogs⟩ := outlined_beginning rounds calls r
    have hg : g = fun _ => .none := hinv.progress.symm
    subst hg
    exact ⟨_, ⟨rfl, fun _ _ hno => nomatch hno⟩, hprogs⟩
  refine Pool.steps_of_outlined (fun i _ _ _ _ _ _ _ hs h => h.call hs)
    (fun _ _ _ hs h => h.happens hs) ?_ hrun hbegin
  intro i β c st b st' g hbefore hs h
  refine ⟨hs.1, ?_⟩
  cases c with
  | addLocalRoomMember room u => exact h.entered i room hbefore
  | _ => trivial

/-! ### User 1 in room 8 -/

def noUsers : RedisState where
  roomMembers := fun _ => .empty
  buffers := fun _ => []

/-- Redis is up. -/
def answerUp (i : Option ι) {β : Type} (c : WsCmd β) (st : InstanceState ι) :
    β × InstanceState ι :=
  let (b, node) := exec c st.node
  (b, { st with
    node
    progress := Function.update st.progress i ((st.progress i).after c b) })

theorem answers_answerUp (i : Option ι) {β : Type} (c : WsCmd β) (st : InstanceState ι) :
    Answers i c st (answerUp i c st).1 (answerUp i c st).2 := ⟨_, .inl rfl, rfl⟩

abbrev InstanceTurn (ι : Type) := Pool.Turn (Option ι) Background

abbrev runTurns (p : Pool (InstanceState ι) WsCmd Unit (Option ι)) (ts : List (InstanceTurn ι)) :
    Pool (InstanceState ι) WsCmd Unit (Option ι) :=
  ts.foldl (Pool.turn answerUp InstanceState.happen) p

theorem steps_runTurns (p : Pool (InstanceState ι) WsCmd Unit (Option ι))
    (ts : List (InstanceTurn ι)) : Pool.Steps Answers Happens p (runTurns p ts) := by
  have hts : p.TurnsOk answerUp InstanceState.happen (fun _ _ _ _ => True) ts :=
    Pool.turnsOk_of_forall fun _ _ _ _ => trivial
  exact Pool.steps_turns (fun i _ c st _ => answers_answerUp i c st) (fun _ e => ⟨e, rfl⟩) hts

theorem careful_runTurns {p : Pool (InstanceState ι) WsCmd Unit (Option ι)}
    {ts : List (InstanceTurn ι)} (hts : p.TurnsOk answerUp InstanceState.happen (fun _ => Careful) ts) :
    Pool.Steps CarefulAnswers Happens p (runTurns p ts) :=
  Pool.steps_turns (fun i _ c st hc => ⟨answers_answerUp i c st, hc⟩) (fun _ e => ⟨e, rfl⟩) hts

/-- The user is connected and joins; the payload that is published then is delivered. -/
def joinedRoom : List (InstanceTurn Unit) :=
  [.env .psubscribeRooms, .env (.register ⟨1⟩), .call (some ()), .call (some ()), .call (some ()),
    .call (some ()), .env (.publishToRoom ⟨8⟩ hello), .call none, .call none]

abbrev afterJoin : Pool (InstanceState Unit) WsCmd Unit (Option Unit) :=
  runTurns (beginning 1 (fun _ => .join ⟨1⟩ ⟨8⟩) noUsers) joinedRoom

theorem hello_is_delivered :
    (afterJoin.store.node.hub.senders ⟨1⟩).map (fun c => numbers c.queue) = [[0]] ∧
      ∀ client ∈ afterJoin.store.node.hub.clients.rows, ∀ sender ∈ client.senders,
        (sender.queue.map Post.number).Nodup := by
  refine ⟨rfl, delivered_at_most_once 1 (fun _ => .join ⟨1⟩ ⟨8⟩) noUsers afterJoin ?_⟩
  refine careful_runTurns ?_
  refine ⟨trivial, trivial, trivial, trivial, trivial, ?_, trivial, trivial, trivial, trivial⟩
  exact List.cons_ne_nil _ _

/-- The user joins and leaves; the join goes on when the leave is done. -/
def joinedWhileLeaving : List (InstanceTurn Bool) :=
  [.env .psubscribeRooms, .env (.register ⟨1⟩), .call (some true)] ++
    List.replicate 7 (.call (some false)) ++ List.replicate 4 (.call (some true)) ++
    [.env (.publishToRoom ⟨8⟩ hello), .call none, .call none, .call none, .call none]

def joinsAndLeaves (joins : Bool) : RoomCall := if joins then .join ⟨1⟩ ⟨8⟩ else .leave ⟨1⟩ ⟨8⟩

theorem hello_is_delivered_twice : ∃ p,
    Pool.Steps Answers Happens (beginning 2 joinsAndLeaves noUsers) p ∧
    p.prog (some true) = .ret () ∧ p.prog (some false) = .ret () ∧
    (p.store.node.hub.senders ⟨1⟩).map (fun c => numbers c.queue) = [[0, 0]] := by
  refine ⟨_, steps_runTurns _ joinedWhileLeaving, ?_, ?_, ?_⟩
  · rfl
  · rfl
  · rfl

end Runs

end Meno.Ws
