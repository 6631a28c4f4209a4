import Mathlib.Data.List.DropRight
import Meno.Lib.Timeline
import Meno.Ws.Hub

/-!
# Meno.Ws.OfflineBuffer

What `buffer_message` stores for a user who is away, and what `drain_message_buffer` returns of it.
`drains_right_iff` says for which sequences of calls every drain returns the last
`MESSAGE_BUFFER_SIZE` messages, when any of the calls to Redis may fail.
-/

namespace Meno.Ws

open Lib

/-! ## Calls to Redis that fail -/

inductive CallEnd where
  | answered
  | failed
  /-- Redis has done what it was told, and the answer is lost. -/
  | lost
deriving DecidableEq

def CallEnd.exec {β : Type} (e : CallEnd) (c : WsCmd β) (l : Local) : β × Local :=
  match e, c.failure with
  | .failed, some b => (b, l)
  | .lost, some b => (b, (Ws.exec c l).2)
  | _, _ => Ws.exec c l

/-- The calls end as the list says, and are answered when it is at its end. -/
def execAs {β : Type} (c : WsCmd β) (s : Local × List CallEnd) : β × Local × List CallEnd :=
  let (b, l) := (s.2.headD .answered).exec c s.1
  (b, l, s.2.tail)

/-! ## The calls for one user -/

/-- What has been buffered, all in all and since the last drain, and what the drains have returned. -/
structure BufferState where
  node : Local
  buffered : List Post
  since : List Post
  returned : List (List Post)

/-- A message counts as buffered when Redis has pushed it. -/
inductive BufferEvent where
  | buffer (post : Post) (ends : List CallEnd)
  | drain (ends : List CallEnd)

namespace BufferState

/-- Nothing is buffered for the user. -/
def start (u : Uuid) (node : Local) : BufferState where
  node := { node with redis := node.redis.setBuffer u [] }
  buffered := []
  since := []
  returned := []

variable (u : Uuid) (s : BufferState)

def buffer (post : Post) (ends : List CallEnd) : BufferState :=
  let pushed := if ends.headD .answered = .failed then [] else [post]
  { s with
    node := ((WsService.bufferMessage u post).run execAs (s.node, ends)).2.1
    buffered := s.buffered ++ pushed
    since := s.since ++ pushed }

def drain (ends : List CallEnd) : BufferState :=
  let (posts, node, _) := (WsService.drainMessageBuffer u).run execAs (s.node, ends)
  { s with node, since := [], returned := s.returned ++ [posts] }

def step (s : BufferState) : BufferEvent → BufferState
  | .buffer post ends => s.buffer u post ends
  | .drain ends => s.drain u ends

/-- The list `ws_buffer` of the user, newest first. -/
def list : List Post := s.node.redis.buffers u

/-! ## The property -/

/-- A drain returns the last messages since the one before, oldest first. -/
def DrainsRight (s : BufferState) : BufferEvent → Prop
  | .buffer _ _ => True
  | .drain ends => (s.drain u ends).returned = s.returned ++ [s.since.rtake messageBufferSize]

/-- How many messages there may be for a drain. -/
def capacity : CallEnd → Nat
  | .answered => messageBufferSize
  | .failed => 0
  | .lost => 0

/-- Not more than `MESSAGE_BUFFER_SIZE` have been buffered, and none if the drain is not answered. -/
def FitsDrain (s : BufferState) : BufferEvent → Prop
  | .buffer _ _ => True
  | .drain ends => s.since.length ≤ capacity (ends.headD .answered)

/-! ## The last of a list -/

section Last

variable {α : Type} {xs : List α} {m n : Nat}

theorem length_rtake : (xs.rtake n).length = min n xs.length := by
  rw [List.rtake_eq_reverse_take_reverse, List.length_reverse, List.length_take,
    List.length_reverse]

theorem rtake_of_length_le (h : xs.length ≤ n) : xs.rtake n = xs := by
  rw [List.rtake, Nat.sub_eq_zero_of_le h, List.drop_zero]

/-- More of a list is the same where there is no more. -/
theorem rtake_eq_rtake_iff (h : m < n) : xs.rtake n = xs.rtake m ↔ xs.length ≤ m := by
  constructor
  · intro hsame
    have hlength := congrArg List.length hsame
    rw [length_rtake, length_rtake] at hlength
    omega
  · intro hle
    rw [rtake_of_length_le hle, rtake_of_length_le (by omega)]

theorem nil_eq_rtake_iff (h : 0 < n) : [] = xs.rtake n ↔ xs.length ≤ 0 := by
  rw [eq_comm, ← List.length_eq_zero_iff, length_rtake]
  omega

end Last

/-! ## One call -/

variable {u s} {post : Post} {ends : List CallEnd} {e : CallEnd} {l : Local}

theorem pushed : (e.exec (.lpush u post) l).2.redis.buffers u =
    if e = .failed then l.redis.buffers u else post :: l.redis.buffers u := by
  have hpush : (exec (.lpush u post) l).2.redis.buffers u = post :: l.redis.buffers u :=
    Function.update_self ..
  cases e with
  | answered => exact hpush
  | failed => rfl
  | lost => exact hpush

/-- LTRIM keeps one message more than `MESSAGE_BUFFER_SIZE`, if it is done. -/
theorem trimmed : ∃ n, messageBufferSize < n ∧
    (e.exec (.ltrim u) l).2.redis.buffers u = (l.redis.buffers u).take n := by
  have htrim : (exec (.ltrim u) l).2.redis.buffers u =
      (l.redis.buffers u).take (messageBufferSize + 1) := Function.update_self ..
  cases e with
  | answered => exact ⟨messageBufferSize + 1, Nat.lt_succ_self _, htrim⟩
  | failed =>
    refine ⟨messageBufferSize + 1 + (l.redis.buffers u).length, by omega, ?_⟩
    rw [List.take_of_length_le (by omega)]
    rfl
  | lost => exact ⟨messageBufferSize + 1, Nat.lt_succ_self _, htrim⟩

theorem expired : (e.exec (.expireBuffer u) l).2 = l := by
  cases e <;> rfl

theorem list_buffer (u : Uuid) (s : BufferState) (post : Post) (ends : List CallEnd) :
    ∃ n, messageBufferSize < n ∧ (s.buffer u post ends).list u =
      (if ends.headD .answered = .failed then s.list u else post :: s.list u).take n := by
  have hrun : (s.buffer u post ends).node =
      ((ends.tail.tail.headD .answered).exec (.expireBuffer u)
        ((ends.tail.headD .answered).exec (.ltrim u)
          ((ends.headD .answered).exec (.lpush u post) s.node).2).2).2 := rfl
  obtain ⟨n, hn, htrimmed⟩ := trimmed (u := u) (e := ends.tail.headD .answered)
    (l := ((ends.headD .answered).exec (.lpush u post) s.node).2)
  refine ⟨n, hn, ?_⟩
  rw [list, hrun, expired, htrimmed, pushed]
  rfl

theorem returned_drain : (s.drain u ends).returned = s.returned ++
    [if ends.headD .answered = .answered then (s.list u).reverse else []] := by
  have hrun : (s.drain u ends).returned = s.returned ++
      [((WsService.drainMessageBuffer u).run execAs (s.node, ends)).1] := rfl
  have hposts : ((WsService.drainMessageBuffer u).run execAs (s.node, ends)).1 =
      if ends.headD .answered = .answered then (s.list u).reverse else [] := by
    cases ends with
    | nil => rfl
    | cons e ends => cases e <;> rfl
  rw [hrun, hposts]

theorem list_drain : (s.drain u ends).list u =
    if ends.headD .answered = .failed then s.list u else [] := by
  have htake : (exec (.takeBuffer u) s.node).2.redis.buffers u = [] := Function.update_self ..
  cases ends with
  | nil => exact htake
  | cons e ends =>
    cases e with
    | answered => exact htake
    | failed => rfl
    | lost => exact htake

/-! ## What is in the list -/

/-- As long as the drains are right: the last messages since the last drain, and one more than a
drain returns if there are more. -/
def HoldsLast (u : Uuid) (s : BufferState) : Prop :=
  ∃ n, messageBufferSize < n ∧ s.list u = s.since.reverse.take n

theorem HoldsLast.buffer (h : s.HoldsLast u) : (s.buffer u post ends).HoldsLast u := by
  obtain ⟨n, hn, hlist⟩ := h
  obtain ⟨m, hm, hafter⟩ := list_buffer u s post ends
  have hsince : (s.buffer u post ends).since =
      s.since ++ if ends.headD .answered = .failed then [] else [post] := rfl
  by_cases hfailed : ends.headD .answered = .failed
  · refine ⟨min m n, by omega, ?_⟩
    rw [hafter, hsince, if_pos hfailed, if_pos hfailed, hlist, List.append_nil, List.take_take]
  · refine ⟨min m (n + 1), by omega, ?_⟩
    have hpush : post :: s.since.reverse.take n = (post :: s.since.reverse).take (n + 1) :=
      List.take_succ_cons.symm
    rw [hafter, hsince, if_neg hfailed, if_neg hfailed, hlist, hpush, List.take_take,
      List.reverse_append, List.reverse_singleton, List.singleton_append]

theorem HoldsLast.drain (h : s.HoldsLast u) (hfits : s.FitsDrain (.drain ends)) :
    (s.drain u ends).HoldsLast u := by
  refine ⟨messageBufferSize + 1, Nat.lt_succ_self _, ?_⟩
  have hsince : (s.drain u ends).since = [] := rfl
  rw [list_drain, hsince]
  split
  · rename_i hfailed
    obtain ⟨n, -, hlist⟩ := h
    have hnone : s.since.length ≤ capacity (ends.headD .answered) := hfits
    rw [hfailed] at hnone
    rw [hlist, List.length_eq_zero_iff.1 (Nat.le_zero.1 hnone), List.reverse_nil, List.take_nil,
      List.take_nil]
  · rfl

theorem HoldsLast.drainsRight (h : s.HoldsLast u) (e : BufferEvent) :
    s.DrainsRight u e ↔ s.FitsDrain e := by
  cases e with
  | buffer post ends => exact Iff.rfl
  | drain ends =>
    obtain ⟨n, hn, hlist⟩ := h
    have hright : s.DrainsRight u (.drain ends) ↔
        (if ends.headD .answered = .answered then (s.list u).reverse else []) =
          s.since.rtake messageBufferSize := by
      rw [DrainsRight, returned_drain, List.append_cancel_left_eq, List.cons.injEq]
      exact and_iff_left rfl
    have hfits : s.FitsDrain (.drain ends) ↔
        s.since.length ≤ capacity (ends.headD .answered) := Iff.rfl
    rw [hright, hfits, hlist, ← List.rtake_eq_reverse_take_reverse]
    cases ends.headD .answered with
    | answered =>
      rw [if_pos rfl]
      exact rtake_eq_rtake_iff hn
    | failed =>
      rw [if_neg (by decide)]
      exact nil_eq_rtake_iff (by decide)
    | lost =>
      rw [if_neg (by decide)]
      exact nil_eq_rtake_iff (by decide)

/-! ## No message twice -/

/-- What is returned, and then what is still there, has been buffered in this order. -/
def InOrder (u : Uuid) (s : BufferState) : Prop :=
  (s.returned.flatten ++ (s.list u).reverse).Sublist s.buffered

theorem InOrder.step (h : s.InOrder u) (e : BufferEvent) : (s.step u e).InOrder u := by
  cases e with
  | buffer post ends =>
    obtain ⟨m, -, hafter⟩ := list_buffer u s post ends
    have hpushed : (if ends.headD .answered = .failed then s.list u else post :: s.list u).reverse =
        (s.list u).reverse ++ if ends.headD .answered = .failed then [] else [post] := by
      split
      · rw [List.append_nil]
      · rw [List.reverse_cons]
    show (s.returned.flatten ++ ((s.buffer u post ends).list u).reverse).Sublist
      (s.buffered ++ if ends.headD .answered = .failed then [] else [post])
    rw [hafter]
    have hkept := List.reverse_sublist.2 <| List.take_sublist m
      (if ends.headD .answered = .failed then s.list u else post :: s.list u)
    rw [hpushed] at hkept
    refine (hkept.append_left s.returned.flatten).trans ?_
    rw [← List.append_assoc]
    exact h.append (List.Sublist.refl _)
  | drain ends =>
    show ((s.drain u ends).returned.flatten ++ ((s.drain u ends).list u).reverse).Sublist s.buffered
    rw [returned_drain, list_drain, List.flatten_append, List.flatten_singleton]
    refine List.Sublist.trans ?_ h
    cases ends.headD .answered with
    | answered => simp
    | failed => simp
    | lost => simp

theorem returned_in_order (node : Local) (es : List BufferEvent) :
    ((es.foldl (step u) (start u node)).returned.flatten).Sublist
      (es.foldl (step u) (start u node)).buffered := by
  have hall : ∀ (es : List BufferEvent) (s : BufferState), s.InOrder u →
      (es.foldl (step u) s).InOrder u := by
    intro es
    induction es with
    | nil => intro s h; exact h
    | cons e es ih => intro s h; exact ih _ (h.step e)
  have hstart : (start u node).InOrder u := by
    have hlist : (start u node).list u = [] := Function.update_self ..
    rw [InOrder, hlist]
    exact List.Sublist.refl _
  exact (List.sublist_append_left _ _).trans (hall es _ hstart)

end BufferState

open BufferState

/-- For a user, and a sequence of calls any of whose calls to Redis may fail: every drain returns
the last `MESSAGE_BUFFER_SIZE` messages that have been buffered since the drain before, and no
message is returned twice, when every drain is answered or finds nothing, and there are not more
messages for it than it should return. -/
theorem drains_right_iff (u : Uuid) (node : Local) (es : List BufferEvent) :
    (Along (step u) (DrainsRight u) (start u node) es ∧
      ((es.foldl (step u) (start u node)).returned.flatten).Sublist
        (es.foldl (step u) (start u node)).buffered) ↔
      Along (step u) FitsDrain (start u node) es := by
  have hstart : (start u node).HoldsLast u := by
    have hlist : (start u node).list u = [] := Function.update_self ..
    exact ⟨messageBufferSize + 1, Nat.lt_succ_self _, hlist⟩
  have hstep : ∀ s e, s.HoldsLast u → FitsDrain s e → (s.step u e).HoldsLast u := by
    intro s e h he
    cases e with
    | buffer post ends => exact h.buffer
    | drain ends => exact h.drain he
  rw [and_iff_left (returned_in_order node es)]
  exact Along.iff_of_invariant (fun s e h => h.drainsRight e) hstep hstart

/-- An instance that nobody is connected to. -/
def idle : Local where
  hub := .new
  channels := .empty
  inbox := []
  redis := { roomMembers := fun _ => .empty, buffers := fun _ => [] }

/-- One message more than a drain should return. -/
def fiftyOne : List BufferEvent :=
  (List.range 51).map fun n => .buffer { number := n, payload := hello } []

def drainFiftyOne : List BufferEvent := fiftyOne ++ [.drain []]

/-- The drain returns them all. -/
theorem fifty_one_drained :
    ¬(Along (step ⟨1⟩) (DrainsRight ⟨1⟩) (start ⟨1⟩ idle) drainFiftyOne ∧
      ((drainFiftyOne.foldl (step ⟨1⟩) (start ⟨1⟩ idle)).returned.flatten).Sublist
        (drainFiftyOne.foldl (step ⟨1⟩) (start ⟨1⟩ idle)).buffered) := by
  rintro ⟨hright, -⟩
  have hlast : (fiftyOne.foldl (step ⟨1⟩) (start ⟨1⟩ idle)).DrainsRight ⟨1⟩ (.drain []) :=
    (along_append.1 hright).2.1
  have hlengths := congrArg (List.map List.length) hlast
  have hall : ((fiftyOne.foldl (step ⟨1⟩) (start ⟨1⟩ idle)).drain ⟨1⟩ []).returned.map
      List.length = [51] := by decide +kernel
  have hsome : ((fiftyOne.foldl (step ⟨1⟩) (start ⟨1⟩ idle)).returned ++
      [(fiftyOne.foldl (step ⟨1⟩) (start ⟨1⟩ idle)).since.rtake messageBufferSize]).map
        List.length = [50] := by decide +kernel
  rw [hall, hsome] at hlengths
  cases hlengths

end Meno.Ws
