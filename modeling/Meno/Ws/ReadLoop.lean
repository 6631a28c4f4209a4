import Mathlib.Data.List.DropRight
import Meno.Lib.Timeline

/-!
# Meno.Ws.ReadLoop

`run_read_loop`: what a connection's frames and read timeouts do to the count of missed pongs, and
when the loop gives up. `only_silence_iff` says for which traces it gives up only after a silence.
-/

namespace Meno.Ws

open Lib

structure HeartbeatConfig where
  pingIntervalSecs : Nat
  hostPongTimeoutSecs : Nat
  listenerPongTimeoutSecs : Nat
  maxMissedPings : Nat

def HeartbeatConfig.default : HeartbeatConfig where
  pingIntervalSecs := 25
  hostPongTimeoutSecs := 60
  listenerPongTimeoutSecs := 20
  maxMissedPings := 2

/-! ## The loop -/

/-- What `time::timeout(pong_timeout, ws_receiver.next())` comes to. -/
inductive ReadEvent where
  | text
  | binary
  | ping
  | pong
  | close
  | error
  /-- `None`: there are no more frames. -/
  | ended
  | timeout
deriving DecidableEq

/-- `missed_count` and `missed_pongs` are set to 0. -/
def ReadEvent.resets : ReadEvent → Bool
  | .text => true
  | .ping => true
  | _ => false

inductive ReadLoop where
  | reading (missedCount missedPongs : Nat)
  | returned (isDisconnected : Bool)
deriving DecidableEq

namespace ReadLoop

def start : ReadLoop := .reading 0 0

def isReading : ReadLoop → Bool
  | .reading _ _ => true
  | .returned _ => false

/-- One round of `run_read_loop`. Binary and pong frames fall under `_ => {}`. -/
def round (maxMissed : Nat) (missedCount missedPongs : Nat) : ReadEvent → ReadLoop
  | .text => .reading 0 0
  | .ping => .reading 0 0
  | .close => .returned false
  | .ended => .returned false
  | .error => .returned true
  | .timeout =>
    if maxMissed ≤ missedCount + 1 then .returned true
    else .reading (missedCount + 1) (missedPongs + 1)
  | .binary => .reading missedCount missedPongs
  | .pong => .reading missedCount missedPongs

end ReadLoop

/-- The loop, and what it has read. -/
structure ReadTrace where
  loop : ReadLoop
  read : List ReadEvent

namespace ReadTrace

def start : ReadTrace := { loop := .start, read := [] }

def step (maxMissed : Nat) (s : ReadTrace) (e : ReadEvent) : ReadTrace :=
  match s.loop with
  | .reading missedCount missedPongs =>
    { loop := ReadLoop.round maxMissed missedCount missedPongs e, read := s.read ++ [e] }
  | .returned _ => s

/-- The loop is left because of missed pongs. -/
def GivesUp (maxMissed : Nat) (s : ReadTrace) (e : ReadEvent) : Prop :=
  s.loop.isReading = true ∧ e = .timeout ∧ (s.step maxMissed e).loop = .returned true

/-- It gives up after `max_missed` timeouts in a row. -/
def OnlySilence (maxMissed : Nat) (s : ReadTrace) (e : ReadEvent) : Prop :=
  s.GivesUp maxMissed e → List.replicate maxMissed .timeout <:+ (s.step maxMissed e).read

/-! ## What is counted -/

/-- What has been read since the last frame that sets the count back. -/
def sinceReset (s : ReadTrace) : List ReadEvent := s.read.rtakeWhile fun e => !e.resets

/-- The timeouts come in a row: once there is one, nothing else is read. -/
def Unbroken (es : List ReadEvent) : Prop := ∀ e ∈ es.dropWhile (· ≠ .timeout), e = .timeout

/-- When the last of `max_missed` timeouts comes, no binary or pong frame has come after the first of
them. -/
def NotBroken (maxMissed : Nat) (s : ReadTrace) (e : ReadEvent) : Prop :=
  s.loop.isReading = true → e = .timeout → maxMissed ≤ s.sinceReset.count .timeout + 1 →
    Unbroken s.sinceReset

/-- `missed_count` is the number of timeouts since then, and `missed_pongs` too. -/
def Counted (maxMissed : Nat) (s : ReadTrace) : Prop :=
  ∀ c p, s.loop = .reading c p →
    c = s.sinceReset.count .timeout ∧ p = c ∧ (c = 0 ∨ c < maxMissed)

variable {maxMissed : Nat} {s : ReadTrace} {e : ReadEvent} {es : List ReadEvent}

theorem step_of_reading {c p : Nat} (h : s.loop = .reading c p) : s.step maxMissed e =
    { loop := ReadLoop.round maxMissed c p e, read := s.read ++ [e] } := by
  simp only [step, h]

theorem step_of_returned (h : s.loop.isReading = false) : s.step maxMissed e = s := by
  cases hloop : s.loop with
  | reading c p =>
    rw [hloop] at h
    cases h
  | returned b => simp only [step, hloop]

theorem givesUp_iff {c p : Nat} (h : s.loop = .reading c p) :
    s.GivesUp maxMissed e ↔ e = .timeout ∧ maxMissed ≤ c + 1 := by
  rw [GivesUp, step_of_reading h, h]
  constructor
  · rintro ⟨-, rfl, hreturned⟩
    refine ⟨rfl, ?_⟩
    by_contra hfew
    simp only [ReadLoop.round, if_neg hfew] at hreturned
    cases hreturned
  · rintro ⟨rfl, hmany⟩
    exact ⟨rfl, rfl, if_pos hmany⟩

theorem sinceReset_append (s : ReadTrace) (e : ReadEvent) (loop : ReadLoop) :
    sinceReset { loop, read := s.read ++ [e] } =
      if e.resets then [] else s.sinceReset ++ [e] := by
  simp only [sinceReset, List.rtakeWhile_concat]
  cases e.resets <;> rfl

theorem counted_start : start.Counted maxMissed := by
  rintro c p ⟨⟩
  exact ⟨rfl, rfl, .inl rfl⟩

theorem Counted.step (h : s.Counted maxMissed) (e : ReadEvent) :
    (s.step maxMissed e).Counted maxMissed := by
  cases hloop : s.loop with
  | returned b => rwa [step_of_returned (by rw [hloop]; rfl)]
  | reading c p =>
    obtain ⟨hcount, rfl, hfew⟩ := h c p hloop
    rw [step_of_reading hloop]
    intro c' p' hnext
    rw [sinceReset_append]
    cases e with
    | text =>
      cases hnext
      exact ⟨rfl, rfl, .inl rfl⟩
    | ping =>
      cases hnext
      exact ⟨rfl, rfl, .inl rfl⟩
    | close => cases hnext
    | ended => cases hnext
    | error => cases hnext
    | binary =>
      cases hnext
      refine ⟨?_, rfl, hfew⟩
      rw [hcount]
      simp [ReadEvent.resets]
    | pong =>
      cases hnext
      refine ⟨?_, rfl, hfew⟩
      rw [hcount]
      simp [ReadEvent.resets]
    | timeout =>
      have hround : ReadLoop.round maxMissed p p .timeout =
          if maxMissed ≤ p + 1 then .returned true else .reading (p + 1) (p + 1) := rfl
      rw [hround] at hnext
      split at hnext
      · cases hnext
      · cases hnext
        refine ⟨?_, rfl, .inr (by omega)⟩
        rw [hcount]
        simp [ReadEvent.resets]

/-! ## Silence -/

theorem unbroken_iff : Unbroken es ↔
    ∃ quiet, ReadEvent.timeout ∉ quiet ∧ es = quiet ++ List.replicate (es.count .timeout) .timeout := by
  constructor
  · intro h
    have hsplit := List.takeWhile_append_dropWhile (p := (· ≠ ReadEvent.timeout)) (l := es)
    have hquiet : ReadEvent.timeout ∉ es.takeWhile (· ≠ .timeout) := by
      intro hmem
      simpa using List.mem_takeWhile_imp hmem
    have htimeouts := List.eq_replicate_of_mem h
    have hcount : es.count .timeout = (es.dropWhile (· ≠ .timeout)).length := by
      have hsum := congrArg (List.count ReadEvent.timeout) hsplit
      rw [List.count_append, List.count_eq_zero.2 hquiet, htimeouts, List.count_replicate_self] at hsum
      omega
    refine ⟨es.takeWhile (· ≠ .timeout), hquiet, ?_⟩
    rw [hcount, ← htimeouts, hsplit]
  · rintro ⟨quiet, hquiet, hes⟩ e he
    rw [hes, List.dropWhile_append_of_pos] at he
    · exact List.eq_of_mem_replicate ((List.dropWhile_sublist _).subset he)
    · intro x hx
      rw [decide_eq_true_eq]
      rintro rfl
      exact hquiet hx

theorem rtakeWhile_append_replicate (es : List ReadEvent) (n : Nat) :
    (es ++ List.replicate n ReadEvent.timeout).rtakeWhile (fun e => !e.resets) =
      es.rtakeWhile (fun e => !e.resets) ++ List.replicate n .timeout := by
  induction n with
  | zero => simp
  | succ n ih =>
    rw [List.replicate_succ', ← List.append_assoc, List.rtakeWhile_concat_pos _ _ _ rfl, ih,
      List.append_assoc]

/-- The loop counts as many timeouts as there are in a row at the end, if they are in a row. -/
theorem Counted.suffix_iff {c p : Nat} (h : s.Counted maxMissed) (hloop : s.loop = .reading c p)
    (hmany : maxMissed ≤ c + 1) :
    List.replicate maxMissed .timeout <:+ s.read ++ [.timeout] ↔ Unbroken s.sinceReset := by
  obtain ⟨hcount, -, hfew⟩ := h c p hloop
  rw [unbroken_iff, ← hcount]
  constructor
  · intro hsuffix
    rcases hfew with rfl | hfew
    · exact ⟨s.sinceReset, List.count_eq_zero.1 hcount.symm, (List.append_nil _).symm⟩
    · have hmax : maxMissed = c + 1 := Nat.le_antisymm hmany hfew
      obtain ⟨earlier, hread⟩ := hsuffix
      rw [hmax, List.replicate_succ', ← List.append_assoc] at hread
      have hread := List.append_cancel_right hread
      have hsince : s.sinceReset =
          earlier.rtakeWhile (fun e => !e.resets) ++ List.replicate c .timeout := by
        rw [sinceReset, ← hread, rtakeWhile_append_replicate]
      refine ⟨_, ?_, hsince⟩
      rw [hsince, List.count_append, List.count_replicate_self] at hcount
      exact List.count_eq_zero.1 (by omega)
  · rintro ⟨quiet, -, hsince⟩
    have hlast : List.replicate c .timeout <:+ s.read :=
      List.IsSuffix.trans ⟨quiet, hsince.symm⟩ (List.rtakeWhile_suffix ..)
    obtain ⟨earlier, hread⟩ := hlast
    rw [← hread, List.append_assoc, ← List.replicate_succ']
    have hshort : List.replicate maxMissed ReadEvent.timeout <:+ List.replicate (c + 1) .timeout := by
      refine ⟨List.replicate (c + 1 - maxMissed) .timeout, ?_⟩
      rw [List.replicate_append_replicate, Nat.sub_add_cancel hmany]
    exact hshort.trans (List.suffix_append ..)

theorem Counted.onlySilence (h : s.Counted maxMissed) (e : ReadEvent) :
    s.OnlySilence maxMissed e ↔ s.NotBroken maxMissed e := by
  cases hloop : s.loop with
  | returned b =>
    have hdone : s.loop.isReading = false := by rw [hloop]; rfl
    simp [OnlySilence, GivesUp, NotBroken, hdone]
  | reading c p =>
    have hreading : s.loop.isReading = true := by rw [hloop]; rfl
    obtain ⟨hcount, -, -⟩ := h c p hloop
    rw [OnlySilence, NotBroken, givesUp_iff hloop, step_of_reading hloop, ← hcount]
    constructor
    · rintro hsilence - rfl hmany
      exact (h.suffix_iff hloop hmany).1 (hsilence ⟨rfl, hmany⟩)
    · rintro hunbroken ⟨rfl, hmany⟩
      exact (h.suffix_iff hloop hmany).2 (hunbroken hreading rfl hmany)

/-- A loop that is left stays left. -/
theorem along_returned (h : s.loop.isReading = false) :
    Along (step maxMissed) (fun s e => ¬s.GivesUp maxMissed e) s es := by
  induction es generalizing s with
  | nil => trivial
  | cons e es ih =>
    refine ⟨?_, ?_⟩
    · rintro ⟨hreading, -⟩
      rw [h] at hreading
      cases hreading
    · rw [step_of_returned h]
      exact ih h

/-- No silence, no giving up. -/
theorem along_answering (h : Along (step maxMissed) (OnlySilence maxMissed) s es)
    (hes : ¬List.replicate maxMissed .timeout <:+: s.read ++ es) :
    Along (step maxMissed) (fun s e => ¬s.GivesUp maxMissed e) s es := by
  induction es generalizing s with
  | nil => trivial
  | cons e es ih =>
    cases hloop : s.loop with
    | returned b => exact along_returned (by rw [hloop]; rfl)
    | reading c p =>
      have hread : (s.step maxMissed e).read = s.read ++ [e] := by rw [step_of_reading hloop]
      have hall : (s.step maxMissed e).read ++ es = s.read ++ e :: es := by
        rw [hread, List.append_assoc, List.singleton_append]
      refine ⟨fun hgives => hes ?_, ih h.2 (by rwa [hall])⟩
      rw [← hall]
      exact (h.1 hgives).isInfix.trans (List.prefix_append ..).isInfix

end ReadTrace

open ReadTrace

/-! ## Frames that arrive in time -/

/-- The first `n` rounds from the time `now`, when the frames arrive at their times. A frame that has
arrived when the time is over is read. -/
def rounds (pongTimeoutSecs : Nat) : Nat → Nat → List (Nat × ReadEvent) → List ReadEvent
  | 0, _, _ => []
  | n + 1, now, [] =>
    .timeout :: rounds pongTimeoutSecs n (now + pongTimeoutSecs) []
  | n + 1, now, (time, frame) :: rest =>
    if time ≤ now + pongTimeoutSecs then frame :: rounds pongTimeoutSecs n (max now time) rest
    else .timeout :: rounds pongTimeoutSecs n (now + pongTimeoutSecs) ((time, frame) :: rest)

/-- A pong at once for each of the first `n` pings. The first ping is sent at the start. -/
def pongs (pingIntervalSecs n : Nat) : List (Nat × ReadEvent) :=
  (List.range n).map fun i => (pingIntervalSecs * i, .pong)

/-- None of the frames is later than the loop waits. -/
def Prompt (pongTimeoutSecs : Nat) : Nat → List (Nat × ReadEvent) → Prop
  | _, [] => True
  | now, (time, _) :: rest => time ≤ now + pongTimeoutSecs ∧ Prompt pongTimeoutSecs (max now time) rest

theorem rounds_of_prompt {pongTimeoutSecs : Nat} {arrivals : List (Nat × ReadEvent)} :
    ∀ {now : Nat}, Prompt pongTimeoutSecs now arrivals →
      rounds pongTimeoutSecs arrivals.length now arrivals = arrivals.map Prod.snd := by
  induction arrivals with
  | nil => intro now _; rfl
  | cons arrival rest ih =>
    intro now hprompt
    rw [List.length_cons, rounds, if_pos hprompt.1, ih hprompt.2, List.map_cons]

/-- Who is never late is never dropped, whatever is sent. -/
theorem prompt_not_dropped {maxMissed pongTimeoutSecs : Nat} {arrivals : List (Nat × ReadEvent)}
    (hframes : ∀ arrival ∈ arrivals, arrival.2 ≠ .timeout) (hprompt : Prompt pongTimeoutSecs 0 arrivals) :
    Along (step maxMissed) (fun s e => ¬s.GivesUp maxMissed e) start
      (rounds pongTimeoutSecs arrivals.length 0 arrivals) := by
  have hall : ∀ (es : List ReadEvent) (s : ReadTrace), .timeout ∉ es →
      Along (step maxMissed) (fun s e => ¬s.GivesUp maxMissed e) s es := by
    intro es
    induction es with
    | nil => intro s _; trivial
    | cons e es ih =>
      intro s hes
      refine ⟨?_, ih _ fun hmem => hes (List.mem_cons_of_mem _ hmem)⟩
      rintro ⟨-, rfl, -⟩
      exact hes (List.mem_cons_self ..)
  rw [rounds_of_prompt hprompt]
  refine hall _ _ fun hmem => ?_
  obtain ⟨arrival, harrival, htimeout⟩ := List.mem_map.1 hmem
  exact hframes arrival harrival htimeout

/-- For every `max_missed` and every trace: the loop gives up only after `max_missed` timeouts in a
row, and never when no frame is missing for so long, if and only if each time it has counted to
`max_missed` no binary or pong frame has come after the first timeout that counts. -/
theorem only_silence_iff (maxMissed : Nat) (es : List ReadEvent) :
    (Along (step maxMissed) (OnlySilence maxMissed) start es ∧
      (¬List.replicate maxMissed .timeout <:+: es →
        Along (step maxMissed) (fun s e => ¬s.GivesUp maxMissed e) start es)) ↔
      Along (step maxMissed) (NotBroken maxMissed) start es := by
  have hiff : Along (step maxMissed) (OnlySilence maxMissed) start es ↔
      Along (step maxMissed) (NotBroken maxMissed) start es :=
    Along.iff_of_invariant (fun s e h => Counted.onlySilence h e) (fun s e h _ => h.step e)
      counted_start
  rw [← hiff]
  exact and_iff_left_of_imp fun h hes => along_answering h hes

/-- A listener that sends a pong every 25 seconds, when the pings are due, is dropped after 45 seconds.
The later pongs are unsolicited where the write task keeps the pings from being sent. -/
def answeringListener : List ReadEvent :=
  rounds HeartbeatConfig.default.listenerPongTimeoutSecs 4 0
    (pongs HeartbeatConfig.default.pingIntervalSecs 3)

theorem answering_listener_dropped :
    answeringListener = [.pong, .timeout, .pong, .timeout] ∧
      ¬(Along (step HeartbeatConfig.default.maxMissedPings)
          (OnlySilence HeartbeatConfig.default.maxMissedPings) start answeringListener ∧
        (¬List.replicate HeartbeatConfig.default.maxMissedPings .timeout <:+: answeringListener →
          Along (step HeartbeatConfig.default.maxMissedPings)
            (fun s e => ¬s.GivesUp HeartbeatConfig.default.maxMissedPings e) start
              answeringListener)) := by
  have hread : answeringListener = [.pong, .timeout, .pong, .timeout] := by decide
  refine ⟨hread, ?_⟩
  rw [hread]
  rintro ⟨⟨-, -, -, hlast, -⟩, -⟩
  have hsuffix := hlast ⟨rfl, rfl, rfl⟩
  revert hsuffix
  decide

end Meno.Ws
