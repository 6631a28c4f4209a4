import Meno.Basic
import Meno.Lib.Buffered
import Meno.Push.Tasks

/-!
# Meno.Push.Multicast

`send_multicast`: a message to many devices, fifty calls of `send` at a time, while others use the
same service. Each device has one result and is asked for at most once (`multicast_accounted`). A
circuit that opens in the middle lets no more through than the calls that were admitted before
(`open_circuit_cuts_off`).
-/

namespace Meno

open Lib PushNotificationService

/-- A user and the token of the user's device. -/
abbrev Device := Uuid × String

structure MulticastResult where
  failed : List (Uuid × PushError)
  succeeded : Nat

/-- FCM as the calls see it: the time, the service they share, and the devices in the requests that
this multicast has made. -/
structure FcmState where
  clock : Instant
  shared : SharedPush
  posts : List Device

/-- How many calls there are in the buffer. -/
def maxParallelSends : Nat := 50

abbrev SendBuffer := Buffered Device SendTask (Except PushError Unit)

/-! ## Runs -/

namespace SendBuffer

/-- A call takes a step; FCM hears of it when it has an access token. -/
def Go (device : Device) (task : SendTask) (s : FcmState) (task' : SendTask) (s' : FcmState) :
    Prop :=
  ∃ e, (task', s'.shared) = SendTask.step s.clock s.shared task e ∧ s'.clock = s.clock ∧
    s'.posts = s.posts ++ (SendTask.used s.clock task task').map fun _ => device

def ended : SendTask → Option (Except PushError Unit)
  | .ended result => some result
  | _ => none

/-- Time passes. Others have called the breaker, and have left a token or the lock. -/
def Others (s s' : FcmState) : Prop :=
  s.clock ≤ s'.clock ∧ s'.posts = s.posts ∧
    ∃ calls : List CircuitBreaker.Event,
      (∀ call ∈ calls, s.clock ≤ call.now ∧ call.now ≤ s'.clock) ∧
        s'.shared.service.breaker = s.shared.service.breaker.run calls

abbrev Steps : FcmState × SendBuffer → FcmState × SendBuffer → Prop :=
  Buffered.Steps maxParallelSends (fun _ => .checking) Go ended Others

/-- The loop of `send_multicast` takes the next result. -/
def take (result : MulticastResult) : Device × Except PushError Unit → MulticastResult
  | (_, .ok ()) => { result with succeeded := result.succeeded + 1 }
  | (device, .error e) => { result with failed := result.failed ++ [(device.1, e)] }

/-- What `send_multicast` has so far, and what it returns. -/
def result (b : SendBuffer) : MulticastResult := b.yielded.foldl take ⟨[], 0⟩

/-- A run begins with the tokens that the caller hands over. -/
def Reached (tokens : List Device) (x : FcmState × SendBuffer) : Prop :=
  ∃ s : FcmState, s.posts = [] ∧ Steps (s, Buffered.start tokens) x

/-! ## Accounts -/

/-- No more calls than the buffer holds, and no device in more requests than it has entries. In the
end there is a result for every entry, and a request for those that came as far. -/
structure Accounted (tokens : List Device) (x : FcmState × SendBuffer) : Prop where
  bounded : x.2.running.length ≤ maxParallelSends
  once : List.Subperm x.1.posts tokens
  complete : x.2.Finished → (x.2.yielded.map Prod.fst).Perm tokens ∧
    (result x.2).succeeded + (result x.2).failed.length = tokens.length ∧
    (result x.2).failed = x.2.yielded.filterMap (fun
      | (_, .ok ()) => none
      | (device, .error e) => some (device.1, e)) ∧
    x.1.posts.Perm ((x.2.yielded.filter fun p => SendTask.reached p.2).map Prod.fst)

/-- A call that has come to its request. -/
def asked : SendTask → Bool
  | .posting _ => true
  | .ended result => SendTask.reached result
  | _ => false

theorem ends_of_step {now : Instant} {task task' : SendTask} {shared shared' : SharedPush}
    {e : SendEvent} (h : (task', shared') = SendTask.step now shared task e) :
    SendTasks.Ends now shared task e task' shared' := by
  have hends := SendTasks.step_ends now shared task e
  rw [← h] at hends
  exact hends

theorem go_used {device : Device} {task task' : SendTask} {s s' : FcmState}
    (h : Go device task s task' s') :
    ∃ new, s'.posts = s.posts ++ new ∧
      (if asked task' then [device] else []) = (if asked task then [device] else []) ++ new := by
  obtain ⟨e, hstep, -, hposts⟩ := h
  refine ⟨_, hposts, ?_⟩
  have hends := ends_of_step hstep
  generalize s'.shared = shared' at hends
  cases hends with
  | passes checked => rfl
  | stops checked => rfl
  | reuses free good => rfl
  | asks free none => rfl
  | fails => rfl
  | gets => rfl
  | answers hasked reported => simp [asked, hasked, SendTask.used]
  | stays nothing => cases task <;> simp [asked, SendTask.used]

theorem result_of_yielded (yielded : List (Device × Except PushError Unit)) (r : MulticastResult) :
    (yielded.foldl take r).succeeded + (yielded.foldl take r).failed.length =
        r.succeeded + r.failed.length + yielded.length ∧
      (yielded.foldl take r).failed = r.failed ++ yielded.filterMap (fun
        | (_, .ok ()) => none
        | (device, .error e) => some (device.1, e)) := by
  induction yielded generalizing r with
  | nil => simp
  | cons p yielded ih =>
    obtain ⟨hcount, hfailed⟩ := ih (take r p)
    rw [List.foldl_cons]
    refine ⟨hcount.trans ?_, hfailed.trans ?_⟩
    · obtain ⟨device, e | ⟨⟩⟩ := p
      · simp only [take, List.length_append, List.length_cons, List.length_nil]
        omega
      · simp only [take, List.length_cons]
        omega
    · obtain ⟨device, e | ⟨⟩⟩ := p
      · simp [take]
      · simp [take]

theorem start_entries (tokens : List Device) :
    (Buffered.start tokens : SendBuffer).entries (fun d t => if asked t then [d] else [])
      (fun d r => if SendTask.reached r then [d] else []) = [] := rfl

/-- What every run keeps, whatever others do to the service. -/
theorem posts_perm {tokens : List Device} {x : FcmState × SendBuffer} (h : Reached tokens x) :
    x.1.posts.Perm (x.2.entries (fun d t => if asked t then [d] else [])
      (fun d r => if SendTask.reached r then [d] else [])) := by
  obtain ⟨s, hs, hsteps⟩ := h
  refine Buffered.ledger_of_steps FcmState.posts (fun _ => rfl)
    (fun _ _ _ _ _ => go_used) (fun a t r hr => ?_) (fun _ _ henv => henv.2.1) hsteps ?_
  · cases t <;> cases hr
    rfl
  · rw [hs, start_entries]

theorem flatMap_asked {γ : Type} (p : γ → Bool) (l : List (Device × γ)) :
    (l.flatMap fun q => if p q.2 then [q.1] else []) = (l.filter fun q => p q.2).map Prod.fst := by
  induction l with
  | nil => rfl
  | cons q l ih =>
    rw [List.flatMap_cons, ih, List.filter_cons]
    cases p q.2 <;> rfl

/-- Whatever order the calls take their steps in, and whatever others do in between. -/
theorem multicast_accounted (tokens : List Device) (x : FcmState × SendBuffer)
    (h : Reached tokens x) : Accounted tokens x := by
  have hposts := posts_perm h
  simp only [Buffered.entries, flatMap_asked] at hposts
  obtain ⟨s, -, hsteps⟩ := h
  have hinputs := Buffered.perm_of_steps hsteps
  rw [Buffered.inputs_start] at hinputs
  refine ⟨Buffered.le_bound_of_steps hsteps (Nat.zero_le _), ?_, fun hfinished => ?_⟩
  · refine hposts.subperm.trans (List.Subperm.trans ?_ hinputs.subperm)
    refine List.Sublist.subperm ?_
    refine List.Sublist.trans ?_ (List.sublist_append_right _ _)
    exact (List.filter_sublist.map _).append (List.filter_sublist.map _)
  · have hperm := Buffered.yielded_perm hsteps hfinished
    obtain ⟨hcount, hfailed⟩ := result_of_yielded x.2.yielded ⟨[], 0⟩
    refine ⟨hperm, ?_, ?_, ?_⟩
    · rw [← hperm.length_eq, List.length_map]
      exact hcount.trans (by simp)
    · exact hfailed.trans (List.nil_append _)
    · simpa only [hfinished.2, List.filter_nil, List.map_nil, List.nil_append] using hposts

def phone : Device := (⟨1⟩, "phone")

def tablet : Device := (⟨2⟩, "tablet")

/-- There is a token in the cache, which is good until the given time. -/
def cachedUntil (expiresAt : Instant) : SharedPush where
  service := { tokenCache := some ⟨"token", expiresAt⟩, breaker := .new 3 60 }
  locked := false

/-- The phone has got its message, and FCM does not know the tablet. -/
theorem multicast_accounted_two : Accounted [phone, tablet]
    (⟨0, cachedUntil (secs 61), [phone, tablet]⟩,
      ⟨[], [], [(tablet, .error .tokenInvalid), (phone, .ok ())]⟩) := by
  refine multicast_accounted _ _ ⟨⟨0, cachedUntil (secs 61), []⟩, rfl, ?_⟩
  refine .head (.pull (q := [tablet]) (by decide)) ?_
  refine .head (.pull (q := []) (by decide)) ?_
  refine .head (.go (y := ⟨0, _, []⟩) (l := []) ⟨.check, rfl, rfl, rfl⟩) ?_
  refine .head (.go (y := ⟨0, _, []⟩) (l := [_]) ⟨.check, rfl, rfl, rfl⟩) ?_
  refine .head (.go (y := ⟨0, _, [phone]⟩) (l := []) ⟨.lock, rfl, rfl, rfl⟩) ?_
  refine .head (.go (y := ⟨0, _, [phone, tablet]⟩) (l := [_]) ⟨.lock, rfl, rfl, rfl⟩) ?_
  refine .head (.go (y := ⟨0, _, [phone, tablet]⟩) (l := [_])
    ⟨.answered (.ok 404), rfl, rfl, rfl⟩) ?_
  refine .head (.go (y := ⟨0, _, [phone, tablet]⟩) (l := [])
    ⟨.answered (.ok 200), rfl, rfl, rfl⟩) ?_
  refine .head (.yield (l := [_]) rfl) ?_
  exact .head (.yield (l := []) rfl) .refl

/-! ## An open circuit -/

/-- The circuit is open, and the last failure was at `t` or later. -/
structure OpenSince (t : Instant) (d : Nat) (b : CircuitBreaker) : Prop where
  opened : b.state = .opened
  duration : b.openDuration = d
  failed : ∃ u, b.lastFailureAt = some u ∧ t ≤ u

section OpenCircuit

variable {t now : Instant} {d : Nat} {breaker : CircuitBreaker}

theorem OpenSince.check (h : OpenSince t d breaker) (hfrom : t ≤ now) (hto : now < t + d) :
    breaker.check now = (breaker, .error CircuitBreaker.failingFast) := by
  obtain ⟨u, hu, htu⟩ := h.failed
  have helapsed : u.elapsed now < breaker.openDuration := by
    have hlt : ∀ a b c : Nat, a ≤ b → a ≤ c → b < a + d → b - c < d := by omega
    rw [h.duration]
    exact hlt t now u hfrom htu hto
  obtain ⟨-, hstate⟩ | ⟨-, -, t', ht', hle⟩ | ⟨hcheck, -, -⟩ := breaker.check_cases now
  · exact absurd h.opened hstate
  · obtain rfl := Option.some.inj (hu.symm.trans ht')
    exact absurd helapsed hle
  · exact hcheck

theorem OpenSince.onSuccess (h : OpenSince t d breaker) : OpenSince t d breaker.onSuccess := by
  obtain ⟨hsame, -⟩ | ⟨-, hstate, -⟩ | ⟨-, hstate, -⟩ := breaker.onSuccess_cases
  · rw [hsame]
    exact ⟨h.opened, h.duration, h.failed⟩
  · exact absurd (h.opened.symm.trans hstate) nofun
  · exact absurd (h.opened.symm.trans hstate) nofun

theorem OpenSince.onFailure (h : OpenSince t d breaker) (hfrom : t ≤ now) :
    OpenSince t d (breaker.onFailure now) := by
  obtain ⟨hsame, -⟩ | ⟨hsame, -, -⟩ := breaker.onFailure_cases now
  · rw [hsame]
    exact ⟨rfl, h.duration, now, rfl, hfrom⟩
  · rw [hsame]
    exact ⟨h.opened, h.duration, now, rfl, hfrom⟩

theorem OpenSince.run {calls : List CircuitBreaker.Event} (h : OpenSince t d breaker)
    (hcalls : ∀ call ∈ calls, t ≤ call.now ∧ call.now < t + d) :
    OpenSince t d (breaker.run calls) := by
  refine foldl_keeps (fun b call hb hcall => ?_) h hcalls
  cases hkind : call.call with
  | check =>
    rw [CircuitBreaker.step, hkind, hb.check hcall.1 hcall.2]
    exact hb
  | onSuccess =>
    rw [CircuitBreaker.step, hkind]
    exact hb.onSuccess
  | onFailure =>
    rw [CircuitBreaker.step, hkind]
    exact hb.onFailure hcall.1

/-- A call that the breaker has let through, and that has not come to its request. -/
def admitted : SendTask → Bool
  | .locking => true
  | .fetching _ => true
  | _ => false

/-- While the circuit is open, a request is that of a call that was let through before. -/
theorem go_open {device : Device} {task task' : SendTask} {s s' : FcmState}
    (h : Go device task s task' s') (hopen : OpenSince t d s.shared.service.breaker)
    (hfrom : t ≤ s.clock) (hto : s.clock < t + d) :
    OpenSince t d s'.shared.service.breaker ∧ s.posts <+: s'.posts ∧
      s'.posts.length + (if admitted task' then 1 else 0) ≤
        s.posts.length + (if admitted task then 1 else 0) := by
  obtain ⟨e, hstep, -, hposts⟩ := h
  have hends := ends_of_step hstep
  rw [hposts]
  generalize s'.shared = shared' at hends
  cases hends with
  | passes checked =>
    rw [hopen.check hfrom hto] at checked
    cases checked
  | stops checked =>
    rw [hopen.check hfrom hto] at checked
    cases checked
    exact ⟨hopen, by simp [SendTask.used], by simp [SendTask.used, admitted]⟩
  | reuses free good => exact ⟨hopen, by simp, by simp [SendTask.used, admitted]⟩
  | asks free none => exact ⟨hopen, by simp, by simp [SendTask.used, admitted]⟩
  | fails => exact ⟨hopen, by simp, by simp [SendTask.used, admitted]⟩
  | gets => exact ⟨hopen, by simp, by simp [SendTask.used, admitted]⟩
  | answers hasked reported =>
    refine ⟨?_, by simp, by simp [SendTask.used, admitted]⟩
    obtain rfl | rfl | rfl := reported
    · exact hopen
    · exact hopen.onSuccess
    · exact hopen.onFailure hfrom
  | stays nothing =>
    have hnone : SendTask.used s.clock task task = [] := by cases task <;> rfl
    rw [hnone]
    exact ⟨hopen, by simp, by simp⟩

def countAdmitted (b : SendBuffer) : Nat := b.running.countP fun p => admitted p.2

/-- A run after the circuit has opened, up to the next probe. -/
theorem steps_open {x y : FcmState × SendBuffer} (h : Steps x y)
    (hopen : OpenSince t d x.1.shared.service.breaker) (hfrom : t ≤ x.1.clock)
    (hto : y.1.clock < t + d) :
    OpenSince t d y.1.shared.service.breaker ∧ t ≤ y.1.clock ∧ x.1.posts <+: y.1.posts ∧
      y.1.posts.length + countAdmitted y.2 ≤ x.1.posts.length + countAdmitted x.2 := by
  induction h with
  | refl => exact ⟨hopen, hfrom, List.prefix_rfl, Nat.le_refl _⟩
  | tail _ hs ih =>
    cases hs with
    | pull room =>
      obtain ⟨hopen', hfrom', hprefix, hcount⟩ := ih hto
      refine ⟨hopen', hfrom', hprefix, ?_⟩
      simpa [countAdmitted, admitted] using hcount
    | @go s s' a task task' pending before after yielded goes =>
      have hclock : s'.clock = s.clock := goes.choose_spec.2.1
      rw [hclock] at hto ⊢
      obtain ⟨hopen', hfrom', hprefix, hcount⟩ := ih hto
      obtain ⟨hopen'', hprefix', hless⟩ := go_open goes hopen' hfrom' hto
      refine ⟨hopen'', hfrom', hprefix.trans hprefix', ?_⟩
      simp only [countAdmitted, List.countP_append, List.countP_cons] at hcount ⊢
      omega
    | yield ends =>
      obtain ⟨hopen', hfrom', hprefix, hcount⟩ := ih hto
      refine ⟨hopen', hfrom', hprefix, ?_⟩
      simp only [countAdmitted, List.countP_append, List.countP_cons] at hcount ⊢
      omega
    | env changes =>
      obtain ⟨hlater, hposts, calls, hcalls, hbreaker⟩ := changes
      obtain ⟨hopen', hfrom', hprefix, hcount⟩ := ih (Nat.lt_of_le_of_lt hlater hto)
      refine ⟨?_, Nat.le_trans hfrom' hlater, hposts ▸ hprefix, hposts ▸ hcount⟩
      rw [hbreaker]
      refine hopen'.run fun call hcall => ?_
      obtain ⟨hlow, hhigh⟩ := hcalls call hcall
      exact ⟨Nat.le_trans hfrom' hlow, Nat.lt_of_le_of_lt hhigh hto⟩

/-- However many devices there still are, only the calls that are in the buffer when the circuit
opens can reach FCM before the next probe. -/
theorem open_circuit_cuts_off (tokens : List Device) (x y : FcmState × SendBuffer)
    (hx : Reached tokens x) (hopen : OpenSince t d x.1.shared.service.breaker)
    (hfrom : t ≤ x.1.clock) (h : Steps x y) (hto : y.1.clock < t + d) :
    ∃ posts, y.1.posts = x.1.posts ++ posts ∧ posts.length ≤ countAdmitted x.2 ∧
      countAdmitted x.2 ≤ maxParallelSends := by
  obtain ⟨-, -, ⟨posts, hposts⟩, hcount⟩ := steps_open h hopen hfrom hto
  refine ⟨posts, hposts.symm, ?_, ?_⟩
  · rw [← hposts, List.length_append] at hcount
    omega
  · exact Nat.le_trans List.countP_le_length (multicast_accounted tokens x hx).bounded

/-- The phone's call was let through before three failures of others, the tablet's comes after. -/
theorem open_circuit_cuts_off_tablet :
    ∃ posts, [phone] = [] ++ posts ∧ posts.length ≤ 1 ∧ 1 ≤ maxParallelSends := by
  let failure : CircuitBreaker.Event := ⟨.onFailure, 0⟩
  let broken : SharedPush := { cachedUntil (secs 61) with
    service := { (cachedUntil (secs 61)).service with
      breaker := (CircuitBreaker.new 3 60).run [failure, failure, failure] } }
  have hopen : OpenSince 0 (secs 60) broken.service.breaker := ⟨rfl, rfl, 0, rfl, Nat.le_refl 0⟩
  have hminute : 0 < 0 + secs 60 := by simp [secs]
  have hcheck : broken.service.breaker.check 0 = _ := hopen.check (Nat.le_refl 0) hminute
  have hlock : SendTask.step 0 broken .locking .lock = (.posting "token", broken) := by
    simp [SendTask.step, SendTask.lock, SendTask.goodToken, broken, cachedUntil, secs,
      Option.filter]
  refine open_circuit_cuts_off (t := 0) (d := secs 60) [phone, tablet]
    (⟨0, broken, []⟩, ⟨[tablet], [(phone, .locking)], []⟩)
    (⟨0, broken, [phone]⟩, ⟨[], [(phone, .posting "token")], [(tablet, .error .circuitOpen)]⟩)
    ⟨⟨0, cachedUntil (secs 61), []⟩, rfl, ?_⟩ hopen (Nat.le_refl 0) ?_ hminute
  · refine .head (.pull (q := [tablet]) (by decide)) ?_
    refine .head (.go (y := ⟨0, _, []⟩) (l := []) ⟨.check, rfl, rfl, rfl⟩) ?_
    refine .head (.env (y := ⟨0, broken, []⟩)
      ⟨Nat.le_refl 0, rfl, [failure, failure, failure], ?_, rfl⟩) .refl
    simp [failure]
  · refine .head (.go (y := ⟨0, broken, [phone]⟩) (l := []) ⟨.lock, hlock.symm, rfl, rfl⟩) ?_
    refine .head (.pull (q := []) (by decide)) ?_
    refine .head (.go (y := ⟨0, broken, [phone]⟩) (u := .ended (.error .circuitOpen))
      (l := [_]) ⟨.check, ?_, rfl, rfl⟩) ?_
    · rw [SendTask.step, SendTask.check, hcheck]
    · exact .head (.yield (l := [_]) rfl) .refl

end OpenCircuit

end SendBuffer

end Meno
