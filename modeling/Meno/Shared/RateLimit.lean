import Mathlib.Data.List.Induction
import Meno.Lib.Expiring
import Meno.Lib.Fields

/-!
# Meno.Shared.RateLimit

The rate limiter. A request is counted in Redis by a script, which answers with the quota that is
left, the request included; the middleware passes the request on only if something is left. So the
request that the quota ends with is refused (`admits_within_iff`).
-/

namespace Meno.RateLimit

open Lib

/-! ## Requests -/

/-- The headers that identify who sends a request, if they are there and can be read. -/
structure Request where
  authorization : Option String
  forwardedFor : Option String

/-- The last 16 characters of a bearer token. -/
def Request.bearerTail (req : Request) : Option String := do
  let auth ← req.authorization
  let token ← Text.stripPrefix "Bearer ".toList auth.toList
  if 16 ≤ token.length then some (String.ofList (token.drop (token.length - 16))) else none

def extractIdentifier (req : Request) : String :=
  match req.bearerTail with
  | some tail => tail
  | none =>
    match req.forwardedFor with
    | some ip => Text.trim (String.ofList (ip.toList.takeWhile (· ≠ ',')))
    | none => "unknown"

structure RateLimitConfig where
  limit : Nat
  windowSecs : Nat

/-! ## The script -/

/-- `math.floor(prev_count * weight)` in the numbers of Lua, for a count, the time that has passed in
the window and the length of the window. -/
structure Weighing where
  floor : Nat → Nat → Nat → Nat
  floor_zero : ∀ t windowMs, floor 0 t windowMs = 0

/-- The weighing without rounding. -/
def Weighing.exact : Weighing where
  floor count t windowMs := count * (windowMs - t) / windowMs
  floor_zero t windowMs := by simp

/-- The counters in Redis, with the times, in milliseconds, at which they expire. -/
abbrev Counters := Expiring (List Char) Nat Nat

/-- The answer is the quota that is left and the count. -/
def script (w : Weighing) (currentKey previousKey : List Char) (tokens windowSecs now limit : Nat)
    (db : Counters) : (Nat × Nat) × Counters :=
  let currentCount := (db.find now currentKey).getD 0 + tokens
  let db := db.set currentKey (some ⟨currentCount, some (now + windowSecs * 2 * 1000)⟩)
  let prevCount := (db.find now previousKey).getD 0
  let windowMs := windowSecs * 1000
  let timeInWindow := now % windowMs
  let estimated := currentCount + w.floor prevCount timeInWindow windowMs
  if estimated > limit then ((0, currentCount), db) else ((limit - estimated, currentCount), db)

/-- `format!("{}:{}", base_key, window)` -/
def windowKey (baseKey : List Char) (window : Nat) : List Char :=
  baseKey ++ ':' :: Nat.toDigits 10 window

def checkRateLimit (w : Weighing) (config : RateLimitConfig) (baseKey : List Char) (now : Nat)
    (db : Counters) : Nat × Counters :=
  let windowMs := config.windowSecs * 1000
  let currentWindow := now / windowMs
  let prevWindow := currentWindow - 1
  let (result, db) := script w (windowKey baseKey currentWindow) (windowKey baseKey prevWindow) 1
    config.windowSecs now config.limit db
  (result.1, db)

/-! ## The middleware -/

inductive Outcome where
  /-- The request goes to its handler, and these headers go into the response. -/
  | passed (headers : List (String × String))
  | refused (status : Nat) (headers : List (String × String)) (body : String)
deriving DecidableEq

def Outcome.isPassed : Outcome → Bool
  | .passed _ => true
  | .refused _ _ _ => false

/-- What the middleware does with the answer of `check_rate_limit`. -/
def answer {ε : Type} (config : RateLimitConfig) : Except ε Nat → Outcome
  | .ok remaining =>
    if remaining > 0 then
      .passed
        [("X-RateLimit-Remaining", toString remaining), ("X-RateLimit-Limit", toString config.limit)]
    else
      .refused 429
        [("Retry-After", toString config.windowSecs), ("X-RateLimit-Limit", toString config.limit),
          ("X-RateLimit-Remaining", "0"), ("Content-Type", "application/json")]
        "\x7b\"data\":null,\"meta\":null,\"error\":\x7b\"message\":\"Too many requests.\"\x7d\x7d"
  | .error _ => .passed []

/-- A request and its time, in milliseconds since 1970. -/
structure Hit where
  req : Request
  now : Nat

def Hit.identifier (hit : Hit) : String := extractIdentifier hit.req

def baseKey (identifier : String) : List Char := "RT".toList ++ ':' :: identifier.toList

/-- The middleware, when Redis answers. -/
def rateLimitMiddleware (w : Weighing) (config : RateLimitConfig) (hit : Hit) (db : Counters) :
    Outcome × Counters :=
  let (remaining, db) := checkRateLimit w config (baseKey hit.identifier) hit.now db
  (answer (ε := Empty) config (.ok remaining), db)

/-! ## Runs -/

section Runs

variable (w : Weighing) (config : RateLimitConfig)

/-- The requests of a trace, one after the other, and what becomes of them. -/
def outcomes (db : Counters) : List Hit → List (Hit × Outcome)
  | [] => []
  | hit :: rest =>
    let result := rateLimitMiddleware w config hit db
    (hit, result.1) :: outcomes result.2 rest

/-- The counters after some requests. -/
def countersAfter (past : List Hit) : Counters :=
  past.foldl (fun db hit => (rateLimitMiddleware w config hit db).2) Expiring.empty

/-- The request is passed on, when it comes after these. -/
def Passed (past : List Hit) (hit : Hit) : Prop :=
  (rateLimitMiddleware w config hit (countersAfter w config past)).1.isPassed = true

instance (past : List Hit) (hit : Hit) : Decidable (Passed w config past hit) :=
  inferInstanceAs (Decidable (_ = true))

/-! ## What the limiter is for -/

/-- The window of a time. -/
def windowOf (now : Nat) : Nat := now / (config.windowSecs * 1000)

/-- How many requests of an identifier there are in a window. -/
def count (hits : List Hit) (identifier : String) (window : Nat) : Nat :=
  hits.countP fun hit => hit.identifier = identifier ∧ windowOf config hit.now = window

/-- How many there are in the window before. -/
def countBefore (hits : List Hit) (identifier : String) : Nat → Nat
  | 0 => 0
  | window + 1 => count config hits identifier window

/-- The requests in the window of a request, with the request itself, and those of the window before
with the weight that this has. -/
def estimate (past : List Hit) (hit : Hit) : Nat :=
  let window := windowOf config hit.now
  let windowMs := config.windowSecs * 1000
  count config past hit.identifier window + 1 +
    w.floor (countBefore config past hit.identifier window) (hit.now % windowMs) windowMs

/-- How many requests of an identifier in a window were passed on. -/
def admitted (hits : List Hit) (identifier : String) (window : Nat) : Nat :=
  (outcomes w config Expiring.empty hits).countP fun answered =>
    answered.1.identifier = identifier ∧ windowOf config answered.1.now = window ∧
      answered.2.isPassed = true

/-- A request is passed on exactly if the estimate with it is within the limit, and of the requests
in a window after an empty one as many as the limit allows. -/
structure AdmitsWithin (hits : List Hit) : Prop where
  estimated : ∀ past hit rest, hits = past ++ hit :: rest →
    (Passed w config past hit ↔ estimate w config past hit ≤ config.limit)
  alone : ∀ identifier window, countBefore config hits identifier window = 0 →
    admitted w config hits identifier window =
      min (count config hits identifier window) config.limit

end Runs

/-! ## Keys -/

theorem toDigits_inj {m n : Nat} (h : Nat.toDigits 10 m = Nat.toDigits 10 n) : m = n := by
  have hparse := congrArg Text.parseNat h
  rw [Text.parseNat_toDigits, Text.parseNat_toDigits] at hparse
  exact Option.some.inj hparse

/-- The counters of different identifiers or windows are different ones. -/
theorem windowKey_inj {identifier identifier' : String} {k k' : Nat}
    (h : windowKey (baseKey identifier) k = windowKey (baseKey identifier') k') :
    identifier = identifier' ∧ k = k' := by
  have hcolon : ∀ n : Nat, ':' ∉ Nat.toDigits 10 n := fun n hmem =>
    absurd (Nat.isDigit_of_mem_toDigits (by decide) (by decide) hmem) (by decide)
  obtain ⟨hbase, hdigits⟩ := Text.last_sep_inj (hcolon k) (hcolon k') h
  have hlist := List.append_cancel_left hbase
  exact ⟨String.toList_inj.1 (List.cons.inj hlist).2, toDigits_inj hdigits⟩

/-! ## The counters -/

section Counting

variable {w : Weighing} {config : RateLimitConfig}

/-- The counter of a window counts its requests, and is there until the next window is over. -/
def Counted (config : RateLimitConfig) (hits : List Hit) (db : Counters) : Prop :=
  ∀ identifier k, (db (windowKey (baseKey identifier) k) = none ∧
      count config hits identifier k = 0) ∨
    ∃ deadline, db (windowKey (baseKey identifier) k) =
        some ⟨count config hits identifier k, some deadline⟩ ∧
      (k + 2) * (config.windowSecs * 1000) ≤ deadline

/-- What the script reads in a window and in the one after it. -/
theorem Counted.find {hits : List Hit} {db : Counters} (h : Counted config hits db)
    (identifier : String) {k now : Nat} (hnow : now < (k + 2) * (config.windowSecs * 1000)) :
    (db.find now (windowKey (baseKey identifier) k)).getD 0 = count config hits identifier k := by
  rcases h identifier k with ⟨hnone, hzero⟩ | ⟨deadline, hsome, hle⟩
  · have hfind : db.find now (windowKey (baseKey identifier) k) = none := by
      simp [Expiring.find, Expiring.entry, hnone]
    rw [hfind, hzero]
    rfl
  · have halive : Expiring.Alive
        (⟨count config hits identifier k, some deadline⟩ : Entry Nat Nat) now := by
      intro t ht
      cases ht
      omega
    rw [Expiring.find_of_alive hsome halive]
    rfl

theorem count_snoc (hits : List Hit) (hit : Hit) (identifier : String) (k : Nat) :
    count config (hits ++ [hit]) identifier k = count config hits identifier k +
      if hit.identifier = identifier ∧ windowOf config hit.now = k then 1 else 0 := by
  rw [count, List.countP_append, List.countP_singleton]
  simp only [decide_eq_true_eq]
  rfl

/-- What the script does to the counters. -/
theorem middleware_counters (hit : Hit) (db : Counters) :
    (rateLimitMiddleware w config hit db).2 =
      db.set (windowKey (baseKey hit.identifier) (windowOf config hit.now))
        (some ⟨(db.find hit.now
          (windowKey (baseKey hit.identifier) (windowOf config hit.now))).getD 0 + 1,
          some (hit.now + config.windowSecs * 2 * 1000)⟩) := by
  simp only [rateLimitMiddleware, checkRateLimit, script]
  split <;> rfl

variable (hw : 1 ≤ config.windowSecs)

include hw

/-- A time lies in its window. -/
theorem windowOf_bounds (now : Nat) :
    windowOf config now * (config.windowSecs * 1000) ≤ now ∧
      now < (windowOf config now + 1) * (config.windowSecs * 1000) := by
  have hpos : 0 < config.windowSecs * 1000 := by omega
  refine ⟨Nat.div_mul_le_self _ _, ?_⟩
  rw [Nat.mul_comm]
  exact Nat.lt_mul_div_succ now hpos

theorem lt_two_windows (now : Nat) :
    now < (windowOf config now + 2) * (config.windowSecs * 1000) := by
  have hlt := (windowOf_bounds hw now).2
  exact Nat.lt_of_lt_of_le hlt (Nat.mul_le_mul_right _ (Nat.le_succ _))

theorem Counted.step {hits : List Hit} {db : Counters} (h : Counted config hits db) (hit : Hit) :
    Counted config (hits ++ [hit]) (rateLimitMiddleware w config hit db).2 := by
  intro identifier k
  rw [middleware_counters, h.find hit.identifier (lt_two_windows hw hit.now), count_snoc, Expiring.set_apply]
  by_cases hhit : hit.identifier = identifier ∧ windowOf config hit.now = k
  · obtain ⟨rfl, rfl⟩ := hhit
    rw [if_pos rfl, if_pos ⟨rfl, rfl⟩]
    refine .inr ⟨_, rfl, ?_⟩
    have hbegun := (windowOf_bounds hw hit.now).1
    rw [Nat.add_mul]
    omega
  · have hkey : windowKey (baseKey identifier) k ≠
        windowKey (baseKey hit.identifier) (windowOf config hit.now) := by
      intro heq
      obtain ⟨hid, hk⟩ := windowKey_inj heq
      exact hhit ⟨hid.symm, hk.symm⟩
    rw [if_neg hkey, if_neg hhit]
    exact h identifier k

theorem counted_after (hits : List Hit) : Counted config hits (countersAfter w config hits) := by
  induction hits using List.reverseRecOn with
  | nil => exact fun _ _ => .inl ⟨rfl, rfl⟩
  | append_singleton hits hit ih =>
    rw [countersAfter, List.foldl_append]
    exact ih.step hw hit

/-! ## Admission -/

omit hw in
/-- The middleware passes a request on if the script's estimate is below the limit. -/
theorem passed_iff {past : List Hit} {hit : Hit} {current previous : Nat}
    (hcurrent : ((countersAfter w config past).find hit.now
      (windowKey (baseKey hit.identifier) (windowOf config hit.now))).getD 0 + 1 = current)
    (hprevious : ((rateLimitMiddleware w config hit (countersAfter w config past)).2.find hit.now
      (windowKey (baseKey hit.identifier) (windowOf config hit.now - 1))).getD 0 = previous) :
    Passed w config past hit ↔
      current + w.floor previous (hit.now % (config.windowSecs * 1000)) (config.windowSecs * 1000) <
        config.limit := by
  rw [middleware_counters, hcurrent] at hprevious
  have hanswer : ∀ remaining : Nat,
      (answer (ε := Empty) config (.ok remaining)).isPassed = true ↔ 0 < remaining := by
    intro remaining
    rw [answer]
    split
    · exact iff_of_true rfl ‹_›
    · exact iff_of_false Bool.false_ne_true ‹_›
  rw [windowOf] at hcurrent hprevious
  simp only [Passed, rateLimitMiddleware, checkRateLimit, script, hanswer, hcurrent, hprevious]
  split
  · dsimp only
    omega
  · dsimp only
    omega

/-- In the first window the script counts the requests twice. -/
theorem passed_first {past : List Hit} {hit : Hit} (h : windowOf config hit.now = 0) :
    Passed w config past hit ↔
      estimate w config past hit + w.floor (count config past hit.identifier 0 + 1)
        (hit.now % (config.windowSecs * 1000)) (config.windowSecs * 1000) < config.limit := by
  have hcounted := counted_after (w := w) hw past
  have hwindow := lt_two_windows hw hit.now
  have hcurrent := hcounted.find hit.identifier hwindow
  have hprevious := (hcounted.step (w := w) hw hit).find hit.identifier hwindow
  rw [count_snoc, if_pos ⟨rfl, rfl⟩] at hprevious
  rw [h] at hcurrent hprevious
  have hestimate : estimate w config past hit = count config past hit.identifier 0 + 1 := by
    rw [estimate, h, countBefore, w.floor_zero, Nat.add_zero]
  rw [hestimate]
  exact passed_iff (by rw [h, hcurrent]) (by rw [h, hprevious])

theorem passed_later {past : List Hit} {hit : Hit} (h : windowOf config hit.now ≠ 0) :
    Passed w config past hit ↔ estimate w config past hit < config.limit := by
  have hcounted := counted_after (w := w) hw past
  have hwindow := lt_two_windows hw hit.now
  obtain ⟨k, hk⟩ := Nat.exists_eq_succ_of_ne_zero h
  have hafter : hit.now < (k + 2) * (config.windowSecs * 1000) := by
    have hlt := (windowOf_bounds hw hit.now).2
    rwa [hk] at hlt
  have hcurrent := hcounted.find hit.identifier hwindow
  have hprevious := (hcounted.step (w := w) hw hit).find hit.identifier hafter
  have hother : ¬(hit.identifier = hit.identifier ∧ windowOf config hit.now = k) := by
    rintro ⟨-, heq⟩
    omega
  rw [count_snoc, if_neg hother, Nat.add_zero] at hprevious
  rw [estimate, hk]
  rw [hk] at hcurrent
  exact passed_iff (by rw [hk, hcurrent]) (by rw [hk]; exact hprevious)

/-! ## The whole trace -/

section Whole

variable (w : Weighing) (config : RateLimitConfig)

/-- The estimate is not just the limit. In the first window, whose requests the script counts as those
of the window before too, it is above the limit, or below it with these. -/
def Decided (past : List Hit) (hit : Hit) : Prop :=
  if windowOf config hit.now = 0 then
    config.limit < estimate w config past hit ∨
      estimate w config past hit + w.floor (count config past hit.identifier 0 + 1)
        (hit.now % (config.windowSecs * 1000)) (config.windowSecs * 1000) < config.limit
  else estimate w config past hit ≠ config.limit

instance (past : List Hit) (hit : Hit) : Decidable (Decided w config past hit) := by
  unfold Decided
  infer_instance

end Whole

theorem estimated_iff {past : List Hit} {hit : Hit} :
    (Passed w config past hit ↔ estimate w config past hit ≤ config.limit) ↔
      Decided w config past hit := by
  rw [Decided]
  split
  · rename_i h
    rw [passed_first hw h]
    omega
  · rename_i h
    rw [passed_later hw h]
    omega

omit hw in
theorem outcomes_snoc (db : Counters) (hits : List Hit) (hit : Hit) :
    outcomes w config db (hits ++ [hit]) = outcomes w config db hits ++
      [(hit, (rateLimitMiddleware w config hit
        (hits.foldl (fun db hit => (rateLimitMiddleware w config hit db).2) db)).1)] := by
  induction hits generalizing db with
  | nil => rfl
  | cons first hits ih =>
    simp only [List.cons_append, outcomes, ih, List.foldl_cons]

omit hw in
theorem admitted_snoc (hits : List Hit) (hit : Hit) (identifier : String) (k : Nat) :
    admitted w config (hits ++ [hit]) identifier k = admitted w config hits identifier k +
      if hit.identifier = identifier ∧ windowOf config hit.now = k ∧ Passed w config hits hit
      then 1 else 0 := by
  rw [admitted, outcomes_snoc, List.countP_append, List.countP_singleton]
  simp only [decide_eq_true_eq]
  rfl

omit hw in
theorem countBefore_snoc_zero {hits : List Hit} {hit : Hit} {identifier : String} {k : Nat}
    (h : countBefore config (hits ++ [hit]) identifier k = 0) :
    countBefore config hits identifier k = 0 := by
  cases k with
  | zero => rfl
  | succ k =>
    rw [countBefore, count_snoc] at h
    rw [countBefore]
    omega

omit hw in
/-- In a window after an empty one the estimate is the number of requests. -/
theorem estimate_alone {hits : List Hit} {hit : Hit}
    (h : countBefore config hits hit.identifier (windowOf config hit.now) = 0) :
    estimate w config hits hit =
      count config hits hit.identifier (windowOf config hit.now) + 1 := by
  rw [estimate, h, w.floor_zero, Nat.add_zero]

omit hw in
/-- How many requests are passed on, if those are whose number is at most `bound`. -/
theorem admitted_alone {bound : Nat} {hits : List Hit} {identifier : String} {k : Nat}
    (hpassed : ∀ past hit rest, hits = past ++ hit :: rest → windowOf config hit.now = k →
      (Passed w config past hit ↔ estimate w config past hit ≤ bound))
    (h : countBefore config hits identifier k = 0) :
    admitted w config hits identifier k = min (count config hits identifier k) bound := by
  induction hits using List.reverseRecOn with
  | nil => simp [admitted, outcomes, count]
  | append_singleton hits hit ih =>
    have hbefore := countBefore_snoc_zero h
    have ih := ih (fun past first rest heq =>
      hpassed past first (rest ++ [hit]) (by rw [heq]; simp)) hbefore
    rw [admitted_snoc, ih]
    by_cases hhit : hit.identifier = identifier ∧ windowOf config hit.now = k
    · obtain ⟨rfl, rfl⟩ := hhit
      have hlast := hpassed hits hit [] rfl rfl
      have hcount : count config (hits ++ [hit]) hit.identifier (windowOf config hit.now) =
          count config hits hit.identifier (windowOf config hit.now) + 1 := by
        rw [count_snoc, if_pos ⟨rfl, rfl⟩]
      rw [estimate_alone hbefore] at hlast
      rw [hcount]
      by_cases hle : count config hits hit.identifier (windowOf config hit.now) + 1 ≤ bound
      · rw [if_pos ⟨rfl, rfl, hlast.2 hle⟩]
        omega
      · rw [if_neg fun hall => hle (hlast.1 hall.2.2)]
        omega
    · rw [if_neg fun hall => hhit ⟨hall.1, hall.2.1⟩, count_snoc, if_neg hhit, Nat.add_zero,
        Nat.add_zero]

/-- What a window after an empty one lets pass: one request less than the limit. -/
theorem admitted_below {hits : List Hit} {identifier : String} {k : Nat}
    (h : countBefore config hits identifier (k + 1) = 0) :
    admitted w config hits identifier (k + 1) =
      min (count config hits identifier (k + 1)) (config.limit - 1) := by
  have hpassed : ∀ past hit rest, hits = past ++ hit :: rest → windowOf config hit.now = k + 1 →
      (Passed w config past hit ↔ estimate w config past hit ≤ config.limit - 1) := by
    intro past hit rest _ hk
    have hpos : 1 ≤ estimate w config past hit := by
      rw [estimate]
      omega
    rw [passed_later hw (by omega)]
    omega
  exact admitted_alone hpassed h

end Counting

/-- **Admission.** Every request is passed on exactly if the estimate with it is within the limit,
and the windows after empty ones let as many requests pass as they may, if and only if no request
comes whose estimate is just the limit (and none in the first window that counts twice). -/
theorem admits_within_iff (w : Weighing) (config : RateLimitConfig) (hw : 1 ≤ config.windowSecs)
    (hits : List Hit) :
    AdmitsWithin w config hits ↔
      ∀ past hit rest, hits = past ++ hit :: rest → Decided w config past hit := by
  constructor
  · intro h past hit rest heq
    exact (estimated_iff hw).1 (h.estimated past hit rest heq)
  · intro h
    have hall : ∀ past hit rest, hits = past ++ hit :: rest →
        (Passed w config past hit ↔ estimate w config past hit ≤ config.limit) :=
      fun past hit rest heq => (estimated_iff hw).2 (h past hit rest heq)
    exact ⟨hall, fun identifier k hk =>
      admitted_alone (fun past hit rest heq _ => hall past hit rest heq) hk⟩

/-- A request of nobody in particular, at a time. -/
def Hit.unknown (now : Nat) : Hit where
  req := { authorization := none, forwardedFor := none }
  now := now

/-- Of two requests in one second a limit of three lets both pass. -/
theorem two_of_three_admitted :
    AdmitsWithin Weighing.exact { limit := 3, windowSecs := 1 }
      [Hit.unknown 1000000, Hit.unknown 1000500] := by
  refine (admits_within_iff _ _ (by decide) _).2 fun past hit rest heq => ?_
  cases past with
  | nil =>
    cases heq
    decide
  | cons first past =>
    obtain ⟨rfl, heq⟩ := List.cons.inj heq
    cases past with
    | nil =>
      cases heq
      decide
    | cons second past => simp at heq

/-- A limit of one lets nothing pass. -/
theorem limit_refused :
    ¬ ∀ (w : Weighing) (config : RateLimitConfig), 1 ≤ config.windowSecs →
      ∀ hits : List Hit, AdmitsWithin w config hits := by
  intro h
  have hadmits := h Weighing.exact { limit := 1, windowSecs := 1 } (by decide)
    [Hit.unknown 1000000]
  have hpassed := (hadmits.estimated [] (Hit.unknown 1000000) [] rfl).2 (by decide)
  rw [passed_later (by decide) (by decide)] at hpassed
  exact absurd hpassed (by decide)

end Meno.RateLimit
