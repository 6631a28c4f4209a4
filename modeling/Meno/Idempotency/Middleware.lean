import Meno.Basic
import Meno.Lib.Expiring
import Mathlib.Logic.Function.Basic

/-!
# Meno.Idempotency.Middleware

`idempotency_middleware` around a handler. A request asks Redis for the response under its key, runs
the handler if there is none, answers, and leaves the storing of the response to a task of its own;
other requests come in between anywhere. The handler is whatever it is: it completes with some
response, or is dropped.
-/

namespace Meno

namespace Idempotency

open Lib

/-! ## Responses -/

abbrev Bytes := List UInt8

structure StatusCode where
  code : Nat
  valid : 100 ≤ code ∧ code ≤ 999
deriving DecidableEq

namespace StatusCode

def ok : StatusCode := ⟨200, by decide⟩

def internalServerError : StatusCode := ⟨500, by decide⟩

def isSuccess (s : StatusCode) : Bool := 200 ≤ s.code && s.code < 300

def fromU16 (n : Nat) : Option StatusCode :=
  if h : 100 ≤ n ∧ n ≤ 999 then some ⟨n, h⟩ else none

end StatusCode

structure Response where
  status : StatusCode
  body : Bytes
deriving DecidableEq

/-- What the handler completes with: no body if it cannot be read to its end. -/
structure HandlerResponse where
  status : StatusCode
  body : Option Bytes
deriving DecidableEq

/-- Cached response stored in Redis for a given idempotency key. -/
structure CachedResponse where
  status : Nat
  body : String
deriving DecidableEq

/-! ## Text -/

/-- A character that has begun: its bits so far, where the next byte must lie, and how many bytes
are missing after that. -/
structure Pending where
  bits : Nat
  low : Nat
  high : Nat
  more : Nat
deriving DecidableEq

def replacementCharacter : Char := Char.ofNat 0xFFFD

/-- The first byte of a character. -/
def firstByte (b : Nat) : List Char × Option Pending :=
  if b < 0x80 then ([Char.ofNat b], none)
  else if 0xC2 ≤ b ∧ b ≤ 0xDF then ([], some { bits := b % 32, low := 0x80, high := 0xBF, more := 0 })
  else if 0xE0 ≤ b ∧ b ≤ 0xEF then
    ([], some {
      bits := b % 16
      low := if b = 0xE0 then 0xA0 else 0x80
      high := if b = 0xED then 0x9F else 0xBF
      more := 1 })
  else if 0xF0 ≤ b ∧ b ≤ 0xF4 then
    ([], some {
      bits := b % 8
      low := if b = 0xF0 then 0x90 else 0x80
      high := if b = 0xF4 then 0x8F else 0xBF
      more := 2 })
  else ([replacementCharacter], none)

/-- The characters of some bytes: each maximal part that begins a character and does not end it
counts as one replacement character. -/
def decodeLossy : Option Pending → Bytes → List Char
  | none, [] => []
  | some _, [] => [replacementCharacter]
  | none, b :: bs =>
    let (out, next) := firstByte b.toNat
    out ++ decodeLossy next bs
  | some p, b :: bs =>
    if p.low ≤ b.toNat ∧ b.toNat ≤ p.high then
      let bits := p.bits * 64 + b.toNat % 64
      if p.more = 0 then Char.ofNat bits :: decodeLossy none bs
      else decodeLossy (some { bits, low := 0x80, high := 0xBF, more := p.more - 1 }) bs
    else
      let (out, next) := firstByte b.toNat
      replacementCharacter :: (out ++ decodeLossy next bs)

/-- `String::from_utf8_lossy`. -/
def fromUtf8Lossy (bytes : Bytes) : String := String.ofList (decodeLossy none bytes)

/-- The bytes of a body that is given as a text. -/
def bytesOf (s : String) : Bytes := s.toList.flatMap String.utf8EncodeChar

example : bytesOf (fromUtf8Lossy [0x7B, 0xC3, 0xA9, 0x7D]) = [0x7B, 0xC3, 0xA9, 0x7D] := by decide

example : bytesOf (fromUtf8Lossy [0x7B, 0xC3, 0x7D]) = [0x7B, 0xEF, 0xBF, 0xBD, 0x7D] := by decide

/-! ## Requests -/

structure Request where
  /-- Whether the extension `Arc<Redis>` is on the request. -/
  redis : Bool
  /-- The header `Idempotency-Key`. -/
  header : Option Bytes
deriving DecidableEq

/-- `HeaderValue::to_str`: visible ASCII. -/
def toStr (value : Bytes) : Option String :=
  if value.all fun b => b = 9 || 32 ≤ b && b < 127 then
    some (String.ofList (value.map fun b => Char.ofNat b.toNat))
  else none

/-- A header that is no UUID is taken for a missing one. `parseStr` is `Uuid::parse_str`. -/
def extractIdempotencyKey (parseStr : String → Option Uuid) (req : Request) : Option Uuid :=
  (req.header.bind toStr).bind parseStr

/-! ## The service -/

/-- How far a request has come. -/
inductive Phase where
  | arrived
  /-- The handler runs; its response will be stored under the key, if there is one. -/
  | running (redisKey : Option Uuid)
  /-- The request is answered, and its task has still to store the response. -/
  | storing (redisKey : Uuid) (cached : CachedResponse)
  | done
deriving DecidableEq

inductive Event (ι : Type) where
  /-- The handler completed. -/
  | ran (i : ι) (t : OffsetDateTime) (response : HandlerResponse)
  | answered (i : ι) (response : Response)
deriving DecidableEq

/-- Redis, the clock, the requests, and what happened so far, the latest first. -/
structure Service (ι : Type) where
  redis : Expiring Uuid CachedResponse OffsetDateTime
  clock : OffsetDateTime
  phase : ι → Phase
  log : List (Event ι)

inductive Act (ι : Type) where
  /-- The request comes to the handler, or gets the cached response. -/
  | enter (i : ι) (redisAnswers : Bool)
  | complete (i : ι) (response : HandlerResponse)
  /-- The request is given up: timed out, or its connection closed. -/
  | drop (i : ι)
  | store (i : ι) (redisAnswers : Bool)
  | tick (t : OffsetDateTime)

/-- 86400 seconds. -/
def ttl : Int := 86400 * 1000000000

namespace Service

variable {ι : Type} [DecidableEq ι]

def start (now : OffsetDateTime) : Service ι where
  redis := .empty
  clock := now
  phase _ := .arrived
  log := []

def setPhase (w : Service ι) (i : ι) (p : Phase) : Service ι :=
  { w with phase := Function.update w.phase i p }

def note (w : Service ι) (e : Event ι) : Service ι := { w with log := e :: w.log }

/-- The answer goes out as far as the body can be read. -/
def pass (w : Service ι) (i : ι) (response : HandlerResponse) : Service ι :=
  match response.body with
  | some body => w.note (.answered i { status := response.status, body })
  | none => w

/-- The request up to `next.run(req)`. -/
def enter (parseStr : String → Option Uuid) (w : Service ι) (i : ι) (req : Request)
    (redisAnswers : Bool) : Service ι :=
  if req.redis then
    match extractIdempotencyKey parseStr req with
    | none => w.setPhase i (.running none)
    | some k =>
      match if redisAnswers then w.redis.find w.clock k else none with
      | some cached =>
        let status := (StatusCode.fromU16 cached.status).getD .ok
        (w.note (.answered i { status, body := bytesOf cached.body })).setPhase i .done
      | none => w.setPhase i (.running (some k))
  else w.setPhase i (.running none)

/-- The request after `next.run(req)`. -/
def complete (w : Service ι) (i : ι) (redisKey : Option Uuid) (response : HandlerResponse) :
    Service ι :=
  let w := w.note (.ran i w.clock response)
  match redisKey with
  | none => (w.pass i response).setPhase i .done
  | some k =>
    if response.status.isSuccess then
      match response.body with
      | none =>
        (w.note (.answered i { status := .internalServerError, body := [] })).setPhase i .done
      | some body =>
        let cached := { status := response.status.code, body := fromUtf8Lossy body }
        (w.note (.answered i { status := response.status, body })).setPhase i (.storing k cached)
    else (w.pass i response).setPhase i .done

/-- The spawned task. -/
def store (w : Service ι) (i : ι) (k : Uuid) (cached : CachedResponse) (redisAnswers : Bool) :
    Service ι :=
  let w := w.setPhase i .done
  if redisAnswers then
    { w with redis := w.redis.set k (some { value := cached, deadline := some (w.clock + ttl) }) }
  else w

/-- One thing happens; what cannot happen now leaves the service as it is. -/
def step (parseStr : String → Option Uuid) (reqs : ι → Request) (w : Service ι) :
    Act ι → Service ι
  | .enter i redisAnswers =>
    match w.phase i with
    | .arrived => w.enter parseStr i (reqs i) redisAnswers
    | _ => w
  | .complete i response =>
    match w.phase i with
    | .running redisKey => w.complete i redisKey response
    | _ => w
  | .drop i =>
    match w.phase i with
    | .arrived | .running _ => w.setPhase i .done
    | _ => w
  | .store i redisAnswers =>
    match w.phase i with
    | .storing k cached => w.store i k cached redisAnswers
    | _ => w
  | .tick t => if w.clock ≤ t then { w with clock := t } else w

end Service

/-- `build_middleware_stack` and the routers add no layer that puts Redis on a request. -/
def deployedRequest (header : Option Bytes) : Request := { redis := false, header }

end Idempotency

end Meno
