import Mathlib.Order.Defs.LinearOrder
import Mathlib.Tactic.Common

/-!
# Meno.Basic

Identifiers, clocks and the PostgreSQL column types that the services share.
-/

namespace Meno

/-- `uuid::Uuid`. PostgreSQL and Rust both order it by its 128 bits. -/
structure Uuid where
  bits : BitVec 128
deriving DecidableEq, Repr

namespace Uuid

theorem toNat_inj {a b : Uuid} (h : a.bits.toNat = b.bits.toNat) : a = b := by
  cases a; cases b; simpa [BitVec.toNat_inj] using h

instance : LE Uuid := ⟨fun a b => a.bits.toNat ≤ b.bits.toNat⟩

instance : DecidableLE Uuid := fun a b => inferInstanceAs (Decidable (a.bits.toNat ≤ b.bits.toNat))

instance : LinearOrder Uuid where
  le_refl a := Nat.le_refl _
  le_trans a b c := Nat.le_trans
  le_antisymm a b hab hba := toNat_inj (Nat.le_antisymm hab hba)
  le_total a b := Nat.le_total _ _
  toDecidableLE := inferInstance
  toDecidableEq := inferInstance

end Uuid

/-- `time::OffsetDateTime` as nanoseconds from the Unix epoch. -/
abbrev OffsetDateTime := Int

/-- What a statement can fail with. `infrastructure` is a lost connection, a timeout, a
deadlock: anything that does not come from the statement itself. -/
inductive DbError where
  | infrastructure
  | rowNotFound
  | uniqueViolation
  | foreignKeyViolation
  | notNullViolation
  | checkViolation
  | stringDataRightTruncation
  | invalidByteSequence
  | numericValueOutOfRange
  | datetimeOutOfRange
  /-- A statement that cannot be read, or names what there is not. -/
  | invalidStatement
deriving DecidableEq, Repr

/-- Why the text of a pagination cursor is refused. -/
inductive CursorError where
  | invalidEncoding
  | invalidShape
  | invalidTimestamp
deriving DecidableEq, Repr

theorem bind_eq_ok {ε α β : Type} {x : Except ε α} {f : α → Except ε β} {b : β} :
    (x >>= f) = .ok b ↔ ∃ a, x = .ok a ∧ f a = .ok b := by
  cases x with
  | error e => simp [bind, Except.bind]
  | ok a => simp [bind, Except.bind]

theorem ok_bind {ε α β : Type} {a : α} {f : α → Except ε β} : (Except.ok a >>= f) = f a := rfl

theorem error_bind {ε α β : Type} {e : ε} {f : α → Except ε β} :
    (Except.error e >>= f) = .error e := rfl

theorem pure_ok {ε α : Type} {a : α} : (pure a : Except ε α) = .ok a := rfl

theorem pure_eq_ok {ε α : Type} {a b : α} : (pure a : Except ε α) = .ok b ↔ a = b := by
  simp [pure, Except.pure]

/-! ## Column types -/

/-- PostgreSQL text cannot hold the character NUL. A parameter that has one is refused when it
is bound, before the statement looks at any row. -/
def storable (s : String) : Bool := !s.toList.contains (Char.ofNat 0)

def bindText (s : String) : Except DbError Unit :=
  if storable s then .ok () else .error .invalidByteSequence

/-- A parameter that may be `NULL`. -/
def bindTextOpt (s : Option String) : Except DbError Unit := bindText (s.getD "")

/-- Assignment to a `VARCHAR(n)` column: excess characters are an error unless all are spaces. -/
def varchar (n : Nat) (s : String) : Except DbError String :=
  if s.length ≤ n then .ok s
  else if (s.toList.drop n).all (· = ' ') then .ok (String.ofList (s.toList.take n))
  else .error .stringDataRightTruncation

theorem varchar_of_le {n : Nat} {s : String} (h : s.length ≤ n) : varchar n s = .ok s :=
  if_pos h

/-- 2000-01-01, from which PostgreSQL counts. -/
def postgresEpoch : Int := 946684800000000000

/-- The first microsecond that `TIMESTAMPTZ` has: 4713-11-24 BC begins. -/
def firstMicros : Int := -211813488000000000

/-- A time parameter is sent in whole microseconds from 2000-01-01. -/
def sentMicros (ts : OffsetDateTime) : Int := (ts - postgresEpoch).tdiv 1000

/-- The time that is sent. What is beyond whole microseconds is cut off. -/
def sentTime (ts : OffsetDateTime) : OffsetDateTime := postgresEpoch + sentMicros ts * 1000

/-- A time that PostgreSQL does not have is refused. -/
def bindTime (ts : OffsetDateTime) : Except DbError OffsetDateTime :=
  if firstMicros ≤ sentMicros ts then .ok (sentTime ts) else .error .datetimeOutOfRange

/-- The times that a `TIMESTAMPTZ` column can hold, of those of the years -9999 to 9999. -/
def timestamptz (ts : OffsetDateTime) : Bool :=
  decide (ts % 1000 = 0) && decide (postgresEpoch + firstMicros * 1000 ≤ ts)

theorem timestamptz_iff {ts : OffsetDateTime} :
    timestamptz ts = true ↔ ∃ m, firstMicros ≤ m ∧ ts = postgresEpoch + m * 1000 := by
  have harith : ∀ n : Int, (n % 1000 = 0 ∧ postgresEpoch + firstMicros * 1000 ≤ n) ↔
      ∃ m, firstMicros ≤ m ∧ n = postgresEpoch + m * 1000 := by
    intro n
    rw [postgresEpoch, firstMicros]
    constructor
    · rintro ⟨hwhole, hfirst⟩
      exact ⟨(n - 946684800000000000) / 1000, by omega, by omega⟩
    · rintro ⟨m, hm, rfl⟩
      omega
  rw [timestamptz, Bool.and_eq_true, decide_eq_true_eq, decide_eq_true_eq]
  exact harith ts

theorem sentMicros_whole (m : Int) : sentMicros (postgresEpoch + m * 1000) = m := by
  rw [sentMicros, show postgresEpoch + m * 1000 - postgresEpoch = m * 1000 from by omega]
  exact Int.mul_tdiv_cancel m (by decide)

/-- A time that a column can hold is sent as it is, and accepted. -/
theorem sent_of_timestamptz {ts : OffsetDateTime} (h : timestamptz ts = true) :
    firstMicros ≤ sentMicros ts ∧ sentTime ts = ts := by
  obtain ⟨m, hm, rfl⟩ := timestamptz_iff.1 h
  rw [sentTime, sentMicros_whole]
  exact ⟨hm, rfl⟩

theorem bindTime_of_timestamptz {ts : OffsetDateTime} (h : timestamptz ts = true) :
    bindTime ts = .ok ts := by
  obtain ⟨hmicros, hsent⟩ := sent_of_timestamptz h
  rw [bindTime, if_pos hmicros, hsent]

/-- The largest value of an `INT` column. -/
def intMax : Int := 2147483647

/-- `version + 1` in an `INT` column. -/
def intSucc (v : Int) : Except DbError Int :=
  if v < intMax then .ok (v + 1) else .error .numericValueOutOfRange

theorem intSucc_eq_ok {v v' : Int} : intSucc v = .ok v' ↔ v < intMax ∧ v' = v + 1 := by
  unfold intSucc
  by_cases h : v < intMax
  · simp [h, eq_comm]
  · simp [h]

end Meno
