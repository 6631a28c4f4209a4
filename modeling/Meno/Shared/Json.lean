import Meno.Shared.UuidText

/-!
# Meno.Shared.Json

The values of `serde_json`, and how the fields of a struct are read from one.
-/

namespace Meno

/-- `serde_json::Number`. -/
inductive Number where
  | posInt (n : BitVec 64)
  | negInt (n : BitVec 64)
  | float (bits : BitVec 64)
deriving DecidableEq

/-- `serde_json::Value`. An object has each name once, in the order of its map. -/
inductive Value where
  | null
  | bool (b : Bool)
  | number (n : Number)
  | string (s : String)
  | array (vs : List Value)
  | object (fields : List (String × Value))

/-- What `from_str` begins to count down from. -/
def recursionLimit : Nat := 128

/-- Why `from_value` and `from_str` refuse a value. -/
inductive DeError where
  | missingField (field : String)
  | invalidType (found : Value) (expected : String)
  | invalidLength (length : Nat) (expected : String)
  | invalidUuid (text : String)
  | unknownVariant (text : String)
  | recursionLimitExceeded
  | custom (message : String)

/-- The years 0 to 9999, which RFC 3339 has. -/
def Rfc3339.Fits (ts : OffsetDateTime) : Prop :=
  -62167219200000000000 ≤ ts ∧ ts < 253402300800000000000

instance (ts : OffsetDateTime) : Decidable (Rfc3339.Fits ts) :=
  inferInstanceAs (Decidable (_ ∧ _))

/-- What `time` does with texts: RFC 3339. -/
structure Rfc3339 where
  format : OffsetDateTime → String
  parse : String → Except String OffsetDateTime
  parse_format : ∀ ts, Rfc3339.Fits ts → parse (format ts) = .ok ts

namespace Value

def readText : Value → Except DeError String
  | .string s => .ok s
  | v => .error (.invalidType v "a string")

def readUuid : Value → Except DeError Uuid
  | .string s =>
    match Uuid.parseText s with
    | some u => .ok u
    | none => .error (.invalidUuid s)
  | v => .error (.invalidType v "a formatted UUID string")

def readBool : Value → Except DeError Bool
  | .bool b => .ok b
  | v => .error (.invalidType v "a boolean")

/-- An `i64`; what is not negative is written without a sign. -/
def ofInt64 (n : Int64) : Value :=
  .number (if 0 ≤ n then .posInt n.toBitVec else .negInt n.toBitVec)

def readInt64 : Value → Except DeError Int64
  | .number (.posInt n) =>
    if 0 ≤ Int64.ofBitVec n then .ok (.ofBitVec n)
    else .error (.invalidType (.number (.posInt n)) "i64")
  | .number (.negInt n) => .ok (.ofBitVec n)
  | v => .error (.invalidType v "i64")

def readTime (t : Rfc3339) : Value → Except DeError OffsetDateTime
  | .string s =>
    match t.parse s with
    | .ok ts => .ok ts
    | .error message => .error (.custom message)
  | v => .error (.invalidType v "an RFC3339-formatted `OffsetDateTime`")

/-- An array or an object takes one of what remains of `recursionLimit`, and may not take the last. -/
def nestsWithin : Nat → Value → Bool
  | n + 1, .array vs => n ≠ 0 && vs.all (nestsWithin n)
  | n + 1, .object fields => n ≠ 0 && fields.all fun f => nestsWithin n f.2
  | 0, .array _ => false
  | 0, .object _ => false
  | _, _ => true

/-- A `serde_json::Value` in a text. -/
def readAny (remaining : Nat) (v : Value) : Except DeError Value :=
  if v.nestsWithin remaining then .ok v else .error .recursionLimitExceeded

/-- `Option`: null is nothing. -/
def ofOption {α : Type} (write : α → Value) : Option α → Value
  | none => .null
  | some a => write a

def readOption {α : Type} (read : Value → Except DeError α) : Value → Except DeError (Option α)
  | .null => .ok none
  | v => do return some (← read v)

def readList {α : Type} (read : Value → Except DeError α) : Value → Except DeError (List α)
  | .array vs => vs.mapM read
  | v => .error (.invalidType v "a sequence")

/-- One of the names of an `enum`; an object that maps a name to null is the same. -/
def readVariant {α : Type} (variants : List (String × α)) : Value → Except DeError α
  | .string s =>
    match variants.lookup s with
    | some a => .ok a
    | none => .error (.unknownVariant s)
  | .object [(s, .null)] =>
    match variants.lookup s with
    | some a => .ok a
    | none => .error (.unknownVariant s)
  | v => .error (.invalidType v "string or map")

/-- The field `name` of `struct`, which has `size` fields, this one as number `i`. -/
def field (struct : String) (size i : Nat) (name : String) : Value → Except DeError Value
  | .object fields =>
    match fields.lookup name with
    | some v => .ok v
    | none => .error (.missingField name)
  | .array vs =>
    match vs[i]? with
    | some v => .ok v
    | none => .error (.invalidLength i s!"{struct} with {size} elements")
  | v => .error (.invalidType v struct)

/-- A field that may be missing, and is null then. -/
def optionalField (struct : String) (size i : Nat) (name : String) : Value → Except DeError Value
  | .object fields => .ok ((fields.lookup name).getD .null)
  | v => field struct size i name v

/-- The fields of an object are read as they come, before any is found missing. -/
def visit (readers : List (String × (Value → Except DeError Unit))) : Value → Except DeError Unit
  | .object fields => fields.forM fun f =>
    match readers.lookup f.1 with
    | some read => read f.2
    | none => .ok ()
  | _ => .ok ()

/-- A reader whose value is of no interest yet. -/
def skim {α : Type} (read : Value → Except DeError α) (v : Value) : Except DeError Unit :=
  (read v).map fun _ => ()

/-- An array must not go on after the last field. -/
def finish (size : Nat) : Value → Except DeError Unit
  | .array vs =>
    if vs.length = size then .ok ()
    else .error (.invalidLength vs.length "fewer elements in array")
  | _ => .ok ()

/-! ## Objects -/

section Objects

variable (fields : List (String × Value)) (struct name : String) (size i : Nat)

theorem visit_object (readers : List (String × (Value → Except DeError Unit))) :
    visit readers (.object fields) =
      fields.forM fun f =>
        match readers.lookup f.1 with
        | some read => read f.2
        | none => .ok () := by
  rw [visit]

theorem field_object : field struct size i name (.object fields) =
    match fields.lookup name with
    | some v => .ok v
    | none => .error (.missingField name) := by
  rw [field]

theorem optionalField_object :
    optionalField struct size i name (.object fields) = .ok ((fields.lookup name).getD .null) := by
  rw [optionalField]

theorem finish_object : finish size (.object fields) = .ok () := rfl

end Objects

theorem readAny_of_nests {remaining : Nat} {v : Value} (h : v.nestsWithin remaining = true) :
    readAny remaining v = .ok v := if_pos h

theorem readAny_of_not_nests {remaining : Nat} {v : Value} (h : v.nestsWithin remaining = false) :
    readAny remaining v = .error .recursionLimitExceeded :=
  if_neg fun hnests => Bool.false_ne_true (h.symm.trans hnests)

/-! ## What was written is read back -/

@[simp] theorem readUuid_text (id : Uuid) : readUuid (.string id.text) = .ok id := by
  rw [readUuid, Uuid.parseText_text]

@[simp] theorem readText_string (s : String) : readText (.string s) = .ok s := rfl

@[simp] theorem readBool_bool (b : Bool) : readBool (.bool b) = .ok b := rfl

@[simp] theorem readInt64_ofInt64 (n : Int64) : readInt64 (ofInt64 n) = .ok n := by
  unfold ofInt64
  split
  · rename_i hpos
    simp [readInt64, hpos]
  · simp [readInt64]

theorem readTime_format (t : Rfc3339) {ts : OffsetDateTime} (h : Rfc3339.Fits ts) :
    readTime t (.string (t.format ts)) = .ok ts := by
  rw [readTime, t.parse_format ts h]

/-- A value that is written as something else than null. -/
theorem readOption_ofOption {α : Type} {write : α → Value} {read : Value → Except DeError α}
    (hread : ∀ a, read (write a) = .ok a) (hnull : ∀ a, write a ≠ .null) (a : Option α) :
    readOption read (ofOption write a) = .ok a := by
  cases a with
  | none => rfl
  | some a =>
    have hne := hnull a
    rw [ofOption, readOption, hread]
    · rfl
    · exact fun h => absurd h hne

@[simp] theorem readOption_text (s : Option String) :
    readOption readText (ofOption .string s) = .ok s :=
  readOption_ofOption readText_string (fun _ => nofun) s

theorem readList_map {α : Type} {write : α → Value} {read : Value → Except DeError α}
    (hread : ∀ a, read (write a) = .ok a) (as : List α) :
    readList read (.array (as.map write)) = .ok as := by
  rw [readList]
  induction as with
  | nil => rfl
  | cons a as ih =>
    rw [List.map_cons, List.mapM_cons, hread, ih]
    rfl

end Value

end Meno
