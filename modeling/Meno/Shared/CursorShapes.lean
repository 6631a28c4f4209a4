import Meno.Shared.UuidText

/-!
# Meno.Shared.CursorShapes

The five shapes of a cursor's text. What is written in one shape is read back in it and is none
of the other four; a name is read back if the separator is not in it.
-/

namespace Meno

open Lib.Text

/-- How an `f32` is written and read. -/
structure RankText (F : Type) where
  display : F → String
  parse : String → Option F

/-- `map_err(|_| CursorError::InvalidTimestamp)`. -/
def okOrTimestamp {α : Type} : Option α → Except CursorError α
  | some a => .ok a
  | none => .error .invalidTimestamp

namespace Cursor

variable {F : Type} (t : CursorText) (f : RankText F)

def fromTwoTimestampsId (ts1 ts2 : OffsetDateTime) (id : Uuid) : Cursor :=
  ⟨t.encode (String.ofList (showInt ts1 ++ ':' :: (showInt ts2 ++ '|' :: (t.uuid id).toList)))⟩

def fromNameId (name : String) (id : Uuid) : Cursor :=
  ⟨t.encode (String.ofList ("name:".toList ++ (name.toList ++ '|' :: (t.uuid id).toList)))⟩

def fromRankTimestampId (rank : F) (ts : OffsetDateTime) (id : Uuid) : Cursor :=
  ⟨t.encode (String.ofList ("rank:".toList ++
    ((f.display rank).toList ++ '|' :: (showInt ts ++ '|' :: (t.uuid id).toList))))⟩

def toTwoTimestampsId (c : Cursor) : Except CursorError (OffsetDateTime × OffsetDateTime × Uuid) := do
  let s ← c.raw t
  let (stamps, id) ← okOrShape (splitOnce '|' s)
  let (n1, n2) ← okOrShape (splitOnce ':' stamps)
  let n1 ← okOrShape (parseI128 n1)
  let n2 ← okOrShape (parseI128 n2)
  let id ← okOrShape (t.parseStr (String.ofList id))
  let ts1 ← okOrTimestamp (fromUnixTimestampNanos n1)
  let ts2 ← okOrTimestamp (fromUnixTimestampNanos n2)
  return (ts1, ts2, id)

/-- `splitn(3, '|')` splits twice. -/
def toRankTimestampId (c : Cursor) : Except CursorError (F × OffsetDateTime × Uuid) := do
  let s ← c.raw t
  let s ← okOrShape (stripPrefix "rank:".toList s)
  let (rank, rest) ← okOrShape (splitOnce '|' s)
  let (nanos, id) ← okOrShape (splitOnce '|' rest)
  let rank ← okOrShape (f.parse (String.ofList rank))
  let nanos ← okOrShape (parseI128 nanos)
  let id ← okOrShape (t.parseStr (String.ofList id))
  let ts ← okOrTimestamp (fromUnixTimestampNanos nanos)
  return (rank, ts, id)

/-! ## The shapes -/

inductive Shape where
  | timestamp
  | twoTimestamps
  | score
  | name
  | rank
deriving DecidableEq, Repr

/-- What a cursor is made of. -/
inductive Value (F : Type) where
  | timestamp (ts : OffsetDateTime) (id : Uuid)
  | twoTimestamps (ts1 ts2 : OffsetDateTime) (id : Uuid)
  | score (score : Int) (id : Uuid)
  | name (name : String) (id : Uuid)
  | rank (rank : F) (ts : OffsetDateTime) (id : Uuid)

def Value.shape : Value F → Shape
  | .timestamp .. => .timestamp
  | .twoTimestamps .. => .twoTimestamps
  | .score .. => .score
  | .name .. => .name
  | .rank .. => .rank

def Value.encode : Value F → Cursor
  | .timestamp ts id => fromTimestampId t ts id
  | .twoTimestamps ts1 ts2 id => fromTwoTimestampsId t ts1 ts2 id
  | .score n id => fromScoreId t n id
  | .name s id => fromNameId t s id
  | .rank r ts id => fromRankTimestampId t f r ts id

/-- The decoder of a shape. -/
def Shape.decode : Shape → Cursor → Except CursorError (Value F)
  | .timestamp, c => (c.toTimestampId t).map fun (ts, id) => .timestamp ts id
  | .twoTimestamps, c => (c.toTwoTimestampsId t).map fun (ts1, ts2, id) => .twoTimestamps ts1 ts2 id
  | .score, c => (c.toScoreId t).map fun (n, id) => .score n id
  | .name, c => (c.toNameId t).map fun (s, id) => .name s id
  | .rank, c => (c.toRankTimestampId t f).map fun (r, ts, id) => .rank r ts id

/-- Timestamps that an `OffsetDateTime` can hold, and a score that an `i64` can. -/
def Value.Representable : Value F → Prop
  | .timestamp ts _ => representable ts = true
  | .twoTimestamps ts1 ts2 _ => representable ts1 = true ∧ representable ts2 = true
  | .score n _ => isI64 n = true
  | .name .. => True
  | .rank _ ts _ => representable ts = true

/-! ## Round trips -/

variable {t f}

theorem parseI128_showInt {ts : OffsetDateTime} (h : representable ts = true) :
    parseI128 (showInt ts) = some ts := by
  simp [parseI128, parseInt_showInt, Option.filter, isI128_of_representable h]

theorem fromUnixTimestampNanos_of_representable {ts : OffsetDateTime}
    (h : representable ts = true) : fromUnixTimestampNanos ts = some ts := by
  simp [fromUnixTimestampNanos, h]

/-- The two timestamps stand before the separator. -/
theorem splitOnce_twoTimestamps (ts1 ts2 : OffsetDateTime) (cs : List Char) :
    splitOnce '|' (showInt ts1 ++ ':' :: (showInt ts2 ++ '|' :: cs)) =
      some (showInt ts1 ++ ':' :: showInt ts2, cs) := by
  have hbar : '|' ∉ showInt ts1 ++ ':' :: showInt ts2 := by
    simp [bar_not_mem_showInt]
  have hsplit := splitOnce_append hbar cs
  rwa [List.append_assoc, List.cons_append] at hsplit

theorem toTwoTimestampsId_fromTwoTimestampsId {ts1 ts2 : OffsetDateTime}
    (h1 : representable ts1 = true) (h2 : representable ts2 = true) (id : Uuid) :
    (fromTwoTimestampsId t ts1 ts2 id).toTwoTimestampsId t = .ok (ts1, ts2, id) := by
  simp only [fromTwoTimestampsId, toTwoTimestampsId, raw_encode, ok_bind, splitOnce_twoTimestamps,
    okOrShape, splitOnce_append (colon_not_mem_showInt ts1), parseI128_showInt h1,
    parseI128_showInt h2, String.ofList_toList, t.parseStr_uuid, okOrTimestamp,
    fromUnixTimestampNanos_of_representable h1, fromUnixTimestampNanos_of_representable h2]
  rfl

/-! ## Other shapes -/

section Tags

variable {c : Cursor} {s : List Char} (h : c.raw t = .ok s)

include h

theorem toScoreId_of_untagged (hs : stripPrefix "score:".toList s = none) :
    c.toScoreId t = .error .invalidShape := by
  simp only [toScoreId, h, ok_bind, hs, okOrShape, error_bind]

theorem toNameId_of_untagged (hs : stripPrefix "name:".toList s = none) :
    c.toNameId t = .error .invalidShape := by
  simp only [toNameId, h, ok_bind, hs, okOrShape, error_bind]

theorem toRankTimestampId_of_untagged (hs : stripPrefix "rank:".toList s = none) :
    c.toRankTimestampId t f = .error .invalidShape := by
  simp only [toRankTimestampId, h, ok_bind, hs, okOrShape, error_bind]

end Tags

/-- A letter that no number begins with, and that is no separator. -/
def IsTag (p : Char) : Prop := p ≠ '+' ∧ p ≠ '-' ∧ p.isDigit = false ∧ p ≠ '|' ∧ p ≠ ':'

instance (p : Char) : Decidable (IsTag p) := inferInstanceAs (Decidable (_ ∧ _))

theorem splitOnce_cons {sep p : Char} (hsep : p ≠ sep) (cs : List Char) :
    splitOnce sep (p :: cs) = none ∨
      ∃ before after, splitOnce sep (p :: cs) = some (p :: before, after) := by
  cases hcs : splitOnce sep cs with
  | none => exact .inl (by simp [splitOnce, hsep, hcs])
  | some parts => exact .inr ⟨parts.1, parts.2, by simp [splitOnce, hsep, hcs]⟩

theorem stripPrefix_cons_ne {q p : Char} (h : q ≠ p) (qs cs : List Char) :
    stripPrefix (q :: qs) (p :: cs) = none := by
  simp [stripPrefix, h]

section Letters

variable {c : Cursor} {p : Char} {cs : List Char} (hp : IsTag p)

include hp

theorem parseI128_cons_of_tag (cs : List Char) : parseI128 (p :: cs) = none := by
  obtain ⟨hplus, hminus, hdigit, -⟩ := hp
  simp [parseI128, parseInt, parseNat, hplus, hminus, hdigit]

theorem toTimestampId_of_tag (h : c.raw t = .ok (p :: cs)) :
    c.toTimestampId t = .error .invalidShape := by
  have ⟨_, _, _, hpbar, _⟩ := hp
  rcases splitOnce_cons hpbar cs with hbar | ⟨before, after, hbar⟩
  · simp only [toTimestampId, h, ok_bind, hbar, okOrShape, error_bind]
  · simp only [toTimestampId, h, ok_bind, hbar, okOrShape, error_bind, parseI128_cons_of_tag hp]

theorem toTwoTimestampsId_of_tag (h : c.raw t = .ok (p :: cs)) :
    c.toTwoTimestampsId t = .error .invalidShape := by
  have ⟨_, _, _, hpbar, hpcolon⟩ := hp
  rcases splitOnce_cons hpbar cs with hbar | ⟨before, after, hbar⟩
  · simp only [toTwoTimestampsId, h, ok_bind, hbar, okOrShape, error_bind]
  rcases splitOnce_cons hpcolon before with hcolon | ⟨first, second, hcolon⟩
  · simp only [toTwoTimestampsId, h, ok_bind, hbar, hcolon, okOrShape, error_bind]
  · simp only [toTwoTimestampsId, h, ok_bind, hbar, hcolon, okOrShape, error_bind,
      parseI128_cons_of_tag hp]

end Letters

/-- One timestamp has no colon. -/
theorem toTwoTimestampsId_fromTimestampId (ts : OffsetDateTime) (id : Uuid) :
    (fromTimestampId t ts id).toTwoTimestampsId t = .error .invalidShape := by
  have hcolon : splitOnce ':' (showInt ts) = none := splitOnce_eq_none (colon_not_mem_showInt ts)
  simp only [fromTimestampId, toTwoTimestampsId, raw_encode, ok_bind,
    splitOnce_append (bar_not_mem_showInt ts), hcolon, okOrShape, error_bind]

/-- Two timestamps are no number, as there is a colon between them. -/
theorem toTimestampId_fromTwoTimestampsId (ts1 ts2 : OffsetDateTime) (id : Uuid) :
    (fromTwoTimestampsId t ts1 ts2 id).toTimestampId t = .error .invalidShape := by
  have hparse : parseI128 (showInt ts1 ++ ':' :: showInt ts2) = none := by
    cases h : parseInt (showInt ts1 ++ ':' :: showInt ts2) with
    | none => simp [parseI128, h]
    | some n =>
      have hcolon := mem_of_parseInt h (c := ':') (by simp)
      exact absurd hcolon (by decide)
  simp only [fromTwoTimestampsId, toTimestampId, raw_encode, ok_bind, splitOnce_twoTimestamps,
    hparse, okOrShape, error_bind]

/-- What the other decoders make of a text that begins with a number. -/
theorem Shape.decode_of_number {c : Cursor} {n : Int} {cs : List Char}
    (h : c.raw t = .ok (showInt n ++ cs)) {s : Shape} (h1 : s ≠ .timestamp)
    (h2 : s ≠ .twoTimestamps) : s.decode t f c = .error .invalidShape := by
  cases s with
  | timestamp => exact absurd rfl h1
  | twoTimestamps => exact absurd rfl h2
  | score =>
    rw [decode, toScoreId_of_untagged h (stripPrefix_showInt (by decide) (by decide) n cs)]
    rfl
  | name =>
    rw [decode, toNameId_of_untagged h (stripPrefix_showInt (by decide) (by decide) n cs)]
    rfl
  | rank =>
    rw [decode, toRankTimestampId_of_untagged h (stripPrefix_showInt (by decide) (by decide) n cs)]
    rfl

/-- What the tag of a shape begins with. -/
def Shape.letter : Shape → Option Char
  | .timestamp | .twoTimestamps => none
  | .score => some 's'
  | .name => some 'n'
  | .rank => some 'r'

/-- What the other decoders make of a text that begins with a tag. -/
theorem Shape.decode_of_tag {c : Cursor} {p : Char} {cs : List Char} (hp : IsTag p)
    (h : c.raw t = .ok (p :: cs)) {s : Shape} (hne : s.letter ≠ some p) :
    s.decode t f c = .error .invalidShape := by
  cases s with
  | timestamp =>
    rw [decode, toTimestampId_of_tag hp h]
    rfl
  | twoTimestamps =>
    rw [decode, toTwoTimestampsId_of_tag hp h]
    rfl
  | score =>
    rw [decode, toScoreId_of_untagged h (stripPrefix_cons_ne (fun hq => hne (congrArg some hq)) _ cs)]
    rfl
  | name =>
    rw [decode, toNameId_of_untagged h (stripPrefix_cons_ne (fun hq => hne (congrArg some hq)) _ cs)]
    rfl
  | rank =>
    rw [decode, toRankTimestampId_of_untagged h
      (stripPrefix_cons_ne (fun hq => hne (congrArg some hq)) _ cs)]
    rfl

/-- No value is read back in another shape than its own. -/
theorem Shape.decode_encode_other {v : Value F} {s : Shape} (hne : s ≠ v.shape) :
    s.decode t f (v.encode t f) = .error .invalidShape := by
  cases v with
  | timestamp ts id =>
    by_cases htwo : s = .twoTimestamps
    · rw [htwo, decode, Value.encode, toTwoTimestampsId_fromTimestampId]
      rfl
    · exact decode_of_number (raw_encode _) hne htwo
  | twoTimestamps ts1 ts2 id =>
    by_cases hone : s = .timestamp
    · rw [hone, decode, Value.encode, toTimestampId_fromTwoTimestampsId]
      rfl
    · exact decode_of_number (raw_encode _) hone hne
  | score n id =>
    refine decode_of_tag (p := 's') (by decide) (raw_encode _) fun hletter => hne ?_
    cases s <;> first | rfl | exact absurd hletter (by decide)
  | name name id =>
    refine decode_of_tag (p := 'n') (by decide) (raw_encode _) fun hletter => hne ?_
    cases s <;> first | rfl | exact absurd hletter (by decide)
  | rank r ts id =>
    refine decode_of_tag (p := 'r') (by decide) (raw_encode _) fun hletter => hne ?_
    cases s <;> first | rfl | exact absurd hletter (by decide)

/-- A timestamp, two timestamps and a score are read back as they were, and no cursor is read in
another shape than it was written in. -/
theorem shapes_told_apart {v : Value F} (hv : v.Representable) :
    (v.shape = .timestamp ∨ v.shape = .twoTimestamps ∨ v.shape = .score →
      v.shape.decode t f (v.encode t f) = .ok v) ∧
    ∀ s, s ≠ v.shape → ∃ e, s.decode t f (v.encode t f) = .error e := by
  refine ⟨fun hshape => ?_, fun s hne => ⟨_, Shape.decode_encode_other hne⟩⟩
  cases v with
  | timestamp ts id =>
    rw [Value.shape, Shape.decode, Value.encode, toTimestampId_fromTimestampId hv]
    rfl
  | twoTimestamps ts1 ts2 id =>
    rw [Value.shape, Shape.decode, Value.encode, toTwoTimestampsId_fromTwoTimestampsId hv.1 hv.2]
    rfl
  | score n id =>
    rw [Value.shape, Shape.decode, Value.encode, toScoreId_fromScoreId hv]
    rfl
  | name | rank => rcases hshape with h | h | h <;> cases h

/-- Two timestamps before 1970. -/
theorem shapes_told_apart_negative :
    let v : Value Bool := .twoTimestamps (-1) (-1700000000123456789) ⟨7⟩
    let f : RankText Bool := ⟨fun b => if b then "1" else "0", fun s => some (s == "1")⟩
    Shape.decode .urlSafe f .twoTimestamps (v.encode .urlSafe f) = .ok v ∧
      ∀ s, s ≠ Shape.twoTimestamps → ∃ e, s.decode .urlSafe f (v.encode .urlSafe f) = .error e := by
  intro v f
  have h := shapes_told_apart (t := .urlSafe) (f := f) (v := v) ⟨by decide, by decide⟩
  exact ⟨h.1 (.inr (.inl rfl)), h.2⟩

/-! ## Names -/

/-- The name is what stands before the first separator. -/
theorem toNameId_fromNameId_iff (name : String) (id : Uuid) :
    (fromNameId t name id).toNameId t = .ok (name, id) ↔ '|' ∉ name.toList := by
  simp only [fromNameId, toNameId, raw_encode, ok_bind, stripPrefix_append, okOrShape]
  constructor
  · intro h
    obtain ⟨⟨before, after⟩, hsplit, h⟩ := bind_eq_ok.1 h
    obtain ⟨id', hid, h⟩ := bind_eq_ok.1 h
    have hname : String.ofList before = name := congrArg Prod.fst (pure_eq_ok.1 h)
    have hbefore : before = name.toList := by rw [← hname, String.toList_ofList]
    rw [← hbefore]
    cases hcs : splitOnce '|' (name.toList ++ '|' :: (t.uuid id).toList) with
    | none => simp [hcs] at hsplit
    | some parts =>
      obtain rfl : parts = (before, after) := by simpa [hcs] using hsplit
      exact not_mem_of_splitOnce hcs
  · intro hbar
    rw [splitOnce_append hbar]
    simp [ok_bind, t.parseStr_uuid, pure_ok]
/-- A user who is called `Ann|Lee` cannot be paged past. -/
theorem toNameId_ann_lee :
    (fromNameId .urlSafe "Ann|Lee" ⟨1⟩).toNameId .urlSafe = .error .invalidShape := by
  have hraw : (fromNameId .urlSafe "Ann|Lee" ⟨1⟩).raw .urlSafe =
      .ok "name:Ann|Lee|00000000-0000-0000-0000-000000000001".toList := raw_encode _
  simp only [toNameId, hraw, ok_bind]
  decide

end Cursor

end Meno
