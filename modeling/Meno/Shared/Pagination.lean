import Mathlib.Algebra.Ring.Int.Defs
import Mathlib.Algebra.Ring.Nat
import Meno.Basic
import Meno.Lib.Keyset
import Meno.Lib.Select
import Meno.Lib.Text

/-!
# Meno.Shared.Pagination

Cursors, pages and sort directions, and a client's walk through the pages of a listing.
-/

namespace Meno

open Lib Lib.Text

/-! ## Cursors -/

structure Cursor where
  text : String
deriving DecidableEq, Repr

/-- What a cursor's text is made of elsewhere: URL-safe base64 of UTF-8 text, and the text of a
UUID. Both can be read back, and no text is what stands for no text in base64. -/
structure CursorText where
  encode : String → String
  decode : String → Option String
  uuid : Uuid → String
  parseStr : String → Option Uuid
  decode_encode : ∀ s, decode (encode s) = some s
  decode_empty : decode "" = some ""
  parseStr_uuid : ∀ id, parseStr (uuid id) = some id

/-- The times that an `OffsetDateTime` can hold: the years -9999 to 9999. -/
def representable (nanos : Int) : Bool :=
  decide (-377705116800000000000 ≤ nanos) && decide (nanos ≤ 253402300799999999999)

def fromUnixTimestampNanos (nanos : Int) : Option OffsetDateTime :=
  if representable nanos then some nanos else none

def isI128 (n : Int) : Bool := decide (-2 ^ 127 ≤ n) && decide (n < 2 ^ 127)

def isI64 (n : Int) : Bool := decide (-2 ^ 63 ≤ n) && decide (n < 2 ^ 63)

def parseI128 (cs : List Char) : Option Int := (parseInt cs).filter isI128

def parseI64 (cs : List Char) : Option Int := (parseInt cs).filter isI64

theorem isI128_of_representable {ts : OffsetDateTime} (h : representable ts = true) :
    isI128 ts = true := by
  simp only [representable, isI128, Bool.and_eq_true, decide_eq_true_eq] at h ⊢
  omega

/-- `ok_or`. -/
def okOrShape {α : Type} : Option α → Except CursorError α
  | some a => .ok a
  | none => .error .invalidShape

namespace Cursor

variable (t : CursorText)

def fromTimestampId (ts : OffsetDateTime) (id : Uuid) : Cursor :=
  ⟨t.encode (String.ofList (showInt ts ++ '|' :: (t.uuid id).toList))⟩

def fromScoreId (score : Int) (id : Uuid) : Cursor :=
  ⟨t.encode (String.ofList ("score:".toList ++ (showInt score ++ '|' :: (t.uuid id).toList)))⟩

/-- The text that was encoded. -/
def raw (c : Cursor) : Except CursorError (List Char) :=
  match t.decode c.text with
  | some s => .ok s.toList
  | none => .error .invalidEncoding

def toTimestampId (c : Cursor) : Except CursorError (OffsetDateTime × Uuid) := do
  let s ← c.raw t
  let (nanos, id) ← okOrShape (splitOnce '|' s)
  let nanos ← okOrShape (parseI128 nanos)
  let id ← okOrShape (t.parseStr (String.ofList id))
  match fromUnixTimestampNanos nanos with
  | some ts => return (ts, id)
  | none => throw .invalidTimestamp

def toScoreId (c : Cursor) : Except CursorError (Int × Uuid) := do
  let s ← c.raw t
  let s ← okOrShape (stripPrefix "score:".toList s)
  let (score, id) ← okOrShape (splitOnce '|' s)
  let score ← okOrShape (parseI64 score)
  let id ← okOrShape (t.parseStr (String.ofList id))
  return (score, id)

def toNameId (c : Cursor) : Except CursorError (String × Uuid) := do
  let s ← c.raw t
  let s ← okOrShape (stripPrefix "name:".toList s)
  let (name, id) ← okOrShape (splitOnce '|' s)
  let id ← okOrShape (t.parseStr (String.ofList id))
  return (String.ofList name, id)

variable {t}

theorem raw_encode (cs : List Char) : (⟨t.encode (String.ofList cs)⟩ : Cursor).raw t = .ok cs := by
  simp [raw, t.decode_encode]

theorem toTimestampId_fromTimestampId {ts : OffsetDateTime} (h : representable ts = true)
    (id : Uuid) : (fromTimestampId t ts id).toTimestampId t = .ok (ts, id) := by
  simp only [fromTimestampId, toTimestampId, raw_encode, ok_bind,
    splitOnce_append (bar_not_mem_showInt ts), okOrShape, parseI128, parseInt_showInt,
    Option.filter, isI128_of_representable h, if_true, String.ofList_toList, t.parseStr_uuid,
    fromUnixTimestampNanos, h]
  rfl

/-- A cursor that can be read back is read back as it was made. -/
theorem eq_of_toTimestampId {ts : OffsetDateTime} {id : Uuid} {pos : OffsetDateTime × Uuid}
    (h : (fromTimestampId t ts id).toTimestampId t = .ok pos) : pos = (ts, id) := by
  by_cases hrep : representable ts = true
  · rw [toTimestampId_fromTimestampId hrep] at h
    exact (Except.ok.inj h).symm
  · simp only [fromTimestampId, toTimestampId, raw_encode, ok_bind,
      splitOnce_append (bar_not_mem_showInt ts), okOrShape, parseI128, parseInt_showInt,
      Option.filter, fromUnixTimestampNanos] at h
    cases hi : isI128 ts with
    | false =>
      rw [hi] at h
      cases h
    | true =>
      simp only [hi, if_true, ok_bind, String.ofList_toList, t.parseStr_uuid] at h
      rw [if_neg hrep] at h
      cases h

theorem toScoreId_fromScoreId {score : Int} (h : isI64 score = true) (id : Uuid) :
    (fromScoreId t score id).toScoreId t = .ok (score, id) := by
  simp only [fromScoreId, toScoreId, raw_encode, ok_bind, stripPrefix_append,
    splitOnce_append (bar_not_mem_showInt score), okOrShape, parseI64, parseInt_showInt,
    Option.filter, h, if_true, String.ofList_toList, t.parseStr_uuid]
  rfl

/-- No number begins with a letter. -/
theorem stripPrefix_showInt {p : Char} {ps : List Char} (hminus : p ≠ '-')
    (hdigit : p.isDigit = false) (n : Int) (cs : List Char) :
    stripPrefix (p :: ps) (showInt n ++ cs) = none := by
  obtain ⟨c, rest, hc⟩ := List.exists_cons_of_ne_nil (showInt_ne_nil n)
  have hne : p ≠ c := by
    rintro rfl
    rcases mem_showInt (n := n) (hc ▸ List.mem_cons_self) with h | h
    · exact hminus h
    · simp [h] at hdigit
  simp [stripPrefix, hc, hne]

/-- A timestamp cursor is no score cursor. -/
theorem toScoreId_fromTimestampId (ts : OffsetDateTime) (id : Uuid) :
    (fromTimestampId t ts id).toScoreId t = .error .invalidShape := by
  have h : stripPrefix "score:".toList (showInt ts ++ '|' :: (t.uuid id).toList) = none :=
    stripPrefix_showInt (by decide) (by decide) ts _
  simp only [fromTimestampId, toScoreId, raw_encode, ok_bind, h, okOrShape, error_bind]

theorem toNameId_fromTimestampId (ts : OffsetDateTime) (id : Uuid) :
    (fromTimestampId t ts id).toNameId t = .error .invalidShape := by
  have h : stripPrefix "name:".toList (showInt ts ++ '|' :: (t.uuid id).toList) = none :=
    stripPrefix_showInt (by decide) (by decide) ts _
  simp only [fromTimestampId, toNameId, raw_encode, ok_bind, h, okOrShape, error_bind]

end Cursor

/-! ## Requests and pages -/

structure CursorParams where
  cursor : Option Cursor
  limit : Option Int
deriving DecidableEq, Repr

namespace CursorParams

/-- `unwrap_or(20).clamp(1, 100)`. -/
def pageLimit (p : CursorParams) : Int := max 1 (min (p.limit.getD 20) 100)

def limitPlusOne (p : CursorParams) : Int := p.pageLimit + 1

theorem pageLimit_pos (p : CursorParams) : 0 < p.pageLimit := by
  unfold pageLimit
  omega

theorem toNat_pageLimit_pos (p : CursorParams) : 0 < p.pageLimit.toNat := by
  have := p.pageLimit_pos
  omega

theorem toNat_limitPlusOne (p : CursorParams) : p.limitPlusOne.toNat = p.pageLimit.toNat + 1 :=
  Int.toNat_add p.pageLimit_pos.le (by decide)

/-- The same request from `c` on. -/
def resume (p : CursorParams) (c : Option Cursor) : CursorParams := { p with cursor := c }

@[simp] theorem cursor_resume (p : CursorParams) (c : Option Cursor) : (p.resume c).cursor = c := rfl

@[simp] theorem pageLimit_resume (p : CursorParams) (c : Option Cursor) :
    (p.resume c).pageLimit = p.pageLimit := rfl

end CursorParams

structure CursorPage (α : Type) where
  data : List α
  nextCursor : Option Cursor
  hasNextPage : Bool
deriving DecidableEq

namespace CursorPage

variable {α : Type}

def fromRows (rows : List α) (limit : Int) (encodeCursor : α → Cursor) : CursorPage α :=
  let hasNext := decide (rows.length > limit.toNat)
  let rows := if hasNext then rows.take limit.toNat else rows
  let nextCursor := if hasNext then rows.getLast?.map encodeCursor else none
  { data := rows, nextCursor, hasNextPage := hasNext }

variable {rows : List α} {limit : Int} {encodeCursor : α → Cursor}

theorem fromRows_of_le (h : rows.length ≤ limit.toNat) :
    fromRows rows limit encodeCursor = { data := rows, nextCursor := none, hasNextPage := false } := by
  simp [fromRows, Nat.not_lt.2 h]

theorem fromRows_of_append {pre post : List α} {a : α} (h : rows = pre ++ a :: post)
    (hlen : pre.length + 1 = limit.toNat) (hpost : post ≠ []) :
    fromRows rows limit encodeCursor =
      { data := pre ++ [a], nextCursor := some (encodeCursor a), hasNextPage := true } := by
  subst h
  have hlt : limit.toNat < (pre ++ a :: post).length := by
    have := List.length_pos_of_ne_nil hpost
    simp
    omega
  have htake : (pre ++ a :: post).take limit.toNat = pre ++ [a] := by
    rw [show pre ++ a :: post = (pre ++ [a]) ++ post by simp]
    exact List.take_left' (by simpa using hlen)
  simp only [fromRows, gt_iff_lt, decide_eq_true hlt, if_true, htake]
  simp

/-- The first `limit` rows, and where the last of them stands if there are more. -/
theorem fromRows_take {ρ : Type} {item : ρ → α} (rows : List ρ) (limit : Int)
    (encodeCursor : α → Cursor) :
    fromRows ((rows.take (limit.toNat + 1)).map item) limit encodeCursor = {
      data := (rows.take limit.toNat).map item
      nextCursor :=
        if limit.toNat < rows.length then
          ((rows.take limit.toNat).map item).getLast?.map encodeCursor
        else none
      hasNextPage := decide (limit.toNat < rows.length) } := by
  by_cases h : limit.toNat < rows.length
  · have hlen : limit.toNat < (rows.take (limit.toNat + 1)).length := by
      simp
      omega
    have htake : ((rows.take (limit.toNat + 1)).map item).take limit.toNat =
        (rows.take limit.toNat).map item := by
      rw [← List.map_take, List.take_take, Nat.min_eq_left (Nat.le_succ _)]
    simp only [fromRows, List.length_map, gt_iff_lt, hlen, h, decide_true, if_true, htake]
  · have hrows : rows.take (limit.toNat + 1) = rows := List.take_of_length_le (by omega)
    have hrows' : rows.take limit.toNat = rows := List.take_of_length_le (by omega)
    simp [fromRows, hrows, hrows', h]

/-- Both requests show the same rows, and that more follow or not. -/
def SameRows {ρ : Type} (limit limit' : Int) (rows rows' : List ρ) : Prop :=
  rows.take limit.toNat = rows'.take limit'.toNat ∧
    (limit.toNat < rows.length ↔ limit'.toNat < rows'.length)

/-- Rows that fit on both pages. -/
theorem sameRows_of_fit {ρ : Type} {limit limit' : Int} {rows : List ρ}
    (h : rows.length ≤ min limit.toNat limit'.toNat) : SameRows limit limit' rows rows := by
  obtain ⟨hfit, hfit'⟩ := Nat.le_min.1 h
  refine ⟨?_, iff_of_false (Nat.not_lt.2 hfit) (Nat.not_lt.2 hfit')⟩
  rw [List.take_of_length_le hfit, List.take_of_length_le hfit']

/-- Pages of rows that no item confuses. -/
theorem fromRows_eq_iff {ρ : Type} {item : ρ → α} {rows rows' : List ρ} {limit limit' : Int}
    {encodeCursor : α → Cursor} (hinj : ∀ x ∈ rows, ∀ y ∈ rows', item x = item y → x = y) :
    fromRows ((rows.take (limit.toNat + 1)).map item) limit encodeCursor =
        fromRows ((rows'.take (limit'.toNat + 1)).map item) limit' encodeCursor ↔
      SameRows limit limit' rows rows' := by
  rw [fromRows_take, fromRows_take, mk.injEq, decide_eq_decide]
  constructor
  · rintro ⟨hdata, -, hnext⟩
    refine ⟨eq_of_map_eq (fun x hx y hy => ?_) hdata, hnext⟩
    exact hinj x (List.mem_of_mem_take hx) y (List.mem_of_mem_take hy)
  · rintro ⟨hrows, hnext⟩
    simp [hrows, hnext]

end CursorPage

/-- A client asks for the page at `c` and, as long as there is a next page, for that; `items` is
all that it is shown. `n` counts the requests. -/
inductive Walk {ε α : Type} (fetch : Nat → Option Cursor → Except ε (CursorPage α)) :
    Nat → Option Cursor → List α → Prop
  | last {n : Nat} {c : Option Cursor} {page : CursorPage α} (h : fetch n c = .ok page)
      (hlast : page.hasNextPage = false) : Walk fetch n c page.data
  | next {n : Nat} {c : Option Cursor} {page : CursorPage α} {c' : Cursor} {items : List α}
      (h : fetch n c = .ok page) (hnext : page.hasNextPage = true)
      (hcursor : page.nextCursor = some c') (hrest : Walk fetch (n + 1) (some c') items) :
      Walk fetch n c (page.data ++ items)

namespace Walk

variable {ε α ρ κ : Type} {fetch : Nat → Option Cursor → Except ε (CursorPage α)}

/-- What a page shows of the rows `rest`: all of them, or the first `limit` and where the last of
these stands. -/
theorem page_cases (rest : List ρ) {limit : Int} (hpos : 0 < limit.toNat) (item : ρ → α)
    (encode : α → Cursor) :
    (rest.length ≤ limit.toNat ∧
        .fromRows ((rest.take (limit.toNat + 1)).map item) limit encode =
          ({ data := rest.map item, nextCursor := none, hasNextPage := false } : CursorPage α)) ∨
      ∃ pre a post, rest = pre ++ a :: post ∧ pre.length + 1 = limit.toNat ∧ post ≠ [] ∧
        .fromRows ((rest.take (limit.toNat + 1)).map item) limit encode =
          ({ data := (pre ++ [a]).map item, nextCursor := some (encode (item a)),
             hasNextPage := true } : CursorPage α) := by
  by_cases h : rest.length ≤ limit.toNat
  · refine .inl ⟨h, ?_⟩
    rw [List.take_of_length_le (by omega)]
    exact CursorPage.fromRows_of_le (by simpa using h)
  · obtain ⟨m, hm⟩ : ∃ m, limit.toNat = m + 1 := ⟨limit.toNat - 1, by omega⟩
    obtain ⟨pre, a, post, rfl, rfl⟩ : ∃ pre a post, rest = pre ++ a :: post ∧ pre.length = m :=
      ⟨rest.take m, rest[m], rest.drop (m + 1), by simp, by simp; omega⟩
    have hpost : post ≠ [] := by
      rintro rfl
      simp [hm] at h
    have htake : ((pre ++ a :: post).take (limit.toNat + 1)).map item =
        pre.map item ++ item a :: (post.take 1).map item := by
      rw [show pre ++ a :: post = (pre ++ [a]) ++ post by simp,
        show limit.toNat + 1 = (pre ++ [a]).length + 1 by simp [hm], List.take_length_add_append]
      simp
    refine .inr ⟨pre, a, post, rfl, hm.symm, hpost, ?_⟩
    rw [CursorPage.fromRows_of_append htake (by simp [hm]) (by simpa using hpost)]
    simp

/-- The request at `c` stands where the listing stands at `pos`. -/
def At (F : Listing ρ κ) (mark : ρ → Cursor) (c : Option Cursor) (pos : Option κ) : Prop :=
  c = none ∧ pos = none ∨ ∃ a ∈ F.rows, c = some (mark a) ∧ pos = some (F.cursor a)

/-- Every request that a walk can come to is answered from the listing. -/
def Answered (fetch : Nat → Option Cursor → Except ε (CursorPage α)) (F : Listing ρ κ)
    (limit : Int) (item : ρ → α) (encode : α → Cursor) : Prop :=
  ∀ n c pos, At F (fun a => encode (item a)) c pos →
    fetch n c = .ok (.fromRows (((F.rest pos).take (limit.toNat + 1)).map item) limit encode)

theorem visits_of_walk {F : Listing ρ κ} {limit : Int} {item : ρ → α} {encode : α → Cursor}
    (hfetch : Answered fetch F limit item encode) (hpos : 0 < limit.toNat) {n : Nat}
    {c : Option Cursor} {items : List α} (hwalk : Walk fetch n c items) {pos : Option κ}
    (hat : At F (fun a => encode (item a)) c pos) :
    ∃ xs, F.Visits limit.toNat pos xs ∧ items = xs.map item := by
  induction hwalk generalizing pos with
  | @last n c page h hlast =>
    rw [hfetch n c pos hat, Except.ok.injEq] at h
    rcases page_cases (F.rest pos) hpos item encode with
      ⟨hle, hpage⟩ | ⟨pre, a, post, hrest, hlen, hpost, hpage⟩
    · rw [hpage] at h
      subst h
      exact ⟨_, .last hle, rfl⟩
    · rw [hpage] at h
      subst h
      cases hlast
  | @next n c page c' items h hnext hcursor _ ih =>
    rw [hfetch n c pos hat, Except.ok.injEq] at h
    rcases page_cases (F.rest pos) hpos item encode with
      ⟨hle, hpage⟩ | ⟨pre, a, post, hrest, hlen, hpost, hpage⟩
    · rw [hpage] at h
      subst h
      cases hnext
    · rw [hpage] at h
      subst h
      have ha : a ∈ F.rows := by
        have : a ∈ F.rest pos := by simp [hrest]
        exact List.mem_of_mem_filter this
      obtain ⟨xs, hvisits, rfl⟩ := ih (.inr ⟨a, ha, hcursor.symm, rfl⟩)
      exact ⟨_, .more hrest hlen hpost hvisits, by simp⟩

theorem walk_of_visits {F : Listing ρ κ} {limit : Int} {item : ρ → α} {encode : α → Cursor}
    (hfetch : Answered fetch F limit item encode) {pos : Option κ} {xs : List ρ}
    (hvisits : F.Visits limit.toNat pos xs) (hpos : 0 < limit.toNat) {n : Nat} {c : Option Cursor}
    (hat : At F (fun a => encode (item a)) c pos) : Walk fetch n c (xs.map item) := by
  induction hvisits generalizing n c with
  | @last pos hle =>
    have h := hfetch n c pos hat
    rcases page_cases (F.rest pos) hpos item encode with
      ⟨-, hpage⟩ | ⟨pre, a, post, hrest, hlen, hpost, -⟩
    · rw [hpage] at h
      exact .last h rfl
    · have := List.length_pos_of_ne_nil hpost
      simp [hrest] at hle
      omega
  | @more pos pre post xs a hrest hlen hpost hnext ih =>
    have h := hfetch n c pos hat
    rcases page_cases (F.rest pos) hpos item encode with
      ⟨hle, -⟩ | ⟨pre', a', post', hrest', hlen', hpost', hpage⟩
    · have := List.length_pos_of_ne_nil hpost
      simp [hrest] at hle
      omega
    · obtain ⟨rfl, htail⟩ := List.append_inj (hrest.symm.trans hrest') (by omega)
      obtain ⟨rfl, rfl⟩ := List.cons.inj htail
      have ha : a ∈ F.rows := by
        have : a ∈ F.rest pos := by simp [hrest]
        exact List.mem_of_mem_filter this
      rw [hpage] at h
      have hwalk := @ih (n + 1) _ (.inr ⟨a, ha, rfl, rfl⟩)
      have := Walk.next h rfl rfl hwalk
      simpa using this

theorem walk_iff_visits {F : Listing ρ κ} {limit : Int} {item : ρ → α} {encode : α → Cursor}
    (hfetch : Answered fetch F limit item encode) (hpos : 0 < limit.toNat) {items : List α} :
    Walk fetch 0 none items ↔ ∃ xs, F.Visits limit.toNat none xs ∧ items = xs.map item := by
  constructor
  · intro h
    exact visits_of_walk hfetch hpos h (.inl ⟨rfl, rfl⟩)
  · rintro ⟨xs, h, rfl⟩
    exact walk_of_visits hfetch h hpos (.inl ⟨rfl, rfl⟩)

theorem not_walk {n : Nat} {c : Option Cursor} {items : List α} {e : ε}
    (h : fetch n c = .error e) : ¬ Walk fetch n c items := by
  intro hwalk
  cases hwalk with
  | last hpage _ => simp [h] at hpage
  | next hpage _ _ _ => simp [h] at hpage

/-- What a walk has shown was on one of its pages. -/
theorem exists_page {n : Nat} {c : Option Cursor} {items : List α} (h : Walk fetch n c items) {a : α}
    (ha : a ∈ items) : ∃ m c page, fetch m c = .ok page ∧ a ∈ page.data := by
  induction h with
  | last hpage _ => exact ⟨_, _, _, hpage, ha⟩
  | next hpage _ _ _ ih =>
    rcases List.mem_append.1 ha with ha | ha
    · exact ⟨_, _, _, hpage, ha⟩
    · exact ih ha

/-- Where no cursor is accepted, a walk ends well only on its first page. -/
theorem walk_iff_short {rows : List ρ} {limit : Int} {item : ρ → α} {encode : α → Cursor}
    (hpos : 0 < limit.toNat)
    (hfirst : fetch 0 none =
      .ok (.fromRows ((rows.take (limit.toNat + 1)).map item) limit encode))
    (hrefused : ∀ a ∈ rows, ∃ e, fetch 1 (some (encode (item a))) = .error e) {items : List α} :
    Walk fetch 0 none items ↔ rows.length ≤ limit.toNat ∧ items = rows.map item := by
  rcases page_cases rows hpos item encode with
    ⟨hle, hpage⟩ | ⟨pre, a, post, hrows, hlen, hpost, hpage⟩
  · rw [hpage] at hfirst
    constructor
    · intro hwalk
      cases hwalk with
      | last h _ =>
        rw [hfirst, Except.ok.injEq] at h
        exact ⟨hle, by rw [← h]⟩
      | next h hnext _ _ =>
        rw [hfirst, Except.ok.injEq] at h
        simp [← h] at hnext
    · rintro ⟨-, rfl⟩
      exact .last hfirst rfl
  · rw [hpage] at hfirst
    constructor
    · intro hwalk
      cases hwalk with
      | last h hlast =>
        rw [hfirst, Except.ok.injEq] at h
        simp [← h] at hlast
      | next h _ hcursor hrest =>
        rw [hfirst, Except.ok.injEq] at h
        obtain ⟨e, he⟩ := hrefused a (by simp [hrows])
        simp only [← h, Option.some.injEq] at hcursor
        rw [← hcursor] at hrest
        exact absurd hrest (not_walk he)
    · rintro ⟨hle, -⟩
      have := List.length_pos_of_ne_nil hpost
      simp [hrows] at hle
      omega

end Walk

/-! ## Sort directions -/

inductive Order where
  | desc
  | asc
deriving DecidableEq, Repr

namespace Order

/-- `Default`. -/
def default : Order := .desc

def sql : Order → List Sql.SortWord
  | .desc => [.dir .desc, .nulls .last]
  | .asc => [.dir .asc, .nulls .first]

def cursorOp : Order → Sql.CompareOp
  | .desc => .lt
  | .asc => .gt

end Order

end Meno
