import Meno.Lib.Calendar
import Meno.Shared.Json

/-!
# Meno.Broadcast.FlexibleTime

The time filters of the broadcasts' list (`start_time_gt` and so on) are read by
`deserialize_flexible_datetime`, which takes integers and several kinds of texts. A filter of the
query string is always a text.

An input says what it means (`Visited.Denotes`). The result is faithful to that, except for the
`u64` that wrap round to a time before the epoch, for a timestamp that arrives as a text, which
no parser takes, and for a date, where the visitor panics at a description that `time` refuses
(`flexible_time_faithful_iff`).
-/

namespace Meno

open Lib Lib.Calendar Lib.Text

/-- An instant by the clock of Greenwich. -/
def assumeUtc (d : Date) (t : TimeOfDay) : OffsetDateTime := utcSeconds d t * 1000000000

/-- The sign that may stand before a year. -/
def HasSign (year : Int) (sign : List Char) : Prop :=
  0 ≤ year ∧ (sign = [] ∨ sign = ['+']) ∨ year ≤ 0 ∧ sign = ['-']

/-- The texts of RFC 3339. A leap second is the end of the second before it. -/
inductive Rfc3339Text : List Char → OffsetDateTime → Prop where
  | time (t : ZonedTime) (separator zulu : Char) (h : zulu = 'Z' ∨ zulu = 'z') :
    Rfc3339Text (t.textWith separator zulu t.time.second) t.nanoseconds
  | leapSecond (t : ZonedTime) (separator zulu : Char) (h : zulu = 'Z' ∨ zulu = 'z')
    (hsecond : t.time.second = 59) :
    Rfc3339Text (t.textWith separator zulu 60) (t.seconds * 1000000000 + 999999999)

/-- The format descriptions of a date, and of a date and a time. -/
def dateDescription : String := "[year]-[month]-[day]"

def dateTimeDescription : String := "[year]-[month]-[day]T[hour]:[minute]:[second]"

/-- What `time` reads: RFC 3339, and texts of the two descriptions, which `parse_borrowed::<3>` may
refuse, as it does where the crate is built without `large-dates`. -/
structure TimeFormats where
  rfc3339 : String → Option OffsetDateTime
  Description : Type
  parseBorrowed : String → Option Description
  date : Description → String → Option Date
  dateTime : Description → String → Option (Date × TimeOfDay)
  rfc3339_text : ∀ t : ZonedTime, t.fraction.length ≤ 9 →
    rfc3339 (.ofList t.text) = some t.nanoseconds
  rfc3339_reads : ∀ {s ts}, rfc3339 s = some ts → Rfc3339Text s.toList ts
  date_text : ∀ {items} (d : Date), parseBorrowed dateDescription = some items → 0 ≤ d.year →
    date items (.ofList d.text) = some d
  date_reads : ∀ {items s d}, parseBorrowed dateDescription = some items →
    date items s = some d → ∃ sign, HasSign d.year sign ∧ s.toList = sign ++ d.text
  dateTime_reads : ∀ {items s p}, parseBorrowed dateTimeDescription = some items →
    dateTime items s = some p →
      ∃ sign, HasSign p.1.year sign ∧ s.toList = sign ++ p.1.text ++ 'T' :: p.2.text

/-- Parsers that take each kind of text as it is written, and nothing else, in a crate that is built
with `large-dates` or without. -/
def TimeFormats.plain (largeDates : Bool) : TimeFormats where
  rfc3339 s := (zonedForm.readAll s.toList).map ZonedTime.nanoseconds
  Description := Unit
  parseBorrowed _ := if largeDates then some () else none
  date _ s := (dateForm.readAll s.toList).map Subtype.val
  dateTime _ s := (dateTimeForm.readAll s.toList).map fun p => (p.1.val, p.2.2)
  rfc3339_text t _ := by
    rw [String.toList_ofList, ← write_zonedForm, TextForm.readAll_write, Option.map_some]
  rfc3339_reads h := by
    obtain ⟨t, hread, rfl⟩ := Option.map_eq_some_iff.1 h
    rw [← TextForm.write_of_readAll hread, write_zonedForm]
    exact .time t 'T' 'Z' (.inl rfl)
  date_text d _ hyear := by
    rw [String.toList_ofList, ← write_dateForm ⟨d, hyear⟩, TextForm.readAll_write, Option.map_some]
  date_reads _ h := by
    obtain ⟨d, hread, rfl⟩ := Option.map_eq_some_iff.1 h
    exact ⟨[], .inl ⟨d.property, .inl rfl⟩, (TextForm.write_of_readAll hread).symm⟩
  dateTime_reads _ h := by
    obtain ⟨p, hread, rfl⟩ := Option.map_eq_some_iff.1 h
    refine ⟨[], .inl ⟨p.1.property, .inl rfl⟩, ?_⟩
    rw [← TextForm.write_of_readAll hread, ← write_timeForm]
    rfl

/-- What the deserializer gives the visitor: a JSON number is an `i64` or a `u64`, a query parameter
is a text. -/
inductive Visited where
  | i64 (v : Int64)
  | u64 (v : UInt64)
  | str (v : String)
  | none
  | unit
  | other (v : Value)

/-- How the visitor ends. -/
inductive VisitEnd where
  | accepted (ts : Option OffsetDateTime)
  | rejected (e : DeError)
  | panicked

namespace FlexibleVisitor

def expecting : String := "a date string (YYYY-MM-DD), RFC 3339 datetime, or Unix timestamp"

/-- The timestamps of the years −9999 to 9999, which `time` has. -/
def Representable (seconds : Int) : Prop := -377705116800 ≤ seconds ∧ seconds ≤ 253402300799

instance (seconds : Int) : Decidable (Representable seconds) := inferInstanceAs (Decidable (_ ∧ _))

/-- The calendar has no others. -/
theorem representable_utcSeconds (d : Date) (t : TimeOfDay) : Representable (utcSeconds d t) :=
  utcSeconds_mem d t

/-- `OffsetDateTime::from_unix_timestamp` -/
def fromUnixTimestamp (seconds : Int64) : Option OffsetDateTime :=
  if Representable seconds.toInt then some (seconds.toInt * 1000000000) else none

def visitI64 (v : Int64) : VisitEnd :=
  match fromUnixTimestamp v with
  | some dt => .accepted (some dt)
  | none => .rejected (.custom s!"Unix timestamp {v.toInt} is out of range")

/-- `v as i64` wraps round. -/
def visitU64 (v : UInt64) : VisitEnd := visitI64 v.toInt64

/-- Each description is parsed where it is needed, and unwrapped. -/
def visitStr (f : TimeFormats) (v : String) : VisitEnd :=
  match f.rfc3339 v with
  | some dt => .accepted (some dt)
  | none =>
    match f.parseBorrowed dateDescription with
    | none => .panicked
    | some items =>
      match f.date items v with
      | some date => .accepted (some (assumeUtc date midnight))
      | none =>
        match f.parseBorrowed dateTimeDescription with
        | none => .panicked
        | some items =>
          match f.dateTime items v with
          | some pdt => .accepted (some (assumeUtc pdt.1 pdt.2))
          | none => .rejected (.custom (s!"invalid datetime \x27{v}\x27: " ++
              "expected YYYY-MM-DD, RFC 3339, or Unix timestamp"))

end FlexibleVisitor

open FlexibleVisitor

def deserializeFlexibleDatetime (f : TimeFormats) : Visited → VisitEnd
  | .i64 v => visitI64 v
  | .u64 v => visitU64 v
  | .str v => visitStr f v
  | .none | .unit => .accepted none
  | .other v => .rejected (.invalidType v expecting)

/-! ## What an input means -/

/-- An integer counts the seconds from the epoch. -/
def IntegerDenotes (n : Int) (ts : OffsetDateTime) : Prop :=
  Representable n ∧ ts = n * 1000000000

/-- The texts that mean an instant. -/
inductive TextDenotes : List Char → OffsetDateTime → Prop where
  | rfc3339 (cs : List Char) (ts : OffsetDateTime) (h : Rfc3339Text cs ts) : TextDenotes cs ts
  | date (d : Date) (sign : List Char) (h : HasSign d.year sign) :
    TextDenotes (sign ++ d.text) (assumeUtc d midnight)
  | dateTime (d : Date) (t : TimeOfDay) (sign : List Char) (h : HasSign d.year sign) :
    TextDenotes (sign ++ d.text ++ 'T' :: t.text) (assumeUtc d t)
  | timestamp (n : Int) (ts : OffsetDateTime) (h : IntegerDenotes n ts) : TextDenotes (showInt n) ts

/-- The texts that are documented: RFC 3339 in UTC or with an offset, a date, a timestamp. -/
inductive TextDocumented : List Char → OffsetDateTime → Prop where
  | rfc3339 (t : ZonedTime) (h : t.fraction.length ≤ 9) : TextDocumented t.text t.nanoseconds
  | date (d : Date) (h : 0 ≤ d.year) : TextDocumented d.text (assumeUtc d midnight)
  | timestamp (n : Int) (ts : OffsetDateTime) (h : IntegerDenotes n ts) :
    TextDocumented (showInt n) ts

namespace Visited

def integer : Visited → Option Int
  | .i64 v => some v.toInt
  | .u64 v => some v.toNat
  | _ => Option.none

def Denotes : Visited → OffsetDateTime → Prop
  | .i64 v, ts => IntegerDenotes v.toInt ts
  | .u64 v, ts => IntegerDenotes v.toNat ts
  | .str v, ts => TextDenotes v.toList ts
  | _, _ => False

/-- What has to be accepted. -/
def Documented : Visited → OffsetDateTime → Prop
  | .i64 v, ts => IntegerDenotes v.toInt ts
  | .u64 v, ts => IntegerDenotes v.toNat ts
  | .str v, ts => TextDocumented v.toList ts
  | _, _ => False

end Visited

/-- The result is the instant that the input means, and there is one for what is documented. -/
structure Faithful (f : TimeFormats) (v : Visited) : Prop where
  denoted : ∀ ts, deserializeFlexibleDatetime f v = .accepted (some ts) → v.Denotes ts
  accepted : ∀ ts, v.Documented ts → deserializeFlexibleDatetime f v = .accepted (some ts)
  rejected : ∀ n, v.integer = some n → ¬ Representable n →
    ∃ e, deserializeFlexibleDatetime f v = .rejected e

namespace Visited

/-- A `u64` does not wrap round to a time that there is; a text is no timestamp, nor a date where
its description is refused. -/
def Meets (f : TimeFormats) : Visited → Prop
  | .u64 v => v.toNat < 2 ^ 64 - 377705116800
  | .str v => (¬ ∃ n : Int, Representable n ∧ v.toList = showInt n) ∧
    (f.parseBorrowed dateDescription = Option.none → ¬ ∃ d : Date, 0 ≤ d.year ∧ v.toList = d.text)
  | _ => True

end Visited

/-! ## Integers -/

theorem toInt_toInt64 (v : UInt64) :
    v.toInt64.toInt = if v.toNat < 2 ^ 63 then (v.toNat : Int) else v.toNat - 2 ^ 64 := by
  have hbits : v.toInt64.toInt = v.toBitVec.toInt := rfl
  have hnat : v.toBitVec.toNat = v.toNat := rfl
  rw [hbits, BitVec.toInt_eq_toNat_cond, hnat]
  split <;> split <;> omega

theorem visitI64_cases (v : Int64) :
    Representable v.toInt ∧ visitI64 v = .accepted (some (v.toInt * 1000000000)) ∨
      ¬ Representable v.toInt ∧ ∃ e, visitI64 v = .rejected e := by
  by_cases h : Representable v.toInt
  · refine .inl ⟨h, ?_⟩
    rw [visitI64, fromUnixTimestamp, if_pos h]
  · refine .inr ⟨h, .custom s!"Unix timestamp {v.toInt} is out of range", ?_⟩
    rw [visitI64, fromUnixTimestamp, if_neg h]

/-- An integer that keeps its value on the way is read rightly. -/
theorem faithful_of_visitI64 {f : TimeFormats} {v : Visited} {w : Int64} {n : Int}
    (hvisit : deserializeFlexibleDatetime f v = visitI64 w)
    (hdenotes : v.Denotes = IntegerDenotes n) (hdocumented : v.Documented = IntegerDenotes n)
    (hinteger : v.integer = some n)
    (hvalue : Representable w.toInt ∨ Representable n → w.toInt = n) : Faithful f v := by
  rcases visitI64_cases w with ⟨hw, hok⟩ | ⟨hw, e, herror⟩
  · obtain rfl := hvalue (.inl hw)
    refine ⟨fun ts h => ?_, fun ts h => ?_, fun n h hn => ?_⟩
    · rw [hvisit, hok] at h
      cases h
      rw [hdenotes]
      exact ⟨hw, rfl⟩
    · rw [hdocumented] at h
      rw [hvisit, hok, h.2]
    · rw [hinteger] at h
      cases h
      exact absurd hw hn
  · refine ⟨fun ts h => ?_, fun ts h => ?_, fun n h hn => ⟨e, by rw [hvisit, herror]⟩⟩
    · rw [hvisit, herror] at h
      cases h
    · rw [hdocumented] at h
      have hsame := hvalue (.inr h.1)
      rw [hsame] at hw
      exact absurd h.1 hw

/-! ## Texts -/

section Texts

variable {f : TimeFormats} {s : String}

theorem Rfc3339Text.colon_mem {cs : List Char} {ts : OffsetDateTime} (h : Rfc3339Text cs ts) :
    ':' ∈ cs := by
  cases h with
  | time => exact ZonedTime.colon_mem_textWith ..
  | leapSecond => exact ZonedTime.colon_mem_textWith ..

theorem rfc3339_eq_none (h : ':' ∉ s.toList) : f.rfc3339 s = none := by
  cases hread : f.rfc3339 s with
  | none => rfl
  | some ts => exact absurd (f.rfc3339_reads hread).colon_mem h

theorem dateTime_eq_none {items : f.Description}
    (hitems : f.parseBorrowed dateTimeDescription = some items) (h : ':' ∉ s.toList) :
    f.dateTime items s = none := by
  cases hread : f.dateTime items s with
  | none => rfl
  | some p =>
    obtain ⟨sign, -, htext⟩ := f.dateTime_reads hitems hread
    refine absurd ?_ h
    simp [htext, TimeOfDay.text, TimeOfDay.textWith]

/-- A date has a hyphen that is no sign. -/
theorem date_eq_none {items : f.Description} {n : Int}
    (hitems : f.parseBorrowed dateDescription = some items) (h : s.toList = showInt n) :
    f.date items s = none := by
  cases hread : f.date items s with
  | none => rfl
  | some d =>
    obtain ⟨sign, hsign, htext⟩ := f.date_reads hitems hread
    have hhyphen : '-' ∈ (showInt n).tail := by
      have htail := d.hyphen_mem_tail_text
      rw [← h, htext]
      rcases hsign with ⟨-, rfl | rfl⟩ | ⟨-, rfl⟩
      · exact htail
      · exact List.mem_of_mem_tail htail
      · exact List.mem_of_mem_tail htail
    exact absurd (isDigit_of_mem_tail_showInt hhyphen) (by decide)

/-- Where the description of a date is refused, every text that is not RFC 3339 makes the visitor
panic. -/
theorem visitStr_panics (hrfc3339 : f.rfc3339 s = none)
    (hrefused : f.parseBorrowed dateDescription = none) : visitStr f s = .panicked := by
  rw [visitStr, hrfc3339, hrefused]

/-- A timestamp is none of the texts that are read. -/
theorem visitStr_timestamp {n : Int} (h : s.toList = showInt n) (ts : Option OffsetDateTime) :
    visitStr f s ≠ .accepted ts := by
  have hcolon : ':' ∉ s.toList := by
    rw [h]
    exact colon_not_mem_showInt n
  have hrfc3339 : f.rfc3339 s = none := rfc3339_eq_none hcolon
  cases hdate : f.parseBorrowed dateDescription with
  | none =>
    rw [visitStr_panics hrfc3339 hdate]
    nofun
  | some items =>
    rw [visitStr, hrfc3339, hdate]
    dsimp only
    rw [date_eq_none hdate h]
    cases hdateTime : f.parseBorrowed dateTimeDescription with
    | none => nofun
    | some items' =>
      dsimp only
      rw [dateTime_eq_none hdateTime hcolon]
      nofun

/-- What is read from a text, the text means. -/
theorem denotes_of_visitStr {ts : OffsetDateTime} (h : visitStr f s = .accepted (some ts)) :
    TextDenotes s.toList ts := by
  unfold visitStr at h
  cases hrfc3339 : f.rfc3339 s with
  | some dt =>
    rw [hrfc3339] at h
    cases h
    exact .rfc3339 _ _ (f.rfc3339_reads hrfc3339)
  | none =>
    rw [hrfc3339] at h
    cases hitems : f.parseBorrowed dateDescription with
    | none =>
      rw [hitems] at h
      cases h
    | some items =>
      rw [hitems] at h
      dsimp only at h
      cases hdate : f.date items s with
      | some d =>
        rw [hdate] at h
        cases h
        obtain ⟨sign, hsign, htext⟩ := f.date_reads hitems hdate
        rw [htext]
        exact .date d sign hsign
      | none =>
        rw [hdate] at h
        cases hitems' : f.parseBorrowed dateTimeDescription with
        | none =>
          rw [hitems'] at h
          cases h
        | some items' =>
          rw [hitems'] at h
          dsimp only at h
          cases hdateTime : f.dateTime items' s with
          | some p =>
            rw [hdateTime] at h
            cases h
            obtain ⟨sign, hsign, htext⟩ := f.dateTime_reads hitems' hdateTime
            rw [htext]
            exact .dateTime p.1 p.2 sign hsign
          | none =>
            rw [hdateTime] at h
            cases h

theorem date_has_no_colon {d : Date} (h : s.toList = d.text) : ':' ∉ s.toList := by
  rw [h]
  exact d.colon_not_mem_text

/-- A documented text is read, if it is not a timestamp, and its description is not refused. -/
theorem visitStr_documented {cs : List Char} {ts : OffsetDateTime} (h : TextDocumented cs ts)
    (hcs : s.toList = cs) (hmeets : Visited.Meets f (.str s)) :
    visitStr f s = .accepted (some ts) := by
  have hs : s = .ofList cs := by rw [← hcs, String.ofList_toList]
  cases h with
  | rfc3339 t hfraction =>
    rw [visitStr, hs, f.rfc3339_text t hfraction]
  | date d hyear =>
    cases hitems : f.parseBorrowed dateDescription with
    | none => exact absurd ⟨d, hyear, hcs⟩ (hmeets.2 hitems)
    | some items =>
      rw [visitStr, rfc3339_eq_none (date_has_no_colon hcs), hitems]
      dsimp only
      rw [hs, f.date_text d hitems hyear]
  | timestamp n ts hn => exact absurd ⟨n, hn.1, hcs⟩ hmeets.1

end Texts

/-- **Time filters mean what they say**, exactly if an integer does not wrap round to a time that
there is and a text is no timestamp, nor a date whose description is refused. -/
theorem flexible_time_faithful_iff (f : TimeFormats) (v : Visited) : Faithful f v ↔ v.Meets f := by
  cases v with
  | i64 v =>
    exact iff_of_true (faithful_of_visitI64 rfl rfl rfl rfl fun _ => rfl) trivial
  | u64 v =>
    have hvalue := toInt_toInt64 v
    have hlt := v.toNat_lt
    constructor
    · intro h
      rw [Visited.Meets]
      by_contra hwraps
      rw [if_neg (by omega)] at hvalue
      rcases visitI64_cases v.toInt64 with ⟨-, hok⟩ | ⟨hrange, -⟩
      · have hdenotes : IntegerDenotes v.toNat _ := h.denoted _ hok
        have hrange := hdenotes.1.2
        omega
      · refine hrange ?_
        rw [Representable, hvalue]
        omega
    · intro h
      refine faithful_of_visitI64 rfl rfl rfl rfl fun hrange => ?_
      rw [Visited.Meets] at h
      simp only [Representable] at hrange
      split at hvalue
      · exact hvalue
      · omega
  | str s =>
    constructor
    · intro h
      constructor
      · rintro ⟨n, hn, hs⟩
        have hdocumented : Visited.Documented (.str s) (n * 1000000000) := by
          rw [Visited.Documented, hs]
          exact .timestamp n _ ⟨hn, rfl⟩
        exact visitStr_timestamp hs _ (h.accepted _ hdocumented)
      · rintro hrefused ⟨d, hyear, hs⟩
        have hdocumented : Visited.Documented (.str s) (assumeUtc d midnight) := by
          rw [Visited.Documented, hs]
          exact .date d hyear
        have hok := h.accepted _ hdocumented
        have hcolon := date_has_no_colon hs
        rw [deserializeFlexibleDatetime, visitStr_panics (rfc3339_eq_none hcolon) hrefused] at hok
        cases hok
    · intro h
      refine ⟨fun ts => denotes_of_visitStr, fun ts hdocumented => ?_, fun n h => (by cases h)⟩
      exact visitStr_documented hdocumented rfl h
  | none | unit | other =>
    exact iff_of_true ⟨fun ts h => (by cases h), fun ts h => False.elim h, fun n h => (by cases h)⟩
      trivial

def may26 : Date := ⟨2026, 5, 26, by decide, by decide, by decide⟩

/-- In the query string a Unix timestamp is not accepted, however `time` is built, nor a date as it is
built; and the greatest `u64` is taken for the second before the epoch. -/
theorem timestamp_text_refused :
    (∀ largeDates, ¬ Faithful (.plain largeDates) (.str "1716768000")) ∧
      ¬ Faithful (.plain false) (.str "2026-05-26") ∧
        ¬ Faithful (.plain false) (.u64 18446744073709551615) := by
  refine ⟨fun largeDates h => ?_, fun h => ?_, fun h => ?_⟩
  · have hok := h.accepted _ (TextDocumented.timestamp 1716768000 _ ⟨by decide, rfl⟩)
    have hs : "1716768000".toList = showInt 1716768000 := by decide
    exact visitStr_timestamp (f := .plain largeDates) hs _ hok
  · have hok := h.accepted _ (TextDocumented.date may26 (by decide))
    have hcolon : ':' ∉ "2026-05-26".toList := by decide
    rw [deserializeFlexibleDatetime, visitStr_panics (rfc3339_eq_none hcolon) rfl] at hok
    cases hok
  · obtain ⟨-, hle⟩ : IntegerDenotes 18446744073709551615 (-1000000000) := h.denoted _ rfl
    cases hle

end Meno
