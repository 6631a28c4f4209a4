import Meno.Lib.Versioned
import Meno.Notes.Service
import Meno.Notes.Statements

/-!
# Meno.Notes.PushCells

What a push means for a single row, without database and transaction: the row is a versioned
register and the mutations of its id are offered to it in order. `seen` is the committed row the
push started from (what a lookup on the pool finds throughout), `cur` the row as the transaction
has it by now.

`Fits` says that no mutation of the id ends the push, `settle` is the row that is left, and
`ReportedApplied` which mutations are reported as applied.
-/

namespace Meno

open Lib

/-! ## Mutations that reach the table -/

namespace Mutation

variable {k : EntityType}

/-- Created and deleted before it was ever synced: answered without a write. -/
def unpersisted {F : Type} (m : Mutation F) : Bool := m.baseVersion.isNone && m.deleted

def valid (m : Mutation k.Fields) : Bool := (NotesService.rejection k m.fields).isNone

/-- The mutation is offered to its row. -/
def effective (m : Mutation k.Fields) : Bool := m.valid && !m.unpersisted

/-- The text parameters of the mutation's statements can be bound. -/
def Storable (m : Mutation k.Fields) : Prop := k.bindFields m.fields = .ok ()

variable {F : Type}

/-- The caller's row, and live: what `find_*_by_id` finds. -/
def LiveFor (c : Uuid) (seen : Option (Row F)) : Prop :=
  ∃ r, seen = some r ∧ r.creatorId = c ∧ r.deletedAt = none

/-- The mutation is written to its row: it is the caller's row, and the mutation names its
version, or names none and finds no row, or is newer than the committed live row. -/
def hits (c : Uuid) (seen : Option (Row F)) (v : Option Int) (m : Mutation F) : Bool :=
  seen.all (·.creatorId == c) &&
    match v, m.baseVersion with
    | none, b => b.isNone
    | some v, some b => b == v
    | some _, none => seen.any fun r => r.deletedAt.isNone && decide (r.updatedAt < m.clientUpdatedAt)

theorem hits_absent {c : Uuid} {seen : Option (Row F)} {m : Mutation F} :
    hits c seen none m = true ↔ seen.all (·.creatorId == c) = true ∧ m.baseVersion = none := by
  simp [hits]

theorem hits_based {c : Uuid} {seen : Option (Row F)} {v b : Int} {m : Mutation F}
    (hb : m.baseVersion = some b) :
    hits c seen (some v) m = true ↔ seen.all (·.creatorId == c) = true ∧ v = b := by
  unfold hits
  rw [hb]
  simp only [Bool.and_eq_true, beq_iff_eq]
  exact and_congr_right fun _ => eq_comm

theorem hits_collision {c : Uuid} {seen : Option (Row F)} {v : Int} {m : Mutation F}
    (hb : m.baseVersion = none) :
    hits c seen (some v) m = true ↔
      ∃ r, seen = some r ∧ r.creatorId = c ∧ r.deletedAt = none ∧
        r.updatedAt < m.clientUpdatedAt := by
  cases seen with
  | none => simp [hits, hb]
  | some r => simp [hits, hb]

theorem hits_guarded {c : Uuid} {seen : Option (Row F)} {m : Mutation F} {b : Int}
    (hb : m.baseVersion = some b) : Guarded (hits c seen) m b := by
  intro v h
  cases v with
  | none =>
    rw [hits_absent, hb] at h
    cases h.2
  | some v => rw [((hits_based hb).1 h).2]

/-- The row that the mutation writes over `cur`. -/
def writeTo (m : Mutation F) (now : OffsetDateTime) (c : Uuid) : Option (Row F) → Row F
  | none => newRow now m.id c m.fields
  | some r => { r with
      fields := m.fields
      deletedAt := if m.deleted then some (r.deletedAt.getD now) else none
      version := r.version + 1
      updatedAt := now }

end Mutation

open Mutation

/-! ## The row as a register -/

section Cell

variable {F : Type} (now : OffsetDateTime) (c : Uuid) (seen : Option (Row F))

def versionOf (cur : Option (Row F)) : Option Int := cur.map Row.version

/-- The mutations of one id that are written. -/
def landedOn (cur : Option (Row F)) (ms : List (Mutation F)) : List (Mutation F) :=
  landed (hits c seen) (versionOf cur) ms

/-- The row that the mutations of its id leave. -/
def settle : Option (Row F) → List (Mutation F) → Option (Row F)
  | cur, [] => cur
  | cur, m :: ms =>
    if m.hits c seen (versionOf cur) then settle (some (m.writeTo now c cur)) ms else settle cur ms

variable {now c seen}

@[simp] theorem settle_nil (cur : Option (Row F)) : settle now c seen cur [] = cur := rfl

theorem settle_cons_hit {cur : Option (Row F)} {m : Mutation F} {ms : List (Mutation F)}
    (h : m.hits c seen (versionOf cur) = true) :
    settle now c seen cur (m :: ms) = settle now c seen (some (m.writeTo now c cur)) ms := by
  simp [settle, h]

theorem settle_cons_miss {cur : Option (Row F)} {m : Mutation F} {ms : List (Mutation F)}
    (h : m.hits c seen (versionOf cur) = false) :
    settle now c seen cur (m :: ms) = settle now c seen cur ms := by
  simp [settle, h]

theorem settle_append (xs ys : List (Mutation F)) :
    ∀ cur, settle now c seen cur (xs ++ ys) = settle now c seen (settle now c seen cur xs) ys := by
  induction xs with
  | nil => intro cur; rfl
  | cons m xs ih =>
    intro cur
    cases h : m.hits c seen (versionOf cur) with
    | true => rw [List.cons_append, settle_cons_hit h, settle_cons_hit h, ih]
    | false => rw [List.cons_append, settle_cons_miss h, settle_cons_miss h, ih]

@[simp] theorem versionOf_writeTo (now : OffsetDateTime) (c : Uuid) (m : Mutation F)
    (cur : Option (Row F)) :
    versionOf (some (m.writeTo now c cur)) = raise (versionOf cur) := by
  cases cur <;> rfl

theorem versionOf_settle (ms : List (Mutation F)) :
    ∀ cur, versionOf (settle now c seen cur ms) = after (hits c seen) (versionOf cur) ms := by
  induction ms with
  | nil => intro cur; rfl
  | cons m ms ih =>
    intro cur
    cases h : m.hits c seen (versionOf cur) with
    | true => rw [settle_cons_hit h, after_cons_hit h, ih, versionOf_writeTo]
    | false => rw [settle_cons_miss h, after_cons_miss h, ih]

/-- The row has the mutation's content. -/
def Shows (r : Row F) (m : Mutation F) : Prop := r.fields = m.fields ∧ r.isDeleted = m.deleted

theorem shows_writeTo {m : Mutation F} {cur : Option (Row F)} (hm : m.unpersisted = false)
    (h : m.hits c seen (versionOf cur) = true) : Shows (m.writeTo now c cur) m := by
  cases cur with
  | none =>
    have hb : m.baseVersion = none := (hits_absent.1 h).2
    have hd : m.deleted = false := by simpa [unpersisted, hb] using hm
    exact ⟨rfl, hd.symm⟩
  | some r =>
    refine ⟨rfl, ?_⟩
    cases hd : m.deleted <;> simp [writeTo, Row.isDeleted, hd]

/-- What is left is the row as it was, when nothing lands, and else the last landing. -/
theorem settle_spec (now : OffsetDateTime) (c : Uuid) (seen : Option (Row F))
    (ms : List (Mutation F)) (hms : ∀ m ∈ ms, m.unpersisted = false) :
    ∀ cur, (landedOn c seen cur ms = [] ∧ settle now c seen cur ms = cur) ∨
      ∃ m r, (landedOn c seen cur ms).getLast? = some m ∧ settle now c seen cur ms = some r ∧
        Shows r m ∧ r.updatedAt = now ∧ r.creatorId = (cur.map Row.creatorId).getD c := by
  induction ms with
  | nil => intro cur; exact .inl ⟨rfl, rfl⟩
  | cons m ms ih =>
    intro cur
    have ih := ih fun x hx => hms x (List.mem_cons_of_mem _ hx)
    cases h : m.hits c seen (versionOf cur) with
    | false =>
      rw [landedOn, landed_cons_miss h, settle_cons_miss h]
      exact ih cur
    | true =>
      rw [landedOn, landed_cons_hit h, settle_cons_hit h, ← versionOf_writeTo now c]
      refine .inr ?_
      have hcreator : (m.writeTo now c cur).creatorId = (cur.map Row.creatorId).getD c := by
        cases cur <;> rfl
      rcases ih (some (m.writeTo now c cur)) with ⟨hnil, hs⟩ | ⟨m', r, hlast, hs, hshow, hup, hc⟩
      · rw [landedOn] at hnil
        rw [hnil, hs]
        refine ⟨m, _, rfl, rfl, shows_writeTo (hms m List.mem_cons_self) h, ?_, hcreator⟩
        cases cur <;> rfl
      · rw [landedOn] at hlast
        refine ⟨m', r, ?_, hs, hshow, hup, ?_⟩
        · rw [List.getLast?_cons, hlast]
          rfl
        · rw [hc, ← hcreator]
          rfl

/-- A row that takes a write is the caller's. -/
theorem owner_of_landed {F : Type} {seen cur : Option (Row F)} {ms : List (Mutation F)}
    (h : landedOn c seen cur ms ≠ []) : seen.all (·.creatorId == c) = true := by
  obtain ⟨m, hm⟩ := List.exists_mem_of_ne_nil _ h
  obtain ⟨_, _, _, hhit⟩ := mem_landed.1 hm
  exact (Bool.and_eq_true_iff.1 hhit).1

end Cell

/-! ## Mutations that end the push -/

section Fits

variable {k : EntityType} (c : Uuid) (seen : Option (Row k.Fields))

/-- No mutation of the id ends the push: their texts can be stored; each is written, or has the
committed live row to be answered with; and the version stays in its column. -/
structure Fits (cur : Option (Row k.Fields)) (ms : List (Mutation k.Fields)) : Prop where
  storable : ∀ m ∈ ms, m.Storable
  met : landedOn c seen cur ms = ms ∨ LiveFor c seen
  room : landedOn c seen cur ms ≠ [] →
    (versionOf cur).getD 0 + (landedOn c seen cur ms).length ≤ intMax

variable {c seen}

theorem fits_nil (cur : Option (Row k.Fields)) : Fits c seen cur [] where
  storable := by simp
  met := .inl rfl
  room h := absurd rfl h

/-- A written mutation passes its own test, and the rest meets what it left. -/
theorem fits_cons_hit (now : OffsetDateTime) {cur : Option (Row k.Fields)} {m : Mutation k.Fields}
    {ms : List (Mutation k.Fields)} (h : m.hits c seen (versionOf cur) = true) :
    Fits c seen cur (m :: ms) ↔
      m.Storable ∧ (versionOf cur).getD 0 < intMax ∧
        Fits c seen (some (m.writeTo now c cur)) ms := by
  have hl : landedOn c seen cur (m :: ms) =
      m :: landedOn c seen (some (m.writeTo now c cur)) ms := by
    rw [landedOn, landed_cons_hit h, landedOn, versionOf_writeTo]
  have hv : (versionOf (some (m.writeTo now c cur))).getD 0 = (versionOf cur).getD 0 + 1 := by
    rw [versionOf_writeTo, raise_getD]
  constructor
  · rintro ⟨hst, hmet, hroom⟩
    rw [hl] at hmet hroom
    have hroom := hroom (List.cons_ne_nil _ _)
    rw [List.length_cons] at hroom
    refine ⟨hst m List.mem_cons_self, by omega, ?_, ?_, ?_⟩
    · exact fun x hx => hst x (List.mem_cons_of_mem _ hx)
    · exact hmet.imp_left fun he => (List.cons.inj he).2
    · intro _
      rw [hv]
      omega
  · rintro ⟨hm, hlt, hst, hmet, hroom⟩
    refine ⟨?_, ?_, ?_⟩
    · intro x hx
      rcases List.mem_cons.1 hx with rfl | hx
      · exact hm
      · exact hst x hx
    · rw [hl]
      exact hmet.imp_left fun he => by rw [he]
    · intro _
      rw [hl, List.length_cons]
      by_cases hnil : landedOn c seen (some (m.writeTo now c cur)) ms = []
      · rw [hnil, List.length_nil]
        omega
      · have := hroom hnil
        rw [hv] at this
        omega

/-- A mutation that is not written needs the live row. -/
theorem fits_cons_miss {cur : Option (Row k.Fields)} {m : Mutation k.Fields}
    {ms : List (Mutation k.Fields)} (h : m.hits c seen (versionOf cur) = false) :
    Fits c seen cur (m :: ms) ↔ m.Storable ∧ LiveFor c seen ∧ Fits c seen cur ms := by
  have hl : landedOn c seen cur (m :: ms) = landedOn c seen cur ms := by
    rw [landedOn, landed_cons_miss h, landedOn]
  have hne : landedOn c seen cur (m :: ms) ≠ m :: ms := landed_ne_of_miss h
  constructor
  · rintro ⟨hst, hmet, hroom⟩
    have hlive := hmet.resolve_left hne
    rw [hl] at hroom
    refine ⟨hst m List.mem_cons_self, hlive, ?_, .inr hlive, hroom⟩
    exact fun x hx => hst x (List.mem_cons_of_mem _ hx)
  · rintro ⟨hm, hlive, hst, _, hroom⟩
    refine ⟨?_, .inr hlive, ?_⟩
    · intro x hx
      rcases List.mem_cons.1 hx with rfl | hx
      · exact hm
      · exact hst x hx
    · rw [hl]
      exact hroom

theorem fits_append (now : OffsetDateTime) (xs ys : List (Mutation k.Fields)) :
    ∀ cur, Fits c seen cur (xs ++ ys) ↔
      Fits c seen cur xs ∧ Fits c seen (settle now c seen cur xs) ys := by
  induction xs with
  | nil =>
    intro cur
    exact ⟨fun h => ⟨fits_nil cur, h⟩, fun h => h.2⟩
  | cons m xs ih =>
    intro cur
    cases h : m.hits c seen (versionOf cur) with
    | true =>
      rw [List.cons_append, fits_cons_hit now h, fits_cons_hit now h,
        settle_cons_hit h, ih]
      exact ⟨fun ⟨a, b, d, e⟩ => ⟨⟨a, b, d⟩, e⟩, fun ⟨⟨a, b, d⟩, e⟩ => ⟨a, b, d, e⟩⟩
    | false =>
      rw [List.cons_append, fits_cons_miss h, fits_cons_miss h, settle_cons_miss h, ih]
      exact ⟨fun ⟨a, b, d, e⟩ => ⟨⟨a, b, d⟩, e⟩, fun ⟨⟨a, b, d⟩, e⟩ => ⟨a, b, d, e⟩⟩

end Fits

/-! ## A batch, id by id -/

section Offers

variable {k : EntityType}

/-- The mutations of `ms` that reach the row `id`, in order. -/
def offers (id : Uuid) (ms : List (Nat × Mutation k.Fields)) : List (Mutation k.Fields) :=
  (ms.map Prod.snd).filter fun m => m.id == id && m.effective

@[simp] theorem offers_nil (id : Uuid) : offers id ([] : List (Nat × Mutation k.Fields)) = [] := rfl

theorem offers_append (id : Uuid) (xs ys : List (Nat × Mutation k.Fields)) :
    offers id (xs ++ ys) = offers id xs ++ offers id ys := by
  simp [offers]

theorem offers_cons_idle {id : Uuid} {p : Nat × Mutation k.Fields}
    {ms : List (Nat × Mutation k.Fields)} (h : p.2.effective = false) :
    offers id (p :: ms) = offers id ms := by
  simp [offers, h]

theorem offers_cons_other {id : Uuid} {p : Nat × Mutation k.Fields}
    {ms : List (Nat × Mutation k.Fields)} (h : id ≠ p.2.id) :
    offers id (p :: ms) = offers id ms := by
  have : (p.2.id == id) = false := by simpa using Ne.symm h
  simp [offers, this]

theorem offers_cons_self {p : Nat × Mutation k.Fields} {ms : List (Nat × Mutation k.Fields)}
    (h : p.2.effective = true) : offers p.2.id (p :: ms) = p.2 :: offers p.2.id ms := by
  simp [offers, h]

theorem mem_offers {id : Uuid} {ms : List (Nat × Mutation k.Fields)} {m : Mutation k.Fields} :
    m ∈ offers id ms ↔ (∃ i, (i, m) ∈ ms) ∧ m.id = id ∧ m.effective = true := by
  simp [offers]

/-- A cut in what reaches a row is a cut in the batch. -/
theorem offers_split {id : Uuid} {m : Mutation k.Fields} {post : List (Mutation k.Fields)} :
    ∀ {ms : List (Nat × Mutation k.Fields)} {pre : List (Mutation k.Fields)},
      offers id ms = pre ++ m :: post →
      m.id = id ∧ ∃ pre' i post', ms = pre' ++ (i, m) :: post' ∧ offers id pre' = pre := by
  intro ms
  induction ms with
  | nil => intro pre h; simp at h
  | cons p ms ih =>
    intro pre h
    by_cases hp : id = p.2.id ∧ p.2.effective = true
    · obtain ⟨rfl, he⟩ := hp
      rw [offers_cons_self he] at h
      cases pre with
      | nil =>
        obtain ⟨rfl, _⟩ := List.cons.inj h
        exact ⟨rfl, [], p.1, ms, rfl, rfl⟩
      | cons x pre =>
        obtain ⟨rfl, htail⟩ := List.cons.inj h
        obtain ⟨hid, pre', i, post', rfl, hpre⟩ := ih htail
        exact ⟨hid, p :: pre', i, post', rfl, by rw [offers_cons_self he, hpre]⟩
    · have hskip : ∀ ys, offers id (p :: ys) = offers id ys := by
        intro ys
        by_cases hid : id = p.2.id
        · exact offers_cons_idle (by simpa using fun he => hp ⟨hid, he⟩)
        · exact offers_cons_other hid
      rw [hskip] at h
      obtain ⟨hid, pre', i, post', rfl, hpre⟩ := ih h
      exact ⟨hid, p :: pre', i, post', rfl, by rw [hskip, hpre]⟩

theorem unpersisted_of_mem_offers {id : Uuid} {ms : List (Nat × Mutation k.Fields)} :
    ∀ m ∈ offers id ms, m.unpersisted = false := by
  intro m hm
  have he := (mem_offers.1 hm).2.2
  simp only [effective, Bool.and_eq_true, Bool.not_eq_true'] at he
  exact he.2

/-- The mutation is reported as applied, after the mutations `before` of its id: it is valid, and
it is written or was over before it was ever synced. -/
def ReportedApplied (c : Uuid) (seen cur : Option (Row k.Fields))
    (before : List (Mutation k.Fields)) (m : Mutation k.Fields) : Prop :=
  m.valid = true ∧
    (m.unpersisted = true ∨ m.hits c seen (after (hits c seen) (versionOf cur) before) = true)

/-- A mutation that is written somewhere in the batch is reported as applied there. -/
theorem reportedApplied_of_landed {c id : Uuid} {seen cur : Option (Row k.Fields)}
    {ms : List (Nat × Mutation k.Fields)} {m : Mutation k.Fields}
    (h : m ∈ landedOn c seen cur (offers id ms)) :
    m.id = id ∧ ∃ pre i post, ms = pre ++ (i, m) :: post ∧
      ReportedApplied c seen cur (offers id pre) m := by
  obtain ⟨pre, post, hsplit, hhit⟩ := mem_landed.1 h
  obtain ⟨hid, pre', i, post', hms, rfl⟩ := offers_split hsplit
  have hv := (Bool.and_eq_true_iff.1 (mem_offers.1 ((landed_sublist _ _ _).subset h)).2.2).1
  exact ⟨hid, pre', i, post', hms, hv, .inr hhit⟩

/-- And the other way round, when it is not answered without a write. -/
theorem landed_of_reportedApplied {c : Uuid} {seen cur : Option (Row k.Fields)}
    {pre post : List (Nat × Mutation k.Fields)} {i : Nat} {m : Mutation k.Fields}
    (hu : m.unpersisted = false) (h : ReportedApplied c seen cur (offers m.id pre) m) :
    m ∈ landedOn c seen cur (offers m.id (pre ++ (i, m) :: post)) := by
  have he : m.effective = true := by simp [effective, h.1, hu]
  have hhit := h.2.resolve_left (by rw [hu]; exact Bool.false_ne_true)
  rw [offers_append, offers_cons_self (p := (i, m)) he]
  exact mem_landed.2 ⟨_, _, rfl, hhit⟩

end Offers

end Meno
