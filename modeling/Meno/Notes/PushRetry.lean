import Meno.Notes.PushBatch

/-!
# Meno.Notes.PushRetry

A client that lost the answer to a push sends the same batch again. The second push meets the
rows that the first one left: the guarded mutations it wrote are behind their row by then, a
tombstone it left is not found by the lookup, and a creation is decided by the client's clock.
`syncPush_retry_iff` says which rows survive this.
-/

namespace Meno

open Lib Mutation

namespace NotesService

variable {k : EntityType} {c : Uuid} {db db₁ db₂ : NotesDb} {now : OffsetDateTime}
  {batch : List SyncMutation} {rs : List MutationResult}

/-- What a client sees of a row: its fields and whether it is deleted. -/
def contentOf (r : Row k.Fields) : k.Fields × Bool := (r.fields, r.isDeleted)

/-- The batch sent to `db₁` once more is answered and changes no content. -/
def RetryIsIdempotent (c : Uuid) (db₁ : NotesDb) (now : OffsetDateTime) (batch : List SyncMutation) :
    Prop :=
  ∃ rs db₂, Txn.run notesEngine (syncPush c batch) db₁ now [] = (.ok rs, db₂) ∧
    ∀ k id, (db₂.get k id).map contentOf = (db₁.get k id).map contentOf

/-- The row stands the mutations of its id once more: it is live, and if any of them is written
again, the last one says what the row says already and the version stays in its column. -/
structure Withstands (c : Uuid) (db₁ : NotesDb) (batch : List SyncMutation) (k : EntityType)
    (id : Uuid) (r : Row k.Fields) : Prop where
  live : r.deletedAt = none
  same : ∀ m, (writtenTo c db₁ batch k id).getLast? = some m →
    (filedAs db₁ c k m).fields = r.fields ∧ m.deleted = false
  room : writtenTo c db₁ batch k id ≠ [] →
    r.version + (writtenTo c db₁ batch k id).length ≤ intMax

/-! ## What the first push leaves -/

/-- A row that mutations reach is there afterwards, and it is the caller's. -/
theorem row_of_offers (hfit : PushFits c db batch) (hp : Pushed db c now batch rs db₁) {id : Uuid}
    (hne : offers id (mutationsOf k batch) ≠ []) :
    ∃ r, db₁.get k id = some r ∧ r.creatorId = c := by
  rcases hp.row k id with ⟨hnil, hsame⟩ | ⟨m, r, hlast, hr, _, _, hc, _⟩
  · -- none is written, so each is answered with the caller's live row
    rcases (hfit k id).met with hall | ⟨r, hr, hc, _⟩
    · exact absurd (hall.symm.trans hnil) hne
    · exact ⟨r, hsame.trans hr, hc⟩
  · refine ⟨r, hr, ?_⟩
    have hw : writtenTo c db batch k id ≠ [] := by
      intro hnil
      rw [hnil] at hlast
      cases hlast
    have howner := owner_of_landed hw
    rw [hc]
    cases hseen : db.get k id with
    | none => rfl
    | some r₀ =>
      rw [hseen] at howner
      simpa using howner

/-- A tombstone left by a push does not take the batch again: the mutation that wrote it is behind
its version, or was a creation and finds no live row. -/
theorem live_of_fits (hfit : PushFits c db batch) (hp : Pushed db c now batch rs db₁)
    (hfit₁ : PushFits c db₁ batch) {id : Uuid} (hne : offers id (mutationsOf k batch) ≠ [])
    {r : Row k.Fields} (hr : db₁.get k id = some r) : r.deletedAt = none := by
  rcases (hfit₁ k id).met with hall | ⟨r', hr', _, hd⟩
  swap
  · rw [hr] at hr'
    cases hr'
    exact hd
  rcases hp.row k id with ⟨hnil, hsame⟩ | ⟨m, _, hlast, _⟩
  · rcases (hfit k id).met with hall₀ | ⟨r', hr', _, hd⟩
    · exact absurd (hall₀.symm.trans hnil) hne
    · rw [← hsame, hr] at hr'
      cases hr'
      exact hd
  · -- the last mutation the first push wrote would be written again
    have hm : m ∈ writtenTo c db batch k id := List.mem_of_getLast? hlast
    have hm₁ : m ∈ landedOn c (db₁.get k id) (db₁.get k id) (offers id (mutationsOf k batch)) := by
      rw [hall]
      exact (landed_sublist _ _ _).subset hm
    cases hb : m.baseVersion with
    | some b =>
      have hlt := ((hits_guarded hb).bounds hm).2
      have hle := ((hits_guarded hb).bounds hm₁).1
      have hv := version_of_pushed hp hr
      rw [hr] at hle
      have hle : r.version ≤ b := hle
      have hlt : b < (versionOf (db.get k id)).getD 0 + (writtenTo c db batch k id).length := hlt
      omega
    | none =>
      obtain ⟨pre, _, _, hhit⟩ := mem_landed.1 hm₁
      cases hv : after (hits c (db₁.get k id)) (versionOf (db₁.get k id)) pre with
      | none =>
        have hge := after_getD (hits c (db₁.get k id)) pre (versionOf (db₁.get k id))
        have hsome : (after (hits c (db₁.get k id)) (versionOf (db₁.get k id)) pre).isSome := by
          rw [hr]
          exact after_isSome pre rfl
        rw [hv] at hsome
        cases hsome
      | some v =>
        rw [hv] at hhit
        obtain ⟨e, he, _, hd, _⟩ := (hits_collision hb).1 hhit
        rw [hr] at he
        cases he
        exact hd

/-! ## The retry -/

/-- The second push is answered and changes nothing exactly when every row that the batch reaches
withstands it: the first push left it live, and what would be written again says the same. -/
theorem syncPush_retry_iff (c : Uuid) (db db₁ : NotesDb) (now now₂ : OffsetDateTime)
    (faults : List Bool) (batch : List SyncMutation) (rs : List MutationResult)
    (h : Txn.run notesEngine (syncPush c batch) db now faults = (.ok rs, db₁)) :
    RetryIsIdempotent c db₁ now₂ batch ↔
      ∀ k id, offers id (mutationsOf k batch) ≠ [] →
        ∀ r, db₁.get k id = some r → Withstands c db₁ batch k id r := by
  obtain ⟨hfit, hp⟩ := pushed_of_ok h
  constructor
  · rintro ⟨rs₂, db₂, hrun₂, hsame⟩ k id hne r hr
    obtain ⟨hfit₁, hp₂⟩ := pushed_of_ok hrun₂
    have hlive := live_of_fits hfit hp hfit₁ hne hr
    refine ⟨hlive, ?_, ?_⟩
    · intro m hlast
      have hcontent := hsame k id
      rcases hp₂.row k id with ⟨hnil, _⟩ | ⟨m', r₂, hlast', hr₂, hf, hd, _⟩
      · rw [hnil] at hlast
        cases hlast
      · rw [hlast] at hlast'
        cases hlast'
        rw [hr, hr₂, Option.map_some, Option.map_some, Option.some_inj] at hcontent
        obtain ⟨hfields, hdel⟩ := Prod.mk.inj hcontent
        refine ⟨hf.symm.trans hfields, ?_⟩
        rw [← hd, hdel, Row.isDeleted, hlive]
        rfl
    · intro hw
      have hroom := (hfit₁ k id).room hw
      rw [versionOf_of_get hr] at hroom
      exact hroom
  · intro hall
    have hfit₁ : PushFits c db₁ batch := by
      intro k id
      by_cases hne : offers id (mutationsOf k batch) = []
      · rw [hne]
        exact fits_nil _
      · obtain ⟨r, hr, hc⟩ := row_of_offers hfit hp hne
        have hw := hall k id hne r hr
        refine ⟨(hfit k id).storable, .inr ⟨r, hr, hc, hw.live⟩, ?_⟩
        intro hne'
        rw [versionOf_of_get hr]
        exact hw.room hne'
    obtain ⟨rs₂, db₂, hrun₂, hp₂⟩ := (syncPush_runs c db₁ now₂
      (length_le_of_ok h)).1 hfit₁
    refine ⟨rs₂, db₂, hrun₂, ?_⟩
    intro k id
    rcases hp₂.row k id with ⟨_, hsame⟩ | ⟨m, r₂, hlast, hr₂, hf, hd, _⟩
    · rw [hsame]
    · have hne : offers id (mutationsOf k batch) ≠ [] := by
        intro hnil
        rw [writtenTo, hnil] at hlast
        cases hlast
      obtain ⟨r, hr, _⟩ := row_of_offers hfit hp hne
      have hw := hall k id hne r hr
      obtain ⟨hfields, hdel⟩ := hw.same m hlast
      rw [hr, hr₂, Option.map_some, Option.map_some, contentOf, contentOf, hf, hd, hfields, hdel,
        Row.isDeleted, hw.live]
      rfl

theorem syncPush_retry_fresh :
    ∃ rs db₁, Txn.run notesEngine (syncPush ⟨7⟩ [.note freshNote]) .empty 10 [] = (.ok rs, db₁) ∧
      (RetryIsIdempotent ⟨7⟩ db₁ 20 [.note freshNote] ↔
        ∀ k id, offers id (mutationsOf k [SyncMutation.note freshNote]) ≠ [] →
          ∀ r, db₁.get k id = some r → Withstands ⟨7⟩ db₁ [.note freshNote] k id r) :=
  ⟨_, _, rfl, syncPush_retry_iff ⟨7⟩ .empty _ 10 20 [] [.note freshNote] _ rfl⟩

/-- A note made offline, and edited by a client whose clock is ahead. -/
def draft : NoteMutation := { freshNote with clientUpdatedAt := 50 }

def edited : NoteMutation :=
  { draft with baseVersion := some 1, fields := { draft.fields with content := "milk, bread" } }

/-- The retry finds the note older than the draft and writes the draft over the edit. -/
theorem retry_restores_draft :
    ∃ rs db₁, Txn.run notesEngine (syncPush ⟨7⟩ [.note draft, .note edited]) .empty 10 [] =
        (.ok rs, db₁) ∧ ¬RetryIsIdempotent ⟨7⟩ db₁ 20 [.note draft, .note edited] := by
  refine ⟨_, _, rfl, ?_⟩
  rintro ⟨rs₂, db₂, hrun, hsame⟩
  have hcontent := hsame .note ⟨1⟩
  obtain rfl : _ = db₂ := (Prod.mk.inj hrun).2
  revert hcontent
  decide

end NotesService

end Meno
