import Meno.Notes.PushBatch

/-!
# Meno.Notes.PushApplied

Is what a push reports as applied what is stored afterwards? Three of the four ways to report
`Applied` write the row. The fourth answers a create-and-delete without a look at the table, in
the belief that the id never reached the server; it is right when nothing is there, or nothing
but the same tombstone.
-/

namespace Meno

open Lib Mutation

/-- The fields other than the folder a note is filed in. -/
def EntityType.unfiled : (k : EntityType) → k.Fields → k.Fields
  | .note, f => { f with folderId := none }
  | .folder, f => f

theorem unfiled_filedAs {db : NotesDb} {c : Uuid} {k : EntityType} {m : Mutation k.Fields} :
    k.unfiled (filedAs db c k m).fields = k.unfiled m.fields := by
  cases k <;> rfl

namespace NotesService

variable {k : EntityType} {c : Uuid} {db db' : NotesDb} {now : OffsetDateTime}
  {batch : List SyncMutation} {rs : List MutationResult}

/-- The last mutation of an id, with its place in the batch. -/
def lastOf (k : EntityType) (id : Uuid) (batch : List SyncMutation) :
    Option (Nat × Mutation k.Fields) :=
  ((mutationsOf k batch).filter fun p => p.2.id == id).getLast?

/-- The row under the mutation's id is as the mutation says: its title, content, pin and
deletion; no row at all is what a deletion says, too. -/
def IsStored (db : NotesDb) (m : Mutation k.Fields) : Prop :=
  match db.get k m.id with
  | some r => k.unfiled r.fields = k.unfiled m.fields ∧ r.isDeleted = m.deleted
  | none => m.deleted = true

/-- For every id, the last mutation of the batch is stored if it is reported as applied. -/
def AppliedIsStored (batch : List SyncMutation) (rs : List MutationResult) (db' : NotesDb) : Prop :=
  ∀ k id i (m : Mutation k.Fields), lastOf k id batch = some (i, m) →
    ∀ r, rs[i]? = some r → r.outcome = .applied → IsStored db' m

/-- Nothing but the tombstone that `m` describes is left under its id by the mutations before it:
either the last one written deletes the same content, or none is written and the database has no
row, or that tombstone already. -/
def NothingElseLeft (c : Uuid) (db : NotesDb) (batch : List SyncMutation) (m : Mutation k.Fields) :
    Prop :=
  match (writtenTo c db batch k m.id).getLast? with
  | some m' => k.unfiled m'.fields = k.unfiled m.fields ∧ m'.deleted = true
  | none => ∀ r, db.get k m.id = some r → k.unfiled r.fields = k.unfiled m.fields ∧
      r.isDeleted = true

theorem lastOf_split {id : Uuid} {i : Nat} {m : Mutation k.Fields}
    (h : lastOf k id batch = some (i, m)) :
    m.id = id ∧ ∃ pre post, mutationsOf k batch = pre ++ (i, m) :: post ∧ offers id post = [] := by
  obtain ⟨ys, hys⟩ := List.getLast?_eq_some_iff.1 h
  obtain ⟨l₁, l₂, hl, _, h₂⟩ := List.filter_eq_append_iff.1 hys
  obtain ⟨l₃, l₄, rfl, _, hm, h₄⟩ := List.filter_eq_cons_iff.1 h₂
  have hid : m.id = id := by simpa using hm
  refine ⟨hid, l₁ ++ l₃, l₄, by rw [hl, List.append_assoc], ?_⟩
  rw [List.filter_eq_nil_iff] at h₄
  rw [offers, List.filter_eq_nil_iff]
  intro x hx
  obtain ⟨p, hp, rfl⟩ := List.mem_map.1 hx
  have := h₄ p hp
  simp only [beq_iff_eq] at this
  simp [this]

/-- A last mutation that is offered to its row is stored when it is reported as applied. -/
theorem isStored_of_effective (hp : Pushed db c now batch rs db') {i : Nat} {m : Mutation k.Fields}
    {pre post : List (Nat × Mutation k.Fields)} (he : m.effective = true)
    (hsplit : mutationsOf k batch = pre ++ (i, m) :: post) (hpost : offers m.id post = [])
    (hrep : ReportedApplied c (db.get k m.id) (db.get k m.id) (offers m.id pre) m) :
    IsStored db' m := by
  have hu : m.unpersisted = false := by simpa [effective, hrep.1] using he
  have hhit := hrep.2.resolve_left (by rw [hu]; exact Bool.false_ne_true)
  have hoffers : offers m.id (mutationsOf k batch) = offers m.id pre ++ [m] := by
    rw [hsplit, offers_append, offers_cons_self (p := (i, m)) he, hpost]
  have hlast : (writtenTo c db batch k m.id).getLast? = some m := by
    rw [writtenTo, hoffers, landedOn, landed_append, landed_cons_hit hhit]
    exact List.getLast?_concat
  unfold IsStored
  rcases hp.row k m.id with ⟨hnil, _⟩ | ⟨m', r, hl, hget, hf, hd, _⟩
  · rw [hnil] at hlast
    cases hlast
  · rw [hlast] at hl
    cases hl
    rw [hget]
    exact ⟨by rw [hf, unfiled_filedAs], hd⟩

/-- A last mutation that was over before it was synced is stored when nothing else is left. -/
theorem isStored_iff_of_unpersisted (hp : Pushed db c now batch rs db') {m : Mutation k.Fields}
    (hu : m.unpersisted = true) : IsStored db' m ↔ NothingElseLeft c db batch m := by
  have hdel : m.deleted = true := (Bool.and_eq_true_iff.1 hu).2
  unfold IsStored NothingElseLeft
  rcases hp.row k m.id with ⟨hnil, hget⟩ | ⟨m', r, hl, hget, hf, hd, _⟩
  · rw [hnil, hget]
    cases hr : db.get k m.id with
    | none => simp [hdel]
    | some r => simp [hdel]
  · rw [hl, hget]
    simp only [hf, hd, hdel, unfiled_filedAs]

/-- What a successful push reports of the last mutation of an id as applied is stored, for every
id, exactly when no create-and-delete of the batch meets a row: where one is the last mutation of
its id, nothing but the tombstone it describes is left by then. -/
theorem syncPush_applied_iff (c : Uuid) (db db' : NotesDb) (now : OffsetDateTime)
    (faults : List Bool) (batch : List SyncMutation) (rs : List MutationResult)
    (h : Txn.run notesEngine (syncPush c batch) db now faults = (.ok rs, db')) :
    AppliedIsStored batch rs db' ↔
      ∀ k id i (m : Mutation k.Fields), lastOf k id batch = some (i, m) → m.valid = true →
        m.unpersisted = true → NothingElseLeft c db batch m := by
  obtain ⟨_, hp⟩ := pushed_of_ok h
  constructor
  · intro hall k id i m hlast hv hu
    obtain ⟨hid, pre, post, hsplit, _⟩ := lastOf_split hlast
    obtain ⟨r, hr, hout⟩ := hp.reports k pre i m post hsplit
    exact (isStored_iff_of_unpersisted hp hu).1 (hall k id i m hlast r hr (hout.2 ⟨hv, .inl hu⟩))
  · intro hcond k id i m hlast r hr happlied
    obtain ⟨hid, pre, post, hsplit, hpost⟩ := lastOf_split hlast
    obtain ⟨r', hr', hout⟩ := hp.reports k pre i m post hsplit
    rw [hr] at hr'
    cases hr'
    have hrep := hout.1 happlied
    cases hu : m.unpersisted with
    | true => exact (isStored_iff_of_unpersisted hp hu).2 (hcond k id i m hlast hrep.1 hu)
    | false =>
      have he : m.effective = true := by simp [effective, hrep.1, hu]
      exact isStored_of_effective hp he hsplit (hid ▸ hpost) hrep

theorem syncPush_applied_fresh :
    ∃ rs db', Txn.run notesEngine (syncPush ⟨7⟩ [.note freshNote]) .empty 10 [] = (.ok rs, db') ∧
      (AppliedIsStored [.note freshNote] rs db' ↔
        ∀ k id i (m : Mutation k.Fields), lastOf k id [.note freshNote] = some (i, m) →
          m.valid = true → m.unpersisted = true →
          NothingElseLeft ⟨7⟩ .empty [.note freshNote] m) :=
  ⟨_, _, rfl, syncPush_applied_iff ⟨7⟩ .empty _ 10 [] [.note freshNote] _ rfl⟩

/-- The client lost the answer to the push of a fresh note, deletes the note and pushes again: as
far as it knows the server has never seen the id. -/
def lostThenDeleted : NoteMutation := { freshNote with deleted := true, clientUpdatedAt := 5 }

/-- The deletion is reported as applied and the note is live. -/
theorem lost_deletion_not_stored :
    ∃ rs db', Txn.run notesEngine (syncPush ⟨7⟩ [.note lostThenDeleted])
        (Txn.run notesEngine (syncPush ⟨7⟩ [.note freshNote]) .empty 10 []).2 20 [] =
        (.ok rs, db') ∧ ¬AppliedIsStored [.note lostThenDeleted] rs db' := by
  refine ⟨_, _, rfl, ?_⟩
  intro h
  have hstored := h .note ⟨1⟩ 0 lostThenDeleted rfl _ rfl rfl
  exact Bool.false_ne_true hstored.2

end NotesService

end Meno
