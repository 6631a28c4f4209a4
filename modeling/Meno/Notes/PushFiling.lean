import Meno.Notes.PushBatch

/-!
# Meno.Notes.PushFiling

Filing a note into a folder of the same batch. The folders are applied before the notes, but
which folders are the caller's is asked on another connection, which does not see the folders of
the open transaction: a note that names one of them is unfiled.
-/

namespace Meno

open Lib Mutation

/-- The foreign key of `notes.folder_id`. -/
def NotesDb.RefsExist (db : NotesDb) : Prop :=
  ∀ id (n : Note), db.get .note id = some n → ∀ f, n.fields.folderId = some f →
    (db.get .folder f).isSome = true

namespace NotesService

variable {k : EntityType} {c : Uuid} {db db' : NotesDb} {now : OffsetDateTime}
  {batch : List SyncMutation} {rs : List MutationResult}

/-- Mutation `j` is reported as applied. -/
def AppliedAt (rs : List MutationResult) (j : Nat) : Prop :=
  ∃ r, rs[j]? = some r ∧ r.outcome = .applied

/-- A mutation of the batch has inserted the folder `f`. -/
def Inserted (db : NotesDb) (batch : List SyncMutation) (rs : List MutationResult) (f : Uuid) :
    Prop :=
  db.get .folder f = none ∧ ∃ j fm, batch[j]? = some (.folder fm) ∧ fm.id = f ∧
    fm.baseVersion = none ∧ fm.deleted = false ∧ AppliedAt rs j

/-- Whatever note mutation names a folder of the same batch and is reported as applied, its note
is filed there, if there is a note. -/
def FiledInBatch (db : NotesDb) (batch : List SyncMutation) (rs : List MutationResult)
    (db' : NotesDb) : Prop :=
  ∀ i nm f, batch[i]? = some (.note nm) → nm.fields.folderId = some f → Inserted db batch rs f →
    AppliedAt rs i → ∀ n, db'.get .note nm.id = some n → n.fields.folderId = some f

/-- The batch brings the folder `f`: there is none yet and a valid mutation creates it. -/
def BringsFolder (db : NotesDb) (batch : List SyncMutation) (f : Uuid) : Prop :=
  db.get .folder f = none ∧ ∃ fm : FolderMutation, SyncMutation.folder fm ∈ batch ∧ fm.id = f ∧
    Mutation.valid (k := .folder) fm = true ∧ fm.baseVersion = none ∧ fm.deleted = false

/-- The mutation will be reported as applied, and there will be a note: it is written to its row,
or it is a valid create-and-delete of an id that is stored or written by another mutation. -/
def AppliesToNote (c : Uuid) (db : NotesDb) (batch : List SyncMutation) (nm : NoteMutation) : Prop :=
  nm ∈ writtenTo c db batch .note nm.id ∨
    (Mutation.valid (k := .note) nm = true ∧ nm.unpersisted = true ∧
      ((db.get .note nm.id).isSome = true ∨ writtenTo c db batch .note nm.id ≠ []))

/-! ## Places in the batch -/

/-- A place in the batch is a cut of its kind's share. -/
theorem mutationsOf_split {i : Nat} {sm : SyncMutation} {m : Mutation k.Fields}
    (hi : batch[i]? = some sm) (hm : sm.as k = some m) :
    ∃ pre post, mutationsOf k batch = pre ++ (i, m) :: post :=
  List.append_of_mem (mem_select.2 ⟨sm, hi, hm⟩)

theorem place_of_split {i : Nat} {m : Mutation k.Fields} {pre post : List (Nat × Mutation k.Fields)}
    (h : mutationsOf k batch = pre ++ (i, m) :: post) :
    ∃ sm, batch[i]? = some sm ∧ sm.as k = some m := by
  refine mem_select.1 ?_
  rw [show select (SyncMutation.as k) batch = pre ++ (i, m) :: post from h]
  exact List.mem_append_right _ List.mem_cons_self

/-- What is reported at a place is what the row that was met there gives. -/
theorem appliedAt_iff (hp : Pushed db c now batch rs db') {i : Nat} {m : Mutation k.Fields}
    {pre post : List (Nat × Mutation k.Fields)} (h : mutationsOf k batch = pre ++ (i, m) :: post) :
    AppliedAt rs i ↔ ReportedApplied c (db.get k m.id) (db.get k m.id) (offers m.id pre) m := by
  obtain ⟨r, hr, hout⟩ := hp.reports k pre i m post h
  rw [← hout]
  constructor
  · rintro ⟨r', hr', ho⟩
    rw [hr] at hr'
    cases hr'
    exact ho
  · exact fun ho => ⟨r, hr, ho⟩

/-! ## The folders of the batch -/

theorem note_of_as {sm : SyncMutation} {nm : NoteMutation} (h : sm.as .note = some nm) :
    sm = .note nm := by
  cases sm with
  | note m => cases h; rfl
  | folder m => cases h

/-- In a batch that fits, a valid creation of an absent folder is applied. -/
theorem inserted_iff (hfit : PushFits c db batch) (hp : Pushed db c now batch rs db') {f : Uuid} :
    Inserted db batch rs f ↔ BringsFolder db batch f := by
  constructor
  · rintro ⟨hnone, j, fm, hj, hid, hb, hd, happlied⟩
    obtain ⟨pre, post, hsplit⟩ := mutationsOf_split (k := .folder) (m := fm) hj rfl
    have hrep := (appliedAt_iff hp hsplit).1 happlied
    exact ⟨hnone, fm, List.mem_of_getElem? hj, hid, hrep.1, hb, hd⟩
  · rintro ⟨hnone, fm, hmem, rfl, hv, hb, hd⟩
    obtain ⟨j, hj⟩ := List.mem_iff_getElem?.1 hmem
    obtain ⟨pre, post, hsplit⟩ := mutationsOf_split (k := .folder) (m := fm) hj rfl
    refine ⟨hnone, j, fm, hj, rfl, hb, hd, (appliedAt_iff hp hsplit).2 ?_⟩
    have hu : fm.unpersisted = false := by simp [unpersisted, hd]
    have he : Mutation.effective (k := .folder) fm = true := by simp [effective, hv, hu]
    -- nothing is there to conflict with, so everything that reaches the row is written
    have hall := (hfit .folder fm.id).met.resolve_right (by
      rintro ⟨r, hr, _⟩
      rw [hnone] at hr
      cases hr)
    rw [hsplit, offers_append, offers_cons_self (k := .folder) (p := (j, fm)) he] at hall
    exact ⟨hv, .inr (hit_of_landed_eq hall)⟩

/-! ## The notes of the batch -/

/-- No push files a note into a folder that it brings itself. -/
theorem not_filed_into_new (hrefs : db.RefsExist) (hp : Pushed db c now batch rs db') {f id : Uuid}
    (hnone : db.get .folder f = none) {n : Note} (hn : db'.get .note id = some n) :
    n.fields.folderId ≠ some f := by
  intro hf
  rcases hp.row .note id with ⟨_, hsame⟩ | ⟨m, r, _, hr, hfields, _⟩
  · rw [hsame] at hn
    have := hrefs id n hn f hf
    rw [hnone] at this
    cases this
  · rw [hn] at hr
    cases hr
    have hfields : n.fields.folderId = m.fields.folderId.filter (ownsFolder db c) :=
      congrArg NoteFields.folderId hfields
    rw [hfields, Option.filter_eq_some_iff] at hf
    obtain ⟨_, howned⟩ := hf
    rw [ownsFolder, hnone] at howned
    cases howned

/-- Some place of the mutation is reported as applied and its note is stored, or none is. -/
theorem appliesToNote_iff (hp : Pushed db c now batch rs db') {nm : NoteMutation}
    (hmem : SyncMutation.note nm ∈ batch) :
    AppliesToNote c db batch nm ↔
      (∃ i, batch[i]? = some (.note nm) ∧ AppliedAt rs i) ∧ (db'.get .note nm.id).isSome = true := by
  have hstored : (db'.get .note nm.id).isSome = true ↔
      (db.get .note nm.id).isSome = true ∨ writtenTo c db batch .note nm.id ≠ [] := by
    rcases hp.row .note nm.id with ⟨hnil, hsame⟩ | ⟨m, r, hl, hr, _⟩
    · simp [hnil, hsame]
    · have hne : writtenTo c db batch .note nm.id ≠ [] := by
        intro hnil
        rw [hnil] at hl
        cases hl
      simp [hr, hne]
  rw [hstored]
  constructor
  · rintro (hw | ⟨hv, hu, hs⟩)
    · obtain ⟨_, pre, i, post, hsplit, hrep⟩ := reportedApplied_of_landed hw
      obtain ⟨sm, hsm, has⟩ := place_of_split (k := .note) hsplit
      rw [note_of_as has] at hsm
      refine ⟨⟨i, hsm, (appliedAt_iff hp hsplit).2 hrep⟩, .inr ?_⟩
      intro hnil
      rw [hnil] at hw
      cases hw
    · obtain ⟨i, hi⟩ := List.mem_iff_getElem?.1 hmem
      obtain ⟨pre, post, hsplit⟩ := mutationsOf_split (k := .note) (m := nm) hi rfl
      exact ⟨⟨i, hi, (appliedAt_iff hp hsplit).2 ⟨hv, .inl hu⟩⟩, hs⟩
  · rintro ⟨⟨i, hi, happlied⟩, hs⟩
    obtain ⟨pre, post, hsplit⟩ := mutationsOf_split (k := .note) (m := nm) hi rfl
    have hrep := (appliedAt_iff hp hsplit).1 happlied
    cases hu : nm.unpersisted with
    | true => exact .inr ⟨hrep.1, hu, hs⟩
    | false =>
      refine .inl ?_
      rw [writtenTo, hsplit]
      exact landed_of_reportedApplied (k := .note) hu hrep

/-- A successful push files notes into folders of the same batch exactly when there is nothing to
file: no mutation that is applied to a note names a folder that the batch brings. -/
theorem syncPush_filed_iff (c : Uuid) (db db' : NotesDb) (now : OffsetDateTime)
    (faults : List Bool) (batch : List SyncMutation) (rs : List MutationResult)
    (hrefs : db.RefsExist)
    (h : Txn.run notesEngine (syncPush c batch) db now faults = (.ok rs, db')) :
    FiledInBatch db batch rs db' ↔
      ∀ nm f, SyncMutation.note nm ∈ batch → nm.fields.folderId = some f →
        BringsFolder db batch f → ¬AppliesToNote c db batch nm := by
  obtain ⟨hfit, hp⟩ := pushed_of_ok h
  constructor
  · intro hfiled nm f hmem hf hbrings happlies
    obtain ⟨⟨i, hi, happlied⟩, hstored⟩ := (appliesToNote_iff hp hmem).1 happlies
    obtain ⟨n, hn⟩ := Option.isSome_iff_exists.1 hstored
    have hnf := hfiled i nm f hi hf ((inserted_iff hfit hp).2 hbrings) happlied n hn
    exact not_filed_into_new hrefs hp hbrings.1 hn hnf
  · intro hno i nm f hi hf hins happlied n hn
    have hmem : SyncMutation.note nm ∈ batch := List.mem_of_getElem? hi
    refine absurd ?_ (hno nm f hmem hf ((inserted_iff hfit hp).1 hins))
    exact (appliesToNote_iff hp hmem).2 ⟨⟨i, hi, happlied⟩, by rw [hn]; rfl⟩

/-- A folder made offline, and a note filed into it. -/
def freshFolder : FolderMutation where
  id := ⟨3⟩
  fields := { title := "Home", pinned := false }
  deleted := false
  baseVersion := none
  clientUpdatedAt := 0

def filedNote : NoteMutation :=
  { freshNote with fields := { freshNote.fields with folderId := some ⟨3⟩ } }

/-- Another folder, as an earlier push has stored it. -/
def withFolder : NotesDb :=
  (Txn.run notesEngine (syncPush ⟨7⟩ [.folder { freshFolder with id := ⟨5⟩ }]) .empty 5 []).2

theorem refsExist_withFolder : withFolder.RefsExist := by
  intro id n hn
  have hnone : withFolder.get .note id = none := rfl
  rw [hnone] at hn
  cases hn

/-- One note for the folder that is stored and one for none, and a new folder between them. -/
def filingBatch : List SyncMutation :=
  [.note { freshNote with fields := { freshNote.fields with folderId := some ⟨5⟩ } },
    .folder freshFolder, .note { freshNote with id := ⟨2⟩ }]

theorem syncPush_filed_fresh :
    ∃ rs db', Txn.run notesEngine (syncPush ⟨7⟩ filingBatch) withFolder 10 [] = (.ok rs, db') ∧
      (db'.get .note ⟨1⟩).map (·.fields.folderId) = some (some ⟨5⟩) ∧
      (db'.get .folder ⟨3⟩).isSome = true ∧
      (FiledInBatch withFolder filingBatch rs db' ↔
        ∀ nm f, SyncMutation.note nm ∈ filingBatch → nm.fields.folderId = some f →
          BringsFolder withFolder filingBatch f → ¬AppliesToNote ⟨7⟩ withFolder filingBatch nm) :=
  ⟨_, _, rfl, rfl, rfl,
    syncPush_filed_iff ⟨7⟩ withFolder _ 10 [] filingBatch _ refsExist_withFolder rfl⟩

/-- Both are applied, and the note is not in the folder. -/
theorem fresh_folder_stays_empty :
    ∃ rs db', Txn.run notesEngine (syncPush ⟨7⟩ [.note filedNote, .folder freshFolder]) .empty 10 [] =
        (.ok rs, db') ∧ ¬FiledInBatch .empty [.note filedNote, .folder freshFolder] rs db' := by
  refine ⟨_, _, rfl, ?_⟩
  intro h
  have hfiled := h 0 filedNote ⟨3⟩ rfl rfl
    ⟨rfl, 1, freshFolder, rfl, rfl, rfl, rfl, _, rfl, rfl⟩ ⟨_, rfl, rfl⟩ _ rfl
  cases hfiled

end NotesService

end Meno
