import Meno.Notifications.Sending

/-!
# Meno.Notifications.TemplateCache

`warm_template_cache` loads the active templates into the map that `get_template` asks first. The
query of one template leaves deleted rows out, the query of all of them does not: the two agree
where no active template has been deleted (`warm_agrees_iff`).
-/

namespace Meno

open Lib

/-- A row of `notification_templates`, with the columns that say whether it is in use. -/
structure TemplateRow where
  template : NotificationTemplate
  isActive : Bool
  deletedAt : Option OffsetDateTime
deriving DecidableEq

namespace TemplateRow

def id (r : TemplateRow) : Uuid := r.template.id

def type (r : TemplateRow) : String := r.template.type

/-- `is_active = true AND deleted_at IS NULL`. -/
def inUse (r : TemplateRow) : Bool := r.isActive && r.deletedAt.isNone

end TemplateRow

abbrev TemplateTable := Table TemplateRow TemplateRow.id

/-- The order of the texts in a collation of the database. -/
structure Collation where
  le : String → String → Bool
  total : ∀ a b, le a b || le b a
  trans : ∀ a b c, le a b → le b c → le a c

/-- The order of the code points. -/
def Collation.c : Collation where
  le a b := decide (a ≤ b)
  total a b := by simpa using String.le_total a b
  trans a b c hab hbc :=
    decide_eq_true (String.le_trans (of_decide_eq_true hab) (of_decide_eq_true hbc))

def TemplateTable.templates (rows : TemplateTable) :
    Table NotificationTemplate NotificationTemplate.id where
  rows := rows.rows.map TemplateRow.template
  nodup := by
    rw [List.map_map]
    exact rows.nodup

/-- The store with these rows of templates. -/
def NotificationsStore.withTemplates (store : NotificationsStore) (rows : TemplateTable) :
    NotificationsStore :=
  { store with
    db := { store.db with templates := rows.templates }
    inUse := fun template => (rows.get template.id).any TemplateRow.inUse }

/-- `WHERE is_active = true ORDER BY type`: rows of one type come in any order. -/
structure NotificationRepository.FindAllTemplates (collation : Collation) (rows : TemplateTable)
    (found : List TemplateRow) : Prop where
  perm : found.Perm (rows.rows.filter TemplateRow.isActive)
  sorted : found.Pairwise fun a b => collation.le a.type b.type = true

namespace NotificationService

/-- `collect` into a `HashMap`: of the entries of a key the last one stays. -/
def collect (templates : List NotificationTemplate) : String → Option NotificationTemplate :=
  templates.foldl (fun cache t => Function.update cache t.type (some t)) fun _ => none

def warmTemplateCache (store : NotificationsStore) (found : Except DbError (List TemplateRow)) :
    Except NotificationError Unit × NotificationsStore :=
  match found with
  | .error e => (.error (.database e), store)
  | .ok found =>
    (.ok (), { store with templates := collect (found.map TemplateRow.template) })

/-- Directly after the cache has been warmed, every code is answered as the database answers it,
whatever order the rows of one type came in. -/
def WarmAgrees (collation : Collation) (rows : TemplateTable) : Prop :=
  ∀ (store : NotificationsStore) (found : List TemplateRow),
    NotificationRepository.FindAllTemplates collation rows found →
      ∀ code,
        (getTemplate (warmTemplateCache (store.withTemplates rows) (.ok found)).2 [] code).map
            Prod.fst =
          (NotificationRepository.findTemplateByCode (store.withTemplates rows) code).elim
            (.error (.templateNotFound code)) .ok

/-! ## The map -/

theorem collect_concat (templates : List NotificationTemplate) (t : NotificationTemplate) :
    collect (templates ++ [t]) = Function.update (collect templates) t.type (some t) := by
  rw [collect, List.foldl_append]
  rfl

theorem collect_eq_find (templates : List NotificationTemplate) (code : String) :
    collect templates code = templates.reverse.find? fun t => t.type = code := by
  induction templates using List.reverseRecOn with
  | nil => rfl
  | append_singleton templates t ih =>
    rw [collect_concat, List.reverse_append, List.reverse_singleton, List.singleton_append,
      List.find?_cons]
    by_cases h : t.type = code
    · rw [← h, Function.update_self, decide_eq_true rfl]
    · rw [Function.update_of_ne (Ne.symm h), ih, decide_eq_false h]

/-- The last template of its type. -/
theorem collect_of_last {before after : List NotificationTemplate} {t : NotificationTemplate}
    (h : ∀ t' ∈ after, t'.type ≠ t.type) : collect (before ++ t :: after) t.type = some t := by
  have hafter : after.reverse.find? (fun t' => t'.type = t.type) = none := by
    rw [List.find?_eq_none]
    intro t' ht'
    rw [decide_eq_true_iff]
    exact h t' (List.mem_reverse.1 ht')
  rw [collect_eq_find, List.reverse_append, List.reverse_cons, List.append_assoc,
    List.find?_append, hafter, Option.none_or, List.singleton_append, List.find?_cons,
    decide_eq_true rfl]

/-! ## The two queries -/

section Queries

variable {collation : Collation} {rows : TemplateTable} {store : NotificationsStore} {code : String}
  {r : TemplateRow} {template : NotificationTemplate}

theorem inUse_withTemplates (hr : r ∈ rows.rows) :
    (store.withTemplates rows).inUse r.template = r.inUse := by
  have hget : rows.get r.template.id = some r := Table.mem_rows_iff.1 hr
  simp only [NotificationsStore.withTemplates, hget, Option.any_some]

theorem row_of_findTemplateByCode
    (h : NotificationRepository.findTemplateByCode (store.withTemplates rows) code =
      some template) :
    ∃ r ∈ rows.rows, r.template = template ∧ r.type = code ∧ r.inUse = true := by
  obtain ⟨r, hr, rfl⟩ := List.mem_map.1 (List.mem_of_find?_eq_some h)
  have hfound := List.find?_some h
  rw [inUse_withTemplates hr, Bool.and_eq_true, decide_eq_true_iff] at hfound
  exact ⟨r, hr, rfl, hfound.1, hfound.2⟩

/-- With one row in use for each type, that row is what the query finds. -/
theorem findTemplateByCode_of_row (hone : rows.AtMostOne TemplateRow.inUse TemplateRow.type)
    (hr : r ∈ rows.rows) (huse : r.inUse = true) :
    NotificationRepository.findTemplateByCode (store.withTemplates rows) r.type =
      some r.template := by
  cases hfind : NotificationRepository.findTemplateByCode (store.withTemplates rows) r.type with
  | none =>
    have hnone := List.find?_eq_none.1 hfind r.template (List.mem_map_of_mem hr)
    rw [inUse_withTemplates hr, huse, Bool.and_true, decide_eq_true_iff] at hnone
    exact absurd rfl hnone
  | some template =>
    obtain ⟨r', hr', rfl, htype, huse'⟩ := row_of_findTemplateByCode hfind
    rw [hone r' hr' r hr huse' huse htype]

/-- The answer for a code that is in the map, and for one that is not. -/
theorem getTemplate_warm (found : List TemplateRow) (code : String) :
    (getTemplate (warmTemplateCache (store.withTemplates rows) (.ok found)).2 [] code).map
        Prod.fst =
      ((collect (found.map TemplateRow.template) code).or
        (NotificationRepository.findTemplateByCode (store.withTemplates rows) code)).elim
          (.error (.templateNotFound code)) .ok := by
  have hdb : NotificationRepository.findTemplateByCode
      (warmTemplateCache (store.withTemplates rows) (.ok found)).2 code =
        NotificationRepository.findTemplateByCode (store.withTemplates rows) code := rfl
  unfold getTemplate
  rw [hdb]
  simp only [warmTemplateCache]
  cases collect (found.map TemplateRow.template) code with
  | some template => rfl
  | none =>
    rw [if_neg List.not_mem_nil, Option.none_or]
    cases NotificationRepository.findTemplateByCode (store.withTemplates rows) code <;> rfl

/-- An active row can come last of its type. -/
theorem exists_last (collation : Collation) (hr : r ∈ rows.rows) (hactive : r.isActive = true) :
    ∃ before after, NotificationRepository.FindAllTemplates collation rows
        (before ++ r :: after) ∧ ∀ r' ∈ after, r'.type ≠ r.type := by
  let others := (rows.rows.filter TemplateRow.isActive).erase r
  let le := fun a b : TemplateRow => collation.le a.type b.type
  let upTo := fun r' : TemplateRow => le r' r
  have hsorted : ∀ l : List TemplateRow, (l.mergeSort le).Pairwise fun a b => le a b = true :=
    List.pairwise_mergeSort (fun a b c => collation.trans _ _ _) fun a b => collation.total _ _
  have hself : le r r = true := by simpa using collation.total r.type r.type
  have hbefore : ∀ a ∈ (others.filter upTo).mergeSort le, le a r = true := fun a ha =>
    (List.mem_filter.1 (List.mem_mergeSort.1 ha)).2
  have hbeyond : ∀ b ∈ (others.filter fun r' => !upTo r').mergeSort le, le b r = false := by
    intro b hb
    simpa using (List.mem_filter.1 (List.mem_mergeSort.1 hb)).2
  have hafter : ∀ b ∈ (others.filter fun r' => !upTo r').mergeSort le, le r b = true := by
    intro b hb
    have htotal := collation.total r.type b.type
    rw [show collation.le b.type r.type = false from hbeyond b hb, Bool.or_false] at htotal
    exact htotal
  refine ⟨(others.filter upTo).mergeSort le, (others.filter fun r' => !upTo r').mergeSort le,
    ⟨?_, ?_⟩, ?_⟩
  · have hmem : r ∈ rows.rows.filter TemplateRow.isActive := List.mem_filter.2 ⟨hr, hactive⟩
    have hsplit : ((others.filter upTo).mergeSort le ++
        (others.filter fun r' => !upTo r').mergeSort le).Perm others :=
      ((List.mergeSort_perm _ _).append (List.mergeSort_perm _ _)).trans
        (List.filter_append_perm upTo others)
    exact List.perm_middle.trans ((hsplit.cons r).trans (List.perm_cons_erase hmem).symm)
  · refine List.pairwise_append.2 ⟨hsorted _, List.pairwise_cons.2 ⟨hafter, hsorted _⟩, ?_⟩
    intro a ha b hb
    rcases List.mem_cons.1 hb with rfl | hb
    · exact hbefore a ha
    · exact collation.trans _ _ _ (hbefore a ha) (hafter b hb)
  · intro b hb htype
    have hb' := hbeyond b hb
    rw [show le b r = le r r from congrArg (collation.le · r.type) htype, hself] at hb'
    cases hb'

end Queries

/-! ## The cache and the database -/

/-- An active row that has been deleted is answered from the map, if it comes last of its type. -/
theorem deletedAt_of_agrees {collation : Collation} {rows : TemplateTable}
    (h : WarmAgrees collation rows) {r : TemplateRow} (hr : r ∈ rows.rows)
    (hactive : r.isActive = true) (store : NotificationsStore) : r.deletedAt = none := by
  obtain ⟨before, after, hfound, hlast⟩ := exists_last collation hr hactive
  have hcollect : collect ((before ++ r :: after).map TemplateRow.template) r.type =
      some r.template := by
    rw [List.map_append, List.map_cons]
    refine collect_of_last fun t ht => ?_
    obtain ⟨r', hr', rfl⟩ := List.mem_map.1 ht
    exact hlast r' hr'
  have hanswer := h store _ hfound r.type
  rw [getTemplate_warm, hcollect, Option.some_or] at hanswer
  cases hfind : NotificationRepository.findTemplateByCode (store.withTemplates rows) r.type with
  | none =>
    rw [hfind] at hanswer
    cases hanswer
  | some template =>
    rw [hfind] at hanswer
    obtain rfl := Except.ok.inj hanswer
    obtain ⟨r', hr', htemplate, -, huse⟩ := row_of_findTemplateByCode hfind
    have hsame : r' = r :=
      List.inj_on_of_nodup_map rows.nodup hr' hr (congrArg NotificationTemplate.id htemplate)
    rw [hsame, TemplateRow.inUse, Bool.and_eq_true] at huse
    exact Option.isNone_iff_eq_none.1 huse.2

/-- **The map agrees with the table** after each warming, exactly if no active template has been
deleted. -/
theorem warm_agrees_iff (collation : Collation) (rows : TemplateTable)
    (hone : rows.AtMostOne TemplateRow.inUse TemplateRow.type) :
    WarmAgrees collation rows ↔ ∀ r ∈ rows.rows, r.isActive = true → r.deletedAt = none := by
  constructor
  · intro h r hr hactive
    exact deletedAt_of_agrees h hr hactive (.first r.template none)
  · intro hdeleted store found hfound code
    rw [getTemplate_warm]
    cases hcollect : collect (found.map TemplateRow.template) code with
    | none => rw [Option.none_or]
    | some template =>
      rw [collect_eq_find] at hcollect
      have hmem := List.mem_reverse.1 (List.mem_of_find?_eq_some hcollect)
      obtain ⟨r, hr, rfl⟩ := List.mem_map.1 hmem
      have htype := List.find?_some hcollect
      obtain rfl : r.type = code := of_decide_eq_true htype
      obtain ⟨hrow, hactive⟩ := List.mem_filter.1 (hfound.perm.subset hr)
      have huse : r.inUse = true := by rw [TemplateRow.inUse, hactive, hdeleted r hrow hactive]; rfl
      rw [findTemplateByCode_of_row hone hrow huse, Option.some_or]

/-- One template, which is in use. -/
def endedRow (deletedAt : Option OffsetDateTime) : TemplateRow where
  template := {
    id := ⟨1⟩, type := "broadcast_ended", title := "Broadcast Ended"
    body := "\x7btitle\x7d has ended", imageUrl := none }
  isActive := true
  deletedAt := deletedAt

theorem seeded_agrees : WarmAgrees .c (Table.empty.put (endedRow none)) :=
  (warm_agrees_iff .c (Table.empty.put (endedRow none)) (by decide)).2 (by decide)

/-- A deleted template that is still active is answered once more. -/
theorem deleted_template_found :
    ¬ ∀ (collation : Collation) (rows : TemplateTable),
      rows.AtMostOne TemplateRow.inUse TemplateRow.type → WarmAgrees collation rows := by
  intro h
  have hnone := deletedAt_of_agrees (h .c (Table.empty.put (endedRow (some 0))) (by decide))
    (Table.mem_put_rows.2 (.inl rfl)) rfl (.first (endedRow none).template none)
  cases hnone

end NotificationService

end Meno
