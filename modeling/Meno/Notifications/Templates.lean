import Meno.Lib.Substitute
import Meno.Notifications.Listing

/-!
# Meno.Notifications.Templates

How the texts of a notification are put together. `interpolate` goes through a map of variables, in
the order of the map, and replaces one placeholder after the other, in what it has got so far. So it
fills in the template at once only if no value makes a new placeholder (`interpolates_at_once_iff`).
-/

namespace Meno

open Lib Lib.Substitute

/-- A map of variables. The names that the service gives them have no braces. -/
structure TemplateVars where
  /-- The entries of the map, in one of the orders in which it can be gone through. -/
  entries : List (String × String)
  nodup : (entries.map Prod.fst).Nodup
  names : ∀ e ∈ entries, IsName e.1.toList

namespace NotificationService

/-- `interpolate`, where the map is gone through in this order. -/
def interpolateIn (order : List (String × String)) (template : String) : String :=
  order.foldl (fun result e => result.replace ("\x7b" ++ e.1 ++ "\x7d") e.2) template

/-- `resolve_template`: the title, the body and the URL of the image. -/
def resolveTemplate (order : List (String × String)) (template : NotificationTemplate) :
    String × String × Option String :=
  (interpolateIn order template.title, interpolateIn order template.body,
    template.imageUrl.map (interpolateIn order))

def buildVars (actor : Option UserSummary) (broadcastTitle : Option String) : TemplateVars where
  entries :=
    (actor.map fun a => ("actor", a.fullName)).toList ++
      (broadcastTitle.map fun t => [("title", t), ("broadcast", t)]).getD []
  nodup := by
    cases actor with
    | none => cases broadcastTitle <;> simp
    | some a => cases broadcastTitle <;> simp
  names := by
    have hnames : IsName "actor".toList ∧ IsName "title".toList ∧ IsName "broadcast".toList := by
      decide
    intro e he
    rcases List.mem_append.1 he with he | he
    · obtain ⟨a, -, rfl⟩ := Option.map_eq_some_iff.1 (Option.mem_toList.1 he)
      exact hnames.1
    · cases broadcastTitle with
      | none => exact absurd he List.not_mem_nil
      | some t =>
        rcases List.mem_cons.1 he with rfl | he
        · exact hnames.2.1
        · rw [List.mem_singleton.1 he]
          exact hnames.2.2

def buildItemVars (item : NotificationListItem) : TemplateVars := buildVars item.actor none

end NotificationService

/-! ## Filling in -/

namespace TemplateVars

/-- An entry as characters. -/
def chars (e : String × String) : List Char × List Char := (e.1.toList, e.2.toList)

/-- How often the placeholder of a variable stands in a text. -/
def occurrences (name text : String) : Nat :=
  Substitute.occurrences (placeholder name.toList) text.toList

/-- The template with the values of some of the variables in the places of their placeholders. -/
def filled (vars : TemplateVars) (known : List (String × String)) (template : String) : String :=
  String.ofList (Substitute.filled (vars.entries.map chars) (known.map chars) template.toList)

/-- The template with all values filled in, at once. -/
def substitute (vars : TemplateVars) (template : String) : String :=
  vars.filled vars.entries template

/-- All variables but one. -/
def others (vars : TemplateVars) (name : String) : List (String × String) :=
  vars.entries.filter fun e => e.1 ≠ name

end TemplateVars

open NotificationService (interpolateIn)

/-- In every order of the map, each step of the loop replaces the placeholders of the template, and
nothing else, and the result is the template with all values filled in. -/
structure InterpolatesAtOnce (vars : TemplateVars) (template : String) : Prop where
  replaced : ∀ order, order.Perm vars.entries → ∀ done e rest, order = done ++ e :: rest →
    TemplateVars.occurrences e.1 (interpolateIn done template) =
      TemplateVars.occurrences e.1 template
  result : ∀ order, order.Perm vars.entries →
    interpolateIn order template = vars.substitute template

/-! ## The loop -/

theorem toList_interpolateIn (order : List (String × String)) (template : String) :
    (interpolateIn order template).toList =
      replaceAll (order.map TemplateVars.chars) template.toList := by
  have hstep : ∀ (e : String × String) (text : String),
      (text.replace ("\x7b" ++ e.1 ++ "\x7d") e.2).toList =
        replace (placeholder e.1.toList) e.2.toList text.toList := by
    intro e text
    have hpattern : ("\x7b" ++ e.1 ++ "\x7d").toList = placeholder e.1.toList := by
      simp [placeholder]
    have hne : "\x7b" ++ e.1 ++ "\x7d" ≠ "" := by
      intro heq
      rw [heq] at hpattern
      exact List.cons_ne_nil _ _ hpattern.symm
    rw [toList_replace hne, hpattern]
  induction order generalizing template with
  | nil => rfl
  | cons e order ih =>
    have htail := ih (template.replace ("\x7b" ++ e.1 ++ "\x7d") e.2)
    rw [hstep] at htail
    exact htail

/-- An entry from its characters. -/
def ofChars (e : List Char × List Char) : String × String := (String.ofList e.1, String.ofList e.2)

theorem map_ofChars (l : List (String × String)) :
    (l.map TemplateVars.chars).map ofChars = l := by
  rw [List.map_map]
  refine (List.map_congr_left fun e _ => ?_).trans (List.map_id l)
  simp [ofChars, TemplateVars.chars]

theorem map_chars (l : List (List Char × List Char)) :
    (l.map ofChars).map TemplateVars.chars = l := by
  rw [List.map_map]
  refine (List.map_congr_left fun e _ => ?_).trans (List.map_id l)
  simp [ofChars, TemplateVars.chars]

theorem perm_ofChars {order : List (List Char × List Char)} {entries : List (String × String)} :
    (order.map ofChars).Perm entries ↔ order.Perm (entries.map TemplateVars.chars) := by
  constructor
  · intro h
    have hchars := h.map TemplateVars.chars
    rwa [map_chars] at hchars
  · intro h
    have hstrings := h.map ofChars
    rwa [map_ofChars] at hstrings

/-- The loop on strings is the one on their characters. -/
theorem interpolatesAtOnce_iff_chars (vars : TemplateVars) (template : String) :
    InterpolatesAtOnce vars template ↔
      AtOnce (vars.entries.map TemplateVars.chars) template.toList := by
  constructor
  · intro h
    refine ⟨fun order hperm done e rest heq => ?_, fun order hperm => ?_⟩
    · have hcount := h.replaced _ (perm_ofChars.2 hperm) (done.map ofChars) (ofChars e)
        (rest.map ofChars) (by rw [heq]; simp)
      rw [TemplateVars.occurrences, TemplateVars.occurrences, toList_interpolateIn,
        map_chars] at hcount
      simpa [ofChars] using hcount
    · have hresult := congrArg String.toList (h.result _ (perm_ofChars.2 hperm))
      rw [toList_interpolateIn, map_chars] at hresult
      simpa [TemplateVars.substitute, TemplateVars.filled] using hresult
  · intro h
    refine ⟨fun order hperm done e rest heq => ?_, fun order hperm => ?_⟩
    · rw [TemplateVars.occurrences, TemplateVars.occurrences, toList_interpolateIn]
      exact h.replaced _ (hperm.map TemplateVars.chars) (done.map TemplateVars.chars)
        (TemplateVars.chars e) (rest.map TemplateVars.chars) (by rw [heq]; simp)
    · rw [← String.toList_inj, toList_interpolateIn, h.result _ (hperm.map TemplateVars.chars)]
      simp [TemplateVars.substitute, TemplateVars.filled]

/-- **Simultaneous substitution.** The loop replaces the placeholders of the template and nothing
else, whatever the order of the map, exactly if for every variable the template with all the others
filled in has its placeholder only where the template has it. -/
theorem interpolates_at_once_iff (vars : TemplateVars) (template : String) :
    InterpolatesAtOnce vars template ↔ ∀ e ∈ vars.entries,
      TemplateVars.occurrences e.1 (vars.filled (vars.others e.1) template) =
        TemplateVars.occurrences e.1 template := by
  have hkeys : (vars.entries.map TemplateVars.chars).map Prod.fst =
      (vars.entries.map Prod.fst).map String.toList := by
    rw [List.map_map, List.map_map]
    rfl
  have hnodup : ((vars.entries.map TemplateVars.chars).map Prod.fst).Nodup := by
    rw [hkeys]
    exact vars.nodup.map fun _ _ h => String.toList_inj.1 h
  have hnames : ∀ n ∈ (vars.entries.map TemplateVars.chars).map Prod.fst, IsName n := by
    intro n hn
    rw [List.map_map] at hn
    obtain ⟨e, he, rfl⟩ := List.mem_map.1 hn
    exact vars.names e he
  have hothers : ∀ e : String × String, ((vars.entries.map TemplateVars.chars).filter fun f =>
      f.1 ≠ (TemplateVars.chars e).1) = (vars.others e.1).map TemplateVars.chars := by
    intro e
    rw [List.filter_map, TemplateVars.others]
    congr 1
    refine List.filter_congr fun f _ => ?_
    simp [TemplateVars.chars, String.toList_inj]
  rw [interpolatesAtOnce_iff_chars, atOnce_iff hnames hnodup, List.forall_mem_map]
  refine forall_congr' fun e => forall_congr' fun _ => ?_
  rw [hothers]
  simp [TemplateVars.occurrences, TemplateVars.filled, TemplateVars.chars]

/-- Ann calls herself after a placeholder, and what is filled in depends on the order. -/
theorem placeholder_name_rescanned :
    ¬ ∀ (vars : TemplateVars) (template : String), InterpolatesAtOnce vars template := by
  intro h
  let vars : TemplateVars := {
    entries := [("actor", "\x7btitle\x7d"), ("title", "News")]
    nodup := by decide
    names := by decide }
  have hresult := (h vars "\x7bactor\x7d").result
  have hfirst := hresult [("actor", "\x7btitle\x7d"), ("title", "News")] (List.Perm.refl _)
  have hsecond := hresult [("title", "News"), ("actor", "\x7btitle\x7d")] (List.Perm.swap _ _ _)
  have hsame := congrArg String.toList (hfirst.trans hsecond.symm)
  rw [toList_interpolateIn, toList_interpolateIn] at hsame
  exact absurd hsame (by decide)

end Meno
