import Mathlib.Data.List.Nodup
import Mathlib.Tactic.Common
import Meno.Lib.Text

/-!
# Lib.Fields

Text of tagged fields, `a=1:b=2`, in which a field without a value is left out. `fields_inj` and
`intercalate_inj` say when the text tells which fields have which values, `intercalate_open_inj`
does for a text with one field of any characters in it.
-/

namespace Lib.Text

/-! ## Hexadecimal numbers -/

theorem digitChar_inj : ∀ m < 16, ∀ n < 16, Nat.digitChar m = Nat.digitChar n → m = n := by
  decide

/-- A number is known by its digits. -/
theorem toDigits_hex_inj {m n : Nat} (h : Nat.toDigits 16 m = Nat.toDigits 16 n) : m = n := by
  induction m using Nat.strongRecOn generalizing n with
  | _ m ih =>
    rw [Nat.toDigits_eq_if (by decide), Nat.toDigits_eq_if (n := n) (by decide)] at h
    by_cases hm : m < 16
    · by_cases hn : n < 16
      · rw [if_pos hm, if_pos hn, List.cons.injEq] at h
        exact digitChar_inj m hm n hn h.1
      · rw [if_pos hm, if_neg hn] at h
        have hlen := congrArg List.length h
        have hpos := Nat.length_toDigits_pos (b := 16) (n := n / 16)
        simp only [List.length_append, List.length_singleton] at hlen
        omega
    · by_cases hn : n < 16
      · rw [if_neg hm, if_pos hn] at h
        have hlen := congrArg List.length h
        have hpos := Nat.length_toDigits_pos (b := 16) (n := m / 16)
        simp only [List.length_append, List.length_singleton] at hlen
        omega
      · rw [if_neg hm, if_neg hn] at h
        obtain ⟨hinit, hlast⟩ := List.append_inj' h rfl
        have hdiv := ih (m / 16) (by omega) hinit
        have hmod := digitChar_inj _ (Nat.mod_lt _ (by decide)) _ (Nat.mod_lt _ (by decide))
          (List.cons.inj hlast).1
        omega

theorem mem_toDigits_hex {n : Nat} {c : Char} (h : c ∈ Nat.toDigits 16 n) :
    c ∈ "0123456789abcdef".toList := by
  induction n using Nat.strongRecOn with
  | _ n ih =>
    have hdigit : ∀ d < 16, Nat.digitChar d ∈ "0123456789abcdef".toList := by decide
    rw [Nat.toDigits_eq_if (by decide)] at h
    by_cases hn : n < 16
    · rw [if_pos hn] at h
      obtain rfl := List.mem_singleton.1 h
      exact hdigit n hn
    · rw [if_neg hn] at h
      rcases List.mem_append.1 h with h | h
      · exact ih (n / 16) (by omega) h
      · obtain rfl := List.mem_singleton.1 h
        exact hdigit _ (Nat.mod_lt _ (by decide))

/-! ## Fields -/

/-- The texts `tag=value` of the fields that have a value. -/
def fields (fs : List (List Char × Option (List Char))) : List (List Char) :=
  fs.filterMap fun f => f.2.map fun v => f.1 ++ '=' :: v

theorem mem_fields {fs : List (List Char × Option (List Char))} {p : List Char} :
    p ∈ fields fs ↔ ∃ f ∈ fs, ∃ v, f.2 = some v ∧ p = f.1 ++ '=' :: v := by
  simp only [fields, List.mem_filterMap, Option.map_eq_some_iff]
  constructor
  · rintro ⟨f, hf, v, hv, rfl⟩
    exact ⟨f, hf, v, hv, rfl⟩
  · rintro ⟨f, hf, v, hv, rfl⟩
    exact ⟨f, hf, v, hv, rfl⟩

/-- A field's text is known to be its own. -/
theorem tag_eq {tag tag' v v' : List Char} (h : '=' ∉ tag) (h' : '=' ∉ tag')
    (heq : tag ++ '=' :: v = tag' ++ '=' :: v') : tag = tag' ∧ v = v' := by
  have hsplit := congrArg (splitOnce '=') heq
  rw [splitOnce_append h, splitOnce_append h'] at hsplit
  simpa using hsplit

/-- Fields with the same tags and the same texts have the same values. -/
theorem fields_inj {fs gs : List (List Char × Option (List Char))}
    (htags : fs.map Prod.fst = gs.map Prod.fst) (hnodup : (fs.map Prod.fst).Nodup)
    (htag : ∀ f ∈ fs, '=' ∉ f.1) (h : fields fs = fields gs) : fs = gs := by
  induction fs generalizing gs with
  | nil =>
    cases gs with
    | nil => rfl
    | cons g gs => cases htags
  | cons f fs ih =>
    cases gs with
    | nil => cases htags
    | cons g gs =>
      obtain ⟨tag, v⟩ := f
      obtain ⟨tag', w⟩ := g
      simp only [List.map_cons, List.cons.injEq] at htags
      obtain ⟨rfl, htags⟩ := htags
      rw [List.map_cons] at hnodup
      obtain ⟨hnew, hnodup'⟩ := List.nodup_cons.1 hnodup
      have hhead : '=' ∉ tag := htag _ List.mem_cons_self
      have htail : ∀ f ∈ fs, '=' ∉ f.1 := fun f hf => htag f (List.mem_cons_of_mem _ hf)
      -- A text of this tag is not among the texts of the other fields.
      have hother : ∀ hs : List (List Char × Option (List Char)),
          hs.map Prod.fst = fs.map Prod.fst → ∀ x, tag ++ '=' :: x ∉ fields hs := by
        intro hs hhs x hx
        obtain ⟨f, hf, y, -, heq⟩ := mem_fields.1 hx
        have hmem : f.1 ∈ fs.map Prod.fst := hhs ▸ List.mem_map_of_mem hf
        obtain ⟨f', hf', hff'⟩ := List.mem_map.1 hmem
        obtain ⟨rfl, -⟩ := tag_eq hhead (hff' ▸ htail f' hf') heq
        exact hnew hmem
      cases v with
      | none =>
        cases w with
        | none => rw [ih htags hnodup' htail h]
        | some y =>
          have h : fields fs = (tag ++ '=' :: y) :: fields gs := h
          exact absurd (h ▸ List.mem_cons_self) (hother fs rfl y)
      | some x =>
        cases w with
        | none =>
          have h : (tag ++ '=' :: x) :: fields fs = fields gs := h
          exact absurd (h ▸ List.mem_cons_self) (hother gs htags.symm x)
        | some y =>
          have h : (tag ++ '=' :: x) :: fields fs = (tag ++ '=' :: y) :: fields gs := h
          obtain ⟨hxy, hrest⟩ := List.cons.inj h
          obtain ⟨-, rfl⟩ := tag_eq hhead hhead hxy
          rw [ih htags hnodup' htail hrest]

/-! ## Joined parts -/

/-- Parts that are not empty, and have no separator in them, can be told from the text. -/
theorem intercalate_inj {sep : Char} {ps qs : List (List Char)}
    (hps : ∀ p ∈ ps, sep ∉ p ∧ p ≠ []) (hqs : ∀ q ∈ qs, sep ∉ q ∧ q ≠ [])
    (h : [sep].intercalate ps = [sep].intercalate qs) : ps = qs := by
  have hempty : ∀ {rs : List (List Char)}, (∀ r ∈ rs, sep ∉ r ∧ r ≠ []) →
      [sep].intercalate rs = [] → rs = [] := by
    intro rs hrs hnil
    cases rs with
    | nil => rfl
    | cons r rs =>
      have hr := (hrs r List.mem_cons_self).2
      cases rs with
      | nil =>
        rw [List.intercalate_singleton] at hnil
        exact absurd hnil hr
      | cons r' rs => simp [List.intercalate_cons_cons] at hnil
  by_cases hp : ps = []
  · subst hp
    exact (hempty hqs h.symm).symm
  · by_cases hq : qs = []
    · subst hq
      exact absurd (hempty hps h) hp
    · rw [← List.splitOn_intercalate sep (fun p hm => (hps p hm).1) hp, h,
        List.splitOn_intercalate sep (fun q hm => (hqs q hm).1) hq]

/-- Parts with a separator behind each. -/
def closed (sep : Char) (ps : List (List Char)) : List Char := ps.flatMap fun p => p ++ [sep]

theorem intercalate_two (sep : Char) (ps : List (List Char)) (x y : List Char) :
    [sep].intercalate (ps ++ [x, y]) = closed sep ps ++ (x ++ sep :: y) := by
  induction ps with
  | nil => simp [closed]
  | cons p ps ih =>
    rw [List.cons_append, List.intercalate_cons_of_ne_nil (by simp), ih]
    simp [closed]

/-- Parts before a mark that none of them begins with. -/
theorem closed_mark_inj {sep : Char} {mark : List Char} (hmark : sep ∉ mark)
    {ps qs : List (List Char)} (hps : ∀ p ∈ ps, sep ∉ p ∧ ¬ mark <+: p)
    (hqs : ∀ q ∈ qs, sep ∉ q ∧ ¬ mark <+: q) {r r' : List Char}
    (h : closed sep ps ++ (mark ++ r) = closed sep qs ++ (mark ++ r')) : ps = qs ∧ r = r' := by
  have hbegins : ∀ {q rest s : List Char}, sep ∉ q → mark ++ s = q ++ sep :: rest →
      mark <+: q := by
    intro q rest s hq heq
    rcases List.append_eq_append_iff.1 heq with ⟨a, hqa, -⟩ | ⟨a, hma, hsep⟩
    · exact ⟨a, hqa.symm⟩
    · cases a with
      | nil => exact ⟨[], by simpa using hma⟩
      | cons c a =>
        obtain ⟨rfl, -⟩ := List.cons.inj hsep
        exact absurd (by simp [hma]) hmark
  induction ps generalizing qs with
  | nil =>
    cases qs with
    | nil => exact ⟨rfl, List.append_cancel_left (List.append_cancel_left h)⟩
    | cons q qs =>
      obtain ⟨hsep, hnot⟩ := hqs q List.mem_cons_self
      have h : mark ++ r = q ++ sep :: (closed sep qs ++ (mark ++ r')) := by
        simpa [closed] using h
      exact absurd (hbegins hsep h) hnot
  | cons p ps ih =>
    obtain ⟨hsep, hnot⟩ := hps p List.mem_cons_self
    cases qs with
    | nil =>
      have h : mark ++ r' = p ++ sep :: (closed sep ps ++ (mark ++ r)) := by
        simpa [closed] using h.symm
      exact absurd (hbegins hsep h) hnot
    | cons q qs =>
      obtain ⟨hsep', -⟩ := hqs q List.mem_cons_self
      have h : p ++ sep :: (closed sep ps ++ (mark ++ r)) =
          q ++ sep :: (closed sep qs ++ (mark ++ r')) := by
        simpa [closed] using h
      have hsplit := congrArg (splitOnce sep) h
      rw [splitOnce_append hsep, splitOnce_append hsep', Option.some.injEq, Prod.mk.injEq] at hsplit
      obtain ⟨rfl, hrest⟩ := hsplit
      obtain ⟨rfl, rfl⟩ := ih (fun p hp => hps p (List.mem_cons_of_mem _ hp))
        (fun q hq => hqs q (List.mem_cons_of_mem _ hq)) hrest
      exact ⟨rfl, rfl⟩

/-- The last separator can be told, if none stands behind it. -/
theorem last_sep_inj {sep : Char} {x x' y y' : List Char} (hy : sep ∉ y) (hy' : sep ∉ y')
    (h : x ++ sep :: y = x' ++ sep :: y') : x = x' ∧ y = y' := by
  have hrev : y.reverse ++ sep :: x.reverse = y'.reverse ++ sep :: x'.reverse := by
    simpa using congrArg List.reverse h
  have hsplit := congrArg (splitOnce sep) hrev
  rw [splitOnce_append (by simpa using hy), splitOnce_append (by simpa using hy')] at hsplit
  simp only [Option.some.injEq, Prod.mk.injEq, List.reverse_inj] at hsplit
  exact ⟨hsplit.2, hsplit.1⟩

/-- The last part but one may have any characters in it, separators too, if it begins with a mark
that none of the parts before it begins with. -/
theorem intercalate_open_inj {sep : Char} {mark : List Char} (hmark : sep ∉ mark)
    {ps qs : List (List Char)} (hps : ∀ p ∈ ps, sep ∉ p ∧ ¬ mark <+: p)
    (hqs : ∀ q ∈ qs, sep ∉ q ∧ ¬ mark <+: q) {x x' y y' : List Char} (hy : sep ∉ y)
    (hy' : sep ∉ y') (h : [sep].intercalate (ps ++ [mark ++ x, y]) =
      [sep].intercalate (qs ++ [mark ++ x', y'])) : ps = qs ∧ x = x' ∧ y = y' := by
  rw [intercalate_two, intercalate_two, List.append_assoc, List.append_assoc] at h
  obtain ⟨rfl, hrest⟩ := closed_mark_inj hmark hps hqs h
  exact ⟨rfl, last_sep_inj hy hy' hrest⟩

end Lib.Text
