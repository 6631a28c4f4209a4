import Mathlib.Algebra.GroupWithZero.Nat
import Mathlib.Tactic.Common
import Meno.Lib.Grammar
import Meno.Lib.Text

/-!
# Lib.Substitute

Patterns in a text that are replaced one after the other, and all at once. A template is read into
its characters and its placeholders, names in braces; a filling gives some of them their values. Two
placeholders never overlap, so replacing one of them is filling it in exactly if what was filled in
before has not made new ones of it (`replace_fill`).
-/

namespace Lib.Substitute

/-! ## Replacing -/

/-- The occurrences of a pattern replaced, from left to right, where the given number of characters is
still to be skipped. -/
def replaceFrom (pat r : List Char) : Nat → List Char → List Char
  | _, [] => []
  | n + 1, _ :: cs => replaceFrom pat r n cs
  | 0, c :: cs =>
    if pat.isPrefixOf (c :: cs) then r ++ replaceFrom pat r (pat.length - 1) cs
    else c :: replaceFrom pat r 0 cs

/-- `str::replace` -/
def replace (pat r cs : List Char) : List Char := replaceFrom pat r 0 cs

variable {pat r : List Char}

theorem replace_nil : replace pat r [] = [] := rfl

theorem replace_eq_ite (c : Char) (cs : List Char) :
    replace pat r (c :: cs) =
      if pat.isPrefixOf (c :: cs) then r ++ replaceFrom pat r (pat.length - 1) cs
      else c :: replace pat r cs := rfl

theorem replaceFrom_eq_drop (n : Nat) (cs : List Char) :
    replaceFrom pat r n cs = replace pat r (cs.drop n) := by
  induction n generalizing cs with
  | zero => rfl
  | succ n ih =>
    cases cs with
    | nil => rfl
    | cons c cs => exact ih cs

theorem replace_append (hpat : pat ≠ []) (cs : List Char) :
    replace pat r (pat ++ cs) = r ++ replace pat r cs := by
  obtain ⟨c, pat, rfl⟩ := List.exists_cons_of_ne_nil hpat
  have hpre : (c :: pat).isPrefixOf (c :: (pat ++ cs)) = true :=
    List.isPrefixOf_iff_prefix.2 (List.prefix_append (c :: pat) cs)
  rw [List.cons_append, replace_eq_ite, if_pos hpre, replaceFrom_eq_drop]
  simp

theorem replace_cons {c : Char} {cs : List Char} (h : ¬ pat <+: c :: cs) :
    replace pat r (c :: cs) = c :: replace pat r cs := by
  rw [replace_eq_ite, if_neg (mt List.isPrefixOf_iff_prefix.1 h)]

theorem replace_append_of_not {w cs : List Char}
    (h : ∀ u v, w = u ++ v → v ≠ [] → ¬ pat <+: v ++ cs) :
    replace pat r (w ++ cs) = w ++ replace pat r cs := by
  induction w with
  | nil => rfl
  | cons c w ih =>
    have hhead : ¬ pat <+: c :: (w ++ cs) := h [] (c :: w) rfl (List.cons_ne_nil _ _)
    rw [List.cons_append, replace_cons hhead, ih, List.cons_append]
    intro u v heq hv
    exact h (c :: u) v (by rw [heq]; rfl) hv

open String.Slice.Pattern Model in
/-- Patterns that match the same texts are found at the same places. -/
theorem isValidSearchFrom_of_matches {ρ τ : Type} {p : ρ} {q : τ} [PatternModel p] [PatternModel q]
    (h : ∀ text, PatternModel.Matches p text ↔ PatternModel.Matches q text) {s : String.Slice}
    {pos : s.Pos} {steps : List (SearchStep s)} (hsearch : IsValidSearchFrom p pos steps) :
    IsValidSearchFrom q pos steps := by
  have hlongest : ∀ {start stop : s.Pos},
      IsLongestMatchAt p start stop ↔ IsLongestMatchAt q start stop := by
    intro start stop
    simp only [isLongestMatchAt_iff, isLongestMatch_iff, isMatch_iff, h]
  induction hsearch with
  | endPos => exact .endPos
  | matched hmatch _ ih => exact .matched (hlongest.1 hmatch) ih
  | mismatched hlt hno _ ih =>
    refine .mismatched hlt (fun p' hle hlt' hat => hno p' hle hlt' ?_) ih
    rw [matchesAt_iff_exists_isLongestMatchAt] at hat ⊢
    simpa only [hlongest] using hat

open String.Slice.Pattern Model in
/-- A search for the pattern, with what is found replaced. -/
theorem foldl_search {pat r : String} (hpat : pat ≠ "") {s : String.Slice} {pos : s.Pos}
    {steps : List (SearchStep s)} (h : IsValidSearchFrom pat pos steps)
    {f : String → SearchStep s → String}
    (hmatched : ∀ acc start stop, (f acc (.matched start stop)).toList = acc.toList ++ r.toList)
    (hrejected : ∀ acc start stop, (f acc (.rejected start stop)).toList =
      acc.toList ++ (s.slice! start stop).copy.toList)
    {before after : String} (hpos : pos.Splits before after) (acc : String) :
    (steps.foldl f acc).toList = acc.toList ++ replace pat.toList r.toList after.toList := by
  have hne : pat.toList ≠ [] := by simpa using hpat
  induction h generalizing before after acc with
  | endPos =>
    have hafter : after = "" := hpos.eq_right (String.Slice.splits_endPos s)
    simp [hafter, replace_nil]
  | matched hmatch _ ih =>
    obtain ⟨u, rest, hstart, hstop⟩ := ForwardStringSearcher.isLongestMatchAt_iff_splits.1 hmatch
    have hafter : after = pat ++ rest := hpos.eq_right hstart
    rw [List.foldl_cons, ih hstop, hmatched, hafter, String.toList_append, replace_append hne]
    simp
  | @mismatched steps start stop hlt hno _ ih =>
    have hle : start ≤ stop := Std.le_of_lt hlt
    obtain ⟨u, rest, hstart, hstop⟩ := String.Slice.copy_slice_eq_iff_splits.1
      ⟨hle, rfl⟩
    have hafter : after = (s.slice start stop hle).copy ++ rest := hpos.eq_right hstart
    have hskip : ∀ x y, (s.slice start stop hle).copy.toList = x ++ y → y ≠ [] →
        ¬ pat.toList <+: y ++ rest.toList := by
      rintro x y heq hy ⟨z, hz⟩
      -- The position between `x` and `y` would be one at which the pattern is found.
      have hcopy : s.copy = (u ++ String.ofList x) ++ (pat ++ String.ofList z) := by
        rw [hstart.eq_append, ← String.toList_inj]
        simp [heq, ← hz]
      have hmid := String.Slice.Pos.splits_ofEqAppend hcopy
      refine hno _ ?_ ?_ (ForwardStringSearcher.matchesAt_iff_splits.2 ⟨_, _, hmid⟩)
      · refine (hstart.le_iff_exists_eq_append hmid).2 ⟨String.ofList x, rfl, ?_⟩
        rw [← String.toList_inj]
        simp [heq, ← hz]
      · refine (hmid.lt_iff_exists_eq_append hstop).2 ⟨String.ofList y, ?_, ?_, ?_⟩
        · simpa using hy
        · rw [← String.toList_inj]
          simp [heq]
        · rw [← String.toList_inj]
          simp [hz]
    rw [List.foldl_cons, ih hstop, hrejected, hafter, String.toList_append,
      replace_append_of_not hskip, ← String.Slice.slice_eq_slice! (h := hle)]
    simp

open String.Slice.Pattern Model in
/-- `String.replace` on the characters. -/
theorem toList_replace_of_matches {ρ : Type} {σ : String.Slice → Type}
    [∀ s, Std.Iterator (σ s) Id (SearchStep s)] [∀ s, Std.Iterators.Finite (σ s) Id]
    [∀ s, Std.IteratorLoop (σ s) Id Id] [∀ s, Std.LawfulIteratorLoop (σ s) Id Id]
    {p : ρ} [ToForwardSearcher p σ] [PatternModel p]
    [hlawful : LawfulToForwardSearcherModel p (σ := σ)] {pat : String} (hpat : pat ≠ "")
    (h : ∀ text, PatternModel.Matches p text ↔ text = pat) (s r : String) :
    (s.replace p r).toList = replace pat.toList r.toList s.toList := by
  have hsearch : IsValidSearchFrom pat _ _ := isValidSearchFrom_of_matches h
    (hlawful.isValidSearchFrom_toList s.toSlice)
  rw [String.replace, String.Slice.replace, ← Std.Iter.foldl_toList]
  have hslice : (String.ToSlice.toSlice r).copy = r := String.copy_toSlice
  rw [foldl_search (r := r) hpat hsearch (fun _ _ _ => by simp [hslice]) (fun _ _ _ => by simp)
    (String.Slice.splits_startPos s.toSlice)]
  simp

theorem toList_replace {pat : String} (hpat : pat ≠ "") (s r : String) :
    (s.replace pat r).toList = replace pat.toList r.toList s.toList := by
  have hlawful := String.Slice.Pattern.Model.ForwardStringSearcher.lawfulToForwardSearcherModel hpat
  exact toList_replace_of_matches hpat (fun _ => Iff.rfl) s r

theorem toList_replaceChar (c : Char) (s r : String) :
    (s.replace c r).toList = replace [c] r.toList s.toList := by
  have hne : String.singleton c ≠ "" := by simp
  have hone := toList_replace_of_matches (p := c) hne (fun _ => Iff.rfl) s r
  simpa using hone

/-! ## Placeholders -/

/-- A name in braces. -/
def placeholder (name : List Char) : List Char := '\x7b' :: (name ++ ['\x7d'])

/-- A name has no braces in it. -/
def IsName (name : List Char) : Prop := '\x7b' ∉ name ∧ '\x7d' ∉ name

instance (name : List Char) : Decidable (IsName name) :=
  inferInstanceAs (Decidable (_ ∧ _))

/-- How often a pattern stands in a text. -/
def occurrences (pat : List Char) : List Char → Nat
  | [] => 0
  | c :: cs => (if pat <+: c :: cs then 1 else 0) + occurrences pat cs

@[simp] theorem occurrences_nil (pat : List Char) : occurrences pat [] = 0 := rfl

theorem occurrences_cons (pat : List Char) (c : Char) (cs : List Char) :
    occurrences pat (c :: cs) = (if pat <+: c :: cs then 1 else 0) + occurrences pat cs := rfl

section Placeholders

variable {name other w t : List Char}

theorem open_not_mem_tail (hname : IsName name) : '\x7b' ∉ name ++ ['\x7d'] := by
  intro h
  rcases List.mem_append.1 h with h | h
  · exact hname.1 h
  · exact absurd (List.mem_singleton.1 h) (by decide)

/-- A placeholder ends before the next brace is opened. -/
theorem prefix_append_open (hname : IsName name) (hw : w ≠ []) :
    placeholder name <+: w ++ '\x7b' :: t ↔ placeholder name <+: w := by
  refine ⟨fun h => ?_, fun h => h.trans (List.prefix_append _ _)⟩
  rcases List.prefix_or_prefix_of_prefix h (List.prefix_append w _) with h' | ⟨q, hq⟩
  · exact h'
  · cases q with
    | nil => exact ⟨[], by rw [← hq]; simp⟩
    | cons c q =>
      rw [← hq, List.prefix_append_right_inj] at h
      obtain ⟨rfl, -⟩ := List.cons_prefix_cons.1 h
      obtain ⟨x, w, rfl⟩ := List.exists_cons_of_ne_nil hw
      have htail : name ++ ['\x7d'] = w ++ '\x7b' :: q := (List.cons.inj hq).2.symm
      exact absurd (htail ▸ List.mem_append_right w List.mem_cons_self)
        (open_not_mem_tail hname)

/-- Two placeholders at one place are the same. -/
theorem placeholder_prefix_iff (hname : IsName name) (hother : IsName other) :
    placeholder name <+: placeholder other ++ t ↔ name = other := by
  constructor
  · intro h
    obtain ⟨rest, hrest⟩ := h
    have htail : name ++ '\x7d' :: rest = other ++ '\x7d' :: t := by
      simpa [placeholder] using hrest
    have hsplit := congrArg (Text.splitOnce '\x7d') htail
    rw [Text.splitOnce_append hname.2, Text.splitOnce_append hother.2] at hsplit
    exact (Prod.mk.inj (Option.some.inj hsplit)).1
  · rintro rfl
    exact List.prefix_append _ _

theorem occurrences_append_open (hname : IsName name) (w t : List Char) :
    occurrences (placeholder name) (w ++ '\x7b' :: t) =
      occurrences (placeholder name) w + occurrences (placeholder name) ('\x7b' :: t) := by
  induction w with
  | nil => simp
  | cons c w ih =>
    have hhead := prefix_append_open (t := t) hname (List.cons_ne_nil c w)
    rw [List.cons_append] at hhead
    rw [List.cons_append, occurrences_cons, occurrences_cons, ih, if_congr hhead rfl rfl]
    omega

/-- No placeholder begins where no brace is opened. -/
theorem occurrences_append_of_not_mem (h : '\x7b' ∉ w) (t : List Char) :
    occurrences (placeholder name) (w ++ t) = occurrences (placeholder name) t := by
  induction w with
  | nil => rfl
  | cons c w ih =>
    have hc : ¬ placeholder name <+: c :: (w ++ t) := by
      intro hpre
      have heq := (List.cons_prefix_cons.1 hpre).1
      exact h (heq ▸ List.mem_cons_self)
    rw [List.cons_append, occurrences_cons, if_neg hc, ih fun hm => h (List.mem_cons_of_mem _ hm),
      Nat.zero_add]

theorem occurrences_placeholder_append (hname : IsName name) (hother : IsName other)
    (t : List Char) :
    occurrences (placeholder name) (placeholder other ++ t) =
      (if name = other then 1 else 0) + occurrences (placeholder name) t := by
  have hhead := placeholder_prefix_iff (t := t) hname hother
  have htail : occurrences (placeholder name) (other ++ ['\x7d'] ++ t) =
      occurrences (placeholder name) t := occurrences_append_of_not_mem (open_not_mem_tail hother) t
  rw [placeholder.eq_1 other, List.cons_append] at hhead ⊢
  rw [occurrences_cons, if_congr hhead rfl rfl, htail]

theorem occurrences_append_le (pat w t : List Char) :
    occurrences pat w + occurrences pat t ≤ occurrences pat (w ++ t) := by
  induction w with
  | nil => simp
  | cons c w ih =>
    rw [List.cons_append, occurrences_cons, occurrences_cons]
    by_cases h : pat <+: c :: w
    · have htotal : pat <+: c :: (w ++ t) := h.trans (List.prefix_append (c :: w) t)
      rw [if_pos h, if_pos htotal]
      omega
    · rw [if_neg h]
      omega

theorem replace_append_open {v : List Char} (hname : IsName name)
    (h : occurrences (placeholder name) w = 0) (t : List Char) :
    replace (placeholder name) v (w ++ '\x7b' :: t) =
      w ++ replace (placeholder name) v ('\x7b' :: t) := by
  induction w with
  | nil => rfl
  | cons c w ih =>
    rw [occurrences_cons] at h
    have hhead : ¬ placeholder name <+: c :: (w ++ '\x7b' :: t) := by
      have hiff := prefix_append_open (t := t) hname (List.cons_ne_nil c w)
      intro hpre
      rw [if_pos (hiff.1 hpre)] at h
      omega
    rw [List.cons_append, replace_cons hhead, ih (by omega), List.cons_append]

theorem replace_of_absent {pat v : List Char} (h : occurrences pat w = 0) :
    replace pat v w = w := by
  induction w with
  | nil => rfl
  | cons c w ih =>
    rw [occurrences_cons] at h
    have hhead : ¬ pat <+: c :: w := by
      intro hpre
      rw [if_pos hpre] at h
      omega
    rw [replace_cons hhead, ih (by omega)]

theorem occurrences_append_placeholder (hname : IsName name) (hother : IsName other)
    (w t : List Char) :
    occurrences (placeholder name) (w ++ (placeholder other ++ t)) =
      occurrences (placeholder name) w +
        ((if name = other then 1 else 0) + occurrences (placeholder name) t) := by
  have hopen := occurrences_append_open hname w (other ++ ['\x7d'] ++ t)
  have hother := occurrences_placeholder_append hname hother t
  exact hopen.trans (congrArg _ hother)

theorem replace_append_placeholder {v : List Char} (hname : IsName name)
    (h : occurrences (placeholder name) w = 0) (t : List Char) :
    replace (placeholder name) v (w ++ (placeholder name ++ t)) =
      w ++ (v ++ replace (placeholder name) v t) := by
  have hopen := replace_append_open (v := v) hname h (name ++ ['\x7d'] ++ t)
  have hfirst : placeholder name ≠ [] := List.cons_ne_nil _ _
  exact hopen.trans (congrArg _ (replace_append hfirst t))

/-! ## Texts with a placeholder between them -/

theorem occurrences_intercalate (hname : IsName name) (w : List Char) (ws : List (List Char)) :
    occurrences (placeholder name) ((placeholder name).intercalate (w :: ws)) =
      ws.length + ((w :: ws).map (occurrences (placeholder name))).sum := by
  induction ws generalizing w with
  | nil => simp
  | cons w' ws ih =>
    rw [List.intercalate_cons_cons, List.append_assoc,
      occurrences_append_placeholder hname hname, if_pos rfl, ih]
    simp only [List.map_cons, List.sum_cons, List.length_cons]
    omega

theorem occurrences_intercalate_other (hname : IsName name) (hother : IsName other)
    (hne : name ≠ other) (ws : List (List Char)) :
    occurrences (placeholder name) ((placeholder other).intercalate ws) =
      (ws.map (occurrences (placeholder name))).sum := by
  induction ws with
  | nil => rfl
  | cons w ws ih =>
    cases ws with
    | nil => simp
    | cons w' ws =>
      rw [List.intercalate_cons_cons, List.append_assoc,
        occurrences_append_placeholder hname hother, if_neg hne, ih]
      simp only [List.map_cons, List.sum_cons]
      omega

/-- Putting texts together keeps what stands in each of them. -/
theorem sum_occurrences_le (pat v : List Char) (ws : List (List Char)) :
    (ws.map (occurrences pat)).sum ≤ occurrences pat (v.intercalate ws) := by
  induction ws with
  | nil => simp
  | cons w ws ih =>
    cases ws with
    | nil => simp
    | cons w' ws =>
      rw [List.intercalate_cons_cons, List.append_assoc]
      have hw := occurrences_append_le pat w (v ++ v.intercalate (w' :: ws))
      have hv := occurrences_append_le pat v (v.intercalate (w' :: ws))
      simp only [List.map_cons, List.sum_cons] at ih ⊢
      omega

/-- Where the placeholder stands only between the texts, replacing it exchanges what is between
them. -/
theorem replace_intercalate (hname : IsName name) (v : List Char) {ws : List (List Char)}
    (h : ∀ w ∈ ws, occurrences (placeholder name) w = 0) :
    replace (placeholder name) v ((placeholder name).intercalate ws) = v.intercalate ws := by
  induction ws with
  | nil => rfl
  | cons w ws ih =>
    obtain ⟨hw, hws⟩ := List.forall_mem_cons.1 h
    cases ws with
    | nil => simpa using replace_of_absent hw
    | cons w' ws =>
      rw [List.intercalate_cons_cons, List.intercalate_cons_cons, List.append_assoc,
        List.append_assoc, replace_append_placeholder hname hw, ih hws]

end Placeholders

/-! ## Templates -/

/-- What a template consists of. -/
inductive Piece where
  | char (c : Char)
  | hole (name : List Char)
deriving DecidableEq

/-- A text read from left to right as a template with the given names, where the given number of
characters is still to be skipped. -/
def parseFrom (names : List (List Char)) : Nat → List Char → List Piece
  | _, [] => []
  | n + 1, _ :: cs => parseFrom names n cs
  | 0, c :: cs =>
    match names.find? fun name => (placeholder name).isPrefixOf (c :: cs) with
    | some name => .hole name :: parseFrom names (name.length + 1) cs
    | none => .char c :: parseFrom names 0 cs

def parse (names : List (List Char)) (cs : List Char) : List Piece := parseFrom names 0 cs

/-- The text of one piece, where a placeholder without a value stays as it is. -/
def Piece.text (value : List Char → Option (List Char)) : Piece → List Char
  | .char c => [c]
  | .hole name => (value name).getD (placeholder name)

/-- The template with the values that there are filled in, all at once. -/
def fill (value : List Char → Option (List Char)) (pieces : List Piece) : List Char :=
  pieces.flatMap (Piece.text value)

section Templates

variable {names : List (List Char)} {name other : List Char}
  {value value' : List Char → Option (List Char)} {pieces : List Piece}

theorem parseFrom_eq_drop (n : Nat) (cs : List Char) :
    parseFrom names n cs = parse names (cs.drop n) := by
  induction n generalizing cs with
  | zero => rfl
  | succ n ih =>
    cases cs with
    | nil => rfl
    | cons c cs => exact ih cs

theorem parse_placeholder (hname : name ∈ names) (hnames : ∀ n ∈ names, IsName n)
    (cs : List Char) :
    parse names (placeholder name ++ cs) = .hole name :: parse names cs := by
  have hiff : ∀ n ∈ names, (placeholder n).isPrefixOf (placeholder name ++ cs) = true ↔ n = name :=
    fun n hn => List.isPrefixOf_iff_prefix.trans
      (placeholder_prefix_iff (hnames n hn) (hnames name hname))
  have hfind : names.find? (fun n => (placeholder n).isPrefixOf (placeholder name ++ cs)) =
      some name := by
    cases hsome : names.find? (fun n => (placeholder n).isPrefixOf (placeholder name ++ cs)) with
    | none => exact absurd ((hiff name hname).2 rfl) (List.find?_eq_none.1 hsome name hname)
    | some n =>
      have hn := List.mem_of_find?_eq_some hsome
      have htrue := List.find?_some (p := fun n =>
        (placeholder n).isPrefixOf (placeholder name ++ cs)) hsome
      exact congrArg some ((hiff n hn).1 htrue)
  have hdrop : (name ++ ['\x7d'] ++ cs).drop (name.length + 1) = cs := by simp
  rw [placeholder, List.cons_append] at hfind ⊢
  rw [parse, parseFrom, hfind]
  exact congrArg _ ((parseFrom_eq_drop _ _).trans (congrArg _ hdrop))

theorem parse_cons {c : Char} {cs : List Char}
    (h : ∀ n ∈ names, ¬ placeholder n <+: c :: cs) :
    parse names (c :: cs) = .char c :: parse names cs := by
  have hfind : names.find? (fun n => (placeholder n).isPrefixOf (c :: cs)) = none :=
    List.find?_eq_none.2 fun n hn => mt List.isPrefixOf_iff_prefix.1 (h n hn)
  rw [parse, parseFrom, hfind]
  rfl

/-- A text is read piece by piece. -/
theorem parse_induction {motive : List Char → List Piece → Prop} (hnames : ∀ n ∈ names, IsName n)
    (nil : motive [] [])
    (hole : ∀ name ∈ names, ∀ cs, motive cs (parse names cs) →
      motive (placeholder name ++ cs) (.hole name :: parse names cs))
    (char : ∀ c cs, (∀ n ∈ names, ¬ placeholder n <+: c :: cs) → motive cs (parse names cs) →
      motive (c :: cs) (.char c :: parse names cs)) (cs : List Char) :
    motive cs (parse names cs) := by
  induction hlen : cs.length using Nat.strong_induction_on generalizing cs with
  | _ k ih =>
    subst hlen
    by_cases h : ∃ n ∈ names, placeholder n <+: cs
    · obtain ⟨name, hname, rest, rfl⟩ := h
      rw [parse_placeholder hname hnames]
      exact hole name hname rest (ih _ (by simp [placeholder]; omega) rest rfl)
    · cases cs with
      | nil => exact nil
      | cons c cs =>
        have hno : ∀ n ∈ names, ¬ placeholder n <+: c :: cs := fun n hn hpre => h ⟨n, hn, hpre⟩
        rw [parse_cons hno]
        exact char c cs hno (ih _ (Nat.lt_succ_self _) cs rfl)

/-- Without values the template is what it was read from. -/
theorem fill_none (hnames : ∀ n ∈ names, IsName n) (cs : List Char) :
    fill (fun _ => none) (parse names cs) = cs := by
  induction cs using parse_induction hnames with
  | nil => rfl
  | hole name hname cs ih => rw [fill, List.flatMap_cons, ← fill, ih]; rfl
  | char c cs hno ih => rw [fill, List.flatMap_cons, ← fill, ih]; rfl

/-- The holes of a name are the places at which its placeholder stands. -/
theorem count_hole (hnames : ∀ n ∈ names, IsName n) (hname : name ∈ names) (cs : List Char) :
    (parse names cs).count (.hole name) = occurrences (placeholder name) cs := by
  induction cs using parse_induction hnames with
  | nil => rfl
  | hole other hother cs ih =>
    rw [List.count_cons, ih, occurrences_placeholder_append (hnames name hname)
      (hnames other hother), Nat.add_comm]
    congr 1
    by_cases h : name = other
    · simp [h]
    · simp [h, Ne.symm h]
  | char c cs hno ih =>
    rw [List.count_cons, ih, occurrences_cons, if_neg (hno name hname)]
    simp

/-! ## Filling in one name -/

theorem fill_congr (h : ∀ n, .hole n ∈ pieces → value n = value' n) :
    fill value pieces = fill value' pieces := by
  induction pieces with
  | nil => rfl
  | cons p pieces ih =>
    have hp : p.text value = p.text value' := by
      cases p with
      | char c => rfl
      | hole n => rw [Piece.text, Piece.text, h n List.mem_cons_self]
    rw [fill, List.flatMap_cons, ← fill, ih fun n hn => h n (List.mem_cons_of_mem _ hn), hp]
    rfl

theorem fill_append (value : List Char → Option (List Char)) (p q : List Piece) :
    fill value (p ++ q) = fill value p ++ fill value q := List.flatMap_append

/-- The text between the holes of a name, and what is filled into these. -/
theorem fill_eq_intercalate (value : List Char → Option (List Char)) (name : List Char)
    (pieces : List Piece) :
    fill value pieces = ((value name).getD (placeholder name)).intercalate
      ((pieces.splitOn (.hole name)).map (fill value)) := by
  have hjoin : ∀ ps : List (List Piece), fill value ([.hole name].intercalate ps) =
      ((value name).getD (placeholder name)).intercalate (ps.map (fill value)) := by
    intro ps
    induction ps with
    | nil => rfl
    | cons p ps ih =>
      cases ps with
      | nil => simp
      | cons q ps =>
        rw [List.intercalate_cons_cons, fill_append, fill_append, ih]
        simp [fill, Piece.text, List.intercalate_cons_cons]
  rw [← hjoin, List.intercalate_splitOn]

theorem count_eq_length (name : List Char) (pieces : List Piece) :
    (pieces.splitOn (.hole name)).length = pieces.count (.hole name) + 1 := by
  induction pieces with
  | nil => rfl
  | cons p pieces ih =>
    rw [List.splitOn_cons_eq_if_modifyHead, List.count_cons]
    split
    · rw [List.length_cons, ih]
    · rw [List.length_modifyHead, ih, Nat.add_zero]

/-- Which occurrences of a placeholder there are: the holes, and those that were made by what is
filled in. -/
theorem occurrences_fill (hname : IsName name) (hnone : value name = none) (pieces : List Piece) :
    occurrences (placeholder name) (fill value pieces) = pieces.count (.hole name) +
      (((pieces.splitOn (.hole name)).map (fill value)).map
        (occurrences (placeholder name))).sum := by
  have hlength := count_eq_length name pieces
  rw [fill_eq_intercalate value name, hnone]
  obtain ⟨p, ps, heq⟩ := List.exists_cons_of_ne_nil (List.splitOn_ne_nil (.hole name) pieces)
  rw [heq] at hlength ⊢
  rw [List.map_cons, Option.getD_none, occurrences_intercalate hname, List.length_map]
  rw [List.length_cons] at hlength
  rw [Nat.add_right_cancel hlength]

theorem count_le_occurrences (hname : IsName name) (hnone : value name = none)
    (pieces : List Piece) :
    pieces.count (.hole name) ≤ occurrences (placeholder name) (fill value pieces) := by
  rw [occurrences_fill hname hnone]
  exact Nat.le_add_right _ _

/-- The values with one more. -/
def withValue (value : List Char → Option (List Char)) (name v : List Char) :
    List Char → Option (List Char) :=
  fun n => if n = name then some v else value n

theorem fill_withValue (v : List Char) (pieces : List Piece) :
    fill (withValue value name v) pieces =
      v.intercalate ((pieces.splitOn (.hole name)).map (fill value)) := by
  have hpieces : (pieces.splitOn (.hole name)).map (fill (withValue value name v)) =
      (pieces.splitOn (.hole name)).map (fill value) := by
    refine List.map_congr_left fun p hp => fill_congr fun n hn => if_neg ?_
    rintro rfl
    exact (Grammar.mem_splitOn.1 ⟨p, hp, hn⟩).2 rfl
  rw [fill_eq_intercalate (withValue value name v) name, hpieces, withValue, if_pos rfl,
    Option.getD_some]

/-- Replacing a placeholder fills its holes, if it stands nowhere else. -/
theorem replace_fill (hname : IsName name) (hnone : value name = none) {pieces : List Piece}
    (h : occurrences (placeholder name) (fill value pieces) = pieces.count (.hole name))
    (v : List Char) :
    replace (placeholder name) v (fill value pieces) = fill (withValue value name v) pieces := by
  rw [occurrences_fill hname hnone] at h
  have hzero : ∀ w ∈ (pieces.splitOn (.hole name)).map (fill value),
      occurrences (placeholder name) w = 0 := by
    intro w hw
    have hsum := List.sum_eq_zero_iff_forall_eq_nat.1 (Nat.add_eq_left.1 h)
    exact hsum _ (List.mem_map_of_mem hw)
  rw [fill_withValue, fill_eq_intercalate value name, hnone]
  exact replace_intercalate hname v hzero

/-- Filling in another name makes no placeholder disappear. -/
theorem occurrences_withValue_le (hname : IsName name) (hother : IsName other) (hne : name ≠ other)
    (hnone : value other = none) (v : List Char) (pieces : List Piece) :
    occurrences (placeholder name) (fill value pieces) ≤
      occurrences (placeholder name) (fill (withValue value other v) pieces) := by
  rw [fill_withValue, fill_eq_intercalate value other, hnone, Option.getD_none,
    occurrences_intercalate_other hname hother hne]
  exact sum_occurrences_le _ _ _

end Templates

/-! ## One replacement for each entry -/

/-- The placeholders of some entries replaced one after the other. -/
def replaceAll (order : List (List Char × List Char)) (text : List Char) : List Char :=
  order.foldl (fun text e => replace (placeholder e.1) e.2 text) text

/-- The placeholders of `entries` in a text, with the values of some of them filled in. -/
def filled (entries known : List (List Char × List Char)) (text : List Char) : List Char :=
  fill (fun name => known.lookup name) (parse (entries.map Prod.fst) text)

/-- Whatever the order, every replacement is one of the placeholders of the text, as many as there
are, and in the end the values stand in their places. -/
structure AtOnce (entries : List (List Char × List Char)) (text : List Char) : Prop where
  replaced : ∀ order, order.Perm entries → ∀ done e rest, order = done ++ e :: rest →
    occurrences (placeholder e.1) (replaceAll done text) = occurrences (placeholder e.1) text
  result : ∀ order, order.Perm entries → replaceAll order text = filled entries entries text

section Entries

variable {entries order done rest : List (List Char × List Char)} {e : List Char × List Char}
  {text : List Char}

theorem replaceAll_append (order order' : List (List Char × List Char)) (text : List Char) :
    replaceAll (order ++ order') text = replaceAll order' (replaceAll order text) :=
  List.foldl_append

theorem lookup_eq_some {l : List (List Char × List Char)} (h : (l.map Prod.fst).Nodup)
    {name v : List Char} : l.lookup name = some v ↔ (name, v) ∈ l := by
  induction l with
  | nil => simp
  | cons e l ih =>
    obtain ⟨n, u⟩ := e
    rw [List.map_cons, List.nodup_cons] at h
    rw [List.lookup_cons, List.mem_cons, Prod.mk.injEq]
    by_cases heq : name = n
    · subst heq
      have hnot : (name, v) ∉ l := fun hmem => h.1 (List.mem_map.2 ⟨_, hmem, rfl⟩)
      simp [hnot, eq_comm]
    · have hbeq : (name == n) = false := by simpa using heq
      rw [hbeq]
      simp [heq, ih h.2]

theorem lookup_none {l : List (List Char × List Char)} {name : List Char}
    (h : name ∉ l.map Prod.fst) : l.lookup name = none := by
  refine List.lookup_eq_none_iff.2 fun e he => ?_
  have hne : name ≠ e.1 := fun heq => h (heq ▸ List.mem_map_of_mem he)
  simpa using hne

theorem lookup_perm {l l' : List (List Char × List Char)} (hperm : l.Perm l')
    (h : (l.map Prod.fst).Nodup) (name : List Char) : l.lookup name = l'.lookup name := by
  have h' : (l'.map Prod.fst).Nodup := (hperm.map Prod.fst).nodup_iff.1 h
  refine Option.ext fun v => ?_
  rw [lookup_eq_some h, lookup_eq_some h']
  exact hperm.mem_iff

theorem filled_perm (entries : List (List Char × List Char))
    {l l' : List (List Char × List Char)} (hperm : l.Perm l') (h : (l.map Prod.fst).Nodup)
    (text : List Char) : filled entries l text = filled entries l' text :=
  fill_congr fun name _ => lookup_perm hperm h name

/-- One more value. -/
theorem filled_concat (entries : List (List Char × List Char)) (h : e.1 ∉ done.map Prod.fst)
    (text : List Char) :
    filled entries (done ++ [e]) text =
      fill (withValue (fun name => done.lookup name) e.1 e.2)
        (parse (entries.map Prod.fst) text) := by
  refine fill_congr fun name _ => ?_
  obtain ⟨n, v⟩ := e
  rw [List.lookup_append, withValue, List.lookup_cons]
  by_cases heq : name = n
  · rw [heq, lookup_none h, if_pos rfl, beq_self_eq_true]
    rfl
  · have hbeq : (name == n) = false := by simpa using heq
    rw [if_neg heq, hbeq]
    exact Option.or_none

variable (hnames : ∀ n ∈ entries.map Prod.fst, IsName n)

include hnames

/-- One replacement that meets the placeholders of the text only. -/
theorem replaceAll_step (he : e ∈ entries) (hnew : e.1 ∉ done.map Prod.fst)
    (hdone : replaceAll done text = filled entries done text)
    (hcount : occurrences (placeholder e.1) (replaceAll done text) =
      occurrences (placeholder e.1) text) :
    replaceAll (done ++ [e]) text = filled entries (done ++ [e]) text := by
  have hname : e.1 ∈ entries.map Prod.fst := List.mem_map_of_mem he
  have hlast : replaceAll (done ++ [e]) text =
      replace (placeholder e.1) e.2 (replaceAll done text) := replaceAll_append done [e] text
  rw [hlast, filled_concat entries hnew]
  rw [hdone, ← count_hole hnames hname text] at hcount
  rw [hdone]
  exact replace_fill (hnames e.1 hname) (lookup_none hnew) hcount e.2

theorem replaceAll_of_counts (hnodup : (order.map Prod.fst).Nodup) (hsub : ∀ e ∈ order, e ∈ entries)
    (hcounts : ∀ done e rest, order = done ++ e :: rest →
      replaceAll done text = filled entries done text →
        occurrences (placeholder e.1) (replaceAll done text) =
          occurrences (placeholder e.1) text) :
    replaceAll order text = filled entries order text := by
  induction order using List.reverseRecOn with
  | nil =>
    exact (fill_none hnames text).symm
  | append_singleton done e ih =>
    rw [List.map_append, List.nodup_append] at hnodup
    have hnew : e.1 ∉ done.map Prod.fst := fun hmem => hnodup.2.2 _ hmem _ List.mem_cons_self rfl
    have hdone := ih hnodup.1 (fun f hf => hsub f (List.mem_append_left _ hf))
      fun d f r heq => hcounts d f (r ++ [e]) (by rw [heq]; simp)
    exact replaceAll_step hnames (hsub e (by simp)) hnew hdone (hcounts done e [] rfl hdone)

/-- More values make no placeholder without a value disappear. -/
theorem occurrences_filled_le (he : e ∈ entries) (hsub : ∀ f ∈ rest, f ∈ entries)
    (hnodup : ((done ++ rest).map Prod.fst).Nodup) (hnew : e.1 ∉ (done ++ rest).map Prod.fst) :
    occurrences (placeholder e.1) (filled entries done text) ≤
      occurrences (placeholder e.1) (filled entries (done ++ rest) text) := by
  induction rest using List.reverseRecOn with
  | nil => rw [List.append_nil]
  | append_singleton rest f ih =>
    rw [← List.append_assoc] at hnodup hnew ⊢
    rw [List.map_append, List.nodup_append] at hnodup
    have hf : f.1 ∉ (done ++ rest).map Prod.fst := fun hmem =>
      hnodup.2.2 _ hmem _ List.mem_cons_self rfl
    have hne : e.1 ≠ f.1 := fun heq => hnew (by simp [heq])
    have hearlier := ih (fun g hg => hsub g (List.mem_append_left _ hg)) hnodup.1
      fun hmem => hnew (by rw [List.map_append]; exact List.mem_append_left _ hmem)
    rw [filled_concat entries hf]
    refine hearlier.trans (occurrences_withValue_le (hnames e.1 (List.mem_map_of_mem he))
      (hnames f.1 (List.mem_map_of_mem (hsub f (by simp)))) hne (lookup_none hf) f.2 _)

/-- **One after the other is at once**, in every order, exactly if no placeholder of the entries
arises when all the others are filled in. -/
theorem atOnce_iff (hnodup : (entries.map Prod.fst).Nodup) (text : List Char) :
    AtOnce entries text ↔ ∀ e ∈ entries,
      occurrences (placeholder e.1) (filled entries (entries.filter fun f => f.1 ≠ e.1) text) =
        occurrences (placeholder e.1) text := by
  have hothers : ∀ {order done rest : List (List Char × List Char)} {e : List Char × List Char},
      order.Perm entries → order = done ++ e :: rest →
        (done ++ rest).Perm (entries.filter fun f => f.1 ≠ e.1) ∧
          ((done ++ rest).map Prod.fst).Nodup ∧ e.1 ∉ (done ++ rest).map Prod.fst := by
    intro order done rest e hperm heq
    have hkeys := (hperm.map Prod.fst).nodup_iff.2 hnodup
    rw [heq, List.map_append, List.map_cons, List.nodup_middle, ← List.map_append,
      List.nodup_cons] at hkeys
    refine ⟨?_, hkeys.2, hkeys.1⟩
    have hfilter : order.filter (fun f => f.1 ≠ e.1) = done ++ rest := by
      have hkept : ∀ f ∈ done ++ rest, f.1 ≠ e.1 := fun f hf heq =>
        hkeys.1 (heq ▸ List.mem_map_of_mem hf)
      have hself := List.filter_eq_self (p := fun f => decide (f.1 ≠ e.1)) |>.2 fun f hf =>
        decide_eq_true (hkept f hf)
      rw [heq, List.filter_append, List.filter_cons_of_neg (by simp), ← List.filter_append, hself]
    rw [← hfilter]
    exact hperm.filter _
  constructor
  · intro h e he
    -- In the order in which this entry comes last, the others have been filled in before it.
    have hperm : (entries.filter (fun f => f.1 ≠ e.1) ++ [e]).Perm entries := by
      obtain ⟨before, after, heq⟩ := List.append_of_mem he
      have hfilter := (hothers (List.Perm.refl entries) heq).1
      refine (hfilter.symm.append_right [e]).trans ?_
      rw [heq, List.append_assoc]
      exact (List.perm_append_comm.append_left before)
    have hcounts := h.replaced _ hperm
    obtain ⟨-, hkeys, -⟩ := hothers hperm rfl
    rw [List.append_nil] at hkeys
    have hrun := replaceAll_of_counts hnames hkeys
      (fun f hf => (List.mem_filter.1 hf).1) fun done f rest heq _ =>
        hcounts done f (rest ++ [e]) (by rw [heq]; simp)
    rw [← hrun]
    exact hcounts _ e [] rfl
  · intro h
    have hcounts : ∀ order, order.Perm entries → ∀ done e rest, order = done ++ e :: rest →
        replaceAll done text = filled entries done text →
          occurrences (placeholder e.1) (replaceAll done text) =
            occurrences (placeholder e.1) text := by
      intro order hperm done e rest heq hdone
      have he : e ∈ entries := hperm.subset (heq ▸ by simp)
      have hname : e.1 ∈ entries.map Prod.fst := List.mem_map_of_mem he
      obtain ⟨hrest, hkeys, hnew⟩ := hothers hperm heq
      have hsub : ∀ f ∈ rest, f ∈ entries := fun f hf => hperm.subset (heq ▸ by simp [hf])
      have hle : occurrences (placeholder e.1) (filled entries done text) ≤
          occurrences (placeholder e.1) (filled entries (done ++ rest) text) :=
        occurrences_filled_le hnames he hsub hkeys hnew
      have hnone : done.lookup e.1 = none := lookup_none fun hmem => hnew (by simp [hmem])
      have hge : (parse (entries.map Prod.fst) text).count (.hole e.1) ≤
          occurrences (placeholder e.1) (filled entries done text) :=
        count_le_occurrences (hnames e.1 hname) hnone _
      rw [filled_perm entries hrest hkeys, h e he] at hle
      rw [count_hole hnames hname] at hge
      rw [hdone]
      exact Nat.le_antisymm hle hge
    have hrun : ∀ order, order.Perm entries → ∀ done rest, order = done ++ rest →
        replaceAll done text = filled entries done text := by
      intro order hperm done rest heq
      have hkeys := (hperm.map Prod.fst).nodup_iff.2 hnodup
      rw [heq, List.map_append, List.nodup_append] at hkeys
      exact replaceAll_of_counts hnames hkeys.1 (fun f hf => hperm.subset (heq ▸ by simp [hf]))
        fun d f r hd => hcounts order hperm d f (r ++ rest) (by rw [heq, hd]; simp)
    refine ⟨fun order hperm done e rest heq => ?_, fun order hperm => ?_⟩
    · exact hcounts order hperm done e rest heq (hrun order hperm done (e :: rest) heq)
    · rw [hrun order hperm order [] (List.append_nil _).symm]
      exact filled_perm entries hperm ((hperm.map Prod.fst).nodup_iff.2 hnodup) text

end Entries

/-! ## What a replacement changes -/

section Changes

variable {name v s : List Char}

/-- The texts between the occurrences of a placeholder, and what replacing it puts between them. -/
theorem exists_between (hname : IsName name) (s : List Char) :
    ∃ w ws, s = (placeholder name).intercalate (w :: ws) ∧
      ws.length = occurrences (placeholder name) s ∧
        ∀ v, replace (placeholder name) v s = v.intercalate (w :: ws) := by
  have hnames : ∀ n ∈ [name], IsName n := fun n hn => List.mem_singleton.1 hn ▸ hname
  have htext := fill_none hnames s
  have hcount := count_hole hnames List.mem_cons_self s
  obtain ⟨w, ws, heq⟩ := List.exists_cons_of_ne_nil
    (List.splitOn_ne_nil (.hole name) (parse [name] s))
  have hlength := count_eq_length name (parse [name] s)
  rw [heq, List.length_cons, hcount] at hlength
  refine ⟨fill (fun _ => none) w, ws.map (fill fun _ => none), ?_, ?_, fun v => ?_⟩
  · rw [← List.map_cons, ← heq]
    exact htext.symm.trans (fill_eq_intercalate (fun _ => none) name _)
  · rw [List.length_map]
    exact Nat.add_right_cancel hlength
  · have hbetween : occurrences (placeholder name) (fill (fun _ => none) (parse [name] s)) =
        (parse [name] s).count (.hole name) := by rw [htext, hcount]
    have hreplace := replace_fill hname rfl hbetween v
    rw [htext, fill_withValue, heq] at hreplace
    exact hreplace

theorem count_intercalate (a : Char) (x w : List Char) (ws : List (List Char)) :
    (x.intercalate (w :: ws)).count a =
      ws.length * x.count a + ((w :: ws).map (List.count a)).sum := by
  induction ws generalizing w with
  | nil => simp
  | cons w' ws ih =>
    rw [List.intercalate_cons_cons, List.count_append, List.count_append, ih]
    simp only [List.map_cons, List.sum_cons, List.length_cons, Nat.succ_mul]
    omega

theorem length_intercalate (x w : List Char) (ws : List (List Char)) :
    (x.intercalate (w :: ws)).length =
      ws.length * x.length + ((w :: ws).map List.length).sum := by
  induction ws generalizing w with
  | nil => simp
  | cons w' ws ih =>
    rw [List.intercalate_cons_cons, List.length_append, List.length_append, ih]
    simp only [List.map_cons, List.sum_cons, List.length_cons, Nat.succ_mul]
    omega

/-- How often a character stands in the text before and after. -/
theorem count_replace (hname : IsName name) (a : Char) (v s : List Char) :
    (replace (placeholder name) v s).count a +
        occurrences (placeholder name) s * (placeholder name).count a =
      s.count a + occurrences (placeholder name) s * v.count a := by
  obtain ⟨w, ws, hs, hlength, hreplace⟩ := exists_between hname s
  rw [hreplace v, ← hlength, count_intercalate]
  rw [hs, count_intercalate]
  omega

/-- Replacing a placeholder by itself. -/
theorem replace_self (hname : IsName name) (s : List Char) :
    replace (placeholder name) (placeholder name) s = s := by
  obtain ⟨w, ws, hs, -, hreplace⟩ := exists_between hname s
  exact (hreplace _).trans hs.symm

/-- Only by itself can a placeholder that is there be replaced without a change. -/
theorem eq_of_replace_eq_self (hname : IsName name) (h : replace (placeholder name) v s = s)
    (hthere : occurrences (placeholder name) s ≠ 0) : v = placeholder name := by
  obtain ⟨w, ws, hs, hlength, hreplace⟩ := exists_between hname s
  have hsame : v.intercalate (w :: ws) = (placeholder name).intercalate (w :: ws) :=
    (hreplace v).symm.trans (h.trans hs)
  have hlen := congrArg List.length hsame
  rw [length_intercalate, length_intercalate, Nat.add_right_cancel_iff] at hlen
  have hpos : 0 < ws.length := by omega
  have heqlen := Nat.eq_of_mul_eq_mul_left hpos hlen
  obtain ⟨w', ws, rfl⟩ := List.exists_cons_of_ne_nil (List.ne_nil_of_length_pos hpos)
  rw [List.intercalate_cons_cons, List.intercalate_cons_cons, List.append_assoc,
    List.append_assoc] at hsame
  exact (List.append_inj (List.append_cancel_left hsame) heqlen).1

/-- Two replacements with the same value that change nothing between them. The first can only have
been without an effect, if the one placeholder has a character that the other does not have. -/
theorem first_unchanged {other : List Char} {a : Char} (hname : IsName name)
    (hother : IsName other) (hone : (placeholder name).count a = 1)
    (hzero : (placeholder other).count a = 0)
    (h : replace (placeholder other) v (replace (placeholder name) v s) = s) :
    occurrences (placeholder name) s = 0 ∨ v = placeholder name := by
  by_cases hthere : occurrences (placeholder name) s = 0
  · exact .inl hthere
  · have hfirst := count_replace hname a v s
    have hsecond := count_replace hother a v (replace (placeholder name) v s)
    rw [hone, Nat.mul_one] at hfirst
    rw [h, hzero, Nat.mul_zero, Nat.add_zero] at hsecond
    -- As many of the character as the first takes away are put in, by both together.
    have hsum : occurrences (placeholder name) s =
        (occurrences (placeholder name) s +
          occurrences (placeholder other) (replace (placeholder name) v s)) * v.count a := by
      rw [Nat.add_mul]
      omega
    have habsent : occurrences (placeholder other) (replace (placeholder name) v s) = 0 := by
      cases hv : v.count a with
      | zero =>
        rw [hv, Nat.mul_zero] at hsum
        exact absurd hsum hthere
      | succ k =>
        rw [hv, Nat.mul_succ] at hsum
        omega
    rw [replace_of_absent habsent] at h
    exact .inr (eq_of_replace_eq_self hname h hthere)

/-- Replacements that change nothing one by one. -/
theorem replaceAll_of_idle {order : List (List Char × List Char)} {text : List Char}
    (h : ∀ e ∈ order, replace (placeholder e.1) e.2 text = text) :
    replaceAll order text = text := by
  induction order with
  | nil => rfl
  | cons e order ih =>
    obtain ⟨he, hrest⟩ := List.forall_mem_cons.1 h
    rw [replaceAll, List.foldl_cons, he]
    exact ih hrest

/-- A placeholder that has been replaced among others that change nothing. -/
theorem replaceAll_among_idle {order idle : List (List Char × List Char)}
    {e : List Char × List Char} {text : List Char} (hperm : order.Perm (e :: idle))
    (hbefore : ∀ f ∈ idle, replace (placeholder f.1) f.2 text = text)
    (hafter : ∀ f ∈ idle, replace (placeholder f.1) f.2 (replace (placeholder e.1) e.2 text) =
      replace (placeholder e.1) e.2 text) :
    replaceAll order text = replace (placeholder e.1) e.2 text := by
  obtain ⟨done, rest, rfl⟩ := List.append_of_mem (hperm.symm.subset List.mem_cons_self)
  have hidle : (done ++ rest).Perm idle :=
    (List.perm_middle.symm.trans hperm).cons_inv
  have hdone : replaceAll done text = text :=
    replaceAll_of_idle fun f hf => hbefore f (hidle.subset (List.mem_append_left _ hf))
  have hrest : replaceAll rest (replace (placeholder e.1) e.2 text) =
      replace (placeholder e.1) e.2 text :=
    replaceAll_of_idle fun f hf => hafter f (hidle.subset (List.mem_append_right _ hf))
  rw [replaceAll_append, hdone]
  exact hrest

/-- The template with the value of one name. -/
theorem filled_singleton {e : List Char × List Char} (hname : IsName e.1) (text : List Char) :
    filled [e] [e] text = replace (placeholder e.1) e.2 text := by
  have hnames : ∀ n ∈ [e].map Prod.fst, IsName n := fun n hn => List.mem_singleton.1 hn ▸ hname
  have hstart : replaceAll [] text = filled [e] [] text := (fill_none hnames text).symm
  exact (replaceAll_step hnames List.mem_cons_self List.not_mem_nil hstart rfl).symm

/-- Filling in a name makes no placeholder of another disappear. -/
theorem occurrences_replace_le {other : List Char} (hname : IsName name) (hother : IsName other)
    (hne : other ≠ name) (v s : List Char) :
    occurrences (placeholder other) s ≤
      occurrences (placeholder other) (replace (placeholder name) v s) := by
  obtain ⟨w, ws, hs, -, hreplace⟩ := exists_between hname s
  rw [hreplace v]
  calc occurrences (placeholder other) s
      = ((w :: ws).map (occurrences (placeholder other))).sum := by
        rw [hs, occurrences_intercalate_other hother hname hne]
    _ ≤ occurrences (placeholder other) (v.intercalate (w :: ws)) := sum_occurrences_le _ _ _

end Changes

end Lib.Substitute
