import Meno.Lib.Escape

/-!
# Lib.Markup

How a text with tags in it is read. Every `<` opens a tag, which ends at the next `>` outside of a
quoted value; outside of tags, a reference that begins with `&` stands for one character. Escaped text
is read as the characters that were escaped, wherever no tag is open (`tokens_escape`), and
in a quoted value it does not close the value (`Mode.after_value`).
-/

namespace Lib.Markup

open Escape

/-- Where a reader is, and what he has read of the tag that is open. -/
inductive Mode where
  | text
  | tag (source : List Char)
  | value (source : List Char) (quote : Char)
deriving DecidableEq

def Mode.next : Mode → Char → Mode
  | text, c => if c = '<' then tag [] else text
  | tag source, c =>
    if c = '>' then text
    else if c = '"' ∨ c = '\'' then value (source ++ [c]) c
    else tag (source ++ [c])
  | value source quote, c =>
    if c = quote then tag (source ++ [c]) else value (source ++ [c]) quote

def Mode.after (m : Mode) (cs : List Char) : Mode := cs.foldl Mode.next m

/-- A tag with all that stands in it, or a character outside of the tags. -/
inductive Token where
  | tag (source : List Char)
  | character (c : Char)
deriving DecidableEq

/-- How references are found at the front of a text, with their length. -/
structure References where
  find : List Char → Option (Char × Nat)
  marked : ∀ c cs, c ≠ '&' → find (c :: cs) = none

/-- The text is found as a reference for the character, whatever follows it. -/
def References.Reads (r : References) (e : Char × List Char) : Prop :=
  ∀ cs, r.find (e.2 ++ cs) = some (e.1, e.2.length)

/-- The tokens of a text, of which some characters are still to be skipped. -/
def tokensFrom (r : References) : Mode → Nat → List Char → List Token
  | _, _, [] => []
  | m, n + 1, _ :: cs => tokensFrom r m n cs
  | .text, 0, c :: cs =>
    if c = '<' then tokensFrom r (.tag []) 0 cs
    else
      match r.find (c :: cs) with
      | some (d, n) => .character d :: tokensFrom r .text (n - 1) cs
      | none => .character c :: tokensFrom r .text 0 cs
  | .tag source, 0, c :: cs =>
    if c = '>' then .tag source :: tokensFrom r .text 0 cs
    else tokensFrom r (Mode.next (.tag source) c) 0 cs
  | .value source quote, 0, c :: cs => tokensFrom r (Mode.next (.value source quote) c) 0 cs

def tokens (r : References) (cs : List Char) : List Token := tokensFrom r .text 0 cs

/-- Text without references that leaves no tag open. -/
def Settled (cs : List Char) : Prop := '&' ∉ cs ∧ Mode.text.after cs = .text

instance (cs : List Char) : Decidable (Settled cs) := inferInstanceAs (Decidable (_ ∧ _))

variable {r : References} {cs ds : List Char} {c : Char}

theorem settled_of_eq {s : String} (h : s = String.ofList cs) (hcs : Settled cs) :
    Settled s.toList := by
  rw [h, String.toList_ofList]
  exact hcs

/-! ## One character -/

section Steps

variable (r : References) (source : List Char) (quote c : Char) (cs : List Char)

theorem Mode.next_text : Mode.text.next c = if c = '<' then .tag [] else .text := rfl

theorem Mode.next_tag : (Mode.tag source).next c =
    if c = '>' then .text
    else if c = '"' ∨ c = '\'' then .value (source ++ [c]) c
    else .tag (source ++ [c]) := rfl

theorem Mode.next_value : (Mode.value source quote).next c =
    if c = quote then .tag (source ++ [c]) else .value (source ++ [c]) quote := rfl

@[simp] theorem tokensFrom_nil (m : Mode) : tokensFrom r m 0 [] = [] := rfl

theorem tokensFrom_text : tokensFrom r .text 0 (c :: cs) =
    if c = '<' then tokensFrom r (.tag []) 0 cs
    else
      match r.find (c :: cs) with
      | some (d, n) => .character d :: tokensFrom r .text (n - 1) cs
      | none => .character c :: tokensFrom r .text 0 cs := rfl

theorem tokensFrom_tag : tokensFrom r (.tag source) 0 (c :: cs) =
    if c = '>' then .tag source :: tokensFrom r .text 0 cs
    else tokensFrom r (Mode.next (.tag source) c) 0 cs := rfl

theorem tokensFrom_value : tokensFrom r (.value source quote) 0 (c :: cs) =
    tokensFrom r (Mode.next (.value source quote) c) 0 cs := rfl

end Steps

/-! ## One after the other -/

@[simp] theorem Mode.after_nil (m : Mode) : m.after [] = m := rfl

@[simp] theorem Mode.after_cons (m : Mode) (c : Char) (cs : List Char) :
    m.after (c :: cs) = (m.next c).after cs := rfl

@[simp] theorem Mode.after_append (m : Mode) (cs ds : List Char) :
    m.after (cs ++ ds) = (m.after cs).after ds := List.foldl_append

theorem tokensFrom_skip (m : Mode) (cs ds : List Char) :
    tokensFrom r m cs.length (cs ++ ds) = tokensFrom r m 0 ds := by
  induction cs with
  | nil => rfl
  | cons c cs ih => exact ih

theorem tokensFrom_append (m : Mode) (h : '&' ∉ cs) (ds : List Char) :
    tokensFrom r m 0 (cs ++ ds) = tokensFrom r m 0 cs ++ tokensFrom r (m.after cs) 0 ds := by
  induction cs generalizing m with
  | nil => simp
  | cons c cs ih =>
    simp only [List.mem_cons, not_or] at h
    have hfind : ∀ w, r.find (c :: w) = none := fun w => r.marked c w (Ne.symm h.1)
    rw [List.cons_append]
    cases m with
    | text =>
      by_cases hc : c = '<' <;> simp [tokensFrom_text, Mode.next_text, hc, hfind, ih _ h.2]
    | tag source =>
      by_cases hc : c = '>'
      · simp [tokensFrom_tag, Mode.next_tag, hc, ih _ h.2]
      · simp [tokensFrom_tag, hc, ih _ h.2]
    | value source quote => simp [tokensFrom_value, ih _ h.2]

theorem tokens_append (h : Settled cs) (ds : List Char) :
    tokens r (cs ++ ds) = tokens r cs ++ tokens r ds := by
  rw [tokens, tokensFrom_append _ h.1, h.2]
  rfl

/-! ## Escaped text -/

/-- A value goes on as long as its quote does not come. -/
theorem Mode.after_value {source : List Char} {quote : Char} (h : quote ∉ cs) :
    (Mode.value source quote).after cs = .value (source ++ cs) quote := by
  induction cs generalizing source with
  | nil => simp
  | cons c cs ih =>
    simp only [List.mem_cons, not_or] at h
    simp [Mode.next_value, Ne.symm h.1, ih h.2]

theorem tokens_plain (hlt : c ≠ '<') (hamp : c ≠ '&') (cs : List Char) :
    tokens r (c :: cs) = .character c :: tokens r cs := by
  simp [tokens, tokensFrom_text, hlt, r.marked c cs hamp]

/-- Text in which no tag is opened and no reference begins is read as it stands. -/
theorem tokens_plain_append (hlt : '<' ∉ cs) (hamp : '&' ∉ cs) (ds : List Char) :
    tokens r (cs ++ ds) = cs.map .character ++ tokens r ds := by
  induction cs with
  | nil => rfl
  | cons c cs ih =>
    simp only [List.mem_cons, not_or] at hlt hamp
    rw [List.cons_append, tokens_plain (Ne.symm hlt.1) (Ne.symm hamp.1), ih hlt.2 hamp.2]
    rfl

theorem tokens_reference {e : Char × List Char} (h : r.Reads e) (cs : List Char) :
    tokens r (e.2 ++ cs) = .character e.1 :: tokens r cs := by
  have hfind := h cs
  cases htext : e.2 with
  | nil =>
    -- A reader that finds nothing at all for a character finds it at the front of every text.
    have hany := h ['a']
    rw [htext, List.nil_append, r.marked 'a' [] (by decide)] at hany
    cases hany
  | cons d w =>
    rw [htext, List.cons_append] at hfind
    have hd : d = '&' := by
      by_contra hne
      rw [r.marked d _ hne] at hfind
      cases hfind
    subst hd
    have hskip := tokensFrom_skip (r := r) .text w cs
    simp [tokens, tokensFrom_text, hfind, hskip]

/-- **Escaped text is read as it was.** -/
theorem tokens_escape {t : Entries} (hreads : ∀ e ∈ t, r.Reads e)
    (hopen : '<' ∈ t.map Prod.fst) (hmark : '&' ∈ t.map Prod.fst) (cs ds : List Char) :
    tokens r (escape t cs ++ ds) = cs.map .character ++ tokens r ds := by
  induction cs with
  | nil => rfl
  | cons c cs ih =>
    have hsplit : escape t (c :: cs) ++ ds = write t c ++ (escape t cs ++ ds) := by
      rw [escape_cons, List.append_assoc]
    rw [hsplit, List.map_cons, List.cons_append, ← ih]
    rcases write_cases t c with hc | ⟨hno, hc⟩
    · exact tokens_reference (hreads _ hc) _
    · have hlt : c ≠ '<' := by
        rintro rfl
        exact hno hopen
      have hamp : c ≠ '&' := by
        rintro rfl
        exact hno hmark
      rw [hc]
      exact tokens_plain hlt hamp _

/-! ## Readers -/

/-- A reader who looks the references up. -/
def References.ofEntries (t : Entries) (h : ∀ e ∈ t, e.2.head? = some '&') : References where
  find cs := (t.find? fun e => e.2.isPrefixOf cs).map fun e => (e.1, e.2.length)
  marked := by
    intro c cs hc
    rw [Option.map_eq_none_iff, List.find?_eq_none]
    intro e he hpre
    have hhead := h e he
    cases htext : e.2 with
    | nil => simp [htext] at hhead
    | cons d w =>
      rw [htext] at hhead hpre
      simp only [List.head?_cons, Option.some.injEq] at hhead
      have hd := (List.cons_prefix_cons.1 (List.isPrefixOf_iff_prefix.1 hpre)).1
      exact hc (hd ▸ hhead)

theorem ofEntries_reads {t : Entries} (h : ∀ e ∈ t, e.2.head? = some '&')
    (hfree : ∀ e ∈ t, ∀ f ∈ t, e.2 <+: f.2 → e = f) {e : Char × List Char} (he : e ∈ t) :
    (References.ofEntries t h).Reads e := by
  intro cs
  have hpre : e.2.isPrefixOf (e.2 ++ cs) = true :=
    List.isPrefixOf_iff_prefix.2 (List.prefix_append _ _)
  rw [References.ofEntries, Option.map_eq_some_iff]
  cases hfound : t.find? fun f => f.2.isPrefixOf (e.2 ++ cs) with
  | none => exact absurd hpre (by simpa using List.find?_eq_none.1 hfound e he)
  | some f =>
    have hf := List.mem_of_find?_eq_some hfound
    have hfpre : f.2.isPrefixOf (e.2 ++ cs) = true := by simpa using List.find?_some hfound
    rw [List.isPrefixOf_iff_prefix] at hfpre
    have hfe : f = e := by
      rcases List.prefix_or_prefix_of_prefix hfpre (List.prefix_append e.2 cs) with hp | hp
      · exact hfree f hf e he hp
      · exact (hfree e he f hf hp).symm
    exact ⟨f, rfl, by rw [hfe]⟩

end Lib.Markup
