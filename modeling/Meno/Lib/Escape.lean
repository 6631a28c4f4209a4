import Mathlib.Data.List.Nodup
import Mathlib.Tactic.Common
import Meno.Lib.Substitute

/-!
# Lib.Escape

Characters that are written as texts of their own. They are replaced one after the other
(`successively`), and that writes every character once (`escape`) exactly if no text has a character
in it that is replaced later (`successively_eq_escape_iff`). Where all texts begin with one mark,
which is itself replaced, what is written can be told apart, and it is known what it looks like
(`Escaping`).
-/

namespace Lib

namespace Escape

/-- The characters that are replaced, with their texts. -/
abbrev Entries := List (Char × List Char)

/-- A character as it is written. -/
def write : Entries → Char → List Char
  | [], c => [c]
  | e :: t, c => if c = e.1 then e.2 else write t c

def escape (t : Entries) (cs : List Char) : List Char := cs.flatMap (write t)

/-- Each of the characters replaced in what the replacements before it have left. -/
def successively (t : Entries) (cs : List Char) : List Char :=
  t.foldl (fun cs e => Substitute.replace [e.1] e.2 cs) cs

variable {t u : Entries} {c : Char} {r cs : List Char}

@[simp] theorem write_nil (c : Char) : write [] c = [c] := rfl

theorem write_cons (e : Char × List Char) (t : Entries) (c : Char) :
    write (e :: t) c = if c = e.1 then e.2 else write t c := rfl

@[simp] theorem escape_nil (t : Entries) : escape t [] = [] := rfl

theorem escape_cons (t : Entries) (c : Char) (cs : List Char) :
    escape t (c :: cs) = write t c ++ escape t cs := rfl

theorem successively_cons (e : Char × List Char) (t : Entries) (cs : List Char) :
    successively (e :: t) cs = successively t (Substitute.replace [e.1] e.2 cs) := rfl

/-! ## Writing -/

theorem write_of_not_mem (h : c ∉ t.map Prod.fst) : write t c = [c] := by
  induction t with
  | nil => rfl
  | cons e t ih =>
    simp only [List.map_cons, List.mem_cons, not_or] at h
    rw [write_cons, if_neg h.1, ih h.2]

theorem write_of_mem (hkeys : (t.map Prod.fst).Nodup) {e : Char × List Char} (he : e ∈ t) :
    write t e.1 = e.2 := by
  induction t with
  | nil => simp at he
  | cons f t ih =>
    simp only [List.map_cons, List.nodup_cons] at hkeys
    rcases List.mem_cons.1 he with rfl | he
    · rw [write_cons, if_pos rfl]
    · have hne : e.1 ≠ f.1 := by
        intro heq
        exact hkeys.1 (heq ▸ List.mem_map_of_mem he)
      rw [write_cons, if_neg hne, ih hkeys.2 he]

theorem write_cases (t : Entries) (c : Char) :
    (c, write t c) ∈ t ∨ c ∉ t.map Prod.fst ∧ write t c = [c] := by
  induction t with
  | nil => simp
  | cons e t ih =>
    by_cases h : c = e.1
    · simp [write_cons, h]
    · rcases ih with hmem | ⟨hno, hc⟩
      · left
        simp [write_cons, h, hmem]
      · right
        rw [write_cons, if_neg h]
        simp only [List.map_cons, List.mem_cons, not_or]
        exact ⟨⟨h, hno⟩, hc⟩

theorem escape_of_absent (h : ∀ c ∈ cs, c ∉ t.map Prod.fst) : escape t cs = cs := by
  induction cs with
  | nil => rfl
  | cons c cs ih =>
    have hc := write_of_not_mem (h c (by simp))
    have hcs : escape t cs = cs := ih fun d hd => h d (by simp [hd])
    rw [escape_cons, hc, hcs, List.singleton_append]

theorem escape_perm (hperm : t.Perm u) (hkeys : (t.map Prod.fst).Nodup) (cs : List Char) :
    escape t cs = escape u cs := by
  have hmap : (t.map Prod.fst).Perm (u.map Prod.fst) := hperm.map Prod.fst
  have hwrite : ∀ c, write t c = write u c := by
    intro c
    rcases write_cases t c with hmem | ⟨hno, hc⟩
    · exact (write_of_mem (hmap.nodup_iff.1 hkeys) (hperm.mem_iff.1 hmem)).symm
    · rw [hc, write_of_not_mem fun hm => hno (hmap.mem_iff.2 hm)]
  rw [escape, escape, funext hwrite]

/-! ## One after the other -/

theorem replace_singleton (c : Char) (r cs : List Char) :
    Substitute.replace [c] r cs = cs.flatMap fun d => if d = c then r else [d] := by
  induction cs with
  | nil => rfl
  | cons d cs ih =>
    by_cases h : d = c
    · subst h
      have hhead := Substitute.replace_append (r := r) (List.cons_ne_nil d []) cs
      rw [List.singleton_append] at hhead
      simp [hhead, ih]
    · have hno : ¬ [c] <+: d :: cs := by
        simp [List.cons_prefix_cons, Ne.symm h]
      simp [Substitute.replace_cons hno, ih, h]

theorem length_replace (hr : 1 < r.length) (cs : List Char) :
    cs.length ≤ (Substitute.replace [c] r cs).length ∧
      (c ∈ cs → cs.length < (Substitute.replace [c] r cs).length) := by
  rw [replace_singleton]
  induction cs with
  | nil => simp
  | cons d cs ih =>
    obtain ⟨hle, hlt⟩ := ih
    by_cases h : d = c
    · simp only [List.flatMap_cons, if_pos h, List.length_append, List.length_cons]
      exact ⟨by omega, fun _ => by omega⟩
    · simp only [List.flatMap_cons, if_neg h, List.length_append, List.length_cons, List.mem_cons,
        Ne.symm h, false_or, List.length_nil]
      refine ⟨by omega, fun hmem => ?_⟩
      have hlt := hlt hmem
      omega

theorem replace_of_not_mem (h : c ∉ cs) : Substitute.replace [c] r cs = cs := by
  have hwrite : ∀ d ∈ cs, (if d = c then r else [d]) = [d] := by
    intro d hd
    rw [if_neg]
    rintro rfl
    exact h hd
  rw [replace_singleton, List.flatMap_congr hwrite]
  simp

/-- Nothing that is replaced makes the text shorter. -/
theorem length_le_successively (hlong : ∀ e ∈ t, 1 < e.2.length) (cs : List Char) :
    cs.length ≤ (successively t cs).length := by
  induction t generalizing cs with
  | nil => simp [successively]
  | cons e t ih =>
    have hfirst := (length_replace (c := e.1) (hlong e (by simp)) cs).1
    have hrest := ih (fun f hf => hlong f (by simp [hf])) (Substitute.replace [e.1] e.2 cs)
    exact hfirst.trans hrest

theorem length_lt_successively (hlong : ∀ e ∈ t, 1 < e.2.length) {e : Char × List Char}
    (he : e ∈ t) (hcs : e.1 ∈ cs) : cs.length < (successively t cs).length := by
  induction t generalizing cs with
  | nil => simp at he
  | cons f t ih =>
    have htail : ∀ g ∈ t, 1 < g.2.length := fun g hg => hlong g (by simp [hg])
    rw [successively_cons]
    by_cases hf : f.1 ∈ cs
    · have hgrows := (length_replace (hlong f (by simp)) cs).2 hf
      exact hgrows.trans_le (length_le_successively htail _)
    · rw [replace_of_not_mem hf]
      rcases List.mem_cons.1 he with rfl | he
      · exact absurd hcs hf
      · exact ih htail he hcs

theorem successively_eq_escape (h : t.Pairwise fun e f => f.1 ∉ e.2) (cs : List Char) :
    successively t cs = escape t cs := by
  induction t generalizing cs with
  | nil =>
    have hplain : escape [] cs = cs := escape_of_absent (by simp)
    exact hplain.symm
  | cons e t ih =>
    obtain ⟨hhead, htail⟩ := List.pairwise_cons.1 h
    -- What the first replacement puts in is left alone by the others.
    have hkept : escape t e.2 = e.2 := by
      refine escape_of_absent fun c hc hkey => ?_
      obtain ⟨f, hf, rfl⟩ := List.mem_map.1 hkey
      exact hhead f hf hc
    have hwrite : ∀ d, escape t (if d = e.1 then e.2 else [d]) = write (e :: t) d := by
      intro d
      by_cases hd : d = e.1
      · rw [if_pos hd, write_cons, if_pos hd, hkept]
      · rw [if_neg hd, write_cons, if_neg hd, escape_cons, escape_nil, List.append_nil]
    rw [successively_cons, ih htail, replace_singleton, escape, List.flatMap_assoc]
    exact List.flatMap_congr fun d _ => hwrite d

/-- **The order of the replacements.** They write every character once exactly if no text has a
character in it that is replaced after it. -/
theorem successively_eq_escape_iff (hkeys : (t.map Prod.fst).Nodup)
    (hlong : ∀ e ∈ t, 1 < e.2.length) :
    (∀ cs, successively t cs = escape t cs) ↔ t.Pairwise fun e f => f.1 ∉ e.2 := by
  refine ⟨fun h => ?_, successively_eq_escape⟩
  -- The characters that are replaced, each of them alone, are enough.
  have hone : ∀ e ∈ t, successively t [e.1] = write t e.1 := by
    intro e _
    simpa [escape_cons] using h [e.1]
  clear h
  induction t with
  | nil => exact .nil
  | cons e t ih =>
    simp only [List.map_cons, List.nodup_cons] at hkeys
    have htail : ∀ f ∈ t, 1 < f.2.length := fun f hf => hlong f (by simp [hf])
    refine .cons (fun f hf hmem => ?_) (ih hkeys.2 htail fun f hf => ?_)
    · have hfirst := hone e (by simp)
      have hlt := length_lt_successively htail hf hmem
      rw [successively_cons, replace_singleton, write_cons, if_pos rfl] at hfirst
      simp only [List.flatMap_singleton, if_true] at hfirst
      rw [hfirst] at hlt
      omega
    · have hne : f.1 ≠ e.1 := by
        intro heq
        exact hkeys.1 (heq ▸ List.mem_map_of_mem hf)
      have hsecond := hone f (by simp [hf])
      rw [successively_cons, replace_of_not_mem (by simpa using hne.symm), write_cons,
        if_neg hne] at hsecond
      exact hsecond

end Escape

/-! ## What can be told apart -/

/-- Texts that begin with a mark, which is itself replaced and stands nowhere else in them. -/
structure Escaping where
  entries : Escape.Entries
  mark : Char
  nodup : (entries.map Prod.fst).Nodup
  mark_mem : mark ∈ entries.map Prod.fst
  /-- Behind the mark, no text has a character in it that is replaced. -/
  marked : ∀ e ∈ entries, e.2.head? = some mark ∧ ∀ c ∈ e.2.tail, c ∉ entries.map Prod.fst
  long : ∀ e ∈ entries, 1 < e.2.length
  /-- No text is the beginning of another. -/
  prefixFree : ∀ e ∈ entries, ∀ f ∈ entries, e.2 <+: f.2 → e = f

namespace Escaping

open Escape

variable {e : Escaping} {c d : Char} {cs : List Char}

def escape (e : Escaping) (cs : List Char) : List Char := Escape.escape e.entries cs

/-- What escaped text looks like: none of the characters, and the mark only where a text begins. -/
structure Escaped (e : Escaping) (cs : List Char) : Prop where
  plain : ∀ c ∈ cs, c ≠ e.mark → c ∉ e.entries.map Prod.fst
  begins : ∀ before after, cs = before ++ e.mark :: after →
    ∃ f ∈ e.entries, f.2 <+: e.mark :: after

theorem text_eq {f : Char × List Char} (hf : f ∈ e.entries) :
    ∃ body, f.2 = e.mark :: body ∧ ∀ c ∈ body, c ∉ e.entries.map Prod.fst := by
  obtain ⟨hhead, htail⟩ := e.marked f hf
  cases hbody : f.2 with
  | nil => simp [hbody] at hhead
  | cons c body =>
    rw [hbody] at hhead htail
    exact ⟨body, by simp at hhead; rw [hhead], htail⟩

/-- A character that is replaced stands in a text only if it is the mark. -/
theorem mem_text_iff {f : Char × List Char} (hf : f ∈ e.entries)
    (hc : c ∈ e.entries.map Prod.fst) : c ∈ f.2 ↔ c = e.mark := by
  obtain ⟨body, hbody, hplain⟩ := text_eq hf
  rw [hbody, List.mem_cons]
  exact ⟨fun h => h.resolve_right fun hm => hplain c hm hc, .inl⟩

/-- **Which orders are right.** The replacements write every character once exactly if the mark comes
first. -/
theorem successively_eq_iff {t : Entries} (hperm : t.Perm e.entries) :
    (∀ cs, successively t cs = e.escape cs) ↔ (t.map Prod.fst).head? = some e.mark := by
  have hkeys : (t.map Prod.fst).Nodup := (hperm.map Prod.fst).nodup_iff.2 e.nodup
  have hlong : ∀ f ∈ t, 1 < f.2.length := fun f hf => e.long f (hperm.mem_iff.1 hf)
  have hsame : ∀ cs, e.escape cs = Escape.escape t cs := fun cs =>
    (escape_perm hperm hkeys cs).symm
  simp only [hsame]
  rw [successively_eq_escape_iff hkeys hlong]
  -- A later character stands in an earlier text just if it is the mark.
  have hmark : (t.Pairwise fun f g => g.1 ∉ f.2) ↔ t.Pairwise fun _ g => g.1 ≠ e.mark := by
    refine List.Pairwise.iff_of_mem fun {f g} hf hg => ?_
    have hg : g.1 ∈ e.entries.map Prod.fst := List.mem_map_of_mem (hperm.mem_iff.1 hg)
    rw [mem_text_iff (hperm.mem_iff.1 hf) hg]
  have hmem : e.mark ∈ t.map Prod.fst := (hperm.map Prod.fst).mem_iff.2 e.mark_mem
  rw [hmark]
  cases t with
  | nil => simp at hmem
  | cons f t =>
    simp only [List.map_cons, List.head?_cons, Option.some.injEq]
    constructor
    · intro h
      have hno : e.mark ∉ t.map Prod.fst := by
        intro hin
        obtain ⟨g, hg, heq⟩ := List.mem_map.1 hin
        exact (List.pairwise_cons.1 h).1 g hg heq
      rcases List.mem_cons.1 hmem with heq | hin
      · exact heq.symm
      · exact absurd hin hno
    · intro heq
      simp only [List.map_cons, List.nodup_cons, heq] at hkeys
      have hno : ∀ g ∈ t, g.1 ≠ e.mark := by
        rintro g hg heq'
        exact hkeys.1 (heq' ▸ List.mem_map_of_mem hg)
      exact List.pairwise_cons.2 ⟨hno, List.pairwise_of_forall_mem_list fun _ _ g hg => hno g hg⟩

/-! ## What is written -/

theorem eq_of_write (h : write e.entries c <+: write e.entries d) : c = d := by
  rcases write_cases e.entries c with hc | ⟨hc, hcw⟩
  · rcases write_cases e.entries d with hd | ⟨hd, hdw⟩
    · exact (Prod.mk.inj (e.prefixFree _ hc _ hd h)).1
    · have hlong := e.long _ hc
      have hle := h.length_le
      rw [hdw] at hle
      simp at hle hlong
      omega
  · rw [hcw] at h
    rcases write_cases e.entries d with hd | ⟨hd, hdw⟩
    · obtain ⟨body, hbody, -⟩ := text_eq hd
      simp only at hbody
      rw [hbody, List.cons_prefix_cons] at h
      exact absurd (h.1 ▸ e.mark_mem) hc
    · rw [hdw, List.cons_prefix_cons] at h
      exact h.1

/-- Different texts stay different. -/
theorem escape_injective (e : Escaping) : Function.Injective e.escape := by
  have hne : ∀ c, write e.entries c ≠ [] := by
    intro c h
    have hall : ∀ d, c = d := fun d => eq_of_write (h ▸ List.nil_prefix)
    exact absurd ((hall 'a').symm.trans (hall 'b')) (by decide)
  intro cs ds h
  rw [escape, escape] at h
  induction cs generalizing ds with
  | nil =>
    cases ds with
    | nil => rfl
    | cons d ds => simp [escape_cons, hne d] at h
  | cons c cs ih =>
    cases ds with
    | nil => simp [escape_cons, hne c] at h
    | cons d ds =>
      rw [escape_cons, escape_cons] at h
      have hcd : c = d := by
        rcases List.prefix_or_prefix_of_prefix (List.prefix_append _ _)
          (h ▸ List.prefix_append _ _) with hp | hp
        · exact (eq_of_write hp).symm
        · exact eq_of_write hp
      subst hcd
      rw [ih (List.append_cancel_left h)]

theorem begins_of_escape {before after : List Char}
    (h : e.escape cs = before ++ e.mark :: after) : ∃ f ∈ e.entries, f.2 <+: e.mark :: after := by
  induction cs generalizing before with
  | nil => simp [escape] at h
  | cons c cs ih =>
    have hsplit : write e.entries c ++ e.escape cs = before ++ e.mark :: after := h
    rcases List.append_eq_append_iff.1 hsplit with ⟨w, -, hrest⟩ | ⟨w, hw, hrest⟩
    · exact ih hrest
    · cases w with
      | nil =>
        have hnone : e.escape cs = [] ++ e.mark :: after := hrest.symm
        exact ih hnone
      | cons d w =>
        obtain ⟨rfl, hafter⟩ := List.cons.inj hrest
        -- The mark stands in what the first character is written as: at its beginning.
        rcases write_cases e.entries c with hc | ⟨hc, hcw⟩
        · obtain ⟨body, hbody, hplain⟩ := text_eq hc
          simp only at hbody
          rw [hw] at hbody
          cases before with
          | nil =>
            refine ⟨_, hc, ?_⟩
            simp [hw, hafter]
          | cons b before =>
            have hin : e.mark ∈ body := by
              rw [← (List.cons.inj hbody).2]
              simp
            exact absurd e.mark_mem (hplain _ hin)
        · have hin : e.mark ∈ [c] := by
            rw [← hcw, hw]
            simp
          rw [← List.mem_singleton.1 hin] at hc
          exact absurd e.mark_mem hc

theorem escaped_escape (e : Escaping) (cs : List Char) : e.Escaped (e.escape cs) := by
  refine ⟨fun c hc hmark hkey => ?_, fun before after h => begins_of_escape h⟩
  obtain ⟨d, -, hd⟩ := List.mem_flatMap.1 hc
  rcases write_cases e.entries d with hmem | ⟨hno, hw⟩
  · exact hmark ((mem_text_iff hmem hkey).1 hd)
  · rw [hw, List.mem_singleton] at hd
    exact hno (hd ▸ hkey)

theorem Escaped.tail {pre : List Char} (h : e.Escaped (pre ++ cs)) : e.Escaped cs := by
  refine ⟨fun c hc => h.plain c (by simp [hc]), fun before after heq => ?_⟩
  exact h.begins (pre ++ before) after (by rw [heq, List.append_assoc])

/-- **What can be written** is all that looks like it. -/
theorem escaped_iff (e : Escaping) (cs : List Char) :
    e.Escaped cs ↔ ∃ ds, e.escape ds = cs := by
  constructor
  · intro h
    -- From the front: a text at a mark, or a character that is not replaced.
    induction hn : cs.length using Nat.strong_induction_on generalizing cs with
    | _ n ih =>
      cases cs with
      | nil => exact ⟨[], rfl⟩
      | cons c cs =>
        by_cases hc : c = e.mark
        · obtain ⟨f, hf, rest, hrest⟩ := h.begins [] cs (by rw [hc]; rfl)
          have hlong := e.long f hf
          have hlength := congrArg List.length hrest
          simp only [List.length_append, List.length_cons] at hlength hn
          rw [hc, ← hrest] at h
          obtain ⟨ds, hds⟩ := ih rest.length (by omega) rest h.tail rfl
          refine ⟨f.1 :: ds, ?_⟩
          rw [hc, ← hrest, ← hds, escape, escape_cons, write_of_mem e.nodup hf]
          rfl
        · have hplain := h.plain c (by simp) hc
          have htail : e.Escaped ([c] ++ cs) := h
          simp only [List.length_cons] at hn
          obtain ⟨ds, hds⟩ := ih cs.length (by omega) cs htail.tail rfl
          refine ⟨c :: ds, ?_⟩
          rw [← hds, escape, escape_cons, write_of_not_mem hplain]
          rfl
  · rintro ⟨ds, rfl⟩
    exact escaped_escape e ds

end Escaping

end Lib
