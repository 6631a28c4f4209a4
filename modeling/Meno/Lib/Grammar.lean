import Mathlib.Computability.RegularExpressions

/-!
# Lib.Grammar

The words of the regular expressions that a text pattern is made of: a class of characters, an
optional part, a bounded or unbounded repetition, and pieces with a separator between them. The words
of pieces with a separator are told by splitting them at the separator (`mem_pieces`,
`mem_piecesTwo`).
-/

namespace Lib.Grammar

open RegularExpression

variable {α : Type}

/-- One character of a class. -/
def oneOf : List α → RegularExpression α
  | [] => 0
  | c :: cs => char c + oneOf cs

/-- `r?` -/
def optional (r : RegularExpression α) : RegularExpression α := 1 + r

/-- `r{0,n}` -/
def upTo (n : Nat) (r : RegularExpression α) : RegularExpression α := optional r ^ n

/-- `r+` -/
def many (r : RegularExpression α) : RegularExpression α := r * star r

/-- `r(?:sep r)*` -/
def pieces (sep : α) (r : RegularExpression α) : RegularExpression α := r * star (char sep * r)

/-- `(?:r sep)+r` -/
def piecesTwo (sep : α) (r : RegularExpression α) : RegularExpression α := many (r * char sep) * r

/-! ## Characters -/

theorem mem_oneOf {cs w : List α} : w ∈ (oneOf cs).matches' ↔ ∃ c ∈ cs, w = [c] := by
  induction cs with
  | nil => simp [oneOf]
  | cons c cs ih =>
    have hchar : w ∈ (char c).matches' ↔ w = [c] := Set.mem_singleton_iff
    rw [oneOf, matches'_add, Language.mem_add, ih, hchar, List.exists_mem_cons_iff]

theorem mem_optional {r : RegularExpression α} {w : List α} :
    w ∈ (optional r).matches' ↔ w = [] ∨ w ∈ r.matches' := by
  rw [optional, matches'_add, Language.mem_add, matches'_epsilon, Language.mem_one]

theorem mem_star_oneOf {cs w : List α} : w ∈ (star (oneOf cs)).matches' ↔ ∀ c ∈ w, c ∈ cs := by
  rw [matches'_star, Language.mem_kstar]
  constructor
  · rintro ⟨ps, rfl, hps⟩ c hc
    obtain ⟨p, hp, hcp⟩ := List.mem_flatten.1 hc
    obtain ⟨d, hd, rfl⟩ := mem_oneOf.1 (hps p hp)
    rwa [List.mem_singleton.1 hcp]
  · intro hw
    refine ⟨w.map fun c => [c], by simp [← List.flatMap_def], ?_⟩
    intro p hp
    obtain ⟨c, hc, rfl⟩ := List.mem_map.1 hp
    exact mem_oneOf.2 ⟨c, hw c hc, rfl⟩

theorem mem_many_oneOf {cs w : List α} :
    w ∈ (many (oneOf cs)).matches' ↔ w ≠ [] ∧ ∀ c ∈ w, c ∈ cs := by
  rw [many, matches'_mul, Language.mem_mul]
  constructor
  · rintro ⟨p, hp, q, hq, rfl⟩
    obtain ⟨c, hc, rfl⟩ := mem_oneOf.1 hp
    exact ⟨List.cons_ne_nil _ _, List.forall_mem_cons.2 ⟨hc, mem_star_oneOf.1 hq⟩⟩
  · rintro ⟨hne, hw⟩
    obtain ⟨c, w, rfl⟩ := List.exists_cons_of_ne_nil hne
    obtain ⟨hc, hw⟩ := List.forall_mem_cons.1 hw
    exact ⟨[c], mem_oneOf.2 ⟨c, hc, rfl⟩, w, mem_star_oneOf.2 hw, rfl⟩

theorem mem_upTo_oneOf {n : Nat} {cs w : List α} :
    w ∈ (upTo n (oneOf cs)).matches' ↔ w.length ≤ n ∧ ∀ c ∈ w, c ∈ cs := by
  induction n generalizing w with
  | zero =>
    have hpow : (upTo 0 (oneOf cs)).matches' = 1 := by
      rw [upTo, matches'_pow, pow_zero]
    rw [hpow, Language.mem_one]
    constructor
    · rintro rfl
      simp
    · rintro ⟨hlen, -⟩
      exact List.length_eq_zero_iff.1 (Nat.le_zero.1 hlen)
  | succ n ih =>
    have hpow : (upTo (n + 1) (oneOf cs)).matches' =
        (optional (oneOf cs)).matches' * (upTo n (oneOf cs)).matches' := by
      rw [upTo, matches'_pow, pow_succ', upTo, matches'_pow]
    rw [hpow, Language.mem_mul]
    constructor
    · rintro ⟨p, hp, q, hq, rfl⟩
      obtain ⟨hlen, hall⟩ := ih.1 hq
      rcases mem_optional.1 hp with rfl | hp
      · exact ⟨Nat.le_succ_of_le hlen, hall⟩
      · obtain ⟨c, hc, rfl⟩ := mem_oneOf.1 hp
        exact ⟨Nat.succ_le_succ hlen, List.forall_mem_cons.2 ⟨hc, hall⟩⟩
    · rintro ⟨hlen, hall⟩
      cases w with
      | nil => exact ⟨[], mem_optional.2 (.inl rfl), [], ih.2 ⟨Nat.zero_le _, hall⟩, rfl⟩
      | cons c w =>
        obtain ⟨hc, hall⟩ := List.forall_mem_cons.1 hall
        exact ⟨[c], mem_optional.2 (.inr (mem_oneOf.2 ⟨c, hc, rfl⟩)), w,
          ih.2 ⟨Nat.le_of_succ_le_succ hlen, hall⟩, rfl⟩

/-! ## Pieces -/

/-- The words of a repeated expression whose words are made of the words of another one. -/
theorem mem_star_of_map {r s : RegularExpression α} {f : List α → List α}
    (h : ∀ w, w ∈ s.matches' ↔ ∃ p ∈ r.matches', w = f p) {w : List α} :
    w ∈ (star s).matches' ↔ ∃ ps : List (List α), (∀ p ∈ ps, p ∈ r.matches') ∧ w = ps.flatMap f := by
  rw [matches'_star, Language.mem_kstar]
  constructor
  · rintro ⟨ws, rfl, hws⟩
    induction ws with
    | nil => exact ⟨[], by simp, rfl⟩
    | cons w ws ih =>
      obtain ⟨hw, hws⟩ := List.forall_mem_cons.1 hws
      obtain ⟨ps, hps, heq⟩ := ih hws
      obtain ⟨p, hp, rfl⟩ := (h w).1 hw
      exact ⟨p :: ps, List.forall_mem_cons.2 ⟨hp, hps⟩, by rw [List.flatten_cons, heq]; rfl⟩
  · rintro ⟨ps, hps, rfl⟩
    refine ⟨ps.map f, List.flatMap_def, ?_⟩
    intro w hw
    obtain ⟨p, hp, rfl⟩ := List.mem_map.1 hw
    exact (h _).2 ⟨p, hps p hp, rfl⟩

theorem intercalate_cons_flatMap (sep : α) (p : List α) (ps : List (List α)) :
    [sep].intercalate (p :: ps) = p ++ ps.flatMap fun q => sep :: q := by
  induction ps generalizing p with
  | nil => simp
  | cons q ps ih =>
    rw [List.intercalate_cons_cons, ih q]
    simp

theorem intercalate_concat_flatMap (sep : α) (ps : List (List α)) (p : List α) :
    [sep].intercalate (ps ++ [p]) = (ps.flatMap fun q => q ++ [sep]) ++ p := by
  induction ps with
  | nil => simp
  | cons q ps ih =>
    have hne : ps ++ [p] ≠ [] := List.append_ne_nil_of_right_ne_nil _ (List.cons_ne_nil _ _)
    rw [List.cons_append, List.intercalate_cons_of_ne_nil hne, ih]
    simp

section Splitting

variable [DecidableEq α] {sep : α} {r : RegularExpression α}

/-- The characters of the pieces are those of the word without the separators. -/
theorem mem_splitOn {w : List α} {c : α} : (∃ p ∈ w.splitOn sep, c ∈ p) ↔ c ∈ w ∧ c ≠ sep := by
  induction w with
  | nil => simp
  | cons x w ih =>
    rw [List.splitOn_cons_eq_if_modifyHead]
    by_cases hx : x = sep
    · rw [if_pos (beq_iff_eq.2 hx), List.exists_mem_cons_iff, ih]
      grind
    · obtain ⟨p, ps, heq⟩ := List.exists_cons_of_ne_nil (List.splitOn_ne_nil sep w)
      rw [heq, List.exists_mem_cons_iff] at ih
      rw [if_neg (by simpa using hx), heq, List.modifyHead_cons, List.exists_mem_cons_iff]
      grind

theorem mem_pieces (hsep : ∀ p ∈ r.matches', sep ∉ p) {w : List α} :
    w ∈ (pieces sep r).matches' ↔ ∀ p ∈ w.splitOn sep, p ∈ r.matches' := by
  have hrest : ∀ w, w ∈ (char sep * r).matches' ↔ ∃ p ∈ r.matches', w = sep :: p := by
    intro w
    rw [matches'_mul, Language.mem_mul, matches'_char]
    constructor
    · rintro ⟨_, rfl, p, hp, rfl⟩
      exact ⟨p, hp, rfl⟩
    · rintro ⟨p, hp, rfl⟩
      exact ⟨[sep], rfl, p, hp, rfl⟩
  rw [pieces, matches'_mul, Language.mem_mul]
  constructor
  · rintro ⟨p, hp, q, hq, rfl⟩
    obtain ⟨ps, hps, rfl⟩ := (mem_star_of_map hrest).1 hq
    have hall : ∀ q ∈ p :: ps, q ∈ r.matches' := List.forall_mem_cons.2 ⟨hp, hps⟩
    rw [← intercalate_cons_flatMap,
      List.splitOn_intercalate _ (fun q hq => hsep q (hall q hq)) (List.cons_ne_nil _ _)]
    exact hall
  · intro hw
    obtain ⟨p, ps, heq⟩ := List.exists_cons_of_ne_nil (List.splitOn_ne_nil sep w)
    obtain ⟨hp, hps⟩ := List.forall_mem_cons.1 (heq ▸ hw)
    refine ⟨p, hp, _, (mem_star_of_map hrest).2 ⟨ps, hps, rfl⟩, ?_⟩
    rw [← intercalate_cons_flatMap, ← heq, List.intercalate_splitOn]

theorem mem_piecesTwo (hsep : ∀ p ∈ r.matches', sep ∉ p) {w : List α} :
    w ∈ (piecesTwo sep r).matches' ↔ sep ∈ w ∧ ∀ p ∈ w.splitOn sep, p ∈ r.matches' := by
  have hfirst : ∀ w, w ∈ (r * char sep).matches' ↔ ∃ p ∈ r.matches', w = p ++ [sep] := by
    intro w
    rw [matches'_mul, Language.mem_mul, matches'_char]
    constructor
    · rintro ⟨p, hp, _, rfl, rfl⟩
      exact ⟨p, hp, rfl⟩
    · rintro ⟨p, hp, rfl⟩
      exact ⟨p, hp, [sep], rfl, rfl⟩
  rw [piecesTwo, matches'_mul, Language.mem_mul]
  constructor
  · rintro ⟨q, hq, p, hp, rfl⟩
    rw [many, matches'_mul, Language.mem_mul] at hq
    obtain ⟨_, hw, _, hq, rfl⟩ := hq
    obtain ⟨p₀, hp₀, rfl⟩ := (hfirst _).1 hw
    obtain ⟨ps, hps, rfl⟩ := (mem_star_of_map hfirst).1 hq
    have hall : ∀ q ∈ p₀ :: ps ++ [p], q ∈ r.matches' := by
      intro q hq
      rcases List.mem_append.1 hq with hq | hq
      · exact List.forall_mem_cons.2 ⟨hp₀, hps⟩ q hq
      · rwa [List.mem_singleton.1 hq]
    refine ⟨by simp, ?_⟩
    have hw : [sep].intercalate (p₀ :: ps ++ [p]) =
        p₀ ++ [sep] ++ (ps.flatMap fun q => q ++ [sep]) ++ p := by
      rw [intercalate_concat_flatMap]
      rfl
    rw [← hw, List.splitOn_intercalate _ (fun q hq => hsep q (hall q hq)) (by simp)]
    exact hall
  · rintro ⟨hmem, hw⟩
    -- The last piece is what follows the last separator.
    obtain ⟨ps, p, heq⟩ : ∃ ps p, w.splitOn sep = ps ++ [p] :=
      ⟨_, _, (List.dropLast_concat_getLast (List.splitOn_ne_nil sep w)).symm⟩
    have hps : ∀ q ∈ ps, q ∈ r.matches' := fun q hq =>
      hw q (heq ▸ List.mem_append_left _ hq)
    have hp : p ∈ r.matches' := hw p (heq ▸ List.mem_append_right _ List.mem_cons_self)
    have hjoin : (ps.flatMap fun q => q ++ [sep]) ++ p = w := by
      rw [← intercalate_concat_flatMap, ← heq, List.intercalate_splitOn]
    cases ps with
    | nil =>
      rw [← hjoin] at hmem
      exact absurd hmem (hsep p hp)
    | cons p₀ ps =>
      obtain ⟨hp₀, hps⟩ := List.forall_mem_cons.1 hps
      refine ⟨_, ?_, p, hp, hjoin⟩
      rw [many, matches'_mul, Language.mem_mul]
      exact ⟨_, (hfirst _).2 ⟨p₀, hp₀, rfl⟩, _, (mem_star_of_map hfirst).2 ⟨ps, hps, rfl⟩, rfl⟩

end Splitting

end Lib.Grammar
