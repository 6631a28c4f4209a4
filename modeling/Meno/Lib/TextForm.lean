import Mathlib.Algebra.Group.Nat.Defs
import Mathlib.Tactic.Common

/-!
# Lib.TextForm

Texts that are written and read: a form reads a value from the front of a text, just if the text
begins as the value is written. Sequences and checked values keep the two laws, so that a format
is put together from its parts.
-/

namespace Lib

structure TextForm (α : Type) where
  write : α → List Char
  read : List Char → Option (α × List Char)
  read_write : ∀ a rest, read (write a ++ rest) = some (a, rest)
  write_read : ∀ {cs a rest}, read cs = some (a, rest) → write a ++ rest = cs

namespace TextForm

variable {α β : Type}

/-! ## Whole texts -/

/-- Nothing may be left over. -/
def readAll (c : TextForm α) (cs : List Char) : Option α :=
  match c.read cs with
  | some (a, []) => some a
  | _ => none

theorem readAll_write (c : TextForm α) (a : α) : c.readAll (c.write a) = some a := by
  have hread := c.read_write a []
  rw [List.append_nil] at hread
  rw [readAll, hread]

theorem write_of_readAll {c : TextForm α} {cs : List Char} {a : α} (h : c.readAll cs = some a) :
    c.write a = cs := by
  unfold readAll at h
  split at h
  · rename_i b hread
    cases h
    simpa using c.write_read hread
  · cases h

/-! ## Parts -/

/-- A character that is always the same. -/
def char (c : Char) : TextForm Unit where
  write _ := [c]
  read
    | [] => none
    | d :: rest => if d = c then some ((), rest) else none
  read_write _ rest := by simp
  write_read := by
    intro cs a rest h
    cases cs with
    | nil => cases h
    | cons d cs =>
      dsimp only at h
      split at h
      · cases h
        simp [*]
      · cases h

/-- One after the other. -/
def seq (c : TextForm α) (d : TextForm β) : TextForm (α × β) where
  write p := c.write p.1 ++ d.write p.2
  read cs := (c.read cs).bind fun a => (d.read a.2).map fun b => ((a.1, b.1), b.2)
  read_write p rest := by
    rw [List.append_assoc, c.read_write, Option.bind_some, d.read_write, Option.map_some]
  write_read := by
    intro cs p rest h
    obtain ⟨⟨a, middle⟩, hfirst, h⟩ := Option.bind_eq_some_iff.1 h
    obtain ⟨⟨b, rest'⟩, hsecond, hpair⟩ := Option.map_eq_some_iff.1 h
    cases hpair
    rw [List.append_assoc, d.write_read hsecond, c.write_read hfirst]

/-- Values of which not every one that is read is right. -/
def check (c : TextForm α) (pack : α → Option β) (unpack : β → α)
    (pack_unpack : ∀ b, pack (unpack b) = some b)
    (unpack_pack : ∀ {a b}, pack a = some b → unpack b = a) : TextForm β where
  write b := c.write (unpack b)
  read cs := (c.read cs).bind fun a => (pack a.1).map fun b => (b, a.2)
  read_write b rest := by
    rw [c.read_write, Option.bind_some, pack_unpack, Option.map_some]
  write_read := by
    intro cs b rest h
    obtain ⟨⟨a, rest'⟩, hread, h⟩ := Option.bind_eq_some_iff.1 h
    obtain ⟨b', hpack, hpair⟩ := Option.map_eq_some_iff.1 h
    cases hpair
    rw [unpack_pack hpack, c.write_read hread]

/-! ## Digits -/

/-- A number in `w` digits. -/
def padded : Nat → Nat → List Char
  | 0, _ => []
  | w + 1, n => Nat.digitChar (n / 10 ^ w) :: padded w (n % 10 ^ w)

def readPadded : Nat → List Char → Option (Nat × List Char)
  | 0, cs => some (0, cs)
  | _ + 1, [] => none
  | w + 1, c :: cs =>
    if c.isDigit then (readPadded w cs).map fun p => ((c.toNat - 48) * 10 ^ w + p.1, p.2)
    else none

theorem toNat_of_isDigit {c : Char} (h : c.isDigit = true) : 48 ≤ c.toNat ∧ c.toNat ≤ 57 :=
  Char.isDigit_iff_toNat.1 h

theorem digitChar_toNat {c : Char} (h : c.isDigit = true) : Nat.digitChar (c.toNat - 48) = c := by
  obtain ⟨hle, hge⟩ := toNat_of_isDigit h
  apply Char.toNat_inj.1
  rw [Nat.toNat_digitChar_of_lt_ten (by omega)]
  omega

theorem toNat_digitChar {n : Nat} (h : n < 10) : (Nat.digitChar n).toNat - 48 = n := by
  rw [Nat.toNat_digitChar_of_lt_ten h, Nat.add_sub_cancel_left]

/-- The first digit of `w + 1`. -/
theorem div_pow_lt {w n : Nat} (h : n < 10 ^ (w + 1)) : n / 10 ^ w < 10 := by
  rw [Nat.pow_succ, Nat.mul_comm] at h
  exact Nat.div_lt_of_lt_mul (by rwa [Nat.mul_comm] at h)

theorem isDigit_of_mem_padded {w n : Nat} (h : n < 10 ^ w) {c : Char} (hc : c ∈ padded w n) :
    c.isDigit = true := by
  induction w generalizing n with
  | zero => cases hc
  | succ w ih =>
    rcases List.mem_cons.1 hc with rfl | hc
    · simp [div_pow_lt h]
    · exact ih (Nat.mod_lt _ (Nat.pow_pos (by decide))) hc

theorem readPadded_padded {w n : Nat} (h : n < 10 ^ w) (rest : List Char) :
    readPadded w (padded w n ++ rest) = some (n, rest) := by
  induction w generalizing n with
  | zero =>
    obtain rfl : n = 0 := by simpa using h
    rfl
  | succ w ih =>
    have hdigit := div_pow_lt h
    have hmod : n % 10 ^ w < 10 ^ w := Nat.mod_lt _ (Nat.pow_pos (by decide))
    rw [padded, List.cons_append, readPadded, if_pos (by simpa using hdigit), ih hmod,
      Option.map_some, toNat_digitChar hdigit, Nat.mul_comm, Nat.div_add_mod]

theorem padded_of_readPadded {w n : Nat} {cs rest : List Char}
    (h : readPadded w cs = some (n, rest)) : n < 10 ^ w ∧ padded w n ++ rest = cs := by
  induction w generalizing n cs with
  | zero =>
    cases h
    exact ⟨by simp, rfl⟩
  | succ w ih =>
    cases cs with
    | nil => cases h
    | cons c cs =>
      rw [readPadded] at h
      split at h
      · rename_i hdigit
        obtain ⟨⟨m, rest'⟩, hread, hpair⟩ := Option.map_eq_some_iff.1 h
        obtain ⟨rfl, rfl⟩ := Prod.mk.inj hpair
        obtain ⟨hm, hcs⟩ := ih hread
        obtain ⟨hle, hge⟩ := toNat_of_isDigit hdigit
        have hpos : 0 < 10 ^ w := Nat.pow_pos (by decide)
        have hdiv : ((c.toNat - 48) * 10 ^ w + m) / 10 ^ w = c.toNat - 48 := by
          rw [Nat.mul_comm, Nat.mul_add_div hpos, Nat.div_eq_of_lt hm, Nat.add_zero]
        have hmod : ((c.toNat - 48) * 10 ^ w + m) % 10 ^ w = m := by
          rw [Nat.mul_comm, Nat.mul_add_mod, Nat.mod_eq_of_lt hm]
        refine ⟨?_, ?_⟩
        · have hmul : (c.toNat - 48) * 10 ^ w ≤ 9 * 10 ^ w := Nat.mul_le_mul_right _ (by omega)
          rw [Nat.pow_succ]
          dsimp only
          omega
        · rw [padded, hdiv, hmod, digitChar_toNat hdigit, List.cons_append, hcs]
      · cases h

/-- A number below `bound`, in `w` digits. -/
def number (w bound : Nat) (h : bound ≤ 10 ^ w) : TextForm (Fin bound) where
  write n := padded w n
  read cs := (readPadded w cs).bind fun p =>
    if hlt : p.1 < bound then some (⟨p.1, hlt⟩, p.2) else none
  read_write n rest := by
    rw [readPadded_padded (Nat.lt_of_lt_of_le n.isLt h), Option.bind_some]
    simp
  write_read := by
    intro cs n rest hread
    obtain ⟨⟨m, rest'⟩, hpadded, hcheck⟩ := Option.bind_eq_some_iff.1 hread
    dsimp only at hcheck
    split at hcheck
    · cases hcheck
      exact (padded_of_readPadded hpadded).2
    · cases hcheck

/-! ## Fractions -/

/-- Digits, as many as there are. -/
def readDigits : List Char → List (Fin 10) × List Char
  | [] => ([], [])
  | c :: cs =>
    if h : c.isDigit = true then
      (⟨c.toNat - 48, by have := toNat_of_isDigit h; omega⟩ :: (readDigits cs).1, (readDigits cs).2)
    else ([], c :: cs)

def digits (ds : List (Fin 10)) : List Char := ds.map fun d : Fin 10 => Nat.digitChar d

theorem readDigits_digits (ds : List (Fin 10)) {c : Char} (hc : c.isDigit = false)
    (rest : List Char) : readDigits (digits ds ++ c :: rest) = (ds, c :: rest) := by
  induction ds with
  | nil => simp [digits, readDigits, hc]
  | cons d ds ih =>
    have hdigit : (Nat.digitChar d).isDigit = true := by simp
    have hd : (Nat.digitChar d).toNat - 48 = d := toNat_digitChar d.isLt
    rw [digits, List.map_cons, List.cons_append, readDigits, dif_pos hdigit]
    rw [digits] at ih
    rw [ih]
    simp [hd]

theorem digits_readDigits (cs : List Char) : digits (readDigits cs).1 ++ (readDigits cs).2 = cs := by
  induction cs with
  | nil => rfl
  | cons c cs ih =>
    rw [readDigits]
    split
    · rename_i hdigit
      rw [digits] at ih
      simp [digits, digitChar_toNat hdigit, ih]
    · rfl

/-- What begins with no digit and no point. -/
def Bounded (c : TextForm β) : Prop :=
  ∀ b, ∃ d cs, c.write b = d :: cs ∧ d.isDigit = false ∧ d ≠ '.'

/-- A fraction may stand before it. -/
def fraction : List (Fin 10) → List Char
  | [] => []
  | d :: ds => '.' :: digits (d :: ds)

def readFraction (c : TextForm β) : List Char → Option ((List (Fin 10) × β) × List Char)
  | '.' :: cs =>
    if (readDigits cs).1 = [] then none
    else (c.read (readDigits cs).2).map fun b => (((readDigits cs).1, b.1), b.2)
  | cs => (c.read cs).map fun b => (([], b.1), b.2)

def afterFraction (c : TextForm β) (hc : c.Bounded) : TextForm (List (Fin 10) × β) where
  write p := fraction p.1 ++ c.write p.2
  read := readFraction c
  read_write p rest := by
    obtain ⟨ds, b⟩ := p
    obtain ⟨d, cs, hwrite, hdigit, hpoint⟩ := hc b
    have hread := c.read_write b rest
    rw [hwrite, List.cons_append] at hread
    dsimp only
    rw [hwrite, List.append_assoc, List.cons_append]
    cases ds with
    | nil =>
      rw [fraction, List.nil_append, readFraction, hread]
      · rfl
      · intro cs' heq
        exact hpoint (List.cons.inj heq).1
    | cons e ds =>
      rw [fraction, List.cons_append, readFraction, readDigits_digits _ hdigit]
      rw [if_neg (List.cons_ne_nil _ _), hread]
      rfl
  write_read := by
    intro cs p rest h
    unfold readFraction at h
    split at h
    · rename_i cs
      split at h
      · cases h
      · rename_i hne
        obtain ⟨⟨b, rest'⟩, hread, hpair⟩ := Option.map_eq_some_iff.1 h
        cases hpair
        have hdigits := digits_readDigits cs
        cases hds : (readDigits cs).1 with
        | nil => exact absurd hds hne
        | cons d ds =>
          rw [hds] at hdigits
          dsimp only
          rw [fraction, List.cons_append, List.cons_append, List.append_assoc, c.write_read hread,
            hdigits]
    · obtain ⟨⟨b, rest'⟩, hread, hpair⟩ := Option.map_eq_some_iff.1 h
      cases hpair
      exact c.write_read hread

end TextForm

end Lib
