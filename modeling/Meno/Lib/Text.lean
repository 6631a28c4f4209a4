import Mathlib.Tactic.Common

/-!
# Lib.Text

Decimal numbers, and text that is put together with a separator, as lists of characters: what is
written can be read back.
-/

namespace Lib.Text

/-! ## Numbers -/

/-- The decimal text of an integer. -/
def showInt : Int → List Char
  | .ofNat n => Nat.toDigits 10 n
  | .negSucc n => '-' :: Nat.toDigits 10 (n + 1)

def parseNat (cs : List Char) : Option Nat :=
  if !cs.isEmpty && cs.all Char.isDigit then some (Nat.ofDigitChars 10 cs 0) else none

/-- Digits, with a sign before them or not. -/
def parseInt : List Char → Option Int
  | '+' :: cs => (parseNat cs).map Int.ofNat
  | '-' :: cs => (parseNat cs).map fun n => -(n : Int)
  | cs => (parseNat cs).map Int.ofNat

theorem parseNat_toDigits (n : Nat) : parseNat (Nat.toDigits 10 n) = some n := by
  have hne : (Nat.toDigits 10 n).isEmpty = false := by
    cases h : Nat.toDigits 10 n with
    | nil => exact absurd h Nat.toDigits_ne_nil
    | cons c cs => rfl
  have hall : (Nat.toDigits 10 n).all Char.isDigit = true :=
    List.all_eq_true.2 fun c hc => Nat.isDigit_of_mem_toDigits (by decide) (by decide) hc
  simp [parseNat, hne, hall]

theorem isDigit_of_toDigits {n : Nat} {c : Char} {cs : List Char}
    (h : Nat.toDigits 10 n = c :: cs) : c.isDigit = true :=
  Nat.isDigit_of_mem_toDigits (by decide) (by decide) (h ▸ List.mem_cons_self)

theorem parseInt_showInt (n : Int) : parseInt (showInt n) = some n := by
  cases n with
  | ofNat n =>
    rw [showInt]
    cases h : Nat.toDigits 10 n with
    | nil => exact absurd h Nat.toDigits_ne_nil
    | cons c cs =>
      have hdigit := isDigit_of_toDigits h
      have hplus : c ≠ '+' := by rintro rfl; exact absurd hdigit (by decide)
      have hminus : c ≠ '-' := by rintro rfl; exact absurd hdigit (by decide)
      have hparse : parseInt (c :: cs) = (parseNat (c :: cs)).map Int.ofNat := by
        simp [parseInt, hplus, hminus]
      rw [hparse, ← h, parseNat_toDigits]
      rfl
  | negSucc n =>
    rw [showInt, parseInt, parseNat_toDigits]
    rfl

theorem showInt_ne_nil (n : Int) : showInt n ≠ [] := by
  cases n with
  | ofNat n => exact Nat.toDigits_ne_nil
  | negSucc n => exact List.cons_ne_nil _ _

/-- The characters of a number. -/
theorem mem_showInt {n : Int} {c : Char} (h : c ∈ showInt n) : c = '-' ∨ c.isDigit = true := by
  cases n with
  | ofNat n => exact .inr (Nat.isDigit_of_mem_toDigits (by decide) (by decide) h)
  | negSucc n =>
    rcases List.mem_cons.1 h with rfl | h
    · exact .inl rfl
    · exact .inr (Nat.isDigit_of_mem_toDigits (by decide) (by decide) h)

theorem isDigit_of_mem_tail_showInt {n : Int} {c : Char} (h : c ∈ (showInt n).tail) :
    c.isDigit = true := by
  cases n with
  | ofNat n => exact Nat.isDigit_of_mem_toDigits (by decide) (by decide) (List.mem_of_mem_tail h)
  | negSucc n => exact Nat.isDigit_of_mem_toDigits (by decide) (by decide) h

/-- A separator that is no digit does not stand in a number. -/
theorem not_mem_showInt {c : Char} (hminus : c ≠ '-') (hdigit : c.isDigit = false) (n : Int) :
    c ∉ showInt n := by
  intro h
  rcases mem_showInt h with h | h
  · exact hminus h
  · simp [hdigit] at h

theorem colon_not_mem_showInt (n : Int) : ':' ∉ showInt n :=
  not_mem_showInt (by decide) (by decide) n

theorem bar_not_mem_showInt (n : Int) : '|' ∉ showInt n :=
  not_mem_showInt (by decide) (by decide) n

theorem isDigit_of_parseNat {cs : List Char} {n : Nat} (h : parseNat cs = some n) {c : Char}
    (hc : c ∈ cs) : c.isDigit = true := by
  rw [parseNat] at h
  split at h
  · rename_i hcs
    rw [Bool.and_eq_true] at hcs
    exact List.all_eq_true.1 hcs.2 c hc
  · cases h

/-- The characters of what is read as a number. -/
theorem mem_of_parseInt {cs : List Char} {n : Int} (h : parseInt cs = some n) {c : Char}
    (hc : c ∈ cs) : c = '+' ∨ c = '-' ∨ c.isDigit = true := by
  rw [parseInt.eq_def] at h
  split at h
  · obtain ⟨k, hk, -⟩ := Option.map_eq_some_iff.1 h
    rcases List.mem_cons.1 hc with rfl | hc
    · exact .inl rfl
    · exact .inr (.inr (isDigit_of_parseNat hk hc))
  · obtain ⟨k, hk, -⟩ := Option.map_eq_some_iff.1 h
    obtain ⟨m, hm, -⟩ := Option.bind_eq_some_iff.1 hk
    rcases List.mem_cons.1 hc with rfl | hc
    · exact .inr (.inl rfl)
    · exact .inr (.inr (isDigit_of_parseNat hm hc))
  · obtain ⟨k, hk, -⟩ := Option.map_eq_some_iff.1 h
    exact .inr (.inr (isDigit_of_parseNat hk hc))

/-! ## Parts -/

/-- What stands before the first separator, and all that stands after it. -/
def splitOnce (sep : Char) : List Char → Option (List Char × List Char)
  | [] => none
  | c :: cs =>
    if c = sep then some ([], cs)
    else (splitOnce sep cs).map fun (before, after) => (c :: before, after)

theorem splitOnce_append {sep : Char} {before : List Char} (h : sep ∉ before) (after : List Char) :
    splitOnce sep (before ++ sep :: after) = some (before, after) := by
  induction before with
  | nil => simp [splitOnce]
  | cons c cs ih =>
    have hc : c ≠ sep := fun he => h (he ▸ List.mem_cons_self)
    have ih := ih fun hm => h (List.mem_cons_of_mem _ hm)
    simp [splitOnce, hc, ih]

theorem splitOnce_eq_none {sep : Char} {cs : List Char} (h : sep ∉ cs) : splitOnce sep cs = none := by
  induction cs with
  | nil => rfl
  | cons c cs ih =>
    have hc : c ≠ sep := fun he => h (he ▸ List.mem_cons_self)
    have ih := ih fun hm => h (List.mem_cons_of_mem _ hm)
    simp [splitOnce, hc, ih]

/-- The separator does not stand before the first separator. -/
theorem not_mem_of_splitOnce {sep : Char} {cs before after : List Char}
    (h : splitOnce sep cs = some (before, after)) : sep ∉ before := by
  induction cs generalizing before with
  | nil => cases h
  | cons c cs ih =>
    rw [splitOnce] at h
    split at h
    · cases h
      exact List.not_mem_nil
    · rename_i hc
      obtain ⟨⟨before', after'⟩, hcs, hparts⟩ := Option.map_eq_some_iff.1 h
      cases hparts
      intro hmem
      rcases List.mem_cons.1 hmem with rfl | hmem
      · exact hc rfl
      · exact ih hcs hmem

/-- What follows a prefix that the text has to have. -/
def stripPrefix (pre cs : List Char) : Option (List Char) :=
  if pre.isPrefixOf cs then some (cs.drop pre.length) else none

theorem stripPrefix_append (pre cs : List Char) : stripPrefix pre (pre ++ cs) = some cs := by
  have h : pre.isPrefixOf (pre ++ cs) = true := List.isPrefixOf_iff_prefix.2 ⟨cs, rfl⟩
  simp [stripPrefix, h]

/-- The text has `pat` somewhere in it. -/
def contains (pat : List Char) : List Char → Bool
  | [] => pat.isEmpty
  | c :: cs => pat.isPrefixOf (c :: cs) || contains pat cs

/-! ## White space -/

/-- Unicode's `White_Space`. -/
def isWhitespace (c : Char) : Bool :=
  let n := c.toNat
  (9 ≤ n && n ≤ 13) || n == 32 || n == 0x85 || n == 0xA0 || n == 0x1680 ||
    (0x2000 ≤ n && n ≤ 0x200A) || n == 0x2028 || n == 0x2029 || n == 0x202F || n == 0x205F ||
    n == 0x3000

/-- Without the white space at both ends. -/
def trim (s : String) : String :=
  String.ofList ((s.toList.dropWhile isWhitespace).reverse.dropWhile isWhitespace).reverse

end Lib.Text
