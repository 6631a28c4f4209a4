import Mathlib.Data.List.Infix
import Mathlib.Tactic.Common

/-!
# Lib.Glob

Patterns for keys, as `KEYS` and `SCAN` of Redis take them: `*` stands for any text and `?` for any
character. Classes and escapes are left out.
-/

namespace Lib.Glob

inductive Token
  | lit (c : Char)
  | any
  | star
deriving DecidableEq

def token (c : Char) : Token := if c = '*' then .star else if c = '?' then .any else .lit c

def ofText (pattern : String) : List Token := pattern.toList.map token

/-- The whole text is as the pattern says. -/
def accepts : List Token → List Char → Bool
  | [], cs => cs.isEmpty
  | .star :: p, cs => cs.tails.any (accepts p)
  | .any :: _, [] => false
  | .any :: p, _ :: cs => accepts p cs
  | .lit _ :: _, [] => false
  | .lit a :: p, c :: cs => a == c && accepts p cs

def Accepts (pattern key : String) : Prop := accepts (ofText pattern) key.toList = true

instance (pattern key : String) : Decidable (Accepts pattern key) :=
  inferInstanceAs (Decidable (accepts (ofText pattern) key.toList = true))

example : Accepts "a?c*" "abcd" := by decide

theorem accepts_star (cs : List Char) : accepts [.star] cs = true := by
  rw [accepts, List.any_eq_true]
  exact ⟨[], by simp, rfl⟩

/-- A character that stands for itself. -/
def plain (c : Char) : Bool := c != '*' && c != '?'

theorem token_of_plain {c : Char} (h : plain c = true) : token c = .lit c := by
  simp only [plain, Bool.and_eq_true, bne_iff_ne, ne_eq] at h
  rw [token, if_neg h.1, if_neg h.2]

theorem accepts_lits {start : List Char} {p : List Token} {cs : List Char} :
    accepts (start.map .lit ++ p) cs = true ↔ ∃ r, cs = start ++ r ∧ accepts p r = true := by
  induction start generalizing cs with
  | nil => simp
  | cons a start ih =>
    cases cs with
    | nil => simp [accepts]
    | cons c cs =>
      simp only [List.map_cons, List.cons_append, accepts, Bool.and_eq_true, beq_iff_eq, ih,
        List.cons.injEq]
      constructor
      · rintro ⟨rfl, r, hr, hp⟩
        exact ⟨r, ⟨rfl, hr⟩, hp⟩
      · rintro ⟨r, ⟨rfl, hr⟩, hp⟩
        exact ⟨rfl, r, hr, hp⟩

/-- A text with a star behind it accepts what begins with the text. -/
theorem accepts_iff_begins {start : List Char} {pattern key : String}
    (htext : pattern.toList = start ++ ['*']) (hplain : start.all plain = true) :
    Accepts pattern key ↔ start <+: key.toList := by
  have htokens : ofText pattern = start.map .lit ++ [.star] := by
    rw [ofText, htext, List.map_append]
    refine congrArg (· ++ [Token.star]) (List.map_congr_left fun c hc => ?_)
    exact token_of_plain (List.all_eq_true.1 hplain c hc)
  rw [Accepts, htokens, accepts_lits]
  constructor
  · rintro ⟨r, hr, -⟩
    exact ⟨r, hr.symm⟩
  · rintro ⟨r, hr⟩
    exact ⟨r, hr.symm, accepts_star r⟩

end Lib.Glob
