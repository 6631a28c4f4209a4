import Meno.Lib.Base64
import Meno.Shared.Pagination

/-!
# Meno.Shared.UuidText

The text of a UUID, and with it the texts that cursors are made of.
-/

namespace Meno

namespace Uuid

/-- The last `k` hexadecimal digits of a number. -/
def hexDigits : Nat → Nat → List Nat
  | 0, _ => []
  | k + 1, n => hexDigits k (n / 16) ++ [n % 16]

def ofHexDigits (ds : List Nat) : Nat := ds.foldl (fun n d => n * 16 + d) 0

def hexChar (d : Nat) : Char := "0123456789abcdef".toList.getD d '0'

/-- Upper and lower case are the same. -/
def hexValue (c : Char) : Option Nat :=
  match "0123456789abcdef".toList.idxOf? c with
  | some d => some d
  | none => "0123456789ABCDEF".toList.idxOf? c

/-- With hyphens after 8, 12, 16 and 20 digits. -/
def hyphenated (cs : List Char) : List Char :=
  cs.take 8 ++ '-' :: ((cs.drop 8).take 4 ++ '-' :: ((cs.drop 12).take 4 ++
    '-' :: ((cs.drop 16).take 4 ++ '-' :: cs.drop 20)))

/-- `Display`. -/
def text (id : Uuid) : String :=
  String.ofList (hyphenated ((hexDigits 32 id.bits.toNat).map hexChar))

def parseSimple (cs : List Char) : Option Uuid :=
  if cs.length = 32 then
    (cs.mapM hexValue).map fun ds => ⟨BitVec.ofNat 128 (ofHexDigits ds)⟩
  else none

/-- What stands where `hyphenated` has no hyphen. -/
def unhyphenated (cs : List Char) : List Char :=
  cs.take 8 ++ ((cs.drop 9).take 4 ++ ((cs.drop 14).take 4 ++ ((cs.drop 19).take 4 ++ cs.drop 24)))

def parseHyphenated (cs : List Char) : Option Uuid :=
  if hyphenated (unhyphenated cs) = cs then parseSimple (unhyphenated cs) else none

/-- `parse_str`: 32 digits, or hyphenated, which may stand in braces or behind `urn:uuid:`. -/
def parseText (s : String) : Option Uuid :=
  let cs := s.toList
  match cs.length with
  | 32 => parseSimple cs
  | 36 => parseHyphenated cs
  | 38 =>
    if cs.head? = some '\x7b' ∧ cs.getLast? = some '\x7d' then parseHyphenated (cs.drop 1).dropLast
    else none
  | 45 => (Lib.Text.stripPrefix "urn:uuid:".toList cs).bind parseHyphenated
  | _ => none

theorem length_hexDigits (k n : Nat) : (hexDigits k n).length = k := by
  induction k generalizing n with
  | zero => rfl
  | succ k ih => simp [hexDigits, ih]

theorem hexDigits_lt (k n : Nat) : ∀ d ∈ hexDigits k n, d < 16 := by
  induction k generalizing n with
  | zero => simp [hexDigits]
  | succ k ih =>
    intro d hd
    rcases List.mem_append.1 hd with hd | hd
    · exact ih _ d hd
    · rw [List.mem_singleton.1 hd]
      exact Nat.mod_lt _ (by decide)

theorem ofHexDigits_hexDigits (k n : Nat) : ofHexDigits (hexDigits k n) = n % 16 ^ k := by
  induction k generalizing n with
  | zero => simp [hexDigits, ofHexDigits, Nat.mod_one]
  | succ k ih =>
    have ih := ih (n / 16)
    unfold ofHexDigits at ih ⊢
    rw [hexDigits, List.foldl_append, ih]
    simp only [List.foldl_cons, List.foldl_nil]
    rw [Nat.pow_succ, Nat.mul_comm (16 ^ k) 16, Nat.mod_mul]
    omega

theorem hexValue_hexChar : ∀ d < 16, hexValue (hexChar d) = some d := by decide

theorem mapM_hexValue {ds : List Nat} (h : ∀ d ∈ ds, d < 16) :
    (ds.map hexChar).mapM hexValue = some ds := by
  induction ds with
  | nil => rfl
  | cons d ds ih =>
    have hd := hexValue_hexChar d (h d List.mem_cons_self)
    have ih := ih fun x hx => h x (List.mem_cons_of_mem _ hx)
    simp [List.mapM_cons, hd, ih]

theorem parseSimple_hexDigits (id : Uuid) :
    parseSimple ((hexDigits 32 id.bits.toNat).map hexChar) = some id := by
  have hlt : id.bits.toNat < 16 ^ 32 := id.bits.isLt
  have hval : ofHexDigits (hexDigits 32 id.bits.toNat) = id.bits.toNat := by
    rw [ofHexDigits_hexDigits, Nat.mod_eq_of_lt hlt]
  simp [parseSimple, length_hexDigits, mapM_hexValue (hexDigits_lt _ _), hval]

theorem length_hyphenated {cs : List Char} (h : cs.length = 32) : (hyphenated cs).length = 36 := by
  simp [hyphenated, h]

theorem unhyphenated_hyphenated {cs : List Char} (h : cs.length = 32) :
    unhyphenated (hyphenated cs) = cs := by
  obtain ⟨a, b, c, d, e, rfl, ha, hb, hc, hd⟩ : ∃ a b c d e, cs = a ++ (b ++ (c ++ (d ++ e))) ∧
      a.length = 8 ∧ b.length = 4 ∧ c.length = 4 ∧ d.length = 4 := by
    refine ⟨cs.take 8, (cs.drop 8).take 4, (cs.drop 12).take 4, (cs.drop 16).take 4, cs.drop 20,
      ?_, ?_, ?_, ?_, ?_⟩
    · have hsplit : ∀ n, (cs.drop n).take 4 ++ cs.drop (n + 4) = cs.drop n := by
        intro n
        rw [← List.drop_drop]
        exact List.take_append_drop 4 _
      rw [hsplit 16, hsplit 12, hsplit 8, List.take_append_drop]
    all_goals simp [h]
  have hhyphens : hyphenated (a ++ (b ++ (c ++ (d ++ e)))) =
      a ++ '-' :: (b ++ '-' :: (c ++ '-' :: (d ++ '-' :: e))) := by
    simp (disch := omega) [hyphenated, List.drop_append, List.drop_eq_nil_of_le, ha, hb, hc]
  rw [hhyphens]
  simp (disch := omega) [unhyphenated, List.drop_append, List.drop_eq_nil_of_le, ha, hb, hc, hd]

theorem parseHyphenated_hyphenated {cs : List Char} (h : cs.length = 32) :
    parseHyphenated (hyphenated cs) = parseSimple cs := by
  rw [parseHyphenated, unhyphenated_hyphenated h, if_pos rfl]

theorem parseText_text (id : Uuid) : parseText id.text = some id := by
  have hlen : ((hexDigits 32 id.bits.toNat).map hexChar).length = 32 := by
    simp [length_hexDigits]
  simp only [parseText, text, String.toList_ofList, length_hyphenated hlen]
  rw [parseHyphenated_hyphenated hlen, parseSimple_hexDigits]

theorem mem_text {id : Uuid} {c : Char} (h : c ∈ id.text.toList) :
    c ∈ "-0123456789abcdef".toList := by
  have hdigit : ∀ d < 16, hexChar d ∈ "-0123456789abcdef".toList := by decide
  have hmem : ∀ {cs : List Char}, c ∈ hyphenated cs → c = '-' ∨ c ∈ cs := by
    intro cs hc
    simp only [hyphenated, List.mem_append, List.mem_cons] at hc
    rcases hc with hc | rfl | hc | rfl | hc | rfl | hc | rfl | hc
    · exact .inr (List.mem_of_mem_take hc)
    · exact .inl rfl
    · exact .inr (List.mem_of_mem_drop (List.mem_of_mem_take hc))
    · exact .inl rfl
    · exact .inr (List.mem_of_mem_drop (List.mem_of_mem_take hc))
    · exact .inl rfl
    · exact .inr (List.mem_of_mem_drop (List.mem_of_mem_take hc))
    · exact .inl rfl
    · exact .inr (List.mem_of_mem_drop hc)
  rw [text, String.toList_ofList] at h
  rcases hmem h with rfl | h
  · decide
  · obtain ⟨d, hd, rfl⟩ := List.mem_map.1 h
    exact hdigit d (hexDigits_lt _ _ d hd)

theorem length_text (id : Uuid) : id.text.toList.length = 36 := by
  rw [text, String.toList_ofList]
  exact length_hyphenated (by simp [length_hexDigits])

theorem text_inj {a b : Uuid} (h : a.text.toList = b.text.toList) : a = b := by
  have hparse := congrArg parseText (String.toList_inj.1 h)
  rwa [parseText_text, parseText_text, Option.some.injEq] at hparse

end Uuid

theorem colon_not_mem_text (id : Uuid) : ':' ∉ id.text.toList := fun h =>
  absurd (Uuid.mem_text h) (by decide)

/-- The texts as they are. -/
def CursorText.urlSafe : CursorText where
  encode := Lib.Base64.encode
  decode := Lib.Base64.decode
  uuid := Uuid.text
  parseStr := Uuid.parseText
  decode_encode := Lib.Base64.decode_encode
  decode_empty := by decide
  parseStr_uuid := Uuid.parseText_text

end Meno
