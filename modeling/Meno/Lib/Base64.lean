import Mathlib.Data.List.GetD
import Mathlib.Data.List.Nodup
import Mathlib.Tactic.Common

/-!
# Lib.Base64

Base64 with the alphabet that is safe in URLs and without padding: bytes as groups of six bits, and
back. A text is read only if it is what some bytes are written as.
-/

namespace Lib.Base64

/-! ## Bits -/

/-- Three bytes make four groups; what is left over is filled up with zeros. -/
def sextets : List Nat → List Nat
  | [] => []
  | [a] => [a / 4, a % 4 * 16]
  | [a, b] => [a / 4, a % 4 * 16 + b / 16, b % 16 * 4]
  | a :: b :: c :: rest =>
    a / 4 :: (a % 4 * 16 + b / 16) :: (b % 16 * 4 + c / 64) :: c % 64 :: sextets rest

/-- A single group is too short for a byte, and what fills up the last byte has to be zeros. -/
def octets : List Nat → Option (List Nat)
  | [] => some []
  | [_] => none
  | [w, x] => if x % 16 = 0 then some [w * 4 + x / 16] else none
  | [w, x, y] => if y % 4 = 0 then some [w * 4 + x / 16, x % 16 * 16 + y / 4] else none
  | w :: x :: y :: z :: rest =>
    (octets rest).map fun bytes => (w * 4 + x / 16) :: (x % 16 * 16 + y / 4) :: (y % 4 * 64 + z) :: bytes

theorem octets_sextets {bytes : List Nat} (h : ∀ b ∈ bytes, b < 256) :
    octets (sextets bytes) = some bytes := by
  induction bytes using sextets.induct with
  | case1 => rfl
  | case2 a =>
    have ha := h a (by simp)
    simp only [sextets, octets]
    rw [if_pos (by omega)]
    simp only [Option.some.injEq, List.cons.injEq, and_true]
    omega
  | case3 a b =>
    have ha := h a (by simp)
    have hb := h b (by simp)
    simp only [sextets, octets]
    rw [if_pos (by omega)]
    simp only [Option.some.injEq, List.cons.injEq, and_true]
    omega
  | case4 a b c rest ih =>
    have ha := h a (by simp)
    have hb := h b (by simp)
    have hc := h c (by simp)
    have ih := ih fun x hx => h x (by simp [hx])
    simp only [sextets, octets, ih, Option.map_some, Option.some.injEq, List.cons.injEq, and_true]
    omega

theorem sextets_lt {bytes : List Nat} (h : ∀ b ∈ bytes, b < 256) : ∀ s ∈ sextets bytes, s < 64 := by
  induction bytes using sextets.induct with
  | case1 => simp [sextets]
  | case2 a =>
    have ha := h a (by simp)
    simp only [sextets, List.forall_mem_cons]
    refine ⟨by omega, by omega, by simp⟩
  | case3 a b =>
    have ha := h a (by simp)
    have hb := h b (by simp)
    simp only [sextets, List.forall_mem_cons]
    refine ⟨by omega, by omega, by omega, by simp⟩
  | case4 a b c rest ih =>
    have ha := h a (by simp)
    have hb := h b (by simp)
    have hc := h c (by simp)
    have ih := ih fun x hx => h x (by simp [hx])
    simp only [sextets, List.forall_mem_cons]
    exact ⟨by omega, by omega, by omega, by omega, ih⟩

/-! ## The alphabet -/

def alphabet : List Char :=
  "ABCDEFGHIJKLMNOPQRSTUVWXYZabcdefghijklmnopqrstuvwxyz0123456789-_".toList

def digit (n : Nat) : Char := alphabet.getD n 'A'

def value (c : Char) : Option Nat := alphabet.idxOf? c

/-- The code points of the digits. -/
def codes : List Nat := List.range' 65 26 ++ List.range' 97 26 ++ List.range' 48 10 ++ [45, 95]

theorem codes_nodup : codes.Nodup := by
  simp only [codes, List.nodup_append, List.mem_append, List.mem_range'_1]
  refine ⟨⟨⟨List.nodup_range', List.nodup_range', ?_⟩, List.nodup_range', ?_⟩, by simp, ?_⟩
  · omega
  · omega
  · intro a ha b hb
    simp only [List.mem_cons, List.not_mem_nil, or_false] at hb
    omega

theorem alphabet_eq : alphabet = codes.map Char.ofNat := String.toList_ofList

theorem toNat_code : ∀ n ∈ codes, (Char.ofNat n).toNat = n := by decide

theorem alphabet_nodup : alphabet.Nodup := by
  rw [alphabet_eq]
  refine codes_nodup.map_on fun a ha b hb hab => ?_
  rw [← toNat_code a ha, ← toNat_code b hb, hab]

theorem value_digit : ∀ n < 64, value (digit n) = some n := by
  intro n hn
  have hlt : n < alphabet.length := by
    rw [alphabet_eq, List.length_map]
    exact hn
  rw [value, digit, List.getD_eq_getElem _ _ hlt, List.idxOf?_eq_some_iff]
  refine ⟨hlt, rfl, fun j hj heq => ?_⟩
  exact Nat.ne_of_lt hj ((List.Nodup.getElem_inj_iff alphabet_nodup).1 heq)

theorem mapM_value {ns : List Nat} (h : ∀ n ∈ ns, n < 64) : (ns.map digit).mapM value = some ns := by
  induction ns with
  | nil => rfl
  | cons n ns ih =>
    have hn := value_digit n (h n List.mem_cons_self)
    have ih := ih fun m hm => h m (List.mem_cons_of_mem _ hm)
    simp [List.mapM_cons, hn, ih]

/-! ## Text -/

def bytes (s : String) : List Nat := s.toByteArray.data.toList.map UInt8.toNat

/-- UTF-8 text in base64. -/
def encode (s : String) : String := String.ofList ((sextets (bytes s)).map digit)

def decode (s : String) : Option String := do
  let groups ← s.toList.mapM value
  let bytes ← octets groups
  String.fromUTF8? ⟨(bytes.map UInt8.ofNat).toArray⟩

theorem bytes_lt (s : String) : ∀ b ∈ bytes s, b < 256 := by
  intro b hb
  obtain ⟨x, -, rfl⟩ := List.mem_map.1 hb
  exact x.toNat_lt

theorem decode_encode (s : String) : decode (encode s) = some s := by
  have hbytes : (bytes s).map UInt8.ofNat = s.toByteArray.data.toList := by
    rw [bytes, List.map_map]
    exact (List.map_congr_left fun x _ => UInt8.ofNat_toNat).trans (List.map_id _)
  have htext : String.fromUTF8? s.toByteArray = some s := dif_pos s.isValidUTF8
  simp [decode, encode, mapM_value (sextets_lt (bytes_lt s)), octets_sextets (bytes_lt s), hbytes,
    htext]

end Lib.Base64
