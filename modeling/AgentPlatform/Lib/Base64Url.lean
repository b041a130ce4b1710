import Mathlib.Data.List.Basic

/-!
# Base64 for URLs

RFC 4648 base64 over the alphabet that is safe in URLs, without padding. A group of three bytes is
four digits of six bits; a last group of one byte is two digits and of two bytes three, and the bits
that are left over have to be zero.
-/

namespace Base64Url

/-! ## Digits -/

def alphabet : List Char :=
  "ABCDEFGHIJKLMNOPQRSTUVWXYZabcdefghijklmnopqrstuvwxyz0123456789-_".toList

def digit (n : Nat) : Char := alphabet.getD n 'A'

def value? (c : Char) : Option Nat := alphabet.findIdx? (· == c)

theorem value?_digit : ∀ n < 64, value? (digit n) = some n := by decide

/-! ## Groups -/

/-- The digits of the bytes. -/
def digits : List UInt8 → List Nat
  | [] => []
  | [a] => [a.toNat / 4, a.toNat % 4 * 16]
  | [a, b] => [a.toNat / 4, a.toNat % 4 * 16 + b.toNat / 16, b.toNat % 16 * 4]
  | a :: b :: c :: rest =>
    a.toNat / 4 :: (a.toNat % 4 * 16 + b.toNat / 16) :: (b.toNat % 16 * 4 + c.toNat / 64) ::
      c.toNat % 64 :: digits rest

/-- The bytes of the digits. -/
def bytes : List Nat → Option (List UInt8)
  | [] => some []
  | [_] => none
  | [p, q] => if q % 16 = 0 then some [UInt8.ofNat (p * 4 + q / 16)] else none
  | [p, q, r] =>
    if r % 4 = 0 then some [UInt8.ofNat (p * 4 + q / 16), UInt8.ofNat (q % 16 * 16 + r / 4)]
    else none
  | p :: q :: r :: s :: rest =>
    (bytes rest).map fun tail =>
      UInt8.ofNat (p * 4 + q / 16) :: UInt8.ofNat (q % 16 * 16 + r / 4) ::
        UInt8.ofNat (r % 4 * 64 + s) :: tail

theorem digits_lt (bs : List UInt8) : ∀ n ∈ digits bs, n < 64 := by
  induction bs using digits.induct with
  | case1 => simp [digits]
  | case2 a =>
    have ha := a.toNat_lt
    simp only [digits, List.forall_mem_cons]
    exact ⟨by omega, by omega, fun _ h => absurd h List.not_mem_nil⟩
  | case3 a b =>
    have ha := a.toNat_lt
    have hb := b.toNat_lt
    simp only [digits, List.forall_mem_cons]
    exact ⟨by omega, by omega, by omega, fun _ h => absurd h List.not_mem_nil⟩
  | case4 a b c rest ih =>
    have ha := a.toNat_lt
    have hb := b.toNat_lt
    have hc := c.toNat_lt
    simp only [digits, List.forall_mem_cons]
    exact ⟨by omega, by omega, by omega, by omega, ih⟩

/-- A byte from a number that is its value. -/
theorem ofNat_of_eq {n : Nat} {a : UInt8} (h : n = a.toNat) : UInt8.ofNat n = a := by
  rw [h, UInt8.ofNat_toNat]

theorem bytes_digits (bs : List UInt8) : bytes (digits bs) = some bs := by
  induction bs using digits.induct with
  | case1 => rfl
  | case2 a =>
    have ha := a.toNat_lt
    have hzero : a.toNat % 4 * 16 % 16 = 0 := by omega
    simp only [digits, bytes, hzero, if_true]
    rw [ofNat_of_eq (a := a) (by omega)]
  | case3 a b =>
    have ha := a.toNat_lt
    have hb := b.toNat_lt
    have hzero : b.toNat % 16 * 4 % 4 = 0 := by omega
    simp only [digits, bytes, hzero, if_true]
    rw [ofNat_of_eq (a := a) (by omega), ofNat_of_eq (a := b) (by omega)]
  | case4 a b c rest ih =>
    have ha := a.toNat_lt
    have hb := b.toNat_lt
    have hc := c.toNat_lt
    simp only [digits, bytes, ih, Option.map_some]
    rw [ofNat_of_eq (a := a) (by omega), ofNat_of_eq (a := b) (by omega),
      ofNat_of_eq (a := c) (by omega)]

/-! ## Texts -/

def encode (bs : List UInt8) : String := String.ofList ((digits bs).map digit)

def decode (text : String) : Option (List UInt8) := (text.toList.mapM value?).bind bytes

theorem mapM_value?_digit {ns : List Nat} (small : ∀ n ∈ ns, n < 64) :
    (ns.map digit).mapM value? = some ns := by
  induction ns with
  | nil => rfl
  | cons n ns ih =>
    obtain ⟨hn, hns⟩ := List.forall_mem_cons.mp small
    rw [List.map_cons, List.mapM_cons, value?_digit n hn, ih hns]
    rfl

/-- What was encoded is decoded again. -/
@[simp] theorem decode_encode (bs : List UInt8) : decode (encode bs) = some bs := by
  rw [decode, encode, String.toList_ofList, mapM_value?_digit (digits_lt bs), Option.bind_some,
    bytes_digits]

end Base64Url
