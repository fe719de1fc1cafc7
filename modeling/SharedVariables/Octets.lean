/-! Byte strings, and numbers and texts in them. -/
namespace SharedVariables

abbrev Octets := List UInt8

namespace Octets

def range : (width : Nat) → Nat
  | 0 => 1
  | width + 1 => 256 * range width

def ofNat : (width : Nat) → Nat → Octets
  | 0, _ => []
  | width + 1, n => UInt8.ofNat (n / range width) :: ofNat width n

def toNat (bs : Octets) : Nat := bs.foldl (fun n b => n * 256 + b.toNat) 0

def ofInt (width : Nat) (i : Int) : Octets := ofNat width (i % range width).toNat

def toInt (bs : Octets) : Int :=
  let n := toNat bs
  if 2 * n < range bs.length then n else (n : Int) - range bs.length

def ofText (s : String) : Octets := s.toUTF8.data.toList

def toText? (bs : Octets) : Option String := String.fromUTF8? ⟨bs.toArray⟩

def hex (bs : Octets) : String :=
  bs.foldl (fun s b =>
    (s.push (Nat.digitChar (b.toNat / 16))).push (Nat.digitChar (b.toNat % 16))) ""

def hexValue (c : Char) : Nat :=
  if c.isDigit then c.toNat - '0'.toNat else if c.isLower then c.toNat - 'a'.toNat + 10 else
    c.toNat - 'A'.toNat + 10

/-- The bytes that pairs of hexadecimal digits write, in reverse and before those that are given. -/
def ofHexOnto (bs : Octets) : List Char → Octets
  | high :: low :: rest => ofHexOnto (UInt8.ofNat (hexValue high * 16 + hexValue low) :: bs) rest
  | _ => bs

def ofHex (s : String) : Octets := (ofHexOnto [] s.toList).reverse

def le : Octets → Octets → Bool
  | [], _ => true
  | _ :: _, [] => false
  | a :: as, b :: bs => a < b || (a == b && le as bs)

@[simp] theorem length_ofNat (width n : Nat) : (ofNat width n).length = width := by
  induction width with
  | zero => rfl
  | succ width ih => simp [ofNat, ih]

end Octets
end SharedVariables
