/-
  Bytes written in base 64.

  Characters outside the alphabet are skipped.  Padding ends the text where it completes a
  group of four; without it, a group has to be complete at the end.
-/
import TraitCatalog.Text.Basic

namespace TraitCatalog.Yaml.Base64

/-- The value of a digit. -/
def digit? (c : CodePoint) : Option Nat :=
  let n := c.toNat
  if 0x41 ≤ n && n ≤ 0x5A then some (n - 0x41)
  else if 0x61 ≤ n && n ≤ 0x7A then some (n - 0x61 + 26)
  else if 0x30 ≤ n && n ≤ 0x39 then some (n - 0x30 + 52)
  else if n = 0x2B then some 62
  else if n = 0x2F then some 63
  else none

/-- Reads a text in which `place` digits of a group of four have been read; `left` are the
    bits of the last digit that are not used yet, and `pads` signs of padding have come
    since. -/
def decodeFrom : (place left pads : Nat) → Text → Option (List UInt8)
  | place, _, _, [] => if place = 0 then some [] else none
  | place, left, pads, c :: t =>
    if c = .scalar '=' then
      if 2 ≤ place then if 4 ≤ place + pads + 1 then some [] else decodeFrom place left (pads + 1) t
      else decodeFrom place left pads t
    else
      match digit? c with
      | none => decodeFrom place left pads t
      | some d =>
        match place with
        | 0 => decodeFrom 1 d 0 t
        | 1 => (decodeFrom 2 (d % 16) 0 t).map (.ofNat (left * 4 + d / 16) :: ·)
        | 2 => (decodeFrom 3 (d % 4) 0 t).map (.ofNat (left * 16 + d / 4) :: ·)
        | _ => (decodeFrom 0 0 0 t).map (.ofNat (left * 64 + d) :: ·)

/-- The bytes that a text stands for. -/
def decode? (t : Text) : Option (List UInt8) :=
  decodeFrom 0 0 0 t

end TraitCatalog.Yaml.Base64
