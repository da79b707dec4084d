import CurrencyPad.Text.Basic

/-!
# Bytes in base 64

Four characters stand for three bytes. Characters outside the alphabet are
passed over, and one or two equals signs end the text where its last group is
short.
-/

namespace CurrencyPad.Text.Base64

/-- The six bits that a character of the alphabet stands for. -/
def sixBits? (c : Char) : Option Nat :=
  if 'A' ≤ c ∧ c ≤ 'Z' then some (c.toNat - 0x41)
  else if 'a' ≤ c ∧ c ≤ 'z' then some (c.toNat - 0x61 + 26)
  else if '0' ≤ c ∧ c ≤ '9' then some (c.toNat - 0x30 + 52)
  else if c = '+' then some 62
  else if c = '/' then some 63
  else none

/-- The byte that a group of characters gives when a further one comes: the
group has `place` characters so far, the last of which stands for `last`. The
first character of a group gives none. -/
def nextByte? (place last bits : Nat) : Option UInt8 :=
  match place with
  | 0 => none
  | 1 => some (UInt8.ofNat (last * 4 + bits / 16))
  | 2 => some (UInt8.ofNat (last % 16 * 16 + bits / 4))
  | _ => some (UInt8.ofNat (last % 4 * 64 + bits))

/-- The bytes of a text after a number of characters of a group, the bits of the
last of them, and a number of equals signs. None are read where a group stays
short. -/
def bytesFrom (place last signs : Nat) : Text → Option (List UInt8)
  | [] => if place = 0 then some [] else none
  | c :: rest =>
    if c = '=' then
      if 2 ≤ place ∧ 4 ≤ place + signs + 1 then some []
      else bytesFrom place last (if 2 ≤ place then signs + 1 else signs) rest
    else
      match sixBits? c with
      | none => bytesFrom place last signs rest
      | some bits =>
        (bytesFrom ((place + 1) % 4) bits 0 rest).map
          ((nextByte? place last bits).toList ++ ·)

def decode? (text : Text) : Option (List UInt8) :=
  bytesFrom 0 0 0 text

end CurrencyPad.Text.Base64
