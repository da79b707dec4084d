import CurrencyPad.Text.Basic

/-!
# Texts as bytes

Files hold texts in UTF-8. Reading never fails: a byte sequence that is cut
short or cannot start a character stands for one replacement character.
-/

namespace CurrencyPad.Text

def toBytes (text : Text) : List UInt8 :=
  text.flatMap String.utf8EncodeChar

/-- The character that stands for bytes that are no text. -/
def replacement : Char := '\uFFFD'

def isContinuation (byte : UInt8) : Bool :=
  0x80 ≤ byte && byte ≤ 0xBF

/-- Whether a byte may follow the first byte of a character of three or four
bytes. It excludes overlong forms, surrogates and code points above U+10FFFF. -/
def isSecond (first second : UInt8) : Bool :=
  isContinuation second &&
    (if first = 0xE0 then 0xA0 ≤ second
     else if first = 0xED then second ≤ 0x9F
     else if first = 0xF0 then 0x90 ≤ second
     else if first = 0xF4 then second ≤ 0x8F
     else true)

/-- The low six bits of a continuation byte. -/
def payload (byte : UInt8) : Nat :=
  byte.toNat % 0x40

/-- The character at the start of some bytes, given its first byte and those
that follow, and how many of those belong to it. -/
def leadingChar (first : UInt8) (rest : List UInt8) : Char × Nat :=
  if first < 0x80 then (Char.ofNat first.toNat, 0)
  else if 0xC2 ≤ first ∧ first ≤ 0xDF then
    match rest with
    | second :: _ =>
      if isContinuation second then
        (Char.ofNat (first.toNat % 0x20 * 0x40 + payload second), 1)
      else (replacement, 0)
    | [] => (replacement, 0)
  else if 0xE0 ≤ first ∧ first ≤ 0xEF then
    match rest with
    | second :: third :: _ =>
      if !isSecond first second then (replacement, 0)
      else if isContinuation third then
        (Char.ofNat
          (first.toNat % 0x10 * 0x1000 + payload second * 0x40 + payload third),
          2)
      else (replacement, 1)
    | [second] => (replacement, if isSecond first second then 1 else 0)
    | [] => (replacement, 0)
  else if 0xF0 ≤ first ∧ first ≤ 0xF4 then
    match rest with
    | second :: third :: fourth :: _ =>
      if !isSecond first second then (replacement, 0)
      else if !isContinuation third then (replacement, 1)
      else if isContinuation fourth then
        (Char.ofNat (first.toNat % 0x08 * 0x40000 + payload second * 0x1000 +
          payload third * 0x40 +
          payload fourth), 3)
      else (replacement, 2)
    | [second, third] =>
      (replacement,
        if !isSecond first second then 0
        else if isContinuation third then 2 else 1)
    | [second] => (replacement, if isSecond first second then 1 else 0)
    | [] => (replacement, 0)
  else (replacement, 0)

/-- The text that bytes stand for once some of them, which belong to an earlier
character, are passed over. -/
def ofBytesAfter : Nat → List UInt8 → Text
  | _, [] => []
  | used + 1, _ :: rest => ofBytesAfter used rest
  | 0, first :: rest =>
    let (c, used) := leadingChar first rest
    c :: ofBytesAfter used rest

/-- The text that bytes stand for, with a replacement character for each
ill-formed part. -/
def ofBytes (bytes : List UInt8) : Text :=
  ofBytesAfter 0 bytes

/-- The text of code points. Each half of a character is written as three bytes,
none of which is text. -/
def ofPoints (points : List Nat) : Text :=
  points.flatMap fun point =>
    if isHalf point then List.replicate 3 replacement else [Char.ofNat point]

end CurrencyPad.Text
