import GoLayout.Text.Decimal

/-! # UTF-8

    Decoding reads one byte after the other. A character of several bytes starts with a
    lead byte, which says how many continuation bytes follow and which values the first of
    them may have; overlong forms, surrogates and code points beyond Unicode are ruled out by
    that. A fault names the bytes of the character that cannot be completed. -/

namespace GoLayout.Utf8

/-- Why some bytes are no character. -/
inductive Reason where
  | invalidStart
  | invalidContinuation
  | unexpectedEnd
  deriving Repr, DecidableEq

/-- Bytes that are no character: the position of the first one, its value, and the position
    of the last one. -/
structure Fault where
  first : Nat
  byte : UInt8
  last : Nat
  reason : Reason
  deriving Repr, DecidableEq

/-- The wording of a reason. -/
def Reason.message : Reason → Text
  | invalidStart => "invalid start byte"
  | invalidContinuation => "invalid continuation byte"
  | unexpectedEnd => "unexpected end of data"

/-- The wording of a fault. -/
def Fault.message (f : Fault) : Text :=
  if f.first = f.last then
    Text.concat ["'utf-8' codec can't decode byte 0x",
      Text.padLeft 2 '0' (Nat.toDigits 16 f.byte.toNat), " in position ",
      Decimal.ofNat f.first, ": ", f.reason.message]
  else
    Text.concat ["'utf-8' codec can't decode bytes in position ", Decimal.ofNat f.first, "-",
      Decimal.ofNat f.last, ": ", f.reason.message]

/-- A character that has begun: where, with which byte, its code point so far, the number of
    bytes to come, and the least and largest value of the next one. -/
structure Partial where
  first : Nat
  byte : UInt8
  code : Nat
  owed : Nat
  least : UInt8
  largest : UInt8
  deriving Repr, DecidableEq

/-- The state of a decoder: the position of the next byte, the characters read so far, last
    one first, and the character that has begun. -/
structure Decoder where
  position : Nat
  done : Text
  pending : Option Partial
  deriving Repr, DecidableEq

namespace Decoder

/-- Nothing has been read. -/
def start : Decoder := ⟨0, [], none⟩

/-- A lead byte begins a character. -/
def lead (d : Decoder) (b : UInt8) (code owed : Nat) (least largest : UInt8) : Decoder :=
  { d with
    position := d.position + 1
    pending := some ⟨d.position, b, code, owed, least, largest⟩ }

/-- A character is complete. -/
def emit (d : Decoder) (code : Nat) : Decoder :=
  ⟨d.position + 1, Char.ofNat code :: d.done, none⟩

/-- The state behind a byte between two characters. -/
def readFirst (d : Decoder) (b : UInt8) : Except Fault Decoder :=
  if b < 0x80 then .ok (d.emit b.toNat)
  else if b < 0xc2 then .error ⟨d.position, b, d.position, .invalidStart⟩
  else if b < 0xe0 then .ok (d.lead b (b.toNat - 0xc0) 1 0x80 0xbf)
  else if b = 0xe0 then .ok (d.lead b 0 2 0xa0 0xbf)
  else if b = 0xed then .ok (d.lead b 0xd 2 0x80 0x9f)
  else if b < 0xf0 then .ok (d.lead b (b.toNat - 0xe0) 2 0x80 0xbf)
  else if b = 0xf0 then .ok (d.lead b 0 3 0x90 0xbf)
  else if b < 0xf4 then .ok (d.lead b (b.toNat - 0xf0) 3 0x80 0xbf)
  else if b = 0xf4 then .ok (d.lead b 4 3 0x80 0x8f)
  else .error ⟨d.position, b, d.position, .invalidStart⟩

/-- The state behind a byte inside a character. -/
def readNext (d : Decoder) (p : Partial) (b : UInt8) : Except Fault Decoder :=
  if p.least ≤ b ∧ b ≤ p.largest then
    let code := p.code * 64 + (b.toNat - 0x80)
    if p.owed ≤ 1 then .ok (d.emit code)
    else
      .ok { d with
        position := d.position + 1
        pending := some ⟨p.first, p.byte, code, p.owed - 1, 0x80, 0xbf⟩ }
  else .error ⟨p.first, p.byte, d.position - 1, .invalidContinuation⟩

/-- The state behind a byte. -/
def read (d : Decoder) (b : UInt8) : Except Fault Decoder :=
  match d.pending with
  | none => d.readFirst b
  | some p => d.readNext p b

/-- The text that was read, once there are no more bytes. -/
def finish (d : Decoder) : Except Fault Text :=
  match d.pending with
  | none => .ok d.done.reverse
  | some p => .error ⟨p.first, p.byte, d.position - 1, .unexpectedEnd⟩

end Decoder

/-- The text that some bytes encode. -/
def decode (bytes : List UInt8) : Except Fault Text := do
  let d ← bytes.foldlM Decoder.read .start
  d.finish

end GoLayout.Utf8
