/-!
# Decoding UTF-8

Every byte sequence decodes: a maximal piece that no character can contain becomes one replacement
character.
-/

namespace Backmap.Text.Utf8

/-- A character that has begun: the bytes still owed, the bounds of the next byte, the bits so far. -/
structure Pending where
  owed : Nat
  low : Nat
  high : Nat
  bits : Nat

def replacement : Char := '�'

/-- What the first byte of a character gives: a whole character, the beginning of one, or neither. -/
def start (b : Nat) : List Char × Option Pending :=
  if b < 0x80 then ([Char.ofNat b], none)
  else if 0xc2 ≤ b ∧ b ≤ 0xdf then ([], some ⟨1, 0x80, 0xbf, b - 0xc0⟩)
  else if b = 0xe0 then ([], some ⟨2, 0xa0, 0xbf, 0⟩)
  else if b = 0xed then ([], some ⟨2, 0x80, 0x9f, 0xd⟩)
  else if 0xe1 ≤ b ∧ b ≤ 0xef then ([], some ⟨2, 0x80, 0xbf, b - 0xe0⟩)
  else if b = 0xf0 then ([], some ⟨3, 0x90, 0xbf, 0⟩)
  else if 0xf1 ≤ b ∧ b ≤ 0xf3 then ([], some ⟨3, 0x80, 0xbf, b - 0xf0⟩)
  else if b = 0xf4 then ([], some ⟨3, 0x80, 0x8f, 4⟩)
  else ([replacement], none)

/-- A byte that cannot continue the pending character replaces it and starts afresh. -/
def step : Option Pending → Nat → List Char × Option Pending
  | none, b => start b
  | some p, b =>
    if p.low ≤ b ∧ b ≤ p.high then
      let bits := p.bits * 64 + (b - 0x80)
      if p.owed ≤ 1 then ([Char.ofNat bits], none) else ([], some ⟨p.owed - 1, 0x80, 0xbf, bits⟩)
    else
      let (cs, next) := start b
      (replacement :: cs, next)

def decodeFrom (p : Option Pending) (bytes : List UInt8) (done : List Char) : List Char :=
  match bytes with
  | [] => (if p.isSome then replacement :: done else done).reverse
  | b :: bytes =>
    let (cs, next) := step p b.toNat
    decodeFrom next bytes (cs.reverse ++ done)

def decode (bytes : ByteArray) : List Char := decodeFrom none bytes.toList []

end Backmap.Text.Utf8
