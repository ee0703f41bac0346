-- Bytes read as UTF-8, one byte at a time. An ill-formed stretch counts once
-- for each longest part that could have begun a character; a reader either
-- puts a replacement character there or gives up.

namespace BigO.Text

/-- A character begun and not yet ended: the bits so far, the bytes still
owed, and the two ends of what the next byte may be. -/
structure Pending where
  bits : Nat
  owed : Nat
  low : Nat
  high : Nat

/-- What a byte does where a character may begin. -/
inductive Lead where
  | whole (c : Char)
  | opens (p : Pending)
  | stray

/-- The byte as the first of a character. -/
def leadOf (b : Nat) : Lead :=
  if b < 0x80 then .whole (Char.ofNat b)
  else if b < 0xC2 then .stray
  else if b < 0xE0 then .opens ⟨b - 0xC0, 1, 0x80, 0xBF⟩
  else if b = 0xE0 then .opens ⟨0, 2, 0xA0, 0xBF⟩
  else if b = 0xED then .opens ⟨0xD, 2, 0x80, 0x9F⟩
  else if b < 0xF0 then .opens ⟨b - 0xE0, 2, 0x80, 0xBF⟩
  else if b = 0xF0 then .opens ⟨0, 3, 0x90, 0xBF⟩
  else if b < 0xF4 then .opens ⟨b - 0xF0, 3, 0x80, 0xBF⟩
  else if b = 0xF4 then .opens ⟨4, 3, 0x80, 0x8F⟩
  else .stray

/-- The characters of a run of bytes, `none` for each ill-formed part. -/
def decodeFrom : Option Pending → List UInt8 → List (Option Char)
  | none, [] => []
  | some _, [] => [none]
  | none, b :: bs =>
    match leadOf b.toNat with
    | .whole c => some c :: decodeFrom none bs
    | .opens p => decodeFrom (some p) bs
    | .stray => none :: decodeFrom none bs
  | some p, b :: bs =>
    if p.low ≤ b.toNat && b.toNat ≤ p.high then
      let bits := p.bits * 64 + (b.toNat - 0x80)
      if p.owed = 1 then
        some (Char.ofNat bits) :: decodeFrom none bs
      else
        decodeFrom (some ⟨bits, p.owed - 1, 0x80, 0xBF⟩) bs
    else
      match leadOf b.toNat with
      | .whole c => none :: some c :: decodeFrom none bs
      | .opens q => none :: decodeFrom (some q) bs
      | .stray => none :: none :: decodeFrom none bs

/-- The character put where bytes are ill-formed. -/
def replacement : Char :=
  Char.ofNat 0xFFFD

/-- The text of the bytes, with a replacement for every ill-formed part. -/
def decodeLossy (bytes : List UInt8) : List Char :=
  (decodeFrom none bytes).map (·.getD replacement)

/-- The text of the bytes, if all of them are well formed. -/
def decode? (bytes : List UInt8) : Option (List Char) :=
  (decodeFrom none bytes).mapM id

end BigO.Text
