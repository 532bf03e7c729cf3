import DepAtlas.Digest.Words
import DepAtlas.Text.Basic

/-!
Texts as bytes. Decoding goes byte by byte; bytes that belong to no character are grouped so that each
group is the longest beginning of a character that the bytes allow, or a single byte.
-/

namespace DepAtlas.Text.Utf8

/-- The bytes of a text. -/
def encode (text : Text) : Bytes :=
  text.flatMap String.utf8EncodeChar

/-- A character of which some bytes are still missing. -/
structure Open where
  /-- Bytes still missing. -/
  owed : Nat
  /-- Least and greatest value of the next byte. -/
  low : Nat
  high : Nat
  /-- The bits read so far. -/
  code : Nat
deriving Repr, DecidableEq

/-- What a first byte begins: a whole character, an open one, or nothing. -/
def opening (byte : Nat) : Option (Char ⊕ Open) :=
  if byte < 0x80 then some (.inl (Char.ofNat byte))
  else if byte < 0xC2 then none
  else if byte < 0xE0 then some (.inr ⟨1, 0x80, 0xBF, byte - 0xC0⟩)
  else if byte = 0xE0 then some (.inr ⟨2, 0xA0, 0xBF, 0⟩)
  else if byte = 0xED then some (.inr ⟨2, 0x80, 0x9F, 0xD⟩)
  else if byte < 0xF0 then some (.inr ⟨2, 0x80, 0xBF, byte - 0xE0⟩)
  else if byte = 0xF0 then some (.inr ⟨3, 0x90, 0xBF, 0⟩)
  else if byte < 0xF4 then some (.inr ⟨3, 0x80, 0xBF, byte - 0xF0⟩)
  else if byte = 0xF4 then some (.inr ⟨3, 0x80, 0x8F, 4⟩)
  else none

/-- Reads a byte between characters: what it completes, and what it leaves open. -/
def readFirst (byte : Nat) : List (Option Char) × Option Open :=
  match opening byte with
  | some (.inl c) => ([some c], none)
  | some (.inr pending) => ([], some pending)
  | none => ([none], none)

/-- Reads a byte inside an open character. A byte that cannot continue it ends a group of bytes without
a character, and is read as a first byte. -/
def readNext (pending : Open) (byte : Nat) : List (Option Char) × Option Open :=
  if pending.low ≤ byte ∧ byte ≤ pending.high then
    let code := pending.code * 64 + (byte - 0x80)
    if pending.owed ≤ 1 then ([some (Char.ofNat code)], none)
    else ([], some ⟨pending.owed - 1, 0x80, 0xBF, code⟩)
  else
    let (read, pending) := readFirst byte
    (none :: read, pending)

/-- The characters of bytes, with a gap for each group that belongs to none. -/
def decode : Option Open → Bytes → List (Option Char)
  | none, [] => []
  | some _, [] => [none]
  | pending, byte :: rest =>
    let (read, pending) :=
      match pending with
      | none => readFirst byte.toNat
      | some pending => readNext pending byte.toNat
    read ++ decode pending rest

/-- Stands for bytes that belong to no character. -/
def replacement : Char := '\ufffd'

/-- The text of any bytes, with a replacement for each gap. -/
def decodeLossy (bytes : Bytes) : Text :=
  (decode none bytes).map (·.getD replacement)

/-- The text of bytes that hold characters only. -/
def decode? (bytes : Bytes) : Option Text :=
  (decode none bytes).mapM id

end DepAtlas.Text.Utf8
