import DepAtlas.Digest.Words

/-!
The 64-bit content digest. Contents of up to 240 bytes are mixed directly; longer ones run through
eight lanes, 64 bytes at a time, and the last 64 bytes are mixed in once more at the end.

`Digest.ofBytes` digests a content at once, `Hasher` piece by piece.
-/

namespace DepAtlas

namespace Digest

def empty : UInt64 :=
  settleFresh (key 56 ^^^ key 64)

/-- The digest of one to three bytes. -/
def tiny (bytes : Bytes) (length : Nat) : UInt64 :=
  let first := (bytes.headD 0).toUInt64
  let middle := ((bytes.drop (length / 2)).headD 0).toUInt64
  let last := ((bytes.drop (length - 1)).headD 0).toUInt64
  let combined := (first <<< 16) ||| (middle <<< 24) ||| last ||| (length.toUInt64 <<< 8)
  settleFresh (combined ^^^ (word32 secret ^^^ word32 (secret.drop 4)))

/-- The digest of four to eight bytes. -/
def small (bytes : Bytes) (length : Nat) : UInt64 :=
  let low := word32 bytes
  let high := word32 (bytes.drop (length - 4))
  settleShort ((high + (low <<< 32)) ^^^ (key 8 ^^^ key 16)) length.toUInt64

/-- The digest of nine to sixteen bytes. -/
def medium (bytes : Bytes) (length : Nat) : UInt64 :=
  let low := word64 bytes ^^^ (key 24 ^^^ key 32)
  let high := word64 (bytes.drop (length - 8)) ^^^ (key 40 ^^^ key 48)
  settle (length.toUInt64 + swapBytes low + high + foldProduct low high)

/-- Mixes sixteen bytes with the key at an offset. -/
def mix (bytes : Bytes) (offset : Nat) : UInt64 :=
  foldProduct (word64 bytes ^^^ key offset) (word64 (bytes.drop 8) ^^^ key (offset + 8))

/-- The digest of 17 to 128 bytes: pairs of sixteen bytes from both ends. -/
def large (bytes : Bytes) (length : Nat) : UInt64 :=
  let pairs := (length - 1) / 32 + 1
  settle <| (List.range pairs).foldl (fun acc i =>
    acc + mix (bytes.drop (16 * i)) (32 * i) + mix (bytes.drop (length - 16 * (i + 1))) (32 * i + 16))
    (length.toUInt64 * primeFirst)

/-- The digest of 129 to 240 bytes. -/
def larger (bytes : Bytes) (length : Nat) : UInt64 :=
  let round := fun (acc : UInt64) (i : Nat) => acc + mix (bytes.drop (16 * i)) (16 * i)
  let first := settle ((List.range 8).foldl round (length.toUInt64 * primeFirst))
  let later := (List.range (length / 16 - 8)).foldl (fun acc i =>
    acc + mix (bytes.drop (16 * (i + 8))) (16 * i + 3)) first
  settle (later + mix (bytes.drop (length - 16)) 119)

/-- Longest content that is mixed directly. -/
def shortLimit : Nat := 240

/-- The digest of at most 240 bytes. -/
def short (bytes : Bytes) : UInt64 :=
  let length := bytes.length
  if length = 0 then empty
  else if length ≤ 3 then tiny bytes length
  else if length ≤ 8 then small bytes length
  else if length ≤ 16 then medium bytes length
  else if length ≤ 128 then large bytes length
  else larger bytes length

/-- The lanes of a long content, and the number of 64-byte stripes they have taken in. -/
structure Lanes where
  words : List UInt64
  stripes : Nat
deriving Repr, DecidableEq

namespace Lanes

/-- The lanes before the first stripe. -/
def initial : Lanes where
  words := [
    prime32Third, primeFirst, primeSecond, primeThird, primeFourth, prime32Second, primeFifth,
    prime32First]
  stripes := 0

/-- Mixes two neighbouring lanes with sixteen bytes. -/
def mixPair (a b : UInt64) (bytes : Bytes) (offset : Nat) : UInt64 × UInt64 :=
  let left := word64 bytes
  let right := word64 (bytes.drop 8)
  let leftKey := left ^^^ key offset
  let rightKey := right ^^^ key (offset + 8)
  (a + right + lowHalf leftKey * (leftKey >>> 32),
    b + left + lowHalf rightKey * (rightKey >>> 32))

/-- Mixes the lanes with a stripe, two lanes at a time. -/
def mixStripe : List UInt64 → Bytes → Nat → List UInt64
  | a :: b :: rest, bytes, offset =>
    let mixed := mixPair a b bytes offset
    mixed.1 :: mixed.2 :: mixStripe rest (bytes.drop 16) (offset + 16)
  | words, _, _ => words

/-- Stirs the lanes at the end of a block of sixteen stripes. -/
def stir : List UInt64 → Nat → List UInt64
  | [], _ => []
  | word :: rest, offset =>
    ((word ^^^ (word >>> 47)) ^^^ key offset) * prime32First :: stir rest (offset + 8)

def absorb (lanes : Lanes) (stripe : Bytes) : Lanes :=
  let place := lanes.stripes % 16
  let mixed := mixStripe lanes.words stripe (8 * place)
  { words := if place = 15 then stir mixed 128 else mixed, stripes := lanes.stripes + 1 }

/-- Takes in stripes as long as at least one byte is left after them, at most `bound` of them; returns
what is left. -/
def absorbAll : Nat → Lanes → Bytes → Lanes × Bytes
  | 0, lanes, bytes => (lanes, bytes)
  | bound + 1, lanes, bytes =>
    match bytes.drop 64 with
    | [] => (lanes, bytes)
    | rest => absorbAll bound (lanes.absorb (bytes.take 64)) rest

/-- Combines the lanes, two at a time. -/
def merge : List UInt64 → Nat → UInt64 → UInt64
  | a :: b :: rest, offset, acc =>
    merge rest (offset + 16) (acc + foldProduct (a ^^^ key offset) (b ^^^ key (offset + 8)))
  | _, _, acc => acc

/-- The digest, given the last 64 bytes of the content and its length. -/
def finish (lanes : Lanes) (last : Bytes) (length : Nat) : UInt64 :=
  settle (merge (mixStripe lanes.words last 121) 11 (length.toUInt64 * primeFirst))

end Lanes

/-- The last 64 bytes of a content. -/
def lastStripe (bytes : Bytes) (length : Nat) : Bytes :=
  bytes.drop (length - 64)

def ofBytes (bytes : Bytes) : UInt64 :=
  let length := bytes.length
  if length ≤ shortLimit then short bytes
  else (Lanes.absorbAll length .initial bytes).1.finish (lastStripe bytes length) length

end Digest

/-- A digest in the making. -/
structure Hasher where
  /-- The first bytes, kept for short contents. -/
  head : Bytes := []
  lanes : Digest.Lanes := .initial
  /-- Bytes that the lanes have not taken in. -/
  pending : Bytes := []
  /-- The last 64 bytes seen. -/
  last : Bytes := []
  length : Nat := 0

namespace Hasher

def update (hasher : Hasher) (bytes : Bytes) : Hasher :=
  let added := bytes.length
  let waiting := hasher.pending ++ bytes
  let taken := Digest.Lanes.absorbAll waiting.length hasher.lanes waiting
  let seen := hasher.last ++ bytes
  { head := hasher.head ++ bytes.take (Digest.shortLimit - hasher.head.length)
    lanes := taken.1
    pending := taken.2
    last := Digest.lastStripe seen seen.length
    length := hasher.length + added }

/-- The digest of everything appended. -/
def finish (hasher : Hasher) : UInt64 :=
  if hasher.length ≤ Digest.shortLimit then Digest.short hasher.head
  else hasher.lanes.finish hasher.last hasher.length

end Hasher

namespace Digest

def bytesOf (text : String) : Bytes :=
  text.toUTF8.toList

def ofString (text : String) : UInt64 :=
  ofBytes (bytesOf text)

/-- The digest of a list of strings: each string's bytes, then a byte that occurs in no string. -/
def ofStrings (texts : List String) : UInt64 :=
  (texts.foldl (fun (hasher : Hasher) text => (hasher.update (bytesOf text)).update [0xFF]) {}).finish

end Digest

end DepAtlas
