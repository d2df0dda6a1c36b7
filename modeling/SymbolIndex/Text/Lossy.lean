/-!
# Reading bytes as UTF-8

Bytes that are no UTF-8 are read all the same: every maximal part of a sequence that cannot be
completed becomes one replacement character.

* `Sequence`, `sequence`: what the bytes start with, a character or a part that is replaced;
* `decodeLossy`: the characters of a byte string;
* `decodeStrict`: the characters of a byte string that is UTF-8 throughout.
-/

namespace SymbolIndex.Text

/-- The character U+FFFD that stands for bytes that are no UTF-8. -/
def replacement : Char := '\uFFFD'

/-- The smallest and largest second byte that may follow a leading byte. -/
def secondRange (lead : UInt8) : UInt8 × UInt8 :=
  if lead == 0xE0 then (0xA0, 0xBF)
  else if lead == 0xED then (0x80, 0x9F)
  else if lead == 0xF0 then (0x90, 0xBF)
  else if lead == 0xF4 then (0x80, 0x8F)
  else (0x80, 0xBF)

/-- A byte that continues a sequence. -/
def isContinuation (b : UInt8) : Bool := 0x80 ≤ b && b ≤ 0xBF

/-- The low six bits of a continuation byte. -/
def low (b : UInt8) : Nat := b.toNat % 64

/-- The character or the broken part a byte string starts with: the character it reads as, if any,
and how many bytes follow the first. -/
def sequence (lead : UInt8) (rest : List UInt8) : Option Char × Nat :=
  if lead < 0x80 then (some (Char.ofNat lead.toNat), 0)
  else if 0xC2 ≤ lead && lead ≤ 0xDF then
    match rest with
    | b :: _ =>
      if isContinuation b then (some (Char.ofNat (lead.toNat % 32 * 64 + low b)), 1) else (none, 0)
    | [] => (none, 0)
  else if 0xE0 ≤ lead && lead ≤ 0xF4 then
    let (least, most) := secondRange lead
    match rest with
    | b :: after =>
      if least ≤ b && b ≤ most then
        match after with
        | c :: more =>
          if isContinuation c then
            if lead ≤ 0xEF then
              (some (Char.ofNat (lead.toNat % 16 * 4096 + low b * 64 + low c)), 2)
            else
              match more with
              | d :: _ =>
                if isContinuation d then
                  (some (Char.ofNat
                    (lead.toNat % 8 * 262144 + low b * 4096 + low c * 64 + low d)), 3)
                else (none, 2)
              | [] => (none, 2)
          else (none, 1)
        | [] => (none, 1)
      else (none, 0)
    | [] => (none, 0)
  else (none, 0)

/-- Decode `bytes` behind the characters in `done`, which are in reverse order. -/
def decodeLossyFrom (done : List Char) : List UInt8 → List Char
  | [] => done.reverse
  | lead :: rest =>
    let (c, used) := sequence lead rest
    decodeLossyFrom (c.getD replacement :: done) (rest.drop used)
termination_by bytes => bytes.length
decreasing_by simp only [List.length_drop, List.length_cons]; omega

/-- The characters of a byte string, with U+FFFD for every part that is no UTF-8. -/
def decodeLossy (bytes : ByteArray) : List Char := decodeLossyFrom [] bytes.data.toList

/-- The text of a byte string that is UTF-8 throughout. -/
def decodeStrict (bytes : ByteArray) : Option String := String.fromUTF8? bytes

end SymbolIndex.Text
