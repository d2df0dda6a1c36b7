/-!
# BLAKE3

The hash function BLAKE3 without a key, cut to its usual 32 bytes. The input is cut into chunks of
1024 bytes and blocks of 64; the chunks are the leaves of a binary tree whose left subtrees are full.

* `compress`: the compression function on sixteen words;
* `Output`: a node of the tree before its last compression;
* `digest`, `hex`: the hash of a byte string, as bytes and as digits.
-/

namespace SymbolIndex.Blake3

/-- Eight words that are handed from one compression to the next. -/
abbrev Chaining := Vector UInt32 8

/-- Sixteen words of message or state. -/
abbrev Words := Vector UInt32 16

/-- The words that every chunk starts from. -/
def initial : Chaining :=
  #v[0x6A09E667, 0xBB67AE85, 0x3C6EF372, 0xA54FF53A, 0x510E527F, 0x9B05688C, 0x1F83D9AB, 0x5BE0CD19]

/-- Turn a word to the right. -/
def rotate (w : UInt32) (n : UInt32) : UInt32 := (w >>> n) ||| (w <<< (32 - n))

/-- Mix two words of the message into four words of the state. -/
def mix (s : Words) (a b c d : Fin 16) (x y : UInt32) : Words :=
  let s := s.set a (s[a] + s[b] + x)
  let s := s.set d (rotate (s[d] ^^^ s[a]) 16)
  let s := s.set c (s[c] + s[d])
  let s := s.set b (rotate (s[b] ^^^ s[c]) 12)
  let s := s.set a (s[a] + s[b] + y)
  let s := s.set d (rotate (s[d] ^^^ s[a]) 8)
  let s := s.set c (s[c] + s[d])
  s.set b (rotate (s[b] ^^^ s[c]) 7)

/-- Mix the whole message into the columns and then into the diagonals of the state. -/
def round (s m : Words) : Words :=
  let s := mix s 0 4 8 12 m[0] m[1]
  let s := mix s 1 5 9 13 m[2] m[3]
  let s := mix s 2 6 10 14 m[4] m[5]
  let s := mix s 3 7 11 15 m[6] m[7]
  let s := mix s 0 5 10 15 m[8] m[9]
  let s := mix s 1 6 11 12 m[10] m[11]
  let s := mix s 2 7 8 13 m[12] m[13]
  mix s 3 4 9 14 m[14] m[15]

/-- The order of the message's words in the next round. -/
def permute (m : Words) : Words :=
  #v[m[2], m[6], m[3], m[10], m[7], m[0], m[4], m[13],
    m[1], m[11], m[12], m[5], m[9], m[14], m[15], m[8]]

/-- So many rounds, the message permuted between two of them. -/
def rounds : Nat → Words → Words → Words
  | 0, s, _ => s
  | n + 1, s, m => rounds n (round s m) (permute m)

/-- What a block is: the first or last of its chunk, a pair of nodes, the root of the tree. -/
structure Flags where
  chunkStart : Bool := false
  chunkEnd : Bool := false
  parent : Bool := false
  root : Bool := false

def Flags.word (f : Flags) : UInt32 :=
  (if f.chunkStart then 1 else 0) ||| (if f.chunkEnd then 2 else 0) |||
    (if f.parent then 4 else 0) ||| (if f.root then 8 else 0)

/-- Compress a block of `size` bytes; `counter` numbers the chunk it belongs to. -/
def compress (h : Chaining) (m : Words) (counter : UInt64) (size : UInt32) (flags : Flags) :
    Chaining :=
  let s : Words :=
    #v[h[0], h[1], h[2], h[3], h[4], h[5], h[6], h[7], initial[0], initial[1], initial[2],
      initial[3], counter.toUInt32, (counter >>> 32).toUInt32, size, flags.word]
  let s := rounds 7 s m
  #v[s[0] ^^^ s[8], s[1] ^^^ s[9], s[2] ^^^ s[10], s[3] ^^^ s[11], s[4] ^^^ s[12],
    s[5] ^^^ s[13], s[6] ^^^ s[14], s[7] ^^^ s[15]]

/-- The word of the four bytes from position `4 * i` on, the lowest byte first; bytes that are not
there are zero. -/
def word (block : Array UInt8) (i : Nat) : UInt32 :=
  let byte (j : Nat) : UInt32 := (block.getD (4 * i + j) 0).toUInt32
  byte 0 ||| (byte 1 <<< 8) ||| (byte 2 <<< 16) ||| (byte 3 <<< 24)

def blockWords (block : List UInt8) : Words :=
  let bytes := block.toArray
  Vector.ofFn fun i => word bytes i.val

/-- A node of the tree before its last compression, which differs for the root. -/
structure Output where
  chaining : Chaining
  block : Words
  counter : UInt64
  size : UInt32
  flags : Flags

/-- The words a node hands to the node above. -/
def Output.value (o : Output) : Chaining := compress o.chaining o.block o.counter o.size o.flags

def Output.rootValue (o : Output) : Chaining :=
  compress o.chaining o.block 0 o.size { o.flags with root := true }

/-- Cut a list into parts of `size` elements; the last part may be shorter. -/
def parts (size : Nat) (bytes : List UInt8) : List (List UInt8) :=
  (List.range ((bytes.length + size - 1) / size)).map fun i => (bytes.drop (i * size)).take size

/-- The blocks of a chunk from some block on. -/
def chunkFrom (counter : UInt64) (h : Chaining) (first : Bool) : List (List UInt8) → Output
  | [] => ⟨h, blockWords [], counter, 0, { chunkStart := first, chunkEnd := true }⟩
  | [block] =>
    ⟨h, blockWords block, counter, UInt32.ofNat block.length,
      { chunkStart := first, chunkEnd := true }⟩
  | block :: blocks =>
    let h := compress h (blockWords block) counter (UInt32.ofNat block.length)
      { chunkStart := first }
    chunkFrom counter h false blocks

/-- A leaf of the tree. -/
def chunk (counter : Nat) (bytes : List UInt8) : Output :=
  chunkFrom (UInt64.ofNat counter) initial true (parts 64 bytes)

/-- The node above two nodes. -/
def pair (left right : Chaining) : Output :=
  ⟨initial, left ++ right, 0, 64, { parent := true }⟩

/-- The tree over the chunks from number `counter` on. -/
def tree (counter : Nat) (chunks : List (List UInt8)) : Output :=
  if _h : chunks.length ≤ 1 then chunk counter (chunks.headD [])
  else
    let left := 1 <<< (chunks.length - 1).log2
    pair (tree counter (chunks.take left)).value (tree (counter + left) (chunks.drop left)).value
termination_by chunks.length
decreasing_by
  · have := Nat.log2_self_le (show chunks.length - 1 ≠ 0 by omega)
    simp only [List.length_take, Nat.one_shiftLeft]; omega
  · have := Nat.two_pow_pos (chunks.length - 1).log2
    simp only [List.length_drop, Nat.one_shiftLeft]; omega

/-- The hash of a byte string. -/
def digest (bytes : List UInt8) : List UInt8 :=
  (tree 0 (parts 1024 bytes)).rootValue.toList.flatMap fun (w : UInt32) =>
    [w.toUInt8, (w >>> 8).toUInt8, (w >>> 16).toUInt8, (w >>> 24).toUInt8]

/-- The digit of a number below sixteen. -/
def hexDigit (n : Nat) : Char := "0123456789abcdef".toList.getD n '0'

/-- The hash of a byte string in hexadecimal digits. -/
def hex (bytes : List UInt8) : String :=
  String.ofList <| (digest bytes).flatMap fun b => [hexDigit (b.toNat / 16), hexDigit (b.toNat % 16)]

end SymbolIndex.Blake3
