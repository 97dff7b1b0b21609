/-!
# BLAKE3

The 256-bit hash of an octet sequence. The input is cut into chunks of 1024 octets, a chunk into
blocks of 64; each block is compressed into the chaining value of its chunk, and the chunks are
the leaves of a binary tree whose left parts hold the greatest power of two of chunks that leaves
something for the right.

* `leftChunks_pos`, `leftChunks_lt`: both parts of a split tree hold chunks, which is why the tree
  is finite.
-/

namespace HotComponents.Digest.Blake3

/-! ## Compression -/

/-- The eight words that every chaining starts from. -/
def start : Vector UInt32 8 :=
  #v[0x6A09E667, 0xBB67AE85, 0x3C6EF372, 0xA54FF53A, 0x510E527F, 0x9B05688C, 0x1F83D9AB, 0x5BE0CD19]

/-- The order in which the words of a block enter the next round. -/
def permutation : Vector (Fin 16) 16 := #v[2, 6, 3, 10, 7, 0, 4, 13, 1, 11, 12, 5, 9, 14, 15, 8]

/-- The bits of a word turned right by `n` places, for `n` from 1 to 31. -/
def rotateRight (w n : UInt32) : UInt32 := (w >>> n) ||| (w <<< (32 - n))

/-- One mixing of four words of the state with two words of the block. -/
def mix (v : Vector UInt32 16) (a b c d : Fin 16) (x y : UInt32) : Vector UInt32 16 :=
  let v := v.set a (v[a] + v[b] + x)
  let v := v.set d (rotateRight (v[d] ^^^ v[a]) 16)
  let v := v.set c (v[c] + v[d])
  let v := v.set b (rotateRight (v[b] ^^^ v[c]) 12)
  let v := v.set a (v[a] + v[b] + y)
  let v := v.set d (rotateRight (v[d] ^^^ v[a]) 8)
  let v := v.set c (v[c] + v[d])
  v.set b (rotateRight (v[b] ^^^ v[c]) 7)

/-- One round: the columns of the state, then its diagonals. -/
def round (v m : Vector UInt32 16) : Vector UInt32 16 :=
  let v := mix v 0 4 8 12 m[0] m[1]
  let v := mix v 1 5 9 13 m[2] m[3]
  let v := mix v 2 6 10 14 m[4] m[5]
  let v := mix v 3 7 11 15 m[6] m[7]
  let v := mix v 0 5 10 15 m[8] m[9]
  let v := mix v 1 6 11 12 m[10] m[11]
  let v := mix v 2 7 8 13 m[12] m[13]
  mix v 3 4 9 14 m[14] m[15]

/-- The words of a block in the order of the next round. -/
def permute (m : Vector UInt32 16) : Vector UInt32 16 := permutation.map fun i => m[i]

/-- `n` rounds, the block permuted between them. -/
def rounds : Nat → Vector UInt32 16 → Vector UInt32 16 → Vector UInt32 16
  | 0, v, _ => v
  | n + 1, v, m => rounds n (round v m) (permute m)

/-- What one compression takes: a chaining value, a block with its length, the number of the chunk
and the flags of the block's place. -/
structure Node where
  chaining : Vector UInt32 8
  block : Vector UInt32 16
  counter : Nat
  length : Nat
  flags : UInt32

/-- The first block of a chunk. -/
def chunkStart : UInt32 := 1

/-- The last block of a chunk. -/
def chunkEnd : UInt32 := 2

/-- A block that holds two chaining values. -/
def parentFlag : UInt32 := 4

/-- The node that gives the hash. -/
def rootFlag : UInt32 := 8

/-- The eight words that a node compresses to. -/
def Node.compress (node : Node) : Vector UInt32 8 :=
  let h := node.chaining
  let low := UInt32.ofNat node.counter
  let high := UInt32.ofNat (node.counter / UInt32.size)
  let v : Vector UInt32 16 :=
    #v[h[0], h[1], h[2], h[3], h[4], h[5], h[6], h[7], start[0], start[1], start[2], start[3],
      low, high, UInt32.ofNat node.length, node.flags]
  let v := rounds 7 v node.block
  #v[v[0] ^^^ v[8], v[1] ^^^ v[9], v[2] ^^^ v[10], v[3] ^^^ v[11], v[4] ^^^ v[12], v[5] ^^^ v[13],
    v[6] ^^^ v[14], v[7] ^^^ v[15]]

/-! ## Chunks -/

/-- The octet at a place, zero behind the end. -/
def octetAt (data : ByteArray) (stop i : Nat) : UInt32 :=
  if h : i < data.size ∧ i < stop then data[i].toUInt32 else 0

/-- The four octets from a place on as a word, the first octet lowest. -/
def wordAt (data : ByteArray) (stop i : Nat) : UInt32 :=
  octetAt data stop i ||| (octetAt data stop (i + 1) <<< 8) |||
    (octetAt data stop (i + 2) <<< 16) ||| (octetAt data stop (i + 3) <<< 24)

/-- The block from a place on, zeros behind `stop`. -/
def blockAt (data : ByteArray) (stop i : Nat) : Vector UInt32 16 :=
  Vector.ofFn fun k => wordAt data stop (i + 4 * k.val)

/-- The node of chunk `index`: its blocks but the last are compressed one into the next. -/
def chunkNode (data : ByteArray) (index : Nat) : Node :=
  let first := 1024 * index
  let stop := min data.size (first + 1024)
  let earlier := (stop - first - 1) / 64
  let flagsOf := fun i => if i = 0 then chunkStart else 0
  let chaining := (List.range earlier).foldl (fun h i =>
    Node.compress ⟨h, blockAt data stop (first + 64 * i), index, 64, flagsOf i⟩) start
  let last := first + 64 * earlier
  ⟨chaining, blockAt data stop last, index, stop - last, flagsOf earlier ||| chunkEnd⟩

/-! ## The tree -/

/-- The chunks of the left part of a tree of `n` chunks. -/
def leftChunks (n : Nat) : Nat := Nat.pow 2 (n - 1).log2

theorem leftChunks_pos (n : Nat) : 0 < leftChunks n := Nat.two_pow_pos _

theorem leftChunks_lt {n : Nat} (h : 1 < n) : leftChunks n < n := by
  have : leftChunks n ≤ n - 1 := Nat.log2_self_le (by omega)
  omega

/-- The node over two chaining values. -/
def parentNode (left right : Vector UInt32 8) : Node :=
  ⟨start, left ++ right, 0, 64, parentFlag⟩

/-- The node over `n` chunks from chunk `first` on. -/
def treeNode (data : ByteArray) (first n : Nat) : Node :=
  if 1 < n then
    parentNode (treeNode data first (leftChunks n)).compress
      (treeNode data (first + leftChunks n) (n - leftChunks n)).compress
  else chunkNode data first
termination_by n
decreasing_by
  · exact leftChunks_lt ‹_›
  · have := leftChunks_pos n; omega

/-- The octets of a word, the lowest first. -/
def wordOctets (w : UInt32) : List UInt8 :=
  [w.toUInt8, (w >>> 8).toUInt8, (w >>> 16).toUInt8, (w >>> 24).toUInt8]

/-- The 32 octets of the hash. -/
def hash (data : ByteArray) : List UInt8 :=
  let node := treeNode data 0 ((data.size + 1023) / 1024)
  let root := { node with flags := node.flags ||| rootFlag }
  root.compress.toList.flatMap wordOctets

end HotComponents.Digest.Blake3
