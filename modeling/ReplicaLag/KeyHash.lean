/-!
The hash by which keys are spread over shards: a keyed hash of 64 bits that folds full products of
two words. Equal keys have equal hashes, in every run.
-/

namespace ReplicaLag

namespace KeyHash

/-- Turns a word to the left; the amount counts modulo 64. -/
def rotate (x amount : UInt64) : UInt64 := (x <<< amount) ||| (x >>> (64 - amount))

/-- The two halves of the full product, combined. -/
def fold (a b : UInt64) : UInt64 :=
  let p := a.toNat * b.toNat
  UInt64.ofNat p ^^^ UInt64.ofNat (p / UInt64.size)

def multiplier : UInt64 := 6364136223846793005

/-- The word that starts the buffer and the word that pads it. -/
def bufferKey : UInt64 := 0x13198a2e03707344 ^^^ 0xbe5466cf34e90c6c

def padKey : UInt64 := 0x243f6a8885a308d3 ^^^ 0x452821e638d01377

/-- The words that mask the two halves of each block. -/
def leftKey : UInt64 := 0xa4093822299f31d0 ^^^ 0xc0ac29b7c97c50dd

def rightKey : UInt64 := 0x082efa98ec4e6c89 ^^^ 0x3f84d5b5b5470917

/-- The number that bytes denote, the least significant byte first. -/
def word (bytes : List UInt8) : UInt64 :=
  bytes.foldr (fun b w => (w <<< 8) ||| b.toUInt64) 0

def mix (buffer a b : UInt64) : UInt64 :=
  rotate ((buffer + padKey) ^^^ fold (a ^^^ leftKey) (b ^^^ rightKey)) 23

/-- Mixes the first eight bytes and the eight after them. -/
def mixBlock (buffer : UInt64) (bytes : List UInt8) : UInt64 :=
  mix buffer (word (bytes.take 8)) (word ((bytes.drop 8).take 8))

/-- Mixes blocks of sixteen bytes while more than sixteen are left. -/
def mixBlocks (buffer : UInt64) (bytes : List UInt8) : UInt64 :=
  if 16 < bytes.length then mixBlocks (mixBlock buffer bytes) (bytes.drop 16) else buffer
termination_by bytes.length
decreasing_by rw [List.length_drop]; omega

def lastBytes (n : Nat) (bytes : List UInt8) : List UInt8 := bytes.drop (bytes.length - n)

/-- Mixes a text in: long ones by blocks, short ones as two overlapping halves. -/
def absorb (buffer : UInt64) (bytes : List UInt8) : UInt64 :=
  let n := bytes.length
  let buffer := (buffer + UInt64.ofNat n) * multiplier
  let halves (k : Nat) := mix buffer (word (bytes.take k)) (word (lastBytes k bytes))
  if 16 < n then mixBlocks (mixBlock buffer (lastBytes 16 bytes)) bytes
  else if 8 < n then halves 8
  else if 4 ≤ n then halves 4
  else if 2 ≤ n then mix buffer (word (bytes.take 2)) (word (lastBytes 1 bytes))
  else mix buffer (word bytes) (word bytes)

end KeyHash

open KeyHash in
def keyHash (key : String) : UInt64 :=
  let buffer := absorb bufferKey key.toUTF8.toList
  let buffer := fold (0xff ^^^ buffer) multiplier
  rotate (fold buffer padKey) (buffer % 64)

end ReplicaLag
