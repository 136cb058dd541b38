/-!
The random stream: 64-bit words out of the blocks of a ChaCha cipher of eight rounds, under a key
that is drawn out of a 64-bit seed. One seed always gives one stream.
-/

namespace ReplicaLag

namespace ChaCha

structure Row where
  w0 : UInt32
  w1 : UInt32
  w2 : UInt32
  w3 : UInt32
  deriving DecidableEq, Repr

namespace Row

def zip (f : UInt32 → UInt32 → UInt32) (a b : Row) : Row :=
  ⟨f a.w0 b.w0, f a.w1 b.w1, f a.w2 b.w2, f a.w3 b.w3⟩

def map (f : UInt32 → UInt32) (a : Row) : Row := ⟨f a.w0, f a.w1, f a.w2, f a.w3⟩

/-- The row with its first word moved to the end. -/
def shift (a : Row) : Row := ⟨a.w1, a.w2, a.w3, a.w0⟩

def toList (a : Row) : List UInt32 := [a.w0, a.w1, a.w2, a.w3]

end Row

structure State where
  a : Row
  b : Row
  c : Row
  d : Row
  deriving DecidableEq, Repr

def rotate (amount x : UInt32) : UInt32 := (x <<< amount) ||| (x >>> (32 - amount))

namespace State

def zip (f : UInt32 → UInt32 → UInt32) (s t : State) : State :=
  ⟨s.a.zip f t.a, s.b.zip f t.b, s.c.zip f t.c, s.d.zip f t.d⟩

def toList (s : State) : List UInt32 := s.a.toList ++ s.b.toList ++ s.c.toList ++ s.d.toList

/-- Adds, mixes and turns the words of each column. -/
def round (s : State) : State :=
  let a := s.a.zip (· + ·) s.b
  let d := (s.d.zip (· ^^^ ·) a).map (rotate 16)
  let c := s.c.zip (· + ·) d
  let b := (s.b.zip (· ^^^ ·) c).map (rotate 12)
  let a := a.zip (· + ·) b
  let d := (d.zip (· ^^^ ·) a).map (rotate 8)
  let c := c.zip (· + ·) d
  let b := (b.zip (· ^^^ ·) c).map (rotate 7)
  ⟨a, b, c, d⟩

def slant (s : State) : State := ⟨s.a, s.b.shift, s.c.shift.shift, s.d.shift.shift.shift⟩

def straighten (s : State) : State := ⟨s.a, s.b.shift.shift.shift, s.c.shift.shift, s.d.shift⟩

/-- A round on the columns and one on the diagonals. -/
def doubleRound (s : State) : State := s.round.slant.round.straighten

end State

structure Key where
  b : Row
  c : Row
  deriving DecidableEq, Repr

/-- The state that the block of some number starts from. -/
def Key.start (k : Key) (block : UInt64) : State where
  a := ⟨0x61707865, 0x3320646e, 0x79622d32, 0x6b206574⟩
  b := k.b
  c := k.c
  d := ⟨block.toUInt32, (block >>> 32).toUInt32, 0, 0⟩

/-- Words in pairs, the lower half first. -/
def pairs : List UInt32 → List UInt64
  | x :: y :: r => (x.toUInt64 ||| (y.toUInt64 <<< 32)) :: pairs r
  | _ => []

def Key.block (k : Key) (block : UInt64) : List UInt64 :=
  let s := k.start block
  pairs ((s.doubleRound.doubleRound.doubleRound.doubleRound.zip (· + ·) s).toList)

/-- One step of the generator that draws a key out of a seed: a word and the next state. -/
def seedStep (state : UInt64) : UInt32 × UInt64 :=
  let state := state * 6364136223846793005 + 11634580027462260723
  let x := (((state >>> 18) ^^^ state) >>> 27).toUInt32
  let turn := (state >>> 59).toUInt32
  ((x >>> turn) ||| (x <<< (32 - turn)), state)

def seedRow (s : UInt64) : Row × UInt64 :=
  let (w0, s) := seedStep s
  let (w1, s) := seedStep s
  let (w2, s) := seedStep s
  let (w3, s) := seedStep s
  (⟨w0, w1, w2, w3⟩, s)

def Key.ofSeed (seed : UInt64) : Key :=
  let (b, s) := seedRow seed
  ⟨b, (seedRow s).1⟩

/-- The stream of words: those left of the current block, and the number of the next block. -/
structure Stream where
  key : Key
  pending : List UInt64
  block : UInt64
  deriving Repr

namespace Stream

def ofSeed (seed : UInt64) : Stream := ⟨.ofSeed seed, [], 0⟩

def next (s : Stream) : UInt64 × Stream :=
  match s.pending with
  | w :: rest => (w, { s with pending := rest })
  | [] =>
    match s.key.block s.block with
    | w :: rest => (w, { s with pending := rest, block := s.block + 1 })
    | [] => (0, { s with block := s.block + 1 })

end Stream

end ChaCha

end ReplicaLag
