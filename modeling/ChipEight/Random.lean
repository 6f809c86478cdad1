import ChipEight.Word

/-!
The source of random bytes: the Mersenne Twister with a period of 2^19937 - 1, seeded with an
integer through the generator's own seeding by a list of words. A random byte takes the top nine
bits of one output and tries again until they are below 256, so each byte is equally likely.
-/

namespace ChipEight

namespace Twister

/-- The words of the generator, one block of outputs. -/
abbrev Block := Vector UInt32 624

/-- The mixing step that all three seeding passes share. -/
def spread (w : UInt32) : UInt32 := w ^^^ (w >>> 30)

def grow (seed : UInt32) : Block :=
  (List.range 623).foldl
    (fun b k =>
      let i := Fin.ofNat 624 (k + 1)
      b.set i (1812433253 * spread (b.get (i - 1)) + UInt32.ofNat (k + 1)))
    (Vector.replicate 624 seed)

/-- Writes one word of a seeding pass and goes to the next place. Place 0 takes part as a copy of
the last word only. -/
def put (s : Block × Fin 624) (w : UInt32) : Block × Fin 624 :=
  let b := s.1.set s.2 w
  if s.2 = 623 then (b.set 0 w, 1) else (b, s.2 + 1)

/-- One step of the pass that mixes the seed's words in. -/
def mixWord (key : List UInt32) (s : Block × Fin 624) (k : Nat) : Block × Fin 624 :=
  let j := k % key.length
  put s ((s.1.get s.2 ^^^ (spread (s.1.get (s.2 - 1)) * 1664525)) + key.getD j 0 + UInt32.ofNat j)

/-- One step of the pass that mixes the places in. -/
def mixPlace (s : Block × Fin 624) : Block × Fin 624 :=
  put s ((s.1.get s.2 ^^^ (spread (s.1.get (s.2 - 1)) * 1566083941)) - UInt32.ofNat s.2.val)

def seeded (key : List UInt32) : Block :=
  let mixed := (List.range (max 624 key.length)).foldl (mixWord key) (grow 19650218, 1)
  let settled := (List.range 623).foldl (fun s _ => mixPlace s) mixed
  settled.1.set 0 0x80000000

/-- The words of a number in base 2^32, lowest first. -/
def words (n : Nat) : List UInt32 :=
  if n < 0x100000000 then [UInt32.ofNat n]
  else UInt32.ofNat n :: words (n / 0x100000000)
termination_by n
decreasing_by omega

/-- One word of the next block, computed from three words of the block as it stands. -/
def renewWord (b : Block) (i : Fin 624) : Block :=
  let y := (b.get i &&& 0x80000000) ||| (b.get (i + 1) &&& 0x7FFFFFFF)
  b.set i (b.get (i + 397) ^^^ (y >>> 1) ^^^ (if y &&& 1 = 1 then 0x9908B0DF else 0))

def renew (b : Block) : Block := (List.finRange 624).foldl renewWord b

/-- The output made from a word of the block. -/
def temper (w : UInt32) : UInt32 :=
  let w := w ^^^ (w >>> 11)
  let w := w ^^^ ((w <<< 7) &&& 0x9D2C5680)
  let w := w ^^^ ((w <<< 15) &&& 0xEFC60000)
  w ^^^ (w >>> 18)

end Twister

/-- A source of random bytes: a block of words and the number of them that are used up. -/
structure Generator where
  block : Twister.Block
  used : Nat
deriving DecidableEq

namespace Generator

/-- The generator of a seed; the sign of the seed does not count. -/
def ofSeed (seed : Int) : Generator := ⟨Twister.seeded (Twister.words seed.natAbs), 624⟩

def next (g : Generator) : UInt32 × Generator :=
  if h : g.used < 624 then
    (Twister.temper (g.block.get ⟨g.used, h⟩), { g with used := g.used + 1 })
  else
    let block := Twister.renew g.block
    (Twister.temper (block.get 0), ⟨block, 1⟩)

/-- The first of the next `tries` outputs whose top nine bits are below 256. -/
def byteWithin : (tries : Nat) → Generator → Byte × Generator
  | 0, g => (0, g)
  | tries + 1, g =>
    let (w, g) := g.next
    let r := (w >>> 23).toNat
    if r < 256 then (BitVec.ofNat 8 r, g) else byteWithin tries g

/-- The next random byte. The top bits of the outputs form a linear recurring sequence of order
19937, in which a run of ones is no longer than the order, so the tries never run out. -/
def byte (g : Generator) : Byte × Generator := g.byteWithin 19938

end Generator

end ChipEight
