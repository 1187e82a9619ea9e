import EventGateway.Secret.Blake2b

/-! The Argon2 hash: a memory of blocks is filled from the password and salt, each block from the
one before and one further back, and the last blocks give the hash. -/

namespace EventGateway.Secret

inductive Algorithm
  | argon2d
  | argon2i
  | argon2id
  deriving DecidableEq, Repr

inductive Version
  | v16
  | v19
  deriving DecidableEq, Repr

namespace Argon2

/-- What a hash costs: blocks of memory, passes over it, and lanes it is divided into. -/
structure Cost where
  memory : Nat
  passes : Nat
  lanes : Nat
  deriving DecidableEq, Repr

namespace Cost

def standard : Cost := ⟨19456, 2, 1⟩

/-- Every lane has four segments of at least two blocks. -/
def isValid (c : Cost) : Bool :=
  8 ≤ c.memory && 1 ≤ c.passes && 1 ≤ c.lanes && c.lanes < 0x1000000 && 8 * c.lanes ≤ c.memory

def segmentLength (c : Cost) : Nat := c.memory / (4 * c.lanes)

def laneLength (c : Cost) : Nat := 4 * c.segmentLength

end Cost

structure Scheme where
  algorithm : Algorithm
  version : Version
  cost : Cost
  deriving DecidableEq, Repr

namespace Scheme

def standard : Scheme := ⟨.argon2id, .v19, Cost.standard⟩

end Scheme

def algorithmNumber : Algorithm → Nat
  | .argon2d => 0
  | .argon2i => 1
  | .argon2id => 2

def versionNumber : Version → Nat
  | .v16 => 16
  | .v19 => 19

def counted (bytes : List UInt8) : List UInt8 := octets32 bytes.length ++ bytes

def longHash (length : Nat) (bytes : List UInt8) : List UInt8 :=
  let bytes := octets32 length ++ bytes
  if length ≤ 64 then Blake2b.hash length bytes
  else
    let n := (length + 31) / 32 - 2
    go n (Blake2b.hash 64 bytes)
where
  go : Nat → List UInt8 → List UInt8
  | 0, _ => []
  | 1, v => v.take 32 ++ Blake2b.hash (length - 32 * ((length + 31) / 32 - 2)) v
  | n + 1, v => v.take 32 ++ go n (Blake2b.hash 64 v)

abbrev Block := Array UInt64

def zeroBlock : Block := Array.replicate 128 0

def blockOf (bytes : List UInt8) : Block := (wordsOf bytes).toArray

def xorBlocks (a b : Block) : Block := a.zipWith (· ^^^ ·) b

@[inline] def addProduct (x y : UInt64) : UInt64 :=
  x + y + 2 * (x &&& 0xffffffff) * (y &&& 0xffffffff)

@[inline] def turn (w n : UInt64) : UInt64 := w >>> n ||| w <<< (64 - n)

@[inline] def mix {α : Type} (a b c d : UInt64) (k : UInt64 → UInt64 → UInt64 → UInt64 → α) : α :=
  let a := addProduct a b
  let d := turn (d ^^^ a) 32
  let c := addProduct c d
  let b := turn (b ^^^ c) 24
  let a := addProduct a b
  let d := turn (d ^^^ a) 16
  let c := addProduct c d
  let b := turn (b ^^^ c) 63
  k a b c d

def permute (m : Block) (base stride : Nat) : Block :=
  let at2 := base + stride
  let at4 := at2 + stride
  let at6 := at4 + stride
  let at8 := at6 + stride
  let at10 := at8 + stride
  let at12 := at10 + stride
  let at14 := at12 + stride
  mix (m.getD base 0) (m.getD at4 0) (m.getD at8 0) (m.getD at12 0) fun v0 v4 v8 v12 =>
  mix (m.getD (base + 1) 0) (m.getD (at4 + 1) 0) (m.getD (at8 + 1) 0) (m.getD (at12 + 1) 0)
    fun v1 v5 v9 v13 =>
  mix (m.getD at2 0) (m.getD at6 0) (m.getD at10 0) (m.getD at14 0) fun v2 v6 v10 v14 =>
  mix (m.getD (at2 + 1) 0) (m.getD (at6 + 1) 0) (m.getD (at10 + 1) 0) (m.getD (at14 + 1) 0)
    fun v3 v7 v11 v15 =>
  mix v0 v5 v10 v15 fun v0 v5 v10 v15 =>
  mix v1 v6 v11 v12 fun v1 v6 v11 v12 =>
  mix v2 v7 v8 v13 fun v2 v7 v8 v13 =>
  mix v3 v4 v9 v14 fun v3 v4 v9 v14 =>
    let m := (m.setIfInBounds base v0).setIfInBounds (base + 1) v1
    let m := (m.setIfInBounds at2 v2).setIfInBounds (at2 + 1) v3
    let m := (m.setIfInBounds at4 v4).setIfInBounds (at4 + 1) v5
    let m := (m.setIfInBounds at6 v6).setIfInBounds (at6 + 1) v7
    let m := (m.setIfInBounds at8 v8).setIfInBounds (at8 + 1) v9
    let m := (m.setIfInBounds at10 v10).setIfInBounds (at10 + 1) v11
    let m := (m.setIfInBounds at12 v12).setIfInBounds (at12 + 1) v13
    (m.setIfInBounds at14 v14).setIfInBounds (at14 + 1) v15

def permuteAll (m : Block) : Block :=
  let m := [0, 1, 2, 3, 4, 5, 6, 7].foldl (fun m i => permute m (16 * i) 2) m
  [0, 1, 2, 3, 4, 5, 6, 7].foldl (fun m i => permute m (2 * i) 16) m

def compress (x y : Block) : Block :=
  let r := xorBlocks x y
  xorBlocks (permuteAll r) r

structure Position where
  pass : Nat
  slice : Nat
  lane : Nat
  index : Nat

/-- Whether the blocks that are looked back at do not depend on the password. -/
def isAddressed (a : Algorithm) (pass slice : Nat) : Bool :=
  match a with
  | .argon2d => false
  | .argon2i => true
  | .argon2id => pass = 0 && slice < 2

def addresses (s : Scheme) (pass slice lane counter : Nat) : Block :=
  let blocks := s.cost.lanes * s.cost.laneLength
  let input := [pass, lane, slice, blocks, s.cost.passes, algorithmNumber s.algorithm, counter]
  let input := (input.map Nat.toUInt64).toArray ++ Array.replicate 121 0
  compress zeroBlock (compress zeroBlock input)

def areaSize (c : Cost) (p : Position) (sameLane : Bool) : Nat :=
  let finished := if p.pass = 0 then p.slice * c.segmentLength else 3 * c.segmentLength
  if sameLane then finished + p.index - 1
  else if p.index = 0 then finished - 1
  else finished

/-- The place in a lane that a random word chooses; nearer blocks are likelier. -/
def lookBack (c : Cost) (p : Position) (sameLane : Bool) (random : Nat) : Nat :=
  let area := areaSize c p sameLane
  let x := random * random / UInt32.size
  let back := area * x / UInt32.size
  let start := if p.pass = 0 then 0 else (p.slice + 1) * c.segmentLength
  (start + (area - 1 - back)) % c.laneLength

/-- Makes the block at a position, and writes it over the old one or, in a later pass of the newer
version, together with it. -/
def fillOne (s : Scheme) (memory : Array Block) (p : Position) (random : UInt64) : Array Block :=
  let c := s.cost
  let lane :=
    if p.pass = 0 ∧ p.slice = 0 then p.lane else (random >>> 32).toNat % c.lanes
  let place := lookBack c p (lane = p.lane) (random &&& 0xffffffff).toNat
  let column := p.slice * c.segmentLength + p.index
  let previous := (column + c.laneLength - 1) % c.laneLength
  let made := compress (memory.getD (p.lane * c.laneLength + previous) zeroBlock)
    (memory.getD (lane * c.laneLength + place) zeroBlock)
  let here := p.lane * c.laneLength + column
  let made :=
    if p.pass = 0 ∨ s.version = .v16 then made
    else xorBlocks made (memory.getD here zeroBlock)
  memory.setIfInBounds here made

def fillFrom (s : Scheme) (pass slice lane : Nat) :
    (n : Nat) → (index : Nat) → Block → Array Block → Array Block
  | 0, _, _, memory => memory
  | n + 1, index, current, memory =>
    let c := s.cost
    if isAddressed s.algorithm pass slice then
      let current :=
        if index % 128 = 0 then addresses s pass slice lane (index / 128 + 1) else current
      fillFrom s pass slice lane n (index + 1) current
        (fillOne s memory ⟨pass, slice, lane, index⟩ (current.getD (index % 128) 0))
    else
      let column := slice * c.segmentLength + index
      let previous := (column + c.laneLength - 1) % c.laneLength
      let random := (memory.getD (lane * c.laneLength + previous) zeroBlock).getD 0 0
      fillFrom s pass slice lane n (index + 1) current
        (fillOne s memory ⟨pass, slice, lane, index⟩ random)

/-- The first two blocks of a lane come from the password. -/
def fillSegment (s : Scheme) (pass slice : Nat) (memory : Array Block) (lane : Nat) :
    Array Block :=
  let first := if pass = 0 ∧ slice = 0 then 2 else 0
  let current :=
    if isAddressed s.algorithm pass slice then addresses s pass slice lane 1 else zeroBlock
  fillFrom s pass slice lane (s.cost.segmentLength - first) first current memory

def fillPass (s : Scheme) (memory : Array Block) (pass : Nat) : Array Block :=
  [0, 1, 2, 3].foldl (fun memory slice =>
    (List.range s.cost.lanes).foldl (fillSegment s pass slice) memory) memory

def seeded (s : Scheme) (seed : List UInt8) : Array Block :=
  let first (lane i : Nat) : Block := blockOf (longHash 1024 (seed ++ octets32 i ++ octets32 lane))
  (List.range s.cost.lanes).foldl (fun memory lane =>
    let start := lane * s.cost.laneLength
    (memory.setIfInBounds start (first lane 0)).setIfInBounds (start + 1) (first lane 1))
    (Array.replicate (s.cost.lanes * s.cost.laneLength) zeroBlock)

def seed (s : Scheme) (length : Nat) (password salt data : List UInt8) : List UInt8 :=
  Blake2b.hash 64 <|
    octets32 s.cost.lanes ++ octets32 length ++ octets32 s.cost.memory ++ octets32 s.cost.passes ++
      octets32 (versionNumber s.version) ++ octets32 (algorithmNumber s.algorithm) ++
      counted password ++ counted salt ++ counted [] ++ counted data

def hash (s : Scheme) (length : Nat) (password salt data : List UInt8) : List UInt8 :=
  let memory := (List.range s.cost.passes).foldl (fillPass s)
    (seeded s (seed s length password salt data))
  let last := (List.range s.cost.lanes).foldl (fun block lane =>
    xorBlocks block (memory.getD (lane * s.cost.laneLength + s.cost.laneLength - 1) zeroBlock))
    zeroBlock
  longHash length (last.toList.flatMap (octetsOf 8))

end Argon2

end EventGateway.Secret
