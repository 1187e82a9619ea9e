/-! The BLAKE2b hash of a list of octets, from 1 to 64 octets long. -/

namespace EventGateway.Secret

def octetsOf (n : Nat) (w : UInt64) : List UInt8 :=
  (List.range n).map fun i => (w >>> (8 * i).toUInt64).toUInt8

def octets32 (n : Nat) : List UInt8 := octetsOf 4 n.toUInt64

def wordOf (bytes : List UInt8) : UInt64 := bytes.foldr (fun b w => w <<< 8 ||| b.toUInt64) 0

def wordsOf : List UInt8 → List UInt64
  | a :: b :: c :: d :: e :: f :: g :: h :: r => wordOf [a, b, c, d, e, f, g, h] :: wordsOf r
  | [] => []
  | short => [wordOf short]

def rotateRight (w n : UInt64) : UInt64 := w >>> n ||| w <<< (64 - n)

namespace Blake2b

def initial : Array UInt64 :=
  #[0x6a09e667f3bcc908, 0xbb67ae8584caa73b, 0x3c6ef372fe94f82b, 0xa54ff53a5f1d36f1,
    0x510e527fade682d1, 0x9b05688c2b3e6c1f, 0x1f83d9abfb41bd6b, 0x5be0cd19137e2179]

/-- The order in which each round takes the words of the message. -/
def schedule : List (List Nat) :=
  [[0, 1, 2, 3, 4, 5, 6, 7, 8, 9, 10, 11, 12, 13, 14, 15],
    [14, 10, 4, 8, 9, 15, 13, 6, 1, 12, 0, 2, 11, 7, 5, 3],
    [11, 8, 12, 0, 5, 2, 15, 13, 10, 14, 3, 6, 7, 1, 9, 4],
    [7, 9, 3, 1, 13, 12, 11, 14, 2, 6, 5, 10, 4, 0, 15, 8],
    [9, 0, 5, 7, 2, 4, 10, 15, 14, 1, 11, 12, 6, 8, 3, 13],
    [2, 12, 6, 10, 0, 11, 8, 3, 4, 13, 7, 5, 15, 14, 1, 9],
    [12, 5, 1, 15, 14, 13, 4, 10, 0, 7, 6, 3, 9, 2, 8, 11],
    [13, 11, 7, 14, 12, 1, 3, 9, 5, 0, 15, 4, 8, 6, 2, 10],
    [6, 15, 14, 9, 11, 3, 0, 8, 12, 2, 13, 7, 1, 4, 10, 5],
    [10, 2, 8, 4, 7, 6, 1, 5, 15, 11, 9, 14, 3, 12, 13, 0],
    [0, 1, 2, 3, 4, 5, 6, 7, 8, 9, 10, 11, 12, 13, 14, 15],
    [14, 10, 4, 8, 9, 15, 13, 6, 1, 12, 0, 2, 11, 7, 5, 3]]

def quarters : List (Nat × Nat × Nat × Nat) :=
  [(0, 4, 8, 12), (1, 5, 9, 13), (2, 6, 10, 14), (3, 7, 11, 15),
    (0, 5, 10, 15), (1, 6, 11, 12), (2, 7, 8, 13), (3, 4, 9, 14)]

def mix (v : Array UInt64) (q : Nat × Nat × Nat × Nat) (x y : UInt64) : Array UInt64 :=
  let a := v.getD q.1 0 + v.getD q.2.1 0 + x
  let d := rotateRight (v.getD q.2.2.2 0 ^^^ a) 32
  let c := v.getD q.2.2.1 0 + d
  let b := rotateRight (v.getD q.2.1 0 ^^^ c) 24
  let a := a + b + y
  let d := rotateRight (d ^^^ a) 16
  let c := c + d
  let b := rotateRight (b ^^^ c) 63
  (((v.setIfInBounds q.1 a).setIfInBounds q.2.1 b).setIfInBounds q.2.2.1 c).setIfInBounds q.2.2.2 d

def round (m : Array UInt64) (v : Array UInt64) (order : List Nat) : Array UInt64 :=
  go quarters order v
where
  go : List (Nat × Nat × Nat × Nat) → List Nat → Array UInt64 → Array UInt64
  | q :: qs, i :: j :: r, v => go qs r (mix v q (m.getD i 0) (m.getD j 0))
  | _, _, v => v

/-- Takes in a block of which `count` octets end, the last one being marked. -/
def compress (h : Array UInt64) (block : List UInt8) (count : Nat) (last : Bool) : Array UInt64 :=
  let m := (wordsOf block).toArray
  let v := h ++ initial
  let v := v.setIfInBounds 12 (v.getD 12 0 ^^^ count.toUInt64)
  let v := if last then v.setIfInBounds 14 (~~~ v.getD 14 0) else v
  let v := schedule.foldl (round m) v
  h.mapIdx fun i w => w ^^^ v.getD i 0 ^^^ v.getD (i + 8) 0

def absorb (h : Array UInt64) (count : Nat) (bytes : List UInt8) : Array UInt64 :=
  if 128 < bytes.length then
    absorb (compress h (bytes.take 128) (count + 128) false) (count + 128) (bytes.drop 128)
  else compress h bytes (count + bytes.length) true
termination_by bytes.length
decreasing_by simp only [List.length_drop]; omega

def hash (length : Nat) (bytes : List UInt8) : List UInt8 :=
  let h := initial.setIfInBounds 0 (initial.getD 0 0 ^^^ 0x01010000 ^^^ length.toUInt64)
  ((absorb h 0 bytes).toList.flatMap (octetsOf 8)).take length

end Blake2b

end EventGateway.Secret
