/-! Reading bytes as UTF-8. What is no character is cut into the longest beginnings of one. -/

namespace EventGateway.Text

/-- A character, or a run of bytes that begins one and is not completed. -/
inductive Chunk
  | char (c : Char)
  | broken (bytes : Nat)
  deriving DecidableEq, Repr

/-- A character begun: its bits so far, the bytes read and owed, the range of the next byte. -/
structure Begun where
  bits : Nat
  bytes : Nat
  owed : Nat
  low : UInt8
  high : UInt8

inductive Lead
  | char (c : Char)
  | begun (p : Begun)
  | stray

def lead (b : UInt8) : Lead :=
  if b < 0x80 then .char (Char.ofNat b.toNat)
  else if b < 0xc2 then .stray
  else if b < 0xe0 then .begun ⟨b.toNat - 0xc0, 1, 1, 0x80, 0xbf⟩
  else if b < 0xf0 then
    .begun ⟨b.toNat - 0xe0, 1, 2, if b = 0xe0 then 0xa0 else 0x80, if b = 0xed then 0x9f else 0xbf⟩
  else if b < 0xf5 then
    .begun ⟨b.toNat - 0xf0, 1, 3, if b = 0xf0 then 0x90 else 0x80, if b = 0xf4 then 0x8f else 0xbf⟩
  else .stray

def fresh (b : UInt8) : List Chunk × Option Begun :=
  match lead b with
  | .char c => ([.char c], none)
  | .begun p => ([], some p)
  | .stray => ([.broken 1], none)

def feed (p : Begun) (b : UInt8) : List Chunk × Option Begun :=
  if p.low ≤ b ∧ b ≤ p.high then
    let bits := p.bits * 64 + (b.toNat - 0x80)
    if p.owed ≤ 1 then ([.char (Char.ofNat bits)], none)
    else ([], some ⟨bits, p.bytes + 1, p.owed - 1, 0x80, 0xbf⟩)
  else
    let (out, next) := fresh b
    (.broken p.bytes :: out, next)

def chunksFrom : Option Begun → List UInt8 → List Chunk
  | none, [] => []
  | some p, [] => [.broken p.bytes]
  | none, b :: r => (fresh b).1 ++ chunksFrom (fresh b).2 r
  | some p, b :: r => (feed p b).1 ++ chunksFrom (feed p b).2 r

def chunks (bytes : List UInt8) : List Chunk := chunksFrom none bytes

def ofUtf8? (bytes : List UInt8) : Option String :=
  String.fromUTF8? ⟨bytes.toArray⟩

/-- The text with one replacement character for each broken run. -/
def ofUtf8Lossy (bytes : List UInt8) : String :=
  match ofUtf8? bytes with
  | some s => s
  | none =>
    String.ofList ((chunks bytes).map fun
      | .char c => c
      | .broken _ => '\ufffd')

def toUtf8 (s : String) : List UInt8 := s.toByteArray.data.toList

@[simp] theorem ofUtf8?_toUtf8 (s : String) : ofUtf8? (toUtf8 s) = some s := by
  simp [ofUtf8?, toUtf8, String.fromUTF8?, String.fromUTF8, s.isValidUTF8]

end EventGateway.Text
