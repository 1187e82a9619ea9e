import EventGateway.Secret.Argon2
import EventGateway.Secret.Base64
import EventGateway.Text.Utf8

/-! Stored secrets: a hash with all that is needed to make it again, as one line of text. -/

namespace EventGateway.Secret

open Argon2

structure Stored where
  scheme : Scheme
  data : List UInt8 := []
  salt : List UInt8
  hash : List UInt8
  deriving DecidableEq, Repr

namespace Stored

def algorithmName : Algorithm → String
  | .argon2d => "argon2d"
  | .argon2i => "argon2i"
  | .argon2id => "argon2id"

def algorithm? (s : List Char) : Option Algorithm :=
  [Algorithm.argon2d, .argon2i, .argon2id].find? fun a => (algorithmName a).toList = s

def version? (n : Nat) : Option Version :=
  [Version.v16, .v19].find? fun v => versionNumber v = n

def piecesAt (separator : Char) : List Char → List (List Char)
  | [] => [[]]
  | c :: r =>
    if c = separator then [] :: piecesAt separator r
    else
      match piecesAt separator r with
      | [] => [[c]]
      | p :: ps => (c :: p) :: ps

def isValueChar (c : Char) : Bool := c.isAlphanum || c ∈ ['/', '+', '.', '-']

def decimal? (s : List Char) : Option Nat :=
  if s.isEmpty || !s.all Char.isDigit || (s.head? = some '0' && 1 < s.length) then none
  else
    let n := s.foldl (fun n c => n * 10 + (c.toNat - '0'.toNat)) 0
    if n < UInt32.size then some n else none

structure Settings where
  cost : Cost := Cost.standard
  data : List UInt8 := []

def setting? (s : Settings) (name value : List Char) : Option Settings :=
  if 64 < value.length || !value.all isValueChar then none
  else if name = ['m'] then (decimal? value).map fun n => { s with cost.memory := n }
  else if name = ['t'] then (decimal? value).map fun n => { s with cost.passes := n }
  else if name = ['p'] then (decimal? value).map fun n => { s with cost.lanes := n }
  else if name = "keyid".toList then
    (Base64.decode value).bind fun b => if b.length ≤ 8 then some s else none
  else if name = "data".toList then
    (Base64.decode value).bind fun b => if b.length ≤ 32 then some { s with data := b } else none
  else none

/-- Settings in order; a later one replaces an earlier one of its name. -/
def settings? (s : List Char) : Option Settings :=
  if 127 < s.length then none
  else (piecesAt ',' s).foldlM (fun s p =>
    match piecesAt '=' p with
    | [name, value] => setting? s name value
    | _ => none) {}

def takeVersion? : List (List Char) → Option (Version × List (List Char))
  | [] => some (.v19, [])
  | f :: fs =>
    if ['v', '='].isPrefixOf f && !f.contains ',' then
      ((decimal? (f.drop 2)).bind version?).map fun v => (v, fs)
    else some (.v19, f :: fs)

def takeSettings? : List (List Char) → Option (Settings × List (List Char))
  | [] => some ({}, [])
  | f :: fs =>
    if f.contains '=' then (settings? f).map fun s => (s, fs)
    else some ({}, f :: fs)

def salt? (s : List Char) : Option (List UInt8) :=
  if 64 < s.length then none
  else (Base64.decode s).bind fun b => if 8 ≤ b.length then some b else none

def hash? (s : List Char) : Option (List UInt8) :=
  (Base64.decode s).bind fun b => if 10 ≤ b.length ∧ b.length ≤ 64 then some b else none

/-- The version and the parameters may be left out, the salt and the hash may not. -/
def ofFields? : List (List Char) → Option Stored
  | [] :: name :: fields => do
    let algorithm ← algorithm? name
    let (version, fields) ← takeVersion? fields
    let (settings, fields) ← takeSettings? fields
    match fields with
    | [salt, hash] => do
      let salt ← salt? salt
      let hash ← hash? hash
      if settings.cost.isValid then
        pure ⟨⟨algorithm, version, settings.cost⟩, settings.data, salt, hash⟩
      else none
    | _ => none
  | _ => none

def ofText? (s : String) : Option Stored := ofFields? (piecesAt '$' s.toList)

def renderCost (c : Cost) : String :=
  "m=" ++ toString c.memory ++ ",t=" ++ toString c.passes ++ ",p=" ++ toString c.lanes

def renderData (data : List UInt8) : String :=
  if data.isEmpty then "" else ",data=" ++ String.ofList (Base64.encode data)

def render (s : Stored) : String :=
  "$" ++ algorithmName s.scheme.algorithm ++ "$v=" ++ toString (versionNumber s.scheme.version) ++
    "$" ++ renderCost s.scheme.cost ++ renderData s.data ++
    "$" ++ String.ofList (Base64.encode s.salt) ++ "$" ++ String.ofList (Base64.encode s.hash)

def verifies (s : Stored) (secret : String) : Bool :=
  Argon2.hash s.scheme s.hash.length (Text.toUtf8 secret) s.salt s.data = s.hash

def ofSecret (secret : String) (salt : List UInt8) : Stored where
  scheme := Scheme.standard
  salt := salt
  hash := Argon2.hash Scheme.standard 32 (Text.toUtf8 secret) salt []

end Stored

/-- Whether a secret opens a stored text. A text that is no stored secret is opened by none. -/
def opens (stored secret : String) : Bool :=
  match Stored.ofText? stored with
  | some s => s.verifies secret
  | none => false

end EventGateway.Secret
