import EventGateway.Proofs.Secret.Base64
import EventGateway.Secret.Stored

/-! Opening a new stored secret. No field of its text holds a dollar sign, so the text falls apart
into the fields it was made of. The hash function is a parameter: of the one that is used no more is
asked than that it tells the secret from every other. -/

namespace EventGateway.Secret

open Argon2

namespace Stored

theorem piecesAt_of_not_mem {separator : Char} {p : List Char} (h : separator ∉ p) :
    piecesAt separator p = [p] := by
  induction p with
  | nil => rfl
  | cons c p ih =>
    obtain ⟨hc, hp⟩ : separator ≠ c ∧ separator ∉ p := by simpa using h
    rw [piecesAt, if_neg (Ne.symm hc), ih hp]

theorem piecesAt_append {separator : Char} {p : List Char} (h : separator ∉ p) (r : List Char) :
    piecesAt separator (p ++ separator :: r) = p :: piecesAt separator r := by
  induction p with
  | nil => simp [piecesAt]
  | cons c p ih =>
    obtain ⟨hc, hp⟩ : separator ≠ c ∧ separator ∉ p := by simpa using h
    rw [List.cons_append, piecesAt, if_neg (Ne.symm hc), ih hp]

theorem dollar_not_mem_encode (bytes : List UInt8) : '$' ∉ Base64.encode bytes :=
  fun h => absurd (Base64.mem_encode h) (by decide)

theorem salt?_encode {salt : List UInt8} (hlow : 8 ≤ salt.length) (hhigh : salt.length ≤ 48) :
    salt? (Base64.encode salt) = some salt := by
  have hlength : ¬64 < (Base64.encode salt).length := by
    rw [Base64.length_encode]
    omega
  rw [salt?, if_neg hlength, Base64.decode_encode, Option.bind_some, if_pos hlow]

theorem hash?_encode {hash : List UInt8} (hlow : 10 ≤ hash.length) (hhigh : hash.length ≤ 64) :
    hash? (Base64.encode hash) = some hash := by
  rw [hash?, Base64.decode_encode, Option.bind_some, if_pos ⟨hlow, hhigh⟩]

theorem takeVersion?_standard (fields : List (List Char)) :
    takeVersion? ("v=19".toList :: fields) = some (.v19, fields) := rfl

theorem takeSettings?_standard (fields : List (List Char)) :
    takeSettings? ("m=19456,t=2,p=1".toList :: fields) = some ({}, fields) := rfl

theorem toList_render (salt hash : List UInt8) :
    (render ⟨Scheme.standard, [], salt, hash⟩).toList = [] ++ '$' :: ("argon2id".toList ++ '$' ::
      ("v=19".toList ++ '$' :: ("m=19456,t=2,p=1".toList ++ '$' ::
        (Base64.encode salt ++ '$' :: Base64.encode hash)))) := by
  have hname : algorithmName Scheme.standard.algorithm = "argon2id" := rfl
  have hversion : toString (versionNumber Scheme.standard.version) = "19" := by decide +kernel
  have hcost : renderCost Scheme.standard.cost = "m=19456,t=2,p=1" := by decide +kernel
  have hdata : renderData [] = "" := rfl
  simp only [render, hname, hversion, hcost, hdata, String.toList_append, String.toList_ofList]
  simp

theorem ofText?_render {salt hash : List UInt8} (hsalt : 8 ≤ salt.length ∧ salt.length ≤ 48)
    (hhash : 10 ≤ hash.length ∧ hash.length ≤ 64) :
    ofText? (render ⟨Scheme.standard, [], salt, hash⟩) = some ⟨Scheme.standard, [], salt, hash⟩ := by
  have hname : algorithm? "argon2id".toList = some .argon2id := rfl
  rw [ofText?, toList_render, piecesAt_append (by decide), piecesAt_append (by decide),
    piecesAt_append (by decide), piecesAt_append (by decide),
    piecesAt_append (dollar_not_mem_encode salt),
    piecesAt_of_not_mem (dollar_not_mem_encode hash), ofFields?, hname]
  simp only [Option.bind_eq_bind, Option.bind_some, takeVersion?_standard, takeSettings?_standard,
    salt?_encode hsalt.1 hsalt.2, hash?_encode hhash.1 hhash.2]
  rfl

end Stored

/-- Makes so many octets out of a secret, a salt and further data. -/
abbrev Digest := Scheme → Nat → List UInt8 → List UInt8 → List UInt8 → List UInt8

/-- No other secret has the same hash with this salt. -/
structure Digest.Tells (digest : Digest) (secret : String) (salt : List UInt8) : Prop where
  length : (digest Scheme.standard 32 (Text.toUtf8 secret) salt []).length = 32
  injective : ∀ b, digest Scheme.standard 32 b salt [] =
    digest Scheme.standard 32 (Text.toUtf8 secret) salt [] → b = Text.toUtf8 secret

/-- What is stored for a new secret. -/
def storedWith (digest : Digest) (salt : List UInt8) (secret : String) : String :=
  Stored.render ⟨Scheme.standard, [], salt, digest Scheme.standard 32 (Text.toUtf8 secret) salt []⟩

def opensWith (digest : Digest) (stored secret : String) : Bool :=
  match Stored.ofText? stored with
  | some s => digest s.scheme s.hash.length (Text.toUtf8 secret) s.salt s.data = s.hash
  | none => false

theorem render_ofSecret (secret : String) (salt : List UInt8) :
    (Stored.ofSecret secret salt).render = storedWith Argon2.hash salt secret := rfl

theorem opens_eq : opens = opensWith Argon2.hash := rfl

theorem toUtf8_injective {s t : String} (h : Text.toUtf8 s = Text.toUtf8 t) : s = t :=
  Option.some.inj (by rw [← Text.ofUtf8?_toUtf8 s, h, Text.ofUtf8?_toUtf8])

variable {digest : Digest} {secret : String} {salt : List UInt8}

theorem ofText?_storedWith (htells : digest.Tells secret salt)
    (hsalt : 8 ≤ salt.length ∧ salt.length ≤ 48) : Stored.ofText? (storedWith digest salt secret) =
      some ⟨Scheme.standard, [], salt, digest Scheme.standard 32 (Text.toUtf8 secret) salt []⟩ := by
  have hlength := htells.length
  exact Stored.ofText?_render hsalt (by omega)

theorem opensWith_storedWith (htells : digest.Tells secret salt)
    (hsalt : 8 ≤ salt.length ∧ salt.length ≤ 48) (p : String) :
    opensWith digest (storedWith digest salt secret) p = true ↔ p = secret := by
  simp only [opensWith, ofText?_storedWith htells hsalt, htells.length, decide_eq_true_eq]
  constructor
  · exact fun h => toUtf8_injective (htells.injective _ h)
  · rintro rfl
    rfl

theorem opensWith_none {stored : String} (h : Stored.ofText? stored = none) (p : String) :
    opensWith digest stored p = false := by
  simp [opensWith, h]

/-- What the secret `s` is stored as with a salt of zeros. -/
def storedS : String :=
  "$argon2id$v=19$m=19456,t=2,p=1$AAAAAAAAAAAAAAAAAAAAAA$o87XYc4hqzvvOmRlJ3pzwSp7rZyzgph5L1PQxV6XuNI"

/-- What the secret `hunter2` is stored as with the same salt. -/
def storedHunter : String :=
  "$argon2id$v=19$m=19456,t=2,p=1$AAAAAAAAAAAAAAAAAAAAAA$WonE/8h7kHQhNgCTLUG96jneOKVB6KBmUD/GT3HxbX8"

end EventGateway.Secret
