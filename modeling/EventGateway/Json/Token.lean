import EventGateway.Json.Error
import EventGateway.Text.Utf8

/-! The tokens of a JSON text. A word, number or string that is not completed is a token too and
the last one, so that whoever meets it says what is wrong. -/

namespace EventGateway.Json

/-- One character of a text; `none` is a byte that belongs to no character. -/
abbrev Glyph := Option Char

namespace Glyph

def size : Glyph → Nat
  | some c => c.utf8Size
  | none => 1

def isSpace (g : Glyph) : Bool :=
  g = some ' ' ∨ g = some '\n' ∨ g = some '\t' ∨ g = some '\r'

def isDigit : Glyph → Bool
  | some c => c.isDigit
  | none => false

end Glyph

def glyphs (s : String) : List Glyph := s.toList.map some

/-- The glyphs of a body: its characters, with every byte of a broken run by itself. -/
def glyphsOfBytes (bytes : List UInt8) : List Glyph :=
  match Text.ofUtf8? bytes with
  | some s => glyphs s
  | none =>
    (Text.chunks bytes).flatMap fun
      | .char c => [some c]
      | .broken n => List.replicate n none

/-- A piece of a string: a character, the unit of a hex escape, or a broken byte. -/
inductive Piece
  | char (c : Char)
  | unit (n : Nat)
  | broken
  deriving DecidableEq, Repr

/-- How a string ends: by its quote, or by what cuts it short. -/
inductive StringEnd
  | closed
  | cut
  | control
  | badEscape
  | badHex
  deriving DecidableEq, Repr

structure StringToken where
  pieces : List Piece
  ending : StringEnd
  deriving DecidableEq, Repr

def StringToken.push (p : Piece) (t : StringToken × List Glyph) : StringToken × List Glyph :=
  (⟨p :: t.1.pieces, t.1.ending⟩, t.2)

def letterMeaning? (c : Char) : Option Char :=
  if c = '"' then some '"'
  else if c = '\\' then some '\\'
  else if c = '/' then some '/'
  else if c = 'b' then some '\x08'
  else if c = 'f' then some '\x0c'
  else if c = 'n' then some '\n'
  else if c = 'r' then some '\r'
  else if c = 't' then some '\t'
  else none

def hexDigit? (c : Char) : Option Nat :=
  if '0' ≤ c ∧ c ≤ '9' then some (c.toNat - '0'.toNat)
  else if 'a' ≤ c ∧ c ≤ 'f' then some (c.toNat - 'a'.toNat + 10)
  else if 'A' ≤ c ∧ c ≤ 'F' then some (c.toNat - 'A'.toNat + 10)
  else none

def hexUnit? (a b c d : Char) : Option Nat :=
  match hexDigit? a, hexDigit? b, hexDigit? c, hexDigit? d with
  | some a, some b, some c, some d => some (((a * 16 + b) * 16 + c) * 16 + d)
  | _, _, _, _ => none

/-- Four bytes are taken as hex digits; fewer are an end of the text. -/
def shortHex (rest : List Glyph) : StringEnd :=
  if rest.foldl (fun n g => n + Glyph.size g) 0 < 4 then .cut else .badHex

def scanString : List Glyph → StringToken × List Glyph
  | [] => (⟨[], .cut⟩, [])
  | none :: r => StringToken.push .broken (scanString r)
  | some c :: r =>
    if c = '"' then (⟨[], .closed⟩, r)
    else if c = '\\' then
      match r with
      | [] => (⟨[], .cut⟩, [])
      | none :: _ => (⟨[], .badEscape⟩, [])
      | some e :: r =>
        if e = 'u' then
          match r with
          | some a :: some b :: some c :: some d :: r =>
            match hexUnit? a b c d with
            | some n => StringToken.push (.unit n) (scanString r)
            | none => (⟨[], .badHex⟩, [])
          | r => (⟨[], shortHex r⟩, [])
        else
          match letterMeaning? e with
          | some m => StringToken.push (.char m) (scanString r)
          | none => (⟨[], .badEscape⟩, [])
    else if c < ' ' then (⟨[], .control⟩, [])
    else StringToken.push (.char c) (scanString r)

inductive NumberEnd
  | complete
  | wrong
  | cut
  deriving DecidableEq, Repr

/-- A number as written. The exponent carries whether its sign is a minus. -/
structure NumberToken where
  negative : Bool
  whole : List Char
  fraction : Option (List Char)
  exponent : Option (Bool × List Char)
  ending : NumberEnd
  deriving DecidableEq, Repr

def spanDigits (s : List Glyph) : List Char × List Glyph :=
  ((s.takeWhile Glyph.isDigit).filterMap id, s.dropWhile Glyph.isDigit)

def stopAt (rest : List Glyph) : NumberEnd := if rest.isEmpty then .cut else .wrong

def spanSign : List Glyph → Bool × List Glyph
  | some c :: r => if c = '-' then (true, r) else if c = '+' then (false, r) else (false, some c :: r)
  | r => (false, r)

def scanExponent (t : NumberToken) : List Glyph → NumberToken × List Glyph
  | some c :: r =>
    if c = 'e' ∨ c = 'E' then
      let sign := spanSign r
      let digits := spanDigits sign.2
      if digits.1.isEmpty then ({ t with ending := stopAt digits.2 }, [])
      else ({ t with exponent := some (sign.1, digits.1) }, digits.2)
    else (t, some c :: r)
  | r => (t, r)

def scanFraction (t : NumberToken) : List Glyph → NumberToken × List Glyph
  | some c :: r =>
    if c = '.' then
      let digits := spanDigits r
      if digits.1.isEmpty then ({ t with ending := stopAt digits.2 }, [])
      else scanExponent { t with fraction := some digits.1 } digits.2
    else scanExponent t (some c :: r)
  | r => scanExponent t r

def scanNumber (negative : Bool) (s : List Glyph) : NumberToken × List Glyph :=
  let digits := spanDigits s
  let t : NumberToken := ⟨negative, digits.1, none, none, .complete⟩
  if digits.1.isEmpty then ({ t with ending := stopAt digits.2 }, [])
  else if digits.1.head? = some '0' ∧ 1 < digits.1.length then ({ t with ending := .wrong }, [])
  else scanFraction t digits.2

inductive Token
  | openBrace
  | closeBrace
  | openBracket
  | closeBracket
  | colon
  | comma
  | null
  | bool (b : Bool)
  | word (cut : Bool)
  | number (n : NumberToken)
  | string (s : StringToken)
  | stray
  deriving DecidableEq, Repr

namespace Token

/-- The letters a word still owes, then the token it makes. -/
def scanWord (whole : Token) : List Char → List Glyph → Token × List Glyph
  | [], r => (whole, r)
  | _ :: _, [] => (.word true, [])
  | w :: ws, g :: r => if g = some w then scanWord whole ws r else (.word false, [])

def punctuation? (c : Char) : Option Token :=
  if c = '\x7b' then some openBrace
  else if c = '\x7d' then some closeBrace
  else if c = '[' then some openBracket
  else if c = ']' then some closeBracket
  else if c = ':' then some colon
  else if c = ',' then some comma
  else none

def word? (c : Char) : Option (List Char × Token) :=
  if c = 'n' then some (['u', 'l', 'l'], null)
  else if c = 't' then some (['r', 'u', 'e'], bool true)
  else if c = 'f' then some (['a', 'l', 's', 'e'], bool false)
  else none

def start (c : Char) (r : List Glyph) : Token × List Glyph :=
  match punctuation? c with
  | some t => (t, r)
  | none =>
    match word? c with
    | some w => scanWord w.2 w.1 r
    | none =>
      if c = '"' then (string (scanString r).1, (scanString r).2)
      else if c = '-' then (number (scanNumber true r).1, (scanNumber true r).2)
      else if c.isDigit then
        (number (scanNumber false (some c :: r)).1, (scanNumber false (some c :: r)).2)
      else (stray, r)

def next? (s : List Glyph) : Option (Token × List Glyph) :=
  match s.dropWhile Glyph.isSpace with
  | [] => none
  | none :: r => some (stray, r)
  | some c :: r => some (start c r)

end Token

theorem scanString_length (s : List Glyph) : (scanString s).2.length ≤ s.length := by
  fun_induction scanString s <;> simp_all [StringToken.push] <;> omega

theorem spanDigits_length (s : List Glyph) : (spanDigits s).2.length ≤ s.length :=
  (List.dropWhile_sublist _).length_le

theorem spanSign_length (s : List Glyph) : (spanSign s).2.length ≤ s.length := by
  unfold spanSign
  repeat' split
  all_goals simp

theorem scanExponent_length (t : NumberToken) (s : List Glyph) :
    (scanExponent t s).2.length ≤ s.length := by
  unfold scanExponent
  split
  next c r =>
    have hs := spanSign_length r
    have hd := spanDigits_length (spanSign r).2
    dsimp only
    repeat' split
    all_goals simp
    omega
  next => simp

theorem scanFraction_length (t : NumberToken) (s : List Glyph) :
    (scanFraction t s).2.length ≤ s.length := by
  unfold scanFraction
  split
  next c r =>
    have hd := spanDigits_length r
    have he (t : NumberToken) := scanExponent_length t (spanDigits r).2
    dsimp only
    repeat' split
    · simp
    · refine Nat.le_trans (he _) ?_
      simp only [List.length_cons]
      omega
    · exact scanExponent_length _ _
  next => exact scanExponent_length _ _

theorem scanNumber_length (negative : Bool) (s : List Glyph) :
    (scanNumber negative s).2.length ≤ (spanDigits s).2.length := by
  unfold scanNumber
  dsimp only
  split
  · simp
  · split
    · simp
    · exact scanFraction_length _ _

namespace Token

theorem scanWord_length (whole : Token) (ws : List Char) (s : List Glyph) :
    (scanWord whole ws s).2.length ≤ s.length := by
  fun_induction scanWord whole ws s <;> simp_all
  omega

theorem start_length (c : Char) (r : List Glyph) : (start c r).2.length ≤ r.length := by
  have hn := Nat.le_trans (scanNumber_length true r) (spanDigits_length r)
  have hd (h : c.isDigit) : (scanNumber false (some c :: r)).2.length ≤ r.length := by
    refine Nat.le_trans (scanNumber_length _ _) ?_
    simpa [spanDigits, List.dropWhile_cons, Glyph.isDigit, h] using
      (List.dropWhile_sublist _).length_le
  unfold start
  repeat' split
  all_goals first
    | exact Nat.le_refl _
    | exact scanString_length r
    | exact hn
    | exact hd ‹_›
    | exact scanWord_length _ _ _

theorem next?_length {s r : List Glyph} {t : Token} (h : next? s = some (t, r)) :
    r.length < s.length := by
  have hd := (List.dropWhile_sublist Glyph.isSpace (l := s)).length_le
  unfold next? at h
  split at h <;> rename_i he <;> simp only [he, List.length_cons] at hd
  · simp at h
  · simp only [Option.some.injEq, Prod.mk.injEq] at h
    simp only [← h.2]
    omega
  · rename_i c r'
    have hl := start_length c r'
    simp only [Option.some.injEq] at h
    simp only [h] at hl
    omega

end Token

def tokens (s : List Glyph) : List Token :=
  match _h : Token.next? s with
  | none => []
  | some (t, r) => t :: tokens r
termination_by s.length
decreasing_by exact Token.next?_length ‹_›

theorem tokens_of_next?_none {s : List Glyph} (h : Token.next? s = none) : tokens s = [] := by
  unfold tokens
  split <;> simp_all

theorem tokens_of_next?_some {s r : List Glyph} {t : Token} (h : Token.next? s = some (t, r)) :
    tokens s = t :: tokens r := by
  rw [tokens]
  split <;> simp_all

end EventGateway.Json
