import EventGateway.Json.Value
import Mathlib.Data.List.Chain

/-! The grammar of JSON texts. A text is written as symbols with blanks between them, and the
symbols have to form one value. -/

namespace EventGateway.Json

/-! How characters, numbers and the other symbols are written. -/

def Blank (c : Char) : Prop := c = ' ' ∨ c = '\n' ∨ c = '\t' ∨ c = '\r'

/-- A character inside of a string. Those beyond 16 bits may be a pair of units. -/
inductive Spelling : List Char → Char → Prop
  | plain {c : Char} (hq : c ≠ '"') (hb : c ≠ '\\') (hc : ¬ c < ' ') : Spelling [c] c
  | letter {e c : Char} (hc : letterMeaning? e = some c) : Spelling ['\\', e] c
  | unit {a b c d : Char} {n : Nat} (hn : hexUnit? a b c d = some n)
    (hsingle : n < 0xd800 ∨ 0xdfff < n) : Spelling ['\\', 'u', a, b, c, d] (Char.ofNat n)
  | pair {a b c d a' b' c' d' : Char} {m n : Nat} (hm : hexUnit? a b c d = some m)
    (hlead : 0xd800 ≤ m ∧ m ≤ 0xdbff) (hn : hexUnit? a' b' c' d' = some n)
    (htrail : 0xdc00 ≤ n ∧ n ≤ 0xdfff) :
    Spelling ['\\', 'u', a, b, c, d, '\\', 'u', a', b', c', d']
      (Char.ofNat ((m - 0xd800) * 0x400 + (n - 0xdc00) + 0x10000))

inductive Spelled : List Char → List Char → Prop
  | nil : Spelled [] []
  | cons {w s cs : List Char} {c : Char} (hc : Spelling w c) (hs : Spelled s cs) :
    Spelled (w ++ s) (c :: cs)

def Digits (ds : List Char) : Prop := ds ≠ [] ∧ ∀ c ∈ ds, c.isDigit = true

/-- Digits without a nought in front. -/
def Whole (ds : List Char) : Prop := Digits ds ∧ (ds.head? = some '0' → ds = ['0'])

inductive Fraction : List Char → Option (List Char) → Prop
  | none : Fraction [] none
  | some {ds : List Char} (hd : Digits ds) : Fraction ('.' :: ds) (some ds)

inductive Sign : List Char → Bool → Prop
  | none : Sign [] false
  | plus : Sign ['+'] false
  | minus : Sign ['-'] true

inductive Exponent : List Char → Option (Bool × List Char) → Prop
  | none : Exponent [] none
  | some {e : Char} {s ds : List Char} {minus : Bool} (he : e = 'e' ∨ e = 'E') (hs : Sign s minus)
    (hd : Digits ds) : Exponent (e :: (s ++ ds)) (some (minus, ds))

def minusSign (negative : Bool) : List Char := if negative then ['-'] else []

inductive Numeral : List Char → NumberToken → Prop
  | mk (negative : Bool) {whole f x : List Char} {fraction : Option (List Char)}
    {exponent : Option (Bool × List Char)} (hw : Whole whole) (hf : Fraction f fraction)
    (hx : Exponent x exponent) :
    Numeral (minusSign negative ++ (whole ++ (f ++ x)))
      ⟨negative, whole, fraction, exponent, .complete⟩

def signed (negative : Bool) (n : Nat) : Int := if negative then -(n : Int) else n

/-- The integers of 64 bits with or without a sign. Nought has no minus. -/
def Fits (negative : Bool) (n : Nat) : Prop :=
  if negative then 0 < n ∧ n ≤ 0x8000000000000000 else n < 0x10000000000000000

inductive Symbol
  | openBrace
  | closeBrace
  | openBracket
  | closeBracket
  | colon
  | comma
  | null
  | bool (b : Bool)
  | number (n : Number)
  | string (s : String)

/-- Numerals with a fraction or an exponent, and those that do not fit, are doubles; none of these
may be too large for one. -/
inductive Lexeme : List Char → Symbol → Prop
  | openBrace : Lexeme ['\x7b'] .openBrace
  | closeBrace : Lexeme ['\x7d'] .closeBrace
  | openBracket : Lexeme ['['] .openBracket
  | closeBracket : Lexeme [']'] .closeBracket
  | colon : Lexeme [':'] .colon
  | comma : Lexeme [','] .comma
  | null : Lexeme ['n', 'u', 'l', 'l'] .null
  | true : Lexeme ['t', 'r', 'u', 'e'] (.bool true)
  | false : Lexeme ['f', 'a', 'l', 's', 'e'] (.bool false)
  | int (negative : Bool) {ds : List Char} (hd : Whole ds)
    (hfits : Fits negative (Nat.ofDigitChars 10 ds 0)) :
    Lexeme (minusSign negative ++ ds)
      (.number (.int (signed negative (Nat.ofDigitChars 10 ds 0))))
  | float {w : List Char} {t : NumberToken} {x : Binary64} (hw : Numeral w t)
    (hx : t.value = .ok (.float x)) : Lexeme w (.number (.float x))
  | string {w cs : List Char} (hs : Spelled w cs) :
    Lexeme ('"' :: (w ++ ['"'])) (.string (String.ofList cs))

inductive Written : List Char → List Symbol → Prop
  | nil {b : List Char} (hb : ∀ c ∈ b, Blank c) : Written b []
  | cons {b w r : List Char} {y : Symbol} {ys : List Symbol} (hb : ∀ c ∈ b, Blank c)
    (hw : Lexeme w y) (hr : Written r ys) : Written (b ++ (w ++ r)) (y :: ys)

/-! What symbols stand for. -/

/-- A value, or what stands between the brackets of one that is not empty. -/
inductive Form
  | value (v : Value)
  | items (vs : List Value)
  | members (ms : List (String × Value))

/-- The symbols of a form whose containers are the `depth`-th of the text and deeper. -/
inductive Derives : (depth : Nat) → List Symbol → Form → Prop
  | null {depth : Nat} : Derives depth [.null] (.value .null)
  | bool {depth : Nat} (b : Bool) : Derives depth [.bool b] (.value (.bool b))
  | number {depth : Nat} (n : Number) : Derives depth [.number n] (.value (.number n))
  | string {depth : Nat} (s : String) : Derives depth [.string s] (.value (.string s))
  | emptyArray {depth : Nat} (hd : depth ≤ 127) :
    Derives depth [.openBracket, .closeBracket] (.value (.array []))
  | array {depth : Nat} {ys : List Symbol} {vs : List Value} (hd : depth ≤ 127)
    (h : Derives (depth + 1) ys (.items vs)) :
    Derives depth (.openBracket :: (ys ++ [.closeBracket])) (.value (.array vs))
  | emptyObject {depth : Nat} (hd : depth ≤ 127) :
    Derives depth [.openBrace, .closeBrace] (.value (.object []))
  | object {depth : Nat} {ys : List Symbol} {ms : List (String × Value)} (hd : depth ≤ 127)
    (h : Derives (depth + 1) ys (.members ms)) :
    Derives depth (.openBrace :: (ys ++ [.closeBrace])) (.value (.object ms))
  | lastItem {depth : Nat} {ys : List Symbol} {v : Value} (h : Derives depth ys (.value v)) :
    Derives depth ys (.items [v])
  | item {depth : Nat} {ys zs : List Symbol} {v : Value} {vs : List Value}
    (h : Derives depth ys (.value v)) (hs : Derives depth zs (.items vs)) :
    Derives depth (ys ++ .comma :: zs) (.items (v :: vs))
  | lastMember {depth : Nat} {ys : List Symbol} (n : String) {v : Value}
    (h : Derives depth ys (.value v)) :
    Derives depth (.string n :: .colon :: ys) (.members [(n, v)])
  | member {depth : Nat} {ys zs : List Symbol} (n : String) {v : Value}
    {ms : List (String × Value)} (h : Derives depth ys (.value v))
    (hs : Derives depth zs (.members ms)) :
    Derives depth (.string n :: .colon :: (ys ++ .comma :: zs)) (.members ((n, v) :: ms))

/-- The text is JSON, and stands for the value. -/
def Denotes (text : String) (v : Value) : Prop :=
  ∃ ys, Written text.toList ys ∧ Derives 1 ys (.value v)

/-- A number may stand right before the symbol. -/
def Symbol.Ends (y : Symbol) : Prop := y = .comma ∨ y = .closeBracket ∨ y = .closeBrace

def Apart (x y : Symbol) : Prop := ∀ n, x = .number n → y.Ends

variable {depth : Nat} {ys zs : List Symbol} {f : Form}

theorem isChain_cons {y : Symbol} (hy : ∀ n, y ≠ .number n) (hs : ys.IsChain Apart) :
    (y :: ys).IsChain Apart :=
  List.isChain_cons.mpr ⟨fun _ _ n hn => absurd hn (hy n), hs⟩

theorem isChain_append {y : Symbol} (hy : y.Ends) (hys : ys.IsChain Apart)
    (hzs : (y :: zs).IsChain Apart) : (ys ++ y :: zs).IsChain Apart := by
  refine List.isChain_append.mpr ⟨hys, hzs, fun x _ z hz n _ => ?_⟩
  obtain rfl : y = z := by simpa using hz
  exact hy

/-- No number is followed by another symbol than one that ends it. -/
theorem Derives.apart (h : Derives depth ys f) : ys.IsChain Apart := by
  have hcomma : Symbol.Ends .comma := .inl rfl
  have hbracket : Symbol.Ends .closeBracket := .inr (.inl rfl)
  have hbrace : Symbol.Ends .closeBrace := .inr (.inr rfl)
  induction h with
  | null | bool b | number n | string s => exact List.isChain_singleton _
  | emptyArray _ | emptyObject _ => exact isChain_cons (by simp) (List.isChain_singleton _)
  | array _ _ ih => exact isChain_cons (by simp) (isChain_append hbracket ih (.singleton _))
  | object _ _ ih => exact isChain_cons (by simp) (isChain_append hbrace ih (.singleton _))
  | lastItem _ ih => exact ih
  | item _ _ ih ihs => exact isChain_append hcomma ih (isChain_cons (by simp) ihs)
  | lastMember n _ ih => exact isChain_cons (by simp) (isChain_cons (by simp) ih)
  | member n _ _ ih ihs =>
    exact isChain_cons (by simp) (isChain_cons (by simp)
      (isChain_append hcomma ih (isChain_cons (by simp) ihs)))

end EventGateway.Json
