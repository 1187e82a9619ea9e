import EventGateway.Toml.Document
import EventGateway.Proofs.Toml.Strings

/-! Lines of a TOML text: headers, members with a bare key, and the values of members. -/

namespace EventGateway.Toml

open Text

variable {key s r : List Char} {k : Nat}

theorem unifyLines_of_no_return (hs : '\r' ∉ s) : unifyLines s = some s := by
  induction s with
  | nil => rfl
  | cons c s ih =>
    obtain ⟨hc, hs⟩ : '\r' ≠ c ∧ '\r' ∉ s := by simpa using hs
    rw [unifyLines]
    · rw [if_neg (Ne.symm hc), ih hs]
      rfl
    · rintro t rfl _
      exact hc rfl

/-- A key that needs no quotes. -/
def Bare (key : List Char) : Prop := key ≠ [] ∧ ∀ c ∈ key, isBare c = true

instance (key : List Char) : Decidable (Bare key) :=
  decidable_of_iff (key ≠ [] ∧ key.all isBare = true) (and_congr_right' List.all_eq_true)

theorem Bare.cons (hkey : Bare key) : ∃ c t, key = c :: t ∧ isBare c = true := by
  obtain ⟨hne, hbare⟩ := hkey
  obtain ⟨c, t, rfl⟩ := List.exists_cons_of_ne_nil hne
  exact ⟨c, t, rfl, hbare c List.mem_cons_self⟩

theorem bare_ne {c d : Char} (hc : isBare c = true) (hd : isBare d = false) : c ≠ d := by
  rintro rfl
  simp [hd] at hc

theorem skipBlanks_bare (hkey : Bare key) (r : List Char) : skipBlanks (key ++ r) = key ++ r := by
  obtain ⟨c, t, rfl, hc⟩ := hkey.cons
  have hspace : c ≠ ' ' := bare_ne hc (by decide)
  have htab : c ≠ '\t' := bare_ne hc (by decide)
  simp [skipBlanks, isBlank, hspace, htab]

theorem readKey_bare (hkey : Bare key) (hr : Stops isBare r) :
    readKey (key ++ r) = some (String.ofList key, r) := by
  have htake := takeWhile_front hkey.2 hr
  have hdrop := dropWhile_front hkey.2 hr
  have hne : key.isEmpty = false := by simpa using hkey.1
  obtain ⟨c, t, rfl, hc⟩ := hkey.cons
  have hdouble : c ≠ '"' := bare_ne hc (by decide)
  have hsingle : c ≠ '\'' := bare_ne hc (by decide)
  unfold readKey
  split
  next heq => exact absurd (List.cons.inj heq).1 hdouble
  next heq => exact absurd (List.cons.inj heq).1 hsingle
  next => simp only [htake, hdrop, hne, Bool.false_eq_true, if_false]

theorem readPath_bare (hkey : Bare key) (hr : Stops isBare r) (hdot : ∀ t, skipBlanks r ≠ '.' :: t) :
    readPath (key ++ r) = some ([String.ofList key], skipBlanks r) := by
  have hlimit : depthLimit - 1 = 78 + 1 := rfl
  rw [readPath, hlimit, readPathOf, skipBlanks_bare hkey, readKey_bare hkey hr]
  dsimp only
  split
  next t heq => exact absurd heq (hdot t)
  next => rfl

def headerText (key r : List Char) : List Char := '[' :: (key ++ ']' :: '\n' :: r)

def memberText (key v r : List Char) : List Char := key ++ ' ' :: '=' :: ' ' :: (v ++ '\n' :: r)

theorem readLine_header (hkey : Bare key) (r : List Char) :
    readLine (headerText key r) = some (.header [String.ofList key], r) := by
  have hpath : readPath (key ++ ']' :: '\n' :: r) = some ([String.ofList key], ']' :: '\n' :: r) :=
    readPath_bare hkey (stops_cons (by decide) _) (by simp [skipBlanks, isBlank])
  obtain ⟨c, t, rfl, hc⟩ := hkey.cons
  have hbracket : c ≠ '[' := bare_ne hc (by decide)
  rw [headerText, List.cons_append, readLine]
  · rw [← List.cons_append, hpath]
    rfl
  · rintro u heq
    exact hbracket (List.cons.inj heq).1

/-- The value is read from the text with whatever stands on the next lines. -/
structure Reading (text : List Char) (v : Value) : Prop where
  stops : Stops isBlank text
  ne_nil : text ≠ []
  read : ∀ r fuel, text.length < fuel → readValue fuel 0 (text ++ '\n' :: r) = some (v, '\n' :: r)

theorem readLine_member {text : List Char} {v : Value} (hkey : Bare key) (hv : Reading text v)
    (r : List Char) : readLine (memberText key text r) = some (.member [String.ofList key] v, r) := by
  have hpath : readPath (memberText key text r) =
      some ([String.ofList key], '=' :: ' ' :: (text ++ '\n' :: r)) :=
    readPath_bare hkey (stops_cons (by decide) _) (by simp [skipBlanks, isBlank])
  have hskip : skipBlanks (' ' :: (text ++ '\n' :: r)) = text ++ '\n' :: r := by
    obtain ⟨c, t, rfl⟩ := List.exists_cons_of_ne_nil hv.ne_nil
    have hc : isBlank c = false := hv.stops c (by simp)
    have hspace : isBlank ' ' = true := by decide
    simp [skipBlanks, hspace, hc]
  have hread := hv.read r (2 * (' ' :: (text ++ '\n' :: r)).length + 2) (by simp; omega)
  obtain ⟨c, t, rfl, hc⟩ := hkey.cons
  have hfeed : c ≠ '\n' := bare_ne hc (by decide)
  have hhash : c ≠ '#' := bare_ne hc (by decide)
  have hbracket : c ≠ '[' := bare_ne hc (by decide)
  have htext : memberText (c :: t) text r = c :: (t ++ ' ' :: '=' :: ' ' :: (text ++ '\n' :: r)) := rfl
  rw [htext] at hpath ⊢
  unfold readLine
  split
  next heq => exact nomatch heq
  next heq => exact absurd (List.cons.inj heq).1 hfeed
  next heq => exact absurd (List.cons.inj heq).1 hhash
  next heq => exact absurd (List.cons.inj heq).1 hbracket
  next heq => exact absurd (List.cons.inj heq).1 hbracket
  next =>
    simp only [hpath, hskip, hread]
    rfl

/-- The lines of the text are read in at least so many steps. -/
def Lines (k : Nat) (s : List Char) (ls : List Line) : Prop := ∀ n, k ≤ n → readLines n s = some ls

theorem lines_nil : Lines 1 [] [] := by
  intro n hn
  obtain ⟨m, rfl⟩ : ∃ m, n = m + 1 := ⟨n - 1, by omega⟩
  rfl

theorem Lines.step {l : Line} {ls : List Line} (hs : Stops isBlank s) (hne : s ≠ [])
    (hline : readLine s = some (l, r)) (hrest : Lines k r ls) : Lines (k + 1) s (l :: ls) := by
  intro n hn
  obtain ⟨m, rfl⟩ : ∃ m, n = m + 1 := ⟨n - 1, by omega⟩
  have hskip : skipBlanks s = s := hs.dropWhile
  rw [readLines, hskip]
  split
  · exact absurd rfl hne
  · rw [hline]
    simp only [hrest m (by omega), Option.map_some]

theorem Lines.blank {ls : List Line} (h : Lines k r ls) : Lines (k + 1) ('\n' :: r) (.nothing :: ls) :=
  h.step (stops_cons (by decide) r) (List.cons_ne_nil _ _) rfl

theorem Lines.header {ls : List Line} (h : Lines k r ls) (hkey : Bare key) :
    Lines (k + 1) (headerText key r) (.header [String.ofList key] :: ls) :=
  h.step (stops_cons (by decide) _) (List.cons_ne_nil _ _) (readLine_header hkey r)

theorem Lines.member {ls : List Line} {text : List Char} {v : Value} (h : Lines k r ls)
    (hkey : Bare key) (hv : Reading text v) :
    Lines (k + 1) (memberText key text r) (.member [String.ofList key] v :: ls) := by
  have hline := readLine_member hkey hv r
  obtain ⟨c, t, rfl, hc⟩ := hkey.cons
  have hspace : c ≠ ' ' := bare_ne hc (by decide)
  have htab : c ≠ '\t' := bare_ne hc (by decide)
  refine h.step (stops_cons (by simp [isBlank, hspace, htab]) _) (List.cons_ne_nil _ _) hline

theorem readValue_string (t : String) {fuel depth : Nat} (hfuel : 0 < fuel)
    (hr : Stops (fun c => c = '"' || c = '\'') r) :
    readValue fuel depth (writeString t ++ r) = some (.string t, r) := by
  have hread := readString?_writeString t hr
  obtain ⟨m, rfl⟩ : ∃ m, fuel = m + 1 := ⟨fuel - 1, by omega⟩
  obtain ⟨q, u, htext, hq⟩ := writeString_quote t
  rw [htext, List.cons_append] at hread ⊢
  rcases hq with rfl | rfl <;> rw [readValue, hread] <;> rfl

theorem reading_string (t : String) : Reading (writeString t) (.string t) := by
  obtain ⟨q, u, htext, hq⟩ := writeString_quote t
  refine ⟨?_, by simp [htext], fun r fuel hfuel => ?_⟩
  · rw [htext]
    rcases hq with rfl | rfl <;> exact stops_cons (by decide) u
  · exact readValue_string t (by omega) (stops_cons (by decide) r)

/-! Arrays of strings, with a line for each item when there are several. -/

def itemLines (ts : List String) : List Char :=
  ts.flatMap fun t => "    ".toList ++ writeString t ++ ",\n".toList

theorem skipVoid_stops (hs : Stops (fun c => isBlank c || c = '\n' || c = '#') s) :
    skipVoid s = s := by
  cases s with
  | nil => rfl
  | cons c s =>
    have hc := hs c (by simp)
    simp only [Bool.or_eq_false_iff] at hc
    obtain ⟨⟨hblank, hfeed⟩, hhash⟩ := hc
    simp [skipVoid, skipVoidFrom, hblank, of_decide_eq_false hfeed, of_decide_eq_false hhash]

theorem skipVoid_writeString (t : String) (r : List Char) :
    skipVoid (writeString t ++ r) = writeString t ++ r := by
  obtain ⟨q, u, htext, hq⟩ := writeString_quote t
  rw [htext]
  refine skipVoid_stops ?_
  rcases hq with rfl | rfl <;> exact stops_cons (by decide) _

theorem length_itemLines (ts : List String) : ts.length ≤ (itemLines ts).length := by
  induction ts with
  | nil => simp
  | cons t ts ih =>
    have hcons : itemLines (t :: ts) =
        "    ".toList ++ writeString t ++ ",\n".toList ++ itemLines ts := rfl
    rw [hcons]
    simp
    omega

theorem readItems_string {t : String} {fuel depth : Nat} (hfuel : 0 < fuel)
    (hs : skipVoid s = writeString t ++ r) (hr : Stops (fun c => c = '"' || c = '\'') r) :
    readItems (fuel + 1) depth s =
      match skipVoid r with
      | ',' :: r => (readItems fuel depth r).map fun p => (.string t :: p.1, p.2)
      | ']' :: r => some ([.string t], r)
      | _ => none := by
  have hread : readValue fuel depth (writeString t ++ r) = some (.string t, r) :=
    readValue_string t hfuel hr
  obtain ⟨q, u, htext, hq⟩ := writeString_quote t
  rw [htext, List.cons_append] at hs hread
  rw [readItems, hs]
  split
  next heq =>
    have hbracket : q = ']' := (List.cons.inj heq).1
    rcases hq with rfl | rfl <;> exact absurd hbracket (by decide)
  next => exact hread.symm ▸ rfl

theorem readItems_lines (ts : List String) {fuel depth : Nat} (hfuel : ts.length < fuel)
    (r : List Char) : readItems fuel depth ('\n' :: (itemLines ts ++ ']' :: r)) =
      some (ts.map Value.string, r) := by
  induction ts generalizing fuel with
  | nil =>
    obtain ⟨m, rfl⟩ : ∃ m, fuel = m + 1 := ⟨fuel - 1, by simp at hfuel; omega⟩
    rw [readItems]
    rfl
  | cons t ts ih =>
    obtain ⟨m, rfl⟩ : ∃ m, fuel = m + 1 := ⟨fuel - 1, by omega⟩
    have hlength : ts.length < m := by simpa using hfuel
    have hvoid : skipVoid ('\n' :: (itemLines (t :: ts) ++ ']' :: r)) =
        writeString t ++ ',' :: '\n' :: (itemLines ts ++ ']' :: r) := by
      rw [← skipVoid_writeString]
      simp [itemLines, skipVoid, skipVoidFrom, isBlank]
    have hcomma (u : List Char) : skipVoid (',' :: u) = ',' :: u := rfl
    rw [readItems_string (by omega) hvoid (stops_cons (by decide) _), hcomma]
    simp only [ih hlength]
    rfl

/-! Counts. -/

theorem isDate_digits {ds : List Char} (hds : ∀ c ∈ ds, c.isDigit = true) : isDate ds = false := by
  unfold isDate
  split
  · exact absurd (hds '-' (by simp)) (by decide)
  · rfl

theorem isDigitBelow_ten {c : Char} (hc : c.isDigit = true) : isDigitBelow 10 c = true := by
  have hrange := Char.isDigit_iff_toNat.mp hc
  simp only [Char.reduceToNat] at hrange
  have hlt : digitValue c < 10 := by
    simp only [digitValue, hc, if_true, Char.reduceToNat]
    omega
  simp [isDigitBelow, hc, hlt]

theorem ungroup_digits {ds : List Char} (hne : ds ≠ []) (hds : ∀ c ∈ ds, c.isDigit = true) :
    ungroup (isDigitBelow 10) ds = some ds := by
  induction ds with
  | nil => exact absurd rfl hne
  | cons c ds ih =>
    have hc := isDigitBelow_ten (hds c List.mem_cons_self)
    cases ds with
    | nil => simp [ungroup, hc]
    | cons d ds =>
      have hd : d ≠ '_' := by
        rintro rfl
        exact absurd (hds '_' (by simp)) (by decide)
      have hrest := ih (List.cons_ne_nil d ds) fun x hx => hds x (List.mem_cons_of_mem c hx)
      rw [ungroup]
      · rw [if_pos hc, hrest]
        rfl
      · simp
      · rintro u heq
        exact hd (List.cons.inj heq).1

theorem digitsValue_toDigits (n : Nat) : digitsValue 10 (Nat.toDigits 10 n) = n := by
  refine foldl_toDigits (by decide) (fun m d hd => ?_) n
  have hdigit : ∀ d < 10, digitValue (Nat.digitChar d) = d := by decide
  rw [hdigit d hd]

theorem integer?_toDigits {n : Nat} (hn : n < 0x8000000000000000) :
    integer? (Nat.toDigits 10 n) = some (Int64.ofNat n) := by
  have hdigits := Json.isDigit_toDigits n
  have hungroup := ungroup_digits Nat.toDigits_ne_nil hdigits
  have hdecimal : decimalDigits? (Nat.toDigits 10 n) = some (Nat.toDigits 10 n) := by
    have hzero : ¬ (1 < (Nat.toDigits 10 n).length ∧ (Nat.toDigits 10 n).head? = some '0') :=
      fun h => Json.length_toDigits_of_zero h.2 h.1
    rw [decimalDigits?, hungroup, Option.bind_some, if_neg hzero]
  have hrange : inRange? (n : Int) = some (Int64.ofNat n) := by
    rw [inRange?, if_pos, Int64.ofInt_eq_ofNat]
    rw [Int64.toInt_minValue, Int64.toInt_maxValue]
    omega
  have hsign : unsign (Nat.toDigits 10 n) = (false, Nat.toDigits 10 n) := by
    unfold unsign
    split
    next r heq => exact absurd (hdigits '+' (by simp [heq])) (by decide)
    next r heq => exact absurd (hdigits '-' (by simp [heq])) (by decide)
    next => rfl
  unfold integer?
  split
  next r heq => exact absurd (hdigits 'x' (by simp [heq])) (by decide)
  next r heq => exact absurd (hdigits 'o' (by simp [heq])) (by decide)
  next r heq => exact absurd (hdigits 'b' (by simp [heq])) (by decide)
  next =>
    simp only [hsign, hdecimal, Option.bind_some, digitsValue_toDigits]
    exact hrange

theorem atom?_toDigits {n : Nat} (hn : n < 0x8000000000000000) :
    atom? (Nat.toDigits 10 n) = some (.integer (Int64.ofNat n)) := by
  have hdigits := Json.isDigit_toDigits n
  have htrue : Nat.toDigits 10 n ≠ ['t', 'r', 'u', 'e'] := fun heq =>
    absurd (hdigits 't' (by simp [heq])) (by decide)
  have hfalse : Nat.toDigits 10 n ≠ ['f', 'a', 'l', 's', 'e'] := fun heq =>
    absurd (hdigits 'f' (by simp [heq])) (by decide)
  rw [atom?, if_neg htrue, if_neg hfalse, integer?_toDigits hn]

theorem reading_count {n : Nat} (hn : n < 0x8000000000000000) :
    Reading (Nat.toDigits 10 n) (.integer (Int64.ofNat n)) := by
  have hdigits := Json.isDigit_toDigits n
  obtain ⟨c, t, htext⟩ := List.exists_cons_of_ne_nil (Nat.toDigits_ne_nil (n := n) (b := 10))
  have hne {d : Char} (hd : d.isDigit = false) : c ≠ d := by
    rintro rfl
    exact absurd (hdigits c (by simp [htext])) (by simp [hd])
  refine ⟨?_, Nat.toDigits_ne_nil, fun r fuel hfuel => ?_⟩
  · rw [htext]
    exact stops_cons (by simp [isBlank, hne]) t
  · obtain ⟨m, rfl⟩ : ∃ m, fuel = m + 1 := ⟨fuel - 1, by omega⟩
    have hchars : ∀ c ∈ Nat.toDigits 10 n, isAtomChar c = true := fun c hc => by
      simp [isAtomChar, Char.isAlphanum, hdigits c hc]
    have htake := takeWhile_front hchars (stops_cons (by decide) r : Stops isAtomChar ('\n' :: r))
    have hdrop := dropWhile_front hchars (stops_cons (by decide) r : Stops isAtomChar ('\n' :: r))
    have hatom : readAtom (Nat.toDigits 10 n ++ '\n' :: r) =
        some (.integer (Int64.ofNat n), '\n' :: r) := by
      simp only [readAtom, htake, hdrop, isDate_digits hdigits, atom?_toDigits hn]
      rfl
    rw [htext, List.cons_append] at hatom ⊢
    unfold readValue
    split
    next heq => exact absurd (List.cons.inj heq).1 (hne (by decide))
    next heq => exact absurd (List.cons.inj heq).1 (hne (by decide))
    next heq => exact absurd (List.cons.inj heq).1 (hne (by decide))
    next heq => exact absurd (List.cons.inj heq).1 (hne (by decide))
    next => exact hatom

end EventGateway.Toml
