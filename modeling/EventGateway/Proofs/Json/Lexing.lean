import EventGateway.Proofs.Json.Flat
import EventGateway.Proofs.Json.NumberLexing
import EventGateway.Proofs.Json.StringLexing

/-! The tokens of a text are the symbols it is written as. -/

namespace EventGateway.Json

/-- What a token is, once it is complete and has a value. -/
inductive Means : Token → Symbol → Prop
  | openBrace : Means .openBrace .openBrace
  | closeBrace : Means .closeBrace .closeBrace
  | openBracket : Means .openBracket .openBracket
  | closeBracket : Means .closeBracket .closeBracket
  | colon : Means .colon .colon
  | comma : Means .comma .comma
  | null : Means .null .null
  | bool (b : Bool) : Means (.bool b) (.bool b)
  | number {t : NumberToken} {n : Number} (h : t.read = .ok n) : Means (.number t) (.number n)
  | string {t : StringToken} {s : String} (h : t.read = .ok s) : Means (.string t) (.string s)

theorem NumberToken.read_ok {t : NumberToken} {n : Number} :
    t.read = .ok n ↔ t.ending = .complete ∧ t.value = .ok n := by
  unfold read
  cases t.ending <;> simp

/-! From the text to its symbols. -/

/-- The text begins with the symbol, and the rest of it is what is left. -/
def Begins (cs : List Char) (y : Symbol) (r : List Glyph) : Prop :=
  ∃ w rest, cs = w ++ rest ∧ r = rest.map some ∧ Lexeme w y

theorem scanWord_whole {whole t : Token} {ws cs : List Char} {r : List Glyph}
    (h : Token.scanWord whole ws (cs.map some) = (t, r)) (ht : ∀ cut, t ≠ .word cut) :
    t = whole ∧ ∃ rest, cs = ws ++ rest ∧ r = rest.map some := by
  induction ws generalizing cs with
  | nil =>
    obtain ⟨rfl, rfl⟩ : whole = t ∧ cs.map some = r := by simpa [Token.scanWord] using h
    exact ⟨rfl, cs, rfl, rfl⟩
  | cons w ws ih =>
    cases cs with
    | nil =>
      obtain ⟨rfl, _⟩ : Token.word true = t ∧ _ := by simpa [Token.scanWord] using h
      exact absurd rfl (ht true)
    | cons c cs =>
      by_cases hc : c = w
      · subst hc
        obtain ⟨rfl, rest, rfl, hr⟩ := ih (by simpa [Token.scanWord] using h)
        exact ⟨rfl, rest, rfl, hr⟩
      · obtain ⟨rfl, _⟩ : Token.word false = t ∧ _ := by simpa [Token.scanWord, hc] using h
        exact absurd rfl (ht false)

theorem begins_punctuation {c : Char} {t : Token} {y : Symbol} (hc : Token.punctuation? c = some t)
    (hy : Means t y) : Lexeme [c] y := by
  unfold Token.punctuation? at hc
  repeat' split at hc
  all_goals simp at hc
  all_goals
    subst hc
    cases hy
    subst c
    constructor

theorem begins_word {c : Char} {ws cs : List Char} {whole t : Token} {y : Symbol} {r : List Glyph}
    (hc : Token.word? c = some (ws, whole)) (h : Token.scanWord whole ws (cs.map some) = (t, r))
    (hy : Means t y) : Begins (c :: cs) y r := by
  obtain ⟨rfl, rest, rfl, rfl⟩ := scanWord_whole h (by rintro cut rfl; cases hy)
  refine ⟨c :: ws, rest, rfl, rfl, ?_⟩
  unfold Token.word? at hc
  repeat' split at hc
  all_goals simp at hc
  all_goals
    obtain ⟨rfl, rfl⟩ := hc
    cases hy
    subst c
    constructor

theorem begins_string {cs : List Char} {s : String}
    (h : (scanString (cs.map some)).1.read = .ok s) :
    Begins ('"' :: cs) (.string s) (scanString (cs.map some)).2 := by
  obtain ⟨w, rest, ks, rfl, hrest, hks, rfl⟩ := spelled_of_read h
  exact ⟨'"' :: (w ++ ['"']), rest, by simp, hrest, .string hks⟩

theorem lexeme_numeral {w : List Char} {t : NumberToken} {n : Number} (hw : Numeral w t)
    (hn : t.value = .ok n) : Lexeme w (.number n) := by
  cases n with
  | float x => exact .float hw hn
  | int i =>
    obtain ⟨hfraction, hexponent, hfits, rfl⟩ := NumberToken.value_eq_int.mp hn
    obtain ⟨negative, hwhole, hf, hx⟩ := hw
    cases hf with
    | some _ => simp at hfraction
    | none =>
      cases hx with
      | some _ _ _ => simp at hexponent
      | none => simpa using Lexeme.int negative hwhole hfits

theorem begins_number (negative : Bool) (cs : List Char) {n : Number}
    (h : (scanNumber negative (cs.map some)).1.read = .ok n) :
    Begins (minusSign negative ++ cs) (.number n) (scanNumber negative (cs.map some)).2 := by
  obtain ⟨hend, hvalue⟩ := NumberToken.read_ok.mp h
  obtain ⟨w, rest, rfl, hrest, hw⟩ := numeral_of_scanNumber cs hend
  exact ⟨minusSign negative ++ w, rest, by rw [List.append_assoc], hrest, lexeme_numeral hw hvalue⟩

theorem begins_start {c : Char} {cs : List Char} {t : Token} {y : Symbol} {r : List Glyph}
    (h : Token.start c (cs.map some) = (t, r)) (hy : Means t y) : Begins (c :: cs) y r := by
  unfold Token.start at h
  cases hp : Token.punctuation? c with
  | some t' =>
    obtain ⟨rfl, rfl⟩ : t' = t ∧ cs.map some = r := by simpa [hp] using h
    exact ⟨[c], cs, rfl, rfl, begins_punctuation hp hy⟩
  | none =>
    cases hw : Token.word? c with
    | some w => exact begins_word hw (by simpa [hp, hw] using h) hy
    | none =>
      simp only [hp, hw] at h
      split at h
      next hc =>
        subst hc
        obtain ⟨rfl, rfl⟩ := Prod.mk.inj h
        cases hy with
        | string hread => exact begins_string hread
      next =>
        split at h
        next hc =>
          subst hc
          obtain ⟨rfl, rfl⟩ := Prod.mk.inj h
          cases hy with
          | number hread => exact begins_number true cs hread
        next =>
          split at h
          · obtain ⟨rfl, rfl⟩ := Prod.mk.inj h
            cases hy with
            | number hread => exact begins_number false (c :: cs) hread
          · obtain ⟨rfl, rfl⟩ := Prod.mk.inj h
            cases hy

theorem isSpace_iff {c : Char} : Glyph.isSpace (some c) = true ↔ Blank c := by
  simp [Glyph.isSpace, Blank]

theorem blanks_takeWhile (cs : List Char) :
    ∀ c ∈ cs.takeWhile (fun c => Glyph.isSpace (some c)), Blank c :=
  fun c hc => isSpace_iff.mp (List.all_eq_true.mp List.all_takeWhile c hc)

theorem next?_map (cs : List Char) : Token.next? (cs.map some) =
    match cs.dropWhile (fun c => Glyph.isSpace (some c)) with
    | [] => none
    | c :: r => some (Token.start c (r.map some)) := by
  have hspace : (fun c => Glyph.isSpace (some c)) = Glyph.isSpace ∘ some := rfl
  rw [Token.next?, List.dropWhile_map, hspace]
  cases cs.dropWhile (Glyph.isSpace ∘ some) <;> rfl

theorem written_of_tokens {cs : List Char} {ys : List Symbol}
    (h : List.Forall₂ Means (tokens (cs.map some)) ys) : Written cs ys := by
  induction ys generalizing cs with
  | nil =>
    have hsplit := List.takeWhile_append_dropWhile (p := fun c => Glyph.isSpace (some c)) (l := cs)
    have hmap := next?_map cs
    cases hd : cs.dropWhile (fun c => Glyph.isSpace (some c)) with
    | nil =>
      rw [hd, List.append_nil] at hsplit
      exact .nil (hsplit ▸ blanks_takeWhile cs)
    | cons c r =>
      rw [hd] at hmap
      rw [tokens_of_next?_some hmap] at h
      cases h
  | cons y ys ih =>
    have hsplit := List.takeWhile_append_dropWhile (p := fun c => Glyph.isSpace (some c)) (l := cs)
    have hmap := next?_map cs
    cases hd : cs.dropWhile (fun c => Glyph.isSpace (some c)) with
    | nil =>
      rw [hd] at hmap
      rw [tokens_of_next?_none hmap] at h
      cases h
    | cons c r =>
      rw [hd] at hmap hsplit
      rw [tokens_of_next?_some hmap] at h
      cases h with
      | cons hy hs =>
        obtain ⟨w, rest, hcs, hrest, hw⟩ := begins_start rfl hy
        rw [hrest] at hs
        rw [← hsplit, hcs]
        exact .cons (blanks_takeWhile cs) hw (ih hs)

/-! From the symbols to the text. -/

theorem next?_blanks {b : List Char} (hb : ∀ c ∈ b, Blank c) (cs : List Char) :
    Token.next? ((b ++ cs).map some) = Token.next? (cs.map some) := by
  rw [next?_map, next?_map, List.dropWhile_append_of_pos fun c hc => isSpace_iff.mpr (hb c hc)]

theorem numeral_of_lexeme {w : List Char} {n : Number} (h : Lexeme w (.number n)) :
    ∃ t, Numeral w t ∧ t.value = .ok n := by
  cases h with
  | float hw hx => exact ⟨_, hw, hx⟩
  | int negative hd hfits =>
    refine ⟨⟨negative, _, none, none, .complete⟩, ?_, NumberToken.value_eq_int.mpr
      ⟨rfl, rfl, hfits, rfl⟩⟩
    simpa using Numeral.mk negative hd .none .none

theorem next?_numeral {w r : List Char} {t : NumberToken} (hw : Numeral w t) (hr : EndsNumeral r) :
    Token.next? ((w ++ r).map some) = some (.number t, r.map some) := by
  obtain ⟨negative, hwhole, hf, hx⟩ := hw
  rename_i whole f x fraction exponent
  have hscan := scanNumber_of_numeral hwhole hf hx hr negative
  cases negative with
  | true =>
    have hstart : ∀ r, Token.start '-' r =
        (.number (scanNumber true r).1, (scanNumber true r).2) := fun _ => rfl
    have hminus : (minusSign true ++ (whole ++ (f ++ x)) ++ r).map some =
        some '-' :: (whole ++ (f ++ (x ++ r))).map some := by simp [minusSign]
    rw [hminus, Token.next?_cons (by decide), hstart, hscan]
  | false =>
    have hplain : (minusSign false ++ (whole ++ (f ++ x)) ++ r).map some =
        (whole ++ (f ++ (x ++ r))).map some := by simp [minusSign]
    rw [hplain]
    -- Without a sign the first digit tells that a number starts here.
    cases whole with
    | nil => exact absurd rfl hwhole.1.1
    | cons c cs =>
      have hc : c.isDigit = true := hwhole.1.2 c (by simp)
      have hspace : Glyph.isSpace (some c) = false := by
        have hother := Token.ne_of_isDigit hc
        simp [Glyph.isSpace, hother ' ' (by decide), hother '\n' (by decide),
          hother '\t' (by decide), hother '\r' (by decide)]
      rw [List.cons_append, List.map_cons] at hscan ⊢
      rw [Token.next?_cons hspace, Token.start_digit hc, hscan]

/-- A symbol is scanned as a whole; a number only where it can end. -/
theorem next?_lexeme {w r : List Char} {y : Symbol} (hw : Lexeme w y)
    (hr : ∀ n, y = .number n → EndsNumeral r) :
    ∃ t, Token.next? ((w ++ r).map some) = some (t, r.map some) ∧ Means t y := by
  cases y with
  | number n =>
    obtain ⟨t, hnumeral, hvalue⟩ := numeral_of_lexeme hw
    have hend : t.ending = .complete := by cases hnumeral; rfl
    exact ⟨.number t, next?_numeral hnumeral (hr n rfl), .number (NumberToken.read_ok.mpr ⟨hend, hvalue⟩)⟩
  | string s =>
    cases hw with
    | string hs =>
      rename_i w cs
      obtain ⟨t, hscan, hread⟩ := scanString_of_spelled hs (r.map some)
      have hstart : ∀ r, Token.start '"' r = (.string (scanString r).1, (scanString r).2) :=
        fun _ => rfl
      have hquote : ('"' :: (w ++ ['"']) ++ r).map some =
          some '"' :: (w.map some ++ some '"' :: r.map some) := by simp
      rw [hquote, Token.next?_cons (by decide), hstart, hscan]
      exact ⟨.string t, rfl, .string hread⟩
  | _ => cases hw <;> exact ⟨_, rfl, by constructor⟩

theorem endsNumeral_of_written {r : List Char} {ys : List Symbol} (h : Written r ys)
    (hy : ∀ y ∈ ys.head?, y.Ends) : EndsNumeral r := by
  have hblank : ∀ c, Blank c → c.isDigit = false ∧ c ≠ '.' ∧ c ≠ 'e' ∧ c ≠ 'E' := by
    rintro c (rfl | rfl | rfl | rfl) <;> decide
  cases h with
  | nil hb => exact fun c hc => hblank c (hb c (List.mem_of_mem_head? hc))
  | cons hb hw hr =>
    rename_i b w r y ys
    intro c hc
    cases b with
    | cons x b =>
      obtain rfl : x = c := by simpa using hc
      exact hblank x (hb x (by simp))
    | nil =>
      rcases hy y (by simp) with rfl | rfl | rfl <;> cases hw <;>
        obtain rfl := Option.some.inj hc <;> decide

theorem tokens_of_written {cs : List Char} {ys : List Symbol} (h : Written cs ys)
    (hys : ys.IsChain Apart) : List.Forall₂ Means (tokens (cs.map some)) ys := by
  induction h with
  | nil hb =>
    rename_i b
    have hnone : Token.next? (b.map some) = none := by
      have hskip := next?_blanks hb []
      rwa [List.append_nil] at hskip
    rw [tokens_of_next?_none hnone]
    exact .nil
  | cons hb hw hr ih =>
    obtain ⟨hapart, hrest⟩ := List.isChain_cons.mp hys
    obtain ⟨t, hnext, hmeans⟩ := next?_lexeme hw fun n hn =>
      endsNumeral_of_written hr fun z hz => hapart z hz n hn
    rw [tokens_of_next?_some ((next?_blanks hb _).trans hnext)]
    exact .cons hmeans (ih hrest)

end EventGateway.Json
