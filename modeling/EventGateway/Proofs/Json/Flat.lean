import EventGateway.Proofs.Json.Numbers
import EventGateway.Proofs.Json.Strings

/-! Flat objects, whose values are no containers: a text that was written for one has the draft
that holds just its members. -/

namespace EventGateway.Json

namespace Value

/-- A value that is no container, with integers that fit 64 bits. -/
def Plain : Value → Prop
  | null | bool _ | string _ => True
  | number (.int n) => -0x8000000000000000 ≤ n ∧ n < 0x10000000000000000
  | number (.float _) | array _ | object _ => False

def token : Value → Token
  | null => .null
  | bool b => .bool b
  | number (.int n) => .number (numberToken n)
  | string s => .string (stringToken s)
  | number (.float _) | array _ | object _ => .stray

def draft : Value → Draft
  | null => .null
  | bool b => .bool b
  | number (.int n) => .number (numberToken n)
  | string s => .string (stringToken s)
  | number (.float _) | array _ | object _ => .absent []

@[simp] theorem plain_bool (b : Bool) : (bool b).Plain := trivial

@[simp] theorem plain_string (s : String) : (string s).Plain := trivial

theorem plain_int {n : Int} :
    (int n).Plain ↔ -0x8000000000000000 ≤ n ∧ n < 0x10000000000000000 := Iff.rfl

variable {v : Value}

@[simp] theorem face_draft (hv : v.Plain) : v.draft.face = .ok v.face := by
  cases v with
  | null | bool b => rfl
  | string s =>
    rw [draft, Draft.face, StringToken.read_stringToken]
    rfl
  | number n =>
    cases n with
    | int n =>
      rw [draft, Draft.face, NumberToken.read_numberToken hv.1 hv.2]
      rfl
    | float x => exact hv.elim
  | array items | object members => exact hv.elim

@[simp] theorem value_draft (hv : v.Plain) (depth : Nat) : v.draft.value depth = .ok v := by
  cases v with
  | null | bool b => rfl
  | string s =>
    rw [draft, Draft.value, StringToken.read_stringToken]
    rfl
  | number n =>
    cases n with
    | int n =>
      rw [draft, Draft.value, NumberToken.read_numberToken hv.1 hv.2]
      rfl
    | float x => exact hv.elim
  | array items | object members => exact hv.elim

@[simp] theorem skip_draft (hv : v.Plain) : v.draft.skip = .ok () := by
  cases v with
  | null | bool b => rfl
  | string s => rfl
  | number n =>
    cases n with
    | int n => rfl
    | float x => exact hv.elim
  | array items | object members => exact hv.elim

end Value

namespace Token

theorem next?_cons {c : Char} (hc : Glyph.isSpace (some c) = false) (r : List Glyph) :
    next? (some c :: r) = some (start c r) := by
  simp [next?, hc]

theorem start_string (s : String) (r : List Glyph) :
    start '"' ((s.toList.flatMap escapeChar ++ ['"']).map some ++ r) =
      (.string (stringToken s), r) := by
  have hscan := scanString_write s.toList r
  have happ : (s.toList.flatMap escapeChar ++ ['"']).map some ++ r =
      (s.toList.flatMap escapeChar).map some ++ some '"' :: r := by simp
  have hstart : ∀ r, start '"' r = (.string (scanString r).1, (scanString r).2) := fun _ => rfl
  rw [hstart, happ, hscan]
  rfl

theorem ne_of_isDigit {c : Char} (hc : c.isDigit = true) (d : Char) (hd : d.isDigit = false) :
    c ≠ d := by
  rintro rfl
  simp [hd] at hc

theorem start_digit {c : Char} (hc : c.isDigit = true) (r : List Glyph) :
    start c r =
      (.number (scanNumber false (some c :: r)).1, (scanNumber false (some c :: r)).2) := by
  have hother := ne_of_isDigit hc
  have hpunct : punctuation? c = none := by
    simp [punctuation?, hother '\x7b' (by decide), hother '\x7d' (by decide),
      hother '[' (by decide), hother ']' (by decide), hother ':' (by decide), hother ',' (by decide)]
  have hword : word? c = none := by
    simp [word?, hother 'n' (by decide), hother 't' (by decide), hother 'f' (by decide)]
  simp [start, hpunct, hword, hother '"' (by decide), hother '-' (by decide), hc]

end Token

theorem write_int (n : Int) :
    (toString n).toList = (if n < 0 then ['-'] else []) ++ Nat.toDigits 10 n.natAbs := by
  rw [Int.toString_eq_repr]
  cases n with
  | ofNat m =>
    simp [Int.repr]
  | negSucc m =>
    have hsign : Int.negSucc m < 0 := by omega
    simp [Int.repr, hsign]

theorem next?_int (n : Int) {r : List Glyph} (hr : Delimited r) :
    Token.next? ((toString n).toList.map some ++ r) = some (.number (numberToken n), r) := by
  have hscan := fun negative => scanNumber_toDigits negative n.natAbs hr
  rw [write_int]
  by_cases hn : n < 0
  · have hstart : ∀ r, Token.start '-' r =
        (.number (scanNumber true r).1, (scanNumber true r).2) := fun _ => rfl
    rw [if_pos hn, List.singleton_append, List.map_cons, List.cons_append,
      Token.next?_cons (by decide), hstart, hscan]
    simp [numberToken, hn]
  · rw [if_neg hn, List.nil_append]
    -- Without a sign the first digit tells that a number starts here.
    cases hd : Nat.toDigits 10 n.natAbs with
    | nil => exact absurd hd Nat.toDigits_ne_nil
    | cons c cs =>
      have hc : c.isDigit = true := isDigit_toDigits n.natAbs c (by simp [hd])
      have hspace : Glyph.isSpace (some c) = false := by
        have hother := Token.ne_of_isDigit hc
        simp [Glyph.isSpace, hother ' ' (by decide), hother '\n' (by decide),
          hother '\t' (by decide), hother '\r' (by decide)]
      specialize hscan false
      rw [hd, List.map_cons, List.cons_append] at hscan
      rw [List.map_cons, List.cons_append, Token.next?_cons hspace, Token.start_digit hc, hscan]
      simp [numberToken, hn, hd]

theorem next?_write {v : Value} (hv : v.Plain) {r : List Glyph} (hr : Delimited r) :
    Token.next? (v.write.map some ++ r) = some (v.token, r) := by
  cases v with
  | null =>
    rw [Value.write]
    rfl
  | bool b => cases b <;> rw [Value.write] <;> rfl
  | string s =>
    rw [Value.write, writeString, List.map_cons, List.cons_append, Token.next?_cons (by decide),
      Token.start_string]
    rfl
  | number n =>
    cases n with
    | float x => exact hv.elim
    | int n =>
      rw [Value.write, Number.write]
      exact next?_int n hr
  | array items | object members => exact hv.elim

theorem tokens_write {v : Value} (hv : v.Plain) {r : List Glyph} (hr : Delimited r) :
    tokens (v.write.map some ++ r) = v.token :: tokens r :=
  tokens_of_next?_some (next?_write hv hr)

theorem tokens_name (n : String) (r : List Glyph) :
    tokens ((writeString n).map some ++ some ':' :: r) =
      .string (stringToken n) :: .colon :: tokens r := by
  have hname : Token.next? ((writeString n).map some ++ some ':' :: r) =
      some (.string (stringToken n), some ':' :: r) := by
    rw [writeString, List.map_cons, List.cons_append, Token.next?_cons (by decide),
      Token.start_string]
  have hcolon : Token.next? (some ':' :: r) = some (.colon, r) := rfl
  rw [tokens_of_next?_some hname, tokens_of_next?_some hcolon]

def memberTokens : List (String × Value) → List Token
  | [] => []
  | [(n, v)] => [.string (stringToken n), .colon, v.token]
  | (n, v) :: m :: r =>
    .string (stringToken n) :: .colon :: v.token :: .comma :: memberTokens (m :: r)

theorem tokens_members {ms : List (String × Value)} (hms : ∀ m ∈ ms, m.2.Plain) (r : List Glyph) :
    tokens ((Value.writeMembers ms).map some ++ some '\x7d' :: r) =
      memberTokens ms ++ .closeBrace :: tokens r := by
  have hclose : Token.next? (some '\x7d' :: r) = some (.closeBrace, r) := rfl
  have hend : Delimited (some '\x7d' :: r) := by
    intro g hg
    simp at hg
    simp [← hg]
  fun_induction memberTokens ms with
  | case1 =>
    rw [Value.writeMembers]
    exact tokens_of_next?_some hclose
  | case2 n v =>
    have hv : v.Plain := hms (n, v) (by simp)
    have happ : (Value.writeMembers [(n, v)]).map some ++ some '\x7d' :: r =
        (writeString n).map some ++ some ':' :: (v.write.map some ++ some '\x7d' :: r) := by
      simp [Value.writeMembers]
    rw [happ, tokens_name, tokens_write hv hend, tokens_of_next?_some hclose]
    rfl
  | case3 n v m ms ih =>
    have hv : v.Plain := hms (n, v) (by simp)
    have happ : (Value.writeMembers ((n, v) :: m :: ms)).map some ++ some '\x7d' :: r =
        (writeString n).map some ++ some ':' :: (v.write.map some ++ some ',' ::
          ((Value.writeMembers (m :: ms)).map some ++ some '\x7d' :: r)) := by
      simp [Value.writeMembers]
    have hcomma : ∀ r, Token.next? (some ',' :: r) = some (.comma, r) := fun _ => rfl
    have hnext : ∀ r, Delimited (some ',' :: r) := by
      intro r g hg
      simp at hg
      simp [← hg]
    rw [happ, tokens_name, tokens_write hv (hnext _), tokens_of_next?_some (hcomma _),
      ih fun x hx => hms x (List.mem_cons_of_mem _ hx)]
    rfl

namespace Draft

def ofMember (m : String × Value) : StringToken × Draft := (stringToken m.1, m.2.draft)

theorem build_value {v : Value} (hv : v.Plain) (ts : List Token) (f : Frame) (st : List Frame) :
    build (v.token :: ts) .value (f :: st) = build ts (.done v.draft) (f :: st) := by
  cases v with
  | null | bool b | string s => rfl
  | number n =>
    cases n with
    | int n => rfl
    | float x => exact hv.elim
  | array items | object members => exact hv.elim

theorem build_members {ms : List (String × Value)} (hms : ∀ m ∈ ms, m.2.Plain) (hne : ms ≠ [])
    (acc : List (StringToken × Draft)) (ts : List Token) :
    build (memberTokens ms ++ .closeBrace :: ts) (.name acc) [] =
      build ts (.done (.object (acc.reverse ++ ms.map ofMember) .closed)) [] := by
  fun_induction memberTokens ms generalizing acc with
  | case1 => exact absurd rfl hne
  | case2 n v =>
    have hv : v.Plain := hms (n, v) (by simp)
    have hname : build ([.string (stringToken n), .colon, v.token] ++ .closeBrace :: ts)
        (.name acc) [] = build (v.token :: .closeBrace :: ts) .value [.object acc (stringToken n)] :=
      rfl
    have hclose : build (.closeBrace :: ts) (.done v.draft) [.object acc (stringToken n)] =
        build ts (.done (.object ((stringToken n, v.draft) :: acc).reverse .closed)) [] := rfl
    rw [hname, build_value hv, hclose]
    simp [ofMember]
  | case3 n v m ms ih =>
    have hv : v.Plain := hms (n, v) (by simp)
    have hname : ∀ r, build (.string (stringToken n) :: .colon :: v.token :: .comma :: r)
        (.name acc) [] = build (v.token :: .comma :: r) .value [.object acc (stringToken n)] :=
      fun _ => rfl
    have hcomma : ∀ r, build (.comma :: r) (.done v.draft) [.object acc (stringToken n)] =
        build r (.name ((stringToken n, v.draft) :: acc)) [] := fun _ => rfl
    simp only [List.cons_append]
    rw [hname, build_value hv, hcomma, ih (fun x hx => hms x (List.mem_cons_of_mem _ hx)) (by simp)]
    simp [ofMember]

theorem ofTokens_members {ms : List (String × Value)} (hms : ∀ m ∈ ms, m.2.Plain) :
    ofTokens (.openBrace :: memberTokens ms ++ [.closeBrace]) =
      (.object (ms.map ofMember) .closed, []) := by
  have hopen : ∀ ts, ofTokens (.openBrace :: ts) = build ts .firstName [] := fun _ => rfl
  rw [List.cons_append, hopen]
  cases ms with
  | nil => rfl
  | cons m ms =>
    -- The first name may not follow a comma, otherwise its place is that of every name.
    have hfirst : build (memberTokens (m :: ms) ++ [.closeBrace]) .firstName [] =
        build (memberTokens (m :: ms) ++ [.closeBrace]) (.name []) [] := by
      cases ms <;> rfl
    rw [hfirst, build_members hms (by simp)]
    rfl

end Draft

/-- A reader of a text that was written for a flat object sees the members, and nothing else. -/
theorem readText_object {α : Type} (reader : Draft → Except Error α) {ms : List (String × Value)}
    (hms : ∀ m ∈ ms, m.2.Plain) :
    readText reader (Value.object ms).render =
      reader (.object (ms.map Draft.ofMember) .closed) := by
  have hopen : ∀ r, Token.next? (some '\x7b' :: r) = some (.openBrace, r) := fun _ => rfl
  have hglyphs : glyphs (Value.object ms).render =
      some '\x7b' :: ((Value.writeMembers ms).map some ++ [some '\x7d']) := by
    simp [glyphs, Value.render, Value.write]
  have htokens : tokens (glyphs (Value.object ms).render) =
      .openBrace :: memberTokens ms ++ [.closeBrace] := by
    rw [hglyphs, tokens_of_next?_some (hopen _), tokens_members hms,
      tokens_of_next?_none rfl]
    rfl
  rw [readText, readGlyphs, htokens, Draft.ofTokens_members hms]
  dsimp only
  cases reader (.object (ms.map Draft.ofMember) .closed) <;> rfl

end EventGateway.Json
