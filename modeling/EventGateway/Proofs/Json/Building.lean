import EventGateway.Proofs.Json.Lexing
import EventGateway.Proofs.Json.Records

/-! A draft that has a value was built from the symbols of that value, and from nothing else. -/

namespace EventGateway.Json

namespace Draft

mutual

/-- The tokens of a draft whose containers are closed. -/
def tokens : Draft → List Token
  | null => [.null]
  | bool b => [.bool b]
  | word cut => [.word cut]
  | number n => [.number n]
  | string s => [.string s]
  | array items _ => .openBracket :: ((itemTokens items).dropLast ++ [.closeBracket])
  | object members _ => .openBrace :: ((memberTokens members).dropLast ++ [.closeBrace])
  | absent rest => rest
  | uncoloned rest => rest

/-- With a comma behind each item. -/
def itemTokens : List Draft → List Token
  | [] => []
  | d :: r => tokens d ++ .comma :: itemTokens r

def memberTokens : List (StringToken × Draft) → List Token
  | [] => []
  | (n, d) :: r => .string n :: .colon :: (tokens d ++ .comma :: memberTokens r)

end

theorem itemTokens_snoc (ds : List Draft) (d : Draft) :
    itemTokens (ds ++ [d]) = itemTokens ds ++ (d.tokens ++ [.comma]) := by
  induction ds with
  | nil => rfl
  | cons x ds ih => simp [itemTokens, ih]

theorem memberTokens_snoc (ms : List (StringToken × Draft)) (n : StringToken) (d : Draft) :
    memberTokens (ms ++ [(n, d)]) =
      memberTokens ms ++ .string n :: .colon :: (d.tokens ++ [.comma]) := by
  induction ms with
  | nil => rfl
  | cons m ms ih => simp [memberTokens, ih]

theorem dropLast_itemTokens (ds : List Draft) (d : Draft) :
    (itemTokens (ds ++ [d])).dropLast = itemTokens ds ++ d.tokens := by
  rw [itemTokens_snoc, ← List.append_assoc, List.dropLast_concat]

theorem dropLast_memberTokens (ms : List (StringToken × Draft)) (n : StringToken) (d : Draft) :
    (memberTokens (ms ++ [(n, d)])).dropLast =
      memberTokens ms ++ .string n :: .colon :: d.tokens := by
  have hcomma : memberTokens (ms ++ [(n, d)]) =
      (memberTokens ms ++ .string n :: .colon :: d.tokens) ++ [.comma] := by
    simp [memberTokens_snoc]
  rw [hcomma, List.dropLast_concat]

def frameTokens : Frame → List Token
  | .array items => .openBracket :: itemTokens items.reverse
  | .object members n => .openBrace :: (memberTokens members.reverse ++ [.string n, .colon])

def stackTokens : List Frame → List Token
  | [] => []
  | f :: st => stackTokens st ++ frameTokens f

def placeTokens : Place → List Token
  | .value => []
  | .firstItem => [.openBracket]
  | .firstName => [.openBrace]
  | .name members => .openBrace :: memberTokens members.reverse
  | .colon members n => .openBrace :: (memberTokens members.reverse ++ [.string n])
  | .done d => d.tokens

/-- What has been read so far. -/
def consumed (st : List Frame) (p : Place) : List Token := stackTokens st ++ placeTokens p

/-- No reader gets a value out of the draft. -/
def Broken (d : Draft) : Prop := ∀ depth v, d.value depth ≠ .ok v

theorem broken_array (items : List Draft) (rest : List Token) :
    (array items (.stopped rest)).Broken := by
  intro depth v h
  rw [value] at h
  split at h
  · simp at h
  · obtain ⟨vs, _, h⟩ := bind_ok.mp h
    obtain ⟨_, hcheck, _⟩ := bind_ok.mp h
    simp [Ending.check] at hcheck

theorem broken_object (members : List (StringToken × Draft)) (rest : List Token) :
    (object members (.stopped rest)).Broken := by
  intro depth v h
  rw [value] at h
  split at h
  · simp at h
  · obtain ⟨ms, _, h⟩ := bind_ok.mp h
    obtain ⟨_, hcheck, _⟩ := bind_ok.mp h
    simp [Ending.check] at hcheck

theorem broken_absent (rest : List Token) : (absent rest).Broken := by simp [Broken, value]

theorem broken_uncoloned (rest : List Token) : (uncoloned rest).Broken := by simp [Broken, value]

theorem Broken.unwind {d : Draft} (hd : d.Broken) (st : List Frame) : (unwind st d).Broken := by
  induction st generalizing d with
  | nil => exact hd
  | cons f st ih =>
    cases f with
    | array items => exact ih (broken_array _ _)
    | object members n => exact ih (broken_object _ _)

/-- A step goes on with its token consumed, or nobody can read what it leaves. -/
def Step.Keeps (before : List Token) (t : Token) : Step → Prop
  | .go p st => consumed st p = before ++ [t]
  | .halt d => d.Broken

theorem stepValue_keeps (t : Token) (ts : List Token) (st : List Frame) :
    (stepValue t ts st).Keeps (stackTokens st) t := by
  cases t with
  | closeBrace | closeBracket | colon | comma | stray =>
    exact (broken_absent _).unwind st
  | openBrace | openBracket | null | bool b | word b | number n | string s => rfl

theorem stepDone_keeps (d : Draft) (t : Token) (ts : List Token) (f : Frame) (st : List Frame) :
    (stepDone d t ts (f :: st)).Keeps (consumed (f :: st) (.done d)) t := by
  cases f with
  | array items =>
    cases t with
    | closeBracket =>
      simp [stepDone, Step.Keeps, consumed, stackTokens, frameTokens, placeTokens, tokens,
        dropLast_itemTokens]
    | comma =>
      have hgo : consumed (.array (d :: items) :: st) .value =
          consumed (.array items :: st) (.done d) ++ [.comma] := by
        simp [consumed, stackTokens, frameTokens, placeTokens, itemTokens_snoc]
      match ts with
      | [] | .closeBracket :: _ => exact (broken_array _ _).unwind st
      | .closeBrace :: _ | .openBrace :: _ | .openBracket :: _ | .colon :: _ | .comma :: _
      | .null :: _ | .bool _ :: _ | .word _ :: _ | .number _ :: _ | .string _ :: _ | .stray :: _ =>
        exact hgo
    | _ => exact (broken_array _ _).unwind st
  | object members n =>
    cases t with
    | closeBrace =>
      simp [stepDone, Step.Keeps, consumed, stackTokens, frameTokens, placeTokens, tokens,
        dropLast_memberTokens]
    | comma =>
      simp [stepDone, Step.Keeps, consumed, stackTokens, frameTokens, placeTokens,
        memberTokens_snoc]
    | _ => exact (broken_object _ _).unwind st

theorem step_keeps (t : Token) (ts : List Token) (st : List Frame) {p : Place}
    (hp : ∀ d, p ≠ .done d) : (step t ts st p).Keeps (consumed st p) t := by
  cases p with
  | value =>
    have hvalue := stepValue_keeps t ts st
    simpa [step, consumed, placeTokens] using hvalue
  | firstItem =>
    have hvalue := stepValue_keeps t ts (.array [] :: st)
    cases t with
    | closeBracket => simp [step, Step.Keeps, consumed, placeTokens, tokens, itemTokens]
    | _ => simpa [step, consumed, stackTokens, frameTokens, placeTokens, itemTokens] using hvalue
  | firstName =>
    cases t with
    | closeBrace => simp [step, Step.Keeps, consumed, placeTokens, tokens, memberTokens]
    | string s => simp [step, Step.Keeps, consumed, placeTokens, memberTokens]
    | _ => exact (broken_object _ _).unwind st
  | name members =>
    cases t with
    | string s => simp [step, Step.Keeps, consumed, placeTokens]
    | _ => exact (broken_object _ _).unwind st
  | colon members n =>
    cases t with
    | colon => simp [step, Step.Keeps, consumed, stackTokens, frameTokens, placeTokens]
    | _ => exact (broken_uncoloned _).unwind _
  | done d => exact absurd rfl (hp d)

theorem broken_atEnd (st : List Frame) {p : Place} (hp : ∀ d, p = .done d → st ≠ []) :
    (atEnd st p).Broken := by
  cases p with
  | value => exact (broken_absent _).unwind st
  | firstItem => exact (broken_array _ _).unwind st
  | firstName | name members => exact (broken_object _ _).unwind st
  | colon members n => exact (broken_uncoloned _).unwind _
  | done d =>
    cases st with
    | nil => exact absurd rfl (hp d rfl)
    | cons f st =>
      cases f with
      | array items => exact (broken_array _ _).unwind st
      | object members n => exact (broken_object _ _).unwind st

/-- A draft that has a value was built from its own tokens. -/
theorem tokens_of_build {ts rest : List Token} {p : Place} {st : List Frame} {d : Draft}
    (h : build ts p st = (d, rest)) (hd : ¬ d.Broken) : consumed st p ++ ts = d.tokens ++ rest := by
  -- In each step what is consumed and what is still to come make up the same tokens.
  induction ts generalizing p st with
  | nil =>
    obtain ⟨rfl, rfl⟩ : atEnd st p = d ∧ [] = rest := by simpa [build] using h
    by_cases hp : ∀ d, p = .done d → st ≠ []
    · exact absurd (broken_atEnd st hp) hd
    · push Not at hp
      obtain ⟨d, rfl, rfl⟩ := hp
      rfl
  | cons t ts ih =>
    have hgo : ∀ s : Step, s.Keeps (consumed st p) t →
        (match s with
        | .go p stack => build ts p stack
        | .halt d => (d, [])) = (d, rest) → consumed st p ++ t :: ts = d.tokens ++ rest := by
      intro s hkeeps hs
      cases s with
      | halt x =>
        obtain ⟨rfl, _⟩ : x = d ∧ _ := by simpa using hs
        exact absurd hkeeps hd
      | go p' st' =>
        have hrest := ih hs
        rw [show consumed st' p' = consumed st p ++ [t] from hkeeps] at hrest
        simpa using hrest
    cases p with
    | done x =>
      cases st with
      | nil =>
        obtain ⟨rfl, rfl⟩ : x = d ∧ t :: ts = rest := by simpa [build] using h
        rfl
      | cons f st => exact hgo _ (stepDone_keeps x t ts f st) h
    | _ => exact hgo _ (step_keeps t ts st (by simp)) h

/-! The value of a draft is derived from the tokens of the draft. -/

variable {depth : Nat}

theorem itemValues_cons_ok {d : Draft} {ds : List Draft} {vs : List Value} :
    itemValues depth (d :: ds) = .ok vs ↔
      ∃ v ws, d.value depth = .ok v ∧ itemValues depth ds = .ok ws ∧ v :: ws = vs := by
  rw [itemValues, bind_ok]
  refine exists_congr fun v => ?_
  rw [bind_ok]
  simp only [ok_inj, exists_and_left]

theorem memberValues_cons_ok {n : StringToken} {d : Draft} {ms : List (StringToken × Draft)}
    {vs : List (String × Value)} : memberValues depth ((n, d) :: ms) = .ok vs ↔
      ∃ name v ws, n.read = .ok name ∧ d.value depth = .ok v ∧
        memberValues depth ms = .ok ws ∧ (name, v) :: ws = vs := by
  rw [memberValues, bind_ok]
  refine exists_congr fun name => ?_
  rw [bind_ok]
  simp only [bind_ok, ok_inj, exists_and_left]

theorem dropLast_itemTokens_cons (d x : Draft) (ds : List Draft) :
    (itemTokens (d :: x :: ds)).dropLast =
      d.tokens ++ .comma :: (itemTokens (x :: ds)).dropLast := by
  have hne : itemTokens (x :: ds) ≠ [] := by simp [itemTokens]
  rw [itemTokens, List.dropLast_append_of_ne_nil (List.cons_ne_nil _ _),
    List.dropLast_cons_of_ne_nil hne]

theorem dropLast_memberTokens_cons (n : StringToken) (d : Draft) (m : StringToken × Draft)
    (ms : List (StringToken × Draft)) : (memberTokens ((n, d) :: m :: ms)).dropLast =
      .string n :: .colon :: (d.tokens ++ .comma :: (memberTokens (m :: ms)).dropLast) := by
  have hne : memberTokens (m :: ms) ≠ [] := by simp [memberTokens]
  rw [memberTokens, List.dropLast_cons_of_ne_nil (List.cons_ne_nil _ _),
    List.dropLast_cons_of_ne_nil (by simp), List.dropLast_append_of_ne_nil (List.cons_ne_nil _ _),
    List.dropLast_cons_of_ne_nil hne]

mutual

theorem derives_of_value : ∀ (d : Draft) {depth : Nat} {v : Value}, d.value depth = .ok v →
    ∃ ys, List.Forall₂ Means d.tokens ys ∧ Derives depth ys (.value v)
  | null, depth, v, h => by
    obtain rfl : Value.null = v := by simpa [value] using h
    exact ⟨[.null], .cons .null .nil, .null⟩
  | bool b, depth, v, h => by
    obtain rfl : Value.bool b = v := by simpa [value] using h
    exact ⟨[.bool b], .cons (.bool b) .nil, .bool b⟩
  | word cut, depth, v, h => by simp [value] at h
  | absent rest, depth, v, h => by simp [value] at h
  | uncoloned rest, depth, v, h => by simp [value] at h
  | number t, depth, v, h => by
    obtain ⟨n, hn, rfl⟩ := map_ok.mp h
    exact ⟨[.number n], .cons (.number hn) .nil, .number n⟩
  | string t, depth, v, h => by
    obtain ⟨s, hs, rfl⟩ := map_ok.mp h
    exact ⟨[.string s], .cons (.string hs) .nil, .string s⟩
  | array items e, depth, v, h => by
    rw [value] at h
    split at h
    · simp at h
    next hd =>
      obtain ⟨vs, hvs, h⟩ := bind_ok.mp h
      obtain ⟨_, _, h⟩ := bind_ok.mp h
      obtain rfl := ok_inj.mp h
      have hdepth : depth ≤ 127 := Nat.le_of_not_lt hd
      cases items with
      | nil =>
        obtain rfl : [] = vs := by simpa [itemValues] using hvs
        exact ⟨_, .cons .openBracket (.cons .closeBracket .nil), .emptyArray hdepth⟩
      | cons d ds =>
        obtain ⟨ys, hys, hderives⟩ := derives_of_items (d :: ds) (by simp) hvs
        exact ⟨_, .cons .openBracket (List.rel_append hys (.cons .closeBracket .nil)),
          .array hdepth hderives⟩
  | object members e, depth, v, h => by
    rw [value] at h
    split at h
    · simp at h
    next hd =>
      obtain ⟨vs, hvs, h⟩ := bind_ok.mp h
      obtain ⟨_, _, h⟩ := bind_ok.mp h
      obtain rfl := ok_inj.mp h
      have hdepth : depth ≤ 127 := Nat.le_of_not_lt hd
      cases members with
      | nil =>
        obtain rfl : [] = vs := by simpa [memberValues] using hvs
        exact ⟨_, .cons .openBrace (.cons .closeBrace .nil), .emptyObject hdepth⟩
      | cons m ms =>
        obtain ⟨ys, hys, hderives⟩ := derives_of_members (m :: ms) (by simp) hvs
        exact ⟨_, .cons .openBrace (List.rel_append hys (.cons .closeBrace .nil)),
          .object hdepth hderives⟩

theorem derives_of_items : ∀ (ds : List Draft) {depth : Nat} {vs : List Value}, ds ≠ [] →
    itemValues depth ds = .ok vs →
    ∃ ys, List.Forall₂ Means (itemTokens ds).dropLast ys ∧ Derives depth ys (.items vs)
  | [], depth, vs, hne, h => absurd rfl hne
  | [d], depth, vs, hne, h => by
    obtain ⟨v, ws, hv, hws, rfl⟩ := itemValues_cons_ok.mp h
    obtain rfl : [] = ws := by simpa [itemValues] using hws
    obtain ⟨ys, hys, hderives⟩ := derives_of_value d hv
    refine ⟨ys, ?_, .lastItem hderives⟩
    simpa [itemTokens] using hys
  | d :: x :: ds, depth, vs, hne, h => by
    obtain ⟨v, ws, hv, hws, rfl⟩ := itemValues_cons_ok.mp h
    obtain ⟨ys, hys, hderives⟩ := derives_of_value d hv
    obtain ⟨zs, hzs, hrest⟩ := derives_of_items (x :: ds) (by simp) hws
    refine ⟨ys ++ .comma :: zs, ?_, .item hderives hrest⟩
    rw [dropLast_itemTokens_cons]
    exact List.rel_append hys (.cons .comma hzs)

theorem derives_of_members : ∀ (ms : List (StringToken × Draft)) {depth : Nat}
    {vs : List (String × Value)}, ms ≠ [] → memberValues depth ms = .ok vs →
    ∃ ys, List.Forall₂ Means (memberTokens ms).dropLast ys ∧ Derives depth ys (.members vs)
  | [], depth, vs, hne, h => absurd rfl hne
  | [(n, d)], depth, vs, hne, h => by
    obtain ⟨name, v, ws, hname, hv, hws, rfl⟩ := memberValues_cons_ok.mp h
    obtain rfl : [] = ws := by simpa [memberValues] using hws
    obtain ⟨ys, hys, hderives⟩ := derives_of_value d hv
    refine ⟨.string name :: .colon :: ys, ?_, .lastMember name hderives⟩
    have hone := dropLast_memberTokens [] n d
    rw [List.nil_append] at hone
    rw [hone]
    exact .cons (.string hname) (.cons .colon hys)
  | (n, d) :: m :: ms, depth, vs, hne, h => by
    obtain ⟨name, v, ws, hname, hv, hws, rfl⟩ := memberValues_cons_ok.mp h
    obtain ⟨ys, hys, hderives⟩ := derives_of_value d hv
    obtain ⟨zs, hzs, hrest⟩ := derives_of_members (m :: ms) (by simp) hws
    refine ⟨.string name :: .colon :: (ys ++ .comma :: zs), ?_, .member name hderives hrest⟩
    rw [dropLast_memberTokens_cons]
    exact .cons (.string hname) (.cons .colon (List.rel_append hys (.cons .comma hzs)))

end

/-! A derivation is followed by the builder, token after token. -/

theorem split_means {ts : List Token} {ys zs : List Symbol} (h : List.Forall₂ Means ts (ys ++ zs)) :
    ∃ us vs, ts = us ++ vs ∧ List.Forall₂ Means us ys ∧ List.Forall₂ Means vs zs :=
  ⟨ts.take ys.length, ts.drop ys.length, (List.take_append_drop _ _).symm,
    List.forall₂_take_append ts ys zs h, List.forall₂_drop_append ts ys zs h⟩

theorem build_firstItem {t : Token} (ht : t ≠ .closeBracket) (ts : List Token) (st : List Frame) :
    build (t :: ts) .firstItem st = build (t :: ts) .value (.array [] :: st) := by
  cases t with
  | closeBracket => exact absurd rfl ht
  | _ => rfl

theorem build_comma {t : Token} (ht : t ≠ .closeBracket) (d : Draft) (items : List Draft)
    (ts : List Token) (st : List Frame) :
    build (.comma :: t :: ts) (.done d) (.array items :: st) =
      build (t :: ts) .value (.array (d :: items) :: st) := by
  cases t with
  | closeBracket => exact absurd rfl ht
  | _ => rfl

/-- The tokens are built into something with the value, whatever is still open around it. -/
def Built (depth : Nat) (ts : List Token) : Form → Prop
  | .value v => (∃ t us, ts = t :: us ∧ t ≠ .closeBracket) ∧ ∃ d : Draft, d.value depth = .ok v ∧
      ∀ r st, build (ts ++ r) .value st = build r (.done d) st
  | .items vs => (∃ t us, ts = t :: us ∧ t ≠ .closeBracket) ∧
      ∃ ds, itemValues depth ds = .ok vs ∧ ∀ acc r st,
        build (ts ++ .closeBracket :: r) .value (.array acc :: st) =
          build r (.done (.array (acc.reverse ++ ds) .closed)) st
  | .members ms => (∃ n us, ts = .string n :: us) ∧ ∃ ds, memberValues depth ds = .ok ms ∧
      ∀ acc r st, build (ts ++ .closeBrace :: r) (.name acc) st =
        build r (.done (.object (acc.reverse ++ ds) .closed)) st

variable {ts us : List Token} {v : Value} {vs : List Value} {name : StringToken} {n : String}
  {ms : List (String × Value)}

theorem not_too_deep (hd : depth ≤ 127) : ¬ depthLimit < depth := Nat.not_lt_of_le hd

theorem Built.array (hd : depth ≤ 127) (h : Built (depth + 1) ts (.items vs)) :
    Built depth (.openBracket :: (ts ++ [.closeBracket])) (.value (.array vs)) := by
  obtain ⟨⟨t, us, rfl, ht⟩, ds, hds, hbuild⟩ := h
  refine ⟨⟨_, _, rfl, by simp⟩, .array ds .closed, ?_, fun r st => ?_⟩
  · rw [value, if_neg (not_too_deep hd), hds]
    rfl
  · have hopen : build (.openBracket :: (t :: us ++ [.closeBracket]) ++ r) .value st =
        build (t :: (us ++ .closeBracket :: r)) .firstItem st := by
      simp [build, step, stepValue]
    rw [hopen, build_firstItem ht]
    exact hbuild [] r st

theorem Built.object (hd : depth ≤ 127) (h : Built (depth + 1) ts (.members ms)) :
    Built depth (.openBrace :: (ts ++ [.closeBrace])) (.value (.object ms)) := by
  obtain ⟨⟨name, us, rfl⟩, ds, hds, hbuild⟩ := h
  refine ⟨⟨_, _, rfl, by simp⟩, .object ds .closed, ?_, fun r st => ?_⟩
  · rw [value, if_neg (not_too_deep hd), hds]
    rfl
  · have hopen : build (.openBrace :: (.string name :: us ++ [.closeBrace]) ++ r) .value st =
        build (.string name :: us ++ .closeBrace :: r) (.name []) st := by
      simp [build, step, stepValue]
    rw [hopen]
    exact hbuild [] r st

theorem Built.lastItem (h : Built depth ts (.value v)) : Built depth ts (.items [v]) := by
  obtain ⟨hhead, d, hd, hbuild⟩ := h
  refine ⟨hhead, [d], itemValues_cons_ok.mpr ⟨v, [], hd, rfl, rfl⟩, fun acc r st => ?_⟩
  rw [hbuild, ← List.reverse_cons]
  rfl

theorem Built.item (h : Built depth ts (.value v)) (hs : Built depth us (.items vs)) :
    Built depth (ts ++ .comma :: us) (.items (v :: vs)) := by
  obtain ⟨⟨t, ts, rfl, ht⟩, d, hd, hbuild⟩ := h
  obtain ⟨⟨u, us, rfl, hu⟩, ds, hds, hrest⟩ := hs
  refine ⟨⟨t, _, rfl, ht⟩, d :: ds, itemValues_cons_ok.mpr ⟨v, vs, hd, hds, rfl⟩,
    fun acc r st => ?_⟩
  have hfirst : build (t :: ts ++ .comma :: u :: us ++ .closeBracket :: r) .value
      (.array acc :: st) =
        build (.comma :: u :: (us ++ .closeBracket :: r)) (.done d) (.array acc :: st) := by
    rw [← hbuild]
    simp
  have hnext := hrest (d :: acc) r st
  rw [List.cons_append] at hnext
  rw [hfirst, build_comma hu, hnext]
  simp

theorem Built.lastMember (hname : name.read = .ok n) (h : Built depth ts (.value v)) :
    Built depth (.string name :: .colon :: ts) (.members [(n, v)]) := by
  obtain ⟨_, d, hd, hbuild⟩ := h
  refine ⟨⟨name, _, rfl⟩, [(name, d)],
    memberValues_cons_ok.mpr ⟨n, v, [], hname, hd, rfl, rfl⟩, fun acc r st => ?_⟩
  have hcolon : build (.string name :: .colon :: ts ++ .closeBrace :: r) (.name acc) st =
      build (ts ++ .closeBrace :: r) .value (.object acc name :: st) := rfl
  rw [hcolon, hbuild, ← List.reverse_cons]
  rfl

theorem Built.member (hname : name.read = .ok n) (h : Built depth ts (.value v))
    (hs : Built depth us (.members ms)) :
    Built depth (.string name :: .colon :: (ts ++ .comma :: us)) (.members ((n, v) :: ms)) := by
  obtain ⟨_, d, hd, hbuild⟩ := h
  obtain ⟨_, ds, hds, hrest⟩ := hs
  refine ⟨⟨name, _, rfl⟩, (name, d) :: ds,
    memberValues_cons_ok.mpr ⟨n, v, ms, hname, hd, hds, rfl⟩, fun acc r st => ?_⟩
  have hcolon : build (.string name :: .colon :: (ts ++ .comma :: us) ++ .closeBrace :: r)
      (.name acc) st =
        build (ts ++ .comma :: (us ++ .closeBrace :: r)) .value (.object acc name :: st) := by
    simp [build, step]
  have hcomma : build (.comma :: (us ++ .closeBrace :: r)) (.done d) (.object acc name :: st) =
      build (us ++ .closeBrace :: r) (.name ((name, d) :: acc)) st := rfl
  rw [hcolon, hbuild, hcomma, hrest]
  simp

theorem built_of_derives {ys : List Symbol} {f : Form} (h : Derives depth ys f)
    (hts : List.Forall₂ Means ts ys) : Built depth ts f := by
  induction h generalizing ts with
  | null | bool b =>
    obtain _ | ⟨ht, hnil⟩ := hts
    cases hnil
    cases ht
    exact ⟨⟨_, _, rfl, by simp⟩, _, rfl, fun _ _ => rfl⟩
  | number n =>
    obtain _ | ⟨ht, hnil⟩ := hts
    cases hnil
    cases ht with
    | number hn => exact ⟨⟨_, _, rfl, by simp⟩, .number _, by rw [value, hn]; rfl, fun _ _ => rfl⟩
  | string s =>
    obtain _ | ⟨ht, hnil⟩ := hts
    cases hnil
    cases ht with
    | string hs => exact ⟨⟨_, _, rfl, by simp⟩, .string _, by rw [value, hs]; rfl, fun _ _ => rfl⟩
  | emptyArray hd =>
    obtain _ | ⟨ht, _ | ⟨hu, hnil⟩⟩ := hts
    cases hnil
    cases ht
    cases hu
    refine ⟨⟨_, _, rfl, by simp⟩, .array [] .closed, ?_, fun _ _ => rfl⟩
    rw [value, if_neg (not_too_deep hd)]
    rfl
  | emptyObject hd =>
    obtain _ | ⟨ht, _ | ⟨hu, hnil⟩⟩ := hts
    cases hnil
    cases ht
    cases hu
    refine ⟨⟨_, _, rfl, by simp⟩, .object [] .closed, ?_, fun _ _ => rfl⟩
    rw [value, if_neg (not_too_deep hd)]
    rfl
  | array hd _ ih =>
    obtain _ | ⟨ht, hrest⟩ := hts
    obtain ⟨ts, us, rfl, hts, _ | ⟨hu, hnil⟩⟩ := split_means hrest
    cases hnil
    cases ht
    cases hu
    exact (ih hts).array hd
  | object hd _ ih =>
    obtain _ | ⟨ht, hrest⟩ := hts
    obtain ⟨ts, us, rfl, hts, _ | ⟨hu, hnil⟩⟩ := split_means hrest
    cases hnil
    cases ht
    cases hu
    exact (ih hts).object hd
  | lastItem _ ih => exact (ih hts).lastItem
  | item _ _ ih ihs =>
    obtain ⟨ts, us, rfl, hfirst, _ | ⟨hcomma, hrest⟩⟩ := split_means hts
    cases hcomma
    exact (ih hfirst).item (ihs hrest)
  | lastMember n _ ih =>
    obtain _ | ⟨hn, _ | ⟨hcolon, hts⟩⟩ := hts
    cases hcolon
    cases hn with
    | string hn => exact (ih hts).lastMember hn
  | member n _ _ ih ihs =>
    obtain _ | ⟨hn, _ | ⟨hcolon, hts⟩⟩ := hts
    obtain ⟨ts, us, rfl, hfirst, _ | ⟨hcomma, hrest⟩⟩ := split_means hts
    cases hcolon
    cases hcomma
    cases hn with
    | string hn => exact (ih hfirst).member hn (ihs hrest)

/-- The readable drafts of whole texts are those of the texts that denote a value. -/
theorem denotes_iff {text : String} {v : Value} : Denotes text v ↔
    ∃ d : Draft, ofTokens (Json.tokens (glyphs text)) = (d, []) ∧ d.value 1 = .ok v := by
  constructor
  · rintro ⟨ys, hwritten, hderives⟩
    have hmeans := tokens_of_written hwritten hderives.apart
    obtain ⟨_, d, hd, hbuild⟩ := built_of_derives hderives hmeans
    refine ⟨d, ?_, hd⟩
    have hall := hbuild [] []
    rwa [List.append_nil] at hall
  · rintro ⟨d, hbuild, hd⟩
    obtain ⟨ys, hmeans, hderives⟩ := derives_of_value d hd
    have htokens := tokens_of_build hbuild fun hbroken => hbroken 1 v hd
    have hsame : Json.tokens (glyphs text) = d.tokens := by
      simpa [consumed, stackTokens, placeTokens] using htokens
    rw [← hsame] at hmeans
    exact ⟨ys, written_of_tokens hmeans, hderives⟩

end Draft

/-- A reader of whole texts wants nothing after the value. -/
theorem readText_ok {α : Type} {reader : Draft → Except Error α} {text : String} {a : α} :
    readText reader text = .ok a ↔
      ∃ d : Draft, Draft.ofTokens (Json.tokens (glyphs text)) = (d, []) ∧ reader d = .ok a := by
  rw [readText, readGlyphs]
  obtain ⟨d, rest⟩ := Draft.ofTokens (Json.tokens (glyphs text))
  rw [bind_ok]
  cases rest with
  | nil =>
    constructor
    · rintro ⟨b, hb, h⟩
      obtain rfl := Except.ok.inj h
      exact ⟨d, rfl, hb⟩
    · rintro ⟨d', hd, h⟩
      obtain rfl : d = d' := congrArg Prod.fst hd
      exact ⟨a, h, rfl⟩
  | cons t ts =>
    constructor
    · rintro ⟨b, _, h⟩
      exact absurd h error_ne_ok
    · rintro ⟨d', hd, _⟩
      exact absurd (congrArg Prod.snd hd) (List.cons_ne_nil t ts)

theorem Denotes.unique {text : String} {v w : Value} (hv : Denotes text v) (hw : Denotes text w) :
    v = w := by
  obtain ⟨d, hd, hv⟩ := Draft.denotes_iff.mp hv
  obtain ⟨d', hd', hw⟩ := Draft.denotes_iff.mp hw
  obtain ⟨rfl, _⟩ := Prod.mk.inj (hd.symm.trans hd')
  exact Except.ok.inj (hv.symm.trans hw)

end EventGateway.Json
