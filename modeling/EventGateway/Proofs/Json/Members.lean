import EventGateway.Proofs.Json.Building

/-! The members of an object by their names, and records that are read from them. -/

namespace EventGateway.Json

/-- The values of the members of a name, in order. -/
def valuesOf (name : String) (ms : List (String × Value)) : List Value :=
  (ms.filter fun m => m.1 = name).map Prod.snd

/-- The last value of a name, if there is one. -/
def lastOf (name : String) (ms : List (String × Value)) : List Value :=
  (valuesOf name ms).getLast?.toList

/-- The members of all other names. -/
def without (name : String) (ms : List (String × Value)) : List (String × Value) :=
  ms.filter fun m => m.1 ≠ name

variable {name other : String} {v : Value} {ms : List (String × Value)}

theorem valuesOf_append (name : String) (ms ns : List (String × Value)) :
    valuesOf name (ms ++ ns) = valuesOf name ms ++ valuesOf name ns := by simp [valuesOf]

theorem valuesOf_cons_same (name : String) (v : Value) (ms : List (String × Value)) :
    valuesOf name ((name, v) :: ms) = v :: valuesOf name ms := by simp [valuesOf]

theorem valuesOf_cons_other (h : other ≠ name) (v : Value) (ms : List (String × Value)) :
    valuesOf name ((other, v) :: ms) = valuesOf name ms := by simp [valuesOf, h]

theorem valuesOf_filter {p : String → Bool} (hp : p name = true) (ms : List (String × Value)) :
    valuesOf name (ms.filter fun m => p m.1) = valuesOf name ms := by
  unfold valuesOf
  rw [List.filter_filter]
  congr 1
  refine List.filter_congr fun m _ => ?_
  by_cases hm : m.1 = name <;> simp [hm, hp]

theorem valuesOf_without (h : name ≠ other) (ms : List (String × Value)) :
    valuesOf name (without other ms) = valuesOf name ms :=
  valuesOf_filter (p := fun n => n ≠ other) (by simpa using h) ms

theorem without_cons_same (name : String) (v : Value) (ms : List (String × Value)) :
    without name ((name, v) :: ms) = without name ms := by simp [without]

theorem without_cons_other (h : other ≠ name) (v : Value) (ms : List (String × Value)) :
    without name ((other, v) :: ms) = (other, v) :: without name ms := by simp [without, h]

theorem valuesOf_eq_nil (h : ∀ m ∈ ms, m.1 ≠ name) : valuesOf name ms = [] := by
  have hfilter : (ms.filter fun m => m.1 = name) = [] :=
    List.filter_eq_nil_iff.mpr fun m hm => by simpa using h m hm
  rw [valuesOf, hfilter, List.map_nil]

theorem valuesOf_perm {ms ms' : List (String × Value)} (hp : ms.Perm ms') (name : String) :
    (valuesOf name ms).Perm (valuesOf name ms') :=
  (hp.filter _).map Prod.snd

/-- Two members of different names, in either order. -/
theorem valuesOf_pair {name other : String} (hne : name ≠ other) {v w : Value}
    {ms : List (String × Value)} (hperm : [(name, v), (other, w)].Perm ms) :
    valuesOf name ms = [v] ∧ valuesOf other ms = [w] := by
  have hfirst := valuesOf_perm hperm name
  have hsecond := valuesOf_perm hperm other
  rw [valuesOf_cons_same, valuesOf_cons_other hne.symm] at hfirst
  rw [valuesOf_cons_other hne, valuesOf_cons_same] at hsecond
  exact ⟨(List.singleton_perm.mp hfirst).symm, (List.singleton_perm.mp hsecond).symm⟩

theorem lastOf_snoc (name : String) (ms : List (String × Value)) (m : String × Value) :
    lastOf name (ms ++ [m]) = if m.1 = name then [m.2] else lastOf name ms := by
  by_cases hm : m.1 = name <;> simp [lastOf, valuesOf, hm]

namespace Fields

/-- The field has its value from the only member of its name, or from there being none. -/
def Reads {α : Type} (f : Field Value α) (vs : List Value) (a : α) : Prop :=
  vs = [] ∧ f.missing = some a ∨ ∃ v, vs = [v] ∧ f.read v = .ok a

/-- How the slot of a field is filled by the members of its name. -/
def Fills {α : Type} (f : Field Value α) (x : Option α) (vs : List Value) (y : Option α) : Prop :=
  vs = [] ∧ y = x ∨ x = none ∧ ∃ v a, vs = [v] ∧ f.read v = .ok a ∧ y = some a

variable {α : Type} {ts : List Type} {f : Field Value α} {fs : Fields Value ts}

theorem fills_cons {x y : Option α} {vs : List Value} : Fills f x (v :: vs) y ↔
    x = none ∧ ∃ a, f.read v = .ok a ∧ Fills f (some a) vs y := by
  constructor
  · rintro (⟨h, _⟩ | ⟨hx, w, a, hvs, hread, rfl⟩)
    · simp at h
    · obtain ⟨rfl, rfl⟩ : v = w ∧ vs = [] := by simpa using hvs
      exact ⟨hx, a, hread, .inl ⟨rfl, rfl⟩⟩
  · rintro ⟨hx, a, hread, ⟨rfl, rfl⟩ | ⟨h, _⟩⟩
    · exact .inr ⟨hx, v, a, rfl, hread, rfl⟩
    · simp at h

theorem foldlM_put_cons_ok {s s' : Slots (α :: ts)} {ms : List (String × Value)} :
    ms.foldlM (fun s m => (cons f fs).put Value.skipMember m.1 m.2 s) s = .ok s' ↔
      Fills f s.1 (valuesOf f.name ms) s'.1 ∧
        (without f.name ms).foldlM (fun s m => fs.put Value.skipMember m.1 m.2 s) s.2 =
          .ok s'.2 := by
  induction ms generalizing s with
  | nil =>
    obtain ⟨x, s⟩ := s
    obtain ⟨y, s'⟩ := s'
    constructor
    · intro h
      obtain ⟨rfl, rfl⟩ : x = y ∧ s = s' := Prod.mk.inj (Except.ok.inj h)
      exact ⟨.inl ⟨rfl, rfl⟩, rfl⟩
    · rintro ⟨⟨_, hx⟩ | ⟨_, v, a, h, _⟩, hs⟩
      · obtain rfl : y = x := hx
        obtain rfl : s = s' := Except.ok.inj hs
        rfl
      · simp [valuesOf] at h
  | cons m ms ih =>
    obtain ⟨name, v⟩ := m
    rw [List.foldlM_cons, bind_ok]
    simp only [put_cons_ok, ih]
    by_cases hname : name = f.name
    · rw [hname, without_cons_same, valuesOf_cons_same, fills_cons]
      constructor
      · rintro ⟨s₁, ⟨_, hfree, a, ha, rfl⟩ | ⟨h, _⟩, hfills, hrest⟩
        · exact ⟨⟨hfree, a, ha, hfills⟩, hrest⟩
        · exact absurd rfl h
      · rintro ⟨⟨hfree, a, ha, hfills⟩, hrest⟩
        exact ⟨_, .inl ⟨rfl, hfree, a, ha, rfl⟩, hfills, hrest⟩
    · rw [without_cons_other hname, valuesOf_cons_other hname, List.foldlM_cons, bind_ok]
      constructor
      · rintro ⟨s₁, ⟨h, _⟩ | ⟨_, r, hr, rfl⟩, hfills, hrest⟩
        · exact absurd h hname
        · exact ⟨hfills, r, hr, hrest⟩
      · rintro ⟨hfills, r, hr, hrest⟩
        exact ⟨_, .inr ⟨hname, r, hr, rfl⟩, hfills, hrest⟩

theorem finish_cons_ok {s : Slots (α :: ts)} {row : Row (α :: ts)} :
    (cons f fs).finish s = .ok row ↔
      (s.1 <|> f.missing) = some row.1 ∧ fs.finish s.2 = .ok row.2 := by
  obtain ⟨x, s⟩ := s
  rw [finish]
  dsimp only
  cases x <|> f.missing with
  | none => simp [DataError.throw]
  | some b =>
    cases fs.finish s with
    | error e => exact iff_of_false error_ne_ok fun h => error_ne_ok h.2
    | ok r =>
      constructor
      · intro h
        obtain rfl : ((b, r) : Row (α :: ts)) = row := Except.ok.inj h
        exact ⟨rfl, rfl⟩
      · rintro ⟨hb, hr⟩
        obtain rfl : b = row.1 := Option.some.inj hb
        obtain rfl : r = row.2 := Except.ok.inj hr
        rfl

/-- A record is read field by field, each from the members of its name. -/
theorem ofMembers_cons_ok {row : Row (α :: ts)} {ms : List (String × Value)} :
    (cons f fs).ofMembers Value.skipMember ms = .ok row ↔
      Reads f (valuesOf f.name ms) row.1 ∧
        fs.ofMembers Value.skipMember (without f.name ms) = .ok row.2 := by
  rw [ofMembers, ofMembers, bind_ok, bind_ok]
  constructor
  · rintro ⟨s, hfold, hrow⟩
    obtain ⟨hfills, hrest⟩ := foldlM_put_cons_ok.mp hfold
    obtain ⟨ha, hrow⟩ := finish_cons_ok.mp hrow
    refine ⟨?_, s.2, hrest, hrow⟩
    rcases hfills with ⟨hvs, hs⟩ | ⟨_, v, b, hvs, hread, hs⟩
    · rw [hs] at ha
      exact .inl ⟨hvs, ha⟩
    · rw [hs] at ha
      obtain rfl := Option.some.inj ha
      exact .inr ⟨v, hvs, hread⟩
  · rintro ⟨⟨hvs, hmissing⟩ | ⟨v, hvs, hread⟩, s, hrest, hrow⟩
    · exact ⟨(none, s), foldlM_put_cons_ok.mpr ⟨.inl ⟨hvs, rfl⟩, hrest⟩,
        finish_cons_ok.mpr ⟨hmissing, hrow⟩⟩
    · exact ⟨(some row.1, s), foldlM_put_cons_ok.mpr ⟨.inr ⟨rfl, v, row.1, hvs, hread, rfl⟩, hrest⟩,
        finish_cons_ok.mpr ⟨rfl, hrow⟩⟩

/-- No members are wanted, and whatever there are may be passed over. -/
theorem ofMembers_nil (ms : List (String × Value)) (row : Row []) :
    (nil : Fields Value []).ofMembers Value.skipMember ms = .ok row := by
  have hskip : ∀ m ∈ ms, Value.skipMember m.2 = .ok () ∧ m.1 ∉ (nil : Fields Value []).names :=
    fun _ _ => ⟨rfl, List.not_mem_nil⟩
  rw [ofMembers, bind_ok]
  exact ⟨(), foldlM_put_other nil hskip (), rfl⟩

theorem ofMembers_last_ok {row : Row [α]} {ms : List (String × Value)} :
    (cons f nil).ofMembers Value.skipMember ms = .ok row ↔
      Reads f (valuesOf f.name ms) row.1 :=
  ofMembers_cons_ok.trans (and_iff_left (ofMembers_nil _ _))

theorem read_scalar_ok {name : String} {read : Face → Except DataError α} {v : Value} {a : α} :
    (Field.scalar Value.faceOf name read).read v = .ok a ↔ read v.face = .ok a := by
  have hread : (Field.scalar Value.faceOf name read).read v = (read v.face).mapError .data := rfl
  rw [hread, mapError_ok]

theorem reads_text {name expected s : String} {vs : List Value} :
    Reads (.scalar Value.faceOf name (Face.text expected)) vs s ↔ vs = [.string s] := by
  constructor
  · rintro (⟨_, h⟩ | ⟨v, rfl, h⟩)
    · simp [Field.scalar] at h
    · cases v <;> simp [read_scalar_ok, Value.face, Face.text] at h
      rw [h]
  · rintro rfl
    exact .inr ⟨_, rfl, read_scalar_ok.mpr rfl⟩

theorem reads_flag {name : String} {b : Bool} {vs : List Value} :
    Reads (.scalar Value.faceOf name Face.flag) vs b ↔ vs = [.bool b] := by
  constructor
  · rintro (⟨_, h⟩ | ⟨v, rfl, h⟩)
    · simp [Field.scalar] at h
    · cases v <;> simp [read_scalar_ok, Value.face, Face.flag] at h
      rw [h]
  · rintro rfl
    exact .inr ⟨_, rfl, read_scalar_ok.mpr rfl⟩

theorem int64_ok {f : Face} {n : Int64} :
    Face.int64 f = .ok n ↔ f = .number (.int n.toInt) := by
  constructor
  · intro h
    obtain ⟨i, hi, rfl⟩ := map_ok.mp h
    unfold Face.integer at hi
    split at hi
    next j =>
      split at hi
      next hrange =>
        obtain rfl := Except.ok.inj hi
        have hhigh := hrange.2
        rw [Int64.toInt_maxValue] at hhigh
        rw [Int64.toInt_ofInt_of_le (by simpa using hrange.1) (by omega)]
      · simp at hi
    · simp at hi
  · rintro rfl
    exact Face.int64_toInt n

theorem reads_int64 {name : String} {n : Int64} {vs : List Value} :
    Reads (.scalar Value.faceOf name Face.int64) vs n ↔ vs = [.number (.int n.toInt)] := by
  constructor
  · rintro (⟨_, h⟩ | ⟨v, rfl, h⟩)
    · simp [Field.scalar] at h
    · rw [read_scalar_ok, int64_ok] at h
      cases v <;> simp [Value.face] at h
      rw [h]
  · rintro rfl
    exact .inr ⟨_, rfl, read_scalar_ok.mpr (int64_ok.mpr rfl)⟩

/-- At most one value, which may be null. -/
def MaybeText (vs : List Value) (s : Option String) : Prop :=
  (vs = [] ∨ vs = [.null]) ∧ s = none ∨ ∃ t, vs = [.string t] ∧ s = some t

theorem optional_text_ok {expected : String} {s : Option String} {v : Value} :
    v.face.optional (Face.text expected) = .ok s ↔
      v = .null ∧ s = none ∨ ∃ t, v = .string t ∧ s = some t := by
  constructor
  · cases v <;> simp [Value.face, Face.optional, Face.text, Except.map]
    all_goals exact Eq.symm
  · rintro (⟨rfl, rfl⟩ | ⟨t, rfl, rfl⟩) <;> rfl

theorem reads_optional {name expected : String} {s : Option String} {vs : List Value} :
    Reads (.optional Value.faceOf name (Face.text expected)) vs s ↔ MaybeText vs s := by
  have hread {v : Value} : (Field.optional Value.faceOf name (Face.text expected)).read v = .ok s ↔
      v = .null ∧ s = none ∨ ∃ t, v = .string t ∧ s = some t :=
    (@read_scalar_ok _ name _ v s).trans optional_text_ok
  constructor
  · rintro (⟨rfl, h⟩ | ⟨v, rfl, h⟩)
    · exact .inl ⟨.inl rfl, (Option.some.inj h).symm⟩
    · rcases hread.mp h with ⟨rfl, rfl⟩ | ⟨t, rfl, rfl⟩
      · exact .inl ⟨.inr rfl, rfl⟩
      · exact .inr ⟨t, rfl, rfl⟩
  · rintro (⟨rfl | rfl, rfl⟩ | ⟨t, rfl, rfl⟩)
    · exact .inl ⟨rfl, rfl⟩
    · exact .inr ⟨_, rfl, hread.mpr (.inl ⟨rfl, rfl⟩)⟩
    · exact .inr ⟨_, rfl, hread.mpr (.inr ⟨t, rfl, rfl⟩)⟩

theorem reads_lenient {name expected : String} {s : Option String} {vs : List Value} :
    Reads (.lenient Value.faceOf name (Face.text expected)) vs s ↔ MaybeText vs s :=
  @reads_optional name expected s vs

end Fields

end EventGateway.Json
