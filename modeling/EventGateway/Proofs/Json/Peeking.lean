import EventGateway.Json.Variant
import EventGateway.Proofs.Json.Members

/-! Readers of different strictness on one text. What can be read as a value can be passed over, and
a reader of single members sees in the draft of an object what is in the members of its value. -/

namespace EventGateway.Json

theorem fromText_ok {α : Type} {r : Except SyntaxError α} {a : α} :
    fromText r = .ok a ↔ r = .ok a := mapError_ok

theorem Ending.check_ok {error : List Token → SyntaxError} {e : Ending} {u : Unit} :
    e.check error = .ok u ↔ e = .closed := by
  cases e <;> simp [check]

theorem StringToken.skip_of_read {t : StringToken} {s : String} (h : t.read = .ok s) :
    t.skip = .ok () := by
  unfold StringToken.read at h
  split at h
  · exact nomatch h
  next gs hjoin =>
    rw [skip, closed_of_join hjoin]
    rfl

theorem NumberToken.skip_of_read {t : NumberToken} {n : Number} (h : t.read = .ok n) :
    t.skip = .ok () := by
  unfold NumberToken.read at h
  split at h
  next hcomplete => rw [skip, if_pos hcomplete]
  · exact nomatch h
  · exact nomatch h

namespace Draft

variable {depth : Nat}

mutual

/-- Whoever reads a value looks at everything that passing over it does. -/
theorem skip_of_value : ∀ (d : Draft) {depth : Nat} {v : Value}, d.value depth = .ok v →
    d.skip = .ok ()
  | null, _, _, _ => rfl
  | bool _, _, _, _ => rfl
  | number _, _, _, h => by
    obtain ⟨_, hread, _⟩ := map_ok.mp h
    exact NumberToken.skip_of_read hread
  | string _, _, _, h => by
    obtain ⟨_, hread, _⟩ := map_ok.mp h
    exact StringToken.skip_of_read hread
  | array items e, depth, v, h => by
    rw [value] at h
    split at h
    · exact absurd h error_ne_ok
    · simp only [bind_ok, Ending.check_ok] at h
      obtain ⟨vs, hvs, _, rfl, _⟩ := h
      rw [skip, skipItems_of_values items hvs]
      rfl
  | object members e, depth, v, h => by
    rw [value] at h
    split at h
    · exact absurd h error_ne_ok
    · simp only [bind_ok, Ending.check_ok] at h
      obtain ⟨ms, hms, _, rfl, _⟩ := h
      rw [skip, skipMembers_of_values members hms]
      rfl
  | word _, _, _, h => absurd h error_ne_ok
  | absent _, _, _, h => absurd h error_ne_ok
  | uncoloned _, _, _, h => absurd h error_ne_ok

theorem skipItems_of_values : ∀ (ds : List Draft) {depth : Nat} {vs : List Value},
    itemValues depth ds = .ok vs → skipItems ds = .ok ()
  | [], _, _, _ => rfl
  | d :: ds, _, _, h => by
    obtain ⟨v, ws, hv, hws, _⟩ := itemValues_cons_ok.mp h
    rw [skipItems, skip_of_value d hv]
    exact skipItems_of_values ds hws

theorem skipMembers_of_values : ∀ (ms : List (StringToken × Draft)) {depth : Nat}
    {vs : List (String × Value)}, memberValues depth ms = .ok vs → skipMembers ms = .ok ()
  | [], _, _, _ => rfl
  | (n, d) :: ms, _, _, h => by
    obtain ⟨name, v, ws, hname, hv, hws, _⟩ := memberValues_cons_ok.mp h
    rw [skipMembers, StringToken.skip_of_read hname, skip_of_value d hv]
    exact skipMembers_of_values ms hws

end

/-- A value that is read whole has the face that a reader of single values sees. -/
theorem face_of_value {d : Draft} {v : Value} (h : d.value depth = .ok v) :
    d.face = .ok v.face := by
  cases d with
  | null | bool b =>
    obtain rfl := Except.ok.inj h
    rfl
  | number n =>
    obtain ⟨x, hx, rfl⟩ := map_ok.mp h
    rw [Draft.face, hx]
    rfl
  | string t =>
    obtain ⟨x, hx, rfl⟩ := map_ok.mp h
    rw [Draft.face, hx]
    rfl
  | array items e =>
    rw [Draft.value] at h
    split at h
    · exact absurd h error_ne_ok
    · simp only [bind_ok, ok_inj] at h
      obtain ⟨_, _, _, _, rfl⟩ := h
      rfl
  | object members e =>
    rw [Draft.value] at h
    split at h
    · exact absurd h error_ne_ok
    · simp only [bind_ok, ok_inj] at h
      obtain ⟨_, _, _, _, rfl⟩ := h
      rfl
  | word _ | absent _ | uncoloned _ => exact absurd h error_ne_ok

theorem face_string {d : Draft} {s : String} :
    d.face = .ok (.string s) ↔ d.value depth = .ok (.string s) := by
  refine ⟨fun hface => ?_, face_of_value⟩
  cases d with
  | string t =>
    obtain ⟨x, hx, heq⟩ := map_ok.mp hface
    obtain rfl := Face.string.inj heq
    rw [Draft.value, hx]
    rfl
  | number n =>
    obtain ⟨_, _, heq⟩ := map_ok.mp hface
    cases heq
  | null | bool _ | array _ _ | object _ _ => cases hface
  | word _ | absent _ | uncoloned _ => exact absurd hface error_ne_ok

theorem value_object_ok {d : Draft} {ms : List (String × Value)} :
    d.value depth = .ok (.object ms) ↔ ∃ members, d = .object members .closed ∧
      ¬depthLimit < depth ∧ memberValues (depth + 1) members = .ok ms := by
  constructor
  · intro h
    cases d with
    | object members e =>
      rw [Draft.value] at h
      split at h
      · exact absurd h error_ne_ok
      next hdepth =>
        simp only [bind_ok, Ending.check_ok, ok_inj] at h
        obtain ⟨ms', hms, _, rfl, heq⟩ := h
        obtain rfl := Value.object.inj heq
        exact ⟨members, rfl, hdepth, hms⟩
    | number n | string t =>
      obtain ⟨_, _, heq⟩ := map_ok.mp h
      exact nomatch heq
    | array items e => exact nomatch face_of_value h
    | null | bool _ | word _ | absent _ | uncoloned _ => exact nomatch h
  · rintro ⟨members, rfl, hdepth, hms⟩
    rw [Draft.value, if_neg hdepth, hms]
    rfl

theorem mismatch_ne_ok {α : Type} (d : Draft) (expected : String) (a : α) :
    d.mismatch expected ≠ .ok a := by
  intro h
  obtain ⟨_, _, h⟩ := bind_ok.mp h
  exact nomatch h

/-! A record is read from the members of a draft as it is from those of its value. -/

/-- A field that reads every draft as it reads the value of it. -/
structure Alike {α : Type} (f : Field Draft α) (g : Field Value α) : Prop where
  name_eq : f.name = g.name
  missing_eq : f.missing = g.missing
  read_eq : ∀ {depth : Nat} {d : Draft} {v : Value}, d.value depth = .ok v → f.read d = g.read v

inductive AllAlike : {ts : List Type} → Fields Draft ts → Fields Value ts → Prop
  | nil : AllAlike .nil .nil
  | cons {α : Type} {ts : List Type} {f : Field Draft α} {g : Field Value α} {fs : Fields Draft ts}
    {gs : Fields Value ts} (hf : Alike f g) (hfs : AllAlike fs gs) :
    AllAlike (.cons f fs) (.cons g gs)

section Record

variable {α : Type} {name : String} {read : Face → Except DataError α} {ts : List Type}
  {fs : Fields Draft ts} {gs : Fields Value ts} {d : Draft} {v : Value}
  {members : List (StringToken × Draft)} {ms : List (String × Value)}

theorem alike_scalar (name : String) (read : Face → Except DataError α) :
    Alike (.scalar Draft.face name read) (.scalar Value.faceOf name read) where
  name_eq := rfl
  missing_eq := rfl
  read_eq h := by simp only [Field.scalar, face_of_value h, Value.faceOf]

theorem alike_optional (name : String) (read : Face → Except DataError α) :
    Alike (.optional Draft.face name read) (.optional Value.faceOf name read) where
  name_eq := rfl
  missing_eq := rfl
  read_eq h := (alike_scalar name (Face.optional read)).read_eq h

theorem alike_lenient (name : String) (read : Face → Except DataError α) :
    Alike (.lenient Draft.face name read) (.lenient Value.faceOf name read) where
  name_eq := rfl
  missing_eq := rfl
  read_eq h := (alike_scalar name (Face.optional read)).read_eq h

theorem put_value (ha : AllAlike fs gs) (h : d.value depth = .ok v) (other : String)
    (s : Slots ts) : fs.put skipMember other d s = gs.put Value.skipMember other v s := by
  induction ha with
  | nil =>
    have hskip : skipMember d = Value.skipMember v := fromText_ok.mpr (skip_of_value d h)
    simp only [Fields.put, hskip]
  | cons hf _ ih =>
    obtain ⟨x, s⟩ := s
    simp only [Fields.put, hf.name_eq, hf.read_eq h, ih s]

theorem finish_alike (ha : AllAlike fs gs) (s : Slots ts) : fs.finish s = gs.finish s := by
  induction ha with
  | nil => rfl
  | cons hf _ ih =>
    obtain ⟨x, s⟩ := s
    simp only [Fields.finish, hf.name_eq, hf.missing_eq, ih s]

theorem empty_alike (ha : AllAlike fs gs) : fs.empty = gs.empty := by
  induction ha with
  | nil => rfl
  | cons _ _ ih => exact congrArg (Prod.mk none) ih

theorem readMembers_value (ha : AllAlike fs gs) (hms : memberValues depth members = .ok ms) :
    readMembers fs members =
      ms.foldlM (fun s m => gs.put Value.skipMember m.1 m.2 s) gs.empty := by
  rw [readMembers, empty_alike ha]
  generalize gs.empty = s
  induction members generalizing s ms with
  | nil =>
    obtain rfl : [] = ms := Except.ok.inj hms
    rfl
  | cons m members ih =>
    obtain ⟨n, d⟩ := m
    obtain ⟨other, v, ws, hn, hv, hws, rfl⟩ := memberValues_cons_ok.mp hms
    have hfirst : (do
        let other ← fromText n.read
        fs.put skipMember other d s) = gs.put Value.skipMember other v s := by
      rw [fromText_ok.mpr hn]
      exact put_value ha hv other s
    rw [List.foldlM_cons, List.foldlM_cons, hfirst]
    exact congrArg (gs.put Value.skipMember other v s >>= ·) (funext fun s => ih hws s)

/-- What is wrong with the members is the same, too. -/
theorem record_value (ha : AllAlike fs gs) (h : d.value depth = .ok (.object ms)) (what : String) :
    d.record what fs = gs.ofMembers Value.skipMember ms := by
  obtain ⟨members, rfl, _, hms⟩ := value_object_ok.mp h
  have hfinish : fs.finish = gs.finish := funext (finish_alike ha)
  rw [record, readMembers_value ha hms, Fields.ofMembers, hfinish]
  rfl

theorem record_value_ok (h : d.value depth = .ok (.object ms)) {what : String} {row : Row [α]} :
    d.record what (.cons (.scalar Draft.face name read) .nil) = .ok row ↔
      Fields.Reads (.scalar Value.faceOf name read) (valuesOf name ms) row.1 := by
  rw [record_value (.cons (alike_scalar name read) .nil) h]
  exact Fields.ofMembers_last_ok

end Record

/-! A tag is one of the members of the value, and beside it are the others. -/

section Tagged

variable {tag : String} {variants : List String}

theorem variant_ok {f : Face} {s : String} :
    f.variant variants = .ok s ↔ f = .string s ∧ s ∈ variants := by
  constructor
  · intro h
    cases f with
    | string x =>
      simp only [Face.variant, Face.text] at h
      split at h
      next hmem =>
        obtain rfl := Except.ok.inj h
        exact ⟨rfl, hmem⟩
      · cases h
    | _ => cases h
  · rintro ⟨rfl, hmem⟩
    simp only [Face.variant, Face.text, if_pos hmem]

theorem variantName_ok {d : Draft} {s : String} : d.variantName variants = .ok s ↔
    d.value depth = .ok (.string s) ∧ s ∈ variants := by
  rw [variantName, bind_ok, ← face_string]
  simp only [fromText_ok, mapError_ok, variant_ok]
  constructor
  · rintro ⟨_, hface, rfl, hmem⟩
    exact ⟨hface, hmem⟩
  · rintro ⟨hface, hmem⟩
    exact ⟨_, hface, rfl, hmem⟩

/-- One step of `tagMembers`. -/
def tagMember (tag : String) (variants : List String) (s : Option String × List (String × Value))
    (m : StringToken × Draft) : Except Error (Option String × List (String × Value)) := do
  let name ← fromText m.1.read
  if name = tag then
    match s.1 with
    | some _ => DataError.throw (.duplicateField tag)
    | none => do
      let v ← m.2.variantName variants
      pure (some v, s.2)
  else do
    let v ← fromText (m.2.value 2)
    pure (s.1, s.2 ++ [(name, v)])

theorem tagMembers_eq (members : List (StringToken × Draft)) :
    tagMembers tag variants members = members.foldlM (tagMember tag variants) (none, []) := rfl

def tagField (tag : String) (variants : List String) : Field Value String :=
  .scalar Value.faceOf tag (Face.variant variants)

theorem tagField_ok {v : Value} {s : String} : (tagField tag variants).read v = .ok s ↔
    v = .string s ∧ s ∈ variants := by
  rw [tagField, Fields.read_scalar_ok, variant_ok]
  cases v <;> simp [Value.face]

theorem tagMember_ok {n : StringToken} {d : Draft} {s s' : Option String × List (String × Value)} :
    tagMember tag variants s (n, d) = .ok s' ↔ ∃ name v, n.read = .ok name ∧
      d.value 2 = .ok v ∧
        ((name = tag ∧ s.1 = none ∧ ∃ a, (tagField tag variants).read v = .ok a ∧
            (some a, s.2) = s') ∨
          (name ≠ tag ∧ (s.1, s.2 ++ [(name, v)]) = s')) := by
  have hvariant {a : String} : d.variantName variants = .ok a ↔
      d.value 2 = .ok (.string a) ∧ a ∈ variants := variantName_ok
  rw [tagMember, bind_ok]
  simp only [fromText_ok, exists_and_left]
  refine exists_congr fun name => and_congr_right fun _ => ?_
  obtain ⟨x, others⟩ := s
  by_cases hname : name = tag
  · cases x with
    | some b => simp [hname, DataError.throw]
    | none =>
      simp only [hname, if_true, bind_ok, ok_inj, hvariant, tagField_ok, true_and, ne_eq,
        not_true, false_and, or_false]
      constructor
      · rintro ⟨a, ⟨hv, ha⟩, hs⟩
        exact ⟨_, hv, a, ⟨rfl, ha⟩, hs⟩
      · rintro ⟨_, hv, a, ⟨rfl, ha⟩, hs⟩
        exact ⟨a, ⟨hv, ha⟩, hs⟩
  · simp only [hname, if_false, bind_ok, fromText_ok, ok_inj, false_and, false_or, ne_eq,
      not_false_eq_true, true_and]

theorem foldlM_tagMember_ok {members : List (StringToken × Draft)}
    {s s' : Option String × List (String × Value)} :
    members.foldlM (tagMember tag variants) s = .ok s' ↔
      ∃ ms, memberValues 2 members = .ok ms ∧
        Fields.Fills (tagField tag variants) s.1 (valuesOf tag ms) s'.1 ∧
          s'.2 = s.2 ++ without tag ms := by
  induction members generalizing s with
  | nil =>
    rw [List.foldlM_nil, ok_inj]
    constructor
    · rintro rfl
      exact ⟨[], rfl, .inl ⟨rfl, rfl⟩, (List.append_nil _).symm⟩
    · rintro ⟨ms, hms, hfills, hothers⟩
      obtain rfl : [] = ms := Except.ok.inj hms
      rcases hfills with ⟨_, hfirst⟩ | ⟨_, v, a, hvs, _⟩
      · exact Prod.ext hfirst.symm (hothers.trans (List.append_nil _)).symm
      · exact nomatch hvs
  | cons m members ih =>
    obtain ⟨n, d⟩ := m
    rw [List.foldlM_cons, bind_ok]
    simp only [tagMember_ok, ih, memberValues_cons_ok]
    constructor
    · rintro ⟨s₁, ⟨name, v, hn, hv, hfirst⟩, ms, hms, hfills, hothers⟩
      refine ⟨_, ⟨name, v, ms, hn, hv, hms, rfl⟩, ?_⟩
      rcases hfirst with ⟨rfl, hfree, a, ha, rfl⟩ | ⟨hname, rfl⟩
      · rw [valuesOf_cons_same, without_cons_same, Fields.fills_cons]
        exact ⟨⟨hfree, a, ha, hfills⟩, hothers⟩
      · rw [valuesOf_cons_other hname, without_cons_other hname]
        exact ⟨hfills, by simpa using hothers⟩
    · rintro ⟨_, ⟨name, v, ms, hn, hv, hms, rfl⟩, hfills, hothers⟩
      by_cases hname : name = tag
      · subst hname
        rw [valuesOf_cons_same, Fields.fills_cons] at hfills
        obtain ⟨hfree, a, ha, hfills⟩ := hfills
        rw [without_cons_same] at hothers
        exact ⟨_, ⟨name, v, hn, hv, .inl ⟨rfl, hfree, a, ha, rfl⟩⟩, ms, hms, hfills, hothers⟩
      · rw [valuesOf_cons_other hname] at hfills
        rw [without_cons_other hname] at hothers
        exact ⟨_, ⟨name, v, hn, hv, .inr ⟨hname, rfl⟩⟩, ms, hms, hfills, by simpa using hothers⟩

theorem tagged_ok {members : List (StringToken × Draft)} {e : Ending} {what : String} {t : Tagged} :
    (object members e).tagged what tag variants = .ok t ↔ ∃ ms,
      (object members e).value 1 = .ok (.object ms) ∧ t.variant ∈ variants ∧
        valuesOf tag ms = [.string t.variant] ∧ t.content = .object (without tag ms) := by
  rw [tagged, tagMembers_eq, bind_ok]
  constructor
  · rintro ⟨⟨v, others⟩, hfold, h⟩
    obtain ⟨ms, hms, hfills, rfl⟩ := foldlM_tagMember_ok.mp hfold
    obtain ⟨_, hend, h⟩ := bind_ok.mp h
    obtain rfl := Ending.check_ok.mp (fromText_ok.mp hend)
    refine ⟨ms, value_object_ok.mpr ⟨members, rfl, by decide, hms⟩, ?_⟩
    rcases hfills with ⟨_, rfl⟩ | ⟨_, v, a, hvs, hread, rfl⟩
    · exact nomatch h
    · obtain ⟨rfl, ha⟩ := tagField_ok.mp hread
      obtain rfl := ok_inj.mp h
      exact ⟨ha, hvs, rfl⟩
  · obtain ⟨s, content⟩ := t
    rintro ⟨ms, hvalue, hmem, hvs, rfl⟩
    obtain ⟨_, heq, _, hms⟩ := value_object_ok.mp hvalue
    obtain ⟨rfl, rfl⟩ := Draft.object.inj heq
    exact ⟨(some s, without tag ms), foldlM_tagMember_ok.mpr ⟨ms, hms,
      .inr ⟨rfl, _, _, hvs, tagField_ok.mpr ⟨rfl, hmem⟩, rfl⟩, rfl⟩, rfl⟩

end Tagged

theorem memberValues_flat {ms : List (String × Value)} (hms : ∀ m ∈ ms, m.2.Plain) (depth : Nat) :
    memberValues depth (ms.map ofMember) = .ok ms := by
  induction ms with
  | nil => rfl
  | cons m ms ih =>
    obtain ⟨hm, hms⟩ := List.forall_mem_cons.mp hms
    exact memberValues_cons_ok.mpr
      ⟨m.1, m.2, ms, StringToken.read_stringToken m.1, Value.value_draft hm depth, ih hms, rfl⟩

end Draft

/-- Every reader of a text that has a value looks at the same draft of it. -/
theorem readText_denoted {text : String} {v : Value} (hd : Denotes text v) :
    ∃ d : Draft, d.value 1 = .ok v ∧ ∀ {α : Type} {reader : Draft → Except Error α} {a : α},
      readText reader text = .ok a ↔ reader d = .ok a := by
  obtain ⟨d, hd, hvalue⟩ := Draft.denotes_iff.mp hd
  refine ⟨d, hvalue, fun {α reader a} => readText_ok.trans ⟨?_, fun ha => ⟨d, hd, ha⟩⟩⟩
  rintro ⟨d', hd', ha⟩
  obtain ⟨rfl, _⟩ := Prod.mk.inj (hd.symm.trans hd')
  exact ha

/-- A flat object that is written is the value of its text. -/
theorem denotes_object {ms : List (String × Value)} (hms : ∀ m ∈ ms, m.2.Plain) :
    Denotes (Value.object ms).render (.object ms) := by
  have hvalue : (Draft.object (ms.map Draft.ofMember) .closed).value 1 = .ok (.object ms) :=
    Draft.value_object_ok.mpr ⟨_, rfl, by decide, Draft.memberValues_flat hms 2⟩
  have hread := (readText_object (fun d => fromText (d.value 1)) hms).trans (fromText_ok.mpr hvalue)
  obtain ⟨d, hd, hvalue⟩ := readText_ok.mp hread
  exact Draft.denotes_iff.mpr ⟨d, hd, fromText_ok.mp hvalue⟩

end EventGateway.Json
