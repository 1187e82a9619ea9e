import EventGateway.Proofs.Json.Records

/-! Rows of values on their way through a text. What is written for the fields of a record is read
back by them, and no value is read that its field does not give. -/

namespace EventGateway.Json

variable {α : Type} {ts : List Type}

namespace Fields

/-- The members say the row: one for each field, in the order of the fields, but for those whose
value is the one that stands for a missing member. -/
inductive Says : {ts : List Type} → Fields Draft ts → Row ts → List (String × Value) → Prop
  | nil : Says nil () []
  | member {α : Type} {ts : List Type} {f : Field Draft α} {fs : Fields Draft ts} {a : α}
    {row : Row ts} {v : Value} {ms : List (String × Value)} (hv : v.Plain)
    (hread : f.read v.draft = .ok a) (hname : f.name ∉ fs.names) (hrest : Says fs row ms) :
    Says (cons f fs) (a, row) ((f.name, v) :: ms)
  | missing {α : Type} {ts : List Type} {f : Field Draft α} {fs : Fields Draft ts} {a : α}
    {row : Row ts} {ms : List (String × Value)} (hmissing : f.missing = some a)
    (hname : f.name ∉ fs.names) (hrest : Says fs row ms) : Says (cons f fs) (a, row) ms

namespace Says

variable {fs : Fields Draft ts} {row : Row ts} {ms : List (String × Value)}

theorem plain (h : Says fs row ms) : ∀ m ∈ ms, m.2.Plain := by
  induction h with
  | nil => simp
  | member hv _ _ _ ih => exact List.forall_mem_cons.mpr ⟨hv, ih⟩
  | missing _ _ _ ih => exact ih

theorem names (h : Says fs row ms) : ∀ m ∈ ms, m.1 ∈ fs.names := by
  induction h with
  | nil => simp
  | member _ _ _ _ ih =>
    refine List.forall_mem_cons.mpr ⟨List.mem_cons_self, fun m hm => ?_⟩
    exact List.mem_cons_of_mem _ (ih m hm)
  | missing _ _ _ ih => exact fun m hm => List.mem_cons_of_mem _ (ih m hm)

end Says

/-- Members that are not for the first field leave its slot alone. -/
theorem foldlM_put_next {skip : Draft → Except Error Unit} {f : Field Draft α}
    {fs : Fields Draft ts} (x : Option α) {ms : List (String × Draft)}
    (hms : ∀ m ∈ ms, m.1 ≠ f.name) {s s' : Slots ts}
    (h : ms.foldlM (fun s m => fs.put skip m.1 m.2 s) s = .ok s') :
    ms.foldlM (fun s m => (cons f fs).put skip m.1 m.2 s) ((x, s) : Slots (α :: ts)) =
      .ok (x, s') := by
  induction ms generalizing s with
  | nil =>
    obtain rfl : s = s' := Except.ok.inj h
    rfl
  | cons m ms ih =>
    obtain ⟨hm, hms⟩ := List.forall_mem_cons.mp hms
    rw [List.foldlM_cons, bind_ok] at h
    obtain ⟨s₁, hput, hrest⟩ := h
    rw [foldlM_put (put_next hm x hput)]
    exact ih hms hrest

theorem Says.slots {fs : Fields Draft ts} {row : Row ts} {ms : List (String × Value)}
    (h : Says fs row ms) (skip : Draft → Except Error Unit) :
    ∃ s, (ms.map fun m => (m.1, m.2.draft)).foldlM (fun s m => fs.put skip m.1 m.2 s) fs.empty =
      .ok s ∧ fs.finish s = .ok row := by
  have hother {α : Type} {ts : List Type} {f : Field Draft α} {fs : Fields Draft ts} {row : Row ts}
      {ms : List (String × Value)} (hname : f.name ∉ fs.names) (h : Says fs row ms) :
      ∀ m ∈ ms.map fun m => (m.1, m.2.draft), m.1 ≠ f.name := by
    intro x hx heq
    obtain ⟨m, hm, rfl⟩ := List.mem_map.mp hx
    have hin := h.names m hm
    exact hname (heq ▸ hin)
  induction h with
  | nil => exact ⟨(), rfl, rfl⟩
  | @member _ _ f fs a row v ms _ hread hname hrest ih =>
    obtain ⟨s, hfold, hfinish⟩ := ih
    have hfirst : (cons f fs).put skip f.name v.draft (cons f fs).empty = .ok (some a, fs.empty) :=
      put_field hread fs.empty
    refine ⟨(some a, s), ?_, ?_⟩
    · rw [List.map_cons, foldlM_put hfirst]
      exact foldlM_put_next (some a) (hother hname hrest) hfold
    · rw [finish, hfinish]
      rfl
  | @missing _ _ f fs a row ms hmissing hname hrest ih =>
    obtain ⟨s, hfold, hfinish⟩ := ih
    refine ⟨(none, s), foldlM_put_next none (hother hname hrest) hfold, ?_⟩
    rw [finish, hmissing, hfinish]
    rfl

end Fields

/-- A record that is read from the text written for the members of a row is that row. -/
theorem readText_said {β : Type} {fs : Fields Draft ts} {row : Row ts} {ms : List (String × Value)}
    (h : fs.Says row ms) (what : String) (make : Row ts → β) :
    readText (fun d => make <$> d.record what fs) (Value.object ms).render = .ok (make row) := by
  obtain ⟨s, hfold, hfinish⟩ := h.slots Draft.skipMember
  have hrow : fs.ofMembers Draft.skipMember (ms.map fun m => (m.1, m.2.draft)) = .ok row := by
    rw [Fields.ofMembers, bind_ok]
    exact ⟨s, hfold, hfinish⟩
  rw [readText_object _ h.plain, Draft.record_flat, hrow]
  rfl

/-! What the members of a written record are for fields of each sort. -/

namespace Fields.Says

variable {fs : Fields Draft ts} {row : Row ts} {ms : List (String × Value)} {name : String}

theorem text (s : String) {expected : String} (hname : name ∉ fs.names) (hrest : Says fs row ms) :
    Says (cons (.scalar Draft.face name (Face.text expected)) fs) (s, row)
      ((name, .string s) :: ms) :=
  member (f := .scalar Draft.face name (Face.text expected)) (Value.plain_string s)
    (Field.read_text (Value.face_draft (Value.plain_string s)) name expected) hname hrest

theorem maybeText (s : Option String) {expected : String} (hname : name ∉ fs.names)
    (hrest : Says fs row ms) :
    Says (cons (.lenient Draft.face name (Face.text expected)) fs) (s, row)
      (Value.optionalMember name s ++ ms) := by
  cases s with
  | none => exact missing (f := .lenient Draft.face name (Face.text expected)) rfl hname hrest
  | some t =>
    have hface : (Value.string t).draft.face = .ok (.string t) :=
      Value.face_draft (Value.plain_string t)
    refine member (f := .lenient Draft.face name (Face.text expected)) (Value.plain_string t) ?_
      hname hrest
    rw [Field.lenient, Field.optional, Field.scalar]
    simp only [hface]
    rfl

theorem lastMaybeText (s : Option String) {expected : String} :
    Says (.cons (.lenient Draft.face name (Face.text expected)) .nil) (s, ())
      (Value.optionalMember name s) := by
  have h : Says (.cons (.lenient Draft.face name (Face.text expected)) .nil) (s, ())
      (Value.optionalMember name s ++ []) := maybeText s List.not_mem_nil .nil
  rwa [List.append_nil] at h

theorem flag (b : Bool) (hname : name ∉ fs.names) (hrest : Says fs row ms) :
    Says (cons (.scalar Draft.face name Face.flag) fs) (b, row) ((name, .bool b) :: ms) :=
  member (f := .scalar Draft.face name Face.flag) (Value.plain_bool b) rfl hname hrest

theorem count {n : Nat} (hn : n < UInt64.size) (hname : name ∉ fs.names) (hrest : Says fs row ms) :
    Says (cons (.scalar Draft.face name Face.count) fs) (n, row) ((name, .int n) :: ms) := by
  have hsize : (UInt64.size : Int) = 0x10000000000000000 := rfl
  have hplain : (Value.int n).Plain := Value.plain_int.mpr (by omega)
  have hface : (Value.int n).draft.face = .ok (.number (.int n)) := Value.face_draft hplain
  have hrange : (0 : Int) ≤ n ∧ (n : Int) ≤ UInt64.size - 1 := by omega
  have hread : Face.count (.number (.int n)) = .ok n := by
    rw [Face.count, Face.integer, if_pos hrange]
    rfl
  refine member (f := .scalar Draft.face name Face.count) hplain ?_ hname hrest
  rw [Field.scalar]
  simp only [hface]
  show Except.mapError Error.data (Face.count (.number (.int n))) = .ok n
  rw [hread]
  rfl

end Fields.Says

/-! What is read, from an object or from a list, was given by the fields. -/

/-- The field makes the value of something, or of nothing. -/
def Field.Gives (f : Field Draft α) (a : α) : Prop :=
  (∃ d, f.read d = .ok a) ∨ f.missing = some a ∨ f.missingItem = some a

namespace Fields

def Give : {ts : List Type} → Fields Draft ts → Row ts → Prop
  | _, nil, _ => True
  | _, cons f fs, row => f.Gives row.1 ∧ fs.Give row.2

def GiveSlots : {ts : List Type} → Fields Draft ts → Slots ts → Prop
  | _, nil, _ => True
  | _, cons f fs, s => (∀ a, s.1 = some a → f.Gives a) ∧ fs.GiveSlots s.2

variable {fs : Fields Draft ts}

theorem giveSlots_empty (fs : Fields Draft ts) : fs.GiveSlots fs.empty := by
  induction fs with
  | nil => trivial
  | cons f fs ih =>
    refine ⟨fun a ha => ?_, ih⟩
    exact nomatch ha

theorem GiveSlots.put {skip : Draft → Except Error Unit} {name : String} {d : Draft}
    {s s' : Slots ts} (hs : fs.GiveSlots s) (h : fs.put skip name d s = .ok s') :
    fs.GiveSlots s' := by
  induction fs with
  | nil => trivial
  | cons f fs ih =>
    rcases put_cons_ok.mp h with ⟨_, _, a, hread, rfl⟩ | ⟨_, r, hput, rfl⟩
    · refine ⟨fun b hb => ?_, hs.2⟩
      obtain rfl : a = b := Option.some.inj hb
      exact .inl ⟨d, hread⟩
    · exact ⟨hs.1, ih hs.2 hput⟩

theorem GiveSlots.finish {s : Slots ts} {row : Row ts} (hs : fs.GiveSlots s)
    (h : fs.finish s = .ok row) : fs.Give row := by
  induction fs with
  | nil => trivial
  | cons f fs ih =>
    obtain ⟨x, s⟩ := s
    rw [Fields.finish] at h
    cases hx : x <|> f.missing with
    | none =>
      rw [hx] at h
      exact nomatch h
    | some a =>
      rw [hx] at h
      obtain ⟨r, hr, heq⟩ := bind_ok.mp h
      obtain rfl := ok_inj.mp heq
      refine ⟨?_, ih hs.2 hr⟩
      cases x with
      | none => exact .inr (.inl hx)
      | some b =>
        obtain rfl : b = a := Option.some.inj hx
        exact hs.1 b rfl

end Fields

namespace Draft

open Fields

variable {fs : Fields Draft ts} {row : Row ts} {what : String} {d : Draft}

theorem give_readMembers {members : List (StringToken × Draft)} {s : Slots ts}
    (h : readMembers fs members = .ok s) : fs.GiveSlots s := by
  -- The slots start out empty, and each member fills one or none.
  suffices ∀ s₀, fs.GiveSlots s₀ → members.foldlM (fun s m => do
      let name ← fromText m.1.read
      fs.put skipMember name m.2 s) s₀ = .ok s → fs.GiveSlots s from
    this fs.empty (giveSlots_empty fs) h
  clear h
  induction members with
  | nil =>
    intro s₀ hs₀ h
    obtain rfl : s₀ = s := Except.ok.inj h
    exact hs₀
  | cons m members ih =>
    intro s₀ hs₀ h
    rw [List.foldlM_cons, bind_ok] at h
    obtain ⟨s₁, hput, hrest⟩ := h
    obtain ⟨name, _, hput⟩ := bind_ok.mp hput
    exact ih s₁ (hs₀.put hput) hrest

theorem give_rowOfItems {n : Nat} {e : Ending} {items rest : List Draft} {i : Nat}
    (h : rowOfItems what n e fs items i = .ok (row, rest)) : fs.Give row := by
  induction fs generalizing items i with
  | nil => trivial
  | cons f fs ih =>
    cases items with
    | nil =>
      obtain ⟨_, _, h⟩ := bind_ok.mp h
      cases hf : f.missingItem with
      | none =>
        rw [hf] at h
        exact nomatch h
      | some a =>
        rw [hf] at h
        obtain ⟨⟨r, rest'⟩, hr, heq⟩ := bind_ok.mp h
        obtain ⟨rfl, rfl⟩ := Prod.mk.inj (ok_inj.mp heq)
        exact ⟨.inr (.inr hf), ih hr⟩
    | cons d items =>
      obtain ⟨a, hread, h⟩ := bind_ok.mp h
      obtain ⟨⟨r, rest'⟩, hr, heq⟩ := bind_ok.mp h
      obtain ⟨rfl, rfl⟩ := Prod.mk.inj (ok_inj.mp heq)
      exact ⟨.inl ⟨d, mapError_ok.mp hread⟩, ih hr⟩

theorem give_record (h : d.record what fs = .ok row) : fs.Give row := by
  cases d with
  | object members e =>
    obtain ⟨s, hread, h⟩ := bind_ok.mp h
    obtain ⟨_, _, hfinish⟩ := bind_ok.mp h
    exact (give_readMembers hread).finish hfinish
  | array items e =>
    obtain ⟨⟨r, rest⟩, hrow, h⟩ := bind_ok.mp h
    obtain ⟨_, _, heq⟩ := bind_ok.mp h
    obtain rfl := ok_inj.mp heq
    exact give_rowOfItems hrow
  | null | bool _ | word _ | number _ | string _ | absent _ | uncoloned _ =>
    obtain ⟨_, _, h⟩ := bind_ok.mp h
    exact nomatch h

end Draft

theorem Field.lt_of_gives_count {name : String} {n : Nat}
    (h : (Field.scalar Draft.face name Face.count).Gives n) : n < UInt64.size := by
  rcases h with ⟨d, hread⟩ | hmissing | hmissing
  · obtain ⟨f, _, hcount⟩ := bind_ok.mp hread
    obtain ⟨i, hi, rfl⟩ := map_ok.mp (mapError_ok.mp hcount)
    unfold Face.integer at hi
    split at hi
    next j =>
      split at hi
      next hrange =>
        obtain rfl := Except.ok.inj hi
        have hsize : (UInt64.size : Int) = 0x10000000000000000 := rfl
        omega
      next => exact nomatch hi
    next => exact nomatch hi
  · exact nomatch hmissing
  · exact nomatch hmissing

end EventGateway.Json
