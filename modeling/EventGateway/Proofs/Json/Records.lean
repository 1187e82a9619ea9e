import EventGateway.Json.Record
import EventGateway.Proofs.Json.Flat
import EventGateway.Proofs.Outcome

/-! Reading records from the members of flat objects. -/

namespace EventGateway.Json

namespace Fields

variable {δ : Type}

def names : {ts : List Type} → Fields δ ts → List String
  | _, nil => []
  | _, cons f fs => f.name :: fs.names

theorem put_field {skip : δ → Except Error Unit} {α : Type} {ts : List Type} {f : Field δ α}
    {fs : Fields δ ts} {d : δ} {a : α} (hread : f.read d = .ok a) (s : Slots ts) :
    (cons f fs).put skip f.name d (none, s) = .ok (some a, s) := by
  have hput : (cons f fs).put skip f.name d (none, s) = (do
      let a ← insideMember f.name (f.read d)
      pure (some a, s)) := if_pos rfl
  rw [hput, hread]
  rfl

theorem put_next {skip : δ → Except Error Unit} {α : Type} {ts : List Type} {f : Field δ α}
    {fs : Fields δ ts} {name : String} {d : δ} (hname : name ≠ f.name) (x : Option α)
    {s s' : Slots ts} (hrest : fs.put skip name d s = .ok s') :
    (cons f fs).put skip name d (x, s) = .ok (x, s') := by
  have hput : (cons f fs).put skip name d (x, s) = (do
      let s ← fs.put skip name d s
      pure (x, s)) := if_neg hname
  rw [hput, hrest]
  rfl

theorem put_other {skip : δ → Except Error Unit} {name : String} {d : δ} (hskip : skip d = .ok ())
    {ts : List Type} (fs : Fields δ ts) (hname : name ∉ fs.names) (s : Slots ts) :
    fs.put skip name d s = .ok s := by
  induction fs with
  | nil =>
    rw [put, hskip]
    rfl
  | cons f fs ih =>
    obtain ⟨hne, hrest⟩ : name ≠ f.name ∧ name ∉ fs.names := by simpa [names] using hname
    exact put_next hne s.1 (ih hrest s.2)

theorem foldlM_put {skip : δ → Except Error Unit} {ts : List Type} {fs : Fields δ ts} {name : String}
    {d : δ} {s s' : Slots ts} (hput : fs.put skip name d s = .ok s') (ms : List (String × δ)) :
    ((name, d) :: ms).foldlM (fun s m => fs.put skip m.1 m.2 s) s =
      ms.foldlM (fun s m => fs.put skip m.1 m.2 s) s' := by
  rw [List.foldlM_cons, hput]
  rfl

theorem foldlM_put_other {skip : δ → Except Error Unit} {ts : List Type} (fs : Fields δ ts)
    {ms : List (String × δ)} (hms : ∀ m ∈ ms, skip m.2 = .ok () ∧ m.1 ∉ fs.names) (s : Slots ts) :
    ms.foldlM (fun s m => fs.put skip m.1 m.2 s) s = .ok s := by
  induction ms with
  | nil => rfl
  | cons m ms ih =>
    obtain ⟨hskip, hname⟩ := hms m (by simp)
    rw [foldlM_put (fs.put_other hskip hname s)]
    exact ih fun x hx => hms x (List.mem_cons_of_mem _ hx)

theorem insideMember_ok {α : Type} {name : String} {r : Except Error α} {a : α} :
    insideMember name r = .ok a ↔ r = .ok a := by
  cases r with
  | ok b =>
    have hsame : insideMember name (.ok b) = .ok b := rfl
    rw [hsame]
  | error e =>
    have herror : insideMember name (.error e : Except Error α) = .error (.inside (.member name) e) :=
      rfl
    simp [herror]

theorem put_nil_ok {skip : δ → Except Error Unit} {name : String} {d : δ} {s s' : Slots []} :
    (nil : Fields δ []).put skip name d s = .ok s' ↔ skip d = .ok () ∧ s = s' := by
  have hput : (nil : Fields δ []).put skip name d s = (do
      let _ ← insideMember name (skip d)
      pure s) := rfl
  rw [hput, bind_ok]
  simp only [insideMember_ok]
  exact ⟨fun ⟨_, hskip, hs⟩ => ⟨hskip, ok_inj.mp hs⟩, fun ⟨hskip, hs⟩ => ⟨(), hskip, ok_inj.mpr hs⟩⟩

theorem put_cons_ok {skip : δ → Except Error Unit} {α : Type} {ts : List Type} {f : Field δ α}
    {fs : Fields δ ts} {name : String} {d : δ} {s s' : Slots (α :: ts)} :
    (cons f fs).put skip name d s = .ok s' ↔
      (name = f.name ∧ s.1 = none ∧ ∃ a, f.read d = .ok a ∧ (some a, s.2) = s') ∨
      (name ≠ f.name ∧ ∃ r, fs.put skip name d s.2 = .ok r ∧ (s.1, r) = s') := by
  obtain ⟨x, s⟩ := s
  by_cases hname : name = f.name
  · cases x with
    | some b =>
      have hput : (cons f fs).put skip name d (some b, s) =
        DataError.throw (.duplicateField name) := if_pos hname
      rw [hput]
      simp [hname, DataError.throw]
    | none =>
      have hput : (cons f fs).put skip name d (none, s) = (do
          let a ← insideMember name (f.read d)
          pure (some a, s)) := if_pos hname
      rw [hput, bind_ok]
      simp only [insideMember_ok, hname, ne_eq, not_true, false_and, or_false, true_and]
      exact exists_congr fun a => and_congr_right fun _ => ok_inj
  · have hput : (cons f fs).put skip name d (x, s) = (do
        let s ← fs.put skip name d s
        pure (x, s)) := if_neg hname
    rw [hput, bind_ok]
    simp only [hname, ne_eq, not_false_eq_true, false_and, false_or, true_and]
    exact exists_congr fun r => and_congr_right fun _ => ok_inj

/-- Members of different names may change places. -/
theorem put_comm {skip : δ → Except Error Unit} {ts : List Type} (fs : Fields δ ts)
    {m n : String} (hne : m ≠ n) {x y : δ} {s s₁ s₂ : Slots ts}
    (hm : fs.put skip m x s = .ok s₁) (hn : fs.put skip n y s₁ = .ok s₂) :
    ∃ s₃, fs.put skip n y s = .ok s₃ ∧ fs.put skip m x s₃ = .ok s₂ := by
  -- Of two members at most one is for the first field, and the other leaves its slot alone.
  induction fs with
  | nil =>
    obtain ⟨hx, rfl⟩ := put_nil_ok.mp hm
    obtain ⟨hy, rfl⟩ := put_nil_ok.mp hn
    exact ⟨s, put_nil_ok.mpr ⟨hy, rfl⟩, put_nil_ok.mpr ⟨hx, rfl⟩⟩
  | cons f fs ih =>
    rcases put_cons_ok.mp hm with ⟨hmf, hfree, a, ha, rfl⟩ | ⟨hmf, r, hr, rfl⟩
    · rcases put_cons_ok.mp hn with ⟨hnf, _⟩ | ⟨hnf, r, hr, rfl⟩
      · exact absurd (hmf.trans hnf.symm) hne
      · exact ⟨(s.1, r), put_cons_ok.mpr (.inr ⟨hnf, r, hr, rfl⟩),
          put_cons_ok.mpr (.inl ⟨hmf, hfree, a, ha, rfl⟩)⟩
    · rcases put_cons_ok.mp hn with ⟨hnf, hfree, a, ha, rfl⟩ | ⟨hnf, r', hr', rfl⟩
      · exact ⟨(some a, s.2), put_cons_ok.mpr (.inl ⟨hnf, hfree, a, ha, rfl⟩),
          put_cons_ok.mpr (.inr ⟨hmf, r, hr, rfl⟩)⟩
      · obtain ⟨r₃, hfirst, hsecond⟩ := ih hr hr'
        exact ⟨(s.1, r₃), put_cons_ok.mpr (.inr ⟨hnf, r₃, hfirst, rfl⟩),
          put_cons_ok.mpr (.inr ⟨hmf, r', hsecond, rfl⟩)⟩

theorem foldlM_put_perm {skip : δ → Except Error Unit} {ts : List Type} (fs : Fields δ ts)
    {ms ms' : List (String × δ)} (hp : ms.Perm ms') (hnd : (ms.map Prod.fst).Nodup)
    {s s' : Slots ts} (h : ms.foldlM (fun s m => fs.put skip m.1 m.2 s) s = .ok s') :
    ms'.foldlM (fun s m => fs.put skip m.1 m.2 s) s = .ok s' := by
  -- The slots between the two members that are swapped differ, those after them do not.
  induction hp generalizing s with
  | nil => exact h
  | cons m _ ih =>
    rw [List.foldlM_cons, bind_ok] at h ⊢
    obtain ⟨s₁, hput, hrest⟩ := h
    exact ⟨s₁, hput, ih (List.nodup_cons.mp hnd).2 hrest⟩
  | swap m n ms =>
    rw [List.foldlM_cons, bind_ok] at h
    obtain ⟨s₁, hn, hrest⟩ := h
    rw [List.foldlM_cons, bind_ok] at hrest
    obtain ⟨s₂, hm, hrest⟩ := hrest
    have hne : n.1 ≠ m.1 := by
      have hnot := (List.nodup_cons.mp hnd).1
      simp only [List.map_cons, List.mem_cons, not_or] at hnot
      exact hnot.1
    obtain ⟨s₃, hfirst, hsecond⟩ := fs.put_comm hne hn hm
    rw [List.foldlM_cons, bind_ok]
    refine ⟨s₃, hfirst, ?_⟩
    rw [List.foldlM_cons, bind_ok]
    exact ⟨s₂, hsecond, hrest⟩
  | trans hp₁ _ ih₁ ih₂ => exact ih₂ ((hp₁.map Prod.fst).nodup_iff.mp hnd) (ih₁ hnd h)

/-- A record is read from members of different names in whatever order they are. -/
theorem ofMembers_perm {skip : δ → Except Error Unit} {ts : List Type} (fs : Fields δ ts)
    {ms ms' : List (String × δ)} (hp : ms.Perm ms') (hnd : (ms.map Prod.fst).Nodup) {row : Row ts}
    (h : fs.ofMembers skip ms = .ok row) : fs.ofMembers skip ms' = .ok row := by
  rw [ofMembers, bind_ok] at h ⊢
  obtain ⟨s, hfold, hfinish⟩ := h
  exact ⟨s, fs.foldlM_put_perm hp hnd hfold, hfinish⟩

/-- A record of one field is read from a first member of its name, whatever else follows. -/
theorem ofMembers_first {skip : δ → Except Error Unit} {α : Type} {f : Field δ α} {d : δ} {a : α}
    (hread : f.read d = .ok a) {ms : List (String × δ)}
    (hms : ∀ m ∈ ms, skip m.2 = .ok () ∧ m.1 ≠ f.name) :
    (cons f nil).ofMembers skip ((f.name, d) :: ms) = .ok (a, ()) := by
  obtain ⟨s, hput, hfinish⟩ : ∃ s, (cons f nil).put skip f.name d (cons f nil).empty = .ok s ∧
      (cons f nil).finish s = .ok (a, ()) :=
    ⟨_, put_field hread nil.empty, rfl⟩
  have hothers : ∀ m ∈ ms, skip m.2 = .ok () ∧ m.1 ∉ (cons f (nil : Fields δ [])).names := by
    simpa [names] using hms
  rw [ofMembers, foldlM_put hput, foldlM_put_other _ hothers]
  exact hfinish

end Fields

theorem Face.int64_toInt (n : Int64) : Face.int64 (.number (.int n.toInt)) = .ok n := by
  have hrange : Int64.minValue.toInt ≤ n.toInt ∧ n.toInt ≤ Int64.maxValue.toInt :=
    ⟨n.minValue_le_toInt, n.toInt_le⟩
  rw [Face.int64, Face.integer, if_pos hrange]
  exact congrArg Except.ok n.ofInt_toInt

theorem Field.read_text {δ : Type} {face : δ → Except SyntaxError Face} {d : δ} {s : String}
    (hface : face d = .ok (.string s)) (name expected : String) :
    (Field.scalar face name (Face.text expected)).read d = .ok s := by
  have hread : (Field.scalar face name (Face.text expected)).read d = (do
      let f ← fromText (face d)
      (f.text expected).mapError .data) := rfl
  rw [hread, hface]
  rfl

theorem Field.read_int64 (name : String) (n : Int64) :
    (Field.scalar Value.faceOf name Face.int64).read (.int n.toInt) = .ok n := by
  have hread : (Field.scalar Value.faceOf name Face.int64).read (.int n.toInt) =
      (Face.int64 (.number (.int n.toInt))).mapError .data := rfl
  rw [hread, Face.int64_toInt]
  rfl

theorem Value.plain_int64 (n : Int64) : (Value.int n.toInt).Plain := by
  have hlow := n.le_toInt
  have hhigh := n.toInt_lt
  exact plain_int.mpr ⟨hlow, by omega⟩

namespace Draft

theorem skipMember_draft {v : Value} (hv : v.Plain) : skipMember v.draft = .ok () := by
  rw [skipMember, Value.skip_draft hv]
  rfl

theorem fromText_read (n : String) : fromText (stringToken n).read = .ok n := by
  rw [StringToken.read_stringToken]
  rfl

theorem readMembers_flat {ts : List Type} (fs : Fields Draft ts) (ms : List (String × Value)) :
    readMembers fs (ms.map ofMember) =
      ms.foldlM (fun s m => fs.put skipMember m.1 m.2.draft s) fs.empty := by
  have hread : ∀ (s : Slots ts) (m : String × Value),
      (do let name ← fromText (ofMember m).1.read
          fs.put skipMember name (ofMember m).2 s) = fs.put skipMember m.1 m.2.draft s := by
    intro s m
    rw [ofMember, fromText_read]
    rfl
  rw [readMembers, List.foldlM_map]
  simp only [hread]

theorem record_flat (name : String) {ts : List Type} (fs : Fields Draft ts)
    (ms : List (String × Value)) :
    (object (ms.map ofMember) .closed).record name fs =
      fs.ofMembers skipMember (ms.map fun m => (m.1, m.2.draft)) := by
  rw [record, readMembers_flat, Fields.ofMembers, List.foldlM_map]
  rfl

end Draft

end EventGateway.Json
