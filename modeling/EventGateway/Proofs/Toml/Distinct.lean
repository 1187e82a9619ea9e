import EventGateway.Proofs.Outcome
import EventGateway.Toml.Document
import Mathlib.Data.List.Nodup

/-! A name stands once in a table. Tables are made in several ways, by headers, dotted keys and
inline, and every one of them looks whether the name is there before it adds it. -/

namespace EventGateway.Toml

/-- No table in the value has a name twice, at whatever depth. -/
inductive Value.Distinct : Value → Prop
  | string (s : String) : Value.Distinct (.string s)
  | integer (n : Int64) : Value.Distinct (.integer n)
  | real (x : Real) : Value.Distinct (.real x)
  | boolean (b : Bool) : Value.Distinct (.boolean b)
  | dateTime : Value.Distinct .dateTime
  | array {vs : List Value} (items : ∀ v ∈ vs, Value.Distinct v) : Value.Distinct (.array vs)
  | table {ms : List (String × Value)} (names : (ms.map Prod.fst).Nodup)
      (values : ∀ m ∈ ms, Value.Distinct m.2) : Value.Distinct (.table ms)

mutual

inductive Node.Distinct : Node → Prop
  | leaf {v : Value} (value : v.Distinct) : Node.Distinct (.leaf v)
  | table {implicit dotted : Bool} {es : Entries} (entries : Entries.Distinct es) :
      Node.Distinct (.table implicit dotted es)
  | tables {ts : List Entries} (each : ∀ es ∈ ts, Entries.Distinct es) : Node.Distinct (.tables ts)

inductive Entries.Distinct : Entries → Prop
  | intro {es : Entries} (names : (es.map Prod.fst).Nodup)
      (nodes : ∀ e ∈ es, Node.Distinct e.2) : Entries.Distinct es

end

namespace Entries

variable {α : Type} {es es' : Entries} {k : String} {n : Node} {f : Bool → Entries → Option (α × Entries)}
  {P : α → Prop} {ks : List String} {dottedPath dotted : Bool} {a : α}

theorem Distinct.names (h : Distinct es) : (es.map Prod.fst).Nodup := by
  cases h with
  | intro names nodes => exact names

theorem Distinct.nodes (h : Distinct es) : ∀ e ∈ es, Node.Distinct e.2 := by
  cases h with
  | intro names nodes => exact nodes

theorem distinct_nil : Distinct [] := ⟨List.nodup_nil, by simp⟩

theorem Distinct.find? (h : Distinct es) (hfind : find? es k = some n) : n.Distinct := by
  obtain ⟨l₁, l₂, rfl, -⟩ := List.lookup_eq_some_iff.mp hfind
  exact h.nodes (k, n) (by simp)

theorem Distinct.add (h : Distinct es) (hfind : Entries.find? es k = none) (hn : n.Distinct) :
    Distinct (add es k n) := by
  refine ⟨?_, fun e he => ?_⟩
  · rw [Entries.add, List.map_append, List.nodup_append]
    refine ⟨h.names, by simp, fun x hx y hy => ?_⟩
    obtain ⟨e, he, rfl⟩ := List.mem_map.mp hx
    have hother := List.lookup_eq_none_iff.mp hfind e he
    simp only [List.map_cons, List.map_nil, List.mem_singleton] at hy
    rintro rfl
    simp [hy] at hother
  · rcases List.mem_append.mp he with he | he
    · exact h.nodes e he
    · exact List.mem_singleton.mp he ▸ hn

theorem map_fst_replace (es : Entries) (k : String) (n : Node) :
    (replace es k n).map Prod.fst = es.map Prod.fst := by
  rw [replace, List.map_map]
  refine List.map_congr_left fun e _ => ?_
  by_cases hk : e.1 = k <;> simp [hk]

theorem Distinct.replace (h : Distinct es) (hn : n.Distinct) : Distinct (replace es k n) := by
  refine ⟨map_fst_replace es k n ▸ h.names, fun e he => ?_⟩
  obtain ⟨e', he', rfl⟩ := List.mem_map.mp he
  by_cases hk : e'.1 = k
  · simpa [hk] using hn
  · simpa [hk] using h.nodes e' he'

theorem Distinct.remove (h : Distinct es) (k : String) : Distinct (remove es k) :=
  ⟨h.names.sublist (List.filter_sublist.map _), fun e he => h.nodes e (List.mem_filter.mp he).1⟩

/-- What is done to the table at the end of a path keeps the names apart if it does so there. -/
theorem Distinct.alter (hf : ∀ {dotted es a es'}, Distinct es → f dotted es = some (a, es') →
      P a ∧ Distinct es') (h : Distinct es) (hes : alter dottedPath f ks dotted es = some (a, es')) :
    P a ∧ Distinct es' := by
  induction ks generalizing dotted es es' with
  | nil => exact hf h hes
  | cons k ks ih =>
    rw [Entries.alter] at hes
    split at hes
    next hfind =>
      obtain ⟨⟨a', c⟩, hc, heq⟩ := Option.map_eq_some_iff.mp hes
      obtain ⟨rfl, rfl⟩ := Prod.mk.inj heq
      obtain ⟨ha, hdistinct⟩ := ih distinct_nil hc
      exact ⟨ha, h.add hfind (.table hdistinct)⟩
    next => exact nomatch hes
    next c hfind =>
      split at hes
      · exact nomatch hes
      · obtain ⟨⟨a', c'⟩, hc, heq⟩ := Option.map_eq_some_iff.mp hes
        obtain ⟨rfl, rfl⟩ := Prod.mk.inj heq
        cases h.find? hfind with
        | table hentries =>
          obtain ⟨ha, hdistinct⟩ := ih hentries hc
          exact ⟨ha, h.replace (.table hdistinct)⟩
    next ts hfind =>
      cases h.find? hfind with
      | tables heach =>
        split at hes
        · exact nomatch hes
        next c hlast =>
          obtain ⟨⟨a', c'⟩, hc, heq⟩ := Option.map_eq_some_iff.mp hes
          obtain ⟨rfl, rfl⟩ := Prod.mk.inj heq
          obtain ⟨ha, hdistinct⟩ := ih (heach c (List.mem_of_getLast? hlast)) hc
          refine ⟨ha, h.replace (.tables fun es hmem => ?_)⟩
          rcases List.mem_append.mp hmem with hmem | hmem
          · exact heach es ((List.dropLast_sublist ts).subset hmem)
          · exact List.mem_singleton.mp hmem ▸ hdistinct

theorem Distinct.insert {v : Value} {path : List String} (hv : v.Distinct) (h : Distinct es)
    (hes : insert es path v = some es') : Distinct es' := by
  unfold Entries.insert at hes
  split at hes
  · exact nomatch hes
  · obtain ⟨⟨u, c⟩, hc, rfl⟩ := Option.map_eq_some_iff.mp hes
    refine (h.alter (P := fun _ => True) (fun hes hadd => ?_) hc).2
    unfold addLeaf at hadd
    split_ifs at hadd with _ hfind
    obtain ⟨-, rfl⟩ := Prod.mk.inj (Option.some.inj hadd)
    exact ⟨trivial, hes.add (by simpa using hfind) (.leaf hv)⟩

theorem Distinct.insertAll {ms : List (List String × Value)} (hms : ∀ m ∈ ms, m.2.Distinct)
    (h : Distinct es) (hes : insertAll es ms = some es') : Distinct es' := by
  induction ms generalizing es with
  | nil => exact Option.some.inj hes ▸ h
  | cons m ms ih =>
    obtain ⟨es₁, hfirst, hrest⟩ := Option.bind_eq_some_iff.mp hes
    exact ih (fun m' hm => hms m' (List.mem_cons_of_mem _ hm))
      (h.insert (hms m List.mem_cons_self) hfirst) hrest

end Entries

/-! What the tables become. -/

theorem map_fst_toMembers (es : Entries) : (Node.toMembers es).map Prod.fst = es.map Prod.fst := by
  induction es with
  | nil => rfl
  | cons e es ih =>
    rw [Node.toMembers, List.map_cons, List.map_cons, ih]

mutual

theorem distinct_toValue : ∀ {n : Node}, n.Distinct → n.toValue.Distinct
  | .leaf v, .leaf hv => by
    rw [Node.toValue]
    exact hv
  | .table _ _ es, .table hes => by
    rw [Node.toValue]
    exact .table (map_fst_toMembers es ▸ hes.names) (distinct_toMembers hes.nodes)
  | .tables ts, .tables hts => by
    rw [Node.toValue]
    exact .array (distinct_toTables hts)

theorem distinct_toMembers : ∀ {es : List (String × Node)}, (∀ e ∈ es, Node.Distinct e.2) →
    ∀ m ∈ Node.toMembers es, m.2.Distinct
  | [], _ => by simp [Node.toMembers]
  | (k, n) :: es, hes => by
    rw [Node.toMembers]
    refine List.forall_mem_cons.mpr ⟨?_, ?_⟩
    · exact distinct_toValue (hes (k, n) List.mem_cons_self)
    · exact distinct_toMembers fun e he => hes e (List.mem_cons_of_mem _ he)

theorem distinct_toTables : ∀ {ts : List (List (String × Node))}, (∀ es ∈ ts, Entries.Distinct es) →
    ∀ v ∈ Node.toTables ts, v.Distinct
  | [], _ => by simp [Node.toTables]
  | es :: ts, hts => by
    rw [Node.toTables]
    have hes := hts es List.mem_cons_self
    refine List.forall_mem_cons.mpr ⟨?_, ?_⟩
    · exact .table (map_fst_toMembers es ▸ hes.names) (distinct_toMembers hes.nodes)
    · exact distinct_toTables fun es' he => hts es' (List.mem_cons_of_mem _ he)

end

theorem distinct_inlineTable {ms : List (List String × Value)} {v : Value}
    (hms : ∀ m ∈ ms, m.2.Distinct) (hv : inlineTable? ms = some v) : v.Distinct := by
  obtain ⟨es, hes, rfl⟩ := Option.map_eq_some_iff.mp hv
  have hdistinct := Entries.distinct_nil.insertAll hms hes
  exact .table (map_fst_toMembers es ▸ hdistinct.names) (distinct_toMembers hdistinct.nodes)

/-! What is read. -/

theorem distinct_readDate {s r : List Char} {v : Value} (h : readDate s = some (v, r)) :
    v.Distinct := by
  unfold readDate at h
  split at h
  · dsimp only at h
    split_ifs at h <;> obtain ⟨rfl, -⟩ := Prod.mk.inj (Option.some.inj h) <;> exact .dateTime
  · obtain ⟨rfl, -⟩ := Prod.mk.inj (Option.some.inj h)
    exact .dateTime

theorem distinct_atom {s : List Char} {v : Value} (h : atom? s = some v) : v.Distinct := by
  unfold atom? at h
  split at h
  · exact Option.some.inj h ▸ .boolean true
  · split at h
    · exact Option.some.inj h ▸ .boolean false
    · split at h
      next n _ => exact Option.some.inj h ▸ .integer n
      next x _ _ => exact Option.some.inj h ▸ .real x
      next =>
        split at h
        · exact Option.some.inj h ▸ .dateTime
        · exact nomatch h

theorem distinct_readAtom {s r : List Char} {v : Value} (h : readAtom s = some (v, r)) :
    v.Distinct := by
  unfold readAtom at h
  dsimp only at h
  split at h
  · exact distinct_readDate h
  · obtain ⟨w, hw, heq⟩ := Option.map_eq_some_iff.mp h
    obtain ⟨rfl, -⟩ := Prod.mk.inj heq
    exact distinct_atom hw

/-- What the readers of values give with the fuel. -/
structure Apart (fuel : Nat) : Prop where
  value : ∀ {depth s v r}, readValue fuel depth s = some (v, r) → v.Distinct
  items : ∀ {depth s vs r}, readItems fuel depth s = some (vs, r) → ∀ v ∈ vs, v.Distinct
  members : ∀ {depth s ms r}, readMembers fuel depth s = some (ms, r) → ∀ m ∈ ms, m.2.Distinct

theorem Apart.value_succ {fuel depth : Nat} {s r : List Char} {v : Value} (h : Apart fuel)
    (hread : readValue (fuel + 1) depth s = some (v, r)) : v.Distinct := by
  unfold readValue at hread
  split at hread
  · split at hread
    · exact nomatch hread
    · obtain ⟨⟨vs, r'⟩, hitems, heq⟩ := Option.map_eq_some_iff.mp hread
      obtain ⟨rfl, -⟩ := Prod.mk.inj heq
      exact .array (h.items hitems)
  · split at hread
    · exact nomatch hread
    · split at hread
      · obtain ⟨rfl, -⟩ := Prod.mk.inj (Option.some.inj hread)
        exact .table List.nodup_nil (by simp)
      · split at hread
        · exact nomatch hread
        next ms r' hmembers =>
          obtain ⟨w, hw, heq⟩ := Option.map_eq_some_iff.mp hread
          obtain ⟨rfl, -⟩ := Prod.mk.inj heq
          exact distinct_inlineTable (h.members hmembers) hw
  · obtain ⟨⟨t, r'⟩, -, heq⟩ := Option.map_eq_some_iff.mp hread
    exact (Prod.mk.inj heq).1 ▸ .string t
  · obtain ⟨⟨t, r'⟩, -, heq⟩ := Option.map_eq_some_iff.mp hread
    exact (Prod.mk.inj heq).1 ▸ .string t
  · exact distinct_readAtom hread

theorem Apart.items_succ {fuel depth : Nat} {s r : List Char} {vs : List Value} (h : Apart fuel)
    (hread : readItems (fuel + 1) depth s = some (vs, r)) : ∀ v ∈ vs, v.Distinct := by
  unfold readItems at hread
  split at hread
  · obtain ⟨rfl, -⟩ := Prod.mk.inj (Option.some.inj hread)
    simp
  · split at hread
    · exact nomatch hread
    next v r' hv =>
      split at hread
      · obtain ⟨⟨ws, r''⟩, hws, heq⟩ := Option.map_eq_some_iff.mp hread
        obtain ⟨rfl, -⟩ := Prod.mk.inj heq
        exact List.forall_mem_cons.mpr ⟨h.value hv, h.items hws⟩
      · obtain ⟨rfl, -⟩ := Prod.mk.inj (Option.some.inj hread)
        exact List.forall_mem_singleton.mpr (h.value hv)
      · exact nomatch hread

theorem Apart.members_succ {fuel depth : Nat} {s r : List Char} {ms : List (List String × Value)}
    (h : Apart fuel) (hread : readMembers (fuel + 1) depth s = some (ms, r)) :
    ∀ m ∈ ms, m.2.Distinct := by
  unfold readMembers at hread
  split at hread
  · split at hread
    · exact nomatch hread
    next v r' hv =>
      split at hread
      · obtain ⟨⟨ws, r''⟩, hws, heq⟩ := Option.map_eq_some_iff.mp hread
        obtain ⟨rfl, -⟩ := Prod.mk.inj heq
        exact List.forall_mem_cons.mpr ⟨h.value hv, h.members hws⟩
      · obtain ⟨rfl, -⟩ := Prod.mk.inj (Option.some.inj hread)
        exact List.forall_mem_singleton.mpr (h.value hv)
      · exact nomatch hread
  · exact nomatch hread

theorem apart (fuel : Nat) : Apart fuel := by
  induction fuel with
  | zero =>
    refine ⟨fun h => ?_, fun h => ?_, fun h => ?_⟩
    · simp [readValue] at h
    · simp [readItems] at h
    · simp [readMembers] at h
  | succ fuel ih => exact ⟨ih.value_succ, ih.items_succ, ih.members_succ⟩

def Line.Distinct : Line → Prop
  | .member _ v => v.Distinct
  | _ => True

theorem distinct_readLine {s r : List Char} {l : Line} (h : readLine s = some (l, r)) :
    l.Distinct := by
  unfold readLine at h
  split at h
  · exact (Prod.mk.inj (Option.some.inj h)).1 ▸ trivial
  · exact (Prod.mk.inj (Option.some.inj h)).1 ▸ trivial
  · obtain ⟨_, -, heq⟩ := Option.map_eq_some_iff.mp h
    exact (Prod.mk.inj heq).1 ▸ trivial
  · split at h
    · obtain ⟨_, -, heq⟩ := Option.map_eq_some_iff.mp h
      exact (Prod.mk.inj heq).1 ▸ trivial
    · exact nomatch h
  · split at h
    · obtain ⟨_, -, heq⟩ := Option.map_eq_some_iff.mp h
      exact (Prod.mk.inj heq).1 ▸ trivial
    · exact nomatch h
  · split at h
    · split at h
      · exact nomatch h
      next v r' hv =>
        obtain ⟨_, -, heq⟩ := Option.map_eq_some_iff.mp h
        obtain ⟨rfl, -⟩ := Prod.mk.inj heq
        exact (apart _).value hv
    · exact nomatch h

theorem distinct_readLines {n : Nat} {s : List Char} {ls : List Line} (h : readLines n s = some ls) :
    ∀ l ∈ ls, l.Distinct := by
  induction n generalizing s ls with
  | zero => exact nomatch h
  | succ n ih =>
    unfold readLines at h
    split at h
    · obtain rfl := Option.some.inj h
      simp
    · split at h
      · exact nomatch h
      next l r hl =>
        obtain ⟨ls', hls, rfl⟩ := Option.map_eq_some_iff.mp h
        exact List.forall_mem_cons.mpr ⟨distinct_readLine hl, ih hls⟩

namespace Builder

structure Distinct (b : Builder) : Prop where
  root : Entries.Distinct b.root
  current : Entries.Distinct b.current

variable {b b' : Builder}

theorem Distinct.finish {es : Entries} (hb : b.Distinct) (h : b.finish = some es) :
    Entries.Distinct es := by
  unfold Builder.finish at h
  split at h
  · exact Option.some.inj h ▸ hb.current
  next k _ =>
    obtain ⟨⟨u, es'⟩, halter, rfl⟩ := Option.map_eq_some_iff.mp h
    refine (hb.root.alter (P := fun _ => True) (fun hes hplace => ⟨trivial, ?_⟩) halter).2
    unfold place at hplace
    split at hplace
    next hfind _ =>
      obtain ⟨-, rfl⟩ := Prod.mk.inj (Option.some.inj hplace)
      exact hes.add hfind (.tables (by simpa using hb.current))
    next hfind _ =>
      obtain ⟨-, rfl⟩ := Prod.mk.inj (Option.some.inj hplace)
      exact hes.add hfind (.table hb.current)
    next ts hfind _ =>
      obtain ⟨-, rfl⟩ := Prod.mk.inj (Option.some.inj hplace)
      cases hes.find? hfind with
      | tables heach =>
        refine hes.replace (.tables fun es hmem => ?_)
        rcases List.mem_append.mp hmem with hmem | hmem
        · exact heach es hmem
        · exact List.mem_singleton.mp hmem ▸ hb.current
    next => exact nomatch hplace

theorem distinct_openTable {root : Entries} {path : List String} (hroot : Entries.Distinct root)
    (h : openTable root path = some b) : b.Distinct := by
  unfold openTable at h
  split at h
  · exact nomatch h
  next k _ =>
    obtain ⟨⟨c, es⟩, halter, rfl⟩ := Option.map_eq_some_iff.mp h
    have hboth := hroot.alter (P := Entries.Distinct) (fun {_ es _ _} hes htake => by
      unfold takeOut at htake
      split at htake
      · obtain ⟨rfl, rfl⟩ := Prod.mk.inj (Option.some.inj htake)
        exact ⟨Entries.distinct_nil, hes⟩
      next c hfind =>
        obtain ⟨rfl, rfl⟩ := Prod.mk.inj (Option.some.inj htake)
        cases hes.find? hfind with
        | table hc => exact ⟨hc, hes.remove k⟩
      · exact nomatch htake) halter
    exact ⟨hboth.2, hboth.1⟩

theorem distinct_openArray {root : Entries} {path : List String} (hroot : Entries.Distinct root)
    (h : openArray root path = some b) : b.Distinct := by
  unfold openArray at h
  split at h
  · exact nomatch h
  next k _ =>
    obtain ⟨⟨u, es⟩, halter, rfl⟩ := Option.map_eq_some_iff.mp h
    refine ⟨(hroot.alter (P := fun _ => True) (fun hes hat => ⟨trivial, ?_⟩) halter).2,
      Entries.distinct_nil⟩
    unfold arrayAt at hat
    split at hat
    next hfind =>
      obtain ⟨-, rfl⟩ := Prod.mk.inj (Option.some.inj hat)
      exact hes.add hfind (.tables (by simp))
    next =>
      obtain ⟨-, rfl⟩ := Prod.mk.inj (Option.some.inj hat)
      exact hes
    next => exact nomatch hat

theorem Distinct.step {l : Line} (hb : b.Distinct) (hl : l.Distinct) (h : b.step l = some b') :
    b'.Distinct := by
  cases l with
  | nothing => exact Option.some.inj h ▸ hb
  | member path v =>
    obtain ⟨es, hes, rfl⟩ := Option.map_eq_some_iff.mp h
    exact ⟨hb.root, hb.current.insert hl hes⟩
  | header path =>
    obtain ⟨root, hroot, hopen⟩ := Option.bind_eq_some_iff.mp h
    exact distinct_openTable (hb.finish hroot) hopen
  | arrayHeader path =>
    obtain ⟨root, hroot, hopen⟩ := Option.bind_eq_some_iff.mp h
    exact distinct_openArray (hb.finish hroot) hopen

theorem Distinct.steps {ls : List Line} (hb : b.Distinct) (hls : ∀ l ∈ ls, l.Distinct)
    (h : ls.foldlM Builder.step b = some b') : b'.Distinct := by
  induction ls generalizing b with
  | nil => exact Option.some.inj h ▸ hb
  | cons l ls ih =>
    rw [List.foldlM_cons] at h
    obtain ⟨b₁, hfirst, hrest⟩ := Option.bind_eq_some_iff.mp h
    exact ih (hb.step (hls l List.mem_cons_self) hfirst)
      (fun l' hl => hls l' (List.mem_cons_of_mem _ hl)) hrest

end Builder

/-- A text that is read has each name once, in the table that it is and in all others. -/
theorem distinct_read {text : String} {ms : List (String × Value)} (h : read? text = some ms) :
    (Value.table ms).Distinct := by
  unfold read? at h
  split at h
  · exact nomatch h
  · split at h
    · exact nomatch h
    next ls hls =>
      obtain ⟨es, hes, rfl⟩ := Option.map_eq_some_iff.mp h
      obtain ⟨b, hb, hfinish⟩ := Option.bind_eq_some_iff.mp hes
      have hinitial : Builder.initial.Distinct := ⟨Entries.distinct_nil, Entries.distinct_nil⟩
      have hdistinct := (hinitial.steps (distinct_readLines hls) hb).finish hfinish
      exact .table (map_fst_toMembers es ▸ hdistinct.names) (distinct_toMembers hdistinct.nodes)

end EventGateway.Toml
