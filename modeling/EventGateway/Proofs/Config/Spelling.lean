import EventGateway.Config.Settings
import EventGateway.Proofs.Outcome
import EventGateway.Proofs.Toml.Distinct

/-! What the members of a file spell. A section is looked up in the file and a value in its section;
what is not there is a default, except for the secret. -/

namespace EventGateway.Settings

open Toml (Value)
open Network

section Lookup

variable {α : Type} {read : Value → Except SettingsFault α} {k j : String} {default x : α} {v : Value}
  {ms : List (String × Value)}

/-- The table has something readable under the name, or nothing and then it is the default. -/
def Keeps (read : Value → Except SettingsFault α) (k : String) (default : α)
    (ms : List (String × Value)) (x : α) : Prop :=
  match ms.lookup k with
  | some v => read v = .ok x
  | none => x = default

def Requires (read : Value → Except SettingsFault α) (k : String) (ms : List (String × Value))
    (x : α) : Prop :=
  ∃ v, ms.lookup k = some v ∧ read v = .ok x

theorem keeps_here : Keeps read k default ((k, v) :: ms) x ↔ read v = .ok x := by
  simp [Keeps]

theorem keeps_there (h : j ≠ k) :
    Keeps read k default ((j, v) :: ms) x ↔ Keeps read k default ms x := by
  rw [Keeps, Keeps, lookup_cons_ne h.symm]

theorem keeps_absent (h : ms.lookup k = none) : Keeps read k default ms x ↔ x = default := by
  rw [Keeps, h]

/-- What has no default is nothing at all when it is not there. -/
theorem keeps_some :
    Keeps (fun v => (read v).map some) k none ms (some x) ↔ Requires read k ms x := by
  unfold Keeps Requires
  cases ms.lookup k with
  | none => simp
  | some v => simp [map_ok]

theorem Keeps.elim {P : α → Prop} (h : Keeps read k default ms x) (hdefault : P default)
    (hread : ∀ v, (k, v) ∈ ms → read v = .ok x → P x) : P x := by
  unfold Keeps at h
  split at h
  next v hv =>
    obtain ⟨l₁, l₂, rfl, -⟩ := List.lookup_eq_some_iff.mp hv
    exact hread v (by simp) h
  next => exact h ▸ hdefault

/-- A name that is the first of the table is not there again. -/
theorem lookup_behind (hnames : (((k, v) :: ms).map Prod.fst).Nodup) : ms.lookup k = none := by
  refine List.lookup_eq_none_iff.mpr fun m hm => ?_
  have hfirst : k ∉ ms.map Prod.fst := (List.nodup_cons.mp hnames).1
  refine bne_iff_ne.mpr ?_
  rintro rfl
  exact hfirst (List.mem_map_of_mem hm)

end Lookup

variable {ms : List (String × Value)}

theorem readServer_table (hnames : (ms.map Prod.fst).Nodup) {a : SocketAddress} :
    readServer (.table ms) = .ok a ↔ Keeps readAddress "listen" defaultListen ms a := by
  have hmembers (b : SocketAddress) :
      readServer.members b ms = .ok a ↔ Keeps readAddress "listen" b ms a := by
    induction ms generalizing b with
    | nil => exact ok_inj.trans eq_comm
    | cons m ms ih =>
      obtain ⟨k, v⟩ := m
      have hrest := ih (List.nodup_cons.mp hnames).2
      rw [readServer.members]
      split
      next hk =>
        subst hk
        simp only [bind_ok, hrest, keeps_absent (lookup_behind hnames), keeps_here]
        exact exists_eq_right'
      next hk => rw [hrest, keeps_there hk]
  exact hmembers defaultListen

theorem readAdmin_table (hnames : (ms.map Prod.fst).Nodup) {t : String} :
    readAdmin (.table ms) = .ok t ↔ Requires readText "secret" ms t := by
  have hmembers (o : Option String) : readAdmin.members o ms = .ok t ↔
      Keeps (fun v => (readText v).map some) "secret" o ms (some t) := by
    induction ms generalizing o with
    | nil => cases o <;> simp [readAdmin.members, Keeps, eq_comm]
    | cons m ms ih =>
      obtain ⟨k, v⟩ := m
      have hrest := ih (List.nodup_cons.mp hnames).2
      rw [readAdmin.members]
      split
      next hk =>
        subst hk
        simp only [bind_ok, hrest, keeps_absent (lookup_behind hnames), keeps_here, map_ok]
        exact exists_congr fun _ => and_congr_right' eq_comm
      next hk => rw [hrest, keeps_there hk]
  exact (hmembers none).trans keeps_some

theorem readEvents_table (hnames : (ms.map Prod.fst).Nodup) {e : Events} :
    readEvents (.table ms) = .ok e ↔ Keeps readTopics "topics" defaultTopics ms e.topics ∧
      Keeps readCount "subscriber_buffer" Hub.defaultCapacity ms e.subscriberBuffer := by
  have hmembers (e₀ : Events) : readEvents.members e₀ ms = .ok e ↔
      Keeps readTopics "topics" e₀.topics ms e.topics ∧
        Keeps readCount "subscriber_buffer" e₀.subscriberBuffer ms e.subscriberBuffer := by
    induction ms generalizing e₀ with
    | nil =>
      obtain ⟨topics, buffer⟩ := e
      obtain ⟨topics₀, buffer₀⟩ := e₀
      simp [readEvents.members, Keeps, eq_comm]
    | cons m ms ih =>
      obtain ⟨k, v⟩ := m
      have hrest := ih (List.nodup_cons.mp hnames).2
      rw [readEvents.members]
      split_ifs with htopics hbuffer
      · subst htopics
        simp only [bind_ok, hrest, keeps_absent (lookup_behind hnames), keeps_here,
          keeps_there (show "topics" ≠ "subscriber_buffer" by decide)]
        constructor
        · rintro ⟨_, hts, rfl, hrest⟩
          exact ⟨hts, hrest⟩
        · rintro ⟨hts, hrest⟩
          exact ⟨_, hts, rfl, hrest⟩
      · subst hbuffer
        simp only [bind_ok, hrest, keeps_absent (lookup_behind hnames), keeps_here,
          keeps_there (show "subscriber_buffer" ≠ "topics" by decide)]
        constructor
        · rintro ⟨_, hn, hrest, rfl⟩
          exact ⟨hrest, hn⟩
        · rintro ⟨hrest, hn⟩
          exact ⟨_, hn, hrest, rfl⟩
      · rw [hrest, keeps_there htopics, keeps_there hbuffer]
  exact hmembers {}

theorem readSections_iff (hnames : (ms.map Prod.fst).Nodup) (s₀ : Sections) {s : Sections} :
    readSections s₀ ms = .ok s ↔ Keeps readServer "server" s₀.listen ms s.listen ∧
      Keeps (fun v => (readAdmin v).map some) "admin" s₀.secret ms s.secret ∧
        Keeps readEvents "events" s₀.events ms s.events := by
  induction ms generalizing s₀ with
  | nil =>
    obtain ⟨listen, secret, events⟩ := s
    obtain ⟨listen₀, secret₀, events₀⟩ := s₀
    simp [readSections, Keeps, eq_comm]
  | cons m ms ih =>
    obtain ⟨k, v⟩ := m
    have hrest := ih (List.nodup_cons.mp hnames).2
    rw [readSections]
    split_ifs with hserver hadmin hevents
    · subst hserver
      simp only [bind_ok, hrest, keeps_absent (lookup_behind hnames), keeps_here,
        keeps_there (show "server" ≠ "admin" by decide),
        keeps_there (show "server" ≠ "events" by decide)]
      constructor
      · rintro ⟨_, ha, rfl, hrest⟩
        exact ⟨ha, hrest⟩
      · rintro ⟨ha, hrest⟩
        exact ⟨_, ha, rfl, hrest⟩
    · subst hadmin
      simp only [bind_ok, hrest, keeps_absent (lookup_behind hnames), keeps_here, map_ok,
        keeps_there (show "admin" ≠ "server" by decide),
        keeps_there (show "admin" ≠ "events" by decide)]
      constructor
      · rintro ⟨t, ht, hlisten, hsame, hrest⟩
        exact ⟨hlisten, ⟨t, ht, hsame.symm⟩, hrest⟩
      · rintro ⟨hlisten, ⟨t, ht, hsame⟩, hrest⟩
        exact ⟨t, ht, hlisten, hsame.symm, hrest⟩
    · subst hevents
      simp only [bind_ok, hrest, keeps_absent (lookup_behind hnames), keeps_here,
        keeps_there (show "events" ≠ "server" by decide),
        keeps_there (show "events" ≠ "admin" by decide)]
      constructor
      · rintro ⟨_, he, hlisten, hsecret, rfl⟩
        exact ⟨hlisten, hsecret, he⟩
      · rintro ⟨hlisten, hsecret, he⟩
        exact ⟨_, he, hlisten, hsecret, rfl⟩
    · rw [hrest, keeps_there hserver, keeps_there hadmin, keeps_there hevents]

/-- The members of a file spell the settings. -/
structure Spells (ms : List (String × Value)) (s : Settings) : Prop where
  server : Keeps readServer "server" defaultListen ms s.listen
  admin : Requires readAdmin "admin" ms s.secret
  events : Keeps readEvents "events" {} ms ⟨s.topics, s.subscriberBuffer⟩

theorem ofMembers_iff (hnames : (ms.map Prod.fst).Nodup) {s : Settings} :
    ofMembers ms = .ok s ↔ Spells ms s := by
  constructor
  · intro h
    unfold ofMembers at h
    split at h
    · exact nomatch h
    next sections hread =>
      obtain ⟨hserver, hadmin, hevents⟩ := (readSections_iff hnames {}).mp hread
      split at h
      · exact nomatch h
      next t hsecret =>
        obtain rfl := Except.ok.inj h
        exact ⟨hserver, keeps_some.mp (hsecret ▸ hadmin), hevents⟩
  · rintro ⟨hserver, hadmin, hevents⟩
    have hread : readSections {} ms =
        .ok ⟨s.listen, some s.secret, ⟨s.topics, s.subscriberBuffer⟩⟩ :=
      (readSections_iff hnames {}).mpr ⟨hserver, keeps_some.mpr hadmin, hevents⟩
    rw [ofMembers, hread]

/-- A text is read as the settings that its members spell. -/
theorem ofText_iff {text : String} {s : Settings} :
    ofText text = .ok s ↔ ∃ ms, Toml.read? text = some ms ∧ Spells ms s := by
  unfold ofText
  cases hread : Toml.read? text with
  | none => simp
  | some ms =>
    cases Toml.distinct_read hread with
    | table hnames _ => simp [mapError_ok, ofMembers_iff hnames]

/-! The buffer is a number that can be written again. -/

theorem readCount_le {v : Value} {n : Nat} (h : readCount v = .ok n) : n ≤ greatestCount := by
  cases v with
  | integer i =>
    rw [readCount] at h
    split at h
    · have hlt := i.toInt_lt
      obtain rfl := Except.ok.inj h
      unfold greatestCount
      omega
    · exact nomatch h
  | string _ | real _ | boolean _ | dateTime | array _ | table _ => exact absurd h error_ne_ok

theorem readEvents_le {v : Value} {e : Events} (hv : v.Distinct) (h : readEvents v = .ok e) :
    e.subscriberBuffer ≤ greatestCount := by
  have hdefault : Hub.defaultCapacity ≤ greatestCount := by decide
  cases hv with
  | table hnames _ =>
    exact ((readEvents_table hnames).mp h).2.elim (P := (· ≤ greatestCount)) hdefault
      fun _ _ => readCount_le
  | dateTime => exact Except.ok.inj h ▸ hdefault
  | @array vs _ =>
    rcases vs with _ | ⟨t, _ | ⟨n, vs⟩⟩
    · exact Except.ok.inj h ▸ hdefault
    · obtain ⟨ts, _, h⟩ := bind_ok.mp h
      exact ok_inj.mp h ▸ hdefault
    · obtain ⟨ts, _, h⟩ := bind_ok.mp h
      obtain ⟨n, hn, h⟩ := bind_ok.mp h
      exact ok_inj.mp h ▸ readCount_le hn
  | string _ | integer _ | real _ | boolean _ => exact nomatch h

theorem buffer_le_of_ofText {text : String} {s : Settings} (h : ofText text = .ok s) :
    s.subscriberBuffer ≤ greatestCount := by
  obtain ⟨ms, hread, -, -, hevents⟩ := ofText_iff.mp h
  have hdefault : Hub.defaultCapacity ≤ greatestCount := by decide
  cases Toml.distinct_read hread with
  | table _ hvalues =>
    exact hevents.elim (P := fun e => e.subscriberBuffer ≤ greatestCount) hdefault
      fun v hv => readEvents_le (hvalues _ hv)

end EventGateway.Settings
