import EventGateway.Proofs.Config.Reloading
import EventGateway.Proofs.Config.Spelling

/-! Which configurations are accepted, and what is said about the others. The checks are spread over
the file, its text, the values in it and the registry, and the first that fails is the one that is
reported. -/

namespace EventGateway

/-- The first of the names that no topic has. -/
def FirstUnknown (names : List String) (n : String) : Prop :=
  ∃ before after, names = before ++ n :: after ∧ (∀ m ∈ before, ∃ t, Topic.name t = m) ∧
    ∀ t, Topic.name t ≠ n

theorem not_firstUnknown_nil {n : String} : ¬ FirstUnknown [] n := by
  rintro ⟨before, after, hnil, -⟩
  simp at hnil

theorem firstUnknown_cons {m n : String} {names : List String} :
    FirstUnknown (m :: names) n ↔
      (n = m ∧ ∀ t, Topic.name t ≠ m) ∨ ((∃ t, Topic.name t = m) ∧ FirstUnknown names n) := by
  constructor
  · rintro ⟨before, after, hsplit, hknown, hno⟩
    cases before with
    | nil =>
      obtain ⟨rfl, -⟩ := List.cons.inj hsplit
      exact .inl ⟨rfl, hno⟩
    | cons k before =>
      obtain ⟨rfl, hrest⟩ := List.cons.inj hsplit
      obtain ⟨hfirst, hknown⟩ := List.forall_mem_cons.mp hknown
      exact .inr ⟨hfirst, before, after, hrest, hknown, hno⟩
  · rintro (⟨rfl, hno⟩ | ⟨hfirst, before, after, rfl, hknown, hno⟩)
    · exact ⟨[], names, rfl, by simp, hno⟩
    · exact ⟨m :: before, after, rfl, List.forall_mem_cons.mpr ⟨hfirst, hknown⟩, hno⟩

namespace Registry

variable {names : List String} {r : Registry}

theorem mapM_ofName_ok {ts : List Topic} :
    names.mapM Topic.ofName = .ok ts ↔ ts.map Topic.name = names := by
  induction names generalizing ts with
  | nil => simp [pure, Except.pure, eq_comm]
  | cons n names ih =>
    simp only [List.mapM_cons, bind_ok, ih, Topic.ofName_ok, ok_inj, List.map_eq_cons_iff]
    constructor
    · rintro ⟨t, ht, ts', hts, h⟩
      exact ⟨t, ts', h.symm, ht, hts⟩
    · rintro ⟨t, ts', h, ht, hts⟩
      exact ⟨t, ht, ts', hts, h.symm⟩

theorem mapM_ofName_error {e : InvalidTopic} :
    names.mapM Topic.ofName = .error e ↔ FirstUnknown names e.name := by
  induction names with
  | nil => exact iff_of_false nofun not_firstUnknown_nil
  | cons n names ih =>
    rw [List.mapM_cons, bind_error, firstUnknown_cons]
    refine or_congr Topic.ofName_error ?_
    simp [bind_error, ih, Topic.ofName_ok, pure, Except.pure]

theorem ofNames_ok :
    ofNames names = .ok r ↔ ∃ ts : List Topic, ts.map Topic.name = names ∧ ofTopics ts = r :=
  map_ok.trans (exists_congr fun _ => and_congr_left' mapM_ofName_ok)

theorem ofNames_error {e : InvalidTopic} :
    ofNames names = .error e ↔ FirstUnknown names e.name :=
  map_error.trans mapM_ofName_error

end Registry

namespace Settings

structure Valid (s : Settings) : Prop where
  secret : s.secret ≠ ""
  buffer : 1 ≤ s.subscriberBuffer
  topics : s.topics ≠ []
  known : ∀ n ∈ s.topics, ∃ t, Topic.name t = n

/-- The first thing that is wrong with the settings. -/
def FirstWrong (s : Settings) : ConfigError → Prop
  | .noSecret => s.secret = ""
  | .noBuffer => s.secret ≠ "" ∧ s.subscriberBuffer = 0
  | .topic e => s.secret ≠ "" ∧ 1 ≤ s.subscriberBuffer ∧ FirstUnknown s.topics e.name
  | .noTopics => s.secret ≠ "" ∧ 1 ≤ s.subscriberBuffer ∧ s.topics = []
  | _ => False

end Settings

namespace Loader

variable {l : Loader} {hash : String → String} {d d' : Directory} {x : Loaded} {s : Settings}
  {r : Registry} {e : ConfigError}

theorem isEmpty_ofTopics (ts : List Topic) : (Registry.ofTopics ts).isEmpty = ts.isEmpty := by
  cases ts with
  | nil => decide
  | cons t ts =>
    have hmem : t ∈ (Registry.ofTopics (t :: ts)).topics :=
      Registry.mem_topics.mpr (by simp [Registry.contains, Registry.ofTopics])
    simp [Registry.isEmpty, List.ne_nil_of_mem hmem]

/-- What passes the checks, and the registry that comes out of them. -/
theorem validate_ok_iff : validate s = .ok r ↔
    s.Valid ∧ ∃ ts : List Topic, ts.map Topic.name = s.topics ∧ Registry.ofTopics ts = r := by
  rw [validate_ok, Registry.ofNames_ok]
  constructor
  · rintro ⟨hsecret, hbuffer, ⟨ts, hts, rfl⟩, hfull⟩
    rw [isEmpty_ofTopics] at hfull
    refine ⟨⟨hsecret, by omega, ?_, fun n hn => ?_⟩, ts, hts, rfl⟩
    · rw [← hts]
      simpa using hfull
    · obtain ⟨t, -, ht⟩ := List.mem_map.mp (hts ▸ hn)
      exact ⟨t, ht⟩
  · rintro ⟨hvalid, ts, hts, rfl⟩
    have hbuffer := hvalid.buffer
    refine ⟨hvalid.secret, by omega, ⟨ts, hts, rfl⟩, ?_⟩
    have htopics := hvalid.topics
    rw [isEmpty_ofTopics]
    rw [← hts] at htopics
    simpa using htopics

theorem validate_error_iff : validate s = .error e ↔ s.FirstWrong e := by
  unfold validate
  by_cases hsecret : s.secret = ""
  · cases e <;> simp [hsecret, Settings.FirstWrong]
  by_cases hbuffer : s.subscriberBuffer = 0
  · cases e <;> simp [hsecret, hbuffer, Settings.FirstWrong]
  have hpos : 1 ≤ s.subscriberBuffer := by omega
  cases hnames : Registry.ofNames s.topics with
  | error i =>
    have hsome : s.topics ≠ [] := by
      intro hnil
      exact not_firstUnknown_nil (hnil ▸ Registry.ofNames_error.mp hnames)
    cases e with
    | topic j => simp [hsecret, hbuffer, hpos, Settings.FirstWrong, ← Registry.ofNames_error, hnames]
    | _ => simp [hsecret, hbuffer, hsome, Settings.FirstWrong]
  | ok r =>
    obtain ⟨ts, hts, rfl⟩ := Registry.ofNames_ok.mp hnames
    cases e with
    | topic j =>
      cases ts <;> simp [hsecret, hbuffer, isEmpty_ofTopics, Settings.FirstWrong,
        ← Registry.ofNames_error, hnames]
    | _ =>
      cases ts <;> simp [hsecret, hbuffer, hpos, isEmpty_ofTopics, Settings.FirstWrong, ← hts]

/-! What the file holds. -/

/-- The file is there and its text spells the settings. -/
def Holds (l : Loader) (d : Directory) (s : Settings) : Prop :=
  ∃ text ms, d.readText l.name = .ok text ∧ Toml.read? text = some ms ∧ Settings.Spells ms s

/-- Why the file holds nothing. -/
def Unreadable (l : Loader) (d : Directory) : ConfigError → Prop
  | .access e => d.readText l.name = .error e
  | .malformed => ∃ text, d.readText l.name = .ok text ∧ Toml.read? text = none
  | .fault f => ∃ text ms, d.readText l.name = .ok text ∧ Toml.read? text = some ms ∧
      (∀ s, ¬ Settings.Spells ms s) ∧ Settings.ofMembers ms = .error f
  | _ => False

theorem read_ok_iff : l.read d = .ok s ↔ ∃ s₀, l.Holds d s₀ ∧ l.override s₀ = s := by
  rw [read_ok]
  constructor
  · rintro ⟨text, s₀, htext, hs, rfl⟩
    obtain ⟨ms, hms, hspells⟩ := Settings.ofText_iff.mp hs
    exact ⟨s₀, ⟨text, ms, htext, hms, hspells⟩, rfl⟩
  · rintro ⟨s₀, ⟨text, ms, htext, hms, hspells⟩, rfl⟩
    exact ⟨text, s₀, htext, Settings.ofText_iff.mpr ⟨ms, hms, hspells⟩, rfl⟩

/-- The checks look at nothing that an override changes. -/
theorem validate_override (l : Loader) (s : Settings) : validate (l.override s) = validate s := rfl

theorem buffer_le_of_read (hread : l.read d = .ok s) : s.subscriberBuffer ≤ Settings.greatestCount := by
  obtain ⟨text, s₀, _, hs, rfl⟩ := read_ok.mp hread
  have hbuffer := Settings.buffer_le_of_ofText hs
  exact hbuffer

/-- Settings that pass the checks are loaded, if the new file can be written. -/
theorem load_of_valid (hash : String → String) (hfree : d.find? (stagingName l.name) ≠ some .folder)
    (hread : l.read d = .ok s) (hvalid : validate s = .ok r) :
    ∃ x, (l.load hash d).1 = .ok x ∧ x.runtime.listen = s.listen ∧ x.registry = r ∧
      x.subscriberBuffer = s.subscriberBuffer := by
  cases hhashed : s.isHashed with
  | true => exact ⟨loaded s r, by simp [load, hread, hvalid, hhashed], rfl, rfl, rfl⟩
  | false =>
    obtain ⟨bytes, hfile⟩ := file_of_read hread
    have hbuffer := buffer_le_of_read hread
    obtain ⟨d', hpersist⟩ := persist_free (s := secured hash s) hfile hfree hbuffer
    exact ⟨loaded (secured hash s) r, by simp [load, hread, hvalid, hhashed, hpersist], rfl, rfl, rfl⟩

theorem load_error_iff (hfree : d.find? (stagingName l.name) ≠ some .folder) :
    (l.load hash d).1 = .error e ↔
      l.read d = .error e ∨ ∃ s, l.read d = .ok s ∧ validate s = .error e := by
  cases hread : l.read d with
  | error e' => simp [load, hread]
  | ok s =>
    cases hvalid : validate s with
    | error e' => simp [load, hread, hvalid]
    | ok r =>
      obtain ⟨x, hload, -⟩ := load_of_valid hash hfree hread hvalid
      simp [hload, hvalid]

theorem read_error_iff : l.read d = .error e ↔ l.Unreadable d e := by
  unfold read
  cases htext : d.readText l.name with
  | error a => cases e <;> simp [Unreadable, htext]
  | ok text =>
    cases hms : Toml.read? text with
    | none => cases e <;> simp [Unreadable, htext, hms, Settings.ofText]
    | some ms =>
      cases hread : Settings.ofMembers ms with
      | error f =>
        have hno : ∀ s, ¬ Settings.Spells ms s := fun s hspells => by
          have hs := Settings.ofText_iff.mpr ⟨ms, hms, hspells⟩
          simp [Settings.ofText, hms, hread, Except.mapError] at hs
        cases e <;> simp [Unreadable, htext, hms, hno, Settings.ofText, hread, Except.mapError]
      | ok s => cases e <;> simp [Unreadable, htext, hms, Settings.ofText, hread, Except.mapError]

theorem exists_named {names : List String} (hknown : ∀ n ∈ names, ∃ t, Topic.name t = n) :
    ∃ ts : List Topic, ts.map Topic.name = names := by
  induction names with
  | nil => exact ⟨[], rfl⟩
  | cons n names ih =>
    obtain ⟨⟨t, ht⟩, hrest⟩ := List.forall_mem_cons.mp hknown
    obtain ⟨ts, hts⟩ := ih hrest
    exact ⟨t :: ts, by rw [List.map_cons, ht, hts]⟩

theorem contains_ofTopics {ts : List Topic} {t : Topic} :
    (Registry.ofTopics ts).contains t = true ↔ t.name ∈ ts.map Topic.name := by
  rw [List.mem_map_of_injective fun _ _ => Topic.name_injective]
  simp [Registry.contains, Registry.ofTopics]

/-- What is loaded, from what the file holds. -/
theorem load_gives (hload : (l.load hash d).1 = .ok x) : ∃ s, l.Holds d s ∧ s.Valid ∧
    x.runtime.listen = l.listen.getD s.listen ∧
    (∀ t, x.registry.contains t = true ↔ t.name ∈ s.topics) ∧
    x.subscriberBuffer = s.subscriberBuffer := by
  obtain ⟨s', r, hread, hchecked, hcase⟩ := load_ok (Prod.ext hload rfl)
  obtain ⟨s, hholds, rfl⟩ := read_ok_iff.mp hread
  obtain ⟨hvalid, ts, hts, rfl⟩ := validate_ok_iff.mp (validate_override l s ▸ hchecked)
  have hregistry (t : Topic) : (Registry.ofTopics ts).contains t = true ↔ t.name ∈ s.topics :=
    hts ▸ contains_ofTopics
  rcases hcase with ⟨_, rfl, _⟩ | ⟨_, rfl, _⟩
  · exact ⟨s, hholds, hvalid, rfl, hregistry, rfl⟩
  · exact ⟨s, hholds, hvalid, rfl, hregistry, rfl⟩

/-- A load accepts the valid configurations and no others. It succeeds if and only if the text of the
file spells settings that have a secret, a buffer for one event at least and topics, all of them
known. It then gives the address that holds for this start, the topics that are listed, and the
buffer. Otherwise the first thing that is wrong is reported. In a section that is a table, what is
not there is a default, except for the secret. -/
theorem load_accepts (l : Loader) (hash : String → String) (d : Directory)
    (hfree : d.find? (stagingName l.name) ≠ some .folder) :
    ((∃ x, (l.load hash d).1 = .ok x) ↔ ∃ s, l.Holds d s ∧ s.Valid) ∧
    (∀ x, (l.load hash d).1 = .ok x → ∃ s, l.Holds d s ∧
      x.runtime.listen = l.listen.getD s.listen ∧
      (∀ t, x.registry.contains t = true ↔ t.name ∈ s.topics) ∧
      x.subscriberBuffer = s.subscriberBuffer) ∧
    (∀ e, (l.load hash d).1 = .error e ↔
      l.Unreadable d e ∨ ∃ s, l.Holds d s ∧ s.FirstWrong e) ∧
    (∀ text ms k es, Toml.read? text = some ms → (k, .table es) ∈ ms →
      (∀ a, Settings.readServer (.table es) = .ok a ↔
        Settings.Keeps Settings.readAddress "listen" Settings.defaultListen es a) ∧
      (∀ t, Settings.readAdmin (.table es) = .ok t ↔
        Settings.Requires Settings.readText "secret" es t) ∧
      (∀ e, Settings.readEvents (.table es) = .ok e ↔
        Settings.Keeps Settings.readTopics "topics" Settings.defaultTopics es e.topics ∧
        Settings.Keeps Settings.readCount "subscriber_buffer" Hub.defaultCapacity es
          e.subscriberBuffer)) := by
  have hrefused (e : ConfigError) : (l.load hash d).1 = .error e ↔
      l.Unreadable d e ∨ ∃ s, l.Holds d s ∧ s.FirstWrong e := by
    rw [load_error_iff hfree, read_error_iff]
    refine or_congr_right ⟨?_, ?_⟩
    · rintro ⟨_, hread, hvalid⟩
      obtain ⟨s, hholds, rfl⟩ := read_ok_iff.mp hread
      exact ⟨s, hholds, validate_error_iff.mp hvalid⟩
    · rintro ⟨s, hholds, hwrong⟩
      exact ⟨_, read_ok_iff.mpr ⟨s, hholds, rfl⟩, validate_error_iff.mpr hwrong⟩
  refine ⟨⟨?_, ?_⟩, fun x hload => ?_, hrefused, fun text ms k es hms hmem => ?_⟩
  · rintro ⟨x, hload⟩
    obtain ⟨s, hholds, hvalid, -⟩ := load_gives hload
    exact ⟨s, hholds, hvalid⟩
  · rintro ⟨s, hholds, hvalid⟩
    obtain ⟨ts, hts⟩ := exists_named hvalid.known
    have hread := read_ok_iff.mpr ⟨s, hholds, rfl⟩
    have hchecked := (validate_override l s).trans (validate_ok_iff.mpr ⟨hvalid, ts, hts, rfl⟩)
    obtain ⟨x, hload, -⟩ := load_of_valid hash hfree hread hchecked
    exact ⟨x, hload⟩
  · obtain ⟨s, hholds, -, hgiven⟩ := load_gives hload
    exact ⟨s, hholds, hgiven⟩
  · cases Toml.distinct_read hms with
    | table _ hvalues =>
      cases hvalues _ hmem with
      | table hnames _ =>
        exact ⟨fun _ => Settings.readServer_table hnames, fun _ => Settings.readAdmin_table hnames,
          fun _ => Settings.readEvents_table hnames⟩

/-- The second topic and the third are none. -/
def misnamedFile : Directory := ⟨[("gateway.toml", .file (Text.toUtf8
  "[admin]\nsecret = \"s\"\n[events]\ntopics = [\"cb_config\", \"cb_bogus\", \"cb_worse\"]\n"))]⟩

theorem repeatingFile_topics (hholds : onLink.Holds repeatingFile s) :
    s.topics = ["cb_config", "cb_config"] := by
  obtain ⟨text, ms, htext, hms, hspells⟩ := hholds
  have hs := Settings.ofText_iff.mpr ⟨ms, hms, hspells⟩
  have hread : ((repeatingFile.readText onLink.name).toOption.bind fun text =>
      (Settings.ofText text).toOption.map Settings.topics) =
        some ["cb_config", "cb_config"] := by decide +kernel
  rw [htext, Except.toOption, Option.bind_some, hs] at hread
  simpa [Except.toOption] using hread

theorem load_accepts_misnamedFile :
    (∃ s, overriding.Holds misnamedFile s ∧ s.FirstWrong (.topic ⟨"cb_bogus"⟩)) ∧
    ∃ x, (onLink.load (fun _ => Secret.storedHunter) repeatingFile).1 = .ok x ∧
      x.runtime.listen = .v6 [0xfe80, 0, 0, 0, 0, 0, 0, 1] 3 9999 ∧
      ∀ t, x.registry.contains t = true ↔ t = .serverConfig := by
  constructor
  · have herror : ((overriding.load id misnamedFile).1.map fun _ => ()) =
        .error (.topic ⟨"cb_bogus"⟩) := by decide +kernel
    have hfree : misnamedFile.find? (stagingName overriding.name) ≠ some .folder := by decide +kernel
    obtain ⟨-, -, hrefused, -⟩ := load_accepts overriding id misnamedFile hfree
    exact ((hrefused _).mp (map_error.mp herror)).resolve_left not_false
  · obtain ⟨x, d', hload, -⟩ := exists_loaded onLink (fun _ => Secret.storedHunter) repeatingFile
      (fun x => x.runtime.secretHash) (a := Secret.storedHunter) (by decide +kernel)
    have hfree : repeatingFile.find? (stagingName onLink.name) ≠ some .folder := by decide +kernel
    obtain ⟨-, hgives, -⟩ := load_accepts onLink (fun _ => Secret.storedHunter) repeatingFile hfree
    obtain ⟨s, hholds, hlisten, hregistry, -⟩ := hgives x (by rw [hload])
    refine ⟨x, by rw [hload], hlisten, fun t => ?_⟩
    rw [hregistry, repeatingFile_topics hholds]
    cases t <;> decide

end Loader

end EventGateway
