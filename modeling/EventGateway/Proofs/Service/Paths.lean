import EventGateway.Admin.Request
import EventGateway.Proofs.Text.Form
import Mathlib.Data.List.TakeWhile

/-! Where requests about tasks go. A path has its segments between slashes, and a segment is read
with its percent signs resolved, so that an id can have in it whatever means something in a path. -/

namespace EventGateway

open Http Text

namespace Http.Request

variable {r : Request} {path : String}

/-- The path of the request, whatever query or fragment is behind it. -/
def At (r : Request) (path : String) : Prop :=
  ∃ rest : List Char, r.target.toList = path.toList ++ rest ∧ ∀ c ∈ rest.head?, c ∈ ['?', '#']

theorem at_of_target (h : r.target = path) : r.At path :=
  ⟨[], h ▸ (List.append_nil _).symm, nofun⟩

theorem path_of_at (h : r.At path) (hpath : ∀ c ∈ path.toList, c ∉ ['?', '#']) : r.path = path := by
  obtain ⟨rest, htarget, hrest⟩ := h
  have hbefore {d : Char} (hd : d ∈ ['?', '#']) : ∀ c ∈ path.toList, decide (c ≠ d) = true := by
    intro c hc
    refine decide_eq_true ?_
    rintro rfl
    exact hpath c hc hd
  have hstops : Stops (· ≠ '?') (rest.takeWhile (· ≠ '#')) := by
    cases rest with
    | nil => exact stops_nil _
    | cons c rest =>
      have hc : c = '?' ∨ c = '#' := by simpa using hrest c rfl
      rcases hc with rfl | rfl
      · exact stops_cons (by decide) _
      · exact stops_nil _
  rw [Request.path, resource, htarget, List.takeWhile_append_of_pos (hbefore (by simp)),
    takeWhile_front (hbefore (by simp)) hstops, String.ofList_toList]

theorem at_path (r : Request) : r.At r.path := by
  have hnext {d c : Char} {s : List Char} (hc : c ∈ (s.dropWhile (· ≠ d)).head?) : c = d := by
    have hstop := List.head?_dropWhile_not (· ≠ d) s
    rw [Option.mem_def.mp hc] at hstop
    simpa using hstop
  refine ⟨(resource r.target).dropWhile (· ≠ '?') ++ r.target.toList.dropWhile (· ≠ '#'), ?_,
    fun c hc => ?_⟩
  · rw [Request.path, String.toList_ofList, ← List.append_assoc, List.takeWhile_append_dropWhile,
      resource, List.takeWhile_append_dropWhile]
  · rw [List.head?_append] at hc
    rcases Option.or_eq_some_iff.mp hc with hc | ⟨_, hc⟩
    · simp [hnext hc]
    · simp [hnext hc]

theorem unmarked_path (r : Request) : ∀ c ∈ r.path.toList, c ∉ ['?', '#'] := by
  intro c hc
  rw [Request.path, String.toList_ofList] at hc
  have hquery := List.mem_takeWhile_imp hc
  have hfragment := List.mem_takeWhile_imp ((List.takeWhile_sublist _).subset hc)
  simpa using And.intro hquery hfragment

end Http.Request

namespace Route

/-- The segment is one of a path, and is read as the id. -/
structure Segment (raw id : String) : Prop where
  whole : ∀ c ∈ raw.toList, c ∉ ['/', '?', '#']
  decodes : percentText? raw = some id

/-- Which octets of an id may stand for themselves. -/
structure Spares (plain : UInt8 → Bool) : Prop where
  ascii : ∀ b, plain b = true → b < 128
  marks : ∀ c ∈ ['/', '?', '#', '%'], plain (octet c) = false

def encoded (plain : UInt8 → Bool) (id : String) : String :=
  ofOctets (percentEncode plain (toUtf8 id))

theorem segment_encoded {plain : UInt8 → Bool} (h : Spares plain) (id : String) :
    Segment (encoded plain id) id where
  decodes := percentText?_encoded h.ascii (h.marks '%' (by decide)) id
  whole := by
    intro c hc hmark
    have hwritten : ∀ d ∈ ['/', '?', '#'], octet '%' ≠ octet d ∧
        ∀ k < 16, upperHexDigit (UInt8.ofNat k) ≠ octet d :=
      List.all_iff_forall_prop.mp (by decide)
    obtain ⟨hpercent, hdigits⟩ := hwritten c hmark
    have hquoted : plain (octet c) = false := h.marks c (List.mem_append_left ['%'] hmark)
    have hplain : ∀ b, plain b = true → b ≠ octet c := by
      rintro b hb rfl
      exact Bool.false_ne_true (hquoted.symm.trans hb)
    have hmem := mem_of_mem_ofOctets (percentEncode_lt h.ascii (toUtf8 id)) hc
    exact forall_percentEncode hplain hpercent hdigits (toUtf8 id) _ hmem rfl

theorem Segment.nonempty {raw id : String} (h : Segment raw id) (hid : id ≠ "") : raw ≠ "" := by
  rintro rfl
  have hempty : percentText? "" = some "" := by decide +kernel
  exact hid (Option.some.inj (h.decodes.symm.trans hempty))

theorem Segment.no_slash {raw id : String} (h : Segment raw id) : '/' ∉ raw.toList :=
  fun hc => h.whole '/' hc (by decide)

theorem splitAtSlash_eq_splitOn (cs : List Char) : segments.splitAtSlash cs = cs.splitOn '/' := by
  refine eq_splitOn rfl (fun r => if_pos rfl) (fun c r p ps hc hr => ?_) cs
  rw [segments.splitAtSlash, if_neg hc, hr]

theorem toList_segments (path : String) :
    (segments path).map String.toList = path.toList.splitOn '/' := by
  have hback : String.toList ∘ String.ofList = id := funext fun _ => String.toList_ofList
  rw [segments, splitAtSlash_eq_splitOn, List.map_map, hback, List.map_id]

theorem intercalate_segments (path : String) : "/".intercalate (segments path) = path := by
  rw [← String.toList_inj, String.toList_intercalate, toList_segments]
  exact List.intercalate_splitOn '/'

theorem segments_intercalate {pieces : List String} (hnone : ∀ x ∈ pieces, '/' ∉ x.toList)
    (hne : pieces ≠ []) : segments ("/".intercalate pieces) = pieces := by
  have hsplit : (['/'].intercalate (pieces.map String.toList)).splitOn '/' =
      pieces.map String.toList :=
    List.splitOn_intercalate '/' (by simpa using hnone) (by simpa using hne)
  refine (List.map_inj_right fun _ _ => String.toList_inj.mp).mp ?_
  rw [toList_segments, String.toList_intercalate]
  exact hsplit

theorem mem_splitAtSlash {cs x : List Char} (hx : x ∈ segments.splitAtSlash cs) {c : Char}
    (hc : c ∈ x) : c ∈ cs ∧ c ≠ '/' := by
  induction cs generalizing x with
  | nil => simp_all [segments.splitAtSlash]
  | cons d r ih =>
    rw [segments.splitAtSlash] at hx
    have hlater {x : List Char} (hx : x ∈ segments.splitAtSlash r) (hc : c ∈ x) :
        c ∈ d :: r ∧ c ≠ '/' := (ih hx hc).imp_left (List.mem_cons_of_mem d)
    by_cases hd : d = '/'
    · rw [if_pos hd] at hx
      rcases List.mem_cons.mp hx with rfl | hx
      · exact nomatch hc
      · exact hlater hx hc
    · rw [if_neg hd] at hx
      cases hr : segments.splitAtSlash r with
      | nil =>
        rw [hr, List.mem_singleton] at hx
        obtain rfl := List.mem_singleton.mp (hx ▸ hc)
        exact ⟨List.mem_cons_self, hd⟩
      | cons y ys =>
        rw [hr] at hx hlater
        rcases List.mem_cons.mp hx with rfl | hx
        · rcases List.mem_cons.mp hc with rfl | hc
          · exact ⟨List.mem_cons_self, hd⟩
          · exact hlater List.mem_cons_self hc
        · exact hlater (List.mem_cons_of_mem y hx) hc

/-- The segments of the path of a route. -/
def pieces : Route → List String
  | health => ["", "health"]
  | stream => ["", "ws"]
  | tasks => ["", "api", "admin", "tasks"]
  | task id => ["", "api", "admin", "tasks", id]
  | taskStatus id => ["", "api", "admin", "tasks", id, "status"]
  | sessionExpired id => ["", "api", "admin", "sessions", id, "expired"]
  | sessionState id => ["", "api", "admin", "sessions", id, "state"]
  | sessionLogUpdated id => ["", "api", "admin", "sessions", id, "log-updated"]
  | configChanged => ["", "api", "admin", "config", "changed"]

theorem ofAdmin?_eq_some {xs : List String} {route : Route} (h : ofAdmin? xs = some route) :
    "" :: "api" :: "admin" :: xs = route.pieces ∧ route ≠ task "" := by
  unfold ofAdmin? at h
  split at h
  case h_2 id =>
    split at h
    · exact nomatch h
    next hid =>
      obtain rfl := Option.some.inj h
      exact ⟨rfl, by simpa using hid⟩
  case h_8 => exact nomatch h
  all_goals
    obtain rfl := Option.some.inj h
    exact ⟨rfl, nofun⟩

theorem ofPath?_eq_some {path : String} {route : Route} :
    ofPath? path = some route ↔ segments path = route.pieces ∧ route ≠ task "" := by
  constructor
  · intro h
    unfold ofPath? at h
    split at h
    next hpath =>
      obtain rfl := Option.some.inj h
      exact ⟨hpath, nofun⟩
    next hpath =>
      obtain rfl := Option.some.inj h
      exact ⟨hpath, nofun⟩
    next hpath =>
      rw [hpath]
      exact ofAdmin?_eq_some h
    next => exact nomatch h
  · rintro ⟨hpath, hne⟩
    cases route with
    | task id =>
      have hid : id ≠ "" := by simpa using hne
      simp only [ofPath?, hpath, pieces, ofAdmin?, if_neg hid]
    | _ => simp only [ofPath?, hpath, pieces, ofAdmin?]

def path (route : Route) : String := "/".intercalate route.pieces

theorem ofPath?_path {route : Route} (hnone : ∀ x ∈ route.pieces, '/' ∉ x.toList)
    (hne : route ≠ task "") : ofPath? route.path = some route := by
  have hpieces : route.pieces ≠ [] := by cases route <;> simp [pieces]
  exact ofPath?_eq_some.mpr ⟨segments_intercalate hnone hpieces, hne⟩

theorem path_of_ofPath? {path : String} {route : Route} (h : ofPath? path = some route) :
    route.path = path := by
  rw [Route.path, ← (ofPath?_eq_some.mp h).1, intercalate_segments]

/-- Where tasks are started, where a task is, and where its status is reported. -/
def tasksPath : String := "/api/admin/tasks"

def taskPath (raw : String) : String := "/api/admin/tasks/" ++ raw

def statusPath (raw : String) : String := taskPath raw ++ "/status"

theorem path_task (raw : String) : (task raw).path = taskPath raw := rfl

theorem path_status (raw : String) : (taskStatus raw).path = statusPath raw := by
  show taskPath raw ++ "/" ++ "status" = _
  rw [String.append_assoc]
  rfl

variable {raw id : String} {r : Request}

theorem Segment.unmarked (h : Segment raw id) :
    (∀ c ∈ (taskPath raw).toList, c ∉ ['?', '#']) ∧
      ∀ c ∈ (statusPath raw).toList, c ∉ ['?', '#'] := by
  have hfront : ∀ c ∈ "/api/admin/tasks/".toList, c ∉ ['?', '#'] := by simp
  have hback : ∀ c ∈ "/status".toList, c ∉ ['?', '#'] := by simp
  have htask : ∀ c ∈ (taskPath raw).toList, c ∉ ['?', '#'] := by
    intro c hc hmark
    rcases List.mem_append.mp (String.toList_append ▸ hc) with hc | hc
    · exact hfront c hc hmark
    · exact h.whole c hc (List.mem_cons_of_mem '/' hmark)
  refine ⟨htask, fun c hc => ?_⟩
  rcases List.mem_append.mp (String.toList_append ▸ hc) with hc | hc
  · exact htask c hc
  · exact hback c hc

theorem Segment.task_at (h : Segment raw id) (hr : r.At (taskPath raw)) :
    ofPath? r.path = if raw = "" then none else some (task raw) := by
  have hsegments : segments (task raw).path = (task raw).pieces :=
    segments_intercalate (by simp [pieces, h.no_slash]) (by simp [pieces])
  rw [Request.path_of_at hr h.unmarked.1, ← path_task, ofPath?, hsegments]
  simp only [pieces, ofAdmin?]

theorem Segment.task_of_at (h : Segment raw id) (hraw : raw ≠ "") (hr : r.At (taskPath raw)) :
    ofPath? r.path = some (task raw) := by
  rw [h.task_at hr, if_neg hraw]

theorem Segment.status_at (h : Segment raw id) (hr : r.At (statusPath raw)) :
    ofPath? r.path = some (taskStatus raw) := by
  rw [Request.path_of_at hr h.unmarked.2, ← path_status]
  exact ofPath?_path (by simp [pieces, h.no_slash]) nofun

theorem tasks_at (hr : r.At tasksPath) : ofPath? r.path = some tasks := by
  rw [Request.path_of_at hr (by simp [tasksPath])]
  decide +kernel

theorem at_of_ofPath? {route : Route} (h : ofPath? r.path = some route) : r.At route.path := by
  rw [path_of_ofPath? h]
  exact r.at_path

/-- A parameter that the route of a request has got is a segment, if it is read as an id. -/
theorem segment_of_piece {route : Route} (hroute : ofPath? r.path = some route)
    (hraw : raw ∈ route.pieces) (hid : percentText? raw = some id) : Segment raw id where
  decodes := hid
  whole := by
    rw [← (ofPath?_eq_some.mp hroute).1] at hraw
    obtain ⟨x, hx, rfl⟩ := List.mem_map.mp hraw
    intro c hc hmark
    rw [String.toList_ofList] at hc
    obtain ⟨hpath, hslash⟩ := mem_splitAtSlash hx hc
    exact r.unmarked_path c hpath ((List.mem_cons.mp hmark).resolve_left hslash)

end Route

end EventGateway
