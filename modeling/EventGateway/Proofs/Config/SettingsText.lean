import EventGateway.Config.Settings
import EventGateway.Proofs.Network.AddressText
import EventGateway.Proofs.Toml.Lines

/-! Settings that are written are read back. -/

namespace EventGateway.Settings

open Toml Network

variable {s : Settings}

theorem readTexts_strings (ts : List String) : readTexts (ts.map Value.string) = .ok ts := by
  induction ts with
  | nil => rfl
  | cons t ts ih =>
    rw [List.map_cons, readTexts, ih]
    rfl

/-- Topics are an array whose closing bracket stands on the same line or on one of its own. -/
theorem reading_topics (ts : List String) :
    Reading (writeTopics ts) (.array (ts.map Value.string)) := by
  have hopen (items : List Value) (text : List Char) (hitems : ∀ r fuel, text.length < fuel →
      readItems fuel 1 (text ++ ']' :: '\n' :: r) = some (items, '\n' :: r)) :
      Reading ('[' :: (text ++ [']'])) (.array items) := by
    refine ⟨Text.stops_cons (by decide) _, List.cons_ne_nil _ _, fun r fuel hfuel => ?_⟩
    obtain ⟨m, rfl⟩ : ∃ m, fuel = m + 1 := ⟨fuel - 1, by omega⟩
    have hread := hitems r m (by simp at hfuel; omega)
    have hlimit : ¬ depthLimit ≤ 0 + 1 := by decide
    rw [List.cons_append, List.append_assoc, readValue, if_neg hlimit]
    exact congrArg (Option.map fun p => (Value.array p.1, p.2)) hread
  rcases ts with _ | ⟨t, _ | ⟨u, ts⟩⟩
  · refine hopen [] [] fun r fuel hfuel => ?_
    obtain ⟨m, rfl⟩ : ∃ m, fuel = m + 1 := ⟨fuel - 1, by omega⟩
    rw [readItems]
    rfl
  · refine hopen [.string t] (writeString t) fun r fuel hfuel => ?_
    obtain ⟨m, rfl⟩ : ∃ m, fuel = m + 1 := ⟨fuel - 1, by omega⟩
    have hpos : 0 < m := by
      obtain ⟨q, u, htext, _⟩ := writeString_quote t
      simp [htext] at hfuel
      omega
    rw [readItems_string hpos (skipVoid_writeString t _) (Text.stops_cons (by decide) _)]
    rfl
  · have htext : writeTopics (t :: u :: ts) = '[' :: ('\n' :: itemLines (t :: u :: ts) ++ [']']) := by
      simp [writeTopics, itemLines]
    rw [htext]
    refine hopen _ _ fun r fuel hfuel => readItems_lines _ ?_ _
    have hlength := length_itemLines (t :: u :: ts)
    simp only [List.length_cons] at hfuel hlength ⊢
    omega

/-- The lines that are written, from the last one. -/
def documentText (s : Settings) : List Char :=
  headerText "server".toList (memberText "listen".toList (writeString s.listen.render) ('\n' ::
    headerText "admin".toList (memberText "secret".toList (writeString s.secret) ('\n' ::
      headerText "events".toList (memberText "topics".toList (writeTopics s.topics)
        (memberText "subscriber_buffer".toList (toString s.subscriberBuffer).toList []))))))

theorem write_eq (s : Settings) : s.write = documentText s := by
  unfold write documentText headerText memberText
  generalize (toString s.subscriberBuffer).toList = count
  simp

def documentLines (s : Settings) : List Line :=
  [.header ["server"], .member ["listen"] (.string s.listen.render), .nothing,
    .header ["admin"], .member ["secret"] (.string s.secret), .nothing,
    .header ["events"], .member ["topics"] (.array (s.topics.map Value.string)),
    .member ["subscriber_buffer"] (.integer (Int64.ofNat s.subscriberBuffer))]

theorem lines_document (hbuffer : s.subscriberBuffer ≤ greatestCount) :
    Lines 10 (documentText s) (documentLines s) := by
  have hcount : Reading (toString s.subscriberBuffer).toList
      (.integer (Int64.ofNat s.subscriberBuffer)) := by
    have hdigits : (toString s.subscriberBuffer).toList = Nat.toDigits 10 s.subscriberBuffer :=
      Nat.toList_repr
    rw [hdigits]
    exact reading_count (by unfold greatestCount at hbuffer; omega)
  have hserver : Bare "server".toList := by decide
  have hlisten : Bare "listen".toList := by decide
  have hadmin : Bare "admin".toList := by decide
  have hsecret : Bare "secret".toList := by decide
  have hevents : Bare "events".toList := by decide
  have htopics : Bare "topics".toList := by decide
  have hsubscriber : Bare "subscriber_buffer".toList := by decide
  have hlast := (((lines_nil.member hsubscriber hcount).member htopics
    (reading_topics s.topics)).header hevents).blank
  exact (((((hlast.member hsecret (reading_string s.secret)).header hadmin).blank).member hlisten
    (reading_string s.listen.render)).header hserver)

theorem writeTopics_no_return (ts : List String) : '\r' ∉ writeTopics ts := by
  match ts with
  | [] => decide
  | [t] => simpa [writeTopics] using writeString_no_return t
  | t :: u :: ts => simp [writeTopics, writeString_no_return]

theorem documentText_no_return (s : Settings) : '\r' ∉ documentText s := by
  have hdigits : '\r' ∉ Nat.toDigits 10 s.subscriberBuffer := fun h =>
    absurd (Json.isDigit_toDigits s.subscriberBuffer '\r' h) (by decide)
  unfold documentText headerText memberText
  simp [writeString_no_return, writeTopics_no_return, hdigits]

/-- What the lines make: three tables, each with its members as they were written. -/
def written (s : Settings) : List (String × Value) :=
  [("server", .table [("listen", .string s.listen.render)]),
    ("admin", .table [("secret", .string s.secret)]),
    ("events", .table [("topics", .array (s.topics.map Value.string)),
      ("subscriber_buffer", .integer (Int64.ofNat s.subscriberBuffer))])]

theorem build_document (s : Settings) :
    (((documentLines s).foldlM Builder.step Builder.initial).bind Builder.finish).map
      Node.toMembers = some (written s) := by
  rfl

theorem read?_write (hbuffer : s.subscriberBuffer ≤ greatestCount) :
    Toml.read? (String.ofList s.write) = some (written s) := by
  have hlines := lines_document hbuffer ((documentText s).length + 1) (by
    unfold documentText headerText memberText
    simp)
  have hmark : withoutMark (documentText s) = documentText s := rfl
  rw [Toml.read?, String.toList_ofList, write_eq, hmark,
    unifyLines_of_no_return (documentText_no_return s)]
  simp only [hlines, build_document]

theorem readCount_written {n : Nat} (hn : n ≤ greatestCount) :
    readCount (.integer (Int64.ofNat n)) = .ok n := by
  have hsame : (Int64.ofNat n).toInt = n :=
    Int64.toInt_ofNat_of_lt (by unfold greatestCount at hn; omega)
  simp [readCount, hsame]

theorem ofMembers_written (hlisten : s.listen.WellFormed)
    (hbuffer : s.subscriberBuffer ≤ greatestCount) : ofMembers (written s) = .ok s := by
  have haddress : readAddress (.string s.listen.render) = .ok s.listen := by
    rw [readAddress, SocketAddress.ofText?_render hlisten]
  have hserver : readServer (.table [("listen", .string s.listen.render)]) = .ok s.listen := by
    simp [readServer, readServer.members, haddress, bind, Except.bind]
  have hadmin : readAdmin (.table [("secret", .string s.secret)]) = .ok s.secret := by
    simp [readAdmin, readAdmin.members, readText, bind, Except.bind]
  have hevents : readEvents (.table [("topics", .array (s.topics.map Value.string)),
      ("subscriber_buffer", .integer (Int64.ofNat s.subscriberBuffer))]) =
        .ok ⟨s.topics, s.subscriberBuffer⟩ := by
    simp [readEvents, readEvents.members, readTopics, readTexts_strings, readCount_written hbuffer,
      bind, Except.bind]
  simp [ofMembers, written, readSections, hserver, hadmin, hevents, bind, Except.bind]

/-- Settings that can be written are read back from the text. -/
theorem ofText_toText {text : String} (hlisten : s.listen.WellFormed) (h : s.toText? = some text) :
    ofText text = .ok s := by
  unfold toText? at h
  split at h
  next hbuffer =>
    obtain rfl := Option.some.inj h
    rw [ofText, read?_write hbuffer]
    simp only [ofMembers_written hlisten hbuffer]
    rfl
  next => exact nomatch h

end EventGateway.Settings
