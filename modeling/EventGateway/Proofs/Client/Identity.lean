import EventGateway.Client.Session
import EventGateway.Proofs.Outcome
import EventGateway.Proofs.Text.Form
import EventGateway.Service.Gateway

/-! Whom a stream is for. The client writes a session and a user into the query of its request, and
the server that reads the query listens for these two, whatever the URL of the server says besides
its host. -/

namespace EventGateway

open Text

namespace ServerUrl

/-- Whom to ask, as it stands between the slashes behind a scheme and what follows. -/
structure IsAuthority (authority : List Char) : Prop where
  nonempty : authority ≠ []
  visible : ∀ c ∈ authority, ' ' < c
  unbroken : ∀ c ∈ authority, c ∉ ['/', '\\', '?', '#']

/-- A path, a query or a fragment, whatever is in it, or nothing. -/
def IsTail (tail : List Char) : Prop := ∀ c ∈ tail.head?, c ∈ ['/', '?', '#']

theorem isTail_nil : IsTail [] := by simp [IsTail]

/-- What is left of a tail when the text is cleaned. -/
def cleanedTail (tail : List Char) : List Char :=
  (tail.reverse.dropWhile (· ≤ ' ')).reverse.filter (· ∉ ['\t', '\n', '\r'])

variable {root authority tail : List Char}

theorem cleaned_append (hne : root ≠ []) (hroot : ∀ c ∈ root, ' ' < c) (tail : List Char) :
    cleaned (String.ofList (root ++ tail)) = root ++ cleanedTail tail := by
  have hkept {c : Char} (hc : ' ' < c) : decide (c ≤ ' ') = false :=
    decide_eq_false (Char.not_le.mpr hc)
  have hfront : (root ++ tail).dropWhile (· ≤ ' ') = root ++ tail := by
    refine Stops.dropWhile fun c hc => ?_
    obtain ⟨d, r, rfl⟩ := List.exists_cons_of_ne_nil hne
    obtain rfl : d = c := Option.some.inj hc
    exact hkept (hroot d List.mem_cons_self)
  have hback : root.reverse.dropWhile (· ≤ ' ') = root.reverse := by
    refine Stops.dropWhile fun c hc => hkept (hroot c ?_)
    exact List.mem_reverse.mp (List.mem_of_mem_head? hc)
  have hends : ((root ++ tail).reverse.dropWhile (· ≤ ' ')).reverse =
      root ++ (tail.reverse.dropWhile (· ≤ ' ')).reverse := by
    rw [List.reverse_append, List.dropWhile_append]
    split
    next hblank =>
      rw [List.isEmpty_iff.mp hblank, hback]
      simp
    next => rw [List.reverse_append, List.reverse_reverse]
  have hinner : root.filter (· ∉ ['\t', '\n', '\r']) = root := by
    refine List.filter_eq_self.mpr fun c hc => decide_eq_true fun hbreak => ?_
    have hlow : ∀ d ∈ ['\t', '\n', '\r'], ¬(' ' < d) := by simp
    exact hlow c hbreak (hroot c hc)
  rw [cleaned, String.toList_ofList, hfront, hends, List.filter_append, hinner, cleanedTail]

theorem IsTail.cleaned (h : IsTail tail) : IsTail (cleanedTail tail) := by
  cases tail with
  | nil => simp [IsTail, cleanedTail]
  | cons c r =>
    have hc : c ∈ ['/', '?', '#'] := h c rfl
    have hvisible : ∀ d ∈ ['/', '?', '#'], ¬d ≤ ' ' ∧ d ∉ ['\t', '\n', '\r'] := by simp
    obtain ⟨hlow, hkept⟩ := hvisible c hc
    obtain ⟨t, ht⟩ : ∃ t, (c :: r).reverse.dropWhile (· ≤ ' ') = t ++ [c] := by
      rw [List.reverse_cons, List.dropWhile_append,
        List.dropWhile_cons_of_neg (by simpa using hlow)]
      split
      · exact ⟨[], rfl⟩
      · exact ⟨_, rfl⟩
    have hfirst : cleanedTail (c :: r) = c :: t.reverse.filter (· ∉ ['\t', '\n', '\r']) := by
      rw [cleanedTail, ht, List.reverse_append, List.reverse_singleton, List.singleton_append]
      exact List.filter_cons_of_pos (decide_eq_true hkept)
    intro d hd
    rw [hfirst] at hd
    obtain rfl : c = d := Option.some.inj hd
    exact hc

theorem not_slash {scheme : String} (ha : IsAuthority authority) {c : Char} (hc : c ∈ authority) :
    isSlashOf scheme c = false := by
  have hne : c ≠ '/' ∧ c ≠ '\\' ∧ c ≠ '?' ∧ c ≠ '#' := by simpa using ha.unbroken c hc
  simp [isSlashOf, hne.1, hne.2.1]

theorem authorityOf_append (scheme : String) (ha : IsAuthority authority) (ht : IsTail tail) :
    authorityOf scheme (authority ++ tail) = authority := by
  refine takeWhile_front (fun c hc => ?_) fun c hc => ?_
  · have hne : c ≠ '/' ∧ c ≠ '\\' ∧ c ≠ '?' ∧ c ≠ '#' := by simpa using ha.unbroken c hc
    simp [not_slash ha hc, hne]
  · have hend : c = '/' ∨ c = '?' ∨ c = '#' := by simpa using ht c hc
    rcases hend with rfl | rfl | rfl
    · simp [isSlashOf]
    · simp
    · simp

theorem ofHosted_append (scheme : String) (ha : IsAuthority authority) (ht : IsTail tail) :
    ofHosted scheme ('/' :: '/' :: (authority ++ tail)) =
      ofHosted scheme ('/' :: '/' :: authority) := by
  have hslashes {r : List Char} (hr : Stops (isSlashOf scheme) r) :
      ('/' :: '/' :: r).dropWhile (isSlashOf scheme) = r := by
    have hslash : isSlashOf scheme '/' = true := by simp [isSlashOf]
    rw [List.dropWhile_cons_of_pos hslash, List.dropWhile_cons_of_pos hslash, hr.dropWhile]
  have hstops (r : List Char) : Stops (isSlashOf scheme) (authority ++ r) := by
    obtain ⟨c, cs, rfl⟩ := List.exists_cons_of_ne_nil ha.nonempty
    exact stops_cons (not_slash ha List.mem_cons_self) (cs ++ r)
  have hroot := hstops []
  have halone := authorityOf_append scheme ha isTail_nil
  rw [List.append_nil] at hroot halone
  rw [ofHosted, ofHosted, hslashes (hstops tail), hslashes hroot, authorityOf_append scheme ha ht,
    halone]

/-- A scheme of streams, as it is written. -/
theorem streamed {scheme : String} (hscheme : scheme ∈ ["ws", "wss"]) :
    scheme ∈ hosted ∧ scheme.toLower = scheme ∧ scheme.toList.head?.all Char.isAlpha = true ∧
      ∀ c ∈ scheme.toList, ' ' < c ∧ isSchemeChar c = true := by
  have hall : ∀ s ∈ ["ws", "wss"], s ∈ hosted ∧ s.toLower = s ∧
      s.toList.head?.all Char.isAlpha = true ∧
      s.toList.all (fun c => ' ' < c ∧ isSchemeChar c = true) = true := by decide +kernel
  obtain ⟨hhosted, hlower, halpha, hchars⟩ := hall scheme hscheme
  exact ⟨hhosted, hlower, halpha, List.all_iff_forall_prop.mp hchars⟩

theorem splitScheme?_streamed {scheme : String} (hscheme : scheme ∈ ["ws", "wss"])
    (r : List Char) : splitScheme? (scheme.toList ++ ':' :: r) = some (scheme, r) := by
  obtain ⟨_, hlower, halpha, hchars⟩ := streamed hscheme
  have hstops : Stops isSchemeChar (':' :: r) := stops_cons (by decide) r
  have hall : ∀ c ∈ scheme.toList, isSchemeChar c = true := fun c hc => (hchars c hc).2
  have hhead : (scheme.toList ++ ':' :: r).head?.all Char.isAlpha = true := by
    cases hcs : scheme.toList with
    | nil =>
      have hempty : scheme = "" := String.toList_eq_nil_iff.mp hcs
      rw [hempty] at hscheme
      exact absurd hscheme (by decide)
    | cons c cs =>
      rw [hcs] at halpha
      exact halpha
  rw [splitScheme?, hhead, takeWhile_front hall hstops, dropWhile_front hall hstops]
  show some ((String.ofList scheme.toList).toLower, r) = some (scheme, r)
  rw [String.ofList_toList, hlower]

/-- What follows its authority does not tell one URL of a server of streams from another. -/
theorem ofText_tail {scheme : String} (hscheme : scheme ∈ ["ws", "wss"])
    (ha : IsAuthority authority) (ht : IsTail tail) :
    ofText (String.ofList (scheme.toList ++ ':' :: '/' :: '/' :: authority ++ tail)) =
      ofHosted scheme ('/' :: '/' :: authority) := by
  obtain ⟨hhosted, _, _, hchars⟩ := streamed hscheme
  have hvisible : ∀ c ∈ scheme.toList ++ ':' :: '/' :: '/' :: authority, ' ' < c := by
    intro c hc
    rcases List.mem_append.mp hc with hc | hc
    · exact (hchars c hc).1
    · simp only [List.mem_cons] at hc
      rcases hc with rfl | rfl | rfl | hc
      · decide
      · decide
      · decide
      · exact ha.visible c hc
  have hsplit := splitScheme?_streamed hscheme ('/' :: '/' :: (authority ++ cleanedTail tail))
  rw [ofText, cleaned_append (by simp) hvisible, List.append_assoc]
  simp only [List.cons_append, hsplit, if_pos hhosted]
  exact ofHosted_append scheme ha ht.cleaned

end ServerUrl

namespace StreamRequest

variable {session user : Option String}

theorem unrepeated_pairs (session user : Option String) :
    Form.repeated? Identity.names (pairs session user) = none := by
  cases session <;> cases user <;> simp [pairs, Form.repeated?, Form.repeatedAfter]

theorem lookup_pairs (session user : Option String) :
    (pairs session user).lookup "sessionId" = session ∧
      (pairs session user).lookup "userId" = user := by
  cases session <;> cases user <;> exact ⟨rfl, rfl⟩

theorem ofQuery_written (session user : Option String) :
    Identity.ofQuery (Form.write (pairs session user)) = .ok ⟨session, user⟩ := by
  obtain ⟨hsession, huser⟩ := lookup_pairs session user
  rw [Identity.ofQuery, Form.read_write, unrepeated_pairs, hsession, huser]

theorem resource_target (session user : Option String) :
    Http.resource (target session user) = (target session user).toList := by
  have hnone : '#' ∉ (Form.write (pairs session user)).toList :=
    Form.not_mem_write (by decide) (by decide) (by decide) _
  have hall : ∀ c ∈ (target session user).toList, decide (c ≠ '#') = true := by
    intro c hc
    refine decide_eq_true ?_
    rintro rfl
    rw [target, String.toList_append] at hc
    rcases List.mem_append.mp hc with hc | hc
    · exact absurd hc (by decide)
    · exact hnone hc
  have hwhole := takeWhile_front hall (stops_nil _)
  rwa [List.append_nil] at hwhole

variable {r : Http.Request}

theorem path_target (hr : r.target = target session user) : r.path = "/ws" := by
  rw [Http.Request.path, hr, resource_target, target, String.toList_append]
  rfl

theorem query_target (hr : r.target = target session user) :
    r.query = Form.write (pairs session user) := by
  rw [Http.Request.query, hr, resource_target, target, String.toList_append]
  exact String.ofList_toList

end StreamRequest

/-- The listener has the session and the user that were asked for. None, or an empty one, is a fresh
session and no user. -/
structure Filter.IsFor (who : Filter) (session user : Option String) (fresh : String) : Prop where
  namedSession : ∀ s, session = some s → s ≠ "" → who.sessionId = some s
  freshSession : session = none ∨ session = some "" → who.sessionId = some fresh
  namedUser : ∀ u, user = some u → u ≠ "" → who.userId = some u
  noUser : user = none ∨ user = some "" → who.userId = none

theorem nonEmpty?_named {s : String} (hs : s ≠ "") : nonEmpty? (some s) = some s :=
  nonEmpty?_eq_self.mpr fun h => hs (Option.some.inj h)

theorem isFor_settle (session user : Option String) (fresh : String) :
    (Identity.settle fresh ⟨session, user⟩).IsFor session user fresh where
  namedSession := by
    rintro s rfl hs
    rw [Identity.settle, nonEmpty?_named hs]
    rfl
  freshSession := by
    rintro (rfl | rfl)
    · rfl
    · rfl
  namedUser := by
    rintro u rfl hu
    exact nonEmpty?_named hu
  noUser := by
    rintro (rfl | rfl)
    · rfl
    · rfl

/-- Whoever the client asks a server of streams for, its request goes to the route of the streams,
is read as these two and opens one more stream, which is theirs. What the URL says behind the host
changes neither the request nor the server that is asked. -/
theorem identity_arrives (session user : Option String) : ∃ target : String,
    (∀ url u, ServerUrl.ofText url = .ok u → u.hasStreams = true →
      StreamRequest.ofUrl url session user = .ok target) ∧
    (∀ r : Http.Request, r.target = target →
      Route.ofPath? r.path = some .stream ∧ Identity.ofQuery r.query = .ok ⟨session, user⟩ ∧
      ∀ (g : Gateway) (fresh : String), ∃ c : Connection,
        c.identity.IsFor session user fresh ∧ c.isOpen = true ∧
        g.connect fresh r.query =
          (.ok g.connections.length, { g with connections := g.connections ++ [c] })) ∧
    ∀ scheme ∈ ["ws", "wss"], ∀ authority tail : List Char, ServerUrl.IsAuthority authority →
      ServerUrl.IsTail tail →
      let root := scheme.toList ++ ':' :: '/' :: '/' :: authority
      ServerUrl.ofText (String.ofList (root ++ tail)) = ServerUrl.ofText (String.ofList root) := by
  refine ⟨StreamRequest.target session user, fun url u hurl hstreams => ?_, fun r hr => ?_,
    fun scheme hscheme authority tail ha ht => ?_⟩
  · rw [StreamRequest.ofUrl, hurl]
    exact if_pos hstreams
  · have hread := StreamRequest.ofQuery_written session user
    rw [StreamRequest.path_target hr, StreamRequest.query_target hr]
    refine ⟨by decide +kernel, hread, fun g fresh => ?_⟩
    refine ⟨.new (Identity.settle fresh ⟨session, user⟩), isFor_settle session user fresh, rfl, ?_⟩
    rw [Gateway.connect, hread]
  · have halone := ServerUrl.ofText_tail hscheme ha ServerUrl.isTail_nil
    rw [List.append_nil] at halone
    exact (ServerUrl.ofText_tail hscheme ha ht).trans halone.symm

theorem identity_arrives_reserved :
    let url := "wss://u:p@[::1]:8080/a b?sessionId=other#x"
    let session := "a&sessionId=b+%41 #é🜁"
    ServerUrl.ofText url = .ok ⟨"wss", "[::1]:8080"⟩ ∧ ∃ target : String,
      StreamRequest.ofUrl url (some session) (some "") = .ok target ∧
      ∀ r : Http.Request, r.target = target → ∀ (g : Gateway) (fresh : String), ∃ c : Connection,
        c.identity = ⟨some session, none⟩ ∧
          (g.connect fresh r.query).2.connections = g.connections ++ [c] := by
  intro url session
  have hurl : ServerUrl.ofText url = .ok ⟨"wss", "[::1]:8080"⟩ :=
    toOption_ok.mp (by decide +kernel)
  obtain ⟨target, hasked, hread, _⟩ := identity_arrives (some session) (some "")
  refine ⟨hurl, target, hasked url _ hurl (by decide), fun r hr g fresh => ?_⟩
  obtain ⟨_, _, hconnect⟩ := hread r hr
  obtain ⟨c, hwho, _, hopened⟩ := hconnect g fresh
  have hsession : c.identity.sessionId = some session := hwho.namedSession session rfl (by decide)
  have huser : c.identity.userId = none := hwho.noUser (.inr rfl)
  refine ⟨c, ?_, ?_⟩
  · rw [← hsession, ← huser]
  · rw [hopened]

end EventGateway
