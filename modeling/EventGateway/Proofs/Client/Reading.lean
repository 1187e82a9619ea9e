import EventGateway.Client.Session
import EventGateway.Proofs.Stream.Frames

/-! What a client is told while frames arrive and it asks for one event after the other. Whenever it
asks, what it has been told and what it is still owed are together the reports on the texts that the
peer sends, in their order; behind the close there is nothing but the end. -/

namespace EventGateway

namespace Arrival

/-- Everything but the end of a connection. -/
def isFrame : Arrival → Bool
  | text _ | binary _ | ping _ | pong _ => true
  | close | cut => false

def text? : Arrival → Option String
  | text s => some s
  | _ => none

end Arrival

namespace Session

/-- What is told of a text: the event that it is, the message of the notice that it is, or what is
wrong with it. -/
inductive Reported (text : String) : Reading Event → Prop
  | event {e : Event} (h : Event.ofJson text = .ok e) : Reported text (.some e)
  | notice {n : Notice} (h : Frame.ofJson text = .ok (.notice n)) :
    Reported text (.failed (.server n.message))
  | unreadable {x : EventError} (h : Frame.ofJson text = .error x) :
    Reported text (.failed (.event x))

/-- What happens to a session, in any order. A call that finds nothing to tell has no result. -/
inductive Move
  | arrives (a : Arrival)
  | asks
  | sends (m : ClientMessage)

namespace Move

def arrival? : Move → Option Arrival
  | arrives a => some a
  | asks | sends _ => none

def isAsk : Move → Bool
  | asks => true
  | arrives _ | sends _ => false

def arrivals (ms : List Move) : List Arrival := ms.filterMap arrival?

end Move

def Reading.told : Reading Event → List (Reading Event)
  | .waiting => []
  | r => [r]

def move (s : Session) : Move → List (Reading Event) × Session
  | .arrives a => ([], s.arrive a)
  | .asks =>
    let p := s.nextEvent
    (p.1.told, p.2)
  | .sends m => ([], (s.send (.message m)).2)

/-- The results of the calls, in their order. -/
def told (s : Session) : List Move → List (Reading Event)
  | [] => []
  | m :: ms => (s.move m).1 ++ told (s.move m).2 ms

def after (s : Session) (ms : List Move) : Session := ms.foldl (fun s m => (s.move m).2) s

def reported (text : String) : Reading Event := (readFrame text).event

def reports (as : List Arrival) : List (Reading Event) := (as.filterMap Arrival.text?).map reported

/-- Frames, and behind them the close. -/
inductive Scripted : List Arrival → Prop
  | close : Scripted [.close]
  | frame {a : Arrival} {as : List Arrival} (ha : a.isFrame = true) (has : Scripted as) :
    Scripted (a :: as)

/-- Of a script some has arrived and not been read, and the rest is coming; after the close neither
is left. -/
inductive Expects (s : Session) (coming : List Arrival) : Prop
  | reading (hover : s.isOver = false) (h : Scripted (s.arrived ++ coming))
  | ended (hover : s.isOver = true) (h : s.arrived ++ coming = [])

def owed (s : Session) (coming : List Arrival) : List (Reading Event) :=
  reports (s.arrived ++ coming)

/-- What a look at the arrived part of a script finds, what is left of it, and if it is over. -/
inductive Finds (as coming : List Arrival) : Reading Frame × List Arrival × Bool → Prop
  | nothing (hreports : reports as = []) (h : Scripted coming) :
    Finds as coming (.waiting, [], false)
  | text {t : String} {left : List Arrival} (hreports : reports as = reported t :: reports left)
    (h : Scripted (left ++ coming)) : Finds as coming (readFrame t, left, false)
  | close (hreports : reports as = []) (h : coming = []) : Finds as coming (.ended, [], true)

/-- A move tells nothing, or the first report of those that are owed, or that there are none. -/
inductive Progress (owed owed' : List (Reading Event)) : List (Reading Event) → Prop
  | quiet (h : owed = owed') : Progress owed owed' []
  | report {r : Reading Event} (h : owed = r :: owed') : Progress owed owed' [r]
  | ended (h : owed = []) (h' : owed' = []) : Progress owed owed' [.ended]

variable {s : Session} {text : String} {as coming script : List Arrival} {m : Move}
  {ms ns : List Move}

theorem reported_iff {r : Reading Event} : Reported text r ↔ r = reported text := by
  constructor
  · rintro (h | h | h)
    · rw [reported, readFrame, Frame.event_iff.mpr h]
      rfl
    · rw [reported, readFrame, h]
      rfl
    · rw [reported, readFrame, h]
      rfl
  · rintro rfl
    cases h : Frame.ofJson text with
    | error x =>
      rw [reported, readFrame, h]
      exact .unreadable h
    | ok f =>
      rw [reported, readFrame, h]
      cases f with
      | event e => exact .event (Frame.event_iff.mp h)
      | notice n => exact .notice h

theorem existsUnique_report (text : String) : ∃! r, Reported text r :=
  ⟨reported text, reported_iff.mpr rfl, fun _ h => reported_iff.mp h⟩

theorem forall_reported (texts : List String) : List.Forall₂ Reported texts (texts.map reported) :=
  List.forall₂_map_right_iff.mpr (List.forall₂_same.mpr fun _ _ => reported_iff.mpr rfl)

theorem Reported.told {r : Reading Event} (h : Reported text r) : r.told = [r] := by
  cases h <;> rfl

theorem told_readFrame (text : String) : (readFrame text).event.told = [reported text] :=
  (reported_iff.mpr rfl : Reported text (reported text)).told

theorem reports_append (as bs : List Arrival) : reports (as ++ bs) = reports as ++ reports bs := by
  simp [reports]

theorem scripted_cons {a : Arrival} : Scripted (a :: as) ↔
    a = .close ∧ as = [] ∨ a.isFrame = true ∧ Scripted as := by
  constructor
  · rintro (_ | ⟨ha, has⟩)
    · exact .inl ⟨rfl, rfl⟩
    · exact .inr ⟨ha, has⟩
  · rintro (⟨rfl, rfl⟩ | ⟨ha, has⟩)
    · exact .close
    · exact .frame ha has

theorem scripted_append (h : ∀ a ∈ script, a.isFrame = true) : Scripted (script ++ [.close]) := by
  induction script with
  | nil => exact .close
  | cons a script ih =>
    obtain ⟨ha, hrest⟩ := List.forall_mem_cons.mp h
    exact .frame ha (ih hrest)

theorem Finds.skip {a : Arrival} {p : Reading Frame × List Arrival × Bool}
    (h : Finds as coming p) (ha : a.text? = none) : Finds (a :: as) coming p := by
  have hsame : reports (a :: as) = reports as := by simp [reports, ha]
  cases h with
  | nothing hreports h => exact .nothing (hsame.trans hreports) h
  | text hreports h => exact .text (hsame.trans hreports) h
  | close hreports h => exact .close (hsame.trans hreports) h

theorem nextOf_finds (h : Scripted (as ++ coming)) : Finds as coming (nextOf as) := by
  induction as with
  | nil => exact .nothing rfl h
  | cons a as ih =>
    rcases scripted_cons.mp h with ⟨rfl, hnone⟩ | ⟨ha, has⟩
    · obtain ⟨rfl, rfl⟩ := List.append_eq_nil_iff.mp hnone
      exact .close rfl rfl
    · cases a with
      | text t => exact .text rfl has
      | binary _ | ping _ | pong _ => exact (ih has).skip rfl
      | close | cut => cases ha

theorem move_asks_reading (hover : s.isOver = false) :
    s.move .asks = ((nextOf s.arrived).1.event.told,
      { s with arrived := (nextOf s.arrived).2.1, isOver := (nextOf s.arrived).2.2 }) := by
  simp [move, nextEvent, nextFrame, hover]

theorem move_asks_ended (hover : s.isOver = true) : s.move .asks = ([.ended], s) := by
  simp [move, nextEvent, nextFrame, hover, Reading.event, Reading.told]

theorem Expects.ask (h : s.Expects coming) : (s.move .asks).2.Expects coming ∧
    Progress (s.owed coming) ((s.move .asks).2.owed coming) (s.move .asks).1 := by
  cases h with
  | ended hover h =>
    have hnone : s.owed coming = [] := by rw [owed, h]; rfl
    rw [move_asks_ended hover]
    exact ⟨.ended hover h, .ended hnone hnone⟩
  | reading hover h =>
    rw [move_asks_reading hover, owed, owed, reports_append, reports_append]
    generalize hp : nextOf s.arrived = p
    have hfinds : Finds s.arrived coming p := hp ▸ nextOf_finds h
    cases hfinds with
    | nothing hreports hcoming => exact ⟨.reading rfl hcoming, .quiet (by rw [hreports]; rfl)⟩
    | text hreports hleft =>
      rw [told_readFrame]
      exact ⟨.reading rfl hleft, .report (by rw [hreports]; rfl)⟩
    | close hreports hcoming =>
      subst hcoming
      exact ⟨.ended rfl rfl, .ended (by rw [hreports]; rfl) rfl⟩

/-- What arrives is no longer coming, and what the client sends changes neither. -/
theorem Expects.keep {s' : Session} {coming' : List Arrival} (h : s.Expects coming)
    (hover : s'.isOver = s.isOver) (hsame : s.arrived ++ coming = s'.arrived ++ coming') :
    s'.Expects coming' ∧ Progress (s.owed coming) (s'.owed coming') [] := by
  refine ⟨?_, .quiet (congrArg reports hsame)⟩
  cases h with
  | reading hreading h => exact .reading (hover.trans hreading) (hsame ▸ h)
  | ended hended h => exact .ended (hover.trans hended) (hsame ▸ h)

theorem send_kept (s : Session) (d : Departure) :
    (s.send d).2.arrived = s.arrived ∧ (s.send d).2.isOver = s.isOver := by
  cases hover : s.isOver <;> simp [send, hover]

theorem Expects.step (h : s.Expects (Move.arrivals (m :: ms))) :
    (s.move m).2.Expects (Move.arrivals ms) ∧ Progress (s.owed (Move.arrivals (m :: ms)))
      ((s.move m).2.owed (Move.arrivals ms)) (s.move m).1 := by
  cases m with
  | asks => exact h.ask
  | arrives a => exact h.keep rfl (List.append_cons s.arrived a _)
  | sends d =>
    obtain ⟨harrived, hover⟩ := s.send_kept (.message d)
    exact h.keep hover (congrArg (· ++ Move.arrivals ms) harrived.symm)

theorem Progress.told {owed owed' out rest : List (Reading Event)} (h : Progress owed owed' out)
    {n : Nat} (hn : (out ++ rest).length ≤ n)
    (hrest : ∀ k, rest.length ≤ k → rest <+: owed' ++ List.replicate k .ended) :
    out ++ rest <+: owed ++ List.replicate n .ended := by
  cases h with
  | quiet h => exact h ▸ hrest n hn
  | report h =>
    have hlength : rest.length + 1 ≤ n := by simpa using hn
    exact h ▸ List.cons_prefix_cons.mpr ⟨rfl, hrest n (by omega)⟩
  | ended h h' =>
    obtain ⟨n, rfl⟩ : ∃ k, n = k + 1 := ⟨n - 1, by simp at hn; omega⟩
    subst h h'
    exact List.cons_prefix_cons.mpr ⟨rfl, hrest n (by simpa using hn)⟩

/-- What is told are the first of the reports that are owed, and the end behind the last. -/
theorem Expects.told (h : s.Expects (Move.arrivals ms)) {n : Nat} (hn : (s.told ms).length ≤ n) :
    s.told ms <+: s.owed (Move.arrivals ms) ++ List.replicate n .ended := by
  induction ms generalizing s n with
  | nil => exact List.nil_prefix
  | cons m ms ih =>
    obtain ⟨hnext, hprogress⟩ := h.step
    exact hprogress.told hn fun k hk => ih hnext hk

theorem told_append (s : Session) (ms ns : List Move) :
    s.told (ms ++ ns) = s.told ms ++ (s.after ms).told ns := by
  induction ms generalizing s with
  | nil => rfl
  | cons m ms ih => exact (congrArg _ (ih _)).trans (List.append_assoc _ _ _).symm

theorem Expects.after (h : s.Expects (Move.arrivals (ms ++ ns))) :
    (s.after ms).Expects (Move.arrivals ns) := by
  induction ms generalizing s with
  | nil => exact h
  | cons m ms ih => exact ih h.step.1

/-- Once everything has arrived, no call goes on waiting. -/
theorem Expects.answered (h : s.Expects []) : ∃ r, (s.move .asks).1 = [r] := by
  cases h with
  | ended hover h => exact ⟨.ended, by rw [move_asks_ended hover]⟩
  | reading hover h =>
    rw [move_asks_reading hover]
    generalize hp : nextOf s.arrived = p
    have hfinds : Finds s.arrived [] p := hp ▸ nextOf_finds h
    cases hfinds with
    | nothing _ h => cases h
    | text _ _ => exact ⟨_, told_readFrame _⟩
    | close _ _ => exact ⟨.ended, rfl⟩

theorem Expects.count (h : s.Expects (Move.arrivals ms)) (hms : Move.arrivals ms = []) :
    (s.told ms).length = ms.countP Move.isAsk := by
  induction ms generalizing s with
  | nil => rfl
  | cons m ms ih =>
    have hnext := h.step.1
    cases m with
    | arrives a => cases hms
    | sends d =>
      rw [List.countP_cons_of_neg (by simp [Move.isAsk]), ← ih hnext hms]
      rfl
    | asks =>
      rw [hms] at h
      obtain ⟨r, hr⟩ := h.answered
      rw [List.countP_cons_of_pos rfl, ← ih hnext hms, Session.told, hr]
      rfl

theorem expects_new (h : ∀ a ∈ script, a.isFrame = true)
    (hms : Move.arrivals ms = script ++ [.close]) : new.Expects (Move.arrivals ms) :=
  .reading rfl (hms ▸ scripted_append h)

end Session

namespace Session

/-- Every text has one report. Of frames and a close behind them a client is told the reports on the
texts, each once and in their order, whenever they arrive, whenever it asks and whatever it sends;
then it is told of the end. Once all have arrived every call has a result. The report on a notice is
its message, and that on an event which the service sends is the event, if no listener is given an
empty session. -/
theorem told_in_order :
    (∀ text, ∃! r, Reported text r) ∧
    (∀ script early late, (∀ a ∈ script, a.isFrame = true) →
      Move.arrivals early = script ++ [.close] → Move.arrivals late = [] →
        ∃ rs, List.Forall₂ Reported (script.filterMap Arrival.text?) rs ∧
          new.told (early ++ late) <+:
            rs ++ List.replicate (new.told (early ++ late)).length .ended ∧
          (new.told (early ++ late)).length =
            (new.told early).length + late.countP Move.isAsk) ∧
    (∀ n : Notice, Reported n.toJson (.failed (.server n.message))) ∧
    (∀ p session user, Reported (Event.scopedTo p session user).toJson
      (.some (.scopedTo p session user))) ∧
    ∀ verify runtime r positions capacity acts,
      (∀ fresh query, .connect fresh query ∈ acts → fresh ≠ "") →
      ∀ (k : Nat) c e,
        ((Gateway.start (Service.start runtime r positions capacity)).run verify
          acts).connections[k]? = some c →
        .frame (.event e) ∈ c.sent → Reported e.toJson (.some e) := by
  refine ⟨existsUnique_report, fun script early late hframes hearly hlate => ?_,
    fun n => .notice (Frame.notice_written n), fun p session user => .event ?_,
    fun verify runtime r positions capacity acts hfresh k c e hc he => .event ?_⟩
  · have harrivals : Move.arrivals (early ++ late) = script ++ [.close] := by
      rw [Move.arrivals, List.filterMap_append]
      exact (congrArg₂ _ hearly hlate).trans (List.append_nil _)
    have hexpects := expects_new hframes harrivals
    have howed : new.owed (Move.arrivals (early ++ late)) =
        (script.filterMap Arrival.text?).map reported := by
      have hclose : (script ++ [Arrival.close]).filterMap Arrival.text? =
          script.filterMap Arrival.text? := by simp [Arrival.text?]
      rw [harrivals, ← hclose]
      rfl
    have htold := hexpects.told (Nat.le_refl _)
    rw [howed] at htold
    refine ⟨_, forall_reported _, htold, ?_⟩
    rw [told_append, List.length_append, hexpects.after.count hlate]
  · rw [Event.ofJson_written, Event.normalized_scopedTo]
  · rw [Event.ofJson_written, Journal.sent_normalized hfresh hc he]

/-- An event, what is no JSON, and a notice. -/
def mixedTexts : List String :=
  [(Event.scopedTo .sessionExpired (some "S1") none).toJson, "no json", (⟨"nope"⟩ : Notice).toJson]

def mixedScript : List Arrival :=
  [.ping [0, 255], .text (Event.scopedTo .sessionExpired (some "S1") none).toJson, .binary [],
    .text "no json", .pong [], .text (⟨"nope"⟩ : Notice).toJson, .ping []]

/-- The client asks before anything has arrived, in the middle, and behind the end. -/
def mixedMoves : List Move × List Move :=
  ([.sends (.subscribe "cb_session"), .asks] ++ (mixedScript.take 2).map .arrives ++ [.asks] ++
    (mixedScript.drop 2).map .arrives ++ [.arrives .close], List.replicate 4 .asks)

theorem told_in_order_mixed :
    ∃ rs, List.Forall₂ Reported mixedTexts rs ∧
      (new.told (mixedMoves.1 ++ mixedMoves.2)).length = 5 ∧
      new.told (mixedMoves.1 ++ mixedMoves.2) <+: rs ++ List.replicate 5 .ended ∧
      ∀ e, .frame (.event e) ∈ Frame.misspeltSent → Reported e.toJson (.some e) := by
  have hearly : (new.told mixedMoves.1).length = 1 := by decide +kernel
  obtain ⟨rs, hrs, htold, hlength⟩ := told_in_order.2.1 mixedScript mixedMoves.1 mixedMoves.2
    (by simp [mixedScript, Arrival.isFrame]) rfl rfl
  have hfive : (new.told (mixedMoves.1 ++ mixedMoves.2)).length = 5 := by
    rw [hlength, hearly]
    rfl
  obtain ⟨c, hc, hsent⟩ := Frame.misspelt_opened
  refine ⟨rs, hrs, hfive, hfive ▸ htold, fun e he => ?_⟩
  exact told_in_order.2.2.2.2 _ _ _ _ _ _ Frame.misspelt_fresh 0 c e hc (hsent ▸ he)

end Session

end EventGateway
