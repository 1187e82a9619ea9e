import EventGateway.Stream.Connection
import Mathlib.Data.List.Induction

/-! The history of a stream as a list of marks. The period of a topic is what follows the mark of
its last subscription, as long as nothing has ended that. -/

namespace EventGateway

inductive Mark
  /-- With the session for a listener that brings none. -/
  | opened (fresh : String) (asked : Filter)
  /-- A message of the client has begun a subscription. -/
  | subscribed (t : Topic)
  /-- A message of the client has been applied that gives the topic up. -/
  | unsubscribed (t : Topic)
  | released
  /-- Handed to the publisher, and whether the stream's own subscription has queued it. -/
  | published (e : Event) (queued : Bool)
  | sent (e : Event)
  deriving DecidableEq

namespace Mark

/-- Whether a period of the topic is over at this mark. -/
def ends (t : Topic) : Mark → Bool
  | subscribed u | unsubscribed u => u = t
  | released => true
  | _ => false

def sentOn? (t : Topic) : Mark → Option Event
  | sent e => if e.topic = t then some e else none
  | _ => none

def queuedOn? (t : Topic) : Mark → Option Event
  | published e true => if e.topic = t then some e else none
  | _ => none

def sentOn (t : Topic) (L : List Mark) : List Event := L.filterMap (sentOn? t)

def queuedOn (t : Topic) (L : List Mark) : List Event := L.filterMap (queuedOn? t)

def extend (t : Topic) (p : Option (List Mark)) (m : Mark) : Option (List Mark) :=
  if m = subscribed t then some [] else if m.ends t then none else p.map (· ++ [m])

def period (t : Topic) (L : List Mark) : Option (List Mark) := L.foldl (extend t) none

/-- Each event is sent in a period of its topic, where it is the next of those that were queued. -/
def Orderly (ok : Event → Prop) (L : List Mark) : Prop :=
  ∀ A e B, L = A ++ sent e :: B →
    ok e ∧ ∃ P, period e.topic A = some P ∧ sentOn e.topic P ++ [e] <+: queuedOn e.topic P

variable {t : Topic} {L P : List Mark} {m : Mark}

@[simp] theorem sentOn_append (t : Topic) (L M : List Mark) :
    sentOn t (L ++ M) = sentOn t L ++ sentOn t M :=
  List.filterMap_append

@[simp] theorem queuedOn_append (t : Topic) (L M : List Mark) :
    queuedOn t (L ++ M) = queuedOn t L ++ queuedOn t M :=
  List.filterMap_append

@[simp] theorem sentOn_singleton (t : Topic) (m : Mark) : sentOn t [m] = (sentOn? t m).toList := by
  cases hm : sentOn? t m <;> simp [sentOn, hm]

@[simp] theorem queuedOn_singleton (t : Topic) (m : Mark) :
    queuedOn t [m] = (queuedOn? t m).toList := by
  cases hm : queuedOn? t m <;> simp [queuedOn, hm]

theorem mem_of_sentOn {e : Event} (he : e ∈ sentOn t L) : e.topic = t ∧ sent e ∈ L := by
  obtain ⟨m, hm, hsent⟩ := List.mem_filterMap.mp he
  cases m with
  | sent x =>
    obtain ⟨ht, rfl⟩ : x.topic = t ∧ x = e := by simpa [sentOn?] using hsent
    exact ⟨ht, hm⟩
  | _ => simp [sentOn?] at hsent

theorem queuedOn?_published (t : Topic) (e : Event) (b : Bool) :
    queuedOn? t (published e b) = if b = true ∧ e.topic = t then some e else none := by
  cases b <;> simp [queuedOn?]

theorem mem_of_queuedOn {e : Event} (he : e ∈ queuedOn t L) : published e true ∈ L := by
  obtain ⟨m, hm, hqueued⟩ := List.mem_filterMap.mp he
  cases m with
  | published x b =>
    obtain ⟨⟨rfl, _⟩, rfl⟩ : (b = true ∧ x.topic = t) ∧ x = e := by
      simpa [queuedOn?_published] using hqueued
    exact hm
  | _ => simp [queuedOn?] at hqueued

theorem period_snoc (t : Topic) (L : List Mark) (m : Mark) :
    period t (L ++ [m]) = extend t (period t L) m := by
  simp only [period, List.foldl_append, List.foldl_cons, List.foldl_nil]

theorem period_subscribed (t : Topic) (L : List Mark) :
    period t (L ++ [subscribed t]) = some [] := by
  rw [period_snoc, extend, if_pos rfl]

theorem period_other (hp : period t L = some P) (hm : m.ends t = false) :
    period t (L ++ [m]) = some (P ++ [m]) := by
  have hne : m ≠ subscribed t := by
    rintro rfl
    simp [ends] at hm
  rw [period_snoc, hp, extend, if_neg hne, hm]
  rfl

/-- What follows a subscription is its period, when nothing in it ends that. -/
theorem period_split (A : List Mark) (hP : ∀ m ∈ P, m.ends t = false) :
    period t (A ++ subscribed t :: P) = some P := by
  induction P using List.reverseRecOn with
  | nil => exact period_subscribed t A
  | append_singleton P m ih =>
    have hp := ih fun x hx => hP x (List.mem_append_left _ hx)
    have hm : m.ends t = false := hP m (by simp)
    simpa using period_other hp hm

theorem exists_of_period (hp : period t L = some P) :
    ∃ A, L = A ++ subscribed t :: P ∧ ∀ m ∈ P, m.ends t = false := by
  induction L using List.reverseRecOn generalizing P with
  | nil => simp [period] at hp
  | append_singleton L m ih =>
    rw [period_snoc, extend] at hp
    split at hp
    next hm =>
      obtain rfl : [] = P := by simpa using hp
      exact ⟨L, by rw [hm], by simp⟩
    next hm =>
      cases hends : m.ends t with
      | true => simp [hends] at hp
      | false =>
        simp only [hends, Bool.false_eq_true, if_false, Option.map_eq_some_iff] at hp
        obtain ⟨Q, hQ, rfl⟩ := hp
        obtain ⟨A, hA, hall⟩ := ih hQ
        refine ⟨A, by simp [hA], fun x hx => ?_⟩
        rcases List.mem_append.mp hx with hx | hx
        · exact hall x hx
        · rwa [List.mem_singleton.mp hx]

variable {ok : Event → Prop}

theorem orderly_nil : Orderly ok [] := by
  intro A e B h
  simp at h

/-- Only a mark that something was sent needs a look at what went before. -/
theorem Orderly.snoc (hL : Orderly ok L)
    (hm : ∀ e, m = sent e →
      ok e ∧ ∃ P, period e.topic L = some P ∧ sentOn e.topic P ++ [e] <+: queuedOn e.topic P) :
    Orderly ok (L ++ [m]) := by
  intro A e B h
  -- What was sent is either the new mark or stands in the history before it.
  rcases List.eq_nil_or_concat B with rfl | ⟨B', x, rfl⟩
  · obtain ⟨rfl, he⟩ := List.append_inj' h rfl
    exact hm e (by simpa using he)
  · have hsplit : L ++ [m] = (A ++ sent e :: B') ++ [x] := by simpa using h
    exact hL A e B' (List.append_inj' hsplit rfl).1

/-- In every period the events sent are the first ones of those queued. -/
theorem Orderly.in_order {A B : List Mark} (hL : Orderly ok (A ++ subscribed t :: P ++ B))
    (hP : ∀ m ∈ P, m.ends t = false) : sentOn t P <+: queuedOn t P := by
  induction P using List.reverseRecOn generalizing B with
  | nil => exact List.prefix_refl _
  | append_singleton P m ih =>
    have hP' : ∀ x ∈ P, x.ends t = false := fun x hx => hP x (List.mem_append_left _ hx)
    have hbefore : sentOn t P <+: queuedOn t P := ih (B := [m] ++ B) (by simpa using hL) hP'
    have hgrown : sentOn t P <+: queuedOn t (P ++ [m]) :=
      queuedOn_append t P [m] ▸ hbefore.trans (List.prefix_append _ _)
    cases m with
    | sent e =>
      by_cases ht : e.topic = t
      · -- The period in which the event was sent is all of `P`.
        obtain ⟨_, Q, hQ, hnext⟩ := hL (A ++ subscribed t :: P) e B (by simp)
        rw [ht, period_split A hP'] at hQ
        obtain rfl : P = Q := by simpa using hQ
        rw [ht] at hnext
        simpa [sentOn?, queuedOn?, ht] using hnext
      · simpa [sentOn?, ht] using hgrown
    | _ => simpa [sentOn?] using hgrown

theorem period_over (A : List Mark) (hP : subscribed t ∉ P) :
    period t (A ++ unsubscribed t :: P) = none := by
  induction P using List.reverseRecOn with
  | nil =>
    rw [period_snoc]
    simp [extend, ends]
  | append_singleton P m ih =>
    have hp := ih fun hm => hP (List.mem_append_left _ hm)
    have hne : m ≠ subscribed t := by
      rintro rfl
      simp at hP
    rw [← List.cons_append, ← List.append_assoc, period_snoc, hp, extend, if_neg hne]
    simp

/-- Once the topic has been given up nothing of it is sent, until it is subscribed to again. -/
theorem Orderly.silent {A B : List Mark} (hL : Orderly ok (A ++ unsubscribed t :: P ++ B))
    (hP : subscribed t ∉ P) : sentOn t P = [] := by
  refine List.eq_nil_iff_forall_not_mem.mpr fun e he => ?_
  obtain ⟨ht, hm⟩ := mem_of_sentOn he
  obtain ⟨P₁, P₂, rfl⟩ := List.append_of_mem hm
  obtain ⟨_, Q, hQ, _⟩ := hL (A ++ unsubscribed t :: P₁) e (P₂ ++ B) (by simp)
  have hnone := period_over A fun hin => hP (List.mem_append_left (sent e :: P₂) hin)
  rw [ht, hnone] at hQ
  simp at hQ

end Mark

end EventGateway
