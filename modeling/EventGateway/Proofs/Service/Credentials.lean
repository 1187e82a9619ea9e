import EventGateway.Admin.Request

/-! What a request shows of the secret, and whether that lets it in. -/

namespace EventGateway

open Http

/-- What the header for the secret shows. -/
inductive Credential
  | missing
  | unreadable
  | secret (s : String)
  deriving DecidableEq

namespace Credential

def opens (verify : Verifier) (hash : String) : Credential → Bool
  | secret s => verify hash s
  | _ => false

def refusal : Credential → Refusal
  | missing => .noSecret
  | unreadable => .unreadableSecret
  | secret _ => .wrongSecret

theorem opens_iff {verify : Verifier} {hash : String} {c : Credential} :
    c.opens verify hash = true ↔ ∃ s, c = .secret s ∧ verify hash s = true := by
  cases c <;> simp [opens]

theorem response_refusal (c : Credential) (position position' : Json.Error → String) :
    c.refusal.response position = c.refusal.response position' := by
  cases c <;> rfl

theorem status_refusal (c : Credential) (position : Json.Error → String) :
    (c.refusal.response position).status = if c = .unreadable then 400 else 401 := by
  cases c <;> rfl

end Credential

namespace Http

/-- Visible ASCII, or a tab. -/
def Visible (value : List UInt8) : Prop := ∀ b ∈ value, b = 9 ∨ 0x20 ≤ b ∧ b ≤ 0x7e

theorem visibleText?_of_visible {value : List UInt8} (h : Visible value) :
    visibleText? value = some (String.ofList (value.map fun b => Char.ofNat b.toNat)) := by
  have hall : value.all isVisible = true := by
    refine List.all_eq_true.mpr fun b hb => ?_
    rcases h b hb with rfl | ⟨hlow, hhigh⟩
    · rfl
    · have hlt : b < 127 := by
        rw [UInt8.lt_iff_toNat_lt]
        exact Nat.lt_succ_of_le (UInt8.le_iff_toNat_le.mp hhigh)
      simp [isVisible, hlow, hlt]
  rw [visibleText?, if_pos hall]

theorem visible_of_visibleText? {value : List UInt8} {s : String}
    (h : visibleText? value = some s) : Visible value := by
  unfold visibleText? at h
  split at h
  next hall =>
    intro b hb
    have hvisible := List.all_eq_true.mp hall b hb
    simp only [isVisible, Bool.or_eq_true, beq_iff_eq, Bool.and_eq_true, decide_eq_true_eq]
      at hvisible
    refine hvisible.imp_right fun ⟨hlow, hhigh⟩ => ⟨hlow, ?_⟩
    rw [UInt8.le_iff_toNat_le]
    exact Nat.le_of_lt_succ (UInt8.lt_iff_toNat_lt.mp hhigh)
  next => exact nomatch h

namespace Request

/-- Of several headers of one name, in whatever case, the first counts. -/
def First (r : Request) (name : String) (h : Header) : Prop :=
  ∃ before after, r.headers = before ++ h :: after ∧ h.name.toLower = name.toLower ∧
    ∀ x ∈ before, x.name.toLower ≠ name.toLower

inductive Shows (r : Request) : Credential → Prop
  | missing (hnone : ∀ h ∈ r.headers, h.name.toLower ≠ adminHeader.toLower) : Shows r .missing
  | unreadable {h : Header} (hfirst : r.First adminHeader h) (hhidden : ¬Visible h.value) :
    Shows r .unreadable
  | secret {h : Header} (hfirst : r.First adminHeader h) (hvisible : Visible h.value) :
    Shows r (.secret (String.ofList (h.value.map fun b => Char.ofNat b.toNat)))

theorem header?_first {r : Request} {name : String} {h : Header} (hfirst : r.First name h) :
    r.header? name = some h.value := by
  obtain ⟨before, after, hheaders, hname, hothers⟩ := hfirst
  have hfind : r.headers.find? (fun h => h.name.toLower = name.toLower) = some h :=
    List.find?_eq_some_iff_append.mpr ⟨by simpa using hname, before, after, hheaders,
      fun x hx => by simpa using hothers x hx⟩
  simp [header?, hfind]

theorem header?_missing {r : Request} {name : String}
    (hnone : ∀ h ∈ r.headers, h.name.toLower ≠ name.toLower) : r.header? name = none := by
  have hfind : r.headers.find? (fun h => h.name.toLower = name.toLower) = none :=
    List.find?_eq_none.mpr fun h hh => by simpa using hnone h hh
  simp [header?, hfind]

theorem exists_shows (r : Request) : ∃ c, r.Shows c := by
  cases hfind : r.headers.find? (fun h => h.name.toLower = adminHeader.toLower) with
  | none =>
    exact ⟨_, .missing fun h hh => by simpa using List.find?_eq_none.mp hfind h hh⟩
  | some h =>
    obtain ⟨hname, before, after, hheaders, hothers⟩ := List.find?_eq_some_iff_append.mp hfind
    have hfirst : r.First adminHeader h := ⟨before, after, hheaders, by simpa using hname,
      fun x hx => by simpa using hothers x hx⟩
    by_cases hvisible : Visible h.value
    · exact ⟨_, .secret hfirst hvisible⟩
    · exact ⟨_, .unreadable hfirst hvisible⟩

end Request

end Http

theorem AdminRequest.authorize_shows {r : Request} {c : Credential} (hc : r.Shows c)
    (verify : Verifier) (hash : String) :
    authorize verify hash r = if c.opens verify hash then .ok () else .error c.refusal := by
  cases hc with
  | missing hnone =>
    simp [authorize, Request.header?_missing hnone, Credential.opens, Credential.refusal]
  | @unreadable h hfirst hhidden =>
    have hnone : visibleText? h.value = none := by
      cases htext : visibleText? h.value with
      | none => rfl
      | some s => exact absurd (visible_of_visibleText? htext) hhidden
    simp [authorize, Request.header?_first hfirst, hnone, Credential.opens, Credential.refusal]
  | secret hfirst hvisible =>
    simp only [authorize, Request.header?_first hfirst, visibleText?_of_visible hvisible,
      Credential.opens, Credential.refusal]
    rfl

/-- The first header for the secret is readable, and what it says opens the hash. -/
def Http.Request.Opens (r : Request) (verify : Verifier) (hash : String) : Prop :=
  ∃ s, r.Shows (.secret s) ∧ verify hash s = true

theorem AdminRequest.authorize_ok {r : Request} {verify : Verifier} {hash : String} :
    authorize verify hash r = .ok () ↔ r.Opens verify hash := by
  constructor
  · intro h
    obtain ⟨c, hc⟩ := r.exists_shows
    rw [authorize_shows hc] at h
    cases hopens : c.opens verify hash with
    | false => simp [hopens] at h
    | true =>
      obtain ⟨s, rfl, hs⟩ := Credential.opens_iff.mp hopens
      exact ⟨s, hc, hs⟩
  · rintro ⟨s, hc, hs⟩
    exact (authorize_shows hc verify hash).trans (if_pos hs)

end EventGateway
