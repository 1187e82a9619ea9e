import EventGateway.Proofs.Outcome
import EventGateway.Admin.Request

/-! What a request asks for, route by route, once nothing is wrong with it. -/

namespace EventGateway

open Http

/-- The body is declared as JSON, is not longer than two mebibytes and is read as this. -/
structure Http.Request.Carries {α : Type} (q : Request) (reader : Json.Draft → Except Json.Error α)
    (x : α) : Prop where
  declared : q.declaresJson = true
  length_le : q.body.length ≤ 2097152
  read : Json.readGlyphs reader (Json.glyphsOfBytes q.body) = .ok x

/-- What a request to the route asks for, with the ids decoded and the body read. -/
inductive Route.Asks (q : Request) : Route → AdminRequest → Prop
  | start {r : StartTask} (hbody : AdminRequest.body StartTask.ofDraft q = .ok r) :
    Asks q .tasks (.startTask r)
  | owner {raw id : String} (hmethod : q.method ≠ .delete)
    (hpath : Text.percentText? raw = some id) : Asks q (.task raw) (.showTask id)
  | abandon {raw id : String} (hmethod : q.method = .delete)
    (hpath : Text.percentText? raw = some id) : Asks q (.task raw) (.abandonTask id)
  | status {raw id : String} {r : TaskStatus} (hpath : Text.percentText? raw = some id)
    (hbody : AdminRequest.body TaskStatus.ofDraft q = .ok r) :
    Asks q (.taskStatus raw) (.reportTask id r)
  | expired {raw id : String} (hpath : Text.percentText? raw = some id) :
    Asks q (.sessionExpired raw) (.sessionExpired id ((Text.Form.read q.query).lookup "userId"))
  | state {raw id : String} {t : SessionState} (hpath : Text.percentText? raw = some id)
    (hbody : AdminRequest.body SessionState.ofDraft q = .ok t) :
    Asks q (.sessionState raw)
      (.sessionState id ((Text.Form.read q.query).lookup "userId") t)
  | logUpdated {raw id : String} (hpath : Text.percentText? raw = some id) :
    Asks q (.sessionLogUpdated raw)
      (.sessionLogUpdated id ((Text.Form.read q.query).lookup "userId"))
  | configChanged : Asks q .configChanged .configChanged

namespace AdminRequest

variable {q : Request}

theorem body_ok {α : Type} {reader : Json.Draft → Except Json.Error α} {x : α} :
    body reader q = .ok x ↔ q.Carries reader x := by
  rw [body]
  by_cases hdeclared : q.declaresJson = true
  · rw [if_neg (by simp [hdeclared])]
    by_cases hlong : bodyLimit < q.body.length
    · rw [if_pos hlong]
      exact iff_of_false error_ne_ok fun h => absurd h.length_le (Nat.not_le.mpr hlong)
    · rw [if_neg hlong, mapError_ok]
      exact ⟨fun h => ⟨hdeclared, Nat.not_lt.mp hlong, h⟩, fun h => h.read⟩
  · rw [if_pos (by simpa using hdeclared)]
    exact iff_of_false error_ne_ok fun h => hdeclared h.declared

theorem parameter_ok {name raw id : String} (hid : parameter name raw = .ok id) :
    Text.percentText? raw = some id := by
  unfold parameter at hid
  split at hid
  next hs => rw [hs, Except.ok.inj hid]
  next => cases hid

theorem parameter_of_text {raw id : String} (hpath : Text.percentText? raw = some id)
    (name : String) : parameter name raw = .ok id := by
  simp only [parameter, hpath]

theorem userId_ok {user : Option String} (hu : userId q = .ok user) :
    user = (Text.Form.read q.query).lookup "userId" := by
  simp only [userId] at hu
  split at hu
  next => cases hu
  next => exact (Except.ok.inj hu).symm

theorem asks_of_ofRoute {route : Route} {a : AdminRequest} (hof : ofRoute q route = .ok a) :
    route.Asks q a := by
  cases route with
  | tasks =>
    obtain ⟨r, hbody, rfl⟩ := map_ok.mp hof
    exact .start hbody
  | task raw =>
    obtain ⟨id, hid, ha⟩ := bind_ok.mp hof
    rw [← ok_inj.mp ha]
    by_cases hmethod : q.method = .delete
    · rw [if_pos hmethod]
      exact .abandon hmethod (parameter_ok hid)
    · rw [if_neg hmethod]
      exact .owner hmethod (parameter_ok hid)
  | taskStatus raw =>
    obtain ⟨id, hid, hrest⟩ := bind_ok.mp hof
    obtain ⟨r, hbody, ha⟩ := bind_ok.mp hrest
    rw [← ok_inj.mp ha]
    exact .status (parameter_ok hid) hbody
  | sessionExpired raw =>
    obtain ⟨id, hid, hrest⟩ := bind_ok.mp hof
    obtain ⟨user, huser, ha⟩ := bind_ok.mp hrest
    rw [← ok_inj.mp ha, userId_ok huser]
    exact .expired (parameter_ok hid)
  | sessionState raw =>
    obtain ⟨id, hid, hrest⟩ := bind_ok.mp hof
    obtain ⟨user, huser, hrest⟩ := bind_ok.mp hrest
    obtain ⟨t, hbody, ha⟩ := bind_ok.mp hrest
    rw [← ok_inj.mp ha, userId_ok huser]
    exact .state (parameter_ok hid) hbody
  | sessionLogUpdated raw =>
    obtain ⟨id, hid, hrest⟩ := bind_ok.mp hof
    obtain ⟨user, huser, ha⟩ := bind_ok.mp hrest
    rw [← ok_inj.mp ha, userId_ok huser]
    exact .logUpdated (parameter_ok hid)
  | configChanged =>
    rw [← Except.ok.inj hof]
    exact .configChanged
  | health | stream => simp [ofRoute] at hof

end AdminRequest

end EventGateway
