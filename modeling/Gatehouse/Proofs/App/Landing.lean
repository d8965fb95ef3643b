import Gatehouse.Proofs.App.Built
import Gatehouse.Proofs.App.DeepLinks

/-!
Where a login leads in an app that was built from variables.

A login leads to the path that a cookie kept, if that is local, and else to the landing
page, which a variable may name. The variable is looked at less closely than the cookie: it
has to begin with a slash, which an address of another host does as well.

* `redirects_of_login` has the login lead to the landing page, and `LeadsOn.local_or_landing`
  puts the callback beside it.
* `built_app_leads_home` says when all of these targets are local: when the variable is.
-/

namespace Gatehouse.App

open Http Cookie Auth OAuth Checks Limit
open Response (Marks)

variable {ω : Type} {app : App ω} {r : Request} {w : World ω} {target : String}

/-! ### Ways on -/

/-- The response leads on from a login: whoever is signed in is sent to the target, or the page
of a finished login leads there. -/
inductive LeadsOn (r : Request) (response : Response) (target : String) : Prop
  | signedIn {v : Value} : r.path = "/login" → response.status = 302 →
      Value.ofText? target = some v → response.headers.getAll "location" = [v] →
      LeadsOn r response target
  | finished {page : String} : r.path = callbackPath → response.status = 200 →
      response.body = .text page → Page.Leads page target → LeadsOn r response target

/-- If the response is a redirect, it is one to the target. -/
def RedirectsTo (target : String) (response : Response) : Prop :=
  response.status = 302 →
    ∃ v, Value.ofText? target = some v ∧ response.headers.getAll "location" = [v]

theorem RedirectsTo.of_same {response other : Response} (h : RedirectsTo target response)
    (status : other.status = response.status)
    (location : other.headers.getAll "location" = response.headers.getAll "location") :
    RedirectsTo target other := by
  intro redirect
  rw [location]
  exact h (status.symm.trans redirect)

theorem redirectsTo_of_ne {response : Response} (other : response.status ≠ 302) :
    RedirectsTo target response :=
  fun redirect => absurd redirect other

theorem redirectsTo_found (target : String) : RedirectsTo target (Response.found target) := by
  intro redirect
  cases usable : Value.ofText? target with
  | none =>
      rw [Response.found, usable] at redirect
      exact absurd redirect (by decide)
  | some v => exact ⟨v, rfl, (Response.found_of_usable usable).2⟩

theorem redirectsTo_login (app : App ω) (r : Request) (w : World ω) :
    RedirectsTo app.landing (app.login r w).1 := by
  cases user : r.context.user with
  | some user' =>
      rw [login_of_isSome (by simp [user])]
      exact redirectsTo_found app.landing
  | none =>
      rw [login_of_eq_none user]
      refine redirectsTo_of_ne ?_
      rw [Jar.status_apply]
      exact fun redirect => absurd redirect (by simp [Page.login, Response.html, Response.ofText])

/-- What is told of methods, and a body that is left out, make no redirect. -/
theorem RedirectsTo.respond (h : RedirectsTo target (app.limited r w).1) :
    RedirectsTo target (app.respond r w).1 := by
  refine h.of_same (app.status_respond r w) ?_
  rw [respond_apply, Response.headers_answering, tellMethods]
  split
  · rfl
  · split
    · rfl
    · exact Response.getAll_insertText_of_ne (by decide) _ _

/-- Whoever is redirected from the login is sent to the landing page. -/
theorem redirects_of_login (app : App ω) (route : r.path = "/login") (w : World ω) :
    RedirectsTo app.landing (app.respond r w).1 := by
  have handler : ∀ seen inner, RedirectsTo app.landing (app.routeFor r seen inner).1 := by
    intro seen inner
    simp only [routeFor, ofPath?_of_login route]
    split
    · exact redirectsTo_login app seen inner
    · exact redirectsTo_of_ne (by simp [answer, Response.bare])
  refine RedirectsTo.respond ?_
  rw [limited_eq, around, inner_of_login app route]
  obtain ⟨inner, f, forwards, marks⟩ | ⟨response, after, answers, status, -⟩ := app.entry_cases r w
  · have marked : ∀ response, RedirectsTo app.landing response →
        RedirectsTo app.landing (f response) := fun response h =>
      h.of_same (marks.status _) (marks.headers _ _ (by decide))
    have kept : ∀ (jar : Jar) response, RedirectsTo app.landing response →
        RedirectsTo app.landing (jar.apply response) := fun jar response h =>
      h.of_same (Jar.status_apply _ _) (Jar.getAll_apply_of_ne _ _ (by decide))
    rw [forwards]
    refine marked _ ?_
    obtain ⟨o, ⟨user, known⟩ | unknown⟩ := app.meteredGate.optional_cases r inner
    · rw [known]
      exact kept _ _ (handler _ _)
    · rw [unknown]
      exact kept _ _ (handler _ _)
  · rw [answers]
    exact redirectsTo_of_ne (by rw [status]; decide)

/-- A callback that shows a page has it from its handler. -/
theorem respond_of_shown (app : App ω) (route : r.path = callbackPath)
    (shown : (app.respond r w).1.status = 200) :
    ∃ inner, (app.callback r inner).1.status = 200 ∧
      (app.respond r w).1.body =
        if r.method = "HEAD" then .empty else (app.callback r inner).1.body := by
  have passed : (app.respond r w).1.status ≠ 429 := by rw [shown]; decide
  by_cases allowed : Route.callback.methods.contains r.method = true
  · obtain ⟨inner, status, body⟩ := app.respond_of_allowed route allowed passed
    exact ⟨inner, status.symm.trans shown, body⟩
  · have handler : app.routeFor r = answer 405 := by
      rw [routeFor, ofPath?_of_callback route]
      exact if_neg allowed
    rw [status_respond] at shown passed
    obtain ⟨inner, status, -⟩ := app.limited_callback route passed
    rw [handler] at status
    cases status.symm.trans shown

/-- A login leads to a local path that was kept, or to the landing page. -/
theorem LeadsOn.local_or_landing (h : LeadsOn r (app.respond r w).1 target) :
    isLocalPath target = true ∨ target = app.landing := by
  cases h with
  | @signedIn v route redirect spells location =>
      obtain ⟨v', usable, location'⟩ := redirects_of_login app route w redirect
      obtain rfl : v = v' := (List.cons.inj (location.symm.trans location')).1
      exact .inr (Value.ofText?_inj spells usable)
  | @finished page route shown body leads =>
      obtain ⟨inner, shown', body'⟩ := respond_of_shown app route shown
      obtain ⟨page', target', own, leads', ends⟩ := app.callback_leads shown'
      have get : ¬ r.method = "HEAD" := by
        intro head
        rw [if_pos head] at body'
        cases body.symm.trans body'
      rw [if_neg get, own] at body'
      cases body.symm.trans body'
      cases leads.unique leads'
      exact ends.imp And.left And.right

/-! ### Landing pages -/

section Built

variable {services : Services ω} {vars : Variables} {c : Config}

theorem landing_of_built (built : ofConfig services c = .ok app) : app.landing = c.landing := by
  simp only [ofConfig, bind_eq_ok, pure_eq_ok] at built
  obtain ⟨server, -, client, -, rfl⟩ := built
  rfl

/-- The landing page is local when the variable is, or when there is none. -/
theorem isLocalPath_landing_iff (reads : Config.Reads vars c) :
    isLocalPath c.landing = true ↔
      ∀ path, vars.value? "POST_LOGIN_PATH" = some path → isLocalPath path = true := by
  rw [reads.landing]
  cases vars.value? "POST_LOGIN_PATH" with
  | none => exact iff_of_true (by decide) nofun
  | some path => simp

/-- **Logins lead to local pages where the variable names one.** Wherever a login leads in an
app that was built from variables, the target is a local path or the landing page, which
begins with a slash. So all targets are local if the variable names a local path, or none. -/
theorem built_app_leads_home (services : Services ω) {vars : Variables} {c : Config} {app : App ω}
    (accepted : Config.ofVariables vars = .ok c) (built : ofConfig services c = .ok app) :
    c.landing.toList.head? = some '/' ∧
    (∀ r w target, LeadsOn r (app.respond r w).1 target →
      isLocalPath target = true ∨ target = c.landing) ∧
    (isLocalPath c.landing = true ↔ ∀ path, vars "POST_LOGIN_PATH" = some path →
      Text.blank path = false → isLocalPath path = true) ∧
    (isLocalPath c.landing = true → ∀ r w target, LeadsOn r (app.respond r w).1 target →
      isLocalPath target = true) := by
  have reads := Config.ofVariables_eq_ok_iff.mp accepted
  have leads : ∀ r w target, LeadsOn r (app.respond r w).1 target →
      isLocalPath target = true ∨ target = c.landing :=
    fun r w target h => landing_of_built built ▸ h.local_or_landing
  refine ⟨reads.slashed, leads, ?_, fun isLocal r w target h => ?_⟩
  · simp only [isLocalPath_landing_iff reads, Variables.value?_eq_some_iff, and_imp]
  · obtain known | rfl := leads r w target h
    · exact known
    · exact isLocal

end Built

/-- Variables that allow mock sessions and name a landing page. -/
def landingAt (path : String) : Variables := fun name =>
  [("ALLOW_MOCK_AUTH", "true"), ("POST_LOGIN_PATH", path)].lookup name

/-- A visit to the login with a session. -/
def knownVisit : Request where
  method := "GET"
  target := ⟨none, none, "/login", none⟩
  headers := [("cookie", Bytes.ofText "flowra_session=abc")]

/-- A visitor who is known is sent to a landing page that is local. -/
theorem known_visit_leads_home :
    ∃ c app, Config.ofVariables (landingAt "/home") = .ok c ∧
      ofConfig silentServices c = .ok app ∧
      LeadsOn knownVisit (app.respond knownVisit (.fresh ())).1 "/home" ∧
      isLocalPath c.landing = true ∧
      ∀ r w target, LeadsOn r (app.respond r w).1 target → isLocalPath target = true := by
  obtain ⟨c, accepted, seen⟩ := exists_of_view (Config.ofVariables (landingAt "/home"))
    (fun c => (ofConfig silentServices c).toOption.map fun app =>
      let response := (app.respond knownVisit (.fresh ())).1
      (response.status, response.headers.getAll "location"))
    (some (302, [Bytes.ofText "/home"])) (by decide +kernel)
  obtain ⟨app, built, seen⟩ := exists_of_view (ofConfig silentServices c) _ _ seen
  obtain ⟨status, location⟩ := Prod.mk.inj seen
  obtain ⟨-, -, ofVariable, leads⟩ := built_app_leads_home silentServices accepted built
  have isLocal : isLocalPath c.landing = true := ofVariable.mpr fun path named _ => by
    cases named
    decide
  exact ⟨c, app, accepted, built, .signedIn rfl status (by decide) location, isLocal,
    leads isLocal⟩

/-- A callback of a login that was begun at no page. -/
def bareReturn : Request where
  method := "GET"
  target := ⟨none, none, "/auth/callback", some "code=abc&state=S1"⟩
  headers := [("cookie", Bytes.ofText "flowra_state=S1")]

/-- **A landing page on another host is accepted**, and both ways of a login lead there. -/
theorem foreign_landing_is_led_to :
    ∃ c app, Config.ofVariables (landingAt "//evil.example") = .ok c ∧
      ofConfig silentServices c = .ok app ∧ isLocalPath c.landing = false ∧
      LeadsOn knownVisit (app.respond knownVisit (.fresh ())).1 "//evil.example" ∧
      LeadsOn bareReturn (app.respond bareReturn (.fresh ())).1 "//evil.example" := by
  obtain ⟨c, accepted, seen⟩ := exists_of_view (Config.ofVariables (landingAt "//evil.example"))
    (fun c => (ofConfig silentServices c).toOption.map fun app =>
      let response := (app.respond knownVisit (.fresh ())).1
      (response.status, response.headers.getAll "location",
        (app.respond bareReturn (.fresh ())).1.status))
    (some (302, [Bytes.ofText "//evil.example"], 200)) (by decide +kernel)
  obtain ⟨app, built, seen⟩ := exists_of_view (ofConfig silentServices c) _ _ seen
  simp only [Prod.mk.injEq] at seen
  obtain ⟨status, location, shown⟩ := seen
  have landing : c.landing = "//evil.example" := (Config.ofVariables_eq_ok_iff.mp accepted).landing
  obtain ⟨inner, shown', body⟩ := respond_of_shown app (r := bareReturn) (by decide) shown
  obtain ⟨page, target, own, leads, ⟨-, value, kept, -⟩ | ⟨-, rfl⟩⟩ := app.callback_leads shown'
  · have unkept : (Cookie.pairs bareReturn.headers).lookup redirectCookie = none := by decide
    cases unkept.symm.trans kept
  · rw [landing_of_built built, landing] at leads
    exact ⟨c, app, accepted, built, by rw [landing]; decide,
      .signedIn rfl status (by decide) location, .finished (by decide) shown (body.trans own) leads⟩

end Gatehouse.App
