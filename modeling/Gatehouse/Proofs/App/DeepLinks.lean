import Gatehouse.Proofs.App.Cookies
import Gatehouse.Proofs.App.Stages
import Gatehouse.Proofs.Http.Cookie
import Gatehouse.Proofs.Page

/-!
Links to protected pages.

Whoever has no session is sent from a protected page to the login, and where they
were going is kept in a cookie. A callback that succeeds later leads to the path that
the browser brings back in it.

* `entry_cases`: the limiters that a request meets first mark its response, or they
  reject it.
* `keeps_of_refused` is the way out: the browser is told to keep one value.
* `leads_of_callback` is the way back: that value decides where the page leads.
* `deep_link_survives_login` puts the two together, for any path and query.
-/

namespace Gatehouse

open Http Cookie Auth OAuth Limit
open Response (Marks)

namespace App

variable {ω : Type} (app : App ω) {r : Request} {w inner : World ω} {f : Response → Response}
  {path value : String}

/-- The limiters of clients and endpoints mark the response of a request, or one of
them rejects it. -/
theorem entry_cases (r : Request) (w : World ω) :
    (∃ inner f, app.entry.Forwards r w r inner f ∧ Marks f) ∨
      ∃ response after, app.entry.Answers r w response after ∧ response.status = 429 ∧
        response.Sets [] := by
  obtain ⟨inner, f, forwards, marks⟩ | ⟨win, after, answers⟩ := app.clientLimiter.guard_marks r w
  · have client : ∀ next, app.entry next r w =
        (f (app.endpointLimiter.guard next r inner).1,
          (app.endpointLimiter.guard next r inner).2) :=
      fun next => forwards (app.endpointLimiter.guard next)
    obtain ⟨inner₂, f₂, forwards₂, marks₂⟩ | ⟨win, after, answers⟩ :=
      app.endpointLimiter.guard_marks r inner
    · refine .inl ⟨inner₂, f ∘ f₂, fun next => ?_, marks.comp marks₂⟩
      rw [client, forwards₂]
      rfl
    · refine .inr ⟨f (app.endpointLimiter.reject r win), after, fun next => ?_, ?_, ?_⟩
      · rw [client, answers]
      · exact (marks.status _).trans (Limiter.status_reject r rfl win)
      · exact (marks.headers _ Response.setCookieName (by decide)).trans (sets_reject rfl win)
  · exact .inr ⟨_, after, fun next => answers (app.endpointLimiter.guard next),
      Limiter.status_reject r rfl win, sets_reject rfl win⟩

/-- Behind the limiters a request comes to what stands around its route, and they mark the
response. -/
theorem respond_of_forwards {route : Route} (named : Route.ofPath? r.path = some route)
    (allowed : route.methods.contains r.method = true) (whole : r.method ≠ "HEAD")
    (passed : app.entry.Forwards r w r inner f) : ∃ g, Marks g ∧ app.respond r w =
      (g (app.inner r (app.routeFor r) r inner).1, (app.inner r (app.routeFor r) r inner).2) := by
  obtain ⟨inner', g, forwards, marks⟩ | ⟨response, after, answers, -⟩ := app.entry_cases r w
  · obtain rfl := passed.unique forwards
    refine ⟨g, marks, ?_⟩
    rw [respond_apply, tellMethods_of_allowed named allowed, Response.answering, if_neg whole,
      limited_eq, around, forwards]
  · exact absurd passed.runs answers.not_runs

/-! ### The way out -/

/-- The response has a browser keep the value as the path to return to, and nothing
else under that name. -/
def Keeps (response : Response) (value : String) : Prop :=
  (response.cookies.filter fun c => c.name == redirectCookie).map
    (fun c => (c.value, c.maxAge?)) = [(value, some shortMaxAge)]

instance (response : Response) (value : String) : Decidable (Keeps response value) :=
  inferInstanceAs (Decidable (_ = _))

/-- Whoever the gate refuses is told which cookies to set, whatever limiters add. -/
theorem sets_of_refused (guarded : isProtected r = true)
    (reached : app.entry.Forwards r w r inner f)
    (nobody : ∀ user o, ¬ app.meteredGate.Admits inner r user o) :
    (app.respond r w).1.Sets (app.meteredGate.stale r ++ app.meteredGate.detour r) := by
  obtain ⟨inner', f', forwards, marks⟩ | ⟨response, after, answers, -⟩ := app.entry_cases r w
  · obtain rfl := reached.unique forwards
    obtain ⟨o, ⟨user, admits, -⟩ | ⟨-, answers⟩⟩ := app.meteredGate.require_cases r inner
    · exact absurd admits (nobody user o)
    · have limited : (app.limited r w).1 =
          f' (app.meteredGate.turnAway r (app.meteredGate.staleJar r)) := by
        rw [limited_eq, around, forwards, inner_of_protected _ guarded, protection, answers]
      have sets : (app.limited r w).1.Sets
          (app.meteredGate.stale r ++ app.meteredGate.detour r) := by
        rw [limited]
        exact (marks.headers _ Response.setCookieName (by decide)).trans
          (app.meteredGate.sets_turnAway r)
      exact Response.Sets.answering (sets_tellMethods sets) r.method
  · exact absurd reached.runs answers.not_runs

/-- Beside the clearing of a session, a browser keeps the value that is written for it. -/
theorem keeps_of_sets {response : Response} {g : Gate ω} {c : Setting}
    (sets : response.Sets (g.stale r ++ [c])) (named : c.name = redirectCookie)
    (plain : ∀ ch ∈ c.value.toList, SetCookie.IsPlain ch) (short : c.maxAge = shortMaxAge) :
    Keeps response c.value := by
  have isNames : ∀ s ∈ g.stale r ++ [c], SetCookie.IsName s.name := by
    intro s hs
    rcases List.mem_append.mp hs with stale | own
    · exact Gate.name_of_mem_stale stale ▸ isName_sessionCookie
    · exact List.mem_singleton.mp own ▸ named ▸ isName_redirectCookie
  have cleared : (g.stale r).filter (fun s => s.name == c.name) = [] := by
    refine List.filter_eq_nil_iff.mpr fun s hs => ?_
    rw [Gate.name_of_mem_stale hs, named]
    decide
  have told := SetCookie.told_of_sets sets isNames
    (by rw [List.filter_append, cleared]; simp) plain
  rwa [named, short] at told

/-- A page that is refused to a browser is kept as the path to return to. -/
theorem keeps_of_refused (guarded : isProtected r = true) (get : r.method = "GET")
    (page : isFragment r.headers = false) (reached : app.entry.Forwards r w r inner f)
    (nobody : ∀ user o, ¬ app.meteredGate.Admits inner r user o) :
    Keeps (app.respond r w).1 (Jar.redirectValue r.target.pathAndQuery) := by
  have sets := app.sets_of_refused guarded reached nobody
  rw [Gate.detour, if_pos ⟨page, get⟩] at sets
  exact keeps_of_sets sets rfl (fun _ hc => Jar.isPlain_of_mem_redirectValue hc) rfl

/-! ### The way back -/

/-- Where a login leads that was begun at a path and query: there if they are local, and
else to the landing page. -/
def destination (path : String) : String :=
  if isLocalPath path then path else app.landing

/-- A callback that shows a page leads to the path that is kept, and without one to the
landing page. -/
theorem callback_leads (shown : (app.callback r w).1.status = 200) :
    ∃ page target, (app.callback r w).1.body = .text page ∧ Page.Leads page target ∧
      (KeptPath r target ∨ (¬ ∃ path, KeptPath r path) ∧ target = app.landing) := by
  obtain ⟨outcome, grant, o, ends, concludes⟩ | ⟨unread, -⟩ := app.callback_ends r w
  · have success : outcome = .success := by
      refine Decidable.byContradiction fun failed => ?_
      by_cases refused : outcome = .providerError
      · exact absurd ((concludes.refused refused).1.symm.trans shown) (by decide)
      · exact absurd ((concludes.failed refused failed).1.symm.trans shown) (by decide)
    by_cases kept : ∃ path, KeptPath r path
    · obtain ⟨path, kept⟩ := kept
      obtain ⟨page, body, leads⟩ := concludes.local_ success path kept
      exact ⟨page, path, body, leads, .inl kept⟩
    · obtain ⟨page, body, leads⟩ := concludes.elsewhere success kept
      exact ⟨page, app.landing, body, leads, .inr ⟨kept, rfl⟩⟩
  · exact absurd (unread.symm.trans shown) (by decide)

/-- A callback that shows a page leads to the path that its request brings back. -/
theorem leads_of_callback (brought : (Cookie.pairs r.headers).lookup redirectCookie = some value)
    (read : Text.Percent.decodeText? value = some path)
    (shown : (app.callback r w).1.status = 200) :
    ∃ page, (app.callback r w).1.body = .text page ∧ Page.Leads page (app.destination path) := by
  obtain ⟨page, target, body, leads, kept | ⟨unkept, rfl⟩⟩ := app.callback_leads shown
  · obtain ⟨isLocal, value', brought', read'⟩ := kept
    cases brought.symm.trans brought'
    cases read.symm.trans read'
    exact ⟨page, body, by rwa [destination, if_pos isLocal]⟩
  · have foreign : ¬ isLocalPath path = true :=
      fun isLocal => unkept ⟨path, isLocal, value, brought, read⟩
    exact ⟨page, body, by rwa [destination, if_neg foreign]⟩

/-- What a callback answers is what stands at its route, but for limiters. -/
theorem limited_callback (route : r.path = callbackPath)
    (passed : (app.limited r w).1.status ≠ 429) :
    ∃ inner, (app.limited r w).1.status = (app.routeFor r r inner).1.status ∧
      (app.limited r w).1.body = (app.routeFor r r inner).1.body := by
  have bare : app.inner r (app.routeFor r) = app.routeFor r := by
    rw [inner_of_callback app route, id]
  rw [limited_eq, around, bare] at passed ⊢
  obtain ⟨inner, f, forwards, marks⟩ | ⟨response, after, answers, status, -⟩ := app.entry_cases r w
  · rw [forwards]
    exact ⟨inner, marks.status _, marks.body _⟩
  · rw [answers] at passed
    exact absurd status passed

/-- By a method of its route a callback reaches its handler, whose body is left out where only
the headers are asked for. -/
theorem respond_of_allowed (route : r.path = callbackPath)
    (allowed : Route.callback.methods.contains r.method = true)
    (passed : (app.respond r w).1.status ≠ 429) :
    ∃ inner, (app.respond r w).1.status = (app.callback r inner).1.status ∧
      (app.respond r w).1.body =
        if r.method = "HEAD" then .empty else (app.callback r inner).1.body := by
  rw [status_respond] at passed ⊢
  obtain ⟨inner, status, body⟩ := app.limited_callback route passed
  rw [routeFor_of_callback app route allowed] at status body
  refine ⟨inner, status, ?_⟩
  rw [respond_apply, tellMethods_of_allowed (ofPath?_of_callback route) allowed, Response.answering]
  split
  · rfl
  · exact body

theorem respond_callback (route : r.path = callbackPath) (get : r.method = "GET")
    (passed : (app.respond r w).1.status ≠ 429) :
    ∃ inner, (app.respond r w).1.status = (app.callback r inner).1.status ∧
      (app.respond r w).1.body = (app.callback r inner).1.body := by
  obtain ⟨inner, status, body⟩ := app.respond_of_allowed route (by rw [get]; decide) passed
  rw [if_neg (by rw [get]; decide)] at body
  exact ⟨inner, status, body⟩

/-- **A link survives a login.** When the gate refuses a page to a browser, whatever
its path and query are, the browser is told to keep one value, and the value spells
them. Every later callback that brings this value back among other cookies and shows
a page leads to exactly that path and query if they are local, and else to the landing
page. -/
theorem deep_link_survives_login (app : App ω) {r : Request} {w inner : World ω}
    {f : Response → Response} (guarded : isProtected r = true) (get : r.method = "GET")
    (page : isFragment r.headers = false) (reached : app.entry.Forwards r w r inner f)
    (nobody : ∀ user o, ¬ app.meteredGate.Admits inner r user o) :
    ∃ value, Keeps (app.respond r w).1 value ∧
      Text.Percent.decodeText? value = some r.target.pathAndQuery ∧
      ∀ (back : Request) (later : World ω) (cookies : List Pair), back.path = callbackPath →
        back.method = "GET" → Carries back.headers cookies → (∀ c ∈ cookies, c.WellFormed) →
        cookies.lookup redirectCookie = some value → (app.respond back later).1.status = 200 →
        ∃ shown, (app.respond back later).1.body = .text shown ∧
          Page.Leads shown (app.destination r.target.pathAndQuery) := by
  have read := Jar.decodeText?_redirectValue r.target.pathAndQuery
  refine ⟨_, app.keeps_of_refused guarded get page reached nobody, read, ?_⟩
  intro back later cookies route got carries wellFormed brought status
  obtain ⟨inner, same, body⟩ := app.respond_callback route got (w := later) (by rw [status]; decide)
  have found : (Cookie.pairs back.headers).lookup redirectCookie =
      some (Jar.redirectValue r.target.pathAndQuery) := by
    rw [lookup_pairs_of_carries carries wellFormed, brought, Option.map_some,
      Jar.trim_redirectValue]
  rw [body]
  exact app.leads_of_callback found read (same.symm.trans status)

/-- A request for a protected page whose query has marks that no cookie holds as they
are. -/
def quotedLink : Request where
  method := "GET"
  target := ⟨none, none, "/workspaces", some "q=50%25,\"é\""⟩
  headers := []

/-- How the path and query are kept. -/
def quotedValue : String :=
  "%2Fworkspaces%3Fq%3D50%2525%2C%22%C3%A9%22"

/-- The return of the browser, which has a cookie of another kind in a field of its own. -/
def quotedReturn : Request where
  method := "GET"
  target := ⟨none, none, "/auth/callback", some "code=abc&state=S1"⟩
  headers := [("cookie", Bytes.ofText "theme=dark blue"),
    ("cookie", Bytes.ofText ("flowra_state=S1; flowra_redirect=" ++ quotedValue))]

theorem quoted_link_survives :
    let app : App Unit := {}
    isProtected quotedLink = true ∧ isFragment quotedLink.headers = false ∧
      app.entry.Forwards quotedLink (.fresh ()) quotedLink (.fresh ()) id ∧
      (∀ user o, ¬ app.meteredGate.Admits (.fresh ()) quotedLink user o) ∧
      Keeps (app.respond quotedLink (.fresh ())).1 quotedValue ∧
      ∃ shown, (app.respond quotedReturn (.fresh ())).1.body = .text shown ∧
        Page.Leads shown "/workspaces?q=50%25,\"é\"" := by
  intro app
  have guarded : isProtected quotedLink = true := by decide
  have page : isFragment quotedLink.headers = false := by decide
  have reached : app.entry.Forwards quotedLink (.fresh ()) quotedLink (.fresh ()) id :=
    fun _ => rfl
  have nobody : ∀ user o, ¬ app.meteredGate.Admits (.fresh ()) quotedLink user o := by
    rintro user o ⟨token, session, -⟩
    cases session
  obtain ⟨value, keeps, -, leads⟩ := deep_link_survives_login app guarded rfl page reached nobody
  have kept : Keeps (app.respond quotedLink (.fresh ())).1 quotedValue := by decide +kernel
  obtain rfl : quotedValue = value := by
    have same := kept.symm.trans keeps
    exact congrArg Prod.fst (List.cons.inj same).1
  have carries : Carries quotedReturn.headers
      [("theme", "dark blue"), ("flowra_state", "S1"), ("flowra_redirect", quotedValue)] :=
    ⟨[[("theme", "dark blue")], [("flowra_state", "S1"), ("flowra_redirect", quotedValue)]], rfl,
      by decide⟩
  have wellFormed : ∀ c ∈ [("theme", "dark blue"), ("flowra_state", "S1"),
      ("flowra_redirect", quotedValue)], Pair.WellFormed c := by decide
  have isLocal : isLocalPath quotedLink.target.pathAndQuery = true := by decide
  obtain ⟨shown, body, lead⟩ := leads quotedReturn (.fresh ()) _ (by decide) rfl carries wellFormed
    (by decide) (by decide +kernel)
  rw [destination, if_pos isLocal] at lead
  exact ⟨guarded, page, reached, nobody, kept, shown, body, lead⟩

end App

end Gatehouse
