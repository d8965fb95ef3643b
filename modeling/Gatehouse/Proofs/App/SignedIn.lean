import Gatehouse.Proofs.App.Browser
import Gatehouse.Proofs.App.DeepLinks

/-!
Who is signed in at the login, and who on protected pages.

Both look for the same session, so the login sends on exactly those who are let in, as
long as the services behind the gate do not change their minds (`Gate.Steady`). Whoever
is turned away comes to the login with other cookies: a session that was looked at is
gone, and there may be a new path to return to. A header that is not readable is not
looked at, and where nothing but the old path made it so, the new one brings a session
to light (`Unveils`). There is no other way to be signed in at once.

* `respond_login`: a login sends on whom the gate admits, and begins for everyone else.
* `sessionOf_of_refused`: with the cookies that a refusal leaves no session comes, unless it
  unveils one.
* `login_agrees_with_pages` puts the login beside the protected pages.
-/

namespace Gatehouse

open Http Cookie Auth OAuth Limit
open Response (Marks)

variable {ω : Type}

/-! ### Steady services -/

namespace Auth.Gate

/-- The services behind a gate give the same answer to the same token or name, whenever they
are asked. -/
structure Steady (g : Gate ω) : Prop where
  validator : ∀ validate, g.validator = some validate → ∀ token clock clock' o o',
    (validate clock token o).1 = (validate clock' token o').1
  resolver : ∀ resolve, g.resolver = some resolve → ∀ name username email o o',
    (resolve name username email o).1 = (resolve name username email o').1

variable {g : Gate ω} {claims : Claims} {token : String} {user : User} {o o' : ω}
  {r r' : Request} {w w' : World ω}

/-- The mock that stands in for a validator is steady as well. -/
theorem Steady.active (steady : g.Steady) {validate : Validator ω}
    (active : g.active? = some validate) (token : String) (clock clock' : Clock) (o o' : ω) :
    (validate clock token o).1 = (validate clock' token o').1 := by
  rcases active?_cases active with has | rfl
  · exact steady.validator validate has token clock clock' o o'
  · rfl

theorem Steady.names (steady : g.Steady) (h : g.Names claims o user o') (s : ω) :
    ∃ s', g.Names claims s user s' := by
  cases h with
  | known known => exact ⟨s, .known known⟩
  | @resolved resolve id _ missing has asked filled =>
      rcases again : resolve claims.externalId claims.username claims.email s with ⟨reply, s'⟩
      have same := steady.resolver resolve has claims.externalId claims.username claims.email o s
      rw [asked, again] at same
      obtain rfl : .ready id = reply := same
      exact ⟨s', .resolved missing has again filled⟩

theorem Steady.accepts (steady : g.Steady) (h : g.Accepts w token user o) (w' : World ω) :
    ∃ o', g.Accepts w' token user o' := by
  obtain ⟨validate, claims, o₁, has, asked, names⟩ := h
  rcases again : validate w'.clock token w'.outside with ⟨reply, o₂⟩
  have same := steady.active has token w.clock w'.clock w.outside w'.outside
  rw [asked, again] at same
  obtain rfl : .ready claims = reply := same
  obtain ⟨o', names'⟩ := steady.names names o₂
  exact ⟨o', validate, claims, o₂, has, again, names'⟩

/-- Requests with the same headers come from the same user, at any time. -/
theorem Steady.admits (steady : g.Steady) (same : r'.headers = r.headers)
    (h : g.Admits w r user o) (w' : World ω) : ∃ o', g.Admits w' r' user o' := by
  obtain ⟨token, session, accepts⟩ := h
  obtain ⟨o', accepts'⟩ := steady.accepts accepts w'
  refine ⟨o', token, ?_, accepts'⟩
  rw [sessionOf, same]
  exact session

theorem Steady.admits_iff (steady : g.Steady) (same : r'.headers = r.headers) :
    (∃ user o, g.Admits w r user o) ↔ ∃ user o, g.Admits w' r' user o := by
  constructor
  · rintro ⟨user, o, admits⟩
    exact ⟨user, steady.admits same admits w'⟩
  · rintro ⟨user, o, admits⟩
    exact ⟨user, steady.admits same.symm admits w⟩

end Auth.Gate

namespace App

variable {app : App ω} {r p : Request} {w inner : World ω} {f : Response → Response}
  {response : Response} {cookies : List Pair} {fields : Headers}

/-! ### What a login does -/

/-- The response sends the browser on to the landing page, as far as a header can name it, and
leaves its cookies alone. -/
structure SendsOn (app : App ω) (response : Response) : Prop where
  status : response.status = (Response.found app.landing).status
  location : response.headers.getAll "location" =
    (Response.found app.landing).headers.getAll "location"
  body : response.body = (Response.found app.landing).body
  cookies : response.Sets []

/-- The response is the page that a login begins on, and sets the state of the next draw, which
is used up by that. A session that came with the request is cleared. -/
structure BeginsLogin (app : App ω) (r : Request) (w : World ω) (response : Response)
    (after : World ω) : Prop where
  status : response.status = 200
  body : response.body = (Page.login (app.loginLink r (stateOf (w.seeds w.drawn)))).body
  links : ∃ page, response.body = .text page ∧
    Page.links page = [app.loginLink r (stateOf (w.seeds w.drawn))]
  cookies : response.Sets (⟨stateCookie, stateOf (w.seeds w.drawn), true, app.gate.isSecure r,
    shortMaxAge⟩ :: app.gate.stale r)
  fresh : after.seeds = w.seeds ∧ after.drawn = w.drawn + 1

theorem BeginsLogin.not_sendsOn {after : World ω} (h : app.BeginsLogin r w response after) :
    ¬ app.SendsOn response := by
  intro sends
  have shown := sends.status.symm.trans h.status
  rw [Response.found] at shown
  split at shown
  · exact absurd (show (302 : Nat) = 200 from shown) (by decide)
  · exact absurd (show (400 : Nat) = 200 from shown) (by decide)

/-- The limiters before a route draw nothing. -/
theorem draws_entry (passed : app.entry.Forwards r w r inner f) :
    inner.seeds = w.seeds ∧ inner.drawn = w.drawn := by
  obtain ⟨mid, g, client, -⟩ | ⟨win, after, answers⟩ := app.clientLimiter.guard_marks r w
  · obtain ⟨last, g', endpoint, -⟩ | ⟨win, after, answers⟩ := app.endpointLimiter.guard_marks r mid
    · have both : app.entry.Forwards r w r last (g ∘ g') := by
        intro next
        rw [entry, client, endpoint]
        rfl
      obtain ⟨seeds, drawn⟩ := Limiter.draws_guard client
      obtain ⟨seeds', drawn'⟩ := Limiter.draws_guard endpoint
      rw [passed.unique both]
      exact ⟨seeds'.trans seeds, drawn'.trans drawn⟩
    · have refused : app.entry.Answers r w (g (app.endpointLimiter.reject r win)) after := by
        intro next
        rw [entry, client, answers]
      exact absurd passed.runs refused.not_runs
  · have refused : app.entry.Answers r w _ after :=
      fun next => answers (app.endpointLimiter.guard next)
    exact absurd passed.runs refused.not_runs

section Login

variable (route : r.path = "/login") (get : r.method = "GET") (arrives : r.context = {})
  (passed : app.entry.Forwards r w r inner f)

include route get passed

/-- Between the limiters and the handler of logins stands the gate that lets everyone through. -/
theorem respond_of_login : ∃ g, Marks g ∧ app.respond r w =
    (g (app.meteredGate.optional app.login r inner).1,
      (app.meteredGate.optional app.login r inner).2) := by
  have allowed : Route.login.methods.contains r.method = true := by
    rw [get]
    decide
  have answered := app.respond_of_forwards (ofPath?_of_login route) allowed
    (by rw [get]; decide) passed
  rwa [inner_of_login app route, routeFor_of_login app route allowed] at answered

include arrives

/-- **A login sends on whom the gate admits**, and begins for everyone else. -/
theorem respond_login :
    (∃ user o, app.meteredGate.Admits inner r user o) ∧ app.SendsOn (app.respond r w).1 ∨
      (¬ ∃ user o, app.meteredGate.Admits inner r user o) ∧
        app.BeginsLogin r w (app.respond r w).1 (app.respond r w).2 := by
  obtain ⟨g, marks, answered⟩ := respond_of_login route get passed
  have location : "location" ∉ Limit.limiterHeaders := by decide
  have setCookie : Response.setCookieName ∉ Limit.limiterHeaders := by decide
  obtain ⟨o, ⟨user, identified, admits⟩ | ⟨session, identified, unknown, nobody⟩⟩ :=
    app.meteredGate.identify_cases r inner
  · refine .inl ⟨⟨user, o, admits⟩, ?_⟩
    rw [answered, Gate.optional_of_known identified, login_of_isSome rfl]
    have sets : ((app.meteredGate.jarOf r).apply (Response.found app.landing)).Sets [] :=
      Jar.sets_apply (Response.sets_found app.landing)
    constructor
    case status => exact marks.status _
    case location =>
      exact (marks.headers _ _ location).trans (Jar.getAll_apply_of_ne _ _ (by decide))
    case body => exact marks.body _
    case cookies => exact (marks.headers _ _ setCookie).trans sets
  · refine .inr ⟨fun ⟨user, s, admits⟩ => nobody user s admits, ?_⟩
    obtain ⟨seeds, drawn⟩ := draws_entry passed
    have unseen : r.context.user = none := by rw [arrives]
    have began : app.login r { inner with outside := o } = _ := login_of_eq_none unseen _
    have sets := app.meteredGate.sets_staleJar r (sets_login app unseen { inner with outside := o })
    rw [began] at sets
    rw [answered, Gate.optional_of_unknown identified unknown, began]
    constructor
    case status => exact marks.status _
    case body =>
      rw [← seeds, ← drawn]
      exact marks.body _
    case links =>
      rw [← seeds, ← drawn]
      exact ⟨_, marks.body _, Page.links_login _⟩
    case cookies =>
      rw [← seeds, ← drawn]
      exact (marks.headers _ _ setCookie).trans sets
    case fresh => exact ⟨seeds, congrArg (· + 1) drawn⟩

end Login

/-! ### What a browser holds -/

/-- A cookie that a browser may hold: it was taken from a text that sets it. -/
def Stored (c : Pair) : Prop :=
  ∃ text s, SetCookie.read? text = some s ∧ c = (s.name, s.value)

/-- What a cookie that is set does to those of a browser. -/
def put (cookies : List Pair) (c : Setting) : List Pair :=
  cookies.filter (fun p => p.1 != c.name) ++ if c.maxAge ≤ 0 then [] else [(c.name, c.value)]

/-- Turning the request away brings to light what no header was readable with: a new path
takes the place of the only cookie at fault. -/
structure Unveils (r : Request) (cookies : List Pair) : Prop where
  page : isFragment r.headers = false
  get : r.method = "GET"
  veiled : ∃ c ∈ cookies, c.isReadable = false
  others : ∀ c ∈ cookies, c.1 ≠ redirectCookie → c.isReadable = true

theorem Stored.pairsOf_text {c : Pair} (stored : Stored c) (readable : c.isReadable = true) :
    pairsOf c.text = [(c.1, Text.trim c.2)] := by
  obtain ⟨text, s, read, rfl⟩ := stored
  obtain ⟨filled, trimmed, equals, named, whole⟩ := SetCookie.of_read? read
  have chars : ∀ ch ∈ s.name.toList, Value.isReadableChar ch = true := by
    intro ch hc
    refine List.all_eq_true.mp readable ch ?_
    rw [Pair.text, String.toList_append, String.toList_append, List.append_assoc]
    exact List.mem_append_left _ hc
  refine Cookie.pairsOf_text filled ?_ equals named whole
  rw [SetCookie.trimChars_eq_trimSpaces chars, trimmed]

theorem stored_foldl_keep {told : List SetCookie}
    (read : ∀ s ∈ told, ∃ text, SetCookie.read? text = some s) (stored : ∀ c ∈ cookies, Stored c) :
    ∀ c ∈ told.foldl keep cookies, Stored c := by
  induction told generalizing cookies with
  | nil => exact stored
  | cons s rest ih =>
      refine ih (fun t ht => read t (List.mem_cons_of_mem _ ht)) fun c hc => ?_
      rcases mem_keep.mp hc with ⟨old, -⟩ | ⟨-, rfl⟩
      · exact stored c old
      · obtain ⟨text, taken⟩ := read s List.mem_cons_self
        exact ⟨text, s, taken, rfl⟩

/-- What a response leaves a browser with may be held. -/
theorem stored_of_told (response : Response) (stored : ∀ c ∈ cookies, Stored c) :
    ∀ c ∈ response.cookies.foldl keep cookies, Stored c := by
  refine stored_foldl_keep (fun s hs => ?_) stored
  obtain ⟨v, -, taken⟩ := List.mem_filterMap.mp hs
  obtain ⟨text, -, read⟩ := Option.bind_eq_some_iff.mp taken
  exact ⟨text, read⟩

/-- The session of a request is in the first cookie of its name, and in none where the header
is not readable. -/
theorem sessionOf_of_sent (stored : ∀ c ∈ cookies, Stored c)
    (sent : r.headers = Cookie.send cookies fields) :
    Gate.sessionOf r = if cookies.all Pair.isReadable then
      ((cookies.lookup sessionCookie).map Text.trim).filter fun token => token ≠ "" else none := by
  rw [Gate.sessionOf, sent, Cookie.pairs_send]
  split
  · rename_i readable
    have read : (cookies.flatMap fun c => pairsOf c.text) =
        cookies.map fun c => (c.1, Text.trim c.2) := by
      rw [List.map_eq_flatMap]
      exact List.flatMap_congr fun c hc =>
        (stored c hc).pairsOf_text (List.all_eq_true.mp readable c hc)
    rw [read, Assoc.lookup_map]
  · rfl

theorem lookup_put (cookies : List Pair) (c : Setting) (name : String) :
    (put cookies c).lookup name =
      if name = c.name then (if c.maxAge ≤ 0 then none else some c.value)
      else cookies.lookup name := by
  rw [put, List.lookup_append, Assoc.lookup_erase]
  by_cases own : name = c.name
  · by_cases dropped : c.maxAge ≤ 0 <;> simp [own, dropped]
  · by_cases dropped : c.maxAge ≤ 0
    · simp [own, dropped]
    · simp [own, dropped, Assoc.lookup_cons_ne own]

theorem mem_put_of_ne {c : Setting} {q : Pair} (held : q ∈ cookies) (other : q.1 ≠ c.name) :
    q ∈ put cookies c :=
  List.mem_append_left _ (List.mem_filter.mpr ⟨held, by simpa using other⟩)

/-- A plain cookie is kept as it was set. -/
theorem foldl_keep_of_sets {cs : List Setting} (sets : response.Sets cs)
    (plain : ∀ c ∈ cs, SetCookie.IsName c.name ∧ ∀ ch ∈ c.value.toList, SetCookie.IsPlain ch) :
    response.cookies.foldl keep cookies = cs.foldl put cookies := by
  rw [SetCookie.cookies_of_sets sets]
  clear sets
  induction cs generalizing cookies with
  | nil => rfl
  | cons c rest ih =>
      obtain ⟨named, value⟩ := plain c List.mem_cons_self
      have read := SetCookie.read?_write_of_isPlain named value
      have kept : keep cookies ⟨c.name, c.value, c.attributes⟩ = put cookies c := by
        rw [keep, put, deletes_of_read? named read]
        by_cases dropped : c.maxAge ≤ 0 <;> simp [dropped]
      rw [List.filterMap_cons_some (f := fun c : Setting => SetCookie.read? c.write) read,
        List.foldl_cons, List.foldl_cons, kept]
      exact ih fun c hc => plain c (List.mem_cons_of_mem _ hc)

/-! ### After a refusal -/

theorem plain_of_refused (g : Gate ω) (r : Request) : ∀ c ∈ g.stale r ++ g.detour r,
    SetCookie.IsName c.name ∧ ∀ ch ∈ c.value.toList, SetCookie.IsPlain ch := by
  intro c hc
  rcases List.mem_append.mp hc with stale | detour
  · rw [Gate.stale] at stale
    split at stale
    · rw [List.mem_singleton.mp stale]
      exact ⟨isName_sessionCookie, fun ch h => absurd h List.not_mem_nil⟩
    · exact absurd stale List.not_mem_nil
  · rw [Gate.detour] at detour
    split at detour
    · rw [List.mem_singleton.mp detour]
      exact ⟨isName_redirectCookie, fun ch h => Jar.isPlain_of_mem_redirectValue h⟩
    · exact absurd detour List.not_mem_nil

/-- The cookies of a browser after a request that the gate turned away. -/
def heldAfter (g : Gate ω) (r : Request) (cookies : List Pair) : List Pair :=
  (g.stale r ++ g.detour r).foldl put cookies

/-- A session that was looked at is gone, and any other is where it was. -/
theorem lookup_heldAfter (g : Gate ω) (r : Request) (cookies : List Pair) :
    (heldAfter g r cookies).lookup sessionCookie =
      if (Gate.sessionOf r).isSome then none else cookies.lookup sessionCookie := by
  have other : sessionCookie ≠ redirectCookie := by decide
  have detour : ∀ held, ((g.detour r).foldl put held).lookup sessionCookie =
      held.lookup sessionCookie := by
    intro held
    rw [Gate.detour]
    split
    · rw [List.foldl_cons, List.foldl_nil, lookup_put, if_neg other]
    · rfl
  rw [heldAfter, List.foldl_append, detour, Gate.stale]
  split
  · rw [List.foldl_cons, List.foldl_nil, lookup_put]
    rfl
  · rfl

/-- Cookies become readable where a new path takes the place of the only one at fault. -/
theorem unveils_of_heldAfter {g : Gate ω} (unread : Gate.sessionOf r = none)
    (before : cookies.all Pair.isReadable ≠ true)
    (after : (heldAfter g r cookies).all Pair.isReadable = true) : Unveils r cookies := by
  have stale : g.stale r = [] := by
    rw [Gate.stale, unread]
    rfl
  rw [heldAfter, stale, List.nil_append, Gate.detour] at after
  split at after
  · rename_i gone
    have readable := List.all_eq_true.mp after
    obtain ⟨c, hc, fault⟩ := List.all_eq_false.mp (Bool.eq_false_iff.mpr before)
    refine ⟨gone.1, gone.2, ⟨c, hc, Bool.eq_false_iff.mpr fault⟩, fun c hc other => ?_⟩
    exact readable c (mem_put_of_ne hc other)
  · exact absurd after before

/-- **No session comes with the cookies that a refusal leaves**, unless it unveils one. -/
theorem sessionOf_of_refused (guarded : isProtected p = true)
    (reached : app.entry.Forwards p w p inner f)
    (nobody : ∀ user o, ¬ app.meteredGate.Admits inner p user o) (stored : ∀ c ∈ cookies, Stored c)
    (sent : p.headers = Cookie.send cookies fields) {fields' : Headers}
    (back : r.headers = Cookie.send ((app.respond p w).1.cookies.foldl keep cookies) fields') :
    Gate.sessionOf r = none ∨ Unveils p cookies := by
  have sets := app.sets_of_refused guarded reached nobody
  have held : (app.respond p w).1.cookies.foldl keep cookies =
      heldAfter app.meteredGate p cookies :=
    foldl_keep_of_sets sets (plain_of_refused app.meteredGate p)
  have came := sessionOf_of_sent (stored_of_told _ stored) back
  rw [held, lookup_heldAfter] at came
  by_cases after : (heldAfter app.meteredGate p cookies).all Pair.isReadable = true
  · rw [if_pos after] at came
    cases looked : Gate.sessionOf p with
    | some token =>
        -- The session was rejected, so it is cleared.
        rw [looked] at came
        exact .inl came
    | none =>
        -- There was nothing to see, or nothing could be read.
        by_cases before : cookies.all Pair.isReadable = true
        · have same := sessionOf_of_sent stored sent
          rw [if_pos before, looked] at same
          rw [looked] at came
          exact .inl (came.trans same.symm)
        · exact .inr (unveils_of_heldAfter looked before after)
  · rw [if_neg after] at came
    exact .inl came

/-! ### Login and pages -/

/-- **Login and the protected pages agree.** While the services are steady, a login sends the
browser on if a protected page with the same headers is let in, and begins otherwise. After a
request for a protected page was turned away, a login with the cookies that the browser then
holds begins, with a fresh state; or the refusal has unveiled a session, and the login sends
on. -/
theorem login_agrees_with_pages (app : App ω) (steady : app.gate.Steady) {r : Request}
    {w inner : World ω} {f : Response → Response} (route : r.path = "/login")
    (get : r.method = "GET") (arrives : r.context = {})
    (passed : app.entry.Forwards r w r inner f) :
    (∀ page v before g, isProtected page = true → page.headers = r.headers →
        app.entry.Forwards page v page before g →
        (app.SendsOn (app.respond r w).1 ↔ app.meteredGate.require.Runs page before) ∧
        (app.BeginsLogin r w (app.respond r w).1 (app.respond r w).2 ↔
          ¬ app.meteredGate.require.Runs page before)) ∧
      ∀ page v before g cookies fields fields', isProtected page = true →
        app.entry.Forwards page v page before g → ¬ app.meteredGate.require.Runs page before →
        (∀ c ∈ cookies, Stored c) → page.headers = Cookie.send cookies fields →
        r.headers = Cookie.send ((app.respond page v).1.cookies.foldl keep cookies) fields' →
        app.BeginsLogin r w (app.respond r w).1 (app.respond r w).2 ∨
          Unveils page cookies ∧ app.SendsOn (app.respond r w).1 := by
  have metered : app.meteredGate.Steady := ⟨steady.validator, steady.resolver⟩
  have login := respond_login route get arrives passed
  constructor
  · intro page v before g _ same _
    have admitted : app.meteredGate.require.Runs page before ↔
        ∃ user o, app.meteredGate.Admits inner r user o :=
      (Gate.require_runs_iff _ page before).trans (metered.admits_iff same.symm)
    rw [admitted]
    obtain ⟨known, sends⟩ | ⟨unknown, begins⟩ := login
    · exact ⟨iff_of_true sends known,
        iff_of_false (fun begins => begins.not_sendsOn sends) (not_not_intro known)⟩
    · exact ⟨iff_of_false begins.not_sendsOn unknown, iff_of_true begins unknown⟩
  · intro page v before g cookies fields fields' guarded reached refused stored sent back
    rw [Gate.require_runs_iff] at refused
    obtain ⟨⟨user, o, token, session, -⟩, sends⟩ | ⟨-, begins⟩ := login
    · have nobody : ∀ user o, ¬ app.meteredGate.Admits before page user o :=
        fun user o admits => refused ⟨user, o, admits⟩
      obtain cleared | unveils := sessionOf_of_refused guarded reached nobody stored sent back
      · cases cleared.symm.trans session
      · exact .inr ⟨unveils, sends⟩
    · exact .inl begins

/-- A request of a browser with the cookies. -/
def browsing (path : String) (cookies : List Pair) : Request where
  method := "GET"
  target := ⟨none, none, path, none⟩
  headers := Cookie.send cookies []

/-- An app that knows one session. -/
def strictApp : App Unit where
  gate := { validator := some fun _ token w =>
    (if token = "abc" then .ready (Mock.claimsOf token) else .failed (.invalidToken .expired), w) }

/-- The world after a browser was at a page. -/
def later (page : Request) : World Unit :=
  (strictApp.respond page (.fresh ())).2

/-- The browser goes from a page to the login, with the cookies that it then holds. -/
def onward (page : Request) (cookies : List Pair) : Request :=
  browsing "/login" ((strictApp.respond page (.fresh ())).1.cookies.foldl keep cookies)

theorem steady_strictApp : strictApp.gate.Steady := by
  constructor
  · rintro validate ⟨⟩ token clock clock' o o'
    rfl
  · rintro resolve ⟨⟩

theorem passes_strictApp (r : Request) (w : World Unit) : strictApp.entry.Forwards r w r w id :=
  fun _ => rfl

/-- A session other than the one that the app knows is not let in. -/
theorem not_runs_strictApp {session : Option String} (sent : Gate.sessionOf r = session)
    (other : session ≠ some "abc") (w : World Unit) :
    ¬ strictApp.meteredGate.require.Runs r w := by
  rw [Gate.require_runs_iff]
  rintro ⟨user, o, token, found, validate, claims, o₁, active, asked, -⟩
  cases active
  have unknown : token ≠ "abc" := by
    rintro rfl
    exact other (sent.symm.trans found)
  simp only [if_neg unknown] at asked
  cases asked

theorem stored_of_read {c : Pair} (read : SetCookie.read? c.text = some ⟨c.1, c.2, []⟩) :
    Stored c :=
  ⟨c.text, _, read, rfl⟩

/-- The cookies of a browser whose session has expired. -/
def staleCookies : List Pair :=
  [("theme", "dark"), ("flowra_session", "old"), ("flowra_redirect", "/api/me")]

def stalePage : Request :=
  browsing "/workspaces" staleCookies

def staleLogin : Request :=
  onward stalePage staleCookies

/-- An expired session is gone by the time of the login, which begins. -/
theorem stale_session_begins_login :
    strictApp.gate.Steady ∧ staleLogin.path = "/login" ∧ staleLogin.method = "GET" ∧
      staleLogin.context = {} ∧
      strictApp.entry.Forwards staleLogin (later stalePage) staleLogin (later stalePage) id ∧
      isProtected stalePage = true ∧ (∀ c ∈ staleCookies, Stored c) ∧
      ¬ strictApp.meteredGate.require.Runs stalePage (.fresh ()) ∧
      staleLogin.headers =
        Cookie.send [("theme", "dark"), ("flowra_redirect", "/workspaces")] [] ∧
      strictApp.BeginsLogin staleLogin (later stalePage)
        (strictApp.respond staleLogin (later stalePage)).1
        (strictApp.respond staleLogin (later stalePage)).2 := by
  have stored : ∀ c ∈ staleCookies, Stored c := by
    have read : ∀ c ∈ staleCookies,
        SetCookie.read? c.text = some ⟨c.1, c.2, []⟩ := by decide
    exact fun c hc => stored_of_read (read c hc)
  have session : Gate.sessionOf stalePage = some "old" := by decide
  have refused := not_runs_strictApp session (by decide) (.fresh ())
  have passed := passes_strictApp staleLogin (later stalePage)
  have held : staleLogin.headers =
      Cookie.send [("theme", "dark"), ("flowra_redirect", "/workspaces")] [] := by decide +kernel
  obtain ⟨-, after⟩ := login_agrees_with_pages strictApp steady_strictApp rfl rfl rfl passed
  have guarded : isProtected stalePage = true := by decide
  have begins := after stalePage (.fresh ()) (.fresh ()) id staleCookies [] [] guarded
    (passes_strictApp _ _) refused stored rfl rfl
  refine ⟨steady_strictApp, rfl, rfl, rfl, passed, guarded, stored, refused, held, ?_⟩
  obtain begins | ⟨unveils, -⟩ := begins
  · exact begins
  · obtain ⟨c, hc, fault⟩ := unveils.veiled
    have readable : ∀ c ∈ staleCookies, c.isReadable = true := by decide
    cases fault.symm.trans (readable c hc)

/-- The cookies of a browser whose path to return to is in no readable header. -/
def veiledCookies : List Pair :=
  [("flowra_session", "abc"), ("flowra_redirect", "é")]

def veiledPage : Request :=
  browsing "/api/me" veiledCookies

def veiledLogin : Request :=
  onward veiledPage veiledCookies

/-- **A session that was not looked at is used by the login.** A page turns the browser away, and
the login does not begin but sends it on. -/
theorem unveiled_session_skips_login :
    strictApp.gate.Steady ∧ (∀ c ∈ veiledCookies, Stored c) ∧ isProtected veiledPage = true ∧
      isFragment veiledPage.headers = false ∧
      strictApp.entry.Forwards veiledPage (.fresh ()) veiledPage (.fresh ()) id ∧
      ¬ strictApp.meteredGate.require.Runs veiledPage (.fresh ()) ∧
      strictApp.entry.Forwards veiledLogin (later veiledPage) veiledLogin (later veiledPage) id ∧
      strictApp.SendsOn (strictApp.respond veiledLogin (later veiledPage)).1 ∧
      ¬ strictApp.BeginsLogin veiledLogin (later veiledPage)
        (strictApp.respond veiledLogin (later veiledPage)).1
        (strictApp.respond veiledLogin (later veiledPage)).2 := by
  have stored : ∀ c ∈ veiledCookies, Stored c := by
    have read : ∀ c ∈ veiledCookies,
        SetCookie.read? c.text = some ⟨c.1, c.2, []⟩ := by decide
    exact fun c hc => stored_of_read (read c hc)
  have unread : Gate.sessionOf veiledPage = none := by decide
  have refused := not_runs_strictApp unread (by decide) (.fresh ())
  have passed := passes_strictApp veiledLogin (later veiledPage)
  have status : (strictApp.respond veiledLogin (later veiledPage)).1.status = 302 := by
    decide +kernel
  obtain ⟨-, sends⟩ | ⟨-, begins⟩ := respond_login rfl rfl rfl passed
  · exact ⟨steady_strictApp, stored, by decide, by decide, passes_strictApp _ _, refused, passed,
      sends, fun begins => begins.not_sendsOn sends⟩
  · cases begins.status.symm.trans status

end App

end Gatehouse
