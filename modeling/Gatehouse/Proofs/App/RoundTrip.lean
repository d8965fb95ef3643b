import Gatehouse.Proofs.App.Built
import Gatehouse.Proofs.App.SignedIn
import Gatehouse.Proofs.App.Workspaces
import Gatehouse.Proofs.OAuth.Authorization

/-!
The round trip of a login.

A login leaves its state with the browser twice: in a cookie, and in the link of its
page, from where a provider sends it back. The one is written for a header and the other
for a query, an address and a page, and each reader undoes what its writer did. So the two
are the same when they meet in the callback.

* `asked?_loginLink`: the link of a login asks for its state, whatever the provider's own
  address holds.
* `begins_of_beginsLogin` and `state?_of_brings` follow the state through the page and the
  cookie.
* `succeeds_of_comesBack`: a login that comes back with a grant succeeds.
* `honest_login_completes` puts these together, up to the session of a mock login.
-/

namespace Gatehouse.App

open Http Cookie Auth OAuth Limit
open Response (Marks)

variable {ω : Type} {app : App ω} {r back : Request} {w inner later reached : World ω}
  {f g : Response → Response} {response : Response} {state link name value : String}
  {grant : Grant} {o : ω}

/-- A login goes on at a client that settings tell of, or it ends with the mock code. -/
def Hosted (app : App ω) : Prop :=
  app.provider = none ∨ ∃ settings client network, OAuth.Client.ofSettings settings = .ok client ∧
    app.provider = some (client.provider network)

/-- The state that a link asks for: the last one in its query. -/
def asked? (link : String) : Option String :=
  (Url.queryOf? link).bind (Text.Form.lastValue? "state")

/-- A login begins: the browser is to keep the state for a while, and it is shown a page with
one link, which asks for the same state. -/
structure Begins (response : Response) (state link : String) : Prop where
  shown : response.status = 200
  told : (response.cookies.filter fun c => c.name == stateCookie).map
    (fun c => (c.value, c.maxAge?)) = [(state, some shortMaxAge)]
  page : ∃ page, response.body = .text page ∧ Page.links page = [link]
  asks : asked? link = some state

/-- A request brings a cookie back, among others. -/
def Brings (r : Request) (name value : String) : Prop :=
  ∃ cookies, Carries r.headers cookies ∧ (∀ c ∈ cookies, c.WellFormed) ∧
    cookies.lookup name = some value

/-- How a login that went on to a link comes back with a grant: the provider sends it back with
the state that it was asked for and a code that it accepts, or without a provider the link itself
leads back. -/
inductive ComesBack (app : App ω) (link : String) (back : Request) (o : ω) : Grant → ω → Prop
  | accepted {p : Provider ω} {state code description : String} {grant : Grant} {o' : ω} :
      app.provider = some p → asked? link = some state → back.path = callbackPath →
      CallbackParams.read (back.target.query.getD "") = .ok ⟨code, state, "", description⟩ →
      code ≠ "" → p.exchange code (app.returnAddress back) o = (.ok grant, o') →
      ComesBack app link back o grant o'
  | followed : app.provider = none → back.target = Target.read link →
      ComesBack app link back o (Grant.ofToken mockCode) o

/-- A callback succeeds with a grant: nothing else is counted, and the browser gets its
session. -/
structure Succeeds (app : App ω) (back : Request) (later : World ω) (grant : Grant) (o : ω) :
    Prop where
  status : (app.respond back later).1.status = 200
  counted : (app.respond back later).2.metrics.callbacks.get Outcome.success.label =
    later.metrics.callbacks.get Outcome.success.label + 1
  others : ∀ label, label ≠ Outcome.success.label →
    (app.respond back later).2.metrics.callbacks.get label = later.metrics.callbacks.get label
  left : (app.respond back later).2.outside = o
  session : ∃ seconds, Lasts grant seconds ∧ (app.respond back later).1.Sets
    (Setting.cleared stateCookie (app.gate.isSecure back) ::
      app.sessionSet back grant seconds ++
        [Setting.cleared redirectCookie (app.gate.isSecure back)])

/-- What is shown of a user to the user. -/
def selfBody (user : User) : Body :=
  .json (.object (user.members ++ [("user", user.profile.toJson)]))

/-! ### The link -/

/-- An application that starts is one of the two. -/
theorem hosted_of_built {services : Services ω} {c : Config}
    (built : ofConfig services c = .ok app) : app.Hosted := by
  obtain ⟨-, client, reached, provider⟩ := ofConfig_eq_ok built
  unfold clientOf at reached
  split at reached
  · cases reached
    exact .inl provider
  · rename_i settings _
    rw [Checks.map_eq_ok] at reached
    obtain ⟨own, read, rfl⟩ := reached
    exact .inr ⟨settings, own, services.network, Checks.mapError_eq_ok.mp read, provider⟩

theorem asked?_of_decode {q : String} (query : Url.queryOf? link = some q)
    (front : List Text.Form.Pair) (read : Text.Form.decode q = front ++ [("state", state)]) :
    asked? link = some state := by
  rw [asked?, query, Option.bind_some, Text.Form.lastValue?_of_decode read]

/-- The link of a mock login is the path of the callback with a query. -/
theorem mockLink_eq (seed : Seed) :
    callbackPath ++ "?code=" ++ mockCode ++ "&state=" ++ stateOf seed =
      callbackPath ++ ("?" ++ Text.Form.encode [("code", mockCode), ("state", stateOf seed)]) := by
  have fixed : Text.Form.encodeText "code" = "code" ∧
      Text.Form.encodeText mockCode = mockCode ∧ Text.Form.encodeText "state" = "state" := by
    decide +kernel
  obtain ⟨code, mock, state⟩ := fixed
  have pairs : Text.Form.encode [("code", mockCode), ("state", stateOf seed)] =
      "code=" ++ mockCode ++ "&state=" ++ stateOf seed := by
    simp [Text.Form.encode, Text.Form.encodePair, code, mock, state, encodeText_stateOf,
      String.intercalate_cons_cons, String.append_assoc, ← String.toList_inj]
  rw [pairs]
  simp [← String.toList_inj, String.toList_append]

/-- The link of a client asks for any state that it is given, whatever its own address holds. -/
theorem asked?_authorizationUrl {settings : Settings} {client : OAuth.Client}
    (known : OAuth.Client.ofSettings settings = .ok client) (returnTo state : String) :
    asked? (client.authorizationUrl returnTo state).write = some state := by
  obtain ⟨authorizeUrl, tokenUrl, read, -, rfl⟩ := Client.ofSettings_eq_ok.mp known
  let own : List Text.Form.Pair := [("response_type", "code"), ("client_id", settings.clientId),
    ("redirect_uri", returnTo), ("scope", settings.scopes)]
  obtain ⟨q, query, decoded⟩ := Url.decode_addQuery read (own ++ [("state", state)])
  rw [← List.append_assoc] at decoded
  exact asked?_of_decode query _ decoded

/-- **The link of a login asks for its state.** -/
theorem asked?_loginLink (hosted : app.Hosted) (r : Request) (seed : Seed) :
    asked? (app.loginLink r (stateOf seed)) = some (stateOf seed) := by
  rcases hosted with lacks | ⟨settings, client, network, known, provider⟩
  · have fits : '#' ∉ (Text.Form.encode [("code", mockCode), ("state", stateOf seed)]).toList :=
      Text.Form.not_mem_encode (by simp) _
    have front : ∀ mark ∈ Url.marks, mark ∉ callbackPath.toList :=
      fun mark h => Url.of_marks h (by decide)
    have query := Url.queryOf?_append front fits (.inl (Eq.refl ""))
    rw [String.append_empty] at query
    rw [loginLink, lacks]
    simp only
    rw [mockLink_eq]
    exact asked?_of_decode query [("code", mockCode)] (Text.Form.decode_encode _)
  · rw [loginLink, provider]
    exact asked?_authorizationUrl known _ _

/-! ### The page and the cookie -/

/-- A login that begins leaves the state with the browser. -/
theorem begins_of_beginsLogin {after : World ω} (hosted : app.Hosted)
    (h : app.BeginsLogin r w response after) :
    Begins response (stateOf (w.seeds w.drawn)) (app.loginLink r (stateOf (w.seeds w.drawn))) := by
  let own : Setting :=
    ⟨stateCookie, stateOf (w.seeds w.drawn), true, app.gate.isSecure r, shortMaxAge⟩
  have named : ∀ c ∈ own :: app.gate.stale r, SetCookie.IsName c.name := by
    intro c hc
    rcases List.mem_cons.mp hc with rfl | stale
    · exact isName_stateCookie
    · exact Gate.name_of_mem_stale stale ▸ isName_sessionCookie
  have only : (own :: app.gate.stale r).filter (fun c => c.name == own.name) = [own] := by
    rw [List.filter_cons_of_pos (by simp), List.filter_eq_nil_iff.mpr]
    intro c hc
    rw [Gate.name_of_mem_stale hc]
    show ¬ (sessionCookie == stateCookie) = true
    decide
  have plain : ∀ ch ∈ own.value.toList, SetCookie.IsPlain ch :=
    fun _ hc => isPlain_of_mem_stateOf hc
  constructor
  case shown => exact h.status
  case told => exact SetCookie.told_of_sets h.cookies named only plain
  case page => exact h.links
  case asks => exact asked?_loginLink hosted r _

theorem lookup_of_brings (brings : Brings r name value) (trimmed : Text.trim value = value) :
    (Cookie.pairs r.headers).lookup name = some value := by
  obtain ⟨cookies, carries, wellFormed, held⟩ := brings
  rw [lookup_pairs_of_carries carries wellFormed, held, Option.map_some, trimmed]

theorem brings_of_sent {cookies : List Pair} {fields : Headers}
    (sent : r.headers = Cookie.send cookies fields) (wellFormed : ∀ c ∈ cookies, c.WellFormed)
    (held : cookies.lookup name = some value) : Brings r name value := by
  have filled : cookies ≠ [] := by
    rintro rfl
    cases held
  refine ⟨cookies, ⟨[cookies], List.append_nil _, ?_⟩, wellFormed, held⟩
  rw [sent, Cookie.send, if_neg filled, Headers.getAll_insert]
  rfl

/-- The state that a callback compares with is the one that its request brings back. -/
theorem state?_of_brings {seed : Seed} (g : Gate ω) (brings : Brings r stateCookie (stateOf seed)) :
    (g.jarOf r).state? = some (stateOf seed) := by
  have found := lookup_of_brings brings (trim_stateOf seed)
  show ((Cookie.pairs r.headers).lookup stateCookie).filter _ = _
  rw [found]
  simpa [Option.filter_some] using stateOf_ne_empty seed

/-! ### The callback -/

/-- Between the limiters and the handler of callbacks stands nothing. -/
theorem respond_of_callback (route : r.path = callbackPath) (get : r.method = "GET")
    (passed : app.entry.Forwards r w r inner f) : ∃ g, Marks g ∧
      inner.metrics.callbacks = w.metrics.callbacks ∧
      app.respond r w = (g (app.callback r inner).1, (app.callback r inner).2) := by
  have allowed : Route.callback.methods.contains r.method = true := by
    rw [get]
    decide
  have spared : (app.entry (answer 200) r w).2.metrics.callbacks = w.metrics.callbacks :=
    sparesCallbacks_entry (.pure _) w
  rw [passed] at spared
  obtain ⟨g, marks, answered⟩ := app.respond_of_forwards (ofPath?_of_callback route) allowed
    (by rw [get]; decide) passed
  rw [inner_of_callback app route, routeFor_of_callback app route allowed] at answered
  exact ⟨g, marks, spared, answered⟩

/-- A link that is a path with a query is read as such. -/
theorem read_link {path q : String} (slash : path.toList.head? = some '/')
    (front : ∀ mark ∈ Url.marks, mark ∉ path.toList) (fits : '#' ∉ q.toList) :
    Target.read (path ++ ("?" ++ q)) = ⟨none, none, path, some q⟩ := by
  have text : (path ++ ("?" ++ q)).toList = path.toList ++ '?' :: q.toList := by
    simp [String.toList_append]
  have noScheme : Target.schemeCut? (path.toList ++ '?' :: q.toList) = none := by
    obtain ⟨rest, begins⟩ := List.head?_eq_some_iff.mp slash
    rw [begins, List.cons_append, Target.schemeCut?]
    · exact if_neg (by decide)
    · intro rest same
      cases same
  have whole : ∀ c ∈ path.toList ++ '?' :: q.toList, decide (c ≠ '#') = true := by
    intro c mem
    refine decide_eq_true ?_
    rintro rfl
    rcases List.mem_append.mp mem with early | late
    · exact front '#' (by simp [Url.marks]) early
    · exact fits ((List.mem_cons.mp late).resolve_left (by decide))
  have cut := Text.cutChars_append (front '?' (by simp [Url.marks])) q.toList
  rw [Target.read, text, noScheme]
  simp only
  rw [Target.ofPathChars, List.takeWhile_eq_self_iff.mpr whole, cut]
  simp

/-- The parameters that a callback reads. -/
theorem params_of_read {code state description : String}
    (read : CallbackParams.read (back.target.query.getD "") = .ok ⟨code, state, "", description⟩) :
    Distinct back ∧ param back "code" = code ∧ param back "state" = state ∧
      param back "error" = "" := by
  have distinct := distinct_of_read read
  have same := (read_of_distinct distinct).symm.trans read
  simp only [paramsOf, Except.ok.injEq, CallbackParams.mk.injEq] at same
  exact ⟨distinct, same.1, same.2.1, same.2.2.1⟩

/-- A code and a state that are sent in a query are read. -/
theorem read_encode (code state : String) :
    CallbackParams.read (Text.Form.encode [("code", code), ("state", state)]) =
      .ok ⟨code, state, "", ""⟩ := by
  rw [CallbackParams.read, Text.Form.decode_encode]
  rfl

/-- **A login that comes back with a grant has the state that its link asked for**, which is the
one that its request brings back. -/
theorem ends_of_comesBack (hosted : app.Hosted) {seed : Seed}
    (brings : Brings back stateCookie (stateOf seed))
    (returns : ComesBack app (app.loginLink r (stateOf seed)) back reached.outside grant o) :
    back.path = callbackPath ∧ Distinct back ∧
      Ends app back reached.outside .success (some grant) o := by
  have found := lookup_of_brings brings (trim_stateOf seed)
  have kept : param back "state" = stateOf seed → KeptState back := by
    intro same
    exact ⟨by rw [found, same], same ▸ stateOf_ne_empty seed⟩
  cases returns with
  | accepted provider asks route read filled accepts =>
      obtain ⟨distinct, rfl, state, error⟩ := params_of_read read
      rw [asked?_loginLink hosted] at asks
      cases asks
      exact ⟨route, distinct, .granted error (kept state) filled provider accepts⟩
  | followed none target =>
      have fits : '#' ∉ (Text.Form.encode [("code", mockCode), ("state", stateOf seed)]).toList :=
        Text.Form.not_mem_encode (by simp) _
      rw [loginLink, none] at target
      simp only at target
      rw [mockLink_eq, read_link (by decide) (fun mark h => Url.of_marks h (by decide)) fits]
        at target
      have read : CallbackParams.read (back.target.query.getD "") =
          .ok ⟨mockCode, stateOf seed, "", ""⟩ := by
        rw [target, Option.getD_some, read_encode]
      obtain ⟨distinct, code, state, error⟩ := params_of_read read
      have route : back.path = callbackPath := by
        rw [Request.path, target]
        rfl
      have ends : Ends app back reached.outside .success
          (some (Grant.ofToken (param back "code"))) reached.outside :=
        .mock error (kept state) (code ▸ by decide) none
      rw [code] at ends
      exact ⟨route, distinct, ends⟩

theorem succeeds_of_ends (route : back.path = callbackPath) (get : back.method = "GET")
    (passed : app.entry.Forwards back later back reached g) (distinct : Distinct back)
    (ends : Ends app back reached.outside .success (some grant) o) :
    Succeeds app back later grant o := by
  obtain ⟨g', marks, spared, answered⟩ := respond_of_callback route get passed
  have concludes := concludes_of_ends distinct ends
  obtain ⟨callbacks, rest⟩ := concludes.rest
  obtain ⟨status, given, seconds, same, lasts, sets, -⟩ := concludes.succeeded rfl
  cases same
  constructor
  case status =>
    rw [answered]
    exact (marks.status _).trans status
  case counted =>
    rw [answered, ← spared]
    exact concludes.counted
  case others =>
    rw [answered, ← spared]
    exact concludes.others
  case left =>
    rw [answered, rest]
  case session =>
    refine ⟨seconds, lasts, ?_⟩
    rw [answered]
    exact (marks.headers _ Response.setCookieName (by decide)).trans sets

/-! ### The session of a mock login -/

/-- Whoever brings the token back is known by it: the gate admits them, and their own page is
shown to them unless a limiter rejects the request. -/
def Recognises (app : App ω) (token : String) (user : User) : Prop :=
  ∀ (me : Request) (w : World ω), me.path = "/api/me" → me.method = "GET" →
    Brings me sessionCookie token → (∃ o, app.meteredGate.Admits w me user o) ∧
      ((∃ named, workspaceOf me = .ok named) → (app.respond me w).1.status = 429 ∨
        (app.respond me w).1.status = 200 ∧ (app.respond me w).1.body = selfBody user)

/-- Where a session is a mock code, the same user is admitted at all times. -/
theorem admits_of_mock (unsigned : app.gate.validator = none) (mock : app.gate.allowMock = true)
    (brings : Brings r sessionCookie mockCode) (w : World ω) :
    ∃ o, app.meteredGate.Admits w r (Mock.claimsOf mockCode) o := by
  have found := lookup_of_brings brings (by decide)
  have active : app.meteredGate.active? = some Mock.validator := by
    show Gate.active? { app.gate with metered := true } = _
    simp only [Gate.active?, unsigned, mock, if_true]
  have session : Gate.sessionOf r = some mockCode := by
    rw [Gate.sessionOf, found]
    decide
  have known : (Mock.claimsOf mockCode).id ≠ Uuid.nil := by decide +kernel
  exact ⟨w.outside, mockCode, session, Mock.validator, Mock.claimsOf mockCode, w.outside, active,
    rfl, .known known⟩

/-- A user who is admitted at all times is shown their own page. -/
theorem recognises_of_admits {token : String} {user : User}
    (admits : ∀ me, Brings me sessionCookie token → ∀ w : World ω,
      ∃ o, app.meteredGate.Admits w me user o) : Recognises app token user := by
  intro me w route get brings
  refine ⟨admits me brings w, ?_⟩
  rintro ⟨named, proper⟩
  have found : Route.ofPath? me.path = some .me := by
    rw [route]
    decide
  have guarded : isProtected me = true := by
    rw [isProtected, found]
    rfl
  have allowed : Route.me.methods.contains me.method = true := by
    rw [get]
    decide
  have handler : app.routeFor me = App.me := by
    rw [routeFor, found]
    exact if_pos allowed
  have answered : app.respond me w = ((app.limited me w).1, (app.limited me w).2) := by
    rw [respond_apply, tellMethods_of_allowed found allowed, Response.answering,
      if_neg (by rw [get]; decide)]
  rw [answered]
  cases app.limited_ending guarded w with
  | rejected status => exact .inl status
  | @signedOut inner f forwards nobody other =>
      obtain ⟨o, known⟩ := admits me brings inner
      exact absurd known (nobody user o)
  | malformed _ _ fault => cases fault.symm.trans proper
  | @handled inner last f g user' o named' forwards own found' marks shown =>
      obtain ⟨o', known⟩ := admits me brings inner
      obtain ⟨rfl, -⟩ := own.unique known
      have seen : (seenBy me user named').context.user = some user := by
        cases named' <;> rfl
      have page : (App.me (seenBy me user named') last).1 =
          .ofJson 200 (.object (user.members ++ [("user", user.profile.toJson)])) := by
        simp only [App.me, withUser, seen]
        rfl
      refine .inr ?_
      rw [shown, handler, marks.status, marks.body, page]
      exact ⟨rfl, rfl⟩

/-- A mock login that succeeds leaves its code with the browser as a session. -/
theorem keepsSession_of_mock (succeeds : Succeeds app back later (Grant.ofToken mockCode) o) :
    KeepsSession (app.respond back later).1 mockCode (app.gate.isSecure back) 3600 := by
  obtain ⟨seconds, lasts, sets⟩ := succeeds.session
  have hour : seconds = 3600 := by
    rcases lasts with ⟨n, given, -⟩ | ⟨-, hour⟩
    · cases given
    · exact hour
  have pair : Pair.WellFormed (sessionCookie, mockCode) := by decide
  rw [hour] at sets
  exact (keepsSession_iff (g := Grant.ofToken mockCode) sets).mpr ⟨by decide, pair.value, by decide⟩

/-- **An honest login always completes.** Whatever random bytes its state is made of, and
whatever the scheme and host of the request and the settings of the provider are, a login that
begins leaves one state in the cookie and in the link of its page, and the callback compares with
it when the browser brings the cookie back. So a login that comes back with a grant succeeds; and
without a provider the session that it leaves is the user's own where mock sessions are
trusted. -/
theorem honest_login_completes (app : App ω) (hosted : app.Hosted) {r : Request}
    {w inner : World ω} {f : Response → Response} (route : r.path = "/login")
    (get : r.method = "GET") (arrives : r.context = {})
    (passed : app.entry.Forwards r w r inner f)
    (unknown : ∀ user o, ¬ app.meteredGate.Admits inner r user o) :
    ∃ link, Begins (app.respond r w).1 (stateOf (w.seeds w.drawn)) link ∧
      ∀ back, Brings back stateCookie (stateOf (w.seeds w.drawn)) →
        (app.gate.jarOf back).state? = some (stateOf (w.seeds w.drawn)) ∧
        ∀ later reached g grant o, back.method = "GET" →
          app.entry.Forwards back later back reached g →
          ComesBack app link back reached.outside grant o →
          Succeeds app back later grant o ∧
          (app.provider = none →
            KeepsSession (app.respond back later).1 mockCode (app.gate.isSecure back) 3600 ∧
            (app.gate.validator = none → app.gate.allowMock = true →
              Recognises app mockCode (Mock.claimsOf mockCode))) := by
  obtain ⟨⟨user, o, admits⟩, -⟩ | ⟨-, begins⟩ := respond_login route get arrives passed
  · exact absurd admits (unknown user o)
  refine ⟨_, begins_of_beginsLogin hosted begins, fun back brings => ?_⟩
  refine ⟨state?_of_brings app.gate brings, ?_⟩
  intro later reached g grant o got forwards returns
  obtain ⟨home, distinct, ends⟩ := ends_of_comesBack hosted brings returns
  have succeeds := succeeds_of_ends home got forwards distinct ends
  refine ⟨succeeds, fun lacks => ?_⟩
  cases returns with
  | accepted provider => cases provider.symm.trans lacks
  | followed =>
      refine ⟨keepsSession_of_mock succeeds, fun unsigned mock => ?_⟩
      exact recognises_of_admits fun me brings => admits_of_mock unsigned mock brings

/-- The state of the first login. -/
def firstState : String := "AAAAAAAAAAAAAAAAAAAAAA"

/-- A request of a browser for a target, with some cookies. -/
def asking (target : Target) (cookies : List Pair) : Request where
  method := "GET"
  target := target
  headers := Cookie.send (("theme", "dark") :: cookies) [("host", Bytes.ofText "flowra.test")]

def firstVisit : Request :=
  asking ⟨none, none, "/login", none⟩ []

def firstReturn (target : Target) : Request :=
  asking target [("flowra_state", firstState)]

/-- An app that trusts mock sessions. -/
def mockApp : App Unit where
  gate := { allowMock := true }

/-- A provider whose address has a state of its own. -/
def ownState : Settings where
  authorizeUrl := "https://idp.flowra/authorize?state=own#top"
  tokenUrl := "https://idp.flowra/token"
  clientId := "flowra web"
  clientSecret := none
  scopes := defaultScopes

/-- An app with a provider that accepts every code. -/
def hostedApp (client : OAuth.Client) : App Unit where
  provider := some (client.provider fun _ w =>
    (some ⟨200, "\x7b\"access_token\":\"t-1\"\x7d"⟩, w))

theorem nobody_visits (app : App Unit) :
    ∀ user o, ¬ app.meteredGate.Admits (.fresh ()) firstVisit user o := by
  rintro user o ⟨token, session, -⟩
  have unsent : Gate.sessionOf firstVisit = none := by decide
  cases unsent.symm.trans session

theorem brings_firstReturn (target : Target) :
    Brings (firstReturn target) stateCookie (stateOf ((World.fresh ()).seeds 0)) := by
  have state : stateOf ((World.fresh ()).seeds 0) = firstState := by decide
  have sent : (firstReturn target).headers = Cookie.send [("theme", "dark"),
      ("flowra_state", firstState)] [("host", Bytes.ofText "flowra.test")] := rfl
  rw [state]
  exact brings_of_sent sent (by decide) (by decide)

/-- The first login completes, by the link of its page or by way of a provider. -/
theorem first_logins_complete :
    mockApp.Hosted ∧ firstVisit.path = "/login" ∧ firstVisit.method = "GET" ∧
      firstVisit.context = {} ∧
      mockApp.entry.Forwards firstVisit (.fresh ()) firstVisit (.fresh ()) id ∧
      (∀ user o, ¬ mockApp.meteredGate.Admits (.fresh ()) firstVisit user o) ∧
      (∃ link, Begins (mockApp.respond firstVisit (.fresh ())).1 firstState link ∧
        Succeeds mockApp (firstReturn (Target.read link)) (.fresh ()) (Grant.ofToken "mock-code")
          () ∧
        Recognises mockApp "mock-code" (Mock.claimsOf "mock-code")) ∧
      ∃ client, OAuth.Client.ofSettings ownState = .ok client ∧ (hostedApp client).Hosted ∧
        ∃ link, Begins ((hostedApp client).respond firstVisit (.fresh ())).1 firstState link ∧
          Succeeds (hostedApp client) (firstReturn ⟨none, none, "/auth/callback",
            some (Text.Form.encode [("code", "c 1"), ("state", firstState)])⟩) (.fresh ())
            ⟨"t-1", none, none, none⟩ () := by
  have state : stateOf ((World.fresh ()).seeds (World.fresh ()).drawn) = firstState := by decide
  have passed : mockApp.entry.Forwards firstVisit (.fresh ()) firstVisit (.fresh ()) id :=
    fun _ => rfl
  refine ⟨.inl rfl, rfl, rfl, rfl, passed, nobody_visits _, ?_, ?_⟩
  · obtain ⟨link, begins, completes⟩ :=
      honest_login_completes mockApp (.inl rfl) rfl rfl rfl passed (nobody_visits _)
    obtain ⟨-, follows⟩ := completes _ (brings_firstReturn (Target.read link))
    obtain ⟨succeeds, session⟩ := follows (.fresh ()) (.fresh ()) id _ _ rfl (fun _ => rfl)
      (.followed rfl rfl)
    rw [state] at begins
    exact ⟨link, begins, succeeds, (session rfl).2 rfl rfl⟩
  · obtain ⟨client, known, -⟩ := Checks.exists_of_view (OAuth.Client.ofSettings ownState)
      (fun _ => ()) () (by decide +kernel)
    have hosted : (hostedApp client).Hosted := .inr ⟨_, _, _, known, rfl⟩
    have passed : (hostedApp client).entry.Forwards firstVisit (.fresh ()) firstVisit (.fresh ())
        id := fun _ => rfl
    have accepts : PostReply.grant ⟨200, "\x7b\"access_token\":\"t-1\"\x7d"⟩ =
        .ok ⟨"t-1", none, none, none⟩ := rfl
    obtain ⟨link, begins, completes⟩ :=
      honest_login_completes (hostedApp client) hosted rfl rfl rfl passed (nobody_visits _)
    rw [state] at begins
    obtain ⟨-, follows⟩ := completes _ (brings_firstReturn ⟨none, none, "/auth/callback",
      some (Text.Form.encode [("code", "c 1"), ("state", firstState)])⟩)
    obtain ⟨succeeds, -⟩ := follows (.fresh ()) (.fresh ()) id ⟨"t-1", none, none, none⟩ () rfl
      (fun _ => rfl) (.accepted rfl begins.asks (by decide) (read_encode _ _) (by decide)
        (congrArg (·, ()) accepts))
    exact ⟨client, known, hosted, link, begins, succeeds⟩

end Gatehouse.App
