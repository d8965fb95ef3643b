import Gatehouse.App.Build
import Gatehouse.Proofs.App.Browser
import Gatehouse.Proofs.App.SessionCookie
import Gatehouse.Proofs.Config

/-!
Whom an app trusts that was built from variables.

The secret decides. With one, sessions are signed tokens, a login goes to the provider, and
no session is given but for a code that the provider took. Without one every token is
trusted, which the variables have to allow.

* `ends_of_session_cookie`: a response gives a session only where a callback succeeded.
* `built_app_trusts_by_secret` is the account of both kinds of apps, which leaves no third.
-/

namespace Gatehouse.App

open Http Cookie Auth OAuth Checks

variable {ω : Type} {app : App ω} {r : Request} {w : World ω} {services : Services ω}
  {vars : Variables} {c : Config}

/-! ### What an app is built from -/

/-- The client of the provider that variables tell of. -/
structure Configures (vars : Variables) (client : OAuth.Client) : Prop where
  authorizeUrl : ∃ text, vars.value? "OAUTH_AUTHORIZE_URL" = some text ∧
    Url.read text = .ok client.authorizeUrl
  tokenUrl : ∃ text, vars.value? "OAUTH_TOKEN_URL" = some text ∧
    Url.read text = .ok client.tokenUrl
  clientId : vars.value? "OAUTH_CLIENT_ID" = some client.clientId
  clientSecret : vars.value? "OAUTH_CLIENT_SECRET" = client.clientSecret
  scopes : (vars.value? "OAUTH_SCOPES").getD defaultScopes = client.scopes

theorem ofConfig_eq_ok (built : ofConfig services c = .ok app) :
    app.gate = gateOf services c ∧ ∃ client, clientOf c = .ok client ∧
      app.provider = client.map fun client => client.provider services.network := by
  simp only [ofConfig, bind_eq_ok, pure_eq_ok] at built
  obtain ⟨server, -, client, reached, rfl⟩ := built
  exact ⟨rfl, client, reached, rfl⟩

/-- The client of an app is that of its variables, if they tell of a provider. -/
theorem clientOf_cases (given : vars.GivesProvider c.provider) {client : Option OAuth.Client}
    (reached : clientOf c = .ok client) :
    (c.provider = none ∧ client = none) ∨
      ∃ own, c.provider.isSome ∧ client = some own ∧ Configures vars own := by
  unfold clientOf at reached
  split at reached
  · rename_i unset
    cases reached
    exact .inl ⟨unset, rfl⟩
  · rename_i settings set
    rw [map_eq_ok] at reached
    obtain ⟨own, read, rfl⟩ := reached
    rw [mapError_eq_ok] at read
    simp only [OAuth.Client.ofSettings, bind_eq_ok, pure_eq_ok] at read
    obtain ⟨authorizeUrl, hAuthorize, tokenUrl, hToken, rfl⟩ := read
    rw [set] at given
    cases given with
    | set authorizeText tokenText clientId =>
        exact .inr ⟨_, by rw [set]; rfl, rfl, ⟨_, authorizeText, hAuthorize⟩,
          ⟨_, tokenText, hToken⟩, clientId, rfl, rfl⟩

/-! ### Where sessions come from -/

theorem not_harmless {s : SetCookie} (named : s.name = sessionCookie) (kept : s.deletes = false) :
    ¬ Harmless s := by
  intro harmless
  rw [(harmless.clears (.inl named)).2] at kept
  cases kept

/-- A response that gives a session answers a callback. -/
theorem path_of_session_cookie {s : SetCookie} (told : s ∈ (app.respond r w).1.cookies)
    (named : s.name = sessionCookie) (kept : s.deletes = false) : r.path = callbackPath := by
  obtain ⟨cs, sets, writes⟩ := respond_writes app r w
  rw [SetCookie.cookies_of_sets sets] at told
  cases writes with
  | quiet quiet => exact absurd (harmless_of_mem quiet s told) (not_harmless named kept)
  | @state seed secure cs path quiet =>
      have read : SetCookie.read? (Setting.write ⟨stateCookie, stateOf seed, true, secure,
          shortMaxAge⟩) = some ⟨stateCookie, stateOf seed, _⟩ :=
        SetCookie.read?_write_of_isPlain isName_stateCookie fun _ hc => isPlain_of_mem_stateOf hc
      rw [List.filterMap_cons, read] at told
      rcases List.mem_cons.mp told with rfl | later
      · exact absurd (show stateCookie = sessionCookie from named) (by decide)
      · exact absurd (harmless_of_mem quiet s later) (not_harmless named kept)
  | session path _ _ => exact path

/-- **A session is given only where a callback succeeded**, in the state of the services
that it found, and they are left as it left them. -/
theorem ends_of_session_cookie {s : SetCookie} (told : s ∈ (app.respond r w).1.cookies)
    (named : s.name = sessionCookie) (kept : s.deletes = false) :
    ∃ inner f g, app.entry.Forwards r w r inner f ∧
      Ends app r inner.outside .success (some g) (app.respond r w).2.outside := by
  have quiet : ∀ cs, (∀ c ∈ cs, Quiet c) → ¬ (app.respond r w).1.Sets cs := by
    intro cs quiet sets
    rw [SetCookie.cookies_of_sets sets] at told
    exact not_harmless named kept (harmless_of_mem quiet s told)
  have noCookies : ∀ c ∈ ([] : List Setting), Quiet c := fun _ hc => absurd hc List.not_mem_nil
  obtain ⟨inner, f, forwards, -, left, sets⟩ | ⟨silent, -⟩ :=
    app.callback_cases (path_of_session_cookie told named kept) w
  · obtain ⟨outcome, grant, o, ends, concludes⟩ | ⟨-, silent, -⟩ :=
      app.callback_ends r inner
    · obtain ⟨callbacks, rest⟩ := concludes.rest
      by_cases success : outcome = .success
      · subst success
        obtain ⟨-, g, seconds, rfl, -⟩ := concludes.succeeded rfl
        refine ⟨inner, f, g, forwards, ?_⟩
        rw [left, rest]
        exact ends
      · by_cases refused : outcome = .providerError
        · exact absurd (sets _ (concludes.refused refused).2) (quiet _ noCookies)
        · refine absurd (sets _ (concludes.failed refused success).2) (quiet _ fun c hc => ?_)
          rw [List.mem_singleton.mp hc]
          exact quiet_clearedState _
    · exact absurd (sets _ silent) (quiet _ noCookies)
  · exact absurd silent (quiet _ noCookies)

/-! ### The two kinds of apps -/

/-- Sessions are signed, and a provider gives them. -/
structure Signs (services : Services ω) (vars : Variables) (secret : String) (app : App ω) :
    Prop where
  /-- The gate has one validator, that of signed tokens. -/
  validator : app.meteredGate.active? = some (Token.validator ⟨Bytes.ofText secret,
    vars.value? "JWT_ISSUER", vars.value? "JWT_AUDIENCE"⟩)
  noMock : app.meteredGate.usesMock = false
  /-- Whoever a token stands for is named by the claims that it is read as. -/
  accepts : ∀ w token user o, app.meteredGate.Accepts w token user o ↔
    ∃ claims, Token.read ⟨Bytes.ofText secret, vars.value? "JWT_ISSUER",
        vars.value? "JWT_AUDIENCE"⟩ (Token.timeOf w.clock) token = .ok claims ∧
      app.meteredGate.Names claims w.outside user o
  /-- A login leads to the provider of the variables, by the one link of its page. -/
  provider : ∃ client, Configures vars client ∧
    app.provider = some (client.provider services.network) ∧
    ∀ r w, r.context.user = none → ∃ state, (app.login r w).1.body =
        (Page.login (client.authorizationUrl (app.returnAddress r) state).write).body ∧
      ∃ page, (app.login r w).1.body = .text page ∧
        Page.links page = [(client.authorizationUrl (app.returnAddress r) state).write]
  /-- A session is only given when the limiters let a callback through and the provider then
  takes its code. -/
  exchanged : ∀ r w, ∀ s ∈ (app.respond r w).1.cookies, s.name = sessionCookie →
    s.deletes = false → ∃ inner f p g, app.entry.Forwards r w r inner f ∧
      app.provider = some p ∧ p.exchange (param r "code") (app.returnAddress r) inner.outside =
        (.ok g, (app.respond r w).2.outside)

/-- Every token is trusted, as the variables allow. -/
structure Mocks (vars : Variables) (app : App ω) : Prop where
  allowed : ∃ value, vars "ALLOW_MOCK_AUTH" = some value ∧
    Text.lowerAscii (Text.trim value) ∈ ["1", "true", "yes"]
  validator : app.meteredGate.active? = some Mock.validator
  mock : app.meteredGate.usesMock = true

theorem validator_eq_ready_iff {rules : Token.Rules} {clock : Clock} {token : String} {o o' : ω}
    {claims : Claims} :
    Token.validator rules clock token o = (.ready claims, o') ↔
      Token.read rules (Token.timeOf clock) token = .ok claims ∧ o' = o := by
  rw [Token.validator, Prod.mk.injEq, eq_comm (a := o)]
  refine and_congr_left fun _ => ?_
  cases Token.read rules (Token.timeOf clock) token <;> simp [Except.mapError, atOnce]

theorem signs_of_secret (reads : Config.Reads vars c) (built : ofConfig services c = .ok app)
    {secret : String} (set : vars.value? "JWT_SECRET" = some secret) :
    Signs services vars secret app := by
  obtain ⟨gate, client, reached, provider⟩ := ofConfig_eq_ok built
  have own : c.jwtSecret = some secret := reads.jwtSecret.trans set
  have validator : app.gate.validator = some (Token.validator ⟨Bytes.ofText secret,
      vars.value? "JWT_ISSUER", vars.value? "JWT_AUDIENCE"⟩) := by
    rw [gate, gateOf, tokenRules?, own, reads.jwtIssuer, reads.jwtAudience]
    rfl
  have active : app.meteredGate.active? = some (Token.validator ⟨Bytes.ofText secret,
      vars.value? "JWT_ISSUER", vars.value? "JWT_AUDIENCE"⟩) := by
    show Gate.active? { app.gate with metered := true } = _
    simp only [Gate.active?, validator]
  obtain ⟨unset, -⟩ | ⟨client', -, rfl, reaches⟩ := clientOf_cases reads.provider reached
  · exact absurd unset (reads.providerSet (by simp [own]))
  · refine ⟨active, ?_, fun w token user o => ?_,
      ⟨client', reaches, provider, fun r w unknown => ?_⟩, fun r w s told named kept => ?_⟩
    · show Gate.usesMock { app.gate with metered := true } = false
      rw [Gate.usesMock, validator]
      rfl
    · simp only [Gate.Accepts, active, Option.some.injEq, exists_and_left, exists_eq_left',
        validator_eq_ready_iff]
      constructor
      · rintro ⟨claims, o₁, ⟨read, rfl⟩, names⟩
        exact ⟨claims, read, names⟩
      · rintro ⟨claims, read, names⟩
        exact ⟨claims, w.outside, ⟨read, rfl⟩, names⟩
    · have body : (app.login r w).1.body = (Page.login (client'.authorizationUrl
          (app.returnAddress r) (stateOf (w.seeds w.drawn))).write).body := by
        rw [login_of_eq_none unknown, Jar.body_apply, loginLink, provider]
        rfl
      exact ⟨_, body, _, body, Page.links_login _⟩
    · obtain ⟨inner, f, g, forwards, ends⟩ := ends_of_session_cookie told named kept
      -- Without a provider nothing is asked, so `mock` has what is left equal what was found.
      generalize (app.respond r w).2.outside = left at ends ⊢
      cases ends with
      | granted _ _ _ given asked => exact ⟨inner, f, _, g, forwards, given, asked⟩
      | mock _ _ _ lacks => exact absurd (provider.symm.trans lacks) (by simp)

theorem mocks_of_no_secret (reads : Config.Reads vars c) (built : ofConfig services c = .ok app)
    (unset : vars.value? "JWT_SECRET" = none) : Mocks vars app ∧ app.gate.validator = none := by
  obtain ⟨gate, -⟩ := ofConfig_eq_ok built
  have unsigned : c.jwtSecret = none := reads.jwtSecret.trans unset
  have allow : c.allowMock = true := reads.mockAllowed unsigned
  have validator : app.gate.validator = none := by
    rw [gate, gateOf, tokenRules?, unsigned]
    rfl
  have trusting : app.gate.allowMock = true := by
    rw [gate]
    exact allow
  obtain ⟨value, set, yes⟩ := Variables.flag_iff.mp (reads.allowMock.symm.trans allow)
  refine ⟨⟨⟨value, (Variables.value?_eq_some_iff.mp set).1, yes⟩, ?_, ?_⟩, validator⟩
  · show Gate.active? { app.gate with metered := true } = _
    simp only [Gate.active?, validator, trusting]
    rfl
  · show Gate.usesMock { app.gate with metered := true } = true
    rw [Gate.usesMock, validator, trusting]
    rfl

/-- A user that a token is found to be is one of whom the validator knows. -/
theorem ready_of_authenticate {g : Gate ω} {validate : Validator ω} {token : String} {user : User}
    {after : World ω} (active : g.active? = some validate)
    (found : g.authenticate token w = (.ok user, after)) :
    ∃ claims o, validate w.clock token w.outside = (.ready claims, o) := by
  rcases asked : validate w.clock token w.outside with ⟨reply, o⟩
  rw [Gate.authenticate_of_some active asked] at found
  cases reply with
  | ready claims => exact ⟨claims, o, rfl⟩
  | failed e => cases found
  | stalled => cases found

/-- **Whom a built app trusts is decided by the secret.** With a secret that is not blank,
sessions are signed and given by the provider, whatever the variables say of mock sessions.
Without one they allow those, and every token is trusted. No app has signed sessions and no
provider, and none finds a user without its validator. -/
theorem built_app_trusts_by_secret (services : Services ω) {vars : Variables} {c : Config}
    {app : App ω} (accepted : Config.ofVariables vars = .ok c)
    (built : ofConfig services c = .ok app) :
    (∀ secret, vars "JWT_SECRET" = some secret → Text.blank secret = false →
      Signs services vars secret app) ∧
    ((¬ ∃ secret, vars "JWT_SECRET" = some secret ∧ Text.blank secret = false) →
      Mocks vars app) ∧
    ¬ (app.provider = none ∧ app.gate.validator.isSome) ∧
    ∃ validate, app.meteredGate.active? = some validate ∧
      ∀ token w user after, app.meteredGate.authenticate token w = (.ok user, after) →
        ∃ claims o, validate w.clock token w.outside = (.ready claims, o) := by
  have reads := Config.ofVariables_eq_ok_iff.mp accepted
  cases set : vars.value? "JWT_SECRET" with
  | none =>
      obtain ⟨mocks, unsigned⟩ := mocks_of_no_secret reads built set
      refine ⟨fun secret given filled => ?_, fun _ => mocks, fun no => ?_, _, mocks.validator,
        fun token w user after => ready_of_authenticate mocks.validator⟩
      · cases set.symm.trans (Variables.value?_eq_some_iff.mpr ⟨given, filled⟩)
      · rw [unsigned] at no
        cases no.2
  | some secret =>
      have signs := signs_of_secret reads built set
      obtain ⟨given, filled⟩ := Variables.value?_eq_some_iff.mp set
      refine ⟨fun other own _ => ?_, fun unset => absurd ⟨secret, given, filled⟩ unset,
        fun no => ?_, _, signs.validator,
        fun token w user after => ready_of_authenticate signs.validator⟩
      · cases given.symm.trans own
        exact signs
      · obtain ⟨client, -, provider, -⟩ := signs.provider
        cases provider.symm.trans no.1

/-- Variables with a secret and a provider, which allow mock sessions besides. -/
def signedVariables : Variables := fun name =>
  [("JWT_SECRET", "k"), ("JWT_ISSUER", " "), ("ALLOW_MOCK_AUTH", "true"),
    ("OAUTH_AUTHORIZE_URL", "https://idp.flowra/authorize"),
    ("OAUTH_TOKEN_URL", "https://idp.flowra/token"), ("OAUTH_CLIENT_ID", "flowra")].lookup name

/-- Services that never reply. -/
def silentServices : Services Unit where
  memory := ⟨fun _ _ _ w => (.stalled, w), fun _ _ w => (.stalled, w), fun _ _ w => (.stalled, w)⟩
  client _ :=
    ⟨fun _ _ _ w => (.stalled, w), fun _ _ w => (.stalled, w), fun _ _ w => (.stalled, w)⟩
  ping _ w := (false, w)
  network _ w := (none, w)
  resolver _ _ _ w := (.stalled, w)

/-- The secret counts for more than the leave to mock. -/
theorem signed_variables_sign :
    ∃ c app, Config.ofVariables signedVariables = .ok c ∧ ofConfig silentServices c = .ok app ∧
      c.allowMock = true ∧ Signs silentServices signedVariables "k" app := by
  obtain ⟨c, accepted, seen⟩ := exists_of_view (Config.ofVariables signedVariables)
    (fun c => (c.allowMock, (ofConfig silentServices c).toOption.map fun _ => ()))
    (true, some ()) (by decide +kernel)
  rw [Prod.mk.injEq] at seen
  obtain ⟨app, built, -⟩ := exists_of_view (ofConfig silentServices c) _ _ seen.2
  have trusts := built_app_trusts_by_secret silentServices accepted built
  exact ⟨c, app, accepted, built, seen.1, trusts.1 "k" rfl (by decide)⟩

end Gatehouse.App
