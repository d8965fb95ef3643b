import Gatehouse.Config
import Gatehouse.Proofs.Checks
import Gatehouse.Proofs.Text.Decimal

/-!
What variables have to say for there to be settings.

Settings are those of some variables when each of them is what its variables give, and the
rules between them hold (`Config.Reads`). They are read from these variables then, and
only then.

* `Config.ofVariables_eq_ok_iff` is the account of the reader.
-/

namespace Gatehouse

open Checks

namespace Variables

variable {vars : Variables} {name value : String}

theorem value?_eq_some_iff :
    vars.value? name = some value ↔ vars name = some value ∧ Text.blank value = false := by
  simp [value?, Option.filter_eq_some_iff]

/-- A variable says yes by one of three words, whatever their case. -/
theorem flag_iff :
    vars.flag name = true ↔ ∃ value, vars.value? name = some value ∧
      Text.lowerAscii (Text.trim value) ∈ ["1", "true", "yes"] := by
  unfold flag
  cases vars.value? name with
  | none => simp
  | some value => simp only [Option.some.injEq, exists_eq_left', List.contains_iff_mem]

/-- A number that is given fits 64 bits, if the default does. -/
theorem number_le {default n : Nat} (fits : default ≤ Text.Decimal.max64)
    (read : vars.number name default = .ok n) : n ≤ Text.Decimal.max64 := by
  unfold number at read
  split at read
  · cases read
    exact fits
  · exact Text.Decimal.readNat_le (mapError_eq_ok.mp read)

theorem windowSeconds_eq_ok_iff {seconds : Nat} :
    vars.windowSeconds = .ok seconds ↔
      vars.number "RATE_LIMIT_WINDOW_SECS" 60 = .ok seconds ∧ seconds ≠ 0 := by
  simp only [windowSeconds, bind_eq_ok, unless_eq_ok, pure_eq_ok]
  constructor
  · rintro ⟨_, read, positive, rfl⟩
    exact ⟨read, positive⟩
  · rintro ⟨read, positive⟩
    exact ⟨seconds, read, positive, rfl⟩

theorem secret_eq_ok_iff {secret : Option String} :
    vars.secret = .ok secret ↔
      secret = vars.value? "JWT_SECRET" ∧ (secret = none → vars.flag "ALLOW_MOCK_AUTH" = true) := by
  simp only [Variables.secret, unless_eq_ok, pure_eq_ok]
  constructor
  · rintro ⟨allowed, rfl⟩
    refine ⟨rfl, fun unset => ?_⟩
    simpa [unset] using allowed
  · rintro ⟨rfl, allowed⟩
    refine ⟨fun no => ?_, rfl⟩
    simp [allowed no.1] at no

/-- The provider that three variables give, which are set together. -/
inductive GivesProvider (vars : Variables) : Option OAuth.Settings → Prop
  | set {authorizeUrl tokenUrl clientId : String} :
      vars.value? "OAUTH_AUTHORIZE_URL" = some authorizeUrl →
      vars.value? "OAUTH_TOKEN_URL" = some tokenUrl →
      vars.value? "OAUTH_CLIENT_ID" = some clientId →
      GivesProvider vars (some ⟨authorizeUrl, tokenUrl, clientId, vars.value? "OAUTH_CLIENT_SECRET",
        (vars.value? "OAUTH_SCOPES").getD OAuth.defaultScopes⟩)
  | unset : vars.value? "OAUTH_AUTHORIZE_URL" = none → vars.value? "OAUTH_TOKEN_URL" = none →
      vars.value? "OAUTH_CLIENT_ID" = none → GivesProvider vars none

theorem provider_eq_ok_iff {provider : Option OAuth.Settings} :
    vars.provider = .ok provider ↔ vars.GivesProvider provider := by
  constructor
  · intro read
    unfold Variables.provider at read
    split at read
    · rename_i authorizeUrl tokenUrl clientId
      cases read
      exact .set authorizeUrl tokenUrl clientId
    · rename_i authorizeUrl tokenUrl clientId
      cases read
      exact .unset authorizeUrl tokenUrl clientId
    · cases read
  · rintro (⟨authorizeUrl, tokenUrl, clientId⟩ | ⟨authorizeUrl, tokenUrl, clientId⟩)
    · simp only [Variables.provider, authorizeUrl, tokenUrl, clientId]
    · simp only [Variables.provider, authorizeUrl, tokenUrl, clientId]

theorem landing_eq_ok_iff {landing : String} :
    vars.landing = .ok landing ↔
      landing = (vars.value? "POST_LOGIN_PATH").getD "/workspaces" ∧
        landing.toList.head? = some '/' := by
  simp only [Variables.landing, unless_eq_ok, pure_eq_ok, ne_eq, Decidable.not_not]
  constructor
  · rintro ⟨isLocal, rfl⟩
    exact ⟨rfl, isLocal⟩
  · rintro ⟨rfl, isLocal⟩
    exact ⟨isLocal, rfl⟩

end Variables

namespace Config

variable {vars : Variables} {c : Config}

/-- The settings that variables give: each is what its own variables give, and sessions
are signed with a secret that comes with a provider, or mock sessions are allowed. -/
structure Reads (vars : Variables) (c : Config) : Prop where
  port : vars.port = .ok c.port
  redisUrl : c.redisUrl = vars.value? "REDIS_URL"
  keyFront : c.keyFront = (vars.value? "RATE_LIMIT_PREFIX").getD Client.defaultKeyPrefix
  limit : vars.number "RATE_LIMIT_REQUESTS" 100 = .ok c.limit
  burst : vars.number "RATE_LIMIT_BURST" 20 = .ok c.burst
  window : ∃ seconds, vars.number "RATE_LIMIT_WINDOW_SECS" 60 = .ok seconds ∧ seconds ≠ 0 ∧
    c.window = Span.seconds seconds
  skipPaths : c.skipPaths = vars.parts "RATE_LIMIT_SKIP_PATHS" ["/health"]
  workspaceLimit : vars.number "WORKSPACE_RATE_LIMIT" 1000 = .ok c.workspaceLimit
  storeDeadline : ∃ millis, vars.number "STORE_TIMEOUT_MS" 250 = .ok millis ∧
    c.storeDeadline = Span.millis millis
  authDeadline : ∃ millis, vars.number "AUTH_TIMEOUT_MS" 2000 = .ok millis ∧
    c.authDeadline = Span.millis millis
  allowMock : c.allowMock = vars.flag "ALLOW_MOCK_AUTH"
  jwtSecret : c.jwtSecret = vars.value? "JWT_SECRET"
  jwtIssuer : c.jwtIssuer = vars.value? "JWT_ISSUER"
  jwtAudience : c.jwtAudience = vars.value? "JWT_AUDIENCE"
  provider : vars.GivesProvider c.provider
  trustProxy : c.trustProxy = vars.flag "TRUST_FORWARDED_PROTO"
  landing : c.landing = (vars.value? "POST_LOGIN_PATH").getD "/workspaces"
  mockAllowed : c.jwtSecret = none → c.allowMock = true
  providerSet : c.jwtSecret ≠ none → c.provider ≠ none
  slashed : c.landing.toList.head? = some '/'

/-- **Settings are read from variables that give them.** -/
theorem ofVariables_eq_ok_iff : ofVariables vars = .ok c ↔ Reads vars c := by
  simp only [ofVariables, bind_eq_ok, unless_eq_ok, pure_eq_ok, Variables.windowSeconds_eq_ok_iff,
    Variables.secret_eq_ok_iff, Variables.provider_eq_ok_iff, Variables.landing_eq_ok_iff]
  constructor
  · rintro ⟨port, hPort, limit, hLimit, burst, hBurst, seconds, ⟨hSeconds, positive⟩,
      workspaceLimit, hWorkspace, storeMillis, hStore, authMillis, hAuth, secret,
      ⟨rfl, allowed⟩, provider, hProvider, together, landing, ⟨rfl, slashed⟩, rfl⟩
    exact ⟨hPort, rfl, rfl, hLimit, hBurst, ⟨seconds, hSeconds, positive, rfl⟩, rfl, hWorkspace,
      ⟨storeMillis, hStore, rfl⟩, ⟨authMillis, hAuth, rfl⟩, rfl, rfl, rfl, rfl, hProvider, rfl, rfl,
      allowed, fun set unset => together
        ⟨Option.isSome_iff_ne_none.mpr set, Option.isNone_iff_eq_none.mpr unset⟩, slashed⟩
  · intro h
    obtain ⟨seconds, hSeconds, positive, window⟩ := h.window
    obtain ⟨storeMillis, hStore, storeDeadline⟩ := h.storeDeadline
    obtain ⟨authMillis, hAuth, authDeadline⟩ := h.authDeadline
    refine ⟨c.port, h.port, c.limit, h.limit, c.burst, h.burst, seconds, ⟨hSeconds, positive⟩,
      c.workspaceLimit, h.workspaceLimit, storeMillis, hStore, authMillis, hAuth, c.jwtSecret,
      ⟨h.jwtSecret, fun unset => h.allowMock ▸ h.mockAllowed unset⟩, c.provider, h.provider, ?_,
      c.landing, ⟨h.landing, h.slashed⟩, ?_⟩
    · rw [Option.isSome_iff_ne_none, Option.isNone_iff_eq_none]
      exact fun no => h.providerSet no.1 no.2
    · rw [← h.redisUrl, ← h.keyFront, ← h.skipPaths, ← h.allowMock, ← h.jwtIssuer,
        ← h.jwtAudience, ← h.trustProxy, ← window, ← storeDeadline, ← authDeadline]

end Config

end Gatehouse
