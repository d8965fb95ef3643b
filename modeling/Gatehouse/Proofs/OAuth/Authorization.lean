import Gatehouse.OAuth.Client
import Gatehouse.Proofs.Url

/-!
Where a login goes on.

A provider is asked at its own address, and the address may have a query and a fragment of
its own. Five pairs are put behind the query, and whatever they hold, a `&`, a `#` or any
other character, they are read back as they are: the rest of the address is as it was.

* `Client.ofSettings_eq_ok`: the client of a provider is there if both addresses can be read.
* `authorization_adds_pairs`: its link differs from the address of the provider by the five
  pairs only.
-/

namespace Gatehouse.OAuth

open Text

variable {s : Settings} {u v : Url} {c : Client}

/-- A client keeps what was read of its settings. -/
theorem Client.ofSettings_eq_ok : Client.ofSettings s = .ok c ↔
    ∃ u v, Url.read s.authorizeUrl = .ok u ∧ Url.read s.tokenUrl = .ok v ∧
      c = ⟨u, v, s.clientId, s.clientSecret, s.scopes⟩ := by
  simp only [Client.ofSettings, Checks.bind_eq_ok, Checks.pure_eq_ok]
  constructor
  · rintro ⟨u, first, v, second, rfl⟩
    exact ⟨u, v, first, second, rfl⟩
  · rintro ⟨u, v, first, second, rfl⟩
    exact ⟨u, first, v, second, rfl⟩

/-- **A login goes on at the address of its provider**: the link has its scheme, its authority, its
path and its fragment, and behind the pairs of its own query the five pairs of the login, with the
values that were given. -/
theorem authorization_adds_pairs (authorize : Url.read s.authorizeUrl = .ok u)
    (token : Url.read s.tokenUrl = .ok v) {ω : Type} (network : Network ω)
    (redirectUri state : String) :
    ∃ c q, Client.ofSettings s = .ok c ∧
      c.authorizationUrl redirectUri state = { u with query := some q } ∧
      Form.decode q = u.queryPairs ++ [("response_type", "code"), ("client_id", s.clientId),
        ("redirect_uri", redirectUri), ("scope", s.scopes), ("state", state)] ∧
      Url.parts ((c.provider network).authorizationUrl redirectUri state) =
        (u.front, some q, u.fragment) ∧
      Url.parts u.write = (u.front, u.query, u.fragment) := by
  let c : Client := ⟨u, v, s.clientId, s.clientSecret, s.scopes⟩
  obtain ⟨lacks, own⟩ := Url.lacks_of_read authorize
  obtain ⟨q, added, fits, decoded⟩ := Url.addQuery_spec own (c.loginPairs redirectUri state)
  have known : Client.ofSettings s = .ok c :=
    Client.ofSettings_eq_ok.mpr ⟨u, v, authorize, token, rfl⟩
  have others : ∀ mark ∈ Url.marks, Url.Lacks mark { u with query := some q } :=
    fun mark h => (lacks mark h).withQuery (some q)
  have link : (c.provider network).authorizationUrl redirectUri state =
      Url.write { u with query := some q } := congrArg Url.write added
  have whole : ∀ p, some q = some p → '#' ∉ p.toList := by
    rintro _ ⟨⟩
    exact fits
  refine ⟨c, q, known, added, decoded, ?_, Url.parts_write lacks own⟩
  rw [link]
  exact Url.parts_write others whole

/-- A provider with a query and a fragment in its address, and marks in what it is told. -/
def tenant : Settings where
  authorizeUrl := "https://idp.flowra:8443/log in?tenant=a%20b&&flag#top"
  tokenUrl := "https://idp.flowra/token"
  clientId := "flowra & web=1+1%"
  clientSecret := none
  scopes := "openid été"

/-- A network that no reply comes back from. -/
def silent : Network Unit :=
  fun _ w => (none, w)

/-- A login goes on behind the query of a provider, before its fragment. -/
theorem login_behind_own_query :
    ∃ c q, Client.ofSettings tenant = .ok c ∧
      Form.decode q = [("tenant", "a b"), ("flag", ""), ("response_type", "code"),
        ("client_id", "flowra & web=1+1%"), ("redirect_uri", "https://app.flowra/cb?x#y"),
        ("scope", "openid été"), ("state", "a&b #1")] ∧
      Url.parts ((c.provider silent).authorizationUrl "https://app.flowra/cb?x#y" "a&b #1") =
        ("https://idp.flowra:8443/log%20in", some q, some "top") := by
  obtain ⟨u, authorize, seen⟩ := Checks.exists_of_view (Url.read tenant.authorizeUrl)
    (fun u => (u.front, u.queryPairs, u.fragment))
    ("https://idp.flowra:8443/log%20in", [("tenant", "a b"), ("flag", "")], some "top")
    (by decide +kernel)
  obtain ⟨v, token, -⟩ := Checks.exists_of_view (Url.read tenant.tokenUrl) (fun _ => ()) ()
    (by decide +kernel)
  simp only [Prod.mk.injEq] at seen
  obtain ⟨front, pairs, fragment⟩ := seen
  obtain ⟨c, q, known, -, decoded, link, -⟩ := authorization_adds_pairs authorize token
    silent "https://app.flowra/cb?x#y" "a&b #1"
  rw [pairs] at decoded
  rw [front, fragment] at link
  exact ⟨c, q, known, decoded, link⟩

end Gatehouse.OAuth
