import Gatehouse.Proofs.App.DeepLinks

/-!
The session cookie between an app and a browser.

A callback that succeeds writes the granted token into a cookie as it is. A header, a
browser and a jar agree on it only if it has none of the characters that mean something
to one of them (`IsCarried`).

* `callback_cases`: a callback reaches its handler, or gets no cookie and is not counted.
* `sets_of_recorded`: a callback that counts a success sets the cookies of one grant.
* `session_kept_iff_carried`: the browser keeps the session, and is known by it afterwards,
  exactly when the token is carried as it is.
-/

namespace Gatehouse.App

open Http Cookie Auth OAuth
open Response (Marks)

variable {ω : Type} {app : App ω} {r : Request} {w inner : World ω} {f : Response → Response}
  {response : Response} {token : String} {secure : Bool} {seconds : Int}

/-! ### What a browser is told -/

/-- The response has a browser keep the token as its session, under these attributes and no
others, and the browser that sends it back is known by it. -/
structure KeepsSession (response : Response) (token : String) (secure : Bool) (seconds : Int) :
    Prop where
  told : (response.cookies.filter fun c => c.name == sessionCookie) =
    [⟨sessionCookie, token,
      [("HttpOnly", none), ("SameSite", some "Lax")] ++
        (if secure then [("Secure", none)] else []) ++
        [("Path", some "/"), ("Max-Age", some (Text.Decimal.ofInt seconds))]⟩]
  known : ∀ headers secure',
    (Jar.ofHeaders (Cookie.send [(sessionCookie, token)] headers) secure').session? = some token

/-- A token that cookies carry as it is. A header is readable with each of its characters,
none of them ends the value of a cookie, and there are no spaces to drop around it. -/
structure IsCarried (token : String) : Prop where
  filled : token ≠ ""
  readable : ∀ c ∈ token.toList, Value.isReadableChar c = true ∧ c ≠ ';'
  trimmed : SetCookie.trimSpaces token.toList = token.toList

/-! ### Reading it back -/

theorem IsCarried.session? (h : IsCarried token) (headers : Headers) (secure : Bool) :
    (Jar.ofHeaders (Cookie.send [(sessionCookie, token)] headers) secure).session? =
      some token := by
  have carries : Carries (Cookie.send [(sessionCookie, token)] headers) [(sessionCookie, token)] :=
    ⟨[[(sessionCookie, token)]], rfl, Headers.getAll_insert _ _ _⟩
  have named : Pair.WellFormed (sessionCookie, "") := by decide
  have wellFormed : ∀ c ∈ [(sessionCookie, token)], Pair.WellFormed c := by
    intro c hc
    rw [List.mem_singleton.mp hc]
    exact ⟨named.filled, named.name, h.readable⟩
  have trimmed : Text.trim token = token := by
    rw [Text.trim, SetCookie.trimChars_eq_trimSpaces fun c hc => (h.readable c hc).1, h.trimmed,
      String.ofList_toList]
  have found : (Cookie.pairs (Cookie.send [(sessionCookie, token)] headers)).lookup sessionCookie =
      some token := by
    rw [lookup_pairs_of_carries carries wellFormed, List.lookup_cons_self, Option.map_some, trimmed]
  rw [Jar.session?, Jar.read?, Jar.ofHeaders, found]
  simpa [Option.filter_some] using h.filled

/-- A header that is not readable as a whole is not read at all. -/
theorem readable_of_session? {headers : Headers}
    (h : (Jar.ofHeaders (Cookie.send [(sessionCookie, token)] headers) secure).session? =
      some token) : ∀ c ∈ token.toList, Value.isReadableChar c = true := by
  have found : (Cookie.pairs (Cookie.send [(sessionCookie, token)] headers)).lookup sessionCookie =
      some token := (Option.filter_eq_some_iff.mp h).1
  have one : Headers.getAll "cookie" (Cookie.send [(sessionCookie, token)] headers) =
      [Bytes.ofText (Pair.text (sessionCookie, token))] := Headers.getAll_insert _ _ _
  rw [Cookie.pairs, one, List.filterMap_cons, Value.text?_ofText] at found
  by_cases readable : (Pair.text (sessionCookie, token)).toList.all Value.isReadableChar = true
  · intro c hc
    refine List.all_eq_true.mp readable c ?_
    rw [Pair.text, String.toList_append]
    exact List.mem_append_right _ hc
  · rw [if_neg readable] at found
    cases found

/-! ### What is written -/

/-- Of the cookies of a callback that succeeds, the session is the only one of its name. -/
theorem filter_cookies_of_sets {g : Grant} (sets : response.Sets
      (Setting.cleared stateCookie (app.gate.isSecure r) ::
        app.sessionSet r g seconds ++ [Setting.cleared redirectCookie (app.gate.isSecure r)])) :
    (response.cookies.filter fun c => c.name == sessionCookie) =
      (app.sessionSet r g seconds).filterMap fun c => SetCookie.read? c.write := by
  have own : ∀ c ∈ app.sessionSet r g seconds, c.name = sessionCookie := by
    intro c hc
    rw [sessionSet] at hc
    split at hc
    · rw [List.mem_singleton.mp hc]
    · exact absurd hc List.not_mem_nil
  have named : ∀ c ∈ Setting.cleared stateCookie (app.gate.isSecure r) ::
      app.sessionSet r g seconds ++ [Setting.cleared redirectCookie (app.gate.isSecure r)],
      SetCookie.IsName c.name := by
    intro c hc
    simp only [List.cons_append, List.mem_cons, List.mem_append, List.not_mem_nil, or_false] at hc
    rcases hc with rfl | session | rfl
    · exact isName_stateCookie
    · exact own c session ▸ isName_sessionCookie
    · exact isName_redirectCookie
  have state : (stateCookie == sessionCookie) = false := by decide
  have redirect : (redirectCookie == sessionCookie) = false := by decide
  have kept : (app.sessionSet r g seconds).filter (fun c => c.name == sessionCookie) =
      app.sessionSet r g seconds := List.filter_eq_self.mpr fun c hc => by simp [own c hc]
  rw [SetCookie.cookies_filter_of_sets sets named sessionCookie]
  simp [Setting.cleared, state, redirect, kept]

theorem attributes_session (token : String) (secure : Bool) (seconds : Int) :
    Setting.attributes ⟨sessionCookie, token, true, secure, seconds⟩ =
      [("HttpOnly", none), ("SameSite", some "Lax")] ++
        (if secure then [("Secure", none)] else []) ++
        [("Path", some "/"), ("Max-Age", some (Text.Decimal.ofInt seconds))] := by
  cases secure <;> rfl

/-- A browser keeps the session of a grant exactly when the token is carried as it is. -/
theorem keepsSession_iff {g : Grant} (sets : response.Sets
      (Setting.cleared stateCookie (app.gate.isSecure r) ::
        app.sessionSet r g seconds ++ [Setting.cleared redirectCookie (app.gate.isSecure r)])) :
    KeepsSession response g.accessToken (app.gate.isSecure r) seconds ↔
      IsCarried g.accessToken := by
  have written := filter_cookies_of_sets sets
  have read := SetCookie.read?_write_eq_iff isName_sessionCookie
    (c := ⟨sessionCookie, g.accessToken, true, app.gate.isSecure r, seconds⟩)
  rw [attributes_session] at read
  constructor
  · rintro ⟨told, known⟩
    have filled := (Option.filter_eq_some_iff.mp (known [] false)).2
    rw [written, sessionSet] at told
    split at told
    · obtain ⟨c, mem, kept⟩ := List.mem_filterMap.mp (told ▸ List.mem_singleton_self _)
      rw [List.mem_singleton.mp mem] at kept
      obtain ⟨whole, trimmed⟩ := read.mp kept
      refine ⟨by simpa using filled, fun c hc => ⟨?_, fun sep => whole (sep ▸ hc)⟩, trimmed⟩
      exact readable_of_session? (known [] false) c hc
    · cases told
  · intro carried
    have allowed : g.accessToken.toList.all Value.isAllowedChar = true :=
      List.all_eq_true.mpr fun c hc =>
        Value.isAllowedChar_of_isReadableChar (carried.readable c hc).1
    have kept := read.mpr ⟨fun sep => (carried.readable _ sep).2 rfl, carried.trimmed⟩
    refine ⟨?_, carried.session?⟩
    rw [written, sessionSet, if_pos allowed]
    exact List.filterMap_cons_some (f := fun c : Setting => SetCookie.read? c.write) kept

/-! ### Callbacks that succeed -/

/-- The limiters before a route count no callback. -/
theorem sparesCallbacks_entry {next : Handler ω} (h : Act.SparesCallbacks (next r)) :
    Act.SparesCallbacks (app.entry next r) :=
  app.clientLimiter.spares_guard r (app.endpointLimiter.spares_guard r h)

/-- A callback reaches its handler, or it is answered before without a cookie and is not
counted. -/
theorem callback_cases (app : App ω) (route : r.path = callbackPath) (w : World ω) :
    (∃ inner f, app.entry.Forwards r w r inner f ∧
        inner.metrics.callbacks = w.metrics.callbacks ∧
        (app.respond r w).2 = (app.callback r inner).2 ∧
        ∀ cs, (app.callback r inner).1.Sets cs → (app.respond r w).1.Sets cs) ∨
      ((app.respond r w).1.Sets [] ∧
        (app.respond r w).2.metrics.callbacks = w.metrics.callbacks) := by
  have limited : app.limited r w = app.entry (app.routeFor r) r w := by
    rw [limited_eq, around, app.inner_of_callback route]
    rfl
  have told : ∀ {cs}, (app.limited r w).1.Sets cs → (app.respond r w).1.Sets cs :=
    fun sets => Response.Sets.answering (sets_tellMethods sets) r.method
  have spared : (app.entry (answer 200) r w).2.metrics.callbacks = w.metrics.callbacks :=
    sparesCallbacks_entry (.pure _) w
  obtain ⟨inner, f, forwards, marks⟩ | ⟨response, after, answers, -, silent⟩ := app.entry_cases r w
  · rw [forwards] at spared
    have marked : ∀ cs, (app.routeFor r r inner).1.Sets cs → (app.respond r w).1.Sets cs := by
      intro cs sets
      refine told ?_
      rw [limited, forwards]
      exact (marks.headers _ Response.setCookieName (by decide)).trans sets
    have left : (app.respond r w).2 = (app.routeFor r r inner).2 := by
      rw [respond_apply, limited, forwards]
    by_cases allowed : Route.callback.methods.contains r.method = true
    · rw [app.routeFor_of_callback route allowed] at marked left
      exact .inl ⟨inner, f, forwards, spared, left, marked⟩
    · have handler : app.routeFor r = answer 405 := by
        unfold routeFor
        rw [ofPath?_of_callback route]
        exact if_neg allowed
      rw [handler] at marked left
      exact .inr ⟨marked [] (Response.sets_bare 405), by rw [left]; exact spared⟩
  · rw [answers] at spared
    refine .inr ⟨told (by rw [limited, answers]; exact silent), ?_⟩
    rw [respond_apply, limited, answers]
    exact spared

/-- A callback that counts a success sets the cookies of one grant. -/
theorem sets_of_recorded (route : r.path = callbackPath)
    (recorded : (app.respond r w).2.metrics.callbacks.get Outcome.success.label ≠
      w.metrics.callbacks.get Outcome.success.label) :
    ∃ inner f g seconds, app.entry.Forwards r w r inner f ∧
      Ends app r inner.outside .success (some g) (app.respond r w).2.outside ∧ Lasts g seconds ∧
      (app.respond r w).1.Sets (Setting.cleared stateCookie (app.gate.isSecure r) ::
        app.sessionSet r g seconds ++ [Setting.cleared redirectCookie (app.gate.isSecure r)]) := by
  obtain ⟨inner, f, forwards, spared, left, told⟩ | ⟨-, uncounted⟩ := app.callback_cases route w
  · rw [left, ← spared] at recorded
    obtain ⟨outcome, grant, o, ends, concludes⟩ | ⟨-, -, idle⟩ := app.callback_ends r inner
    · have success : outcome = .success := by
        refine Decidable.byContradiction fun other => recorded (concludes.others _ fun same => ?_)
        cases outcome <;> first | exact other rfl | exact absurd same (by decide)
      subst success
      obtain ⟨callbacks, rest⟩ := concludes.rest
      obtain ⟨-, g, seconds, rfl, lasts, sets, -⟩ := concludes.succeeded rfl
      refine ⟨inner, f, g, seconds, forwards, ?_, lasts, told _ sets⟩
      rw [left, rest]
      exact ends
    · rw [idle] at recorded
      exact absurd rfl recorded
  · rw [uncounted] at recorded
    exact absurd rfl recorded

/-- **A session is kept exactly when its token is carried as it is.** Whenever a callback
counts a success, it has a grant, from the provider or made of the code itself. Then the
browser is told of one session cookie with the token as its value and the attributes of a
session and no others, and what it sends back is that session, if and only if the token is
not empty, has readable characters and no `;` in it, and no spaces around it. -/
theorem session_kept_iff_carried (app : App ω) {r : Request} {w : World ω}
    (route : r.path = callbackPath)
    (recorded : (app.respond r w).2.metrics.callbacks.get "success" ≠
      w.metrics.callbacks.get "success") :
    ∃ inner f g seconds, app.entry.Forwards r w r inner f ∧
      Ends app r inner.outside .success (some g) (app.respond r w).2.outside ∧ Lasts g seconds ∧
      (KeepsSession (app.respond r w).1 g.accessToken (app.gate.isSecure r) seconds ↔
        IsCarried g.accessToken) := by
  obtain ⟨inner, f, g, seconds, forwards, ends, lasts, sets⟩ := sets_of_recorded route recorded
  exact ⟨inner, f, g, seconds, forwards, ends, lasts, keepsSession_iff sets⟩

/-- The code of an honest return is kept for an hour. -/
theorem honest_session_is_kept :
    let answered := App.respond ({} : App Unit) honestReturn (.fresh ())
    honestReturn.path = callbackPath ∧
      answered.2.metrics.callbacks.get "success" ≠
        (World.fresh ()).metrics.callbacks.get "success" ∧
      KeepsSession answered.1 "abc" false 3600 := by
  intro answered
  have route : honestReturn.path = callbackPath := by decide
  have recorded : answered.2.metrics.callbacks.get "success" ≠
      (World.fresh ()).metrics.callbacks.get "success" := by decide
  obtain ⟨inner, f, g, seconds, -, ends, lasts, kept⟩ := session_kept_iff_carried {} route recorded
  have token : param honestReturn "code" = "abc" := by decide
  have granted : Ends ({} : App Unit) honestReturn () .success (some (Grant.ofToken "abc")) () :=
    token ▸ .mock (by decide) ⟨by decide, by decide⟩ (by decide) rfl
  obtain ⟨-, same, -⟩ := granted.unique ends
  cases same
  have hour : seconds = 3600 := by
    rcases lasts with ⟨n, given, -⟩ | ⟨-, hour⟩
    · cases given
    · exact hour
  have pair : Pair.WellFormed (sessionCookie, "abc") := by decide
  exact ⟨route, recorded, hour ▸ kept.mpr ⟨by decide, pair.value, by decide⟩⟩

/-- A return with a code that would have a browser send the session to a whole domain. -/
def smugglingReturn : Request where
  method := "GET"
  target := ⟨none, none, "/auth/callback", some "code=abc%3B+Domain%3Dflowra.test&state=S1"⟩
  headers := [("cookie", Bytes.ofText "flowra_state=S1")]

/-- The success is counted, but the browser reads another session and an attribute. -/
theorem smuggled_domain_is_read :
    let answered := App.respond ({} : App Unit) smugglingReturn (.fresh ())
    answered.2.metrics.callbacks.get "success" = 1 ∧
      Ends ({} : App Unit) smugglingReturn () .success
        (some (Grant.ofToken "abc; Domain=flowra.test")) () ∧
      (answered.1.cookies.filter fun c => c.name == "flowra_session") =
        [⟨"flowra_session", "abc", [("Domain", some "flowra.test"), ("HttpOnly", none),
          ("SameSite", some "Lax"), ("Path", some "/"), ("Max-Age", some "3600")]⟩] ∧
      ∀ secure seconds, ¬ KeepsSession answered.1 "abc; Domain=flowra.test" secure seconds := by
  intro answered
  have token : param smugglingReturn "code" = "abc; Domain=flowra.test" := by decide
  have read : (answered.1.cookies.filter fun c => c.name == "flowra_session") =
      [⟨"flowra_session", "abc", [("Domain", some "flowra.test"), ("HttpOnly", none),
        ("SameSite", some "Lax"), ("Path", some "/"), ("Max-Age", some "3600")]⟩] := by decide
  refine ⟨by decide, token ▸ .mock (by decide) ⟨by decide, by decide⟩ (by decide) rfl, read,
    fun secure seconds keeps => ?_⟩
  have value := congrArg (List.map SetCookie.value) (read.symm.trans keeps.told)
  have same : "abc" = "abc; Domain=flowra.test" := (List.cons.inj value).1
  exact absurd same (by decide)

end Gatehouse.App
