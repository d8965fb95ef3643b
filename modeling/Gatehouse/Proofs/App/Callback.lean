import Gatehouse.App.Login
import Gatehouse.Proofs.Assoc
import Gatehouse.Proofs.Auth.Jar
import Gatehouse.Proofs.Http.Response
import Gatehouse.Proofs.Layer
import Gatehouse.Proofs.Page
import Mathlib.Logic.ExistsUnique

/-!
What a callback comes to.

The parameters of the query, the state that was kept and the reply of the
provider decide one outcome, the first that applies (`App.Ends`). All else follows
from the outcome: what is counted, which cookies are written, and where the page that
is shown leads (`App.Concludes`).

* `CallbackParams.read_of_distinct` reads the parameters off the query.
* `callback_takes_one_outcome` is the account of the handler.
-/

namespace Gatehouse.App

open Http Cookie Auth OAuth

variable {ω : Type}

/-! ### Outcomes -/

/-- The value of a parameter of a request: empty without one. -/
def param (r : Request) (name : String) : String :=
  ((Text.Form.decode (r.target.query.getD "")).lookup name).getD ""

/-- No parameter of a callback stands twice in the query. A callback with such a
query is not looked at. -/
def Distinct (r : Request) : Prop :=
  (((Text.Form.decode (r.target.query.getD "")).map Prod.fst).filter
    CallbackParams.names.contains).Nodup

/-- The state that came back is the one in the state cookie, and not empty. -/
def KeptState (r : Request) : Prop :=
  (Cookie.pairs r.headers).lookup stateCookie = some (param r "state") ∧ param r "state" ≠ ""

/-- The path in the redirect cookie, which has to be local. -/
def KeptPath (r : Request) (path : String) : Prop :=
  isLocalPath path = true ∧
    ∃ value, (Cookie.pairs r.headers).lookup redirectCookie = some value ∧
      Text.Percent.decodeText? value = some path

/-- The outcome of a callback, the grant if there is one, and the state that the
services are left in. The provider is asked once where the exchange fails or a
grant is given, and else not at all. -/
inductive Ends (app : App ω) (r : Request) (o : ω) : Outcome → Option Grant → ω → Prop
  | providerError : param r "error" ≠ "" → Ends app r o .providerError none o
  | stateMismatch : param r "error" = "" → ¬ KeptState r → Ends app r o .stateMismatch none o
  | missingCode : param r "error" = "" → KeptState r → param r "code" = "" →
      Ends app r o .missingCode none o
  | exchangeFailed {p : Provider ω} {fault : ExchangeFault} {o' : ω} :
      param r "error" = "" → KeptState r → param r "code" ≠ "" → app.provider = some p →
      p.exchange (param r "code") (app.returnAddress r) o = (.error fault, o') →
      Ends app r o .exchangeFailed none o'
  | granted {p : Provider ω} {g : Grant} {o' : ω} :
      param r "error" = "" → KeptState r → param r "code" ≠ "" → app.provider = some p →
      p.exchange (param r "code") (app.returnAddress r) o = (.ok g, o') →
      Ends app r o .success (some g) o'
  | mock : param r "error" = "" → KeptState r → param r "code" ≠ "" → app.provider = none →
      Ends app r o .success (some (Grant.ofToken (param r "code"))) o

/-- A session lasts as long as the grant says, or an hour. -/
def Lasts (g : Grant) (seconds : Int) : Prop :=
  (∃ n, g.expiresIn = some n ∧ 0 < n ∧ seconds = n) ∨
    ((∀ n, g.expiresIn = some n → n ≤ 0) ∧ seconds = 3600)

/-- The cookie of a session, which is left out where no header can hold the
token. -/
def sessionSet (app : App ω) (r : Request) (g : Grant) (seconds : Int) : List Setting :=
  if g.accessToken.toList.all Value.isAllowedChar then
    [⟨sessionCookie, g.accessToken, true, app.gate.isSecure r, seconds⟩]
  else []

/-- What follows from the outcome of a callback. -/
structure Concludes (app : App ω) (r : Request) (w : World ω) (outcome : Outcome)
    (grant : Option Grant) (o : ω) (response : Response) (after : World ω) : Prop where
  counted : after.metrics.callbacks.get outcome.label =
    w.metrics.callbacks.get outcome.label + 1
  others : ∀ label, label ≠ outcome.label →
    after.metrics.callbacks.get label = w.metrics.callbacks.get label
  rest : ∃ callbacks, after = { w with metrics := { w.metrics with callbacks }, outside := o }
  refused : outcome = .providerError → response.status = 400 ∧ response.Sets []
  failed : outcome ≠ .providerError → outcome ≠ .success →
    response.status = 400 ∧
      response.Sets [Setting.cleared stateCookie (app.gate.isSecure r)]
  succeeded : outcome = .success → response.status = 200 ∧
    ∃ g seconds, grant = some g ∧ Lasts g seconds ∧
      response.Sets (Setting.cleared stateCookie (app.gate.isSecure r) ::
        app.sessionSet r g seconds ++ [Setting.cleared redirectCookie (app.gate.isSecure r)]) ∧
      ((∀ c ∈ g.accessToken.toList, Text.isControl c = false) → app.sessionSet r g seconds =
        [⟨sessionCookie, g.accessToken, true, app.gate.isSecure r, seconds⟩])
  /-- A success shows the page of a finished login. -/
  shown : outcome = .success → ∃ target, response.body = (Page.callback target).body
  local_ : outcome = .success → ∀ path, KeptPath r path →
    ∃ page, response.body = .text page ∧ Page.Leads page path
  elsewhere : outcome = .success → (¬ ∃ path, KeptPath r path) →
    ∃ page, response.body = .text page ∧ Page.Leads page app.landing

/-! ### Parameters -/

theorem repeated?_eq_none {seen names : List String} :
    CallbackParams.repeated? seen names = none ↔
      names.Nodup ∧ ∀ name ∈ names, name ∉ seen := by
  induction names generalizing seen with
  | nil => simp [CallbackParams.repeated?]
  | cons name rest ih =>
      rw [CallbackParams.repeated?]
      split
      · rename_i known
        simp only [reduceCtorEq, false_iff, not_and, not_forall]
        exact fun _ => ⟨name, List.mem_cons_self, by simpa using known⟩
      · rename_i fresh
        rw [ih, List.nodup_cons]
        have unseen : name ∉ seen := by simpa using fresh
        constructor
        · rintro ⟨nodup, apart⟩
          refine ⟨⟨fun again => apart name again List.mem_cons_self, nodup⟩, fun n hn => ?_⟩
          rcases List.mem_cons.mp hn with rfl | later
          · exact unseen
          · exact fun known => apart n later (List.mem_cons_of_mem _ known)
        · rintro ⟨⟨alone, nodup⟩, apart⟩
          refine ⟨nodup, fun n hn known => ?_⟩
          rcases List.mem_cons.mp known with rfl | earlier
          · exact alone hn
          · exact apart n (List.mem_cons_of_mem _ hn) earlier

/-- The parameters of a callback. -/
def paramsOf (r : Request) : CallbackParams :=
  ⟨param r "code", param r "state", param r "error", param r "error_description"⟩

/-- Where no parameter is repeated, the parameters are those of the query. -/
theorem read_of_distinct {r : Request} (distinct : Distinct r) :
    CallbackParams.read (r.target.query.getD "") = .ok (paramsOf r) := by
  have kept : ∀ name ∈ CallbackParams.names,
      ((Text.Form.decode (r.target.query.getD "")).filter
        fun p => CallbackParams.names.contains p.1).lookup name =
        (Text.Form.decode (r.target.query.getD "")).lookup name :=
    fun name known => Assoc.lookup_filter_key (by simpa using known) _
  have once : CallbackParams.repeated? [] (((Text.Form.decode (r.target.query.getD "")).filter
      fun p => CallbackParams.names.contains p.1).map Prod.fst) = none := by
    refine repeated?_eq_none.mpr ⟨?_, fun _ _ => List.not_mem_nil⟩
    rw [Distinct, List.filter_map] at distinct
    exact distinct
  simp only [CallbackParams.read, once, kept "code" (by decide), kept "state" (by decide),
    kept "error" (by decide), kept "error_description" (by decide), paramsOf, param]

/-! ### The handler -/

section Handler

variable {app : App ω} {r : Request} {w : World ω} {o o' : ω} {outcome : Outcome}
  {grant : Option Grant}

theorem callback_of_distinct (distinct : Distinct r) :
    app.callback r = app.finishLogin (paramsOf r) r := by
  rw [callback, read_of_distinct distinct]

theorem getD_state? (g : Gate ω) (r : Request) :
    (g.jarOf r).state?.getD "" = ((Cookie.pairs r.headers).lookup stateCookie).getD "" := by
  show (((Cookie.pairs r.headers).lookup stateCookie).filter fun v => !v.isEmpty).getD "" = _
  cases (Cookie.pairs r.headers).lookup stateCookie with
  | none => rfl
  | some kept => by_cases empty : kept = "" <;> simp [Option.filter_some, empty]

theorem statesMatch_iff (g : Gate ω) (r : Request) :
    statesMatch ((g.jarOf r).state?.getD "") (param r "state") = true ↔ KeptState r := by
  rw [getD_state?, KeptState, statesMatch, Bool.and_eq_true, beq_iff_eq]
  cases (Cookie.pairs r.headers).lookup stateCookie with
  | none => simp
  | some kept =>
      simp only [Option.getD_some, Option.some.injEq]
      constructor
      · rintro ⟨filled, rfl⟩
        exact ⟨rfl, by simpa using filled⟩
      · rintro ⟨rfl, filled⟩
        exact ⟨by simpa using filled, rfl⟩

theorem isWritable_clearedState (secure : Bool) :
    (Setting.cleared stateCookie secure).isWritable = true :=
  SetCookie.isWritable_cleared isName_stateCookie secure

theorem isWritable_clearedRedirect (secure : Bool) :
    (Setting.cleared redirectCookie secure).isWritable = true :=
  SetCookie.isWritable_cleared isName_redirectCookie secure

theorem fail_apply (jar : Jar) : app.fail outcome jar w =
    (jar.apply (Page.failure app.gate.loginPath outcome.message),
      { w with metrics := w.metrics.recordCallback outcome.label }) := rfl

theorem succeed_apply (g : Grant) (jar : Jar) : app.succeed g jar w =
    (((jar.setSession g.accessToken g.maxAge).clearRedirect).apply
        (Page.callback (app.targetOf jar)),
      { w with metrics := w.metrics.recordCallback Outcome.success.label }) := rfl

/-- How a failure ends, by the cookies that the jar has by then. -/
theorem concludes_of_fail {jar : Jar} (end_ : outcome ≠ .success)
    (outgoing : jar.outgoing = if outcome = .providerError then []
      else [Setting.cleared stateCookie (app.gate.isSecure r)]) :
    Concludes app r w outcome none o
      (app.fail outcome jar { w with outside := o }).1
      (app.fail outcome jar { w with outside := o }).2 := by
  rw [fail_apply]
  have sets : (jar.apply (Page.failure app.gate.loginPath outcome.message)).Sets
      (jar.outgoing.filter Setting.isWritable) := Jar.sets_apply (Response.sets_ofText _ _ _)
  constructor
  case counted => simp [Metrics.recordCallback, Tally.get_bump]
  case others =>
    intro label ne
    simp [Metrics.recordCallback, Tally.get_bump, ne]
  case rest => exact ⟨w.metrics.callbacks.bump outcome.label, rfl⟩
  case refused =>
    intro first
    rw [outgoing, if_pos first] at sets
    exact ⟨rfl, sets⟩
  case failed =>
    intro later _
    rw [outgoing, if_neg later, List.filter_singleton, isWritable_clearedState] at sets
    exact ⟨rfl, sets⟩
  all_goals exact fun yes => absurd yes end_

theorem lasts_maxAge (g : Grant) : Lasts g g.maxAge := by
  rw [Grant.maxAge]
  cases given : g.expiresIn with
  | none => exact .inr ⟨by simp [given], rfl⟩
  | some n =>
      by_cases positive : 0 < n
      · exact .inl ⟨n, given, positive, if_pos positive⟩
      · refine .inr ⟨fun m hm => ?_, if_neg positive⟩
        cases given.symm.trans hm
        exact Int.not_lt.mp positive

theorem redirect?_iff (g : Gate ω) (r : Request) (path : String) :
    (g.jarOf r).clearState.redirect?.filter isLocalPath = some path ↔ KeptPath r path := by
  show (((((Cookie.pairs r.headers).lookup redirectCookie).filter fun v => !v.isEmpty).bind
    Text.Percent.decodeText?).filter isLocalPath) = some path ↔ _
  rw [Option.filter_eq_some_iff, KeptPath, and_comm]
  refine and_congr_right fun isLocal => ?_
  cases (Cookie.pairs r.headers).lookup redirectCookie with
  | none => simp
  | some value =>
      by_cases empty : value = ""
      · -- An empty value spells the empty path, which is not local.
        have nowhere : Text.Percent.decodeText? "" = some "" := by decide
        have notLocal : isLocalPath "" = false := by decide
        simp only [empty, Option.some.injEq, exists_eq_left', nowhere]
        constructor
        · intro no
          cases no
        · rintro rfl
          exact absurd isLocal (by simp [notLocal])
      · simp [Option.filter_some, empty]

/-- The cookies of a success: the session is left out where no header can hold it. -/
theorem sets_succeed (app : App ω) (r : Request) (g : Grant) {page : Response}
    (plain : page.Sets []) :
    (((app.gate.jarOf r).clearState.setSession g.accessToken g.maxAge).clearRedirect.apply
      page).Sets (Setting.cleared stateCookie (app.gate.isSecure r) ::
        app.sessionSet r g g.maxAge ++ [Setting.cleared redirectCookie (app.gate.isSecure r)]) := by
  have session : Setting.isWritable ⟨sessionCookie, g.accessToken, true, app.gate.isSecure r,
      g.maxAge⟩ = g.accessToken.toList.all Value.isAllowedChar :=
    SetCookie.isWritable_eq isName_sessionCookie
  have outgoing : ((app.gate.jarOf r).clearState.setSession g.accessToken
      g.maxAge).clearRedirect.outgoing =
      [Setting.cleared stateCookie (app.gate.isSecure r),
        ⟨sessionCookie, g.accessToken, true, app.gate.isSecure r, g.maxAge⟩,
        Setting.cleared redirectCookie (app.gate.isSecure r)] := rfl
  have sets : (((app.gate.jarOf r).clearState.setSession g.accessToken
      g.maxAge).clearRedirect.apply page).Sets _ := Jar.sets_apply plain
  rw [List.nil_append, outgoing, List.filter_cons_of_pos (isWritable_clearedState _),
    List.filter_cons, session, List.filter_singleton, isWritable_clearedRedirect] at sets
  rw [sessionSet]
  split at sets <;> simpa [*] using sets

/-- The session of a token without control characters is written. -/
theorem sessionSet_of_plain {g : Grant} (plain : ∀ c ∈ g.accessToken.toList,
    Text.isControl c = false) (seconds : Int) : app.sessionSet r g seconds =
      [⟨sessionCookie, g.accessToken, true, app.gate.isSecure r, seconds⟩] := by
  have allowed : g.accessToken.toList.all Value.isAllowedChar = true :=
    List.all_eq_true.mpr fun c hc => Value.isAllowedChar_of_not_isControl (plain c hc)
  rw [sessionSet, if_pos allowed]

/-- How a success ends. -/
theorem concludes_of_succeed (g : Grant) :
    Concludes app r w .success (some g) o
      (app.succeed g (app.gate.jarOf r).clearState { w with outside := o }).1
      (app.succeed g (app.gate.jarOf r).clearState { w with outside := o }).2 := by
  rw [succeed_apply]
  constructor
  case counted => simp [Metrics.recordCallback, Tally.get_bump]
  case others =>
    intro label ne
    simp [Metrics.recordCallback, Tally.get_bump, ne]
  case rest => exact ⟨w.metrics.callbacks.bump Outcome.success.label, rfl⟩
  case refused => exact fun no => absurd no (by decide)
  case failed => exact fun _ no => absurd rfl no
  case succeeded =>
    intro _
    refine ⟨?_, g, g.maxAge, rfl, lasts_maxAge g, ?_, fun plain => sessionSet_of_plain plain _⟩
    · rfl
    · exact sets_succeed app r g (Response.sets_ofText _ _ _)
  case shown => exact fun _ => ⟨_, rfl⟩
  case local_ =>
    intro _ path kept
    have target : app.targetOf (app.gate.jarOf r).clearState = path := by
      rw [targetOf, (redirect?_iff _ r path).mpr kept, Option.getD_some]
    exact ⟨_, rfl, target ▸ Page.leads_callback _⟩
  case elsewhere =>
    intro _ nowhere
    have forgotten : (app.gate.jarOf r).clearState.redirect?.filter isLocalPath = none :=
      Option.eq_none_iff_forall_ne_some.mpr fun path h =>
        nowhere ⟨path, (redirect?_iff _ r path).mp h⟩
    have target : app.targetOf (app.gate.jarOf r).clearState = app.landing := by
      rw [targetOf, forgotten, Option.getD_none]
    exact ⟨_, rfl, target ▸ Page.leads_callback _⟩

theorem ends_exists (app : App ω) (r : Request) (o : ω) :
    ∃ outcome grant o', Ends app r o outcome grant o' := by
  by_cases error : param r "error" = ""
  · by_cases kept : KeptState r
    · by_cases code : param r "code" = ""
      · exact ⟨_, _, _, .missingCode error kept code⟩
      · cases hp : app.provider with
        | none => exact ⟨_, _, _, .mock error kept code hp⟩
        | some p =>
            rcases asked : p.exchange (param r "code") (app.returnAddress r) o with ⟨_ | _, o'⟩
            · exact ⟨_, _, _, .exchangeFailed error kept code hp asked⟩
            · exact ⟨_, _, _, .granted error kept code hp asked⟩
    · exact ⟨_, _, _, .stateMismatch error kept⟩
  · exact ⟨_, _, _, .providerError error⟩

theorem Ends.unique {outcome' : Outcome} {grant' : Option Grant} {o'' : ω}
    (h : Ends app r o outcome grant o') (h' : Ends app r o outcome' grant' o'') :
    outcome' = outcome ∧ grant' = grant ∧ o'' = o' := by
  cases h <;> cases h' <;> grind

/-- The handler does what follows from the outcome. -/
theorem concludes_of_ends (distinct : Distinct r) (ends : Ends app r w.outside outcome grant o) :
    Concludes app r w outcome grant o (app.callback r w).1 (app.callback r w).2 := by
  rw [callback_of_distinct distinct]
  have right : KeptState r →
      statesMatch ((app.gate.jarOf r).state?.getD "") (param r "state") = true :=
    (statesMatch_iff app.gate r).mpr
  cases ends with
  | providerError error =>
      have ended : app.finishLogin (paramsOf r) r w =
          app.fail .providerError (app.gate.jarOf r) w := by
        simp [finishLogin, paramsOf, error]
      rw [ended]
      exact concludes_of_fail (by decide) rfl
  | stateMismatch error other =>
      have wrong : statesMatch ((app.gate.jarOf r).state?.getD "") (param r "state") = false :=
        Bool.eq_false_iff.mpr fun h => other ((statesMatch_iff app.gate r).mp h)
      have ended : app.finishLogin (paramsOf r) r w =
          app.fail .stateMismatch (app.gate.jarOf r).clearState w := by
        simp [finishLogin, paramsOf, error, wrong]
      rw [ended]
      exact concludes_of_fail (by decide) rfl
  | missingCode error kept code =>
      have ended : app.finishLogin (paramsOf r) r w =
          app.fail .missingCode (app.gate.jarOf r).clearState w := by
        simp [finishLogin, paramsOf, error, right kept, code]
      rw [ended]
      exact concludes_of_fail (by decide) rfl
  | exchangeFailed error kept code provider asked =>
      have ended : app.finishLogin (paramsOf r) r w =
          app.fail .exchangeFailed (app.gate.jarOf r).clearState { w with outside := o } := by
        simp [finishLogin, paramsOf, error, right kept, code, grantFor, provider, asked]
      rw [ended]
      exact concludes_of_fail (by decide) rfl
  | @granted _ g _ error kept code provider asked =>
      have ended : app.finishLogin (paramsOf r) r w =
          app.succeed g (app.gate.jarOf r).clearState { w with outside := o } := by
        simp [finishLogin, paramsOf, error, right kept, code, grantFor, provider, asked]
      rw [ended]
      exact concludes_of_succeed _
  | mock error kept code provider =>
      have ended : app.finishLogin (paramsOf r) r w =
          app.succeed (Grant.ofToken (param r "code")) (app.gate.jarOf r).clearState w := by
        simp [finishLogin, paramsOf, error, right kept, code, grantFor, provider]
      rw [ended]
      exact concludes_of_succeed _

/-- A callback that was looked at has no repeated parameter. -/
theorem distinct_of_read {p : CallbackParams}
    (h : CallbackParams.read (r.target.query.getD "") = .ok p) : Distinct r := by
  rw [CallbackParams.read] at h
  split at h
  · cases h
  · rename_i once
    have nodup := (repeated?_eq_none.mp once).1
    rw [Distinct, List.filter_map]
    exact nodup

/-- A callback is looked at and ends in some way, or it is refused unread. -/
theorem callback_ends (app : App ω) (r : Request) (w : World ω) :
    (∃ outcome grant o, Ends app r w.outside outcome grant o ∧
        Concludes app r w outcome grant o (app.callback r w).1 (app.callback r w).2) ∨
      ((app.callback r w).1.status = 400 ∧ (app.callback r w).1.Sets [] ∧
        (app.callback r w).2 = w) := by
  cases read : CallbackParams.read (r.target.query.getD "") with
  | error name =>
      rw [callback, read]
      exact .inr ⟨rfl, Response.sets_ofText _ _ _, rfl⟩
  | ok p =>
      obtain ⟨outcome, grant, o, ends⟩ := ends_exists app r w.outside
      exact .inl ⟨outcome, grant, o, ends, concludes_of_ends (distinct_of_read read) ends⟩

/-- **A callback takes one outcome.** Exactly one outcome applies to a callback
that is looked at, and everything that follows from it happens. -/
theorem callback_takes_one_outcome (app : App ω) {r : Request} (distinct : Distinct r)
    (w : World ω) :
    (∃! e : Outcome × Option Grant × ω, Ends app r w.outside e.1 e.2.1 e.2.2) ∧
      ∀ outcome grant o, Ends app r w.outside outcome grant o →
        Concludes app r w outcome grant o (app.callback r w).1 (app.callback r w).2 := by
  obtain ⟨outcome, grant, o, ends⟩ := ends_exists app r w.outside
  refine ⟨⟨(outcome, grant, o), ends, ?_⟩, fun _ _ _ ends => concludes_of_ends distinct ends⟩
  rintro ⟨outcome', grant', o'⟩ ends'
  obtain ⟨rfl, rfl, rfl⟩ := ends.unique ends'
  rfl

end Handler

/-- The return of a browser that began a login at a page of a workspace. -/
def honestReturn : Request where
  method := "GET"
  target := ⟨none, none, "/auth/callback", some "code=abc&state=S1"⟩
  headers := [("cookie", Bytes.ofText "flowra_state=S1; flowra_redirect=/workspaces%3Ftab%3D2")]

/-- Without a provider the code becomes the session, and the page leads back. -/
theorem honest_return_signs_in :
    let answered := App.callback ({} : App Unit) honestReturn (.fresh ())
    Distinct honestReturn ∧
      answered.1.Sets [Setting.cleared "flowra_state" false,
        ⟨"flowra_session", "abc", true, false, 3600⟩, Setting.cleared "flowra_redirect" false] ∧
      answered.1.body = (Page.callback "/workspaces?tab=2").body ∧
      ∃ page, answered.1.body = .text page ∧ Page.Leads page "/workspaces?tab=2" := by
  intro answered
  have distinct : Distinct honestReturn := by
    unfold Distinct
    decide
  have kept : KeptState honestReturn := ⟨by decide, by decide⟩
  have path : KeptPath honestReturn "/workspaces?tab=2" :=
    ⟨by decide, "/workspaces%3Ftab%3D2", by decide, by decide⟩
  have code : param honestReturn "code" = "abc" := by decide
  obtain ⟨-, follows⟩ := callback_takes_one_outcome ({} : App Unit) distinct (.fresh ())
  have concludes := follows .success _ _ (.mock (by decide) kept (by decide) rfl)
  rw [code] at concludes
  obtain ⟨-, g, seconds, granted, lasts, sets, written⟩ := concludes.succeeded rfl
  cases granted
  have hour : seconds = 3600 := by
    rcases lasts with ⟨n, given, -⟩ | ⟨-, hour⟩
    · cases given
    · exact hour
  have plain : (Grant.ofToken "abc").accessToken.toList.all (!Text.isControl ·) = true := by decide
  rw [written (by simpa using plain), hour] at sets
  obtain ⟨target, shown⟩ := concludes.shown rfl
  obtain ⟨page, body, leads⟩ := concludes.local_ rfl _ path
  obtain rfl : _ = page := Body.text.inj (shown.symm.trans body)
  obtain rfl := (Page.leads_callback target).unique leads
  exact ⟨distinct, sets, shown, _, shown, leads⟩

end Gatehouse.App
