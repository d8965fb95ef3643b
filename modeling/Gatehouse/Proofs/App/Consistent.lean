import Gatehouse.Proofs.App.SessionCookie
import Gatehouse.Proofs.Auth.Neighbours

/-!
Cookies of one response that are consistent.

The cookies of a response come from the layers around a handler and from the handler
itself, and each of them works out by itself whether the connection is secure. Still they
never contradict each other: no name is set twice, and the attributes of each follow from
the request and from whether its value is empty (`Consistent`).

* `Told.tidy`: none of the lists that an app may set repeats a name or has an untidy cookie.
* `respond_cookies_consistent`: so a browser reads a consistent cookie out of each header,
  if the session tokens that are granted can stand in one.
-/

namespace Gatehouse.App

open Http Cookie Auth OAuth

variable {ω : Type} {app : App ω} {r : Request} {w : World ω} {cs : List Setting}

/-- The attributes that a browser reads agree with the connection and with the value. -/
structure Consistent (secure : Bool) (c : SetCookie) : Prop where
  named : c.name ∈ [sessionCookie, stateCookie, redirectCookie]
  httpOnly : ("HttpOnly", none) ∈ c.attributes
  path : ("Path", some "/") ∈ c.attributes
  secure : ("Secure", none) ∈ c.attributes ↔ secure = true
  filled : c.value ≠ "" →
    ("SameSite", some "Lax") ∈ c.attributes ∧ ∃ age, c.maxAge? = some age ∧ 0 < age
  cleared : c.value = "" → c.maxAge? = some (-1)

/-- A session token that a callback may be granted can stand in a cookie as it is. -/
def GrantsOctets (app : App ω) (r : Request) : Prop :=
  ∀ g o o', Ends app r o .success (some g) o' → g.accessToken ≠ "" ∧ OfOctets g.accessToken

/-! ### Cookies as they are set -/

/-- A cookie that is read back as it was set, and consistent then. -/
structure Tidy (secure : Bool) (c : Setting) : Prop where
  named : c.name ∈ [sessionCookie, stateCookie, redirectCookie]
  plain : ∀ ch ∈ c.value.toList, SetCookie.IsPlain ch
  secure : c.secure = secure
  filled : c.value ≠ "" → c.sameSite = true ∧ 0 < c.maxAge
  cleared : c.value = "" → c.maxAge = -1

section Tidy

variable {secure : Bool} {c : Setting} {name value : String}

theorem isName_of_mem (h : name ∈ [sessionCookie, stateCookie, redirectCookie]) :
    SetCookie.IsName name := by
  have names : ∀ name ∈ [sessionCookie, stateCookie, redirectCookie], SetCookie.IsName name := by
    decide
  exact names name h

theorem Tidy.read? (h : Tidy secure c) :
    SetCookie.read? c.write = some ⟨c.name, c.value, c.attributes⟩ :=
  SetCookie.read?_write_of_isPlain (isName_of_mem h.named) h.plain

theorem Tidy.consistent (h : Tidy secure c) :
    Consistent secure ⟨c.name, c.value, c.attributes⟩ := by
  have age : SetCookie.maxAge? ⟨c.name, c.value, c.attributes⟩ = some c.maxAge :=
    SetCookie.maxAge?_append_attributes c.name c.value []
  constructor
  case named => exact h.named
  case httpOnly => simp [Setting.attributes]
  case path => simp [Setting.attributes]
  case secure => simp [Setting.attributes, h.secure]
  case filled =>
    intro filled
    obtain ⟨lax, positive⟩ := h.filled filled
    exact ⟨by simp [Setting.attributes, lax], c.maxAge, age, positive⟩
  case cleared =>
    intro empty
    rw [age, h.cleared empty]

theorem tidy_cleared (named : name ∈ [sessionCookie, stateCookie, redirectCookie])
    (secure : Bool) : Tidy secure (Setting.cleared name secure) where
  named := named
  plain _ hc := absurd hc List.not_mem_nil
  secure := rfl
  filled no := absurd rfl no
  cleared _ := rfl

theorem tidy_kept {age : Int} (named : name ∈ [sessionCookie, stateCookie, redirectCookie])
    (plain : ∀ ch ∈ value.toList, SetCookie.IsPlain ch) (filled : value ≠ "") (positive : 0 < age)
    (secure : Bool) : Tidy secure ⟨name, value, true, secure, age⟩ where
  named := named
  plain := plain
  secure := rfl
  filled _ := ⟨rfl, positive⟩
  cleared no := absurd no filled

end Tidy

/-! ### The lists that are set -/

theorem pathAndQuery_ne_empty (t : Target) : t.pathAndQuery ≠ "" := by
  rw [Target.pathAndQuery]
  split
  · simp
  · rw [Target.path]
    split
    · decide
    · rename_i filled
      simpa using filled

/-- Some path is kept: what is kept of it is read back. -/
theorem redirectValue_ne_empty {path : String} (filled : path ≠ "") :
    Jar.redirectValue path ≠ "" := by
  intro empty
  have back := Jar.decodeText?_redirectValue path
  rw [empty, show Text.Percent.decodeText? "" = some "" by decide] at back
  exact filled (Option.some.inj back).symm

theorem tidy_stale (g : Gate ω) (r : Request) : ∀ c ∈ g.stale r, Tidy (g.isSecure r) c := by
  intro c hc
  rw [Gate.stale] at hc
  split at hc
  · exact List.mem_singleton.mp hc ▸ tidy_cleared (by decide) _
  · exact absurd hc List.not_mem_nil

theorem tidy_detour (g : Gate ω) (r : Request) : ∀ c ∈ g.detour r, Tidy (g.isSecure r) c := by
  intro c hc
  rw [Gate.detour] at hc
  split at hc
  · rw [List.mem_singleton.mp hc]
    exact tidy_kept (by decide) (fun _ hc => Jar.isPlain_of_mem_redirectValue hc)
      (redirectValue_ne_empty (pathAndQuery_ne_empty _)) (by decide) _
  · exact absurd hc List.not_mem_nil

theorem names_stale (g : Gate ω) (r : Request) :
    (g.stale r).map Setting.name = [] ∨ (g.stale r).map Setting.name = [sessionCookie] := by
  rw [Gate.stale]
  split
  · exact .inr rfl
  · exact .inl rfl

theorem names_detour (g : Gate ω) (r : Request) :
    (g.detour r).map Setting.name = [] ∨ (g.detour r).map Setting.name = [redirectCookie] := by
  rw [Gate.detour]
  split
  · exact .inr rfl
  · exact .inl rfl

/-- The session of a success is written, as its token can stand in a cookie. -/
theorem sessionSet_of_octets {g : Grant} {seconds : Int} (octets : OfOctets g.accessToken) :
    app.sessionSet r g seconds =
      [⟨sessionCookie, g.accessToken, true, app.gate.isSecure r, seconds⟩] := by
  rw [sessionSet, if_pos]
  exact List.all_eq_true.mpr fun c hc =>
    Value.isAllowedChar_of_isReadableChar (octets.solid c hc).1

theorem tidy_session {g : Grant} {seconds : Int} (lasts : Lasts g seconds)
    (filled : g.accessToken ≠ "") (octets : OfOctets g.accessToken) (secure : Bool) :
    Tidy secure ⟨sessionCookie, g.accessToken, true, secure, seconds⟩ := by
  have positive : 0 < seconds := by
    rcases lasts with ⟨n, -, more, rfl⟩ | ⟨-, rfl⟩
    · exact more
    · decide
  refine tidy_kept (by decide) (fun ch hc => ?_) filled positive secure
  obtain ⟨readable, space, whole⟩ := octets.solid ch hc
  exact ⟨Value.isAllowedChar_of_isReadableChar readable, whole, space⟩

/-- **No list repeats a name or has an untidy cookie.** -/
theorem Told.tidy (h : Told app r cs) (granted : GrantsOctets app r) :
    (cs.map Setting.name).Nodup ∧ ∀ c ∈ cs, Tidy (app.gate.isSecure r) c := by
  cases h with
  | nothing => exact ⟨List.nodup_nil, fun c hc => absurd hc List.not_mem_nil⟩
  | turnedAway =>
      refine ⟨?_, fun c hc => (List.mem_append.mp hc).elim (tidy_stale _ r c) (tidy_detour _ r c)⟩
      rw [List.map_append]
      rcases names_stale app.gate r with stale | stale <;>
        rcases names_detour app.gate r with detour | detour <;> rw [stale, detour] <;> decide
  | begun seed =>
      have state : Tidy (app.gate.isSecure r)
          ⟨stateCookie, stateOf seed, true, app.gate.isSecure r, shortMaxAge⟩ :=
        tidy_kept (by decide) (fun _ hc => isPlain_of_mem_stateOf hc) (stateOf_ne_empty seed)
          (by decide) _
      refine ⟨?_, List.forall_mem_cons.mpr ⟨state, tidy_stale _ r⟩⟩
      show (stateCookie :: (app.gate.stale r).map Setting.name).Nodup
      rcases names_stale app.gate r with stale | stale <;> rw [stale] <;> decide
  | unknown =>
      refine ⟨?_, tidy_stale _ r⟩
      rcases names_stale app.gate r with stale | stale <;> rw [stale] <;> decide
  | failed =>
      exact ⟨List.nodup_singleton _, List.forall_mem_singleton.mpr (tidy_cleared (by decide) _)⟩
  | succeeded path ends lasts =>
      obtain ⟨filled, octets⟩ := granted _ _ _ ends
      rw [sessionSet_of_octets octets]
      refine ⟨show [stateCookie, sessionCookie, redirectCookie].Nodup by decide, ?_⟩
      simp only [List.cons_append, List.nil_append, List.mem_cons, List.not_mem_nil, or_false]
      rintro c (rfl | rfl | rfl)
      · exact tidy_cleared (by decide) _
      · exact tidy_session lasts filled octets _
      · exact tidy_cleared (by decide) _
  | signedOut =>
      refine ⟨show [sessionCookie, redirectCookie].Nodup by decide, ?_⟩
      simp only [List.mem_cons, List.not_mem_nil, or_false]
      rintro c (rfl | rfl) <;> exact tidy_cleared (by decide) _

/-! ### The headers of a response -/

/-- What a browser reads of a header that sets a cookie. -/
def readOf (v : Value) : Option SetCookie :=
  (Bytes.text? v).bind SetCookie.read?

/-- Tidy cookies are read each out of its own header, as they were set. -/
theorem cookies_of_tidy {response : Response} {secure : Bool} (sets : response.Sets cs)
    (tidy : ∀ c ∈ cs, Tidy secure c) :
    response.cookies = cs.map (fun c => ⟨c.name, c.value, c.attributes⟩) ∧
      (response.headers.getAll Response.setCookieName).map readOf =
        response.cookies.map some := by
  have fields : response.headers.getAll Response.setCookieName = cs.map _ := sets
  have read : (response.headers.getAll Response.setCookieName).map readOf =
      (cs.map fun c => (⟨c.name, c.value, c.attributes⟩ : SetCookie)).map some := by
    rw [fields, List.map_map, List.map_map]
    refine List.map_congr_left fun c hc => ?_
    rw [Function.comp, readOf, Bytes.text?_ofText, Option.bind_some, (tidy c hc).read?]
    rfl
  have cookies : response.cookies = cs.map fun c => ⟨c.name, c.value, c.attributes⟩ := by
    rw [SetCookie.cookies_of_sets sets]
    exact List.filterMap_eq_map_iff_forall_eq_some.mpr fun c hc => (tidy c hc).read?
  exact ⟨cookies, cookies ▸ read⟩

/-- **The cookies of every response are consistent.** A browser reads a cookie out of each
header that sets one, no two of one name. Each has the attributes that go with the
connection and with its value. A callback that counts a success sets a session and does not
clear one. -/
theorem respond_cookies_consistent (app : App ω) (r : Request) (w : World ω)
    (granted : GrantsOctets app r) :
    ((app.respond r w).1.headers.getAll Response.setCookieName).map readOf =
        (app.respond r w).1.cookies.map some ∧
      ((app.respond r w).1.cookies.map SetCookie.name).Nodup ∧
      (∀ c ∈ (app.respond r w).1.cookies,
        Consistent (isSecure r.headers r.target app.gate.trustProxy) c) ∧
      (r.path = callbackPath →
        (app.respond r w).2.metrics.callbacks.get Outcome.success.label ≠
          w.metrics.callbacks.get Outcome.success.label →
        ∃ token, token ≠ "" ∧ ((app.respond r w).1.cookies.filter fun c =>
          c.name == sessionCookie).map SetCookie.value = [token]) := by
  obtain ⟨cs, sets, told⟩ := respond_told app r w
  obtain ⟨once, tidy⟩ := told.tidy granted
  obtain ⟨cookies, read⟩ := cookies_of_tidy sets tidy
  refine ⟨read, ?_, ?_, ?_⟩
  · rw [cookies, List.map_map]
    exact once
  · rw [cookies]
    exact List.forall_mem_map.mpr fun c hc => (tidy c hc).consistent
  · intro route recorded
    obtain ⟨inner, f, g, seconds, -, ends, lasts, sets⟩ := sets_of_recorded route recorded
    obtain ⟨filled, octets⟩ := granted _ _ _ ends
    obtain ⟨-, tidy⟩ := (Told.succeeded route ends lasts).tidy granted
    obtain ⟨cookies, -⟩ := cookies_of_tidy sets tidy
    refine ⟨g.accessToken, filled, ?_⟩
    rw [cookies, sessionSet_of_octets octets]
    have state : (stateCookie == sessionCookie) = false := by decide
    have redirect : (redirectCookie == sessionCookie) = false := by decide
    simp [Setting.cleared, state, redirect]

/-- An app behind a proxy that says what the browser has connected by. -/
def proxiedApp : App Unit where
  gate := { trustProxy := true }

/-- The return of a browser over a secure connection to the proxy. -/
def securedReturn : Request :=
  { honestReturn with headers := ("x-forwarded-proto", Bytes.ofText "https, http") ::
      honestReturn.headers }

theorem secured_return_is_consistent :
    let answered := proxiedApp.respond securedReturn (.fresh ())
    GrantsOctets proxiedApp securedReturn ∧
      (answered.1.cookies.map SetCookie.name).Nodup ∧
      (∀ c ∈ answered.1.cookies, Consistent true c) ∧
      ∃ token, token ≠ "" ∧ (answered.1.cookies.filter fun c =>
        c.name == sessionCookie).map SetCookie.value = [token] := by
  intro answered
  have granted : GrantsOctets proxiedApp securedReturn := by
    intro g o o' ends
    cases ends with
    | granted _ _ _ has => cases has
    | mock =>
        have code : (Grant.ofToken (param securedReturn "code")).accessToken = "abc" := by decide
        rw [code]
        decide +kernel
  have recorded : answered.2.metrics.callbacks.get Outcome.success.label ≠
      (World.fresh ()).metrics.callbacks.get Outcome.success.label := by decide
  have secure : isSecure securedReturn.headers securedReturn.target proxiedApp.gate.trustProxy =
      true := by decide
  obtain ⟨-, once, consistent, kept⟩ :=
    respond_cookies_consistent proxiedApp securedReturn (.fresh ()) granted
  rw [secure] at consistent
  exact ⟨granted, once, consistent, kept (by decide) recorded⟩

end Gatehouse.App
