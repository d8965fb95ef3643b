import Gatehouse.App.Basic
import Gatehouse.Proofs.Limit.Workspace
import Gatehouse.Proofs.Text.Pieces
import Gatehouse.Proofs.Uuid

/-!
Which requests share a counter.

The limiters of an app count in one store, by keys that are put together from texts. What
stands before the first colon of a key (`frontOf?`) tells which limiter it is from, as long
as no endpoint has a limit under one of these words; what stands behind it is the client,
the user or the workspace, whole.

* `endpoint_keys_meet_iff`: the path and the client in the key of an endpoint may have colons
  themselves, so requests for two paths share it when one path goes on behind a colon with
  what the other client begins with (`Overlaps`), and in no other case.
* `App.counters_are_apart`: limiters share no key, and each of the three has one key for
  each client, user or workspace.
-/

namespace Gatehouse

open Http

/-! ### Texts with colons -/

namespace Text

variable {sep : Char} {a b c d : List Char}

theorem cutChars_append_of_some (h : cutChars sep a = some (b, c)) (more : List Char) :
    cutChars sep (a ++ more) = some (b, c ++ more) := by
  obtain ⟨rfl, free⟩ := cutChars_eq_some_iff.mp h
  rw [List.append_assoc, List.cons_append]
  exact cutChars_append free _

theorem exists_cutChars (h : sep ∈ a) : ∃ b c, cutChars sep a = some (b, c) := by
  obtain ⟨b, c, rfl, free⟩ := List.eq_append_cons_of_mem h
  exact ⟨b, c, cutChars_append free c⟩

/-- Two texts that were joined with a separator are joined to the same only if they are
the same, or if one of the first goes on behind a separator. -/
theorem append_sep_eq_iff : a ++ sep :: b = c ++ sep :: d ↔
    (a = c ∧ b = d) ∨ (∃ more, c = a ++ sep :: more ∧ b = more ++ sep :: d) ∨
      ∃ more, a = c ++ sep :: more ∧ d = more ++ sep :: b := by
  constructor
  · intro h
    rcases List.append_eq_append_iff.mp h with ⟨more, rfl, rest⟩ | ⟨more, rfl, rest⟩
    · cases more with
      | nil => exact .inl ⟨by simp, (List.cons.inj rest).2⟩
      | cons x more =>
          obtain ⟨rfl, rfl⟩ := List.cons.inj rest
          exact .inr (.inl ⟨more, rfl, rfl⟩)
    · cases more with
      | nil => exact .inl ⟨by simp, (List.cons.inj rest).2.symm⟩
      | cons x more =>
          obtain ⟨rfl, rfl⟩ := List.cons.inj rest
          exact .inr (.inr ⟨more, rfl, rfl⟩)
  · rintro (⟨rfl, rfl⟩ | ⟨more, rfl, rfl⟩ | ⟨more, rfl, rfl⟩) <;> simp

/-- Parts without a separator end at the first one. -/
theorem append_sep_inj (ha : sep ∉ a) (hc : sep ∉ c) :
    a ++ sep :: b = c ++ sep :: d ↔ a = c ∧ b = d := by
  rw [append_sep_eq_iff]
  refine ⟨?_, .inl⟩
  rintro (same | ⟨more, rfl, -⟩ | ⟨more, rfl, -⟩)
  · exact same
  · exact absurd (by simp) hc
  · exact absurd (by simp) ha

end Text

namespace Limit

/-- What stands before the first colon of a key or of a pattern. -/
def frontOf? (key : String) : Option String :=
  (Text.cut ':' key).map Prod.fst

variable {key front rest : String}

theorem frontOf?_eq_some_iff :
    frontOf? key = some front ↔
      ∃ back, Text.cutChars ':' key.toList = some (front.toList, back) := by
  simp only [frontOf?, Text.cut, Option.map_map, Option.map_eq_some_iff, Function.comp_apply,
    Prod.exists]
  constructor
  · rintro ⟨cs, back, cut, rfl⟩
    exact ⟨back, by rw [String.toList_ofList, cut]⟩
  · rintro ⟨back, cut⟩
    exact ⟨_, back, cut, String.ofList_toList⟩

theorem frontOf?_append (free : ':' ∉ front.toList) (rest : String) :
    frontOf? (front ++ ":" ++ rest) = some front := by
  refine frontOf?_eq_some_iff.mpr ⟨rest.toList, ?_⟩
  rw [String.toList_append, String.toList_append, List.append_assoc]
  exact Text.cutChars_append free rest.toList

theorem frontOf?_append_of_some (h : frontOf? key = some front) (more : String) :
    frontOf? (key ++ more) = some front := by
  obtain ⟨back, cut⟩ := frontOf?_eq_some_iff.mp h
  refine frontOf?_eq_some_iff.mpr ⟨back ++ more.toList, ?_⟩
  rw [String.toList_append]
  exact Text.cutChars_append_of_some cut more.toList

/-! ### Endpoints -/

namespace Endpoints

variable {e : Endpoints} {method path : String} {limit : Nat}

theorem mem_of_longest? {best : Nat × Nat} {cs : List (Nat × Nat)} (h : longest? cs = some best) :
    best ∈ cs := by
  induction cs with
  | nil => cases h
  | cons c rest ih =>
      rw [longest?] at h
      split at h
      · cases h
        exact List.mem_cons_self
      · rename_i found later
        split at h
        · cases h
          exact List.mem_cons_self
        · cases h
          exact List.mem_cons_of_mem _ (ih later)

/-- A pattern with a star stands for paths of its own method. -/
theorem frontOf?_of_reach? {pattern : String} {n : Nat} (h : reach? pattern method path = some n) :
    frontOf? pattern = some method ∧ ':' ∉ method.toList := by
  simp only [reach?, Option.bind_eq_bind, Option.bind_eq_some_iff] at h
  obtain ⟨⟨own, stands⟩, cut, found⟩ := h
  split at found
  · rename_i fits
    obtain ⟨rfl, -⟩ := fits
    exact ⟨frontOf?_eq_some_iff.mpr ⟨stands, cut⟩, (Text.cutChars_eq_some_iff.mp cut).2⟩
  · cases found

/-- An endpoint has a limit by a pattern that begins as the endpoint does. -/
theorem exists_front_of_lookup? (h : e.lookup? method path = some limit) :
    ∃ p ∈ e.limits, ∃ front, frontOf? p.1 = some front ∧
      frontOf? (exactly method path) = some front := by
  unfold lookup? at h
  split at h
  · rename_i own found
    obtain ⟨before, after, entries, -⟩ := List.lookup_eq_some_iff.mp found
    have colon : ':' ∈ (exactly method path).toList := by
      simp [exactly, String.toList_append]
    obtain ⟨front, back, cut⟩ := Text.exists_cutChars colon
    have begins : frontOf? (exactly method path) = some (String.ofList front) :=
      frontOf?_eq_some_iff.mpr ⟨back, by rw [String.toList_ofList, cut]⟩
    exact ⟨(exactly method path, own), by simp [entries], _, begins, begins⟩
  · obtain ⟨best, longest, -⟩ := Option.map_eq_some_iff.mp h
    obtain ⟨p, mem, reached⟩ := List.mem_filterMap.mp (mem_of_longest? longest)
    obtain ⟨n, reach, -⟩ := Option.map_eq_some_iff.mp reached
    obtain ⟨begins, plain⟩ := frontOf?_of_reach? reach
    exact ⟨p, mem, method, begins, frontOf?_append plain path⟩

end Endpoints

/-- The rule counts endpoints: all of them, or those that have a limit. -/
inductive CountsEndpoints : KeyRule → Prop
  | all : CountsEndpoints .endpoint
  | limited (e : Endpoints) : CountsEndpoints e.keyRule

/-- The path of one request goes on behind a colon, with what the client of the other
begins with. -/
def Overlaps (r s : Request) : Prop :=
  r.method = s.method ∧ ∃ more, s.path = r.path ++ ":" ++ more ∧
    clientOf r = more ++ ":" ++ clientOf s

section Rules

variable {rule rule' : KeyRule} {r s : Request} {k l : String}

theorem CountsEndpoints.key_eq (h : CountsEndpoints rule) (counted : rule.key? r = some k) :
    k = KeyRule.endpointKey r := by
  cases h with
  | all => exact (Option.some.inj counted).symm
  | limited e =>
      obtain ⟨_, -, same⟩ := Option.map_eq_some_iff.mp counted
      exact same.symm

theorem toList_endpointKey (r : Request) : (KeyRule.endpointKey r).toList =
    r.method.toList ++ ':' :: (r.path.toList ++ ':' :: (clientOf r).toList) := by
  simp [KeyRule.endpointKey, String.toList_append]

theorem overlaps_iff : Overlaps r s ↔ r.method = s.method ∧ ∃ more,
    s.path.toList = r.path.toList ++ ':' :: more ∧
      (clientOf r).toList = more ++ ':' :: (clientOf s).toList := by
  refine and_congr_right fun _ => ⟨?_, ?_⟩
  · rintro ⟨more, path, client⟩
    exact ⟨more.toList, by simp [path, String.toList_append],
      by simp [client, String.toList_append]⟩
  · rintro ⟨more, path, client⟩
    exact ⟨String.ofList more, String.toList_inj.mp (by simp [path, String.toList_append]),
      String.toList_inj.mp (by simp [client, String.toList_append])⟩

theorem endpointKey_eq_iff (token : ':' ∉ r.method.toList) (token' : ':' ∉ s.method.toList) :
    KeyRule.endpointKey r = KeyRule.endpointKey s ↔
      (r.method = s.method ∧ r.path = s.path ∧ clientOf r = clientOf s) ∨
        Overlaps r s ∨ Overlaps s r := by
  -- the methods end at the first colon; behind it the paths may end at different ones
  rw [← String.toList_inj, toList_endpointKey, toList_endpointKey,
    Text.append_sep_inj token token', Text.append_sep_eq_iff]
  simp only [overlaps_iff, String.toList_inj, eq_comm (a := s.method), and_or_left]

/-- A client's name that goes on to another's has more colons. -/
theorem Overlaps.count_lt (h : Overlaps r s) :
    (clientOf s).toList.count ':' < (clientOf r).toList.count ':' := by
  obtain ⟨-, more, -, client⟩ := h
  rw [client]
  simp [String.toList_append]
  omega

theorem Overlaps.colon_mem (h : Overlaps r s) : ':' ∈ s.path.toList := by
  obtain ⟨-, more, path, -⟩ := h
  rw [path]
  simp [String.toList_append]

/-- **Endpoints share a counter where they overlap**, and in no other case. So clients whose
names have as many colons share none, as all addresses of version 4, and neither do paths
without colons. -/
theorem endpoint_keys_meet_iff (h : CountsEndpoints rule) (h' : CountsEndpoints rule')
    (token : ':' ∉ r.method.toList) (token' : ':' ∉ s.method.toList)
    (counted : rule.key? r = some k) (counted' : rule'.key? s = some l) :
    (k = l ↔ (r.method = s.method ∧ r.path = s.path ∧ clientOf r = clientOf s) ∨
      Overlaps r s ∨ Overlaps s r) ∧
    ((clientOf r).toList.count ':' = (clientOf s).toList.count ':' ∨
        (':' ∉ r.path.toList ∧ ':' ∉ s.path.toList) →
      (k = l ↔ r.method = s.method ∧ r.path = s.path ∧ clientOf r = clientOf s)) := by
  rw [h.key_eq counted, h'.key_eq counted']
  have meet := endpointKey_eq_iff token token'
  refine ⟨meet, fun plain => meet.trans ⟨?_, .inl⟩⟩
  have apart : ¬ Overlaps r s ∧ ¬ Overlaps s r := by
    obtain colons | ⟨own, other⟩ := plain
    · exact ⟨fun h => absurd h.count_lt (by omega), fun h => absurd h.count_lt (by omega)⟩
    · exact ⟨fun h => other h.colon_mem, fun h => own h.colon_mem⟩
  rintro (same | overlaps | overlaps)
  · exact same
  · exact absurd overlaps apart.1
  · exact absurd overlaps apart.2

end Rules

/-- A request for a path, straight from an address. -/
def getFrom (peer : Ip) (path : String) : Request where
  method := "GET"
  target := ⟨none, none, path, none⟩
  headers := []
  peer := some peer

/-- The address `1.2.3.4`. -/
def plainPeer : Ip := .v4 ⟨0x01020304⟩

/-- The same address as one of version 6. -/
def mappedPeer : Ip := .v6 ⟨[0, 0, 0, 0, 0, 0xFFFF, 0x0102, 0x0304]⟩

/-- A limit for each path that begins with that of the login. -/
def loginLimits : Endpoints := .ofList [("GET:/login*", 30)]

/-- Two clients of version 4 count apart. -/
theorem plain_peers_count_apart :
    KeyRule.endpoint.key? (getFrom plainPeer "/login") = some "GET:/login:1.2.3.4" ∧
      loginLimits.keyRule.key? (getFrom (.v4 ⟨0x01020305⟩) "/login") =
        some "GET:/login:1.2.3.5" ∧
      "GET:/login:1.2.3.4" ≠ "GET:/login:1.2.3.5" := by
  have counted : KeyRule.endpoint.key? (getFrom plainPeer "/login") =
    some "GET:/login:1.2.3.4" := by decide
  have counted' : loginLimits.keyRule.key? (getFrom (.v4 ⟨0x01020305⟩) "/login") =
    some "GET:/login:1.2.3.5" := by decide
  refine ⟨counted, counted', fun same => ?_⟩
  have meet := endpoint_keys_meet_iff .all (.limited loginLimits) (by decide) (by decide)
    counted counted'
  exact absurd ((meet.2 (.inl (by decide))).mp same).2.2 (by decide)

/-- **Two clients count as one on two paths.** What the one asks for as a path goes on with
how the address of the other begins. -/
theorem mapped_peer_overlaps :
    (∀ rule ∈ [KeyRule.endpoint, loginLimits.keyRule],
      rule.key? (getFrom mappedPeer "/login") = some "GET:/login:::ffff:1.2.3.4" ∧
        rule.key? (getFrom plainPeer "/login:::ffff") = some "GET:/login:::ffff:1.2.3.4") ∧
      (getFrom mappedPeer "/login").path ≠ (getFrom plainPeer "/login:::ffff").path ∧
      clientOf (getFrom mappedPeer "/login") ≠ clientOf (getFrom plainPeer "/login:::ffff") := by
  refine ⟨?_, by decide, by decide⟩
  simp only [List.forall_mem_cons]
  exact ⟨⟨by decide, by decide⟩, ⟨by decide, by decide⟩, by simp⟩

end Limit

/-! ### The limiters of an app -/

namespace App

open Limit

/-- What the limiters of an app are for. -/
inductive Scope where
  | client
  | endpoint
  | user
  | workspace
  deriving DecidableEq

/-- The limiter that a key is from, by the word before its first colon: the keys of endpoints
begin with a method. -/
def Scope.ofWord (word : String) : Scope :=
  if word = "ip" then .client
  else if word = "user" then .user
  else if word = "ws" then .workspace
  else .endpoint

section

variable {ω : Type} {app : App ω} {a b : Scope} {r s : Request} {k l : String}

/-- The limiter of a scope. -/
def limiterOf (app : App ω) : Scope → Limiter ω
  | .client => app.clientLimiter
  | .endpoint => app.endpointLimiter
  | .user => app.userLimiter
  | .workspace => app.workspaceLimiter.asLimiter

/-- No pattern of an endpoint has one of the other limiters' words for its method. -/
def OwnWords (app : App ω) : Prop :=
  ∀ p ∈ app.endpoints.limits, ∀ word ∈ ["ip", "user", "ws"], frontOf? p.1 ≠ some word

instance (app : App ω) : Decidable app.OwnWords :=
  inferInstanceAs (Decidable (∀ p ∈ app.endpoints.limits, _))

theorem key?_of_keyFor {l : Limiter ω} (counted : l.keyFor r = some k) :
    l.key.key? r = some k := by
  rw [Limiter.keyFor] at counted
  split at counted
  · cases counted
  · exact (Option.filter_eq_some_iff.mp counted).1

theorem client_key (counted : app.clientLimiter.keyFor r = some k) :
    k = "ip:" ++ Limit.clientOf r :=
  (Option.some.inj (key?_of_keyFor counted)).symm

theorem user_key (counted : app.userLimiter.keyFor r = some k) :
    ∃ u, r.context.user = some u ∧ k = "user:" ++ u.id.write := by
  obtain ⟨u, known, same⟩ := Option.map_eq_some_iff.mp (key?_of_keyFor counted)
  exact ⟨u, (Option.filter_eq_some_iff.mp known).1, same.symm⟩

theorem workspace_key (counted : app.workspaceLimiter.asLimiter.keyFor r = some k) :
    ∃ id, r.context.workspace = some id ∧ k = "ws:" ++ id.write := by
  obtain ⟨id, named, same⟩ := Option.map_eq_some_iff.mp (key?_of_keyFor counted)
  exact ⟨id, named, same.symm⟩

/-- The key of an endpoint begins as a pattern does that has a limit. -/
theorem endpoint_key (counted : app.endpointLimiter.keyFor r = some k) :
    ∃ p ∈ app.endpoints.limits, ∃ word, frontOf? p.1 = some word ∧ frontOf? k = some word := by
  obtain ⟨limit, found, same⟩ := Option.map_eq_some_iff.mp (key?_of_keyFor counted)
  obtain ⟨p, mem, word, pattern, begins⟩ := Endpoints.exists_front_of_lookup? found
  refine ⟨p, mem, word, pattern, ?_⟩
  rw [← same, KeyRule.endpointKey, String.append_assoc]
  exact frontOf?_append_of_some begins _

/-- What stands before the first colon tells the limiter that a key is from. -/
theorem ofWord_of_keyFor (own : app.OwnWords) (counted : (app.limiterOf a).keyFor r = some k) :
    (frontOf? k).map Scope.ofWord = some a := by
  cases a with
  | client =>
      rw [client_key counted, frontOf?_append_of_some (by decide : frontOf? "ip:" = some "ip")]
      rfl
  | endpoint =>
      obtain ⟨p, mem, word, pattern, begins⟩ := endpoint_key counted
      have other : ∀ taken ∈ ["ip", "user", "ws"], word ≠ taken := fun taken own' same =>
        own p mem taken own' (same ▸ pattern)
      simp only [List.forall_mem_cons] at other
      rw [begins, Option.map_some, Scope.ofWord, if_neg other.1, if_neg other.2.1,
        if_neg other.2.2.1]
  | user =>
      obtain ⟨u, -, rfl⟩ := user_key counted
      rw [frontOf?_append_of_some (by decide : frontOf? "user:" = some "user")]
      rfl
  | workspace =>
      obtain ⟨id, -, rfl⟩ := workspace_key counted
      rw [frontOf?_append_of_some (by decide : frontOf? "ws:" = some "ws")]
      rfl

/-- **No counter is shared by accident.** The limiters of an app count in one store, and as
long as no endpoint has a limit under one of the other limiters' words, no two of them ever
use one key. Of one limiter, the keys of two requests are one exactly if the client, the
user or the workspace is. -/
theorem counters_are_apart (own : app.OwnWords) :
    (∀ a, (app.limiterOf a).store = app.store) ∧
    (∀ a b r s k l, (app.limiterOf a).keyFor r = some k → (app.limiterOf b).keyFor s = some l →
      a ≠ b → k ≠ l) ∧
    (∀ r s k l, (app.limiterOf .client).keyFor r = some k →
      (app.limiterOf .client).keyFor s = some l →
        (k = l ↔ Limit.clientOf r = Limit.clientOf s)) ∧
    (∀ r s k l, (app.limiterOf .user).keyFor r = some k →
      (app.limiterOf .user).keyFor s = some l →
        ∃ u v, r.context.user = some u ∧ s.context.user = some v ∧ (k = l ↔ u.id = v.id)) ∧
    ∀ r s k l, (app.limiterOf .workspace).keyFor r = some k →
      (app.limiterOf .workspace).keyFor s = some l →
        ∃ i j, r.context.workspace = some i ∧ s.context.workspace = some j ∧ (k = l ↔ i = j) := by
  refine ⟨fun a => by cases a <;> rfl, fun a b r s k l counted counted' ne same => ?_,
    fun r s k l counted counted' => ?_, fun r s k l counted counted' => ?_,
    fun r s k l counted counted' => ?_⟩
  · subst same
    exact ne (Option.some.inj
      ((ofWord_of_keyFor own counted).symm.trans (ofWord_of_keyFor own counted')))
  · rw [client_key counted, client_key counted', String.append_right_inj]
  · obtain ⟨u, known, rfl⟩ := user_key counted
    obtain ⟨v, known', rfl⟩ := user_key counted'
    exact ⟨u, v, known, known', (String.append_right_inj _).trans
      ⟨Uuid.write_injective, congrArg Uuid.write⟩⟩
  · obtain ⟨i, named, rfl⟩ := workspace_key counted
    obtain ⟨j, named', rfl⟩ := workspace_key counted'
    exact ⟨i, j, named, named', (String.append_right_inj _).trans
      ⟨Uuid.write_injective, congrArg Uuid.write⟩⟩

end

/-- An app with limits for the pages of a login. -/
def loginApp : App Unit where
  endpoints := .ofList [("GET:/login", 30), ("GET:/auth/*", 10)]

/-- A client that names itself as a workspace is counted, and asks for that workspace. -/
def posingClient : Request where
  method := "GET"
  target := ⟨none, none, "/workspaces", none⟩
  headers := [("x-real-ip", Bytes.ofText "ws:ffffffff-ffff-ffff-ffff-ffffffffffff")]
  context := { workspace := some ⟨Vector.replicate 32 (Fin.last 15)⟩ }

/-- The client is not counted as the workspace. -/
theorem posing_client_counts_apart :
    loginApp.OwnWords ∧
      (loginApp.limiterOf .client).keyFor posingClient =
        some "ip:ws:ffffffff-ffff-ffff-ffff-ffffffffffff" ∧
      (loginApp.limiterOf .workspace).keyFor posingClient =
        some "ws:ffffffff-ffff-ffff-ffff-ffffffffffff" ∧
      "ip:ws:ffffffff-ffff-ffff-ffff-ffffffffffff" ≠
        "ws:ffffffff-ffff-ffff-ffff-ffffffffffff" := by
  have own : loginApp.OwnWords := by decide
  have client : (loginApp.limiterOf .client).keyFor posingClient =
    some "ip:ws:ffffffff-ffff-ffff-ffff-ffffffffffff" := by decide
  have workspace : (loginApp.limiterOf .workspace).keyFor posingClient =
    some "ws:ffffffff-ffff-ffff-ffff-ffffffffffff" := by decide
  exact ⟨own, client, workspace,
    (counters_are_apart own).2.1 _ _ _ _ _ _ client workspace (by decide)⟩

end App

end Gatehouse
