import Gatehouse.Fault
import Gatehouse.Proofs.Http.SetCookie

/-!
Responses that set no cookie of their own.

A response that was just made sets none, and whatever is then done to other
headers changes nothing about that.
-/

namespace Gatehouse.Http.Response

variable {r : Response} {cs : List Cookie.Setting}

theorem sets_bare (status : Nat) : (bare status).Sets [] := rfl

theorem sets_ofText (status : Nat) (kind content : String) : (ofText status kind content).Sets [] :=
  rfl

theorem sets_ofJson (status : Nat) (content : Json) : (ofJson status content).Sets [] := rfl

/-- What leaves the cookies of the headers alone leaves those of the response. -/
theorem Sets.mapHeaders (h : r.Sets cs) {f : Headers → Headers}
    (keeps : ∀ fields : Headers, (f fields).getAll setCookieName = fields.getAll setCookieName) :
    (r.mapHeaders f).Sets cs :=
  (keeps r.headers).trans h

theorem getAll_insertText_of_ne {name n : String} (ne : n ≠ name) (text : String) (r : Response) :
    (r.insertText name text).headers.getAll n = r.headers.getAll n := by
  rw [insertText]
  split
  · exact Headers.getAll_insert_of_ne ne _ r.headers
  · rfl

theorem headers_answering (method : String) (r : Response) :
    (r.answering method).headers = r.headers := by
  rw [answering]
  split <;> rfl

theorem Sets.insertText (h : r.Sets cs) {name : String} (ne : setCookieName ≠ name)
    (text : String) : (r.insertText name text).Sets cs :=
  (getAll_insertText_of_ne ne text r).trans h

theorem Sets.answering (h : r.Sets cs) (method : String) : (r.answering method).Sets cs := by
  rw [Sets, headers_answering]
  exact h

theorem sets_found (location : String) : (found location).Sets [] := by
  rw [found]
  split
  · exact (sets_bare 302).mapHeaders fun fields => Headers.getAll_insert_of_ne (by decide) _ fields
  · exact sets_ofJson _ _

/-- A header that can hold a text is given it. -/
theorem getAll_insertText {text : String} {v : Value} (usable : Value.ofText? text = some v)
    (name : String) (r : Response) : (r.insertText name text).headers.getAll name = [v] := by
  rw [insertText, usable]
  exact Headers.getAll_insert name v r.headers

theorem status_insertText (name text : String) (r : Response) :
    (r.insertText name text).status = r.status := by
  rw [insertText]
  split <;> rfl

theorem body_insertText (name text : String) (r : Response) :
    (r.insertText name text).body = r.body := by
  rw [insertText]
  split <;> rfl

/-- A usable location is gone to. -/
theorem found_of_usable {location : String} {v : Value} (usable : Value.ofText? location = some v) :
    (found location).status = 302 ∧ (found location).headers.getAll "location" = [v] := by
  rw [found, usable]
  exact ⟨rfl, rfl⟩

end Gatehouse.Http.Response
