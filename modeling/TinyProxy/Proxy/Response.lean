import TinyProxy.Config.Parser
import TinyProxy.Proxy.Correlation

/-!
# When a response goes out

An `Err` can only come from a conversion that the chosen action needs: a redirect
target that is no header value, or a backend address that is no URI.
-/

set_option autoImplicit false

namespace TinyProxy

open Rust Http

section Responses
variable {id : Str}

theorem withId_ok (visible : VisibleText id) (headers : HeaderMap) :
    ∃ v, withHeader .xRequestId id headers = .ok (Multimap.append headers .xRequestId v) := by
  obtain ⟨v, made, _⟩ := HeaderValue.ofVisible visible
  exact ⟨v, by rw [withHeader, made]⟩

theorem authDenied_answers (visible : VisibleText id) (status : UInt16)
    (wwwAuthenticate : Option HeaderValue) :
    ∃ r, authDeniedResponse status wwwAuthenticate id = .ok r ∧
      r.status = (StatusCode.fromU16 status).getD .forbidden ∧
      Multimap.getAll r.headers .wwwAuthenticate = wwwAuthenticate.toList := by
  obtain ⟨v, added⟩ := withId_ok visible .empty
  refine ⟨_, by rw [authDeniedResponse, added]; rfl, rfl, ?_⟩
  have absent : Multimap.getAll (Multimap.append .empty HeaderName.xRequestId v)
      HeaderName.wwwAuthenticate = [] := by
    rw [Multimap.getAll_append, if_neg (by decide)]
    rfl
  cases wwwAuthenticate with
  | none => exact absent
  | some challenge =>
      change Multimap.getAll (Multimap.append (Multimap.append .empty HeaderName.xRequestId v)
        HeaderName.wwwAuthenticate challenge) HeaderName.wwwAuthenticate = [challenge]
      rw [Multimap.getAll_append, absent, if_pos rfl]
      rfl

end Responses

end TinyProxy
