import TinyProxy.Api.Snapshot

/-!
# The API server

`handle_api_request` routes on the method and the path alone; every other
request is answered 404.
-/

set_option autoImplicit false

namespace TinyProxy

open Rust Http

/-- A request to the API server; the body is what collecting it will give. -/
structure ApiRequest where
  req : Request
  body : Collected

/-- The keys of the object are sorted. -/
def healthJson : Str :=
  "\x7b\"service\":\"tiny-proxy\",\"status\":\"healthy\",\"version\":\"0.6.0\"\x7d".toList

def handleHealthCheck : Response := jsonResponse .ok healthJson

def apiNotFound : Response := ⟨.notFound, [], .full "Not Found".toList⟩

section Router
variable (json : SerdeJson) (parser : UriParser) (display : Uri → Str)

/-- The answer, and what is stored afterwards. -/
def handleApiRequest (request : ApiRequest) (stored : Config) : Response × Config :=
  if request.req.method = "GET".toList ∧ request.req.uri.path = "/config".toList then
    (handleGetConfig json display stored, stored)
  else if request.req.method = "POST".toList ∧ request.req.uri.path = "/config".toList then
    handlePostConfig (configFromJson json parser) request.body stored
  else if request.req.method = "GET".toList ∧ request.req.uri.path = "/health".toList then
    (handleHealthCheck, stored)
  else (apiNotFound, stored)

/-- The configuration that the request stores, if it does. -/
def storedBy (request : ApiRequest) : Option Config :=
  if request.req.method = "POST".toList ∧ request.req.uri.path = "/config".toList then
    (postedConfig (configFromJson json parser) request.body).toOption
  else none

variable {json parser display}

/-- Only a `POST /config` whose body deserializes changes what is stored. -/
theorem handleApiRequest_stored (request : ApiRequest) (stored : Config) :
    (handleApiRequest json parser display request stored).2 =
      (storedBy json parser request).getD stored := by
  have apart : "GET".toList ≠ "POST".toList := by decide
  unfold handleApiRequest storedBy
  by_cases isGet : request.req.method = "GET".toList
  · simp only [isGet, true_and, false_and, if_false, apart]
    split
    · rfl
    · split
      · rfl
      · rfl
  · simp only [isGet, false_and, if_false]
    split
    · unfold handlePostConfig
      cases postedConfig (configFromJson json parser) request.body with
      | error message => rfl
      | ok config => rfl
    · rfl

end Router

end TinyProxy
