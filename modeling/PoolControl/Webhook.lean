import PoolControl.Error
import PoolControl.Http.Status
import PoolControl.Http.Url
import PoolControl.Notice

/-! # Delivery to webhooks

A notice goes to a webhook as a request with a JSON body. `deliver` builds the request, and judges
the answer: only a status of success counts as delivered. -/

namespace PoolControl.Webhook

/-- A request to a webhook. -/
structure Request where
  method : String := "POST"
  /-- The path and the query of the location. -/
  target : String
  contentType : String := "application/json"
  body : Datum

/-- The answer to a request. -/
structure Response where
  status : Nat
  body : String
  deriving DecidableEq, Repr

/-- The text of an answer, without a mark of the byte order. -/
def Response.text (r : Response) : String :=
  if Http.hasNoBody r.status then ""
  else match r.body.toList with
    | '\uFEFF' :: rest => String.ofList rest
    | _ => r.body

/-- What an answer says about the delivery. -/
def judge (platform : String) (r : Response) : Except Error Unit :=
  if Http.isSuccess r.status then .ok ()
  else
    .error (.delivery
      ("webhook " ++ platform ++ " returned " ++ Http.statusText r.status ++ ": " ++ r.text))

/-- Sends a notice to a webhook. `reach` gives the answer of whoever listens at a location, and
nothing is sent where nobody does. -/
def deliver (reach : Http.Url → Option Response) (platform url : String) (receivers : List String)
    (n : Notice) : Option Request × Except Error Unit :=
  match Http.Url.parse? url with
  | none => (none, .error .http)
  | some location =>
    match reach location with
    | none => (none, .error .http)
    | some answer =>
      (some { target := location.target, body := n.payload receivers }, judge platform answer)

end PoolControl.Webhook
