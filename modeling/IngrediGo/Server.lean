/-!
# The server

`server.js` keeps each collection in one file. `GET` answers the whole file, `POST`
replaces it with the request's body; the body goes through `JSON.stringify` and back,
which loses nothing of a JSON value. A request that fails leaves the file alone.
-/

namespace IngrediGo

/-- What becomes of a request. -/
inductive Outcome where
  | answered
  /-- The route's `try` block throws: status 500, nothing read or written. -/
  | errorStatus
  /-- It never reaches the server: the promise of `fetch` rejects. -/
  | unreachable (message : String)
  deriving DecidableEq, Repr

/-- What the client's `fetch` sees. -/
inductive Response (β : Type) where
  | ok (body : β)
  | status (code : Nat)
  | rejected (message : String)
  deriving DecidableEq, Repr

/-- `response.ok` -/
def Response.isOk {β : Type} : Response β → Bool
  | .ok _ => true
  | _ => false

namespace Server

variable {β : Type}

/-- `app.get('/favorites')`, `app.get('/bookmarked')` -/
def get (file : β) : Outcome → Response β
  | .answered => .ok file
  | .errorStatus => .status 500
  | .unreachable message => .rejected message

/-- `app.post('/favorites')`, `app.post('/bookmarked')`: the file afterwards and the answer. -/
def post (file body : β) : Outcome → β × Response Unit
  | .answered => (body, .ok ())
  | .errorStatus => (file, .status 500)
  | .unreachable message => (file, .rejected message)

/-- A `POST` that fails changes nothing, whatever became of it. -/
theorem post_fst (file body : β) (outcome : Outcome) :
    (post file body outcome).1 = if outcome = .answered then body else file := by
  cases outcome <;> rfl

theorem post_or (file body : β) (outcome : Outcome) :
    (post file body outcome).1 = file ∨ (post file body outcome).1 = body := by
  rw [post_fst]
  split
  · exact .inr rfl
  · exact .inl rfl

end Server

end IngrediGo
