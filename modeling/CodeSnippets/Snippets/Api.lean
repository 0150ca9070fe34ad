/-
  The routes under which snippets are shared.

    POST   /api/save          saves the body
    GET    /api/get?id=…      gives a text
    DELETE /api/delete?id=…   takes a snippet out
    GET    /api/list          lists ids

  * `Request.ofTarget` splits a request target at its first `?` and finds the
    value of `id` in the query;
  * `handle` answers a request; a request for no route has no response, and any
    `OPTIONS` request has one without a body;
  * a failure is reported as an object with its message, under the status of its
    error.
-/
import CodeSnippets.Snippets.Service
import CodeSnippets.Web.Json
import CodeSnippets.Web.Query

namespace CodeSnippets

/-! ## Requests -/

/-- The methods that the routes know. -/
inductive Method where
  | get
  | post
  | put
  | delete
  | options
  deriving DecidableEq, Repr

namespace Method

/-- The name of a method. -/
def name : Method → Text
  | get => "GET".toList
  | post => "POST".toList
  | put => "PUT".toList
  | delete => "DELETE".toList
  | options => "OPTIONS".toList

/-- All methods. -/
def all : List Method := [get, post, put, delete, options]

/-- An ASCII letter as a capital; any other character as it is. -/
def capital (c : Char) : Char := if 'a' ≤ c && c ≤ 'z' then Char.ofNat (c.toNat - 32) else c

/-- The method with a name, in capitals or not. -/
def ofName? (t : Text) : Option Method := all.find? fun m => m.name == t.map capital

end Method

/-- A request, decoded. -/
structure Request where
  method : Method
  path : Text
  /-- the value of `id` in the query -/
  id : Option Text
  body : Text
  deriving DecidableEq, Repr

/-- The request for a target. -/
def Request.ofTarget (method : Method) (target body : Text) : Request :=
  let (path, query) := (Text.splitAtFirst '?' target).getD (target, [])
  ⟨method, path, queryValue? "id".toList query, body⟩

/-! ## Responses -/

/-- A status and a body, if there is one. -/
structure Response where
  status : Nat
  body : Option JsonValue

namespace Response

/-- The headers that let any page use the routes. -/
def sharedHeaders : List (Text × Text) :=
  [("Access-Control-Allow-Origin".toList, "*".toList),
   ("Access-Control-Allow-Methods".toList, "GET, POST, PUT, DELETE, OPTIONS".toList),
   ("Access-Control-Allow-Headers".toList, "Content-Type, Authorization".toList)]

/-- The headers of a response: a body comes with its type. -/
def headers (r : Response) : List (Text × Text) :=
  if r.body.isSome then ("Content-Type".toList, "application/json".toList) :: sharedHeaders
  else sharedHeaders

/-- The text of the body; none is empty. -/
def bodyText (r : Response) : Text := (r.body.map JsonValue.compact).getD []

/-- Whether the status is one of success. -/
def isSuccess (r : Response) : Bool := 200 ≤ r.status && r.status < 300

/-- The response without a body. -/
def preflight : Response := ⟨200, none⟩

/-- A successful response with an object. -/
def success (members : List (Text × JsonValue)) : Response := ⟨200, some (.object members)⟩

/-- The response that reports an error. -/
def ofError (e : StoreError) : Response :=
  ⟨e.status, some (.object [("error".toList, .string e.message)])⟩

/-- The response that names a snippet. -/
def ofId (id : SnippetId) : Response :=
  success [("id".toList, .string id.text), ("success".toList, .bool true)]

/-- The response that shows a text. -/
def ofText (text : Text) : Response := success [("code".toList, .string text)]

/-- The response that lists ids. -/
def ofListing (l : Listing) : Response :=
  success [("ids".toList, .array (l.ids.map fun id => .string id.text)),
    ("list_complete".toList, .bool l.complete), ("success".toList, .bool true)]

/-- The response for an answer: errors are reported, an abort is not. -/
def ofAnswer {α : Type} (f : α → Response) : Answer StoreError α → Except Abort Response
  | .ok a => .ok (f a)
  | .error (.error e) => .ok (ofError e)
  | .error (.abort a) => .error a

end Response

/-! ## Routes -/

/-- What a request asks for. -/
inductive Route where
  | preflight
  | save
  | get
  | delete
  | list
  deriving DecidableEq, Repr

/-- The route of a request. -/
def Request.route? (r : Request) : Option Route :=
  match r.method with
  | .options => some .preflight
  | .post => if r.path = "/api/save".toList then some .save else none
  | .delete => if r.path = "/api/delete".toList then some .delete else none
  | .put => none
  | .get =>
    if r.path = "/api/get".toList then some .get
    else if r.path = "/api/list".toList then some .list
    else none

/-- A call of a service whose answer becomes a response. -/
def respond {α : Type} (f : α → Response) (call : Answer StoreError α × Service) :
    Except Abort (Option Response) × Service :=
  ((Response.ofAnswer f call.1).map some, call.2)

/-- The response to a request; none if the request has no route. -/
def handle (s : Service) (r : Request) : Except Abort (Option Response) × Service :=
  match r.route? with
  | none => (.ok none, s)
  | some .preflight => (.ok (some .preflight), s)
  | some .save => respond .ofId (s.save r.body)
  | some .get => respond .ofText (s.get (r.id.getD []))
  | some .delete => respond .ofId (s.delete (r.id.getD []))
  | some .list => respond .ofListing s.list

end CodeSnippets
