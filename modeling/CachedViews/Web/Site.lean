import CachedViews.Engine.Running
import CachedViews.Text.Numeral
import CachedViews.Web.Request

/-
# Sites

A site answers requests with views. It has two routes: the root, which stands
for the default view, and any other path of letters, digits, underscores,
hyphens and slashes, which names a view. A view that has no file is answered as
not found; every other fault is passed on as it is.

The options of a view are the site's own settings, then the variables of the
site, those of the request and the options of the request; a later one of the
same name wins.

Key definitions: `Web.Site`, `Web.HttpError`, `Web.Failure`, `Web.viewOfPath?`,
`Site.viewOptions`, `Site.renderText`, `Web.renderPage`, `Web.answer`.
-/

namespace CachedViews.Web

open CachedViews.Text

/-- The refusals that have a status of their own. -/
inductive HttpError where
  | viewNotFound (view : String)
  | pathNotFound
  | methodNotAllowed
  deriving Repr, BEq, DecidableEq

namespace HttpError

/-- The name of the kind of a refusal. -/
def kind : HttpError → String
  | viewNotFound _ | pathNotFound => "HTTPNotFound"
  | methodNotAllowed => "HTTPMethodNotAllowed"

/-- The status of a refusal. -/
def status : HttpError → Nat
  | viewNotFound _ | pathNotFound => 404
  | methodNotAllowed => 405

/-- The text of a refusal. -/
def text : HttpError → String
  | viewNotFound view => s!"View not found: {view}"
  | pathNotFound => "404: Not Found"
  | methodNotAllowed => "405: Method Not Allowed"

end HttpError

/-- Why there is no page. -/
inductive Failure where
  | refused (e : HttpError)
  | fault (f : Fault)

/-- An answer with a text. -/
structure Response where
  status : Int
  type : String
  text : String
  deriving Repr, BEq, DecidableEq, Inhabited

/-- The answer that tells about a refusal. -/
def HttpError.response (e : HttpError) : Response := ⟨e.status, "text/plain", e.text⟩

/-! ### Routes -/

/-- A character that the name of a routed view may have. -/
def isViewChar (c : Char) : Bool :=
  ('A' ≤ c && c ≤ 'Z') || ('a' ≤ c && c ≤ 'z') || isDigit c || c = '_' || c = '-' || c = '/'

/-- Is the text a name that a path may give to a view? -/
def isRoutedView (s : List Char) : Bool := s ≠ [] && s.all isViewChar

/-- The view that a path asks for. The root asks for the default view. -/
def viewOfPath? (defaultView path : String) : Option String :=
  match path.toList with
  | ['/'] => some defaultView
  | '/' :: name => if isRoutedView name then some (String.ofList name) else none
  | _ => none

/-- The methods that the routes answer. -/
def methods : List String := ["GET", "HEAD"]

/-- The view that a request asks for, or the refusal of its path or method. -/
def route (defaultView : String) (r : Request) : Except HttpError String :=
  match viewOfPath? defaultView r.routePath with
  | none => .error .pathNotFound
  | some view => if methods.contains r.method then .ok view else .error .methodNotAllowed

/-! ### Sites -/

/-- A site: its engine, the resolved views directory, the default view, whether
caches are used, and the variables of all views. -/
structure Site where
  engine : Engine
  views : String
  defaultView : String := "home"
  cache : Value := .bool true
  context : List (Value × Value) := []
  deriving Inhabited

/-- A view to be rendered for a request, with variables and options. -/
structure ViewRequest where
  view : String
  request : Request := {}
  context : Value := .null
  options : List (String × Value) := []

/-- The parameters of a request for a view; an option cannot have their names. -/
def ViewRequest.parameters : List String := ["view", "request", "context"]

/-- The option with the status of the page. -/
def statusKey : String := "status"

/-- The entries of a mapping of variables; what is taken for false has none. -/
def contextEntries (context : Value) : Except Fault (List (Value × Value)) :=
  match context.isTrue, context with
  | false, _ => .ok []
  | true, .dict es => .ok es
  | true, v => .error (.type (.notMapping v.kind))

namespace Site

/-- A site for the views below a directory. -/
def create (engine : Engine) (views : String) : Site :=
  { engine, views := Path.absolute engine.cwd views }

/-- The file of a view. -/
def viewFile (s : Site) (view : String) : String :=
  viewPath s.engine.cwd s.engine.config.extname s.views view

/-- The settings that every render of a site begins with. -/
def baseOptions (s : Site) (r : Request) : List (Value × Value) :=
  [(.str "settings", .dict [(.str "views", .str s.views)]), (.str "cache", s.cache),
   (.str "request", r.value)]

/-- The options that a view is rendered with. -/
def viewOptions (s : Site) (v : ViewRequest) : Except Fault Value := do
  let context ← contextEntries v.context
  let given := (v.options.filter (·.1 ≠ statusKey)).map fun (k, x) => (Value.str k, x)
  return .dict (Value.onTop (Value.onTop (Value.onTop (s.baseOptions v.request) s.context) context)
    given)

/-- The refusal of a view whose own file could not be read; other faults are
passed on. -/
def failureOf (s : Site) (view : String) : Fault → Failure
  | .view (.reading path cause) =>
    if path = s.viewFile view then .refused (.viewNotFound view)
    else .fault (.view (.reading path cause))
  | f => .fault f

/-- The text of a view. -/
def renderText (s : Site) (tree : FileTree) (v : ViewRequest) (d : Engine.Desk) :
    Except Failure String × Engine.Desk :=
  match s.viewOptions v with
  | .error f => (.error (.fault f), d)
  | .ok options =>
    let (outcome, d) := s.engine.work tree (.view (.str (s.viewFile v.view)) options) d
    match outcome with
    | .ok p => (.ok p.asValue.text, d)
    | .error f => (.error (s.failureOf v.view f), d)

end Site

/-- The status that an option gives. -/
def statusOf : Value → Except Fault Int
  | .int n => .ok n
  | .bool b => .ok (if b then 1 else 0)
  | v =>
    match v.string? with
    | some s => match integer? s.toList with
      | some n => .ok n
      | none => .error (.value (.badNumeral 10 s))
    | none => .error (.type (.notInteger v.kind))

/-- The page of a view. Nothing can be rendered without a site. -/
def renderPage (site : Option Site) (tree : FileTree) (v : ViewRequest) (d : Engine.Desk) :
    Except Failure Response × Engine.Desk :=
  match ViewRequest.parameters.find? fun name => (v.options.lookup name).isSome, site with
  | some name, _ => (.error (.fault (.type (.repeatedArgument "render_template" name))), d)
  | none, none => (.error (.fault .noEngine), d)
  | none, some s =>
    match s.renderText tree v d with
    | (.error f, d) => (.error f, d)
    | (.ok text, d) =>
      match statusOf ((v.options.lookup statusKey).getD (.int 200)) with
      | .ok status => (.ok ⟨status, "text/html", text⟩, d)
      | .error f => (.error (.fault f), d)

/-- The answer to a request. Without a site there are no routes. -/
def answer (site : Option Site) (tree : FileTree) (r : Request) (d : Engine.Desk) :
    Except Failure Response × Engine.Desk :=
  match site with
  | none => (.error (.refused .pathNotFound), d)
  | some s =>
    match route s.defaultView r with
    | .error e => (.error (.refused e), d)
    | .ok view => renderPage site tree { view, request := r } d

end CachedViews.Web
