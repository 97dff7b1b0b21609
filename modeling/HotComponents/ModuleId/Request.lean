import HotComponents.Key
import HotComponents.ModuleId.Query

/-!
# Requests

An identifier that was read: which file, which artifact of it, and for which target. Without the
marker flag a request is for the component's main module; with it, for the artifact its `type` flag
names.

* `Request.route_mainRequest`, `Request.route_styleRequest`: the two derived requests are served as
  what their names say.
-/

namespace HotComponents.ModuleId

/-- A request for one module of a component. -/
structure Request where
  /-- The component's source file. -/
  file : FilePath
  /-- How the file is shown: below the root with a leading slash, elsewhere in full. -/
  shown : String
  /-- The tracked flags. -/
  query : Query
  /-- The render target. -/
  target : Target
  /-- The time of the change that caused the request. -/
  timestamp : Option Nat
deriving DecidableEq, Repr

/-- How a request is served. -/
inductive Route where
  /-- The component's own module. -/
  | main
  /-- The stylesheet that the component was compiled to. -/
  | style
  /-- A marked identifier that names no artifact; it is not served. -/
  | unhandled
deriving DecidableEq, Repr

namespace Request

/-- What the component's record is filed under. -/
def key (r : Request) : Key := ⟨r.file, r.target⟩

/-- The request is for the main module. -/
def isMain (r : Request) : Bool := !r.query.isMarked

/-- The request is for the stylesheet. -/
def isStyle (r : Request) : Bool := r.query.isMarked && r.query.artifact? == some .style

/-- The request for the stylesheet of the same file. -/
def styleRequest (r : Request) : Request := { r with query := .style }

/-- The request for the main module of the same file. -/
def mainRequest (r : Request) : Request := { r with query := .empty }

/-- How the request is served. -/
def route (r : Request) : Route :=
  match r.query.isMarked, r.query.artifact? with
  | false, _ => .main
  | true, some .style => .style
  | true, none => .unhandled

/-- The requests agree: in their files by components, and exactly in all else. -/
def same (r s : Request) : Bool :=
  r.file.same s.file && r.shown == s.shown && r.query == s.query && r.target == s.target &&
    r.timestamp == s.timestamp

@[simp] theorem route_mainRequest (r : Request) : r.mainRequest.route = .main := rfl

@[simp] theorem route_styleRequest (r : Request) : r.styleRequest.route = .style := rfl

end Request

end HotComponents.ModuleId
