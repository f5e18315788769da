import RouteBinding.Text.LetterCase

/-!
# Request methods

The request methods that an API description may declare operations for, in the order in which the
operations of one path are compiled.
-/

namespace RouteBinding

/-- A request method. -/
inductive Method
  | get
  | put
  | post
  | delete
  | options
  | head
  | patch
  | trace
deriving DecidableEq, Inhabited

namespace Method

/-- All methods, in order. -/
def all : List Method :=
  [get, put, post, delete, options, head, patch, trace]

/-- The key of a method in a path item. -/
def name : Method → String
  | get => "get"
  | put => "put"
  | post => "post"
  | delete => "delete"
  | options => "options"
  | head => "head"
  | patch => "patch"
  | trace => "trace"

/-- The method as it stands in a request line. -/
def label : Method → String
  | get => "GET"
  | put => "PUT"
  | post => "POST"
  | delete => "DELETE"
  | options => "OPTIONS"
  | head => "HEAD"
  | patch => "PATCH"
  | trace => "TRACE"

/-- The method with a name, in any case. -/
def ofName? (s : String) : Option Method :=
  all.find? fun m => m.name = Text.lower s

/-- Whether a route may be declared for a method. -/
def isRoutable (m : Method) : Bool :=
  m ≠ trace

theorem mem_all (m : Method) : m ∈ all := by
  cases m <;> simp [all]

theorem name_injective {a b : Method} (h : a.name = b.name) : a = b := by
  revert h
  cases a <;> cases b <;> decide

end Method

end RouteBinding
