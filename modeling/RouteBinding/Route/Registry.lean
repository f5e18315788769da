import RouteBinding.Config.Basic
import RouteBinding.Route.Binding

/-!
# Registries of routes

A registry collects routes in the order in which they are added, together with the callable
handlers that serve them. A callable is known by a text, its identity; several callables may be known by
one, and then the one that was added last is found.
-/

namespace RouteBinding

/-- Callables of a type are known by texts. -/
class HasIdentity (κ : Type) where
  identity : κ → String

/-- A handler that can be called. -/
structure Callable where
  module : String
  name : String
deriving DecidableEq, Inhabited

/-- The text by which a callable is known; an empty module reads `<unknown>`. -/
def Callable.identity (c : Callable) : String :=
  (if c.module = "" then "<unknown>" else c.module) ++ ":" ++ c.name

instance : HasIdentity Callable := ⟨Callable.identity⟩

/-- What serves a route: a callable, or only its identity. -/
inductive Handler (κ : Type := Callable)
  | identity (text : String)
  | callable (c : κ)
deriving DecidableEq, Inhabited

/-- The text by which a handler is known. -/
def Handler.text {κ : Type} [HasIdentity κ] : Handler κ → String
  | identity text => text
  | callable c => HasIdentity.identity c

/-- The routes added so far, and the callables by identity. -/
structure Registry (κ : Type := Callable) where
  routes : List Route
  callables : List (String × κ)
deriving DecidableEq, Inhabited

/-- Binds a table of routes with the settings of a compiler, or with the default ones. -/
def CompiledApi.bindTable (api : CompiledApi) (routes : List Route) (config : Option CompilerConfig) :
    Except (List CompileError) BindingReport :=
  let config := config.getD .default
  api.bindRoutes routes config.bodySlot config.warnUnbound

/-- A step over a registry. What it has changed stays changed when it is refused. -/
abbrev Registering (κ α : Type) := ExceptT RouteError (StateM (Registry κ)) α

namespace Registry

variable {κ : Type}

/-- The registry without routes. -/
def empty : Registry κ := ⟨[], []⟩

/-- The count of routes. -/
def size (r : Registry κ) : Nat := r.routes.length

/-- Adds a route: a declaration that is not refused, whose handler is kept if it is a callable. -/
def adding [HasIdentity κ] (method path : Given) (handler : Handler κ) : Registering κ Route := do
  let route ← ExceptT.mk (pure (Route.declare method path (.text handler.text)))
  match handler with
  | .identity _ => pure ()
  | .callable c => modify fun r => { r with callables := (HasIdentity.identity c, c) :: r.callables }
  modify fun r => { r with routes := r.routes ++ [route] }
  return route

/-- Adds a callable as the handler of a route, and gives it back as it is. -/
def decorating [HasIdentity κ] (method path : Given) (c : κ) : Registering κ κ := do
  let _ ← adding method path (.callable c)
  return c

/-- The registry with a route added, and the route. -/
def add [HasIdentity κ] (r : Registry κ) (method path : Given) (handler : Handler κ) :
    Except RouteError (Registry κ × Route) :=
  match (adding method path handler).run r with
  | (.ok route, r) => .ok (r, route)
  | (.error e, _) => .error e

/-- The callable that was added last with an identity. -/
def callable? (r : Registry κ) (identity : String) : Option κ :=
  r.callables.lookup identity

/-- Binds the routes of the registry. -/
def bind (r : Registry κ) (api : CompiledApi) (config : Option CompilerConfig) :
    Except (List CompileError) BindingReport :=
  api.bindTable r.routes config

end Registry

end RouteBinding
