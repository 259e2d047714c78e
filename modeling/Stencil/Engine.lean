import Stencil.Config
import Stencil.Include.Memory
import Stencil.Render
import Stencil.Request
import Stencil.Response

/-!
# Engines

An engine renders templates and answers requests under one configuration. Its includes come
from a sandbox, or from a resolver of its own. It parses through a cache if it has one; what
it answers is the same without.
-/

namespace Stencil

/-- Where the includes of an engine come from. -/
inductive IncludeSource where
  /-- A resolver that answers the same all the time. -/
  | fixed (resolver : Resolver)
  /-- A directory of the files as they are at the time. -/
  | sandbox (s : Sandbox)

/-- The resolver of a source, for the files as they are. -/
def IncludeSource.resolver (files : FileTree) : IncludeSource → Resolver
  | fixed r => r
  | sandbox s => s.resolver files

/-- A renderer with its configuration. -/
structure Engine where
  /-- The configuration. -/
  config : Config
  /-- Where includes come from. -/
  source : IncludeSource

namespace Engine

/-- An engine with a resolver of its own; the directory in the configuration does not matter. -/
def withResolver (config : Config) (resolver : Resolver) : Engine := ⟨config, .fixed resolver⟩

/-- The engine that a configuration describes. Without a directory for includes there are
none. -/
def ofConfig (files : FileTree) (home : Place) (config : Config) : Except ConfigError Engine :=
  match config.sandboxRoot with
  | none => .ok (withResolver config .none)
  | some root =>
    match Sandbox.ofPath files home root config.includeBytes with
    | .ok s => .ok ⟨config, .sandbox s⟩
    | .error e => .error (.sandbox e)

/-- The cache an engine starts with: one of its own, if it may keep anything. -/
def newCache (e : Engine) : Option Cache :=
  if e.config.cacheCapacity = 0 then none else some (.empty e.config.cacheCapacity)

/-- Renders a template: the text, unless the render fails, and the cache after it. -/
def render (e : Engine) (files : FileTree) (cache : Option Cache) (template : String)
    (params : Params) (mode : Mode) : Except Diagnostic String × Option Cache :=
  Render.template ⟨params, mode, e.source.resolver files, e.config.limits⟩ cache template

/-- Renders the template of a request. -/
def renderRequest (e : Engine) (files : FileTree) (cache : Option Cache) (r : RenderRequest) :
    Except Diagnostic String × Option Cache :=
  match r.requireTemplate with
  | .error error => (.error error.diagnostic, cache)
  | .ok template =>
    e.render files cache template (r.params.getD .empty) (Mode.ofName? r.mode)

/-- Answers a request that is written in JSON. -/
def handle (e : Engine) (files : FileTree) (cache : Option Cache) (body : String) :
    Response × Option Cache :=
  match RenderRequest.read body with
  | .error error => (.failure error.diagnostic, cache)
  | .ok r =>
    let (result, cache) := e.renderRequest files cache r
    (.ofResult result, cache)

end Engine

/-- Renders a template with no includes, under the standard limits. -/
def renderTemplate (template : String) (params : Params) (mode : Mode) :
    Except Diagnostic String :=
  (Render.template ⟨params, mode, .none, .standard⟩ none template).1

end Stencil
