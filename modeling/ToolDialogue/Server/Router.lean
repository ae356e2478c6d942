import ToolDialogue.Server.Basic

namespace ToolDialogue

structure Route where
  name : String
  answer : Server → Option Arguments → Moment → Reply × Server

def AskingTool.route (tool : AskingTool) : Route :=
  ⟨tool.name,fun server arguments moment =>
    server.useTool (.asking tool) (arguments.getD []) moment⟩

def listingRoute : Route :=
  ⟨Tool.listSessions.name,fun server _ moment => server.useTool .listSessions [] moment⟩

-- A keeper of routes. What it is asked to dispatch has no answer where it has no route
-- for the name.
structure Routing (ρ : Type) where
  empty : ρ
  add : ρ → Route → ρ
  has : ρ → String → Bool
  dispatch : ρ → String → Server → Option Arguments → Moment → Option (Reply × Server)

namespace Routing

variable {ρ : Type}

def tools (routing : Routing ρ) : ρ :=
  [AskingTool.calculate.route,AskingTool.createFile.route,AskingTool.buildProfile.route,
    listingRoute].foldl routing.add routing.empty

def table : Routing (Table String Route) where
  empty := []
  add routes route := Table.put route.name route routes
  has routes name := Table.has name routes
  dispatch routes name server arguments moment :=
    (Table.get? name routes).map fun route => route.answer server arguments moment

end Routing

def Server.callRouted {ρ : Type} (routing : Routing ρ) (server : Server) (name : String)
    (arguments : Option Arguments) (moment : Moment) : Option (Reply × Server) :=
  if routing.has routing.tools name then
    routing.dispatch routing.tools name server arguments moment
  else some (server.callTool name (arguments.getD []) moment)

end ToolDialogue
