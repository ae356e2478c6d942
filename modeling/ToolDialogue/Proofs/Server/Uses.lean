import Mathlib.Data.List.Induction
import ToolDialogue.Proofs.Dialogue.Conversation
import ToolDialogue.Server.Basic

namespace ToolDialogue

def AskingTool.call (tool : AskingTool) (arguments : Arguments) (moment : Moment) : Call :=
  ⟨tool.name,tool.schema,arguments,moment.fresh,moment.now⟩

theorem AskingTool.name_injective {a b : AskingTool} (same : a.name = b.name) : a = b := by
  revert same; cases a <;> cases b <;> decide

namespace Server

structure Use where
  name : String
  arguments : Arguments
  moment : Moment
  deriving Repr

def serve (server : Server) (uses : List Use) : Server :=
  uses.foldl (fun server use => (server.callTool use.name use.arguments use.moment).2) server

theorem serve_append (server : Server) (uses more : List Use) :
    server.serve (uses ++ more) = (server.serve uses).serve more := List.foldl_append

-- A property of stores that no call and no purge takes away.
structure Lasting (P : Store → Prop) : Prop where
  run : ∀ {store} (call : Call) (job : Job File.Tree) (world : File.Tree), P store → P (call.run job store world).store
  purge : ∀ {store} (now : Instant), P store → P (store.purge now [])

section

variable {P : Store → Prop} {server : Server}

theorem Lasting.callTool (lasting : Lasting P) (holds : P server.store) (use : Use) :
    P (server.callTool use.name use.arguments use.moment).2.store := by
  unfold Server.callTool
  cases Tool.ofName? use.name with
  | none => exact holds
  | some tool =>
    cases tool with
    | asking tool => exact lasting.run _ _ _ holds
    | listSessions => exact lasting.purge _ holds

theorem Lasting.serve (lasting : Lasting P) (holds : P server.store) (uses : List Use) :
    P (server.serve uses).store := by
  induction uses generalizing server with
  | nil => exact holds
  | cons use rest ih =>
    apply ih
    exact lasting.callTool holds use

end

def Use.events (config : Config) (use : Use) : List (Event File.Tree) :=
  match Tool.ofName? use.name with
  | some (.asking tool) => [.call (tool.call use.arguments use.moment) (tool.job config use.moment.now)]
  | some .listSessions => [.list use.moment.now]
  | none => []

def history (config : Config) (tree : File.Tree) (uses : List Use) : Conversation File.Tree :=
  (Conversation.start (start config tree).store tree).run (uses.flatMap (Use.events config))

theorem history_append (config : Config) (tree : File.Tree) (uses : List Use) (use : Use) :
    history config tree (uses ++ [use]) = (history config tree uses).run (use.events config) := by
  simp [history,Conversation.run]

theorem callTool_events (server : Server) (records : List Record) (use : Use) :
    let after := (server.callTool use.name use.arguments use.moment).2
    let run := Conversation.run ⟨server.store,server.tree,records⟩ (use.events server.config)
    after.config = server.config ∧ after.store = run.store ∧ after.tree = run.world := by
  unfold callTool Use.events
  cases Tool.ofName? use.name with
  | none => exact ⟨rfl,rfl,rfl⟩
  | some tool => cases tool <;> exact ⟨rfl,rfl,rfl⟩

theorem serve_history (config : Config) (tree : File.Tree) (uses : List Use) :
    ((start config tree).serve uses).config = config ∧
      ((start config tree).serve uses).store = (history config tree uses).store ∧
      ((start config tree).serve uses).tree = (history config tree uses).world := by
  induction uses using List.reverseRecOn with
  | nil => exact ⟨rfl,rfl,rfl⟩
  | append_singleton uses use ih =>
    obtain ⟨settings,store,files⟩ := ih
    have step := callTool_events ((start config tree).serve uses) (history config tree uses).records use
    rw [store,files,settings] at step
    rw [history_append]
    simpa [serve] using step

theorem history_kept (config : Config) (tree : File.Tree) (uses : List Use) :
    (history config tree uses).Kept := by
  refine (Conversation.Kept.start ?_ ?_ tree).run _ <;>
    cases limit : config.idleSeconds <;>
    simp [start,limit,Store.empty,Store.withIdleLimit]

theorem history_calls {config : Config} {tree : File.Tree} {uses : List Use} {record : Record}
    (member : record ∈ (history config tree uses).records) :
    ∃ tool arguments moment, record.call = AskingTool.call tool arguments moment := by
  induction uses using List.reverseRecOn with
  | nil => cases member
  | append_singleton uses use ih =>
    rw [history_append,Use.events] at member
    cases found : Tool.ofName? use.name with
    | none => exact ih (by simpa [found,Conversation.run] using member)
    | some tool =>
      cases tool with
      | listSessions => exact ih (by simpa [found,Conversation.run,Conversation.step] using member)
      | asking tool =>
        simp only [found,Conversation.run,List.foldl_cons,List.foldl_nil,Conversation.step] at member
        rcases List.mem_append.mp member with old | new
        · exact ih old
        · cases List.mem_singleton.mp new; exact ⟨tool,use.arguments,use.moment,rfl⟩

end Server

end ToolDialogue
