import ToolDialogue.Proofs.Dialogue.Expiry
import ToolDialogue.Proofs.Server.Answers
import ToolDialogue.Proofs.Server.Uses
import ToolDialogue.Proofs.Session.Cutoff

namespace ToolDialogue

namespace Call

variable {σ : Type} {call : Call} {job : Job σ} {store : Store} {world : σ} {start : Instant}

theorem resolve?_eq (call : Call) (store : Store) :
    call.resolve? store = store.within call.now (call.resolve store) := by
  unfold resolve? resolve
  cases requestedId? call.arguments with
  | some id => exact (congrArg _ (Store.getOrCreate?_eq ..)).trans (Store.map_within ..)
  | none => exact (congrArg _ (Store.create?_eq ..)).trans (Store.map_within ..)

theorem run?_eq (call : Call) (job : Job σ) (store : Store) (world : σ) :
    call.run? job store world = store.within call.now (call.run job store world) := by
  rw [run?,resolve?_eq,Store.map_within]
  rfl

theorem finish_under (job : Job σ) (id : String) (handle : Handle) (session : Session) (store : Store) (world : σ)
    (limit : Option Span) : call.finish job id handle session (store.under limit) world =
      let turn := call.finish job id handle session store world
      { turn with store := turn.store.under limit } := by
  cases missing : session.nextMissing? with
  | some parameter =>
    rw [finish_awaiting missing,finish_awaiting missing]
    rfl
  | none =>
    rcases done : job session.collected world with ⟨error | output,after⟩
    · rw [finish_failed missing done,finish_failed missing done]
      rfl
    · rw [finish_completed missing done,finish_completed missing done]
      rfl

section

variable {limit : Option Span} (purged : (store.under limit).purge call.now [] = store.under limit)
  (unpurged : store.purge call.now [] = store)

include purged unpurged

theorem resolve_under : call.resolve (store.under limit) =
    let resolved := call.resolve store
    { resolved with store := resolved.store.under limit } := by
  unfold resolve
  split
  · rw [Store.getOrCreate_under purged unpurged]
  · rw [Store.create_under purged unpurged]

theorem run_under (job : Job σ) (world : σ) : call.run job (store.under limit) world =
    let turn := call.run job store world
    { turn with store := turn.store.under limit } := by
  have resolved := resolve_under purged unpurged
  rw [run_finish,run_finish,merged,merged,resolved]
  exact finish_under ..

end

theorem run_young (young : store.Young start) (soon : start ≤ call.now) :
    (call.run job store world).store.Young start := by
  refine ⟨call.run_sound job young.sound world,(call.run_idleLimit job store world).trans young.unlimited,?_⟩
  intro handle session here
  rw [call.run_sessions job young.sound.placed world] at here
  split at here
  · cases here
    split
    · exact soon
    · rw [merged_updatedAt]
      exact soon
  · exact young.recent handle session here

end Call

namespace Server

variable {server : Server} {use : Use} {uses : List Use} {begun : Instant}

def call? (server : Server) (use : Use) : Option (Reply × Server) :=
  server.callTool? use.name use.arguments use.moment

def call (server : Server) (use : Use) : Reply × Server := server.callTool use.name use.arguments use.moment

def stops (server : Server) (use : Use) : Bool :=
  (Tool.ofName? use.name).isSome && server.store.overruns use.moment.now

def limited (server : Server) (seconds : Nat) (limit : Option Span) : Server :=
  ⟨{ server.config with idleSeconds := some seconds },server.store.under limit,server.tree⟩

theorem useTool?_eq (server : Server) (tool : Tool) (arguments : Arguments) (moment : Moment) :
    server.useTool? tool arguments moment =
      server.store.within moment.now (server.useTool tool arguments moment) := by
  cases tool with
  | asking tool => exact (congrArg _ (Call.run?_eq ..)).trans (Store.map_within ..)
  | listSessions => exact (congrArg _ Store.list?_eq).trans (Store.map_within ..)

theorem callTool?_eq (server : Server) (name : String) (arguments : Arguments) (moment : Moment) :
    server.callTool? name arguments moment =
      if (Tool.ofName? name).isSome && server.store.overruns moment.now then none
      else some (server.callTool name arguments moment) := by
  unfold callTool? callTool
  cases Tool.ofName? name with
  | none => rfl
  | some tool => exact server.useTool?_eq tool arguments moment

theorem call?_eq (server : Server) (use : Use) :
    server.call? use = if server.stops use then none else some (server.call use) :=
  server.callTool?_eq use.name use.arguments use.moment

section Messages

open Rpc

variable {server : Server} {request : Request} {moment : Moment} {tool : Tool} {given : Given}

theorem answerCall?_called (calls : request.Calls tool given) :
    server.answerCall? request.params moment =
      server.store.within moment.now (server.answerCall request.params moment) := by
  obtain ⟨-,params,brought,named,spelled⟩ := calls
  have taken : argumentsOf ((params.member? "arguments").getD .null) = .ok given.arguments := by
    rw [spelled,given.argumentsOf_json]
  simp only [answerCall?,answerCall,brought,named,callWith?,callWith,taken,callTool?,callTool,Tool.ofName?_name]
  rw [useTool?_eq,Store.map_within,Store.map_within]

theorem answerCall?_uncalled (method : request.method = "tools/call") (uncalled : ∀ tool given, ¬request.Calls tool given) :
    server.answerCall? request.params moment = some (server.answerCall request.params moment) := by
  unfold answerCall? answerCall
  split
  · rfl
  · next params brought =>
    split
    · next name named =>
      cases taken : argumentsOf ((params.member? "arguments").getD .null) with
      | error text =>
        simp only [callWith?,callWith,taken]
        rfl
      | ok arguments =>
        obtain ⟨given,spelled,rfl⟩ := given_of_arguments taken
        have unknown : Tool.ofName? name = none := by
          by_contra known
          obtain ⟨tool,found⟩ := Option.ne_none_iff_exists'.mp known
          have same : tool.name = name := by simpa using List.find?_some found
          subst same
          exact uncalled tool given ⟨method,params,brought,named,spelled.symm⟩
        simp only [callWith?,callWith,taken,callTool?,callTool,unknown]
        rfl
    · rfl

theorem answer_asked (version : request.version = "2.0") (asked : ¬request.isNotification = true) :
    server.answer request moment =
      (some ⟨request.id,(server.answerMethod request moment).1⟩,(server.answerMethod request moment).2) := by
  rw [answer,if_neg (not_ne_iff.mpr version),if_neg asked]

theorem answer?_called (version : request.version = "2.0") (calls : request.Calls tool given) :
    server.answer? request moment = server.store.within moment.now (server.answer request moment) := by
  have asked : ¬request.isNotification = true := by
    rw [Request.isNotification,calls.method]
    decide
  have current : ¬(request.version ≠ "2.0" ∨ request.isNotification = true) :=
    not_or.mpr ⟨not_ne_iff.mpr version,asked⟩
  have method : server.answerMethod? request moment = server.answerCall? request.params moment ∧
      server.answerMethod request moment = server.answerCall request.params moment := by
    constructor <;> simp only [answerMethod?,answerMethod,calls.method]
  rw [answer?,if_neg current,answer_asked version asked,method.1,method.2,answerCall?_called calls,Store.map_within]

theorem answer?_uncalled (uncalled : request.version = "2.0" → ∀ tool given, ¬request.Calls tool given) :
    server.answer? request moment = some (server.answer request moment) := by
  unfold answer?
  split
  · rfl
  · next current =>
    obtain ⟨version,asked⟩ := not_or.mp current
    rw [answer_asked (not_ne_iff.mp version) asked]
    unfold answerMethod?
    split
    · next method =>
      rw [answerCall?_uncalled method (uncalled (not_ne_iff.mp version))]
      simp only [answerMethod,method]
      rfl
    · rfl

end Messages

theorem call_idleLimit (server : Server) (use : Use) :
    (server.call use).2.store.idleLimit = server.store.idleLimit := by
  have lasting : Lasting fun store => store.idleLimit = server.store.idleLimit :=
    ⟨fun call job world same => (call.run_idleLimit job _ world).trans same,
      fun now same => Store.purge_idleLimit.trans same⟩
  exact lasting.callTool rfl use

theorem stops_congr {other : Server} (same : other.store.idleLimit = server.store.idleLimit) :
    other.stops = server.stops := by
  funext use
  rw [stops,stops,Store.overruns_congr same]

theorem call_stopping : Stopping call call? stops :=
  ⟨call?_eq,fun server use => stops_congr (server.call_idleLimit use)⟩

theorem job_limited (tool : AskingTool) (config : Config) (seconds : Option Nat) :
    tool.job { config with idleSeconds := seconds } = tool.job config := by
  cases tool <;> rfl

theorem call_limited {limit : Option Span} (seconds : Nat)
    (purged : (server.store.under limit).purge use.moment.now [] = server.store.under limit)
    (unpurged : server.store.purge use.moment.now [] = server.store) :
    (server.limited seconds limit).call use = ((server.call use).1,(server.call use).2.limited seconds limit) := by
  unfold call callTool
  cases Tool.ofName? use.name with
  | none => rfl
  | some tool =>
    cases tool with
    | asking tool =>
      have turned : (server.limited seconds limit).turn tool use.arguments use.moment =
          let turn := server.turn tool use.arguments use.moment
          { turn with store := turn.store.under limit } := by
        unfold turn limited
        rw [job_limited]
        exact Call.run_under purged unpurged _ _
      dsimp only [useTool]
      rw [turned]
      rfl
    | listSessions =>
      dsimp only [useTool]
      rw [limited,Store.list_under purged unpurged]
      rfl

theorem call_young (young : server.store.Young begun) (soon : begun ≤ use.moment.now) :
    (server.call use).2.store.Young begun := by
  unfold call callTool
  cases Tool.ofName? use.name with
  | none => exact young
  | some tool =>
    cases tool with
    | asking tool => exact Call.run_young young soon
    | listSessions =>
      change (server.store.purge use.moment.now []).Young begun
      rw [young.unpurged]
      exact young

theorem runs_limited (seconds : Nat) {limit : Option Span} (young : server.store.Young begun)
    (soon : ∀ span, limit = some span → ∀ use ∈ uses, begun ≤ use.moment.now ∧ use.moment.now ≤ begun + span) :
    runs call (server.limited seconds limit) uses =
      ((runs call server uses).1,(runs call server uses).2.limited seconds limit) := by
  cases limit with
  | none =>
    have each (server : Server) (use : Use) (unlimited : server.store.idleLimit = none) (_ : True) :
        (server.call use).2.store.idleLimit = none ∧
          (server.limited seconds none).call use = ((server.call use).1,(server.call use).2.limited seconds none) :=
      ⟨(server.call_idleLimit use).trans unlimited,
        call_limited seconds (Store.purge_unlimited rfl) (Store.purge_unlimited unlimited)⟩
    exact runs_as each young.unlimited fun _ _ => trivial
  | some span =>
    have each (server : Server) (use : Use) (young : server.store.Young begun)
        (soon : begun ≤ use.moment.now ∧ use.moment.now ≤ begun + span) :
        (server.call use).2.store.Young begun ∧ (server.limited seconds (some span)).call use =
          ((server.call use).1,(server.call use).2.limited seconds (some span)) :=
      ⟨call_young young soon.1,call_limited seconds (young.purged soon.2) young.unpurged⟩
    exact runs_as each young (soon span rfl)

structure Limits (seconds : Nat) (server free : Server) : Prop where
  stepped : ∀ steps, runs? Store.perform? server.store steps = none ↔
    ∃ step ∈ steps, step.operation.purges?.isSome = true ∧ Overlong seconds step.now
  answered : ∀ steps ended, runs? Store.perform? server.store steps = some ended →
    ended = (server.store.answers steps,server.store.after steps)
  called : ∀ uses, runs? call? server uses = none ↔
    ∃ use ∈ uses, (Tool.ofName? use.name).isSome = true ∧ Overlong seconds use.moment.now
  replied : ∀ uses ended, runs? call? server uses = some ended → ended = runs call server uses
  -- a limit that no span can hold, or that reaches back behind the whole history, is none
  unfelt : ∀ begun steps ended, (seconds ≤ longestSpan → ∀ step ∈ steps, step.Soon begun (seconds * second)) →
    runs? Store.perform? server.store steps = some ended →
      ended = (free.store.answers steps,(free.store.after steps).under (Span.ofSeconds? seconds))
  unnoticed : ∀ (begun : Instant) uses ended,
    (seconds ≤ longestSpan → ∀ use ∈ uses,
      begun ≤ use.moment.now ∧ use.moment.now ≤ begun + (seconds * second : Nat)) →
    runs? call? server uses = some ended →
      ended = ((runs call free uses).1,(runs call free uses).2.limited seconds (Span.ofSeconds? seconds))

-- The program stops in a purge exactly where the limit fits a span and reaches back behind the
-- calendar.
theorem idle_limit_stops_iff (seconds : Nat) (config : Config) (tree : File.Tree) :
    Limits seconds (.start { config with idleSeconds := some seconds } tree)
      (.start { config with idleSeconds := none } tree) := by
  have limits {span : Span} (held : Span.ofSeconds? seconds = some span) :
      seconds ≤ longestSpan ∧ span = seconds * second := by
    unfold Span.ofSeconds? at held
    split at held
    · next fits => exact ⟨fits,(Option.some.inj held).symm⟩
    · cases held
  have answered {steps : List Step} {ended : List Answer × Store}
      (went : runs? Store.perform? (Store.withIdleLimit seconds) steps = some ended) :
      ended = runs Store.perform (Store.withIdleLimit seconds) steps := Store.perform_stopping.ended went
  refine ⟨?_,?_,?_,fun uses ended => call_stopping.ended,?_,?_⟩
  · intro steps
    simp only [Store.perform_stopping.none_iff,Store.stops,Bool.and_eq_true]
    simp only [start,Store.withIdleLimit_overruns]
  · intro steps ended went
    rw [← Store.runs_perform]
    exact answered went
  · intro uses
    simp only [call_stopping.none_iff,stops,Bool.and_eq_true]
    simp only [start,Store.withIdleLimit_overruns]
  · intro begun steps ended soon went
    have behind : ∀ span, Span.ofSeconds? seconds = some span → ∀ step ∈ steps, step.Soon begun span := by
      intro span held
      obtain ⟨fits,rfl⟩ := limits held
      exact soon fits
    have same := (Store.empty_young begun).runs_under behind
    rw [Store.runs_perform Store.empty] at same
    exact (answered went).trans same
  · intro begun uses ended soon went
    have behind : ∀ span, Span.ofSeconds? seconds = some span → ∀ use ∈ uses,
        begun ≤ use.moment.now ∧ use.moment.now ≤ begun + span := by
      intro span held
      obtain ⟨fits,rfl⟩ := limits held
      exact soon fits
    have young : (start { config with idleSeconds := none } tree).store.Young begun := Store.empty_young begun
    exact (call_stopping.ended went).trans (runs_limited seconds young behind)

theorem idle_limit_leaves_the_calendar :
    let server := start { Config.standard with idleSeconds := some 9000000000000 } ⟨[],[]⟩
    let now : Instant := 1767225600 * second
    9000000000000 < Nat.pow 2 64 ∧ server.store.create? "a" "calculate" Calculate.schema now [] = none ∧
      server.store.getOrCreate? "a" "calculate" Calculate.schema now [] = none ∧
      server.store.get? "a" now [] = none ∧ server.store.list? now [] = none ∧
      server.call? ⟨"calculate",[],⟨now,"generated"⟩⟩ = none :=
  ⟨by decide,rfl,rfl,rfl,rfl,rfl⟩

end Server

end ToolDialogue
