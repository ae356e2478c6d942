import ToolDialogue.Proofs.Dialogue.Asking
import ToolDialogue.Proofs.Dialogue.Standing
import ToolDialogue.Proofs.Server.Guard

namespace ToolDialogue

namespace AskingTool

variable {tool owner : AskingTool}

theorem ofName?_name (tool : AskingTool) : Tool.ofName? tool.name = some (.asking tool) :=
  Tool.ofName?_name (.asking tool)

theorem requiredNames_distinct (tool : AskingTool) : tool.schema.requiredNames.Nodup := by
  cases tool <;> decide

theorem sessionArgument_undeclared (tool : AskingTool) : sessionArgument ∉ tool.schema.requiredNames := by
  cases tool <;> decide

theorem merged?_answer (owner : AskingTool) {value : Json} (counts : value.Counts) {name : String}
    (declared : name ∈ owner.schema.requiredNames) (parameter id : String) :
    merged? owner.schema (answer parameter id value) name = if name = parameter then some value else none := by
  have mandatory := (names_apart owner owner declared).1
  have plain : name ≠ sessionArgument := by
    rintro rfl
    exact owner.sessionArgument_undeclared declared
  rw [merged?_required mandatory declared,supplied?_answer counts plain]

end AskingTool

namespace Server

def turnOf? (server : Server) (use : Use) : Option (AskingTool × Turn File.Tree) :=
  match Tool.ofName? use.name with
  | some (.asking tool) => some (tool,server.turn tool use.arguments use.moment)
  | _ => none

def answering (named parameter id : String) (value : Json) (moment : Moment) : Use :=
  ⟨named,answer parameter id value,moment⟩

-- The turns of a caller who gives what each reply asks for, as long as one does.
def follow (server : Server) : Outcome → List (Json × Moment) → List (AskingTool × Turn File.Tree)
  | .awaiting named parameter _ id,(value,moment) :: later =>
    let use := answering named parameter id value moment
    match server.turnOf? use with
    | some (tool,turn) => (tool,turn) :: (server.serve [use]).follow turn.outcome later
    | none => []
  | _,_ => []

variable {server : Server} {use : Use} {tool : AskingTool} {turn : Turn File.Tree}

theorem turnOf?_run (made : server.turnOf? use = some (tool,turn)) :
    Tool.ofName? use.name = some (.asking tool) ∧ turn =
      (tool.call use.arguments use.moment).run (tool.job server.config use.moment.now) server.store server.tree := by
  unfold turnOf? at made
  split at made
  · next found =>
    cases made
    exact ⟨found,rfl⟩
  · cases made

theorem callTool_turn (made : server.turnOf? use = some (tool,turn)) :
    server.callTool use.name use.arguments use.moment =
      (turn.outcome.reply,{ server with store := turn.store, tree := turn.world }) := by
  obtain ⟨found,rfl⟩ := turnOf?_run made
  simp only [callTool,found]
  rfl

theorem serve_turn (made : server.turnOf? use = some (tool,turn)) :
    server.serve [use] = { server with store := turn.store, tree := turn.world } := by
  simp only [serve,List.foldl_cons,List.foldl_nil,callTool_turn made]

theorem lasting_unlimited : Lasting fun store => store.Sound ∧ store.idleLimit = none := by
  constructor
  · intro store call job world ⟨sound,unlimited⟩
    exact ⟨call.run_sound job sound world,(call.run_idleLimit job store world).trans unlimited⟩
  · intro store now ⟨sound,unlimited⟩
    exact ⟨sound.purge now,Store.purge_idleLimit.trans unlimited⟩

theorem lasting_past (handle : Handle) (name : String) : Lasting fun store => store.Sound ∧ store.Past handle name := by
  constructor
  · intro store call job world ⟨sound,past⟩
    exact ⟨call.run_sound job sound world,Call.run_past sound.placed past⟩
  · intro store now ⟨sound,missing,here,absent⟩
    exact ⟨sound.purge now,missing,by rw [Store.purge_missing?,here],absent⟩

end Server

namespace Store

structure Asks (store : Store) (owner : AskingTool) (id : String) (handle : Handle) (missing : List String) : Prop where
  sound : store.Sound
  unlimited : store.idleLimit = none
  registered : Table.get? id store.registered = some handle
  session : ∃ session, store.session? handle = some session ∧ session.tool = owner.name ∧ session.missing = missing
  listed : missing.Sublist owner.schema.requiredNames

variable {store : Store} {owner : AskingTool} {id parameter : String} {handle : Handle} {rest : List String}
  {value : Json}

theorem Asks.apart (asks : store.Asks owner id handle (parameter :: rest)) : parameter ∉ rest := by
  have distinct := asks.listed.nodup owner.requiredNames_distinct
  exact (List.nodup_cons.mp distinct).1

theorem asks_run {call : Call} (sound : store.Sound) (unlimited : store.idleLimit = none)
    (named : (call.merged store).tool = owner.name) (missing : (call.merged store).missing = parameter :: rest)
    (listed : (parameter :: rest).Sublist owner.schema.requiredNames) (job : Job File.Tree) (world : File.Tree) :
    (call.run job store world).store.Asks owner call.id (call.resolve store).handle (parameter :: rest) := by
  obtain ⟨-,registered⟩ := call.resolve_sound sound
  obtain ⟨-,description,asked⟩ := Call.run_asks job world missing
  have stays : (call.run job store world).outcome.isCompleted = false := by
    rw [asked]
    rfl
  refine ⟨call.run_sound job sound world,(call.run_idleLimit job store world).trans unlimited,?_,?_,listed⟩
  · rw [Call.run_store,stays,if_neg Bool.false_ne_true,modify_registered]
    exact registered
  · refine ⟨call.merged store,?_,named,missing⟩
    rw [call.run_sessions job sound.placed,if_pos rfl,stays]
    rfl

theorem Asks.merged (asks : store.Asks owner id handle (parameter :: rest)) (tight : Text.Tight id)
    (counts : value.Counts) (moment : Moment) :
    let call := owner.call (answer parameter id value) moment
    call.id = id ∧ call.resolve store = ⟨id,handle,store⟩ ∧ (call.merged store).tool = owner.name ∧
      (call.merged store).missing = rest := by
  intro call
  have asked : requestedId? call.arguments = some id := requestedId?_answer tight parameter value
  have resolved : call.resolve store = ⟨id,handle,store⟩ := by
    simp only [Call.resolve,asked,getOrCreate,purge_unlimited asks.unlimited,asks.registered]
  obtain ⟨session,here,tool,missing⟩ := asks.session
  have brought : ∀ name ∈ parameter :: rest, merged? call.schema call.arguments name =
      if name = parameter then some value else none := by
    intro name member
    exact owner.merged?_answer counts (asks.listed.subset member) parameter id
  have taken : (merged? call.schema call.arguments parameter).isNone = false := by
    rw [brought parameter List.mem_cons_self,if_pos rfl]
    rfl
  have left : ∀ name ∈ rest, (merged? call.schema call.arguments name).isNone = true := by
    intro name member
    have other : name ≠ parameter := by
      rintro rfl
      exact asks.apart member
    rw [brought name (List.mem_cons_of_mem _ member),if_neg other]
    rfl
  refine ⟨by simp [Call.id,asked],resolved,?_,?_⟩
  · rw [Call.merged,resolved,here]
    exact (Session.absorb_tool _ _ _).trans tool
  · have asking : store.missing? (call.resolve store).handle = some (parameter :: rest) := by
      rw [resolved,missing?,here,Option.map_some,missing]
    rw [Call.merged_missing asking,List.filter_cons,taken,if_neg Bool.false_ne_true,List.filter_eq_self]
    exact left

theorem Asks.missing? {missing : List String} (asks : store.Asks owner id handle missing) :
    store.missing? handle = some missing := by
  obtain ⟨session,here,-,rfl⟩ := asks.session
  rw [Store.missing?,here]
  rfl

section

variable {job : Job File.Tree} {world : File.Tree}

theorem Asks.answer_missing (asks : store.Asks owner id handle (parameter :: rest)) (tight : Text.Tight id)
    (counts : value.Counts) (moment : Moment) :
    ((owner.call (answer parameter id value) moment).run job store world).store.missing? handle = some rest := by
  obtain ⟨-,resolved,-,missing⟩ := asks.merged tight counts moment
  rw [Call.run_missing? _ job asks.sound.placed,resolved,if_pos rfl,missing]

theorem Asks.answer_next {next : String} (asks : store.Asks owner id handle (parameter :: next :: rest))
    (tight : Text.Tight id) (counts : value.Counts) (moment : Moment) :
    let turn := (owner.call (answer parameter id value) moment).run job store world
    turn.ranOn = none ∧ (∃ description, turn.outcome = .awaiting owner.name next description id) ∧
      turn.store.Asks owner id handle (next :: rest) := by
  intro turn
  obtain ⟨named,resolved,tool,missing⟩ := asks.merged tight counts moment
  obtain ⟨idle,description,asked⟩ := Call.run_asks job world missing
  have listed := (List.sublist_cons_self parameter (next :: rest)).trans asks.listed
  have left := asks_run asks.sound asks.unlimited tool missing listed job world
  rw [named,resolved] at left
  rw [tool,named] at asked
  exact ⟨idle,⟨description,asked⟩,left⟩

theorem Asks.answer_reports (asks : store.Asks owner id handle (parameter :: rest)) (tight : Text.Tight id)
    (counts : value.Counts) (moment : Moment) :
    Call.Reports job world id ((owner.call (answer parameter id value) moment).run job store world) := by
  obtain ⟨named,-⟩ := asks.merged tight counts moment
  have reports := (Call.run_ended (owner.call (answer parameter id value) moment) job store world).reports
  rwa [named] at reports

theorem Asks.answer_last (asks : store.Asks owner id handle [parameter]) (tight : Text.Tight id)
    (counts : value.Counts) (moment : Moment) :
    let turn := (owner.call (answer parameter id value) moment).run job store world
    turn.ranOn.isSome ∧ ∀ tool name description id, turn.outcome ≠ .awaiting tool name description id := by
  obtain ⟨-,-,-,missing⟩ := asks.merged tight counts moment
  exact Call.run_runs missing

end

end Store

namespace Server

variable {server : Server} {owner tool : AskingTool} {turn : Turn File.Tree} {handle : Handle}
  {id parameter named description : String} {rest : List String}

theorem turnOf?_answering (server : Server) (owner : AskingTool) (parameter id : String) (value : Json)
    (moment : Moment) :
    server.turnOf? (answering owner.name parameter id value moment) =
      some (owner,server.turn owner (answer parameter id value) moment) := by
  simp only [turnOf?,answering,owner.ofName?_name]

theorem follow_awaiting (server : Server) (owner : AskingTool) (parameter description id : String) (value : Json)
    (moment : Moment) (later : List (Json × Moment)) :
    let turn := server.turn owner (answer parameter id value) moment
    server.follow (.awaiting owner.name parameter description id) ((value,moment) :: later) =
      (owner,turn) :: (server.serve [answering owner.name parameter id value moment]).follow turn.outcome later := by
  simp only [follow,turnOf?_answering]

theorem follow_ended {outcome : Outcome}
    (ended : ∀ tool name description id, outcome ≠ .awaiting tool name description id)
    (answers : List (Json × Moment)) : server.follow outcome answers = [] := by
  cases outcome with
  | awaiting tool name description id => exact absurd rfl (ended tool name description id)
  | completed output id => simp only [follow]
  | failed tool message id => simp only [follow]

section

variable {value : Json}

theorem follow_last (asks : server.store.Asks owner id handle [parameter]) (tight : Text.Tight id)
    (description : String) (counts : value.Counts) (moment : Moment)
    (later : List (Json × Moment)) :
    ∃ turn, server.follow (.awaiting owner.name parameter description id) ((value,moment) :: later) = [(owner,turn)] ∧
      turn.ranOn.isSome ∧ Call.Reports (owner.job server.config moment.now) server.tree id turn := by
  let turn := server.turn owner (answer parameter id value) moment
  obtain ⟨ran,ended⟩ : turn.ranOn.isSome ∧ ∀ tool name description id,
      turn.outcome ≠ .awaiting tool name description id := asks.answer_last tight counts moment
  refine ⟨turn,?_,ran,asks.answer_reports tight counts moment⟩
  rw [← follow_ended ended later]
  exact follow_awaiting server owner parameter description id value moment later

-- A turn that only asks leaves the files as they were.
theorem follow_next {next : String} (asks : server.store.Asks owner id handle (parameter :: next :: rest))
    (tight : Text.Tight id) (description : String) (counts : value.Counts) (moment : Moment)
    (later : List (Json × Moment)) :
    ∃ turn text, server.follow (.awaiting owner.name parameter description id) ((value,moment) :: later) =
        (owner,turn) :: follow { server with store := turn.store } (.awaiting owner.name next text id) later ∧
      turn.ranOn = none ∧ Call.Reports (owner.job server.config moment.now) server.tree id turn ∧
      turn.store.Asks owner id handle (next :: rest) := by
  let turn := server.turn owner (answer parameter id value) moment
  obtain ⟨idle,⟨text,asked⟩,left⟩ : turn.ranOn = none ∧
      (∃ text, turn.outcome = .awaiting owner.name next text id) ∧ turn.store.Asks owner id handle (next :: rest) :=
    asks.answer_next tight counts moment
  have reports : Call.Reports (owner.job server.config moment.now) server.tree id turn :=
    asks.answer_reports tight counts moment
  have untouched : turn.world = server.tree := by
    rw [reports.effect,idle]
    rfl
  have after : server.serve [answering owner.name parameter id value moment] = { server with store := turn.store } := by
    rw [serve_turn (turnOf?_answering server owner parameter id value moment),← untouched]
  refine ⟨turn,text,?_,idle,reports,left⟩
  rw [← asked,← after]
  exact follow_awaiting server owner parameter description id value moment later

end

-- One turn for each missing name, of the owner, and only the last one runs its job.
-- Induction on the names that remain.
theorem follow_asks (asks : server.store.Asks owner id handle (parameter :: rest)) (tight : Text.Tight id)
    (description : String) {answers : List (Json × Moment)} (count : ∀ given ∈ answers, given.1.Counts)
    (enough : rest.length < answers.length) :
    let turns := server.follow (.awaiting owner.name parameter description id) answers
    turns.length = rest.length + 1 ∧ ∀ place tool turn, turns[place]? = some (tool,turn) →
      tool = owner ∧ (turn.ranOn.isSome ↔ place = rest.length) ∧ ∃ value moment,
        answers[place]? = some (value,moment) ∧
          Call.Reports (owner.job server.config moment.now) server.tree id turn := by
  intro turns
  induction rest generalizing server parameter description answers with
  | nil =>
    obtain ⟨⟨value,moment⟩,later,rfl⟩ := List.exists_cons_of_length_pos enough
    obtain ⟨counts,-⟩ := List.forall_mem_cons.mp count
    obtain ⟨turn,only,ran,reports⟩ := follow_last asks tight description counts moment later
    rw [show turns = [(owner,turn)] from only]
    refine ⟨rfl,?_⟩
    intro place tool turn made
    cases place with
    | zero =>
      cases made
      exact ⟨rfl,iff_of_true ran rfl,value,moment,rfl,reports⟩
    | succ place => cases made
  | cons next more ih =>
    obtain ⟨⟨value,moment⟩,later,rfl⟩ := List.exists_cons_of_length_pos (Nat.zero_lt_of_lt enough)
    obtain ⟨counts,later_count⟩ := List.forall_mem_cons.mp count
    obtain ⟨turn,text,split,idle,reports,left⟩ := follow_next asks tight description counts moment later
    obtain ⟨length,turned⟩ := @ih { server with store := turn.store } next left text later later_count
      (Nat.lt_of_succ_lt_succ enough)
    rw [show turns = _ from split]
    refine ⟨by rw [List.length_cons,length,List.length_cons],?_⟩
    intro place tool other made
    cases place with
    | zero =>
      cases made
      refine ⟨rfl,iff_of_false ?_ (Nat.succ_ne_zero _).symm,value,moment,rfl,reports⟩
      rw [idle]
      exact Bool.false_ne_true
    | succ place =>
      obtain ⟨own,runs,brought⟩ := turned place tool other made
      exact ⟨own,runs.trans Nat.succ_inj.symm,brought⟩

theorem merged_owned (config : Config) (tree : File.Tree) (uses : List Use) (tool : AskingTool)
    (arguments : Arguments) (moment : Moment) :
    ∃ owner : AskingTool, ((tool.call arguments moment).merged ((start config tree).serve uses).store).tool = owner.name ∧
      ((tool.call arguments moment).merged ((start config tree).serve uses).store).missing.Sublist
        owner.schema.requiredNames := by
  rw [(serve_history config tree uses).2.1]
  obtain ⟨first,session⟩ := (history_kept config tree uses).merged (tool.call arguments moment)
  obtain ⟨owner,given,begun,rfl⟩ := sessionCalls_made first (List.mem_of_mem_head? session.begun)
  refine ⟨owner,session.tool,?_⟩
  rw [session.missing]
  exact List.filter_sublist

theorem start_sound (config : Config) (tree : File.Tree) : (start config tree).store.Sound := by
  unfold start
  cases config.idleSeconds with
  | none => exact Store.empty_sound none
  | some seconds => exact Store.empty_sound (Span.ofSeconds? seconds)

theorem asks_of_reply {config : Config} {tree : File.Tree} {uses : List Use} {use : Use}
    (unlimited : (start config tree).store.idleLimit = none)
    (made : ((start config tree).serve uses).turnOf? use = some (tool,turn))
    (asked : turn.outcome = .awaiting named parameter description id) :
    ∃ owner : AskingTool, ∃ handle rest, owner.name = named ∧ (tool.call use.arguments use.moment).id = id ∧
      ((start config tree).serve (uses ++ [use])).store.Asks owner id handle (parameter :: rest) := by
  obtain ⟨sound,endless⟩ := lasting_unlimited.serve ⟨start_sound config tree,unlimited⟩ uses
  obtain ⟨owner,tooled,listed⟩ := merged_owned config tree uses tool use.arguments use.moment
  rw [serve_append,serve_turn made]
  generalize (start config tree).serve uses = server at made sound endless tooled listed
  obtain ⟨-,rfl⟩ := turnOf?_run made
  obtain ⟨⟨rest,missing⟩,rfl,rfl⟩ := Call.run_awaiting asked
  rw [missing] at listed
  exact ⟨owner,_,rest,tooled.symm,rfl,Store.asks_run sound endless tooled missing listed _ _⟩

-- What a reply that asks for a parameter says about the session with the id, the turns of
-- those who answer it included.
structure Guides (server : Server) (outcome : Outcome) (owner : AskingTool) (handle : Handle)
    (parameter id : String) (rest : List String) : Prop where
  registered : Table.get? id server.store.registered = some handle
  missing : server.store.missing? handle = some (parameter :: rest)
  apart : parameter ∉ rest
  -- an answer takes away the name asked for, alone
  shortens : ∀ value moment, value.Counts →
    (server.serve [answering owner.name parameter id value moment]).store.missing? handle = some rest
  -- whatever is called after it and goes on with the session does not ask for that again
  settled : ∀ value moment, value.Counts → ∀ later use tool turn,
    let after := (server.serve [answering owner.name parameter id value moment]).serve later
    after.turnOf? use = some (tool,turn) →
    ((tool.call use.arguments use.moment).resolve after.store).handle = handle →
    ∀ named description other, turn.outcome ≠ .awaiting named parameter description other
  -- who goes on answering has the job run with the last of the missing names, not before, and
  -- on the files as they were
  completes : ∀ answers : List (Json × Moment), (∀ given ∈ answers, given.1.Counts) → rest.length < answers.length →
    let turns := server.follow outcome answers
    turns.length = rest.length + 1 ∧ ∀ place tool turn, turns[place]? = some (tool,turn) →
      tool = owner ∧ (turn.ranOn.isSome ↔ place = rest.length) ∧ ∃ value moment,
        answers[place]? = some (value,moment) ∧
          Call.Reports (owner.job server.config moment.now) server.tree id turn

theorem guides_of_asks (asks : server.store.Asks owner id handle (parameter :: rest)) (tight : Text.Tight id)
    (description : String) :
    server.Guides (.awaiting owner.name parameter description id) owner handle parameter id rest := by
  have shortens : ∀ value moment, value.Counts →
      (server.serve [answering owner.name parameter id value moment]).store.missing? handle = some rest := by
    intro value moment counts
    rw [serve_turn (turnOf?_answering server owner parameter id value moment)]
    exact asks.answer_missing tight counts moment
  refine ⟨asks.registered,asks.missing?,asks.apart,shortens,?_,?_⟩
  · intro value moment counts later use tool turn after made same named description other
    obtain ⟨sound,-⟩ := lasting_unlimited.serve ⟨asks.sound,asks.unlimited⟩ [answering owner.name parameter id value moment]
    have answered : (server.serve [answering owner.name parameter id value moment]).store.Past handle parameter :=
      ⟨rest,shortens value moment counts,asks.apart⟩
    obtain ⟨-,past⟩ := (lasting_past handle parameter).serve ⟨sound,answered⟩ later
    obtain ⟨-,rfl⟩ := turnOf?_run made
    exact Call.run_not_asked past same named description other
  · intro answers count enough
    exact follow_asks asks tight description count enough

-- Where sessions do not expire, whoever does what the replies say gets the job of the tool done.
theorem replies_guide (config : Config) (tree : File.Tree) (uses : List Use) (use : Use)
    (unlimited : (start config tree).store.idleLimit = none)
    (generated : (tool.call use.arguments use.moment).Generated)
    (made : ((start config tree).serve uses).turnOf? use = some (tool,turn))
    (asked : turn.outcome = .awaiting named parameter description id) :
    ∃ owner : AskingTool, ∃ handle rest, owner.name = named ∧
      ((start config tree).serve (uses ++ [use])).Guides turn.outcome owner handle parameter id rest := by
  obtain ⟨owner,handle,rest,rfl,rfl,asks⟩ := asks_of_reply unlimited made asked
  refine ⟨owner,handle,rest,rfl,?_⟩
  rw [asked]
  exact guides_of_asks asks (Call.id_tight generated) description

theorem replies_guide_across_tools :
    let uses : List Use := [⟨"create_file",[("session_id",.text "s")],⟨0,"first"⟩⟩]
    let use : Use := ⟨"calculate",[("session_id",.text " s "),("expression",.text "1")],⟨1,Identifier.ofRandom 0⟩⟩
    let server := (start .standard ⟨[],[]⟩).serve uses
    let turn := server.turn .calculate use.arguments use.moment
    (start .standard ⟨[],[]⟩).store.idleLimit = none ∧
      (AskingTool.calculate.call use.arguments use.moment).Generated ∧
      server.turnOf? use = some (.calculate,turn) ∧
      turn.outcome = .awaiting "create_file" "file_path" "file_path" "s" ∧
      ∃ owner : AskingTool, ∃ handle rest, owner.name = "create_file" ∧
        ((start .standard ⟨[],[]⟩).serve (uses ++ [use])).Guides turn.outcome owner handle "file_path" "s" rest := by
  intro uses use server turn
  have generated : (AskingTool.calculate.call use.arguments use.moment).Generated := ⟨0,rfl⟩
  have made : server.turnOf? use = some (.calculate,turn) := rfl
  have asked : turn.outcome = .awaiting "create_file" "file_path" "file_path" "s" := by decide +kernel
  exact ⟨rfl,generated,made,asked,replies_guide .standard ⟨[],[]⟩ uses use rfl generated made asked⟩

end Server

end ToolDialogue
