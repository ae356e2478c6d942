import ToolDialogue.Proofs.Dialogue.Asking
import ToolDialogue.Proofs.Dialogue.Standing

namespace ToolDialogue

variable {σ : Type}

namespace Text

def behindLast? (mark : List Char) : List Char → Option (List Char)
  | [] => if mark = [] then some [] else none
  | c :: rest =>
    (behindLast? mark rest).or (if mark.isPrefixOf (c :: rest) then some ((c :: rest).drop mark.length) else none)

structure Last (mark text front back : List Char) : Prop where
  here : text = front ++ (mark ++ back)
  latest : ∀ other rest, text = other ++ (mark ++ rest) → other.length ≤ front.length

variable {mark text front back stem part tail : List Char} {c : Char}

theorem behindLast?_eq_none (absent : ¬mark <:+: text) : behindLast? mark text = none := by
  induction text with
  | nil =>
    rw [behindLast?,if_neg]
    intro empty
    exact absent (empty ▸ List.infix_refl [])
  | cons c rest ih =>
    have later : ¬mark <:+: rest := fun found => absent (found.trans (List.suffix_cons c rest).isInfix)
    have here : ¬mark.isPrefixOf (c :: rest) = true :=
      fun starts => absent (List.isPrefixOf_iff_prefix.mp starts).isInfix
    rw [behindLast?,ih later,if_neg here]
    rfl

theorem Last.behindLast? (last : Last mark text front back) : behindLast? mark text = some back := by
  induction text generalizing front with
  | nil =>
    obtain ⟨-,tail⟩ := List.append_eq_nil_iff.mp last.here.symm
    obtain ⟨rfl,rfl⟩ := List.append_eq_nil_iff.mp tail
    rfl
  | cons c text ih =>
    cases front with
    | cons d front =>
      obtain ⟨rfl,same⟩ := List.cons.inj last.here
      have later : Last mark text front back := by
        refine ⟨same,?_⟩
        intro other rest split
        exact Nat.le_of_succ_le_succ (last.latest (c :: other) rest (by simp [split]))
      rw [Text.behindLast?,ih later]
      rfl
    | nil =>
      have absent : ¬mark <:+: text := by
        intro found
        obtain ⟨other,rest,split⟩ := found
        exact absurd (last.latest (c :: other) rest (by simp [← split])) (Nat.not_succ_le_zero _)
      have whole : c :: text = mark ++ back := last.here
      rw [Text.behindLast?,behindLast?_eq_none absent,whole,
        if_pos (List.isPrefixOf_iff_prefix.mpr (List.prefix_append mark back)),List.drop_left]
      rfl

-- A mark of which the last character is found once more behind it, at the end of a part that does not
-- end as the mark does.
theorem last_of_closed {d : Char} (other : d ≠ c) (plain : c ∉ part) (closed : c ∉ tail)
    (ends : part.getLast? ≠ some d) (front : List Char) :
    Last (stem ++ [d,c]) (front ++ (stem ++ [d,c] ++ (part ++ c :: tail))) front (part ++ c :: tail) := by
  refine ⟨rfl,?_⟩
  intro before rest same
  have whole : (front ++ stem ++ [d]) ++ c :: (part ++ c :: tail) = (before ++ stem ++ [d]) ++ c :: rest := by
    simpa using same
  rcases List.append_eq_append_iff.mp whole with ⟨more,later,behind⟩ | ⟨more,earlier,-⟩
  · cases more with
    | nil =>
      have lengths := congrArg List.length later
      simp only [List.length_append,List.length_nil] at lengths
      omega
    | cons e more =>
      obtain ⟨rfl,between⟩ := List.cons.inj behind
      have same : more = part := by
        rcases List.append_eq_append_iff.mp between with ⟨gap,rfl,split⟩ | ⟨gap,rfl,split⟩
        · cases gap with
          | nil => simp
          | cons f gap => exact absurd (by simp [(List.cons.inj split).2]) closed
        · cases gap with
          | nil => simp
          | cons f gap => exact absurd (by simp [(List.cons.inj split).1]) plain
      have last := congrArg List.getLast? later
      rw [same,List.getLast?_concat,List.getLast?_append,List.getLast?_cons] at last
      cases final : part.getLast? with
      | none => exact absurd (by simpa [final] using last) other
      | some e => exact absurd (by simpa [final] using last.symm) ends
  · have lengths := congrArg List.length earlier
    simp only [List.length_append,List.length_singleton] at lengths
    omega

end Text

namespace Outcome

def shownId? (reply : String) : Option String :=
  (Text.behindLast? marker.toList reply.toList).bind fun behind =>
    if '`' ∈ behind then some (String.ofList (behind.takeWhile (· ≠ '`'))) else none

theorem text_closed (outcome : Outcome) : ∃ lead close : String, ∃ tail : List Char,
    outcome.text = lead ++ marker ++ outcome.id ++ close ∧ close.toList = '`' :: tail ∧ '`' ∉ tail := by
  cases outcome with
  | awaiting tool parameter description id =>
    refine ⟨_,_,"\nPlease call the tool again with this parameter.".toList,String.append_assoc,?_,?_⟩
    · decide +kernel
    · decide +kernel
  | completed output id => exact ⟨output ++ "\n\n","`",[],rfl,rfl,by simp⟩
  | failed tool message id =>
    refine ⟨_,_,"\nPlease call the tool again with corrected parameters.".toList,String.append_assoc,?_,?_⟩
    · decide +kernel
    · decide +kernel

-- The blank at the end of the mark keeps a trimmed id from making up a later mark with its backtick.
theorem shownId?_text {outcome : Outcome} (tight : Text.Tight outcome.id) :
    shownId? outcome.text = some outcome.id ↔ '`' ∉ outcome.id.toList := by
  constructor
  · intro shown
    obtain ⟨behind,-,taken⟩ := Option.bind_eq_some_iff.mp shown
    split at taken
    · rw [← Option.some.inj taken,String.toList_ofList]
      intro member
      exact absurd (List.mem_takeWhile_imp member) (by simp)
    · cases taken
  · intro plain
    obtain ⟨lead,close,tail,spelled,closes,closed⟩ := outcome.text_closed
    have mark : marker.toList = "Session ID:".toList ++ [' ','`'] := by decide
    have whole : outcome.text.toList =
        lead.toList ++ ("Session ID:".toList ++ [' ','`'] ++ (outcome.id.toList ++ '`' :: tail)) := by
      rw [spelled,String.toList_append,String.toList_append,String.toList_append,mark,closes]
      simp only [List.append_assoc]
    have unblanked : outcome.id.toList.getLast? ≠ some ' ' := by
      intro blank
      exact absurd (tight.back ' ' blank) (by decide)
    have last : Text.Last ("Session ID:".toList ++ [' ','`']) _ lead.toList (outcome.id.toList ++ '`' :: tail) :=
      Text.last_of_closed (by decide) plain closed unblanked lead.toList
    have taken : (outcome.id.toList ++ '`' :: tail).takeWhile (· ≠ '`') = outcome.id.toList := by
      rw [List.takeWhile_append_of_pos]
      · simp
      · intro c member
        simpa using fun same : c = '`' => plain (same ▸ member)
    rw [shownId?,whole,mark,last.behindLast?,Option.bind_some,if_pos (by simp),taken,String.ofList_toList]

end Outcome

namespace Call

theorem settle_id (call : Call) (store : Store) (waits : List Interlude) : (call.settle store waits).id = call.id := by
  induction waits generalizing store with
  | nil => exact call.resolve_id store
  | cons wait later ih =>
    rw [settle]
    split
    · exact call.resolve_id store
    · exact ih _

theorem finish_id (call : Call) (job : Job σ) (id : String) (handle : Handle) (session : Session) (store : Store)
    (world : σ) : (call.finish job id handle session store world).outcome.id = id := by
  cases missing : session.nextMissing? with
  | some parameter =>
    rw [finish_awaiting missing]
    rfl
  | none =>
    rcases done : job session.collected world with ⟨error | output,after⟩
    · rw [finish_failed missing done]
      rfl
    · rw [finish_completed missing done]
      rfl

theorem runAmong_id (call : Call) (waits : List Interlude) (job : Job σ) (store : Store) (world : σ) :
    (call.runAmong waits job store world).outcome.id = call.id :=
  (call.finish_id ..).trans (call.settle_id store waits)

end Call

-- Whatever a tool, its parameters and its job say in a reply: behind the last mark and up to the next
-- backtick stands the session's id, exactly if the id itself has no backtick. And whoever sends
-- the id back comes to the session under that id.
theorem reply_shows_session (call : Call) (generated : call.Generated) (waits : List Call.Interlude) (job : Job σ)
    (store : Store) (world : σ) :
    let outcome := (call.runAmong waits job store world).outcome
    (Outcome.shownId? outcome.text = some outcome.id ↔ '`' ∉ outcome.id.toList) ∧
      ∀ next : Call, Table.get? sessionArgument next.arguments = some (.text outcome.id) →
        requestedId? next.arguments = some outcome.id ∧
        ∀ store waits, (next.settle store waits).id = outcome.id := by
  intro outcome
  have named : outcome.id = call.id := call.runAmong_id waits job store world
  have tight : Text.Tight outcome.id := named ▸ Call.id_tight generated
  refine ⟨Outcome.shownId?_text tight,?_⟩
  intro next sent
  have asked := requestedId?_tight sent tight
  refine ⟨asked,?_⟩
  intro store waits
  rw [next.settle_id,Call.id,asked]
  rfl

theorem reply_shows_session_behind_a_forged_mark :
    let call : Call := ⟨"tool",.empty,[("session_id",.text " s ")],Identifier.ofRandom 0,0⟩
    let job : Job Nat := fun _ runs => (.ok "Session ID: `t`\n\nSession ID: `",runs + 1)
    let outcome := (call.runAmong [fun store => store.delete "s"] job .empty 0).outcome
    call.Generated ∧ outcome.text = "Session ID: `t`\n\nSession ID: `\n\nSession ID: `s`" ∧
      Outcome.shownId? outcome.text = some "s" ∧
      Table.get? sessionArgument [("session_id",Json.text "s")] = some (.text "s") ∧
      requestedId? [("session_id",.text "s")] = some "s" := by
  intro call job outcome
  have generated : call.Generated := ⟨0,rfl⟩
  have named : outcome.id = "s" := by decide +kernel
  obtain ⟨shown,back⟩ := reply_shows_session call generated [fun store => store.delete "s"] job .empty 0
  have sent := back ⟨"tool",.empty,[("session_id",.text outcome.id)],"",0⟩ rfl
  have found := shown.mpr (by rw [named]; decide)
  rw [named] at sent
  refine ⟨generated,by decide +kernel,named ▸ found,rfl,sent.1⟩

end ToolDialogue
