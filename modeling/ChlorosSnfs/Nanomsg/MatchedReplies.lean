import ChlorosSnfs.Nanomsg.Moves

/-!
# A reply is to the last request

What `nn_recv` gives to a client is a reply that the server computed, after the client
last called `nn_send`, for what the client then sent.  Stale replies, resent requests,
lost connections and strangers do not get in the way.
-/

set_option autoImplicit false

namespace ChlorosSnfs.Nanomsg.MatchedReplies

open ChlorosSnfs.Library.Runs
open ChlorosSnfs.Nanomsg.Wire
open ChlorosSnfs.Nanomsg.ReqSocket
open ChlorosSnfs.Nanomsg.ReqStates
open ChlorosSnfs.Nanomsg.RepSocket
open ChlorosSnfs.Nanomsg.ReqRep
open ChlorosSnfs.Nanomsg.Flows
open ChlorosSnfs.Nanomsg.ClientEnd
open ChlorosSnfs.Nanomsg.Conversations
open ChlorosSnfs.Nanomsg.Moves

variable {Client σ Context : Type} [DecidableEq Client] {first : Client → UInt32}
  {firstKey : UInt32} {sys next : System Client σ Context} {client : Client}
  {serve : Context → σ → Bytes → Option (σ × List Bytes)} {move : Move Client Context}

def IsSend (client : Client) (move : Move Client Context) : Prop :=
  ∃ body release, move = .send client body release

/-! ## One move -/

/-- The server has carried out a request, and is to send these replies. -/
structure Answered (serve : Context → σ → Bytes → Option (σ × List Bytes))
    (sys next : System Client σ Context) (execution : Execution σ Context) : Prop where
  handling : sys.handling = some execution.handling
  before : sys.state = execution.before
  served : serve execution.context execution.before execution.handling.body =
    some (next.state, execution.replies)
  recent : ∀ client, next.recent client = execution :: sys.recent client

/-- What is on record grows with what the server carries out, until the next call of
`nn_send`. -/
theorem act_recorded (acted : act serve sys move = some next) :
    (next.state = sys.state ∧
      ∀ client, ¬ IsSend client move → next.recent client = sys.recent client) ∨
    ∃ execution release, move = .answer execution.context release ∧
      Answered serve sys next execution := by
  cases move with
  | connect client =>
      cases acted
      exact Or.inl ⟨rfl, fun _ _ => rfl⟩
  | clientOut client release =>
      obtain ⟨⟨req, sending⟩, _, rfl⟩ := Option.map_eq_some_iff.mp acted
      cases sending <;> exact Or.inl ⟨rfl, fun _ _ => rfl⟩
  | send client body release =>
      obtain ⟨⟨req, sending⟩, _, rfl⟩ := Option.map_eq_some_iff.mp acted
      refine Or.inl ⟨?_, ?_⟩
      · cases sending <;> rfl
      · intro other notSend
        have foreign : other ≠ client := by
          rintro rfl
          exact notSend ⟨body, release, rfl⟩
        exact Function.update_of_ne foreign _ _
  | deliver client available =>
      simp only [act] at acted
      split at acted
      · cases acted
        exact Or.inl ⟨rfl, fun _ _ => rfl⟩
      · obtain ⟨⟨req, rest⟩, _, rfl⟩ := Option.map_eq_some_iff.mp acted
        exact Or.inl ⟨rfl, fun _ _ => rfl⟩
  | receive client =>
      obtain ⟨⟨_, req⟩, _, rfl⟩ := Option.map_eq_some_iff.mp acted
      exact Or.inl ⟨rfl, fun _ _ => rfl⟩
  | timeout client =>
      obtain ⟨⟨req, sending⟩, _, rfl⟩ := Option.map_eq_some_iff.mp acted
      cases sending <;> exact Or.inl ⟨rfl, fun _ _ => rfl⟩
  | timerStopped client release =>
      obtain ⟨⟨req, sending⟩, _, rfl⟩ := Option.map_eq_some_iff.mp acted
      cases sending <;> exact Or.inl ⟨rfl, fun _ _ => rfl⟩
  | disconnect client =>
      simp only [act] at acted
      split at acted
      · cases acted
        exact Or.inl ⟨rfl, fun _ _ => rfl⟩
      · obtain ⟨⟨req, sending⟩, _, rfl⟩ := Option.map_eq_some_iff.mp acted
        cases sending <;> exact Or.inl ⟨rfl, fun _ _ => rfl⟩
  | strangerConnects =>
      cases acted
      exact Or.inl ⟨rfl, fun _ _ => rfl⟩
  | strangerSends connection wire =>
      cases acted
      exact Or.inl ⟨rfl, fun _ _ => rfl⟩
  | accept connection =>
      obtain ⟨_, _, rfl⟩ := Option.map_eq_some_iff.mp acted
      exact Or.inl ⟨rfl, fun _ _ => rfl⟩
  | serverOut connection =>
      cases acted
      exact Or.inl ⟨rfl, fun _ _ => rfl⟩
  | serverDisconnect connection =>
      cases acted
      exact Or.inl ⟨rfl, fun _ _ => rfl⟩
  | serverReceive connection =>
      simp only [act] at acted
      split at acted <;> cases acted <;> exact Or.inl ⟨rfl, fun _ _ => rfl⟩
  | answer context release =>
      simp only [act] at acted
      split at acted
      · cases acted
        exact Or.inl ⟨rfl, fun _ _ => rfl⟩
      · rename_i handling handled
        obtain ⟨⟨state, replies⟩, served, rfl⟩ := Option.map_eq_some_iff.mp acted
        exact Or.inr ⟨⟨handling, context, sys.state, replies⟩, release, rfl, handled, rfl,
          served, fun _ => rfl⟩

theorem step_answer {context : Context} {release : Bool}
    {handling : Handling} (handled : sys.handling = some handling)
    (stepped : step serve sys (.answer context release) = some next) :
    ∃ replies, serve context sys.state handling.body = some (next.state, replies) := by
  obtain ⟨_, acted⟩ := step_eq_some stepped
  simp only [act, handled] at acted
  obtain ⟨⟨state, replies⟩, served, rfl⟩ := Option.map_eq_some_iff.mp acted
  exact ⟨replies, served⟩

/-- Between two calls of `nn_send` the request stays what it is. -/
structure RequestKept (sys next : System Client σ Context) (client : Client) : Prop where
  request : (next.reqs client).task.request = (sys.reqs client).task.request
  sends : next.sends client = sys.sends client

theorem requestKept_moved {other : Client} {req : Req} {sending : Sending}
    (request : req.task.request = (sys.reqs other).task.request) :
    RequestKept sys (sys.moved other req sending) client := by
  refine ⟨?_, by cases sending <;> rfl⟩
  rw [moved_reqs]
  by_cases same : client = other
  · rw [same, Function.update_self, request]
  · rw [Function.update_of_ne same]

theorem act_requestKept (holds : Holds first firstKey sys) (bounded : Bounded sys)
    (enabled : Enabled sys move) (acted : act serve sys move = some next)
    (notSend : ¬ IsSend client move) : RequestKept sys next client := by
  cases quiet : quietOf move with
  | some other =>
      obtain ⟨req, sending, moved, rfl, _⟩ := act_quiet holds enabled quiet acted
      exact requestKept_moved moved.request
  | none =>
      cases move <;> simp only [quietOf, reduceCtorEq] at quiet
      case connect other =>
          cases acted
          have kept : RequestKept (sys.opened (some other))
              ((sys.opened (some other)).moved other (nnReqAdd sys.count (sys.reqs other))
                none) client := requestKept_moved rfl
          exact ⟨kept.request, kept.sends⟩
      case send other body release =>
          obtain ⟨⟨req, sending⟩, _, rfl⟩ := Option.map_eq_some_iff.mp acted
          have foreign : client ≠ other := by
            rintro rfl
            exact notSend ⟨body, release, rfl⟩
          refine ⟨?_, Function.update_of_ne foreign _ _⟩
          simp only [moved_reqs, Function.update_of_ne foreign]
      case deliver other available =>
          obtain ⟨pipe, own⟩ := Option.ne_none_iff_exists'.mp enabled
          simp only [act, own] at acted
          obtain ⟨⟨req, rest⟩, took, rfl⟩ := Option.map_eq_some_iff.mp acted
          have before := holds.clients other
          have carried := holds.flows other pipe (before.pipe pipe own)
          rw [FlowsOf, ← List.take_append_drop available
            (sys.connections pipe).toClient] at carried
          have kept := (nnReqIn_took (before.pipe pipe own) (bounded.sends other) before.id
            own before.replied carried took).1
          have moved : RequestKept sys (sys.moved other req none) client :=
            requestKept_moved kept.request
          exact ⟨moved.request, moved.sends⟩
      case answer context release =>
          obtain ⟨handling, handled⟩ := Option.ne_none_iff_exists'.mp enabled
          simp only [act, handled] at acted
          obtain ⟨_, _, rfl⟩ := Option.map_eq_some_iff.mp acted
          exact ⟨rfl, rfl⟩
      case accept =>
          obtain ⟨rep, _, rfl⟩ := Option.map_eq_some_iff.mp acted
          exact ⟨rfl, rfl⟩
      case serverReceive =>
          simp only [act] at acted
          split at acted <;> cases acted <;> exact ⟨rfl, rfl⟩
      all_goals
        cases acted
        exact ⟨rfl, rfl⟩

/-- A connection stays whose it is. -/
structure OwnersKept (sys next : System Client σ Context) : Prop where
  count : sys.count ≤ next.count
  owner : ∀ connection, connection < sys.count →
    (next.connections connection).owner = (sys.connections connection).owner

omit [DecidableEq Client] in
theorem ownersKept_of_update {index : Nat} {connection : Connection Client}
    (connections : next.connections = Function.update sys.connections index connection)
    (owner : connection.owner = (sys.connections index).owner)
    (count : next.count = sys.count) : OwnersKept sys next := by
  refine ⟨count.ge, ?_⟩
  intro other _
  rw [connections]
  exact withConnection_same sys Connection.owner connection owner other

omit [DecidableEq Client] in
theorem ownersKept_opened (owner : Option Client) : OwnersKept sys (sys.opened owner) := by
  refine ⟨Nat.le_succ _, ?_⟩
  intro connection known
  rw [opened_of_ne sys owner (Nat.ne_of_lt known)]

theorem ownersKept_moved (other : Client) (req : Req) (sending : Sending) :
    OwnersKept sys (sys.moved other req sending) := by
  cases sending with
  | none => exact ⟨le_rfl, fun _ _ => rfl⟩
  | some sent => exact ownersKept_of_update rfl rfl rfl

theorem act_ownersKept (acted : act serve sys move = some next) : OwnersKept sys next := by
  cases move with
  | connect client =>
      cases acted
      exact ⟨(ownersKept_opened (some client)).count, (ownersKept_opened (some client)).owner⟩
  | clientOut client release =>
      obtain ⟨⟨req, sending⟩, _, rfl⟩ := Option.map_eq_some_iff.mp acted
      exact ownersKept_moved client req sending
  | send client body release =>
      obtain ⟨⟨req, sending⟩, _, rfl⟩ := Option.map_eq_some_iff.mp acted
      have kept : OwnersKept sys (sys.moved client req sending) := ownersKept_moved _ _ _
      exact ⟨kept.count, kept.owner⟩
  | receive client =>
      obtain ⟨⟨_, req⟩, _, rfl⟩ := Option.map_eq_some_iff.mp acted
      exact ownersKept_moved client req none
  | timeout client =>
      obtain ⟨⟨req, sending⟩, _, rfl⟩ := Option.map_eq_some_iff.mp acted
      exact ownersKept_moved client req sending
  | timerStopped client release =>
      obtain ⟨⟨req, sending⟩, _, rfl⟩ := Option.map_eq_some_iff.mp acted
      exact ownersKept_moved client req sending
  | deliver client available =>
      simp only [act] at acted
      split at acted
      · cases acted
        exact ⟨le_rfl, fun _ _ => rfl⟩
      · obtain ⟨⟨req, rest⟩, _, rfl⟩ := Option.map_eq_some_iff.mp acted
        exact ownersKept_of_update rfl rfl rfl
  | disconnect client =>
      simp only [act] at acted
      split at acted
      · cases acted
        exact ⟨le_rfl, fun _ _ => rfl⟩
      · obtain ⟨⟨req, sending⟩, _, rfl⟩ := Option.map_eq_some_iff.mp acted
        exact ownersKept_moved client req sending
  | strangerConnects =>
      cases acted
      exact ownersKept_opened none
  | strangerSends connection wire =>
      cases acted
      exact ownersKept_of_update rfl rfl rfl
  | accept connection =>
      obtain ⟨_, _, rfl⟩ := Option.map_eq_some_iff.mp acted
      exact ownersKept_of_update rfl rfl rfl
  | serverOut =>
      cases acted
      exact ⟨le_rfl, fun _ _ => rfl⟩
  | serverDisconnect =>
      cases acted
      exact ⟨le_rfl, fun _ _ => rfl⟩
  | serverReceive connection =>
      simp only [act] at acted
      split at acted
      · cases acted
        exact ownersKept_of_update rfl rfl rfl
      · cases acted
        exact ⟨le_rfl, fun _ _ => rfl⟩
  | answer context release =>
      simp only [act] at acted
      split at acted
      · cases acted
        exact ⟨le_rfl, fun _ _ => rfl⟩
      · obtain ⟨_, _, rfl⟩ := Option.map_eq_some_iff.mp acted
        exact ⟨le_rfl, fun other _ => replyAll_same Connection.owner (fun _ _ => rfl) _ _ other⟩

/-! ## A run -/

theorem run_ownersKept {moves : List (Move Client Context)}
    (run : runLabels (step serve) sys moves = some next) : OwnersKept sys next := by
  induction moves generalizing sys with
  | nil =>
      cases Option.some.inj run
      exact ⟨le_rfl, fun _ _ => rfl⟩
  | cons move rest inductionHypothesis =>
      obtain ⟨middle, stepped, remaining⟩ :=
        (runLabels_cons_eq_some _ _ _ _ _).mp run
      have first := act_ownersKept (step_eq_some stepped).2
      have later := inductionHypothesis remaining
      refine ⟨first.count.trans later.count, ?_⟩
      intro connection known
      rw [later.owner connection (known.trans_le first.count), first.owner connection known]

/-- What the server's user keeps true of its state. -/
theorem run_state {invariant : σ → Prop}
    (kept : ∀ context state body after replies, invariant state →
      serve context state body = some (after, replies) → invariant after)
    {moves : List (Move Client Context)} (initially : invariant sys.state)
    (run : runLabels (step serve) sys moves = some next) : invariant next.state := by
  have preserved : ∀ (middle : System Client σ Context) move later,
      invariant middle.state → step serve middle move = some later →
        invariant later.state := by
    intro middle move later holds stepped
    rcases act_recorded (step_eq_some stepped).2 with ⟨same, _⟩ | ⟨execution, _, _, answered⟩
    · exact same ▸ holds
    · exact kept _ _ _ _ _ (answered.before ▸ holds) answered.served
  exact invariant_of_run preserved initially run

/-- In this part of a run the server's user carries out such an execution, of a request
on a connection with this owner. -/
def Executes (serve : Context → σ → Bytes → Option (σ × List Bytes))
    (sys : System Client σ Context) (moves : List (Move Client Context))
    (owner : Option Client) (execution : Execution σ Context) : Prop :=
  ∃ early release late middle result,
    moves = early ++ .answer execution.context release :: late ∧
      runLabels (step serve) sys early = some middle ∧
      middle.handling = some execution.handling ∧
      (middle.connections execution.handling.connection).owner = owner ∧
      middle.state = execution.before ∧
      serve execution.context execution.before execution.handling.body = some result ∧
      execution.replies = result.2

theorem Executes.cons {middle : System Client σ Context}
    (stepped : step serve sys move = some middle) {moves : List (Move Client Context)}
    {owner : Option Client} {execution : Execution σ Context}
    (executes : Executes serve middle moves owner execution) :
    Executes serve sys (move :: moves) owner execution := by
  obtain ⟨early, release, late, later, result, rfl, run, rest⟩ := executes
  exact ⟨move :: early, release, late, later, result, rfl,
    (runLabels_cons_eq_some _ _ _ _ _).mpr ⟨middle, stepped, run⟩, rest⟩

theorem Executes.owner_eq (holds : Holds first firstKey sys) (bounded : Bounded next)
    {moves : List (Move Client Context)}
    (run : runLabels (step serve) sys moves = some next) {owner : Option Client}
    {execution : Execution σ Context}
    (executes : Executes serve sys moves owner execution) :
    (next.connections execution.handling.connection).owner = owner := by
  obtain ⟨early, release, late, middle, _, rfl, earlyRun, handled, owned, _⟩ := executes
  rw [runLabels_append, earlyRun] at run
  have lateRun : runLabels (step serve) middle (.answer execution.context release :: late) =
      some next := run
  have middleHolds := run_holds holds earlyRun (run_bounded lateRun bounded)
  have kept := run_ownersKept lateRun
  rw [kept.owner _ (handled_lt middleHolds handled), owned]

/-- While a client does not call `nn_send`, its record is of what has been executed. -/
theorem run_requestKept {moves : List (Move Client Context)} (holds : Holds first firstKey sys)
    (run : runLabels (step serve) sys moves = some next) (bounded : Bounded next)
    (noSend : ∀ move ∈ moves, ¬ IsSend client move) :
    (next.reqs client).task.request = (sys.reqs client).task.request ∧
      next.sends client = sys.sends client ∧
      ∀ execution ∈ next.recent client, execution ∈ sys.recent client ∨
        ∃ owner, Executes serve sys moves owner execution := by
  induction moves generalizing sys with
  | nil =>
      cases Option.some.inj run
      exact ⟨rfl, rfl, fun _ member => Or.inl member⟩
  | cons move rest inductionHypothesis =>
      obtain ⟨middle, stepped, remaining⟩ :=
        (runLabels_cons_eq_some _ _ _ _ _).mp run
      obtain ⟨enabled, acted⟩ := step_eq_some stepped
      have before := bounded_of_act acted (run_bounded remaining bounded)
      have notSend := noSend move List.mem_cons_self
      have kept := act_requestKept holds before enabled acted notSend
      obtain ⟨request, sends, recent⟩ :=
        inductionHypothesis (act_holds holds before enabled acted) remaining
          fun other member => noSend other (List.mem_cons_of_mem _ member)
      refine ⟨request.trans kept.request, sends.trans kept.sends, ?_⟩
      intro execution member
      rcases recent execution member with earlier | later
      · rcases act_recorded acted with ⟨_, same⟩ | ⟨answered, release, rfl, answers⟩
        · exact Or.inl (same client notSend ▸ earlier)
        · rw [answers.recent] at earlier
          rcases List.mem_cons.mp earlier with rfl | old
          · exact Or.inr ⟨_, [], release, rest, sys, _, rfl, rfl, answers.handling, rfl,
              answers.before, answers.served, rfl⟩
          · exact Or.inl old
      · obtain ⟨owner, executes⟩ := later
        exact Or.inr ⟨owner, executes.cons stepped⟩

/-- After `nn_send` nothing is on record yet. -/
theorem step_send {body : Bytes} {release : Bool}
    (stepped : step serve sys (.send client body release) = some next) :
    (next.reqs client).task.request.body = body ∧ next.recent client = [] ∧
      next.state = sys.state := by
  obtain ⟨⟨req, sending⟩, sends, rfl⟩ :=
    Option.map_eq_some_iff.mp (step_eq_some stepped).2
  refine ⟨?_, Function.update_self _ _ _, ?_⟩
  · rw [nnReqCsend] at sends
    simp only [moved_reqs, Function.update_self]
    rw [(nnReqHandler_handled sends).request]
  · cases sending <;> rfl

/-- What is on record came in on a connection that there is. -/
def RecordKnown (sys : System Client σ Context) : Prop :=
  ∀ client, ∀ execution ∈ sys.recent client,
    execution.handling.connection < sys.count

theorem step_recordKnown (holds : Holds first firstKey sys) (known : RecordKnown sys)
    (stepped : step serve sys move = some next) : RecordKnown next := by
  obtain ⟨_, acted⟩ := step_eq_some stepped
  have count := (act_ownersKept acted).count
  intro client execution member
  by_cases sends : IsSend client move
  · obtain ⟨body, release, rfl⟩ := sends
    rw [(step_send stepped).2.1] at member
    cases member
  · rcases act_recorded acted with ⟨_, same⟩ | ⟨answered, _, _, answers⟩
    · rw [same client sends] at member
      exact (known client execution member).trans_le count
    · rw [answers.recent] at member
      rcases List.mem_cons.mp member with rfl | old
      · exact (handled_lt holds answers.handling).trans_le count
      · exact (known client execution old).trans_le count

theorem run_recordKnown {moves : List (Move Client Context)}
    (holds : Holds first firstKey sys) (known : RecordKnown sys)
    (run : runLabels (step serve) sys moves = some next) (bounded : Bounded next) :
    RecordKnown next := by
  induction moves generalizing sys with
  | nil =>
      cases Option.some.inj run
      exact known
  | cons move rest inductionHypothesis =>
      obtain ⟨middle, stepped, remaining⟩ :=
        (runLabels_cons_eq_some _ _ _ _ _).mp run
      obtain ⟨enabled, acted⟩ := step_eq_some stepped
      have before := bounded_of_act acted (run_bounded remaining bounded)
      exact inductionHypothesis (act_holds holds before enabled acted)
        (step_recordKnown holds known stepped) remaining

theorem run_send {start : System Client σ Context} {before : List (Move Client Context)}
    {body : Bytes} {release : Bool}
    (run : runLabels (step serve) start (before ++ [.send client body release]) =
      some next) :
    (next.reqs client).task.request.body = body ∧ next.recent client = [] := by
  rw [runLabels_append] at run
  obtain ⟨_, _, sends⟩ := Option.bind_eq_some_iff.mp run
  obtain ⟨_, stepped, same⟩ := (runLabels_cons_eq_some _ _ _ _ _).mp sends
  cases Option.some.inj same
  obtain ⟨body, recent, _⟩ := step_send stepped
  exact ⟨body, recent⟩

omit [DecidableEq Client] in
/-- The last call of `nn_send` there was. -/
theorem exists_last_send (client : Client) (moves : List (Move Client Context)) :
    (∀ move ∈ moves, ¬ IsSend client move) ∨
      ∃ before body release after, moves = before ++ .send client body release :: after ∧
        ∀ move ∈ after, ¬ IsSend client move := by
  induction moves with
  | nil => exact Or.inl fun _ member => by cases member
  | cons move rest inductionHypothesis =>
      rcases inductionHypothesis with none | ⟨before, body, release, after, rfl, last⟩
      · by_cases sends : IsSend client move
        · obtain ⟨body, release, rfl⟩ := sends
          exact Or.inr ⟨[], body, release, rest, rfl, none⟩
        · left
          intro other member
          rcases List.mem_cons.mp member with rfl | later
          · exact sends
          · exact none other later
      · exact Or.inr ⟨move :: before, body, release, after, rfl, last⟩

theorem nnReqCrecv_reply {req after : Req} {slot : Slot}
    (received : nnReqCrecv req = some (.reply slot, after)) :
    req.state = .done ∧ slot = req.task.reply := by
  rw [nnReqCrecv] at received
  split at received
  · cases received
  · split at received
    · cases received
    · rename_i isDone
      have done : req.state = .done := by simpa using isDone
      rw [nnReqHandler_received (req.withReply (.held _)) done] at received
      cases received
      exact ⟨done, rfl⟩

/-- The execution behind a reply that `nn_recv` gives. -/
theorem exists_execution {state : σ} {moves : List (Move Client Context)}
    (run : runLabels (step serve) (started first firstKey state) moves = some sys)
    (bounded : Bounded sys) {slot : Slot} {after : Req}
    (received : nnReqCrecv (sys.reqs client) = some (.reply slot, after)) :
    ∃ before body release later asked execution reply,
      moves = before ++ .send client body release :: later ∧
      (∀ move ∈ later, ¬ IsSend client move) ∧
      runLabels (step serve) (started first firstKey state)
        (before ++ [.send client body release]) = some asked ∧
      Executes serve asked later (some client) execution ∧
      (asked.reqs client).task.request =
        ⟨execution.handling.header, execution.handling.body⟩ ∧
      execution.handling.body = body ∧ execution.replies.head? = some reply ∧
      slot = .held ⟨[], reply⟩ := by
  have holds := run_holds (started_holds first firstKey state) run bounded
  obtain ⟨done, rfl⟩ := nnReqCrecv_reply received
  have itself := holds.clients client
  obtain ⟨connection, reply, own, held, execution, member, rfl, same, isFirst⟩ :=
    itself.replied (Or.inr done)
  rcases exists_last_send client moves with never | ⟨before, sent, release, later, rfl, last⟩
  · -- a client that has asked nothing is not done with anything
    obtain ⟨_, sends, _⟩ :=
      run_requestKept (started_holds first firstKey state) run bounded never
    have passive := itself.unasked sends
    rw [done] at passive
    cases passive
  · have split := run
    rw [List.append_cons, runLabels_append] at split
    obtain ⟨asked, askedRun, laterRun⟩ := Option.bind_eq_some_iff.mp split
    have askedBounded := run_bounded laterRun bounded
    have askedHolds := run_holds (started_holds first firstKey state) askedRun askedBounded
    obtain ⟨sentBody, nothing⟩ := run_send askedRun
    obtain ⟨request, _, recent⟩ := run_requestKept askedHolds laterRun bounded last
    have asks := request.symm.trans same
    rw [nothing] at recent
    obtain ⟨owner, executes⟩ := (recent execution member).resolve_left List.not_mem_nil
    rw [← executes.owner_eq askedHolds bounded laterRun, own] at executes
    refine ⟨before, sent, release, later, asked, execution, reply, rfl, last, askedRun,
      executes, asks, ?_, isFirst, held⟩
    rw [← sentBody, asks]

/-- The reply `nn_recv` gives was computed since the last `nn_send`, for what that
sent. -/
theorem reply_is_to_last_request {state : σ} {moves : List (Move Client Context)}
    (run : runLabels (step serve) (started first firstKey state) moves = some sys)
    (bounded : Bounded sys) {slot : Slot} {after : Req}
    (received : nnReqCrecv (sys.reqs client) = some (.reply slot, after)) :
    ∃ before body release later asked execution reply,
      moves = before ++ .send client body release :: later ∧
      (∀ move ∈ later, ¬ IsSend client move) ∧
      runLabels (step serve) (started first firstKey state)
        (before ++ [.send client body release]) = some asked ∧
      Executes serve asked later (some client) execution ∧
      execution.handling.body = body ∧ execution.replies.head? = some reply ∧
      slot = .held ⟨[], reply⟩ := by
  obtain ⟨before, body, release, later, asked, execution, reply, split, last, askedRun,
    executes, _, rest⟩ := exists_execution run bounded received
  exact ⟨before, body, release, later, asked, execution, reply, split, last, askedRun,
    executes, rest⟩

/-! A request that times out, is sent again, and is answered twice. -/

def echo (_ : Unit) (count : Nat) (body : Bytes) : Option (Nat × List Bytes) :=
  some (count + 1, [body])

def beforeSend : List (Move Unit Unit) :=
  [.connect (), .accept 0, .serverOut 0, .clientOut () true]

def sentTwice : List (Move Unit Unit) :=
  [.timeout (), .timerStopped () true, .clientOut () true, .serverReceive 0,
    .answer () true, .serverOut 0, .serverReceive 0, .answer () true, .deliver () 2,
    .timerStopped () true]

theorem sentTwice_run : ∃ sys req, runLabels (step echo) (started (fun _ => 7) 3 0)
      (beforeSend ++ .send () [1] true :: sentTwice) = some sys ∧
    nnReqCrecv (sys.reqs ()) = some (.reply (.held ⟨[], [1]⟩), req) ∧
    (sys.reqs ()).xreq.pipe = some 0 ∧ sys.sends () = 1 ∧ sys.accepts = 1 :=
  ⟨_, _, rfl, rfl, rfl, rfl, rfl⟩

theorem bounded_of_one {sys : System Unit Nat Unit} (sends : sys.sends () = 1)
    (accepts : sys.accepts = 1) : Bounded sys := by
  refine ⟨?_, by rw [accepts]; decide⟩
  intro client
  exact sends ▸ (by decide : 1 < 2 ^ 31)

theorem reply_is_to_last_request_sentTwice :
    ∃ before body release later asked execution reply,
      beforeSend ++ .send () [1] true :: sentTwice =
        before ++ .send () body release :: later ∧
      (∀ move ∈ later, ¬ IsSend () move) ∧
      runLabels (step echo) (started (fun _ => 7) 3 0)
        (before ++ [.send () body release]) = some asked ∧
      Executes echo asked later (some ()) execution ∧
      execution.handling.body = body ∧ execution.replies.head? = some reply ∧
      Slot.held ⟨[], [1]⟩ = .held ⟨[], reply⟩ := by
  obtain ⟨sys, req, run, received, _, sends, accepts⟩ := sentTwice_run
  exact reply_is_to_last_request run (bounded_of_one sends accepts) received

/-- In every state, whatever can happen happens without an assertion failing, unless the
server's user stops. -/
theorem enabled_moves_happen {state : σ} {moves : List (Move Client Context)}
    (run : runLabels (step serve) (started first firstKey state) moves = some sys)
    (bounded : Bounded sys) (enabled : Enabled sys move) :
    (∃ next, act serve sys move = some next) ∨
      ∃ context release handling, move = .answer context release ∧
        sys.handling = some handling ∧ serve context sys.state handling.body = none := by
  have holds := run_holds (started_holds first firstKey state) run bounded
  cases acted : act serve sys move with
  | some next => exact Or.inl ⟨next, rfl⟩
  | none => exact Or.inr (act_stops holds bounded enabled acted)

/-- The second reply is still on its way when the client disconnects. -/
theorem enabled_moves_happen_sentTwice : ∃ sys,
    runLabels (step echo) (started (fun _ => 7) 3 0)
      (beforeSend ++ .send () [1] true :: sentTwice) = some sys ∧
    Enabled sys (.disconnect ()) ∧
    ((∃ next, act echo sys (.disconnect ()) = some next) ∨
      ∃ context release handling, Move.disconnect () = .answer context release ∧
        sys.handling = some handling ∧ echo context sys.state handling.body = none) := by
  obtain ⟨sys, req, run, _, pipe, sends, accepts⟩ := sentTwice_run
  have enabled : Enabled sys (.disconnect ()) := by
    rw [Enabled, pipe]
    exact Option.some_ne_none 0
  exact ⟨sys, run, enabled,
    enabled_moves_happen run (bounded_of_one sends accepts) enabled⟩

end ChlorosSnfs.Nanomsg.MatchedReplies
