import ChlorosSnfs.Nanomsg.MatchedReplies
import Mathlib.Algebra.BigOperators.Group.Finset.Basic
import Mathlib.Algebra.BigOperators.Intervals

/-!
# How often a request is carried out

A request is carried out at most once for every time it is put on a connection: once,
and once more for every timeout and every connection its client loses meanwhile.
-/

set_option autoImplicit false

namespace ChlorosSnfs.Nanomsg.Transmissions

open ChlorosSnfs.Library.NumberedQueues
open ChlorosSnfs.Library.Runs
open ChlorosSnfs.Nanomsg.Wire
open ChlorosSnfs.Nanomsg.ReqSocket
open ChlorosSnfs.Nanomsg.ReqStates
open ChlorosSnfs.Nanomsg.RepSocket
open ChlorosSnfs.Nanomsg.ReqRep
open ChlorosSnfs.Nanomsg.Flows
open ChlorosSnfs.Nanomsg.ClientEnd
open ChlorosSnfs.Nanomsg.Conversations
open ChlorosSnfs.Nanomsg.Moves
open ChlorosSnfs.Nanomsg.MatchedReplies

/-! ## What is outstanding -/

variable {req : Req} {sending : Sending} {Client σ Context : Type} [DecidableEq Client] {first : Client → UInt32}
  {firstKey : UInt32} {sys after : System Client σ Context} {client : Client}
  {serve : Context → σ → Bytes → Option (σ × List Bytes)} {move : Move Client Context}

/-- How often a client's connection carries a request with this header. -/
def asksFor (header : Bytes) (client : Client) (connection : Connection Client) : Nat :=
  if connection.owner = some client then
    connection.toServer.countP fun wire => wire.take 4 = header
  else 0

def carried (header : Bytes) (client : Client) (sys : System Client σ Context) : Nat :=
  ∑ connection ∈ Finset.range sys.count, asksFor header client (sys.connections connection)

/-- Whether a request of this client with this header is what is handled. -/
def IsAt (header : Bytes) (client : Client) (sys : System Client σ Context)
    (handling : Handling) : Prop :=
  (sys.connections handling.connection).owner = some client ∧ handling.header = header

instance (header : Bytes) (client : Client) (sys : System Client σ Context)
    (handling : Handling) : Decidable (IsAt header client sys handling) :=
  inferInstanceAs (Decidable
    ((sys.connections handling.connection).owner = some client ∧ handling.header = header))

def handled (header : Bytes) (client : Client) (sys : System Client σ Context) : Nat :=
  match sys.handling with
  | none => 0
  | some handling => if IsAt header client sys handling then 1 else 0

/-- How often the request can still be carried out if it is not sent again. -/
def outstanding (header : Bytes) (client : Client) (sys : System Client σ Context) : Nat :=
  waits (sys.reqs client) + carried header client sys + handled header client sys

/-- The server's user carries out the request. -/
def isExecuted (header : Bytes) (client : Client) (sys : System Client σ Context) :
    Move Client Context → Bool
  | .answer _ _ => decide (∃ handling ∈ sys.handling, IsAt header client sys handling)
  | _ => false

omit [DecidableEq Client] in
theorem lt_count_of_owns (holds : Holds first firstKey sys) {connection : Nat}
    (owns : Owns sys client connection) : connection < sys.count := by
  by_contra beyond
  rw [Owns, holds.fresh _ (Nat.le_of_not_lt beyond)] at owns
  cases owns

theorem asksFor_of_not_owner (header : Bytes) {connection : Connection Client}
    (foreign : connection.owner ≠ some client) : asksFor header client connection = 0 :=
  if_neg foreign

theorem asksFor_ask_le (header : Bytes) (client : Client) (connection : Connection Client)
    (wire : Bytes) :
    asksFor header client (connection.ask wire) ≤ asksFor header client connection + 1 := by
  have owner : (connection.ask wire).owner = connection.owner := rfl
  rw [asksFor, asksFor, owner]
  by_cases own : connection.owner = some client
  · rw [if_pos own, if_pos own]
    simp only [Connection.ask, List.countP_append, List.countP_singleton]
    split <;> omega
  · rw [if_neg own, if_neg own]
    exact Nat.zero_le _

theorem carried_congr {header : Bytes} (count : after.count = sys.count)
    (same : ∀ connection, asksFor header client (after.connections connection) =
      asksFor header client (sys.connections connection)) :
    carried header client after = carried header client sys := by
  rw [carried, carried, count]
  exact Finset.sum_congr rfl fun connection _ => same connection

theorem carried_of_update {header : Bytes} {index : Nat} {connection : Connection Client}
    (known : index < sys.count) (count : after.count = sys.count)
    (connections : after.connections = Function.update sys.connections index connection) :
    carried header client after + asksFor header client (sys.connections index) =
      carried header client sys + asksFor header client connection := by
  have member : index ∈ Finset.range sys.count := Finset.mem_range.mpr known
  have others : ∀ other ∈ (Finset.range sys.count).erase index,
      asksFor header client (after.connections other) =
        asksFor header client (sys.connections other) := by
    intro other inOthers
    rw [connections, Function.update_of_ne (Finset.ne_of_mem_erase inOthers)]
  rw [carried, carried, count, ← Finset.add_sum_erase _ _ member,
    ← Finset.add_sum_erase _ _ member, Finset.sum_congr rfl others, connections,
    Function.update_self]
  omega

theorem handled_congr {header : Bytes} (handling : after.handling = sys.handling)
    (owner : ∀ connection,
      (after.connections connection).owner = (sys.connections connection).owner) :
    handled header client after = handled header client sys := by
  rw [handled, handled, handling]
  cases sys.handling with
  | none => rfl
  | some handling => exact if_congr (by rw [IsAt, IsAt, owner]) rfl rfl

/-! ## One move -/

/-- What a client puts on its connection is outstanding for that client only. -/
theorem carried_moved (header : Bytes) (client : Client) (req : Req)
    (holds : Holds first firstKey sys) {other : Client}
    (own : ∀ pipe wire, sending = some (pipe, wire) → Owns sys other pipe) :
    carried header client (sys.moved other req sending) ≤
      carried header client sys + if other = client then puts sending else 0 := by
  cases sending with
  | none => exact Nat.le_add_right _ _
  | some sent =>
      obtain ⟨pipe, wire⟩ := sent
      have owned := own pipe wire rfl
      have moved : carried header client (sys.moved other req (some (pipe, wire))) +
          asksFor header client (sys.connections pipe) = carried header client sys +
            asksFor header client ((sys.connections pipe).ask wire) :=
        carried_of_update (lt_count_of_owns holds owned) rfl rfl
      split
      · have more := asksFor_ask_le header client (sys.connections pipe) wire
        have one : puts (some (pipe, wire)) = 1 := rfl
        omega
      · rename_i foreign
        have notOwner : (sys.connections pipe).owner ≠ some client := by
          rw [owned]
          simpa using foreign
        have before := asksFor_of_not_owner header notOwner
        have now : asksFor header client ((sys.connections pipe).ask wire) = 0 :=
          asksFor_of_not_owner header notOwner
        omega

/-- A client's calls and timers. -/
theorem outstanding_moved {header : Bytes} (holds : Holds first firstKey sys)
    {other : Client} (own : ∀ pipe wire, sending = some (pipe, wire) → Owns sys other pipe)
    {credit : Nat} (sends : other = client →
      waits req + puts sending ≤ waits (sys.reqs client) + credit) :
    outstanding header client (sys.moved other req sending) ≤
      outstanding header client sys + credit := by
  have only := moved_onlyClient req own
  have more := carried_moved header client req holds own
  have same : handled header client (sys.moved other req sending) =
      handled header client sys := handled_congr only.handling only.owner
  rw [outstanding, outstanding, same]
  by_cases itself : other = client
  · have now : (sys.moved other req sending).reqs client = req := by
      rw [moved_reqs, itself, Function.update_self]
    have bound := sends itself
    rw [if_pos itself] at more
    rw [now]
    omega
  · rw [if_neg itself] at more
    rw [only.reqs client fun same => itself same.symm]
    omega

theorem outstanding_congr {header : Bytes} (reqs : after.reqs client = sys.reqs client)
    (same : carried header client after = carried header client sys)
    (handles : handled header client after = handled header client sys) :
    outstanding header client after = outstanding header client sys := by
  rw [outstanding, outstanding, reqs, same, handles]

theorem outstanding_withConnection {header : Bytes} {index : Nat}
    {connection : Connection Client}
    (asks : asksFor header client connection =
      asksFor header client (sys.connections index))
    (owner : connection.owner = (sys.connections index).owner) :
    outstanding header client (sys.withConnection index connection) =
      outstanding header client sys := by
  refine outstanding_congr rfl (carried_congr rfl ?_) (handled_congr rfl ?_)
  · exact withConnection_same sys (asksFor header client) connection asks
  · exact withConnection_same sys Connection.owner connection owner

/-- The server takes a request: it is not on the connection any more. -/
theorem outstanding_received {header : Bytes} (holds : Holds first firstKey sys)
    (idle : sys.handling = none) {connection : Nat} {wire : Bytes} {rest : List Bytes}
    (waiting : (sys.connections connection).toServer = wire :: rest)
    (known : connection < sys.count) (reqs : after.reqs = sys.reqs)
    (count : after.count = sys.count)
    (connections : after.connections = Function.update sys.connections connection
      { sys.connections connection with toServer := rest })
    (handling : after.handling = (splitHeader wire).map fun (header, body) =>
      ⟨connection, header, body⟩) :
    outstanding header client after ≤ outstanding header client sys := by
  have moved : carried header client after +
      asksFor header client (sys.connections connection) = carried header client sys +
        asksFor header client { sys.connections connection with toServer := rest } :=
    carried_of_update known count connections
  have wasIdle : handled header client sys = 0 := by rw [handled, idle]
  have taken : asksFor header client { sys.connections connection with toServer := rest } +
      handled header client after ≤ asksFor header client (sys.connections connection) := by
    have owner : (after.connections connection).owner = (sys.connections connection).owner := by
      rw [connections, Function.update_self]
    by_cases own : (sys.connections connection).owner = some client
    · have flows := holds.flows client connection own
      rw [FlowsOf, waiting, atWorkOn, idle] at flows
      obtain ⟨body, split, _⟩ := flows.receive
      rw [asksFor, asksFor, if_pos own, if_pos own, waiting, List.countP_cons, handled,
        handling, split]
      simp only [Option.map_some, IsAt, owner, own, true_and, decide_eq_true_eq]
      exact le_rfl
    · rw [asksFor_of_not_owner header (by exact own), handled, handling]
      cases splitHeader wire with
      | none => exact Nat.zero_le _
      | some split => simp [IsAt, owner, own]
  rw [outstanding, outstanding, reqs]
  omega

/-- The request that the server has carried out is outstanding no more. -/
theorem answer_outstanding {header : Bytes} {context : Context} {release : Bool}
    (acted : act serve sys (.answer context release) = some after) :
    outstanding header client after +
        (if isExecuted header client sys
          (.answer context release : Move Client Context) then 1 else 0) ≤
      outstanding header client sys := by
  rw [act] at acted
  cases underway : sys.handling with
  | none =>
      simp only [underway] at acted
      cases acted
      simp [isExecuted, underway]
  | some handling =>
      simp only [underway] at acted
      obtain ⟨⟨state, replies⟩, _, result⟩ := Option.map_eq_some_iff.mp acted
      have reqs : after.reqs client = sys.reqs client := by rw [← result]
      have count : after.count = sys.count := by rw [← result]
      have idle : handled header client after = 0 := by rw [← result, handled]
      have connections : after.connections =
          replyAll sys.connections (sendAll release replies sys.rep).2 := by rw [← result]
      have same (connection : Nat) : asksFor header client (after.connections connection) =
          asksFor header client (sys.connections connection) := by
        rw [connections, asksFor, asksFor, replyAll_same Connection.owner fun _ _ => rfl,
          replyAll_same Connection.toServer fun _ _ => rfl]
      have was : handled header client sys = if isExecuted header client sys
          (.answer context release : Move Client Context) then 1 else 0 := by
        simp [handled, isExecuted, underway]
      rw [← was, outstanding, outstanding, reqs, carried_congr count same, idle]
      exact le_rfl

/-- A new connection carries nothing. -/
theorem outstanding_opened {header : Bytes} (holds : Holds first firstKey sys)
    (owner : Option Client) :
    outstanding header client (sys.opened owner) = outstanding header client sys := by
  have empty : asksFor header client ((sys.opened owner).connections sys.count) = 0 := by
    rw [opened_self, asksFor]
    split <;> rfl
  have same : carried header client (sys.opened owner) = carried header client sys := by
    have longer : (sys.opened owner).count = sys.count + 1 := rfl
    rw [carried, carried, longer, Finset.sum_range_succ, empty, Nat.add_zero]
    refine Finset.sum_congr rfl ?_
    intro connection known
    rw [opened_of_ne sys owner (Finset.mem_range.mp known).ne]
  have handles : handled header client (sys.opened owner) = handled header client sys := by
    have handling : (sys.opened owner).handling = sys.handling := rfl
    rw [handled, handled, handling]
    cases underway : sys.handling with
    | none => rfl
    | some handling =>
        have known := handled_lt holds underway
        exact if_congr (by rw [IsAt, IsAt, opened_of_ne sys owner known.ne]) rfl rfl
  exact outstanding_congr rfl same handles

/-- A move raises what is outstanding only where the client is made to send again. -/
theorem act_outstanding {header : Bytes} (holds : Holds first firstKey sys)
    (enabled : Enabled sys move) (acted : act serve sys move = some after)
    (notSend : ¬ IsSend client move) :
    outstanding header client after +
        (if isExecuted header client sys move then 1 else 0) ≤
      outstanding header client sys + (if isResend client move then 1 else 0) := by
  cases quiet : quietOf move with
  | some other =>
      obtain ⟨req, sending, moved, rfl, bound⟩ := act_quiet holds enabled quiet acted
      have own (pipe : Nat) (wire : Bytes) (sent : sending = some (pipe, wire)) :
          Owns sys other pipe :=
        (holds.clients other).pipe pipe (moved.pipe pipe (moved.sent pipe wire sent).1)
      have notExecuted : isExecuted header client sys move = false := by
        cases move <;> simp [quietOf] at quiet <;> rfl
      rw [notExecuted]
      apply outstanding_moved holds own
      rintro rfl
      exact bound
  | none =>
      cases move <;> simp only [quietOf, reduceCtorEq] at quiet
      case connect other =>
          cases acted
          have opened := holds_opened holds (some other)
          rw [← outstanding_opened holds (some other)]
          refine outstanding_moved opened (by simp) ?_
          rintro rfl
          exact le_rfl
      case send other body release =>
          obtain ⟨⟨req, sending⟩, sends, rfl⟩ := Option.map_eq_some_iff.mp acted
          have renewed := nnReqCsend_renewed (holds.clients other).sound sends
          have own (pipe : Nat) (wire : Bytes) (sent : sending = some (pipe, wire)) :
              Owns sys other pipe :=
            (holds.clients other).pipe pipe (renewed.pipe ▸ (renewed.sent pipe wire sent).1)
          have foreign (same : other = client) : waits req + puts sending ≤
              waits (sys.reqs client) + 0 := by
            subst same
            exact absurd ⟨body, release, rfl⟩ notSend
          exact outstanding_moved holds own foreign
      case deliver other available =>
          obtain ⟨pipe, own⟩ := Option.ne_none_iff_exists'.mp enabled
          simp only [act, own] at acted
          obtain ⟨⟨req, rest⟩, took, rfl⟩ := Option.map_eq_some_iff.mp acted
          have moved : outstanding header client (sys.moved other req none) ≤
              outstanding header client sys + 0 := by
            refine outstanding_moved holds (by simp) ?_
            rintro rfl
            exact nnReqIn_waits _ took
          have same : outstanding header client
              ((sys.moved other req none).withConnection pipe
                { sys.connections pipe with
                  toClient := rest ++ (sys.connections pipe).toClient.drop available }) =
                outstanding header client (sys.moved other req none) :=
            outstanding_withConnection rfl rfl
          exact same.trans_le moved
      case answer context release =>
          exact (answer_outstanding acted).trans (Nat.le_add_right _ _)
      case accept connection =>
          obtain ⟨rep, _, rfl⟩ := Option.map_eq_some_iff.mp acted
          have same : outstanding header client (sys.withConnection connection
              { sys.connections connection with serial := some sys.accepts }) =
                outstanding header client sys := outstanding_withConnection rfl rfl
          exact same.le
      case serverReceive connection =>
          obtain ⟨idle, waiting, data, member, here⟩ := enabled
          obtain ⟨serial, has, _⟩ := holds.server.keys data member
          have known : connection < sys.count := by
            by_contra beyond
            rw [here, holds.fresh _ (Nat.le_of_not_lt beyond)] at has
            cases has
          simp only [act] at acted
          split at acted
          · rename_i queue
            cases acted
            exact outstanding_received holds idle queue known rfl rfl rfl rfl
          · cases acted
            exact le_rfl
      case strangerConnects =>
          cases acted
          exact (outstanding_opened holds none).le
      case strangerSends connection wire =>
          cases acted
          have stranger : (sys.connections connection).owner ≠ some client := by
            rw [enabled.2]
            simp
          have none : asksFor header client ((sys.connections connection).ask wire) =
              asksFor header client (sys.connections connection) := by
            rw [asksFor_of_not_owner header stranger,
              asksFor_of_not_owner header (by exact stranger)]
          exact (outstanding_withConnection none rfl).le
      case serverOut =>
          cases acted
          exact le_rfl
      case serverDisconnect =>
          cases acted
          exact le_rfl

/-! ## From one request to the next -/

omit [DecidableEq Client] in
/-- The id of a new request is on no connection of its client yet. -/
theorem header_new (bounded : sys.sends client + 1 < 2 ^ 31) {connection number : Nat}
    {item : Item} (fits : Fits (talkOf first sys client) connection number item) :
    nnPutl (word (first client) number) ≠ nnPutl (word (first client) (sys.sends client)) := by
  intro same
  have known : number < sys.sends client := fits.lt_sends
  have sameWord := congrArg nnGetl same
  rw [nnGetl_nnPutl_self, nnGetl_nnPutl_self] at sameWord
  have last := (word_eq_id_iff (Nat.lt_succ_of_lt known) bounded).mp sameWord
  omega

theorem carried_new (holds : Holds first firstKey sys)
    (bounded : sys.sends client + 1 < 2 ^ 31) :
    carried (nnPutl (word (first client) (sys.sends client))) client sys = 0 := by
  refine Finset.sum_eq_zero ?_
  intro connection _
  rw [asksFor]
  split
  · rename_i own
    rw [List.countP_eq_zero]
    intro wire waiting
    have flows := holds.flows client connection own
    have member : Item.request wire ∈ onWay (sys.connections connection).toClient
        (atWorkOn sys connection) (sys.connections connection).toServer := by
      simp [onWay, waiting]
    obtain ⟨number, _, fits⟩ := Numbered.exists_fits flows member
    have new := header_new bounded fits
    obtain ⟨_, body, rfl, _⟩ := fits
    rw [List.take_left' (nnPutl_length _), decide_eq_true_eq]
    exact new
  · rfl

theorem handled_new (holds : Holds first firstKey sys)
    (bounded : sys.sends client + 1 < 2 ^ 31) :
    handled (nnPutl (word (first client) (sys.sends client))) client sys = 0 := by
  rw [handled]
  cases underway : sys.handling with
  | none => rfl
  | some handling =>
      refine if_neg ?_
      rintro ⟨own, header⟩
      have flows := holds.flows client handling.connection own
      have member : Item.atWork handling ∈ onWay
          (sys.connections handling.connection).toClient
          (atWorkOn sys handling.connection)
          (sys.connections handling.connection).toServer := by
        rw [ServerEnd.atWorkOn_self underway]
        simp [onWay]
      obtain ⟨number, _, fits⟩ := Numbered.exists_fits flows member
      have new := header_new bounded fits
      obtain ⟨_, same, _⟩ := fits
      exact new (same.symm.trans header)

/-- A new request is outstanding once. -/
theorem outstanding_send (holds : Holds first firstKey sys) (bounded : Bounded after)
    {body : Bytes} {release : Bool}
    (stepped : step serve sys (.send client body release) = some after) :
    outstanding (after.reqs client).task.request.sphdr client after ≤ 1 := by
  obtain ⟨⟨req, sending⟩, sends, rfl⟩ :=
    Option.map_eq_some_iff.mp (step_eq_some stepped).2
  have before := holds.clients client
  have renewed := nnReqCsend_renewed before.sound sends
  have own (pipe : Nat) (wire : Bytes) (sent : sending = some (pipe, wire)) :
      Owns sys client pipe :=
    before.pipe pipe (renewed.pipe ▸ (renewed.sent pipe wire sent).1)
  have now : (sys.moved client req sending).reqs client = req := by
    rw [moved_reqs, Function.update_self]
  have room : sys.sends client + 1 < 2 ^ 31 := by
    have limit : Function.update sys.sends client (sys.sends client + 1) client < 2 ^ 31 :=
      bounded.sends client
    rwa [Function.update_self] at limit
  have header : req.task.request.sphdr =
      nnPutl (word (first client) (sys.sends client)) := by
    rw [renewed.request, before.id, ← ofNat_succ]
    rfl
  have only := moved_onlyClient req own
  have more := carried_moved (nnPutl (word (first client) (sys.sends client))) client req
    holds own
  rw [carried_new holds room, if_pos rfl] at more
  have idle : handled (nnPutl (word (first client) (sys.sends client))) client
      (sys.moved client req sending) = 0 :=
    (handled_congr only.handling only.owner).trans (handled_new holds room)
  have one := nnReqCsend_waits before.sound sends
  simp only [now, header]
  have total : waits ((sys.moved client req sending).reqs client) +
      carried (nnPutl (word (first client) (sys.sends client))) client
        (sys.moved client req sending) +
      handled (nnPutl (word (first client) (sys.sends client))) client
        (sys.moved client req sending) ≤ 1 := by
    rw [now]
    omega
  exact total

/-- What holds in every state after `nn_send`. -/
theorem run_everywhere {moves : List (Move Client Context)}
    (holds : Holds first firstKey sys)
    (run : runLabels (step serve) sys moves = some after) (bounded : Bounded after) :
    Everywhere (step serve) (Holds first firstKey) sys moves := by
  induction moves generalizing sys with
  | nil => exact holds
  | cons move rest inductionHypothesis =>
      obtain ⟨middle, stepped, remaining⟩ :=
        (runLabels_cons_eq_some _ _ _ _ _).mp run
      obtain ⟨enabled, acted⟩ := step_eq_some stepped
      refine ⟨holds, ?_⟩
      intro next same
      cases Option.some.inj (stepped.symm.trans same)
      have before := bounded_of_act acted (run_bounded remaining bounded)
      exact inductionHypothesis (act_holds holds before enabled acted) remaining

omit [DecidableEq Client] in
/-- There is one last call of `nn_send`. -/
theorem last_send_unique {before others later rest : List (Move Client Context)}
    {move other : Move Client Context} (sends : IsSend client move)
    (otherSends : IsSend client other) (last : ∀ move ∈ later, ¬ IsSend client move)
    (otherLast : ∀ move ∈ rest, ¬ IsSend client move)
    (same : before ++ move :: later = others ++ other :: rest) :
    before = others ∧ move = other ∧ later = rest := by
  rcases List.append_eq_append_iff.mp same with ⟨between, rfl, queue⟩ | ⟨between, rfl, queue⟩
  · cases between with
    | nil =>
        cases queue
        exact ⟨(List.append_nil _).symm, rfl, rfl⟩
    | cons head tail =>
        cases queue
        exact absurd otherSends (last other (by simp))
  · cases between with
    | nil =>
        cases queue
        exact ⟨List.append_nil _, rfl, rfl⟩
    | cons head tail =>
        cases queue
        exact absurd sends (otherLast move (by simp))

/-- From one call of `nn_send` on, the request is carried out at most once, and once more
for every timeout and every lost connection; at least once if there is a reply. -/
theorem executions_le_transmissions {state : σ} {before later : List (Move Client Context)}
    {body : Bytes} {release : Bool}
    (run : runLabels (step serve) (started first firstKey state)
      (before ++ .send client body release :: later) = some sys)
    (last : ∀ move ∈ later, ¬ IsSend client move) (bounded : Bounded sys) :
    ∃ asked, runLabels (step serve) (started first firstKey state)
        (before ++ [.send client body release]) = some asked ∧
      countSteps (step serve)
          (isExecuted (asked.reqs client).task.request.sphdr client) asked later ≤
        1 + later.countP (isResend client) ∧
      ∀ slot req, nnReqCrecv (sys.reqs client) = some (.reply slot, req) →
        1 ≤ countSteps (step serve)
          (isExecuted (asked.reqs client).task.request.sphdr client) asked later := by
  have split := run
  rw [List.append_cons, runLabels_append] at split
  obtain ⟨asked, askedRun, laterRun⟩ := Option.bind_eq_some_iff.mp split
  have askedBounded := run_bounded laterRun bounded
  have askedHolds := run_holds (started_holds first firstKey state) askedRun askedBounded
  refine ⟨asked, askedRun, ?_, ?_⟩
  · have once : outstanding (asked.reqs client).task.request.sphdr client asked ≤ 1 := by
      have sending := askedRun
      rw [runLabels_append] at sending
      obtain ⟨middle, earlier, sends⟩ := Option.bind_eq_some_iff.mp sending
      obtain ⟨_, stepped, same⟩ := (runLabels_cons_eq_some _ _ _ _ _).mp sends
      cases Option.some.inj same
      have middleBounded := bounded_of_act (step_eq_some stepped).2 askedBounded
      exact outstanding_send
        (run_holds (started_holds first firstKey state) earlier middleBounded) askedBounded
        stepped
    have everywhere := run_everywhere askedHolds laterRun bounded
    have counted : outstanding (asked.reqs client).task.request.sphdr client sys +
        countSteps (step serve)
          (isExecuted (asked.reqs client).task.request.sphdr client) asked later ≤
        outstanding (asked.reqs client).task.request.sphdr client asked +
          countSteps (step serve) (fun _ move => isResend client move) asked later := by
      refine rank_add_countSteps_le_add ?_ everywhere laterRun
      intro move member state next holds stepped _
      obtain ⟨enabled, acted⟩ := step_eq_some stepped
      exact act_outstanding holds enabled acted (last move member)
    rw [countSteps_label (isResend client) laterRun] at counted
    omega
  · intro slot req received
    obtain ⟨others, sent, otherRelease, rest, otherAsked, execution, _, same, otherLast,
      otherRun, executes, asks, _⟩ := exists_execution run bounded received
    obtain ⟨rfl, sameMove, rfl⟩ := last_send_unique ⟨body, release, rfl⟩
      ⟨sent, otherRelease, rfl⟩ last otherLast same
    cases sameMove
    cases Option.some.inj (askedRun.symm.trans otherRun)
    obtain ⟨early, release, late, middle, _, rfl, earlyRun, underway, owner, _⟩ := executes
    refine one_le_countSteps earlyRun ?_
    rw [isExecuted, decide_eq_true_eq]
    exact ⟨execution.handling, underway, owner, by rw [asks]⟩

theorem sentTwice_last : ∀ move ∈ sentTwice, ¬ IsSend () move := by
  rintro move member ⟨body, release, rfl⟩
  simp [sentTwice] at member

/-- Here there is one timeout, and the request is carried out twice. -/
theorem executions_le_transmissions_sentTwice : ∃ sys asked : System Unit Nat Unit,
    sentTwice.countP (isResend ()) = 1 ∧
    runLabels (step echo) (started (fun _ => 7) 3 0)
      (beforeSend ++ [.send () [1] true]) = some asked ∧
    countSteps (step echo) (isExecuted (asked.reqs ()).task.request.sphdr ()) asked
      sentTwice ≤ 1 + sentTwice.countP (isResend ()) ∧
    ∀ slot req, nnReqCrecv (sys.reqs ()) = some (.reply slot, req) →
      1 ≤ countSteps (step echo) (isExecuted (asked.reqs ()).task.request.sphdr ()) asked
        sentTwice := by
  obtain ⟨sys, req, run, _, _, sends, accepts⟩ := sentTwice_run
  obtain ⟨asked, askedRun, atMost, atLeast⟩ :=
    executions_le_transmissions run sentTwice_last (bounded_of_one sends accepts)
  exact ⟨sys, asked, rfl, askedRun, atMost, atLeast⟩

end ChlorosSnfs.Nanomsg.Transmissions
