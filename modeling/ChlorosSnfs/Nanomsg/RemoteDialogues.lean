import ChlorosSnfs.Library.Dialogues
import ChlorosSnfs.Library.Prophecies
import ChlorosSnfs.Nanomsg.MatchedReplies

/-!
# Dialogues over REQ and REP

Clients carry out calls that ask the server step by step, each question a request and
each answer a reply.  Questions may be sent and carried out more than once, replies may
be lost, and a client may stop waiting; it is nevertheless as if every question that has
an answer were answered at one moment, and whatever else the server carries out were
somebody else's.
-/

set_option autoImplicit false

namespace ChlorosSnfs.Nanomsg.RemoteDialogues

open ChlorosSnfs.Library
open ChlorosSnfs.Library.Dialogues (Dialogue Event Joint Service jointStep atRest)
open ChlorosSnfs.Library.Prophecies
open ChlorosSnfs.Library.Runs
open ChlorosSnfs.Nanomsg.Wire
open ChlorosSnfs.Nanomsg.ReqSocket
open ChlorosSnfs.Nanomsg.ReqStates
open ChlorosSnfs.Nanomsg.ReqRep
open ChlorosSnfs.Nanomsg.Flows
open ChlorosSnfs.Nanomsg.ClientEnd
open ChlorosSnfs.Nanomsg.Conversations
open ChlorosSnfs.Nanomsg.Moves
open ChlorosSnfs.Nanomsg.MatchedReplies

variable {Client Call Context Question Answer Result Change σ View : Type}

/-- How calls run, what of them is on the wire, and what the server does with it.  A
client that stops waiting goes on with `lost`. -/
structure RemoteService (Call Context Question Answer Result Change σ View : Type) where
  dialogue : Call → Dialogue Question Answer Result
  encode : Question → Bytes
  decode : Question → Bytes → Answer
  lost : Answer
  serve : Context → σ → Bytes → Option (σ × List Bytes)
  change : Change → σ → Option σ
  view : σ → View

/-- The service as it looks without a network between.  Without a context there is no
answer. -/
def RemoteService.atOnce
    (service : RemoteService Call Context Question Answer Result Change σ View) :
    Service Call (Option Context) Question Answer Result (Change ⊕ Context × Bytes) σ
      View where
  dialogue := service.dialogue
  answer
    | some context, question, state => do
      let (after, replies) ← service.serve context state (service.encode question)
      let reply ← replies.head?
      return (service.decode question reply, after)
    | none, _, state => some (service.lost, state)
  change
    | .inl change, state => service.change change state
    | .inr (context, body), state => (service.serve context state body).map Prod.fst
  view := service.view

/-- Where a client is in its call. -/
inductive Stage (Question Answer Result : Type) where
  | thinking (dialogue : Dialogue Question Answer Result)
  | waiting (question : Question) (next : Answer → Dialogue Question Answer Result)

structure Remote (Client Call Context Question Answer Result σ View : Type) where
  sys : System Client σ Context
  engaged : Client → Option (Call × Stage Question Answer Result)
  history : List (Event Client Call Result View)

inductive RemoteMove (Client Call Context Change : Type) where
  | begin (client : Client) (call : Call)
  | ask (client : Client) (release : Bool)
  | take (client : Client)
  | giveUp (client : Client)
  | finish (client : Client)
  | network (move : Move Client Context)
  | outside (change : Change)

/-- `nn_send` and `nn_recv` are the clients' to call. -/
def userOf : Move Client Context → Option Client
  | .send client _ _ | .receive client => some client
  | _ => none

/-- What a client does with its socket outside of calls is its own affair. -/
def isFree (remote : Remote Client Call Context Question Answer Result σ View)
    (move : Move Client Context) : Bool :=
  match userOf move with
  | some client => (remote.engaged client).isNone
  | none => true

variable [DecidableEq Client]

def remoteStep (service : RemoteService Call Context Question Answer Result Change σ View)
    (remote : Remote Client Call Context Question Answer Result σ View) :
    RemoteMove Client Call Context Change →
      Option (Remote Client Call Context Question Answer Result σ View)
  | .begin client call =>
      match remote.engaged client with
      | none => some { remote with
          engaged := Function.update remote.engaged client
            (some (call, .thinking (service.dialogue call)))
          history := .begun client call :: remote.history }
      | some _ => none
  | .ask client release =>
      match remote.engaged client with
      | some (call, .thinking (.ask question next)) =>
          (step service.serve remote.sys
            (.send client (service.encode question) release)).map fun sys =>
              { remote with
                sys
                engaged := Function.update remote.engaged client
                  (some (call, .waiting question next)) }
      | _ => none
  | .take client =>
      match remote.engaged client, nnReqCrecv (remote.sys.reqs client) with
      | some (call, .waiting question next), some (.reply (.held msg), _) =>
          (step service.serve remote.sys (.receive client)).map fun sys =>
            { remote with
              sys
              engaged := Function.update remote.engaged client
                (some (call, .thinking (next (service.decode question msg.body)))) }
      | _, _ => none
  | .giveUp client =>
      match remote.engaged client with
      | some (call, .waiting _ next) => some { remote with
          engaged := Function.update remote.engaged client
            (some (call, .thinking (next service.lost))) }
      | _ => none
  | .finish client =>
      match remote.engaged client with
      | some (call, .thinking (.done result)) => some { remote with
          engaged := Function.update remote.engaged client none
          history := .ended client call result :: remote.history }
      | _ => none
  | .network move =>
      if isFree remote move then
        (step service.serve remote.sys move).map fun sys => { remote with sys }
      else none
  | .outside change =>
      (service.change change remote.sys.state).map fun state =>
        { remote with sys := { remote.sys with state } }

/-- Nobody is in a call. -/
def remoteAtRest (sys : System Client σ Context) :
    Remote Client Call Context Question Answer Result σ View :=
  ⟨sys, fun _ => none, []⟩

def isCall : Event Client Call Result View → Bool
  | .changed _ => false
  | _ => true

/-- What is the same with and without a network: the server's state, and when calls
begin and end, with which results. -/
def Agree (remote : Remote Client Call Context Question Answer Result σ View)
    (joint : Joint Client Call Question Answer Result σ View) : Prop :=
  joint.shared = remote.sys.state ∧ joint.history.filter isCall = remote.history

/-! ## What a client may come to hear -/

omit [DecidableEq Client] in
/-- A reply to what the client has sent that the server has computed since. -/
def Offered (sys : System Client σ Context) (client : Client) (body reply : Bytes) : Prop :=
  ∃ execution ∈ sys.recent client, Owns sys client execution.handling.connection ∧
    execution.handling.body = body ∧ execution.replies.head? = some reply

/-- A client that waits may come to hear one of the replies on offer, or one that is yet
to be computed, or nothing at all. -/
def MayHear (service : RemoteService Call Context Question Answer Result Change σ View)
    (remote : Remote Client Call Context Question Answer Result σ View) (client : Client)
    (hears : Option Bytes) : Prop :=
  ∀ reply, hears = some reply → ∃ call question next,
    remote.engaged client = some (call, .waiting question next) ∧
      Offered remote.sys client (service.encode question) reply

/-- A client's call, seen with the reply it is going to hear. -/
def seen (service : RemoteService Call Context Question Answer Result Change σ View)
    (chosen : Option Bytes) : Option (Call × Stage Question Answer Result) →
      Option (Call × Dialogue Question Answer Result)
  | none => none
  | some (call, .thinking dialogue) => some (call, dialogue)
  | some (call, .waiting question next) =>
      match chosen with
      | none => some (call, .ask question next)
      | some reply => some (call, next (service.decode question reply))

structure Shows (service : RemoteService Call Context Question Answer Result Change σ View)
    (chosen : Client → Option Bytes)
    (remote : Remote Client Call Context Question Answer Result σ View)
    (joint : Joint Client Call Question Answer Result σ View) : Prop where
  shared : joint.shared = remote.sys.state
  engaged : ∀ client, joint.engaged client =
    seen service (chosen client) (remote.engaged client)
  history : joint.history.filter isCall = remote.history

omit [DecidableEq Client] in
theorem Shows.agree {service : RemoteService Call Context Question Answer Result Change σ View}
    {chosen : Client → Option Bytes}
    {remote : Remote Client Call Context Question Answer Result σ View}
    {joint : Joint Client Call Question Answer Result σ View}
    (shown : Shows service chosen remote joint) : Agree remote joint :=
  ⟨shown.shared, shown.history⟩

/-- Whichever replies are heard in the end, there is a step without a network that goes
with the step that has been made. -/
def Backed (service : RemoteService Call Context Question Answer Result Change σ View)
    (remote after : Remote Client Call Context Question Answer Result σ View) : Prop :=
  ∀ chosen : Client → Option Bytes,
    (∀ client, MayHear service after client (chosen client)) →
      ∃ before : Client → Option Bytes,
        (∀ client, MayHear service remote client (before client)) ∧
        ∀ joint, Shows service before remote joint →
          ∃ next, MovesOn (jointStep service.atOnce) joint next ∧
            Shows service chosen after next

/-- The invariant. -/
structure Together (first : Client → UInt32) (firstKey : UInt32)
    (service : RemoteService Call Context Question Answer Result Change σ View)
    (remote : Remote Client Call Context Question Answer Result σ View) : Prop where
  holds : Holds first firstKey remote.sys
  known : RecordKnown remote.sys
  asked : ∀ client call question next,
    remote.engaged client = some (call, .waiting question next) →
      (remote.sys.reqs client).task.request.body = service.encode question

variable {first : Client → UInt32} {firstKey : UInt32}
  {service : RemoteService Call Context Question Answer Result Change σ View}
  {remote after : Remote Client Call Context Question Answer Result σ View}
  {chosen : Client → Option Bytes} {client : Client}

omit [DecidableEq Client] in
theorem mayHear_none (service : RemoteService Call Context Question Answer Result Change σ View)
    (remote : Remote Client Call Context Question Answer Result σ View) (client : Client) :
    MayHear service remote client none := by
  intro reply hears
  cases hears

omit [DecidableEq Client] in
/-- What is on offer was so before, if it is not new. -/
theorem offered_of_kept {sys next : System Client σ Context} {body reply : Bytes}
    (known : ∀ execution ∈ sys.recent client, execution.handling.connection < sys.count)
    (owners : OwnersKept sys next) (recent : next.recent client = sys.recent client)
    (offered : Offered next client body reply) : Offered sys client body reply := by
  obtain ⟨execution, member, own, rest⟩ := offered
  rw [recent] at member
  refine ⟨execution, member, ?_, rest⟩
  rw [Owns, ← owners.owner _ (known execution member)]
  exact own

/-! ## The clients' own moves -/

/-- For the others nothing has happened. -/
structure Elsewhere (client : Client)
    (remote after : Remote Client Call Context Question Answer Result σ View) : Prop where
  owners : OwnersKept remote.sys after.sys
  state : after.sys.state = remote.sys.state
  recent : ∀ other, other ≠ client → after.sys.recent other = remote.sys.recent other
  fewer : ∀ execution ∈ after.sys.recent client, execution ∈ remote.sys.recent client
  requests : ∀ other, other ≠ client →
    (after.sys.reqs other).task.request = (remote.sys.reqs other).task.request
  engaged : ∀ other, other ≠ client → after.engaged other = remote.engaged other

theorem Together.moved (together : Together first firstKey service remote)
    (elsewhere : Elsewhere client remote after) (holds : Holds first firstKey after.sys)
    (asked : ∀ call question next,
      after.engaged client = some (call, .waiting question next) →
        (after.sys.reqs client).task.request.body = service.encode question) :
    Together first firstKey service after := by
  refine ⟨holds, ?_, ?_⟩
  · intro other execution member
    refine lt_of_lt_of_le ?_ elsewhere.owners.count
    by_cases same : other = client
    · exact together.known client execution (elsewhere.fewer execution (same ▸ member))
    · exact together.known other execution (elsewhere.recent other same ▸ member)
  · intro other call question next waits
    by_cases same : other = client
    · subst same
      exact asked call question next waits
    · rw [elsewhere.engaged other same] at waits
      rw [elsewhere.requests other same]
      exact together.asked other call question next waits

/-- Whatever the client may come to hear now, this it may have come to hear before, and
its call goes the same way without a network. -/
structure Follows (service : RemoteService Call Context Question Answer Result Change σ View)
    (client : Client)
    (remote after : Remote Client Call Context Question Answer Result σ View)
    (hears before : Option Bytes) : Prop where
  may : MayHear service remote client before
  goes : ∀ joint, joint.engaged client = seen service before (remote.engaged client) →
    joint.history.filter isCall = remote.history →
      ∃ history, MovesOn (jointStep service.atOnce) joint ⟨joint.shared,
          Function.update joint.engaged client (seen service hears (after.engaged client)),
          history⟩ ∧
        history.filter isCall = after.history

theorem backed_of_follows (together : Together first firstKey service remote)
    (elsewhere : Elsewhere client remote after)
    (follows : ∀ hears, MayHear service after client hears →
      ∃ before, Follows service client remote after hears before) :
    Backed service remote after := by
  intro chosen may
  obtain ⟨before, follow⟩ := follows (chosen client) (may client)
  refine ⟨Function.update chosen client before, ?_, ?_⟩
  · intro other
    by_cases same : other = client
    · rw [same, Function.update_self]
      exact follow.may
    · rw [Function.update_of_ne same]
      intro reply hears
      obtain ⟨call, question, next, waits, offered⟩ := may other reply hears
      rw [elsewhere.engaged other same] at waits
      exact ⟨call, question, next, waits, offered_of_kept (together.known other)
        elsewhere.owners (elsewhere.recent other same) offered⟩
  · intro joint shown
    have itself := shown.engaged client
    rw [Function.update_self] at itself
    obtain ⟨history, moves, calls⟩ := follow.goes joint itself shown.history
    refine ⟨_, moves, shown.shared.trans elsewhere.state.symm, ?_, calls⟩
    intro other
    by_cases same : other = client
    · subst same
      exact Function.update_self _ _ _
    · dsimp only
      rw [Function.update_of_ne same, shown.engaged, Function.update_of_ne same,
        elsewhere.engaged other same]

/-- The call stays where it is without a network. -/
theorem follows_of_same {hears before : Option Bytes}
    (may : MayHear service remote client before)
    (same : seen service hears (after.engaged client) =
      seen service before (remote.engaged client))
    (history : after.history = remote.history) :
    Follows service client remote after hears before := by
  refine ⟨may, ?_⟩
  intro joint itself calls
  refine ⟨joint.history, Or.inl ?_, calls.trans history.symm⟩
  rw [same, ← itself, Function.update_eq_self]

/-- A client whose call has only moved on. -/
theorem elsewhere_engaged (client : Client)
    (remote : Remote Client Call Context Question Answer Result σ View)
    (stage : Option (Call × Stage Question Answer Result))
    (history : List (Event Client Call Result View)) :
    Elsewhere client remote { remote with
      engaged := Function.update remote.engaged client stage
      history } :=
  ⟨⟨le_rfl, fun _ _ => rfl⟩, rfl, fun _ _ => rfl, fun _ member => member, fun _ _ => rfl,
    fun _ foreign => Function.update_of_ne foreign _ _⟩

theorem together_engaged (together : Together first firstKey service remote)
    {stage : Option (Call × Stage Question Answer Result)}
    (notWaiting : ∀ call question next, stage ≠ some (call, .waiting question next))
    (history : List (Event Client Call Result View)) :
    Together first firstKey service { remote with
      engaged := Function.update remote.engaged client stage
      history } := by
  refine together.moved (elsewhere_engaged client remote stage history) together.holds ?_
  intro call question next waits
  dsimp only at waits
  rw [Function.update_self] at waits
  exact absurd waits (notWaiting call question next)

/-- A move that is one of the call itself. -/
theorem backed_engaged (together : Together first firstKey service remote)
    {stage : Option (Call × Stage Question Answer Result)}
    {history : List (Event Client Call Result View)}
    (goes : ∀ hears joint, joint.engaged client =
        seen service none (remote.engaged client) →
      joint.history.filter isCall = remote.history →
      ∃ past, MovesOn (jointStep service.atOnce) joint ⟨joint.shared,
          Function.update joint.engaged client (seen service hears stage), past⟩ ∧
        past.filter isCall = history) :
    Backed service remote { remote with
      engaged := Function.update remote.engaged client stage
      history } := by
  refine backed_of_follows together (elsewhere_engaged client remote stage history) ?_
  intro hears may
  refine ⟨none, mayHear_none service remote client, ?_⟩
  intro joint itself calls
  dsimp only
  rw [Function.update_self]
  exact goes hears joint itself calls

theorem backed_begin (together : Together first firstKey service remote)
    {call : Call} (idle : remote.engaged client = none) :
    Backed service remote { remote with
      engaged := Function.update remote.engaged client
        (some (call, .thinking (service.dialogue call)))
      history := .begun client call :: remote.history } := by
  apply backed_engaged together
  intro hears joint itself calls
  rw [idle] at itself
  refine ⟨.begun client call :: joint.history, Or.inr ⟨.begin client call, ?_⟩, ?_⟩
  · rw [jointStep, itself]
    rfl
  · rw [List.filter_cons_of_pos rfl, calls]

theorem backed_finish (together : Together first firstKey service remote)
    {call : Call} {result : Result}
    (done : remote.engaged client = some (call, .thinking (.done result))) :
    Backed service remote { remote with
      engaged := Function.update remote.engaged client none
      history := .ended client call result :: remote.history } := by
  apply backed_engaged together
  intro hears joint itself calls
  rw [done] at itself
  refine ⟨.ended client call result :: joint.history, Or.inr ⟨.finish client, ?_⟩, ?_⟩
  · rw [jointStep, itself]
    rfl
  · rw [List.filter_cons_of_pos rfl, calls]

/-- The client stops waiting: there is no answer. -/
theorem backed_giveUp (together : Together first firstKey service remote)
    {call : Call} {question : Question} {next : Answer → Dialogue Question Answer Result}
    (waits : remote.engaged client = some (call, .waiting question next)) :
    Backed service remote { remote with
      engaged := Function.update remote.engaged client
        (some (call, .thinking (next service.lost))) } := by
  apply backed_engaged together
  intro hears joint itself calls
  rw [waits] at itself
  refine ⟨joint.history, Or.inr ⟨.ask client none, ?_⟩, calls⟩
  rw [jointStep, itself]
  rfl

/-! ## Sending and receiving -/

section Sys

variable {sys : System Client σ Context}

theorem together_ask (together : Together first firstKey service remote)
    (bounded : Bounded remote.sys) {call : Call} {question : Question}
    {next : Answer → Dialogue Question Answer Result} {release : Bool}
    (stepped : step service.serve remote.sys
      (.send client (service.encode question) release) = some sys) :
    Elsewhere client remote { remote with
        sys
        engaged := Function.update remote.engaged client
          (some (call, .waiting question next)) } ∧
      Together first firstKey service { remote with
        sys
        engaged := Function.update remote.engaged client
          (some (call, .waiting question next)) } := by
  obtain ⟨enabled, acted⟩ := step_eq_some stepped
  obtain ⟨body, nothing, state⟩ := step_send stepped
  have notSend (other : Client) (foreign : other ≠ client) :
      ¬ IsSend other (.send client (service.encode question) release : Move Client Context) := by
    rintro ⟨_, _, same⟩
    cases same
    exact foreign rfl
  have elsewhere : Elsewhere client remote { remote with
      sys
      engaged := Function.update remote.engaged client
        (some (call, .waiting question next)) } := by
    refine ⟨act_ownersKept acted, state, ?_, ?_, ?_, ?_⟩
    · intro other foreign
      rcases act_recorded acted with ⟨_, same⟩ | ⟨_, _, impossible, _⟩
      · exact same other (notSend other foreign)
      · cases impossible
    · dsimp only
      rw [nothing]
      exact fun _ member => absurd member List.not_mem_nil
    · exact fun other foreign => (act_requestKept together.holds bounded enabled acted
        (notSend other foreign)).request
    · exact fun other foreign => Function.update_of_ne foreign _ _
  refine ⟨elsewhere,
    together.moved elsewhere (act_holds together.holds bounded enabled acted) ?_⟩
  intro other asked rest waits
  dsimp only at waits
  rw [Function.update_self] at waits
  cases waits
  exact body

/-- A question is sent; it is not answered yet. -/
theorem backed_ask (together : Together first firstKey service remote)
    (bounded : Bounded remote.sys) {call : Call} {question : Question}
    {next : Answer → Dialogue Question Answer Result} {release : Bool}
    (asks : remote.engaged client = some (call, .thinking (.ask question next)))
    (stepped : step service.serve remote.sys
      (.send client (service.encode question) release) = some sys) :
    Backed service remote { remote with
      sys
      engaged := Function.update remote.engaged client
        (some (call, .waiting question next)) } := by
  obtain ⟨_, nothing, _⟩ := step_send stepped
  refine backed_of_follows together (together_ask together bounded stepped).1 ?_
  intro hears may
  have hearsNothing : hears = none := by
    cases hears with
    | none => rfl
    | some reply =>
        obtain ⟨_, _, _, _, execution, member, _⟩ := may reply rfl
        rw [nothing] at member
        exact absurd member List.not_mem_nil
  refine ⟨none, follows_of_same (mayHear_none service remote client) ?_ rfl⟩
  dsimp only
  rw [Function.update_self, hearsNothing, asks]
  rfl

theorem together_take (together : Together first firstKey service remote)
    (bounded : Bounded remote.sys) {call : Call}
    {dialogue : Dialogue Question Answer Result}
    (stepped : step service.serve remote.sys (.receive client) = some sys) :
    Elsewhere client remote { remote with
        sys
        engaged := Function.update remote.engaged client
          (some (call, .thinking dialogue)) } ∧
      Together first firstKey service { remote with
        sys
        engaged := Function.update remote.engaged client
          (some (call, .thinking dialogue)) } := by
  obtain ⟨enabled, acted⟩ := step_eq_some stepped
  have notSend (other : Client) :
      ¬ IsSend other (.receive client : Move Client Context) := by
    rintro ⟨_, _, same⟩
    cases same
  obtain ⟨state, recent⟩ : sys.state = remote.sys.state ∧
      ∀ other, sys.recent other = remote.sys.recent other := by
    rcases act_recorded acted with ⟨state, same⟩ | ⟨_, _, impossible, _⟩
    · exact ⟨state, fun other => same other (notSend other)⟩
    · cases impossible
  have elsewhere : Elsewhere client remote { remote with
      sys
      engaged := Function.update remote.engaged client
        (some (call, .thinking dialogue)) } := by
    refine ⟨act_ownersKept acted, state, fun other _ => recent other, ?_, ?_, ?_⟩
    · dsimp only
      rw [recent]
      exact fun _ member => member
    · exact fun other _ => (act_requestKept together.holds bounded enabled acted
        (notSend other)).request
    · exact fun other foreign => Function.update_of_ne foreign _ _
  refine ⟨elsewhere,
    together.moved elsewhere (act_holds together.holds bounded enabled acted) ?_⟩
  intro other asked rest stillWaits
  simp at stillWaits

/-- A client hears a reply: the one it was going to hear. -/
theorem backed_take (together : Together first firstKey service remote)
    (bounded : Bounded remote.sys) {call : Call} {question : Question}
    {next : Answer → Dialogue Question Answer Result}
    (waits : remote.engaged client = some (call, .waiting question next))
    {msg : Msg} {req : Req}
    (received : nnReqCrecv (remote.sys.reqs client) = some (.reply (.held msg), req))
    (stepped : step service.serve remote.sys (.receive client) = some sys) :
    Backed service remote { remote with
      sys
      engaged := Function.update remote.engaged client
        (some (call, .thinking (next (service.decode question msg.body)))) } := by
  refine backed_of_follows together (together_take together bounded stepped).1 ?_
  intro hears may
  obtain ⟨done, slot⟩ := nnReqCrecv_reply received
  obtain ⟨connection, reply, own, held, execution, member, rfl, sent, isFirst⟩ :=
    (together.holds.clients client).replied (Or.inr done)
  rw [← slot] at held
  cases held
  have body := together.asked client call question next waits
  have request : (remote.sys.reqs client).task.request =
    ⟨execution.handling.header, execution.handling.body⟩ := sent
  rw [request] at body
  have mayBefore : MayHear service remote client (some reply) := by
    rintro other ⟨⟩
    exact ⟨call, question, next, waits, execution, member, own, body, isFirst⟩
  refine ⟨some reply, follows_of_same mayBefore ?_ rfl⟩
  dsimp only
  rw [Function.update_self, waits]
  rfl

/-! ## Everything else that happens -/

omit [DecidableEq Client] in
/-- The network and the server make a move. -/
theorem Together.network (together : Together first firstKey service remote)
    (holds : Holds first firstKey sys) (known : RecordKnown sys)
    (requests : ∀ client, remote.engaged client ≠ none →
      (sys.reqs client).task.request = (remote.sys.reqs client).task.request) :
    Together first firstKey service { remote with sys } := by
  refine ⟨holds, known, ?_⟩
  intro client call question next waits
  dsimp only at waits ⊢
  rw [requests client (by simp [waits])]
  exact together.asked client call question next waits

/-- Nothing is carried out. -/
theorem backed_network (together : Together first firstKey service remote)
    (owners : OwnersKept remote.sys sys) (state : sys.state = remote.sys.state)
    (recent : ∀ client, remote.engaged client ≠ none →
      sys.recent client = remote.sys.recent client) :
    Backed service remote { remote with sys } := by
  intro chosen may
  refine ⟨chosen, ?_, ?_⟩
  · intro client reply hears
    obtain ⟨call, question, next, waits, offered⟩ := may client reply hears
    dsimp only at waits
    exact ⟨call, question, next, waits, offered_of_kept (together.known client) owners
      (recent client (by simp [waits])) offered⟩
  · intro joint shown
    exact ⟨joint, Or.inl rfl, shown.shared.trans state.symm, shown.engaged, shown.history⟩

section Answer

variable {execution : Execution σ Context}

/-- An execution whose reply this client is going to hear. -/
def IsFor (service : RemoteService Call Context Question Answer Result Change σ View)
    (remote : Remote Client Call Context Question Answer Result σ View)
    (execution : Execution σ Context) (client : Client) (hears : Option Bytes) : Prop :=
  ∃ call question next reply, hears = some reply ∧
    remote.engaged client = some (call, .waiting question next) ∧
    Owns remote.sys client execution.handling.connection ∧
    execution.handling.body = service.encode question ∧
    execution.replies.head? = some reply

omit [DecidableEq Client] in
/-- A reply on offer was so before, or is that of the new execution. -/
theorem mayHear_answered
    (known : ∀ execution ∈ remote.sys.recent client,
      execution.handling.connection < remote.sys.count)
    (handled : execution.handling.connection < remote.sys.count)
    (owners : OwnersKept remote.sys sys)
    (recent : sys.recent client = execution :: remote.sys.recent client)
    {hears : Option Bytes} (may : MayHear service { remote with sys } client hears)
    (notFor : ¬ IsFor service remote execution client hears) :
    MayHear service remote client hears := by
  intro reply isHeard
  obtain ⟨call, question, next, waits, offering, member, own, body, isFirst⟩ :=
    may reply isHeard
  refine ⟨call, question, next, waits, ?_⟩
  dsimp only at member own
  rw [recent] at member
  rcases List.mem_cons.mp member with rfl | old
  · rw [Owns, owners.owner _ handled] at own
    exact absurd ⟨call, question, next, reply, isHeard, waits, own, body, isFirst⟩ notFor
  · rw [Owns, owners.owner _ (known offering old)] at own
    exact ⟨offering, old, own, body, isFirst⟩

/-- The server has carried out a request.  If a client is going to hear the reply, this
is when its question is answered. -/
theorem backed_answered (together : Together first firstKey service remote)
    (owners : OwnersKept remote.sys sys)
    (answered : Answered service.serve remote.sys sys execution) :
    Backed service remote { remote with sys } := by
  have handled := handled_lt together.holds answered.handling
  have served := answered.served
  rw [← answered.before] at served
  intro chosen may
  by_cases someone : ∃ client, IsFor service remote execution client (chosen client)
  · obtain ⟨client, call, question, next, reply, hears, waits, own, body, isFirst⟩ :=
      someone
    refine ⟨Function.update chosen client none, ?_, ?_⟩
    · intro other
      by_cases same : other = client
      · rw [same, Function.update_self]
        exact mayHear_none service remote client
      · rw [Function.update_of_ne same]
        apply mayHear_answered (together.known other) handled owners
          (answered.recent other) (may other)
        -- a connection has one owner
        rintro ⟨_, _, _, _, _, _, alsoOwn, _⟩
        exact same (Option.some.inj (alsoOwn.symm.trans own))
    · intro joint shown
      have itself := shown.engaged client
      rw [Function.update_self, waits] at itself
      have replied : service.atOnce.answer (some execution.context) question joint.shared =
          some (service.decode question reply, sys.state) := by
        simp only [RemoteService.atOnce, shown.shared, ← body, served, isFirst,
          Option.bind_eq_bind, Option.bind_some, Option.pure_def]
      have stepped : jointStep service.atOnce joint (.ask client (some execution.context)) =
          some ⟨sys.state, Function.update joint.engaged client
            (some (call, next (service.decode question reply))), joint.history⟩ := by
        rw [jointStep, itself]
        simp only [seen, replied]
      refine ⟨_, Or.inr ⟨_, stepped⟩, rfl, ?_, shown.history⟩
      intro other
      dsimp only
      by_cases same : other = client
      · rw [same, Function.update_self, hears, waits]
        rfl
      · rw [Function.update_of_ne same, shown.engaged, Function.update_of_ne same]
  · refine ⟨chosen, ?_, ?_⟩
    · exact fun client => mayHear_answered (together.known client) handled owners
        (answered.recent client) (may client) fun isFor => someone ⟨client, isFor⟩
    · intro joint shown
      have stepped : jointStep service.atOnce joint
          (.outside (.inr (execution.context, execution.handling.body))) =
            some ⟨sys.state, joint.engaged,
              .changed (service.view sys.state) :: joint.history⟩ := by
        simp only [jointStep, RemoteService.atOnce, shown.shared, served, Option.map_some]
      refine ⟨_, Or.inr ⟨_, stepped⟩, rfl, shown.engaged, ?_⟩
      rw [List.filter_cons_of_neg (by simp [isCall])]
      exact shown.history

end Answer

end Sys

omit [DecidableEq Client] in
/-- The server's state changes from outside. -/
theorem Together.outside (together : Together first firstKey service remote) (state : σ) :
    Together first firstKey service
      { remote with sys := { remote.sys with state } } := by
  have holds := together.holds
  refine ⟨⟨?_, ?_, holds.flows, holds.fresh⟩, together.known, together.asked⟩
  · exact fun client => (holds.clients client).congr rfl rfl rfl fun _ own => own
  · exact holds.server.congr rfl rfl rfl fun _ => rfl

theorem backed_outside {change : Change} {state : σ}
    (changed : service.change change remote.sys.state = some state) :
    Backed service remote { remote with sys := { remote.sys with state } } := by
  intro chosen may
  refine ⟨chosen, may, ?_⟩
  intro joint shown
  have stepped : jointStep service.atOnce joint (.outside (.inl change)) =
      some ⟨state, joint.engaged, .changed (service.view state) :: joint.history⟩ := by
    simp only [jointStep, RemoteService.atOnce, shown.shared, changed]
  refine ⟨_, Or.inr ⟨_, stepped⟩, rfl, shown.engaged, ?_⟩
  rw [List.filter_cons_of_neg (by simp [isCall])]
  exact shown.history

/-! ## Whole runs -/

theorem bounded_of_remoteStep {move : RemoteMove Client Call Context Change}
    (stepped : remoteStep service remote move = some after) (bounded : Bounded after.sys) :
    Bounded remote.sys := by
  cases move with
  | begin client call =>
      simp only [remoteStep] at stepped
      split at stepped <;> cases stepped
      exact bounded
  | ask client release =>
      simp only [remoteStep] at stepped
      split at stepped
      · obtain ⟨sys, moved, rfl⟩ := Option.map_eq_some_iff.mp stepped
        exact bounded_of_act (step_eq_some moved).2 bounded
      · cases stepped
  | take client =>
      simp only [remoteStep] at stepped
      split at stepped
      · obtain ⟨sys, moved, rfl⟩ := Option.map_eq_some_iff.mp stepped
        exact bounded_of_act (step_eq_some moved).2 bounded
      · cases stepped
  | giveUp client =>
      simp only [remoteStep] at stepped
      split at stepped <;> cases stepped
      exact bounded
  | finish client =>
      simp only [remoteStep] at stepped
      split at stepped <;> cases stepped
      exact bounded
  | network move =>
      simp only [remoteStep] at stepped
      split at stepped
      · obtain ⟨sys, moved, rfl⟩ := Option.map_eq_some_iff.mp stepped
        exact bounded_of_act (step_eq_some moved).2 bounded
      · cases stepped
  | outside change =>
      obtain ⟨state, _, rfl⟩ := Option.map_eq_some_iff.mp stepped
      exact ⟨bounded.sends, bounded.accepts⟩

theorem together_step (together : Together first firstKey service remote)
    (bounded : Bounded remote.sys) {move : RemoteMove Client Call Context Change}
    (stepped : remoteStep service remote move = some after) :
    Together first firstKey service after ∧ Backed service remote after := by
  cases move with
  | begin client call =>
      simp only [remoteStep] at stepped
      split at stepped
      · rename_i idle
        cases stepped
        exact ⟨together_engaged together (by simp) _, backed_begin together idle⟩
      · cases stepped
  | ask client release =>
      simp only [remoteStep] at stepped
      split at stepped
      · rename_i call question next asks
        obtain ⟨sys, moved, rfl⟩ := Option.map_eq_some_iff.mp stepped
        exact ⟨(together_ask together bounded moved).2, backed_ask together bounded asks moved⟩
      · cases stepped
  | take client =>
      simp only [remoteStep] at stepped
      split at stepped
      · rename_i call question next msg req waits received
        obtain ⟨sys, moved, rfl⟩ := Option.map_eq_some_iff.mp stepped
        exact ⟨(together_take together bounded moved).2,
          backed_take together bounded waits received moved⟩
      · cases stepped
  | giveUp client =>
      simp only [remoteStep] at stepped
      split at stepped
      · rename_i call question next waits
        cases stepped
        exact ⟨together_engaged together (by simp) _, backed_giveUp together waits⟩
      · cases stepped
  | finish client =>
      simp only [remoteStep] at stepped
      split at stepped
      · rename_i call result done
        cases stepped
        exact ⟨together_engaged together (by simp) _, backed_finish together done⟩
      · cases stepped
  | network move =>
      simp only [remoteStep] at stepped
      split at stepped
      · rename_i free
        obtain ⟨sys, moved, rfl⟩ := Option.map_eq_some_iff.mp stepped
        obtain ⟨enabled, acted⟩ := step_eq_some moved
        have notSend (client : Client) (inCall : remote.engaged client ≠ none) :
            ¬ IsSend client move := by
          rintro ⟨body, release, rfl⟩
          simp only [isFree, userOf, Option.isNone_iff_eq_none] at free
          exact inCall free
        have holds := act_holds together.holds bounded enabled acted
        have owners := act_ownersKept acted
        have known := step_recordKnown together.holds together.known moved
        refine ⟨together.network holds known fun client inCall =>
          (act_requestKept together.holds bounded enabled acted
            (notSend client inCall)).request, ?_⟩
        rcases act_recorded acted with ⟨state, recent⟩ | ⟨execution, _, _, answered⟩
        · exact backed_network together owners state
            fun client inCall => recent client (notSend client inCall)
        · exact backed_answered together owners answered
      · cases stepped
  | outside change =>
      obtain ⟨state, changed, rfl⟩ := Option.map_eq_some_iff.mp stepped
      exact ⟨together.outside state, backed_outside changed⟩

theorem foretells (first : Client → UInt32) (firstKey : UInt32)
    (service : RemoteService Call Context Question Answer Result Change σ View) :
    Foretells (remoteStep service) (jointStep service.atOnce)
      (Together first firstKey service)
      (fun remote : Remote Client Call Context Question Answer Result σ View =>
        Bounded remote.sys)
      (fun remote chosen => ∀ client, MayHear service remote client (chosen client))
      (Shows service) where
  bounded _ _ _ stepped := bounded_of_remoteStep stepped
  kept _ _ _ together bounded stepped := (together_step together bounded stepped).1
  back _ _ _ together bounded stepped := (together_step together bounded stepped).2

/-- Whenever the clients begin: beside every run over the network there is one in which
questions are answered at once, with the same state of the server and the same calls at
all times. -/
theorem exists_run_at_once {state : σ} {earlier : List (Move Client Context)}
    {sys : System Client σ Context}
    (reached : runLabels (step service.serve) (started first firstKey state) earlier =
      some sys)
    {moves : List (RemoteMove Client Call Context Change)}
    {final : Remote Client Call Context Question Answer Result σ View}
    (run : runLabels (remoteStep service) (remoteAtRest sys) moves = some final)
    (bounded : Bounded final.sys) :
    ∃ joint, SideBySide (remoteStep service) (jointStep service.atOnce) Agree
      (remoteAtRest sys) (atRest sys.state) moves final joint := by
  have rules := foretells first firstKey service
  have startBounded : Bounded sys := rules.bounded_of_run run bounded
  have holds := run_holds (started_holds first firstKey state) reached startBounded
  have initially : Together first firstKey service (remoteAtRest sys) := by
    refine ⟨holds, ?_, ?_⟩
    · refine run_recordKnown (started_holds first firstKey state) ?_ reached startBounded
      intro client execution member
      cases member
    · intro client call question next engaged
      cases engaged
  have nothing : ∀ client, MayHear service final client
      ((fun _ => none : Client → Option Bytes) client) := mayHear_none service final
  obtain ⟨before, _, beside⟩ :=
    rules.exists_beside (fun _ _ _ => Shows.agree) run initially bounded nothing
  have shown : Shows service before (remoteAtRest sys) (atRest sys.state) :=
    ⟨rfl, fun _ => rfl, rfl⟩
  obtain ⟨joint, runs, _⟩ := beside (atRest sys.state) shown
  exact ⟨joint, runs⟩

/-! A request that is carried out twice, though it is asked once. -/

/-- A server that counts what it carries out, and replies how often it has before. -/
def counting : RemoteService Unit Unit Unit (Option UInt8) (Option UInt8) Empty Nat Nat where
  dialogue _ := .ask () .done
  encode _ := [1]
  decode _ := List.head?
  lost := none
  serve _ count _ := some (count + 1, [[UInt8.ofNat count]])
  change change _ := change.elim
  view := id

def askedOnce : List (RemoteMove Unit Unit Unit Empty) :=
  [.begin () (), .ask () true] ++ sentTwice.map .network ++ [.take (), .finish ()]

theorem askedOnce_run : ∃ sys final,
    runLabels (step counting.serve) (started (fun _ => 7) 3 0) beforeSend = some sys ∧
    runLabels (remoteStep counting) (remoteAtRest sys) askedOnce = some final ∧
    final.history = [.ended () () (some 0), .begun () ()] ∧ final.sys.state = 2 ∧
    final.sys.sends () = 1 ∧ final.sys.accepts = 1 :=
  ⟨_, _, rfl, rfl, rfl, rfl, rfl, rfl⟩

theorem exists_run_at_once_askedOnce : ∃ sys final joint,
    runLabels (step counting.serve) (started (fun _ => 7) 3 0) beforeSend = some sys ∧
    runLabels (remoteStep counting) (remoteAtRest sys) askedOnce = some final ∧
    final.history = [.ended () () (some 0), .begun () ()] ∧ final.sys.state = 2 ∧
    SideBySide (remoteStep counting) (jointStep counting.atOnce) Agree
      (remoteAtRest sys) (atRest sys.state) askedOnce final joint := by
  obtain ⟨sys, final, reached, run, history, state, sends, accepts⟩ := askedOnce_run
  obtain ⟨joint, runs⟩ := exists_run_at_once reached run (bounded_of_one sends accepts)
  exact ⟨sys, final, joint, reached, run, history, state, runs⟩

end ChlorosSnfs.Nanomsg.RemoteDialogues
