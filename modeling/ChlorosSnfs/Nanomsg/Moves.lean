import ChlorosSnfs.Nanomsg.ServerEnd

/-!
# Every move keeps the clients and the server in step

As long as the numbers of requests and connections do not wrap around, the invariant
holds in every state, and no move fails but where the server's user stops.
-/

set_option autoImplicit false

namespace ChlorosSnfs.Nanomsg.Moves

open ChlorosSnfs.Library.NumberedQueues
open ChlorosSnfs.Library.Runs
open ChlorosSnfs.Nanomsg.Wire
open ChlorosSnfs.Nanomsg.ReqSocket
open ChlorosSnfs.Nanomsg.ReqStates
open ChlorosSnfs.Nanomsg.RepSocket
open ChlorosSnfs.Nanomsg.ReqRep
open ChlorosSnfs.Nanomsg.Flows
open ChlorosSnfs.Nanomsg.ClientEnd
open ChlorosSnfs.Nanomsg.Conversations
open ChlorosSnfs.Nanomsg.ServerEnd

variable {Client σ Context : Type} {first : Client → UInt32} {firstKey : UInt32}
  {sys next : System Client σ Context}

/-! ## New connections, and strangers -/

theorem handled_lt (holds : Holds first firstKey sys) {handling : Handling}
    (handled : sys.handling = some handling) : handling.connection < sys.count := by
  by_contra beyond
  obtain ⟨serial, known, _⟩ := holds.server.underway handling handled
  rw [holds.fresh _ (Nat.le_of_not_lt beyond)] at known
  cases known

theorem opened_self (sys : System Client σ Context) (owner : Option Client) :
    (sys.opened owner).connections sys.count = ⟨owner, none, [], []⟩ :=
  withConnection_self sys _ _

theorem opened_of_ne (sys : System Client σ Context) (owner : Option Client)
    {connection : Nat} (old : connection ≠ sys.count) :
    (sys.opened owner).connections connection = sys.connections connection :=
  withConnection_of_ne sys old _

theorem flowsOf_opened (holds : Holds first firstKey sys) (owner : Option Client)
    (client : Client) (low : Nat) :
    Flowing (talkOf first sys client) sys.count low
      ((sys.opened owner).connections sys.count).toClient (atWorkOn sys sys.count)
      ((sys.opened owner).connections sys.count).toServer := by
  have idle : atWorkOn sys sys.count = none := by
    rw [atWorkOn, Option.filter_eq_none_iff]
    intro handling handled here
    have known := handled_lt holds handled
    simp only [decide_eq_true_eq] at here
    omega
  rw [opened_self, idle]
  exact flowing_nil _ _ _

theorem owns_of_opened (holds : Holds first firstKey sys) {owner : Option Client}
    {client : Client} {connection : Nat} (owns : Owns sys client connection) :
    Owns (sys.opened owner) client connection := by
  have old : connection ≠ sys.count := by
    rintro rfl
    rw [Owns, holds.fresh sys.count le_rfl] at owns
    cases owns
  rw [Owns, opened_of_ne sys owner old]
  exact owns

theorem holds_opened (holds : Holds first firstKey sys) (owner : Option Client) :
    Holds first firstKey (sys.opened owner) := by
  refine ⟨?_, holds.server.congr rfl rfl rfl ?_, ?_, ?_⟩
  · intro client
    exact (holds.clients client).congr rfl rfl rfl fun _ => owns_of_opened holds
  · intro connection
    by_cases new : connection = sys.count
    · rw [new, opened_self, holds.fresh sys.count le_rfl]
    · rw [opened_of_ne sys owner new]
  · intro client connection owns
    by_cases new : connection = sys.count
    · subst new
      exact flowsOf_opened holds owner client _
    · rw [Owns, opened_of_ne sys owner new] at owns
      rw [FlowsOf, opened_of_ne sys owner new]
      exact holds.flows client connection owns
  · intro connection beyond
    have later : sys.count + 1 ≤ connection := beyond
    rw [opened_of_ne sys owner (by omega)]
    exact holds.fresh connection (by omega)

/-- A stranger sends; no client has anything on that connection. -/
theorem holds_strangerSends (holds : Holds first firstKey sys) {connection : Nat}
    (known : connection < sys.count) (stranger : (sys.connections connection).owner = none)
    (wire : Bytes) :
    Holds first firstKey
      (sys.withConnection connection ((sys.connections connection).ask wire)) := by
  have owners := withConnection_same sys Connection.owner
    ((sys.connections connection).ask wire) rfl
  refine ⟨?_, holds.server.congr rfl rfl rfl ?_, ?_, ?_⟩
  · intro client
    refine (holds.clients client).congr rfl rfl rfl ?_
    exact fun other owns => (owners other).trans owns
  · exact withConnection_same sys Connection.serial _ rfl
  · intro client other owns
    have owned : Owns sys client other := (owners other).symm.trans owns
    have elsewhere : other ≠ connection := by
      rintro rfl
      rw [Owns, stranger] at owned
      cases owned
    rw [FlowsOf, withConnection_of_ne sys elsewhere]
    exact holds.flows client other owned
  · intro other beyond
    have later : sys.count ≤ other := beyond
    rw [withConnection_of_ne sys (by omega)]
    exact holds.fresh other later

variable [DecidableEq Client] {client : Client}

/-- The client's socket is given the new pipe. -/
theorem holds_connected (holds : Holds first firstKey sys)
    (free : (sys.reqs client).xreq.pipe = none) :
    Holds first firstKey
      ((sys.opened (some client)).moved client (nnReqAdd sys.count (sys.reqs client))
        none) := by
  have opened := holds_opened holds (some client)
  have before := opened.clients client
  have only : OnlyClient client (sys.opened (some client))
      ((sys.opened (some client)).moved client (nnReqAdd sys.count (sys.reqs client))
        none) := moved_onlyClient _ (by simp)
  have now : ((sys.opened (some client)).moved client
      (nnReqAdd sys.count (sys.reqs client)) none).reqs client =
        nnReqAdd sys.count (sys.reqs client) := Function.update_self _ _ _
  have talk : talkOf first ((sys.opened (some client)).moved client
      (nnReqAdd sys.count (sys.reqs client)) none) client = talkOf first sys client := by
    rw [talkOf, talkOf, now]
    rfl
  refine opened.ofClient only ⟨?_, ?_, ?_, ?_, ?_, ?_⟩ ?_
  · rw [now]
    exact nnReqAdd_sound before.sound free sys.count
  · rw [now]
    exact before.id
  · rw [now]
    exact before.unasked
  · rw [now]
    exact before.header
  · rw [now]
    intro pipe here
    cases Option.some.inj here
    exact congrArg Connection.owner (opened_self sys (some client))
  · rw [now, talk]
    exact before.replied
  · intro connection owns
    rw [FlowsOf, talk, now, atWorkOn, only.handling]
    by_cases new : connection = sys.count
    · subst new
      exact flowsOf_opened holds (some client) client _
    · have least : lowest (sys.sends client) (nnReqAdd sys.count (sys.reqs client))
          connection = 0 := if_neg fun here => new (Option.some.inj here.2).symm
      exact Numbered.weaken (opened.flows client connection owns)
        (least.trans_le (Nat.zero_le _))

/-! ## Any move -/

/-- Calls and timers of a client that neither ask nor take a message. -/
def quietOf : Move Client Context → Option Client
  | .clientOut client _ | .receive client | .timeout client | .timerStopped client _
  | .disconnect client => some client
  | _ => none

/-- What makes a client send its request again. -/
def isResend (client : Client) : Move Client Context → Bool
  | .timeout other | .disconnect other => decide (other = client)
  | _ => false

variable {serve : Context → σ → Bytes → Option (σ × List Bytes)}
  {move : Move Client Context}

theorem act_quiet (holds : Holds first firstKey sys) (enabled : Enabled sys move)
    (quiet : quietOf move = some client)
    (acted : act serve sys move = some next) :
    ∃ req sending, Moved (sys.reqs client) req sending ∧
      next = sys.moved client req sending ∧
      waits req + puts sending ≤
        waits (sys.reqs client) + if isResend client move then 1 else 0 := by
  have sound := (holds.clients client).sound
  cases move <;> simp only [quietOf, Option.some.injEq, reduceCtorEq] at quiet
  case clientOut =>
      subst quiet
      obtain ⟨⟨req, sending⟩, out, rfl⟩ := Option.map_eq_some_iff.mp acted
      exact ⟨req, sending, nnReqOut_moved sound enabled out, rfl, nnReqOut_waits out⟩
  case receive =>
      subst quiet
      obtain ⟨⟨received, req⟩, took, rfl⟩ := Option.map_eq_some_iff.mp acted
      exact ⟨req, none, nnReqCrecv_moved sound took, rfl, nnReqCrecv_waits took⟩
  case timeout =>
      subst quiet
      obtain ⟨⟨req, sending⟩, out, rfl⟩ := Option.map_eq_some_iff.mp acted
      refine ⟨req, sending, timedOut_moved sound enabled out, rfl, ?_⟩
      simpa [isResend] using timedOut_waits sound enabled out
  case timerStopped =>
      subst quiet
      obtain ⟨⟨req, sending⟩, out, rfl⟩ := Option.map_eq_some_iff.mp acted
      exact ⟨req, sending, timerStopped_moved sound enabled out, rfl,
        timerStopped_waits sound enabled out⟩
  case disconnect =>
      subst quiet
      obtain ⟨pipe, own⟩ := Option.ne_none_iff_exists'.mp enabled
      simp only [act, own] at acted
      obtain ⟨⟨req, sending⟩, removed, rfl⟩ := Option.map_eq_some_iff.mp acted
      refine ⟨req, sending, nnReqRm_moved sound own removed, rfl, ?_⟩
      simpa [isResend] using nnReqRm_waits sound removed

theorem act_holds (holds : Holds first firstKey sys) (bounded : Bounded sys)
    (enabled : Enabled sys move) (acted : act serve sys move = some next) :
    Holds first firstKey next := by
  cases quiet : quietOf move with
  | some client =>
      obtain ⟨req, sending, moved, rfl, _⟩ := act_quiet holds enabled quiet acted
      exact holds.moved moved
  | none =>
      cases move <;> simp only [quietOf, reduceCtorEq] at quiet
      case connect =>
          cases acted
          exact holds_connected holds enabled
      case send client body release =>
          obtain ⟨⟨req, sending⟩, sends, rfl⟩ := Option.map_eq_some_iff.mp acted
          exact holds.renewed (nnReqCsend_renewed (holds.clients client).sound sends)
      case deliver client available =>
          obtain ⟨pipe, own⟩ := Option.ne_none_iff_exists'.mp enabled
          simp only [act, own] at acted
          obtain ⟨⟨req, rest⟩, took, rfl⟩ := Option.map_eq_some_iff.mp acted
          exact holds.taken bounded own took
      case strangerConnects =>
          cases acted
          exact holds_opened holds none
      case strangerSends =>
          cases acted
          exact holds_strangerSends holds enabled.1 enabled.2 _
      case accept =>
          obtain ⟨rep, added, rfl⟩ := Option.map_eq_some_iff.mp acted
          exact holds_accepted holds enabled.1 enabled.2 added
      case serverOut =>
          cases acted
          exact holds_rerouted holds (routes_setOut _ _ _ _) rfl
      case serverDisconnect =>
          cases acted
          exact holds_rerouted holds (routes_nnXrepRm _ _) rfl
      case serverReceive connection =>
          obtain ⟨idle, waiting, data, member, here⟩ := enabled
          obtain ⟨wire, rest, queue⟩ := List.exists_cons_of_ne_nil waiting
          cases found : sys.rep.outpipes.find? (·.pipe = connection) with
          | none =>
              have missing := List.find?_eq_none.mp found data member
              simp [here] at missing
          | some data =>
              have pipe : data.pipe = connection := by simpa using List.find?_some found
              simp only [act, found, queue] at acted
              cases acted
              subst pipe
              exact holds_received holds idle (List.mem_of_find?_eq_some found) queue
      case answer context release =>
          obtain ⟨handling, handled⟩ := Option.ne_none_iff_exists'.mp enabled
          simp only [act, handled] at acted
          obtain ⟨⟨state, replies⟩, _, rfl⟩ := Option.map_eq_some_iff.mp acted
          exact holds_answered holds bounded handled release
            ⟨handling, context, sys.state, replies⟩ rfl state

/-! ## No assertion fails -/

omit [DecidableEq Client] in
/-- The key of a new pipe is not in use. -/
theorem nnXrepAdd_ne_none (holds : Holds first firstKey sys) (bounded : Bounded sys)
    (connection : Nat) : nnXrepAdd connection sys.rep ≠ none := by
  have server := holds.server
  rw [nnXrepAdd, if_neg]
  · simp
  · intro inUse
    obtain ⟨data, member, same⟩ := List.any_eq_true.mp inUse
    obtain ⟨serial, has, key⟩ := server.keys data member
    have known := server.accepted data.pipe serial has
    rw [decide_eq_true_eq, key, server.nextKey] at same
    have equal := keyNumbered_injective (known.trans bounded.accepts) bounded.accepts same
    omega

/-- Only the server's user can stop. -/
theorem act_stops (holds : Holds first firstKey sys) (bounded : Bounded sys)
    (enabled : Enabled sys move) (stops : act serve sys move = none) :
    ∃ context release handling, move = .answer context release ∧
      sys.handling = some handling ∧ serve context sys.state handling.body = none := by
  cases move with
  | connect => cases stops
  | strangerConnects => cases stops
  | strangerSends => cases stops
  | serverOut => cases stops
  | serverDisconnect => cases stops
  | clientOut client release =>
      obtain ⟨_, _, out, _⟩ :=
        nnReqOut_sound (holds.clients client).sound enabled release
      rw [act, out] at stops
      cases stops
  | send client body release =>
      obtain ⟨_, _, sends, _⟩ :=
        nnReqCsend_sound (holds.clients client).sound release body
      rw [act, sends] at stops
      cases stops
  | receive client =>
      obtain ⟨_, _, took, _⟩ := nnReqCrecv_sound (holds.clients client).sound
      rw [act, took] at stops
      cases stops
  | timeout client =>
      obtain ⟨_, _, out, _⟩ := timedOut_sound (holds.clients client).sound enabled
      rw [act, out] at stops
      cases stops
  | timerStopped client release =>
      obtain ⟨_, _, out, _⟩ :=
        timerStopped_sound (holds.clients client).sound enabled release
      rw [act, out] at stops
      cases stops
  | deliver client available =>
      obtain ⟨pipe, own⟩ := Option.ne_none_iff_exists'.mp enabled
      obtain ⟨_, _, took, _⟩ := nnReqIn_sound (holds.clients client).sound
        ((sys.connections pipe).toClient.take available)
      simp only [act, own, took] at stops
      cases stops
  | disconnect client =>
      obtain ⟨pipe, own⟩ := Option.ne_none_iff_exists'.mp enabled
      obtain ⟨_, _, removed, _⟩ := nnReqRm_sound (holds.clients client).sound own
      simp only [act, own, removed] at stops
      cases stops
  | accept connection =>
      have added := Option.map_eq_none_iff.mp stops
      exact absurd added (nnXrepAdd_ne_none holds bounded connection)
  | serverReceive connection =>
      rw [act] at stops
      split at stops <;> cases stops
  | answer context release =>
      obtain ⟨handling, handled⟩ := Option.ne_none_iff_exists'.mp enabled
      simp only [act, handled] at stops
      exact ⟨context, release, handling, rfl, handled, Option.map_eq_none_iff.mp stops⟩

/-! ## Whole runs -/

theorem bounded_moved {req : Req} {sending : Sending}
    (bounded : Bounded (sys.moved client req sending)) : Bounded sys := by
  cases sending <;> exact ⟨bounded.sends, bounded.accepts⟩

theorem bounded_of_act (acted : act serve sys move = some next) (bounded : Bounded next) :
    Bounded sys := by
  cases move with
  | connect => cases acted; exact ⟨bounded.sends, bounded.accepts⟩
  | strangerConnects => cases acted; exact ⟨bounded.sends, bounded.accepts⟩
  | strangerSends => cases acted; exact ⟨bounded.sends, bounded.accepts⟩
  | serverOut => cases acted; exact ⟨bounded.sends, bounded.accepts⟩
  | serverDisconnect => cases acted; exact ⟨bounded.sends, bounded.accepts⟩
  | clientOut =>
      obtain ⟨_, _, rfl⟩ := Option.map_eq_some_iff.mp acted
      exact bounded_moved bounded
  | send client body release =>
      obtain ⟨⟨req, sending⟩, _, rfl⟩ := Option.map_eq_some_iff.mp acted
      have fewer (other : Client) : sys.sends other ≤
          Function.update sys.sends client (sys.sends client + 1) other := by
        by_cases same : other = client
        · rw [same, Function.update_self]
          omega
        · rw [Function.update_of_ne same]
      have accepts : (sys.moved client req sending).accepts = sys.accepts := by
        cases sending <;> rfl
      exact ⟨fun other => (fewer other).trans_lt (bounded.sends other),
        accepts ▸ bounded.accepts⟩
  | receive =>
      obtain ⟨_, _, rfl⟩ := Option.map_eq_some_iff.mp acted
      exact bounded_moved bounded
  | timeout =>
      obtain ⟨_, _, rfl⟩ := Option.map_eq_some_iff.mp acted
      exact bounded_moved bounded
  | timerStopped =>
      obtain ⟨_, _, rfl⟩ := Option.map_eq_some_iff.mp acted
      exact bounded_moved bounded
  | deliver client available =>
      simp only [act] at acted
      split at acted
      · cases acted
        exact bounded
      · obtain ⟨_, _, rfl⟩ := Option.map_eq_some_iff.mp acted
        exact ⟨bounded.sends, bounded.accepts⟩
  | disconnect client =>
      simp only [act] at acted
      split at acted
      · cases acted
        exact bounded
      · obtain ⟨_, _, rfl⟩ := Option.map_eq_some_iff.mp acted
        exact bounded_moved bounded
  | accept connection =>
      obtain ⟨_, _, rfl⟩ := Option.map_eq_some_iff.mp acted
      exact ⟨bounded.sends, Nat.lt_of_succ_lt bounded.accepts⟩
  | serverReceive connection =>
      simp only [act] at acted
      split at acted
      · cases acted
        exact ⟨bounded.sends, bounded.accepts⟩
      · cases acted
        exact bounded
  | answer context release =>
      simp only [act] at acted
      split at acted
      · cases acted
        exact bounded
      · obtain ⟨_, _, rfl⟩ := Option.map_eq_some_iff.mp acted
        exact ⟨bounded.sends, bounded.accepts⟩

theorem step_eq_some (stepped : step serve sys move = some next) :
    Enabled sys move ∧ act serve sys move = some next := by
  rw [step] at stepped
  split at stepped
  · rename_i enabled
    exact ⟨enabled, stepped⟩
  · cases stepped

theorem run_bounded {moves : List (Move Client Context)}
    (run : runLabels (step serve) sys moves = some next) (bounded : Bounded next) :
    Bounded sys := by
  induction moves generalizing sys with
  | nil =>
      cases Option.some.inj run
      exact bounded
  | cons move rest inductionHypothesis =>
      obtain ⟨middle, stepped, remaining⟩ :=
        (runLabels_cons_eq_some _ _ _ _ _).mp run
      exact bounded_of_act (step_eq_some stepped).2 (inductionHypothesis remaining)

theorem run_holds {moves : List (Move Client Context)} (holds : Holds first firstKey sys)
    (run : runLabels (step serve) sys moves = some next) (bounded : Bounded next) :
    Holds first firstKey next := by
  induction moves generalizing sys with
  | nil =>
      cases Option.some.inj run
      exact holds
  | cons move rest inductionHypothesis =>
      obtain ⟨middle, stepped, remaining⟩ :=
        (runLabels_cons_eq_some _ _ _ _ _).mp run
      obtain ⟨enabled, acted⟩ := step_eq_some stepped
      have before := bounded_of_act acted (run_bounded remaining bounded)
      exact inductionHypothesis (act_holds holds before enabled acted) remaining

end ChlorosSnfs.Nanomsg.Moves
