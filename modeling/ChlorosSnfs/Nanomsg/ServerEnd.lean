import ChlorosSnfs.Nanomsg.Conversations

/-!
# The server's end of a connection

Where the server's replies go, and that what the server does keeps the invariant.
-/

set_option autoImplicit false

namespace ChlorosSnfs.Nanomsg.ServerEnd

open ChlorosSnfs.Library.NumberedQueues
open ChlorosSnfs.Nanomsg.Wire
open ChlorosSnfs.Nanomsg.ReqSocket
open ChlorosSnfs.Nanomsg.ReqStates
open ChlorosSnfs.Nanomsg.RepSocket
open ChlorosSnfs.Nanomsg.ReqRep
open ChlorosSnfs.Nanomsg.Flows
open ChlorosSnfs.Nanomsg.ClientEnd
open ChlorosSnfs.Nanomsg.Conversations

/-! ## Where replies go -/

theorem keyNumbered_injective {firstKey : UInt32} {serial other : Nat}
    (bounded : serial < 2 ^ 31) (otherBounded : other < 2 ^ 31)
    (same : keyNumbered firstKey serial = keyNumbered firstKey other) : serial = other := by
  have lower := congrArg UInt32.toNat same
  rw [keyNumbered, keyNumbered, keyOf, keyOf, toNat_and_mask, toNat_and_mask] at lower
  exact eq_of_mod_eq bounded otherBounded lower

/-- No pipe has come, and none has another key. -/
structure Routes (rep next : Rep) : Prop where
  nextKey : next.nextKey = rep.nextKey
  old : ∀ data ∈ next.outpipes, ∃ before ∈ rep.outpipes,
    before.key = data.key ∧ before.pipe = data.pipe

theorem routes_refl (rep : Rep) : Routes rep rep :=
  ⟨rfl, fun data member => ⟨data, member, rfl, rfl⟩⟩

theorem routes_setOut (rep : Rep) (backtrace : Option Bytes) (pipe : Nat) (out : Bool) :
    Routes rep ⟨rep.nextKey, rep.outpipes.map (setOut pipe out), backtrace⟩ := by
  refine ⟨rfl, ?_⟩
  intro data member
  obtain ⟨before, old, rfl⟩ := List.mem_map.mp member
  refine ⟨before, old, ?_⟩
  unfold setOut
  split <;> exact ⟨rfl, rfl⟩

theorem routes_nnXrepRm (pipe : Nat) (rep : Rep) : Routes rep (nnXrepRm pipe rep) :=
  ⟨rfl, fun data member => ⟨data, (List.mem_filter.mp member).1, rfl, rfl⟩⟩

theorem nnXrepSend_routes {release : Bool} {key : UInt32} {header body : Bytes}
    {rep next : Rep} {sending : Sending}
    (sent : nnXrepSend release ⟨nnPutl key ++ header, body⟩ rep = (next, sending)) :
    Routes rep next ∧ next.backtrace = rep.backtrace ∧ (sending = none ∨
      ∃ data ∈ rep.outpipes, data.key = key ∧
        sending = some (data.pipe, header ++ body)) := by
  have bottom : (nnPutl key ++ header).drop 4 = header := List.drop_left' rfl
  rw [nnXrepSend, if_neg (by simp)] at sent
  simp only [nnGetl_nnPutl, bottom] at sent
  split at sent
  · cases sent
    exact ⟨routes_refl rep, rfl, Or.inl rfl⟩
  · rename_i data found
    split at sent
    · cases sent
      refine ⟨routes_setOut rep rep.backtrace _ _, rfl, Or.inr ?_⟩
      have hasKey : data.key = key := by simpa using List.find?_some found
      exact ⟨data, List.mem_of_find?_eq_some found, hasKey, rfl⟩
    · cases sent
      exact ⟨routes_refl rep, rfl, Or.inl rfl⟩

theorem sendAll_idle (release : Bool) (replies : List Bytes) {rep : Rep}
    (idle : rep.backtrace = none) : sendAll release replies rep = (rep, []) := by
  induction replies with
  | nil => rfl
  | cons body rest inductionHypothesis =>
      have refused : nnRepSend release body rep = none := by
        rw [nnRepSend, idle]
        rfl
      rw [sendAll, refused]
      exact inductionHypothesis

/-- At most the first reply goes anywhere, and only where the request came from. -/
theorem sendAll_routes (release : Bool) (replies : List Bytes) {rep : Rep} {key : UInt32}
    {header : Bytes} (underway : rep.backtrace = some (nnPutl key ++ header)) :
    Routes rep (sendAll release replies rep).1 ∧
      ((sendAll release replies rep).2 = [] ∨
        ∃ data ∈ rep.outpipes, ∃ reply, data.key = key ∧ replies.head? = some reply ∧
          (sendAll release replies rep).2 = [(data.pipe, header ++ reply)]) := by
  cases replies with
  | nil => exact ⟨routes_refl rep, Or.inl rfl⟩
  | cons body rest =>
      generalize sent : nnXrepSend release ⟨nnPutl key ++ header, body⟩
        { rep with backtrace := none } = result
      obtain ⟨next, sending⟩ := result
      have sends : nnRepSend release body rep = some (next, sending) := by
        rw [nnRepSend, underway, ← sent]
        rfl
      obtain ⟨routes, idle, where_⟩ := nnXrepSend_routes sent
      rw [sendAll, sends]
      simp only [sendAll_idle release rest idle, List.append_nil]
      refine ⟨⟨routes.nextKey, routes.old⟩, ?_⟩
      rcases where_ with nowhere | ⟨data, member, hasKey, put⟩
      · exact Or.inl (by rw [nowhere]; rfl)
      · exact Or.inr ⟨data, member, body, hasKey, rfl, by rw [put]; rfl⟩

/-! ## Moves of the server -/

variable {Client σ Context : Type} {first : Client → UInt32} {firstKey : UInt32}
  {sys : System Client σ Context}

/-- The server's pipes take messages again, or go away. -/
theorem holds_rerouted (holds : Holds first firstKey sys) {rep : Rep}
    (routes : Routes sys.rep rep) (backtrace : rep.backtrace = sys.rep.backtrace) :
    Holds first firstKey { sys with rep } := by
  have server := holds.server
  refine ⟨?_, ⟨?_, ?_, server.accepted, server.distinct, ?_⟩, holds.flows, holds.fresh⟩
  · intro client
    exact (holds.clients client).congr rfl rfl rfl fun _ own => own
  · exact routes.nextKey.trans server.nextKey
  · intro data member
    obtain ⟨before, old, key, pipe⟩ := routes.old data member
    rw [← key, ← pipe]
    exact server.keys before old
  · simp only [backtrace]
    exact server.underway

/-- The server accepts a connection. -/
theorem holds_accepted (holds : Holds first firstKey sys) {connection : Nat}
    (known : connection < sys.count) (new : (sys.connections connection).serial = none)
    {rep : Rep} (added : nnXrepAdd connection sys.rep = some rep) :
    Holds first firstKey { sys.withConnection connection
        { sys.connections connection with serial := some sys.accepts } with
      rep
      accepts := sys.accepts + 1 } := by
  have server := holds.server
  generalize withSerial : ({ sys.connections connection with serial := some sys.accepts } :
    Connection Client) = later
  have here : later.serial = some sys.accepts := by rw [← withSerial]
  have old (other serial : Nat) (had : (sys.connections other).serial = some serial) :
      ((sys.withConnection connection later).connections other).serial = some serial := by
    have elsewhere : other ≠ connection := by
      rintro rfl
      rw [new] at had
      cases had
    rw [withConnection_of_ne sys elsewhere, had]
  have cases (other serial : Nat)
      (has : ((sys.withConnection connection later).connections other).serial =
        some serial) : other = connection ∧ serial = sys.accepts ∨
          (sys.connections other).serial = some serial := by
    by_cases same : other = connection
    · rw [same, withConnection_self, here] at has
      exact Or.inl ⟨same, (Option.some.inj has).symm⟩
    · rw [withConnection_of_ne sys same] at has
      exact Or.inr has
  rw [nnXrepAdd] at added
  split at added
  · cases added
  cases added
  refine ⟨?_, ⟨?_, ?_, ?_, ?_, ?_⟩, ?_, ?_⟩
  · intro client
    refine (holds.clients client).congr rfl rfl rfl ?_
    intro other owns
    exact (withConnection_same sys Connection.owner later (by rw [← withSerial]) other).trans owns
  · rw [ofNat_succ, ← server.nextKey]
  · intro data member
    rcases List.mem_cons.mp member with rfl | earlier
    · refine ⟨sys.accepts, ?_, ?_⟩
      · exact (congrArg Connection.serial (withConnection_self sys connection later)).trans here
      · rw [keyNumbered, ← server.nextKey]
    · obtain ⟨serial, had, key⟩ := server.keys data earlier
      exact ⟨serial, old data.pipe serial had, key⟩
  · intro other serial has
    rcases cases other serial has with ⟨_, rfl⟩ | had
    · exact Nat.lt_succ_self _
    · exact Nat.lt_succ_of_lt (server.accepted other serial had)
  · intro one other serial has otherHas
    rcases cases one serial has with ⟨rfl, rfl⟩ | had
    · rcases cases other _ otherHas with ⟨rfl, _⟩ | otherHad
      · rfl
      · exact absurd (server.accepted other _ otherHad) (Nat.lt_irrefl _)
    · rcases cases other _ otherHas with ⟨rfl, rfl⟩ | otherHad
      · exact absurd (server.accepted one _ had) (Nat.lt_irrefl _)
      · exact server.distinct one other serial had otherHad
  · intro handling handled
    obtain ⟨serial, had, backtrace⟩ := server.underway handling handled
    exact ⟨serial, old _ serial had, backtrace⟩
  · intro client other owns
    have owned : Owns sys client other :=
      (withConnection_same sys Connection.owner later (by rw [← withSerial]) other).symm.trans owns
    have carried := holds.flows client other owned
    have toClient := withConnection_same sys Connection.toClient later
      (by rw [← withSerial]) other
    have toServer := withConnection_same sys Connection.toServer later
      (by rw [← withSerial]) other
    rw [FlowsOf] at carried ⊢
    simp only [toClient, toServer]
    exact carried
  · intro other beyond
    have elsewhere : other ≠ connection := by
      rintro rfl
      exact absurd known (Nat.not_lt.mpr beyond)
    exact (withConnection_of_ne sys elsewhere later).trans (holds.fresh other beyond)

/-- The server takes the next request of a connection. -/
theorem holds_received (holds : Holds first firstKey sys) (idle : sys.handling = none)
    {data : XrepData} (member : data ∈ sys.rep.outpipes) {wire : Bytes} {rest : List Bytes}
    (waiting : (sys.connections data.pipe).toServer = wire :: rest) :
    Holds first firstKey { sys.withConnection data.pipe
        { sys.connections data.pipe with toServer := rest } with
      rep := (nnRepRecv data.key wire sys.rep).2
      handling := (splitHeader wire).map fun (header, body) =>
        ⟨data.pipe, header, body⟩ } := by
  have server := holds.server
  obtain ⟨serial, has, key⟩ := server.keys data member
  generalize shorter : ({ sys.connections data.pipe with toServer := rest } :
    Connection Client) = later
  have serials := withConnection_same sys Connection.serial later
    (show later.serial = (sys.connections data.pipe).serial by rw [← shorter])
  have owners := withConnection_same sys Connection.owner later
    (show later.owner = (sys.connections data.pipe).owner by rw [← shorter])
  have rep : (nnRepRecv data.key wire sys.rep).2.nextKey = sys.rep.nextKey ∧
      (nnRepRecv data.key wire sys.rep).2.outpipes = sys.rep.outpipes := by
    rw [nnRepRecv]
    cases nnXrepRecv data.key wire <;> exact ⟨rfl, rfl⟩
  refine ⟨?_, ⟨?_, ?_, ?_, ?_, ?_⟩, ?_, ?_⟩
  · intro client
    refine (holds.clients client).congr rfl rfl rfl ?_
    intro other owns
    exact (owners other).trans owns
  · exact rep.1.trans server.nextKey
  · simp only [rep.2, serials]
    exact server.keys
  · simp only [serials]
    exact server.accepted
  · simp only [serials]
    exact server.distinct
  · intro handling handled
    simp only at handled
    obtain ⟨⟨header, body⟩, split, rfl⟩ := Option.map_eq_some_iff.mp handled
    refine ⟨serial, (serials data.pipe).trans has, ?_⟩
    simp only [nnRepRecv, nnXrepRecv, split, Option.map_some, key]
  · intro client other owns
    have owned : Owns sys client other := (owners other).symm.trans owns
    have carried := holds.flows client other owned
    by_cases here : other = data.pipe
    · subst here
      rw [FlowsOf, waiting, atWorkOn, idle] at carried
      obtain ⟨body, split, flows⟩ := carried.receive
      rw [FlowsOf, atWorkOn]
      simp only [split, Option.map_some, withConnection_self]
      simp only [Option.filter, decide_true, if_true]
      rw [← shorter]
      exact flows
    · rw [FlowsOf, atWorkOn, idle] at carried
      have elsewhere : ((splitHeader wire).map fun (header, body) =>
          (⟨data.pipe, header, body⟩ : Handling)).filter
            (fun handling => handling.connection = other) = none := by
        rw [Option.filter_eq_none_iff]
        intro handling handled
        obtain ⟨_, _, rfl⟩ := Option.map_eq_some_iff.mp handled
        simpa using fun same => here same.symm
      rw [FlowsOf, atWorkOn]
      simp only [elsewhere, withConnection_of_ne sys here]
      exact carried
  · intro other beyond
    have elsewhere : other ≠ data.pipe := by
      rintro rfl
      rw [holds.fresh _ beyond] at has
      cases has
    exact (withConnection_of_ne sys elsewhere later).trans (holds.fresh other beyond)

theorem atWorkOn_other {handling : Handling} (handled : sys.handling = some handling)
    {connection : Nat} (elsewhere : connection ≠ handling.connection) :
    atWorkOn sys connection = none := by
  rw [atWorkOn, handled, Option.filter_eq_none_iff]
  intro other same
  cases Option.some.inj same
  simpa using fun here => elsewhere here.symm

theorem atWorkOn_self {handling : Handling} (handled : sys.handling = some handling) :
    atWorkOn sys handling.connection = some handling := by
  simp [atWorkOn, handled, Option.filter]

/-- What the server has carried out is on record for every client. -/
theorem clientHolds_carriedOut {client : Client} (holds : ClientHolds first sys client)
    (execution : Execution σ Context) {next : System Client σ Context}
    (reqs : next.reqs = sys.reqs) (sends : next.sends = sys.sends)
    (recent : next.recent client = execution :: sys.recent client)
    (owner : ∀ connection, Owns sys client connection → Owns next client connection) :
    ClientHolds first next client := by
  refine ⟨?_, ?_, ?_, ?_, ?_, ?_⟩
  · exact reqs ▸ holds.sound
  · rw [reqs, sends]
    exact holds.id
  · rw [reqs, sends]
    exact holds.unasked
  · rw [reqs, sends]
    exact holds.header
  · rw [reqs]
    exact fun pipe here => owner pipe (holds.pipe pipe here)
  · rw [reqs]
    intro replied
    obtain ⟨connection, reply, mine, held, earlier, member, same⟩ := holds.replied replied
    refine ⟨connection, reply, owner connection mine, held, earlier, ?_, ?_⟩
    · rw [talkOf, recent]
      exact List.mem_cons_of_mem _ member
    · rw [talkOf, reqs]
      exact same

/-- The server has carried out the request it was at. -/
theorem holds_answered (holds : Holds first firstKey sys) (bounded : Bounded sys)
    {handling : Handling} (handled : sys.handling = some handling)
    (release : Bool) (execution : Execution σ Context)
    (carriesOut : execution.handling = handling) (state : σ) :
    Holds first firstKey { sys with
      rep := (sendAll release execution.replies sys.rep).1
      connections := replyAll sys.connections (sendAll release execution.replies sys.rep).2
      state
      handling := none
      recent := fun client => execution :: sys.recent client } := by
  have server := holds.server
  obtain ⟨serial, has, backtrace⟩ := server.underway handling handled
  obtain ⟨routes, sent⟩ := sendAll_routes release execution.replies backtrace
  have bound {connection serial : Nat}
      (known : (sys.connections connection).serial = some serial) : serial < 2 ^ 31 :=
    (server.accepted connection serial known).trans bounded.accepts
  -- the reply, if there is one, goes back where the request came from
  have replied : replyAll sys.connections (sendAll release execution.replies sys.rep).2 =
        sys.connections ∨ ∃ reply, execution.replies.head? = some reply ∧
      replyAll sys.connections (sendAll release execution.replies sys.rep).2 =
        Function.update sys.connections handling.connection
          ((sys.connections handling.connection).reply (handling.header ++ reply)) := by
    rcases sent with nowhere | ⟨data, member, reply, key, isFirst, put⟩
    · exact Or.inl (by rw [nowhere]; rfl)
    · obtain ⟨other, otherHas, otherKey⟩ := server.keys data member
      have same : other = serial :=
        keyNumbered_injective (bound otherHas) (bound has) (otherKey.symm.trans key)
      have here : data.pipe = handling.connection :=
        server.distinct _ _ serial (same ▸ otherHas) has
      exact Or.inr ⟨reply, isFirst, by rw [put, here]; rfl⟩
  have kept {Field : Type} (field : Connection Client → Field)
      (same : ∀ connection wire, field (Connection.reply connection wire) =
        field connection) := replyAll_same field same
          (sendAll release execution.replies sys.rep).2 sys.connections
  have owners := kept Connection.owner fun _ _ => rfl
  have serials := kept Connection.serial fun _ _ => rfl
  have toServers := kept Connection.toServer fun _ _ => rfl
  generalize replyAll sys.connections (sendAll release execution.replies sys.rep).2 =
    connections at replied owners serials toServers
  refine ⟨?_, ⟨?_, ?_, ?_, ?_, ?_⟩, ?_, ?_⟩
  · intro client
    refine clientHolds_carriedOut (holds.clients client) execution rfl rfl rfl ?_
    exact fun connection own => (owners connection).trans own
  · exact routes.nextKey.trans server.nextKey
  · intro data member
    obtain ⟨before, old, key, pipe⟩ := routes.old data member
    obtain ⟨number, known, same⟩ := server.keys before old
    refine ⟨number, ?_, key ▸ same⟩
    rw [← pipe]
    exact (serials before.pipe).trans known
  · simp only [serials]
    exact server.accepted
  · simp only [serials]
    exact server.distinct
  · intro other impossible
    cases impossible
  · intro client other owns
    have owned : Owns sys client other := (owners other).symm.trans owns
    have carried := holds.flows client other owned
    rw [FlowsOf]
    simp only [toServers]
    by_cases here : other = handling.connection
    · rw [here] at carried ⊢
      rw [FlowsOf, atWorkOn_self handled] at carried
      rcases replied with unchanged | ⟨reply, isFirst, updated⟩
      · rw [unchanged]
        exact carried.dropped.carriedOut execution
      · simp only [updated, Function.update_self]
        exact carried.answer rfl carriesOut isFirst
    · have untouched : connections other = sys.connections other := by
        rcases replied with unchanged | ⟨_, _, updated⟩
        · rw [unchanged]
        · rw [updated, Function.update_of_ne here]
      rw [FlowsOf, atWorkOn_other handled here] at carried
      rw [untouched]
      exact carried.carriedOut execution
  · intro other beyond
    have unused := holds.fresh other beyond
    rcases replied with unchanged | ⟨_, _, updated⟩
    · rw [unchanged]
      exact unused
    · have elsewhere : other ≠ handling.connection := by
        rintro rfl
        rw [unused] at has
        cases has
      rw [updated]
      exact (Function.update_of_ne elsewhere _ _).trans unused

end ChlorosSnfs.Nanomsg.ServerEnd
