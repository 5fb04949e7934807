import ChlorosSnfs.Nanomsg.ClientEnd

/-!
# Clients and the server in step

The invariant of the whole system: every client's socket waits for its last request,
every connection carries its client's requests and their replies in order, and every
request the server is at can only be answered on its own connection.  Here is what it
says, and that what a client does keeps it.
-/

set_option autoImplicit false

namespace ChlorosSnfs.Nanomsg.Conversations

open ChlorosSnfs.Library.NumberedQueues
open ChlorosSnfs.Nanomsg.Wire
open ChlorosSnfs.Nanomsg.ReqSocket
open ChlorosSnfs.Nanomsg.ReqStates
open ChlorosSnfs.Nanomsg.RepSocket
open ChlorosSnfs.Nanomsg.ReqRep
open ChlorosSnfs.Nanomsg.Flows
open ChlorosSnfs.Nanomsg.ClientEnd

variable {Client σ Context : Type}

def talkOf (first : Client → UInt32) (sys : System Client σ Context) (client : Client) :
    Talk σ Context where
  first := first client
  sends := sys.sends client
  request := (sys.reqs client).task.request
  recent := sys.recent client

def Owns (sys : System Client σ Context) (client : Client) (connection : Nat) : Prop :=
  (sys.connections connection).owner = some client

/-- The request of this connection that the server is at. -/
def atWorkOn (sys : System Client σ Context) (connection : Nat) : Option Handling :=
  sys.handling.filter fun handling => handling.connection = connection

structure ClientHolds (first : Client → UInt32) (sys : System Client σ Context)
    (client : Client) : Prop where
  sound : Sound (sys.reqs client)
  id : (sys.reqs client).task.id = first client + UInt32.ofNat (sys.sends client)
  unasked : sys.sends client = 0 → (sys.reqs client).state = .passive
  header : ∀ number, sys.sends client = number + 1 →
    (sys.reqs client).task.request.sphdr = nnPutl (word (first client) number)
  pipe : ∀ pipe, (sys.reqs client).xreq.pipe = some pipe → Owns sys client pipe
  replied : Replied (sys.reqs client).state →
    HasReply (talkOf first sys client) (Owns sys client) (sys.reqs client)

/-- The key of the connection the server accepted with this number. -/
def keyNumbered (firstKey : UInt32) (serial : Nat) : UInt32 :=
  keyOf (firstKey + UInt32.ofNat serial)

structure ServerHolds (firstKey : UInt32) (sys : System Client σ Context) : Prop where
  nextKey : sys.rep.nextKey = firstKey + UInt32.ofNat sys.accepts
  keys : ∀ data ∈ sys.rep.outpipes, ∃ serial,
    (sys.connections data.pipe).serial = some serial ∧
      data.key = keyNumbered firstKey serial
  accepted : ∀ connection serial, (sys.connections connection).serial = some serial →
    serial < sys.accepts
  distinct : ∀ connection other serial,
    (sys.connections connection).serial = some serial →
      (sys.connections other).serial = some serial → connection = other
  underway : ∀ handling, sys.handling = some handling → ∃ serial,
    (sys.connections handling.connection).serial = some serial ∧
      sys.rep.backtrace = some (nnPutl (keyNumbered firstKey serial) ++ handling.header)

def FlowsOf (first : Client → UInt32) (sys : System Client σ Context) (client : Client)
    (connection : Nat) : Prop :=
  Flowing (talkOf first sys client) connection
    (lowest (sys.sends client) (sys.reqs client) connection)
    (sys.connections connection).toClient (atWorkOn sys connection)
    (sys.connections connection).toServer

structure Holds (first : Client → UInt32) (firstKey : UInt32)
    (sys : System Client σ Context) : Prop where
  clients : ∀ client, ClientHolds first sys client
  server : ServerHolds firstKey sys
  flows : ∀ client connection, Owns sys client connection →
    FlowsOf first sys client connection
  fresh : ∀ connection, sys.count ≤ connection →
    sys.connections connection = ⟨none, none, [], []⟩

/-- The numbers of requests and of connections have not wrapped around. -/
structure Bounded (sys : System Client σ Context) : Prop where
  sends : ∀ client, sys.sends client < 2 ^ 31
  accepts : sys.accepts < 2 ^ 31

variable {first : Client → UInt32} {firstKey : UInt32}
  {sys next : System Client σ Context} {client : Client}

theorem started_holds (first : Client → UInt32) (firstKey : UInt32) (state : σ) :
    Holds first firstKey (started first firstKey state : System Client σ Context) where
  clients client := {
    sound := sound_nnReqInit (first client)
    id := (UInt32.add_zero _).symm
    unasked := fun _ => rfl
    header := fun number sends => by cases sends
    pipe := fun pipe own => by cases own
    replied := fun replied => by rcases replied with state | state <;> cases state }
  server := {
    nextKey := (UInt32.add_zero _).symm
    keys := fun data member => by cases member
    accepted := fun connection serial known => by cases known
    distinct := fun connection other serial known => by cases known
    underway := fun handling known => by cases known }
  flows client connection own := by cases own
  fresh _ _ := rfl

/-! ## One connection -/

theorem withConnection_self (sys : System Client σ Context) (index : Nat)
    (connection : Connection Client) :
    (sys.withConnection index connection).connections index = connection :=
  Function.update_self _ _ _

theorem withConnection_of_ne (sys : System Client σ Context) {index other : Nat}
    (elsewhere : other ≠ index) (connection : Connection Client) :
    (sys.withConnection index connection).connections other = sys.connections other :=
  Function.update_of_ne elsewhere _ _

/-- What a change of one connection leaves alone everywhere. -/
theorem withConnection_same {Field : Type} (sys : System Client σ Context)
    (field : Connection Client → Field) {index : Nat} (connection : Connection Client)
    (same : field connection = field (sys.connections index)) (other : Nat) :
    field ((sys.withConnection index connection).connections other) =
      field (sys.connections other) := by
  by_cases here : other = index
  · rw [here, withConnection_self, same]
  · rw [withConnection_of_ne sys here]

/-- What replies leave alone. -/
theorem replyAll_same {Field : Type} (field : Connection Client → Field)
    (same : ∀ connection wire, field (Connection.reply connection wire) = field connection)
    (sendings : List (Nat × Bytes)) (connections : Nat → Connection Client) (index : Nat) :
    field (replyAll connections sendings index) = field (connections index) := by
  induction sendings generalizing connections with
  | nil => rfl
  | cons sending rest inductionHypothesis =>
      obtain ⟨pipe, wire⟩ := sending
      rw [replyAll, inductionHypothesis]
      by_cases here : index = pipe
      · rw [here, Function.update_self, same]
      · rw [Function.update_of_ne here]

/-! ## What one client does -/

/-- Two states that differ in one client's socket and in its connections. -/
structure OnlyClient (client : Client) (sys next : System Client σ Context) : Prop where
  reqs : ∀ other, other ≠ client → next.reqs other = sys.reqs other
  sends : ∀ other, other ≠ client → next.sends other = sys.sends other
  recent : ∀ other, other ≠ client → next.recent other = sys.recent other
  rep : next.rep = sys.rep
  handling : next.handling = sys.handling
  accepts : next.accepts = sys.accepts
  count : next.count = sys.count
  owner : ∀ connection,
    (next.connections connection).owner = (sys.connections connection).owner
  serial : ∀ connection,
    (next.connections connection).serial = (sys.connections connection).serial
  connections : ∀ connection, ¬ Owns sys client connection →
    next.connections connection = sys.connections connection

theorem OnlyClient.owns (only : OnlyClient client sys next) (other : Client)
    (connection : Nat) : Owns next other connection ↔ Owns sys other connection := by
  rw [Owns, Owns, only.owner]

theorem OnlyClient.withConnection (only : OnlyClient client sys next) {index : Nat}
    (mine : Owns sys client index) {connection : Connection Client}
    (owner : connection.owner = (next.connections index).owner)
    (serial : connection.serial = (next.connections index).serial) :
    OnlyClient client sys (next.withConnection index connection) := by
  refine ⟨only.reqs, only.sends, only.recent, only.rep, only.handling, only.accepts,
    only.count, ?_, ?_, ?_⟩
  · intro other
    rw [withConnection_same next Connection.owner connection owner, only.owner]
  · intro other
    rw [withConnection_same next Connection.serial connection serial, only.serial]
  · intro other foreign
    have elsewhere : other ≠ index := by
      rintro rfl
      exact foreign mine
    rw [withConnection_of_ne next elsewhere, only.connections other foreign]

theorem talkOf_congr {other : Client} (reqs : next.reqs other = sys.reqs other)
    (sends : next.sends other = sys.sends other)
    (recent : next.recent other = sys.recent other) :
    talkOf first next other = talkOf first sys other := by
  rw [talkOf, talkOf, reqs, sends, recent]

theorem ClientHolds.congr {other : Client} (holds : ClientHolds first sys other)
    (reqs : next.reqs other = sys.reqs other)
    (sends : next.sends other = sys.sends other)
    (recent : next.recent other = sys.recent other)
    (owner : ∀ connection, Owns sys other connection → Owns next other connection) :
    ClientHolds first next other := by
  refine ⟨?_, ?_, ?_, ?_, ?_, ?_⟩
  · rw [reqs]
    exact holds.sound
  · rw [reqs, sends]
    exact holds.id
  · rw [reqs, sends]
    exact holds.unasked
  · rw [reqs, sends]
    exact holds.header
  · rw [reqs]
    exact fun pipe own => owner pipe (holds.pipe pipe own)
  · rw [reqs, talkOf_congr reqs sends recent]
    intro replied
    obtain ⟨connection, reply, own, held, carriedOut⟩ := holds.replied replied
    exact ⟨connection, reply, owner connection own, held, carriedOut⟩

theorem ServerHolds.congr (holds : ServerHolds firstKey sys) (rep : next.rep = sys.rep)
    (handling : next.handling = sys.handling) (accepts : next.accepts = sys.accepts)
    (serial : ∀ connection,
      (next.connections connection).serial = (sys.connections connection).serial) :
    ServerHolds firstKey next := by
  refine ⟨?_, ?_, ?_, ?_, ?_⟩
  · rw [rep, accepts]
    exact holds.nextKey
  · simp only [rep, serial]
    exact holds.keys
  · simp only [serial, accepts]
    exact holds.accepted
  · simp only [serial]
    exact holds.distinct
  · simp only [handling, serial, rep]
    exact holds.underway

/-- It is enough to look at that client. -/
theorem Holds.ofClient (holds : Holds first firstKey sys)
    (only : OnlyClient client sys next) (itself : ClientHolds first next client)
    (flows : ∀ connection, Owns sys client connection →
      FlowsOf first next client connection) : Holds first firstKey next := by
  refine ⟨?_, holds.server.congr only.rep only.handling only.accepts only.serial, ?_, ?_⟩
  · intro other
    by_cases same : other = client
    · exact same ▸ itself
    · exact (holds.clients other).congr (only.reqs other same) (only.sends other same)
        (only.recent other same) fun connection => (only.owns other connection).mpr
  · intro other connection owned
    have owns := (only.owns other connection).mp owned
    by_cases same : other = client
    · exact same ▸ flows connection (same ▸ owns)
    · have foreign : ¬ Owns sys client connection := by
        intro both
        exact same (Option.some.inj (owns.symm.trans both))
      have carried := holds.flows other connection owns
      rw [FlowsOf] at carried ⊢
      rw [talkOf_congr (only.reqs other same) (only.sends other same)
        (only.recent other same), only.reqs other same, only.sends other same,
        only.connections connection foreign, atWorkOn, only.handling]
      exact carried
  · intro connection beyond
    rw [only.count] at beyond
    have unused := holds.fresh connection beyond
    have foreign : ¬ Owns sys client connection := by simp [Owns, unused]
    rw [only.connections connection foreign, unused]

/-! ## Moves of a client -/

variable [DecidableEq Client] {req : Req} {sending : Sending}

theorem moved_reqs (sys : System Client σ Context) (client : Client) (req : Req)
    (sending : Sending) :
    (sys.moved client req sending).reqs = Function.update sys.reqs client req := by
  cases sending <;> rfl

theorem moved_onlyClient (req : Req)
    (own : ∀ pipe wire, sending = some (pipe, wire) → Owns sys client pipe) :
    OnlyClient client sys (sys.moved client req sending) := by
  have quiet : OnlyClient client sys (sys.moved client req none) :=
    ⟨fun _ foreign => Function.update_of_ne foreign _ _, fun _ _ => rfl, fun _ _ => rfl,
      rfl, rfl, rfl, rfl, fun _ => rfl, fun _ => rfl, fun _ _ => rfl⟩
  cases sending with
  | none => exact quiet
  | some sent => exact quiet.withConnection (own sent.1 sent.2 rfl) rfl rfl

/-- What a client puts on its connection is its last request. -/
theorem flows_moved {talk : Talk σ Context} {connection low : Nat}
    {atWork : Option Handling}
    (flows : Flowing talk connection low (sys.connections connection).toClient atWork
      (sys.connections connection).toServer)
    (asks : sending ≠ none → ∃ number, talk.sends = number + 1 ∧ low ≤ number ∧
      talk.request.sphdr = nnPutl (word talk.first number))
    (sent : ∀ pipe wire, sending = some (pipe, wire) → wire = Msg.wire talk.request) :
    Flowing talk connection low
      ((sys.moved client req sending).connections connection).toClient atWork
      ((sys.moved client req sending).connections connection).toServer := by
  cases sending with
  | none => exact flows
  | some put =>
      obtain ⟨pipe, wire⟩ := put
      by_cases same : connection = pipe
      · obtain ⟨number, last, reached, header⟩ := asks (by simp)
        have more := flows.ask last reached header
        rw [← sent pipe wire rfl] at more
        rw [System.moved, same, withConnection_self, ← same]
        exact more
      · rw [System.moved, withConnection_of_ne _ same]
        exact flows

theorem lowest_le_pred (sends : Nat) (req : Req) (connection : Nat) :
    lowest sends req connection ≤ sends - 1 := by
  rw [lowest]
  split <;> omega

/-- Calls and timers of a client other than `nn_send`. -/
theorem Holds.moved (holds : Holds first firstKey sys)
    (moved : Moved (sys.reqs client) req sending) :
    Holds first firstKey (sys.moved client req sending) := by
  have before := holds.clients client
  have own (pipe : Nat) (wire : Bytes) (sent : sending = some (pipe, wire)) :
      Owns sys client pipe :=
    before.pipe pipe (moved.pipe pipe (moved.sent pipe wire sent).1)
  have only := moved_onlyClient req own
  have now : (sys.moved client req sending).reqs client = req := by
    rw [moved_reqs, Function.update_self]
  have sends : (sys.moved client req sending).sends = sys.sends := by
    cases sending <;> rfl
  have recent : (sys.moved client req sending).recent = sys.recent := by
    cases sending <;> rfl
  have talk : talkOf first (sys.moved client req sending) client = talkOf first sys client := by
    rw [talkOf, talkOf, now, sends, recent, moved.request]
  refine holds.ofClient only ⟨?_, ?_, ?_, ?_, ?_, ?_⟩ ?_
  · rw [now]
    exact moved.sound
  · rw [now, sends, moved.id]
    exact before.id
  · rw [now, sends]
    exact fun none => (moved.passive (before.unasked none)).1
  · rw [now, sends, moved.request]
    exact before.header
  · rw [now]
    intro pipe here
    exact (only.owns client pipe).mpr (before.pipe pipe (moved.pipe pipe here))
  · rw [now, talk]
    intro replied
    obtain ⟨earlier, same⟩ := moved.replied replied
    obtain ⟨connection, reply, mine, held, carriedOut⟩ := before.replied earlier
    exact ⟨connection, reply, (only.owns client connection).mpr mine, same.trans held,
      carriedOut⟩
  · intro connection mine
    have carried := holds.flows client connection mine
    have least : lowest (sys.sends client) req connection ≤
        lowest (sys.sends client) (sys.reqs client) connection := by
      unfold lowest
      split
      · rename_i replied
        rw [if_pos ⟨(moved.replied replied.1).1, moved.pipe connection replied.2⟩]
      · exact Nat.zero_le _
    rw [FlowsOf, talk, now, sends, atWorkOn, only.handling]
    refine (flows_moved carried ?_ ?_).weaken least
    · intro something
      have asked : sys.sends client ≠ 0 := by
        intro none
        exact something (moved.passive (before.unasked none)).2
      refine ⟨sys.sends client - 1, ?_, lowest_le_pred _ _ _, ?_⟩
      · change sys.sends client = _
        omega
      · exact before.header _ (by omega)
    · intro pipe wire sent
      have same := (moved.sent pipe wire sent).2
      rw [same, moved.request]
      rfl

theorem OnlyClient.renewed (only : OnlyClient client sys next) (sends : Nat)
    (recent : List (Execution σ Context)) :
    OnlyClient client sys { next with
      sends := Function.update next.sends client sends
      recent := Function.update next.recent client recent } := by
  refine ⟨only.reqs, ?_, ?_, only.rep, only.handling, only.accepts, only.count, only.owner,
    only.serial, only.connections⟩
  · intro other foreign
    exact (Function.update_of_ne foreign _ _).trans (only.sends other foreign)
  · intro other foreign
    exact (Function.update_of_ne foreign _ _).trans (only.recent other foreign)

theorem ofNat_succ (first : UInt32) (number : Nat) :
    first + UInt32.ofNat (number + 1) = first + UInt32.ofNat number + 1 := by
  rw [UInt32.ofNat_add, UInt32.add_assoc]
  rfl

/-- `nn_send` of a client. -/
theorem Holds.renewed (holds : Holds first firstKey sys) {body : Bytes}
    (renewed : Renewed (sys.reqs client) req sending body) :
    Holds first firstKey { sys.moved client req sending with
      sends := Function.update sys.sends client (sys.sends client + 1)
      recent := Function.update sys.recent client [] } := by
  have before := holds.clients client
  have own (pipe : Nat) (wire : Bytes) (sent : sending = some (pipe, wire)) :
      Owns sys client pipe :=
    before.pipe pipe (renewed.pipe ▸ (renewed.sent pipe wire sent).1)
  have sends : (sys.moved client req sending).sends = sys.sends := by
    cases sending <;> rfl
  have recent : (sys.moved client req sending).recent = sys.recent := by
    cases sending <;> rfl
  have only := (moved_onlyClient req own).renewed (sys.sends client + 1) []
  rw [sends, recent] at only
  have now : (sys.moved client req sending).reqs client = req := by
    rw [moved_reqs, Function.update_self]
  have header : req.task.request.sphdr = nnPutl (word (first client) (sys.sends client)) := by
    rw [renewed.request, before.id, ← ofNat_succ]
    rfl
  refine holds.ofClient only ⟨?_, ?_, ?_, ?_, ?_, ?_⟩ ?_
  · exact now.symm ▸ renewed.sound
  · simp only [now, Function.update_self]
    rw [renewed.id, before.id, ofNat_succ]
  · simp only [Function.update_self]
    intro none
    omega
  · simp only [now, Function.update_self]
    intro number same
    cases Nat.succ.inj same
    exact header
  · simp only [now, renewed.pipe]
    intro pipe here
    exact (only.owns client pipe).mpr (before.pipe pipe here)
  · simp only [now]
    exact fun replied => absurd replied renewed.unreplied
  · intro connection mine
    have carried := (holds.flows client connection mine).next req.task.request
    have talk : talkOf first { sys.moved client req sending with
        sends := Function.update sys.sends client (sys.sends client + 1)
        recent := Function.update sys.recent client [] } client =
          ⟨first client, sys.sends client + 1, req.task.request, []⟩ := by
      simp only [talkOf, now, Function.update_self]
    have least : lowest (sys.sends client + 1) req connection = 0 :=
      if_neg fun replied => renewed.unreplied replied.1
    have handling : (sys.moved client req sending).handling = sys.handling := by
      cases sending <;> rfl
    rw [FlowsOf, talk]
    simp only [now, Function.update_self, least, atWorkOn, handling]
    apply flows_moved carried
    · intro _
      exact ⟨sys.sends client, rfl, Nat.zero_le _, header⟩
    · intro pipe wire sent
      exact (renewed.sent pipe wire sent).2

/-- Replies come in. -/
theorem Holds.taken (holds : Holds first firstKey sys) (bounded : Bounded sys)
    {pipe available : Nat} (own : (sys.reqs client).xreq.pipe = some pipe)
    {rest : List Bytes}
    (took : nnReqIn (sys.reqs client) ((sys.connections pipe).toClient.take available) =
      some (req, rest)) :
    Holds first firstKey ((sys.moved client req none).withConnection pipe
      { sys.connections pipe with
        toClient := rest ++ (sys.connections pipe).toClient.drop available }) := by
  have before := holds.clients client
  have mine := before.pipe pipe own
  have carried := holds.flows client pipe mine
  rw [FlowsOf, ← List.take_append_drop available (sys.connections pipe).toClient] at carried
  have soundNext : Sound req := by
    obtain ⟨_, _, same, soundIn⟩ := nnReqIn_sound before.sound
      ((sys.connections pipe).toClient.take available)
    cases took.symm.trans same
    exact soundIn
  obtain ⟨kept, flows⟩ := nnReqIn_took mine (bounded.sends client) before.id own
    before.replied carried took
  generalize left : ({ sys.connections pipe with
    toClient := rest ++ (sys.connections pipe).toClient.drop available } :
      Connection Client) = connection
  have only : OnlyClient client sys
      ((sys.moved client req none).withConnection pipe connection) := by
    have quiet : OnlyClient client sys (sys.moved client req none) :=
      moved_onlyClient req (by simp)
    exact quiet.withConnection mine (by rw [← left]; rfl) (by rw [← left]; rfl)
  have now : ((sys.moved client req none).withConnection pipe connection).reqs client =
      req := Function.update_self _ _ _
  have talk : talkOf first ((sys.moved client req none).withConnection pipe connection)
      client = talkOf first sys client := by
    rw [talkOf, talkOf, now, kept.request]
    rfl
  refine holds.ofClient only ⟨?_, ?_, ?_, ?_, ?_, ?_⟩ ?_
  · rw [now]
    exact soundNext
  · rw [now, kept.id]
    exact before.id
  · rw [now]
    exact fun none => kept.passive (before.unasked none)
  · rw [now, kept.request]
    exact before.header
  · rw [now, kept.xreq]
    exact fun other here => (only.owns client other).mpr (before.pipe other here)
  · rw [now, talk]
    intro replied
    obtain ⟨other, reply, owns, held, carriedOut⟩ := kept.replied replied
    exact ⟨other, reply, (only.owns client other).mpr owns, held, carriedOut⟩
  · intro other owns
    rw [FlowsOf, talk, now, atWorkOn, only.handling]
    by_cases same : other = pipe
    · rw [same, withConnection_self, ← left]
      exact flows
    · have foreign := holds.flows client other owns
      have least : lowest (sys.sends client) req other = 0 := by
        rw [lowest, if_neg]
        rintro ⟨_, here⟩
        rw [kept.xreq, own] at here
        exact same (Option.some.inj here).symm
      rw [withConnection_of_ne _ same]
      exact Numbered.weaken foreign (least.trans_le (Nat.zero_le _))

end ChlorosSnfs.Nanomsg.Conversations
