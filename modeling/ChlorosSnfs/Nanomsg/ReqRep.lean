import ChlorosSnfs.Library.Runs
import ChlorosSnfs.Nanomsg.RepSocket
import ChlorosSnfs.Nanomsg.ReqStates
import Mathlib.Logic.Function.Basic

/-!
# Clients and a server

Any number of REQ sockets, each with at most one pipe at a time, and one REP socket.  A
connection carries messages in order in both directions and may break at any moment;
what is still on it is then lost, or not: the server may have it already.  Others may
connect too and send what they like.  The server's user receives a request, works on
it, and sends its replies.
-/

set_option autoImplicit false

namespace ChlorosSnfs.Nanomsg.ReqRep

open ChlorosSnfs.Library.Runs
open ChlorosSnfs.Nanomsg.Wire
open ChlorosSnfs.Nanomsg.ReqSocket
open ChlorosSnfs.Nanomsg.RepSocket

/-- `owner` is none for a stranger's connection.  `serial` counts the connections the
server has accepted. -/
structure Connection (Client : Type) where
  owner : Option Client
  serial : Option Nat
  toServer : List Bytes
  toClient : List Bytes

/-- The request that the server's user is at. -/
structure Handling where
  connection : Nat
  header : Bytes
  body : Bytes

/-- One request the server's user has carried out: from which state, and with which
replies. -/
structure Execution (σ Context : Type) where
  handling : Handling
  context : Context
  before : σ
  replies : List Bytes

/-- `sends` counts the requests of a client, `recent` lists what has been carried out
since its last one. -/
structure System (Client σ Context : Type) where
  reqs : Client → Req
  rep : Rep
  connections : Nat → Connection Client
  count : Nat
  accepts : Nat
  state : σ
  handling : Option Handling
  sends : Client → Nat
  recent : Client → List (Execution σ Context)

/-- What can happen next.  `release` is the pipe's answer to a message it is given. -/
inductive Move (Client Context : Type) where
  | connect (client : Client)
  | clientOut (client : Client) (release : Bool)
  | send (client : Client) (body : Bytes) (release : Bool)
  | deliver (client : Client) (available : Nat)
  | receive (client : Client)
  | timeout (client : Client)
  | timerStopped (client : Client) (release : Bool)
  | disconnect (client : Client)
  | strangerConnects
  | strangerSends (connection : Nat) (wire : Bytes)
  | accept (connection : Nat)
  | serverOut (connection : Nat)
  | serverDisconnect (connection : Nat)
  | serverReceive (connection : Nat)
  | answer (context : Context) (release : Bool)

variable {Client σ Context : Type} [DecidableEq Client]

def started (first : Client → UInt32) (firstKey : UInt32) (state : σ) :
    System Client σ Context where
  reqs client := nnReqInit (first client)
  rep := nnRepInit firstKey
  connections _ := ⟨none, none, [], []⟩
  count := 0
  accepts := 0
  state
  handling := none
  sends _ := 0
  recent _ := []

/-! ## Messages on their way -/

def Connection.ask (connection : Connection Client) (wire : Bytes) : Connection Client :=
  { connection with toServer := connection.toServer ++ [wire] }

def Connection.reply (connection : Connection Client) (wire : Bytes) :
    Connection Client :=
  { connection with toClient := connection.toClient ++ [wire] }

def System.withConnection (sys : System Client σ Context) (index : Nat)
    (connection : Connection Client) : System Client σ Context :=
  { sys with connections := Function.update sys.connections index connection }

/-- A new connection, with nothing on it. -/
def System.opened (sys : System Client σ Context) (owner : Option Client) :
    System Client σ Context :=
  { sys.withConnection sys.count ⟨owner, none, [], []⟩ with count := sys.count + 1 }

/-- A client's socket has moved on, and has sent what it has sent. -/
def System.moved (sys : System Client σ Context) (client : Client) (req : Req) :
    Sending → System Client σ Context
  | none => { sys with reqs := Function.update sys.reqs client req }
  | some (pipe, wire) =>
      { sys with reqs := Function.update sys.reqs client req }.withConnection pipe
        ((sys.connections pipe).ask wire)

/-- The server's replies, of which only the first has where to go. -/
def sendAll (release : Bool) : List Bytes → Rep → Rep × List (Nat × Bytes)
  | [], rep => (rep, [])
  | body :: rest, rep =>
      match nnRepSend release body rep with
      | none => sendAll release rest rep
      | some (rep, sending) =>
          let (rep, more) := sendAll release rest rep
          (rep, sending.toList ++ more)

def replyAll (connections : Nat → Connection Client) :
    List (Nat × Bytes) → Nat → Connection Client
  | [] => connections
  | (pipe, wire) :: rest =>
      replyAll (Function.update connections pipe ((connections pipe).reply wire)) rest

/-! ## Steps -/

/-- When a move can happen. -/
def Enabled (sys : System Client σ Context) : Move Client Context → Prop
  | .connect client => (sys.reqs client).xreq.pipe = none
  | .clientOut client _ => (sys.reqs client).xreq.pipe ≠ none
  | .send _ _ _ => True
  | .deliver client _ => (sys.reqs client).xreq.pipe ≠ none
  | .receive _ => True
  | .timeout client => (sys.reqs client).task.timer = .active
  | .timerStopped client _ => (sys.reqs client).task.timer = .stopping
  | .disconnect client => (sys.reqs client).xreq.pipe ≠ none
  | .strangerConnects => True
  | .strangerSends connection _ =>
      connection < sys.count ∧ (sys.connections connection).owner = none
  | .accept connection =>
      connection < sys.count ∧ (sys.connections connection).serial = none
  | .serverOut _ => True
  | .serverDisconnect _ => True
  | .serverReceive connection =>
      sys.handling = none ∧ (sys.connections connection).toServer ≠ [] ∧
        ∃ data ∈ sys.rep.outpipes, data.pipe = connection
  | .answer _ _ => sys.handling ≠ none

instance (sys : System Client σ Context) (move : Move Client Context) :
    Decidable (Enabled sys move) :=
  match move with
  | .connect client =>
      inferInstanceAs (Decidable ((sys.reqs client).xreq.pipe = none))
  | .clientOut client _ | .deliver client _ | .disconnect client =>
      inferInstanceAs (Decidable ((sys.reqs client).xreq.pipe ≠ none))
  | .send _ _ _ | .receive _ | .strangerConnects | .serverOut _ | .serverDisconnect _ =>
      inferInstanceAs (Decidable True)
  | .timeout client =>
      inferInstanceAs (Decidable ((sys.reqs client).task.timer = .active))
  | .timerStopped client _ =>
      inferInstanceAs (Decidable ((sys.reqs client).task.timer = .stopping))
  | .strangerSends connection _ => inferInstanceAs (Decidable
      (connection < sys.count ∧ (sys.connections connection).owner = none))
  | .accept connection => inferInstanceAs (Decidable
      (connection < sys.count ∧ (sys.connections connection).serial = none))
  | .serverReceive connection => inferInstanceAs (Decidable
      (sys.handling = none ∧ (sys.connections connection).toServer ≠ [] ∧
        ∃ data ∈ sys.rep.outpipes, data.pipe = connection))
  | .answer _ _ => inferInstanceAs (Decidable (sys.handling ≠ none))

/-- What a move does; `none` where an assertion fails, or the server's user stops. -/
def act (serve : Context → σ → Bytes → Option (σ × List Bytes))
    (sys : System Client σ Context) :
    Move Client Context → Option (System Client σ Context)
  | .connect client => some
      ((sys.opened (some client)).moved client (nnReqAdd sys.count (sys.reqs client)) none)
  | .clientOut client release =>
      (nnReqOut release (sys.reqs client)).map fun (req, sending) =>
        sys.moved client req sending
  | .send client body release =>
      (nnReqCsend release body (sys.reqs client)).map fun (req, sending) =>
        { sys.moved client req sending with
          sends := Function.update sys.sends client (sys.sends client + 1)
          recent := Function.update sys.recent client [] }
  | .deliver client available =>
      match (sys.reqs client).xreq.pipe with
      | none => some sys
      | some pipe =>
          let wires := (sys.connections pipe).toClient
          (nnReqIn (sys.reqs client) (wires.take available)).map fun (req, rest) =>
            (sys.moved client req none).withConnection pipe
              { sys.connections pipe with toClient := rest ++ wires.drop available }
  | .receive client =>
      (nnReqCrecv (sys.reqs client)).map fun (_, req) => sys.moved client req none
  | .timeout client =>
      (timedOut (sys.reqs client)).map fun (req, sending) => sys.moved client req sending
  | .timerStopped client release =>
      (timerStopped release (sys.reqs client)).map fun (req, sending) =>
        sys.moved client req sending
  | .disconnect client =>
      match (sys.reqs client).xreq.pipe with
      | none => some sys
      | some pipe =>
          (nnReqRm pipe (sys.reqs client)).map fun (req, sending) =>
            sys.moved client req sending
  | .strangerConnects => some (sys.opened none)
  | .strangerSends connection wire =>
      some (sys.withConnection connection ((sys.connections connection).ask wire))
  | .accept connection =>
      (nnXrepAdd connection sys.rep).map fun rep =>
        { sys.withConnection connection
            { sys.connections connection with serial := some sys.accepts } with
          rep
          accepts := sys.accepts + 1 }
  | .serverOut connection => some { sys with rep := nnXrepOut connection sys.rep }
  | .serverDisconnect connection => some { sys with rep := nnXrepRm connection sys.rep }
  | .serverReceive connection =>
      match sys.rep.outpipes.find? (·.pipe = connection),
          (sys.connections connection).toServer with
      | some data, wire :: rest =>
          some { sys.withConnection connection
              { sys.connections connection with toServer := rest } with
            rep := (nnRepRecv data.key wire sys.rep).2
            handling := (splitHeader wire).map fun (header, body) =>
              ⟨connection, header, body⟩ }
      | _, _ => some sys
  | .answer context release =>
      match sys.handling with
      | none => some sys
      | some handling =>
          (serve context sys.state handling.body).map fun (state, replies) =>
            let (rep, sendings) := sendAll release replies sys.rep
            let execution : Execution σ Context := ⟨handling, context, sys.state, replies⟩
            { sys with
              rep
              connections := replyAll sys.connections sendings
              state
              handling := none
              recent := fun client => execution :: sys.recent client }

/-- A move that can happen, if nothing stops. -/
def step (serve : Context → σ → Bytes → Option (σ × List Bytes))
    (sys : System Client σ Context) (move : Move Client Context) :
    Option (System Client σ Context) :=
  if Enabled sys move then act serve sys move else none

end ChlorosSnfs.Nanomsg.ReqRep
