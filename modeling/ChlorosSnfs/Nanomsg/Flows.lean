import ChlorosSnfs.Library.NumberedQueues
import ChlorosSnfs.Nanomsg.ReqRep

/-!
# What is on a connection

A client's requests are numbered, and a request and its reply carry the number in
their ids.  On one connection the numbers never go down: from the replies on their way
back, over the request the server is at, to the requests it has yet to take.
-/

set_option autoImplicit false

namespace ChlorosSnfs.Nanomsg.Flows

open ChlorosSnfs.Library.NumberedQueues
open ChlorosSnfs.Nanomsg.Wire
open ChlorosSnfs.Nanomsg.ReqSocket
open ChlorosSnfs.Nanomsg.RepSocket
open ChlorosSnfs.Nanomsg.ReqStates
open ChlorosSnfs.Nanomsg.ReqRep

variable {σ Context : Type}

/-- The id of the request with this number, with the bottom bit. -/
def word (first : UInt32) (number : Nat) : UInt32 :=
  (first + UInt32.ofNat (number + 1)) ||| bottomBit

theorem word_marked (first : UInt32) (number : Nat) : word first number &&& bottomBit ≠ 0 :=
  marked _

/-- Only the last id is what the socket waits for. -/
theorem word_eq_id_iff {first : UInt32} {number sends : Nat} (known : number < sends)
    (bounded : sends < 2 ^ 31) :
    word first number = (first + UInt32.ofNat sends) ||| bottomBit ↔ number + 1 = sends := by
  constructor
  · intro same
    exact eq_of_mod_eq (by omega) bounded (mod_eq_of_marked_eq same)
  · rintro rfl
    rfl

/-- What a client has asked: how many requests, the last one, and what the server has
carried out since. -/
structure Talk (σ Context : Type) where
  first : UInt32
  sends : Nat
  request : Msg
  recent : List (Execution σ Context)

/-- What is on a connection, from the client's end to the server's. -/
inductive Item where
  | reply (wire : Bytes)
  | atWork (handling : Handling)
  | request (wire : Bytes)

/-- The server has carried out the last request, and this was the reply. -/
def CarriedOut (talk : Talk σ Context) (connection : Nat) (reply : Bytes) : Prop :=
  ∃ execution ∈ talk.recent, execution.handling.connection = connection ∧
    talk.request = ⟨execution.handling.header, execution.handling.body⟩ ∧
    execution.replies.head? = some reply

/-- What the number of a request tells; of the last one everything is known. -/
def Fits (talk : Talk σ Context) (connection number : Nat) : Item → Prop
  | .reply wire => number < talk.sends ∧ ∃ reply,
      wire = nnPutl (word talk.first number) ++ reply ∧
        (number + 1 = talk.sends → CarriedOut talk connection reply)
  | .atWork handling => number < talk.sends ∧
      handling.header = nnPutl (word talk.first number) ∧
        (number + 1 = talk.sends → talk.request = ⟨handling.header, handling.body⟩)
  | .request wire => number < talk.sends ∧ ∃ body,
      wire = nnPutl (word talk.first number) ++ body ∧
        (number + 1 = talk.sends →
          talk.request = ⟨nnPutl (word talk.first number), body⟩)

def onWay (toClient : List Bytes) (atWork : Option Handling) (toServer : List Bytes) :
    List Item :=
  toClient.map .reply ++ (atWork.toList.map .atWork ++ toServer.map .request)

/-- The numbers on a connection, none below `low`. -/
def Flowing (talk : Talk σ Context) (connection low : Nat) (toClient : List Bytes)
    (atWork : Option Handling) (toServer : List Bytes) : Prop :=
  Numbered (Fits talk connection) low (onWay toClient atWork toServer)

variable {talk : Talk σ Context} {connection low : Nat} {toClient toServer : List Bytes}
  {atWork : Option Handling}

theorem Fits.lt_sends {number : Nat} {item : Item} (fits : Fits talk connection number item) :
    number < talk.sends := by
  cases item <;> exact fits.1

theorem flowing_nil (talk : Talk σ Context) (connection low : Nat) :
    Flowing talk connection low [] none [] := .nil low

/-- More has been carried out. -/
theorem Flowing.carriedOut (flows : Flowing talk connection low toClient atWork toServer)
    (execution : Execution σ Context) :
    Flowing { talk with recent := execution :: talk.recent } connection low toClient atWork
      toServer := by
  refine flows.imp ?_
  intro number item _ fits
  cases item with
  | reply wire =>
      obtain ⟨known, reply, same, last⟩ := fits
      refine ⟨known, reply, same, ?_⟩
      intro isLast
      obtain ⟨earlier, member, rest⟩ := last isLast
      exact ⟨earlier, List.mem_cons_of_mem _ member, rest⟩
  | atWork handling => exact fits
  | request wire => exact fits

/-- The client has made its next request; those before are of no interest now. -/
theorem Flowing.next (flows : Flowing talk connection low toClient atWork toServer)
    (request : Msg) :
    Flowing (⟨talk.first, talk.sends + 1, request, []⟩ : Talk σ Context) connection 0
      toClient atWork toServer := by
  refine (flows.imp ?_).weaken (Nat.zero_le low)
  intro number item _ fits
  have notLast : number + 1 ≠ talk.sends + 1 := by
    have known := fits.lt_sends
    omega
  cases item with
  | reply wire =>
      obtain ⟨known, reply, same, _⟩ := fits
      exact ⟨Nat.lt_succ_of_lt known, reply, same, fun isLast => absurd isLast notLast⟩
  | atWork handling =>
      obtain ⟨known, same, _⟩ := fits
      exact ⟨Nat.lt_succ_of_lt known, same, fun isLast => absurd isLast notLast⟩
  | request wire =>
      obtain ⟨known, body, same, _⟩ := fits
      exact ⟨Nat.lt_succ_of_lt known, body, same, fun isLast => absurd isLast notLast⟩

/-- The last request is put on the connection. -/
theorem Flowing.ask (flows : Flowing talk connection low toClient atWork toServer)
    {number : Nat} (last : talk.sends = number + 1) (reached : low ≤ number)
    (header : talk.request.sphdr = nnPutl (word talk.first number)) :
    Flowing talk connection low toClient atWork
      (toServer ++ [Msg.wire talk.request]) := by
  have asked : Fits talk connection number (.request (Msg.wire talk.request)) :=
    ⟨by omega, talk.request.body, by rw [Msg.wire, header], fun _ => by rw [← header]⟩
  have longer := flows.snoc reached (fun other item _ fits => by
    have known := fits.lt_sends
    omega) asked
  simpa [Flowing, onWay] using longer

/-- The server takes the first request. -/
theorem Flowing.receive {wire : Bytes}
    (flows : Flowing talk connection low toClient none (wire :: toServer)) :
    ∃ body, splitHeader wire = some (wire.take 4, body) ∧
      Flowing talk connection low toClient (some ⟨connection, wire.take 4, body⟩)
        toServer := by
  have member : Item.request wire ∈ onWay toClient none (wire :: toServer) := by
    simp [onWay]
  obtain ⟨number, _, _, body, rfl, _⟩ := flows.exists_fits member
  refine ⟨body, ?_, ?_⟩
  · rw [List.take_left' (nnPutl_length _)]
    exact splitHeader_bottom (word_marked talk.first number) body
  rw [List.take_left' (nnPutl_length _)]
  apply Numbered.replace flows
  rintro other ⟨known, otherBody, same, last⟩
  obtain ⟨sameWord, rfl⟩ := List.append_inj same (by simp)
  refine ⟨known, sameWord, ?_⟩
  rw [sameWord]
  exact last

/-- A reply is put on the connection in the place of its request. -/
theorem Flowing.answer {handling : Handling} {toServer : List Bytes}
    (flows : Flowing talk connection low toClient (some handling) toServer)
    (here : handling.connection = connection) {execution : Execution σ Context}
    (carriesOut : execution.handling = handling) {reply : Bytes}
    (replies : execution.replies.head? = some reply) :
    Flowing { talk with recent := execution :: talk.recent } connection low
      (toClient ++ [handling.header ++ reply]) none toServer := by
  have more := flows.carriedOut execution
  have turns (number : Nat) (fits : Fits { talk with recent := execution :: talk.recent }
      connection number (.atWork handling)) :
      Fits { talk with recent := execution :: talk.recent } connection number
        (.reply (handling.header ++ reply)) := by
    obtain ⟨known, header, last⟩ := fits
    refine ⟨known, reply, by rw [header], ?_⟩
    intro isLast
    exact ⟨execution, List.mem_cons_self, carriesOut ▸ here,
      carriesOut ▸ last isLast, replies⟩
  have answered := Numbered.replace more turns
  simpa [Flowing, onWay] using answered

/-- The server is done with a request and has no reply on the connection. -/
theorem Flowing.dropped (flows : Flowing talk connection low toClient atWork toServer) :
    Flowing talk connection low toClient none toServer := by
  cases atWork with
  | none => exact flows
  | some handling => exact Numbered.remove flows

end ChlorosSnfs.Nanomsg.Flows
