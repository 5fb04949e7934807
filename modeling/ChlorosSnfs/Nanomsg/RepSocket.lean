import ChlorosSnfs.Nanomsg.ReqSocket

/-!
# The REP socket

`rep.c` and `xrep.c` of the vendored nanomsg, on the server's side.  Every pipe has a
key; the key of the pipe a request came from is put on top of the header it came with,
and a reply goes back by the header of the last request.
-/

set_option autoImplicit false

namespace ChlorosSnfs.Nanomsg.RepSocket

open ChlorosSnfs.Nanomsg.Wire
open ChlorosSnfs.Nanomsg.ReqSocket

/-- `struct nn_xrep_data` in the hash of pipes; `out` is `NN_XREP_OUT`. -/
structure XrepData where
  key : UInt32
  pipe : Nat
  out : Bool

/-- `struct nn_rep`; there is a backtrace while `NN_REP_INPROGRESS` is set. -/
structure Rep where
  nextKey : UInt32
  outpipes : List XrepData
  backtrace : Option Bytes

/-- The first key is drawn at random. -/
def nnRepInit (nextKey : UInt32) : Rep := ⟨nextKey, [], none⟩

/-- A key without the bottom bit. -/
def keyOf (nextKey : UInt32) : UInt32 := nextKey &&& 0x7fffffff

/-- `nn_hash_insert` asserts that the key is new. -/
def nnXrepAdd (pipe : Nat) (rep : Rep) : Option Rep :=
  if rep.outpipes.any (·.key = keyOf rep.nextKey) then none
  else some { rep with
    outpipes := ⟨keyOf rep.nextKey, pipe, false⟩ :: rep.outpipes
    nextKey := rep.nextKey + 1 }

def nnXrepRm (pipe : Nat) (rep : Rep) : Rep :=
  { rep with outpipes := rep.outpipes.filter (·.pipe ≠ pipe) }

def setOut (pipe : Nat) (out : Bool) (data : XrepData) : XrepData :=
  if data.pipe = pipe then { data with out } else data

def nnXrepOut (pipe : Nat) (rep : Rep) : Rep :=
  { rep with outpipes := rep.outpipes.map (setOut pipe true) }

/-- The loop of `nn_xrep_recv`: the header ends with the first word that has the bottom
bit, and a message without one is dropped. -/
def splitHeader : Bytes → Option (Bytes × Bytes)
  | first :: second :: third :: fourth :: rest =>
      if nnGetl [first, second, third, fourth] &&& bottomBit ≠ 0 then
        some ([first, second, third, fourth], rest)
      else (splitHeader rest).map fun (header, body) =>
        (first :: second :: third :: fourth :: header, body)
  | _ => none

/-- `none` is `EAGAIN`. -/
def nnXrepRecv (key : UInt32) (wire : Bytes) : Option Msg :=
  (splitHeader wire).map fun (header, body) => ⟨nnPutl key ++ header, body⟩

/-- The reply goes to the pipe on top of the header, without its key, or nowhere. -/
def nnXrepSend (release : Bool) (msg : Msg) (rep : Rep) : Rep × Sending :=
  if msg.sphdr.length < 4 then (rep, none)
  else
    match rep.outpipes.find? (·.key = nnGetl msg.sphdr) with
    | none => (rep, none)
    | some data =>
        if data.out then
          ({ rep with outpipes := rep.outpipes.map (setOut data.pipe !release) },
            some (data.pipe, msg.sphdr.drop 4 ++ msg.body))
        else (rep, none)

/-- The body is for the user, the header is kept; a request underway is forgotten. -/
def nnRepRecv (key : UInt32) (wire : Bytes) (rep : Rep) : Option Bytes × Rep :=
  match nnXrepRecv key wire with
  | none => (none, { rep with backtrace := none })
  | some msg => (some msg.body, { rep with backtrace := some msg.sphdr })

/-- `none` is `EFSM`: no request is underway. -/
def nnRepSend (release : Bool) (body : Bytes) (rep : Rep) : Option (Rep × Sending) :=
  rep.backtrace.map fun backtrace =>
    nnXrepSend release ⟨backtrace, body⟩ { rep with backtrace := none }

/-! ## The way of a header -/

theorem splitHeader_bottom {word : UInt32} (bottom : word &&& bottomBit ≠ 0)
    (body : Bytes) : splitHeader (nnPutl word ++ body) = some (nnPutl word, body) := by
  have read := nnGetl_nnPutl_self word
  have split : splitHeader (nnPutl word ++ body) =
      if nnGetl (nnPutl word) &&& bottomBit ≠ 0 then some (nnPutl word, body)
      else (splitHeader body).map fun (header, body) => (nnPutl word ++ header, body) :=
    rfl
  rw [split, read, if_pos bottom]

end ChlorosSnfs.Nanomsg.RepSocket
