import ChlorosSnfs.Nanomsg.Wire

/-!
# The REQ socket

`req.c` and `xreq.c` of the vendored nanomsg, as the client uses them: it connects one
endpoint at a time, so there is at most one pipe.  What a pipe carries is the header
of a message followed by its body.  `none` stands for an assertion that fails, a bad
action or a bad source of the state machine.  `release` says whether the pipe has to
report before it takes another message (`NN_PIPE_RELEASE`).
-/

set_option autoImplicit false

namespace ChlorosSnfs.Nanomsg.ReqSocket

open ChlorosSnfs.Nanomsg.Wire

/-- `struct nn_msg`. -/
structure Msg where
  sphdr : Bytes
  body : Bytes
  deriving DecidableEq, Repr

/-- A `struct nn_msg` in place; after `nn_msg_term` there is nothing in it to use. -/
inductive Slot where
  | held (msg : Msg)
  | terminated
  deriving DecidableEq, Repr

/-- `NN_REQ_STATE_*`. -/
inductive ReqState where
  | idle
  | passive
  | delayed
  | active
  | timedOut
  | cancelling
  | stoppingTimer
  | done
  | stopping
  deriving DecidableEq, Repr

/-- `NN_FSM_START` and `NN_REQ_ACTION_*`. -/
inductive ReqAction where
  | start
  | replyIn
  | pipeOut
  | sent
  | received
  | pipeRm
  deriving DecidableEq, Repr

/-- `NN_TIMER_TIMEOUT` and `NN_TIMER_STOPPED`. -/
inductive TimerEvent where
  | timeout
  | stopped
  deriving DecidableEq, Repr

/-- Where an event of the state machine comes from, and its type. -/
inductive Event where
  | action (type : ReqAction)
  | resendTimer (type : TimerEvent)

/-- What the owner of a `struct nn_timer` can tell of it. -/
inductive Timer where
  | idle
  | active
  | stopping
  deriving DecidableEq, Repr

/-- `nn_timer_stop`: stopping is asked for once. -/
def Timer.stop : Timer → Timer
  | .active => .stopping
  | timer => timer

/-- `struct nn_task`. -/
structure Task where
  id : UInt32
  request : Msg
  reply : Slot
  timer : Timer
  sentTo : Option Nat

/-- `struct nn_xreq` with at most one pipe, and whether it takes a message. -/
structure Xreq where
  pipe : Option Nat
  canSend : Bool

/-- `struct nn_req`. -/
structure Req where
  state : ReqState
  task : Task
  xreq : Xreq

/-- What is put on which pipe. -/
abbrev Sending : Type := Option (Nat × Bytes)

/-! ## `xreq.c` -/

def nnXreqAdd (pipe : Nat) (_ : Xreq) : Xreq := ⟨some pipe, false⟩

def nnXreqRm (_ : Xreq) : Xreq := ⟨none, false⟩

def nnXreqOut (xreq : Xreq) : Xreq := { xreq with canSend := true }

/-- `none` is `EAGAIN`. -/
def nnXreqSendTo (release : Bool) (xreq : Xreq) : Option (Nat × Xreq) :=
  match xreq.pipe with
  | some pipe => if xreq.canSend then some (pipe, ⟨some pipe, !release⟩) else none
  | none => none

/-- A message too short for a request id is dropped. -/
def nnXreqRecv (wire : Bytes) : Option Msg :=
  if wire.length < 4 then none else some ⟨wire.take 4, wire.drop 4⟩

/-! ## `req.c` -/

/-- The socket after `nn_req_init`, its first id drawn at random. -/
def nnReqInit (lastid : UInt32) : Req where
  state := .passive
  task := ⟨lastid, ⟨[], []⟩, .held ⟨[], []⟩, .idle, none⟩
  xreq := ⟨none, false⟩

def nnReqInprogress (req : Req) : Bool :=
  match req.state with
  | .idle | .passive | .stopping => false
  | _ => true

/-- The request is sent, or waits for a pipe if it may. -/
def nnReqActionSend (allowDelay release : Bool) (req : Req) : Option (Req × Sending) :=
  match nnXreqSendTo release req.xreq with
  | none => if allowDelay then some ({ req with state := .delayed }, none) else none
  | some (pipe, xreq) =>
      -- `nn_timer_start` asserts that the timer is idle
      if req.task.timer = .idle then
        some ({ req with
          state := .active
          task := { req.task with timer := .active, sentTo := some pipe }
          xreq }, some (pipe, req.task.request.sphdr ++ req.task.request.body))
      else none

/-- The timer is stopped, and the request is with no pipe any more. -/
def Req.giveUp (req : Req) (state : ReqState) : Req :=
  { req with state, task := { req.task with timer := req.task.timer.stop, sentTo := none } }

/-- Something else in the reply's place. -/
def Req.withReply (req : Req) (reply : Slot) : Req :=
  { req with task := { req.task with reply } }

def nnReqHandler (release : Bool) (req : Req) (event : Event) : Option (Req × Sending) :=
  match req.state, event with
  | .idle, .action .start => some ({ req with state := .passive }, none)
  | .passive, .action .sent => nnReqActionSend true release req
  | .delayed, .action .pipeOut => nnReqActionSend false release req
  | .delayed, .action .sent => some (req, none)
  | .active, .action .replyIn => some (req.giveUp .stoppingTimer, none)
  | .active, .action .sent => some (req.giveUp .cancelling, none)
  | .active, .action .pipeRm => some (req.giveUp .timedOut, none)
  | .active, .resendTimer .timeout => some (req.giveUp .timedOut, none)
  | .timedOut, .resendTimer .stopped => nnReqActionSend true release req
  | .timedOut, .action .sent => some ({ req with state := .cancelling }, none)
  | .cancelling, .resendTimer .stopped => nnReqActionSend true release req
  | .cancelling, .action .sent => some (req, none)
  | .stoppingTimer, .resendTimer .stopped => some ({ req with state := .done }, none)
  | .stoppingTimer, .action .sent => some ({ req with state := .cancelling }, none)
  | .done, .action .received => some ({ req with state := .passive }, none)
  | .done, .action .sent => nnReqActionSend true release req
  | _, _ => none

/-- The loop of `nn_req_in` over the messages the pipe has; what it does not take is
left on the pipe. -/
def nnReqIn (req : Req) : List Bytes → Option (Req × List Bytes)
  | [] => some (req, [])
  | wire :: rest =>
      let dropped := req.withReply .terminated
      match nnXreqRecv wire with
      | none => some (dropped, rest)
      | some msg =>
          if !nnReqInprogress req then nnReqIn dropped rest
          else if msg.sphdr.length ≠ 4 then nnReqIn dropped rest
          else if nnGetl msg.sphdr &&& bottomBit = 0 then nnReqIn dropped rest
          else if nnGetl msg.sphdr ≠ req.task.id ||| bottomBit then nnReqIn dropped rest
          else
            let taken := req.withReply (.held { msg with sphdr := [] })
            if req.state = .active then
              (nnReqHandler false taken (.action .replyIn)).map fun (req, _) => (req, rest)
            else some (taken, rest)

def nnReqOut (release : Bool) (req : Req) : Option (Req × Sending) :=
  let req := { req with xreq := nnXreqOut req.xreq }
  if req.state = .delayed then nnReqHandler release req (.action .pipeOut)
  else some (req, none)

/-- `nn_send`: a new id, and the request is kept to be sent again. -/
def nnReqCsend (release : Bool) (body : Bytes) (req : Req) : Option (Req × Sending) :=
  let id := req.task.id + 1
  nnReqHandler release { req with
    task := { req.task with id, request := ⟨nnPutl (id ||| bottomBit), body⟩ } }
    (.action .sent)

/-- What `nn_recv` gives: `EFSM`, `EAGAIN` or what is in the reply's place. -/
inductive Received where
  | efsm
  | eagain
  | reply (slot : Slot)
  deriving DecidableEq, Repr

def nnReqCrecv (req : Req) : Option (Received × Req) :=
  if !nnReqInprogress req then some (.efsm, req)
  else if req.state ≠ .done then some (.eagain, req)
  else
    (nnReqHandler false (req.withReply (.held ⟨[], []⟩)) (.action .received)).map fun (next, _) =>
      (.reply req.task.reply, next)

/-- The pipe goes; a request it was sent to is sent again as soon as there is another. -/
def nnReqRm (pipe : Nat) (req : Req) : Option (Req × Sending) :=
  let sentTo := req.task.sentTo
  let req := { req with xreq := nnXreqRm req.xreq }
  if sentTo = some pipe then nnReqHandler false req (.action .pipeRm)
  else some (req, none)

def nnReqAdd (pipe : Nat) (req : Req) : Req :=
  { req with xreq := nnXreqAdd pipe req.xreq }

/-- The timer has gone off. -/
def timedOut (req : Req) : Option (Req × Sending) :=
  nnReqHandler false req (.resendTimer .timeout)

/-- The timer has stopped. -/
def timerStopped (release : Bool) (req : Req) : Option (Req × Sending) :=
  nnReqHandler release { req with task := { req.task with timer := .idle } }
    (.resendTimer .stopped)

end ChlorosSnfs.Nanomsg.ReqSocket
