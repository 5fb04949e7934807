import ChlorosSnfs.Nanomsg.RemoteDialogues
import ChlorosSnfs.Snfs.InterleavedCalls
import ChlorosSnfs.Snfs.ReplyReading

/-!
# SNFS over nanomsg

The calls of fuseops.c over REQ and REP sockets.  A request may reach the server more than
once, after its client has given up, or not at all; the calls that return 0 nevertheless
take effect on the tree of names at one moment each, and what the server carries out
besides is a step of its own.
-/

set_option autoImplicit false

namespace ChlorosSnfs.Snfs.OverNanomsg

open ChlorosSnfs.Library.Dialogues
open ChlorosSnfs.Library.Prophecies
open ChlorosSnfs.Library.Runs
open ChlorosSnfs.Nanomsg.MatchedReplies (Executes run_state step_answer)
open ChlorosSnfs.Nanomsg.RemoteDialogues
open ChlorosSnfs.Snfs.Fhandledb
open ChlorosSnfs.Snfs.Messages
open ChlorosSnfs.Snfs.Syscalls
open ChlorosSnfs.Snfs.Handlers
open ChlorosSnfs.Snfs.ServeLoop
open ChlorosSnfs.Snfs.HandlerEffects
open ChlorosSnfs.Snfs.HandlerReplies
open ChlorosSnfs.Snfs.Client
open ChlorosSnfs.Snfs.ClientCalls
open ChlorosSnfs.Snfs.Wire
open ChlorosSnfs.Snfs.RoundTrip
open ChlorosSnfs.Snfs.ReplyReading
open ChlorosSnfs.Snfs.FreshDraws
open ChlorosSnfs.Snfs.TreeKernel
open ChlorosSnfs.Snfs.PathWalk
open ChlorosSnfs.Snfs.PathCalls
open ChlorosSnfs.Snfs.GivenHandles
open ChlorosSnfs.Snfs.RequestEffects
open ChlorosSnfs.Snfs.HandleIdentity (pathA noLeftover)
open ChlorosSnfs.Snfs.PathAgreement (mountedTree)
open ChlorosSnfs.Snfs.InterleavedCalls

variable {Fs : Type}

/-- What the server has in its memory when it carries out a request: left over from
before, in the padding of the reply, and behind it. -/
structure Memory where
  leftover : Leftover
  gap : Nat → UInt8
  rest : Bytes

/-- One round of `serve_loop`, with the replies that it sends. -/
def serveOver (kernel : Kernel Fs) (memory : Memory) (server : Server Fs)
    (message : Bytes) : Option (Server Fs × List Bytes) :=
  match serve ⟨kernel, memory.leftover⟩ message server with
  | .error _ => none
  | .ok next =>
      let sent := next.sent.take (next.sent.length - server.sent.length)
      some (next, sent.reverse.map fun (reply, size) =>
        Reply.sent memory.gap memory.rest reply size)

/-- The clients of a server over the network.  From outside only the served files
change. -/
def overNanomsg (kernel : Kernel Fs) (files : Fs → Files) (root : Fhandle) :
    RemoteService Called Memory Query (Option Reply) (Except Stop Returned) Fs (Server Fs)
      Files where
  dialogue called := called.call.dialogue root called.following
  encode query := query.message
  decode query := acceptReply query.type
  lost := none
  serve := serveOver kernel
  change fs server := some { server with fs }
  view server := files server.fs

/-! ## The server and its replies -/

section Server

variable {kernel : Kernel Fs} {memory : Memory} {server after : Server Fs}
  {message : Bytes} {replies : List Bytes}

theorem serve_of_serveOver
    (served : serveOver kernel memory server message = some (after, replies)) :
    serve ⟨kernel, memory.leftover⟩ message server = .ok after := by
  rw [serveOver] at served
  split at served
  · cases served
  · rename_i handled
    cases served
    exact handled

/-- The server sends one reply. -/
theorem serveOver_replies (readsAtMost : ReadsAtMost kernel)
    (served : serveOver kernel memory server message = some (after, replies)) :
    ∃ reply : WholeReply,
      after.sent = (reply.val, Reply.size reply.val) :: server.sent ∧
      replies = [Reply.sent memory.gap memory.rest reply.val (Reply.size reply.val)] := by
  have handled := serve_of_serveOver served
  obtain ⟨reply, sent⟩ := exists_wholeReply readsAtMost handled
  refine ⟨reply, sent, ?_⟩
  rw [serveOver, handled] at served
  simp only [Option.some.injEq, Prod.mk.injEq, true_and] at served
  rw [← served, sent, List.length_cons, Nat.add_sub_cancel_left]
  rfl

/-- What the client makes of the reply is what `send_request` gives. -/
theorem sendRequest_of_serveOver (readsAtMost : ReadsAtMost kernel) (type : MsgType)
    (served : serveOver kernel memory server message = some (after, replies)) :
    ∃ reply, replies.head? = some reply ∧
      sendRequest ⟨kernel, memory.leftover⟩ type message server =
        .ok (acceptReply type reply, after) := by
  obtain ⟨reply, sent, rfl⟩ := serveOver_replies readsAtMost served
  refine ⟨_, rfl, ?_⟩
  rw [acceptReply_sent, sendRequest, serve_of_serveOver served]
  simp only [ok_bind, sent]
  split
  · rfl
  · split <;> rfl

end Server

/-! ## The calls -/

section Calls

variable {kernel : Kernel Fs} {files : Fs → Files} {root : Fhandle}
  {server after : Server Fs}

/-- Without a reply a call fails, and has done nothing. -/
theorem stands_of_lost {called : Called} {query : Query}
    {next : Option Reply → ClientDialogue (Except Stop Returned)}
    (underway : Underway root server called (.ask query next)) :
    Stands files root called server server (next none) := by
  cases underway with
  | walking path call following before rest curHandle request split stands remains =>
      cases rest with
      | cons name rest =>
          cases remains
          exact stands_of_missed following rfl
      | nil =>
          cases call with
          | openFile fh => cases remains
          | opendir fh => cases remains
          | getattr stbuf =>
              cases remains
              exact stands_of_failed _ negEio_ne_zero rfl
          | readdir =>
              cases remains
              exact stands_of_failed _ negEio_ne_zero rfl
          | setattr which size mode uid gid tv =>
              cases remains
              exact stands_of_failed _ negEio_ne_zero rfl
          | unlink | rename newpath | rmdir =>
              cases remains
              exact stands_of_failed _ negEnoent_ne_zero rfl
  | creating path mode fh following remains =>
      rw [PathCall.dialogue] at remains
      split at remains
      · cases remains
      · cases remains
        exact stands_of_failed _ negEnoent_ne_zero rfl
  | makingDirectory path mode following remains =>
      rw [PathCall.dialogue] at remains
      split at remains
      · cases remains
      · cases remains
        exact stands_of_failed _ negEnoent_ne_zero rfl

/-- An answer of the server is one of `send_request`. -/
theorem sendRequest_of_answer (readsAtMost : ReadsAtMost kernel) {memory : Memory}
    {query : Query} {reply : Option Reply}
    (answered : (overNanomsg kernel files root).atOnce.answer (some memory) query server =
      some (reply, after)) :
    sendRequest ⟨kernel, memory.leftover⟩ query.type query.message server =
      .ok (reply, after) := by
  simp only [RemoteService.atOnce, overNanomsg, Option.bind_eq_bind,
    Option.bind_eq_some_iff] at answered
  obtain ⟨⟨next, replies⟩, served, bytes, first, same⟩ := answered
  cases same
  obtain ⟨given, isFirst, replied⟩ := sendRequest_of_serveOver readsAtMost query.type served
  rw [first] at isFirst
  cases isFirst
  exact replied

theorem settlesCalls_atOnce (onTree : OnTree kernel files) (readsAtMost : ReadsAtMost kernel)
    (root : Fhandle) :
    SettlesCalls (overNanomsg kernel files root).atOnce Effect (Ready root)
      (Underway root) where
  begins := fun _ called ready => stands_of_begun ready called
  answers := by
    intro memory server called query next reply after ready underway answered
    cases memory with
    | some memory =>
        exact stands_of_answered onTree ready underway
          (sendRequest_of_answer readsAtMost answered)
    | none =>
        cases answered
        exact stands_of_lost underway
  kept := by
    intro memory server query reply after ready answered
    cases memory with
    | some memory =>
        exact ready_of_serve ready
          (serve_of_sendRequest (sendRequest_of_answer readsAtMost answered))
    | none =>
        cases answered
        exact ⟨ready, fun _ _ underway => underway⟩
  changes := by
    intro change server after ready changed
    rcases change with fs | ⟨memory, message⟩
    · cases changed
      exact ready_of_external ready fs
    · obtain ⟨⟨next, replies⟩, served, rfl⟩ := Option.map_eq_some_iff.mp changed
      exact ready_of_serve ready (serve_of_serveOver served)

/-! ## Mounting -/

/-- In this part of a run the server carries out a MOUNT request, and the client is told
this root. -/
def Mounts {Client : Type} [DecidableEq Client] (kernel : Kernel Fs)
    (start : Nanomsg.ReqRep.System Client (Server Fs) Memory)
    (moves : List (Nanomsg.ReqRep.Move Client Memory)) (root : Fhandle) : Prop :=
  ∃ owner execution reply, Executes (serveOver kernel) start moves owner execution ∧
    execution.handling.body = mountMessage ∧ execution.replies.head? = some reply ∧
    acceptReply .mount reply = some (.mount root)

section Mounting

variable {Client : Type} [DecidableEq Client]
  {start sys : Nanomsg.ReqRep.System Client (Server Fs) Memory}
  {moves : List (Nanomsg.ReqRep.Move Client Memory)}

theorem fresh_of_run (fresh : ∃ pairs, Fresh start.state pairs)
    (run : runLabels (Nanomsg.ReqRep.step (serveOver kernel)) start moves = some sys) :
    ∃ pairs, Fresh sys.state pairs := by
  have kept : ∀ memory (server : Server Fs) message after replies,
      (∃ pairs, Fresh server pairs) →
        serveOver kernel memory server message = some (after, replies) →
        ∃ pairs, Fresh after pairs :=
    fun _ _ _ _ _ fresh served =>
      (standsFor_of_serve fresh (serve_of_serveOver served)).1
  exact run_state kept fresh run

theorem ready_of_run (ready : Ready root start.state)
    (run : runLabels (Nanomsg.ReqRep.step (serveOver kernel)) start moves = some sys) :
    Ready root sys.state := by
  have kept : ∀ memory server message after replies, Ready root server →
      serveOver kernel memory server message = some (after, replies) → Ready root after :=
    fun _ _ _ _ _ ready served => (ready_of_serve ready (serve_of_serveOver served)).1
  exact run_state kept ready run

/-- Once a root has been given, it is one. -/
theorem ready_of_mounts (readsAtMost : ReadsAtMost kernel)
    (fresh : ∃ pairs, Fresh start.state pairs)
    (run : runLabels (Nanomsg.ReqRep.step (serveOver kernel)) start moves = some sys)
    (mounts : Mounts kernel start moves root) : Ready root sys.state := by
  obtain ⟨owner, execution, reply, executes, isMount, isFirst, given⟩ := mounts
  obtain ⟨early, release, late, middle, ⟨mounted, replies⟩, rfl, earlyRun, handled, _, before,
    served, sent⟩ := executes
  rw [runLabels_append, earlyRun] at run
  obtain ⟨next, stepped, remaining⟩ := (runLabels_cons_eq_some _ _ _ _ _).mp run
  obtain ⟨others, nextServed⟩ := step_answer handled stepped
  rw [before, served] at nextServed
  cases nextServed
  obtain ⟨pairs, freshBefore⟩ := fresh_of_run fresh earlyRun
  rw [before] at freshBefore
  rw [isMount] at served
  obtain ⟨first, alsoFirst, replied⟩ := sendRequest_of_serveOver readsAtMost .mount served
  have same : some first = some reply := by rw [← alsoFirst, ← isFirst, sent]
  cases same
  have mount : serverMount ⟨kernel, execution.context.leftover⟩ execution.before =
      .ok (some root, next.state) := by
    rw [serverMount, replied, given]
    rfl
  obtain ⟨more, freshMounted, rootPair⟩ := serverMount_root freshBefore mount
  have ready : Ready root next.state :=
    ⟨⟨more, freshMounted⟩, standsFor_of_pair freshMounted rootPair⟩
  exact ready_of_run ready remaining

end Mounting

end Calls

/-- Whatever becomes of the messages: beside every run over the network there is one in
which requests are answered at once, and in that one every call takes effect at one moment
between its beginning and its end: on the tree of names, as the local call at its path if
it returns 0, and not at all if not. -/
theorem calls_over_nanomsg {Client : Type} [DecidableEq Client] {kernel : Kernel Fs}
    {files : Fs → Files} (onTree : OnTree kernel files) (readsAtMost : ReadsAtMost kernel)
    (fs : Fs) {draws : List Fhandle} (nodup : draws.Nodup)
    (apart : ∀ draw ∈ draws, SpellsNoName draw) {events : List (ServeLoop.Event Fs)}
    {before : Server Fs}
    (past : runLabels (ServeLoop.step kernel) (ServeLoop.started fs draws) events =
      some before)
    {first : Client → UInt32} {firstKey : UInt32}
    {earlier : List (Nanomsg.ReqRep.Move Client Memory)}
    {sys : Nanomsg.ReqRep.System Client (Server Fs) Memory}
    (reached : runLabels (Nanomsg.ReqRep.step (serveOver kernel))
      (Nanomsg.ReqRep.started first firstKey before) earlier = some sys)
    {root : Fhandle}
    (mounts : Mounts kernel (Nanomsg.ReqRep.started first firstKey before) earlier root)
    {moves : List (RemoteMove Client Called Memory Fs)}
    {final : Remote Client Called Memory Query (Option Reply) (Except Stop Returned)
      (Server Fs) Files}
    (run : runLabels (remoteStep (overNanomsg kernel files root)) (remoteAtRest sys) moves =
      some final)
    (bounded : Nanomsg.Conversations.Bounded final.sys) :
    ∃ joint, SideBySide (remoteStep (overNanomsg kernel files root))
        (jointStep (overNanomsg kernel files root).atOnce) Agree (remoteAtRest sys)
        (atRest sys.state) moves final joint ∧
      Relation.ReflTransGen (AtomicStep Effect)
        ⟨files sys.state.fs, fun _ => .idle, []⟩
        (atomicOf (fun server => files server.fs) joint) := by
  have ready := ready_of_mounts readsAtMost (run_fresh nodup apart past) reached mounts
  obtain ⟨joint, runs⟩ := exists_run_at_once reached run bounded
  obtain ⟨atOnce, jointRun⟩ := runs.exists_run
  exact ⟨joint, runs,
    (joint_refines (settlesCalls_atOnce onTree readsAtMost root) ready jointRun).2⟩

/-! A client mounts and removes `/a`; the request to remove it is carried out twice. -/

def quietMemory : Memory := ⟨noLeftover, noGap, []⟩

def mountFirst : List (Nanomsg.ReqRep.Move Unit Memory) :=
  [.connect (), .accept 0, .serverOut 0, .clientOut () true, .send () mountMessage true,
    .serverReceive 0, .answer quietMemory true]

def unlinkTwice : List (RemoteMove Unit Called Memory Files) :=
  [.network (.serverOut 0), .network (.clientOut () true), .network (.deliver () 1),
    .network (.timerStopped () true), .network (.receive ()),
    .begin () ⟨.walk pathA .unlink, noFollowing⟩, .ask () true,
    .network (.serverReceive 0), .network (.answer quietMemory true),
    .network (.serverOut 0), .network (.clientOut () true), .network (.deliver () 1),
    .network (.timerStopped () true), .take (), .ask () true,
    .network (.timeout ()), .network (.timerStopped () true),
    .network (.clientOut () true), .network (.serverReceive 0),
    .network (.answer quietMemory true), .network (.serverOut 0),
    .network (.serverReceive 0), .network (.answer quietMemory true),
    .network (.deliver () 2), .network (.timerStopped () true), .take (), .finish ()]

abbrev unlinkStart : Nanomsg.ReqRep.System Unit (Server Files) Memory :=
  Nanomsg.ReqRep.started (fun _ => 7) 3 (ServeLoop.started onlyFileA [7, 9, 11])

def mountReply : Bytes := Reply.sent noGap [] (.mount 7) 12

/-- What the server does for the first request. -/
def mounting : Nanomsg.ReqRep.Execution (Server Files) Memory :=
  ⟨⟨0, [128, 0, 0, 8], mountMessage⟩, quietMemory,
    ServeLoop.started onlyFileA [7, 9, 11], [mountReply]⟩

theorem mountFirst_executes :
    Executes (serveOver treeKernel) unlinkStart mountFirst (some ()) mounting :=
  ⟨mountFirst.take 6, true, [], _, (mountedTree onlyFileA, [mountReply]), rfl, rfl, rfl, rfl,
    rfl, rfl, rfl⟩

theorem mountFirst_mounts : Mounts treeKernel unlinkStart mountFirst 7 :=
  ⟨some (), mounting, mountReply, mountFirst_executes, rfl, rfl, rfl⟩

theorem treeKernel_readsAtMost : ReadsAtMost treeKernel := by
  intro fd count files data read
  cases read
  exact Nat.zero_le _

set_option maxRecDepth 4000 in
theorem unlinkTwice_run : ∃ sys final,
    runLabels (Nanomsg.ReqRep.step (serveOver treeKernel)) unlinkStart mountFirst =
      some sys ∧
    runLabels (remoteStep (overNanomsg treeKernel id 7)) (remoteAtRest sys) unlinkTwice =
      some final ∧
    final.history = [.ended () ⟨.walk pathA .unlink, noFollowing⟩ (.ok ⟨0, .nothing⟩),
      .begun () ⟨.walk pathA .unlink, noFollowing⟩] ∧
    final.sys.sends () = 3 ∧ final.sys.accepts = 1 :=
  ⟨_, _, rfl, rfl, rfl, rfl, rfl⟩

theorem calls_over_nanomsg_unlinkTwice : ∃ sys final joint,
    runLabels (Nanomsg.ReqRep.step (serveOver treeKernel)) unlinkStart mountFirst =
      some sys ∧
    runLabels (remoteStep (overNanomsg treeKernel id 7)) (remoteAtRest sys) unlinkTwice =
      some final ∧
    SideBySide (remoteStep (overNanomsg treeKernel id 7))
      (jointStep (overNanomsg treeKernel id 7).atOnce) Agree (remoteAtRest sys)
      (atRest sys.state) unlinkTwice final joint ∧
    Relation.ReflTransGen (AtomicStep Effect) ⟨sys.state.fs, fun _ => .idle, []⟩
      (atomicOf (fun server => id server.fs) joint) := by
  obtain ⟨sys, final, reached, run, _, sends, accepts⟩ := unlinkTwice_run
  have bounded : Nanomsg.Conversations.Bounded final.sys := by
    refine ⟨?_, by rw [accepts]; decide⟩
    intro client
    exact sends ▸ (by decide : 3 < 2 ^ 31)
  have past : runLabels (ServeLoop.step treeKernel)
      (ServeLoop.started onlyFileA [7, 9, 11]) [] =
        some (ServeLoop.started onlyFileA [7, 9, 11]) := rfl
  obtain ⟨joint, runs, atomic⟩ := calls_over_nanomsg treeKernel_onTree
    treeKernel_readsAtMost onlyFileA (by decide) unlinkAndOpen_draws_apart past reached
    mountFirst_mounts run bounded
  exact ⟨sys, final, joint, reached, run, runs, atomic⟩

end ChlorosSnfs.Snfs.OverNanomsg
