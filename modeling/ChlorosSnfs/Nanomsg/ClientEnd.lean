import ChlorosSnfs.Nanomsg.Flows

/-!
# A client's end of a connection

What the socket takes from its pipe when replies come in order, and what its other
calls and timers leave as it was.
-/

set_option autoImplicit false

namespace ChlorosSnfs.Nanomsg.ClientEnd

open ChlorosSnfs.Library.NumberedQueues
open ChlorosSnfs.Nanomsg.Wire
open ChlorosSnfs.Nanomsg.ReqSocket
open ChlorosSnfs.Nanomsg.ReqStates
open ChlorosSnfs.Nanomsg.ReqRep
open ChlorosSnfs.Nanomsg.Flows

variable {σ Context : Type} {talk : Talk σ Context} {req next : Req} {sending : Sending}
  {release : Bool}

/-- Once there is a reply, its connection carries nothing of earlier requests. -/
def lowest (sends : Nat) (req : Req) (connection : Nat) : Nat :=
  if Replied req.state ∧ req.xreq.pipe = some connection then sends - 1 else 0

/-- A reply of the server to the last request, in the place where the user finds it. -/
def HasReply (talk : Talk σ Context) (own : Nat → Prop) (req : Req) : Prop :=
  ∃ connection reply, own connection ∧ req.task.reply = .held ⟨[], reply⟩ ∧
    CarriedOut talk connection reply

/-! ## Replies coming in -/

theorem nnXreqRecv_reply (word : UInt32) (reply : Bytes) :
    nnXreqRecv (nnPutl word ++ reply) = some ⟨nnPutl word, reply⟩ := by
  rw [nnXreqRecv, if_neg (by simp), List.take_left' (nnPutl_length word),
    List.drop_left' (nnPutl_length word)]

/-- A message with one word for a header. -/
theorem nnReqIn_cons {word : UInt32} (bottom : word &&& bottomBit ≠ 0) (req : Req)
    (reply : Bytes) (rest : List Bytes) :
    nnReqIn req ((nnPutl word ++ reply) :: rest) =
      if nnReqInprogress req ∧ word = req.task.id ||| bottomBit then
        let taken := req.withReply (.held ⟨[], reply⟩)
        some (if req.state = .active then taken.giveUp .stoppingTimer else taken, rest)
      else nnReqIn (req.withReply .terminated) rest := by
  have read := nnGetl_nnPutl_self word
  rw [nnReqIn, nnXreqRecv_reply]
  simp only [read, nnPutl_length, ne_eq, not_true_eq_false, if_false, if_neg bottom]
  by_cases inProgress : nnReqInprogress req = true
  · by_cases matching : word = req.task.id ||| bottomBit
    · simp only [inProgress, matching, and_self, if_true, not_true_eq_false, if_false,
        Bool.not_true, Bool.false_eq_true]
      split
      · rename_i active
        rw [nnReqHandler_replyIn (req.withReply (.held _)) active]
        rfl
      · rfl
    · simp [inProgress, matching]
  · simp [inProgress]

/-- What taking messages from the pipe leads to. -/
structure Took (talk : Talk σ Context) (own : Nat → Prop) (req next : Req) : Prop where
  id : next.task.id = req.task.id
  request : next.task.request = req.task.request
  xreq : next.xreq = req.xreq
  passive : req.state = .passive → next.state = .passive
  replied : Replied next.state → HasReply talk own next

/-- Only the last request's reply is taken, and it is not lost again. -/
theorem nnReqIn_took {own : Nat → Prop} {connection : Nat} (mine : own connection)
    (bounded : talk.sends < 2 ^ 31)
    (id : req.task.id = talk.first + UInt32.ofNat talk.sends)
    (pipe : req.xreq.pipe = some connection)
    (replied : Replied req.state → HasReply talk own req)
    {wires later rest toServer : List Bytes} {atWork : Option Handling}
    (flows : Flowing talk connection (lowest talk.sends req connection)
      (wires ++ later) atWork toServer)
    (took : nnReqIn req wires = some (next, rest)) :
    Took talk own req next ∧
      Flowing talk connection (lowest talk.sends next connection) (rest ++ later) atWork
        toServer := by
  induction wires generalizing req with
  | nil =>
      cases took
      exact ⟨⟨rfl, rfl, rfl, fun passive => passive, replied⟩, flows⟩
  | cons wire wires inductionHypothesis =>
      obtain ⟨number, above, ⟨known, reply, rfl, last⟩, others⟩ := Numbered.tail flows
      have matching := @word_eq_id_iff talk.first _ _ known bounded
      rw [nnReqIn_cons (word_marked _ _), id] at took
      split at took
      · rename_i inProgress
        have isLast := matching.mp inProgress.2
        have hasReply (req : Req) (held : req.task.reply = .held ⟨[], reply⟩) :
            HasReply talk own req := ⟨connection, reply, mine, held, last isLast⟩
        cases took
        split
        · rename_i active
          have least : lowest talk.sends (req.giveUp .stoppingTimer) connection ≤ number := by
            unfold lowest
            split <;> omega
          refine ⟨⟨rfl, rfl, rfl, ?_, fun _ => hasReply _ rfl⟩, Numbered.weaken others least⟩
          intro passive
          rw [passive] at active
          cases active
        · exact ⟨⟨rfl, rfl, rfl, fun passive => passive, fun _ => hasReply _ rfl⟩,
            Numbered.weaken others above⟩
      · -- a message that is not for the last request is dropped
        rename_i notTaken
        have unreplied : ¬ Replied req.state := by
          intro state
          rw [lowest, if_pos ⟨state, pipe⟩] at above
          apply notTaken
          refine ⟨?_, matching.mpr (by omega)⟩
          rcases state with state | state <;> simp [nnReqInprogress, state]
        obtain ⟨kept, flows⟩ := @inductionHypothesis (req.withReply .terminated) id pipe
          (fun now => absurd now unreplied) (Numbered.weaken others above) took
        exact ⟨⟨kept.id, kept.request, kept.xreq, kept.passive, kept.replied⟩, flows⟩

/-! ## Other calls and timers -/

/-- What the calls other than `nn_send` lead to, where no message is taken. -/
structure Moved (req next : Req) (sending : Sending) : Prop where
  sound : Sound next
  id : next.task.id = req.task.id
  request : next.task.request = req.task.request
  pipe : ∀ pipe, next.xreq.pipe = some pipe → req.xreq.pipe = some pipe
  sent : ∀ pipe wire, sending = some (pipe, wire) →
    next.xreq.pipe = some pipe ∧ wire = Msg.wire next.task.request
  replied : Replied next.state → Replied req.state ∧ next.task.reply = req.task.reply
  passive : req.state = .passive → next.state = .passive ∧ sending = none

/-- An event that neither a user's request nor a reply brings. -/
theorem moved_of_handled {event : Event} (sound : Sound next) (active : req.state ≠ .passive)
    (handled : nnReqHandler release req event = some (next, sending))
    (noReply : event ≠ .action .replyIn) :
    Moved req next sending := by
  have kept := nnReqHandler_handled handled
  refine ⟨sound, kept.id, kept.request, ?_, ?_, ?_, fun passive => absurd passive active⟩
  · intro pipe own
    rw [← kept.pipe, own]
  · intro pipe wire sends
    obtain ⟨own, same⟩ := kept.sent pipe wire sends
    exact ⟨kept.pipe.trans own, by rw [same, kept.request]⟩
  · intro replied
    refine ⟨(kept.replied replied).resolve_right fun incoming => noReply incoming.2, kept.reply⟩

theorem nnReqOut_moved (sound : Sound req) (connected : req.xreq.pipe ≠ none)
    (out : nnReqOut release req = some (next, sending)) : Moved req next sending := by
  have soundNext : Sound next := by
    obtain ⟨_, _, same, soundOut⟩ := nnReqOut_sound sound connected release
    cases out.symm.trans same
    exact soundOut
  rw [nnReqOut] at out
  dsimp only at out
  split at out
  · rename_i delayed
    have moved := moved_of_handled soundNext (by simp [delayed]) out (by simp)
    exact ⟨moved.sound, moved.id, moved.request, moved.pipe, moved.sent, moved.replied,
      moved.passive⟩
  · cases out
    exact ⟨soundNext, rfl, rfl, fun _ own => own, by simp, fun replied => ⟨replied, rfl⟩,
      fun passive => ⟨passive, rfl⟩⟩

theorem nnReqCrecv_moved (sound : Sound req) {received : Received}
    (took : nnReqCrecv req = some (received, next)) : Moved req next none := by
  have soundNext : Sound next := by
    obtain ⟨_, _, same, soundRecv⟩ := nnReqCrecv_sound sound
    cases took.symm.trans same
    exact soundRecv
  rw [nnReqCrecv] at took
  have unchanged (same : next = req) : Moved req next none := by
    subst same
    exact ⟨soundNext, rfl, rfl, fun _ own => own, by simp, fun replied => ⟨replied, rfl⟩,
      fun passive => ⟨passive, rfl⟩⟩
  split at took
  · cases took
    exact unchanged rfl
  · split at took
    · cases took
      exact unchanged rfl
    · rename_i isDone
      have done : req.state = .done := by simpa using isDone
      rw [nnReqHandler_received (req.withReply (.held _)) done] at took
      cases took
      refine ⟨soundNext, rfl, rfl, fun _ own => own, by simp, ?_, fun _ => ⟨rfl, rfl⟩⟩
      rintro (state | state) <;> cases state

theorem nnReqRm_moved (sound : Sound req) {pipe : Nat} (own : req.xreq.pipe = some pipe)
    (removed : nnReqRm pipe req = some (next, sending)) : Moved req next sending := by
  have soundNext : Sound next := by
    obtain ⟨_, _, same, soundRm⟩ := nnReqRm_sound sound own
    cases removed.symm.trans same
    exact soundRm
  rw [nnReqRm] at removed
  split at removed
  · rename_i sentHere
    have active : req.state ≠ .passive := by
      intro passive
      have sentTo := sound.sentTo
      rw [sentHere, passive] at sentTo
      cases sentTo
    have moved := moved_of_handled soundNext (by exact active) removed (by simp)
    refine ⟨moved.sound, moved.id, moved.request, ?_, moved.sent, moved.replied,
      moved.passive⟩
    intro other here
    cases moved.pipe other here
  · cases removed
    exact ⟨soundNext, rfl, rfl, by simp [nnXreqRm], by simp, fun replied => ⟨replied, rfl⟩,
      fun passive => ⟨passive, rfl⟩⟩

theorem timedOut_moved (sound : Sound req) (running : req.task.timer = .active)
    (out : timedOut req = some (next, sending)) : Moved req next sending := by
  have soundNext : Sound next := by
    obtain ⟨_, _, same, soundOut⟩ := timedOut_sound sound running
    cases out.symm.trans same
    exact soundOut
  have active : req.state ≠ .passive := by
    intro passive
    have timer := sound.timer
    rw [running, passive] at timer
    cases timer
  exact moved_of_handled soundNext active out (by simp)

theorem timerStopped_moved (sound : Sound req) (stopping : req.task.timer = .stopping)
    (out : timerStopped release req = some (next, sending)) : Moved req next sending := by
  have soundNext : Sound next := by
    obtain ⟨_, _, same, soundOut⟩ := timerStopped_sound sound stopping release
    cases out.symm.trans same
    exact soundOut
  have active : req.state ≠ .passive := by
    intro passive
    have timer := sound.timer
    rw [stopping, passive] at timer
    cases timer
  rw [timerStopped] at out
  have moved := moved_of_handled soundNext (by exact active) out (by simp)
  exact ⟨moved.sound, moved.id, moved.request, moved.pipe, moved.sent, moved.replied,
    moved.passive⟩

/-- A new request: whatever reply there was is forgotten. -/
structure Renewed (req next : Req) (sending : Sending) (body : Bytes) : Prop where
  sound : Sound next
  id : next.task.id = req.task.id + 1
  request : next.task.request = ⟨nnPutl ((req.task.id + 1) ||| bottomBit), body⟩
  pipe : next.xreq.pipe = req.xreq.pipe
  sent : ∀ pipe wire, sending = some (pipe, wire) →
    next.xreq.pipe = some pipe ∧ wire = Msg.wire next.task.request
  unreplied : ¬ Replied next.state

theorem nnReqCsend_renewed (sound : Sound req) {body : Bytes}
    (sends : nnReqCsend release body req = some (next, sending)) :
    Renewed req next sending body := by
  have soundNext : Sound next := by
    obtain ⟨_, _, same, soundSend⟩ := nnReqCsend_sound sound release body
    cases sends.symm.trans same
    exact soundSend
  rw [nnReqCsend] at sends
  have kept := nnReqHandler_handled sends
  refine ⟨soundNext, kept.id, kept.request, kept.pipe, ?_, ?_⟩
  · intro pipe wire sent
    obtain ⟨own, same⟩ := kept.sent pipe wire sent
    exact ⟨kept.pipe.trans own, by rw [same, kept.request]⟩
  · unfold nnReqHandler at sends
    cases state : req.state with
    | passive => rw [state] at sends; exact (nnReqActionSend_handled sends).2
    | done => rw [state] at sends; exact (nnReqActionSend_handled sends).2
    | delayed => rw [state] at sends; cases sends; simp [Replied]
    | active => rw [state] at sends; cases sends; simp [Replied, Req.giveUp]
    | timedOut => rw [state] at sends; cases sends; simp [Replied]
    | cancelling => rw [state] at sends; cases sends; simp [Replied]
    | stoppingTimer => rw [state] at sends; cases sends; simp [Replied]
    | idle => exact absurd state sound.notIdle
    | stopping => exact absurd state sound.notStopping

/-! ## A socket that has yet to send -/

/-- 1 in the states from which the request is going to be sent. -/
def waits (req : Req) : Nat :=
  match req.state with
  | .delayed | .timedOut | .cancelling => 1
  | _ => 0

def puts (sending : Sending) : Nat := if sending = none then 0 else 1

/-- Sending it or waiting to: there is one request. -/
theorem nnReqActionSend_waits {allowDelay : Bool}
    (handled : nnReqActionSend allowDelay release req = some (next, sending)) :
    waits next + puts sending = 1 := by
  rw [nnReqActionSend] at handled
  split at handled
  · split at handled
    · cases handled
      rfl
    · cases handled
  · split at handled
    · cases handled
      rfl
    · cases handled

theorem nnReqOut_waits (out : nnReqOut release req = some (next, sending)) :
    waits next + puts sending ≤ waits req := by
  rw [nnReqOut] at out
  dsimp only at out
  split at out
  · rename_i delayed
    unfold nnReqHandler at out
    dsimp only at out
    rw [delayed] at out
    rw [nnReqActionSend_waits out, waits, delayed]
  · cases out
    exact le_rfl

theorem nnReqCrecv_waits {received : Received}
    (took : nnReqCrecv req = some (received, next)) : waits next ≤ waits req := by
  rw [nnReqCrecv] at took
  split at took
  · cases took
    exact le_rfl
  · split at took
    · cases took
      exact le_rfl
    · rename_i isDone
      have done : req.state = .done := by simpa using isDone
      rw [nnReqHandler_received (req.withReply (.held _)) done] at took
      cases took
      exact Nat.zero_le _

theorem timerStopped_waits (sound : Sound req) (stopping : req.task.timer = .stopping)
    (out : timerStopped release req = some (next, sending)) :
    waits next + puts sending ≤ waits req := by
  have timer := sound.timer
  rw [stopping] at timer
  rw [timerStopped] at out
  unfold nnReqHandler at out
  dsimp only at out
  cases state : req.state with
  | timedOut =>
      rw [state] at out
      rw [nnReqActionSend_waits out, waits, state]
  | cancelling =>
      rw [state] at out
      rw [nnReqActionSend_waits out, waits, state]
  | stoppingTimer =>
      rw [state] at out
      cases out
      exact Nat.zero_le _
  | _ => simp [state, timerOf] at timer

/-- A request that is given up is going to be sent once more. -/
theorem timedOut_waits (sound : Sound req) (running : req.task.timer = .active)
    (out : timedOut req = some (next, sending)) :
    waits next + puts sending ≤ waits req + 1 := by
  have active : req.state = .active := by
    have timer := sound.timer
    rw [running] at timer
    cases state : req.state <;> simp [state, timerOf] at timer ⊢
  rw [timedOut] at out
  unfold nnReqHandler at out
  rw [active] at out
  cases out
  exact Nat.le_add_left 1 _

theorem nnReqRm_waits (sound : Sound req) {pipe : Nat}
    (removed : nnReqRm pipe req = some (next, sending)) :
    waits next + puts sending ≤ waits req + 1 := by
  rw [nnReqRm] at removed
  split at removed
  · rename_i sentHere
    have active : req.state = .active := by
      by_contra inactive
      have sentTo := sound.sentTo
      rw [sentHere, if_neg inactive] at sentTo
      cases sentTo
    unfold nnReqHandler at removed
    dsimp only at removed
    rw [active] at removed
    cases removed
    exact Nat.le_add_left 1 _
  · cases removed
    exact Nat.le_succ _

theorem nnReqIn_waits (wires : List Bytes) {rest : List Bytes}
    (took : nnReqIn req wires = some (next, rest)) : waits next ≤ waits req := by
  induction wires generalizing req with
  | nil =>
      cases took
      exact le_rfl
  | cons wire wires inductionHypothesis =>
      have dropped (took : nnReqIn (req.withReply .terminated) wires = some (next, rest)) :
          waits next ≤ waits req :=
        @inductionHypothesis (req.withReply .terminated) took
      rw [nnReqIn] at took
      dsimp only at took
      split at took
      · cases took
        exact le_rfl
      · split at took
        · exact dropped took
        · split at took
          · exact dropped took
          · split at took
            · exact dropped took
            · split at took
              · exact dropped took
              · split at took
                · rename_i active
                  rw [nnReqHandler_replyIn (req.withReply (.held _)) active] at took
                  cases took
                  exact Nat.zero_le _
                · cases took
                  exact le_rfl

theorem nnReqCsend_waits (sound : Sound req) {body : Bytes}
    (sends : nnReqCsend release body req = some (next, sending)) :
    waits next + puts sending ≤ 1 := by
  rw [nnReqCsend] at sends
  unfold nnReqHandler at sends
  dsimp only at sends
  cases state : req.state with
  | passive => rw [state] at sends; exact (nnReqActionSend_waits sends).le
  | done => rw [state] at sends; exact (nnReqActionSend_waits sends).le
  | delayed => rw [state] at sends; cases sends; exact le_rfl
  | active => rw [state] at sends; cases sends; exact le_rfl
  | timedOut => rw [state] at sends; cases sends; exact le_rfl
  | cancelling => rw [state] at sends; cases sends; exact le_rfl
  | stoppingTimer => rw [state] at sends; cases sends; exact le_rfl
  | idle => exact absurd state sound.notIdle
  | stopping => exact absurd state sound.notStopping

end ChlorosSnfs.Nanomsg.ClientEnd
