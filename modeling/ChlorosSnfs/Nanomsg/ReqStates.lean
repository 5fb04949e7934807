import ChlorosSnfs.Nanomsg.ReqSocket

/-!
# What the REQ socket goes through

In every state the timer is where that state left it, and a request is with a pipe
exactly while the socket waits for its reply.  So no event comes that the state machine
does not expect, and no assertion fails.
-/

set_option autoImplicit false

namespace ChlorosSnfs.Nanomsg.ReqStates

open ChlorosSnfs.Nanomsg.Wire
open ChlorosSnfs.Nanomsg.ReqSocket

variable {req next : Req} {sending : Sending} {release : Bool}

/-! ## One event -/

/-- There is a reply for the user, or there will be when the timer has stopped. -/
def Replied (state : ReqState) : Prop := state = .stoppingTimer ∨ state = .done

instance (state : ReqState) : Decidable (Replied state) :=
  inferInstanceAs (Decidable (state = .stoppingTimer ∨ state = .done))

def Msg.wire (msg : Msg) : Bytes := msg.sphdr ++ msg.body

/-- What an event leaves alone, what it sends, and how there can be a reply after it. -/
structure Handled (req next : Req) (sending : Sending) (replies : Prop) : Prop where
  id : next.task.id = req.task.id
  request : next.task.request = req.task.request
  reply : next.task.reply = req.task.reply
  pipe : next.xreq.pipe = req.xreq.pipe
  sent : ∀ pipe wire, sending = some (pipe, wire) →
    req.xreq.pipe = some pipe ∧ wire = Msg.wire req.task.request
  replied : Replied next.state → Replied req.state ∨ replies

theorem nnReqActionSend_handled {allowDelay : Bool}
    (handled : nnReqActionSend allowDelay release req = some (next, sending)) :
    Handled req next sending False ∧ ¬ Replied next.state := by
  rw [nnReqActionSend, nnXreqSendTo] at handled
  cases connected : req.xreq.pipe with
  | none =>
      simp only [connected] at handled
      split at handled
      · cases handled
        exact ⟨⟨rfl, rfl, rfl, rfl, by simp, by simp [Replied]⟩, by simp [Replied]⟩
      · cases handled
  | some pipe =>
      simp only [connected] at handled
      split at handled
      · rename_i blocked
        split at blocked
        · cases blocked
        · split at handled
          · cases handled
            exact ⟨⟨rfl, rfl, rfl, rfl, by simp, by simp [Replied]⟩, by simp [Replied]⟩
          · cases handled
      · rename_i taken
        split at taken
        · cases taken
          split at handled
          · cases handled
            refine ⟨⟨rfl, rfl, rfl, connected.symm, ?_, by simp [Replied]⟩,
              by simp [Replied]⟩
            rintro _ _ ⟨⟩
            exact ⟨connected, rfl⟩
          · cases handled
        · cases taken

theorem handled_of_actionSend {allowDelay : Bool} {replies : Prop}
    (handled : nnReqActionSend allowDelay release req = some (next, sending)) :
    Handled req next sending replies := by
  obtain ⟨left, notReplied⟩ := nnReqActionSend_handled handled
  exact ⟨left.id, left.request, left.reply, left.pipe, left.sent,
    fun replied => absurd replied notReplied⟩

theorem handled_giveUp {state : ReqState} {replies : Prop}
    (replied : Replied state → replies) :
    Handled req (req.giveUp state) none replies :=
  ⟨rfl, rfl, rfl, rfl, by simp, fun now => Or.inr (replied now)⟩

theorem handled_state {state : ReqState} {replies : Prop}
    (replied : Replied state → Replied req.state) :
    Handled req { req with state } none replies :=
  ⟨rfl, rfl, rfl, rfl, by simp, fun now => Or.inl (replied now)⟩

theorem nnReqHandler_replyIn (req : Req) (active : req.state = .active) :
    nnReqHandler release req (.action .replyIn) = some (req.giveUp .stoppingTimer, none) := by
  unfold nnReqHandler
  rw [active]

theorem nnReqHandler_received (req : Req) (done : req.state = .done) :
    nnReqHandler release req (.action .received) =
      some ({ req with state := .passive }, none) := by
  unfold nnReqHandler
  rw [done]

theorem nnReqHandler_handled {event : Event}
    (handled : nnReqHandler release req event = some (next, sending)) :
    Handled req next sending (req.state = .active ∧ event = .action .replyIn) := by
  unfold nnReqHandler at handled
  split at handled
  case h_1 => cases handled; exact handled_state (by simp [Replied])
  case h_2 => exact handled_of_actionSend handled
  case h_3 => exact handled_of_actionSend handled
  case h_4 state => cases handled; exact handled_state (by simp [Replied])
  case h_5 state => cases handled; exact handled_giveUp fun _ => ⟨state, rfl⟩
  case h_6 => cases handled; exact handled_giveUp (by simp [Replied])
  case h_7 => cases handled; exact handled_giveUp (by simp [Replied])
  case h_8 => cases handled; exact handled_giveUp (by simp [Replied])
  case h_9 => exact handled_of_actionSend handled
  case h_10 => cases handled; exact handled_state (by simp [Replied])
  case h_11 => exact handled_of_actionSend handled
  case h_12 state => cases handled; exact handled_state (by simp [Replied])
  case h_13 state => cases handled; exact handled_state (by simp [Replied, state])
  case h_14 => cases handled; exact handled_state (by simp [Replied])
  case h_15 => cases handled; exact handled_state (by simp [Replied])
  case h_16 => exact handled_of_actionSend handled
  case h_17 => cases handled

/-! ## No event is unexpected -/

/-- Where a state leaves the timer. -/
def timerOf : ReqState → Timer
  | .active => .active
  | .timedOut | .cancelling | .stoppingTimer => .stopping
  | _ => .idle

structure Sound (req : Req) : Prop where
  notIdle : req.state ≠ .idle
  notStopping : req.state ≠ .stopping
  timer : req.task.timer = timerOf req.state
  sentTo : req.task.sentTo = if req.state = .active then req.xreq.pipe else none
  connected : req.state = .active → req.xreq.pipe ≠ none

theorem sound_nnReqInit (lastid : UInt32) : Sound (nnReqInit lastid) :=
  ⟨by simp [nnReqInit], by simp [nnReqInit], rfl, rfl, by simp [nnReqInit]⟩

/-- With the timer at rest a request can be sent, or wait. -/
theorem nnReqActionSend_sound {allowDelay : Bool} (timer : req.task.timer = .idle)
    (sentTo : req.task.sentTo = none)
    (sends : allowDelay = true ∨ nnXreqSendTo release req.xreq ≠ none) :
    ∃ next sending, nnReqActionSend allowDelay release req = some (next, sending) ∧
      Sound next := by
  cases sending : nnXreqSendTo release req.xreq with
  | none =>
      have delays : allowDelay = true := sends.resolve_right (by simp [sending])
      refine ⟨{ req with state := .delayed }, none, ?_, ?_⟩
      · simp [nnReqActionSend, sending, delays]
      · exact ⟨by simp, by simp, timer, sentTo, by simp⟩
  | some taken =>
      obtain ⟨pipe, xreq⟩ := taken
      have samePipe : xreq.pipe = some pipe := by
        rw [nnXreqSendTo] at sending
        split at sending
        · split at sending
          · cases sending
            rfl
          · cases sending
        · cases sending
      refine ⟨_, _, by simp only [nnReqActionSend, sending, timer, if_true]; rfl, ?_⟩
      exact ⟨by simp, by simp, rfl, samePipe.symm, fun _ => by simp [samePipe]⟩

theorem Sound.atRest (sound : Sound req) (rest : timerOf req.state = .idle) :
    req.task.timer = .idle ∧ req.task.sentTo = none := by
  refine ⟨sound.timer.trans rest, ?_⟩
  rw [sound.sentTo, if_neg]
  intro active
  rw [active] at rest
  cases rest

/-- A request that is given up. -/
theorem Sound.giveUp (sound : Sound req) (active : req.state = .active)
    {state : ReqState} (stops : timerOf state = .stopping) : Sound (req.giveUp state) := by
  have timer := sound.timer
  rw [active] at timer
  refine ⟨?_, ?_, ?_, ?_, ?_⟩
  · rintro rfl
    cases stops
  · rintro rfl
    cases stops
  · exact (congrArg Timer.stop timer).trans stops.symm
  · rw [if_neg]
    · rfl
    · rintro rfl
      cases stops
  · rintro rfl
    cases stops

theorem nnReqCsend_sound (sound : Sound req) (release : Bool) (body : Bytes) :
    ∃ next sending, nnReqCsend release body req = some (next, sending) ∧
      Sound next := by
  have timer := sound.timer
  have sentTo := sound.sentTo
  rw [nnReqCsend]
  unfold nnReqHandler
  cases state : req.state with
  | idle => exact absurd state sound.notIdle
  | stopping => exact absurd state sound.notStopping
  | passive =>
      obtain ⟨idle, free⟩ := sound.atRest (by rw [state]; rfl)
      exact nnReqActionSend_sound idle free (Or.inl rfl)
  | done =>
      obtain ⟨idle, free⟩ := sound.atRest (by rw [state]; rfl)
      exact nnReqActionSend_sound idle free (Or.inl rfl)
  | delayed =>
      rw [state] at timer sentTo
      exact ⟨_, _, rfl, by simp, by simp, timer, sentTo, by simp⟩
  | timedOut =>
      rw [state] at timer sentTo
      exact ⟨_, _, rfl, by simp, by simp, timer, sentTo, by simp⟩
  | cancelling =>
      rw [state] at timer sentTo
      exact ⟨_, _, rfl, by simp, by simp, timer, sentTo, by simp⟩
  | stoppingTimer =>
      rw [state] at timer sentTo
      exact ⟨_, _, rfl, by simp, by simp, timer, sentTo, by simp⟩
  | active =>
      have kept : Sound { req with task := { req.task with
          id := req.task.id + 1
          request := ⟨nnPutl ((req.task.id + 1) ||| bottomBit), body⟩ } } :=
        ⟨sound.notIdle, sound.notStopping, sound.timer, sound.sentTo, sound.connected⟩
      exact ⟨_, _, rfl, kept.giveUp state rfl⟩

theorem Sound.withReply (sound : Sound req) (reply : Slot) :
    Sound (req.withReply reply) :=
  ⟨sound.notIdle, sound.notStopping, sound.timer, sound.sentTo, sound.connected⟩

theorem nnReqIn_sound (sound : Sound req) (wires : List Bytes) :
    ∃ next rest, nnReqIn req wires = some (next, rest) ∧ Sound next := by
  induction wires generalizing req with
  | nil => exact ⟨req, [], rfl, sound⟩
  | cons wire rest inductionHypothesis =>
      have dropped := inductionHypothesis (sound.withReply .terminated)
      rw [nnReqIn]
      dsimp only
      split
      · exact ⟨_, _, rfl, sound.withReply _⟩
      · rename_i msg _
        split
        · exact dropped
        · split
          · exact dropped
          · split
            · exact dropped
            · split
              · exact dropped
              · have taken := sound.withReply (.held { msg with sphdr := [] })
                split
                · rename_i active
                  rw [nnReqHandler_replyIn (req.withReply (.held _)) active]
                  exact ⟨_, _, rfl, taken.giveUp active rfl⟩
                · exact ⟨_, _, rfl, taken⟩

theorem nnReqOut_sound (sound : Sound req) (connected : req.xreq.pipe ≠ none)
    (release : Bool) :
    ∃ next sending, nnReqOut release req = some (next, sending) ∧ Sound next := by
  have opened : Sound { req with xreq := nnXreqOut req.xreq } :=
    ⟨sound.notIdle, sound.notStopping, sound.timer, sound.sentTo, sound.connected⟩
  rw [nnReqOut]
  dsimp only
  split
  · rename_i delayed
    obtain ⟨idle, free⟩ := opened.atRest (by rw [delayed]; rfl)
    obtain ⟨pipe, here⟩ := Option.ne_none_iff_exists'.mp connected
    unfold nnReqHandler
    dsimp only
    rw [delayed]
    exact nnReqActionSend_sound idle free
      (Or.inr (by simp [nnXreqSendTo, nnXreqOut, here]))
  · exact ⟨_, _, rfl, opened⟩

theorem nnReqCrecv_sound (sound : Sound req) :
    ∃ received next, nnReqCrecv req = some (received, next) ∧ Sound next := by
  rw [nnReqCrecv]
  split
  · exact ⟨_, _, rfl, sound⟩
  · split
    · exact ⟨_, _, rfl, sound⟩
    · rename_i isDone
      have done : req.state = .done := by simpa using isDone
      obtain ⟨idle, free⟩ := sound.atRest (by rw [done]; rfl)
      rw [nnReqHandler_received (req.withReply (.held _)) done]
      exact ⟨_, _, rfl, by simp, by simp, idle, free, by simp⟩

/-- Nothing but the pipe a request was sent to is missed. -/
theorem nnReqRm_sound (sound : Sound req) {pipe : Nat} (own : req.xreq.pipe = some pipe) :
    ∃ next sending, nnReqRm pipe req = some (next, sending) ∧ Sound next := by
  have sentTo := sound.sentTo
  rw [nnReqRm]
  by_cases active : req.state = .active
  · rw [if_pos active, own] at sentTo
    have timer := sound.timer
    rw [active] at timer
    simp only [sentTo, if_true]
    unfold nnReqHandler
    simp only [active]
    refine ⟨_, _, rfl, by simp [Req.giveUp], by simp [Req.giveUp], ?_, rfl, by simp [Req.giveUp]⟩
    exact congrArg Timer.stop timer
  · rw [if_neg active] at sentTo
    simp only [sentTo, reduceCtorEq, if_false]
    refine ⟨_, _, rfl, sound.notIdle, sound.notStopping, sound.timer, ?_, ?_⟩
    · simp [sentTo, active]
    · exact fun now => absurd now active

theorem nnReqAdd_sound (sound : Sound req) (free : req.xreq.pipe = none) (pipe : Nat) :
    Sound (nnReqAdd pipe req) := by
  have inactive : req.state ≠ .active := fun active => sound.connected active free
  have sentTo := sound.sentTo
  rw [if_neg inactive] at sentTo
  exact ⟨sound.notIdle, sound.notStopping, sound.timer, by simp [nnReqAdd, sentTo, inactive],
    fun active => absurd active inactive⟩

theorem timedOut_sound (sound : Sound req) (running : req.task.timer = .active) :
    ∃ next sending, timedOut req = some (next, sending) ∧ Sound next := by
  have active : req.state = .active := by
    have timer := sound.timer
    rw [running] at timer
    cases state : req.state <;> simp [state, timerOf] at timer ⊢
  rw [timedOut]
  unfold nnReqHandler
  rw [active]
  exact ⟨_, _, rfl, sound.giveUp active rfl⟩

theorem timerStopped_sound (sound : Sound req) (stopping : req.task.timer = .stopping)
    (release : Bool) :
    ∃ next sending, timerStopped release req = some (next, sending) ∧ Sound next := by
  have timer := sound.timer
  have sentTo := sound.sentTo
  rw [stopping] at timer
  rw [timerStopped]
  unfold nnReqHandler
  dsimp only
  cases state : req.state with
  | timedOut =>
      rw [if_neg (by simp [state])] at sentTo
      exact nnReqActionSend_sound rfl sentTo (Or.inl rfl)
  | cancelling =>
      rw [if_neg (by simp [state])] at sentTo
      exact nnReqActionSend_sound rfl sentTo (Or.inl rfl)
  | stoppingTimer =>
      rw [if_neg (by simp [state])] at sentTo
      exact ⟨_, _, rfl, by simp, by simp, rfl, sentTo, by simp⟩
  | _ => simp [state, timerOf] at timer

end ChlorosSnfs.Nanomsg.ReqStates
