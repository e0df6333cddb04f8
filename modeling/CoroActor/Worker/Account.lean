import CoroActor.Worker.Scheduling
import Mathlib.Data.List.Nodup

/-! The messages of one channel, that is, of one client or of the link to the proxy, from the queue to the
answers. As long as the channel is open, every message that was taken was handed to its service, and every
service that was left was answered; once it is closed nothing changes any more but for the messages that are
still taken and dropped. -/

namespace CoroActor.Worker

open TransitionSystem

/-- Where a message comes from and where its answer goes: a client, or the proxy. -/
abbrev Channel := Option TcpConn

namespace History

variable (h : History)

/-- The messages of a channel, in the order in which they were pushed. -/
def pushedOn (χ : Channel) : List CoroActorMsg := h.pushed.filter fun msg => msg.socket = χ

def takenOn (χ : Channel) : List CoroActorMsg := h.taken.filter fun msg => msg.socket = χ

/-- The calls of `func` for messages of a channel. -/
def callsOn (χ : Channel) : List Nat := (List.range h.ninv).filter fun j => (h.message j).socket = χ

/-- What has been answered on a channel, oldest first. -/
def answersOn : Channel → List CoroActorPack
  | some k => h.replies k
  | none => h.responses.map CoroActorResponse.responsePack

/-- The calls `done` were answered, in this order, and at most one more is left over: it is still served, or
it was not answered. -/
structure Account (χ : Channel) (isOpen : Bool) (serving : Option CoroActorMsg) (done rest : List Nat) :
    Prop where
  calls : h.callsOn χ = done ++ rest
  answers : h.answersOn χ = done.map h.produced
  done : ∀ j ∈ done, h.completed j = true ∧ h.failed j = false
  taken : (h.callsOn χ).map h.message <+: h.takenOn χ
  opened : isOpen = true → (h.callsOn χ).map h.message = h.takenOn χ
  leftOver : rest = [] ∨ ∃ j, rest = [j] ∧
    (isOpen = false ∨ h.ninv = j + 1 ∧ ∃ msg, serving = some msg ∧ msg.socket = χ)
  served : ∀ msg, serving = some msg → msg.socket = χ → ∃ j, h.ninv = j + 1 ∧ rest = [j]

variable {h} {χ : Channel} {isOpen : Bool} {serving : Option CoroActorMsg} {done rest : List Nat}
  {msg : CoroActorMsg} {respPack : CoroActorPack}

theorem callsOn_lt {j : Nat} (hj : j ∈ h.callsOn χ) : j < h.ninv :=
  List.mem_range.mp (List.mem_filter.mp hj).1

theorem takenOn_take : (h.take msg).takenOn χ =
    h.takenOn χ ++ if msg.socket = χ then [msg] else [] := by
  rw [takenOn, take_taken, List.filter_append, takenOn]
  congr 1
  split
  · next hs => simp [hs]
  · next hs => simp [hs]

theorem callsOn_invoke : (h.invoke msg respPack).callsOn χ =
    h.callsOn χ ++ if msg.socket = χ then [h.ninv] else [] := by
  have hold : (List.range h.ninv).filter (fun j => ((h.invoke msg respPack).message j).socket = χ) =
      h.callsOn χ := by
    refine List.filter_congr fun j hj => ?_
    rw [invoke_message, Function.update_of_ne (List.mem_range.mp hj).ne]
  rw [callsOn, invoke_ninv, List.range_succ, List.filter_append, hold]
  congr 1
  split
  · next hs => simp [hs]
  · next hs => simp [hs]

theorem messages_invoke : (h.callsOn χ).map (h.invoke msg respPack).message = (h.callsOn χ).map h.message := by
  refine List.map_congr_left fun j hj => ?_
  rw [invoke_message, Function.update_of_ne (callsOn_lt hj).ne]

namespace Account

theorem lt (ha : h.Account χ isOpen serving done rest) {j : Nat} (hj : j ∈ done ++ rest) : j < h.ninv := by
  rw [← ha.calls] at hj
  exact callsOn_lt hj

theorem congr (ha : h.Account χ isOpen serving done rest) {h' : History} (htaken : h'.taken = h.taken)
    (hninv : h'.ninv = h.ninv) (hmessage : h'.message = h.message) (hanswers : h'.answersOn χ = h.answersOn χ)
    (hkept : ∀ j < h.ninv, h.completed j = true →
      h'.completed j = true ∧ h'.produced j = h.produced j ∧ h'.failed j = h.failed j) :
    h'.Account χ isOpen serving done rest := by
  have hcalls : h'.callsOn χ = h.callsOn χ := by rw [callsOn, callsOn, hninv, hmessage]
  have htakenOn : h'.takenOn χ = h.takenOn χ := by rw [takenOn, takenOn, htaken]
  have hdone : ∀ j ∈ done, h'.completed j = true ∧ h'.produced j = h.produced j ∧ h'.failed j = h.failed j :=
    fun j hj => hkept j (ha.lt (List.mem_append_left _ hj)) (ha.done j hj).1
  constructor
  · rw [hcalls, ha.calls]
  · rw [hanswers, ha.answers]
    exact List.map_congr_left fun j hj => (hdone j hj).2.1.symm
  · intro j hj
    exact ⟨(hdone j hj).1, (hdone j hj).2.2.trans (ha.done j hj).2⟩
  · rw [hcalls, hmessage, htakenOn]
    exact ha.taken
  · rw [hcalls, hmessage, htakenOn]
    exact ha.opened
  · rw [hninv]
    exact ha.leftOver
  · rw [hninv]
    exact ha.served

/-- What is set for a call that is not complete does not matter to the channel. -/
theorem congr_of_ne (ha : h.Account χ isOpen serving done rest) {h' : History} (htaken : h'.taken = h.taken)
    (hninv : h'.ninv = h.ninv) (hmessage : h'.message = h.message) (hanswers : h'.answersOn χ = h.answersOn χ)
    (hc : h.completed j = false) (hother : ∀ i, i ≠ j →
      h'.completed i = h.completed i ∧ h'.produced i = h.produced i ∧ h'.failed i = h.failed i) :
    h'.Account χ isOpen serving done rest := by
  refine ha.congr htaken hninv hmessage hanswers fun i _ hci => ?_
  have hij : i ≠ j := by
    rintro rfl
    rw [hc] at hci
    cases hci
  obtain ⟨hcompleted, hproduced, hfailed⟩ := hother i hij
  exact ⟨hcompleted.trans hci, hproduced, hfailed⟩

theorem close (ha : h.Account χ isOpen serving done rest) : h.Account χ false serving done rest where
  calls := ha.calls
  answers := ha.answers
  done := ha.done
  taken := ha.taken
  opened := nofun
  leftOver := ha.leftOver.imp_right fun ⟨j, hj, _⟩ => ⟨j, hj, Or.inl rfl⟩
  served := ha.served

/-- Between two messages the calls of an open channel are those that were answered. -/
theorem rest_eq_nil (ha : h.Account χ true serving done rest)
    (hserving : ∀ msg, serving = some msg → msg.socket ≠ χ) : rest = [] := by
  rcases ha.leftOver with hnil | ⟨j, -, hclosed | ⟨-, msg, hmsg, hsocket⟩⟩
  · exact hnil
  · cases hclosed
  · exact absurd hsocket (hserving msg hmsg)

/-- A message is taken and dropped: it is of another channel, or the channel is closed. -/
theorem skip (ha : h.Account χ isOpen serving done rest) (hskip : msg.socket = χ → isOpen = false) :
    (h.take msg).Account χ isOpen serving done rest where
  calls := ha.calls
  answers := ha.answers
  done := ha.done
  taken := by
    rw [takenOn_take]
    exact ha.taken.trans (List.prefix_append _ _)
  opened hopen := by
    have hother : msg.socket ≠ χ := fun hs => by
      rw [hskip hs] at hopen
      cases hopen
    rw [takenOn_take, if_neg hother, List.append_nil]
    exact ha.opened hopen
  leftOver := ha.leftOver
  served := ha.served

theorem invoke_answers : (h.invoke msg respPack).answersOn χ = h.answersOn χ := by
  cases χ <;> rfl

theorem answers_invoke (ha : h.Account χ isOpen serving done rest) :
    (h.invoke msg respPack).answersOn χ = done.map (h.invoke msg respPack).produced ∧
      ∀ j ∈ done, (h.invoke msg respPack).completed j = true ∧ (h.invoke msg respPack).failed j = false := by
  have hne : ∀ j ∈ done, j ≠ h.ninv := fun j hj => (ha.lt (List.mem_append_left _ hj)).ne
  constructor
  · rw [invoke_answers, ha.answers]
    refine List.map_congr_left fun j hj => ?_
    rw [invoke_produced, Function.update_of_ne (hne j hj)]
  · intro j hj
    rw [invoke_completed, invoke_failed, Function.update_of_ne (hne j hj), Function.update_of_ne (hne j hj)]
    exact ha.done j hj

/-- A message of an open channel is handed to its service. -/
theorem start (ha : h.Account χ true none done rest) (respPack : CoroActorPack) (hsocket : msg.socket = χ) :
    ((h.take msg).invoke msg respPack).Account χ true (some msg) done [h.ninv] := by
  obtain rfl := ha.rest_eq_nil nofun
  have ha' : (h.take msg).Account χ false none done [] := ha.close.skip fun _ => rfl
  have hcalls : ((h.take msg).invoke msg respPack).callsOn χ = h.callsOn χ ++ [h.ninv] := by
    rw [callsOn_invoke, if_pos hsocket]
    rfl
  have hmessages : (h.callsOn χ ++ [h.ninv]).map ((h.take msg).invoke msg respPack).message =
      ((h.take msg).invoke msg respPack).takenOn χ := by
    rw [List.map_append, List.map_singleton]
    show (h.callsOn χ).map (h.invoke msg respPack).message ++ [Function.update h.message h.ninv msg h.ninv] =
      (h.take msg).takenOn χ
    rw [messages_invoke, takenOn_take, if_pos hsocket, ha.opened rfl, Function.update_self]
  constructor
  · rw [hcalls, ha.calls, List.append_nil]
  · exact ha'.answers_invoke.1
  · exact ha'.answers_invoke.2
  · rw [hcalls]
    exact hmessages ▸ List.prefix_rfl
  · intro _
    rw [hcalls, hmessages]
  · exact Or.inr ⟨h.ninv, rfl, Or.inr ⟨rfl, msg, rfl, hsocket⟩⟩
  · intro _ _ _
    exact ⟨h.ninv, rfl, rfl⟩

theorem startOther (ha : h.Account χ isOpen none done rest) (hsocket : msg.socket ≠ χ) :
    ((h.take msg).invoke msg respPack).Account χ isOpen (some msg) done rest := by
  have ha' : (h.take msg).Account χ isOpen none done rest := ha.skip fun hs => absurd hs hsocket
  have hcalls : ((h.take msg).invoke msg respPack).callsOn χ = (h.take msg).callsOn χ := by
    rw [callsOn_invoke, if_neg hsocket, List.append_nil]
  have hmessages : ((h.take msg).callsOn χ).map ((h.take msg).invoke msg respPack).message =
      ((h.take msg).callsOn χ).map (h.take msg).message := messages_invoke
  constructor
  · rw [hcalls, ha'.calls]
  · exact ha'.answers_invoke.1
  · exact ha'.answers_invoke.2
  · rw [hcalls, hmessages]
    exact ha'.taken
  · rw [hcalls, hmessages]
    exact ha'.opened
  · refine ha'.leftOver.imp_right fun ⟨j, hj, hcase⟩ => ⟨j, hj, hcase.imp_right ?_⟩
    rintro ⟨-, msg', hmsg', -⟩
    cases hmsg'
  · rintro msg' ⟨⟩ hs
    exact absurd hs hsocket

theorem leaveOther (ha : h.Account χ isOpen (some msg) done rest) (hsocket : msg.socket ≠ χ) :
    h.Account χ isOpen none done rest where
  calls := ha.calls
  answers := ha.answers
  done := ha.done
  taken := ha.taken
  opened := ha.opened
  leftOver := by
    refine ha.leftOver.imp_right fun ⟨j, hj, hcase⟩ => ⟨j, hj, hcase.imp_right ?_⟩
    rintro ⟨-, msg', ⟨⟩, hs⟩
    exact absurd hs hsocket
  served := nofun

/-- The service is left without an answer: the channel is closed. -/
theorem abandon (ha : h.Account χ false serving done rest) : h.Account χ false none done rest where
  calls := ha.calls
  answers := ha.answers
  done := ha.done
  taken := ha.taken
  opened := nofun
  leftOver := ha.leftOver.imp_right fun ⟨j, hj, _⟩ => ⟨j, hj, Or.inl rfl⟩
  served := nofun

/-- The service is left with its answer. -/
theorem answer (ha : h.Account χ true (some msg) done rest) (hsocket : msg.socket = χ) {h' : History} {j : Nat}
    (hj : h.ninv = j + 1) (hcompleted : h.completed j = true) (hfailed : h.failed j = false)
    (hanswers : h'.answersOn χ = h.answersOn χ ++ [h.produced j]) (hh : h' = { h with
      replies := h'.replies
      responses := h'.responses }) : h'.Account χ true none (done ++ [j]) [] := by
  obtain ⟨i, hi, rfl⟩ := ha.served msg rfl hsocket
  obtain rfl : j = i := Nat.succ.inj (hj.symm.trans hi)
  rw [hh] at hanswers ⊢
  constructor
  · rw [List.append_nil]
    exact ha.calls
  · rw [List.map_append, List.map_singleton, ← ha.answers]
    exact hanswers
  · intro i hi
    rcases List.mem_append.mp hi with hold | hnew
    · exact ha.done i hold
    · rw [List.mem_singleton.mp hnew]
      exact ⟨hcompleted, hfailed⟩
  · exact ha.taken
  · exact ha.opened
  · exact Or.inl rfl
  · exact nofun

end Account

end History

/-- `send` has returned. -/
def SendPc.over : SendPc → Bool
  | .returned _ => true
  | .write | .wait => false

/-- Every `send` of a service has returned by the time it calls `notify_complete`. -/
def SendsOver (s : Sys) : Label → Prop
  | .complete j => ∀ i < s.nsend, (s.sends i).service = j → (s.sends i).pc.over = true
  | _ => True

/-- `notify_complete` is the last thing that a service does. -/
def LastRule (s : Sys) (l : Label) : Prop := Rule s l ∧ SendsOver s l

instance (s : Sys) : (l : Label) → Decidable (SendsOver s l)
  | .complete j => inferInstanceAs (Decidable (∀ i < s.nsend, (s.sends i).service = j → _ = true))
  | .run _ | .funcReturn | .messageNotified | .serviceNotified | .replied | .accept | .remote ..
  | .remoteError _ | .request _ | .response _ | .other _ | .internalError | .send .. | .respond .. | .wentOut _
  | .written .. | .responded _ => inferInstanceAs (Decidable True)

instance (s : Sys) (l : Label) : Decidable (LastRule s l) := inferInstanceAs (Decidable (_ ∧ _))

namespace Sys

/-- The channel is open. Undefined behaviour ends the exchange with the proxy. -/
def isOpen (s : Sys) : Channel → Bool
  | some k => s.tcpOpen k
  | none => s.unixOpen && !s.fault

/-- The invariant of the channels. -/
structure Accounted (s : Sys) : Prop where
  formed : ∀ msg ∈ s.history.pushed, msg.unixSocket = msg.socket.isNone ∧ ∀ k ∈ msg.socket, k < s.nconn
  sessions : ∀ k, s.session k = true → k < s.nconn
  sending : ∀ i < s.nsend, (s.sends i).pc.over = false →
    (s.sends i).service < s.history.ninv ∧ s.history.completed (s.sends i).service = false
  quiet : s.pc.phase.served = none → s.ctx.errorMsg = []
  current : ∀ msg j, s.pc.phase.served = some msg → s.history.ninv = j + 1 →
    (s.ctx.errorMsg ≠ [] ↔ s.history.failed j = true) ∧ s.respPack = s.history.produced j
  account : ∀ χ, ∃ done rest, s.history.Account χ (s.isOpen χ) s.pc.phase.served done rest

variable {cfg : Setting} {s t : Sys} {l : Label} {msg : CoroActorMsg} {χ : Channel} {j : Nat}

theorem accounted_init (cfg : Setting) : Accounted (Sys.init cfg) where
  formed _ hmsg := absurd hmsg List.not_mem_nil
  sessions _ hk := by cases hk
  sending _ hi := absurd hi (Nat.not_lt_zero _)
  quiet _ := rfl
  current _ _ hmsg := by cases hmsg
  account χ := ⟨[], [], rfl, by cases χ <;> rfl, nofun, List.prefix_rfl, fun _ => rfl, Or.inl rfl, nofun⟩

theorem step_sane (h : s.step cfg l = some t) : s.fault = false := by
  by_contra hne
  rw [Bool.not_eq_false] at hne
  cases l with
  | funcReturn | serviceNotified => cases hpc : s.pc <;> simp [step, hpc, Ready, hne] at h
  | _ => simp [step, Ready, Serving, hne] at h

/-- What the rest of the pass does to the channels: nothing to the others; its own is closed without an
answer, or gets the answer. -/
theorem finish_channels (s : Sys) (msg : CoroActorMsg) (hformed : msg.unixSocket = msg.socket.isNone)
    (hsane : s.fault = false) :
    (∀ χ, χ ≠ msg.socket → (s.finish msg).isOpen χ = s.isOpen χ ∧
      (s.finish msg).history.answersOn χ = s.history.answersOn χ) ∧
    ((s.finish msg).isOpen msg.socket = false ∧
        (s.finish msg).history.answersOn msg.socket = s.history.answersOn msg.socket ∨
      s.isOpen msg.socket = true ∧ (s.finish msg).isOpen msg.socket = true ∧ s.ctx.errorMsg = [] ∧
        (s.finish msg).history.answersOn msg.socket = s.history.answersOn msg.socket ++ [s.respPack]) ∧
    (s.ctx.errorMsg ≠ [] → (s.finish msg).isOpen msg.socket = false) := by
  unfold finish
  by_cases herr : s.ctx.errorMsg = []
  · rw [if_neg (not_not.mpr herr)]
    cases hsocket : msg.socket with
    | some k =>
        refine ⟨fun χ hχ => ?_, ?_, fun hne => absurd herr hne⟩
        · cases χ with
          | none => exact ⟨rfl, by dsimp only; split <;> rfl⟩
          | some k' =>
              have hne : k' ≠ k := fun heq => hχ (by rw [heq])
              refine ⟨rfl, ?_⟩
              dsimp only
              split
              · simp [History.answersOn, Function.update_of_ne hne]
              · rfl
        · cases hopen : s.tcpOpen k with
          | true => exact Or.inr ⟨hopen, hopen, herr, by simp [History.answersOn, hopen]⟩
          | false => exact Or.inl ⟨hopen, by simp [hopen]⟩
    | none =>
        have hunix : msg.unixSocket = true := by rw [hformed, hsocket]; rfl
        simp only [hunix, if_true]
        refine ⟨fun χ hχ => ?_, ?_, fun hne => absurd herr hne⟩
        · cases χ with
          | none => exact absurd rfl hχ
          | some k => exact ⟨rfl, by split <;> rfl⟩
        · cases hopen : s.unixOpen with
          | true => exact Or.inr ⟨by simp [isOpen, hopen, hsane], by simp [isOpen, hopen, hsane], herr,
              by simp [History.answersOn]⟩
          | false => exact Or.inl ⟨by simp [isOpen, hopen], by simp⟩
  · rw [if_pos herr]
    have hclosed : ((((s.setCtx { s.ctx with errorMsg := [] } s.history).closeTcp msg.socket).closeUnix
        msg.unixSocket).setPc .loop).isOpen msg.socket = false := by
      cases hsocket : msg.socket with
      | some k => simp [isOpen]
      | none => simp [isOpen, hformed, hsocket]
    refine ⟨fun χ hχ => ⟨?_, by cases χ <;> rfl⟩, Or.inl ⟨hclosed, by cases msg.socket <;> rfl⟩, fun _ => hclosed⟩
    cases hsocket : msg.socket with
    | some k =>
        rw [hsocket] at hχ
        cases χ with
        | none => simp [isOpen, hformed, hsocket]
        | some k' =>
            have hne : k' ≠ k := fun heq => hχ (by rw [heq])
            simp [isOpen, Function.update_of_ne hne]
    | none =>
        rw [hsocket] at hχ
        cases χ with
        | none => exact absurd rfl hχ
        | some k => rfl

theorem finish_errorMsg (s : Sys) (msg : CoroActorMsg) : (s.finish msg).ctx.errorMsg = [] := by
  unfold finish
  split
  · rfl
  · next herr =>
      rw [not_not] at herr
      split
      · exact herr
      · split
        · exact herr
        · exact herr

theorem finish_history (s : Sys) (msg : CoroActorMsg) : (s.finish msg).history =
    { s.history with
      replies := (s.finish msg).history.replies
      responses := (s.finish msg).history.responses } :=
  s.finish_kept (P := fun t => t.history =
    { s.history with replies := t.history.replies, responses := t.history.responses }) msg
    fun _ _ _ _ _ _ _ => rfl

theorem finish_served (s : Sys) (msg : CoroActorMsg) : (s.finish msg).pc.phase.served = none :=
  s.finish_kept (P := fun t => t.pc.phase.served = none) msg fun _ _ _ _ _ _ hpc => by
    rcases hpc with rfl | rfl <;> rfl

/-- The pass is over: its message was answered, or its channel is closed. -/
theorem Accounted.finish (ha : Accounted s) (hsane : s.fault = false)
    (hserved : s.pc.phase.served = some msg) (hpushed : msg ∈ s.history.pushed) (hj : s.history.ninv = j + 1)
    (hcompleted : ∀ i < s.history.ninv, s.history.completed i = true) : Accounted (s.finish msg) := by
  obtain ⟨hothers, hown, -⟩ := s.finish_channels msg (ha.formed msg hpushed).1 hsane
  have hhist := s.finish_history msg
  have hsame : (s.finish msg).nconn = s.nconn ∧ (s.finish msg).session = s.session ∧
      (s.finish msg).nsend = s.nsend ∧ (s.finish msg).sends = s.sends ∧ (s.finish msg).respPack = s.respPack :=
    s.finish_kept (P := fun t => t.nconn = s.nconn ∧ t.session = s.session ∧ t.nsend = s.nsend ∧
      t.sends = s.sends ∧ t.respPack = s.respPack) msg fun _ _ _ _ _ _ _ => ⟨rfl, rfl, rfl, rfl, rfl⟩
  obtain ⟨hnconn, hsession, hnsend, hsends, -⟩ := hsame
  have hcongr : ∀ {χ isOpen done rest}, s.history.Account χ isOpen none done rest →
      (s.finish msg).history.answersOn χ = s.history.answersOn χ →
      (s.finish msg).history.Account χ isOpen none done rest := by
    intro χ isOpen done rest h hanswers
    refine h.congr ?_ ?_ ?_ hanswers fun i hi hc => ?_
    all_goals rw [hhist]
    exact ⟨hc, rfl, rfl⟩
  constructor
  · rw [hhist, hnconn]
    exact ha.formed
  · rw [hsession, hnconn]
    exact ha.sessions
  · rw [hhist, hnsend, hsends]
    exact ha.sending
  · exact fun _ => s.finish_errorMsg msg
  · intro msg' i hmsg'
    rw [s.finish_served msg] at hmsg'
    cases hmsg'
  · intro χ
    rw [s.finish_served msg]
    obtain ⟨done, rest, hacc⟩ := ha.account χ
    by_cases hχ : χ = msg.socket
    · subst hχ
      rcases hown with ⟨hclosed, hanswers⟩ | ⟨hopen, hopen', herr, hanswers⟩
      · rw [hclosed]
        exact ⟨done, rest, hcongr hacc.close.abandon hanswers⟩
      · obtain ⟨hfailed, hpack⟩ := ha.current msg j hserved hj
        rw [hopen, hserved] at hacc
        rw [hopen']
        refine ⟨done ++ [j], [], hacc.answer rfl hj (hcompleted j (by omega)) ?_ ?_ hhist⟩
        · by_contra hf
          rw [Bool.not_eq_false] at hf
          exact hfailed.mpr hf herr
        · rw [hanswers, hpack]
    · obtain ⟨hopen, hanswers⟩ := hothers χ hχ
      rw [hopen]
      rw [hserved] at hacc
      exact ⟨done, rest, hcongr (hacc.leaveOther (Ne.symm hχ)) hanswers⟩

theorem Accounted.frame (ha : Accounted s) (hserved : t.pc.phase.served = s.pc.phase.served)
    (herr : t.ctx.errorMsg = s.ctx.errorMsg) (hpack : t.respPack = s.respPack) (hnconn : t.nconn = s.nconn)
    (hsession : t.session = s.session) (hopen : ∀ χ, t.isOpen χ = s.isOpen χ)
    (hsends : ∀ i < t.nsend, (t.sends i).pc.over = false → i < s.nsend ∧ (s.sends i).pc.over = false ∧
      (t.sends i).service = (s.sends i).service)
    (hhist : t.history = { s.history with
      generated := t.history.generated
      requested := t.history.requested
      answer := t.history.answer }) : Accounted t := by
  have hcongr : ∀ {χ isOpen serving done rest}, s.history.Account χ isOpen serving done rest →
      t.history.Account χ isOpen serving done rest := by
    intro χ isOpen serving done rest h
    rw [hhist]
    exact h.congr rfl rfl rfl (by cases χ <;> rfl) fun i hi hc => ⟨hc, rfl, rfl⟩
  constructor
  · rw [hhist, hnconn]
    exact ha.formed
  · rw [hsession, hnconn]
    exact ha.sessions
  · intro i hi hover
    obtain ⟨hi', hover', hservice⟩ := hsends i hi hover
    rw [hhist, hservice]
    exact ha.sending i hi' hover'
  · rw [hserved, herr]
    exact ha.quiet
  · rw [hserved, herr, hpack, hhist]
    exact ha.current
  · intro χ
    obtain ⟨done, rest, hacc⟩ := ha.account χ
    rw [hserved, hopen]
    exact ⟨done, rest, hcongr hacc⟩

/-- The message at the front of the queue is dropped: its channel is closed, at the latest now. -/
theorem Accounted.drop (ha : Accounted s) (hserved : s.pc.phase.served = none) (hpc : t.pc = s.pc)
    (herr : t.ctx.errorMsg = s.ctx.errorMsg)
    (hsame : t.nconn = s.nconn ∧ t.session = s.session ∧ t.nsend = s.nsend ∧ t.sends = s.sends)
    (hclosed : t.isOpen msg.socket = false) (hopen : ∀ χ, t.isOpen χ = true → s.isOpen χ = true)
    (hhist : t.history = s.history.take msg) : Accounted t := by
  obtain ⟨hnconn, hsession, hnsend, hsends⟩ := hsame
  constructor
  · rw [hhist, hnconn]
    exact ha.formed
  · rw [hsession, hnconn]
    exact ha.sessions
  · rw [hhist, hnsend, hsends]
    exact ha.sending
  · rw [hpc, herr]
    exact ha.quiet
  · intro msg' j hmsg'
    rw [hpc, hserved] at hmsg'
    cases hmsg'
  · intro χ
    rw [hpc, hhist]
    obtain ⟨done, rest, hacc⟩ := ha.account χ
    cases ht : t.isOpen χ with
    | true =>
        rw [hopen χ ht] at hacc
        refine ⟨done, rest, hacc.skip fun hs => ?_⟩
        rw [hs, ht] at hclosed
        cases hclosed
    | false => exact ⟨done, rest, hacc.close.skip fun _ => rfl⟩

theorem current_of_running (hs : s.server.Sound) (hj : j < s.history.ninv)
    (hc : s.history.completed j = false) : s.history.ninv = j + 1 ∧ ∃ msg, s.pc.phase.served = some msg := by
  rw [← started_length] at hj ⊢
  obtain ⟨hlast, hserved⟩ := hs.serial j hj hc
  exact ⟨hlast.symm, Option.ne_none_iff_exists'.mp hserved⟩

/-- The message that is served was pushed, and the calls of `func` are numbered up to its own. -/
theorem serving_message (hs : s.server.Sound) (hserved : s.pc.phase.served = some msg) :
    msg ∈ s.history.pushed ∧ ∃ j, s.history.ninv = j + 1 := by
  obtain ⟨j, hlen, hmsg, -⟩ := hs.current msg hserved
  rw [started_length] at hlen
  refine ⟨?_, j, hlen⟩
  have hmem : msg ∈ s.server.started := List.mem_of_getElem? hmsg
  rw [show s.history.pushed = s.history.taken ++ s.ctx.msgQueue from hs.fifo]
  exact List.mem_append_left _ (hs.sublist.subset hmem)

theorem Accounted.fail (ha : Accounted s) (hs : s.server.Sound) (hj : j < s.history.ninv)
    (hc : s.history.completed j = false) {msg : StdString} (hmsg : msg ≠ []) :
    Accounted (s.setCtx (s.ctx.setErrorMsg msg) (s.history.fail j)) := by
  obtain ⟨hlast, served, hserved⟩ := current_of_running hs hj hc
  constructor
  · exact ha.formed
  · exact ha.sessions
  · exact ha.sending
  · intro hnone
    rw [show s.pc.phase.served = none from hnone] at hserved
    cases hserved
  · intro msg' i hmsg' hi
    obtain rfl : i = j := Nat.succ.inj (hi.symm.trans hlast)
    refine ⟨iff_of_true hmsg (by simp), (ha.current msg' i hmsg' hi).2⟩
  · intro χ
    obtain ⟨done, rest, hacc⟩ := ha.account χ
    refine ⟨done, rest, hacc.congr_of_ne rfl rfl rfl (by cases χ <;> rfl) hc fun i hij => ⟨rfl, rfl, ?_⟩⟩
    exact Function.update_of_ne hij _ _

theorem Accounted.produce (ha : Accounted s) (hs : s.server.Sound) (hj : j < s.history.ninv)
    (hc : s.history.completed j = false) (pack : CoroActorPack) :
    Accounted { s with respPack := pack, history := s.history.produce j pack } := by
  obtain ⟨hlast, -⟩ := current_of_running hs hj hc
  constructor
  · exact ha.formed
  · exact ha.sessions
  · exact ha.sending
  · exact ha.quiet
  · intro msg' i hmsg' hi
    obtain rfl : i = j := Nat.succ.inj (hi.symm.trans hlast)
    exact ⟨(ha.current msg' i hmsg' hi).1, by simp⟩
  · intro χ
    obtain ⟨done, rest, hacc⟩ := ha.account χ
    refine ⟨done, rest, hacc.congr_of_ne rfl rfl rfl (by cases χ <;> rfl) hc fun i hij => ⟨rfl, ?_, rfl⟩⟩
    exact Function.update_of_ne hij _ _

/-- The message at the front of the queue is handed to its service. -/
theorem Accounted.invoke (ha : Accounted s) {rest : List CoroActorMsg} (hserved : s.pc.phase.served = none)
    (hopen : s.isOpen msg.socket = true) (type : UInt8) : Accounted ((s.takeFront msg rest).invoke msg type) := by
  constructor
  · exact ha.formed
  · exact ha.sessions
  · intro i hi hover
    obtain ⟨hlt, hc⟩ := ha.sending i hi hover
    refine ⟨Nat.lt_succ_of_lt hlt, ?_⟩
    exact (Function.update_of_ne hlt.ne _ _).trans hc
  · nofun
  · intro msg' j _ hj
    obtain rfl : s.history.ninv = j := Nat.succ.inj hj
    refine ⟨iff_of_false (not_not.mpr (ha.quiet hserved)) (by simp [Sys.invoke]), by simp [Sys.invoke]⟩
  · intro χ
    obtain ⟨done, rest', hacc⟩ := ha.account χ
    rw [hserved] at hacc
    by_cases hs : msg.socket = χ
    · rw [← hs, hopen] at hacc
      refine ⟨done, [s.history.ninv], ?_⟩
      have hstart := hacc.start ⟨type, []⟩ rfl
      rw [← hs]
      exact hopen ▸ hstart
    · exact ⟨done, rest', hacc.startOther hs⟩

/-- A message is pushed. The session that pushed it may have been the last to look at its socket. -/
theorem Accounted.push (ha : Accounted s) (msg : CoroActorMsg) (hserved : t.pc = s.pc)
    (herr : t.ctx.errorMsg = s.ctx.errorMsg) (hpack : t.respPack = s.respPack) (hnconn : t.nconn = s.nconn)
    (hsession : ∀ k, t.session k = true → k < s.nconn) (hopen : t.isOpen = s.isOpen)
    (hsends : t.nsend = s.nsend ∧ t.sends = s.sends)
    (hmsg : msg.unixSocket = msg.socket.isNone ∧ ∀ k ∈ msg.socket, k < s.nconn)
    (hhist : t.history = s.history.push msg) : Accounted t := by
  constructor
  · rw [hhist, hnconn]
    intro msg' hmsg'
    rcases List.mem_append.mp hmsg' with hold | hnew
    · exact ha.formed msg' hold
    · rw [List.mem_singleton.mp hnew]
      exact hmsg
  · rw [hnconn]
    exact hsession
  · rw [hhist, hsends.1, hsends.2]
    exact ha.sending
  · rw [hserved, herr]
    exact ha.quiet
  · rw [hserved, herr, hpack, hhist]
    exact ha.current
  · intro χ
    obtain ⟨done, rest, hacc⟩ := ha.account χ
    rw [hserved, hopen, hhist]
    exact ⟨done, rest, hacc.congr rfl rfl rfl (by cases χ <;> rfl) fun i _ hc => ⟨hc, rfl, rfl⟩⟩

theorem pushed_of_taken (hs : s.server.Sound) (hmsg : msg ∈ s.history.taken) : msg ∈ s.history.pushed := by
  rw [show s.history.pushed = s.history.taken ++ s.ctx.msgQueue from hs.fifo]
  exact List.mem_append_left _ hmsg

theorem Accounted.takenOn_fresh (ha : Accounted s) (hs : s.server.Sound) :
    s.history.takenOn (some s.nconn) = [] := by
  rw [History.takenOn, List.filter_eq_nil_iff]
  intro msg hmsg hsocket
  rw [decide_eq_true_eq] at hsocket
  exact absurd ((ha.formed msg (pushed_of_taken hs hmsg)).2 s.nconn hsocket) (Nat.lt_irrefl _)

theorem Accounted.accept (ha : Accounted s) (hs : s.server.Sound) : Accounted
    { s with
      nconn := s.nconn + 1
      tcpOpen := Function.update s.tcpOpen s.nconn true
      session := Function.update s.session s.nconn true } := by
  constructor
  · intro msg hmsg
    obtain ⟨hunix, hlt⟩ := ha.formed msg hmsg
    exact ⟨hunix, fun k hk => Nat.lt_succ_of_lt (hlt k hk)⟩
  · intro k hk
    simp only [Function.update_apply] at hk
    split at hk
    · next heq =>
        rw [heq]
        exact Nat.lt_succ_self _
    · exact Nat.lt_succ_of_lt (ha.sessions k hk)
  · exact ha.sending
  · exact ha.quiet
  · exact ha.current
  · intro χ
    obtain ⟨done, rest, hacc⟩ := ha.account χ
    by_cases hχ : χ = some s.nconn
    · subst hχ
      have htaken : s.history.takenOn (some s.nconn) = [] := ha.takenOn_fresh hs
      have hcalls : s.history.callsOn (some s.nconn) = [] := by
        have hpre := hacc.taken
        rw [htaken, List.prefix_nil] at hpre
        exact List.map_eq_nil_iff.mp hpre
      obtain ⟨rfl, rfl⟩ := List.append_eq_nil_iff.mp (hacc.calls.symm.trans hcalls)
      refine ⟨[], [], hacc.calls, hacc.answers, hacc.done, hacc.taken, fun _ => ?_, Or.inl rfl, hacc.served⟩
      show (s.history.callsOn (some s.nconn)).map s.history.message = s.history.takenOn (some s.nconn)
      rw [hcalls, htaken]
      rfl
    · refine ⟨done, rest, ?_⟩
      have hopen : isOpen
          { s with
            nconn := s.nconn + 1
            tcpOpen := Function.update s.tcpOpen s.nconn true
            session := Function.update s.session s.nconn true } χ = s.isOpen χ := by
        cases χ with
        | none => rfl
        | some k => exact Function.update_of_ne (fun heq => hχ (by rw [heq])) _ _
      rw [hopen]
      exact hacc

theorem isOpen_iff (hunix : msg.unixSocket = msg.socket.isNone) (hsane : s.fault = false) :
    s.isOpen msg.socket = true ↔ s.Open msg := by
  unfold Open isOpen
  rw [hunix]
  cases msg.socket with
  | none => simp [hsane]
  | some k => simp

theorem Accounted.disconnect (ha : Accounted s) (k : TcpConn) :
    Accounted { s.closeTcp (some k) with session := Function.update s.session k false } := by
  constructor
  · exact ha.formed
  · intro k' hk'
    simp only [Function.update_apply] at hk'
    split at hk'
    · cases hk'
    · exact ha.sessions k' hk'
  · exact ha.sending
  · exact ha.quiet
  · exact ha.current
  · intro χ
    obtain ⟨done, rest, hacc⟩ := ha.account χ
    by_cases hχ : χ = some k
    · subst hχ
      refine ⟨done, rest, ?_⟩
      have hclosed : ({ s.closeTcp (some k) with
          session := Function.update s.session k false } : Sys).isOpen (some k) = false := by simp [isOpen]
      rw [hclosed]
      exact hacc.close
    · refine ⟨done, rest, ?_⟩
      have hopen : ({ s.closeTcp (some k) with
          session := Function.update s.session k false } : Sys).isOpen χ = s.isOpen χ := by
        cases χ with
        | none => rfl
        | some k' => exact Function.update_of_ne (fun heq => hχ (by rw [heq])) _ _
      rw [hopen]
      exact hacc

theorem Accounted.complete (ha : Accounted s) (hc : s.history.completed j = false)
    (hlast : ∀ i < s.nsend, (s.sends i).service = j → (s.sends i).pc.over = true) :
    Accounted (s.setCtx s.ctx.notifyComplete (s.history.complete j)) := by
  constructor
  · exact ha.formed
  · exact ha.sessions
  · intro i hi hover
    obtain ⟨hlt, hci⟩ := ha.sending i hi hover
    refine ⟨hlt, ?_⟩
    have hne : (s.sends i).service ≠ j := by
      intro heq
      have hdone : (s.sends i).pc.over = true := hlast i hi heq
      rw [show (s.sends i).pc.over = false from hover] at hdone
      cases hdone
    exact (Function.update_of_ne hne _ _).trans hci
  · exact ha.quiet
  · exact ha.current
  · intro χ
    obtain ⟨done, rest, hacc⟩ := ha.account χ
    refine ⟨done, rest, hacc.congr_of_ne rfl rfl rfl (by cases χ <;> rfl) hc fun i hij => ⟨?_, rfl, rfl⟩⟩
    exact Function.update_of_ne hij _ _

theorem Accounted.send (ha : Accounted s) (hj : j < s.history.ninv) (hc : s.history.completed j = false)
    (serviceName : StdString) (pack : CoroActorPack) : Accounted (s.startSend j serviceName pack) := by
  rw [startSend_eq]
  constructor
  · exact ha.formed
  · exact ha.sessions
  · intro i hi hover
    simp only [Function.update_apply] at hover ⊢
    split
    · exact ⟨hj, hc⟩
    · next hne =>
        rw [if_neg hne] at hover
        exact ha.sending i (Nat.lt_of_le_of_ne (Nat.lt_succ_iff.mp hi) hne) hover
  · exact ha.quiet
  · exact ha.current
  · intro χ
    obtain ⟨done, rest, hacc⟩ := ha.account χ
    exact ⟨done, rest, hacc.congr rfl rfl rfl (by cases χ <;> rfl) fun i _ hci => ⟨hci, rfl, rfl⟩⟩

theorem Accounted.movePc (ha : Accounted s) {p : Pc} {c : CoroActorCtx}
    (hserved : p.phase.served = s.pc.phase.served) (herr : c.errorMsg = s.ctx.errorMsg) :
    Accounted { s with ctx := c, pc := p } :=
  ha.frame hserved herr rfl rfl rfl (fun χ => by cases χ <;> rfl) (fun _ hi hover => ⟨hi, hover, rfl⟩) rfl

/-- The loop leaves a service whose calls of `func` are complete. -/
theorem Accounted.leave (ha : Accounted s) (hs : s.server.Sound) (hsane : s.fault = false) {c : CoroActorCtx}
    (herr : c.errorMsg = s.ctx.errorMsg) (hserved : s.pc.phase.served = some msg)
    (hcompleted : ∀ i < s.server.started.length, s.history.completed i = true) :
    Accounted ((s.setCtx c s.history).finish msg) := by
  obtain ⟨hpushed, j, hj⟩ := serving_message hs hserved
  have ha' : Accounted (s.setCtx c s.history) := ha.movePc rfl herr
  refine ha'.finish hsane hserved hpushed hj fun i hi => ?_
  exact hcompleted i (by rwa [started_length])

theorem Accounted.moveSend (ha : Accounted s) {i : Nat} {x : Send} {c : CoroActorCtx}
    (hover : (s.sends i).pc.over = false) (hservice : x.service = (s.sends i).service)
    (herr : c.errorMsg = s.ctx.errorMsg) :
    Accounted { s with ctx := c, sends := Function.update s.sends i x } := by
  refine ha.frame rfl herr rfl rfl rfl (fun χ => by cases χ <;> rfl) (fun i' hi' hover' => ?_) rfl
  simp only [Function.update_apply] at hover' ⊢
  split at hover'
  · next heq =>
      subst heq
      exact ⟨hi', hover, by rw [if_pos rfl, hservice]⟩
  · next hne => exact ⟨hi', hover', by rw [if_neg hne]⟩

theorem Accounted.step (ha : Accounted s) (h : s.Move cfg l t) (hs : s.server.Sound) (hsane : s.fault = false)
    (hrule : LastRule s l) : Accounted t := by
  have hnone : ∀ {p : Pc}, s.pc = p → p.phase.served = none → s.pc.phase.served = none := by
    intro p hp hnone
    rw [hp, hnone]
  have hfront : ∀ {msg : CoroActorMsg} {rest}, s.ctx.msgQueue = msg :: rest → msg ∈ s.history.pushed := by
    intro msg rest hq
    rw [show s.history.pushed = s.history.taken ++ s.ctx.msgQueue from hs.fifo, hq]
    simp
  cases h with
  | wait hpc => exact ha.movePc (by rw [hpc]; rfl) rfl
  | @closed type msg rest hpc hq hopen =>
      refine ha.drop (hnone hpc rfl) rfl rfl ⟨rfl, rfl, rfl, rfl⟩ ?_ (fun _ => id) rfl
      rw [← isOpen_iff (ha.formed msg (hfront hq)).1 hsane, Bool.not_eq_true] at hopen
      exact hopen
  | @notFound type msg rest k hpc hq hopen hservice hsocket =>
      refine ha.drop (hnone hpc rfl) rfl rfl ⟨rfl, rfl, rfl, rfl⟩ ?_ (fun χ hχ => ?_) rfl
      · rw [hsocket]
        simp [isOpen]
      · cases χ with
        | none => exact hχ
        | some k' =>
            simp only [isOpen, closeTcp_tcpOpen, Function.update_apply] at hχ
            split at hχ
            · cases hχ
            · exact hχ
  | @undefined type msg rest hpc hq hopen hservice hsocket =>
      refine ha.drop (hnone hpc rfl) rfl rfl ⟨rfl, rfl, rfl, rfl⟩ ?_ (fun χ hχ => ?_) rfl
      · rw [hsocket]
        simp [isOpen]
      · cases χ with
        | none => simp [isOpen] at hχ
        | some k => exact hχ
  | @invoke type msg rest hpc hq hopen =>
      exact ha.invoke (hnone hpc rfl) ((isOpen_iff (ha.formed msg (hfront hq)).1 hsane).mpr hopen) type
  | pause hpc => exact ha.movePc (by rw [hpc]; rfl) rfl
  | leave hpc hfree =>
      exact ha.leave (c := s.ctx) hs hsane rfl (by rw [hpc]; rfl) (hs.completed (Or.inr hfree))
  | messageNotified hpc => exact ha.movePc (by rw [hpc]; rfl) rfl
  | serviceNotified hpc hready =>
      exact ha.leave hs hsane rfl (by rw [hpc]; rfl) (hs.completed (Or.inr (hs.completion.mem_ready.mp hready).2))
  | replied hpc => exact ha.movePc (c := s.ctx) (by rw [hpc]; rfl) rfl
  | accept => exact ha.accept hs
  | @remote k serviceName pack hr hk =>
      rw [push_eq]
      refine ha.push ⟨serviceName, [], pack, some k, false⟩ rfl rfl rfl rfl (fun k' hk' => ?_) ?_
        ⟨rfl, rfl⟩ ⟨rfl, fun k' hk' => ?_⟩ rfl
      · by_cases hkk : k' = k
        · rw [hkk]
          exact ha.sessions k hk
        · exact ha.sessions k' ((Function.update_of_ne hkk _ _).symm.trans hk')
      · funext χ
        cases χ <;> rfl
      · obtain rfl : k = k' := Option.some.inj hk'
        exact ha.sessions k hk
  | @remoteError k hr hk => exact ha.disconnect k
  | request =>
      rw [onRequest_eq]
      refine ha.push ⟨_, _, _, none, true⟩ rfl rfl rfl rfl ha.sessions ?_ ⟨rfl, rfl⟩ ⟨rfl, nofun⟩ rfl
      funext χ
      cases χ <;> rfl
  | response =>
      exact ha.frame rfl rfl rfl rfl rfl (fun χ => by cases χ <;> rfl) (fun i hi ho => ⟨hi, ho, rfl⟩) rfl
  | other | internalError =>
      exact ha.frame rfl rfl rfl rfl rfl (fun χ => by cases χ <;> rfl) (fun i hi ho => ⟨hi, ho, rfl⟩) rfl
  | refuse _ hj => exact ha.fail hs hj hrule.1 (by decide)
  | send _ hj => exact ha.send hj hrule.1 _ _
  | respond _ hj => exact ha.produce hs hj hrule.1 _
  | @complete j _ hj => exact ha.complete hrule.1 hrule.2
  | @wentOut i hi hpc =>
      exact ha.moveSend (c := s.ctx) (by rw [hpc]; rfl) rfl rfl
  | @writeFailed i ec _ hi hpc hwritten =>
      have hover : (s.sends i).pc.over = false := by rw [hpc]; rfl
      obtain ⟨hlt, hc⟩ := ha.sending i hi hover
      exact (ha.fail hs hlt hc (List.cons_ne_nil _ _)).moveSend (c := s.ctx.setErrorMsg [ec.toUInt8]) hover rfl rfl
  | @written i _ hi hpc =>
      exact ha.moveSend (c := { s.ctx with
        responseNotifyTimer := s.ctx.responseNotifyTimer.asyncWait i }) (by rw [hpc]; rfl) rfl rfl
  | @responded i _ hi hpc =>
      exact ha.moveSend (by rw [hpc]; rfl) rfl rfl

/-- The invariants of a run in which every service is done when it says so. -/
theorem accounted (hr : Reachable (machine cfg) LastRule s) : s.server.Sound ∧ Accounted s := by
  have hsound : ∀ {u : Sys}, Reachable (machine cfg) LastRule u → u.server.Sound := fun hu =>
    server_sound (hu.mono fun _ _ => And.left)
  refine ⟨hsound hr, ?_⟩
  refine hr.invariant (accounted_init cfg) fun u l t hu ha hrule hst => ?_
  exact ha.step (step_move hst) (hsound hu) (step_sane hst) hrule

end Sys

end CoroActor.Worker
