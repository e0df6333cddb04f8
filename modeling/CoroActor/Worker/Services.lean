import CoroActor.Library.Dialogue
import CoroActor.Worker.Traffic

/-! The services of a process as programs. `func` starts a coroutine. It calls `send` and goes on when that has
returned, and in the end it has set its response and calls `notify_complete`. Such a service does all that was asked of
one, and what it produces is what its program comes to when each `send` is answered by the program of its service. -/

namespace CoroActor.Worker

open TransitionSystem

/-- The service that `send` calls, and its request. -/
structure Question where
  serviceName : StdString
  requestPack : CoroActorPack
  deriving DecidableEq

/-- `send` returns true, and has set the response, or it returns false, and there is an error message. -/
abbrev Answer := Except StdString CoroActorPack

/-- What is left of the coroutine of a service, up to its response. -/
abbrev Service := Dialogue Question Answer CoroActorPack

/-- `func_t`, with the request and the response as it is before. -/
abbrev Func := CoroActorPack → CoroActorPack → Service

def Question.ofMsg (msg : CoroActorMsg) : Question := ⟨msg.serviceName, msg.pack⟩

def Send.question (x : Send) : Question := ⟨x.request.serviceName, x.request.requestPack⟩

/-- Where the coroutine of a service stands: it runs, it is suspended in a call of `send`, or it is finished. -/
inductive Coroutine where
  | running (rest : Service)
  | suspended (i : Nat) (next : Answer → Service)
  | finished

namespace Coroutine

/-- The call of `send` that comes next. -/
def question : Coroutine → Option Question
  | .running (.ask q _) => some q
  | _ => none

/-- The response, when nothing but `notify_complete` is left. -/
def result : Coroutine → Option CoroActorPack
  | .running (.done r) => some r
  | _ => none

def isRunning : Coroutine → Bool
  | .running _ => true
  | _ => false

/-- `send` has returned. -/
def resume (c : Coroutine) (a : Answer) : Coroutine :=
  match c with
  | .suspended _ next => .running (next a)
  | c => c

/-- `send` is called, and it is suspended as number `i` or has returned at once. -/
def call (c : Coroutine) (i : Option Nat) (errorMsg : StdString) : Coroutine :=
  match c, i with
  | .running (.ask _ next), some i => .suspended i next
  | .running (.ask _ next), none => .running (next (.error errorMsg))
  | c, _ => c

variable {c : Coroutine} {q : Question} {r : CoroActorPack}

theorem question_eq_some : c.question = some q ↔ ∃ next, c = .running (.ask q next) := by
  rcases c with (_ | _) | _ | _ <;> simp [question]

theorem result_eq_some : c.result = some r ↔ c = .running (.done r) := by
  rcases c with (_ | _) | _ | _ <;> simp [result]

theorem isRunning_iff : c.isRunning = true ↔ ∃ rest, c = .running rest := by
  rcases c with _ | _ | _ <;> simp [isRunning]

end Coroutine

/-- A service does what its coroutine does next. -/
def Follows (c : Nat → Coroutine) (s : Sys) : Label → Prop
  | .send j serviceName pack => (c j).question = some ⟨serviceName, pack⟩
  | .respond j _ => (c j).isRunning = true
  | .complete j => (c j).result = some (s.history.produced j)
  | _ => True

instance (c : Nat → Coroutine) (s : Sys) : (l : Label) → Decidable (Follows c s l)
  | .send .. => inferInstanceAs (Decidable (_ = _))
  | .respond .. => inferInstanceAs (Decidable (_ = _))
  | .complete _ => inferInstanceAs (Decidable (_ = _))
  | .run _ | .funcReturn | .messageNotified | .serviceNotified | .replied | .accept | .remote ..
  | .remoteError _ | .request _ | .response _ | .other _ | .internalError | .wentOut _ | .written ..
  | .responded _ => inferInstanceAs (Decidable True)

/-- Where the coroutines stand after a step. A call of `func` starts one. -/
def goesOn (func : StdString → Func) (c : Nat → Coroutine) (s t : Sys) : Label → Nat → Coroutine
  | .run type =>
      if t.history.ninv = s.history.ninv then c
      else
        let msg := t.history.message s.history.ninv
        Function.update c s.history.ninv (.running (func msg.serviceName msg.pack ⟨type, []⟩))
  | .send j _ _ =>
      Function.update c j ((c j).call (if t.nsend = s.nsend then none else some s.nsend) t.ctx.errorMsg)
  | .written i _ | .responded i =>
      match (t.sends i).pc with
      | .returned none => Function.update c (s.sends i).service ((c (s.sends i).service).resume (.error t.ctx.errorMsg))
      | .returned (some p) => Function.update c (s.sends i).service ((c (s.sends i).service).resume (.ok p))
      | .write | .wait => c
  | .complete j => Function.update c j .finished
  | _ => c

/-- The services as programs that call each other directly. The type of the response is not initialised. -/
def directCalls (func : StdString → Func) : Dialogue.System Question Answer CoroActorPack where
  starts q d := ∃ type, d = func q.serviceName q.requestPack ⟨type, []⟩
  answer := .ok

namespace Sys

/-- What a coroutine has to do with the message that its service was called with, and with what is produced. -/
def Serves (func : StdString → Func) (s : Sys) (j : Nat) : Coroutine → Prop
  | .running rest => (directCalls func).Serves (.ofMsg (s.history.message j)) rest
  | .suspended i next => (directCalls func).Serves (.ofMsg (s.history.message j)) (.ask (s.sends i).question next)
  | .finished => (directCalls func).Returns (.ofMsg (s.history.message j)) (s.history.produced j)

/-- The invariant of the coroutines. -/
structure Served (func : StdString → Func) (c : Nat → Coroutine) (s : Sys) : Prop where
  finished : ∀ j < s.history.ninv, c j = .finished ↔ s.history.completed j = true
  suspended : ∀ i < s.nsend, (s.sends i).pc.over = false → ∃ next, c (s.sends i).service = .suspended i next
  sent : ∀ j < s.history.ninv, ∀ i next, c j = .suspended i next →
    i < s.nsend ∧ (s.sends i).service = j ∧ (s.sends i).pc.over = false
  serves : ∀ j < s.history.ninv, s.history.failed j = false → s.Serves func j (c j)

variable {cfg : Setting} {func : StdString → Func} {c c' : Nat → Coroutine} {s t : Sys} {l : Label} {i j : Nat}

theorem served_init (cfg : Setting) (func : StdString → Func) (c : Nat → Coroutine) :
    Served func c (Sys.init cfg) where
  finished _ hj := absurd hj (Nat.not_lt_zero _)
  suspended _ hi := absurd hi (Nat.not_lt_zero _)
  sent _ hj := absurd hj (Nat.not_lt_zero _)
  serves _ hj := absurd hj (Nat.not_lt_zero _)

theorem over_of_inProgress (h : (s.sends i).InProgress) : (s.sends i).pc.over = false := by
  rcases h with hpc | hpc <;> rw [hpc] <;> rfl

/-- **The rules are kept.** A service whose coroutine is a program acts until it calls `notify_complete`, which is the
last thing it does, and calls `send` when no `send` is in progress. -/
theorem Served.rule (hc : Served func c s) (h : s.Move cfg l t) (hs : s.server.Sound) (ha : s.Accounted)
    (hfollows : Follows c s l) : LastRule s l ∧ OneSend s l := by
  have hrunning : ∀ {j rest}, j < s.history.ninv → c j = .running rest → s.history.completed j = false := by
    intro j rest hj hcj
    by_contra hcompleted
    rw [Bool.not_eq_false] at hcompleted
    rw [(hc.finished j hj).mpr hcompleted] at hcj
    cases hcj
  -- A service that runs has no `send` in progress, and no other one has either.
  have hnone : ∀ {j rest}, j < s.history.ninv → c j = .running rest → ∀ i < s.nsend, (s.sends i).pc.over = true := by
    intro j rest hj hcj i hi
    by_contra hover
    rw [Bool.not_eq_true] at hover
    obtain ⟨hlt, hcompleted⟩ := ha.sending i hi hover
    obtain ⟨hlast, -⟩ := current_of_running hs hj (hrunning hj hcj)
    obtain ⟨hlast', -⟩ := current_of_running hs hlt hcompleted
    obtain ⟨next, hnext⟩ := hc.suspended i hi hover
    rw [show (s.sends i).service = j by omega, hcj] at hnext
    cases hnext
  have hact : ∀ {j}, l = .complete j ∨ (∃ p, l = .respond j p) ∨ (∃ n p, l = .send j n p) →
      (∃ rest, c j = .running rest) ∧ j < s.history.ninv := by
    rintro j (rfl | ⟨p, rfl⟩ | ⟨n, p, rfl⟩)
    · refine ⟨⟨_, Coroutine.result_eq_some.mp hfollows⟩, ?_⟩
      cases h with
      | complete _ hj => exact hj
    · refine ⟨Coroutine.isRunning_iff.mp hfollows, ?_⟩
      cases h with
      | respond _ hj => exact hj
    · obtain ⟨next, hnext⟩ := Coroutine.question_eq_some.mp hfollows
      refine ⟨⟨_, hnext⟩, ?_⟩
      cases h with
      | send _ hj => exact hj
      | refuse _ hj => exact hj
  cases l with
  | send j n p =>
      obtain ⟨⟨rest, hrest⟩, hj⟩ := hact (Or.inr (Or.inr ⟨n, p, rfl⟩))
      refine ⟨⟨hrunning hj hrest, trivial⟩, fun i hi hprog => ?_⟩
      have hover := over_of_inProgress hprog
      rw [hnone hj hrest i hi] at hover
      cases hover
  | respond j p =>
      obtain ⟨⟨rest, hrest⟩, hj⟩ := hact (Or.inr (Or.inl ⟨p, rfl⟩))
      exact ⟨⟨hrunning hj hrest, trivial⟩, trivial⟩
  | complete j =>
      obtain ⟨⟨rest, hrest⟩, hj⟩ := hact (Or.inl rfl)
      exact ⟨⟨hrunning hj hrest, fun i hi _ => hnone hj hrest i hi⟩, trivial⟩
  | _ => exact ⟨⟨trivial, trivial⟩, trivial⟩

/-! ### A step -/

theorem Serves.congr {x : Coroutine} (h : s.Serves func j x) (hmessage : t.history.message j = s.history.message j)
    (hproduced : x = .finished → t.history.produced j = s.history.produced j)
    (hquestion : ∀ i next, x = .suspended i next → (t.sends i).question = (s.sends i).question) :
    t.Serves func j x := by
  cases x with
  | running rest =>
      rw [Serves, hmessage]
      exact h
  | suspended i next =>
      rw [Serves, hmessage, hquestion i next rfl]
      exact h
  | finished =>
      rw [Serves, hmessage, hproduced rfl]
      exact h

theorem Served.rest (hc : Served func c s) (hninv : t.history.ninv = s.history.ninv)
    (hmessage : t.history.message = s.history.message) (hcompleted : t.history.completed = s.history.completed)
    (hfailed : t.history.failed = s.history.failed) (hproduced : t.history.produced = s.history.produced)
    (hnsend : t.nsend = s.nsend) (hsends : t.sends = s.sends) : Served func c t where
  finished := by
    rw [hninv, hcompleted]
    exact hc.finished
  suspended := by
    rw [hnsend, hsends]
    exact hc.suspended
  sent := by
    rw [hninv, hnsend, hsends]
    exact hc.sent
  serves := by
    rw [hninv, hfailed]
    intro j hj hf
    exact (hc.serves j hj hf).congr (by rw [hmessage]) (fun _ => by rw [hproduced]) fun _ _ _ => by rw [hsends]

/-- Only the service `j` and its calls of `send` move. -/
theorem Served.change (hc : Served func c s) (j : Nat) (hninv : t.history.ninv = s.history.ninv)
    (hmessage : t.history.message = s.history.message) (hnsend : s.nsend ≤ t.nsend)
    (hsends : ∀ i < s.nsend, (t.sends i).service = (s.sends i).service ∧
      (t.sends i).question = (s.sends i).question ∧
      ((s.sends i).service ≠ j → (t.sends i).pc.over = (s.sends i).pc.over))
    (hnew : ∀ i < t.nsend, i < s.nsend ∨ (t.sends i).service = j)
    (hothers : ∀ m, m ≠ j → c' m = c m ∧ t.history.completed m = s.history.completed m ∧
      t.history.failed m = s.history.failed m ∧ t.history.produced m = s.history.produced m)
    (hover : c' j = .finished ↔ t.history.completed j = true)
    (hsuspended : ∀ i < t.nsend, (t.sends i).service = j → (t.sends i).pc.over = false →
      ∃ next, c' j = .suspended i next)
    (hsent : ∀ i next, c' j = .suspended i next →
      i < t.nsend ∧ (t.sends i).service = j ∧ (t.sends i).pc.over = false)
    (hserves : t.history.failed j = false → t.Serves func j (c' j)) : Served func c' t := by
  refine ⟨fun m hm => ?_, fun i hi ho => ?_, fun m hm i next hnext => ?_, fun m hm hf => ?_⟩
  · by_cases hmj : m = j
    · rw [hmj]
      exact hover
    · obtain ⟨hc', hcompleted, -⟩ := hothers m hmj
      rw [hc', hcompleted]
      exact hc.finished m (hninv ▸ hm)
  · by_cases hij : (t.sends i).service = j
    · rw [hij]
      exact hsuspended i hi hij ho
    · have hlt := (hnew i hi).resolve_right hij
      obtain ⟨hservice, -, hpc⟩ := hsends i hlt
      rw [hservice] at hij ⊢
      rw [hpc hij] at ho
      rw [(hothers _ hij).1]
      exact hc.suspended i hlt ho
  · by_cases hmj : m = j
    · rw [hmj] at hnext ⊢
      exact hsent i next hnext
    · rw [(hothers m hmj).1] at hnext
      obtain ⟨hi, hservice, ho⟩ := hc.sent m (hninv ▸ hm) i next hnext
      obtain ⟨hservice', -, hpc⟩ := hsends i hi
      exact ⟨hi.trans_le hnsend, hservice'.trans hservice, (hpc (hservice ▸ hmj)).trans ho⟩
  · by_cases hmj : m = j
    · rw [hmj] at hf ⊢
      exact hserves hf
    · obtain ⟨hc', -, hfailed, hproduced⟩ := hothers m hmj
      have hlt : m < s.history.ninv := hninv ▸ hm
      rw [hc']
      refine (hc.serves m hlt (hfailed ▸ hf)).congr (by rw [hmessage]) (fun _ => hproduced) fun i next hnext => ?_
      exact (hsends i (hc.sent m hlt i next hnext).1).2.1

theorem Served.start (hc : Served func c s) (hsending : ∀ i < s.nsend, (s.sends i).pc.over = false →
    (s.sends i).service < s.history.ninv ∧ s.history.completed (s.sends i).service = false) (msg : CoroActorMsg)
    (type : UInt8) :
    Served func (Function.update c s.history.ninv (.running (func msg.serviceName msg.pack ⟨type, []⟩)))
      (s.invoke msg type) := by
  have hsplit : ∀ j < (s.invoke msg type).history.ninv, j < s.history.ninv ∨ j = s.history.ninv := fun _ hj =>
    Nat.lt_succ_iff_lt_or_eq.mp hj
  have hself : Function.update c s.history.ninv (.running (func msg.serviceName msg.pack ⟨type, []⟩)) s.history.ninv =
      .running (func msg.serviceName msg.pack ⟨type, []⟩) := Function.update_self _ _ _
  have hother : ∀ j < s.history.ninv, Function.update c s.history.ninv
      (.running (func msg.serviceName msg.pack ⟨type, []⟩)) j = c j := fun _ hj =>
    Function.update_of_ne (Nat.ne_of_lt hj) _ _
  refine ⟨fun j hj => ?_, fun i hi ho => ?_, fun j hj i next hnext => ?_, fun j hj hf => ?_⟩
  · show _ ↔ Function.update s.history.completed s.history.ninv false j = true
    rcases hsplit j hj with hlt | rfl
    · rw [hother j hlt, Function.update_of_ne (Nat.ne_of_lt hlt)]
      exact hc.finished j hlt
    · rw [hself, Function.update_self]
      exact iff_of_false (fun heq => by cases heq) Bool.false_ne_true
  · obtain ⟨hlt, -⟩ := hsending i hi ho
    obtain ⟨next, hnext⟩ := hc.suspended i hi ho
    exact ⟨next, (hother _ hlt).trans hnext⟩
  · rcases hsplit j hj with hlt | rfl
    · rw [hother j hlt] at hnext
      exact hc.sent j hlt i next hnext
    · rw [hself] at hnext
      cases hnext
  · rcases hsplit j hj with hlt | rfl
    · have hne := Nat.ne_of_lt hlt
      have hfailed : s.history.failed j = false := (Function.update_of_ne hne _ _).symm.trans hf
      rw [hother j hlt]
      exact (hc.serves j hlt hfailed).congr (Function.update_of_ne hne _ _) (fun _ => Function.update_of_ne hne _ _)
        fun _ _ _ => rfl
    · have hmessage : (s.invoke msg type).history.message s.history.ninv = msg := Function.update_self _ _ _
      rw [hself, Serves, hmessage]
      exact .start ⟨type, rfl⟩

theorem Served.call (hc : Served func c s) (hj : j < s.history.ninv) {serviceName : StdString} {pack : CoroActorPack}
    (hq : (c j).question = some ⟨serviceName, pack⟩) (errorMsg : StdString) :
    Served func (Function.update c j ((c j).call (some s.nsend) errorMsg)) (s.startSend j serviceName pack) := by
  obtain ⟨next, hnext⟩ := Coroutine.question_eq_some.mp hq
  have hcall : (c j).call (some s.nsend) errorMsg = .suspended s.nsend next := by
    rw [hnext]
    rfl
  have hself : Function.update c j (.suspended s.nsend next) j = .suspended s.nsend next :=
    Function.update_self _ _ _
  have hlast := s.startSend_sends_self j serviceName pack
  have hold : ∀ i < s.nsend, (s.startSend j serviceName pack).sends i = s.sends i :=
    fun _ => s.startSend_sends_of_lt j serviceName pack
  have hsplit : ∀ i < (s.startSend j serviceName pack).nsend, i < s.nsend ∨ i = s.nsend := by
    intro i hi
    rw [startSend_nsend] at hi
    exact Nat.lt_succ_iff_lt_or_eq.mp hi
  have hhistory : (s.startSend j serviceName pack).history =
      s.history.request j s.ctx.openCall.callId (s.ctx.callId = []) := by
    rw [startSend_eq]
  rw [hcall]
  refine hc.change j (by rw [hhistory]; rfl) (by rw [hhistory]; rfl) (by rw [startSend_nsend]; exact Nat.le_succ _)
    (fun i hi => ?_) (fun i hi => ?_) (fun m hm => ?_) ?_ (fun i hi hservice ho => ?_) (fun i next' hi => ?_)
    fun hf => ?_
  · rw [hold i hi]
    exact ⟨rfl, rfl, fun _ => rfl⟩
  · rcases hsplit i hi with hlt | rfl
    · exact Or.inl hlt
    · exact Or.inr (by rw [hlast])
  · rw [hhistory]
    exact ⟨Function.update_of_ne hm _ _, rfl, rfl, rfl⟩
  · rw [hself, hhistory]
    refine iff_of_false (fun heq => by cases heq) fun hcompleted => ?_
    rw [(hc.finished j hj).mpr hcompleted] at hnext
    cases hnext
  · rcases hsplit i hi with hlt | rfl
    · rw [hold i hlt] at hservice ho
      obtain ⟨next', hnext'⟩ := hc.suspended i hlt ho
      rw [hservice, hnext] at hnext'
      cases hnext'
    · exact ⟨next, hself⟩
  · rw [hself] at hi
    cases hi
    rw [startSend_nsend, hlast]
    exact ⟨Nat.lt_succ_self _, rfl, rfl⟩
  · rw [hhistory] at hf
    have hserves := hc.serves j hj hf
    rw [hnext] at hserves
    rw [hself, Serves, hhistory, hlast]
    exact hserves

/-- `send` returns false at once. The service fails, so nothing is asked of it any more. -/
theorem Served.refuse (hc : Served func c s) (hj : j < s.history.ninv) {q : Question} (hq : (c j).question = some q)
    (ctx : CoroActorCtx) (errorMsg : StdString) :
    Served func (Function.update c j ((c j).call none errorMsg)) (s.setCtx ctx (s.history.fail j)) := by
  obtain ⟨next, hnext⟩ := Coroutine.question_eq_some.mp hq
  have hcall : (c j).call none errorMsg = .running (next (.error errorMsg)) := by
    rw [hnext]
    rfl
  have hself : Function.update c j (.running (next (.error errorMsg))) j = .running (next (.error errorMsg)) :=
    Function.update_self _ _ _
  rw [hcall]
  refine hc.change j rfl rfl (Nat.le_refl _) (fun i hi => ⟨rfl, rfl, fun _ => rfl⟩) (fun i hi => Or.inl hi)
    (fun m hm => ?_) ?_ (fun i hi hservice ho => ?_) (fun i next' hi => ?_) fun hf => ?_
  · exact ⟨Function.update_of_ne hm _ _, rfl, Function.update_of_ne hm _ _, rfl⟩
  · rw [hself]
    refine iff_of_false (fun heq => by cases heq) fun hcompleted => ?_
    rw [(hc.finished j hj).mpr hcompleted] at hnext
    cases hnext
  · obtain ⟨next', hnext'⟩ := hc.suspended i hi ho
    rw [show (s.sends i).service = j from hservice, hnext] at hnext'
    cases hnext'
  · rw [hself] at hi
    cases hi
  · have hfailed : (s.history.fail j).failed j = true := Function.update_self _ _ _
    rw [show (s.history.fail j).failed j = false from hf] at hfailed
    cases hfailed

theorem Served.respond (hc : Served func c s) (hj : j < s.history.ninv) (hrunning : (c j).isRunning = true)
    (pack : CoroActorPack) :
    Served func c { s with respPack := pack, history := s.history.produce j pack } := by
  obtain ⟨rest, hrest⟩ := Coroutine.isRunning_iff.mp hrunning
  refine ⟨hc.finished, hc.suspended, hc.sent, fun m hm hf => ?_⟩
  refine (hc.serves m hm hf).congr rfl (fun hover => ?_) fun _ _ _ => rfl
  refine Function.update_of_ne ?_ _ _
  rintro rfl
  rw [hrest] at hover
  cases hover

theorem Served.complete (hc : Served func c s) (hj : j < s.history.ninv)
    (hresult : (c j).result = some (s.history.produced j)) (ctx : CoroActorCtx) :
    Served func (Function.update c j .finished) (s.setCtx ctx (s.history.complete j)) := by
  have hdone := Coroutine.result_eq_some.mp hresult
  have hself : Function.update c j .finished j = .finished := Function.update_self _ _ _
  refine hc.change j rfl rfl (Nat.le_refl _) (fun i hi => ⟨rfl, rfl, fun _ => rfl⟩) (fun i hi => Or.inl hi)
    (fun m hm => ?_) ?_ (fun i hi hservice ho => ?_) (fun i next hi => ?_) fun hf => ?_
  · exact ⟨Function.update_of_ne hm _ _, Function.update_of_ne hm _ _, rfl, rfl⟩
  · rw [hself]
    exact iff_of_true rfl (Function.update_self _ _ _)
  · obtain ⟨next, hnext⟩ := hc.suspended i hi ho
    rw [show (s.sends i).service = j from hservice, hdone] at hnext
    cases hnext
  · rw [hself] at hi
    cases hi
  · have hserves := hc.serves j hj hf
    rw [hdone] at hserves
    rw [hself]
    exact hserves.returns

theorem Served.sending (hc : Served func c s) (hhistory : t.history = s.history) (hnsend : t.nsend = s.nsend)
    (hsends : ∀ i, (t.sends i).service = (s.sends i).service ∧ (t.sends i).question = (s.sends i).question ∧
      (t.sends i).pc.over = (s.sends i).pc.over) : Served func c t where
  finished := by
    rw [hhistory]
    exact hc.finished
  suspended i hi ho := by
    rw [(hsends i).1]
    exact hc.suspended i (hnsend ▸ hi) ((hsends i).2.2.symm.trans ho)
  sent j hj i next hnext := by
    rw [hhistory] at hj
    obtain ⟨hi, hservice, ho⟩ := hc.sent j hj i next hnext
    obtain ⟨hservice', -, hover⟩ := hsends i
    exact ⟨hnsend.symm ▸ hi, hservice'.trans hservice, hover.trans ho⟩
  serves j hj hf := by
    rw [hhistory] at hj hf
    exact (hc.serves j hj hf).congr (by rw [hhistory]) (fun _ => by rw [hhistory]) fun i _ _ => (hsends i).2.1

/-- `send` returns, and the coroutine goes on. A service whose `send` has returned false fails. -/
theorem Served.resume (hc : Served func c s) (ha : s.Accounted) (hi : i < s.nsend) (ho : (s.sends i).pc.over = false)
    (a : Answer) (hnsend : t.nsend = s.nsend)
    (hsends : t.sends = Function.update s.sends i { s.sends i with pc := (t.sends i).pc })
    (hreturned : (t.sends i).pc.over = true)
    (hhistory : t.history = s.history ∧ (∃ p, a = .ok p ∧ (directCalls func).Returns (s.sends i).question p) ∨
      t.history = s.history.fail (s.sends i).service) :
    Served func (Function.update c (s.sends i).service ((c (s.sends i).service).resume a)) t := by
  obtain ⟨next, hnext⟩ := hc.suspended i hi ho
  obtain ⟨hlt, hcompleted⟩ := ha.sending i hi ho
  have hresume : (c (s.sends i).service).resume a = .running (next a) := by
    rw [hnext]
    rfl
  have hself : Function.update c (s.sends i).service (.running (next a)) (s.sends i).service = .running (next a) :=
    Function.update_self _ _ _
  have hsame : t.history.ninv = s.history.ninv ∧ t.history.message = s.history.message ∧
      t.history.completed = s.history.completed ∧ t.history.produced = s.history.produced ∧
      ∀ m, m ≠ (s.sends i).service → t.history.failed m = s.history.failed m := by
    rcases hhistory with ⟨hhist, -⟩ | hhist
    · rw [hhist]
      exact ⟨rfl, rfl, rfl, rfl, fun _ _ => rfl⟩
    · rw [hhist]
      exact ⟨rfl, rfl, rfl, rfl, fun m hm => Function.update_of_ne hm _ _⟩
  obtain ⟨hninv, hmessage, hcomplete, hproduced, hfailed⟩ := hsame
  have hsend : ∀ m, (t.sends m).service = (s.sends m).service ∧ (t.sends m).question = (s.sends m).question ∧
      (m ≠ i → t.sends m = s.sends m) := by
    intro m
    rw [hsends]
    by_cases hm : m = i
    · subst hm
      rw [Function.update_self]
      exact ⟨rfl, rfl, fun hne => absurd rfl hne⟩
    · rw [Function.update_of_ne hm]
      exact ⟨rfl, rfl, fun _ => rfl⟩
  rw [hresume]
  refine hc.change (s.sends i).service hninv hmessage hnsend.ge (fun m hm => ?_) (fun m hm => Or.inl (hnsend ▸ hm))
    (fun m hm => ?_) ?_ (fun m hm hservice hover => ?_) (fun m next' hm => ?_) fun hf => ?_
  · obtain ⟨hservice, hquestion, hsame⟩ := hsend m
    refine ⟨hservice, hquestion, fun hne => ?_⟩
    rw [hsame fun hmi => hne (by rw [hmi])]
  · exact ⟨Function.update_of_ne hm _ _, by rw [hcomplete], hfailed m hm, by rw [hproduced]⟩
  · rw [hself, hcomplete, hcompleted]
    exact iff_of_false (fun heq => by cases heq) Bool.false_ne_true
  · by_cases hmi : m = i
    · rw [hmi, hreturned] at hover
      cases hover
    · obtain ⟨hsame', -, hold⟩ := hsend m
      rw [hold hmi] at hservice hover
      obtain ⟨next', hnext'⟩ := hc.suspended m (hnsend ▸ hm) hover
      rw [hservice, hnext] at hnext'
      cases hnext'
      exact absurd rfl hmi
  · rw [hself] at hm
    cases hm
  · rcases hhistory with ⟨hhist, p, rfl, hreturns⟩ | hhist
    · rw [hhist] at hf
      have hserves := hc.serves _ hlt hf
      rw [hnext] at hserves
      rw [hself, Serves, hhist]
      exact hserves.answered hreturns
    · have hfailed' : (s.history.fail (s.sends i).service).failed (s.sends i).service = true :=
        Function.update_self _ _ _
      rw [← hhist, hf] at hfailed'
      cases hfailed'

/-- A `send` that returns a pack returns what its question comes to. -/
def ReturnsResults (func : StdString → Func) (s t : Sys) : Prop := ∀ i < s.nsend, (s.sends i).pc.over = false →
  ∀ p, (t.sends i).pc = .returned (some p) → (directCalls func).Returns (s.sends i).question p

/-- What a `send` returns was the last RESPONSE that was read. -/
theorem Move.returned_pack (h : s.Move cfg l t) (hi : i < s.nsend) (ho : (s.sends i).pc.over = false)
    {p : CoroActorPack} (hp : (t.sends i).pc = .returned (some p)) :
    (s.sends i).pc = .wait ∧ i ∈ s.ctx.responseNotifyTimer.ready ∧ p = s.ctx.currRespPack.responsePack := by
  have hnot : (s.sends i).pc ≠ .returned (some p) := by
    intro heq
    rw [heq] at ho
    cases ho
  have hupdate : ∀ {m : Nat} {x : Send}, (m = i → x.pc ≠ .returned (some p)) →
      (Function.update s.sends m x i).pc ≠ .returned (some p) := by
    intro m x hx
    by_cases him : i = m
    · rw [him, Function.update_self]
      exact hx him.symm
    · rwa [Function.update_of_ne him]
  cases h with
  | leave | serviceNotified =>
      revert hp
      exact finish_kept (P := fun u => (u.sends i).pc = .returned (some p) → _) _ _ fun _ _ _ _ _ _ _ hp =>
        absurd hp hnot
  | remote =>
      rw [push_eq] at hp
      exact absurd hp hnot
  | request =>
      rw [onRequest_eq] at hp
      exact absurd hp hnot
  | send =>
      rw [startSend_sends_of_lt _ _ _ _ hi] at hp
      exact absurd hp hnot
  | wentOut => exact absurd hp (hupdate fun hm => by rw [hm]; exact hnot)
  | writeFailed => exact absurd hp (hupdate fun _ heq => by cases heq)
  | written => exact absurd hp (hupdate fun _ heq => by cases heq)
  | @responded m hr hm hpc hready =>
      rw [onResponded_sends] at hp
      by_cases him : i = m
      · subst him
        rw [Function.update_self] at hp
        injection hp with hp
        exact ⟨hpc, hready, (Option.some.inj hp).symm⟩
      · rw [Function.update_of_ne him] at hp
        exact absurd hp hnot
  | _ => exact absurd hp hnot

theorem goesOn_run (type : UInt8) (h : t.history.ninv = s.history.ninv) : goesOn func c s t (.run type) = c := if_pos h

theorem goesOn_invoke (type : UInt8) (h : t.history.ninv = s.history.ninv + 1) : goesOn func c s t (.run type) =
    Function.update c s.history.ninv (.running (func (t.history.message s.history.ninv).serviceName
      (t.history.message s.history.ninv).pack ⟨type, []⟩)) := by
  rw [goesOn, if_neg (by omega)]

theorem goesOn_refuse (serviceName : StdString) (pack : CoroActorPack) (h : t.nsend = s.nsend) :
    goesOn func c s t (.send j serviceName pack) = Function.update c j ((c j).call none t.ctx.errorMsg) := by
  rw [goesOn, if_pos h]

theorem goesOn_send (serviceName : StdString) (pack : CoroActorPack) (h : t.nsend = s.nsend + 1) :
    goesOn func c s t (.send j serviceName pack) = Function.update c j ((c j).call (some s.nsend) t.ctx.errorMsg) := by
  rw [goesOn, if_neg (by omega)]

theorem Served.step (hc : Served func c s) (h : s.Move cfg l t) (ha : s.Accounted) (hfollows : Follows c s l)
    (hreturns : ReturnsResults func s t) : Served func (goesOn func c s t l) t := by
  cases h with
  | wait | closed | notFound | undefined =>
      rw [goesOn_run]
      · exact hc.rest rfl rfl rfl rfl rfl rfl rfl
      · rfl
  | @invoke type msg rest hpc =>
      have hmessage : ((s.takeFront msg rest).invoke msg type).history.message s.history.ninv = msg :=
        Function.update_self _ _ _
      have htaken : Served func c (s.takeFront msg rest) := hc.rest rfl rfl rfl rfl rfl rfl rfl
      rw [goesOn_invoke, hmessage]
      · exact htaken.start ha.sending msg type
      · rfl
  | leave | serviceNotified =>
      exact finish_kept (P := Served func c) _ _ fun _ _ _ _ _ _ _ => hc.rest rfl rfl rfl rfl rfl rfl rfl
  | remote =>
      rw [push_eq]
      exact hc.rest rfl rfl rfl rfl rfl rfl rfl
  | request =>
      rw [onRequest_eq]
      exact hc.rest rfl rfl rfl rfl rfl rfl rfl
  | response => exact hc.rest rfl rfl rfl rfl rfl rfl rfl
  | refuse _ hj =>
      rw [goesOn_refuse]
      · exact hc.refuse hj hfollows _ _
      · rfl
  | send _ hj =>
      rw [goesOn_send]
      · exact hc.call hj hfollows _
      · exact startSend_nsend s _ _ _
  | respond _ hj => exact hc.respond hj hfollows _
  | complete _ hj => exact hc.complete hj hfollows _
  | @wentOut i hi hpc =>
      refine hc.sending rfl rfl fun m => ?_
      show (Function.update s.sends i _ m).service = _ ∧ (Function.update s.sends i _ m).question = _ ∧
        (Function.update s.sends i _ m).pc.over = _
      by_cases hm : m = i
      · subst hm
        rw [Function.update_self]
        exact ⟨rfl, rfl, rfl⟩
      · rw [Function.update_of_ne hm]
        exact ⟨rfl, rfl, rfl⟩
  | @written i _ hi hpc =>
      have hwait : goesOn func c s ((s.setCtx { s.ctx with
          responseNotifyTimer := s.ctx.responseNotifyTimer.asyncWait i } s.history).setSend i .wait)
          (.written i 0) = c := by
        rw [goesOn, setSend_sends, Function.update_self]
      rw [hwait]
      refine hc.sending rfl rfl fun m => ?_
      show (Function.update s.sends i _ m).service = _ ∧ (Function.update s.sends i _ m).question = _ ∧
        (Function.update s.sends i _ m).pc.over = _
      by_cases hm : m = i
      · subst hm
        rw [Function.update_self]
        exact ⟨rfl, rfl, by rw [hpc]; rfl⟩
      · rw [Function.update_of_ne hm]
        exact ⟨rfl, rfl, rfl⟩
  | @writeFailed i ec _ hi hpc =>
      have ho : (s.sends i).pc.over = false := by
        rw [hpc]
        rfl
      rw [goesOn, setSend_sends, Function.update_self]
      refine hc.resume ha hi ho _ rfl ?_ ?_ (Or.inr rfl)
      · rw [setSend_sends, Function.update_self]
        rfl
      · rw [setSend_sends, Function.update_self]
        rfl
  | @responded i _ hi hpc =>
      have ho : (s.sends i).pc.over = false := by
        rw [hpc]
        rfl
      have hreturned : ((s.onResponded i).sends i).pc = .returned (some s.ctx.currRespPack.responsePack) := by
        rw [onResponded_sends, Function.update_self]
      rw [goesOn, hreturned]
      refine hc.resume ha hi ho _ rfl ?_ ?_ (Or.inl ⟨rfl, _, rfl, hreturns i hi ho _ hreturned⟩)
      · rw [hreturned, onResponded_sends]
      · rw [hreturned]
        rfl
  | _ => exact hc.rest rfl rfl rfl rfl rfl rfl rfl

end Sys

end CoroActor.Worker
