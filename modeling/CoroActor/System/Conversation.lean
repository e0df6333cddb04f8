import CoroActor.Proxy.Delivery
import CoroActor.System.Cluster

/-! What one process and the proxy have said to each other. There are two invariants: the REQUESTs that the process
sends are numbered and answered one at a time, and the REQUESTs that it gets are answered in their order. Each is
stated over the history of the proxy, the process and what lies between them, and there is one lemma for each thing
that can happen. -/

namespace CoroActor.Cluster

open TransitionSystem Worker

/-- The REQUEST that a frame carries. -/
def requestOf : Proxy.Carries → Option Nat
  | .request n => some n
  | .connack | .response _ => none

/-- The REQUEST that a frame answers. -/
def responseTo : Proxy.Carries → Option Nat
  | .response n => n
  | .connack | .request _ => none

def Outgoing.answer : Outgoing → Option CoroActorResponse
  | .response p => some p
  | .connect | .request _ => none

theorem requestOf_eq_some {c : Proxy.Carries} {n : Nat} : requestOf c = some n ↔ c = .request n := by
  cases c <;> simp [requestOf]

theorem responseTo_eq_some {c : Proxy.Carries} {n : Nat} : responseTo c = some n ↔ c = .response (some n) := by
  cases c <;> simp [responseTo]

variable {h h' : Proxy.History} {k : Proxy.Conn} {cfg : Worker.Setting} {w w' : Worker.Sys} {l : Worker.Label}
  {o : Outgoing} {out rest : List Outgoing} {serial : Nat → Option Nat} {got sent read : List Nat} {i n : Nat}

/-- The REQUESTs of a process. `out` is on its way to the proxy, and the RESPONSEs to `got` have been read. Each
`send` that has gone out is numbered or on its way, and nothing comes after it that is not awaited. -/
structure Asking (h : Proxy.History) (k : Proxy.Conn) (w : Worker.Sys) (out : List Outgoing)
    (serial : Nat → Option Nat) (got : List Nat) : Prop where
  asked : ∀ i n, serial i = some n → i < w.nsend ∧ (w.sends i).written = true ∧ n < h.nreq ∧ h.conn n = k ∧
    h.pack n = (w.sends i).request
  known : ∀ n < h.nreq, h.conn n = k → ∃ i, serial i = some n
  inj : ∀ i j n, serial i = some n → serial j = some n → i = j
  answered : ∀ i n, serial i = some n → (w.history.answer i = none ↔ n ∉ got)
  unasked : ∀ i < w.nsend, (w.sends i).written = true → serial i = none → .request i ∈ out
  posted : ∀ i, .request i ∈ out → w.Awaits i ∧ serial i = none
  last : ∀ i, .request i ∉ out.dropLast
  waiting : ∀ i, w.Awaits i → serial i ≠ none → out = []

/-- The REQUESTs that were sent to a process, of which it has read some, and its RESPONSEs, of which the proxy has
read the first `d`: it has handled the answers to the first `d` of these REQUESTs and to no other. -/
structure Answering (h : Proxy.History) (w : Worker.Sys) (out : List Outgoing) (sent read : List Nat) (d : Nat) :
    Prop where
  isPrefix : read <+: sent
  pushed : w.history.pushedOn none = read.map fun n => CoroActorMsg.ofRequest (h.pack n)
  le : d ≤ w.history.responses.length
  answers : out.filterMap Outgoing.answer = w.history.responses.drop d
  done : ∀ n ∈ sent.take d, h.replies n ≠ []
  unanswered : ∀ n ∈ sent.drop d, h.replies n = []

namespace Asking

variable (ha : Asking h k w out serial got)

include ha

/-- All REQUESTs of the process have been answered, unless one is awaited that the proxy has read. -/
theorem got_of_out (hout : out ≠ []) (hn : n < h.nreq) (hk : h.conn n = k) : n ∈ got := by
  obtain ⟨i, hi⟩ := ha.known n hn hk
  by_contra hnot
  obtain ⟨hlt, hw, -⟩ := ha.asked i n hi
  have hawaits : w.Awaits i := ⟨hlt, hw, (ha.answered i n hi).mpr hnot⟩
  exact hout (ha.waiting i hawaits (by rw [hi]; exact Option.some_ne_none n))

/-- A RESPONSE that is read is awaited. -/
theorem awaits (hn : n < h.nreq) (hk : h.conn n = k) (hnot : n ∉ got) : ∃ i, serial i = some n ∧ w.Awaits i := by
  obtain ⟨i, hi⟩ := ha.known n hn hk
  obtain ⟨hlt, hw, -⟩ := ha.asked i n hi
  exact ⟨i, hi, hlt, hw, (ha.answered i n hi).mpr hnot⟩

theorem grow (hg : h.Grows h') (hnew : ∀ n, h.nreq ≤ n → n < h'.nreq → h'.conn n ≠ k) :
    Asking h' k w out serial got where
  asked i n hi := by
    obtain ⟨hlt, hw, hn, hk, hpack⟩ := ha.asked i n hi
    rw [hg.conn n hn, hg.pack n hn]
    exact ⟨hlt, hw, hn.trans_le hg.nreq, hk, hpack⟩
  known n hn hk := by
    have hlt : n < h.nreq := by
      by_contra hge
      exact hnew n (Nat.le_of_not_lt hge) hn hk
    rw [hg.conn n hlt] at hk
    exact ha.known n hlt hk
  inj := ha.inj
  answered := ha.answered
  unasked := ha.unasked
  posted := ha.posted
  last := ha.last
  waiting := ha.waiting

theorem pop (hout : out = o :: rest) (ho : ∀ i, o ≠ .request i) : Asking h k w rest serial got where
  asked := ha.asked
  known := ha.known
  inj := ha.inj
  answered := ha.answered
  unasked i hi hw hnone := by
    have hmem := ha.unasked i hi hw hnone
    rw [hout] at hmem
    exact (List.mem_cons.mp hmem).resolve_left fun heq => ho i heq.symm
  posted i hi := by
    apply ha.posted i
    rw [hout]
    exact List.mem_cons_of_mem o hi
  last i hi := by
    apply ha.last i
    rw [hout]
    cases rest with
    | nil => cases hi
    | cons x more =>
        rw [List.dropLast_cons_of_ne_nil (List.cons_ne_nil x more)]
        exact List.mem_cons_of_mem o hi
  waiting i hi hserial := by
    have hnil := ha.waiting i hi hserial
    rw [hout] at hnil
    cases hnil

/-- The REQUEST is the last thing on its way. -/
theorem rest_eq_nil (hout : out = .request i :: rest) : rest = [] := by
  by_contra hne
  apply ha.last i
  rw [hout, List.dropLast_cons_of_ne_nil hne]
  exact List.mem_cons_self

/-- The proxy reads the REQUEST of a `send`. -/
theorem issue (hout : out = .request i :: rest) (hgot : ∀ n ∈ got, n < h.nreq) (af : Proxy.Ref) :
    Asking (h.issue k af (w.sends i).request) k w rest (Function.update serial i (some h.nreq)) got := by
  have hmem : .request i ∈ out := by
    rw [hout]
    exact List.mem_cons_self
  have hnil := ha.rest_eq_nil hout
  obtain ⟨⟨hlt, hw, hans⟩, hnone⟩ := ha.posted i hmem
  have hold : ∀ j n, j ≠ i → Function.update serial i (some h.nreq) j = some n → serial j = some n := by
    intro j n hj hn
    rwa [Function.update_of_ne hj] at hn
  have hself : ∀ n, Function.update serial i (some h.nreq) i = some n → n = h.nreq := by
    intro n hn
    rw [Function.update_self] at hn
    exact (Option.some.inj hn).symm
  constructor
  · intro j n hj
    by_cases hji : j = i
    · subst hji
      obtain rfl := hself n hj
      refine ⟨hlt, hw, Nat.lt_succ_self _, ?_, ?_⟩
      · simp
      · simp
    · obtain ⟨hjlt, hjw, hn, hk, hpack⟩ := ha.asked j n (hold j n hji hj)
      refine ⟨hjlt, hjw, Nat.lt_succ_of_lt hn, ?_, ?_⟩
      · simpa [Function.update_of_ne (Nat.ne_of_lt hn)] using hk
      · simpa [Function.update_of_ne (Nat.ne_of_lt hn)] using hpack
  · intro n hn hk
    rcases Nat.lt_succ_iff_lt_or_eq.mp hn with hnlt | rfl
    · simp only [Proxy.History.issue_conn, Function.update_of_ne (Nat.ne_of_lt hnlt)] at hk
      obtain ⟨j, hj⟩ := ha.known n hnlt hk
      have hji : j ≠ i := by
        rintro rfl
        rw [hnone] at hj
        cases hj
      exact ⟨j, by rwa [Function.update_of_ne hji]⟩
    · exact ⟨i, Function.update_self _ _ _⟩
  · intro j j' n hj hj'
    by_cases hji : j = i
    · by_cases hji' : j' = i
      · exact hji.trans hji'.symm
      · subst hji
        obtain rfl := hself n hj
        exact absurd (ha.asked j' _ (hold j' _ hji' hj')).2.2.1 (Nat.lt_irrefl _)
    · by_cases hji' : j' = i
      · subst hji'
        obtain rfl := hself n hj'
        exact absurd (ha.asked j _ (hold j _ hji hj)).2.2.1 (Nat.lt_irrefl _)
      · exact ha.inj j j' n (hold j n hji hj) (hold j' n hji' hj')
  · intro j n hj
    by_cases hji : j = i
    · subst hji
      obtain rfl := hself n hj
      exact iff_of_true hans fun hmem => Nat.lt_irrefl _ (hgot _ hmem)
    · exact ha.answered j n (hold j n hji hj)
  · intro j hj hjw hjnone
    have hji : j ≠ i := by
      rintro rfl
      rw [Function.update_self] at hjnone
      cases hjnone
    rw [Function.update_of_ne hji] at hjnone
    have hjmem := ha.unasked j hj hjw hjnone
    rw [hout, hnil, List.mem_singleton] at hjmem
    exact absurd (Outgoing.request.inj hjmem) hji
  · intro j hj
    rw [hnil] at hj
    cases hj
  · intro j hj
    rw [hnil] at hj
    cases hj
  · exact fun _ _ _ => hnil

/-- The process reads the RESPONSE that it awaits. -/
theorem answer (hs : w.SendsTracked) (hi : serial i = some n) (hawaits : w.Awaits i) {p : CoroActorResponse}
    (hm : w.Move cfg (.response p) w') : Asking h k w' out serial (got ++ [n]) := by
  have hans := hm.answer_response hs hawaits
  have hkept : w'.nsend = w.nsend ∧ w'.sends = w.sends := by
    cases hm
    exact ⟨rfl, rfl⟩
  have hother : ∀ j, w'.Awaits j → j ≠ i ∧ w.Awaits j := by
    rintro j ⟨hlt, hw, hnone⟩
    rw [hkept.1] at hlt
    rw [hkept.2] at hw
    rw [hans] at hnone
    have hji : j ≠ i := by
      rintro rfl
      rw [Function.update_self] at hnone
      cases hnone
    rw [Function.update_of_ne hji] at hnone
    exact ⟨hji, hlt, hw, hnone⟩
  have hout : out = [] := ha.waiting i hawaits (by rw [hi]; exact Option.some_ne_none n)
  constructor
  · rw [hkept.1, hkept.2]
    exact ha.asked
  · exact ha.known
  · exact ha.inj
  · intro j m hj
    by_cases hji : j = i
    · subst hji
      obtain rfl : m = n := Option.some.inj (hj.symm.trans hi)
      rw [hans, Function.update_self]
      exact iff_of_false (Option.some_ne_none p) fun hnot => hnot (List.mem_append_right _ List.mem_cons_self)
    · have hmn : m ≠ n := by
        rintro rfl
        exact hji (ha.inj j i m hj hi)
      rw [hans, Function.update_of_ne hji, ha.answered j m hj, List.mem_append, List.mem_singleton]
      tauto
  · rw [hkept.1, hkept.2]
    exact ha.unasked
  · intro j hj
    rw [hout] at hj
    cases hj
  · exact ha.last
  · exact fun _ _ _ => hout

theorem process (hs : w.SendsTracked) (hacc : w.Accounted) (hsound : w.server.Sound) (hm : w.Move cfg l w')
    (hl : ∀ p, l ≠ .response p) : Asking h k w' (out ++ (requested w l ++ responded w w')) serial got := by
  have hans := hm.answer_kept hl
  obtain ⟨hnsend, hkept⟩ := hm.sends_kept
  have hmore : ∀ j, w.Awaits j → w'.Awaits j := by
    rintro j ⟨hlt, hw, hnone⟩
    exact ⟨hlt.trans_le hnsend, (hkept j hlt).2.2 hw, by rw [hans]; exact hnone⟩
  have hasked : ∀ i n, serial i = some n → i < w'.nsend ∧ (w'.sends i).written = true ∧ n < h.nreq ∧ h.conn n = k ∧
      h.pack n = (w'.sends i).request := by
    intro i n hi
    obtain ⟨hlt, hw, hn, hk, hpack⟩ := ha.asked i n hi
    exact ⟨hlt.trans_le hnsend, (hkept i hlt).2.2 hw, hn, hk, by rw [(hkept i hlt).2.1, hpack]⟩
  have hanswered : ∀ i n, serial i = some n → (w'.history.answer i = none ↔ n ∉ got) := by
    rw [hans]
    exact ha.answered
  by_cases hout : ∃ i, l = .wentOut i ∧ (w.sends i).written = false
  · obtain ⟨i, rfl, hw⟩ := hout
    have hstate : i < w.nsend ∧ (w.sends i).pc = .write ∧ responded w w' = [] := by
      cases hm with
      | wentOut hlt hpc =>
          refine ⟨hlt, hpc, ?_⟩
          rw [responded, List.drop_length, List.map_nil]
    obtain ⟨hlt, hpc, hnone⟩ := hstate
    have hidle : ∀ j, ¬ w.Awaits j := by
      intro j hj
      obtain rfl := hs.single j hj.1 i hlt (hs.awaiting_eq hj).1 (Or.inl hpc)
      rw [hj.2.1] at hw
      cases hw
    have hnew : w'.Awaits i ∧ ∀ j, w'.Awaits j → j = i := by
      constructor
      · refine ⟨hlt.trans_le hnsend, ?_, ?_⟩
        · cases hm with
          | wentOut => simp
        · rw [hans]
          by_contra hne
          rw [(hs.tracked i hlt).written_of_answer hne] at hw
          cases hw
      · rintro j ⟨hj, hjw, hjnone⟩
        rcases hm.newly_written hj hjw with ⟨hjlt, hold⟩ | ⟨heq, -⟩
        · exact absurd ⟨hjlt, hold, hans ▸ hjnone⟩ (hidle j)
        · exact (Worker.Label.wentOut.inj heq).symm
    have hserial : serial i = none := by
      by_contra hne
      obtain ⟨n, hn⟩ := Option.ne_none_iff_exists'.mp hne
      rw [(ha.asked i n hn).2.1] at hw
      cases hw
    have hnorequest : ∀ j, .request j ∉ out := fun j hj => hidle j (ha.posted j hj).1
    have hpost : out ++ (requested w (.wentOut i) ++ responded w w') = out ++ [.request i] := by
      rw [hnone, requested, hw, List.append_nil]
      rfl
    rw [hpost]
    refine ⟨hasked, ha.known, ha.inj, hanswered, fun j hj hjw hjnone => ?_, fun j hj => ?_, fun j hj => ?_,
      fun j hj hjnone => ?_⟩
    · rcases hm.newly_written hj hjw with ⟨hjlt, hold⟩ | ⟨heq, -⟩
      · exact List.mem_append_left _ (ha.unasked j hjlt hold hjnone)
      · cases heq
        exact List.mem_append_right _ List.mem_cons_self
    · rcases List.mem_append.mp hj with hold | hlast
      · exact absurd hold (hnorequest j)
      · cases List.mem_singleton.mp hlast
        exact ⟨hnew.1, hserial⟩
    · rw [List.dropLast_concat] at hj
      exact hnorequest j hj
    · obtain rfl := hnew.2 j hj
      exact absurd hserial hjnone
  · have hrequested : requested w l = [] := by
      cases l with
      | wentOut i =>
          have hw : (w.sends i).written = true := by
            by_contra hw
            exact hout ⟨i, rfl, Bool.eq_false_iff.mpr hw⟩
          rw [requested, if_pos hw]
      | _ => rfl
    have hold : ∀ j, w'.Awaits j → w.Awaits j := by
      rintro j ⟨hj, hjw, hnone⟩
      rw [hans] at hnone
      rcases hm.newly_written hj hjw with ⟨hjlt, hw⟩ | ⟨rfl, hjlt, -⟩
      · exact ⟨hjlt, hw, hnone⟩
      · refine ⟨hjlt, ?_, hnone⟩
        by_contra hw
        exact hout ⟨j, rfl, Bool.eq_false_iff.mpr hw⟩
    have hunasked : ∀ j < w'.nsend, (w'.sends j).written = true → serial j = none → .request j ∈ out := by
      intro j hj hjw hnone
      rcases hm.newly_written hj hjw with ⟨hjlt, hw⟩ | ⟨rfl, hjlt, -⟩
      · exact ha.unasked j hjlt hw hnone
      · refine ha.unasked j hjlt ?_ hnone
        by_contra hw
        exact hout ⟨j, rfl, Bool.eq_false_iff.mpr hw⟩
    rw [hrequested, List.nil_append]
    rcases hm.responses_cases hacc hsound with hsame | ⟨-, -, -, -, hidle⟩
    · have hnone : responded w w' = [] := by
        rw [responded, hsame, List.drop_length, List.map_nil]
      rw [hnone, List.append_nil]
      exact ⟨hasked, ha.known, ha.inj, hanswered, hunasked,
        fun j hj => ⟨hmore j (ha.posted j hj).1, (ha.posted j hj).2⟩, ha.last, fun j hj => ha.waiting j (hold j hj)⟩
    · have hnobody : ∀ j, ¬ w.Awaits j := fun j hj => hidle j hj.1 (hs.awaiting_eq hj).1
      have hnorequest : ∀ j, .request j ∉ out ++ responded w w' := by
        intro j hj
        rcases List.mem_append.mp hj with hmem | hmem
        · exact hnobody j (ha.posted j hmem).1
        · obtain ⟨p, -, hp⟩ := List.mem_map.mp hmem
          cases hp
      exact ⟨hasked, ha.known, ha.inj, hanswered,
        fun j hj hjw hnone => List.mem_append_left _ (hunasked j hj hjw hnone),
        fun j hj => absurd hj (hnorequest j), fun j hj => hnorequest j (List.dropLast_subset _ hj),
        fun j hj => absurd (hold j hj) (hnobody j)⟩

end Asking

theorem asking_init (cfg : Worker.Setting) (k : Proxy.Conn) :
    Asking Proxy.Sys.init.history k (Worker.Sys.init cfg) [.connect] (fun _ => none) [] where
  asked _ _ hi := by cases hi
  known _ hn := absurd hn (Nat.not_lt_zero _)
  inj _ _ _ hi := by cases hi
  answered _ _ hi := by cases hi
  unasked _ hi := absurd hi (Nat.not_lt_zero _)
  posted _ hi := by cases List.mem_singleton.mp hi
  last _ hi := absurd hi List.not_mem_nil
  waiting _ hi := absurd hi.1 (Nat.not_lt_zero _)

theorem answering_init (cfg : Worker.Setting) :
    Answering Proxy.Sys.init.history (Worker.Sys.init cfg) [.connect] [] [] 0 where
  isPrefix := List.prefix_rfl
  pushed := rfl
  le := Nat.le_refl _
  answers := rfl
  done _ hn := absurd hn List.not_mem_nil
  unanswered _ hn := absurd hn List.not_mem_nil

theorem responses_of_received (hm : w.Move cfg l w') (hl : System.isLocal l = false) :
    w'.history.responses = w.history.responses := by
  cases hm with
  | request =>
      rw [Worker.Sys.onRequest_eq]
      rfl
  | response | other => rfl
  | _ => cases hl

/-- What is on its way to the proxy beside REQUESTs. -/
theorem answers_responded (w w' : Worker.Sys) :
    (responded w w').filterMap Outgoing.answer = w'.history.responses.drop w.history.responses.length := by
  have hinv : Outgoing.answer ∘ Outgoing.response = some := rfl
  rw [responded, List.filterMap_map, hinv, List.filterMap_some]

theorem answers_cons (p : CoroActorResponse) (rest : List Outgoing) :
    (.response p :: rest : List Outgoing).filterMap Outgoing.answer = p :: rest.filterMap Outgoing.answer := rfl

theorem answers_requested (w : Worker.Sys) (l : Worker.Label) :
    (requested w l).filterMap Outgoing.answer = [] := by
  cases l with
  | wentOut i =>
      cases hw : (w.sends i).written with
      | false => simp [requested, hw, Outgoing.answer]
      | true => simp [requested, hw]
  | _ => rfl

namespace Answering

variable {d : Nat} (ha : Answering h w out sent read d)

include ha

/-- No RESPONSE comes before its REQUEST. -/
theorem responses_le (hl : w.Labelled) (hacc : w.Accounted) (hs : w.server.Sound) :
    w.history.responses.length ≤ read.length := by
  have hlen := congrArg List.length ha.pushed
  rw [List.length_map] at hlen
  rw [← hlen]
  exact hl.responses_le hacc hs

theorem sent_eq {d : Nat} (hn : read[d]? = some n) : sent[d]? = some n := by
  obtain ⟨more, hmore⟩ := ha.isPrefix
  have hlt : d < read.length := (List.getElem?_eq_some_iff.mp hn).1
  rw [← hmore, List.getElem?_append_left hlt, hn]

/-- Number `i` of the RESPONSEs of the process is for number `i` of the REQUESTs. -/
theorem response (hl : w.Labelled) (hacc : w.Accounted) (hs : w.server.Sound) {p : CoroActorResponse}
    (hp : w.history.responses[i]? = some p) : ∃ n, sent[i]? = some n ∧ read[i]? = some n ∧
      p.callId = (h.pack n).callId ∧ p.serviceName = (h.pack n).serviceName := by
  obtain ⟨j, -, -, -, hresponse, hmsg⟩ := hl.response hacc hs hp
  rw [ha.pushed, List.getElem?_map] at hmsg
  obtain ⟨n, hn, heq⟩ := Option.map_eq_some_iff.mp hmsg
  refine ⟨n, ha.sent_eq hn, hn, ?_, ?_⟩
  · rw [hresponse, Worker.Sys.responseOf, ← heq]
    rfl
  · rw [hresponse, Worker.Sys.responseOf, ← heq]
    rfl

/-- The next RESPONSE that the proxy reads is that to the first REQUEST that has not been answered. -/
theorem next (hl : w.Labelled) (hacc : w.Accounted) (hs : w.server.Sound) {p : CoroActorResponse}
    (hout : out = .response p :: rest) : ∃ n, w.history.responses[d]? = some p ∧ sent[d]? = some n ∧
      h.replies n = [] ∧ p.callId = (h.pack n).callId := by
  have hanswers := ha.answers
  rw [hout, answers_cons] at hanswers
  have hp : w.history.responses[d]? = some p := by
    rw [← List.head?_drop, ← hanswers]
    rfl
  obtain ⟨n, hsent, -, hcall, -⟩ := ha.response hl hacc hs hp
  refine ⟨n, hp, hsent, ?_, hcall⟩
  apply ha.unanswered
  rw [← List.head?_drop] at hsent
  exact List.mem_of_mem_head? hsent

/-- The REQUEST that the process serves has not been answered. -/
theorem serving (hl : w.Labelled) (hacc : w.Accounted) (hs : w.server.Sound) {msg : CoroActorMsg}
    (hserved : w.pc.phase.served = some msg) (hsocket : msg.socket = none) :
    ∃ n ∈ read, h.replies n = [] ∧ msg = CoroActorMsg.ofRequest (h.pack n) := by
  have hmsg := hl.serving hacc hs hserved hsocket
  rw [ha.pushed, List.getElem?_map] at hmsg
  obtain ⟨n, hn, heq⟩ := Option.map_eq_some_iff.mp hmsg
  refine ⟨n, List.mem_of_getElem? hn, ha.unanswered n ?_, heq.symm⟩
  have hle := ha.le
  have hget : (sent.drop d)[w.history.responses.length - d]? = some n := by
    rw [List.getElem?_drop, Nat.add_sub_cancel' hle]
    exact ha.sent_eq hn
  exact List.mem_of_getElem? hget

theorem grow (hpack : ∀ n ∈ sent, h'.pack n = h.pack n) (hreplies : ∀ n ∈ sent, h'.replies n = h.replies n) :
    Answering h' w out sent read d where
  isPrefix := ha.isPrefix
  pushed := by
    rw [ha.pushed]
    refine List.map_congr_left fun n hn => ?_
    rw [hpack n (ha.isPrefix.subset hn)]
  le := ha.le
  answers := ha.answers
  done n hn := by
    rw [hreplies n (List.mem_of_mem_take hn)]
    exact ha.done n hn
  unanswered n hn := by
    rw [hreplies n (List.mem_of_mem_drop hn)]
    exact ha.unanswered n hn

theorem send (hl : w.Labelled) (hacc : w.Accounted) (hs : w.server.Sound) {more : List Nat}
    (hmore : ∀ n ∈ more, h.replies n = []) : Answering h w out (sent ++ more) read d where
  isPrefix := ha.isPrefix.trans (List.prefix_append sent more)
  pushed := ha.pushed
  le := ha.le
  answers := ha.answers
  done n hn := by
    rw [List.take_append_of_le_length ((ha.le.trans (ha.responses_le hl hacc hs)).trans ha.isPrefix.length_le)] at hn
    exact ha.done n hn
  unanswered n hn := by
    rw [List.drop_append_of_le_length ((ha.le.trans (ha.responses_le hl hacc hs)).trans ha.isPrefix.length_le)] at hn
    rcases List.mem_append.mp hn with hold | hnew
    · exact ha.unanswered n hold
    · exact hmore n hnew

theorem pop (hout : out = o :: rest) (ho : o.answer = none) : Answering h w rest sent read d where
  isPrefix := ha.isPrefix
  pushed := ha.pushed
  le := ha.le
  answers := by
    rw [← ha.answers, hout, List.filterMap_cons_none ho]
  done := ha.done
  unanswered := ha.unanswered

/-- The proxy reads a RESPONSE and handles it as the answer to the next REQUEST. -/
theorem reply {p : CoroActorResponse} (hnodup : sent.Nodup) (hout : out = .response p :: rest)
    (hn : sent[d]? = some n) (hpack : ∀ m ∈ sent, h'.pack m = h.pack m) (hreplied : h'.replies n ≠ [])
    (hsame : ∀ m, m ≠ n → h'.replies m = h.replies m) : Answering h' w rest sent read (d + 1) where
  isPrefix := ha.isPrefix
  pushed := by
    rw [ha.pushed]
    refine List.map_congr_left fun m hm => ?_
    rw [hpack m (ha.isPrefix.subset hm)]
  le := by
    have hanswers := congrArg List.length ha.answers
    rw [hout, answers_cons, List.length_cons, List.length_drop] at hanswers
    omega
  answers := by
    have hanswers := congrArg List.tail ha.answers
    rw [hout, answers_cons, List.tail_cons, List.tail_drop] at hanswers
    exact hanswers
  done m hm := by
    by_cases hmn : m = n
    · rw [hmn]
      exact hreplied
    · rw [hsame m hmn]
      rw [List.take_add_one, hn] at hm
      rcases List.mem_append.mp hm with hold | hnew
      · exact ha.done m hold
      · exact absurd (List.mem_singleton.mp hnew) hmn
  unanswered m hm := by
    have hdrop : sent.drop d = n :: sent.drop (d + 1) := by
      obtain ⟨hlt, hget⟩ := List.getElem?_eq_some_iff.mp hn
      rw [← hget]
      exact List.drop_eq_getElem_cons hlt
    have hmn : m ≠ n := by
      rintro rfl
      have hnd : (sent.drop d).Nodup := hnodup.sublist (List.drop_sublist d sent)
      rw [hdrop] at hnd
      exact (List.nodup_cons.mp hnd).1 hm
    rw [hsame m hmn]
    apply ha.unanswered
    rw [hdrop]
    exact List.mem_cons_of_mem n hm

theorem receive (hn : read ++ [n] <+: sent) (hm : w.Move cfg (.request (h.pack n)) w') :
    Answering h w' out sent (read ++ [n]) d where
  isPrefix := hn
  pushed := by
    rw [hm.pushedOn_link, ha.pushed, List.map_append]
    rfl
  le := by
    rw [responses_of_received hm rfl]
    exact ha.le
  answers := by
    rw [responses_of_received hm rfl]
    exact ha.answers
  done := ha.done
  unanswered := ha.unanswered

theorem process (hm : w.Move cfg l w') (hl : l.arrivals = []) :
    Answering h w' (out ++ (requested w l ++ responded w w')) sent read d where
  isPrefix := ha.isPrefix
  pushed := by
    rw [hm.pushedOn_link, hl, List.append_nil]
    exact ha.pushed
  le := ha.le.trans hm.responses_isPrefix.length_le
  answers := by
    obtain ⟨more, hmore⟩ := hm.responses_isPrefix
    rw [List.filterMap_append, List.filterMap_append, answers_requested, answers_responded, List.nil_append,
      ha.answers, ← hmore, List.drop_append_of_le_length ha.le, List.drop_left]
  done := ha.done
  unanswered := ha.unanswered

end Answering

end CoroActor.Cluster
