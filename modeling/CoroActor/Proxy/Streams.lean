import CoroActor.Library.Framing
import CoroActor.Proxy.Wiring
import Mathlib.Data.List.Sublists

/-! The bytes on the sockets. Any coroutine may write to the socket of any actor, and nothing orders two
writes. The module says which writes can overlap and that the stream of a socket is framed as long as none
do; it assumes nothing about the processes. -/

namespace CoroActor.Proxy

open TransitionSystem Framing

namespace Sys

variable {cfg : Setting} {s t : Sys} {l : Label} {j k : Conn}

/-- The coroutine of `j` is suspended at a write to the socket `k` that has not gone out whole. -/
def Unfinished (s : Sys) (j k : Conn) : Prop :=
  (s.pc j).writing = true ∧ (s.write j).socket = k ∧ (s.write j).left ≠ []

/-- No write to the socket is unfinished, and none has failed after a part of its frame had gone out. -/
def Clear (s : Sys) (k : Conn) : Prop := s.cut k = false ∧ ∀ j < s.nconn, ¬ s.Unfinished j k

instance (s : Sys) (j k : Conn) : Decidable (s.Unfinished j k) := inferInstanceAs (Decidable (_ ∧ _))
instance (s : Sys) (k : Conn) : Decidable (s.Clear k) :=
  inferInstanceAs (Decidable (_ ∧ ∀ j < s.nconn, _))

/-- The socket to which the step starts to write. -/
def target (cfg : Setting) (s : Sys) : Label → Option Conn
  | .read k (.connect _) => some k
  | .read _ (.response p) =>
      (s.proxy.chain p.callId).dropLast.getLast?.map fun back => (s.proxy.actors back).socket
  | .run k =>
      match s.taken k with
      | none => none
      | some x =>
          match s.destination cfg x with
          | .error _ => none
          | .ok select =>
              if (s.proxy.actors select).isWaiting ∨ s.proxy.actorPidMap x.q.pack.pid = some select then none
              else some (s.proxy.actors select).socket
  | _ => none

/-- A write is started only when the writes to the same socket before it have gone out. -/
def KeepsFrames (cfg : Setting) (s : Sys) (l : Label) : Prop := ∀ k ∈ s.target cfg l, s.Clear k

instance (cfg : Setting) (s : Sys) (l : Label) : Decidable (KeepsFrames cfg s l) :=
  inferInstanceAs (Decidable (∀ k ∈ s.target cfg l, s.Clear k))

/-- The stream of a socket: of the frames that it was given, in order, all have gone out but a part of the
last, which one coroutine is writing or which was cut off. -/
structure Streamed (s : Sys) (k : Conn) (fs : List Frame) (left : List UInt8) : Prop where
  sublist : fs.Sublist (s.history.frames k)
  sending : Sending Frame.bytes fs (s.stream k) left
  unique : ∀ j, s.Unfinished j k → ∀ j', s.Unfinished j' k → j = j'
  writer : ∀ j, s.Unfinished j k → (s.write j).left = left ∧ fs.getLast? = some (s.write j).frame
  cut : left ≠ [] → s.cut k = true ∨ ∃ j, s.Unfinished j k

variable {fs : List Frame} {left : List UInt8}

theorem Streamed.mono (h : Streamed s k fs left) (hframes : t.history.frames k = s.history.frames k)
    (hstream : t.stream k = s.stream k) (hcut : s.cut k = true → t.cut k = true)
    (hunfinished : ∀ j, t.Unfinished j k ↔ s.Unfinished j k)
    (hwrite : ∀ j, t.Unfinished j k → t.write j = s.write j) : Streamed t k fs left where
  sublist := by
    rw [hframes]
    exact h.sublist
  sending := by
    rw [hstream]
    exact h.sending
  unique j hj j' hj' := h.unique j ((hunfinished j).mp hj) j' ((hunfinished j').mp hj')
  writer j hj := by
    rw [hwrite j hj]
    exact h.writer j ((hunfinished j).mp hj)
  cut hne := (h.cut hne).imp hcut fun ⟨j, hj⟩ => ⟨j, (hunfinished j).mpr hj⟩

theorem Clear.not_unfinished (hc : s.Clear k) (ha : ∀ j : Nat, s.nconn ≤ j → s.pc j = .absent) (j : Nat) :
    ¬ s.Unfinished j k := by
  intro hj
  rcases Nat.lt_or_ge j s.nconn with hlt | hge
  · exact hc.2 j hlt hj
  · have hw := hj.1
    rw [ha j hge] at hw
    cases hw

/-- A write is started: on its own socket when that is clear, and nothing happens on the others. -/
theorem Streamed.startWrite (h : Streamed s k fs left) (ha : ∀ j : Nat, s.nconn ≤ j → s.pc j = .absent)
    {i : Conn} {p : Pc} {socket : Conn} {f : Frame} {carries : Carries} (hi : (s.pc i).writing = false)
    (hp : p.writing = true) (hclear : socket = k → s.Clear k) :
    ∃ fs' left', Streamed (s.startWrite i p socket f carries) k fs' left' := by
  have hpc : ∀ j, j ≠ i → (s.startWrite i p socket f carries).pc j = s.pc j := fun j hj => by
    simp [Function.update_of_ne hj]
  have hwrite : ∀ j, j ≠ i → (s.startWrite i p socket f carries).write j = s.write j := fun j hj => by
    simp [Function.update_of_ne hj]
  have hother : ∀ j, j ≠ i → ((s.startWrite i p socket f carries).Unfinished j k ↔ s.Unfinished j k) :=
    fun j hj => by rw [Unfinished, Unfinished, hpc j hj, hwrite j hj]
  have hself : ¬ s.Unfinished i k := fun hu => by
    rw [Unfinished, hi] at hu
    cases hu.1
  by_cases hk : socket = k
  · subst hk
    have hnone := (hclear rfl).not_unfinished ha
    have hleft : left = [] := by
      by_contra hne
      rcases h.cut hne with hcut | ⟨j, hj⟩
      · rw [(hclear rfl).1] at hcut
        cases hcut
      · exact hnone j hj
    have honly : ∀ j, (s.startWrite i p socket f carries).Unfinished j socket → j = i := fun j hj => by
      by_contra hne
      exact hnone j ((hother j hne).mp hj)
    have hnew : (s.startWrite i p socket f carries).Unfinished i socket :=
      ⟨by simpa using hp, by simp, by simpa using Frame.bytes_ne_nil f⟩
    subst hleft
    refine ⟨fs ++ [f], f.bytes, ?_, ?_, ?_, ?_, fun _ => Or.inr ⟨i, hnew⟩⟩
    · simpa using h.sublist
    · exact h.sending.start f
    · exact fun j hj j' hj' => (honly j hj).trans (honly j' hj').symm
    · intro j hj
      rw [honly j hj]
      simp
  · have hnot : ¬ (s.startWrite i p socket f carries).Unfinished i k := fun hu => by
      have hsocket := hu.2.1
      rw [startWrite_write, Function.update_self] at hsocket
      exact hk hsocket
    refine ⟨fs, left, h.mono ?_ rfl id (fun j => ?_) fun j hj => ?_⟩
    · simp [Function.update_of_ne (Ne.symm hk)]
    · by_cases hj : j = i
      · subst hj
        exact iff_of_false hnot hself
      · exact hother j hj
    · exact hwrite j fun heq => hnot (heq ▸ hj)

theorem Streamed.quiet (h : Streamed s k fs left) (hframes : t.history.frames = s.history.frames)
    (hstream : t.stream = s.stream) (hcut : t.cut = s.cut) (hwrite : t.write = s.write)
    (hpc : ∀ j, (t.pc j).writing = (s.pc j).writing) : Streamed t k fs left := by
  refine h.mono (by rw [hframes]) (by rw [hstream]) (by rw [hcut]; exact id) (fun j => ?_) fun j _ => by
    rw [hwrite]
  rw [Unfinished, Unfinished, hpc, hwrite]

theorem Streamed.endWrite (h : Streamed s k fs left) {i : Conn} {ec : Bool} {p : Pc}
    (hec : ec = true ↔ (s.write i).left ≠ []) (hframes : t.history.frames = s.history.frames)
    (hstream : t.stream = s.stream) (hcut : t.cut = (s.endWrite i ec).cut) (hwrite : t.write = s.write)
    (hpc : t.pc = Function.update s.pc i p) (hp : p.writing = false) :
    ∃ fs' left', Streamed t k fs' left' := by
  have hself : ¬ t.Unfinished i k := fun hu => by
    have hw := hu.1
    rw [hpc, Function.update_self, hp] at hw
    cases hw
  have hother : ∀ j, j ≠ i → (t.Unfinished j k ↔ s.Unfinished j k) := fun j hj => by
    rw [Unfinished, Unfinished, hpc, hwrite, Function.update_of_ne hj]
  have hmono : s.cut k = true → t.cut k = true := fun hc => by
    rw [hcut, endWrite_cut, Function.update_apply]
    split
    · next hk =>
        rw [hk] at hc
        simp [hc]
    · exact hc
  by_cases hi : s.Unfinished i k
  · have hnone : ∀ j, ¬ t.Unfinished j k := fun j hj => by
      by_cases hji : j = i
      · exact hself (hji ▸ hj)
      · exact hji (h.unique j ((hother j hji).mp hj) i hi)
    obtain ⟨hleft, hlast⟩ := h.writer i hi
    by_cases hfull : (s.write i).left = (s.write i).frame.bytes
    · -- nothing of the frame went out
      refine ⟨fs.dropLast, [], ?_, ?_, fun j hj => absurd hj (hnone j), fun j hj => absurd hj (hnone j),
        fun hne => absurd rfl hne⟩
      · rw [hframes]
        exact (List.dropLast_sublist fs).trans h.sublist
      · rw [hstream]
        exact h.sending.giveUp hlast (hleft.symm.trans hfull)
    · refine ⟨fs, left, by rw [hframes]; exact h.sublist, by rw [hstream]; exact h.sending,
        fun j hj => absurd hj (hnone j), fun j hj => absurd hj (hnone j), fun _ => Or.inl ?_⟩
      have htrue : ec = true := hec.mpr hi.2.2
      rw [hcut, endWrite_cut, hi.2.1, Function.update_self, htrue]
      simp [hfull]
  · refine ⟨fs, left, h.mono (by rw [hframes]) (by rw [hstream]) hmono (fun j => ?_) fun j _ => by
      rw [hwrite]⟩
    by_cases hji : j = i
    · subst hji
      exact iff_of_false hself hi
    · exact hother j hji

theorem Streamed.transfer (h : Streamed s k fs left) {i : Conn} (n : Nat) (hi : (s.pc i).writing = true)
    (hleft : (s.write i).left ≠ []) : ∃ left', Streamed (s.onTransfer i n) k fs left' := by
  have hframes : (s.onTransfer i n).history.frames = s.history.frames := by
    rw [onTransfer_history]
  have hwrite : ∀ j, j ≠ i → (s.onTransfer i n).write j = s.write j := fun j hj => by
    simp [onTransfer, Function.update_of_ne hj]
  have hwritei : (s.onTransfer i n).write i = { s.write i with left := (s.write i).left.drop n } := by
    simp [onTransfer]
  by_cases hk : (s.write i).socket = k
  · have hui : s.Unfinished i k := ⟨hi, hk, hleft⟩
    obtain ⟨rfl, hlast⟩ := h.writer i hui
    have honly : ∀ j, (s.onTransfer i n).Unfinished j k → j = i := fun j hj => by
      by_contra hne
      have hju : s.Unfinished j k := by
        rw [Unfinished, hwrite j hne] at hj
        exact hj
      exact hne (h.unique j hju i hui)
    refine ⟨(s.write i).left.drop n, ?_, ?_, fun j hj j' hj' => (honly j hj).trans (honly j' hj').symm, ?_, ?_⟩
    · rw [hframes]
      exact h.sublist
    · have hstream : (s.onTransfer i n).stream k = s.stream k ++ (s.write i).left.take n := by
        simp [onTransfer, hk]
      rw [hstream]
      exact h.sending.advance n
    · intro j hj
      rw [honly j hj, hwritei]
      exact ⟨rfl, hlast⟩
    · intro hne
      exact Or.inr ⟨i, hi, by rw [hwritei]; exact hk, by rw [hwritei]; exact hne⟩
  · have hnot : ¬ (s.onTransfer i n).Unfinished i k := fun hu => by
      have hsocket := hu.2.1
      rw [hwritei] at hsocket
      exact hk hsocket
    refine ⟨left, h.mono (by rw [hframes]) ?_ id (fun j => ?_) fun j hj => ?_⟩
    · simp [onTransfer, Function.update_of_ne (Ne.symm hk)]
    · by_cases hj : j = i
      · subst hj
        exact iff_of_false hnot fun hu => hk hu.2.1
      · rw [Unfinished, Unfinished, hwrite j hj]
        rfl
    · exact hwrite j fun heq => hnot (heq ▸ hj)

/-- The same with the changes that the step makes to the registry and to the history before it writes. -/
theorem Streamed.changeAndWrite (h : Streamed s k fs left) (ha : Accepted s) {σ : Registry} {h' : History}
    {i : Conn} {p : Pc} {socket : Conn} {f : Frame} {carries : Carries}
    (hframes : h'.frames = s.history.frames) (hi : (s.pc i).writing = false) (hp : p.writing = true)
    (hclear : socket = k → s.Clear k) :
    ∃ fs' left', Streamed ((s.setProxy σ h').startWrite i p socket f carries) k fs' left' :=
  Streamed.startWrite (s := s.setProxy σ h') (h.quiet hframes rfl rfl rfl fun _ => rfl) ha.absent hi hp hclear

theorem Streamed.step (h : Streamed s k fs left) (ha : Accepted s) (hm : Move cfg s l t)
    (hok : KeepsFrames cfg s l) : ∃ fs' left', Streamed t k fs' left' := by
  have hquiet : ∀ {i : Conn} {p p' : Pc}, t.pc = Function.update s.pc i p' → s.pc i = p →
      p.writing = p'.writing → ∀ j, (t.pc j).writing = (s.pc j).writing := by
    intro i p p' hpc hp hw j
    rw [hpc, Function.update_apply]
    split
    · next hj => rw [hj, hp, hw]
    · rfl
  cases hm with
  | accept => exact ⟨fs, left, h.quiet rfl rfl rfl rfl (hquiet rfl (ha.absent _ le_rfl) rfl)⟩
  | @connect i p _ hk =>
      refine h.changeAndWrite ha rfl (by rw [hk]; rfl) rfl ?_
      rintro rfl
      exact hok i rfl
  | request _ hk haf =>
      rw [onRequest_eq haf] at hquiet ⊢
      exact ⟨fs, left, h.quiet rfl rfl rfl rfl (hquiet rfl hk rfl)⟩
  | @response i p L back afSelf _ hk hchain =>
      refine h.changeAndWrite ha rfl (by rw [hk]; rfl) rfl ?_
      rintro rfl
      refine hok _ ?_
      have hback : (L ++ [back, afSelf]).dropLast.getLast? = some back := by
        rw [show L ++ [back, afSelf] = (L ++ [back]) ++ [afSelf] by simp, List.dropLast_concat,
          List.getLast?_concat]
      rw [target, hchain, hback]
      rfl
  | stay => exact ⟨fs, left, h⟩
  | undefined => exact ⟨fs, left, h.quiet rfl rfl rfl rfl fun _ => rfl⟩
  | readError _ hk => exact ⟨fs, left, h.quiet rfl rfl rfl rfl (hquiet rfl hk rfl)⟩
  | transfer _ hk hleft =>
      obtain ⟨left', h'⟩ := h.transfer _ hk hleft
      exact ⟨fs, left', h'⟩
  | resumeConnack _ hk hec => exact h.endWrite hec rfl rfl rfl rfl rfl rfl
  | resumeResponse _ hk hec => exact h.endWrite hec rfl rfl rfl rfl rfl rfl
  | resumeRequest _ hk hleft => exact h.endWrite (by simp [hleft]) rfl rfl rfl rfl rfl (Cont.pc_ne _).2.2
  | rollback _ hk hleft => exact h.endWrite (by simp [hleft]) rfl rfl rfl rfl rfl (Cont.pc_ne _).2.2
  | @idle _ _ c _ hk =>
      exact ⟨fs, left, h.quiet rfl rfl rfl rfl (hquiet rfl hk (Cont.pc_ne c).2.2.symm)⟩
  | @refused _ _ c _ _ _ ht =>
      exact ⟨fs, left, h.quiet rfl rfl rfl rfl (hquiet rfl ht.pc (Cont.pc_ne c).2.2.symm)⟩
  | @buffered _ _ c _ _ _ _ hd =>
      exact ⟨fs, left, h.quiet rfl rfl rfl rfl (hquiet rfl hd.pc (Cont.pc_ne c).2.2.symm)⟩
  | @writing i af c q rest issuer select hd hsw =>
      refine h.changeAndWrite ha rfl (by rw [hd.pc]; rfl) rfl ?_
      rintro rfl
      refine hok _ ?_
      rw [Registry.depart_isWaiting] at hsw
      have hne : ¬ (s.proxy.actors select).isWaiting = true ∧ issuer ≠ select := by
        split at hsw
        · cases hsw
        · next hne => exact ⟨by rw [hsw]; exact Bool.false_ne_true, Ne.symm hne⟩
      have hbusy : ¬ ((s.proxy.actors select).isWaiting = true ∨ some issuer = some select) := by
        rintro (hw | heq)
        · exact hne.1 hw
        · exact hne.2 (Option.some.inj heq)
      simp only [target, hd.taken, destination, hd.route, hd.issued]
      rw [if_neg hbusy]
      rfl
  | wake _ hk => exact ⟨fs, left, h.quiet rfl rfl rfl rfl (hquiet rfl hk rfl)⟩

/-- The frames that a step can start to write, and where. -/
inductive Writes (cfg : Setting) (s : Sys) : Label → Conn → Frame → Prop
  | connack {k p} : Writes cfg s (.read k (.connect p)) k ⟨coroActorConnack, cfg.serialize.connack ⟨true⟩⟩
  | response {k p socket} :
      Writes cfg s (.read k (.response p)) socket ⟨coroActorResponse, cfg.serialize.response p⟩
  | request {k af c q rest issuer select} : s.Departs cfg k af c q rest issuer select →
      Writes cfg s (.run k) (s.proxy.actors select).socket ⟨coroActorRequest, cfg.serialize.request q.pack⟩

/-- A step writes nothing, or one frame. -/
theorem Move.frames_cases (h : Move cfg s l t) : t.history.frames = s.history.frames ∨
    ∃ socket f, t.history.frames = Function.update s.history.frames socket (s.history.frames socket ++ [f]) ∧
      s.Writes cfg l socket f := by
  cases h with
  | connect => exact Or.inr ⟨_, _, rfl, .connack⟩
  | response => exact Or.inr ⟨_, _, rfl, .response⟩
  | writing hd => exact Or.inr ⟨_, _, rfl, .request hd⟩
  | request _ _ haf =>
      left
      rw [onRequest_eq haf]
      rfl
  | transfer =>
      left
      rw [onTransfer_history]
  | _ => exact Or.inl rfl

theorem Move.stream_grows (h : Move cfg s l t) (k : Conn) : s.stream k <+: t.stream k := by
  cases h with
  | request _ _ haf =>
      rw [onRequest_eq haf]
      exact List.prefix_rfl
  | @transfer i count =>
      simp only [onTransfer, Function.update_apply]
      split
      · next hk =>
          rw [hk]
          exact List.prefix_append _ _
      · exact List.prefix_rfl
  | _ => exact List.prefix_rfl

/-- The streams in a run in which writes do not overlap. -/
theorem streamed_of_reachable (hr : Reachable (machine cfg) (KeepsFrames cfg) s) (k : Conn) :
    ∃ fs left, Streamed s k fs left := by
  have hinv : Accepted s ∧ ∀ k, ∃ fs left, Streamed s k fs left := by
    refine hr.invariant (I := fun s => Accepted s ∧ ∀ k, ∃ fs left, Streamed s k fs left) ?_ ?_
    · refine ⟨accepted_init, fun k => ⟨[], [], List.nil_sublist _, .nil _, ?_, ?_, fun hne => absurd rfl hne⟩⟩
      · exact fun j hj => absurd hj.1 Bool.false_ne_true
      · exact fun j hj => absurd hj.1 Bool.false_ne_true
    · rintro s l t - ⟨ha, hstreams⟩ hok hst
      have hmove := step_move ha.isOpen hst
      refine ⟨ha.step hmove, fun k => ?_⟩
      obtain ⟨fs, left, h⟩ := hstreams k
      exact h.step ha hmove hok
  exact hinv.2 k

/-- **Frame integrity.** In every run in which a write to a socket is started only when the writes to it
before have gone out, whatever the processes do: the bytes on every socket are whole frames that were
written to it, in order, followed by at most a beginning of one more. -/
theorem stream_framed (hr : Reachable (machine cfg) (KeepsFrames cfg) s) (k : Conn) :
    ∃ fs, fs.Sublist (s.history.frames k) ∧ Framed Frame.bytes fs (s.stream k) := by
  obtain ⟨fs, left, h⟩ := streamed_of_reachable hr k
  exact ⟨fs, h.sublist, h.sending.framed⟩

/-- Two requests to one actor, the second written when the first has gone out. -/
theorem stream_framed_sample : ∃ s, Reachable (machine Sample.setting) (KeepsFrames Sample.setting) s ∧
    (s.history.frames 2).length = 3 ∧
    ∃ fs, fs.Sublist (s.history.frames 2) ∧ Framed Frame.bytes fs (s.stream 2) := by
  obtain ⟨s, hr, hlen⟩ := Reachable.of_leadsTo (machine Sample.setting) (KeepsFrames Sample.setting)
    (Sample.join 0 10 "a" ++ Sample.join 1 11 "a" ++ Sample.join 2 12 "b" ++
      [Sample.request 0 10 "10-1" "svc_b", .run 0, .transfer 0 1000, Sample.request 1 11 "11-1" "svc_b", .run 1,
        .transfer 1 7])
    (fun s => (s.history.frames 2).length = 3) (by decide +kernel)
  exact ⟨s, hr, hlen, stream_framed hr 2⟩

/-- Actors 0 and 1 ask actor 2. The second REQUEST goes out after the first five bytes of the first. -/
theorem stream_interleaved : ∃ s k, Reachable (machine Sample.setting) (Lawful Sample.setting) s ∧
    ¬ ∃ fs, fs.Sublist (s.history.frames k) ∧ Framed Frame.bytes fs (s.stream k) := by
  obtain ⟨s, hr, hsub⟩ := Reachable.of_leadsTo (machine Sample.setting) (Lawful Sample.setting)
    (Sample.join 0 10 "a" ++ Sample.join 1 11 "a" ++ Sample.join 2 12 "b" ++
      [Sample.request 0 10 "10-1" "svc_b", .run 0, .transfer 0 4, Sample.request 1 11 "11-1" "svc_b", .run 1,
        .transfer 1 1000, .transfer 0 1000])
    (fun s => ∀ fs ∈ (s.history.frames 2).sublists, ¬ s.stream 2 <+: fs.flatMap Frame.bytes)
    (by decide +kernel)
  refine ⟨s, 2, hr, ?_⟩
  rintro ⟨fs, hfs, hframed⟩
  exact hsub fs (List.mem_sublists.mpr hfs) hframed.isPrefix

end Sys

end CoroActor.Proxy
