import CoroActor.Proxy.Access
import CoroActor.Proxy.Streams

/-! Which frames have gone out. What a step does to the writes is said once: it starts one, puts bytes of one on
its socket, ends one, or leaves them alone. As long as writes to one socket do not overlap, the bytes on it are the
frames that have gone out, in order, and of at most one more frame a part. -/

namespace CoroActor.Proxy

open TransitionSystem

namespace Sys

/-- The writes that a step can start, by which coroutine, and what else the history says then. -/
inductive Starts (cfg : Setting) (s : Sys) : Label → Conn → Write → History → Prop
  | connack {k p} : Starts cfg s (.read k (.connect p)) k
      ⟨k, ⟨coroActorConnack, cfg.serialize.connack ⟨true⟩⟩,
        (⟨coroActorConnack, cfg.serialize.connack ⟨true⟩⟩ : Frame).bytes, .connack⟩ s.history
  | response {k p L back afSelf} : s.proxy.chain p.callId = L ++ [back, afSelf] →
      Starts cfg s (.read k (.response p)) k
        ⟨(s.proxy.actors back).socket, ⟨coroActorResponse, cfg.serialize.response p⟩,
          (⟨coroActorResponse, cfg.serialize.response p⟩ : Frame).bytes, .response (s.answered k p.callId)⟩
        (s.history.reply (s.answered k p.callId) back)
  | request {k af c q rest issuer select} : s.Departs cfg k af c q rest issuer select →
      ((s.proxy.depart af rest q issuer select).actors select).isWaiting = false →
      Starts cfg s (.run k) k
        ⟨(s.proxy.actors select).socket, ⟨coroActorRequest, cfg.serialize.request q.pack⟩,
          (⟨coroActorRequest, cfg.serialize.request q.pack⟩ : Frame).bytes, .request q.serial⟩
        (s.history.send q.serial select)

/-- What a step does to the writes. -/
inductive WriteMove (cfg : Setting) (s : Sys) : Label → Sys → Prop
  | quiet {l t} : (∀ j count, l ≠ .transfer j count) → t.history.frames = s.history.frames →
      t.stream = s.stream → t.cut = s.cut → t.write = s.write → (∀ j, (t.pc j).writing = (s.pc j).writing) →
      WriteMove cfg s l t
  | start {l t j w h} : Starts cfg s l j w h → (s.pc j).writing = false → (t.pc j).writing = true →
      (∀ i : Nat, i ≠ j → t.pc i = s.pc i) → t.write = Function.update s.write j w → t.stream = s.stream →
      t.cut = s.cut → t.history = h.frame w.socket w.frame → WriteMove cfg s l t
  | transfer {j count} : (s.pc j).writing = true → (s.write j).left ≠ [] →
      WriteMove cfg s (.transfer j count) (s.onTransfer j (count + 1))
  | finish {j ec t} : (s.pc j).writing = true → (t.pc j).writing = false →
      (∀ i : Nat, i ≠ j → t.pc i = s.pc i) → (ec = true ↔ (s.write j).left ≠ []) →
      t.history.frames = s.history.frames → t.stream = s.stream → t.write = s.write →
      t.cut = (s.endWrite j ec).cut → WriteMove cfg s (.resume j ec) t

variable {cfg : Setting} {s t : Sys} {l : Label} {j k : Conn} {w : Write} {h : History} {fs : List Frame}

theorem Starts.left_eq (hw : Starts cfg s l j w h) : w.left = w.frame.bytes := by
  cases hw <;> rfl

theorem Starts.frames_eq (hw : Starts cfg s l j w h) : h.frames = s.history.frames := by
  cases hw <;> rfl

theorem Starts.target (hw : Starts cfg s l j w h) : s.target cfg l = some w.socket := by
  cases hw with
  | connack => rfl
  | @response k p L back afSelf hchain =>
      have hback : (L ++ [back, afSelf]).dropLast.getLast? = some back := by
        rw [show L ++ [back, afSelf] = (L ++ [back]) ++ [afSelf] by simp, List.dropLast_concat,
          List.getLast?_concat]
      rw [Sys.target, hchain, hback]
      rfl
  | @request k af c q rest issuer select hd hsw =>
      rw [Registry.depart_isWaiting] at hsw
      have hbusy : ¬ ((s.proxy.actors select).isWaiting = true ∨ some issuer = some select) := by
        rintro (hw | heq)
        · split at hsw
          · cases hsw
          · rw [hsw] at hw
            cases hw
        · rw [if_pos (Option.some.inj heq).symm] at hsw
          cases hsw
      simp only [Sys.target, hd.taken, destination, hd.route, hd.issued]
      rw [if_neg hbusy]

theorem step_writeMove (hopen : ∀ k, s.proxy.isOpen k = true) (ha : ∀ i : Nat, s.nconn ≤ i → s.pc i = .absent)
    (h : s.step cfg l = some t) : WriteMove cfg s l t := by
  by_cases hl : ∃ j count, l = .transfer j count
  · obtain ⟨j, count, rfl⟩ := hl
    simp only [step, Option.ite_none_right_eq_some, Option.some.injEq] at h
    obtain ⟨⟨-, hj, hleft⟩, rfl⟩ := h
    exact .transfer hj hleft
  · have hne : ∀ j count, l ≠ .transfer j count := fun j count heq => hl ⟨j, count, heq⟩
    have hquiet : ∀ {i : Conn} {p p' : Pc}, t.pc = Function.update s.pc i p' → s.pc i = p →
        p.writing = p'.writing → ∀ j, (t.pc j).writing = (s.pc j).writing := by
      intro i p p' hpc hp hw j
      rw [hpc, Function.update_apply]
      split
      · next hj => rw [hj, hp, hw]
      · rfl
    have hothers : ∀ {i : Conn} {p : Pc}, t.pc = Function.update s.pc i p →
        ∀ j : Nat, j ≠ i → t.pc j = s.pc j := by
      intro i p hpc j hj
      rw [hpc, Function.update_of_ne hj]
    have hcont : ∀ c : Cont, c.pc.writing = false := fun c => (Cont.pc_ne c).2.2
    cases step_move hopen h with
    | accept => exact .quiet hne rfl rfl rfl rfl (hquiet rfl (ha _ (Nat.le_refl _)) rfl)
    | @connect k p _ hk =>
        exact .start .connack (by rw [hk]; rfl) (by simp [onConnect, Pc.writing]) (hothers rfl) rfl rfl rfl rfl
    | request _ hk haf =>
        rw [onRequest_eq haf] at hquiet ⊢
        exact .quiet hne rfl rfl rfl rfl (hquiet rfl hk rfl)
    | response _ hk hchain =>
        exact .start (.response hchain) (by rw [hk]; rfl) (by simp [Pc.writing]) (hothers rfl) rfl rfl rfl rfl
    | stay => exact .quiet hne rfl rfl rfl rfl fun _ => rfl
    | undefined => exact .quiet hne rfl rfl rfl rfl fun _ => rfl
    | readError _ hk => exact .quiet hne rfl rfl rfl rfl (hquiet rfl hk rfl)
    | transfer => exact absurd rfl (hne _ _)
    | resumeConnack _ hk hec =>
        exact .finish (by rw [hk]; rfl) (by simp [Pc.writing]) (hothers rfl) hec rfl rfl rfl rfl
    | resumeResponse _ hk hec =>
        exact .finish (by rw [hk]; rfl) (by simp [Pc.writing]) (hothers rfl) hec rfl rfl rfl rfl
    | resumeRequest _ hk hleft =>
        exact .finish (by rw [hk]; rfl) (by simp [returnTo, hcont]) (hothers rfl) (by simp [hleft]) rfl rfl rfl rfl
    | rollback _ hk hleft =>
        exact .finish (by rw [hk]; rfl) (by simp [returnTo, hcont]) (hothers rfl) (by simp [hleft]) rfl rfl rfl rfl
    | idle _ hk => exact .quiet hne rfl rfl rfl rfl (hquiet rfl hk (hcont _).symm)
    | refused ht => exact .quiet hne rfl rfl rfl rfl (hquiet rfl ht.pc (hcont _).symm)
    | buffered hd => exact .quiet hne rfl rfl rfl rfl (hquiet rfl hd.pc (hcont _).symm)
    | writing hd hsw =>
        exact .start (.request hd hsw) (by rw [hd.pc]; rfl) (by simp [Pc.writing]) (hothers rfl) rfl rfl rfl rfl
    | wake _ hk => exact .quiet hne rfl rfl rfl rfl (hquiet rfl hk rfl)

/-- The coroutine of `j` is at a write after the step: it was, or it has started it. -/
theorem WriteMove.unfinished (h : WriteMove cfg s l t) (hj : t.Unfinished j k) :
    s.Unfinished j k ∧ (t.write j).frame = (s.write j).frame ∧ (t.write j).carries = (s.write j).carries ∨
      (∃ h, Starts cfg s l j (t.write j) h ∧ t.history = h.frame (t.write j).socket (t.write j).frame) ∧
        (t.write j).socket = k := by
  cases h with
  | quiet _ _ _ _ hwrite hpc =>
      rw [Unfinished, hwrite, hpc] at hj
      rw [hwrite]
      exact Or.inl ⟨hj, rfl, rfl⟩
  | @start _ _ i w h hstarts _ _ hpc hwrite _ _ hhist =>
      by_cases hi : j = i
      · subst hi
        have hnew : t.write j = w := by rw [hwrite, Function.update_self]
        rw [hnew]
        exact Or.inr ⟨⟨h, hstarts, hhist⟩, hnew ▸ hj.2.1⟩
      · rw [Unfinished, hwrite, hpc j hi, Function.update_of_ne hi] at hj
        rw [hwrite, Function.update_of_ne hi]
        exact Or.inl ⟨hj, rfl, rfl⟩
  | @transfer i count hi hleft =>
      left
      by_cases hji : j = i
      · subst hji
        have hself : (s.onTransfer j (count + 1)).write j =
            { s.write j with left := (s.write j).left.drop (count + 1) } := Function.update_self _ _ _
        rw [Unfinished, hself] at hj
        rw [hself]
        exact ⟨⟨hi, hj.2.1, hleft⟩, rfl, rfl⟩
      · have hother : (s.onTransfer i (count + 1)).write j = s.write j := Function.update_of_ne hji _ _
        rw [Unfinished, hother] at hj
        rw [hother]
        exact ⟨hj, rfl, rfl⟩
  | @finish i _ _ _ hdone hpc _ _ _ hwrite =>
      have hji : j ≠ i := by
        rintro rfl
        rw [Unfinished, hdone] at hj
        cases hj.1
      rw [Unfinished, hwrite, hpc j hji] at hj
      rw [hwrite]
      exact Or.inl ⟨hj, rfl, rfl⟩

/-- A write that is not finished goes on, unless its last byte goes out or it fails. -/
theorem WriteMove.pending (h : WriteMove cfg s l t) (hj : s.Unfinished j k) :
    (t.Unfinished j k ∧ (t.write j).carries = (s.write j).carries ∧
      ∀ count, l = .transfer j count → (s.write j).left.drop (count + 1) ≠ []) ∨
      (∃ count, l = .transfer j count ∧ (s.write j).left.drop (count + 1) = []) ∨ l = .resume j true := by
  cases h with
  | quiet hne _ _ _ hwrite hpc =>
      left
      rw [Unfinished, hwrite, hpc]
      exact ⟨hj, rfl, fun count heq => absurd heq (hne j count)⟩
  | @start _ _ i w h hstarts hold _ hpc hwrite _ _ _ =>
      left
      have hji : j ≠ i := by
        rintro rfl
        rw [hj.1] at hold
        cases hold
      rw [Unfinished, hwrite, hpc j hji, Function.update_of_ne hji]
      refine ⟨hj, rfl, ?_⟩
      rintro count rfl
      cases hstarts
  | @transfer i count hi hleft =>
      by_cases hji : j = i
      · subst hji
        by_cases hdone : (s.write j).left.drop (count + 1) = []
        · exact Or.inr (Or.inl ⟨count, rfl, hdone⟩)
        · left
          have hself : (s.onTransfer j (count + 1)).write j =
              { s.write j with left := (s.write j).left.drop (count + 1) } := Function.update_self _ _ _
          rw [Unfinished, hself]
          exact ⟨⟨hi, hj.2.1, hdone⟩, rfl, fun _ heq => by cases heq; exact hdone⟩
      · left
        have hother : (s.onTransfer i (count + 1)).write j = s.write j := Function.update_of_ne hji _ _
        rw [Unfinished, hother]
        exact ⟨hj, rfl, fun _ heq => by cases heq; exact absurd rfl hji⟩
  | @finish i ec _ hi hdone hpc hec _ _ hwrite _ =>
      by_cases hji : j = i
      · subst hji
        rw [hec.mpr hj.2.2]
        exact Or.inr (Or.inr rfl)
      · left
        rw [Unfinished, hwrite, hpc j hji]
        exact ⟨hj, rfl, fun _ heq => by cases heq⟩

/-- What the step completes on the socket: the frame, and what it carries. -/
def wentOut (s : Sys) (k : Conn) : Label → List (Frame × Carries)
  | .transfer j count =>
      if (s.write j).socket = k ∧ (s.write j).left.drop (count + 1) = [] then
        [((s.write j).frame, (s.write j).carries)]
      else []
  | _ => []

theorem wentOut_transfer (s : Sys) (k j : Conn) (count : Nat) : s.wentOut k (.transfer j count) =
    if (s.write j).socket = k ∧ (s.write j).left.drop (count + 1) = [] then
      [((s.write j).frame, (s.write j).carries)]
    else [] := rfl

theorem wentOut_of_ne (hl : ∀ j count, l ≠ .transfer j count) : s.wentOut k l = [] := by
  cases l with
  | transfer j count => exact absurd rfl (hl j count)
  | _ => rfl

/-- The frames `fs` have gone out to the socket; of one more, a part may have. -/
structure Whole (s : Sys) (k : Conn) (fs : List Frame) : Prop where
  given : ∀ f ∈ fs, f ∈ s.history.frames k
  single : ∀ i j, s.Unfinished i k → s.Unfinished j k → i = j
  part : ∀ j, s.Unfinished j k → s.cut k = false ∧ (s.write j).frame ∈ s.history.frames k ∧
    ∃ part, (s.write j).frame.bytes = part ++ (s.write j).left ∧ s.stream k = fs.flatMap Frame.bytes ++ part
  free : (∀ j, ¬ s.Unfinished j k) → s.cut k = false → s.stream k = fs.flatMap Frame.bytes
  cut : s.cut k = true → ∃ f ∈ s.history.frames k, ∃ part, part <+: f.bytes ∧ part ≠ f.bytes ∧
    s.stream k = fs.flatMap Frame.bytes ++ part

theorem whole_init (k : Conn) : Whole Sys.init k [] where
  given _ hf := absurd hf List.not_mem_nil
  single _ _ hi := absurd hi.1 Bool.false_ne_true
  part _ hj := absurd hj.1 Bool.false_ne_true
  free _ _ := rfl
  cut hcut := absurd hcut Bool.false_ne_true

theorem Whole.stream (h : Whole s k fs) : ∃ part, s.stream k = fs.flatMap Frame.bytes ++ part ∧
    (part = [] ∨ ∃ f ∈ s.history.frames k, part <+: f.bytes ∧ part ≠ f.bytes) := by
  cases hcut : s.cut k with
  | true =>
      obtain ⟨f, hf, part, hpre, hne, hstream⟩ := h.cut hcut
      exact ⟨part, hstream, Or.inr ⟨f, hf, hpre, hne⟩⟩
  | false =>
      by_cases hfree : ∃ j, s.Unfinished j k
      · obtain ⟨j, hj⟩ := hfree
        obtain ⟨-, hf, part, hbytes, hstream⟩ := h.part j hj
        refine ⟨part, hstream, Or.inr ⟨_, hf, ⟨_, hbytes.symm⟩, fun heq => hj.2.2 ?_⟩⟩
        rw [heq] at hbytes
        exact List.self_eq_append_right.mp hbytes
      · refine ⟨[], ?_, Or.inl rfl⟩
        rw [List.append_nil]
        exact h.free (not_exists.mp hfree) hcut

theorem Whole.mono (h : Whole s k fs) (hframes : ∀ f ∈ s.history.frames k, f ∈ t.history.frames k)
    (hstream : t.stream k = s.stream k) (hcut : t.cut k = s.cut k)
    (hunfinished : ∀ j, t.Unfinished j k ↔ s.Unfinished j k)
    (hwrite : ∀ j, t.Unfinished j k → t.write j = s.write j) : Whole t k fs where
  given f hf := hframes f (h.given f hf)
  single i j hi hj := h.single i j ((hunfinished i).mp hi) ((hunfinished j).mp hj)
  part j hj := by
    obtain ⟨hc, hf, hpart⟩ := h.part j ((hunfinished j).mp hj)
    rw [hwrite j hj, hstream, hcut]
    exact ⟨hc, hframes _ hf, hpart⟩
  free hnone hc := by
    rw [hstream]
    exact h.free (fun j hj => hnone j ((hunfinished j).mpr hj)) (hcut ▸ hc)
  cut hc := by
    obtain ⟨f, hf, hpart⟩ := h.cut (hcut ▸ hc)
    rw [hstream]
    exact ⟨f, hframes f hf, hpart⟩

/-- A write is started: on a clear socket, or on another one. -/
theorem Whole.start (h : Whole s k fs) (ha : ∀ i : Nat, s.nconn ≤ i → s.pc i = .absent)
    (hleft : w.left = w.frame.bytes) (hj : (s.pc j).writing = false) (hnew : (t.pc j).writing = true)
    (hpc : ∀ i : Nat, i ≠ j → t.pc i = s.pc i) (hwrite : t.write = Function.update s.write j w)
    (hstream : t.stream = s.stream) (hcut : t.cut = s.cut)
    (hframes : t.history.frames = Function.update s.history.frames w.socket (s.history.frames w.socket ++ [w.frame]))
    (hclear : w.socket = k → s.Clear k) : Whole t k fs := by
  have hself : t.write j = w := by rw [hwrite, Function.update_self]
  have hother : ∀ i : Nat, i ≠ j → (t.Unfinished i k ↔ s.Unfinished i k) := by
    intro i hi
    rw [Unfinished, Unfinished, hpc i hi, hwrite, Function.update_of_ne hi]
  have hgrows : ∀ f ∈ s.history.frames k, f ∈ t.history.frames k := by
    intro f hf
    rw [hframes, Function.update_apply]
    split
    · next hk => exact List.mem_append_left _ (hk ▸ hf)
    · exact hf
  by_cases hk : w.socket = k
  · subst hk
    have hnone := (hclear rfl).not_unfinished ha
    have honly : ∀ i, t.Unfinished i w.socket → i = j := by
      intro i hi
      by_contra hne
      exact hnone i ((hother i hne).mp hi)
    have hfree := h.free hnone (hclear rfl).1
    constructor
    · exact fun f hf => hgrows f (h.given f hf)
    · exact fun i i' hi hi' => (honly i hi).trans (honly i' hi').symm
    · intro i hi
      rw [honly i hi, hself, hcut, hstream, hframes, Function.update_self]
      refine ⟨(hclear rfl).1, List.mem_append_right _ List.mem_cons_self, [], ?_, ?_⟩
      · rw [hleft, List.nil_append]
      · rw [hfree, List.append_nil]
    · intro hall
      exact absurd ⟨hnew, by rw [hself], by rw [hself, hleft]; exact Frame.bytes_ne_nil _⟩ (hall j)
    · intro hc
      rw [hcut, (hclear rfl).1] at hc
      cases hc
  · have hnot : ¬ t.Unfinished j k := fun hu => hk (hself ▸ hu.2.1)
    refine h.mono hgrows (by rw [hstream]) (by rw [hcut]) (fun i => ?_) fun i hi => ?_
    · by_cases hi : i = j
      · subst hi
        refine iff_of_false hnot fun hu => ?_
        rw [Unfinished, hj] at hu
        cases hu.1
      · exact hother i hi
    · have hij : i ≠ j := by
        rintro rfl
        exact hnot hi
      rw [hwrite, Function.update_of_ne hij]

theorem Whole.transfer (h : Whole s k fs) {count : Nat} (hj : (s.pc j).writing = true)
    (hleft : (s.write j).left ≠ []) :
    Whole (s.onTransfer j (count + 1)) k (fs ++ (s.wentOut k (.transfer j count)).map Prod.fst) := by
  have hframes : (s.onTransfer j (count + 1)).history.frames = s.history.frames := by rw [onTransfer_history]
  have hself : (s.onTransfer j (count + 1)).write j =
      { s.write j with left := (s.write j).left.drop (count + 1) } := Function.update_self _ _ _
  have hother : ∀ i : Nat, i ≠ j → (s.onTransfer j (count + 1)).write i = s.write i := fun i hi =>
    Function.update_of_ne hi _ _
  have hunfinished : ∀ i : Nat, i ≠ j → ((s.onTransfer j (count + 1)).Unfinished i k ↔ s.Unfinished i k) := by
    intro i hi
    rw [Unfinished, Unfinished, hother i hi]
    rfl
  by_cases hk : (s.write j).socket = k
  · have hu : s.Unfinished j k := ⟨hj, hk, hleft⟩
    obtain ⟨hc, hf, part, hbytes, hstream⟩ := h.part j hu
    have hnone : ∀ i : Nat, i ≠ j → ¬ (s.onTransfer j (count + 1)).Unfinished i k := fun i hi hui =>
      hi (h.single i j ((hunfinished i hi).mp hui) hu)
    have hout : (s.onTransfer j (count + 1)).stream k =
        fs.flatMap Frame.bytes ++ (part ++ (s.write j).left.take (count + 1)) := by
      rw [← List.append_assoc, ← hstream, ← hk]
      exact Function.update_self _ _ _
    by_cases hdone : (s.write j).left.drop (count + 1) = []
    · rw [wentOut_transfer, if_pos ⟨hk, hdone⟩, List.map_singleton]
      have hall : ∀ i, ¬ (s.onTransfer j (count + 1)).Unfinished i k := by
        intro i
        by_cases hi : i = j
        · subst hi
          intro hui
          apply hui.2.2
          rw [hself]
          exact hdone
        · exact hnone i hi
      have hwhole : (s.write j).left.take (count + 1) = (s.write j).left := by
        conv_rhs => rw [← List.take_append_drop (count + 1) (s.write j).left, hdone, List.append_nil]
      constructor
      · intro f hmem
        rw [hframes]
        rcases List.mem_append.mp hmem with hold | hnew
        · exact h.given f hold
        · rw [List.mem_singleton.mp hnew]
          exact hf
      · exact fun i _ hi => absurd hi (hall i)
      · exact fun i hi => absurd hi (hall i)
      · intro _ _
        rw [hout, hwhole, ← hbytes, List.flatMap_append, List.flatMap_singleton]
      · intro hcut
        exact absurd (hcut.symm.trans hc) (by decide)
    · rw [wentOut_transfer, if_neg fun hand => hdone hand.2, List.map_nil, List.append_nil]
      have hmore : (s.onTransfer j (count + 1)).Unfinished j k := by
        rw [Unfinished, hself]
        exact ⟨hj, hk, hdone⟩
      have honly : ∀ i, (s.onTransfer j (count + 1)).Unfinished i k → i = j := by
        intro i hi
        by_contra hne
        exact hnone i hne hi
      constructor
      · rw [hframes]
        exact h.given
      · exact fun i i' hi hi' => (honly i hi).trans (honly i' hi').symm
      · intro i hi
        rw [honly i hi, hself, hframes]
        refine ⟨hc, hf, _, ?_, hout⟩
        rw [hbytes, List.append_assoc, List.take_append_drop]
      · exact fun hall => absurd hmore (hall j)
      · exact fun hcut => absurd (hcut.symm.trans hc) (by decide)
  · rw [wentOut_transfer, if_neg fun hand => hk hand.1, List.map_nil, List.append_nil]
    have hnot : ¬ (s.onTransfer j (count + 1)).Unfinished j k := by
      rw [Unfinished, hself]
      exact fun hu => hk hu.2.1
    refine h.mono (by rw [hframes]; exact fun _ => id) ?_ rfl (fun i => ?_) fun i hi => ?_
    · exact Function.update_of_ne (Ne.symm hk) _ _
    · by_cases hi : i = j
      · subst hi
        exact iff_of_false hnot fun hu => hk hu.2.1
      · exact hunfinished i hi
    · exact hother i fun heq => hnot (heq ▸ hi)

theorem Whole.finish (h : Whole s k fs) {ec : Bool} (hj : (s.pc j).writing = true) (hdone : (t.pc j).writing = false)
    (hpc : ∀ i : Nat, i ≠ j → t.pc i = s.pc i) (hec : ec = true ↔ (s.write j).left ≠ [])
    (hframes : t.history.frames = s.history.frames) (hstream : t.stream = s.stream) (hwrite : t.write = s.write)
    (hcut : t.cut = (s.endWrite j ec).cut) : Whole t k fs := by
  have hself : ¬ t.Unfinished j k := by
    rw [Unfinished, hdone]
    exact fun hu => Bool.false_ne_true hu.1
  have hother : ∀ i : Nat, i ≠ j → (t.Unfinished i k ↔ s.Unfinished i k) := by
    intro i hi
    rw [Unfinished, Unfinished, hpc i hi, hwrite]
  by_cases hu : s.Unfinished j k
  · obtain ⟨hc, hf, part, hbytes, hout⟩ := h.part j hu
    have hnone : ∀ i, ¬ t.Unfinished i k := by
      intro i hi
      by_cases hij : i = j
      · exact hself (hij ▸ hi)
      · exact hij (h.single i j ((hother i hij).mp hi) hu)
    have htrue : ec = true := hec.mpr hu.2.2
    have hcutk : t.cut k = decide ((s.write j).left ≠ (s.write j).frame.bytes) := by
      rw [hcut, endWrite_cut, hu.2.1, Function.update_self, hc, htrue, Bool.false_or, Bool.true_and]
    constructor
    · rw [hframes]
      exact h.given
    · exact fun i _ hi => absurd hi (hnone i)
    · exact fun i hi => absurd hi (hnone i)
    · intro _ hnot
      rw [hcutk, decide_eq_false_iff_not, not_not] at hnot
      have hnil : part = [] := List.self_eq_append_left.mp (hnot.trans hbytes)
      rw [hstream, hout, hnil, List.append_nil]
    · intro _
      rw [hframes, hstream]
      refine ⟨_, hf, part, ⟨_, hbytes.symm⟩, fun heq => hu.2.2 ?_, hout⟩
      rw [heq] at hbytes
      exact List.self_eq_append_right.mp hbytes
  · have hsame : t.cut k = s.cut k := by
      rw [hcut, endWrite_cut, Function.update_apply]
      split
      · next hk =>
          have hnot : (ec && decide ((s.write j).left ≠ (s.write j).frame.bytes)) = false := by
            have hleft : (s.write j).left = [] := by
              by_contra hne
              exact hu ⟨hj, hk.symm, hne⟩
            have hfalse : ec = false := by
              rw [← Bool.not_eq_true, hec, not_not]
              exact hleft
            rw [hfalse, Bool.false_and]
          rw [hnot, Bool.or_false, hk]
      · rfl
    refine h.mono (by rw [hframes]; exact fun _ => id) (by rw [hstream]) hsame (fun i => ?_) fun i _ => by rw [hwrite]
    by_cases hi : i = j
    · subst hi
      exact iff_of_false hself hu
    · exact hother i hi

theorem Whole.step (h : Whole s k fs) (ha : Accepted s) (hst : s.step cfg l = some t) (hok : KeepsFrames cfg s l) :
    Whole t k (fs ++ (s.wentOut k l).map Prod.fst) := by
  cases step_writeMove ha.isOpen ha.absent hst with
  | quiet hl hframes hstream hcut hwrite hpc =>
      rw [wentOut_of_ne hl, List.map_nil, List.append_nil]
      refine h.mono (by rw [hframes]; exact fun _ => id) (by rw [hstream]) (by rw [hcut]) (fun j => ?_) fun j _ => by
        rw [hwrite]
      rw [Unfinished, Unfinished, hpc, hwrite]
  | @start _ _ j w _ hstarts hj hnew hpc hwrite hstream hcut hhist =>
      have hframes : t.history.frames = Function.update _ w.socket _ := congrArg History.frames hhist
      rw [hstarts.frames_eq] at hframes
      have hl : ∀ j count, l ≠ .transfer j count := by
        rintro j count rfl
        cases hstarts
      rw [wentOut_of_ne hl, List.map_nil, List.append_nil]
      refine h.start ha.absent hstarts.left_eq hj hnew hpc hwrite hstream hcut hframes fun hk => ?_
      exact hok k (by rw [hstarts.target, hk]; rfl)
  | transfer hj hleft => exact h.transfer hj hleft
  | finish hj hdone hpc hec hframes hstream hwrite hcut =>
      rw [wentOut_of_ne (l := .resume _ _) fun _ _ heq => (by cases heq), List.map_nil, List.append_nil]
      exact h.finish hj hdone hpc hec hframes hstream hwrite hcut

/-- An actor keeps its entry, and a new one is that of the connection on which CONNECT was read. -/
theorem Move.registration (h : Move cfg s l t) : (∀ r < s.proxy.nactors, r < t.proxy.nactors ∧
      (t.proxy.actors r).socket = (s.proxy.actors r).socket ∧ (t.proxy.actors r).pid = (s.proxy.actors r).pid ∧
      (t.proxy.actors r).name = (s.proxy.actors r).name) ∧
    ∀ r < t.proxy.nactors, r < s.proxy.nactors ∨ ∃ k p, l = .read k (.connect p) ∧
      (t.proxy.actors r).socket = k ∧ (t.proxy.actors r).pid = p.pid ∧ (t.proxy.actors r).name = p.name := by
  by_cases hl : ∃ k p, l = .read k (.connect p)
  · obtain ⟨k, p, rfl⟩ := hl
    cases h with
    | connect =>
        constructor
        · intro r hr
          rw [onConnect_old p hr]
          exact ⟨Nat.lt_succ_of_lt hr, rfl, rfl, rfl⟩
        · intro r hr
          rcases Nat.lt_succ_iff_lt_or_eq.mp hr with hold | rfl
          · exact Or.inl hold
          · refine Or.inr ⟨k, p, rfl, ?_⟩
            rw [onConnect_new]
            exact ⟨rfl, rfl, rfl⟩
    | stay | undefined => exact ⟨fun r hr => ⟨hr, rfl, rfl, rfl⟩, fun r hr => Or.inl hr⟩
  · have hsame := h.sameWiring fun k p heq => hl ⟨k, p, heq⟩
    rw [hsame.nactors]
    exact ⟨fun r hr => ⟨hr, hsame.socket r, hsame.pid r, hsame.name r⟩, fun r hr => Or.inl hr⟩

/-- Only the sockets of actors are written to. -/
theorem framed_registered (hr : Reachable (machine cfg) (Lawful cfg) s) (k : Conn) (hk : s.history.frames k ≠ []) :
    ∃ r < s.proxy.nactors, (s.proxy.actors r).socket = k := by
  have hplain : Reachable (machine cfg) (fun s l => Rule cfg s l ∧ OpensFresh s l ∧ True) s :=
    hr.mono fun _ _ h => ⟨h.1, h.2, trivial⟩
  refine (Orderly.invariant (I := fun s => ∀ k, s.history.frames k ≠ [] →
    ∃ r < s.proxy.nactors, (s.proxy.actors r).socket = k) hplain (fun k hk => absurd rfl hk) ?_).2 k hk
  intro s l t hs _ hm hrule _ hi k hk
  have hold : ∀ {r}, r < s.proxy.nactors → (s.proxy.actors r).socket = k →
      ∃ r < t.proxy.nactors, (t.proxy.actors r).socket = k := by
    intro r hr hsocket
    exact ⟨r, (hm.socket hr).1, (hm.socket hr).2.trans hsocket⟩
  have hsame : t.history.frames = s.history.frames → ∃ r < t.proxy.nactors, (t.proxy.actors r).socket = k := by
    intro hframes
    rw [hframes] at hk
    obtain ⟨r, hr, hsocket⟩ := hi k hk
    exact hold hr hsocket
  have hnew : ∀ {socket f},
      t.history.frames = Function.update s.history.frames socket (s.history.frames socket ++ [f]) →
      (socket = k → ∃ r < t.proxy.nactors, (t.proxy.actors r).socket = k) →
      ∃ r < t.proxy.nactors, (t.proxy.actors r).socket = k := by
    intro socket f hframes hsocket
    by_cases heq : socket = k
    · exact hsocket heq
    · rw [hframes, Function.update_of_ne (Ne.symm heq)] at hk
      obtain ⟨r, hr, hsocket⟩ := hi k hk
      exact hold hr hsocket
  cases hm with
  | @connect j p =>
      refine hnew rfl ?_
      rintro rfl
      refine ⟨s.proxy.nactors, Nat.lt_succ_self _, ?_⟩
      rw [onConnect_new]
  | response _ _ hchain =>
      obtain ⟨n, hn, -, -, -, -, -, -, rfl, -⟩ := hs.toSound.reply hrule.1 hchain
      exact hnew rfl fun hsocket => hold (hs.booked.holder_lt hn) hsocket
  | writing hd =>
      obtain ⟨-, -, -, -, hlt, -⟩ := hs.toSound.departs hd
      exact hnew rfl fun hsocket => hold hlt hsocket
  | request _ _ haf =>
      rw [onRequest_eq haf] at hsame ⊢
      exact hsame rfl
  | transfer =>
      apply hsame
      rw [onTransfer_history]
  | _ => exact hsame rfl

/-- No step of well-behaved processes leads to undefined behaviour. -/
theorem sane_of_rule (hr : Reachable (machine cfg) (Rule cfg) s) : s.fault = false := by
  have hpeer : ∀ s l, Rule cfg s l → s.Peer l := by
    intro s l hrule
    cases l with
    | read k f =>
        cases f with
        | connect p => exact hrule
        | request p =>
            obtain ⟨⟨r, hlt, hsocket, hpid, -⟩, -⟩ := hrule
            exact ⟨r, hlt, hsocket, hpid⟩
        | response p => exact hrule.2
        | other => trivial
    | _ => trivial
  have hg : Guarded s := by
    refine hr.invariant guarded_init fun s l t _ hg hrule hst => ?_
    have hmove := step_move hg.isOpen hst
    exact hg.step hmove (hpeer s l hrule) (hmove.fault hg.sane (hg.accesses (hpeer s l hrule)))
  exact hg.sane

theorem undelivered_of_reachable (hr : Reachable (machine cfg) (Lawful cfg) s) : Orderly cfg s ∧ Undelivered s := by
  have hplain : Reachable (machine cfg) (fun s l => Rule cfg s l ∧ OpensFresh s l ∧ True) s :=
    hr.mono fun _ _ h => ⟨h.1, h.2, trivial⟩
  refine Orderly.invariant hplain undelivered_init ?_
  intro s l t hs _ hm hrule _ hi
  exact hi.step hm hs hrule

/-- The request that a process answers is the one that it serves. -/
theorem Sound.answered_eq (hs : Sound cfg s) {p : CoroActorResponse} (hidle : s.Idle k) {n : Nat}
    (hn : n < s.history.nreq) (ha : s.Answers k p.callId n) : s.answered k p.callId = some n := by
  cases hans : s.answered k p.callId with
  | none =>
      rw [answered, List.find?_eq_none] at hans
      exact absurd (decide_eq_true ha) (hans n (List.mem_range.mpr hn))
  | some m =>
      have hm : m < s.history.nreq := List.mem_range.mp (List.mem_of_find?_eq_some hans)
      have ham : s.Answers k p.callId m := by
        have hfound := List.find?_some hans
        exact of_decide_eq_true hfound
      obtain ⟨hlive, hc, x, hx, hxk, hw⟩ := hs.answers hn ha
      obtain ⟨hmlive, hmc, y, hy, hyk, hmw⟩ := hs.answers hm ham
      obtain rfl := hs.wired.socket_inj y hy x hx (hyk.trans hxk.symm)
      obtain ⟨L, a, ns, -, hst⟩ := hs.stack hn
      rw [hc] at hst
      rw [hst.live_unique (hs.answered_of_idle hidle hy hyk) hn hc hlive hw hm hmc hmlive hmw]

/-- It is recorded that the frame has gone out. -/
def Noted (h : History) : Carries → Prop
  | .request n => h.delivered n = true
  | .response (some n) => h.returned n = true
  | .connack | .response none => False

theorem Noted.of_issue {h : History} {af : Ref} {p : CoroActorRequest} {c : Carries}
    (hm : Noted (h.issue k af p) c) : Noted h c := by
  cases c with
  | request n =>
      by_cases hn : n = h.nreq
      · simp [Noted, hn] at hm
      · simpa [Noted, Function.update_of_ne hn] using hm
  | response m =>
      cases m with
      | none => exact hm
      | some n =>
          by_cases hn : n = h.nreq
          · simp [Noted, hn] at hm
          · simpa [Noted, Function.update_of_ne hn] using hm
  | connack => exact hm

theorem Noted.of_wentOut {h : History} {c d : Carries} (hm : Noted (h.wentOut d) c) : Noted h c ∨ d = c := by
  by_cases hc : d = c
  · exact Or.inr hc
  · left
    cases c with
    | request n =>
        cases d with
        | request m => simpa [Noted, Function.update_of_ne fun heq : n = m => hc (by rw [heq])] using hm
        | response | connack => exact hm
    | response m =>
        cases m with
        | none => exact hm
        | some n =>
            cases d with
            | response m' =>
                cases m' with
                | none => exact hm
                | some m => simpa [Noted, Function.update_of_ne fun heq : n = m => hc (by rw [heq])] using hm
            | request | connack => exact hm
    | connack => exact hm

/-- What is recorded anew goes out with the step. -/
theorem Move.noted (h : Move cfg s l t) {c : Carries} (hm : Noted t.history c) :
    Noted s.history c ∨ ∃ k f, (f, c) ∈ s.wentOut k l := by
  cases h with
  | request _ _ haf =>
      rw [onRequest_eq haf] at hm
      exact Or.inl hm.of_issue
  | @transfer k count =>
      simp only [onTransfer] at hm
      split at hm
      · next hleft =>
          refine hm.of_wentOut.imp_right fun hc => ⟨(s.write k).socket, (s.write k).frame, ?_⟩
          rw [wentOut_transfer, if_pos ⟨rfl, hleft⟩, hc]
          exact List.mem_singleton_self _
      · exact Or.inl hm
  | stay | undefined | accept | connect | readError | resumeConnack | resumeResponse | resumeRequest | rollback | idle
  | refused | wake => exact Or.inl hm
  | response | buffered | writing =>
      left
      cases c with
      | request n => exact hm
      | response m => cases m <;> exact hm
      | connack => exact hm

theorem connect_step {p : CoroActorConnect} (hst : s.step cfg (.read k (.connect p)) = some t) :
    t = s.onConnect cfg k p := by
  simp only [Sys.step, Option.ite_none_right_eq_some, Option.some.injEq] at hst
  exact hst.2.symm

theorem Sound.request_step (hs : Sound cfg s) {p : CoroActorRequest} (hrule : s.RequestRule cfg k p)
    (hst : s.step cfg (.read k (.request p)) = some t) : ∃ af, t.history = s.history.issue k af p := by
  obtain ⟨⟨r, hr, hsocket, hpid, -⟩, -⟩ := hrule
  simp only [Sys.step, Option.ite_none_right_eq_some, Option.some.injEq, onFrame] at hst
  obtain ⟨⟨-, hk⟩, rfl⟩ := hst
  have haf : s.proxy.actorPidMap p.pid = some r := by
    rw [← hpid]
    refine hs.wired.live r hr fun hdone => ?_
    rw [hsocket, hk] at hdone
    cases hdone
  rw [onRequest_eq haf]
  exact ⟨r, rfl⟩

theorem Orderly.requesting (hs : Orderly cfg s) {n : Nat} (hj : (s.pc j).writing = true)
    (hc : (s.write j).carries = .request n) : ∃ q select c, s.pc j = .request q select c ∧ q.serial = n := by
  have heng := hs.engaged j
  rw [Engaged] at heng
  cases hpc : s.pc j with
  | request q select c =>
      rw [hpc] at heng
      rw [heng.1] at hc
      exact ⟨q, select, c, rfl, Carries.request.inj hc⟩
  | connack =>
      rw [hpc] at heng
      rw [heng] at hc
      cases hc
  | response afSelf callId =>
      rw [hpc] at heng
      obtain ⟨-, -, -, m, -, hcarries, -⟩ := heng
      rw [hcarries] at hc
      cases hc
  | absent | read | handle | wake | done =>
      rw [hpc] at hj
      cases hj

end Sys

end CoroActor.Proxy
