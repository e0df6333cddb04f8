import CoroActor.Proxy.Wiring
import CoroActor.Library.CallStack

/-! The call chain of a `call_id` as a stack of open calls. A dispatched request whose issuer has not been
answered is a link of its chain; the actors at which it was buffered and the actor it was written to
joined the chain for it. The module follows a chain through the four things that happen to the requests
of its call: one is read, one is dispatched, one is answered, and nothing. -/

namespace CoroActor.Proxy

open CallStack

namespace History

variable (h : History) (n : Nat)

/-- The request has not left the queue of its issuer. -/
def Undispatched : Prop := h.buffered n = [] ∧ h.written n = []

/-- No RESPONSE to the request has been written to its issuer. -/
def Unanswered : Prop := h.issuer n ∉ h.replies n

instance : Decidable (h.Undispatched n) := inferInstanceAs (Decidable (_ ∧ _))
instance : Decidable (h.Unanswered n) := inferInstanceAs (Decidable (_ ∉ _))

/-- The actors that joined the chain for the request and have not left it, the last one first. The
callee leaves when its RESPONSE is handled. -/
def block : List Ref :=
  if h.replies n = [] then (h.buffered n ++ h.written n).reverse else (h.buffered n).reverse

/-- The actor whose queue holds the request while it waits: the one that buffered it last, or its issuer
before that. -/
def holder : Ref := (h.buffered n).getLast?.getD (h.issuer n)

/-- A dispatched request of the call whose issuer has not been answered. -/
def Link (c : StdString) (n : Nat) : Prop :=
  n < h.nreq ∧ (h.pack n).callId = c ∧ ¬ h.Undispatched n ∧ h.Unanswered n

/-- The first REQUEST of the call came from the actor. -/
def OpenedBy (c : StdString) (r : Ref) : Prop :=
  ∃ n < h.nreq, (h.pack n).callId = c ∧ h.issuer n = r ∧ ∀ m < n, (h.pack m).callId ≠ c

instance (c : StdString) (r : Ref) : Decidable (h.OpenedBy c r) :=
  inferInstanceAs (Decidable (∃ n < h.nreq, _ ∧ _ ∧ ∀ m < n, _))

/-- `actor_call_chain_map[c]` is `L`: the actor `a` that opened the call and, above it, the links `ns`. A
request of the call that waits to be dispatched was issued by the last actor of the chain, which
executes the call. -/
structure Stack (c : StdString) (L : List Ref) (a : Ref) (ns : List Nat) : Prop where
  stacked : Stacked h.issuer h.block h.Live a ns L.reverse
  mem : ∀ n, n ∈ ns ↔ h.Link c n
  root : h.OpenedBy c a
  waiting : ∀ n < h.nreq, (h.pack n).callId = c → h.Undispatched n →
    L.getLast? = some (h.issuer n) ∧ ∀ m ∈ ns.head?, h.Live m

variable {h} {h' : History} {c : StdString} {L : List Ref} {a r x : Ref} {ns : List Nat} {n : Nat}

/-- Nothing happens to the request. -/
structure SameAt (h h' : History) (n : Nat) : Prop where
  conn : h'.conn n = h.conn n
  issuer : h'.issuer n = h.issuer n
  pack : h'.pack n = h.pack n
  buffered : h'.buffered n = h.buffered n
  written : h'.written n = h.written n
  replies : h'.replies n = h.replies n

namespace SameAt

theorem refl (n : Nat) : h.SameAt h n := ⟨rfl, rfl, rfl, rfl, rfl, rfl⟩

variable (hsame : h.SameAt h' n)

include hsame

theorem undispatched : h'.Undispatched n ↔ h.Undispatched n := by
  rw [Undispatched, Undispatched, hsame.buffered, hsame.written]

theorem unanswered : h'.Unanswered n ↔ h.Unanswered n := by
  rw [Unanswered, Unanswered, hsame.replies, hsame.issuer]

theorem live : h'.Live n ↔ h.Live n := by
  rw [Live, Live, hsame.written, hsame.replies]

theorem block : h'.block n = h.block n := by
  rw [History.block, History.block, hsame.replies, hsame.buffered, hsame.written]

theorem holder : h'.holder n = h.holder n := by
  rw [History.holder, History.holder, hsame.buffered, hsame.issuer]

theorem link (hnreq : n < h'.nreq ↔ n < h.nreq) : h'.Link c n ↔ h.Link c n := by
  rw [Link, Link, hnreq, hsame.pack, hsame.undispatched, hsame.unanswered]

end SameAt

theorem issue_sameAt {k : Conn} {af : Ref} {p : CoroActorRequest} (hn : n ≠ h.nreq) :
    h.SameAt (h.issue k af p) n := by
  constructor <;> simp [Function.update_of_ne hn]

theorem hold_sameAt {m : Nat} (hn : n ≠ m) : h.SameAt (h.hold m r) n := by
  constructor <;> simp [Function.update_of_ne hn]

theorem send_sameAt {m : Nat} (hn : n ≠ m) : h.SameAt (h.send m r) n := by
  constructor <;> simp [Function.update_of_ne hn]

theorem reply_sameAt {m : Nat} (hn : n ≠ m) : h.SameAt (h.reply (some m) r) n := by
  constructor <;> simp [Function.update_of_ne hn]

theorem OpenedBy.congr (ho : h.OpenedBy c a) (hnreq : h'.nreq = h.nreq) (hpack : h'.pack = h.pack)
    (hissuer : ∀ n, (h.pack n).callId = c → h'.issuer n = h.issuer n) : h'.OpenedBy c a := by
  obtain ⟨n, hn, hc, ha, hmin⟩ := ho
  exact ⟨n, by rwa [hnreq], by rwa [hpack], by rwa [hissuer n hc], fun m hm => by rw [hpack]; exact hmin m hm⟩

theorem OpenedBy.unique (ha : h.OpenedBy c a) (hr : h.OpenedBy c r) : a = r := by
  obtain ⟨n, hn, hnc, rfl, hnmin⟩ := ha
  obtain ⟨m, hm, hmc, rfl, hmmin⟩ := hr
  rcases Nat.lt_trichotomy n m with hlt | rfl | hlt
  · exact absurd hnc (hmmin n hlt)
  · rfl
  · exact absurd hmc (hnmin m hlt)

theorem getLast?_eq_reverse_head? (L : List Ref) : L.getLast? = L.reverse.head? := by
  rw [List.head?_reverse]

theorem block_of_live (hl : h.Live n) : h.block n = (h.buffered n ++ h.written n).reverse :=
  if_pos hl.2

theorem block_live_cons (hl : h.Live n) (hw : h.written n = [r]) :
    h.block n = r :: (h.buffered n).reverse := by
  rw [block_of_live hl, hw, List.reverse_append]
  rfl

theorem Live.not_undispatched (hl : h.Live n) : ¬ h.Undispatched n := fun hu => hl.1 hu.2

theorem Live.unanswered (hl : h.Live n) : h.Unanswered n := by
  rw [Unanswered, hl.2]
  exact List.not_mem_nil

namespace Stack

variable (hs : h.Stack c L a ns)

include hs

/-- What the issuer of a link awaits is above it: an actor none of whose requests is unanswered is on
top of every chain it executes. -/
theorem head_of_idle (hidle : ∀ m < h.nreq, h.issuer m = r → ¬ h.Unanswered m) (hn : n < h.nreq)
    (hc : (h.pack n).callId = c) (hl : h.Live n) (hw : h.written n = [r]) : ns.head? = some n := by
  by_contra hne
  have hmem : n ∈ ns := (hs.mem n).mpr ⟨hn, hc, hl.not_undispatched, hl.unanswered⟩
  obtain ⟨-, m, hm, hhead⟩ := hs.stacked.of_not_head hmem hne
  rw [block_live_cons hl hw] at hhead
  obtain ⟨hm', -, -, hun⟩ := (hs.mem m).mp hm
  exact hidle m hm' (Option.some.inj hhead).symm hun

/-- An actor that awaits nothing serves at most one request of the call. -/
theorem live_unique (hidle : ∀ m < h.nreq, h.issuer m = r → ¬ h.Unanswered m) {m : Nat} (hn : n < h.nreq)
    (hnc : (h.pack n).callId = c) (hnl : h.Live n) (hnw : h.written n = [r]) (hm : m < h.nreq)
    (hmc : (h.pack m).callId = c) (hml : h.Live m) (hmw : h.written m = [r]) : m = n := by
  have hhead := hs.head_of_idle hidle hn hnc hnl hnw
  exact Option.some.inj ((hs.head_of_idle hidle hm hmc hml hmw).symm.trans hhead)

theorem last_of_head (hhead : ns.head? = some n) : L.getLast? = (h.block n).head? := by
  obtain ⟨ns', rfl⟩ : ∃ ns', ns = n :: ns' := List.head?_eq_some_iff.mp hhead
  obtain ⟨L', hL', -, hb, -⟩ := hs.stacked.top
  rw [getLast?_eq_reverse_head?, hL', List.head?_append_of_ne_nil _ hb]

theorem last_of_serves (hidle : ∀ m < h.nreq, h.issuer m = r → ¬ h.Unanswered m) (hn : n < h.nreq)
    (hc : (h.pack n).callId = c) (hl : h.Live n) (hw : h.written n = [r]) :
    L.getLast? = some r ∧ ∀ m ∈ ns.head?, h.Live m := by
  have hhead := hs.head_of_idle hidle hn hc hl hw
  refine ⟨?_, fun m hm => ?_⟩
  · rw [hs.last_of_head hhead, block_live_cons hl hw]
    rfl
  · rw [hhead] at hm
    cases hm
    exact hl

/-- The actor that opened the call has an unanswered request as long as the call has a link. -/
theorem nil_of_opened (hidle : ∀ m < h.nreq, h.issuer m = r → ¬ h.Unanswered m)
    (ho : h.OpenedBy c r) : ns = [] := by
  obtain rfl := hs.root.unique ho
  by_contra hne
  obtain ⟨n, hn, hna⟩ := hs.stacked.base_calls hne
  obtain ⟨hn', -, -, hun⟩ := (hs.mem n).mp hn
  exact hidle n hn' hna hun

theorem last_of_nil (hnil : ns = []) : L.getLast? = some a := by
  subst hnil
  have hL := hs.stacked
  generalize hrev : L.reverse = R at hL
  cases hL
  rw [getLast?_eq_reverse_head?, hrev]
  rfl

theorem last_of_opened (hidle : ∀ m < h.nreq, h.issuer m = r → ¬ h.Unanswered m)
    (ho : h.OpenedBy c r) : L.getLast? = some r ∧ ∀ m ∈ ns.head?, h.Live m := by
  have hnil := hs.nil_of_opened hidle ho
  obtain rfl := hs.root.unique ho
  refine ⟨hs.last_of_nil hnil, fun m hm => ?_⟩
  rw [hnil] at hm
  cases hm

/-- A link whose REQUEST is not being served is the innermost one. -/
theorem head_of_not_live (hm : n ∈ ns) (hl : ¬ h.Live n) : ns.head? = some n := by
  by_contra hne
  exact hl (hs.stacked.of_not_head hm hne).1

/-- A request of the call that has not been written waits at the last actor of the chain: at the one that
buffered it last, or at its issuer. -/
theorem last_of_unwritten (hn : n < h.nreq) (hc : (h.pack n).callId = c) (hw : h.written n = [])
    (hr : h.replies n = []) : L.getLast? = some (h.holder n) := by
  by_cases hu : h.Undispatched n
  · rw [holder, hu.1]
    exact (hs.waiting n hn hc hu).1
  · have hun : h.Unanswered n := by
      rw [Unanswered, hr]
      exact List.not_mem_nil
    have hmem : n ∈ ns := (hs.mem n).mpr ⟨hn, hc, hu, hun⟩
    have hhead := hs.head_of_not_live hmem fun hl => hl.1 hw
    rw [hs.last_of_head hhead, block, if_pos hr, hw, List.append_nil, List.head?_reverse, holder]
    cases hlast : (h.buffered n).getLast? with
    | none => exact absurd ⟨List.getLast?_eq_none_iff.mp hlast, hw⟩ hu
    | some b => rfl

theorem frame (hnreq : h'.nreq = h.nreq) (hpack : h'.pack = h.pack)
    (hsame : ∀ n, (h.pack n).callId = c → h.SameAt h' n) : h'.Stack c L a ns := by
  have hcall : ∀ n ∈ ns, h.SameAt h' n := fun n hn => hsame n ((hs.mem n).mp hn).2.1
  refine ⟨hs.stacked.congr (fun n hn => (hcall n hn).issuer) (fun n hn => (hcall n hn).block)
    fun n hn => (hcall n hn).live.mpr, fun n => ?_, hs.root.congr hnreq hpack fun n hc => (hsame n hc).issuer,
    fun n hn hc hu => ?_⟩
  · rw [hs.mem]
    by_cases hc : (h.pack n).callId = c
    · exact ((hsame n hc).link (by rw [hnreq])).symm
    · exact iff_of_false (fun hl => hc hl.2.1) fun hl => hc (hpack ▸ hl.2.1)
  · rw [hnreq] at hn
    rw [hpack] at hc
    obtain ⟨hlast, htop⟩ := hs.waiting n hn hc ((hsame n hc).undispatched.mp hu)
    rw [(hsame n hc).issuer]
    exact ⟨hlast, fun m hm => (hcall m (List.mem_of_mem_head? hm)).live.mpr (htop m hm)⟩

/-- A REQUEST is read. If it belongs to the call, its issuer executes the call. -/
theorem issue (k : Conn) (af : Ref) (p : CoroActorRequest)
    (hp : p.callId = c → L.getLast? = some af ∧ ∀ m ∈ ns.head?, h.Live m) :
    (h.issue k af p).Stack c L a ns := by
  have hsame : ∀ n, n ≠ h.nreq → h.SameAt (h.issue k af p) n := fun n hn => issue_sameAt hn
  have hlink : ∀ n ∈ ns, h.SameAt (h.issue k af p) n := fun n hn => hsame n ((hs.mem n).mp hn).1.ne
  refine ⟨hs.stacked.congr (fun n hn => (hlink n hn).issuer) (fun n hn => (hlink n hn).block)
    fun n hn => (hlink n hn).live.mpr, fun n => ?_, ?_, fun n hn hc hu => ?_⟩
  · rw [hs.mem]
    by_cases hn : n = h.nreq
    · subst hn
      simp [Link, Undispatched]
    · refine ((hsame n hn).link ?_).symm
      rw [issue_nreq]
      omega
  · obtain ⟨n, hn, hnc, hna, hmin⟩ := hs.root
    refine ⟨n, Nat.lt_succ_of_lt hn, ?_, ?_, fun m hm => ?_⟩
    · rwa [(hsame n hn.ne).pack]
    · rwa [(hsame n hn.ne).issuer]
    · rw [(hsame m (hm.trans hn).ne).pack]
      exact hmin m hm
  · have hmap : (∀ m ∈ ns.head?, h.Live m) → ∀ m ∈ ns.head?, (h.issue k af p).Live m := fun hm m hmem =>
      (hlink m (List.mem_of_mem_head? hmem)).live.mpr (hm m hmem)
    by_cases heq : n = h.nreq
    · subst heq
      simp only [issue_pack, Function.update_self] at hc
      simp only [issue_issuer, Function.update_self]
      exact ⟨(hp hc).1, hmap (hp hc).2⟩
    · have hlt : n < h.nreq := Nat.lt_of_le_of_ne (Nat.lt_succ_iff.mp hn) heq
      rw [(hsame n heq).pack] at hc
      rw [(hsame n heq).issuer]
      obtain ⟨hlast, htop⟩ := hs.waiting n hlt hc ((hsame n heq).undispatched.mp hu)
      exact ⟨hlast, hmap htop⟩

end Stack

/-- The first REQUEST of a call is read. -/
theorem Stack.first (k : Conn) (af : Ref) (p : CoroActorRequest)
    (hfresh : ∀ n < h.nreq, (h.pack n).callId ≠ p.callId) :
    (h.issue k af p).Stack p.callId [af] af [] := by
  have hold : ∀ n, n < h.nreq + 1 → ((h.issue k af p).pack n).callId = p.callId → n = h.nreq := by
    intro n hn hc
    by_contra hne
    simp only [issue_pack, Function.update_of_ne hne] at hc
    exact hfresh n (by omega) hc
  constructor
  · exact .base
  · intro n
    refine iff_of_false List.not_mem_nil ?_
    rintro ⟨hn, hc, hu, -⟩
    obtain rfl := hold n hn hc
    simp [Undispatched] at hu
  · refine ⟨h.nreq, Nat.lt_succ_self _, by simp, by simp, fun m hm => ?_⟩
    simpa [Function.update_of_ne hm.ne] using hfresh m hm
  · intro n hn hc _
    obtain rfl := hold n hn hc
    simp

/-- A request that was not written is dispatched to `x`: it is buffered there or written to it. -/
structure Departs (h h' : History) (n : Nat) (x : Ref) : Prop where
  nreq : h'.nreq = h.nreq
  pack : h'.pack = h.pack
  issuer : h'.issuer = h.issuer
  replies : h'.replies = h.replies
  trail : h'.buffered n ++ h'.written n = h.buffered n ++ [x]
  same : ∀ m, m ≠ n → h.SameAt h' m

namespace Departs

variable (hd : h.Departs h' n x)

include hd

theorem live {m : Nat} (hm : m ≠ n) (hl : h.Live m) : h'.Live m := (hd.same m hm).live.mpr hl

theorem block (hr : h.replies n = []) : h'.block n = x :: (h.buffered n).reverse := by
  rw [History.block, hd.replies, if_pos hr, hd.trail, List.reverse_append]
  rfl

theorem dispatched : ¬ h'.Undispatched n := by
  rintro ⟨hbuffered, hwritten⟩
  have htrail := hd.trail
  rw [hbuffered, hwritten] at htrail
  exact absurd htrail.symm (List.append_ne_nil_of_right_ne_nil _ (List.cons_ne_nil _ _))

/-- The request is a link of its chain from now on. -/
theorem link (hn : n < h.nreq) (hc : (h.pack n).callId = c) (hu : h.Unanswered n) (m : Nat) :
    h'.Link c m ↔ m = n ∨ h.Link c m := by
  by_cases hm : m = n
  · subst hm
    refine iff_of_true ⟨by rwa [hd.nreq], by rwa [hd.pack], hd.dispatched, ?_⟩ (Or.inl rfl)
    rwa [Unanswered, hd.issuer, hd.replies]
  · rw [(hd.same m hm).link (by rw [hd.nreq])]
    simp only [hm, false_or]

/-- A request of the call that still waits to be dispatched is another one, and did before. -/
theorem waiting (hs : h.Stack c L a ns) {m : Nat} (hm : m < h'.nreq) (hmc : (h'.pack m).callId = c)
    (hmu : h'.Undispatched m) :
    m ≠ n ∧ m < h.nreq ∧ h.Undispatched m ∧ L.getLast? = some (h.issuer m) ∧ ∀ m' ∈ ns.head?, h.Live m' := by
  have hmn : m ≠ n := fun heq => hd.dispatched (heq ▸ hmu)
  rw [hd.nreq] at hm
  rw [hd.pack] at hmc
  have hmu' : h.Undispatched m := (hd.same m hmn).undispatched.mp hmu
  exact ⟨hmn, hm, hmu', hs.waiting m hm hmc hmu'⟩

theorem first (hs : h.Stack c L a ns) (hn : n < h.nreq) (hc : (h.pack n).callId = c) (hr : h.replies n = [])
    (hu : h.Undispatched n) (hone : ∀ m < h.nreq, h.Undispatched m → h.issuer m = h.issuer n → m = n) :
    h'.Stack c (L ++ [x]) a (n :: ns) := by
  obtain ⟨hlast, htop⟩ := hs.waiting n hn hc hu
  have hunn : h.Unanswered n := by
    rw [Unanswered, hr]
    exact List.not_mem_nil
  have hnot : n ∉ ns := fun hmem => ((hs.mem n).mp hmem).2.2.1 hu
  have hneq : ∀ m ∈ ns, m ≠ n := fun m hm heq => hnot (heq ▸ hm)
  refine ⟨?_, fun m => ?_, hs.root.congr hd.nreq hd.pack fun m _ => by rw [hd.issuer], fun m hm hmc hmu => ?_⟩
  · rw [List.reverse_append]
    refine (hs.stacked.congr (fun m _ => by rw [hd.issuer]) (fun m hm => (hd.same m (hneq m hm)).block)
      (fun m hm => hd.live (hneq m hm))).push hnot
      (fun m hm => hd.live (hneq m (List.mem_of_mem_head? hm)) (htop m hm)) ?_ ?_
    · rw [← getLast?_eq_reverse_head?, hlast, hd.issuer]
    · rw [hd.block hr, hu.1]
      rfl
  · rw [List.mem_cons, hs.mem, hd.link hn hc hunn]
  · obtain ⟨hmn, hm', hmu', hlast', -⟩ := hd.waiting hs hm hmc hmu
    exact absurd (hone m hm' hmu' (Option.some.inj (hlast'.symm.trans hlast))) hmn

/-- It is dispatched again: it is the link on top, since it is not written, and its block grows. -/
theorem again (hs : h.Stack c L a ns) (hn : n < h.nreq) (hc : (h.pack n).callId = c) (hw : h.written n = [])
    (hr : h.replies n = []) (hu : ¬ h.Undispatched n) : h'.Stack c (L ++ [x]) a ns := by
  have hunn : h.Unanswered n := by
    rw [Unanswered, hr]
    exact List.not_mem_nil
  have hmem : n ∈ ns := (hs.mem n).mpr ⟨hn, hc, hu, hunn⟩
  have hnlive : ¬ h.Live n := fun hl => hl.1 hw
  obtain ⟨ns', rfl⟩ : ∃ ns', ns = n :: ns' := List.head?_eq_some_iff.mp (hs.head_of_not_live hmem hnlive)
  have hbn : h.block n = (h.buffered n).reverse := by
    rw [History.block, if_pos hr, hw, List.append_nil]
  obtain ⟨-, -, -, -, hnot, -⟩ := hs.stacked.top
  have hneq : ∀ m ∈ ns', m ≠ n := fun m hm heq => hnot (heq ▸ hm)
  refine ⟨?_, fun m => ?_, hs.root.congr hd.nreq hd.pack fun m _ => by rw [hd.issuer], fun m hm hmc hmu => ?_⟩
  · rw [List.reverse_append, hd.issuer]
    exact hs.stacked.extend (by rw [hd.block hr, hbn]) (fun m hm => (hd.same m (hneq m hm)).block)
      (fun m hm => hd.live (hneq m hm))
  · rw [hs.mem, hd.link hn hc hunn]
    refine ⟨Or.inr, fun h' => h'.elim ?_ id⟩
    intro heq
    rw [heq]
    exact (hs.mem n).mp hmem
  · obtain ⟨-, -, -, -, htop⟩ := hd.waiting hs hm hmc hmu
    exact absurd (htop n rfl) hnlive

end Departs

/-- A request of the call is dispatched, for the first time or again: the callee joins the chain. -/
theorem Stack.depart (hs : h.Stack c L a ns) (hd : h.Departs h' n x) (hn : n < h.nreq)
    (hc : (h.pack n).callId = c) (hw : h.written n = []) (hr : h.replies n = [])
    (hone : ∀ m < h.nreq, h.Undispatched m → h.Undispatched n → h.issuer m = h.issuer n → m = n) :
    ∃ ns', h'.Stack c (L ++ [x]) a ns' := by
  by_cases hu : h.Undispatched n
  · exact ⟨n :: ns, hd.first hs hn hc hr hu fun m hm hmu heq => hone m hm hmu hu heq⟩
  · exact ⟨ns, hd.again hs hn hc hw hr hu⟩

/-- A RESPONSE to the request is sent on to `x`. -/
structure Answers (h h' : History) (n : Nat) (x : Ref) : Prop where
  nreq : h'.nreq = h.nreq
  pack : h'.pack = h.pack
  issuer : h'.issuer = h.issuer
  buffered : h'.buffered = h.buffered
  written : h'.written = h.written
  replies : h'.replies n = [x]
  same : ∀ m, m ≠ n → h.SameAt h' m

namespace Answers

variable (ha : h.Answers h' n x)

include ha

theorem live {m : Nat} (hm : m ≠ n) (hl : h.Live m) : h'.Live m := (ha.same m hm).live.mpr hl

theorem block : h'.block n = (h.buffered n).reverse := by
  rw [History.block, ha.replies, if_neg (List.cons_ne_nil _ _), ha.buffered]

theorem undispatched (m : Nat) : h'.Undispatched m ↔ h.Undispatched m := by
  rw [Undispatched, Undispatched, ha.buffered, ha.written]

theorem link {m : Nat} (hm : m ≠ n) : h'.Link c m ↔ h.Link c m := (ha.same m hm).link (by rw [ha.nreq])

theorem waiting (hnone : ∀ m < h.nreq, (h.pack m).callId = c → ¬ h.Undispatched m) (L : List Ref) (ns : List Nat) :
    ∀ m < h'.nreq, (h'.pack m).callId = c → h'.Undispatched m →
      L.getLast? = some (h'.issuer m) ∧ ∀ m' ∈ ns.head?, h'.Live m' := by
  intro m hm hmc hmu
  rw [ha.nreq] at hm
  rw [ha.pack] at hmc
  exact absurd ((ha.undispatched m).mp hmu) (hnone m hm hmc)

/-- The request was never buffered: its issuer is below the callee, and the link is gone. -/
theorem last (hs : h.Stack c (L ++ [x, r]) a (n :: ns)) (hbn : h.block n = [r]) (hnil : h.buffered n = [])
    (hnone : ∀ m < h.nreq, (h.pack m).callId = c → ¬ h.Undispatched m) :
    x = h.holder n ∧ h'.Stack c (L ++ [x]) a ns := by
  have hst := hs.stacked
  rw [List.reverse_append] at hst
  change Stacked _ _ _ _ _ (r :: x :: L.reverse) at hst
  obtain ⟨-, -, -, -, hnot, -⟩ := hst.top
  have hneq : ∀ m ∈ ns, m ≠ n := fun m hm heq => hnot (heq ▸ hm)
  obtain ⟨hx, hs'⟩ := hst.pop_last hbn
  have hxi : x = h.issuer n := Option.some.inj hx
  have hroot := hs.root.congr ha.nreq ha.pack fun m _ => by rw [ha.issuer]
  refine ⟨by rw [holder, hnil]; exact hxi, ?_, fun m => ?_, hroot, ha.waiting hnone _ _⟩
  · rw [List.reverse_append]
    exact hs'.congr (fun m _ => by rw [ha.issuer]) (fun m hm => (ha.same m (hneq m hm)).block)
      (fun m hm => ha.live (hneq m hm))
  · by_cases hm : m = n
    · subst hm
      refine iff_of_false hnot fun hlink => hlink.2.2.2 ?_
      rw [ha.replies, ha.issuer, hxi]
      exact List.mem_singleton_self _
    · rw [ha.link hm, ← hs.mem, List.mem_cons]
      simp only [hm, false_or]

/-- The request was buffered: the actor where it was buffered last is below the callee, and executes the link. -/
theorem more {b : Ref} {B : List Ref} (hs : h.Stack c (L ++ [x, r]) a (n :: ns))
    (hbn : h.block n = r :: (h.buffered n).reverse) (hB : h.buffered n = B.concat b) (hn : n < h.nreq)
    (hc : (h.pack n).callId = c) (hl : h.Live n) (haway : h.issuer n ∉ h.buffered n)
    (hnone : ∀ m < h.nreq, (h.pack m).callId = c → ¬ h.Undispatched m) :
    x = h.holder n ∧ h'.Stack c (L ++ [x]) a (n :: ns) := by
  have hst := hs.stacked
  rw [List.reverse_append] at hst
  change Stacked _ _ _ _ _ (r :: x :: L.reverse) at hst
  obtain ⟨-, -, -, -, hnot, -⟩ := hst.top
  have hneq : ∀ m ∈ ns, m ≠ n := fun m hm heq => hnot (heq ▸ hm)
  have hbr : (h.buffered n).reverse = b :: B.reverse := by
    rw [hB, List.concat_eq_append, List.reverse_append]
    rfl
  have hmore : (x :: L.reverse).head? = (h'.block n).head? ∧
      Stacked h.issuer h'.block h'.Live a (n :: ns) (x :: L.reverse) :=
    hst.pop_more (by rw [hbn, ha.block]) (by rw [ha.block, hbr]; exact List.cons_ne_nil _ _)
      (fun m hm => (ha.same m (hneq m hm)).block) (fun m hm => ha.live (hneq m hm))
  obtain ⟨hx, hs'⟩ := hmore
  rw [ha.block, hbr] at hx
  have hxb : x = b := Option.some.inj hx
  have hblast : (h.buffered n).getLast? = some b := by
    rw [getLast?_eq_reverse_head?, hbr]
    rfl
  have hbmem : b ∈ h.buffered n := List.mem_of_getLast? hblast
  have hroot := hs.root.congr ha.nreq ha.pack fun m _ => by rw [ha.issuer]
  refine ⟨by rw [holder, hblast]; exact hxb, ?_, fun m => ?_, hroot, ha.waiting hnone _ _⟩
  · rw [List.reverse_append, ha.issuer]
    exact hs'
  · by_cases hm : m = n
    · subst hm
      refine iff_of_true List.mem_cons_self ⟨by rwa [ha.nreq], by rwa [ha.pack], ?_, ?_⟩
      · rw [ha.undispatched]
        exact hl.not_undispatched
      · rw [Unanswered, ha.replies, ha.issuer, hxb, List.mem_singleton]
        exact fun heq => haway (heq ▸ hbmem)
    · rw [ha.link hm, ← hs.mem]

end Answers

/-- A RESPONSE of an actor that awaits nothing leaves the chain: the actor was on top, and the one below
is where the request was last buffered, or its issuer if it never was. -/
theorem Stack.answer (hs : h.Stack c (L ++ [x, r]) a ns) (ha : h.Answers h' n x) (hn : n < h.nreq)
    (hc : (h.pack n).callId = c) (hl : h.Live n) {k : Ref} (hw : h.written n = [k])
    (hidle : ∀ m < h.nreq, h.issuer m = k → ¬ h.Unanswered m)
    (hund : ∀ m < h.nreq, h.Undispatched m → h.Unanswered m) (haway : h.issuer n ∉ h.buffered n) :
    r = k ∧ x = h.holder n ∧ ∃ ns', h'.Stack c (L ++ [x]) a ns' := by
  obtain ⟨ns', rfl⟩ : ∃ ns', ns = n :: ns' := List.head?_eq_some_iff.mp (hs.head_of_idle hidle hn hc hl hw)
  have hbn := block_live_cons hl hw
  have hst := hs.stacked
  rw [List.reverse_append] at hst
  obtain ⟨L', hL', -⟩ := hst.top
  rw [hbn, List.cons_append] at hL'
  have hrk : r = k := (List.cons.inj hL').1
  rw [← hrk] at hbn
  -- the responder is on top, so no request of the call waits to be dispatched
  have hnone : ∀ m < h.nreq, (h.pack m).callId = c → ¬ h.Undispatched m := by
    intro m hm hmc hmu
    obtain ⟨hlast, -⟩ := hs.waiting m hm hmc hmu
    rw [List.getLast?_append, List.getLast?_cons_cons, List.getLast?_singleton, Option.some_or] at hlast
    exact hidle m hm ((Option.some.inj hlast).symm.trans hrk) (hund m hm hmu)
  refine ⟨hrk, ?_⟩
  rcases List.eq_nil_or_concat (h.buffered n) with hnil | ⟨B, b, hB⟩
  · rw [hnil] at hbn
    obtain ⟨hx, hs'⟩ := ha.last hs hbn hnil hnone
    exact ⟨hx, ns', hs'⟩
  · obtain ⟨hx, hs'⟩ := ha.more hs hbn hB hn hc hl haway hnone
    exact ⟨hx, n :: ns', hs'⟩

end History

end CoroActor.Proxy
