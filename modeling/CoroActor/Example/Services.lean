import CoroActor.Library.Decimal
import CoroActor.Master.PidFile
import CoroActor.System.Services

/-! The services under `example`. They run in processes of their own and call each other through the proxy; what a
client gets is what their programs say, one after the other. -/

namespace CoroActor.Example

open TransitionSystem Worker

/-! ### Two numbers from a stream -/

/-- What `in >> n` does: at the end of the stream it leaves the variable as it is, and else it sets it. The stream
fails when there is no number, or none that is an `int`. -/
inductive Extracted where
  | untouched
  | failed (n : Int)
  | value (n : Int) (rest : StdString)
  deriving DecidableEq

def isBlank (b : UInt8) : Bool := b = 32 ∨ 9 ≤ b ∧ b ≤ 13

def isDigit (b : UInt8) : Bool := 48 ≤ b ∧ b ≤ 57

/-- What a sign and digits stand for, as far as it is an `int`. -/
def Extracted.ofDigits (minus : Bool) (digits rest : StdString) : Extracted :=
  let n : Int := if minus then -Decimal.value digits else Decimal.value digits
  if digits = [] then .failed 0
  else if n < -2147483648 then .failed (-2147483648)
  else if 2147483647 < n then .failed 2147483647
  else .value n rest

/-- `in >> n`. -/
def extract (s : StdString) : Extracted :=
  match s.dropWhile isBlank with
  | [] => .untouched
  | b :: bs =>
      let (minus, t) := PidFile.splitSign (b :: bs)
      .ofDigits minus (t.takeWhile isDigit) (t.dropWhile isDigit)

/-- `in >> a >> b`, and `none` if a variable is read that has no value. After a failure nothing is extracted. -/
def addends (s : StdString) : Option (Int × Int) :=
  match extract s with
  | .value a rest =>
      match extract rest with
      | .value b _ | .failed b => some (a, b)
      | .untouched => none
  | .failed _ | .untouched => none

/-- `a + b`, and `none` if the behaviour is undefined. -/
def sum (s : StdString) : Option Int :=
  (addends s).bind fun (a, b) => if -2147483648 ≤ a + b ∧ a + b ≤ 2147483647 then some (a + b) else none

def IsInt (n : Int) : Prop := -2147483648 ≤ n ∧ n ≤ 2147483647

theorem isDigit_numeral {n : Nat} {b : UInt8} (hb : b ∈ Decimal.numeral n) : isDigit b = true :=
  decide_eq_true ⟨(Decimal.mem_numeral hb).1, (Decimal.mem_numeral hb).2⟩

theorem extract_blank (s : StdString) : extract (32 :: s) = extract s := rfl

theorem ofDigits_eq {n : Int} (hn : IsInt n) {minus : Bool} {digits : StdString} (hne : digits ≠ [])
    (hvalue : (if minus then -(Decimal.value digits : Int) else Decimal.value digits) = n) (rest : StdString) :
    Extracted.ofDigits minus digits rest = .value n rest := by
  obtain ⟨hlow, hhigh⟩ := hn
  unfold Extracted.ofDigits
  rw [hvalue, if_neg hne, if_neg (by omega), if_neg (by omega)]

/-- Digits are taken up to what follows them. -/
theorem take_digits (n : Nat) {rest : StdString} (hrest : ∀ b ∈ rest.head?, isDigit b = false) :
    (Decimal.numeral n ++ rest).takeWhile isDigit = Decimal.numeral n ∧
      (Decimal.numeral n ++ rest).dropWhile isDigit = rest := by
  have hstop : rest.takeWhile isDigit = [] ∧ rest.dropWhile isDigit = rest := by
    cases rest with
    | nil => exact ⟨rfl, rfl⟩
    | cons b bs =>
        have hb : isDigit b = false := hrest b rfl
        exact ⟨List.takeWhile_cons_of_neg (by rw [hb]; exact Bool.false_ne_true),
          List.dropWhile_cons_of_neg (by rw [hb]; exact Bool.false_ne_true)⟩
  constructor
  · rw [List.takeWhile_append_of_pos fun b hb => isDigit_numeral hb, hstop.1, List.append_nil]
  · rw [List.dropWhile_append_of_pos fun b hb => isDigit_numeral hb, hstop.2]

/-- The numeral of an `int` is extracted, when no digit follows. -/
theorem extract_signed {n : Int} (hn : IsInt n) {rest : StdString} (hrest : ∀ b ∈ rest.head?, isDigit b = false) :
    extract (Decimal.signed 45 n ++ rest) = .value n rest := by
  obtain ⟨htake, hdrop⟩ := take_digits n.natAbs hrest
  have hne := Decimal.numeral_ne_nil n.natAbs
  by_cases hneg : n < 0
  · have hdigits : Extracted.ofDigits true (Decimal.numeral n.natAbs) rest = .value n rest := by
      refine ofDigits_eq hn hne ?_ rest
      rw [Decimal.value_numeral, if_pos rfl]
      omega
    rw [Decimal.signed, if_pos hneg]
    show Extracted.ofDigits true ((Decimal.numeral n.natAbs ++ rest).takeWhile isDigit)
      ((Decimal.numeral n.natAbs ++ rest).dropWhile isDigit) = _
    rw [htake, hdrop, hdigits]
  · have hdigits : Extracted.ofDigits false (Decimal.numeral n.natAbs) rest = .value n rest := by
      refine ofDigits_eq hn hne ?_ rest
      rw [Decimal.value_numeral, if_neg Bool.false_ne_true]
      omega
    rw [Decimal.signed, if_neg hneg, List.nil_append]
    cases hnum : Decimal.numeral n.natAbs with
    | nil => exact absurd hnum hne
    | cons b bs =>
        have hb : isDigit b = true := isDigit_numeral (hnum ▸ List.mem_cons_self)
        have hlow : 48 ≤ b := (of_decide_eq_true hb).1
        have hblank : isBlank b = false := by
          refine decide_eq_false ?_
          rintro (rfl | ⟨-, hle⟩)
          · exact absurd hlow (by decide)
          · exact absurd (UInt8.le_trans hlow hle) (by decide)
        have hsign : PidFile.splitSign (b :: (bs ++ rest)) = (false, b :: (bs ++ rest)) := by
          unfold PidFile.splitSign
          split
          · next heq => exact absurd ((List.cons.inj heq).1 ▸ hlow) (by decide)
          · next heq => exact absurd ((List.cons.inj heq).1 ▸ hlow) (by decide)
          · rfl
        rw [hnum] at htake hdrop hdigits
        rw [extract, List.cons_append, List.dropWhile_cons_of_neg (by rw [hblank]; exact Bool.false_ne_true)]
        simp only [hsign]
        rw [← List.cons_append, htake, hdrop, hdigits]

/-- Two numerals with a blank between them are read back. -/
theorem sum_signed {a b : Int} (ha : IsInt a) (hb : IsInt b) (hsum : IsInt (a + b)) :
    sum (Decimal.signed 45 a ++ 32 :: Decimal.signed 45 b) = some (a + b) := by
  have hfirst : extract (Decimal.signed 45 a ++ 32 :: Decimal.signed 45 b) =
      .value a (32 :: Decimal.signed 45 b) := by
    refine extract_signed ha fun c hc => ?_
    obtain rfl := Option.some.inj hc
    rfl
  have hsecond : extract (32 :: Decimal.signed 45 b) = .value b [] := by
    have hnone : ∀ c ∈ ([] : StdString).head?, isDigit c = false := fun c hc => by cases hc
    rw [extract_blank, ← List.append_nil (Decimal.signed 45 b), extract_signed hb hnone]
  have haddends : addends (Decimal.signed 45 a ++ 32 :: Decimal.signed 45 b) = some (a, b) := by
    rw [addends, hfirst]
    simp only [hsecond]
  rw [sum, haddends]
  exact if_pos hsum

/-! ### The services -/

/-- `resp` when `send` has returned: it is set only when that returns true. -/
def response (resp : CoroActorPack) : Answer → CoroActorPack
  | .ok result => result
  | .error _ => resp

/-- `svc_add`. What it answers when its behaviour is undefined is left open. -/
def svcAdd (undefined : StdString → StdString) : Func := fun rqst _ =>
  .done ⟨rqst.type, match sum rqst.value with
    | some n => toStdString n
    | none => undefined rqst.value⟩

def svcCalc : Func := fun rqst resp =>
  if rqst.type = 1 then
    .ask ⟨ascii "svc_add", rqst⟩ fun
      | .ok result => .done result
      | .error errorMsg => .done { resp with value := errorMsg }
  else .done resp

def svcStep : Func := fun rqst resp =>
  .ask ⟨ascii "svc_step_one", rqst⟩ fun one =>
    let resp := response resp one
    .ask ⟨ascii "svc_step_two", { rqst with value := resp.value }⟩ fun two => .done (response resp two)

def svcEcho : Func := fun rqst _ => .done ⟨rqst.type, rqst.value⟩

def svcStepOne : Func := fun rqst _ => .done ⟨rqst.type, rqst.value ++ ascii "step one over !!!"⟩

def svcStepTwo : Func := fun rqst resp =>
  let resp := { resp with type := rqst.type }
  .ask ⟨ascii "svc_echo", { rqst with value := rqst.value ++ ascii "\nstep two over !!!" }⟩ fun echo =>
    .done (response resp echo)

/-- `svc_use_thread` and `svc_use_sqlite` do not touch the response. -/
def svcUseThread : Func := fun _ resp => .done resp

def svcUseSqlite : Func := fun _ resp => .done resp

inductive Symbol where
  | svcAdd
  | svcCalc
  | svcStep
  | svcEcho
  | svcStepOne
  | svcStepTwo
  | svcUseThread
  | svcUseSqlite
  deriving DecidableEq

namespace Symbol

def name : Symbol → StdString
  | .svcAdd => ascii "svc_add"
  | .svcCalc => ascii "svc_calc"
  | .svcStep => ascii "svc_step"
  | .svcEcho => ascii "svc_echo"
  | .svcStepOne => ascii "svc_step_one"
  | .svcStepTwo => ascii "svc_step_two"
  | .svcUseThread => ascii "svc_use_thread"
  | .svcUseSqlite => ascii "svc_use_sqlite"

def func (undefined : StdString → StdString) : Symbol → Func
  | .svcAdd => Example.svcAdd undefined
  | .svcCalc => Example.svcCalc
  | .svcStep => Example.svcStep
  | .svcEcho => Example.svcEcho
  | .svcStepOne => Example.svcStepOne
  | .svcStepTwo => Example.svcStepTwo
  | .svcUseThread => Example.svcUseThread
  | .svcUseSqlite => Example.svcUseSqlite

/-- What the service is there for. -/
def Ensures (rqst result : CoroActorPack) : Symbol → Prop
  | .svcAdd => ∀ a b, IsInt a → IsInt b → IsInt (a + b) →
      rqst.value = toStdString a ++ ascii " " ++ toStdString b → result = ⟨rqst.type, toStdString (a + b)⟩
  | .svcCalc => (rqst.type ≠ 1 → result.value = []) ∧ (rqst.type = 1 → ∀ a b, IsInt a → IsInt b → IsInt (a + b) →
      rqst.value = toStdString a ++ ascii " " ++ toStdString b → result = ⟨1, toStdString (a + b)⟩)
  | .svcStep => result = ⟨rqst.type, rqst.value ++ ascii "step one over !!!\nstep two over !!!"⟩
  | .svcEcho => result = rqst
  | .svcStepOne => result = ⟨rqst.type, rqst.value ++ ascii "step one over !!!"⟩
  | .svcStepTwo => result = ⟨rqst.type, rqst.value ++ ascii "\nstep two over !!!"⟩
  | .svcUseThread | .svcUseSqlite => result.value = []

end Symbol

/-- What `dlsym` finds under a name. -/
def symbol (name : StdString) : Option Symbol :=
  [Symbol.svcAdd, .svcCalc, .svcStep, .svcEcho, .svcStepOne, .svcStepTwo, .svcUseThread, .svcUseSqlite].find?
    fun n => n.name = name

/-- The services of the modules. No process calls one that `dlsym` has not found. -/
def func (undefined : StdString → StdString) (name : StdString) : Func :=
  match symbol name with
  | some n => n.func undefined
  | none => fun _ resp => .done resp

/-- Each service does what it is there for. -/
def Spec (q : Question) (result : CoroActorPack) : Prop :=
  ∀ n : Symbol, n.name = q.serviceName → n.Ensures q.requestPack result

variable {undefined : StdString → StdString}

theorem symbol_name (n : Symbol) : symbol n.name = some n := by
  cases n <;> rfl

theorem name_of_symbol {name : StdString} {n : Symbol} (h : symbol name = some n) : n.name = name := by
  have hfound := List.find?_some h
  exact of_decide_eq_true hfound

theorem spec_iff {name : StdString} {n : Symbol} {rqst result : CoroActorPack} (h : symbol name = some n) :
    Spec ⟨name, rqst⟩ result ↔ n.Ensures rqst result := by
  obtain rfl := name_of_symbol h
  refine ⟨fun hspec => hspec n rfl, fun hn m hm => ?_⟩
  have hsame : symbol m.name = some n := by
    rw [show m.name = n.name from hm]
    exact h
  obtain rfl := Option.some.inj ((symbol_name m).symm.trans hsame)
  exact hn

theorem sum_text {rqst : StdString} {a b : Int} (ha : IsInt a) (hb : IsInt b) (hsum : IsInt (a + b))
    (hrqst : rqst = toStdString a ++ ascii " " ++ toStdString b) : sum rqst = some (a + b) := by
  rw [hrqst, List.append_assoc]
  exact sum_signed ha hb hsum

/-- What a service is answered, by what the other one is there for. -/
theorem answered {n : Symbol} {rqst : CoroActorPack} {a : Answer} (h : ∃ b, Spec ⟨n.name, rqst⟩ b ∧ a = .ok b) :
    ∃ b, n.Ensures rqst b ∧ a = .ok b := by
  obtain ⟨b, hb, rfl⟩ := h
  exact ⟨b, (spec_iff (symbol_name n)).mp hb, rfl⟩

/-- Each service does what it is there for, when those that it calls do. -/
theorem func_ensures (n : Symbol) (rqst resp : CoroActorPack) (hresp : resp.value = []) :
    (n.func undefined rqst resp).Ensures (fun q a => ∃ b, Spec q b ∧ a = .ok b) fun r => n.Ensures rqst r := by
  cases n with
  | svcAdd =>
      intro a b ha hb hsum hrqst
      rw [sum_text ha hb hsum hrqst]
  | svcCalc =>
      show (svcCalc rqst resp).Ensures _ _
      by_cases htype : rqst.type = 1
      · rw [svcCalc, if_pos htype]
        intro answer hanswer
        obtain ⟨result, hresult, rfl⟩ := answered (n := .svcAdd) hanswer
        refine ⟨fun hne => absurd htype hne, fun _ a b ha hb hsum hrqst => ?_⟩
        rw [← htype]
        exact hresult a b ha hb hsum hrqst
      · rw [svcCalc, if_neg htype]
        exact ⟨fun _ => hresp, fun h => absurd h htype⟩
  | svcStep =>
      intro one hone
      obtain ⟨result, hresult, rfl⟩ := answered (n := .svcStepOne) hone
      intro two htwo
      obtain ⟨result', hresult', rfl⟩ := answered (n := .svcStepTwo) htwo
      have hfirst : result = ⟨rqst.type, rqst.value ++ ascii "step one over !!!"⟩ := hresult
      have hsecond : result' = ⟨rqst.type, result.value ++ ascii "\nstep two over !!!"⟩ := hresult'
      show result' = _
      rw [hsecond, hfirst, List.append_assoc]
      rfl
  | svcEcho | svcStepOne => rfl
  | svcStepTwo =>
      intro echo hecho
      obtain ⟨result, hresult, rfl⟩ := answered (n := .svcEcho) hecho
      exact hresult
  | svcUseThread | svcUseSqlite => exact hresp

/-- Every service meets its specification, given that those that it calls do. -/
theorem meets_spec (undefined : StdString → StdString) : (directCalls (func undefined)).Meets Spec := by
  rintro ⟨name, rqst⟩ d ⟨type, rfl⟩
  show (func undefined name rqst ⟨type, []⟩).Ensures (fun q a => ∃ b, Spec q b ∧ a = .ok b) (Spec ⟨name, rqst⟩)
  unfold func
  cases hsymbol : symbol name with
  | some n =>
      rw [show Spec ⟨name, rqst⟩ = fun r => n.Ensures rqst r from funext fun r => propext (spec_iff hsymbol)]
      exact func_ensures n rqst ⟨type, []⟩ rfl
  | none =>
      intro m hm
      rw [show name = m.name from hm.symm, symbol_name] at hsymbol
      cases hsymbol

variable {cfg : System.Setting} {s : Hosted.Sys}

/-- **The services do what they are there for.** With any accepted configuration, `deserialize` the inverse of
`serialize`, a CONNACK that fits its length field and no two processes of one pid, in every run with these services in
which writes to one socket do not overlap, no RESPONSE answers a REQUEST that was buffered at a waiting callee and no
counter wraps around: a client gets for its first requests, in their order, what each service is there for, with the
services that it calls in other processes; and a `send` returns what the service that it calls is there for. The
runs in which two concurrent `svc_step` have a REQUEST buffered are left out. -/
theorem services_specified (hpids : ∀ k k', cfg.pid k = cfg.pid k' → k = k') {files : Config.Files}
    {root : Config.Root} (hload : (Config.load files .fresh root).1 = true)
    (hconfig : cfg.config = (Config.load files .fresh root).2)
    (hinv : cfg.codec.deserialize.Inverts cfg.codec.serialize) (hack : Link.Pack.Sized cfg.codec (.connack ⟨true⟩))
    (hr : Reachable (Hosted.machine cfg (func undefined)) (Hosted.Sys.Sensible cfg) s) (k : Proxy.Conn) :
    (∀ client, ∃ results : List CoroActorPack, (s.process k).written client = results.map CoroActorPack.frame ∧
      List.Forall₂ (fun msg result => ∀ n : Symbol, n.name = msg.serviceName → n.Ensures msg.pack result)
        (((s.process k).history.pushedOn (some client)).take results.length) results) ∧
    ∀ i < (s.process k).nsend, ∀ result, ((s.process k).sends i).pc = .returned (some result) →
      ∀ n : Symbol, n.name = ((s.process k).sends i).request.serviceName →
        n.Ensures ((s.process k).sends i).request.requestPack result := by
  obtain ⟨hs, -⟩ := Hosted.Sys.kept_of_reachable hpids (System.Setting.consistent_of_load hload hconfig) hinv hack hr
  refine ⟨fun client => ?_, fun i hi result hpc => ?_⟩
  · obtain ⟨results, hwritten, hresults⟩ := hs.replies k client
    exact ⟨results, hwritten, hresults.imp fun msg result h => h.meets (meets_spec undefined)⟩
  · exact (hs.returned hi hpc).meets (meets_spec undefined)

/-! ### The configuration of the repository -/

namespace Sample

/-- The files under `config`. -/
def files : Config.Files := fun file =>
  if file = ascii "../config/echo.yml" then some [.value (ascii "svc_echo")]
  else if file = ascii "../config/calc.yml" then some [.value (ascii "svc_calc"), .value (ascii "svc_step")]
  else if file = ascii "../config/add.yml" then some [.value (ascii "svc_add")]
  else if file = ascii "../config/step_one.yml" then some [.value (ascii "svc_step_one")]
  else if file = ascii "../config/step_two.yml" then some [.value (ascii "svc_step_two")]
  else if file = ascii "../config/use_thread.yml" then some [.value (ascii "svc_use_thread")]
  else if file = ascii "../config/use_sqlite.yml" then some [.value (ascii "svc_use_sqlite")]
  else none

/-- An entry of `actor_config.yml`, with the port at which it listens, if there is one. -/
def actor (name : String) (count : Nat) (lib file : String) (port : Option Nat) : Config.ActorDetail where
  actorName := .value (ascii name)
  actorCount := .value count
  actorModule := .value (ascii lib)
  actorService := .value (ascii file)
  actorAddress := if port.isSome then .value (ascii "127.0.0.1") else .undefined
  actorPort := port.elim .undefined .value

/-- `actor_config.yml`. -/
def root : Config.Root where
  daemon := .value false
  unix := .value (ascii "/tmp/actor_proxy.sock")
  pid := .value (ascii "/run/coro_actor.pid")
  actorConfig :=
    [actor "echo" 2 "libsvr_echo.so" "../config/echo.yml" (some 7777),
      actor "calc" 2 "libsvr_calc.so" "../config/calc.yml" (some 7778),
      actor "add" 1 "libsvr_add.so" "../config/add.yml" none,
      actor "step_one" 1 "libsvr_step_one.so" "../config/step_one.yml" none,
      actor "step_two" 1 "libsvr_step_two.so" "../config/step_two.yml" none,
      actor "use_thread" 1 "libsvr_use_thread.so" "../config/use_thread.yml" (some 7779),
      actor "use_sqlite" 2 "libsvr_use_sqlite.so" "../config/use_sqlite.yml" (some 7780)]

/-- The first processes to connect. -/
def setting : System.Setting where
  codec := Link.Sample.codec
  config := (Config.load files .fresh root).2
  pid k := 100 + k
  name k := match k with
    | 0 => ascii "calc"
    | 1 => ascii "add"
    | 2 => ascii "step_one"
    | 3 => ascii "step_two"
    | _ => ascii "echo"

theorem accepted : (Config.load files .fresh root).1 = true := by decide +kernel

theorem sized : Link.Pack.Sized setting.codec (.connack ⟨true⟩) := by
  unfold Link.Pack.Sized
  decide

theorem pids_distinct (k k' : Proxy.Conn) (h : setting.pid k = setting.pid k') : k = k' :=
  Int.ofNat.inj (Int.add_left_cancel h)

/-- A process connects and waits for a message. -/
def join (k : Proxy.Conn) : List Cluster.Label := Cluster.Sample.join k ++ [.actor k (.run 0)]

/-- `send` number `i` of process `k`, for its service `j`, up to the wait. -/
def send (k : Proxy.Conn) (j i : Nat) (q : Question) : List Cluster.Label :=
  [.actor k (.send j q.serviceName q.requestPack), .actor k (.wentOut i), .actor k (.written i 0), .read k,
    .proxy (.run k), .proxy (.transfer k 1000), .proxy (.resume k false)]

/-- Process `k` starts its service `j` for the message that it has got. -/
def start (k : Proxy.Conn) : List Cluster.Label :=
  [.actor k .messageNotified, .actor k (.run 0), .actor k .funcReturn]

/-- The service answers. -/
def answer (k : Proxy.Conn) (j : Nat) (result : CoroActorPack) : List Cluster.Label :=
  [.actor k (.respond j result), .actor k (.complete j), .actor k .serviceNotified]

/-- The RESPONSE of process `k` gets to `send` number `i` of process `k'`. -/
def reply (k k' : Proxy.Conn) (i : Nat) : List Cluster.Label :=
  [.read k, .proxy (.transfer k 1000), .proxy (.resume k false), .proxy (.run k), .proxy (.run k), .proxy (.run k),
    .internal k', .actor k' (.responded i)]

/-- A client asks `svc_step` and then, before it is answered, `svc_calc` for the sum of 3 and -5. -/
def ask : List Cluster.Label :=
  join 0 ++ join 1 ++ join 2 ++ join 3 ++ join 4 ++
    [.actor 0 .accept, .actor 0 (.remote 0 (ascii "svc_step") ⟨2, ascii "x"⟩)] ++ start 0 ++
    send 0 0 0 ⟨ascii "svc_step_one", ⟨2, ascii "x"⟩⟩ ++ [.internal 2] ++ start 2 ++
    answer 2 0 ⟨2, ascii "xstep one over !!!"⟩ ++ reply 2 0 0 ++
    [.actor 0 (.remote 0 (ascii "svc_calc") ⟨1, ascii "3 -5"⟩)] ++
    send 0 0 1 ⟨ascii "svc_step_two", ⟨2, ascii "xstep one over !!!"⟩⟩ ++ [.internal 3] ++ start 3 ++
    send 3 0 0 ⟨ascii "svc_echo", ⟨2, ascii "xstep one over !!!\nstep two over !!!"⟩⟩ ++ [.internal 4] ++ start 4 ++
    answer 4 0 ⟨2, ascii "xstep one over !!!\nstep two over !!!"⟩ ++ reply 4 3 0 ++
    answer 3 0 ⟨2, ascii "xstep one over !!!\nstep two over !!!"⟩ ++ reply 3 0 1 ++
    answer 0 0 ⟨2, ascii "xstep one over !!!\nstep two over !!!"⟩ ++ [.actor 0 .replied, .actor 0 (.run 0),
      .actor 0 .funcReturn] ++
    send 0 1 2 ⟨ascii "svc_add", ⟨1, ascii "3 -5"⟩⟩ ++ [.internal 1] ++ start 1 ++ answer 1 0 ⟨1, ascii "-2"⟩ ++
    reply 1 0 2 ++ answer 0 1 ⟨1, ascii "-2"⟩

end Sample

/-- The client has got both answers. -/
theorem services_specified_sample : ∃ s : Hosted.Sys,
    Reachable (Hosted.machine Sample.setting (func id)) (Hosted.Sys.Sensible Sample.setting) s ∧
    (s.process 0).written 0 = [⟨2, ascii "xstep one over !!!\nstep two over !!!"⟩, ⟨1, ascii "-2"⟩] ∧
    ((∀ client, ∃ results : List CoroActorPack, (s.process 0).written client = results.map CoroActorPack.frame ∧
      List.Forall₂ (fun msg result => ∀ n : Symbol, n.name = msg.serviceName → n.Ensures msg.pack result)
        (((s.process 0).history.pushedOn (some client)).take results.length) results) ∧
    ∀ i < (s.process 0).nsend, ∀ result, ((s.process 0).sends i).pc = .returned (some result) →
      ∀ n : Symbol, n.name = ((s.process 0).sends i).request.serviceName →
        n.Ensures ((s.process 0).sends i).request.requestPack result) := by
  obtain ⟨s, hr, hwritten⟩ := Reachable.of_leadsTo (Hosted.machine Sample.setting (func id))
    (Hosted.Sys.Sensible Sample.setting) Sample.ask (fun s => (s.process 0).written 0 =
      [⟨2, ascii "xstep one over !!!\nstep two over !!!"⟩, ⟨1, ascii "-2"⟩]) (by decide +kernel)
  exact ⟨s, hr, hwritten, services_specified Sample.pids_distinct Sample.accepted rfl Link.Sample.codec_inverts
    Sample.sized hr 0⟩

end CoroActor.Example
