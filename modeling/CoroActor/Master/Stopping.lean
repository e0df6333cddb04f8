import CoroActor.Master.Exclusion

/-! Stop commands. `handle_stop_command` reads the pid file, which the instances create and remove in the meantime, and
sends SIGTERM to the process whose pid it has read. There are any number of commands and of instances, and between two
steps of one of them any other may move. An instance that gets the signal leaves, or is killed before it has a handler;
both it may do at any time anyway. -/

namespace CoroActor.Stopping

open TransitionSystem PidFile

/-- Where a stop command stands: before the check of `handle_stop_command`, after it, after the open, before the `kill`,
and at its end. -/
inductive Phase where
  | start
  | found
  | reading (f : Nat)
  | killing (pid : Int)
  | ended
  deriving DecidableEq

/-- What has happened: the file that an instance has created and whether it has written its pid to it, the file that a
command has opened, the instance that was running then, and the pids that the command has sent SIGTERM to. -/
structure History where
  file : MasterPid → Option Nat
  written : MasterPid → Bool
  opened : Nat → Option Nat
  running : Nat → Option MasterPid
  killed : Nat → List Int

structure Sys where
  masters : PidFile.Sys
  commands : Nat → Phase
  history : History

/-- Who moves next. An open may fail. -/
inductive Label where
  | master (l : PidFile.Label)
  | stopExists (n : Nat)
  | stopOpen (n : Nat) (ok : Bool)
  | stopRead (n : Nat)
  | kill (n : Nat)

/-- What a step of an instance adds. -/
def History.record (h : History) (m : PidFile.Sys) : PidFile.Label → History
  | .createOpen i true => { h with file := Function.update h.file i (some m.files.target) }
  | .createWrite i true => { h with written := Function.update h.written i true }
  | _ => h

namespace Sys

variable (cfg : Setting) (s : Sys)

def init : Sys where
  masters := PidFile.Sys.init cfg
  commands := fun _ => .start
  history := ⟨fun _ => none, fun _ => false, fun _ => none, fun _ => none, fun _ => []⟩

/-- The command moves. -/
def put (n : Nat) (p : Phase) : Sys := { s with commands := Function.update s.commands n p }

/-- An instance that is running. -/
def running : Option MasterPid := cfg.instances.find? fun i => s.masters.phase i = .running

def step : Label → Option Sys
  | .master l =>
      (s.masters.step cfg l).map fun m => { s with masters := m, history := s.history.record s.masters l }
  | .stopExists n =>
      match s.commands n with
      | .start => some (s.put n (if s.masters.files.entry.isSome then .found else .ended))
      | _ => none
  | .stopOpen n ok =>
      match s.commands n with
      | .found =>
          match s.masters.files.entry, ok with
          | some f, true =>
              some { s.put n (.reading f) with
                history :=
                  { s.history with
                    opened := Function.update s.history.opened n (some f)
                    running := Function.update s.history.running n (s.running cfg) } }
          | _, _ => some (s.put n .ended)
      | _ => none
  | .stopRead n =>
      match s.commands n with
      | .reading f =>
          match extractInt (s.masters.files.content f) with
          | some pid => some (s.put n (.killing pid))
          | none => some (s.put n .ended)
      | _ => none
  | .kill n =>
      match s.commands n with
      | .killing pid =>
          some { s.put n .ended with
            history := { s.history with killed := Function.update s.history.killed n (s.history.killed n ++ [pid]) } }
      | _ => none

/-- No check of `create_pidfile` passes while another instance stands between its own and its open. -/
def Unraced : Label → Prop
  | .master l => s.masters.Unraced cfg l
  | .stopExists _ | .stopOpen .. | .stopRead _ | .kill _ => True

instance : (l : Label) → Decidable (Unraced cfg s l)
  | .master l => inferInstanceAs (Decidable (s.masters.Unraced cfg l))
  | .stopExists _ | .stopOpen .. | .stopRead _ | .kill _ => inferInstanceAs (Decidable True)

variable {cfg}

theorem running_phase {i : MasterPid} (h : s.running cfg = some i) : s.masters.phase i = .running := by
  unfold running at h
  have hfound := List.find?_some h
  exact of_decide_eq_true hfound

end Sys

def machine (cfg : Setting) : Machine Sys Label := ⟨Sys.init cfg, Sys.step cfg⟩

/-! ### The files of the instances -/

/-- The instance has done what `create_pidfile` does, or does not do it any more. -/
def Past : PidFile.Phase → Prop
  | .running | .leaving | .found | .reading _ | .removing | .ended => True
  | .start | .checked | .opened _ => False

/-- What an instance has created and written so far. -/
def Made (fs : Files) (h : History) (i : MasterPid) : PidFile.Phase → Prop
  | .start | .checked => h.file i = none ∧ h.written i = false
  | .opened f => h.file i = some f ∧ h.written i = false
  | .running => ∃ f, fs.entry = some f ∧ h.file i = some f
  | .leaving | .found | .reading _ | .removing | .ended => True

/-- A file has the pid of the instance that has created it, once it is written, and was there before if no instance has
created it. -/
structure Owned (cfg : Setting) (m : PidFile.Sys) (h : History) : Prop where
  guarded : Guarded cfg m
  made : ∀ i, Made m.files h i (m.phase i)
  below : ∀ i f, h.file i = some f → i ∈ cfg.instances ∧ f < m.files.nfile
  single : ∀ i j f, h.file i = some f → h.file j = some f → i = j
  text : ∀ i f, h.file i = some f → m.files.content f = if h.written i then insertInt i.val else []
  foreign : ∀ f, (∀ i, h.file i ≠ some f) → m.files.content f = cfg.pidFile.getD []

/-- What a step of an instance does not change: who has created a file, that an instance has done so and whether it has
written its pid then, and what is in a file with a pid. -/
structure Later (m : PidFile.Sys) (h : History) (m' : PidFile.Sys) (h' : History) : Prop where
  file : ∀ i f, h.file i = some f → h'.file i = some f
  past : ∀ i, Past (m.phase i) → Past (m'.phase i)
  pid : ∀ f pid, f < m.files.nfile → extractInt (m.files.content f) = some pid →
    m'.files.content f = m.files.content f
  written : ∀ i, Past (m.phase i) → h'.written i = h.written i
  numbers : m.files.nfile ≤ m'.files.nfile

section

variable {m : PidFile.Sys} {h h' : History} {i j : MasterPid} {fs fs' : Files} {p : PidFile.Phase} {f : Nat}

/-- What an instance has made does not depend on the other instances. -/
theorem Made.mono (hmade : Made fs h i p) (hfile : h'.file i = h.file i) (hwritten : h'.written i = h.written i)
    (hentry : p = .running → fs'.entry = fs.entry) : Made fs' h' i p := by
  cases p with
  | start | checked | opened => exact ⟨hfile.trans hmade.1, hwritten.trans hmade.2⟩
  | running =>
      obtain ⟨f, hf, hmade⟩ := hmade
      exact ⟨f, (hentry rfl).trans hf, hfile.trans hmade⟩
  | leaving | found | reading | removing | ended => trivial

theorem openPidFile_content (hf : f ≠ fs.target) : fs.openPidFile.content f = fs.content f :=
  Function.update_of_ne hf ..

theorem write_content {digits : StdString} {g : Nat} (hg : g ≠ f) : (fs.write f digits).content g = fs.content g :=
  Function.update_of_ne hg ..

theorem record_createOpen : (h.record m (.createOpen i true)).file i = some m.files.target := Function.update_self ..

theorem record_createOpen_of_ne (hj : j ≠ i) : (h.record m (.createOpen i true)).file j = h.file j :=
  Function.update_of_ne hj ..

theorem record_createWrite : (h.record m (.createWrite i true)).written i = true := Function.update_self ..

theorem record_createWrite_of_ne (hj : j ≠ i) : (h.record m (.createWrite i true)).written j = h.written j :=
  Function.update_of_ne hj ..

end

namespace Owned

variable {cfg : Setting} {m t : PidFile.Sys} {h : History} {l : PidFile.Label} {i : MasterPid} {p : PidFile.Phase}
  {fs : Files} {f : Nat}

theorem init (cfg : Setting) : Owned cfg (PidFile.Sys.init cfg) (Sys.init cfg).history where
  guarded := Guarded.init cfg
  made _ := ⟨rfl, rfl⟩
  below _ _ hf := by cases hf
  single _ _ _ hf := by cases hf
  text _ _ hf := by cases hf
  foreign _ _ := rfl

/-- One instance moves, and what is in the files stays. -/
theorem put (ho : Owned cfg m h) (hg : Guarded cfg (m.put i p fs)) (hmade : Made fs h i p)
    (hothers : ∀ j ≠ i, Made fs h j (m.phase j)) (hpast : Past (m.phase i) → Past p)
    (hcontent : fs.content = m.files.content) (hnfile : fs.nfile = m.files.nfile) :
    Owned cfg (m.put i p fs) h ∧ Later m h (m.put i p fs) h := by
  constructor
  · refine ⟨hg, fun j => ?_, fun j f hf => ?_, ho.single, fun j f hf => ?_, fun f hf => ?_⟩
    · by_cases hji : j = i
      · rw [hji, m.put_self]
        exact hmade
      · rw [m.put_of_ne hji]
        exact hothers j hji
    · obtain ⟨hj, hlt⟩ := ho.below j f hf
      exact ⟨hj, hlt.trans_eq hnfile.symm⟩
    · exact (congrFun hcontent f).trans (ho.text j f hf)
    · exact (congrFun hcontent f).trans (ho.foreign f hf)
  · refine ⟨fun _ _ hf => hf, fun j hj => ?_, fun f _ _ _ => congrFun hcontent f, fun _ _ => rfl, hnfile.ge⟩
    by_cases hji : j = i
    · rw [hji] at hj ⊢
      rw [m.put_self]
      exact hpast hj
    · rw [m.put_of_ne hji]
      exact hj

theorem move (ho : Owned cfg m h) (hg : Guarded cfg (m.put i p m.files)) (hmade : Made m.files h i p)
    (hpast : Past (m.phase i) → Past p) :
    Owned cfg (m.put i p m.files) h ∧ Later m h (m.put i p m.files) h :=
  ho.put hg hmade (fun j _ => ho.made j) hpast rfl rfl

/-- The file that is created has a number of its own. -/
theorem ne_target (ho : Owned cfg m h) (hentry : m.files.entry = none) (hf : h.file i = some f) :
    f ≠ m.files.target := by
  rw [Files.target, hentry]
  exact Nat.ne_of_lt (ho.below i f hf).2

theorem opened (ho : Owned cfg m h) (hi : i ∈ cfg.instances) (hp : m.phase i = .checked)
    (hg : Guarded cfg (m.put i (.opened m.files.target) m.files.openPidFile)) :
    Owned cfg (m.put i (.opened m.files.target) m.files.openPidFile) (h.record m (.createOpen i true)) := by
  have hentry : m.files.entry = none := by
    have hfits := ho.guarded.fits i
    rwa [hp] at hfits
  obtain ⟨hfile, hwritten⟩ : h.file i = none ∧ h.written i = false := by
    have hmade := ho.made i
    rwa [hp] at hmade
  refine ⟨hg, fun j => ?_, fun j f hf => ?_, fun j k f hj hk => ?_, fun j f hf => ?_, fun f hf => ?_⟩
  · by_cases hji : j = i
    · rw [hji, m.put_self]
      exact ⟨record_createOpen, hwritten⟩
    · rw [m.put_of_ne hji]
      refine (ho.made j).mono (record_createOpen_of_ne hji) rfl fun hq => ?_
      have hmade := ho.made j
      rw [hq] at hmade
      obtain ⟨f, hf, -⟩ := hmade
      exact absurd (hentry.symm.trans hf) (Option.some_ne_none f).symm
  · by_cases hji : j = i
    · rw [hji, record_createOpen] at hf
      exact ⟨hji ▸ hi, hg.fresh f hf⟩
    · rw [record_createOpen_of_ne hji] at hf
      obtain ⟨hj, hlt⟩ := ho.below j f hf
      refine ⟨hj, Nat.lt_trans hlt ?_⟩
      simp [PidFile.Sys.put, Files.openPidFile, hentry]
  · by_cases hji : j = i
    · by_cases hki : k = i
      · rw [hji, hki]
      · rw [hji, record_createOpen] at hj
        rw [record_createOpen_of_ne hki] at hk
        exact absurd (Option.some.inj hj).symm (ho.ne_target hentry hk)
    · rw [record_createOpen_of_ne hji] at hj
      by_cases hki : k = i
      · rw [hki, record_createOpen] at hk
        exact absurd (Option.some.inj hk).symm (ho.ne_target hentry hj)
      · rw [record_createOpen_of_ne hki] at hk
        exact ho.single j k f hj hk
  · show m.files.openPidFile.content f = if h.written j then insertInt j.val else []
    by_cases hji : j = i
    · rw [hji, record_createOpen] at hf
      rw [← Option.some.inj hf, hji, hwritten]
      exact Function.update_self ..
    · rw [record_createOpen_of_ne hji] at hf
      rw [openPidFile_content (ho.ne_target hentry hf)]
      exact ho.text j f hf
  · show m.files.openPidFile.content f = _
    rw [openPidFile_content fun heq => hf i (by rw [record_createOpen, heq])]
    refine ho.foreign f fun j hj => hf j ?_
    rw [record_createOpen_of_ne]
    · exact hj
    · intro hji
      rw [hji, hfile] at hj
      cases hj

theorem later_opened (ho : Owned cfg m h) (hp : m.phase i = .checked) :
    Later m h (m.put i (.opened m.files.target) m.files.openPidFile) (h.record m (.createOpen i true)) := by
  have hentry : m.files.entry = none := by
    have hfits := ho.guarded.fits i
    rwa [hp] at hfits
  have htarget : m.files.target = m.files.nfile := by rw [Files.target, hentry, Option.getD_none]
  refine ⟨fun j f hf => ?_, fun j hj => ?_, fun f _ hf _ => openPidFile_content ?_, fun _ _ => rfl, ?_⟩
  · rw [record_createOpen_of_ne]
    · exact hf
    · intro hji
      have hmade := ho.made i
      rw [hp, Made, ← hji, hf] at hmade
      cases hmade.1
  · have hji : j ≠ i := by
      intro hji
      rw [hji, hp] at hj
      exact hj
    rw [m.put_of_ne hji]
    exact hj
  · rw [htarget]
    exact Nat.ne_of_lt hf
  · simp [PidFile.Sys.put, Files.openPidFile, hentry]

theorem written (ho : Owned cfg m h) (hp : m.phase i = .opened f)
    (hg : Guarded cfg (m.put i .running (m.files.write f (insertInt i.val)))) :
    Owned cfg (m.put i .running (m.files.write f (insertInt i.val))) (h.record m (.createWrite i true)) ∧
      Later m h (m.put i .running (m.files.write f (insertInt i.val))) (h.record m (.createWrite i true)) := by
  obtain ⟨hentry, hempty⟩ : m.files.entry = some f ∧ m.files.content f = [] := by
    have hfits := ho.guarded.fits i
    rwa [hp] at hfits
  have hfile : h.file i = some f := by
    have hmade := ho.made i
    rw [hp] at hmade
    exact hmade.1
  constructor
  · refine ⟨hg, fun j => ?_, ho.below, ho.single, fun j g hj => ?_, fun g hj => ?_⟩
    · by_cases hji : j = i
      · rw [hji, m.put_self]
        exact ⟨f, hentry, hfile⟩
      · rw [m.put_of_ne hji]
        exact (ho.made j).mono rfl (record_createWrite_of_ne hji) fun _ => rfl
    · show (m.files.write f (insertInt i.val)).content g = _
      by_cases hji : j = i
      · rw [hji] at hj ⊢
        rw [← Option.some.inj (hfile.symm.trans hj), record_createWrite]
        simp [Files.write, hempty]
      · have hgf : g ≠ f := fun hgf => hji (ho.single j i f (hgf ▸ hj) hfile)
        rw [write_content hgf, record_createWrite_of_ne hji]
        exact ho.text j g hj
    · show (m.files.write f (insertInt i.val)).content g = _
      rw [write_content fun hgf => hj i (by rw [hgf]; exact hfile)]
      exact ho.foreign g hj
  · refine ⟨fun _ _ hj => hj, fun j hj => ?_, fun g pid _ hpid => write_content ?_,
      fun j hpast => record_createWrite_of_ne ?_, Nat.le_refl _⟩
    · by_cases hji : j = i
      · rw [hji, m.put_self]
        trivial
      · rw [m.put_of_ne hji]
        exact hj
    · intro hgf
      rw [hgf, hempty, extractInt_nil] at hpid
      cases hpid
    · intro hji
      rw [hji, hp] at hpast
      exact hpast

theorem step (ho : Owned cfg m h) (hi : l.pid ∈ cfg.instances) (hrace : m.Unraced cfg l) (hst : m.Move l t) :
    Owned cfg t (h.record m l) ∧ Later m h t (h.record m l) := by
  have hg := ho.guarded.step hi hrace hst
  cases hst with
  | @checked i hp _ =>
      have hmade := ho.made i
      rw [hp] at hmade
      exact ho.move hg hmade (by rw [hp]; exact id)
  | @opened i hp => exact ⟨ho.opened hi hp hg, ho.later_opened hp⟩
  | @notWritten i f hp =>
      have hmade := ho.made i
      have hfits := ho.guarded.fits i
      rw [hp] at hmade hfits
      exact ho.move hg ⟨f, hfits.1, hmade.1⟩ fun _ => trivial
  | @written i f hp => exact ho.written hp hg
  | @removed i hp =>
      refine ho.put hg trivial (fun j hji => (ho.made j).mono rfl rfl fun hq => ?_) (fun _ => trivial) rfl rfl
      have hfits := hg.fits j
      rw [m.put_of_ne hji, hq] at hfits
      obtain ⟨f, hf, -⟩ := hfits
      cases hf
  | refused | notOpened | leave | exit | gone | found | notRead | reading | foreign | own =>
      exact ho.move hg trivial fun _ => trivial

/-- The pid in a file that an instance has created is its own. -/
theorem pid_of_file (ho : Owned cfg m h) (hf : h.file i = some f) :
    extractInt (m.files.content f) = if h.written i then some i.val else none := by
  rw [ho.text i f hf]
  cases h.written i with
  | true => exact extractInt_insertInt i
  | false => exact extractInt_nil

end Owned

/-! ### The commands -/

/-- A command sends SIGTERM to the pid in the file that it has opened, at most once. If an instance was running then, it
has sent it to that one at its end, if there was a pid to read. -/
structure Aimed (s : Sys) (n : Nat) : Prop where
  below : ∀ f, s.history.opened n = some f → f < s.masters.files.nfile
  waiting : s.commands n = .start ∨ s.commands n = .found → s.history.running n = none
  reading : ∀ f, s.commands n = .reading f → s.history.opened n = some f
  killing : ∀ pid, s.commands n = .killing pid → ∃ f, s.history.opened n = some f ∧
    extractInt (s.masters.files.content f) = some pid
  quiet : s.commands n ≠ .ended → s.history.killed n = []
  once : (s.history.killed n).length ≤ 1
  killed : ∀ pid ∈ s.history.killed n, ∃ f, s.history.opened n = some f ∧
    extractInt (s.masters.files.content f) = some pid
  running : ∀ i, s.history.running n = some i → ∃ f, s.history.opened n = some f ∧ s.history.file i = some f ∧
    Past (s.masters.phase i)
  ended : s.commands n = .ended → ∀ i, s.history.running n = some i →
    s.history.killed n = if s.history.written i then [i.val] else []

namespace Aimed

variable {cfg : Setting} {s : Sys} {n : Nat} {m : PidFile.Sys} {h : History} {f : Nat} {pid : Int}

theorem master (ha : Aimed s n) {l : PidFile.Label}
    (hlater : Later s.masters s.history m (s.history.record s.masters l)) :
    Aimed { s with masters := m, history := s.history.record s.masters l } n := by
  have hopened : (s.history.record s.masters l).opened = s.history.opened := by
    unfold History.record
    split <;> rfl
  have hrunning : (s.history.record s.masters l).running = s.history.running := by
    unfold History.record
    split <;> rfl
  have hkilled : (s.history.record s.masters l).killed = s.history.killed := by
    unfold History.record
    split <;> rfl
  have hkept : ∀ {pid}, (∃ f, s.history.opened n = some f ∧ extractInt (s.masters.files.content f) = some pid) →
      ∃ f, s.history.opened n = some f ∧ extractInt (m.files.content f) = some pid := by
    rintro pid ⟨f, hf, hpid⟩
    refine ⟨f, hf, ?_⟩
    rw [hlater.pid f pid (ha.below f hf) hpid]
    exact hpid
  constructor <;> simp only [hopened, hrunning, hkilled]
  · exact fun f hf => (ha.below f hf).trans_le hlater.numbers
  · exact ha.waiting
  · exact ha.reading
  · exact fun pid hp => hkept (ha.killing pid hp)
  · exact ha.quiet
  · exact ha.once
  · exact fun pid hp => hkept (ha.killed pid hp)
  · intro i hi
    obtain ⟨f, hf, hfile, hpast⟩ := ha.running i hi
    exact ⟨f, hf, hlater.file i f hfile, hlater.past i hpast⟩
  · intro he i hi
    obtain ⟨-, -, -, hpast⟩ := ha.running i hi
    rw [hlater.written i hpast]
    exact ha.ended he i hi

theorem init : Aimed (Sys.init cfg) n where
  below _ hf := by cases hf
  waiting _ := rfl
  reading _ hp := by cases hp
  killing _ hp := by cases hp
  quiet _ := rfl
  once := Nat.zero_le 1
  killed _ hp := by cases hp
  running _ hi := by cases hi
  ended hp := by cases hp

theorem finished (ha : Aimed s n) (hp : s.commands n ≠ .ended)
    (hnone : ∀ i, s.history.running n = some i → s.history.written i = false) : Aimed (s.put n .ended) n where
  below := ha.below
  waiting hw := by simp [Sys.put] at hw
  reading f hr := by simp [Sys.put] at hr
  killing pid hk := by simp [Sys.put] at hk
  quiet _ := ha.quiet hp
  once := ha.once
  killed := ha.killed
  running := ha.running
  ended _ i hi := by
    show s.history.killed n = if s.history.written i then [i.val] else []
    rw [hnone i hi]
    exact ha.quiet hp

theorem found (ha : Aimed s n) (hp : s.commands n = .start) : Aimed (s.put n .found) n where
  below := ha.below
  waiting _ := ha.waiting (Or.inl hp)
  reading f hr := by simp [Sys.put] at hr
  killing pid hk := by simp [Sys.put] at hk
  quiet _ := ha.quiet (by rw [hp]; exact Phase.noConfusion)
  once := ha.once
  killed := ha.killed
  running := ha.running
  ended he := by simp [Sys.put] at he

theorem read (ha : Aimed s n) (hp : s.commands n = .reading f)
    (hpid : extractInt (s.masters.files.content f) = some pid) : Aimed (s.put n (.killing pid)) n where
  below := ha.below
  waiting hw := by simp [Sys.put] at hw
  reading g hr := by simp [Sys.put] at hr
  killing q hk := by
    simp only [Sys.put, Function.update_self, Phase.killing.injEq] at hk
    exact ⟨f, ha.reading f hp, hk ▸ hpid⟩
  quiet _ := ha.quiet (by rw [hp]; exact Phase.noConfusion)
  once := ha.once
  killed := ha.killed
  running := ha.running
  ended he := by simp [Sys.put] at he

theorem opens (ha : Aimed s n) (ho : Owned cfg s.masters s.history) (hp : s.commands n = .found)
    (hentry : s.masters.files.entry = some f) :
    Aimed { s.put n (.reading f) with
      history :=
        { s.history with
          opened := Function.update s.history.opened n (some f)
          running := Function.update s.history.running n (s.running cfg) } } n := by
  have hnone : s.history.killed n = [] := ha.quiet (by rw [hp]; exact Phase.noConfusion)
  constructor <;> simp only [Sys.put, Function.update_self]
  · intro g hg
    exact ho.guarded.fresh g (hentry.trans hg)
  · rintro (hw | hw) <;> cases hw
  · intro g hg
    rw [Phase.reading.inj hg]
  · intro q hq
    cases hq
  · exact fun _ => hnone
  · exact ha.once
  · intro q hq
    rw [hnone] at hq
    cases hq
  · intro i hi
    have hphase : s.masters.phase i = .running := s.running_phase hi
    have hmade := ho.made i
    rw [hphase] at hmade
    obtain ⟨g, hg, hfile⟩ := hmade
    rw [Option.some.inj (hentry.symm.trans hg)]
    exact ⟨g, rfl, hfile, by rw [hphase]; trivial⟩
  · intro he
    cases he

theorem kills (ha : Aimed s n) (ho : Owned cfg s.masters s.history) (hp : s.commands n = .killing pid) :
    Aimed { s.put n .ended with
      history := { s.history with
        killed := Function.update s.history.killed n (s.history.killed n ++ [pid]) } } n := by
  have hnone : s.history.killed n = [] := ha.quiet (by rw [hp]; exact Phase.noConfusion)
  obtain ⟨f, hopened, hpid⟩ := ha.killing pid hp
  constructor <;> simp only [Sys.put, Function.update_self, hnone, List.nil_append]
  · exact ha.below
  · rintro (hw | hw) <;> cases hw
  · intro g hg
    cases hg
  · intro q hq
    cases hq
  · exact fun he => absurd rfl he
  · exact Nat.le_refl 1
  · intro q hq
    rw [List.mem_singleton.mp hq]
    exact ⟨f, hopened, hpid⟩
  · exact ha.running
  · rintro - i hi
    obtain ⟨g, hg, hfile, -⟩ := ha.running i hi
    rw [Option.some.inj (hopened.symm.trans hg), ho.pid_of_file hfile] at hpid
    cases hw : s.history.written i with
    | true =>
        rw [hw, if_pos rfl] at hpid
        rw [if_pos rfl, Option.some.inj hpid]
    | false =>
        rw [hw] at hpid
        cases hpid

theorem other (ha : Aimed s n) {t : Sys} (hmasters : t.masters = s.masters) (hcommands : t.commands n = s.commands n)
    (hfile : t.history.file = s.history.file) (hwritten : t.history.written = s.history.written)
    (hopened : t.history.opened n = s.history.opened n) (hrunning : t.history.running n = s.history.running n)
    (hkilled : t.history.killed n = s.history.killed n) : Aimed t n := by
  constructor <;> simp only [hmasters, hcommands, hfile, hwritten, hopened, hrunning, hkilled]
  · exact ha.below
  · exact ha.waiting
  · exact ha.reading
  · exact ha.killing
  · exact ha.quiet
  · exact ha.once
  · exact ha.killed
  · exact ha.running
  · exact ha.ended

end Aimed

namespace Sys

variable {cfg : Setting} {s t : Sys} {n : Nat}

/-- One command moves, and the others stay. -/
theorem aimed_of_put {u : Sys} (ha : ∀ n, Aimed s n) (hu : Aimed u n) (hmasters : u.masters = s.masters)
    (hfile : u.history.file = s.history.file) (hwritten : u.history.written = s.history.written)
    (hothers : ∀ k ≠ n, u.commands k = s.commands k ∧ u.history.opened k = s.history.opened k ∧
      u.history.running k = s.history.running k ∧ u.history.killed k = s.history.killed k) (k : Nat) : Aimed u k := by
  by_cases hk : k = n
  · rwa [hk]
  · obtain ⟨hcommands, hopened, hrunning, hkilled⟩ := hothers k hk
    exact (ha k).other hmasters hcommands hfile hwritten hopened hrunning hkilled

theorem aimed_step {l : Label} (ho : Owned cfg s.masters s.history) (ha : ∀ n, Aimed s n) (hrace : s.Unraced cfg l)
    (hst : s.step cfg l = some t) : Owned cfg t.masters t.history ∧ ∀ n, Aimed t n := by
  cases l with
  | master l =>
      obtain ⟨m, hm, rfl⟩ := Option.map_eq_some_iff.mp hst
      obtain ⟨hi, hmove⟩ := PidFile.Sys.step_move hm
      obtain ⟨ho', hlater⟩ := ho.step hi hrace hmove
      exact ⟨ho', fun n => (ha n).master hlater⟩
  | stopExists n =>
      simp only [step] at hst
      split at hst
      · next hp =>
          obtain rfl := Option.some.inj hst
          refine ⟨ho, aimed_of_put ha ?_ rfl rfl rfl fun k hk => ⟨Function.update_of_ne hk .., rfl, rfl, rfl⟩⟩
          split
          · exact (ha n).found hp
          · apply (ha n).finished (by rw [hp]; exact Phase.noConfusion)
            intro i hi
            rw [(ha n).waiting (Or.inl hp)] at hi
            cases hi
      · cases hst
  | stopOpen n ok =>
      simp only [step] at hst
      split at hst
      · next hp =>
          split at hst
          · next f _ hentry =>
              obtain rfl := Option.some.inj hst
              exact ⟨⟨ho.guarded, ho.made, ho.below, ho.single, ho.text, ho.foreign⟩,
                aimed_of_put ha ((ha n).opens ho hp hentry) rfl rfl rfl fun k hk =>
                  ⟨Function.update_of_ne hk .., Function.update_of_ne hk .., Function.update_of_ne hk .., rfl⟩⟩
          · obtain rfl := Option.some.inj hst
            refine ⟨ho, aimed_of_put ha ?_ rfl rfl rfl fun k hk => ⟨Function.update_of_ne hk .., rfl, rfl, rfl⟩⟩
            apply (ha n).finished (by rw [hp]; exact Phase.noConfusion)
            intro i hi
            rw [(ha n).waiting (Or.inr hp)] at hi
            cases hi
      · cases hst
  | stopRead n =>
      simp only [step] at hst
      split at hst
      · next f hp =>
          split at hst
          · next pid hpid =>
              obtain rfl := Option.some.inj hst
              exact ⟨ho, aimed_of_put ha ((ha n).read hp hpid) rfl rfl rfl fun k hk =>
                ⟨Function.update_of_ne hk .., rfl, rfl, rfl⟩⟩
          · next hpid =>
              obtain rfl := Option.some.inj hst
              refine ⟨ho, aimed_of_put ha ?_ rfl rfl rfl fun k hk => ⟨Function.update_of_ne hk .., rfl, rfl, rfl⟩⟩
              apply (ha n).finished (by rw [hp]; exact Phase.noConfusion)
              intro i hi
              obtain ⟨g, hg, hfile, -⟩ := (ha n).running i hi
              rw [Option.some.inj (((ha n).reading f hp).symm.trans hg), ho.pid_of_file hfile] at hpid
              cases hw : s.history.written i with
              | true =>
                  rw [hw] at hpid
                  cases hpid
              | false => rfl
      · cases hst
  | kill n =>
      simp only [step] at hst
      split at hst
      · next pid hp =>
          obtain rfl := Option.some.inj hst
          exact ⟨⟨ho.guarded, ho.made, ho.below, ho.single, ho.text, ho.foreign⟩,
            aimed_of_put ha ((ha n).kills ho hp) rfl rfl rfl fun k hk =>
              ⟨Function.update_of_ne hk .., rfl, rfl, Function.update_of_ne hk ..⟩⟩
      · cases hst

theorem aimed (hr : Reachable (machine cfg) (Unraced cfg) s) : Owned cfg s.masters s.history ∧ ∀ n, Aimed s n :=
  hr.invariant (I := fun s => Owned cfg s.masters s.history ∧ ∀ n, Aimed s n)
    ⟨Owned.init cfg, fun _ => Aimed.init⟩ fun _ _ _ _ hi hok hst => aimed_step hi.1 hi.2 hok hst

/-- **A stop command stops the instance that is running.** In every run in which no check of `create_pidfile` passes
while another instance stands between its own check and its open: a command sends at most one SIGTERM, to an instance
that has written its pid or to the pid in the file that was there before; and one that opens the file while an instance
is running has sent it to that one at its end, unless the instance could not write its pid, and to nobody else. -/
theorem stops_running (hr : Reachable (machine cfg) (Unraced cfg) s) (n : Nat) :
    (s.history.killed n).length ≤ 1 ∧
    (∀ pid ∈ s.history.killed n, (∃ i ∈ cfg.instances, s.history.written i = true ∧ pid = i.val) ∨
      ∃ text, cfg.pidFile = some text ∧ extractInt text = some pid) ∧
    ∀ i, s.history.running n = some i → (s.commands n ≠ .ended → s.history.killed n = []) ∧
      (s.commands n = .ended → s.history.killed n = if s.history.written i then [i.val] else []) := by
  obtain ⟨ho, ha⟩ := aimed hr
  refine ⟨(ha n).once, fun pid hpid => ?_, fun i hi => ⟨(ha n).quiet, fun he => (ha n).ended he i hi⟩⟩
  obtain ⟨f, -, hread⟩ := (ha n).killed pid hpid
  by_cases hmade : ∃ i, s.history.file i = some f
  · obtain ⟨i, hi⟩ := hmade
    rw [ho.pid_of_file hi] at hread
    cases hw : s.history.written i with
    | true =>
        rw [hw, if_pos rfl] at hread
        exact Or.inl ⟨i, (ho.below i f hi).1, hw, (Option.some.inj hread).symm⟩
    | false =>
        rw [hw] at hread
        cases hread
  · rw [ho.foreign f fun i hi => hmade ⟨i, hi⟩] at hread
    cases hfile : cfg.pidFile with
    | some text =>
        rw [hfile] at hread
        exact Or.inr ⟨text, rfl, hread⟩
    | none =>
        rw [hfile] at hread
        cases hread

end Sys

namespace Sample

open PidFile.Sample

/-- An instance starts. -/
def starts (i : MasterPid) : List Label :=
  [.master (.createExists i), .master (.createOpen i true), .master (.createWrite i true)]

/-- A stop command up to its `kill`. -/
def stops (n : Nat) : List Label := [.stopExists n, .stopOpen n true, .stopRead n]

end Sample

namespace Sys

open PidFile.Sample

/-- The first instance is stopped, although it has removed its file before the `kill` and the second one has started. -/
theorem stops_running_sample : ∃ s, Reachable (machine setting) (Unraced setting) s ∧
    s.masters.phase second = .running ∧ s.history.running 0 = some first ∧ s.history.killed 0 = [first.val] := by
  obtain ⟨s, hr, hsecond, hfirst, hended, hwritten⟩ := Reachable.of_leadsTo (machine setting) (Unraced setting)
    (Sample.starts first ++ Sample.stops 0 ++ [.master (.leave first), .master (.deleteExists first),
      .master (.deleteOpen first), .master (.deleteRead first), .master (.remove first)] ++ Sample.starts second ++
      [.kill 0])
    (fun s => s.masters.phase second = .running ∧ s.history.running 0 = some first ∧ s.commands 0 = .ended ∧
      s.history.written first = true) (by decide +kernel)
  have hkilled := ((stops_running hr 0).2.2 first hfirst).2 hended
  rw [hwritten] at hkilled
  exact ⟨s, hr, hsecond, hfirst, hkilled⟩

/-- Both instances pass the check before either opens the file. The first one is running, and cannot be stopped. -/
theorem raced_not_stopped : ∃ s, Reachable (machine setting) (fun _ _ => True) s ∧
    s.history.running 0 = some first ∧ s.masters.phase first = .running ∧ s.commands 0 = .ended ∧
    s.history.killed 0 = [second.val] :=
  Reachable.of_leadsTo (machine setting) (fun _ _ => True)
    ([.master (.createExists first), .master (.createExists second), .master (.createOpen first true),
      .master (.createWrite first true), .master (.createOpen second true), .master (.createWrite second true)] ++
      Sample.stops 0 ++ [.kill 0])
    (fun s => s.history.running 0 = some first ∧ s.masters.phase first = .running ∧ s.commands 0 = .ended ∧
      s.history.killed 0 = [second.val]) (by decide +kernel)

end Sys

end CoroActor.Stopping
