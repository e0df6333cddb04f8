import CoroActor.Library.Decimal
import CoroActor.Library.TransitionSystem
import CoroActor.Protocol
import Mathlib.Data.List.TakeWhile

/-! The pid file: `create_pidfile` in the start of a master process and `delete_pidfile` in its destructor, for
any number of instances that use one file. Every access to the file system is a step of its own, and between
two of them any other instance may move. A file is open under its number, which outlives its name. -/

namespace CoroActor.PidFile

open TransitionSystem

/-- The pid of a process that exists. -/
structure MasterPid where
  val : Pid
  pos : 0 < val
  fits : val < 2147483648
  deriving DecidableEq

/-- `pf << pid`. -/
def insertInt (n : Int) : StdString := Decimal.signed 45 n

/-- The sign, if there is one, and what follows. -/
def splitSign : StdString → Bool × StdString
  | 45 :: s => (true, s)
  | 43 :: s => (false, s)
  | s => (false, s)

/-- `pf >> pid`: blanks are skipped, and a sign and digits are taken, as many as there are. Without a digit, or
with a number that is no `int`, it fails. -/
def extractInt (s : StdString) : Option Int :=
  let (minus, s) := splitSign (s.dropWhile fun b => b = 32 ∨ 9 ≤ b ∧ b ≤ 13)
  let digits := s.takeWhile fun b => 48 ≤ b ∧ b ≤ 57
  let n : Int := if minus then -Decimal.value digits else Decimal.value digits
  if digits ≠ [] ∧ -2147483648 ≤ n ∧ n < 2147483648 then some n else none

theorem extractInt_nil : extractInt [] = none := rfl

/-- The pid that was written is read. -/
theorem extractInt_insertInt (i : MasterPid) : extractInt (insertInt i.val) = some i.val := by
  have hval : ((Decimal.value (Decimal.numeral i.val.natAbs) : Nat) : Int) = i.val := by
    rw [Decimal.value_numeral]
    exact Int.natAbs_of_nonneg (Int.le_of_lt i.pos)
  have hdigit : ∀ b ∈ Decimal.numeral i.val.natAbs, (48 : UInt8) ≤ b ∧ b ≤ 57 := fun b hb =>
    ⟨(Decimal.mem_numeral hb).1, (Decimal.mem_numeral hb).2⟩
  have htake : (Decimal.numeral i.val.natAbs).takeWhile (fun b => 48 ≤ b ∧ b ≤ 57) =
      Decimal.numeral i.val.natAbs := by
    apply List.takeWhile_eq_self_iff.mpr
    exact fun b hb => decide_eq_true (hdigit b hb)
  rw [insertInt, Decimal.signed, if_neg (Int.not_lt.mpr (Int.le_of_lt i.pos)), List.nil_append]
  cases hnum : Decimal.numeral i.val.natAbs with
  | nil => exact absurd hnum (Decimal.numeral_ne_nil _)
  | cons b bs =>
      rw [hnum] at hdigit hval htake
      obtain ⟨hlow, hhigh⟩ := hdigit b List.mem_cons_self
      have hblank : ¬ (b = 32 ∨ 9 ≤ b ∧ b ≤ 13) := by
        rintro (rfl | ⟨-, hle⟩)
        · exact absurd hlow (by decide)
        · exact absurd (UInt8.le_trans hlow hle) (by decide)
      have hsign : splitSign (b :: bs) = (false, b :: bs) := by
        unfold splitSign
        split
        · next heq => exact absurd ((List.cons.inj heq).1 ▸ hlow) (by decide)
        · next heq => exact absurd ((List.cons.inj heq).1 ▸ hlow) (by decide)
        · rfl
      unfold extractInt
      rw [List.dropWhile_cons_of_neg (by simpa using hblank), hsign]
      simp only [htake, hval, Bool.false_eq_true, if_false]
      have hpos := i.pos
      exact if_pos ⟨List.cons_ne_nil _ _, by omega, i.fits⟩

/-- The file system, as far as `pid_file` is concerned: the file that the name stands for, and what is in each
file. -/
structure Files where
  entry : Option Nat
  content : Nat → StdString
  nfile : Nat

namespace Files

variable (fs : Files)

/-- The file that `std::ofstream pf(pid_file)` opens, which is a new one if there is none. -/
def target : Nat := fs.entry.getD fs.nfile

/-- `std::ofstream pf(pid_file)`: the file is created, or truncated. -/
def openPidFile : Files where
  entry := some fs.target
  content := Function.update fs.content fs.target []
  nfile := if fs.entry.isSome then fs.nfile else fs.nfile + 1

/-- `pf << pid` and `pf.close()`: the digits go over the beginning of the file. -/
def write (f : Nat) (digits : StdString) : Files :=
  { fs with content := Function.update fs.content f (digits ++ (fs.content f).drop digits.length) }

/-- `std::remove`. -/
def remove : Files := { fs with entry := none }

end Files

/-- Where an instance stands: before `create_pidfile`, after its check, after its open, past it, at the head of
the destructor, after the check there, after the open, before the removal, and at its end. -/
inductive Phase where
  | start
  | checked
  | opened (f : Nat)
  | running
  | leaving
  | found
  | reading (f : Nat)
  | removing
  | ended
  deriving DecidableEq

structure Sys where
  files : Files
  phase : MasterPid → Phase

/-- The instances, which have pids of their own, and what is in the file before any of them starts, if there is
one. -/
structure Setting where
  instances : List MasterPid
  pidFile : Option StdString

/-- Who moves next. An open and a write may fail; for the latter `create_pidfile` does not look. An instance
leaves when an exception ends `init` or `run` is over, and exits without its destructor when it is killed or
calls `exit`. -/
inductive Label where
  | createExists (i : MasterPid)
  | createOpen (i : MasterPid) (ok : Bool)
  | createWrite (i : MasterPid) (ok : Bool)
  | leave (i : MasterPid)
  | exit (i : MasterPid)
  | deleteExists (i : MasterPid)
  | deleteOpen (i : MasterPid)
  | deleteRead (i : MasterPid)
  | remove (i : MasterPid)

/-- The instance that moves. -/
def Label.pid : Label → MasterPid
  | createExists i | createOpen i _ | createWrite i _ | leave i | exit i | deleteExists i | deleteOpen i
  | deleteRead i | remove i => i

namespace Sys

variable (cfg : Setting) (s : Sys)

def init : Sys where
  files :=
    { entry := if cfg.pidFile.isSome then some 0 else none
      content := fun _ => cfg.pidFile.getD []
      nfile := 1 }
  phase := fun _ => .start

/-- The instance moves, and leaves the files like this. -/
def put (i : MasterPid) (p : Phase) (fs : Files) : Sys := ⟨fs, Function.update s.phase i p⟩

@[simp] theorem put_self (i : MasterPid) (p : Phase) (fs : Files) : (s.put i p fs).phase i = p := by
  simp [put]

theorem put_of_ne {i j : MasterPid} (h : j ≠ i) (p : Phase) (fs : Files) : (s.put i p fs).phase j = s.phase j := by
  simp [put, h]

/-- What an instance does next. -/
def act : Label → Option Sys
  | .createExists i =>
      match s.phase i with
      | .start => some (s.put i (if s.files.entry.isSome then .leaving else .checked) s.files)
      | _ => none
  | .createOpen i ok =>
      match s.phase i with
      | .checked =>
          if ok then some (s.put i (.opened s.files.target) s.files.openPidFile)
          else some (s.put i .leaving s.files)
      | _ => none
  | .createWrite i ok =>
      match s.phase i with
      | .opened f => some (s.put i .running (if ok then s.files.write f (insertInt i.val) else s.files))
      | _ => none
  | .leave i =>
      match s.phase i with
      | .start | .checked | .opened _ | .running => some (s.put i .leaving s.files)
      | _ => none
  | .exit i => some (s.put i .ended s.files)
  | .deleteExists i =>
      match s.phase i with
      | .leaving => some (s.put i (if s.files.entry.isSome then .found else .ended) s.files)
      | _ => none
  | .deleteOpen i =>
      match s.phase i with
      | .found =>
          match s.files.entry with
          | none => some (s.put i .ended s.files)
          | some f => some (s.put i (.reading f) s.files)
      | _ => none
  | .deleteRead i =>
      match s.phase i with
      | .reading f =>
          some (s.put i (if extractInt (s.files.content f) = some i.val then .removing else .ended) s.files)
      | _ => none
  | .remove i =>
      match s.phase i with
      | .removing => some (s.put i .ended s.files.remove)
      | _ => none

def step (l : Label) : Option Sys := if l.pid ∈ cfg.instances then s.act l else none

end Sys

def machine (cfg : Setting) : Machine Sys Label := ⟨Sys.init cfg, Sys.step cfg⟩

/-- The instance has passed the check of `create_pidfile` and is not in its destructor. -/
def Phase.Holding : Phase → Prop
  | .checked | .opened _ | .running => True
  | .start | .leaving | .found | .reading _ | .removing | .ended => False

namespace Sys

variable (cfg : Setting) (s : Sys)

/-- The cases of a step. -/
inductive Move : Label → Sys → Prop
  | refused {i f} : s.phase i = .start → s.files.entry = some f →
      Move (.createExists i) (s.put i .leaving s.files)
  | checked {i} : s.phase i = .start → s.files.entry = none → Move (.createExists i) (s.put i .checked s.files)
  | notOpened {i} : s.phase i = .checked → Move (.createOpen i false) (s.put i .leaving s.files)
  | opened {i} : s.phase i = .checked →
      Move (.createOpen i true) (s.put i (.opened s.files.target) s.files.openPidFile)
  | notWritten {i f} : s.phase i = .opened f → Move (.createWrite i false) (s.put i .running s.files)
  | written {i f} : s.phase i = .opened f →
      Move (.createWrite i true) (s.put i .running (s.files.write f (insertInt i.val)))
  | leave {i} : s.phase i = .start ∨ (s.phase i).Holding → Move (.leave i) (s.put i .leaving s.files)
  | exit {i} : Move (.exit i) (s.put i .ended s.files)
  | gone {i} : s.phase i = .leaving → Move (.deleteExists i) (s.put i .ended s.files)
  | found {i} : s.phase i = .leaving → Move (.deleteExists i) (s.put i .found s.files)
  | notRead {i} : s.phase i = .found → Move (.deleteOpen i) (s.put i .ended s.files)
  | reading {i f} : s.phase i = .found → s.files.entry = some f → Move (.deleteOpen i) (s.put i (.reading f) s.files)
  | foreign {i f} : s.phase i = .reading f → Move (.deleteRead i) (s.put i .ended s.files)
  | own {i f} : s.phase i = .reading f → extractInt (s.files.content f) = some i.val →
      Move (.deleteRead i) (s.put i .removing s.files)
  | removed {i} : s.phase i = .removing → Move (.remove i) (s.put i .ended s.files.remove)

/-- No check of `create_pidfile` passes while another instance stands between its own and its open. -/
def Unraced : Label → Prop
  | .createExists _ => s.files.entry = none → ∀ j ∈ cfg.instances, s.phase j ≠ .checked
  | _ => True

instance : (l : Label) → Decidable (Unraced cfg s l)
  | .createExists _ => inferInstanceAs (Decidable (_ → ∀ j ∈ cfg.instances, _))
  | .createOpen .. | .createWrite .. | .leave _ | .exit _ | .deleteExists _ | .deleteOpen _ | .deleteRead _
  | .remove _ => inferInstanceAs (Decidable True)

variable {cfg s} {t : Sys} {l : Label}

theorem act_move (h : s.act l = some t) : s.Move l t := by
  cases l with
  | createExists i =>
      simp only [act] at h
      split at h
      · next hp =>
          obtain rfl := Option.some.inj h
          cases he : s.files.entry with
          | none => exact .checked hp he
          | some f => exact .refused hp he
      · cases h
  | createOpen i ok =>
      simp only [act] at h
      split at h
      · next hp =>
          cases ok with
          | false =>
              obtain rfl := Option.some.inj h
              exact .notOpened hp
          | true =>
              obtain rfl := Option.some.inj h
              exact .opened hp
      · cases h
  | createWrite i ok =>
      simp only [act] at h
      split at h
      · next hp =>
          obtain rfl := Option.some.inj h
          cases ok with
          | false => exact .notWritten hp
          | true => exact .written hp
      · cases h
  | leave i =>
      cases hp : s.phase i with
      | start | checked | opened | running =>
          simp only [act, hp, Option.some.injEq] at h
          obtain rfl := h
          exact .leave (by simp [hp, Phase.Holding])
      | leaving | found | reading | removing | ended => simp [act, hp] at h
  | exit i =>
      obtain rfl := Option.some.inj h
      exact .exit
  | deleteExists i =>
      simp only [act] at h
      split at h
      · next hp =>
          obtain rfl := Option.some.inj h
          split
          · exact .found hp
          · exact .gone hp
      · cases h
  | deleteOpen i =>
      simp only [act] at h
      split at h
      · next hp =>
          split at h
          · obtain rfl := Option.some.inj h
            exact .notRead hp
          · next he =>
              obtain rfl := Option.some.inj h
              exact .reading hp he
      · cases h
  | deleteRead i =>
      simp only [act] at h
      split at h
      · next hp =>
          obtain rfl := Option.some.inj h
          split
          · next hown => exact .own hp hown
          · exact .foreign hp
      · cases h
  | remove i =>
      simp only [act] at h
      split at h
      · next hp =>
          obtain rfl := Option.some.inj h
          exact .removed hp
      · cases h

theorem step_move (h : s.step cfg l = some t) : l.pid ∈ cfg.instances ∧ s.Move l t := by
  obtain ⟨hi, h⟩ := Option.ite_none_right_eq_some.mp h
  exact ⟨hi, act_move h⟩

end Sys

end CoroActor.PidFile
