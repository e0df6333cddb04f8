import CoroActor.Master.PidFile

/-! Which instance the pid file belongs to. As long as no two instances pass the check of `create_pidfile`
before either of them opens the file, it belongs to one of them at a time, and only that one removes it. -/

namespace CoroActor.PidFile

open TransitionSystem

/-- What an instance can rely on. Before its open there is no file; then there is its own, without a pid or with
its pid. A file that it reads is the one that there is, unless it is not its own; and the one that it is about
to remove is its own. -/
def Files.Fits (fs : Files) (i : MasterPid) : Phase → Prop
  | .checked => fs.entry = none
  | .opened f => fs.entry = some f ∧ fs.content f = []
  | .running => ∃ f, fs.entry = some f ∧ (fs.content f = [] ∨ fs.content f = insertInt i.val)
  | .reading f => f < fs.nfile ∧ (fs.entry = some f ∨ extractInt (fs.content f) ≠ some i.val)
  | .removing => ∃ f, fs.entry = some f ∧ extractInt (fs.content f) = some i.val
  | .start | .leaving | .found | .ended => True

namespace Files

variable {fs : Files} {i j : MasterPid} {p q : Phase} {f : Nat}

/-- Without a file only an instance that has checked can hold it. -/
theorem Fits.eq_checked (h : fs.Fits i p) (hnone : fs.entry = none) (hp : p.Holding) : p = .checked := by
  cases p with
  | checked => rfl
  | opened f => exact absurd (hnone.symm.trans h.1) (Option.some_ne_none f).symm
  | running =>
      obtain ⟨f, hf, -⟩ := h
      exact absurd (hnone.symm.trans hf) (Option.some_ne_none f).symm
  | start | leaving | found | reading | removing | ended => exact hp.elim

theorem Fits.openPidFile (h : fs.Fits i p) (hnone : fs.entry = none) (hp : ¬ p.Holding) :
    fs.openPidFile.Fits i p := by
  cases p with
  | reading f =>
      obtain ⟨hlt, hf | hforeign⟩ := h
      · exact absurd (hnone.symm.trans hf) (Option.some_ne_none f).symm
      · have hne : f ≠ fs.nfile := Nat.ne_of_lt hlt
        simp only [Fits, Files.openPidFile, target, hnone, Option.getD_none, Option.isSome_none, Bool.false_eq_true,
          if_false, Function.update_of_ne hne]
        exact ⟨Nat.lt_succ_of_lt hlt, .inr hforeign⟩
  | removing =>
      obtain ⟨f, hf, -⟩ := h
      exact absurd (hnone.symm.trans hf) (Option.some_ne_none f).symm
  | start | leaving | found | ended => trivial
  | checked | opened | running => exact absurd trivial hp

theorem Fits.write (h : fs.Fits i p) (hf : fs.entry = some f) (hempty : fs.content f = []) (digits : StdString)
    (hp : ¬ p.Holding) : (fs.write f digits).Fits i p := by
  cases p with
  | reading g =>
      refine ⟨h.1, ?_⟩
      by_cases hg : g = f
      · rw [hg]
        exact .inl hf
      · simp only [Files.write, Function.update_of_ne hg]
        exact h.2
  | removing =>
      -- it would be about to remove an empty file
      obtain ⟨g, hg, hown⟩ := h
      rw [← Option.some.inj (hf.symm.trans hg), hempty, extractInt_nil] at hown
      cases hown
  | start | leaving | found | ended => trivial
  | checked | opened | running => exact absurd trivial hp

theorem Fits.remove (h : fs.Fits j q) (hi : fs.Fits i .removing) (hne : j ≠ i) : fs.remove.Fits j q := by
  obtain ⟨f, hf, hown⟩ := hi
  have hforeign : extractInt (fs.content f) ≠ some j.val := by
    intro hj
    apply hne
    have hval := Option.some.inj (hj.symm.trans hown)
    cases i
    cases j
    rw [MasterPid.mk.injEq]
    exact hval
  cases q with
  | checked => rfl
  | opened g =>
      obtain ⟨hg, hempty⟩ := h
      rw [Option.some.inj (hf.symm.trans hg), hempty, extractInt_nil] at hown
      cases hown
  | running =>
      obtain ⟨g, hg, hempty | hfull⟩ := h
      · rw [Option.some.inj (hf.symm.trans hg), hempty, extractInt_nil] at hown
        cases hown
      · rw [Option.some.inj (hf.symm.trans hg), hfull] at hforeign
        exact absurd (extractInt_insertInt j) hforeign
  | reading g =>
      refine ⟨h.1, .inr ?_⟩
      rcases h.2 with hg | hg
      · rwa [← Option.some.inj (hf.symm.trans hg)]
      · exact hg
  | removing =>
      obtain ⟨g, hg, hj⟩ := h
      rw [← Option.some.inj (hf.symm.trans hg)] at hj
      exact absurd hj hforeign
  | start | leaving | found | ended => trivial

end Files

/-- The file fits all instances, at most one of them holds it, and the number of a new one is free. -/
structure Guarded (cfg : Setting) (s : Sys) : Prop where
  named : ∀ i, s.phase i ≠ .start → i ∈ cfg.instances
  fresh : ∀ f, s.files.entry = some f → f < s.files.nfile
  fits : ∀ i, s.files.Fits i (s.phase i)
  alone : ∀ i j, (s.phase i).Holding → (s.phase j).Holding → i = j

namespace Guarded

variable {cfg : Setting} {s t : Sys} {l : Label} {i j : MasterPid} {p : Phase} {fs : Files}

theorem others (hg : Guarded cfg s) (hi : (s.phase i).Holding) : ∀ j ≠ i, ¬ (s.phase j).Holding :=
  fun j hne hj => hne (hg.alone j i hj hi)

/-- One instance moves: what it relies on, and that the others keep what they rely on. -/
theorem put (hg : Guarded cfg s) (hi : i ∈ cfg.instances) (hfits : fs.Fits i p)
    (hothers : ∀ j ≠ i, fs.Fits j (s.phase j)) (hfresh : ∀ f, fs.entry = some f → f < fs.nfile)
    (halone : p.Holding → ∀ j ≠ i, ¬ (s.phase j).Holding) : Guarded cfg (s.put i p fs) where
  named j hj := by
    by_cases hji : j = i
    · rwa [hji]
    · rw [s.put_of_ne hji] at hj
      exact hg.named j hj
  fresh := hfresh
  fits j := by
    by_cases hji : j = i
    · rw [hji, s.put_self]
      exact hfits
    · rw [s.put_of_ne hji]
      exact hothers j hji
  alone j k hj hk := by
    by_cases hji : j = i
    · by_cases hki : k = i
      · rw [hji, hki]
      · rw [hji, s.put_self] at hj
        rw [s.put_of_ne hki] at hk
        exact absurd hk (halone hj k hki)
    · rw [s.put_of_ne hji] at hj
      by_cases hki : k = i
      · rw [hki, s.put_self] at hk
        exact absurd hj (halone hk j hji)
      · rw [s.put_of_ne hki] at hk
        exact hg.alone j k hj hk

theorem move (hg : Guarded cfg s) (hi : i ∈ cfg.instances) (hfits : s.files.Fits i p)
    (halone : p.Holding → ∀ j ≠ i, ¬ (s.phase j).Holding) : Guarded cfg (s.put i p s.files) :=
  hg.put hi hfits (fun j _ => hg.fits j) hg.fresh halone

theorem step (hg : Guarded cfg s) (hi : l.pid ∈ cfg.instances) (hrace : s.Unraced cfg l) (h : s.Move l t) :
    Guarded cfg t := by
  cases h with
  | @checked i hp he =>
      refine hg.move (p := .checked) hi he fun _ j hji hj => ?_
      have hchecked : s.phase j = .checked := (hg.fits j).eq_checked he hj
      have hnamed : j ∈ cfg.instances := hg.named j (by rw [hchecked]; exact Phase.noConfusion)
      exact hrace he j hnamed hchecked
  | @opened i hp =>
      have he : s.files.entry = none := by
        have hfits := hg.fits i
        rwa [hp] at hfits
      have hothers : ∀ j ≠ i, ¬ (s.phase j).Holding := hg.others (by rw [hp]; trivial)
      apply hg.put hi _ (fun j hji => (hg.fits j).openPidFile he (hothers j hji)) _ fun _ => hothers
      · exact ⟨rfl, Function.update_self ..⟩
      · intro f hf
        obtain rfl := Option.some.inj hf
        simp [Files.openPidFile, Files.target, he]
  | @notWritten i f hp =>
      have hfits := hg.fits i
      rw [hp] at hfits
      exact hg.move hi ⟨f, hfits.1, .inl hfits.2⟩ fun _ => hg.others (by rw [hp]; trivial)
  | @written i f hp =>
      have hfits := hg.fits i
      rw [hp] at hfits
      obtain ⟨hf, hempty⟩ := hfits
      have hothers : ∀ j ≠ i, ¬ (s.phase j).Holding := hg.others (by rw [hp]; trivial)
      apply hg.put hi _ (fun j hji => (hg.fits j).write hf hempty _ (hothers j hji)) hg.fresh fun _ => hothers
      refine ⟨f, hf, .inr ?_⟩
      simp [Files.write, hempty, Label.pid]
  | @reading i f hp he => exact hg.move hi ⟨hg.fresh f he, .inl he⟩ fun h => h.elim
  | @own i f hp hown =>
      have hfits := hg.fits i
      rw [hp] at hfits
      exact hg.move hi ⟨f, hfits.2.resolve_right fun h => h hown, hown⟩ fun h => h.elim
  | @removed i hp =>
      have hfits := hg.fits i
      rw [hp] at hfits
      exact hg.put hi trivial (fun j hji => (hg.fits j).remove hfits hji) (fun f hf => by cases hf) fun h => h.elim
  | refused | notOpened | leave | exit | gone | found | notRead | foreign =>
      exact hg.move hi trivial fun h => h.elim

theorem init (cfg : Setting) : Guarded cfg (Sys.init cfg) where
  named i hi := absurd rfl hi
  fresh f hf := by
    simp only [Sys.init] at hf ⊢
    split at hf
    · rw [← Option.some.inj hf]
      exact Nat.one_pos
    · cases hf
  fits _ := trivial
  alone _ _ hi := hi.elim

/-- While an instance is running no step changes the files. -/
theorem kept (hg : Guarded cfg s) (hj : s.phase j = .running) (h : s.Move l t) : t.files = s.files := by
  have hheld : ∀ i, (s.phase i).Holding → s.phase i = .running := by
    intro i hi
    rw [hg.alone i j hi (by rw [hj]; trivial), hj]
  cases h with
  | @opened i hp =>
      have hrunning := hheld i (by rw [hp]; trivial)
      rw [hp] at hrunning
      cases hrunning
  | @written i f hp =>
      have hrunning := hheld i (by rw [hp]; trivial)
      rw [hp] at hrunning
      cases hrunning
  | @removed i hp =>
      have hne : j ≠ i := by
        intro hji
        rw [hji, hp] at hj
        cases hj
      -- the running instance would be left without a file
      obtain ⟨f, hf, -⟩ : s.files.remove.Fits j .running := hj ▸ (hg.fits j).remove (hp ▸ hg.fits i) hne
      cases hf
  | _ => rfl

/-- Only an instance whose pid is in the file takes the name away from it. -/
theorem removed_own (hg : Guarded cfg s) (h : s.Move l t) {f : Nat} (hf : s.files.entry = some f)
    (hne : t.files.entry ≠ some f) : ∃ i, l = .remove i ∧ extractInt (s.files.content f) = some i.val := by
  cases h with
  | @opened i hp =>
      have hfits := hg.fits i
      rw [hp] at hfits
      exact absurd (hfits.symm.trans hf) (Option.some_ne_none f).symm
  | @removed i hp =>
      obtain ⟨g, hg', hown⟩ : s.files.Fits i .removing := hp ▸ hg.fits i
      rw [Option.some.inj (hf.symm.trans hg')]
      exact ⟨i, rfl, hown⟩
  | _ => exact absurd hf hne

end Guarded

namespace Sys

variable {cfg : Setting} {s : Sys}

theorem guarded (hr : Reachable (machine cfg) (Unraced cfg) s) : Guarded cfg s :=
  hr.invariant (Guarded.init cfg) fun _ _ _ _ hg hok hst => hg.step (step_move hst).1 hok (step_move hst).2

/-- **The pid file excludes.** In every run in which no check of `create_pidfile` passes while another instance
stands between its own check and its open, at most one instance is past `create_pidfile` and not in its
destructor; only the instance whose pid the file contains removes it; and while one is running no step, of a
failed start or of any other instance, changes the file. -/
theorem exclusive_of_unraced (hr : Reachable (machine cfg) (Unraced cfg) s) :
    (∀ i j, s.phase i = .running → s.phase j = .running → i = j) ∧
    (∀ l t f, s.step cfg l = some t → s.files.entry = some f → t.files.entry ≠ some f →
      ∃ i, l = .remove i ∧ extractInt (s.files.content f) = some i.val) ∧
    ∀ j l t, s.phase j = .running → s.step cfg l = some t → t.files = s.files := by
  have hg : Guarded cfg s := guarded hr
  refine ⟨fun i j hi hj => ?_, fun l t f hst hf hne => ?_, fun j l t hj hst => ?_⟩
  · apply hg.alone i j
    · rw [hi]
      trivial
    · rw [hj]
      trivial
  · exact hg.removed_own (step_move hst).2 hf hne
  · exact hg.kept hj (step_move hst).2

end Sys

namespace Sample

def first : MasterPid := ⟨11, by decide, by decide⟩
def second : MasterPid := ⟨12, by decide, by decide⟩

/-- Two instances, and no file from before. -/
def setting : Setting := ⟨[first, second], none⟩

end Sample

namespace Sys

/-- The second instance has been refused and reads the file of the first one, which stays. -/
theorem exclusive_of_unraced_sample : ∃ s, Reachable (machine Sample.setting) (Unraced Sample.setting) s ∧
    s.phase Sample.first = .running ∧ s.phase Sample.second = .reading 1 ∧
    ∀ l t, s.step Sample.setting l = some t → t.files = s.files := by
  obtain ⟨s, hr, hfirst, hsecond⟩ := Reachable.of_leadsTo (machine Sample.setting) (Unraced Sample.setting)
    [.createExists Sample.first, .createOpen Sample.first true, .createWrite Sample.first true,
      .createExists Sample.second, .deleteExists Sample.second, .deleteOpen Sample.second]
    (fun s => s.phase Sample.first = .running ∧ s.phase Sample.second = .reading 1) (by decide +kernel)
  exact ⟨s, hr, hfirst, hsecond, fun l t hst => (exclusive_of_unraced hr).2.2 Sample.first l t hfirst hst⟩

/-- Both instances pass the check before either opens the file, and both are running. And when the first one is
about to remove its file in the meantime, it removes that of the second one, which is running. -/
theorem both_running :
    (∃ s, Reachable (machine Sample.setting) (fun _ _ => True) s ∧ s.phase Sample.first = .running ∧
      s.phase Sample.second = .running) ∧
    ∃ s t, Reachable (machine Sample.setting) (fun _ _ => True) s ∧ s.phase Sample.second = .running ∧
      s.files.entry = some 1 ∧ extractInt (s.files.content 1) = some Sample.second.val ∧
      s.step Sample.setting (.remove Sample.first) = some t ∧ t.files.entry = none := by
  constructor
  · exact Reachable.of_leadsTo (machine Sample.setting) (fun _ _ => True)
      [.createExists Sample.first, .createExists Sample.second, .createOpen Sample.first true,
        .createWrite Sample.first true, .createOpen Sample.second true, .createWrite Sample.second true]
      (fun s => s.phase Sample.first = .running ∧ s.phase Sample.second = .running) (by decide +kernel)
  · obtain ⟨s, t, hr, -, hst, hsecond, hentry, hpid, hgone⟩ := Reachable.of_takes (machine Sample.setting)
      (fun _ _ => True)
      [.createExists Sample.first, .createExists Sample.second, .createOpen Sample.first true,
        .createWrite Sample.first true, .leave Sample.first, .deleteExists Sample.first,
        .deleteOpen Sample.first, .deleteRead Sample.first, .createOpen Sample.second true,
        .createWrite Sample.second true]
      (.remove Sample.first)
      (fun s t => s.phase Sample.second = .running ∧ s.files.entry = some 1 ∧
        extractInt (s.files.content 1) = some Sample.second.val ∧ t.files.entry = none) (by decide +kernel)
    exact ⟨s, t, hr, hsecond, hentry, hpid, hst, hgone⟩

end Sys

end CoroActor.PidFile
