import Mathlib.Tactic.TypeStar

/-! Programs that ask questions and go on with the answers. A question may start programs, whose results answer it;
what a program comes to when every question is answered so is its meaning as if it called the others directly. A
specification of the questions that each program meets, when the questions that it asks are answered as specified,
holds of every result. -/

variable {Q A R S : Type*}

/-- A program that asks and goes on with each answer, until it is done. -/
inductive Dialogue (Q A R : Type*) where
  | done (result : R)
  | ask (question : Q) (next : A → Dialogue Q A R)

namespace Dialogue

/-- The programs that a question may start, and the answer that a result makes. -/
structure System (Q A R : Type*) where
  starts : Q → Dialogue Q A R → Prop
  answer : R → A

namespace System

variable (M : System Q A R)

/-- What a program comes to when its questions are answered by programs that they start. -/
inductive Evaluates : Dialogue Q A R → R → Prop
  | done (result : R) : Evaluates (.done result) result
  | ask {question : Q} {next : A → Dialogue Q A R} {d : Dialogue Q A R} {b result : R} :
      M.starts question d → Evaluates d b → Evaluates (next (M.answer b)) result → Evaluates (.ask question next) result

/-- What a question comes to. -/
def Returns (question : Q) (result : R) : Prop := ∃ d, M.starts question d ∧ M.Evaluates d result

/-- A program that is what is left of one that the question has started. -/
def Serves (question : Q) (d : Dialogue Q A R) : Prop := ∀ result, M.Evaluates d result → M.Returns question result

variable {M} {question question' : Q} {next : A → Dialogue Q A R} {d : Dialogue Q A R} {b result : R}

theorem evaluates_ask : M.Evaluates (.ask question next) result ↔
    ∃ b, M.Returns question b ∧ M.Evaluates (next (M.answer b)) result := by
  refine ⟨fun h => ?_, ?_⟩
  · cases h with
    | ask hstarts hd hnext => exact ⟨_, ⟨_, hstarts, hd⟩, hnext⟩
  · rintro ⟨b, ⟨d, hstarts, hd⟩, hnext⟩
    exact .ask hstarts hd hnext

theorem Serves.start (h : M.starts question d) : M.Serves question d := fun _ hd => ⟨d, h, hd⟩

/-- The program goes on with an answer. -/
theorem Serves.answered (h : M.Serves question (.ask question' next)) (hb : M.Returns question' b) :
    M.Serves question (next (M.answer b)) := fun result hnext => h result (evaluates_ask.mpr ⟨b, hb, hnext⟩)

theorem Serves.returns (h : M.Serves question (.done result)) : M.Returns question result := h result (.done result)

end System

/-! ### Specifications -/

/-- The program comes to a result of this kind when its questions are answered as specified. -/
def Ensures (spec : Q → A → Prop) (post : R → Prop) : Dialogue Q A R → Prop
  | .done result => post result
  | .ask question next => ∀ a, spec question a → Ensures spec post (next a)

namespace System

variable {M : System Q A R} {spec : Q → R → Prop} {post : R → Prop} {d : Dialogue Q A R} {question : Q} {result : R}

/-- Every program that a question may start meets the specification of the question, when those that it asks are
answered as specified. -/
def Meets (M : System Q A R) (spec : Q → R → Prop) : Prop :=
  ∀ question d, M.starts question d → d.Ensures (fun q a => ∃ b, spec q b ∧ a = M.answer b) (spec question)

theorem Evaluates.ensured (hM : M.Meets spec) (h : M.Evaluates d result) :
    ∀ {post : R → Prop}, d.Ensures (fun q a => ∃ b, spec q b ∧ a = M.answer b) post → post result := by
  induction h with
  | done result =>
      intro post hd
      exact hd
  | ask hstarts _ _ ih ihnext =>
      intro post hd
      exact ihnext (hd _ ⟨_, ih (hM _ _ hstarts), rfl⟩)

/-- What is specified of the questions holds of their results. -/
theorem Returns.meets (hM : M.Meets spec) (h : M.Returns question result) : spec question result := by
  obtain ⟨d, hstarts, hd⟩ := h
  exact hd.ensured hM (hM question d hstarts)

end System

end Dialogue
