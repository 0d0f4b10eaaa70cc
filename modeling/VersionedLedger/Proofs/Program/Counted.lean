import VersionedLedger.Proofs.Program.Guarded

/-! How many attempts a retry loop answers with. It is the number of runs of its operation, and the loop sums itself up
with the same number; the error that it has seen last is the one of a run. -/
namespace VersionedLedger

open Procedure Mark

variable {σ α : Type}

namespace RetryOptions

variable {o : RetryOptions σ α} {operation : Procedure σ α} {s s' : σ} {trace : List Made} {marks : List (Mark α)}

theorem Splits.exists_run (splits : o.Splits operation marks s trace s') {answer : Outcome α}
    (member : answer ∈ runs marks) :
    ∃ before calls after, operation.Makes before calls answer after ∧ ∀ m ∈ calls, m ∈ trace := by
  induction splits with
  | nil => cases member
  | own m rest ih =>
    obtain ⟨before,calls,after,made,inside⟩ := ih member
    exact ⟨before,calls,after,made,fun m here => List.mem_cons_of_mem _ (inside m here)⟩
  | @ran given marks s s₁ s' calls trace made rest ih =>
    rw [runs_ran,List.mem_cons] at member
    rcases member with rfl | later
    · exact ⟨s,calls,s₁,made,fun m here => List.mem_append_left _ here⟩
    · obtain ⟨before,calls,after,made,inside⟩ := ih later
      exact ⟨before,calls,after,made,fun m here => List.mem_append_right _ (inside m here)⟩
  | fell e falls made rest ih =>
    obtain ⟨before,calls,after,made,inside⟩ := ih member
    exact ⟨before,calls,after,made,fun m here => List.mem_append_right _ (inside m here)⟩

theorem Splits.mem_of_own (splits : o.Splits operation marks s trace s') {m : Made} (member : .own m ∈ marks) :
    m ∈ trace := by
  induction splits with
  | nil => cases member
  | own m' rest ih =>
    rcases List.mem_cons.mp member with same | later
    · cases same
      exact List.mem_cons_self
    · exact List.mem_cons_of_mem _ (ih later)
  | ran made rest ih | fell e falls made rest ih =>
    rcases List.mem_cons.mp member with differs | later
    · cases differs
    · exact List.mem_append_right _ (ih later)

end RetryOptions

namespace RetryPolicy

variable {p : RetryPolicy} {o : RetryOptions σ α} {progress : RetryProgress} {marks : List (Mark α)}
  {answer : Outcome (Except RetryError (RetryOutcome α))} {result : Except RetryError (RetryOutcome α)}

def attemptsOf : Except RetryError (RetryOutcome α) → Nat
  | .ok o => o.attempts
  | .error e => e.attempts

theorem Ends.attempts {given : Outcome α} (ends : p.Ends o progress given marks (.ok result)) :
    attemptsOf result = progress.attempts := by
  cases ends <;> rfl

theorem Loops.attempts (loops : p.Loops o progress marks (.ok result)) :
    attemptsOf result = progress.attempts + (runs marks).length := by
  generalize given : (.ok result : Outcome (Except RetryError (RetryOutcome α))) = answer at loops
  induction loops with
  | stopped progress =>
    cases given
    simp [attemptsOf,RetryError.attempts]
  | ended progress unseen ends =>
    subst given
    simp [ends.attempts,ends.runs_eq]
  | again progress unseen uninterrupted e draw delay rest ih =>
    simp [ih given,Nat.add_assoc,Nat.add_comm 1]

theorem Loops.runs_ne_nil (loops : p.Loops o progress marks answer) (unwatched : o.watched = false) :
    runs marks ≠ [] := by
  cases loops with
  | stopped progress watched => cases unwatched.symm.trans watched
  | ended => simp
  | again => simp

theorem Loops.exists_awoken {n : Nat} {last : Option Error}
    (loops : p.Loops o progress marks (.ok (.error (.cancelled n last)))) (unwatched : o.watched = false) :
    ∃ d, .own ⟨.sleep d false,false⟩ ∈ marks := by
  generalize given : (.ok (.error (.cancelled n last)) : Outcome (Except RetryError (RetryOutcome α))) = answer at loops
  induction loops with
  | stopped progress watched => cases unwatched.symm.trans watched
  | ended progress unseen ends =>
    subst given
    cases ends with
    | interrupted e draw watched => cases unwatched.symm.trans watched
    | awoken e draw unseen delay =>
      rw [unwatched]
      exact ⟨delay,by simp⟩
  | again progress unseen uninterrupted e draw delay rest ih =>
    obtain ⟨d,member⟩ := ih given
    exact ⟨d,List.mem_append_right _ member⟩

theorem Ends.closing {given : Outcome α} (ends : p.Ends o progress given marks (.ok result))
    (unfallen : ∀ given, .fell given ∉ marks) :
    ∃ total, summaries marks = p.closing ⟨progress.attempts,total,result.isOk,false⟩ := by
  refine ⟨progress.totalDelay,?_⟩
  cases ends with
  | rescued e value => exact absurd (by simp) (unfallen (.ok value))
  | unrescued e e' => exact absurd (by simp) (unfallen (.error (.error e')))
  | _ => simp [summaries_cons_own,Made.sumsUp,RetryProgress.summary,Except.isOk,Except.toBool]

theorem Loops.closing (loops : p.Loops o progress marks (.ok result)) (unfallen : ∀ given, .fell given ∉ marks) :
    ∃ total, summaries marks = p.closing ⟨attemptsOf result,total,result.isOk,false⟩ := by
  generalize given : (.ok result : Outcome (Except RetryError (RetryOutcome α))) = answer at loops
  induction loops with
  | stopped progress =>
    cases given
    refine ⟨progress.totalDelay,?_⟩
    simp [attemptsOf,RetryError.attempts,summaries_cons_own,Made.sumsUp,RetryProgress.summary,Except.isOk,Except.toBool]
  | ended progress unseen ends =>
    subst given
    obtain ⟨total,closes⟩ := ends.closing fun given member => unfallen given (by simp [member])
    rw [ends.attempts]
    exact ⟨total,by simpa [summaries_cons_own,Made.sumsUp] using closes⟩
  | again progress unseen uninterrupted e draw delay rest ih =>
    obtain ⟨total,closes⟩ := ih (fun given member => unfallen given (List.mem_append_right _ member)) given
    exact ⟨total,by simpa using closes⟩

theorem Ends.eq_of_last {given : Outcome α} {failure : RetryError} {e : Error}
    (ends : p.Ends o progress given marks (.ok (.error failure))) (unfallen : ∀ given, .fell given ∉ marks)
    (last : failure.last? = some e) : given = .error (.error e) := by
  cases ends with
  | unrescued e e' => exact absurd (by simp) (unfallen (.error (.error e')))
  | _ =>
    cases last
    rfl

theorem Loops.mem_runs_of_last {failure : RetryError} {e : Error} (loops : p.Loops o progress marks (.ok (.error failure)))
    (unfallen : ∀ given, .fell given ∉ marks) (last : failure.last? = some e) : .error (.error e) ∈ runs marks := by
  generalize given : (.ok (.error failure) : Outcome (Except RetryError (RetryOutcome α))) = answer at loops
  induction loops with
  | stopped =>
    cases given
    cases last
  | ended progress unseen ends =>
    subst given
    rw [ends.eq_of_last (fun given member => unfallen given (by simp [member])) last]
    simp
  | again progress unseen uninterrupted e draw delay rest ih =>
    simpa using .inr (ih (fun given member => unfallen given (List.mem_append_right _ member)) given)

end RetryPolicy

end VersionedLedger
