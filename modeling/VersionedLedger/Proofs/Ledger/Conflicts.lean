import VersionedLedger.Ledger.Operations
import VersionedLedger.Proofs.Pool.Recorded
import VersionedLedger.Proofs.Program.Counted

/-! What the conflicts of an update count. They are the attempts before the one that has succeeded: those that lost a
race, and as well those that met a fault or waited too long for the lock. -/
namespace VersionedLedger

open Procedure Mark Pool

variable {σ α : Type}

namespace Procedure

variable {β : Type} {s s' : σ} {calls : List Made} {answer : Outcome β}

theorem makes_ofOutcome_bind {f : α → Procedure σ β} {given : Outcome α} :
    (ofOutcome given >>= f).Makes s calls answer s' ↔
      (∃ a, given = .ok a ∧ (f a).Makes s calls answer s') ∨
      ∃ e, given = .error e ∧ calls = [] ∧ answer = .error e ∧ s' = s := by
  cases given with
  | ok a =>
    constructor
    · exact fun made => .inl ⟨a,rfl,made⟩
    · rintro (⟨_,⟨⟩,made⟩ | ⟨_,⟨⟩,_⟩)
      exact made
  | error e =>
    constructor
    · intro made
      cases made
      exact .inr ⟨e,rfl,rfl,rfl,rfl⟩
    · rintro (⟨_,⟨⟩,_⟩ | ⟨_,⟨⟩,rfl,rfl,rfl⟩)
      exact .done _

end Procedure

namespace Optimistic

variable {id : RecordId} {s s' : σ} {calls : List Made} {e : Error}

theorem exists_failure_of_conditionalUpdate {expected : Version} {balance : Amount}
    (made : (conditionalUpdate id expected balance).Makes s calls (.error (.error e)) s') :
    (∃ m ∈ calls, m.failure? = some (.error e)) ∨ e = .notFound id := by
  unfold conditionalUpdate at made
  obtain ⟨due,_,checks,rfl⟩ := (makes_perform_bind _).mp made
  rcases makes_ofError_bind.mp checks with ⟨_,_,looks⟩ | ⟨e',rfl,_,fails,_⟩
  · obtain ⟨found,_,present,rfl⟩ := (makes_perform_bind _).mp looks
    dsimp only at present
    split at present
    · cases present
      exact .inr rfl
    · obtain ⟨owner,_,asks,rfl⟩ := (makes_perform_bind _).mp present
      obtain ⟨granted,_,holds,rfl⟩ := (makes_perform_bind _).mp asks
      rcases makes_ofOutcome_bind.mp holds with ⟨_,_,installs⟩ | ⟨f,rfl,_,fails,_⟩
      · obtain ⟨installed,_,releases,rfl⟩ := (makes_perform_bind _).mp installs
        obtain ⟨_,_,ends,rfl⟩ := (makes_perform_bind _).mp releases
        cases ends
        exact .inl ⟨⟨.install id expected balance,.error (.error e)⟩,by simp,rfl⟩
      · cases fails
        exact .inl ⟨⟨.acquire owner id none false,.error (.error e)⟩,by simp,rfl⟩
  · cases fails
    exact .inl ⟨⟨.checkFault "conditional_update",.error e⟩,by simp,rfl⟩

theorem exists_failure_of_update {mutate : Amount → Procedure σ Amount}
    (made : (update id mutate).Makes s calls (.error (.error e)) s') :
    (∃ m ∈ calls, m.failure? = some (.error e)) ∨ e = .notFound id ∨
      ∃ balance before inner after, (mutate balance).Makes before inner (.error (.error e)) after := by
  unfold update read at made
  rw [bind_assoc] at made
  obtain ⟨found,_,reads,rfl⟩ := (makes_perform_bind _).mp made
  cases found with
  | none =>
    cases reads
    exact .inr (.inl rfl)
  | some stored =>
    rw [pure_bind] at reads
    rcases makes_bind_iff.mp reads with ⟨_,balance,_,_,_,writes,rfl⟩ | ⟨_,computes,fails⟩
    · obtain ⟨given,updates,fails⟩ := exists_of_bind_pure writes
      cases given with
      | ok _ => cases fails
      | error _ =>
        cases fails
        rcases exists_failure_of_conditionalUpdate updates with ⟨m,member,failed⟩ | missing
        · exact .inl ⟨m,by simp [member],failed⟩
        · exact .inr (.inl missing)
    · cases fails
      exact .inr (.inr ⟨_,_,_,_,computes⟩)

end Optimistic

theorem Ledger.exists_earlier_of_update {id : RecordId} {mutate : Amount → Procedure σ Amount} {retry : RetryConfig}
    {s s' : σ} {calls : List Made} {report : UpdateReport}
    (made : (optimisticUpdate id mutate retry).Makes s calls (.ok report) s') :
    ∃ marks, ∃ earlier : List Error,
      RetryOptions.Splits {} (Optimistic.update id mutate) marks s calls s' ∧
        runs marks = earlier.map (fun e => .error (.error e)) ++ [.ok report.update] ∧
        (∀ e ∈ earlier, e.classification = .retryable) ∧ report.conflicts = earlier.length := by
  obtain ⟨given,attempts,reported⟩ := exists_of_bind_pure made
  obtain ⟨result,looped,rfl⟩ := RetryPolicy.exists_of_attempt attempts
  obtain ⟨started,marks,splits,_,decides⟩ := RetryPolicy.exists_marks looped
  generalize answers : runs marks = given at decides
  obtain ⟨earlier,retried,_,concludes⟩ := decides rfl rfl
  cases concludes with
  | succeeded r counts =>
    cases reported
    refine ⟨_,earlier,splits,answers,retried,?_⟩
    rw [Nat.zero_add] at counts
    exact congrArg (· - 1) counts
  | _ => cases reported

namespace Pool

/-- Whatever the other workers do: the conflicts of an update that has succeeded are all the attempts before, so they
are those that lost a race exactly if every attempt before did. The others ended with an error that a ledger replied, or
that the computation of the new balance ended with. -/
theorem conflicts_count {s : Ledger} {programs : List (Program (Outcome UpdateReport × σ))} {moves : List Move} {i : Nat}
    {id : RecordId} {mutate : Amount → Procedure σ Amount} {retry : RetryConfig} {own own' : σ} {report : UpdateReport}
    (named : programs[i]? = some ((Ledger.optimisticUpdate id mutate retry).start own))
    (ended : ((start s programs).play moves).result? i = some (.ok report, own')) :
    ∃ marks, ∃ earlier : List Error,
      RetryOptions.Splits {} (Optimistic.update id mutate) marks own (calls s programs moves i) own' ∧
        runs marks = earlier.map (fun e => .error (.error e)) ++ [.ok report.update] ∧
        report.conflicts = earlier.length ∧
        (report.conflicts = earlier.countP Error.isConflict ↔ ∀ e ∈ earlier, e.isConflict = true) ∧
        ∀ e ∈ earlier, e.classification = .retryable ∧
          ((∃ m ∈ calls s programs moves i, m.failure? = some (.error e)) ∨
            ∃ balance before inner after, (mutate balance).Makes before inner (.error (.error e)) after) := by
  obtain ⟨made,_⟩ := makes_calls named ended
  obtain ⟨marks,earlier,splits,answers,retried,counts⟩ := Ledger.exists_earlier_of_update made
  refine ⟨marks,earlier,splits,answers,counts,?_,fun e member => ⟨retried e member,?_⟩⟩
  · rw [counts,eq_comm,List.countP_eq_length]
  · have ran : .error (.error e) ∈ runs marks := by
      rw [answers]
      exact List.mem_append_left _ (List.mem_map_of_mem member)
    obtain ⟨before,inner,after,attempt,among⟩ := splits.exists_run ran
    rcases Optimistic.exists_failure_of_update attempt with ⟨m,here,failed⟩ | rfl | computes
    · exact .inl ⟨m,among m here,failed⟩
    · cases retried _ member
    · exact .inr computes

theorem conflicts_count_unavailable :
    let s : Ledger := { store := (Store.seeded [(1, 100)]).setFaults (.script [true]) }
    let mutate : Amount → Procedure Unit Amount := fun balance => pure (balance + 10)
    let programs := [(Ledger.optimisticUpdate 1 mutate {}).start ()]
    let moves := List.replicate 20 (.step 0) ++ .elapse 1000000000 :: List.replicate 30 (.step 0)
    ∃ report, ((start s programs).play moves).result? 0 = some (.ok report, ()) ∧ report.conflicts = 1 ∧
      ∃ marks, ∃ earlier : List Error,
        RetryOptions.Splits {} (Optimistic.update 1 mutate) marks () (calls s programs moves 0) () ∧
          runs marks = earlier.map (fun e => .error (.error e)) ++ [.ok report.update] ∧
          report.conflicts ≠ earlier.countP Error.isConflict := by
  intro s mutate programs moves
  have summary : (((start s programs).play moves).result? 0).map (fun r => r.1.map UpdateReport.conflicts) =
      some (.ok 1) := by decide +kernel
  have faults : ∀ m ∈ calls s programs moves 0, ∀ f ∈ m.failure?,
      f = .error (.unavailable "injected fault during conditional_update") := by decide +kernel
  obtain ⟨⟨answer,own⟩,ended,told⟩ := Option.map_eq_some_iff.mp summary
  cases answer with
  | error e => cases told
  | ok report =>
    have told : report.conflicts = 1 := Except.ok.inj told
    obtain ⟨marks,earlier,splits,answers,counts,all,each⟩ := conflicts_count (i := 0) rfl ended
    refine ⟨report,ended,told,marks,earlier,splits,answers,fun same => ?_⟩
    rw [told] at counts
    obtain ⟨e,rfl⟩ := List.length_eq_one_iff.mp counts.symm
    have lost := all.mp same e List.mem_cons_self
    rcases (each e List.mem_cons_self).2 with ⟨m,member,failed⟩ | ⟨balance,_,_,_,computes⟩
    · cases faults m member _ failed
      cases lost
    · cases computes

end Pool

end VersionedLedger
