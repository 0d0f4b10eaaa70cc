import VersionedLedger.Proofs.Program.Counted
import VersionedLedger.Proofs.Store.Scope

/-! Retry loops inside each other. What a loop gives up on is tried again by no loop around it, so the outer one adds
its reports to what the inner one does, and no attempt. -/
namespace VersionedLedger

open Procedure Mark

variable {σ α β : Type}

theorem Program.bind_congr_of_makes {p : Program α} {f g : α → Program β}
    (same : ∀ trace a, p.Makes trace a → f a = g a) : p.bind f = p.bind g := by
  induction p with
  | done a => exact same [] a (.done a)
  | call c next ih =>
    refine congrArg (Program.call c) (funext fun r => ih r fun trace a made => ?_)
    exact same _ a (.call c next r made)

namespace Procedure

theorem outcome_bind_congr {p : Procedure σ α} {f g : Outcome α → Procedure σ β}
    (same : ∀ s trace answer s', p.Makes s trace answer s' → f answer = g answer) :
    p.outcome >>= f = p.outcome >>= g := by
  have starts (s : σ) : (p.outcome >>= f).start s = (p.outcome >>= g).start s := by
    rw [start_bind,start_bind,start_outcome,Program.bind_assoc,Program.bind_assoc]
    refine Program.bind_congr_of_makes fun trace ended made => ?_
    rw [Program.bind,Program.bind]
    exact congrArg (start · ended.2) (same s trace ended.1 ended.2 made)
  exact funext starts

/-- It fails with no error that is tried again by default. -/
def Final (p : Procedure σ α) : Prop :=
  ∀ s trace e s', p.Makes s trace (.error (.error e)) s' → e.classification = .fatal

end Procedure

namespace RetryPolicy

def tellsOnce (p : RetryPolicy) (started : Time) : Outcome α → Procedure σ Unit
  | .ok _ => do
    p.reportAttempt { started, attempts := 1 } .success
    p.close { started, attempts := 1 } true false
    let _ ← perform .now
  | .error (.error _) => do
    p.reportAttempt { started, attempts := 1 } .fatal
    p.close { started, attempts := 1 } false false
  | .error (.crash _) => pure ()

theorem call_of_final (p : RetryPolicy) {operation : Procedure σ α} (final : operation.Final) :
    p.call operation = (do
      let started ← perform .now
      let _ ← perform .isCancelled
      let answer ← operation.outcome
      p.tellsOnce started answer
      ofOutcome answer) := by
  simp only [call,attempt,run,bind_assoc]
  refine bind_congr fun started => ?_
  unfold loop
  simp only [Bool.false_and,Bool.false_eq_true,if_false,bind_assoc]
  refine bind_congr fun asked => outcome_bind_congr fun s trace answer s' made => ?_
  rcases answer with (e | c) | value
  · simp only [final s trace e s' made,tellsOnce,giveUp,bind_assoc,pure_bind]
    rfl
  · rfl
  · simp only [tellsOnce,succeed,bind_assoc,pure_bind]
    rfl

/-- What has been told but for the error goes on as it is: a call gives its last answer, or an error of its own. -/
theorem exists_of_call {p : RetryPolicy} {operation : Procedure σ α} {s s' : σ} {trace : List Made}
    {answer : Outcome α} (made : (p.call operation).Makes s trace answer s') : ∃ started marks result,
      RetryOptions.Splits {} operation (.own ⟨.now,started⟩ :: marks) s trace s' ∧
        p.Loops ({} : RetryOptions σ α) { started } marks result ∧
        RetryOptions.Decides ({} : RetryOptions σ α) (p.maxAttempts - 1) 0 (runs marks) result ∧
        answer = (told result).map RetryOutcome.value := by
  obtain ⟨given,attempted,rfl⟩ := exists_of_bind_pure made
  obtain ⟨result,looped,rfl⟩ := exists_of_attempt attempted
  obtain ⟨started,marks,splits,loops,decides⟩ := exists_marks looped
  exact ⟨started,marks,result,splits,loops,decides rfl rfl,rfl⟩

theorem final_call (p : RetryPolicy) (operation : Procedure σ α) : (p.call operation).Final := by
  intro s trace e s' made
  obtain ⟨_,marks,result,_,_,decides,ends⟩ := exists_of_call made
  generalize runs marks = answers at decides
  obtain ⟨earlier,_,_,concludes⟩ := decides
  cases concludes with
  | crashed => cases ends
  | succeeded => cases ends
  | fatal e' kind =>
    cases ends
    exact kind
  | exhausted | awoken =>
    cases ends
    rfl

/-- How a call answers once its last attempt has. It passes an answer on, unless that is an error that asks for another
attempt: then all attempts have been made, or a sleep is said to be cut short. -/
inductive Answers (p : RetryPolicy) (calls : List Made) (attempts : Nat) : Outcome α → Outcome α → Prop
  | passed (last : Outcome α) (final : ∀ e, last = .error (.error e) → e.classification = .fatal) :
    p.Answers calls attempts last last
  | exhausted (e : Error) (kind : e.classification = .retryable) (inner : e.isExhausted = false)
    (all : attempts = p.maxAttempts) :
    p.Answers calls attempts (.error (.error e)) (.error (.error (.attemptsExhausted attempts false e)))
  | awoken (e : Error) (kind : e.classification = .retryable) (d : Duration) (cut : ⟨.sleep d false,false⟩ ∈ calls) :
    p.Answers calls attempts (.error (.error e)) (.error (.error (.cancelled attempts)))

/-- The operation is run until it answers with something that is not tried again, and no more often than is allowed. -/
def Persists (p : RetryPolicy) (operation : Procedure σ α) (s : σ) (calls : List Made) (answer : Outcome α)
    (s' : σ) : Prop :=
  ∃ started marks, ∃ earlier : List Error, ∃ last,
    RetryOptions.Splits {} operation (.own ⟨.now,started⟩ :: marks) s calls s' ∧
      runs marks = earlier.map (fun e => .error (.error e)) ++ [last] ∧
      (∀ e ∈ earlier, e.classification = .retryable) ∧ earlier.length < p.maxAttempts ∧
      p.Answers calls (earlier.length + 1) last answer

theorem persists_call {p : RetryPolicy} {operation : Procedure σ α} {s s' : σ} {calls : List Made}
    {answer : Outcome α} (made : (p.call operation).Makes s calls answer s') :
    p.Persists operation s calls answer s' := by
  obtain ⟨started,marks,result,splits,loops,decides,ends⟩ := exists_of_call made
  generalize answers : runs marks = given at decides
  obtain ⟨earlier,retried,allowed,concludes⟩ := decides
  have positive := p.maxAttempts_pos
  refine ⟨started,marks,earlier,_,splits,answers,retried,by omega,?_⟩
  rw [Nat.zero_add] at concludes
  cases concludes with
  | crashed c =>
    cases ends
    exact .passed _ fun e failed => by cases failed
  | succeeded r =>
    cases ends
    exact .passed _ fun e failed => by cases failed
  | fatal e kind =>
    cases ends
    exact .passed _ fun e' failed => by cases failed; exact kind
  | exhausted e kind none =>
    cases ends
    have simple : e.isExhausted = false := by
      cases e with
      | attemptsExhausted => cases kind
      | _ => rfl
    exact .exhausted e kind simple (by omega)
  | awoken e kind =>
    cases ends
    obtain ⟨d,member⟩ := loops.exists_awoken rfl
    exact .awoken e kind d (splits.mem_of_own (List.mem_cons_of_mem _ member))

theorem makes_tellsOnce {p : RetryPolicy} {started : Time} {answer : Outcome α} {s s' : σ} {trace : List Made}
    {result : Outcome Unit} (made : (p.tellsOnce started answer).Makes s trace result s') :
    Made.OfLoop trace ∧ result = .ok () ∧ s' = s := by
  unfold tellsOnce reportAttempt at made
  split at made
  · obtain ⟨_,closes,rfl⟩ := (p.makes_report_bind _).mp made
    obtain ⟨_,rest,rfl⟩ := p.makes_close_bind.mp closes
    obtain ⟨_,_,ends,rfl⟩ := (makes_perform_bind _).mp rest
    obtain ⟨rfl,same⟩ := makes_pure_iff.mp ends
    exact ⟨by simp [Call.ofLoop,ofLoop_reporting],same⟩
  · obtain ⟨_,closes,rfl⟩ := (p.makes_report_bind _).mp made
    obtain ⟨rfl,same⟩ := p.makes_close_iff.mp closes
    exact ⟨by simp [ofLoop_reporting],same⟩
  · obtain ⟨rfl,same⟩ := makes_pure_iff.mp made
    exact ⟨Made.ofLoop_nil,same⟩

theorem exists_of_call_of_final {p : RetryPolicy} {operation : Procedure σ α} (final : operation.Final) {s s' : σ}
    {trace : List Made} {answer : Outcome α} (made : (p.call operation).Makes s trace answer s') :
    ∃ started asked calls more, trace = ⟨.now,started⟩ :: ⟨.isCancelled,asked⟩ :: (calls ++ more) ∧
      Made.OfLoop more ∧ operation.Makes s calls answer s' := by
  rw [p.call_of_final final] at made
  obtain ⟨started,_,asks,rfl⟩ := (makes_perform_bind _).mp made
  obtain ⟨asked,_,runs,rfl⟩ := (makes_perform_bind _).mp asks
  obtain ⟨calls,given,_,_,ran,tells,rfl⟩ := makes_outcome_bind.mp runs
  rcases makes_bind_iff.mp tells with ⟨more,_,_,_,told,ends,rfl⟩ | ⟨_,told,_⟩
  · obtain ⟨own,_,rfl⟩ := makes_tellsOnce told
    cases ends
    exact ⟨started,asked,calls,more,by rw [List.append_nil],own,ran⟩
  · cases (makes_tellsOnce told).2.1

theorem run_call_of_final (p : RetryPolicy) {operation : Procedure σ α} (final : operation.Final) (g : Ledger) (s : σ) :
    (g.run ((p.call operation).start s)).1 = (g.run (operation.start s)).1 := by
  rw [p.call_of_final final]
  change (g.run ((operation.outcome >>= _).start s)).1 = _
  rw [Ledger.run_start_bind,Ledger.run_start_outcome]
  obtain ⟨⟨answer,own⟩,g'⟩ := g.run (operation.start s)
  dsimp only
  rw [Ledger.run_start_bind]
  obtain ⟨_,told,same⟩ := makes_tellsOnce (((p.tellsOnce g.clock answer).start own).makes_dialogue g')
  generalize g'.run ((p.tellsOnce g.clock answer).start own) = tells at told same
  obtain ⟨⟨result,own'⟩,g''⟩ := tells
  subst told same
  rfl

/-- A loop around a loop makes one attempt, whatever the inner one comes to. It answers what the inner one does, and does
what the inner one does, with its own reports around it. The inner one gives up on no error that a loop has made. -/
theorem nested_calls (outer inner : RetryPolicy) (operation : Procedure σ α) :
    (outer.call (inner.call operation) = do
      let started ← perform .now
      let _ ← perform .isCancelled
      let answer ← (inner.call operation).outcome
      outer.tellsOnce started answer
      ofOutcome answer) ∧
    (∀ (g : Ledger) (s : σ), (g.run ((outer.call (inner.call operation)).start s)).1 =
      (g.run ((inner.call operation).start s)).1) ∧
    (∀ s trace answer s', (outer.call (inner.call operation)).Makes s trace answer s' →
      ∃ started asked calls more, trace = ⟨.now,started⟩ :: ⟨.isCancelled,asked⟩ :: (calls ++ more) ∧
        Made.OfLoop more ∧ (inner.call operation).Makes s calls answer s') ∧
    ∀ s calls answer s', (inner.call operation).Makes s calls answer s' →
      inner.Persists operation s calls answer s' :=
  have final := inner.final_call operation
  ⟨outer.call_of_final final,outer.run_call_of_final final,fun _ _ _ _ => exists_of_call_of_final final,
    fun _ _ _ _ => persists_call⟩

/-- Four times three attempts would be possible. -/
example :
    let outer : RetryPolicy := { config := { maxAttempts := 4 } }
    let inner : RetryPolicy := { config := { maxAttempts := 3 } }
    let down : Procedure Nat Unit := do
      modify (· + 1)
      fail (.unavailable "down")
    (Ledger.run {} ((outer.call (inner.call down)).start 0)).1 =
      (.error (.error (.attemptsExhausted 3 false (.unavailable "down"))), 3) := by
  decide +kernel

end RetryPolicy

end VersionedLedger
