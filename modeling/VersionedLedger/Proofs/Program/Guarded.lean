import VersionedLedger.Ledger.Operations
import VersionedLedger.Proofs.Program.Cancelled
import VersionedLedger.Proofs.Circuit.Course

/-! A retry loop that runs as one call of a circuit, whatever the circuit and the attempts come to meanwhile. A
refusal is all that there is of a refused call; an admitted one is told of once, after its loop has come to its
end, and passes on what the loop ends with. -/
namespace VersionedLedger

open Procedure Mark

variable {σ α β : Type}

namespace RetryOptions

variable {o : RetryOptions σ α} {operation : Procedure σ α} {s s' : σ} {trace : List Made} {marks : List (Mark α)}

theorem Splits.not_fell (splits : o.Splits operation marks s trace s') (alone : o.fallback = none)
    (answer : Outcome α) : .fell answer ∉ marks := by
  induction splits with
  | nil => exact List.not_mem_nil
  | own m rest ih => simpa using ih
  | ran made rest ih => simpa using ih
  | fell e falls =>
    rw [alone] at falls
    cases falls

end RetryOptions

def Made.Aside (calls : List Made) : Prop := ∀ m ∈ calls, m.call.aside = true

theorem Call.aside_of_ofLoop {c : Call} (ofLoop : c.ofLoop = true) : c.aside = true := by
  cases c <;> first | rfl | cases ofLoop

theorem RetryPolicy.Loops.aside {p : RetryPolicy} {o : RetryOptions σ α} {progress : RetryProgress}
    {marks : List (Mark α)} {answer : Outcome (Except RetryError (RetryOutcome α))}
    (loops : p.Loops o progress marks answer) : Made.Aside (ownCalls marks) :=
  fun m member => Call.aside_of_ofLoop (loops.ofLoop m member)

/-- What a guarded call passes on of the end of its loop: its value, its error as the ledger's own, or its crash. -/
def RetryPolicy.passed : Outcome (Except RetryError (RetryOutcome α)) → Outcome α
  | .ok (.ok o) => .ok o.value
  | .ok (.error e) => .error (.error e.toError)
  | .error failure => .error failure

namespace CircuitHandle

theorem exists_of_guardCrash {h : CircuitHandle} {permit : Permit} {work : Procedure σ α}
    {f : Except Error α → Procedure σ β} {answer : Outcome β} {s s' : σ} {trace : List Made}
    (made : (h.guardCrash permit work >>= f).Makes s trace answer s') :
    ∃ calls result s₁, work.Makes s calls result s₁ ∧
      ((∃ given rest, result = Outcome.ofError given ∧ (f given).Makes s₁ rest answer s' ∧ trace = calls ++ rest) ∨
        ∃ c, result = .error (.crash c) ∧ trace = calls ++ [⟨.recordCall h permit true,()⟩] ∧
          answer = .error (.crash c) ∧ s' = s₁) := by
  unfold guardCrash at made
  rw [bind_assoc] at made
  obtain ⟨calls,result,s₁,_,worked,follows,rfl⟩ := makes_outcome_bind.mp made
  refine ⟨calls,result,s₁,worked,?_⟩
  rcases result with (e | c) | value
  · exact .inl ⟨.error e,_,rfl,follows,rfl⟩
  · dsimp only at follows
    rw [bind_assoc] at follows
    obtain ⟨_,_,crashes,rfl⟩ := (makes_perform_bind _).mp follows
    obtain ⟨rfl,rfl,rfl⟩ := makes_throw_bind.mp crashes
    exact .inr ⟨c,rfl,rfl,rfl,rfl⟩
  · exact .inl ⟨.ok value,_,rfl,follows,rfl⟩

end CircuitHandle

namespace Breaker

theorem name_looked (b : Breaker) (now : Time) : (b.looked now).name = b.name := by
  unfold looked
  split <;> rfl

theorem refusal {b : Breaker} {now : Time} {e : Error} (refused : (b.tryAcquire now).1 = .error e) :
    ∃ state, state ≠ .closed ∧ e = .circuitOpen b.name state := by
  have admits := b.tryAcquire_admits now
  rw [refused] at admits
  generalize (b.tryAcquire now).2.1 = left at admits
  cases admits with
  | full halfOpen => exact ⟨(b.looked now).state,by simp [halfOpen],by rw [name_looked]⟩
  | waiting opened => exact ⟨(b.looked now).state,by simp [opened],by rw [name_looked]⟩

end Breaker

namespace Event

def ofCircuit : Event → Bool
  | .call .. | .transition .. => true
  | _ => false

end Event

namespace Breaker

theorem ofCircuit_transition (b : Breaker) (target : CircuitState) (now : Time) :
    ∀ event ∈ (b.transition target now).2, event.ofCircuit = true := by
  unfold transition
  dsimp only
  split <;> simp [Event.ofCircuit]

theorem ofCircuit_admitCall (b : Breaker) (now : Time) :
    ∀ event ∈ (b.admitCall now).2.2, event.ofCircuit = true := by
  unfold admitCall
  dsimp only
  split
  · simp
  · split <;> simp [Event.ofCircuit]
  · simp [Event.ofCircuit]

theorem ofCircuit_tryAcquire (b : Breaker) (now : Time) :
    ∀ event ∈ (b.tryAcquire now).2.2, event.ofCircuit = true := by
  unfold tryAcquire
  split
  · exact List.forall_mem_append.mpr ⟨ofCircuit_transition _ _ _,ofCircuit_admitCall _ now⟩
  · exact ofCircuit_admitCall b now

end Breaker

namespace Ledger

/-- No loop is counted, and nothing is reported but by circuits. -/
def Quiet (g g' : Ledger) : Prop :=
  g'.retries = g.retries ∧ ∃ events, g'.journal = g.journal ++ events ∧ ∀ event ∈ events, event.ofCircuit = true

theorem quiet_circuit (g : Ledger) (name : String) (config : CircuitConfig) :
    g.Quiet (g.answer (.circuit name config)).2 := ⟨rfl,[],(List.append_nil _).symm,List.forall_mem_nil _⟩

theorem quiet_admitCall (g : Ledger) (h : CircuitHandle) : g.Quiet (g.answer (.admitCall h)).2 := by
  have events := (g.circuits.breaker h).ofCircuit_tryAcquire (g.clock + 1)
  have silent {g' : Ledger} (retries : g'.retries = g.retries) (journal : g'.journal = g.journal) : g.Quiet g' :=
    ⟨retries,[],journal.trans (List.append_nil _).symm,List.forall_mem_nil _⟩
  simp only [answer,onBreaker]
  split
  · unfold report
    split
    · exact ⟨rfl,_,rfl,events⟩
    · exact silent rfl rfl
  · exact silent rfl rfl

theorem makes_passed {loop : Procedure σ (Except RetryError (RetryOutcome α))} {s s' : σ} {trace : List Made}
    {answer : Outcome α} (made : (do match ← loop with
      | .ok o => pure o.value
      | .error e => fail e.toError : Procedure σ α).Makes s trace answer s') :
    ∃ result, loop.Makes s trace result s' ∧ answer = RetryPolicy.passed result := by
  rcases makes_bind_iff.mp made with ⟨calls,result,s₁,rest,looped,passes,rfl⟩ | ⟨failure,looped,rfl⟩
  · rcases result with e | o
    · obtain ⟨rfl,rfl,rfl⟩ := makes_throw_iff.mp passes
      exact ⟨.ok (.error e),by rwa [List.append_nil],rfl⟩
    · obtain ⟨rfl,rfl,rfl⟩ := makes_pure_iff.mp passes
      exact ⟨.ok (.ok o),by rwa [List.append_nil],rfl⟩
  · exact ⟨.error failure,looped,rfl⟩

theorem exists_of_guardedCall {config : LedgerConfig} {name : String} {operation : Procedure σ α} {retry : RetryConfig}
    {s s' : σ} {trace : List Made} {answer : Outcome α}
    (made : (guardedCall config name operation retry).Makes s trace answer s') :
    ∃ h : CircuitHandle,
      (∃ e, trace = [⟨.circuit name config.circuit,h⟩,⟨.admitCall h,.error e⟩] ∧ answer = .error (.error e) ∧ s' = s) ∨
      ∃ permit result calls, ((retryPolicy name retry).run {} operation).Makes s calls result s' ∧
        answer = RetryPolicy.passed result ∧
        trace = ⟨.circuit name config.circuit,h⟩ :: ⟨.admitCall h,.ok permit⟩ ::
          (calls ++ [⟨.recordCall h permit (!answer.isOk),()⟩]) := by
  unfold guardedCall circuit at made
  obtain ⟨h,_,asks,rfl⟩ := (makes_perform_bind _).mp made
  obtain ⟨admitted,_,asked,rfl⟩ := (makes_perform_bind _).mp asks
  rcases makes_ofError_bind.mp asked with ⟨permit,rfl,follows⟩ | ⟨e,rfl,rfl,rfl,rfl⟩
  · obtain ⟨calls,passed,s₁,worked,ends⟩ := CircuitHandle.exists_of_guardCrash follows
    obtain ⟨result,looped,passes⟩ := makes_passed worked
    refine ⟨h,.inr ⟨permit,result,calls,?_⟩⟩
    rcases ends with ⟨given,_,same,records,rfl⟩ | ⟨c,same,rfl,rfl,rfl⟩
    · obtain ⟨_,_,returns,rfl⟩ := (makes_perform_bind _).mp records
      rw [same] at passes
      cases given with
      | ok value =>
        cases returns
        exact ⟨looped,passes,rfl⟩
      | error e =>
        cases returns
        exact ⟨looped,passes,rfl⟩
    · rw [same] at passes
      exact ⟨looped,passes,rfl⟩
  · exact ⟨h,.inl ⟨e,rfl,rfl,rfl⟩⟩

/-- A guarded call asks for a permit first. If that is refused, the call is over, and no loop is counted or reported.
Otherwise the loop is run to its end, and then one outcome is told for the permit. -/
theorem makes_guardedCall {config : LedgerConfig} {name : String} {operation : Procedure σ α} {retry : RetryConfig}
    {s s' : σ} {trace : List Made} {answer : Outcome α}
    (made : (guardedCall config name operation retry).Makes s trace answer s') :
    ∃ h : CircuitHandle,
      (∃ e, trace = [⟨.circuit name config.circuit,h⟩,⟨.admitCall h,.error e⟩] ∧
        answer = .error (.error e) ∧ s' = s ∧
        (∀ m ∈ trace, ∀ g : Ledger, g.Quiet (g.answer m.call).2) ∧
        ∀ g : Ledger, (g.answer (.admitCall h)).1 = .error e →
          ∃ state, state ≠ .closed ∧ e = .circuitOpen (g.circuits.breaker h).name state) ∨
      ∃ permit calls marks result,
        trace = ⟨.circuit name config.circuit,h⟩ :: ⟨.admitCall h,.ok permit⟩ ::
          (calls ++ [⟨.recordCall h permit (!answer.isOk),()⟩]) ∧
        answer = RetryPolicy.passed result ∧
        ((retryPolicy name retry).run {} operation).Makes s calls result s' ∧
        RetryOptions.Splits {} operation marks s calls s' ∧ Made.Aside (ownCalls marks) ∧
        ∀ failure, result = .error failure →
          ∃ c before, failure = .crash c ∧ marks = before ++ [.ran (.error failure)] := by
  obtain ⟨h,⟨e,rfl,answered,same⟩ | ⟨permit,result,calls,looped,passes,rfl⟩⟩ := exists_of_guardedCall made
  · refine ⟨h,.inl ⟨e,rfl,answered,same,?_,fun g refused => Breaker.refusal refused⟩⟩
    simp only [List.forall_mem_cons]
    exact ⟨fun g => g.quiet_circuit name _,fun g => g.quiet_admitCall h,List.forall_mem_nil _⟩
  · obtain ⟨started,marks,splits,loops,_⟩ := RetryPolicy.exists_marks looped
    refine ⟨h,.inr ⟨permit,calls,_,result,rfl,passes,looped,splits,?_,?_⟩⟩
    · exact List.forall_mem_cons.mpr ⟨rfl,loops.aside⟩
    · rintro failure rfl
      obtain ⟨_,c,before,crash,rfl | rfl⟩ := loops.summed
      · exact ⟨c,_ :: before,crash,rfl⟩
      · exact absurd (by simp) (splits.not_fell rfl (.error failure))

def faltering : Procedure Nat Nat := do
  modify (· + 1)
  if (← get) = 1 then fail (.unavailable "down") else crash (.raised "boom")

/-- The crash of a second attempt is told as one failure and passed on. -/
theorem makes_guardedCall_faltering :
    let call := (guardedCall {} "payment" faltering { maxAttempts := 3 }).start 0
    (({} : Ledger).run call).1 = (.error (.crash (.raised "boom")),2) ∧
    ∃ h permit calls, call.dialogue {} = ⟨.circuit "payment" {},h⟩ :: ⟨.admitCall h,.ok permit⟩ ::
      (calls ++ [⟨.recordCall h permit true,()⟩]) := by
  intro call
  have crashed : (({} : Ledger).run call).1 = (.error (.crash (.raised "boom")),2) := by decide +kernel
  refine ⟨crashed,?_⟩
  have made := call.makes_dialogue {}
  rw [crashed] at made
  obtain ⟨h,⟨e,_,answered,_⟩ | ⟨permit,calls,_,_,told,_⟩⟩ := makes_guardedCall made
  · cases answered
  · exact ⟨h,permit,calls,told⟩

end Ledger

end VersionedLedger
