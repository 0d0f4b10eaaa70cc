import VersionedLedger.Proofs.Program.Dialogue
import VersionedLedger.Retry.Policy

/-! A retry loop, call by call. By the results of its operation it is known how many attempts it makes, how long it
sleeps between them, what it reports of each, whether it falls back, and what it ends with. -/
namespace VersionedLedger

open Procedure

variable {σ α : Type}

namespace RetryPolicy

def reporting (p : RetryPolicy) (e : Event) : List Made := if p.reported then [⟨.report e,()⟩] else []

def closing (p : RetryPolicy) (summary : RetrySummary) : List Made :=
  p.reporting (.retry p.operation summary) ++ if p.counted then [⟨.tally summary,()⟩] else []

end RetryPolicy

/-- What happens to an operation that is tried again and again: what each attempt gives, the calls that it makes and
the state it starts from, the numbers drawn, and what is replied, before each attempt and before each sleep, to
the question whether the loop has been cancelled. -/
structure Tries (σ α : Type) where
  results : Nat → Except Error α
  calls : Nat → List Made
  states : Nat → σ
  draws : Nat → Nat
  cancelled : Nat → Bool
  interrupted : Nat → Bool

namespace Tries

variable (t : Tries σ α) (p : RetryPolicy) (o : RetryOptions σ α)

def outcome (i : Nat) : AttemptOutcome :=
  match t.results i with
  | .ok _ => .success
  | .error e => match o.classify e with
    | .fatal => .fatal
    | .retryable => .retryable

/-- The first attempt that calls for no other one, or else the last that is allowed. -/
def last : Nat := (List.range (p.maxAttempts - 1)).findIdx fun i => t.outcome o i ≠ .retryable

def delay (i : Nat) : Duration := Backoff.delay p.config i (t.draws i)

def delayBefore : Nat → Duration
  | 0 => 0
  | i + 1 => t.delay p i

def totalDelay : Nat → Duration
  | 0 => 0
  | i + 1 => totalDelay i + t.delay p i

def attempt (i : Nat) : List Made :=
  ⟨.isCancelled,t.cancelled i⟩ :: t.calls i ++
    p.reporting (.attempt p.operation ⟨i,t.delayBefore p i,t.outcome o i⟩)

def sleep (i : Nat) : List Made :=
  [⟨.draw,t.draws i⟩,⟨.isCancelled,t.interrupted i⟩,⟨.sleep (t.delay p i) o.watched,true⟩]

/-- The first attempts, each with the sleep after it. -/
def before : Nat → List Made
  | 0 => []
  | i + 1 => before i ++ t.attempt p o i ++ t.sleep p o i

def progress (started : Time) (i : Nat) : RetryProgress := ⟨started,i,t.totalDelay p i,t.delayBefore p i⟩

end Tries

namespace RetryPolicy

variable (p : RetryPolicy) (o : RetryOptions σ α) (s : σ)

def settle (operation : Procedure σ α) (left : Nat) (progress : RetryProgress) :
    Except Error α → Procedure σ (Except RetryError (RetryOutcome α))
  | .ok value => p.succeed progress false value
  | .error e => match o.classify e with
    | .fatal => p.giveUp progress (.fatal progress.attempts e) false
    | .retryable => match left with
      | 0 => p.exhaust o progress e
      | left + 1 => do
        let delay ← nextDelay p.config (progress.attempts - 1)
        if ← pause o delay then
          p.loop o operation left
            { progress with totalDelay := progress.totalDelay + delay, delayBefore := delay }
        else p.giveUp progress (.cancelled progress.attempts (some e)) false

theorem makes_report (e : Event) : (p.report e).Makes s (p.reporting e) (.ok ()) s := by
  unfold report reporting
  split
  · exact makes_perform (.report e) () s
  · exact makes_pure () s

theorem makes_close (progress : RetryProgress) (succeeded fallbackUsed : Bool) :
    (p.close progress succeeded fallbackUsed).Makes s
      (p.closing ⟨progress.attempts,progress.totalDelay,succeeded,fallbackUsed⟩) (.ok ()) s := by
  unfold close closing
  refine (p.makes_report s _).bind ?_
  split
  · exact makes_perform (.tally _) () s
  · exact makes_pure () s

theorem makes_succeed (progress : RetryProgress) (fallbackUsed : Bool) (value : α) (ended : Time) :
    (p.succeed progress fallbackUsed value).Makes s
      (p.closing ⟨progress.attempts,progress.totalDelay,true,fallbackUsed⟩ ++ [⟨.now,ended⟩])
      (.ok (.ok ⟨value,progress.attempts,fallbackUsed,ended - progress.started,progress.totalDelay⟩)) s := by
  unfold succeed
  refine (p.makes_close s progress true fallbackUsed).bind ?_
  exact (makes_perform .now ended s).bind (makes_pure _ s)

theorem makes_giveUp (progress : RetryProgress) (e : RetryError) (fallbackUsed : Bool) :
    (p.giveUp progress e fallbackUsed : Procedure σ (Except RetryError (RetryOutcome α))).Makes s
      (p.closing ⟨progress.attempts,progress.totalDelay,false,fallbackUsed⟩) (.ok (.error e)) s := by
  unfold giveUp
  rw [← List.append_nil (p.closing _)]
  exact (p.makes_close s progress false fallbackUsed).bind (makes_pure _ s)

theorem makes_nextDelay (c : RetryConfig) (i draw : Nat) :
    (nextDelay c i).Makes [⟨.draw,draw⟩] (Backoff.delay c i draw) := .call .draw _ draw (.done _)

theorem makes_pause {interrupted : Bool} (unasked : (o.watched && interrupted) = false) (delay : Duration) :
    (pause o delay).Makes s [⟨.isCancelled,interrupted⟩,⟨.sleep delay o.watched,true⟩] (.ok true) s := by
  unfold pause
  refine (makes_perform .isCancelled interrupted s).bind ?_
  rw [unasked,if_neg Bool.false_ne_true]
  exact makes_perform (.sleep delay o.watched) true s

section

variable {p} {o} {s} {s' : σ} {calls : List Made} {fallback : Error → Procedure σ α} {e : Error}
  {operation : Procedure σ α}

theorem settle_of_fatal (kind : o.classify e = .fatal) (left : Nat) (progress : RetryProgress) :
    p.settle o operation left progress (.error e) = p.giveUp progress (.fatal progress.attempts e) false := by
  simp only [settle,kind]

theorem settle_of_retryable (kind : o.classify e = .retryable) (progress : RetryProgress) :
    p.settle o operation 0 progress (.error e) = p.exhaust o progress e := by
  simp only [settle,kind]

theorem makes_exhaust_none (falls : o.fallback = none) (progress : RetryProgress) :
    (p.exhaust o progress e).Makes s (p.closing ⟨progress.attempts,progress.totalDelay,false,false⟩)
      (.ok (.error (.exhausted progress.attempts false e))) s := by
  unfold exhaust
  rw [falls]
  exact p.makes_giveUp s progress _ false

theorem makes_exhaust_ok (falls : o.fallback = some fallback) {value : α}
    (made : (fallback e).Makes s calls (.ok value) s') (progress : RetryProgress) (ended : Time) :
    (p.exhaust o progress e).Makes s
      (calls ++ (p.closing ⟨progress.attempts,progress.totalDelay,true,true⟩ ++ [⟨.now,ended⟩]))
      (.ok (.ok ⟨value,progress.attempts,true,ended - progress.started,progress.totalDelay⟩)) s' := by
  unfold exhaust
  rw [falls]
  exact made.outcome.bind (p.makes_succeed s' progress true value ended)

theorem makes_exhaust_error (falls : o.fallback = some fallback) {e' : Error}
    (made : (fallback e).Makes s calls (.error (.error e')) s') (progress : RetryProgress) :
    (p.exhaust o progress e).Makes s
      (calls ++ p.closing ⟨progress.attempts,progress.totalDelay,false,true⟩)
      (.ok (.error (.exhausted progress.attempts true e'))) s' := by
  unfold exhaust
  rw [falls]
  exact made.outcome.bind (p.makes_giveUp s' progress _ true)

theorem makes_unless_cancelled {β : Type} {watched cancelled : Bool} {more : List Made} {result : Outcome α}
    {answer : Outcome β} {s'' : σ} (stop : Procedure σ β) (go : Outcome α → Procedure σ β)
    (unasked : (watched && cancelled) = false) (made : operation.Makes s calls result s')
    (rest : (go result).Makes s' more answer s'') :
    (do if watched && (← perform .isCancelled) then stop else go (← operation.outcome) : Procedure σ β).Makes s
      (⟨.isCancelled,cancelled⟩ :: calls ++ more) answer s'' := by
  have asks := makes_perform .isCancelled cancelled s
  have follows : (if (watched && cancelled) = true then stop else do go (← operation.outcome)).Makes s
      (calls ++ more) answer s'' := by
    rw [unasked,if_neg Bool.false_ne_true]
    exact made.outcome.bind rest
  exact asks.bind follows

end

end RetryPolicy

namespace Tries

variable {t : Tries σ α} {p : RetryPolicy} {o : RetryOptions σ α} {operation : Procedure σ α} {s : σ}
  {more : List Made} {answer : Outcome (Except RetryError (RetryOutcome α))} {started : Time} {i n left : Nat}

/-- The attempt goes as told, and a loop that is watched is not cancelled meanwhile. -/
structure Goes (t : Tries σ α) (o : RetryOptions σ α) (operation : Procedure σ α) (i : Nat) : Prop where
  made : operation.Makes (t.states i) (t.calls i) (.ofError (t.results i)) (t.states (i + 1))
  uncancelled : (o.watched && t.cancelled i) = false
  uninterrupted : (o.watched && t.interrupted i) = false

theorem makes_attempt (goes : t.Goes o operation i) {left : Nat}
    (rest : (p.settle o operation left ⟨started,i + 1,t.totalDelay p i,t.delayBefore p i⟩ (t.results i)).Makes
      (t.states (i + 1)) more answer s) :
    (p.loop o operation left (t.progress p started i)).Makes (t.states i) (t.attempt p o i ++ more) answer s := by
  rw [attempt,List.append_assoc]
  unfold RetryPolicy.loop
  refine RetryPolicy.makes_unless_cancelled _ _ goes.uncancelled goes.made ?_
  cases gives : t.results i with
  | ok value =>
    rw [gives] at rest
    have outcome : t.outcome o i = .success := by simp [Tries.outcome,gives]
    rw [outcome]
    exact (p.makes_report _ _).bind rest
  | error e =>
    dsimp only [Outcome.ofError]
    cases kind : o.classify e with
    | fatal =>
      simp only [RetryPolicy.settle,gives,kind] at rest
      have outcome : t.outcome o i = .fatal := by simp [Tries.outcome,gives,kind]
      rw [outcome]
      exact (p.makes_report _ _).bind rest
    | retryable =>
      simp only [RetryPolicy.settle,gives,kind] at rest
      have outcome : t.outcome o i = .retryable := by simp [Tries.outcome,gives,kind]
      rw [outcome]
      exact (p.makes_report _ _).bind rest

theorem exists_error (retry : t.outcome o i = .retryable) :
    ∃ e, t.results i = .error e ∧ o.classify e = .retryable := by
  unfold Tries.outcome at retry
  split at retry
  · cases retry
  · next e gives =>
    split at retry
    · cases retry
    · next kind => exact ⟨e,gives,kind⟩

theorem last_lt (t : Tries σ α) (p : RetryPolicy) (o : RetryOptions σ α) : t.last p o < p.maxAttempts := by
  have within : t.last p o ≤ (List.range (p.maxAttempts - 1)).length := List.findIdx_le_length
  rw [List.length_range] at within
  have positive : 1 ≤ p.maxAttempts := Nat.le_max_right _ _
  omega

theorem retryable_of_lt_last (early : i < t.last p o) : t.outcome o i = .retryable := by
  have other := List.not_of_lt_findIdx early
  simpa using other

theorem succ_last_of_retryable (retry : t.outcome o (t.last p o) = .retryable) :
    t.last p o + 1 = p.maxAttempts := by
  refine Nat.le_antisymm (t.last_lt p o) (Nat.le_of_not_lt fun more => ?_)
  have inside : t.last p o < (List.range (p.maxAttempts - 1)).length := by
    rw [List.length_range]
    omega
  unfold last at inside
  have final := List.findIdx_getElem (w := inside)
  rw [List.getElem_range] at final
  exact of_decide_eq_true final retry

theorem makes_retry (goes : t.Goes o operation i) (retry : t.outcome o i = .retryable)
    (rest : (p.loop o operation left (t.progress p started (i + 1))).Makes (t.states (i + 1)) more answer s) :
    (p.loop o operation (left + 1) (t.progress p started i)).Makes (t.states i)
      (t.attempt p o i ++ (t.sleep p o i ++ more)) answer s := by
  obtain ⟨e,gives,kind⟩ := exists_error retry
  refine makes_attempt goes ?_
  simp only [RetryPolicy.settle,gives,kind]
  refine (makes_lift (RetryPolicy.makes_nextDelay p.config i (t.draws i)) _).bind ?_
  exact (RetryPolicy.makes_pause o _ goes.uninterrupted _).bind rest

theorem makes_before (goes : ∀ i < n, t.Goes o operation i) (retry : ∀ i < n, t.outcome o i = .retryable)
    (rest : (p.loop o operation left (t.progress p started n)).Makes (t.states n) more answer s) :
    (p.loop o operation (left + n) (t.progress p started 0)).Makes (t.states 0)
      (t.before p o n ++ more) answer s := by
  induction n generalizing left more with
  | zero => exact rest
  | succ n ih =>
    have last := Nat.lt_succ_self n
    have round := makes_retry (goes n last) (retry n last) rest
    have run := ih (fun i early => goes i (Nat.lt_succ_of_lt early))
      (fun i early => retry i (Nat.lt_succ_of_lt early)) round
    rw [before,← Nat.succ_add_eq_add_succ]
    simpa only [List.append_assoc] using run

theorem makes_last (goes : ∀ i ≤ t.last p o, t.Goes o operation i)
    (rest : (p.settle o operation (p.maxAttempts - 1 - t.last p o)
      ⟨started,t.last p o + 1,t.totalDelay p (t.last p o),t.delayBefore p (t.last p o)⟩
      (t.results (t.last p o))).Makes (t.states (t.last p o + 1)) more answer s) :
    (p.run o operation).Makes (t.states 0)
      (⟨.now,started⟩ :: t.before p o (t.last p o) ++ t.attempt p o (t.last p o) ++ more) answer s := by
  have final := makes_attempt (goes _ (Nat.le_refl _)) rest
  have loop := makes_before (fun i early => goes i (Nat.le_of_lt early)) (fun i => retryable_of_lt_last) final
  rw [Nat.sub_add_cancel (Nat.le_sub_one_of_lt (t.last_lt p o))] at loop
  have run : (p.run o operation).Makes (t.states 0)
      ([⟨.now,started⟩] ++ (t.before p o (t.last p o) ++ (t.attempt p o (t.last p o) ++ more))) answer s :=
    (makes_perform .now started (t.states 0)).bind loop
  simpa using run

end Tries

namespace RetryPolicy

/-- The loop makes one attempt after another, with a sleep in between, until one succeeds or fails for good or no
more are allowed; then, if it may, it falls back on the last error; and it reports what it answers. -/
theorem makes_run (t : Tries σ α) (p : RetryPolicy) (o : RetryOptions σ α) {operation : Procedure σ α}
    (goes : ∀ i ≤ t.last p o, t.Goes o operation i) (started ended : Time) :
    let n := t.last p o
    let total := t.totalDelay p n
    let tried := ⟨.now,started⟩ :: t.before p o n ++ t.attempt p o n
    let Ends (more : List Made) (s : σ) (answer : Except RetryError (RetryOutcome α)) :=
      (p.run o operation).Makes (t.states 0) (tried ++ more) (.ok answer) s
    n < p.maxAttempts ∧ (p.config.maxAttempts < UInt32.size → n + 1 < UInt32.size) ∧
    (∀ i < n, t.outcome o i = .retryable) ∧
    match t.results n with
    | .ok value => Ends (p.closing ⟨n + 1,total,true,false⟩ ++ [⟨.now,ended⟩]) (t.states (n + 1))
        (.ok ⟨value,n + 1,false,ended - started,total⟩)
    | .error e => match o.classify e with
      | .fatal => Ends (p.closing ⟨n + 1,total,false,false⟩) (t.states (n + 1)) (.error (.fatal (n + 1) e))
      | .retryable => n + 1 = p.maxAttempts ∧ match o.fallback with
        | none => Ends (p.closing ⟨n + 1,total,false,false⟩) (t.states (n + 1))
            (.error (.exhausted (n + 1) false e))
        | some fallback => ∀ calls s,
          (∀ value, (fallback e).Makes (t.states (n + 1)) calls (.ok value) s →
            Ends (calls ++ (p.closing ⟨n + 1,total,true,true⟩ ++ [⟨.now,ended⟩])) s
              (.ok ⟨value,n + 1,true,ended - started,total⟩)) ∧
          (∀ e', (fallback e).Makes (t.states (n + 1)) calls (.error (.error e')) s →
            Ends (calls ++ p.closing ⟨n + 1,total,false,true⟩) s (.error (.exhausted (n + 1) true e'))) := by
  intro n total tried Ends
  have low : n < p.maxAttempts := t.last_lt p o
  refine ⟨low,fun bounded => ?_,fun i => t.retryable_of_lt_last,?_⟩
  · have one : 1 < UInt32.size := by decide
    unfold maxAttempts at low
    omega
  cases gives : t.results n with
  | ok value =>
    refine Tries.makes_last goes ?_
    rw [gives]
    exact p.makes_succeed _ _ false value ended
  | error e =>
    dsimp only
    cases kind : o.classify e with
    | fatal =>
      refine Tries.makes_last goes ?_
      rw [gives,settle_of_fatal kind]
      exact p.makes_giveUp _ _ _ false
    | retryable =>
      have outcome : t.outcome o n = .retryable := by simp [Tries.outcome,gives,kind]
      have all : n + 1 = p.maxAttempts := Tries.succ_last_of_retryable outcome
      have spent : p.maxAttempts - 1 - n = 0 := by omega
      have exhausts {more : List Made} {s : σ} {answer : Except RetryError (RetryOutcome α)}
          (rest : (p.exhaust o ⟨started,n + 1,total,t.delayBefore p n⟩ e).Makes (t.states (n + 1)) more
            (.ok answer) s) : Ends more s answer := by
        refine Tries.makes_last goes ?_
        rw [gives,spent,settle_of_retryable kind]
        exact rest
      refine ⟨all,?_⟩
      cases falls : o.fallback with
      | none => exact exhausts (makes_exhaust_none falls _)
      | some fallback =>
        refine fun calls s => ⟨fun value made => ?_,fun e' made => ?_⟩
        · exact exhausts (makes_exhaust_ok falls made _ ended)
        · exact exhausts (makes_exhaust_error falls made _)

def read : Procedure Nat Nat := do
  modify (· + 1)
  ofError (← perform (.checkFault "read"))
  get

/-- Reads that are always let down, the first of them otherwise than the rest. -/
def reads : Tries Nat Nat :=
  let down (i : Nat) : Error := if i = 0 then .deadlock 7 else .unavailable "down"
  { results := fun i => .error (down i)
    calls := fun i => [⟨.checkFault "read",.error (down i)⟩]
    states := fun i => i
    draws := fun _ => 17
    cancelled := fun _ => false
    interrupted := fun _ => false }

def spared : RetryOptions Nat Nat where
  fallback := some fun e => do
    ofError (← perform (.checkFault e.kind))
    get

/-- Two attempts, a sleep between them, and a fallback on the error of the second. -/
theorem makes_run_spared :
    let p : RetryPolicy := { config := { maxAttempts := 2 } }
    let wait := Backoff.delay p.config 0 17
    (p.run spared read).Makes 0
      [⟨.now,3⟩,⟨.isCancelled,false⟩,⟨.checkFault "read",.error (.deadlock 7)⟩,
        ⟨.report (.attempt "operation" ⟨0,0,.retryable⟩),()⟩,⟨.draw,17⟩,⟨.isCancelled,false⟩,
        ⟨.sleep wait false,true⟩,⟨.isCancelled,false⟩,⟨.checkFault "read",.error (.unavailable "down")⟩,
        ⟨.report (.attempt "operation" ⟨1,wait,.retryable⟩),()⟩,⟨.checkFault "unavailable",.ok ()⟩,
        ⟨.report (.retry "operation" ⟨2,wait,true,true⟩),()⟩,⟨.now,9⟩]
      (.ok (.ok ⟨2,2,true,6,wait⟩)) 2 := by
  intro p wait
  have last : reads.last p spared = 1 := by decide
  have goes : ∀ i ≤ reads.last p spared, reads.Goes spared read i := fun i _ =>
    ⟨.call _ _ _ (.done _),rfl,rfl⟩
  have ends := (makes_run reads p spared goes 3 9).2.2.2
  rw [last] at ends
  have slept : reads.totalDelay p 1 = wait := by simp [Tries.totalDelay,Tries.delay,reads,wait]
  dsimp only at ends
  rw [slept] at ends
  have rescued := (ends.2 [⟨.checkFault "unavailable",.ok ()⟩] 2).1 2
  exact rescued (.call _ _ _ (.done _))

end RetryPolicy

end VersionedLedger
