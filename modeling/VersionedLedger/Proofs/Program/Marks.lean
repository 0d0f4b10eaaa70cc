import VersionedLedger.Proofs.Program.Attempts
import VersionedLedger.Proofs.Program.Retry

/-! A retry loop, whatever it is replied. Its calls are split into its own ones and those of the runs of its
operation and of its fallback; what the own ones are, and what the loop ends with, follows from how the runs end
and from what is replied to the own ones. -/
namespace VersionedLedger

open Procedure

variable {σ α β : Type}

/-- A part of what a retry loop does: a call of its own, a run of its operation, or a run of its fallback. -/
inductive Mark (α : Type)
  | own (m : Made)
  | ran (answer : Outcome α)
  | fell (answer : Outcome α)

namespace Mark

def ran? : Mark α → Option (Outcome α)
  | ran answer => some answer
  | _ => none

def own? : Mark α → Option Made
  | own m => some m
  | _ => none

def runs (marks : List (Mark α)) : List (Outcome α) := marks.filterMap ran?

def ownCalls (marks : List (Mark α)) : List Made := marks.filterMap own?

def owns (calls : List Made) : List (Mark α) := calls.map own

@[simp] theorem runs_nil : runs ([] : List (Mark α)) = [] := rfl

@[simp] theorem runs_append (marks more : List (Mark α)) : runs (marks ++ more) = runs marks ++ runs more := by
  simp [runs]

@[simp] theorem runs_owns (calls : List Made) : runs (owns calls : List (Mark α)) = [] := by
  induction calls with
  | nil => rfl
  | cons m calls ih => exact ih

@[simp] theorem runs_own (m : Made) (marks : List (Mark α)) : runs (.own m :: marks) = runs marks := rfl

@[simp] theorem runs_ran (answer : Outcome α) (marks : List (Mark α)) :
    runs (.ran answer :: marks) = answer :: runs marks := rfl

@[simp] theorem runs_fell (answer : Outcome α) (marks : List (Mark α)) :
    runs (.fell answer :: marks) = runs marks := rfl

@[simp] theorem ownCalls_nil : ownCalls ([] : List (Mark α)) = [] := rfl

@[simp] theorem ownCalls_append (marks more : List (Mark α)) :
    ownCalls (marks ++ more) = ownCalls marks ++ ownCalls more := by
  simp [ownCalls]

@[simp] theorem ownCalls_owns (calls : List Made) : ownCalls (owns calls : List (Mark α)) = calls := by
  induction calls with
  | nil => rfl
  | cons m calls ih => exact congrArg (m :: ·) ih

@[simp] theorem ownCalls_own (m : Made) (marks : List (Mark α)) :
    ownCalls (.own m :: marks) = m :: ownCalls marks := rfl

@[simp] theorem ownCalls_ran (answer : Outcome α) (marks : List (Mark α)) :
    ownCalls (.ran answer :: marks) = ownCalls marks := rfl

@[simp] theorem ownCalls_fell (answer : Outcome α) (marks : List (Mark α)) :
    ownCalls (.fell answer :: marks) = ownCalls marks := rfl

end Mark

open Mark

namespace RetryOptions

/-- The calls are those of the marks: the own ones, and between them those of whole runs. -/
inductive Splits (o : RetryOptions σ α) (operation : Procedure σ α) : List (Mark α) → σ → List Made → σ → Prop
  | nil (s : σ) : o.Splits operation [] s [] s
  | own (m : Made) {marks : List (Mark α)} {s s' : σ} {trace : List Made}
      (rest : o.Splits operation marks s trace s') : o.Splits operation (.own m :: marks) s (m :: trace) s'
  | ran {answer : Outcome α} {marks : List (Mark α)} {s s₁ s' : σ} {calls trace : List Made}
      (made : operation.Makes s calls answer s₁) (rest : o.Splits operation marks s₁ trace s') :
    o.Splits operation (.ran answer :: marks) s (calls ++ trace) s'
  | fell {answer : Outcome α} {marks : List (Mark α)} {s s₁ s' : σ} {calls trace : List Made}
      {fallback : Error → Procedure σ α} (e : Error) (falls : o.fallback = some fallback)
      (made : (fallback e).Makes s calls answer s₁) (rest : o.Splits operation marks s₁ trace s') :
    o.Splits operation (.fell answer :: marks) s (calls ++ trace) s'

variable {o : RetryOptions σ α} {operation : Procedure σ α} {s s' : σ} {trace : List Made} {marks : List (Mark α)}

theorem splits_append (calls : List Made) (rest : o.Splits operation marks s trace s') :
    o.Splits operation (owns calls ++ marks) s (calls ++ trace) s' := by
  induction calls with
  | nil => exact rest
  | cons m calls ih => exact .own m ih

theorem splits_owns (calls : List Made) (s : σ) : o.Splits operation (owns calls) s calls s := by
  induction calls with
  | nil => exact .nil s
  | cons m calls ih => exact .own m ih

/-- How a loop that nobody stops and that has no fallback ends with the answer of its last attempt, with so many left. -/
inductive Concludes (o : RetryOptions σ α) (left attempts : Nat) :
    Outcome α → Outcome (Except RetryError (RetryOutcome α)) → Prop
  | crashed (c : Crash) : o.Concludes left attempts (.error (.crash c)) (.error (.crash c))
  | succeeded (r : RetryOutcome α) (counts : r.attempts = attempts) (own : r.fallbackUsed = false) :
    o.Concludes left attempts (.ok r.value) (.ok (.ok r))
  | fatal (e : Error) (kind : o.classify e = .fatal) :
    o.Concludes left attempts (.error (.error e)) (.ok (.error (.fatal attempts e)))
  | exhausted (e : Error) (kind : o.classify e = .retryable) (none : left = 0) :
    o.Concludes left attempts (.error (.error e)) (.ok (.error (.exhausted attempts false e)))
  /-- A sleep that nobody watches is said to be cut short. -/
  | awoken (e : Error) (kind : o.classify e = .retryable) :
    o.Concludes left attempts (.error (.error e)) (.ok (.error (.cancelled attempts (some e))))

/-- How the runs of a loop that nobody stops and that has no fallback decide its answer, with so many attempts made
before them, and so many left after the first. -/
inductive Decides (o : RetryOptions σ α) (left before : Nat) :
    List (Outcome α) → Outcome (Except RetryError (RetryOutcome α)) → Prop
  | intro (earlier : List Error) {last : Outcome α} {answer : Outcome (Except RetryError (RetryOutcome α))}
    (retried : ∀ e ∈ earlier, o.classify e = .retryable) (allowed : earlier.length ≤ left)
    (concludes : o.Concludes (left - earlier.length) (before + earlier.length + 1) last answer) :
    o.Decides left before (earlier.map (fun e => .error (.error e)) ++ [last]) answer

section

variable {left before : Nat} {runs : List (Outcome α)} {last : Outcome α}
  {answer : Outcome (Except RetryError (RetryOutcome α))}

theorem Concludes.decides (concludes : o.Concludes left (before + 1) last answer) :
    o.Decides left before [last] answer := .intro [] (List.forall_mem_nil _) (Nat.zero_le _) concludes

theorem Decides.cons {e : Error} (kind : o.classify e = .retryable) (rest : o.Decides left (before + 1) runs answer) :
    o.Decides (left + 1) before (.error (.error e) :: runs) answer := by
  obtain ⟨earlier,retried,allowed,concludes⟩ := rest
  refine .intro (e :: earlier) (List.forall_mem_cons.mpr ⟨kind,retried⟩) (Nat.succ_le_succ allowed) ?_
  rw [List.length_cons,Nat.add_sub_add_right,← Nat.add_assoc,Nat.add_right_comm before]
  exact concludes

end

end RetryOptions

namespace RetryProgress

def counted (progress : RetryProgress) : RetryProgress := { progress with attempts := progress.attempts + 1 }

def rested (progress : RetryProgress) (delay : Duration) : RetryProgress :=
  { progress with totalDelay := progress.totalDelay + delay, delayBefore := delay }

def summary (progress : RetryProgress) (succeeded fallbackUsed : Bool) : RetrySummary :=
  ⟨progress.attempts,progress.totalDelay,succeeded,fallbackUsed⟩

def outcome (progress : RetryProgress) (value : α) (fallbackUsed : Bool) (ended : Time) : RetryOutcome α :=
  ⟨value,progress.attempts,fallbackUsed,ended - progress.started,progress.totalDelay⟩

@[simp] theorem attempts_counted (progress : RetryProgress) : progress.counted.attempts = progress.attempts + 1 := rfl

@[simp] theorem attempts_rested (progress : RetryProgress) (delay : Duration) :
    (progress.rested delay).attempts = progress.attempts := rfl

end RetryProgress

def Call.ofLoop : Call → Bool
  | now | draw | isCancelled | sleep .. | report _ | tally _ => true
  | _ => false

namespace Made

def OfLoop (calls : List Made) : Prop := ∀ m ∈ calls, m.call.ofLoop = true

@[simp] theorem ofLoop_nil : OfLoop [] := List.forall_mem_nil _

@[simp] theorem ofLoop_cons {m : Made} {calls : List Made} :
    OfLoop (m :: calls) ↔ m.call.ofLoop = true ∧ OfLoop calls := List.forall_mem_cons

@[simp] theorem ofLoop_append {calls more : List Made} : OfLoop (calls ++ more) ↔ OfLoop calls ∧ OfLoop more :=
  List.forall_mem_append

end Made

namespace RetryPolicy

theorem maxAttempts_pos (p : RetryPolicy) : 0 < p.maxAttempts :=
  Nat.lt_of_lt_of_le Nat.one_pos (Nat.le_max_right _ _)

def attempted (p : RetryPolicy) (progress : RetryProgress) (outcome : AttemptOutcome) : List Made :=
  p.reporting (.attempt p.operation ⟨progress.attempts - 1,progress.delayBefore,outcome⟩)

inductive Ends (p : RetryPolicy) (o : RetryOptions σ α) (progress : RetryProgress) :
    Outcome α → List (Mark α) → Outcome (Except RetryError (RetryOutcome α)) → Prop
  | crashed (c : Crash) : p.Ends o progress (.error (.crash c)) [] (.error (.crash c))
  | succeeded (value : α) (ended : Time) : p.Ends o progress (.ok value)
      (owns (p.attempted progress .success ++ (p.closing (progress.summary true false) ++ [⟨.now,ended⟩])))
      (.ok (.ok (progress.outcome value false ended)))
  | fatal (e : Error) : p.Ends o progress (.error (.error e))
      (owns (p.attempted progress .fatal ++ p.closing (progress.summary false false)))
      (.ok (.error (.fatal progress.attempts e)))
  /-- The loop is found cancelled before it would sleep. -/
  | interrupted (e : Error) (draw : Nat) (watched : o.watched = true) : p.Ends o progress (.error (.error e))
      (owns (p.attempted progress .retryable) ++
        .own ⟨.draw,draw⟩ :: .own ⟨.isCancelled,true⟩ :: owns (p.closing (progress.summary false false)))
      (.ok (.error (.cancelled progress.attempts (some e))))
  | awoken (e : Error) (draw : Nat) {interrupted : Bool} (unseen : (o.watched && interrupted) = false)
      (delay : Duration) : p.Ends o progress (.error (.error e))
      (owns (p.attempted progress .retryable) ++ .own ⟨.draw,draw⟩ :: .own ⟨.isCancelled,interrupted⟩ ::
        .own ⟨.sleep delay o.watched,false⟩ :: owns (p.closing (progress.summary false false)))
      (.ok (.error (.cancelled progress.attempts (some e))))
  | exhausted (e : Error) : p.Ends o progress (.error (.error e))
      (owns (p.attempted progress .retryable ++ p.closing (progress.summary false false)))
      (.ok (.error (.exhausted progress.attempts false e)))
  | rescued (e : Error) (value : α) (ended : Time) : p.Ends o progress (.error (.error e))
      (owns (p.attempted progress .retryable) ++
        .fell (.ok value) :: owns (p.closing (progress.summary true true) ++ [⟨.now,ended⟩]))
      (.ok (.ok (progress.outcome value true ended)))
  | unrescued (e e' : Error) : p.Ends o progress (.error (.error e))
      (owns (p.attempted progress .retryable) ++
        .fell (.error (.error e')) :: owns (p.closing (progress.summary false true)))
      (.ok (.error (.exhausted progress.attempts true e')))
  | fallen (e : Error) (c : Crash) : p.Ends o progress (.error (.error e))
      (owns (p.attempted progress .retryable) ++ [.fell (.error (.crash c))]) (.error (.crash c))

theorem Ends.runs_eq {p : RetryPolicy} {o : RetryOptions σ α} {progress : RetryProgress} {marks : List (Mark α)}
    {result : Outcome α} {answer : Outcome (Except RetryError (RetryOutcome α))}
    (ends : p.Ends o progress result marks answer) : runs marks = [] := by
  cases ends <;> simp

def round (p : RetryPolicy) (o : RetryOptions σ α) (progress : RetryProgress) (asked interrupted : Bool) (e : Error)
    (draw : Nat) (delay : Duration) : List (Mark α) :=
  .own ⟨.isCancelled,asked⟩ :: .ran (.error (.error e)) :: (owns (p.attempted progress.counted .retryable) ++
    [.own ⟨.draw,draw⟩,.own ⟨.isCancelled,interrupted⟩,.own ⟨.sleep delay o.watched,true⟩])

@[simp] theorem runs_round (p : RetryPolicy) (o : RetryOptions σ α) (progress : RetryProgress)
    {asked interrupted : Bool} {e : Error} {draw : Nat} {delay : Duration} :
    runs (p.round o progress asked interrupted e draw delay) = [.error (.error e)] := by
  simp [round]

/-- How a loop goes on from the question that comes before an attempt, and how it ends. -/
inductive Loops (p : RetryPolicy) (o : RetryOptions σ α) :
    RetryProgress → List (Mark α) → Outcome (Except RetryError (RetryOutcome α)) → Prop
  | stopped (progress : RetryProgress) (watched : o.watched = true) :
    p.Loops o progress (.own ⟨.isCancelled,true⟩ :: owns (p.closing (progress.summary false false)))
      (.ok (.error (.cancelled progress.attempts none)))
  | ended (progress : RetryProgress) {asked : Bool} (unseen : (o.watched && asked) = false) {answer : Outcome α}
      {marks : List (Mark α)} {result : Outcome (Except RetryError (RetryOutcome α))}
      (ends : p.Ends o progress.counted answer marks result) :
    p.Loops o progress (.own ⟨.isCancelled,asked⟩ :: .ran answer :: marks) result
  | again (progress : RetryProgress) {asked interrupted : Bool} (unseen : (o.watched && asked) = false)
      (uninterrupted : (o.watched && interrupted) = false) (e : Error) (draw : Nat) (delay : Duration)
      {marks : List (Mark α)} {result : Outcome (Except RetryError (RetryOutcome α))}
      (rest : p.Loops o (progress.counted.rested delay) marks result) :
    p.Loops o progress (p.round o progress asked interrupted e draw delay ++ marks) result

section

variable (p : RetryPolicy) {s s' : σ} {trace : List Made} {progress : RetryProgress}
  {answer : Outcome (Except RetryError (RetryOutcome α))}

theorem makes_report_iff (e : Event) {answer : Outcome Unit} :
    (p.report e).Makes s trace answer s' ↔ trace = p.reporting e ∧ answer = .ok () ∧ s' = s := by
  unfold report reporting
  split
  · rw [makes_perform_iff]
    exact ⟨fun ⟨_,made⟩ => made,fun made => ⟨(),made⟩⟩
  · exact makes_pure_iff

theorem makes_report_bind (e : Event) {f : Unit → Procedure σ β} {answer : Outcome β} :
    (p.report e >>= f).Makes s trace answer s' ↔
      ∃ rest, (f ()).Makes s rest answer s' ∧ trace = p.reporting e ++ rest := by
  rw [makes_bind_iff]
  constructor
  · rintro (⟨_,_,_,rest,reported,made,rfl⟩ | ⟨_,reported,_⟩)
    · obtain ⟨rfl,_,rfl⟩ := (p.makes_report_iff e).mp reported
      exact ⟨rest,made,rfl⟩
    · cases ((p.makes_report_iff e).mp reported).2.1
  · rintro ⟨rest,made,rfl⟩
    exact .inl ⟨_,(),s,rest,p.makes_report s e,made,rfl⟩

theorem makes_close_iff {succeeded fallbackUsed : Bool} {answer : Outcome Unit} :
    (p.close progress succeeded fallbackUsed).Makes s trace answer s' ↔
      trace = p.closing (progress.summary succeeded fallbackUsed) ∧ answer = .ok () ∧ s' = s := by
  refine ⟨fun closes => ?_,?_⟩
  · unfold close at closes
    obtain ⟨rest,counts,rfl⟩ := (p.makes_report_bind _).mp closes
    unfold closing
    split at counts
    · next counted =>
      obtain ⟨_,rfl,same⟩ := (makes_perform_iff _).mp counts
      rw [if_pos counted]
      exact ⟨rfl,same⟩
    · next uncounted =>
      obtain ⟨rfl,same⟩ := makes_pure_iff.mp counts
      rw [if_neg uncounted]
      exact ⟨rfl,same⟩
  · rintro ⟨rfl,rfl,rfl⟩
    exact p.makes_close s' progress succeeded fallbackUsed

theorem makes_close_bind {succeeded fallbackUsed : Bool} {f : Unit → Procedure σ β} {answer : Outcome β} :
    (p.close progress succeeded fallbackUsed >>= f).Makes s trace answer s' ↔ ∃ rest,
      (f ()).Makes s rest answer s' ∧ trace = p.closing (progress.summary succeeded fallbackUsed) ++ rest := by
  rw [makes_bind_iff]
  constructor
  · rintro (⟨_,_,_,rest,closes,made,rfl⟩ | ⟨_,closes,_⟩)
    · obtain ⟨rfl,_,rfl⟩ := p.makes_close_iff.mp closes
      exact ⟨rest,made,rfl⟩
    · cases (p.makes_close_iff.mp closes).2.1
  · rintro ⟨rest,made,rfl⟩
    exact .inl ⟨_,(),s,rest,p.makes_close s progress succeeded fallbackUsed,made,rfl⟩

theorem makes_succeed_iff {fallbackUsed : Bool} {value : α} :
    (p.succeed progress fallbackUsed value).Makes s trace answer s' ↔ ∃ ended,
      trace = p.closing (progress.summary true fallbackUsed) ++ [⟨.now,ended⟩] ∧
        answer = .ok (.ok (progress.outcome value fallbackUsed ended)) ∧ s' = s := by
  constructor
  · intro succeeds
    unfold succeed at succeeds
    obtain ⟨_,rest,rfl⟩ := p.makes_close_bind.mp succeeds
    obtain ⟨ended,_,finished,rfl⟩ := (makes_perform_bind _).mp rest
    obtain ⟨rfl,same⟩ := makes_pure_iff.mp finished
    exact ⟨ended,rfl,same⟩
  · rintro ⟨ended,rfl,rfl,rfl⟩
    exact p.makes_succeed s' progress fallbackUsed value ended

theorem makes_giveUp_iff {e : RetryError} {fallbackUsed : Bool} :
    (p.giveUp progress e fallbackUsed : Procedure σ (Except RetryError (RetryOutcome α))).Makes s trace answer s' ↔
      trace = p.closing (progress.summary false fallbackUsed) ∧ answer = .ok (.error e) ∧ s' = s := by
  constructor
  · intro made
    unfold giveUp at made
    obtain ⟨_,finished,rfl⟩ := p.makes_close_bind.mp made
    obtain ⟨rfl,same⟩ := makes_pure_iff.mp finished
    exact ⟨List.append_nil _,same⟩
  · rintro ⟨rfl,rfl,rfl⟩
    exact p.makes_giveUp s' progress e fallbackUsed

end

variable {p : RetryPolicy} {o : RetryOptions σ α} {operation : Procedure σ α} {s s' : σ} {trace : List Made}
  {answer : Outcome (Except RetryError (RetryOutcome α))} {progress : RetryProgress} {e : Error}

theorem exists_of_pause {delay : Duration} {f : Bool → Procedure σ β} {answer : Outcome β}
    (made : (pause o delay >>= f).Makes s trace answer s') :
    (o.watched = true ∧ ∃ rest, (f false).Makes s rest answer s' ∧ trace = ⟨.isCancelled,true⟩ :: rest) ∨
      ∃ interrupted slept rest, (o.watched && interrupted) = false ∧ (f slept).Makes s rest answer s' ∧
        trace = ⟨.isCancelled,interrupted⟩ :: ⟨.sleep delay o.watched,slept⟩ :: rest := by
  unfold pause at made
  rw [bind_assoc] at made
  obtain ⟨interrupted,_,pauses,rfl⟩ := (makes_perform_bind _).mp made
  split at pauses
  · next seen =>
    obtain ⟨watched,rfl⟩ := Bool.and_eq_true_iff.mp seen
    exact .inl ⟨watched,_,pauses,rfl⟩
  · next unseen =>
    obtain ⟨slept,rest,goes,rfl⟩ := (makes_perform_bind _).mp pauses
    exact .inr ⟨interrupted,slept,rest,Bool.eq_false_iff.mpr unseen,goes,rfl⟩

theorem exists_ends_of_exhaust (made : (p.exhaust o progress e).Makes s trace answer s') :
    ∃ marks, o.Splits operation marks s (p.attempted progress .retryable ++ trace) s' ∧
      p.Ends o progress (.error (.error e)) marks answer ∧
      (o.fallback = none → answer = .ok (.error (.exhausted progress.attempts false e))) := by
  unfold exhaust at made
  split at made
  · obtain ⟨rfl,rfl,rfl⟩ := p.makes_giveUp_iff.mp made
    exact ⟨_,RetryOptions.splits_owns _ _,.exhausted e,fun _ => rfl⟩
  · next fallback falls =>
    have rescues {goal : Prop} (alone : o.fallback = none) : goal := by cases alone.symm.trans falls
    obtain ⟨calls,result,s₁,_,fell,rest,rfl⟩ := makes_outcome_bind.mp made
    rcases result with (e' | c) | value
    · obtain ⟨rfl,rfl,rfl⟩ := p.makes_giveUp_iff.mp rest
      exact ⟨_,RetryOptions.splits_append _ (.fell e falls fell (RetryOptions.splits_owns _ _)),.unrescued e e',rescues⟩
    · obtain ⟨rfl,rfl,rfl⟩ := makes_throw_iff.mp rest
      exact ⟨_,RetryOptions.splits_append _ (.fell e falls fell (.nil _)),.fallen e c,rescues⟩
    · obtain ⟨ended,rfl,rfl,rfl⟩ := p.makes_succeed_iff.mp rest
      exact ⟨_,RetryOptions.splits_append _ (.fell e falls fell (RetryOptions.splits_owns _ _)),
        .rescued e value ended,rescues⟩

theorem exists_loops {left : Nat} (made : (p.loop o operation left progress).Makes s trace answer s') :
    ∃ marks, o.Splits operation marks s trace s' ∧ p.Loops o progress marks answer ∧
      (o.watched = false → o.fallback = none → o.Decides left progress.attempts (runs marks) answer) := by
  induction left using Nat.strongRecOn generalizing progress s trace with
  | ind left ih =>
    unfold loop at made
    obtain ⟨asked,_,goes,rfl⟩ := (makes_perform_bind _).mp made
    split at goes
    · next seen =>
      obtain ⟨watched,rfl⟩ := Bool.and_eq_true_iff.mp seen
      obtain ⟨rfl,rfl,rfl⟩ := p.makes_giveUp_iff.mp goes
      refine ⟨_,.own _ (RetryOptions.splits_owns _ _),.stopped progress watched,fun unwatched => ?_⟩
      cases unwatched.symm.trans watched
    · next unseen =>
      have unseen : (o.watched && asked) = false := Bool.eq_false_iff.mpr unseen
      obtain ⟨calls,result,s₁,after,ran,rest,rfl⟩ := makes_outcome_bind.mp goes
      have ended {marks : List (Mark α)} (splits : o.Splits operation marks s₁ after s')
          (ends : p.Ends o progress.counted result marks answer)
          (concludes : o.watched = false → o.fallback = none → o.Concludes left (progress.attempts + 1) result answer) :
          ∃ marks, o.Splits operation marks s (⟨.isCancelled,asked⟩ :: (calls ++ after)) s' ∧
            p.Loops o progress marks answer ∧
            (o.watched = false → o.fallback = none → o.Decides left progress.attempts (runs marks) answer) := by
        refine ⟨_,.own _ (.ran ran splits),.ended progress unseen ends,fun unwatched alone => ?_⟩
        rw [runs_own,runs_ran,ends.runs_eq]
        exact (concludes unwatched alone).decides
      rcases result with (e | c) | value
      · dsimp only at rest
        split at rest
        · next kind =>
          obtain ⟨_,gives,rfl⟩ := (p.makes_report_bind _).mp rest
          obtain ⟨rfl,rfl,rfl⟩ := p.makes_giveUp_iff.mp gives
          exact ended (RetryOptions.splits_owns _ _) (.fatal e) fun _ _ => .fatal e kind
        · next kind =>
          obtain ⟨_,retries,rfl⟩ := (p.makes_report_bind _).mp rest
          cases left with
          | zero =>
            obtain ⟨marks,splits,ends,exhausts⟩ : ∃ marks, o.Splits operation marks _ _ _ ∧ p.Ends o _ _ marks answer ∧ _ :=
              exists_ends_of_exhaust retries
            refine ended splits ends fun _ alone => ?_
            rw [exhausts alone]
            exact .exhausted e kind rfl
          | succ left =>
            obtain ⟨_,_,_,drawn,pauses,rfl⟩ := makes_lift_bind.mp retries
            cases drawn with
            | call _ _ draw drawn =>
              cases drawn
              rcases exists_of_pause pauses with
                ⟨watched,_,stops,rfl⟩ | ⟨interrupted,slept,_,uninterrupted,follows,rfl⟩
              · obtain ⟨rfl,rfl,rfl⟩ := p.makes_giveUp_iff.mp stops
                refine ended (RetryOptions.splits_append _ (.own _ (.own _ (RetryOptions.splits_owns _ _))))
                  (.interrupted e draw watched) fun _ _ => .awoken e kind
              · cases slept with
                | false =>
                  obtain ⟨rfl,rfl,rfl⟩ := p.makes_giveUp_iff.mp follows
                  exact ended (RetryOptions.splits_append _ (.own _ (.own _ (.own _ (RetryOptions.splits_owns _ _)))))
                    (.awoken e draw uninterrupted _) fun _ _ => .awoken e kind
                | true =>
                  obtain ⟨marks,splits,loops,decides⟩ := ih left (Nat.lt_succ_self left) follows
                  refine ⟨_,?_,.again progress unseen uninterrupted e draw _ loops,fun unwatched alone => ?_⟩
                  · rw [round,List.cons_append,List.cons_append,List.append_assoc]
                    exact .own _ (.ran ran (RetryOptions.splits_append _ (.own _ (.own _ (.own _ splits)))))
                  · rw [runs_append,runs_round]
                    exact (decides unwatched alone).cons kind
      · obtain ⟨rfl,rfl,rfl⟩ := makes_throw_iff.mp rest
        exact ended (.nil _) (.crashed c) fun _ _ => .crashed c
      · obtain ⟨_,succeeds,rfl⟩ := (p.makes_report_bind _).mp rest
        obtain ⟨time,rfl,rfl,rfl⟩ := p.makes_succeed_iff.mp succeeds
        exact ended (RetryOptions.splits_owns _ _) (.succeeded value time) fun _ _ =>
          .succeeded (progress.counted.outcome value false time) rfl rfl

theorem exists_marks (made : (p.run o operation).Makes s trace answer s') : ∃ started marks,
    o.Splits operation (.own ⟨.now,started⟩ :: marks) s trace s' ∧ p.Loops o { started } marks answer ∧
      (o.watched = false → o.fallback = none → o.Decides (p.maxAttempts - 1) 0 (runs marks) answer) := by
  unfold run at made
  obtain ⟨started,_,loop,rfl⟩ := (makes_perform_bind _).mp made
  obtain ⟨marks,splits,told⟩ := exists_loops loop
  exact ⟨started,marks,.own _ splits,told⟩

section

open Made

variable {marks : List (Mark α)}

theorem ofLoop_reporting (e : Event) : OfLoop (p.reporting e) := by
  unfold reporting
  split <;> simp [Call.ofLoop]

@[simp] theorem ofLoop_attempted (outcome : AttemptOutcome) : OfLoop (p.attempted progress outcome) :=
  ofLoop_reporting _

@[simp] theorem ofLoop_closing (summary : RetrySummary) : OfLoop (p.closing summary) := by
  unfold closing
  split <;> simp [ofLoop_reporting,Call.ofLoop]

theorem Ends.ofLoop {given : Outcome α} (ends : p.Ends o progress given marks answer) : OfLoop (ownCalls marks) := by
  cases ends <;> simp [Call.ofLoop]

theorem Loops.ofLoop (loops : p.Loops o progress marks answer) : OfLoop (ownCalls marks) := by
  induction loops with
  | stopped => simp [Call.ofLoop]
  | ended progress unseen ends => simpa [Call.ofLoop] using ends.ofLoop
  | again progress unseen uninterrupted e draw delay rest ih => simpa [round,Call.ofLoop] using ih

end

def told : Outcome (Except RetryError (RetryOutcome α)) → Outcome (RetryOutcome α)
  | .ok (.ok o) => .ok o
  | .ok (.error e) => .error (.error e.toError)
  | .error failure => .error failure

theorem exists_of_attempt {answer : Outcome (RetryOutcome α)}
    (made : (p.attempt operation).Makes s trace answer s') :
    ∃ result, (p.run {} operation).Makes s trace result s' ∧ answer = told result := by
  unfold attempt at made
  rcases makes_bind_iff.mp made with ⟨calls,result,s₁,rest,looped,ends,rfl⟩ | ⟨failure,looped,rfl⟩
  · rcases result with e | o
    · obtain ⟨rfl,rfl,rfl⟩ := makes_throw_iff.mp ends
      exact ⟨.ok (.error e),by rwa [List.append_nil],rfl⟩
    · obtain ⟨rfl,rfl,rfl⟩ := makes_pure_iff.mp ends
      exact ⟨.ok (.ok o),by rwa [List.append_nil],rfl⟩
  · exact ⟨.error failure,looped,rfl⟩

end RetryPolicy

end VersionedLedger
