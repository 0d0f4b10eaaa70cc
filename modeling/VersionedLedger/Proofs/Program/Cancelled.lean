import VersionedLedger.Pool
import VersionedLedger.Proofs.Program.Marks

/-! A retry loop under a watched cancellation. Once it has been replied that it is cancelled, it makes no further
attempt; its answer counts the attempts that were made, and a loop that does not crash is summed up once. Of the
last error it tells as long as it is stopped before or in a sleep: a loop that has slept out its sleep and is
stopped after it has nothing to tell. -/
namespace VersionedLedger

open Procedure Mark

variable {σ α : Type}

def Made.sumsUp : Made → Bool
  | ⟨.report (.retry ..),_⟩ | ⟨.tally _,_⟩ => true
  | _ => false

namespace Mark

def cancels : Mark α → Bool
  | own ⟨.isCancelled,r⟩ => r
  | own ⟨.sleep _ _,r⟩ => !r
  | _ => false

/-- The error of an attempt is remembered until a sleep is slept out. -/
def remember (known : Option Error) : Mark α → Option Error
  | ran (.error (.error e)) => some e
  | own ⟨.sleep _ _,r⟩ => if r then none else known
  | _ => known

def summaries (marks : List (Mark α)) : List Made := (ownCalls marks).filter Made.sumsUp

/-- No run follows once the loop is replied that it has been cancelled. -/
def Idle (marks : List (Mark α)) : Prop := marks.Pairwise fun m later => m.cancels = true → later.ran? = none

theorem idle_of_runs {marks : List (Mark α)} (none : runs marks = []) : Idle marks :=
  List.pairwise_iff_forall_sublist.mpr fun sub _ =>
    List.filterMap_eq_nil_iff.mp none _ (sub.subset (List.mem_cons_of_mem _ (List.mem_singleton_self _)))

theorem Idle.after {marks : List (Mark α)} (idle : Idle marks) (earlier : List (Mark α))
    (unseen : ∀ m ∈ earlier, m.cancels = false) : Idle (earlier ++ marks) := by
  have vacuous {m : Mark α} (member : m ∈ earlier) (later : Mark α) : m.cancels = true → later.ran? = none :=
    fun seen => absurd seen (Bool.eq_false_iff.mp (unseen m member))
  refine List.pairwise_append.mpr ⟨?_,idle,fun m member later _ => vacuous member later⟩
  exact List.pairwise_iff_forall_sublist.mpr fun sub => vacuous (sub.subset List.mem_cons_self) _

@[simp] theorem summaries_nil : summaries ([] : List (Mark α)) = [] := rfl

@[simp] theorem summaries_append (marks more : List (Mark α)) :
    summaries (marks ++ more) = summaries marks ++ summaries more := by
  simp [summaries]

@[simp] theorem summaries_owns (calls : List Made) :
    summaries (owns calls : List (Mark α)) = calls.filter Made.sumsUp := by
  simp [summaries]

theorem summaries_cons_own (m : Made) (marks : List (Mark α)) :
    summaries (.own m :: marks) = [m].filter Made.sumsUp ++ summaries marks := by
  rw [← summaries_owns [m],← summaries_append]
  rfl

@[simp] theorem summaries_ran (answer : Outcome α) (marks : List (Mark α)) :
    summaries (.ran answer :: marks) = summaries marks := rfl

@[simp] theorem summaries_fell (answer : Outcome α) (marks : List (Mark α)) :
    summaries (.fell answer :: marks) = summaries marks := rfl

end Mark

namespace RetryPolicy

variable {p : RetryPolicy} {o : RetryOptions σ α} {progress : RetryProgress} {marks : List (Mark α)}
  {answer : Outcome (Except RetryError (RetryOutcome α))}

@[simp] theorem filter_attempted (outcome : AttemptOutcome) :
    (p.attempted progress outcome).filter Made.sumsUp = [] := by
  unfold attempted reporting
  split <;> rfl

@[simp] theorem filter_closing (summary : RetrySummary) :
    (p.closing summary).filter Made.sumsUp = p.closing summary := by
  unfold closing reporting
  split <;> split <;> rfl

section

variable {asked interrupted : Bool} {e : Error} {draw : Nat} {delay : Duration}

@[simp] theorem summaries_round : summaries (p.round o progress asked interrupted e draw delay) = [] := by
  simp [round,summaries_cons_own,Made.sumsUp]

theorem foldl_round (known : Option Error) :
    (p.round o progress asked interrupted e draw delay).foldl remember known = none := by
  simp [round,remember]

theorem cancels_attempted {outcome : AttemptOutcome} {m : Mark α}
    (member : m ∈ owns (p.attempted progress outcome)) : m.cancels = false := by
  unfold attempted reporting at member
  split at member
  · obtain rfl := List.mem_singleton.mp member
    rfl
  · cases member

theorem cancels_round (unseen : asked = false) (uninterrupted : interrupted = false)
    {m : Mark α} (member : m ∈ p.round o progress asked interrupted e draw delay) : m.cancels = false := by
  subst unseen uninterrupted
  simp only [round,List.mem_cons,List.mem_append,List.not_mem_nil,or_false] at member
  rcases member with rfl | rfl | reported | rfl | rfl | rfl
  · rfl
  · rfl
  · exact cancels_attempted reported
  all_goals rfl

end

/-- What a loop reports of itself as a whole agrees with what it ends with. Only a loop that a run of its operation
or of its fallback crashes reports nothing. -/
def Summed (p : RetryPolicy) (attempts : Nat) (marks : List (Mark α)) :
    Outcome (Except RetryError (RetryOutcome α)) → Prop
  | .ok result => ∃ total fallbackUsed, summaries marks = p.closing ⟨attempts,total,result.isOk,fallbackUsed⟩
  | .error failure => summaries marks = [] ∧ ∃ c before, failure = .crash c ∧
      (marks = before ++ [.ran (.error failure)] ∨ marks = before ++ [.fell (.error failure)])

theorem Ends.summed {result : Outcome α} (ends : p.Ends o progress result marks answer) :
    p.Summed progress.attempts (.ran result :: marks) answer := by
  cases ends with
  | crashed c => exact ⟨rfl,c,[],rfl,.inl rfl⟩
  | fallen e c => exact ⟨by simp,c,.ran _ :: owns _,rfl,.inr rfl⟩
  | rescued | unrescued =>
    refine ⟨progress.totalDelay,true,?_⟩
    simp [Made.sumsUp,RetryProgress.summary,Except.isOk,Except.toBool]
  | _ =>
    refine ⟨progress.totalDelay,false,?_⟩
    simp [summaries_cons_own,Made.sumsUp,RetryProgress.summary,Except.isOk,Except.toBool]

theorem Summed.before {attempts : Nat} (summed : p.Summed attempts marks answer) (earlier : List (Mark α))
    (silent : summaries earlier = []) : p.Summed attempts (earlier ++ marks) answer := by
  unfold Summed at summed ⊢
  rw [summaries_append,silent,List.nil_append]
  cases answer with
  | ok result => exact summed
  | error failure =>
    obtain ⟨none,c,before,crash,same⟩ := summed
    refine ⟨none,c,earlier ++ before,crash,?_⟩
    simpa only [List.append_assoc,List.append_cancel_left_eq] using same

theorem Loops.summed (loops : p.Loops o progress marks answer) :
    p.Summed (progress.attempts + (runs marks).length) marks answer := by
  induction loops with
  | stopped progress watched =>
    refine ⟨progress.totalDelay,false,?_⟩
    simp [summaries_cons_own,Made.sumsUp,RetryProgress.summary,Except.isOk,Except.toBool]
  | @ended progress asked unseen result marks answer ends =>
    have summed := ends.summed.before [.own ⟨.isCancelled,asked⟩] rfl
    simpa [ends.runs_eq] using summed
  | @again progress asked interrupted unseen uninterrupted e draw delay marks answer rest ih =>
    have summed := ih.before (p.round o progress asked interrupted e draw delay) summaries_round
    simpa [Nat.add_assoc,Nat.add_comm 1] using summed

theorem Loops.idle (loops : p.Loops o progress marks answer) (watched : o.watched = true) : Idle marks := by
  induction loops with
  | stopped progress => exact idle_of_runs (by simp)
  | ended progress unseen ends =>
    rw [watched,Bool.true_and] at unseen
    refine (idle_of_runs ends.runs_eq).after [_,_] ?_
    simp [cancels,unseen]
  | again progress unseen uninterrupted e draw delay rest ih =>
    rw [watched,Bool.true_and] at unseen uninterrupted
    exact ih.after _ fun m => cancels_round unseen uninterrupted

/-- Where a loop is stopped that answers that it was cancelled, and the error that it tells of. -/
def Stopped (p : RetryPolicy) (attempts : Nat) (marks : List (Mark α)) (last : Option Error) : Prop :=
  ∃ before stop total, marks = before ++ stop :: owns (p.closing ⟨attempts,total,false,false⟩) ∧
    stop.cancels = true ∧ last = before.foldl remember none

theorem foldl_attempted (outcome : AttemptOutcome) (known : Option Error) :
    (owns (p.attempted progress outcome) : List (Mark α)).foldl remember known = known := by
  unfold attempted reporting
  split <;> rfl

theorem Ends.cancelled {result : Outcome α} {n : Nat} {last : Option Error}
    (ends : p.Ends o progress result marks (.ok (.error (.cancelled n last)))) :
    n = progress.attempts ∧ p.Stopped n (.ran result :: marks) last := by
  cases ends with
  | interrupted e draw =>
    refine ⟨rfl,.ran (.error (.error e)) :: (owns (p.attempted progress .retryable) ++ [.own ⟨.draw,draw⟩]),
      .own ⟨.isCancelled,true⟩,progress.totalDelay,?_,rfl,?_⟩
    · simp [RetryProgress.summary]
    · simp [foldl_attempted,remember]
  | @awoken e draw asked unseen delay =>
    refine ⟨rfl,.ran (.error (.error e)) :: (owns (p.attempted progress .retryable) ++
      [.own ⟨.draw,draw⟩,.own ⟨.isCancelled,asked⟩]),.own ⟨.sleep delay o.watched,false⟩,progress.totalDelay,?_,rfl,?_⟩
    · simp [RetryProgress.summary]
    · simp [foldl_attempted,remember]

theorem Loops.cancelled {n : Nat} {last : Option Error}
    (loops : p.Loops o progress marks (.ok (.error (.cancelled n last)))) :
    n = progress.attempts + (runs marks).length ∧ p.Stopped n marks last := by
  generalize given : (.ok (.error (.cancelled n last)) : Outcome (Except RetryError (RetryOutcome α))) = answer at loops
  induction loops with
  | stopped progress watched =>
    cases given
    exact ⟨by simp,[],.own ⟨.isCancelled,true⟩,progress.totalDelay,rfl,rfl,rfl⟩
  | @ended progress asked unseen result marks answer ends =>
    subst given
    obtain ⟨count,before,stop,total,split,seen,told⟩ := ends.cancelled
    exact ⟨by simp [ends.runs_eq,count],.own ⟨.isCancelled,asked⟩ :: before,stop,total,by rw [split]; rfl,seen,told⟩
  | @again progress asked interrupted unseen uninterrupted e draw delay marks answer rest ih =>
    obtain ⟨count,before,stop,total,split,seen,told⟩ := ih given
    refine ⟨?_,p.round o progress asked interrupted e draw delay ++ before,stop,total,?_,seen,?_⟩
    · simp [count,Nat.add_assoc,Nat.add_comm 1]
    · rw [split,List.append_assoc]
    · rw [List.foldl_append,foldl_round,told]

variable {operation : Procedure σ α} {s s' : σ} {trace : List Made}

/-- A watched loop makes no attempt once it is replied that it has been cancelled, and is summed up once unless it
crashes. If it answers that it was cancelled, it counts its attempts; the error of the last one it tells only if it
is stopped before the sleep after that attempt is over. -/
theorem run_cancelled (watched : o.watched = true) (made : (p.run o operation).Makes s trace answer s') :
    ∃ marks : List (Mark α), o.Splits operation marks s trace s' ∧ Idle marks ∧
      p.Summed (runs marks).length marks answer ∧
      ∀ n last, answer = .ok (.error (.cancelled n last)) → n = (runs marks).length ∧ p.Stopped n marks last := by
  obtain ⟨started,marks,splits,loops,_⟩ := exists_marks made
  refine ⟨.own ⟨.now,started⟩ :: marks,splits,(loops.idle watched).after [_] (by simp [cancels]),?_,?_⟩
  · have summed := loops.summed.before [.own ⟨.now,started⟩] rfl
    simpa using summed
  · rintro n last rfl
    obtain ⟨count,before,stop,total,split,seen,told⟩ := loops.cancelled
    exact ⟨by simpa using count,.own ⟨.now,started⟩ :: before,stop,total,by rw [split]; rfl,seen,told⟩

/-- A loop that is cancelled between the end of its sleep and the question before its second attempt. -/
theorem run_cancelled_rested :
    let p : RetryPolicy := { config := { maxAttempts := 2 } }
    let o : RetryOptions Nat Nat := { watched := true }
    let wait := Backoff.delay p.config 0 17
    let trace : List Made :=
      [⟨.now,3⟩,⟨.isCancelled,false⟩,⟨.checkFault "read",.error (.deadlock 7)⟩,
        ⟨.report (.attempt "operation" ⟨0,0,.retryable⟩),()⟩,⟨.draw,17⟩,⟨.isCancelled,false⟩,⟨.sleep wait true,true⟩,
        ⟨.isCancelled,true⟩,⟨.report (.retry "operation" ⟨1,wait,false,false⟩),()⟩]
    (p.run o read).Makes 0 trace (.ok (.error (.cancelled 1 none))) 1 ∧ ∃ marks : List (Mark Nat),
      o.Splits read marks 0 trace 1 ∧ Idle marks ∧
      p.Summed (runs marks).length marks (.ok (.error (.cancelled 1 none))) ∧
        1 = (runs marks).length ∧ p.Stopped 1 marks none := by
  intro p o wait trace
  have made : (p.run o read).Makes 0 trace (.ok (.error (.cancelled 1 none))) 1 := by
    have stops : (p.loop o read 0 (reads.progress p 3 1)).Makes 1
        (⟨.isCancelled,true⟩ :: p.closing ⟨1,reads.totalDelay p 1,false,false⟩)
        (.ok (.error (.cancelled 1 none))) 1 := by
      unfold loop
      exact (makes_perform .isCancelled true 1).bind (p.makes_giveUp 1 (reads.progress p 3 1) _ false)
    have goes : ∀ i < 1, reads.Goes o read i := fun i _ => ⟨.call _ _ _ (.done _),rfl,rfl⟩
    have retry : ∀ i < 1, reads.outcome o i = .retryable := by decide
    have loop := Tries.makes_before goes retry stops
    have slept : reads.totalDelay p 1 = wait := by simp [Tries.totalDelay,Tries.delay,reads,wait]
    rw [slept] at loop
    exact (makes_perform .now 3 0).bind loop
  obtain ⟨marks,splits,idle,summed,told⟩ := run_cancelled rfl made
  exact ⟨made,marks,splits,idle,summed,told 1 none rfl⟩

-- a second worker cancels once the first one is awake again, and before its next question
example :
    let loop : Program (Option RetryError) := do
      match ← (({ config := { maxAttempts := 2 } } : RetryPolicy).run { watched := true }
        (fail (.deadlock 7) : Procedure Unit Nat)).start () with
      | (.ok (.error e),_) => pure (some e)
      | _ => pure none
    let pool : Pool (Option RetryError) :=
      { ledger := {}, workers := [.ready loop,.ready (do Program.perform .cancel; pure none)] }
    let sleeps : List Pool.Move := List.replicate 6 (.step 0)
    (pool.play (sleeps ++ [.elapse 1000000000,.step 0,.step 1,.step 0,.step 0,.step 0])).result? 0 =
      some (some (.cancelled 1 none)) := by decide +kernel

end RetryPolicy

end VersionedLedger
