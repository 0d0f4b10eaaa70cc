import VersionedLedger.Proofs.Ledger.Books
import VersionedLedger.Proofs.Pool.Fair

/-! Those who call the operations of a ledger, in any order, one inside the other and side by side. Every loop that is
run for them is reported once and counted once: in the ledger's totals, or, for a coordinated transfer, in the counts
of deadlocks alone. -/
namespace VersionedLedger

open Procedure Mark

variable {σ α β : Type}

/-- Of its own, a loop makes no calls that count or report but those that sum it up. -/
def Made.Plain (calls : List Made) : Prop := ∀ m ∈ calls, m.sumsUp = true ∨ m.call.bookless = true

theorem Made.plain_of_ofLoop {m : Made} (ofLoop : m.call.ofLoop = true) :
    m.sumsUp = true ∨ m.call.bookless = true := by
  obtain ⟨c,r⟩ := m
  cases c with
  | report e => cases e <;> first | exact .inl rfl | exact .inr rfl
  | tally => exact .inl rfl
  | _ => first | exact .inr rfl | cases ofLoop

namespace RetryPolicy

variable {p : RetryPolicy} {o : RetryOptions σ α} {progress : RetryProgress} {marks : List (Mark α)}
  {answer : Outcome (Except RetryError (RetryOutcome α))}

theorem Loops.plain (loops : p.Loops o progress marks answer) : Made.Plain (ownCalls marks) :=
  fun m member => Made.plain_of_ofLoop (loops.ofLoop m member)

/-- What a loop sums itself up with, by what it answers. A crashed one does not. -/
def sums (p : RetryPolicy) (total : Duration) : Outcome (Except RetryError (RetryOutcome α)) → List Made
  | .ok result => p.closing ⟨attemptsOf result,total,result.isOk,false⟩
  | .error _ => []

theorem Loops.sums (loops : p.Loops o progress marks answer) (unfallen : ∀ given, .fell given ∉ marks) :
    ∃ total, summaries marks = p.sums total answer := by
  cases answer with
  | ok result => exact loops.closing unfallen
  | error failure => exact ⟨0,loops.summed.1⟩

end RetryPolicy

theorem Gauge.sum_plain (γ : Gauge RetryMetrics) (vanishes : ∀ m : Made, m.call.bookless = true → γ.add m = 0)
    {calls : List Made} (plain : Made.Plain calls) : γ.sum calls = γ.sum (calls.filter Made.sumsUp) := by
  induction calls with
  | nil => rfl
  | cons m calls ih =>
    obtain ⟨first,rest⟩ := List.forall_mem_cons.mp plain
    rw [γ.sum_cons,ih rest,List.filter_cons]
    split
    · rw [γ.sum_cons]
    · next unsummed => rw [vanishes m (first.resolve_left unsummed),zero_add]

variable {δ : Gauge RetryMetrics}

namespace Procedure

variable {p : Procedure σ α}

/-- What a run reports it also enters into the books. -/
def Settled (p : Procedure σ α) (δ : Gauge RetryMetrics) : Prop :=
  ∀ s trace answer s', p.Makes s trace answer s' → Gauge.heard.sum trace = δ.sum trace

theorem settled_of_only (books : δ.Books) (only : p.Only Call.bookless) : p.Settled δ := by
  intro s trace answer s' made
  have bookless := only.calls made
  exact (Gauge.sum_bookless (fun _ => Call.heard_bookless) bookless).trans
    (Gauge.sum_bookless (fun _ => books.bookless) bookless).symm

theorem Settled.bind {f : α → Procedure σ β} (first : p.Settled δ) (rest : ∀ a, (f a).Settled δ) :
    (p >>= f).Settled δ := by
  intro s trace answer s' made
  rcases makes_bind_iff.mp made with ⟨calls,a,s₁,more,before,after,rfl⟩ | ⟨e,made,_⟩
  · rw [Gauge.sum_append,Gauge.sum_append,first s calls _ s₁ before,rest a s₁ more answer s' after]
  · exact first s trace _ s' made

theorem Settled.outcome (inner : p.Settled δ) : p.outcome.Settled δ := by
  intro s trace answer s' made
  have bound : (p.outcome >>= pure).Makes s trace answer s' := by rwa [bind_pure]
  obtain ⟨calls,a,s₁,rest,before,after,rfl⟩ := makes_outcome_bind.mp bound
  obtain ⟨rfl,_,_⟩ := makes_pure_iff.mp after
  rw [List.append_nil]
  exact inner s calls a s₁ before

end Procedure

namespace RetryOptions

variable {o : RetryOptions σ α} {operation : Procedure σ α} {s s' : σ} {trace : List Made} {marks : List (Mark α)}

theorem Splits.exists_sum (splits : o.Splits operation marks s trace s') (settled : operation.Settled δ)
    (alone : o.fallback = none) : ∃ inner, Gauge.heard.sum trace = inner + Gauge.heard.sum (ownCalls marks) ∧
      δ.sum trace = inner + δ.sum (ownCalls marks) := by
  induction splits with
  | nil => exact ⟨0,rfl,rfl⟩
  | own m rest ih =>
    obtain ⟨inner,heard,booked⟩ := ih
    refine ⟨inner,?_,?_⟩
    · rw [ownCalls_own,Gauge.sum_cons,Gauge.sum_cons,heard,add_left_comm]
    · rw [ownCalls_own,Gauge.sum_cons,Gauge.sum_cons,booked,add_left_comm]
  | @ran _ _ s s₁ _ calls _ made rest ih =>
    obtain ⟨inner,heard,booked⟩ := ih
    refine ⟨δ.sum calls + inner,?_,?_⟩
    · rw [ownCalls_ran,Gauge.sum_append,settled s calls _ s₁ made,heard,add_assoc]
    · rw [ownCalls_ran,Gauge.sum_append,booked,add_assoc]
  | fell e falls => cases alone.symm.trans falls

end RetryOptions

namespace RetryPolicy

variable {p : RetryPolicy} {o : RetryOptions σ α} {operation : Procedure σ α} {s s' : σ} {trace : List Made}
  {answer : Outcome (Except RetryError (RetryOutcome α))} {result : Except RetryError (RetryOutcome α)}
  {total : Duration}

theorem exists_sum_of_run (books : δ.Books) (settled : operation.Settled δ) (alone : o.fallback = none)
    (made : (p.run o operation).Makes s trace answer s') :
    ∃ inner total, Gauge.heard.sum trace = inner + Gauge.heard.sum (p.sums total answer) ∧
      δ.sum trace = inner + δ.sum (p.sums total answer) := by
  obtain ⟨started,marks,splits,loops,_⟩ := exists_marks made
  obtain ⟨inner,heard,booked⟩ := splits.exists_sum settled alone
  obtain ⟨total,sums⟩ := loops.sums fun given member => splits.not_fell alone given (List.mem_cons_of_mem _ member)
  have plain : Made.Plain (ownCalls (.own ⟨.now,started⟩ :: marks)) :=
    List.forall_mem_cons.mpr ⟨.inr rfl,loops.plain⟩
  have summed : (ownCalls (.own ⟨.now,started⟩ :: marks)).filter Made.sumsUp = p.sums total answer := by
    simpa [summaries,Made.sumsUp] using sums
  refine ⟨inner,total,?_,?_⟩
  · rw [heard,Gauge.sum_plain _ (fun _ => Call.heard_bookless) plain,summed]
  · rw [booked,Gauge.sum_plain _ (fun _ => books.bookless) plain,summed]

theorem attemptsOf_pos (unwatched : o.watched = false)
    (made : (p.run o operation).Makes s trace (.ok result) s') : 0 < attemptsOf result := by
  obtain ⟨started,marks,_,loops,_⟩ := exists_marks made
  rw [loops.attempts]
  exact Nat.add_pos_right _ (List.length_pos_iff.mpr (loops.runs_ne_nil unwatched))

theorem heard_sums (reported : p.reported = true) : Gauge.heard.sum (p.sums total (.ok result)) =
    RetrySummary.entry ⟨attemptsOf result,total,result.isOk,false⟩ := by
  simp only [sums,closing,reporting,if_pos reported]
  split <;> simp [Gauge.heard,Gauge.sum,Call.heard,Event.entry]

theorem books_sums (books : δ.Books) : δ.sum (p.sums total (.ok result)) =
    if p.counted then RetrySummary.entry ⟨attemptsOf result,total,result.isOk,false⟩ else 0 := by
  simp only [sums,closing,reporting]
  split <;> split <;> simp [books.report,books.tally]

theorem settled_run (books : δ.Books) (reported : p.reported = true) (counted : p.counted = true)
    (alone : o.fallback = none) (settled : operation.Settled δ) : (p.run o operation).Settled δ := by
  intro s trace answer s' made
  obtain ⟨inner,total,heard,booked⟩ := exists_sum_of_run books settled alone made
  rw [heard,booked]
  cases answer with
  | error failure => rfl
  | ok result => rw [heard_sums reported,books_sums books,if_pos counted]

theorem settled_attempt (books : δ.Books) (reported : p.reported = true) (counted : p.counted = true)
    (settled : operation.Settled δ) : (p.attempt operation).Settled δ :=
  (settled_run books reported counted rfl settled).bind fun result => by
    cases result <;> exact settled_of_only books fun _ => trivial

end RetryPolicy

namespace DeadlockCount

variable {n : Nat} (total : Duration)

theorem entry_succeeded (positive : 0 < n) :
    (succeeded (n - 1)).entry = RetrySummary.entry ⟨n,total,true,false⟩ := by
  ext <;> simp [entry,RetrySummary.entry,RetryMetrics.record,Nat.sub_add_cancel positive]

theorem entry_failed (positive : 0 < n) : (failed (n - 1)).entry = RetrySummary.entry ⟨n,total,false,false⟩ := by
  ext <;> simp [entry,RetrySummary.entry,RetryMetrics.record,Nat.sub_add_cancel positive]

end DeadlockCount

namespace DeadlockCoordinator

variable (c : DeadlockCoordinator) (t : Transfer)

theorem only_attempt : (c.attempt t : Procedure σ Receipt).Only Call.bookless := by
  have requested : (t.requested c.locking : Procedure σ Receipt).Only Call.bookless :=
    (t.only_requested c.locking).mono fun _ => Call.bookless_ofStore
  refine requested.outcome.bind fun answer => ?_
  rcases answer with (e | crash) | receipt
  · dsimp only
    split
    · exact (only_perform rfl).bind fun _ => only_ofOutcome _
    · exact only_ofOutcome _
  · exact only_ofOutcome _
  · exact only_ofOutcome _

theorem settled_transfer (reported : c.policy.reported = true) (uncounted : c.policy.counted = false) :
    (c.transfer t : Procedure σ Receipt).Settled .booked := by
  have attempt : (c.attempt t : Procedure σ Receipt).Settled .booked :=
    settled_of_only Gauge.books_booked (c.only_attempt t)
  intro s trace answer s' made
  unfold transfer at made
  rcases makes_ofError_bind.mp made with ⟨_,_,made⟩ | ⟨_,_,rfl,_⟩
  · rcases makes_bind_iff.mp made with ⟨calls,result,s₁,rest,looped,counts,rfl⟩ | ⟨failure,looped,rfl⟩
    · obtain ⟨inner,total,heard,booked⟩ := RetryPolicy.exists_sum_of_run Gauge.books_booked attempt rfl looped
      have positive := RetryPolicy.attemptsOf_pos rfl looped
      rw [Gauge.sum_append,Gauge.sum_append,heard,booked,RetryPolicy.heard_sums reported,
        RetryPolicy.books_sums Gauge.books_booked,uncounted,if_neg Bool.false_ne_true,add_zero,add_assoc]
      refine congrArg (inner + ·) ?_
      cases result with
      | error e =>
        obtain ⟨_,rest,fails,rfl⟩ := (makes_perform_bind _).mp counts
        obtain ⟨rfl,_⟩ := makes_throw_iff.mp fails
        rw [Gauge.booked_sum_countDeadlock]
        exact (add_zero _).trans (DeadlockCount.entry_failed total positive).symm
      | ok o =>
        obtain ⟨_,rest,returns,rfl⟩ := (makes_perform_bind _).mp counts
        obtain ⟨rfl,_⟩ := makes_pure_iff.mp returns
        rw [Gauge.booked_sum_countDeadlock]
        exact (add_zero _).trans (DeadlockCount.entry_succeeded total positive).symm
    · obtain ⟨inner,total,heard,booked⟩ := RetryPolicy.exists_sum_of_run Gauge.books_booked attempt rfl looped
      rw [heard,booked]
      rfl
  · rfl

end DeadlockCoordinator

namespace Ledger

variable (books : δ.Books) (config : LedgerConfig)

include books

theorem settled_optimisticUpdate (id : RecordId) {mutate : Amount → Procedure σ Amount}
    (computes : ∀ balance, (mutate balance).Settled δ) (retry : RetryConfig) :
    (optimisticUpdate id mutate retry).Settled δ := by
  have store {β : Type} {p : Procedure σ β} (only : p.Only Call.ofStore) : p.Settled δ :=
    settled_of_only books (only.mono fun _ => Call.bookless_ofStore)
  have update : (Optimistic.update id mutate).Settled δ :=
    (store (Optimistic.only_read id)).bind fun _ => (computes _).bind fun _ =>
      (store (Optimistic.only_conditionalUpdate id _ _)).bind fun _ => settled_of_only books fun _ => trivial
  exact (RetryPolicy.settled_attempt books rfl rfl update).bind fun _ => settled_of_only books fun _ => trivial

theorem settled_pessimisticTransfer (t : Transfer) (retry : RetryConfig) :
    (pessimisticTransfer config t retry : Procedure σ TransferReport).Settled δ := by
  have ordered : (t.ordered config.lock.locking : Procedure σ Receipt).Settled δ :=
    settled_of_only books ((t.only_ordered _).mono fun _ => Call.bookless_ofStore)
  exact (RetryPolicy.settled_attempt books rfl rfl ordered).bind fun _ => settled_of_only books fun _ => trivial

theorem settled_guardedCall (name : String) {operation : Procedure σ α} (settled : operation.Settled δ)
    (retry : RetryConfig) : (guardedCall config name operation retry).Settled δ := by
  intro s trace answer s' made
  obtain ⟨h,⟨e,rfl,_⟩ | ⟨permit,result,calls,looped,_,rfl⟩⟩ := exists_of_guardedCall made
  · have bookless : ∀ m ∈ ([⟨.circuit name config.circuit,h⟩,⟨.admitCall h,.error e⟩] : List Made),
        m.call.bookless = true := by
      simp [Call.bookless]
    exact (Gauge.sum_bookless (fun _ => Call.heard_bookless) bookless).trans
      (Gauge.sum_bookless (fun _ => books.bookless) bookless).symm
  · have around {γ : Gauge RetryMetrics} (vanishes : ∀ m : Made, m.call.bookless = true → γ.add m = 0) :
        γ.sum (⟨.circuit name config.circuit,h⟩ :: ⟨.admitCall h,.ok permit⟩ ::
          (calls ++ [⟨.recordCall h permit (!answer.isOk),()⟩])) = γ.sum calls := by
      rw [γ.sum_cons,γ.sum_cons,γ.sum_append,γ.sum_cons,γ.sum_nil]
      rw [vanishes _ rfl,vanishes _ rfl,vanishes _ rfl,zero_add,zero_add,add_zero,add_zero]
    rw [around fun _ => Call.heard_bookless,around fun _ => books.bookless]
    exact RetryPolicy.settled_run books rfl rfl rfl settled s calls result s' looped

omit books

/-- Those who call the operations of a ledger. What they are given they may look at, and go on by it; besides, they
may make any calls that count nothing. Coordinated transfers are among the operations only if they are meant to be. -/
inductive Caller (config : LedgerConfig) (coordinates : Prop) : {α : Type} → Procedure σ α → Prop
  | plain {α : Type} {p : Procedure σ α} (only : p.Only Call.bookless) : Caller config coordinates p
  | bind {α β : Type} {p : Procedure σ α} {f : α → Procedure σ β} (first : Caller config coordinates p)
      (rest : ∀ a, Caller config coordinates (f a)) : Caller config coordinates (p >>= f)
  | outcome {α : Type} {p : Procedure σ α} (inner : Caller config coordinates p) : Caller config coordinates p.outcome
  | update (id : RecordId) {mutate : Amount → Procedure σ Amount}
      (computes : ∀ balance, Caller config coordinates (mutate balance)) (retry : RetryConfig) :
      Caller config coordinates (optimisticUpdate id mutate retry)
  | transfer (t : Transfer) (retry : RetryConfig) : Caller config coordinates (pessimisticTransfer config t retry)
  | coordinated (meant : coordinates) (t : Transfer) : Caller config coordinates (deadlockTransfer config t)
  | guarded {α : Type} (name : String) {operation : Procedure σ α} (calls : Caller config coordinates operation)
      (retry : RetryConfig) : Caller config coordinates (guardedCall config name operation retry)

theorem Caller.settled {config : LedgerConfig} {coordinates : Prop} {p : Procedure σ α}
    (calls : Caller config coordinates p) (books : δ.Books) (both : coordinates → δ = .booked) : p.Settled δ := by
  induction calls with
  | plain only => exact settled_of_only books only
  | bind _ _ first rest => exact first.bind rest
  | outcome _ inner => exact inner.outcome
  | update id _ retry computes => exact settled_optimisticUpdate books id computes retry
  | transfer t retry => exact settled_pessimisticTransfer books config t retry
  | coordinated meant t =>
    rw [both meant]
    exact (coordinator config).settled_transfer t rfl rfl
  | guarded name _ retry inner => exact settled_guardedCall books config name inner retry

end Ledger

namespace Pool

variable {s : Ledger} {users : List (Procedure σ α × σ)} {config : LedgerConfig} {coordinates : Prop} {moves : List Move}

theorem heard_add_read (callers : ∀ u ∈ users, Ledger.Caller config coordinates u.1) (books : δ.Books)
    (both : coordinates → δ = .booked) (listening : s.listening = true) (valid : δ.valid s)
    (finished : ((start s (users.map fun u => u.1.start u.2)).play moves).Finished users.length) :
    ((start s (users.map fun u => u.1.start u.2)).play moves).ledger.heard + δ.read s =
      δ.read ((start s (users.map fun u => u.1.start u.2)).play moves).ledger + s.heard := by
  obtain ⟨said,spoken⟩ := (spoken_start True s (users.map fun u => u.1.start u.2)).play moves (.inl trivial)
  have settled (i : Nat) (below : i < users.length) : Gauge.heard.sum (said i) = δ.sum (said i) := by
    obtain ⟨⟨answer,own⟩,ended⟩ := finished i below
    obtain ⟨q,named,made⟩ := spoken.makes ended
    rw [List.getElem?_map] at named
    obtain ⟨u,member,rfl⟩ := Option.map_eq_some_iff.mp named
    exact (callers u (List.mem_of_getElem? member)).settled books both u.2 _ answer own made
  have heard : Ledger.heard _ = s.heard + _ := (spoken.added Gauge.heard listening).2
  rw [heard,(spoken.added δ valid).2,Finset.sum_congr rfl fun i member => settled i (by simpa using member),
    add_right_comm,add_comm s.heard,add_right_comm]

/-- Once all callers have come to their ends, a listener has heard of as much as the ledger has counted. Of that the
ledger's own totals hold all but the coordinated transfers, and so all of it if there is none. -/
theorem heard_eq_retries_add_deadlocks (callers : ∀ u ∈ users, Ledger.Caller config coordinates u.1)
    (listening : s.listening = true) (balanced : s.heard = s.retries + s.deadlocks.totals)
    (finished : ((start s (users.map fun u => u.1.start u.2)).play moves).Finished users.length) :
    let after := ((start s (users.map fun u => u.1.start u.2)).play moves).ledger
    after.heard = after.retries + after.deadlocks.totals ∧
      (after.retries.snapshot = after.heard.snapshot ↔ after.deadlocks.totals = 0) ∧
      (¬ coordinates → after.deadlocks.totals = s.deadlocks.totals) := by
  intro after
  have both := heard_add_read callers Gauge.books_booked (fun _ => rfl) listening trivial finished
  have same : after.heard = after.retries + after.deadlocks.totals := by
    rw [balanced] at both
    exact add_right_cancel both
  refine ⟨same,⟨fun shown => ?_,fun none => by rw [same,none,add_zero]⟩,fun never => ?_⟩
  · have totals : after.retries = after.heard := congrArg RetrySnapshot.totals shown
    rw [same] at totals
    exact left_eq_add.mp totals
  · have alone : after.heard + s.retries = after.retries + s.heard :=
      heard_add_read callers Gauge.books_tallied (fun meant => absurd meant never) listening trivial finished
    rw [same,balanced,add_assoc,add_comm s.retries] at alone
    exact add_right_cancel (add_left_cancel alone)

def seededPair : Ledger := { store := .seeded [(1, 100),(2, 0)] }

/-- A single coordinated transfer: the listener has heard of it, and the ledger's own totals are as they were. -/
theorem heard_eq_retries_add_deadlocks_seededPair :
    let users : List (Procedure Unit Receipt × Unit) := [(Ledger.deadlockTransfer {} ⟨1,2,10⟩,())]
    let after := ((start seededPair (users.map fun u => u.1.start u.2)).play (List.replicate 40 (.step 0))).ledger
    after.heard = after.retries + after.deadlocks.totals ∧ after.heard = ⟨1,1,0,0⟩ ∧ after.retries = 0 ∧
      after.retries.snapshot ≠ after.heard.snapshot := by
  intro users
  have calls : ∀ u ∈ users, Ledger.Caller {} True u.1 := List.forall_mem_singleton.mpr (.coordinated trivial _)
  have finished : ((start seededPair (users.map fun u => u.1.start u.2)).play
      (List.replicate 40 (.step 0))).Finished users.length := by
    intro i below
    obtain rfl : i = 0 := Nat.lt_one_iff.mp below
    exact Option.isSome_iff_exists.mp (by decide +kernel)
  obtain ⟨same,shown,_⟩ := heard_eq_retries_add_deadlocks (s := seededPair) calls rfl (by decide +kernel) finished
  exact ⟨same,by decide +kernel,by decide +kernel,fun equal => absurd (shown.mp equal) (by decide +kernel)⟩

end Pool

end VersionedLedger
