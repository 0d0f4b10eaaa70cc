import VersionedLedger.Retry.Policy
import VersionedLedger.Proofs.Program.Obeys

/-! Retry loops by their attempts. A loop makes calls of its own only for the clock, for random numbers and
for its reports; so what holds after its last attempt holds after the loop. -/
namespace VersionedLedger

open Procedure

variable {G σ α : Type}

/-- Calls that touch neither records nor locks: time, chance, reports and counts. -/
def Call.aside : Call → Bool
  | now | draw | isCancelled | sleep .. | report _ | tally _ | countDeadlock _ => true
  | _ => false

namespace RetryPolicy

variable (p : RetryPolicy) {s : σ}

theorem aside_report (e : Event) : (p.report e).Obeys (Rule.only Call.aside)
    (fun answer _ _ => answer = .ok ()) s () := by
  unfold report
  rw [obeys_ite]
  split
  · exact ⟨rfl,fun _ => rfl⟩
  · rfl

theorem aside_close (progress : RetryProgress) (succeeded fallbackUsed : Bool) :
    (p.close progress succeeded fallbackUsed).Obeys (Rule.only Call.aside)
      (fun answer _ _ => answer = .ok ()) s () := by
  unfold close
  rw [obeys_bind]
  refine (p.aside_report _).mono (Rule.only_monotone _) ?_
  intro answer s _ same
  subst same
  dsimp only
  rw [obeys_ite]
  split
  · exact ⟨rfl,fun _ => rfl⟩
  · rfl

theorem aside_succeed (progress : RetryProgress) (fallbackUsed : Bool) (value : α) :
    (p.succeed progress fallbackUsed value).Obeys (Rule.only Call.aside)
      (fun answer _ _ => ∃ o, answer = .ok (.ok o) ∧ o.value = value ∧ o.attempts = progress.attempts) s () := by
  unfold succeed
  rw [obeys_bind]
  refine (p.aside_close progress true fallbackUsed).mono (Rule.only_monotone _) ?_
  intro answer s _ same
  subst same
  exact ⟨rfl,fun now => ⟨_,rfl,rfl,rfl⟩⟩

theorem aside_giveUp (progress : RetryProgress) (e : RetryError) (fallbackUsed : Bool) :
    (p.giveUp progress e fallbackUsed : Procedure σ (Except RetryError (RetryOutcome α))).Obeys
      (Rule.only Call.aside) (fun answer _ _ => answer = .ok (.error e)) s () := by
  unfold giveUp
  rw [obeys_bind]
  refine (p.aside_close progress false fallbackUsed).mono (Rule.only_monotone _) ?_
  intro answer s _ same
  subst same
  rfl

theorem aside_pause (o : RetryOptions σ α) (delay : Duration) :
    (pause o delay).Obeys (Rule.only Call.aside) (fun answer _ _ => ∃ b, answer = .ok b) s () := by
  simp only [pause,obeys_bind,obeys_perform]
  refine ⟨rfl,fun cancelled => ?_⟩
  dsimp only
  rw [obeys_ite]
  split
  · exact ⟨_,rfl⟩
  · exact ⟨rfl,fun completed => ⟨_,rfl⟩⟩

theorem obeys_nextDelay {rule : Rule G} {goal : Duration → G → Prop} {g : G} (c : RetryConfig) (n : Nat) :
    (nextDelay c n).Obeys rule goal g ↔ rule .draw (fun r => goal (Backoff.delay c n r)) g := Iff.rfl

def Told (failed : Failure → G → Prop) (after : α → G → Prop) : Outcome α → G → Prop
  | .ok a, g => after a g
  | .error f, g => failed f g

/-- A loop tells of the error that ended it for good, and of a crash; all others were followed by an attempt. -/
def Tells (before : G → Prop) (failed : Failure → G → Prop) (after : α → G → Prop) :
    Outcome (Except RetryError (RetryOutcome α)) → G → Prop
  | .ok (.ok o), g => after o.value g
  | .ok (.error (.fatal _ e)), g => failed (.error e) g
  | .ok (.error (.exhausted ..)), g | .ok (.error (.cancelled ..)), g => before g
  | .error f, g => ∃ c, f = .crash c ∧ failed f g

section

variable {rule : Rule G} {o : RetryOptions σ α} {operation : Procedure σ α} {before : G → Prop}
  {after : α → G → Prop} {g : G}

theorem obeys_succeed (monotone : rule.Monotone) (keeps : ∀ a, rule.Keeps Call.aside (after a))
    (progress : RetryProgress) (value : α) (start : after value g) :
    (do p.reportAttempt progress .success; p.succeed progress false value : Procedure σ _).Obeys rule
      (fun answer _ g => ∃ r, answer = .ok (.ok r) ∧ r.attempts = progress.attempts ∧ after r.value g) s g := by
  rw [obeys_bind]
  refine (Obeys.of_only (keeps value) (p.aside_report _) start).mono monotone ?_
  intro answer s g ended
  obtain ⟨rfl,known⟩ := ended
  refine (Obeys.of_only (keeps value) (p.aside_succeed progress false value) known).mono monotone ?_
  intro answer s g ended
  obtain ⟨⟨r,rfl,rfl,attempts⟩,known⟩ := ended
  exact ⟨r,rfl,attempts,known⟩

theorem obeys_giveUp {goal : Outcome (Except RetryError (RetryOutcome α)) → G → Prop} {known : G → Prop}
    (monotone : rule.Monotone) (keeps : rule.Keeps Call.aside known) (progress : RetryProgress) (e : RetryError)
    (fallbackUsed : Bool) (ends : ∀ g, known g → goal (.ok (.error e)) g) (start : known g) :
    (p.giveUp progress e fallbackUsed).Obeys rule (fun answer (_ : σ) => goal answer) s g := by
  refine (Obeys.of_only keeps (p.aside_giveUp progress e fallbackUsed) start).mono monotone ?_
  intro answer s g ended
  obtain ⟨rfl,known⟩ := ended
  exact ends g known

theorem obeys_loop_once {ends : Except Error α → G → Prop} (monotone : rule.Monotone)
    (keeps_before : rule.Keeps Call.aside before) (keeps_ends : ∀ given, rule.Keeps Call.aside (ends given))
    (unwatched : o.watched = false)
    (attempt : ∀ s g, before g → operation.Obeys rule (fun answer _ g => ∃ given : Except Error α,
      answer = .ofError given ∧ (∀ e, given = .error e → o.classify e = .fatal) ∧ ends given g) s g)
    (left : Nat) (progress : RetryProgress) (start : before g) :
    (p.loop o operation left progress).Obeys rule (fun answer _ g =>
      (∃ r, answer = .ok (.ok r) ∧ ends (.ok r.value) g) ∨
        ∃ n e, answer = .ok (.error (.fatal n e)) ∧ ends (.error e) g) s g := by
  unfold loop
  rw [obeys_bind,obeys_perform]
  refine keeps_before _ rfl _ g start fun cancelled g known => ?_
  dsimp only
  rw [obeys_ite,unwatched,Bool.false_and,if_neg Bool.false_ne_true,obeys_bind,obeys_outcome]
  refine (attempt s g known).mono monotone fun answer s g ended => ?_
  obtain ⟨given,rfl,fatal,ended⟩ := ended
  cases given with
  | error e =>
    dsimp only [Outcome.ofError]
    rw [fatal e rfl,obeys_bind]
    refine (Obeys.of_only (keeps_ends _) (p.aside_report _) ended).mono monotone fun answer s g ended => ?_
    obtain ⟨rfl,known⟩ := ended
    exact p.obeys_giveUp monotone (keeps_ends _) _ _ false (fun g known => .inr ⟨_,e,rfl,known⟩) known
  | ok value =>
    refine (p.obeys_succeed monotone (fun a => keeps_ends (.ok a)) _ value ended).mono monotone ?_
    intro answer s g ended
    obtain ⟨r,same,_,ended⟩ := ended
    exact .inl ⟨r,same,ended⟩

theorem obeys_loop_last {ends : Except Error α → G → Prop} (monotone : rule.Monotone)
    (keeps_before : rule.Keeps Call.aside before) (keeps_ends : ∀ given, rule.Keeps Call.aside (ends given))
    (unwatched : o.watched = false) (alone : o.fallback = none)
    (attempt : ∀ s g, before g → operation.Obeys rule (fun answer _ g => ∃ given : Except Error α,
      answer = .ofError given ∧ ends given g) s g)
    (progress : RetryProgress) (start : before g) :
    (p.loop o operation 0 progress).Obeys rule (fun answer _ g =>
      (∃ r, answer = .ok (.ok r) ∧ ends (.ok r.value) g) ∨
        ∃ e last, answer = .ok (.error last) ∧ ends (.error e) g ∧
          (last = .fatal (progress.attempts + 1) e ∨ last = .exhausted (progress.attempts + 1) false e)) s g := by
  unfold loop
  rw [obeys_bind,obeys_perform]
  refine keeps_before _ rfl _ g start fun cancelled g known => ?_
  dsimp only
  rw [obeys_ite,unwatched,Bool.false_and,if_neg Bool.false_ne_true,obeys_bind,obeys_outcome]
  refine (attempt s g known).mono monotone fun answer s g ended => ?_
  obtain ⟨given,rfl,ended⟩ := ended
  cases given with
  | error e =>
    dsimp only [Outcome.ofError]
    split
    · rw [obeys_bind]
      refine (Obeys.of_only (keeps_ends _) (p.aside_report _) ended).mono monotone fun answer s g ended => ?_
      obtain ⟨rfl,known⟩ := ended
      exact p.obeys_giveUp monotone (keeps_ends _) _ _ false (fun g known => .inr ⟨e,_,rfl,known,.inl rfl⟩) known
    · rw [obeys_bind]
      refine (Obeys.of_only (keeps_ends _) (p.aside_report _) ended).mono monotone fun answer s g ended => ?_
      obtain ⟨rfl,known⟩ := ended
      dsimp only
      rw [exhaust,alone]
      exact p.obeys_giveUp monotone (keeps_ends _) _ _ false (fun g known => .inr ⟨e,_,rfl,known,.inr rfl⟩) known
  | ok value =>
    refine (p.obeys_succeed monotone (fun a => keeps_ends (.ok a)) _ value ended).mono monotone ?_
    intro answer s g ended
    obtain ⟨r,same,_,ended⟩ := ended
    exact .inl ⟨r,same,ended⟩

theorem obeys_loop_succeeds (monotone : rule.Monotone) (keeps_before : rule.Keeps Call.aside before)
    (keeps_after : ∀ a, rule.Keeps Call.aside (after a)) (unwatched : o.watched = false)
    (attempt : ∀ s g, before g →
      operation.Obeys rule (fun answer _ g => ∃ a, answer = .ok a ∧ after a g) s g)
    (left : Nat) (progress : RetryProgress) (start : before g) :
    (p.loop o operation left progress).Obeys rule
      (fun answer _ g => ∃ r, answer = .ok (.ok r) ∧ after r.value g) s g := by
  let ends (given : Except Error α) (g : G) : Prop := ∃ a, given = .ok a ∧ after a g
  have keeps_ends (given : Except Error α) : rule.Keeps Call.aside (ends given) := by
    intro c aside promise g known replied
    obtain ⟨a,rfl,known⟩ := known
    exact keeps_after a c aside promise g known fun r g known => replied r g ⟨a,rfl,known⟩
  refine (p.obeys_loop_once monotone keeps_before keeps_ends unwatched (fun s g known => ?_) left progress start).mono
    monotone fun answer s g ended => ?_
  · refine (attempt s g known).mono monotone fun answer s g ended => ?_
    obtain ⟨a,rfl,ended⟩ := ended
    refine ⟨.ok a,rfl,fun e failed => ?_,a,rfl,ended⟩
    cases failed
  · obtain ⟨r,rfl,_,⟨⟩,ended⟩ | ⟨n,e,_,_,⟨⟩,_⟩ := ended
    exact ⟨r,rfl,ended⟩

/-- What holds after the last attempt holds after the loop. An error that is tried again must leave behind what
the next attempt starts from. -/
theorem obeys_loop {failed : Failure → G → Prop} (monotone : rule.Monotone)
    (keeps_before : rule.Keeps Call.aside before) (keeps_failed : ∀ f, rule.Keeps Call.aside (failed f))
    (keeps_after : ∀ a, rule.Keeps Call.aside (after a)) (alone : o.fallback = none)
    (again : ∀ e g, o.classify e = .retryable → failed (.error e) g → before g)
    (attempt : ∀ s g, before g → operation.Obeys rule (fun answer _ => Told failed after answer) s g)
    (left : Nat) (progress : RetryProgress) (start : before g) :
    (p.loop o operation left progress).Obeys rule (fun answer _ => Tells before failed after answer) s g := by
  induction left using Nat.strongRecOn generalizing progress s g with
  | ind left ih =>
    unfold loop
    rw [obeys_bind,obeys_perform]
    refine keeps_before _ rfl _ g start fun cancelled g known => ?_
    dsimp only
    rw [obeys_ite]
    split
    · exact p.obeys_giveUp monotone keeps_before progress _ false (fun _ known => known) known
    · rw [obeys_bind,obeys_outcome]
      refine (attempt s g known).mono monotone fun answer s g ended => ?_
      rcases answer with (e | c) | value
      · dsimp only
        split
        · rw [obeys_bind]
          refine (Obeys.of_only (keeps_failed _) (p.aside_report _) ended).mono monotone ?_
          intro answer s g ended
          obtain ⟨rfl,known⟩ := ended
          exact p.obeys_giveUp monotone (keeps_failed _) _ _ false (fun _ known => known) known
        · next retryable =>
          rw [obeys_bind]
          refine (Obeys.of_only keeps_before (p.aside_report _) (again e g retryable ended)).mono monotone ?_
          intro answer s g ended
          obtain ⟨rfl,known⟩ := ended
          dsimp only
          cases left with
          | zero =>
            dsimp only
            rw [exhaust,alone]
            exact p.obeys_giveUp monotone keeps_before _ _ false (fun _ known => known) known
          | succ left =>
            rw [obeys_bind,obeys_lift,obeys_nextDelay]
            refine keeps_before _ rfl _ g known fun number g known => ?_
            dsimp only
            rw [obeys_bind]
            refine (Obeys.of_only keeps_before (aside_pause o _) known).mono monotone ?_
            intro answer s g ended
            obtain ⟨⟨resumes,rfl⟩,known⟩ := ended
            dsimp only
            rw [obeys_ite]
            split
            · exact ih left (Nat.lt_succ_self left) _ known
            · exact p.obeys_giveUp monotone keeps_before _ _ false (fun _ known => known) known
      · exact ⟨c,rfl,ended⟩
      · refine (p.obeys_succeed monotone keeps_after _ value ended).mono monotone ?_
        intro answer s g ended
        obtain ⟨r,rfl,_,ended⟩ := ended
        exact ended

theorem obeys_pause {known : G → Prop} (keeps : rule.Keeps Call.aside known)
    (sleeps : ∀ d (promise : Bool → G → Prop) g, known g → (∀ g, known g → promise true g) →
      rule (.sleep d false) promise g)
    (unwatched : o.watched = false) (delay : Duration) (start : known g) :
    (pause o delay).Obeys rule (fun answer _ g => answer = .ok true ∧ known g) s g := by
  simp only [pause,obeys_bind,obeys_perform]
  refine keeps _ rfl _ g start fun cancelled g start => ?_
  rw [obeys_ite,unwatched,Bool.false_and,if_neg Bool.false_ne_true,obeys_perform]
  exact sleeps _ _ g start fun g known => ⟨rfl,known⟩

/-- Attempts that fail in the same way until one succeeds: the loop reaches that one, or it runs out before. -/
theorem obeys_loop_until {known : Nat → G → Prop} {k : Nat} {e : Error} (monotone : rule.Monotone)
    (keeps_known : ∀ i, rule.Keeps Call.aside (known i)) (keeps_after : ∀ a, rule.Keeps Call.aside (after a))
    (sleeps : ∀ i d (promise : Bool → G → Prop) g, known i g → (∀ g, known i g → promise true g) →
      rule (.sleep d false) promise g)
    (unwatched : o.watched = false) (alone : o.fallback = none) (again : o.classify e = .retryable)
    (fails : ∀ i < k, ∀ s g, known i g →
      operation.Obeys rule (fun answer _ g => answer = .error (.error e) ∧ known (i + 1) g) s g)
    (left : Nat) (progress : RetryProgress) (succeeds : k ≤ progress.attempts + left → ∀ s g, known k g →
      operation.Obeys rule (fun answer _ g => ∃ a, answer = .ok a ∧ after a g) s g)
    (early : progress.attempts ≤ k) (start : known progress.attempts g) :
    (p.loop o operation left progress).Obeys rule (fun answer _ g =>
      (k ≤ progress.attempts + left → ∃ r, answer = .ok (.ok r) ∧ r.attempts = k + 1 ∧ after r.value g) ∧
      (progress.attempts + left < k →
        answer = .ok (.error (.exhausted (progress.attempts + left + 1) false e)) ∧
          known (progress.attempts + left + 1) g)) s g := by
  induction left using Nat.strongRecOn generalizing progress s g with
  | ind left ih =>
    unfold loop
    rw [obeys_bind,obeys_perform]
    refine keeps_known _ _ rfl _ g start fun cancelled g start => ?_
    dsimp only
    rw [obeys_ite,unwatched,Bool.false_and,if_neg Bool.false_ne_true,obeys_bind,obeys_outcome]
    rcases Nat.lt_or_eq_of_le early with before | last
    · refine (fails _ before s g start).mono monotone fun answer s g ended => ?_
      obtain ⟨rfl,next⟩ := ended
      dsimp only
      rw [again]
      dsimp only
      rw [obeys_bind]
      refine (Obeys.of_only (keeps_known _) (p.aside_report _) next).mono monotone fun answer s g ended => ?_
      obtain ⟨rfl,next⟩ := ended
      dsimp only
      cases left with
      | zero =>
        dsimp only
        rw [exhaust,alone]
        refine p.obeys_giveUp monotone (keeps_known _) _ _ false (fun g next => ⟨fun late => ?_,fun _ => ⟨rfl,next⟩⟩) next
        exact absurd late (Nat.not_le_of_lt before)
      | succ left =>
        rw [obeys_bind,obeys_lift,obeys_nextDelay]
        refine keeps_known _ _ rfl _ g next fun number g next => ?_
        dsimp only
        rw [obeys_bind]
        refine (obeys_pause (keeps_known _) (sleeps _) unwatched _ next).mono monotone fun answer s g ended => ?_
        obtain ⟨rfl,next⟩ := ended
        dsimp only
        rw [obeys_ite,if_pos rfl]
        have same : progress.attempts + 1 + left = progress.attempts + (left + 1) := by omega
        have later (reached : k ≤ progress.attempts + 1 + left) := succeeds (same ▸ reached)
        refine Obeys.mono monotone (ih left (Nat.lt_succ_self left) _ later before next) fun answer s g ended => ?_
        rw [same] at ended
        exact ended
    · rw [last] at start
      refine (succeeds (last ▸ Nat.le_add_right _ _) s g start).mono monotone fun answer s g ended => ?_
      obtain ⟨value,rfl,ended⟩ := ended
      refine (p.obeys_succeed monotone keeps_after _ value ended).mono monotone fun answer s g ended => ?_
      obtain ⟨r,rfl,attempts,ended⟩ := ended
      refine ⟨fun _ => ⟨r,rfl,by rw [attempts,last],ended⟩,fun short => ?_⟩
      omega

end

end RetryPolicy

end VersionedLedger
