import VersionedLedger.Proofs.Circuit.Change
import VersionedLedger.Proofs.Circuit.History

/-! How long an opened breaker waits. The wait is counted from the moment at which it was opened, or forced open
again; nothing that is reported meanwhile moves its end, and the first request after it is admitted. -/
namespace VersionedLedger

open Breaker

namespace Breaker

variable {b : Breaker} {now : Time}

theorem openedAt_absorb {o : CallOutcome} (closed : b.state ≠ .opened)
    (opened : (b.absorb o now).1.state = .opened) : (b.absorb o now).1.openedAt = some now := by
  have absorbs := b.absorb_absorbs o now
  generalize (b.absorb o now).1 = b' at absorbs opened
  cases absorbs with
  | tripped | reopened => rfl
  | counted | succeeded | ignored => exact absurd opened closed
  | recovered => cases opened

theorem state_tryAcquire (closed : b.state ≠ .opened) : (b.tryAcquire now).2.1.state = b.state := by
  have kept := (b.tryAcquire_admits now).state_eq.1
  rcases b.looked_cases now with same | ⟨opened,_⟩
  · rwa [same] at kept
  · exact absurd opened closed

end Breaker

namespace Course

variable {c c' : Course} {a : Act} {since : Time}

/-- The breaker is open, and came to be so at this moment. -/
structure Waiting (since : Time) (c : Course) : Prop where
  opened : c.breaker.state = .opened
  openedAt : c.breaker.openedAt = some since

theorem clock_act_le (c : Course) (a : Act) : c.clock ≤ (c.act a).clock := by
  cases a with
  | elapse d => exact Nat.le_add_right _ _
  | record k failed =>
    unfold act
    dsimp only
    split <;> exact Nat.le_refl _
  | _ => exact Nat.le_refl _

theorem clock_run_le (c : Course) (acts : List Act) : c.clock ≤ (c.run acts).clock := by
  induction acts generalizing c with
  | nil => exact Nat.le_refl _
  | cons a acts ih => exact Nat.le_trans (c.clock_act_le a) (ih (c.act a))

theorem waiting_of_enters (enters : c.Enters .opened a) :
    Waiting c.clock (c.act a) ∧ (c.act a).issued = c.issued := by
  obtain ⟨opened,changes⟩ := enters
  cases a with
  | force target =>
    cases opened
    exact ⟨⟨rfl,rfl⟩,rfl⟩
  | reset => cases opened
  | elapse d => exact absurd rfl (changes.resolve_right Bool.false_ne_true)
  | tryAcquire =>
    have changed := changes.resolve_right Bool.false_ne_true
    have closed : c.breaker.state ≠ .opened := fun was => changed (opened.trans was.symm)
    exact absurd (state_tryAcquire closed) changed
  | record k failed =>
    have changed := changes.resolve_right Bool.false_ne_true
    have closed : c.breaker.state ≠ .opened := fun was => changed (opened.trans was.symm)
    rcases c.act_record_cases k failed with ⟨permit,_,_,absorbed⟩ | ⟨_,same⟩
    · rw [absorbed] at opened ⊢
      exact ⟨⟨opened,openedAt_absorb closed opened⟩,rfl⟩
    · rw [same] at opened
      exact absurd opened closed

namespace Waiting

theorem readyToProbe_eq (waiting : Waiting since c) :
    c.breaker.readyToProbe c.clock = decide (since + c.breaker.config.openFor ≤ c.clock) := by
  simp [readyToProbe,waiting.opened,waiting.openedAt]

theorem refused (waiting : Waiting since c) (early : c.clock < since + c.breaker.config.openFor) :
    (c.breaker.tryAcquire c.clock).1 = .error (.circuitOpen c.breaker.name .opened) ∧
      Waiting since (c.act .tryAcquire) ∧ (c.act .tryAcquire).issued = c.issued := by
  have unready : c.breaker.readyToProbe c.clock = false := by
    simpa [waiting.readyToProbe_eq] using early
  have same : c.breaker.looked c.clock = c.breaker := by simp [looked,unready]
  have admits := c.breaker.tryAcquire_admits c.clock
  rw [same] at admits
  unfold act
  dsimp only
  generalize (c.breaker.tryAcquire c.clock).1 = answer at admits ⊢
  generalize (c.breaker.tryAcquire c.clock).2.1 = b at admits ⊢
  cases admits with
  | waiting opened =>
    refine ⟨?_,⟨opened,waiting.openedAt⟩,List.append_nil _⟩
    rw [opened]
  | closed other | probe other | full other => cases waiting.opened.symm.trans other

theorem admitted (waiting : Waiting since c) (due : since + c.breaker.config.openFor ≤ c.clock)
    (positive : 1 ≤ c.breaker.config.permittedProbes) :
    ∃ permit, (c.breaker.tryAcquire c.clock).1 = .ok permit ∧
      (c.act .tryAcquire).breaker.state = .halfOpen ∧
      (c.act .tryAcquire).issued = c.issued ++ [permit] := by
  have ready : c.breaker.readyToProbe c.clock = true := by simpa [waiting.readyToProbe_eq] using due
  have moved : c.breaker.looked c.clock = (c.breaker.transition .halfOpen c.clock).1 := by
    simp [looked,ready]
  have admits := c.breaker.tryAcquire_admits c.clock
  rw [moved] at admits
  unfold act
  dsimp only
  generalize (c.breaker.tryAcquire c.clock).1 = answer at admits ⊢
  generalize (c.breaker.tryAcquire c.clock).2.1 = b at admits ⊢
  cases admits with
  | probe halfOpen room => exact ⟨_,rfl,halfOpen,rfl⟩
  | full _ taken => exact absurd positive (Nat.not_le_of_lt (Nat.lt_succ_of_le taken))
  | closed other | waiting other => cases other

theorem act (waiting : Waiting since c) (unforced : a.isForced = false)
    (early : a = .tryAcquire → c.clock < since + c.breaker.config.openFor) :
    Waiting since (c.act a) ∧ (c.act a).issued = c.issued := by
  cases a with
  | force | reset => cases unforced
  | tryAcquire => exact (waiting.refused (early rfl)).2
  | record k failed =>
    rw [act_record_of_opened waiting.opened]
    exact ⟨waiting,rfl⟩
  | elapse d => exact ⟨⟨waiting.opened,waiting.openedAt⟩,rfl⟩

theorem run (waiting : Waiting since c) {acts : List Act} (unforced : ∀ a ∈ acts, a.isForced = false)
    (early : ∀ n, acts[n]? = some .tryAcquire →
      (c.run (acts.take n)).clock < since + c.breaker.config.openFor) :
    Waiting since (c.run acts) ∧ (c.run acts).issued = c.issued := by
  induction acts generalizing c with
  | nil => exact ⟨waiting,rfl⟩
  | cons a acts ih =>
    have first : a = .tryAcquire → c.clock < since + c.breaker.config.openFor :=
      fun asks => early 0 (congrArg some asks)
    obtain ⟨still,same⟩ := waiting.act (unforced a List.mem_cons_self) first
    have rest := ih still (fun a member => unforced a (List.mem_cons_of_mem _ member)) (fun n asks => by
      rw [config_act]
      exact early (n + 1) asks)
    exact ⟨rest.1,rest.2.trans same⟩

end Waiting

/-- From the moment at which it comes to be open, be it anew, a breaker that is not forced issues no permit until
its wait is over, whatever is reported on earlier calls, and then admits the first request as a probe. -/
theorem opened_until_deadline (name : String) (clock : Time) {config : CircuitConfig}
    (valid : config.validate = .ok ()) (acts : List Act) (reached : (start name config clock).run acts = c)
    (opens : c.Enters .opened a) (more : List Act) (unforced : ∀ b ∈ more, b.isForced = false)
    (later : (c.act a).run more = c') :
    (c'.clock < c.clock + config.openFor → c'.breaker.state = .opened ∧ c'.issued = c.issued) ∧
    ((∀ n, more[n]? = some .tryAcquire →
        ((c.act a).run (more.take n)).clock < c.clock + config.openFor) →
      c'.breaker.state = .opened ∧ c'.issued = c.issued ∧
      (∀ k failed, c'.act (.record k failed) = c') ∧
      (c'.clock < c.clock + config.openFor →
        (c'.breaker.tryAcquire c'.clock).1 = .error (.circuitOpen c'.breaker.name .opened)) ∧
      (c.clock + config.openFor ≤ c'.clock → ∃ permit,
        (c'.breaker.tryAcquire c'.clock).1 = .ok permit ∧
        (c'.act .tryAcquire).breaker.state = .halfOpen ∧
        (c'.act .tryAcquire).issued = c'.issued ++ [permit])) := by
  have configured : c.breaker.config = config := by
    rw [← reached,config_run]
    rfl
  obtain ⟨waiting,same⟩ := waiting_of_enters opens
  have waits : (c.act a).breaker.config.openFor = config.openFor := by rw [config_act,configured]
  have configured' : c'.breaker.config = config := by rw [← later,config_run,config_act,configured]
  have unasked (early : ∀ n, more[n]? = some .tryAcquire →
      ((c.act a).run (more.take n)).clock < c.clock + config.openFor) :
      Waiting c.clock c' ∧ c'.issued = c.issued := by
    rw [← waits] at early
    have ended := waiting.run unforced early
    rw [later] at ended
    exact ⟨ended.1,ended.2.trans same⟩
  refine ⟨fun before => ?_,fun early => ?_⟩
  · -- the clock does not go back, so all requests so far came before the deadline
    have ended := unasked fun n asks => by
      have passed := ((c.act a).run (more.take n)).clock_run_le (more.drop n)
      rw [← run_append,List.take_append_drop,later] at passed
      exact Nat.lt_of_le_of_lt passed before
    exact ⟨ended.1.opened,ended.2⟩
  · obtain ⟨still,unissued⟩ := unasked early
    refine ⟨still.opened,unissued,act_record_of_opened still.opened,fun before => ?_,fun due => ?_⟩
    · rw [← configured'] at before
      exact (still.refused before).1
    · rw [← configured'] at due
      have positive := (CircuitConfig.bounds_of_validate valid).2.2
      rw [← configured'] at positive
      exact still.admitted due positive

/-- A report that opens the breaker, a late one, a request a millisecond too early, and one in time. -/
theorem opened_until_deadline_fiveCalls :
    let opened := ((start "transfer" {} 0).run fiveCalls).act (.record 4 true)
    let late := opened.run [.elapse (.ofMillis 9999),.record 1 true]
    let due := opened.run [.elapse (.ofMillis 9999),.record 1 true,.tryAcquire,.elapse (.ofMillis 1)]
    (late.breaker.tryAcquire late.clock).1 = .error (.circuitOpen late.breaker.name .opened) ∧
    ∃ permit, (due.breaker.tryAcquire due.clock).1 = .ok permit := by
  have opens : ((start "transfer" {} 0).run fiveCalls).Enters .opened (.record 4 true) := by decide +kernel
  have valid : CircuitConfig.validate {} = .ok () := rfl
  refine ⟨?_,?_⟩
  · obtain ⟨_,waits⟩ := opened_until_deadline "transfer" 0 valid fiveCalls rfl opens
      [.elapse (.ofMillis 9999),.record 1 true] (by simp [Act.isForced]) rfl
    have unasked : Act.tryAcquire ∉ [Act.elapse (.ofMillis 9999),.record 1 true] := by simp
    obtain ⟨_,_,_,refused,_⟩ := waits fun n asks => absurd (List.mem_of_getElem? asks) unasked
    exact refused (by decide +kernel)
  · obtain ⟨_,waits⟩ := opened_until_deadline "transfer" 0 valid fiveCalls rfl opens
      [.elapse (.ofMillis 9999),.record 1 true,.tryAcquire,.elapse (.ofMillis 1)] (by simp [Act.isForced]) rfl
    obtain ⟨_,_,_,_,admitted⟩ := waits fun n asks => by
      have third : n = 2 := by
        rcases n with _ | _ | _ | _ | n <;> simp at asks ⊢
      subst third
      decide +kernel
    obtain ⟨permit,answer,_⟩ := admitted (by decide +kernel)
    exact ⟨permit,answer⟩

end Course

end VersionedLedger
