import VersionedLedger.Proofs.Program.Calls
import VersionedLedger.Proofs.Serial.Alone

/-! Programs that have a ledger to themselves and take their time. Before each call any time may pass, so that a call of
a circuit may be slow and its wait may end between any two of them. Work on the store does not look at the clock: it
ends as it does without a pause, only later. -/
namespace VersionedLedger

variable {α : Type}

/-- A ledger, and how long it is left alone before the first call that is made, before the second one, and so on. -/
structure Timed where
  ledger : Ledger
  pace : Nat → Duration

namespace Timed

def answer (c : Call) (s : Timed) : c.Reply × Timed :=
  let (reply, ledger) := (s.ledger.elapse (s.pace 0)).answer c
  (reply, ⟨ledger, fun n => s.pace (n + 1)⟩)

def run (s : Timed) (p : Program α) : α × Timed := p.runWith answer s

theorem run_prompt (s : Ledger) (p : Program α) :
    run ⟨s, fun _ => 0⟩ p = ((s.run p).1, ⟨(s.run p).2, fun _ => 0⟩) := by
  induction p generalizing s with
  | done a => rfl
  | call c next ih => exact ih (s.answer c).1 (s.answer c).2

theorem run_bind_ok {σ β : Type} {p : Procedure σ α} {a : α} {own : σ} {s : Timed} (f : α → Procedure σ β)
    (answered : (s.run (p.start own)).1.1 = .ok a) :
    s.run ((p >>= f).start own) = (s.run (p.start own)).2.run ((f a).start (s.run (p.start own)).1.2) := by
  unfold run at answered ⊢
  rw [Procedure.start_bind,Program.runWith_bind]
  generalize (p.start own).runWith answer s = first at answered ⊢
  obtain ⟨⟨given,own⟩,s⟩ := first
  cases answered
  rfl

end Timed

/-- A call may be made at any later time. -/
def Rule.paced : Rule Ledger := fun c promise s => ∀ d, Rule.alone c promise (s.elapse d)

theorem Rule.paced_monotone : Rule.paced.Monotone :=
  fun c strong weak _ implies obeys d => Rule.alone_monotone c strong weak _ implies (obeys d)

theorem Program.obeys_paced (goal : α → Ledger → Prop) (p : Program α) (s : Ledger) :
    p.Obeys Rule.paced goal s ↔ ∀ pace, goal (Timed.run ⟨s, pace⟩ p).1 (Timed.run ⟨s, pace⟩ p).2.ledger := by
  induction p generalizing s with
  | done a => exact ⟨fun ends _ => ends,fun ends => ends fun _ => 0⟩
  | call c next ih =>
    refine ⟨fun obeys pace => ?_,fun ends d => (ih _ _).mpr fun pace => ?_⟩
    · exact (ih _ _).mp (obeys (pace 0)) fun n => pace (n + 1)
    · exact ends fun n => n.casesOn d pace

theorem Procedure.run_of_paced {σ : Type} {goal : Outcome α → σ → Ledger → Prop} {p : Procedure σ α} {own : σ}
    {s : Timed} (obeys : p.Obeys Rule.paced goal own s.ledger) :
    goal (s.run (p.start own)).1.1 (s.run (p.start own)).1.2 (s.run (p.start own)).2.ledger := by
  let ends (r : Outcome α × σ) : Ledger → Prop := goal r.1 r.2
  exact (Program.obeys_paced ends (p.start own) s.ledger).mp obeys s.pace

namespace Ledger

variable (s : Ledger) (d : Duration)

theorem elapse_elapse (d' : Duration) : (s.elapse d).elapse d' = (s.elapse d').elapse d := by
  unfold elapse
  rw [Nat.add_right_comm]

theorem draw_elapse : (s.elapse d).draw = (s.draw.1, s.draw.2.elapse d) := by
  have drawn : (s.elapse d).draw = (s.draw.1, { s.elapse d with seed := s.draw.2.seed }) := draw_of_seed rfl
  obtain ⟨n,draws⟩ := s.exists_draw_eq
  rw [drawn,draws]
  rfl

theorem checkFault_elapse (operation : String) : (s.elapse d).checkFault operation =
    ((s.checkFault operation).1, (s.checkFault operation).2.elapse d) := by
  obtain ⟨n,drawn⟩ := (s.elapse s.store.faults.latency).exists_draw_eq
  have drawn_later : ((s.elapse d).elapse (s.elapse d).store.faults.latency).draw =
      (n >>> 11, ({ s.elapse s.store.faults.latency with seed := n } : Ledger).elapse d) := by
    change ((s.elapse d).elapse s.store.faults.latency).draw = _
    rw [elapse_elapse,draw_elapse,drawn]
  unfold checkFault
  rw [drawn,drawn_later]
  rfl

theorem acquire_elapse (owner : TxnId) (id : RecordId) (timeout : Option Duration) (existing : Bool) :
    (s.elapse d).acquire owner id timeout existing =
      ((s.acquire owner id timeout existing).1, (s.acquire owner id timeout existing).2.elapse d) := by
  have asked : (s.elapse d).requestLock owner id true =
      ((s.requestLock owner id true).1, (s.requestLock owner id true).2.elapse d) := rfl
  unfold acquire
  rw [asked]
  change (if (existing && !s.store.contains id) = true then _ else _) = _
  split
  · rfl
  · generalize s.requestLock owner id true = result
    obtain ⟨round,left⟩ := result
    cases round with
    | waiting =>
      let bound := left.lockBound timeout
      have later := left.elapse_elapse d bound
      change (_, ((left.elapse d).elapse bound).onLocks _) = (_, ((left.elapse bound).onLocks _).elapse d)
      rw [later]
      rfl
    | _ => rfl

theorem answer_elapse {c : Call} (ofStore : c.ofStore = true) :
    (s.elapse d).answer c = ((s.answer c).1, (s.answer c).2.elapse d) := by
  cases c with
  | checkFault operation => exact s.checkFault_elapse d operation
  | acquire owner id timeout existing => exact s.acquire_elapse d owner id timeout existing
  | sleep rest watched =>
    cases watched with
    | true => cases ofStore
    | false =>
      change (true, (s.elapse d).elapse rest) = (true, (s.elapse rest).elapse d)
      rw [elapse_elapse]
  | lookup | begin | release | releaseAll | install | apply | countAbort => rfl
  | _ => cases ofStore

end Ledger

def Lasting (goal : α → Ledger → Prop) : Prop := ∀ a s d, goal a s → goal a (s.elapse d)

namespace Program.Obeys

variable {goal : α → Ledger → Prop} {p : Program α} {s : Ledger}

theorem elapse (lasting : Lasting goal) (only : p.Only Call.ofStore) (obeys : p.Obeys Rule.alone goal s) (d : Duration) :
    p.Obeys Rule.alone goal (s.elapse d) := by
  induction p generalizing s with
  | done a => exact lasting a s d obeys
  | call c next ih =>
    obtain ⟨ofStore,rest⟩ := only
    have onward := ih (s.answer c).1 (rest _) obeys
    refine Rule.alone_of_reply (congrArg Prod.fst (s.answer_elapse d ofStore)) ?_
    rwa [s.answer_elapse d ofStore]

/-- Work on the store may take its time. -/
theorem paced (lasting : Lasting goal) (only : p.Only Call.ofStore) (obeys : p.Obeys Rule.alone goal s) :
    p.Obeys Rule.paced goal s := by
  induction p generalizing s with
  | done a => exact obeys
  | call c next ih => exact fun d => ih _ (only.2 _) (obeys.elapse lasting only d)

end Program.Obeys

end VersionedLedger
