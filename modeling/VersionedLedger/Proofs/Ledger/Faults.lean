import VersionedLedger.Proofs.Serial.Alone

/-! Faults are seen by their checks alone: all other calls are answered as if there were none. At rate zero the
checks find the scripted outcomes one after the other, then the failures that are due, then no more. -/
namespace VersionedLedger

open Procedure

def Call.checks : Call → Bool
  | checkFault _ | setFaults _ => true
  | _ => false

namespace Ledger

def withFaults (s : Ledger) (faults : Faults) : Ledger := { s with store := { s.store with faults } }

variable {s : Ledger} {c : Call}

theorem acquire_withFaults (owner : TxnId) (id : RecordId) (timeout : Option Duration) (existing : Bool)
    (f : Faults) : (s.withFaults f).acquire owner id timeout existing =
      ((s.acquire owner id timeout existing).1, (s.acquire owner id timeout existing).2.withFaults f) := by
  have asked : (s.withFaults f).requestLock owner id true =
      ((s.requestLock owner id true).1, (s.requestLock owner id true).2.withFaults f) := rfl
  unfold acquire
  rw [asked]
  change (if (existing && !s.store.contains id) = true then _ else _) = _
  split
  · rfl
  · generalize s.requestLock owner id true = result
    obtain ⟨round,left⟩ := result
    cases round <;> rfl

theorem report_withFaults (events : List Event) (f : Faults) :
    (s.withFaults f).report events = (s.report events).withFaults f := by
  unfold report
  change (if s.listening = true then _ else _) = _
  split <;> rfl

theorem onBreaker_withFaults {α : Type} (h : CircuitHandle) (act : Breaker → Time → α × Breaker × List Event)
    (f : Faults) :
    (s.withFaults f).onBreaker h act = ((s.onBreaker h act).1, (s.onBreaker h act).2.withFaults f) := by
  let moved := act ((s.elapse 1).circuits.breaker h) (s.elapse 1).clock
  let after : Ledger := { s.elapse 1 with circuits := (s.elapse 1).circuits.set h moved.2.1 }
  refine Prod.ext rfl ?_
  change (if after.circuits.observed then (after.withFaults f).report moved.2.2 else after.withFaults f) =
    (if after.circuits.observed then after.report moved.2.2 else after).withFaults f
  split
  · exact report_withFaults moved.2.2 f
  · rfl

theorem install_withFaults (id : RecordId) (expected : Version) (balance : Amount) (f : Faults) :
    (s.withFaults f).onStore (·.install id expected balance) =
      ((s.onStore (·.install id expected balance)).1, (s.onStore (·.install id expected balance)).2.withFaults f) := by
  have installed : (s.withFaults f).store.install id expected balance =
      ((s.store.install id expected balance).1, { (s.store.install id expected balance).2 with faults := f }) := by
    have records : (s.withFaults f).store.records = s.store.records := rfl
    unfold Store.install
    rw [records]
    cases s.store.records[id]? with
    | none => rfl
    | some r =>
      dsimp only
      split
      · rfl
      · split <;> rfl
  dsimp only [onStore]
  rw [installed]
  rfl

theorem apply_withFaults (writes : WriteSet) (f : Faults) :
    (s.withFaults f).onStore (·.apply writes) =
      ((s.onStore (·.apply writes)).1, (s.onStore (·.apply writes)).2.withFaults f) := by
  have same : (s.withFaults f).store.invalid? = s.store.invalid? := by
    funext entries
    induction entries with
    | nil => rfl
    | cons entry rest ih =>
      unfold Store.invalid?
      rw [ih]
      rfl
  have applied : (s.withFaults f).store.apply writes =
      ((s.store.apply writes).1, { (s.store.apply writes).2 with faults := f }) := by
    unfold Store.apply
    rw [same]
    split <;> rfl
  dsimp only [onStore]
  rw [applied]
  rfl

theorem draw_withFaults (f : Faults) : (s.withFaults f).draw = (s.draw.1, s.draw.2.withFaults f) := by
  have drawn : (s.withFaults f).draw = (s.draw.1, { s.withFaults f with seed := s.draw.2.seed }) := draw_of_seed rfl
  obtain ⟨n,draws⟩ := s.exists_draw_eq
  rw [drawn,draws]
  rfl

theorem answer_withFaults (blind : c.checks = false) (f : Faults) :
    (s.withFaults f).answer c = ((s.answer c).1, (s.answer c).2.withFaults f) := by
  cases c with
  | checkFault | setFaults => cases blind
  | acquire owner id timeout existing => exact acquire_withFaults owner id timeout existing f
  | install id expected balance => exact install_withFaults id expected balance f
  | apply writes => exact apply_withFaults writes f
  | admitCall h => exact onBreaker_withFaults (s := s) h Breaker.tryAcquire f
  | recordCall h p failed =>
    exact onBreaker_withFaults (s := s) h (fun b now => ((), b.record p failed now)) f
  | report e => exact congrArg (Prod.mk ()) (report_withFaults [e] f)
  | draw => exact draw_withFaults f
  | _ => rfl

theorem faults_answer (blind : c.checks = false) : (s.answer c).2.store.faults = s.store.faults := by
  have same : s.answer c = ((s.answer c).1, (s.answer c).2.withFaults s.store.faults) :=
    s.answer_withFaults blind s.store.faults
  rw [same]
  rfl

end Ledger

theorem Program.Obeys.withFaults {α : Type} {goal : α → Ledger → Prop} {p : Program α} {s : Ledger} {f : Faults}
    (blind : p.Obeys (Rule.only fun c => !c.checks) (fun _ _ => True) ())
    (obeys : p.Obeys Rule.alone goal (s.withFaults f)) :
    p.Obeys Rule.alone (fun a left => goal a (left.withFaults f) ∧ left.store.faults = s.store.faults) s := by
  induction p generalizing s with
  | done a => exact ⟨obeys,rfl⟩
  | call c next ih =>
    obtain ⟨unseen,rest⟩ := blind
    have unseen : c.checks = false := by simpa using unseen
    change (next ((s.withFaults f).answer c).1).Obeys Rule.alone goal ((s.withFaults f).answer c).2 at obeys
    rw [Ledger.answer_withFaults unseen] at obeys
    have onward := ih (s.answer c).1 (rest _) obeys
    rw [Ledger.faults_answer unseen] at onward
    exact onward

/-- It makes no checks, whatever its calls are replied. -/
def Procedure.Blind {σ α : Type} (p : Procedure σ α) : Prop :=
  ∀ own, p.Obeys (Rule.only fun c => !c.checks) (fun _ _ _ => True) own ()

namespace Procedure

variable {σ α β : Type}

theorem Blind.withFaults {goal : Outcome α → σ → Ledger → Prop} {p : Procedure σ α} {own : σ} {s : Ledger}
    {f : Faults} (blind : p.Blind) (obeys : p.Obeys Rule.alone goal own (s.withFaults f)) :
    p.Obeys Rule.alone
      (fun a own left => goal a own (left.withFaults f) ∧ left.store.faults = s.store.faults) own s :=
  Program.Obeys.withFaults (blind own) obeys

theorem Blind.bind {p : Procedure σ α} {f : α → Procedure σ β} (first : p.Blind) (rest : ∀ a, (f a).Blind) :
    (p >>= f).Blind := by
  intro own
  refine (obeys_bind _ p f).mpr ((first own).mono (Rule.only_monotone _) fun answer own _ _ => ?_)
  cases answer with
  | error e => trivial
  | ok a => exact rest a own

theorem blind_ofError (answer : Except Error α) : (ofError answer : Procedure σ α).Blind := fun _ => trivial

end Procedure

namespace Session

theorem blind_read (id : RecordId) : (read id).Blind := by
  intro t
  simp only [read,ensureActive,obeys_bind,obeys_get,obeys_ofError,obeys_perform]
  cases Outcome.ofError t.ensureActive with
  | error e => trivial
  | ok _ =>
    refine ⟨rfl,fun found => ?_⟩
    cases found <;> trivial

theorem blind_write (id : RecordId) (expected : Version) (balance : Amount) : (write id expected balance).Blind :=
  (blind_read id).bind fun _ _ => trivial

end Session

theorem Transfer.blind_stage (t : Transfer) : t.stage.Blind :=
  (Session.blind_read t.source).bind fun _ => (Session.blind_read t.target).bind fun _ =>
    (blind_ofError _).bind fun _ => (blind_ofError _).bind fun _ =>
      (Session.blind_write t.source _ _).bind fun _ => (Session.blind_write t.target _ _).bind fun _ _ => trivial

theorem Locking.blind_acquireAll (l : Locking) (ids : List RecordId) : (l.acquireAll ids).Blind := by
  intro t
  have keeps (t : Transaction) : (Rule.only fun c => !c.checks).Keeps (Call.gives t.id) fun _ => True := by
    intro c gives promise g _ replied
    refine ⟨?_,fun r => replied r g trivial⟩
    cases c <;> first | rfl | cases gives
  let anything (_ : List RecordId) (_ : Transaction) (_ : Unit) : Prop := True
  have start : anything ids t () := trivial
  refine l.obeys_acquireAll (Rule.only_monotone _) (fun id ids t g _ => ?_) (fun ids t g _ => ⟨rfl,fun _ => trivial⟩)
    (fun t g _ => trivial) start
  refine l.obeys_acquire (Rule.only_monotone _) (keeps t) (fun _ => trivial) (fun _ _ _ _ _ => ?_) fun _ => ?_
  · exact ⟨fun _ _ => trivial,fun _ => trivial⟩
  · exact ⟨rfl,fun r => ⟨fun _ => ⟨fun _ _ => trivial,fun _ => trivial⟩,fun _ => trivial⟩⟩

namespace Faults

/-- The outcomes of the checks to come, true for a failure; after them all checks pass at rate zero. -/
def tape (f : Faults) : List Bool := f.script ++ List.replicate f.failNext true

def fails (f : Faults) (i : Nat) : Bool := f.tape[i]?.getD false

def spend (f : Faults) (n : Nat) : Faults :=
  { f with
    script := f.script.drop n
    failNext := f.failNext - (n - f.script.length)
    injected := f.injected + (f.tape.take n).count true }

variable {f : Faults}

@[simp] theorem spend_zero : f.spend 0 = f := by
  simp [spend]

theorem count_take_succ (f : Faults) (i : Nat) :
    (f.tape.take (i + 1)).count true = (f.tape.take i).count true + (f.fails i).toNat := by
  rw [List.take_add_one,List.count_append,fails]
  cases f.tape[i]? with
  | none => rfl
  | some failed => cases failed <;> rfl

theorem due_spend (never : f.rate = 0) (i number : Nat) :
    (f.spend i).due number = (f.fails i, { f.spend (i + 1) with injected := (f.spend i).injected }) := by
  unfold due fails
  rcases Nat.lt_or_ge i f.script.length with scripted | beyond
  · have first : f.tape[i]? = some f.script[i] := by
      rw [tape,List.getElem?_append_left scripted,List.getElem?_eq_getElem scripted]
    have unused : i + 1 - f.script.length = i - f.script.length := by omega
    have rest : (f.spend i).script = f.script[i] :: f.script.drop (i + 1) := List.drop_eq_getElem_cons scripted
    rw [rest,first]
    simp [spend,unused]
  · have empty : (f.spend i).script = [] := List.drop_eq_nil_of_le beyond
    have empty' : f.script.drop (i + 1) = [] := List.drop_eq_nil_of_le (Nat.le_succ_of_le beyond)
    have counted : f.tape[i]? = if i - f.script.length < f.failNext then some true else none := by
      rw [tape,List.getElem?_append_right beyond,List.getElem?_replicate]
    rw [empty,counted]
    dsimp only
    by_cases owed : i - f.script.length < f.failNext
    · have due : (f.spend i).failNext > 0 := Nat.sub_pos_of_lt owed
      have left : f.failNext - (i - f.script.length) - 1 = f.failNext - (i + 1 - f.script.length) := by omega
      rw [if_pos due]
      simp [spend,owed,empty',left,List.drop_eq_nil_of_le beyond]
    · have paid : ¬ (f.spend i).failNext > 0 := Nat.not_lt.mpr (Nat.sub_eq_zero_of_le (Nat.not_lt.mp owed)).le
      have left : f.failNext - (i - f.script.length) = f.failNext - (i + 1 - f.script.length) := by omega
      rw [if_neg paid]
      simp [spend,owed,empty',left,never,List.drop_eq_nil_of_le beyond]

theorem check_spend (never : f.rate = 0) (i number : Nat) (operation : String) :
    (f.spend i).check number operation =
      (if f.fails i then .error (.unavailable s!"injected fault during {operation}") else .ok (),
        f.spend (i + 1)) := by
  unfold check
  rw [due_spend never]
  have counts := f.count_take_succ i
  cases failed : f.fails i with
  | true =>
    rw [failed] at counts
    simp [spend,counts,Nat.add_assoc]
  | false =>
    rw [failed] at counts
    simp [spend,counts]

/-- The failures to come before the first success, if any success is on the tape. -/
def failing (f : Faults) : Nat := f.tape.idxOf false

theorem fails_of_lt_failing {i : Nat} (before : i < f.failing) : f.fails i = true := by
  have inside : i < f.tape.length := Nat.lt_of_lt_of_le before List.idxOf_le_length
  have other : (f.tape[i] == false) = false := List.not_of_lt_findIdx before
  rw [fails,List.getElem?_eq_getElem inside,Option.getD_some]
  simpa using other

theorem fails_failing (f : Faults) : f.fails f.failing = false := by
  unfold fails
  cases here : f.tape[f.failing]? with
  | none => rfl
  | some failed =>
    obtain ⟨inside,same⟩ := List.getElem?_eq_some_iff.mp here
    rw [Option.getD_some,← same]
    exact List.getElem_idxOf inside

theorem count_take_of_le {j : Nat} (before : j ≤ f.failing) : (f.tape.take j).count true = j := by
  induction j with
  | zero => rfl
  | succ j ih =>
    rw [count_take_succ,ih (Nat.le_of_succ_le before),fails_of_lt_failing before]
    rfl

theorem count_take_min (f : Faults) (m : Nat) :
    (f.tape.take (min (f.failing + 1) m)).count true = min f.failing m := by
  rcases Nat.lt_or_ge f.failing m with first | short
  · rw [Nat.min_eq_left first,Nat.min_eq_left (Nat.le_of_lt first),count_take_succ,
      count_take_of_le (Nat.le_refl _),fails_failing]
    rfl
  · rw [Nat.min_eq_right (Nat.le_succ_of_le short),Nat.min_eq_right short,count_take_of_le short]

end Faults

end VersionedLedger
