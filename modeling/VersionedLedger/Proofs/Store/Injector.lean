import Mathlib.Data.List.TakeDrop
import VersionedLedger.Proofs.Ledger.Faults

/-! Injectors of faults without chance. Whatever an injector is told, its checks fail as one queue of scripted outcomes
and one counter of failures to come say, and those that fail stay counted. -/
namespace VersionedLedger.Faults

/-- An injector is told something, or a write asks it. -/
inductive Act
  | set (setting : FaultSetting)
  | check (number : Nat) (operation : String)

def Act.Unrated : Act → Prop
  | .set (.rate probability) => perMillion probability = 0
  | _ => True

def run (f : Faults) : List Act → List (Except Error Unit) × Faults
  | [] => ([], f)
  | .set setting :: acts => (f.set setting).run acts
  | .check number operation :: acts =>
    let (answer, next) := f.check number operation
    let (answers, left) := next.run acts
    (answer :: answers, left)

def verdict (failed : Bool) (operation : String) : Except Error Unit :=
  if failed then .error (.unavailable s!"injected fault during {operation}") else .ok ()

@[simp] theorem failed_verdict (failed : Bool) (operation : String) : (!(verdict failed operation).isOk) = failed := by
  cases failed <;> rfl

/-- Scripted outcomes that no check has taken, the oldest first, and failures that are due after them. -/
structure Pending where
  queue : List Bool := []
  counter : Nat := 0

namespace Pending

/-- The ways in which a check comes to its outcome. A scripted one leaves the counter alone, whichever it is. -/
inductive Takes : Pending → Bool → Pending → Prop
  | scripted (outcome : Bool) (queue : List Bool) (counter : Nat) :
    Takes { queue := outcome :: queue, counter } outcome { queue, counter }
  | counted (counter : Nat) : Takes { counter := counter + 1 } true { counter }
  | spared : Takes {} false {}

def told (p : Pending) : FaultSetting → Pending
  | .script outcomes => { p with queue := p.queue ++ outcomes }
  | .failNext n => { p with counter := n }
  | .clear => {}
  | .rate _ | .latency _ => p

inductive Runs : Pending → List Act → List (Except Error Unit) → Pending → Prop
  | done (p : Pending) : Runs p [] [] p
  | set {p left : Pending} {setting : FaultSetting} {acts : List Act} {answers : List (Except Error Unit)}
    (rest : Runs (p.told setting) acts answers left) : Runs p (.set setting :: acts) answers left
  | check {p next left : Pending} {failed : Bool} {number : Nat} {operation : String} {acts : List Act}
    {answers : List (Except Error Unit)} (takes : p.Takes failed next) (rest : Runs next acts answers left) :
    Runs p (.check number operation :: acts) (verdict failed operation :: answers) left

theorem Takes.unique {p next next' : Pending} {failed failed' : Bool} (takes : p.Takes failed next)
    (takes' : p.Takes failed' next') : failed = failed' ∧ next = next' := by
  cases takes <;> cases takes' <;> exact ⟨rfl,rfl⟩

theorem Runs.unique {p left left' : Pending} {acts : List Act} {answers answers' : List (Except Error Unit)}
    (runs : p.Runs acts answers left) (runs' : p.Runs acts answers' left') : answers = answers' ∧ left = left' := by
  induction runs generalizing answers' with
  | done =>
    cases runs'
    exact ⟨rfl,rfl⟩
  | set _ ih =>
    cases runs' with
    | set rest => exact ih rest
  | check takes _ ih =>
    cases runs' with
    | check takes' rest =>
      obtain ⟨rfl,rfl⟩ := takes.unique takes'
      obtain ⟨rfl,rfl⟩ := ih rest
      exact ⟨rfl,rfl⟩

end Pending

variable {f : Faults} {acts : List Act}

def pending (f : Faults) : Pending := { queue := f.script, counter := f.failNext }

theorem pending_set (f : Faults) (setting : FaultSetting) : (f.set setting).pending = f.pending.told setting := by
  cases setting <;> rfl

theorem rate_set {setting : FaultSetting} (never : f.rate = 0) (unrated : (Act.set setting).Unrated) :
    (f.set setting).rate = 0 := by
  cases setting with
  | rate probability => exact unrated
  | clear => rfl
  | _ => exact never

theorem takes_due (never : f.rate = 0) (number : Nat) :
    f.pending.Takes (f.due number).1 (f.due number).2.pending ∧ (f.due number).2.rate = 0 := by
  unfold due pending
  split
  · next outcome rest here =>
    rw [here]
    exact ⟨.scripted outcome rest f.failNext,never⟩
  · next empty =>
    rw [empty]
    cases owed : f.failNext with
    | zero => simpa [never,owed,empty] using Pending.Takes.spared
    | succ counter => simpa [never,owed,empty] using Pending.Takes.counted counter

theorem check_eq (f : Faults) (number : Nat) (operation : String) : f.check number operation =
    (verdict (f.due number).1 operation, { (f.due number).2 with
      injected := (f.due number).2.injected + (f.due number).1.toNat }) := by
  unfold check verdict
  cases f.due number with
  | mk failed next => cases failed <;> rfl

theorem injected_due (f : Faults) (number : Nat) : (f.due number).2.injected = f.injected := by
  unfold due
  split
  · rfl
  · split <;> rfl

theorem injected_run (f : Faults) (acts : List Act) :
    (f.run acts).2.injected = f.injected + (f.run acts).1.countP (!·.isOk) := by
  induction acts generalizing f with
  | nil => rfl
  | cons a acts ih =>
    cases a with
    | set setting =>
      have kept : (f.set setting).injected = f.injected := by cases setting <;> rfl
      rw [run,ih,kept]
    | check number operation =>
      simp only [run,ih,check_eq,injected_due,List.countP_cons,failed_verdict]
      cases (f.due number).1 <;> simp [Nat.add_assoc,Nat.add_comm 1]

theorem runs_run (never : f.rate = 0) (unrated : ∀ a ∈ acts, a.Unrated) :
    f.pending.Runs acts (f.run acts).1 (f.run acts).2.pending := by
  -- the rate stays zero along the run, so that no check is ever left to chance
  induction acts generalizing f with
  | nil => exact .done _
  | cons a acts ih =>
    obtain ⟨first,others⟩ := List.forall_mem_cons.mp unrated
    cases a with
    | set setting =>
      have rest := ih (rate_set never first) others
      rw [pending_set] at rest
      exact .set rest
    | check number operation =>
      obtain ⟨takes,still⟩ := takes_due never number
      have rest := ih (f := (f.check number operation).2) (by rw [check_eq]; exact still) others
      rw [check_eq] at rest
      simp only [run,check_eq]
      exact .check takes rest

/-- Checks in a row find the outcomes on the tape, and successes after its end. -/
theorem failed_run_checks (never : f.rate = 0) (asked : List (Nat × String)) (i : Nat) :
    ((f.spend i).run (asked.map fun a => .check a.1 a.2)).1.map (!·.isOk) =
      (f.tape.drop i).takeD asked.length false := by
  induction asked generalizing i with
  | nil => rfl
  | cons a asked ih =>
    have first : (f.spend i).check a.1 a.2 = (verdict (f.fails i) a.2,f.spend (i + 1)) := check_spend never i a.1 a.2
    rw [List.map_cons,run,first,List.map_cons,ih,failed_verdict,List.length_cons,List.takeD_succ,List.head?_drop,
      List.tail_drop]
    rfl

/-- Of an injector that is told no rate, exactly those checks fail that fail by the queue and the counter, and they are
counted across all clearing. Once it is cleared, scripted and told to fail some checks, the next ones find the script,
then the failures, and from then on successes. -/
theorem run_queued (unrated : ∀ a ∈ acts, a.Unrated) :
    (∀ answers left, Pending.Runs {} acts answers left ↔
      (({} : Faults).run acts).1 = answers ∧ (({} : Faults).run acts).2.pending = left) ∧
    (({} : Faults).run acts).2.injected = (({} : Faults).run acts).1.countP (!·.isOk) ∧
    ∀ (script : List Bool) (n : Nat) (asked : List (Nat × String)),
      (((((({} : Faults).run acts).2.set .clear).set (.script script)).set (.failNext n)).run
        (asked.map fun a => .check a.1 a.2)).1.map (!·.isOk) =
          (script ++ List.replicate n true).takeD asked.length false := by
  have reference := runs_run (f := {}) rfl unrated
  refine ⟨fun answers left => ⟨fun runs => reference.unique runs,?_⟩,?_,fun script n asked => ?_⟩
  · rintro ⟨rfl,rfl⟩
    exact reference
  · rw [injected_run]
    exact Nat.zero_add _
  · have found := failed_run_checks
      (f := (((({} : Faults).run acts).2.set .clear).set (.script script)).set (.failNext n)) rfl asked 0
    rw [spend_zero] at found
    exact found

/-- A scripted success does not use up the counter, and the failures of before the clearing stay counted. -/
def mixedActs : List Act :=
  [.set (.script [false, true]), .set (.failNext 2), .check 0 "commit", .check 1 "commit", .check 2 "commit",
    .set (.script [false]), .check 3 "update", .check 4 "commit", .check 5 "commit", .set (.failNext 3), .check 6 "commit",
    .set .clear, .check 7 "commit"]

theorem run_queued_mixed :
    (∀ a ∈ mixedActs, a.Unrated) ∧
    Pending.Runs {} mixedActs
      (List.zipWith verdict [false, true, true, false, true, false, true, false]
        ["commit", "commit", "commit", "update", "commit", "commit", "commit", "commit"]) {} ∧
    (({} : Faults).run mixedActs).2.injected = 4 := by
  have unrated : ∀ a ∈ mixedActs, a.Unrated := by simp [mixedActs,Act.Unrated]
  obtain ⟨agrees,counted,_⟩ := run_queued unrated
  exact ⟨unrated,(agrees _ _).mpr ⟨rfl,rfl⟩,counted.trans rfl⟩

end VersionedLedger.Faults
