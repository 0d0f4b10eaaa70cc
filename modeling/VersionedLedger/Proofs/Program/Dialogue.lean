import VersionedLedger.Ledger.State
import VersionedLedger.Proofs.Program.Obeys

/-! What a program does in one run: the calls that it makes, one after another, each with the reply that it is given,
and what it ends with. Runs of procedures are put together along their binds. -/
namespace VersionedLedger

variable {σ α β : Type}

structure Made where
  call : Call
  reply : call.Reply

namespace Program

/-- With these replies, the program makes these calls and ends with this value. -/
inductive Makes : Program α → List Made → α → Prop
  | done (a : α) : (Program.done a).Makes [] a
  | call (c : Call) (next : c.Reply → Program α) (r : c.Reply) {trace : List Made} {a : α}
      (rest : (next r).Makes trace a) : (Program.call c next).Makes (⟨c,r⟩ :: trace) a

def dialogue : Program α → Ledger → List Made
  | done _, _ => []
  | call c next, g => ⟨c,(g.answer c).1⟩ :: (next (g.answer c).1).dialogue (g.answer c).2

theorem makes_dialogue (p : Program α) (g : Ledger) : p.Makes (p.dialogue g) (g.run p).1 := by
  induction p generalizing g with
  | done a => exact .done a
  | call c next ih => exact .call c next _ (ih _ _)

theorem Makes.bind {p : Program α} {f : α → Program β} {trace more : List Made} {a : α} {b : β}
    (first : p.Makes trace a) (rest : (f a).Makes more b) : (p.bind f).Makes (trace ++ more) b := by
  induction first with
  | done => exact rest
  | call c next r _ ih => exact .call c _ r (ih rest)

theorem Makes.exists_of_bind {p : Program α} {f : α → Program β} {trace : List Made} {b : β}
    (made : (p.bind f).Makes trace b) :
    ∃ first a rest, p.Makes first a ∧ (f a).Makes rest b ∧ trace = first ++ rest := by
  induction p generalizing trace with
  | done a => exact ⟨[],a,trace,.done a,made,rfl⟩
  | call c next ih =>
    cases made with
    | call _ _ r made =>
      obtain ⟨first,a,rest,before,after,rfl⟩ := ih r made
      exact ⟨⟨c,r⟩ :: first,a,rest,.call c next r before,after,rfl⟩

end Program

namespace Procedure

def Makes (p : Procedure σ α) (s : σ) (trace : List Made) (answer : Outcome α) (s' : σ) : Prop :=
  (p.start s).Makes trace (answer, s')

variable {p : Procedure σ α} {s s' s'' : σ} {trace more : List Made}

theorem Makes.bind {f : α → Procedure σ β} {a : α} {answer : Outcome β} (first : p.Makes s trace (.ok a) s')
    (rest : (f a).Makes s' more answer s'') : (p >>= f).Makes s (trace ++ more) answer s'' := by
  unfold Makes
  rw [start_bind]
  exact Program.Makes.bind first rest

theorem makes_perform (c : Call) (r : c.Reply) (s : σ) : (perform c).Makes s [⟨c,r⟩] (.ok r) s :=
  .call c _ r (.done _)

theorem makes_pure (a : α) (s : σ) : (pure a : Procedure σ α).Makes s [] (.ok a) s := .done _

theorem Makes.outcome {answer : Outcome α} (made : p.Makes s trace answer s') :
    p.outcome.Makes s trace (.ok answer) s' := by
  unfold Makes
  rw [start_outcome,← List.append_nil trace]
  exact Program.Makes.bind made (.done _)

theorem makes_lift {q : Program α} {a : α} (made : q.Makes trace a) (s : σ) :
    (liftM q : Procedure σ α).Makes s trace (.ok a) s := by
  unfold Makes
  rw [start_lift,← List.append_nil trace]
  exact Program.Makes.bind made (.done _)

theorem makes_bind_iff {f : α → Procedure σ β} {answer : Outcome β} :
    (p >>= f).Makes s trace answer s' ↔
      (∃ first a s₁ rest, p.Makes s first (.ok a) s₁ ∧ (f a).Makes s₁ rest answer s' ∧ trace = first ++ rest) ∨
      ∃ e, p.Makes s trace (.error e) s' ∧ answer = .error e := by
  unfold Makes
  rw [start_bind]
  constructor
  · intro made
    obtain ⟨first,⟨e | a,s₁⟩,rest,before,after,rfl⟩ := made.exists_of_bind
    · cases after
      exact .inr ⟨e,by rwa [List.append_nil],rfl⟩
    · exact .inl ⟨first,a,s₁,rest,before,after,rfl⟩
  · rintro (⟨first,a,s₁,rest,before,after,rfl⟩ | ⟨e,made,rfl⟩)
    · exact before.bind after
    · rw [← List.append_nil trace]
      exact made.bind (.done _)

theorem makes_pure_iff {a : α} {answer : Outcome α} :
    (pure a : Procedure σ α).Makes s trace answer s' ↔ trace = [] ∧ answer = .ok a ∧ s' = s := by
  constructor
  · intro made
    cases made
    exact ⟨rfl,rfl,rfl⟩
  · rintro ⟨rfl,rfl,rfl⟩
    exact makes_pure a s'

theorem makes_throw_iff {e : Failure} {answer : Outcome α} :
    (throw e : Procedure σ α).Makes s trace answer s' ↔ trace = [] ∧ answer = .error e ∧ s' = s := by
  constructor
  · intro made
    cases made
    exact ⟨rfl,rfl,rfl⟩
  · rintro ⟨rfl,rfl,rfl⟩
    exact .done _

theorem makes_throw_bind {e : Failure} {f : α → Procedure σ β} {answer : Outcome β} :
    ((throw e : Procedure σ α) >>= f).Makes s trace answer s' ↔ trace = [] ∧ answer = .error e ∧ s' = s :=
  makes_throw_iff

theorem exists_of_bind_pure {f : α → β} {answer : Outcome β}
    (made : (p >>= fun a => pure (f a)).Makes s trace answer s') :
    ∃ given, p.Makes s trace given s' ∧ answer = given.map f := by
  rcases makes_bind_iff.mp made with ⟨calls,a,s₁,rest,before,ended,rfl⟩ | ⟨e,failed,rfl⟩
  · obtain ⟨rfl,rfl,rfl⟩ := makes_pure_iff.mp ended
    rw [List.append_nil]
    exact ⟨.ok a,before,rfl⟩
  · exact ⟨.error e,failed,rfl⟩

theorem makes_perform_iff (c : Call) {answer : Outcome c.Reply} :
    (perform c).Makes s trace answer s' ↔ ∃ r, trace = [⟨c,r⟩] ∧ answer = .ok r ∧ s' = s := by
  constructor
  · intro made
    cases made with
    | call _ _ r made =>
      cases made
      exact ⟨r,rfl,rfl,rfl⟩
  · rintro ⟨r,rfl,rfl,rfl⟩
    exact makes_perform c r s'

theorem makes_perform_bind (c : Call) {f : c.Reply → Procedure σ β} {answer : Outcome β} :
    (perform c >>= f).Makes s trace answer s' ↔
      ∃ r rest, (f r).Makes s rest answer s' ∧ trace = ⟨c,r⟩ :: rest := by
  constructor
  · intro made
    cases made with
    | call _ _ r made => exact ⟨r,_,made,rfl⟩
  · rintro ⟨r,rest,made,rfl⟩
    exact .call c _ r made

theorem makes_outcome_bind {f : Outcome α → Procedure σ β} {answer : Outcome β} :
    (p.outcome >>= f).Makes s trace answer s' ↔
      ∃ first a s₁ rest, p.Makes s first a s₁ ∧ (f a).Makes s₁ rest answer s' ∧ trace = first ++ rest := by
  constructor
  · intro made
    unfold Makes at made
    rw [start_bind,start_outcome,Program.bind_assoc] at made
    obtain ⟨first,⟨a,s₁⟩,rest,before,after,rfl⟩ := made.exists_of_bind
    exact ⟨first,a,s₁,rest,before,after,rfl⟩
  · rintro ⟨first,a,s₁,rest,before,after,rfl⟩
    exact before.outcome.bind after

theorem makes_ofError_bind {f : α → Procedure σ β} {given : Except Error α} {answer : Outcome β} :
    (ofError given >>= f).Makes s trace answer s' ↔
      (∃ a, given = .ok a ∧ (f a).Makes s trace answer s') ∨
      ∃ e, given = .error e ∧ trace = [] ∧ answer = .error (.error e) ∧ s' = s := by
  cases given with
  | ok a =>
    constructor
    · exact fun made => .inl ⟨a,rfl,made⟩
    · rintro (⟨_,⟨⟩,made⟩ | ⟨_,⟨⟩,_⟩)
      exact made
  | error e =>
    constructor
    · intro made
      cases made
      exact .inr ⟨e,rfl,rfl,rfl,rfl⟩
    · rintro (⟨_,⟨⟩,_⟩ | ⟨_,⟨⟩,rfl,rfl,rfl⟩)
      exact .done _

theorem makes_lift_bind {q : Program α} {f : α → Procedure σ β} {answer : Outcome β} :
    ((liftM q : Procedure σ α) >>= f).Makes s trace answer s' ↔
      ∃ first a rest, q.Makes first a ∧ (f a).Makes s rest answer s' ∧ trace = first ++ rest := by
  constructor
  · intro made
    unfold Makes at made
    rw [start_bind,start_lift,Program.bind_assoc] at made
    obtain ⟨first,a,rest,before,after,rfl⟩ := made.exists_of_bind
    exact ⟨first,a,rest,before,after,rfl⟩
  · rintro ⟨first,a,rest,before,after,rfl⟩
    exact (makes_lift before s).bind after

end Procedure

end VersionedLedger
