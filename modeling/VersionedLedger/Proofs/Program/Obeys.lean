import VersionedLedger.Procedure

/-! Programs that make their calls by a rule. The rule says of each call what must be known before it, in
terms of what is promised of the reply and of the knowledge after it; a program obeys the rule on every
path, whatever the replies are. Bodies of procedures are taken apart at their binds. -/
namespace VersionedLedger

/-- What must be known before a call so that the promise holds of its reply and of what is known then. -/
abbrev Rule (G : Type) := (c : Call) → (c.Reply → G → Prop) → G → Prop

variable {G α β σ τ : Type}

def Rule.Monotone (rule : Rule G) : Prop :=
  ∀ (c : Call) (strong weak : c.Reply → G → Prop) (g : G),
    (∀ r g', strong r g' → weak r g') → rule c strong g → rule c weak g

/-- The calls of a kind may be made, whatever they are replied. -/
def Rule.only (allowed : Call → Bool) : Rule Unit :=
  fun c promise g => allowed c = true ∧ ∀ r, promise r g

theorem Rule.only_monotone (allowed : Call → Bool) : (Rule.only allowed).Monotone := by
  intro c strong weak g implies obeys
  exact ⟨obeys.1,fun r => implies r g (obeys.2 r)⟩

/-- The calls of a kind take nothing away from what is known. -/
def Rule.Keeps (rule : Rule G) (allowed : Call → Bool) (known : G → Prop) : Prop :=
  ∀ c, allowed c = true → ∀ (promise : c.Reply → G → Prop) (g : G), known g →
    (∀ r g', known g' → promise r g') → rule c promise g

theorem Rule.Keeps.narrow {rule : Rule G} {wide narrow : Call → Bool} {known : G → Prop}
    (keeps : rule.Keeps wide known) (fewer : ∀ c, narrow c = true → wide c = true) :
    rule.Keeps narrow known :=
  fun c allowed => keeps c (fewer c allowed)

namespace Program

/-- Every call is made by the rule, and the end is as promised. -/
def Obeys (rule : Rule G) (goal : α → G → Prop) : Program α → G → Prop
  | done a, g => goal a g
  | call c next, g => rule c (fun r => (next r).Obeys rule goal) g

variable {rule : Rule G} {goal : α → G → Prop}

theorem obeys_bind (goal : β → G → Prop) (p : Program α) (f : α → Program β) :
    (p.bind f).Obeys rule goal = p.Obeys rule fun a => (f a).Obeys rule goal := by
  induction p with
  | done _ => rfl
  | call c next ih => exact congrArg (rule c) (funext ih)

theorem Obeys.mono {weaker : α → G → Prop} {p : Program α} {g : G} (monotone : rule.Monotone)
    (obeys : p.Obeys rule goal g) (implies : ∀ a g', goal a g' → weaker a g') :
    p.Obeys rule weaker g := by
  induction p generalizing g with
  | done a => exact implies a g obeys
  | call c next ih => exact monotone c _ _ g (fun r _ => ih r) obeys

theorem Obeys.of_only {allowed : Call → Bool} {known : G → Prop} {goal : α → Prop} {p : Program α} {g : G}
    (keeps : rule.Keeps allowed known) (only : p.Obeys (Rule.only allowed) (fun a _ => goal a) ())
    (start : known g) : p.Obeys rule (fun a g => goal a ∧ known g) g := by
  induction p generalizing g with
  | done a => exact ⟨only,start⟩
  | call c next ih => exact keeps c only.1 _ g start fun r g' known => ih r (only.2 r) known

end Program

namespace Procedure

-- the procedure comes before the goal, for it is what the type of the goal is found by
def Obeys (rule : Rule G) (p : Procedure σ α) (goal : Outcome α → σ → G → Prop) (s : σ) : G → Prop :=
  (p.start s).Obeys rule fun r => goal r.1 r.2

variable {rule : Rule G} {goal : Outcome α → σ → G → Prop} {s : σ} {g : G}

theorem start_bind (p : Procedure σ α) (f : α → Procedure σ β) (s : σ) :
    (p >>= f).start s = (p.start s).bind fun r => match r with
      | (.ok a, s) => (f a).start s
      | (.error e, s) => .done (.error e, s) := by
  refine congrArg (Program.bind (p.start s)) (funext fun r => ?_)
  obtain ⟨answer,s⟩ := r
  cases answer <;> rfl

theorem start_outcome (p : Procedure σ α) (s : σ) :
    p.outcome.start s = (p.start s).bind fun r => .done (.ok r.1, r.2) := rfl

theorem start_within (own : τ) (p : Procedure τ α) (s : σ) :
    (within own p : Procedure σ (Outcome α × τ)).start s =
      (p.start own).bind fun r => .done (.ok r, s) :=
  Program.bind_assoc (p.start own) (fun r => .done (r, s))
    fun r => .done ((.ok r.1 : Outcome (Outcome α × τ)), r.2)

@[simp] theorem obeys_bind (goal : Outcome β → σ → G → Prop) (p : Procedure σ α)
    (f : α → Procedure σ β) :
    (p >>= f).Obeys rule goal s g ↔ p.Obeys rule (fun answer s g => match answer with
      | .ok a => (f a).Obeys rule goal s g
      | .error e => goal (.error e) s g) s g := by
  unfold Obeys
  rw [start_bind,Program.obeys_bind]
  refine iff_of_eq (congrArg (fun goal => Program.Obeys rule goal (p.start s) g) ?_)
  refine funext fun r => funext fun g => ?_
  obtain ⟨answer,s⟩ := r
  cases answer <;> rfl

@[simp] theorem obeys_pure (a : α) : (pure a : Procedure σ α).Obeys rule goal s g ↔ goal (.ok a) s g :=
  Iff.rfl

-- the type of the reply is left out of the index, since it computes to another one for each call
@[simp] theorem obeys_perform (c : Call) (goal : Outcome c.Reply → σ → G → Prop) :
    @Obeys G (no_index c.Reply) σ rule (perform c) goal s g ↔ rule c (fun r => goal (.ok r) s) g :=
  Iff.rfl

@[simp] theorem obeys_get (goal : Outcome σ → σ → G → Prop) :
    (get : Procedure σ σ).Obeys rule goal s g ↔ goal (.ok s) s g := Iff.rfl

@[simp] theorem obeys_set (own : σ) (goal : Outcome PUnit → σ → G → Prop) :
    (set own : Procedure σ PUnit).Obeys rule goal s g ↔ goal (.ok ⟨⟩) own g := Iff.rfl

@[simp] theorem obeys_modify (change : σ → σ) (goal : Outcome PUnit → σ → G → Prop) :
    (modify change : Procedure σ PUnit).Obeys rule goal s g ↔ goal (.ok ⟨⟩) (change s) g := Iff.rfl

@[simp] theorem obeys_fail (e : Error) :
    (fail e : Procedure σ α).Obeys rule goal s g ↔ goal (.error (.error e)) s g := Iff.rfl

@[simp] theorem obeys_crash (c : Crash) :
    (crash c : Procedure σ α).Obeys rule goal s g ↔ goal (.error (.crash c)) s g := Iff.rfl

@[simp] theorem obeys_ofOutcome (answer : Outcome α) :
    (ofOutcome answer : Procedure σ α).Obeys rule goal s g ↔ goal answer s g := Iff.rfl

@[simp] theorem obeys_ofError (answer : Except Error α) :
    (ofError answer : Procedure σ α).Obeys rule goal s g ↔ goal (Outcome.ofError answer) s g := Iff.rfl

@[simp] theorem obeys_outcome (goal : Outcome (Outcome α) → σ → G → Prop) (p : Procedure σ α) :
    p.outcome.Obeys rule goal s g ↔ p.Obeys rule (fun answer => goal (.ok answer)) s g := by
  unfold Obeys
  rw [start_outcome,Program.obeys_bind]
  rfl

@[simp] theorem obeys_within (own : τ) (p : Procedure τ α)
    (goal : Outcome (Outcome α × τ) → σ → G → Prop) :
    (within own p : Procedure σ (Outcome α × τ)).Obeys rule goal s g ↔
      p.Obeys rule (fun answer own => goal (.ok (answer, own)) s) own g := by
  unfold Obeys
  rw [start_within,Program.obeys_bind]
  rfl

theorem start_lift (q : Program α) (s : σ) :
    (liftM q : Procedure σ α).start s = q.bind fun a => .done (.ok a, s) :=
  Program.bind_assoc q (fun a => .done (a, s)) fun r => .done ((.ok r.1 : Outcome α), r.2)

theorem obeys_lift (q : Program α) :
    (liftM q : Procedure σ α).Obeys rule goal s g ↔ q.Obeys rule (fun a => goal (.ok a) s) g := by
  unfold Obeys
  rw [start_lift,Program.obeys_bind]
  rfl

theorem obeys_ite (b : Prop) [Decidable b] (p q : Procedure σ α) :
    (if b then p else q).Obeys rule goal s g ↔
      if b then p.Obeys rule goal s g else q.Obeys rule goal s g := by
  split <;> rfl

theorem Obeys.mono {weaker : Outcome α → σ → G → Prop} {p : Procedure σ α} (monotone : rule.Monotone)
    (obeys : p.Obeys rule goal s g) (implies : ∀ a s g', goal a s g' → weaker a s g') :
    p.Obeys rule weaker s g :=
  Program.Obeys.mono monotone obeys fun r => implies r.1 r.2

theorem Obeys.of_only {allowed : Call → Bool} {known : G → Prop} {goal : Outcome α → σ → Prop}
    {p : Procedure σ α} (keeps : rule.Keeps allowed known)
    (only : p.Obeys (Rule.only allowed) (fun a s _ => goal a s) s ()) (start : known g) :
    p.Obeys rule (fun a s g => goal a s ∧ known g) s g :=
  Program.Obeys.of_only keeps only start

theorem obeys_forIn (monotone : rule.Monotone) (keeps : σ → G → Prop) (xs : List β)
    (body : β → PUnit → Procedure σ (ForInStep PUnit))
    (round : ∀ x ∈ xs, ∀ s g, keeps s g →
      (body x ⟨⟩).Obeys rule (fun a s g => a = .ok (.yield ⟨⟩) ∧ keeps s g) s g)
    (start : keeps s g) :
    (forIn xs PUnit.unit body).Obeys rule (fun a s g => a = .ok ⟨⟩ ∧ keeps s g) s g := by
  induction xs generalizing s g with
  | nil =>
    rw [List.forIn_nil]
    exact ⟨rfl,start⟩
  | cons x xs ih =>
    rw [List.forIn_cons,obeys_bind]
    refine (round x List.mem_cons_self s g start).mono monotone ?_
    intro answer s g ended
    obtain ⟨rfl,kept⟩ := ended
    exact ih (fun x member => round x (List.mem_cons_of_mem _ member)) kept

end Procedure

end VersionedLedger
