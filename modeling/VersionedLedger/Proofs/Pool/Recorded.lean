import VersionedLedger.Proofs.Pool.Dialogue

/-! A program that takes down the calls that it makes, and what it is replied. But for that it is the program itself: a
pool of such programs goes through the same states in every schedule, and tells in the end what its workers did. -/
namespace VersionedLedger

variable {α β : Type}

namespace Program

def map (f : α → β) (p : Program α) : Program β := p.bind fun a => done (f a)

def recorded : Program α → Program (α × List Made)
  | done a => done (a,[])
  | call c next => call c fun r => (next r).recorded.map fun ended => (ended.1,⟨c,r⟩ :: ended.2)

theorem map_map {γ : Type} (g : β → γ) (f : α → β) (p : Program α) : (p.map f).map g = p.map fun a => g (f a) :=
  bind_assoc p _ _

theorem fst_recorded (p : Program α) : p.recorded.map Prod.fst = p := by
  induction p with
  | done a => rfl
  | call c next ih =>
    refine congrArg (call c) (funext fun r => ?_)
    exact (map_map Prod.fst _ (next r).recorded).trans (ih r)

theorem Makes.exists_of_map {f : α → β} {p : Program α} {trace : List Made} {b : β}
    (made : (p.map f).Makes trace b) : ∃ a, p.Makes trace a ∧ b = f a := by
  obtain ⟨first,a,rest,before,ended,rfl⟩ := Makes.exists_of_bind made
  cases ended
  rw [List.append_nil]
  exact ⟨a,before,rfl⟩

theorem Makes.of_recorded {p : Program α} {trace : List Made} {ended : α × List Made}
    (made : p.recorded.Makes trace ended) : ended.2 = trace ∧ p.Makes trace ended.1 := by
  induction p generalizing trace ended with
  | done a =>
    cases made
    exact ⟨rfl,.done a⟩
  | call c next ih =>
    cases made with
    | call _ _ r made =>
      obtain ⟨ended,before,rfl⟩ := made.exists_of_map
      obtain ⟨rfl,rest⟩ := ih r before
      exact ⟨rfl,.call c next r rest⟩

end Program

namespace Worker

def map (f : α → β) : Worker α → Worker β
  | ready p => ready (p.map f)
  | asleep wake watched next => asleep wake watched fun r => (next r).map f
  | blocked w next => blocked w fun r => (next r).map f
  | finished a => finished (f a)

theorem wake_map (f : α → β) (w : Worker α) : (w.map f).wake = w.wake.map f := by
  cases w <;> rfl

theorem result?_map (f : α → β) (w : Worker α) : (w.map f).result? = w.result?.map f := by
  cases w <;> rfl

theorem Stands.of_recorded {p : Program α} {said : List Made} {w : Worker (α × List Made)}
    (stands : w.Stands p.recorded said) : (w.map Prod.fst).Stands p said := by
  have reaches {q : Program (α × List Made)} (before : p.recorded.Reaches said q) :
      p.Reaches said (q.map Prod.fst) := by
    intro more a made
    obtain ⟨ended,rest,rfl⟩ := made.exists_of_map
    exact (before more ended rest).of_recorded.2
  cases w with
  | ready q => exact reaches stands
  | asleep wake watched next =>
    obtain ⟨d,before⟩ := stands
    exact ⟨d,reaches before⟩
  | blocked w next =>
    obtain ⟨owner,timeout,existing,before⟩ := stands
    exact ⟨owner,timeout,existing,reaches before⟩
  | finished ended => exact (Program.Makes.of_recorded stands).2

end Worker

namespace Pool

def map (f : α → β) (p : Pool α) : Pool β := ⟨p.ledger,p.workers.map (Worker.map f)⟩

variable (f : α → β) (p : Pool α)

theorem lockRound_map (s : Ledger) (w : LockWait) (first : Bool) (next : Outcome Unit → Program α) :
    lockRound s w first (fun r => (next r).map f) =
      ((lockRound s w first next).1.map f,(lockRound s w first next).2) := by
  rw [lockRound_eq,lockRound_eq]
  cases (s.store.locks.request w.owner w.id first).1 <;> rfl

theorem advance_map (s : Ledger) (q : Program α) :
    advance s (q.map f) = ((advance s q).1.map f,(advance s q).2) := by
  cases q with
  | done a => rfl
  | call c next =>
    cases c with
    | acquire owner id timeout existing =>
      simp only [Program.map,Program.bind,advance]
      split
      · rfl
      · exact lockRound_map f s _ true next
    | _ => rfl

theorem update_map (i : Nat) (w : Worker α) (s : Ledger) :
    (p.map f).update i (w.map f, s) = (p.update i (w, s)).map f := by
  have woken : (p.map f).workers.map Worker.wake = (p.workers.map Worker.wake).map (Worker.map f) := by
    simp [map,Function.comp_def,Worker.wake_map]
  unfold update
  dsimp only
  rw [woken]
  by_cases freed : s.store.locks.heldCount < p.ledger.store.locks.heldCount
  · simp [map,freed]
  · simp [map,freed]

theorem worker_map (i : Nat) : (p.map f).workers[i]? = (p.workers[i]?).map (Worker.map f) := List.getElem?_map

theorem step_map (i : Nat) : (p.map f).step i = (p.step i).map f := by
  unfold step
  rw [worker_map]
  rcases p.workers[i]? with _ | q | ⟨wake,watched,next⟩ | ⟨w,next⟩ | a
  · rfl
  · change (p.map f).update i (advance p.ledger (q.map f)) = _
    rw [advance_map]
    exact p.update_map f i _ _
  · change (if (watched && p.ledger.isCancelled) = true then
        (p.map f).update i ((Worker.ready (next false)).map f, p.ledger)
      else if wake ≤ p.ledger.clock then (p.map f).update i ((Worker.ready (next true)).map f, p.ledger)
      else p.map f) = _
    rw [update_map,update_map,← apply_ite (Pool.map f),← apply_ite (Pool.map f)]
  · change (if w.woken then (p.map f).update i (lockRound p.ledger w false fun r => (next r).map f) else p.map f) = _
    rw [lockRound_map,update_map]
    exact (apply_ite (Pool.map f) _ _ _).symm
  · rfl

theorem expire_map (i : Nat) : (p.map f).expire i = (p.expire i).map f := by
  unfold expire
  rw [worker_map]
  rcases p.workers[i]? with _ | q | ⟨wake,watched,next⟩ | ⟨w,next⟩ | a
  · rfl
  · rfl
  · rfl
  · change (if p.ledger.clock < w.deadline then p.map f
      else if p.ledger.store.locks.table.heldByOther w.owner w.id then
        (p.map f).update i ((Worker.ready (next _)).map f, _)
      else (p.map f).update i (lockRound p.ledger w false fun r => (next r).map f)) = _
    rw [lockRound_map,update_map,update_map,apply_ite (Pool.map f),apply_ite (Pool.map f)]
    rfl
  · rfl

theorem move_map (m : Move) : (p.map f).move m = (p.move m).map f := by
  cases m with
  | step i => exact p.step_map f i
  | expire i => exact p.expire_map f i
  | elapse d => rfl

theorem play_map (moves : List Move) : (p.map f).play moves = (p.play moves).map f := by
  induction moves generalizing p with
  | nil => rfl
  | cons m moves ih => exact (congrArg (play · moves) (p.move_map f m)).trans (ih (p.move m))

theorem start_map (s : Ledger) (programs : List (Program α)) :
    (start s programs).map f = start s (programs.map (Program.map f)) := by
  simp [start,map,Function.comp_def,Worker.map]

theorem result?_map (i : Nat) : (p.map f).result? i = (p.result? i).map f := by
  unfold result?
  rw [worker_map]
  cases p.workers[i]? with
  | none => rfl
  | some w => exact w.result?_map f

def recorded (s : Ledger) (programs : List (Program α)) (moves : List Move) : Pool (α × List Made) :=
  (start s (programs.map Program.recorded)).play moves

theorem fst_recorded (s : Ledger) (programs : List (Program α)) (moves : List Move) :
    (recorded s programs moves).map Prod.fst = (start s programs).play moves := by
  have same : (programs.map Program.recorded).map (Program.map Prod.fst) = programs := by
    simp [Function.comp_def,Program.fst_recorded]
  rw [recorded,← play_map,start_map,same]

/-- The calls of a worker that has come to its end. -/
def calls (s : Ledger) (programs : List (Program α)) (moves : List Move) (i : Nat) : List Made :=
  (((recorded s programs moves).result? i).map Prod.snd).getD []

theorem exists_spoken (s : Ledger) (programs : List (Program α)) (moves : List Move) :
    ∃ said, ((start s programs).play moves).Spoken True s programs said ∧
      ∀ i a, ((start s programs).play moves).result? i = some a → calls s programs moves i = said i := by
  obtain ⟨said,spoken⟩ := (spoken_start True s (programs.map Program.recorded)).play moves (.inl trivial)
  have spoken : (recorded s programs moves).Spoken True s (programs.map Program.recorded) said := spoken
  rw [← fst_recorded]
  refine ⟨said,⟨fun i w present => ?_,spoken.replied,fun γ valid => ?_⟩,fun i a ended => ?_⟩
  · rw [worker_map] at present
    obtain ⟨w,here,rfl⟩ := Option.map_eq_some_iff.mp present
    obtain ⟨_,named,stands⟩ := spoken.workers i w here
    rw [List.getElem?_map] at named
    obtain ⟨q,same,rfl⟩ := Option.map_eq_some_iff.mp named
    exact ⟨q,same,stands.of_recorded⟩
  · have added := spoken.added γ valid
    rwa [List.length_map] at added
  · rw [result?_map] at ended
    obtain ⟨⟨a,taken⟩,noted,rfl⟩ := Option.map_eq_some_iff.mp ended
    obtain ⟨_,named,made⟩ := spoken.makes noted
    rw [List.getElem?_map] at named
    obtain ⟨q,_,rfl⟩ := Option.map_eq_some_iff.mp named
    rw [calls,noted]
    exact made.of_recorded.1

theorem makes_calls {s : Ledger} {programs : List (Program α)} {moves : List Move} {i : Nat} {q : Program α} {a : α}
    (named : programs[i]? = some q) (ended : ((start s programs).play moves).result? i = some a) :
    q.Makes (calls s programs moves i) a ∧ ∀ m ∈ calls s programs moves i, m.Answered True := by
  obtain ⟨said,spoken,taken⟩ := exists_spoken s programs moves
  obtain ⟨_,here,made⟩ := spoken.makes ended
  cases named.symm.trans here
  rw [taken i a ended]
  exact ⟨made,spoken.answered i⟩

end Pool

end VersionedLedger
