import VersionedLedger.Optimistic
import VersionedLedger.Proofs.Program.Locking
import VersionedLedger.Proofs.Program.Retry

/-! Programs that ask for several locks only in ascending order. An owner has a floor, the least id that it
may still ask for; a granted lock raises it above its record, and nothing lowers it. Work under ordered
locks and single conditional writes keep to this rule, whatever they are replied. -/
namespace VersionedLedger

open Procedure

variable {σ α β : Type}

def Procedure.LockFree (p : Procedure σ α) : Prop :=
  ∀ s, p.Obeys (Rule.only fun c => !c.asks) (fun _ _ _ => True) s ()

theorem Procedure.LockFree.bind {p : Procedure σ α} {f : α → Procedure σ β} (first : p.LockFree)
    (rest : ∀ a, (f a).LockFree) : (p >>= f).LockFree := by
  intro s
  refine (obeys_bind _ p f).mpr ((first s).mono (Rule.only_monotone _) ?_)
  intro answer s _ _
  cases answer with
  | error e => trivial
  | ok a => exact rest a s

theorem Procedure.lockFree_ofOutcome (answer : Outcome α) :
    (ofOutcome answer : Procedure σ α).LockFree := fun _ => trivial

theorem Procedure.lockFree_fail (e : Error) : (fail e : Procedure σ α).LockFree := fun _ => trivial

theorem Procedure.lockFree_of_only {allowed : Call → Bool} (never : ∀ c, allowed c = true → (!c.asks) = true)
    {p : Procedure σ α} {goal : Outcome α → σ → Prop}
    (only : ∀ s, p.Obeys (Rule.only allowed) (fun answer s _ => goal answer s) s ()) : p.LockFree := by
  intro s
  have keeps : (Rule.only fun c => !c.asks).Keeps allowed fun _ => True :=
    fun c yes promise g _ replied => ⟨never c yes,fun r => replied r g trivial⟩
  exact (Obeys.of_only keeps (only s) trivial).mono (Rule.only_monotone _) fun _ _ _ _ => trivial

theorem Procedure.lockFree_of_yields {p : Procedure σ α} {goal : Outcome α → σ → Prop}
    (gives : ∀ s, p.Obeys (Rule.only Call.yields) (fun answer s _ => goal answer s) s ()) : p.LockFree :=
  lockFree_of_only (fun _ => Call.asks_not_of_yields) gives

namespace Session

theorem lockFree_abort_fail (e : Error) : (abort e.message >>= fun _ => fail e : Session α).LockFree :=
  lockFree_of_yields fun _ => yields_abort_fail e

theorem lockFree_commit : commit.LockFree := by
  have free : releaseHeld.LockFree := lockFree_of_yields fun _ => yields_releaseHeld
  intro t
  simp only [commit,obeys_bind,obeys_get]
  split
  · next e _ => exact free.bind (fun _ => lockFree_fail e) t
  · rw [obeys_ite]
    split
    · exact free _
    · simp only [obeys_bind,obeys_perform]
      refine ⟨rfl,fun fault => ?_⟩
      cases fault with
      | error e => exact lockFree_abort_fail e t
      | ok _ =>
        simp only [obeys_bind,obeys_perform]
        refine ⟨rfl,fun applied => ?_⟩
        cases applied with
        | error e => exact lockFree_abort_fail e t
        | ok _ => exact free _

theorem lockFree_conclude (answer : Outcome α) : (conclude answer).LockFree := by
  cases answer with
  | error e => exact lockFree_of_yields fun _ => yields_conclude_error e
  | ok a => exact lockFree_commit.bind fun _ _ => trivial

end Session

/-- For every owner of a worker, the least id that it may still ask for. -/
abbrev Floors := TxnId → Option RecordId

def Floors.raise (g : Floors) (owner : TxnId) (floor : RecordId) : Floors :=
  fun a => if a = owner then some floor else g a

namespace Floors

variable {g : Floors} {owner a : TxnId} {floor n m : RecordId}

theorem raise_self : g.raise owner n owner = some n := if_pos rfl

theorem raise_grows (known : g owner = some floor) (low : floor ≤ n) (seen : g a = some m) :
    ∃ m', g.raise owner n a = some m' ∧ m ≤ m' := by
  rw [raise]
  split
  · next same =>
    cases Option.some.inj ((same ▸ seen).symm.trans known)
    exact ⟨n,rfl,low⟩
  · exact ⟨m,seen,Nat.le_refl m⟩

theorem of_raise (seen : g.raise owner n a = some m) : a = owner ∨ g a = some m := by
  rw [raise] at seen
  split at seen
  · next same => exact .inl same
  · exact .inr seen

end Floors

/-- A lock is asked for at the floor of its owner or above, and if it is granted the floor is raised. New
owners begin at the bottom. -/
def Rule.ascending : Rule Floors
  | .acquire owner id _ _, promise, g => ∃ floor, g owner = some floor ∧ floor ≤ id ∧
      promise (.ok ()) (g.raise owner (id + 1)) ∧ ∀ e, promise (.error e) g
  | .begin, promise, g => ∀ t, g t = none → promise t (g.raise t 0)
  | _, promise, g => ∀ r, promise r g

theorem Rule.ascending_monotone : Rule.ascending.Monotone := by
  intro c strong weak g implies obeys
  cases c with
  | acquire owner id =>
    obtain ⟨floor,known,low,granted,refused⟩ := obeys
    exact ⟨floor,known,low,implies _ _ granted,fun e => implies _ _ (refused e)⟩
  | begin => exact fun t unused => implies t _ (obeys t unused)
  | _ => exact fun r => implies r g (obeys r)

/-- Programs whose requests for locks all come from work under ordered locks or from single conditional
writes. -/
inductive Program.Orderly : Program α → Prop
  | done (a : α) : Orderly (.done a)
  | call (c : Call) (next : c.Reply → Program α)
      (asks_not : ∀ owner id timeout existing, c ≠ .acquire owner id timeout existing)
      (rest : ∀ r, Orderly (next r)) : Orderly (.call c next)
  | locked {σ β : Type} (l : Locking) (ids : List RecordId) (body : Session β) (s : σ)
      (next : Outcome β × σ → Program α) (inner : body.LockFree) (rest : ∀ r, Orderly (next r)) :
    Orderly (((l.withLocks ids body).start s).bind next)
  | single {σ : Type} (id : RecordId) (expected : Version) (balance : Amount) (s : σ)
      (next : Outcome Record × σ → Program α) (rest : ∀ r, Orderly (next r)) :
    Orderly (((Optimistic.conditionalUpdate id expected balance).start s).bind next)

theorem Rule.ascending_keeps : Rule.ascending.Keeps (fun c => !c.asks) fun _ => True := by
  intro c free promise g _ replied
  cases c with
  | acquire => cases free
  | begin => exact fun t _ => replied t _ trivial
  | _ => exact fun r => replied r g trivial

theorem Procedure.LockFree.obeys {p : Procedure σ α} (free : p.LockFree) (s : σ) (g : Floors) :
    p.Obeys Rule.ascending (fun _ _ _ => True) s g :=
  (Obeys.of_only Rule.ascending_keeps (free s) trivial).mono Rule.ascending_monotone
    fun _ _ _ _ => trivial

namespace Locking

variable (l : Locking)

theorem ascends_acquire {id floor : RecordId} {t : Transaction} {g : Floors}
    (known : g t.id = some floor) (low : floor ≤ id) :
    (l.acquire id).Obeys Rule.ascending
      (fun answer after g' => answer = .ok () → after.id = t.id ∧ g' t.id = some (id + 1)) t g := by
  have keeps : Rule.ascending.Keeps (Call.gives t.id) fun _ => True :=
    Rule.ascending_keeps.narrow fun _ gives => Call.asks_not_of_yields (Call.yields_of_gives gives)
  refine l.obeys_acquire Rule.ascending_monotone keeps (fun _ => trivial)
    (fun e t' g' _ _ granted => ?_) fun _ => ?_
  · cases granted
  · refine ⟨floor,known,low,?_,fun e => ⟨fun granted => ?_,fun _ => trivial⟩⟩
    · exact ⟨fun _ _ => ⟨Transaction.id_noteAcquired,if_pos rfl⟩,fun _ => trivial⟩
    · cases granted

theorem ascends_acquireAll {ids : List RecordId} {floor : RecordId} {t : Transaction} {g : Floors}
    (known : g t.id = some floor) (low : ∀ id ∈ ids, floor ≤ id) (ascending : ids.Pairwise (· < ·)) :
    (l.acquireAll ids).Obeys Rule.ascending (fun _ _ _ => True) t g := by
  let kept (ids : List RecordId) (t : Transaction) (g : Floors) : Prop :=
    ∃ floor, g t.id = some floor ∧ (∀ id ∈ ids, floor ≤ id) ∧ ids.Pairwise (· < ·)
  have start : kept ids t g := ⟨floor,known,low,ascending⟩
  refine l.obeys_acquireAll Rule.ascending_monotone (fun id ids t g before => ?_)
    (fun ids t g before _ => before) (fun _ _ _ => trivial) start
  obtain ⟨floor,known,low,ascending⟩ := before
  obtain ⟨above,tail⟩ := List.pairwise_cons.mp ascending
  refine (l.ascends_acquire known (low id List.mem_cons_self)).mono Rule.ascending_monotone ?_
  intro answer after g' raised
  refine ⟨fun _ _ => trivial,fun granted => ?_⟩
  obtain ⟨same,known⟩ := raised granted
  exact ⟨id + 1,same ▸ known,above,tail⟩

theorem ascends_withLocks (ids : List RecordId) {body : Session α} (inner : body.LockFree) (s : σ)
    (g : Floors) : (l.withLocks ids body).Obeys Rule.ascending (fun _ _ _ => True) s g := by
  simp only [withLocks,run,withTransaction,obeys_bind,obeys_perform,obeys_within,obeys_outcome]
  intro t unused
  refine (l.ascends_acquireAll (if_pos rfl) (fun _ _ => Nat.zero_le _) (pairwise_ascending ids)).mono
    Rule.ascending_monotone ?_
  intro answer t' g' _
  cases answer with
  | error e =>
    exact ((Session.lockFree_conclude (.error e)).obeys t' g').mono Rule.ascending_monotone
      fun _ _ _ _ => trivial
  | ok _ =>
    refine (inner.obeys t' g').mono Rule.ascending_monotone fun answer t' g' _ => ?_
    exact ((Session.lockFree_conclude answer).obeys t' g').mono Rule.ascending_monotone
      fun _ _ _ _ => trivial

end Locking

theorem Optimistic.ascends_conditionalUpdate (id : RecordId) (expected : Version) (balance : Amount)
    (s : σ) (g : Floors) : (conditionalUpdate id expected balance).Obeys Rule.ascending
      (fun _ _ _ => True) s g := by
  simp only [conditionalUpdate,obeys_bind,obeys_perform,obeys_ofError]
  intro reply
  rcases reply with e | _
  · trivial
  · intro reply
    rcases reply with _ | r
    · trivial
    · simp only [Option.isNone_some,Bool.false_eq_true,if_false,obeys_bind,obeys_perform,obeys_ofOutcome]
      refine fun owner _ => ⟨0,if_pos rfl,Nat.zero_le _,?_,?_⟩
      · exact fun _ _ => trivial
      · exact fun _ => trivial

theorem Program.Orderly.obeys {p : Program α} (orderly : p.Orderly) (g : Floors) :
    p.Obeys Rule.ascending (fun _ _ => True) g := by
  induction orderly generalizing g with
  | done a => trivial
  | call c next asks_not _ ih =>
    cases c with
    | acquire owner id timeout existing => exact absurd rfl (asks_not owner id timeout existing)
    | begin => exact fun t _ => ih t _
    | _ => exact fun r => ih r g
  | locked l ids body s next inner _ ih =>
    rw [Program.obeys_bind]
    exact Program.Obeys.mono Rule.ascending_monotone (l.ascends_withLocks ids inner s g) fun r g _ => ih r g
  | single id expected balance s next _ ih =>
    rw [Program.obeys_bind]
    exact Program.Obeys.mono Rule.ascending_monotone
      (Optimistic.ascends_conditionalUpdate id expected balance s g) fun r g _ => ih r g

namespace Session

theorem lockFree_read (id : RecordId) : (read id).LockFree := by
  intro t
  simp only [read,ensureActive,obeys_bind,obeys_get,obeys_ofError,obeys_perform]
  cases t.ensureActive with
  | error e => trivial
  | ok _ =>
    refine ⟨rfl,?_⟩
    intro reply
    rcases reply with _ | stored
    · trivial
    · trivial

theorem lockFree_write (id : RecordId) (expected : Version) (balance : Amount) :
    (write id expected balance).LockFree :=
  (lockFree_read id).bind fun _ _ => trivial

end Session

theorem Transfer.lockFree_stage (t : Transfer) : t.stage.LockFree := by
  refine (Session.lockFree_read _).bind fun source => ?_
  refine (Session.lockFree_read _).bind fun target => ?_
  refine (lockFree_ofOutcome _).bind fun debited => ?_
  refine (lockFree_ofOutcome _).bind fun credited => ?_
  refine (Session.lockFree_write _ _ _).bind fun source => ?_
  exact (Session.lockFree_write _ _ _).bind fun target _ => trivial

namespace Program.Orderly

theorem bind {p : Program α} {f : α → Program β} (first : p.Orderly) (rest : ∀ a, (f a).Orderly) :
    (p.bind f).Orderly := by
  induction first with
  | done a => exact rest a
  | call c next asks_not _ ih => exact .call c _ asks_not ih
  | locked l ids body s next inner _ ih =>
    rw [Program.bind_assoc]
    exact .locked l ids body s _ inner ih
  | single id expected balance s next _ ih =>
    rw [Program.bind_assoc]
    exact .single id expected balance s _ ih

end Program.Orderly

namespace Procedure

def Orderly (p : Procedure σ α) : Prop := ∀ s, (p.start s).Orderly

theorem Orderly.bind {p : Procedure σ α} {f : α → Procedure σ β} (first : p.Orderly)
    (rest : ∀ a, (f a).Orderly) : (p >>= f).Orderly := by
  intro s
  rw [start_bind]
  refine (first s).bind ?_
  intro r
  obtain ⟨e | a,s⟩ := r
  · exact .done _
  · exact rest a s

theorem LockFree.orderly {p : Procedure σ α} (free : p.LockFree) : p.Orderly := by
  have along : ∀ p : Program (Outcome α × σ),
      p.Obeys (Rule.only fun c => !c.asks) (fun _ _ => True) () → p.Orderly := by
    intro p
    induction p with
    | done r => exact fun _ => .done r
    | call c next ih =>
      intro obeys
      obtain ⟨free,rest⟩ := obeys
      refine .call c next (fun owner id timeout existing same => ?_) fun r => ih r (rest r)
      rw [same] at free
      cases free
  exact fun s => along (p.start s) (free s)

theorem orderly_withLocks (l : Locking) (ids : List RecordId) {body : Session α}
    (inner : body.LockFree) : (l.withLocks ids body : Procedure σ α).Orderly := by
  intro s
  rw [← Program.bind_done ((l.withLocks ids body).start s)]
  exact .locked l ids body s _ inner .done

theorem orderly_conditionalUpdate (id : RecordId) (expected : Version) (balance : Amount) :
    (Optimistic.conditionalUpdate id expected balance : Procedure σ Record).Orderly := by
  intro s
  rw [← Program.bind_done ((Optimistic.conditionalUpdate id expected balance).start s)]
  exact .single id expected balance s _ .done

theorem orderly_ordered (l : Locking) (t : Transfer) : (t.ordered l : Procedure σ Receipt).Orderly :=
  (lockFree_ofOutcome _).orderly.bind fun _ => orderly_withLocks l t.ids t.lockFree_stage

theorem orderly_update (id : RecordId) {mutate : Amount → Procedure σ Amount}
    (computes : ∀ balance, (mutate balance).Orderly) : (Optimistic.update id mutate).Orderly := by
  have read : (Optimistic.read id : Procedure σ Record).LockFree := by
    intro s
    simp only [Optimistic.read,obeys_bind,obeys_perform]
    refine ⟨rfl,?_⟩
    rintro (_ | stored) <;> trivial
  refine read.orderly.bind fun before => ?_
  refine (computes before.balance).bind fun balance => ?_
  exact (orderly_conditionalUpdate id before.version balance).bind fun after _ => .done _

theorem Orderly.outcome {p : Procedure σ α} (orderly : p.Orderly) : p.outcome.Orderly :=
  fun s => (orderly s).bind fun _ => .done _

private theorem orderly_of_aside {p : Procedure σ α} {goal : Outcome α → σ → Prop}
    (aside : ∀ s, p.Obeys (Rule.only Call.aside) (fun answer s _ => goal answer s) s ()) : p.Orderly :=
  (lockFree_of_only (fun c yes => by cases c <;> first | rfl | cases yes) aside).orderly

theorem orderly_loop (p : RetryPolicy) {o : RetryOptions σ α} {operation : Procedure σ α} (alone : o.fallback = none)
    (orderly : operation.Orderly) (left : Nat) (progress : RetryProgress) :
    (p.loop o operation left progress).Orderly := by
  have reports (e : Event) : (p.report e : Procedure σ Unit).Orderly := orderly_of_aside fun _ => p.aside_report e
  have gives (progress : RetryProgress) (e : RetryError) (fallbackUsed : Bool) :
      (p.giveUp progress e fallbackUsed : Procedure σ (Except RetryError (RetryOutcome α))).Orderly :=
    orderly_of_aside fun _ => p.aside_giveUp progress e fallbackUsed
  induction left using Nat.strongRecOn generalizing progress with
  | ind left ih =>
    unfold RetryPolicy.loop
    have asks : (perform .isCancelled : Procedure σ Bool).LockFree := fun _ => ⟨rfl,fun _ => trivial⟩
    refine asks.orderly.bind fun asked => ?_
    split
    · exact gives _ _ _
    · refine orderly.outcome.bind fun answer => ?_
      rcases answer with (e | c) | value
      · dsimp only
        split
        · exact (reports _).bind fun _ => gives _ _ _
        · refine (reports _).bind fun _ => ?_
          cases left with
          | zero =>
            dsimp only
            rw [RetryPolicy.exhaust,alone]
            exact gives _ _ _
          | succ left =>
            have draws : (liftM (RetryPolicy.nextDelay p.config progress.attempts) : Procedure σ Duration).LockFree :=
              fun _ => (obeys_lift _).mpr ⟨rfl,fun _ => trivial⟩
            have pauses (delay : Duration) : (RetryPolicy.pause o delay).Orderly :=
              orderly_of_aside fun _ => RetryPolicy.aside_pause o delay
            refine draws.orderly.bind fun delay => (pauses delay).bind fun resumes => ?_
            split
            · exact ih left (Nat.lt_succ_self left) _
            · exact gives _ _ _
      · exact fun _ => .done _
      · exact (reports _).bind fun _ => orderly_of_aside fun _ => p.aside_succeed _ false value

theorem orderly_run (p : RetryPolicy) {o : RetryOptions σ α} {operation : Procedure σ α} (alone : o.fallback = none)
    (orderly : operation.Orderly) : (p.run o operation).Orderly := by
  have reads : (perform .now : Procedure σ Time).LockFree := fun _ => ⟨rfl,fun _ => trivial⟩
  exact reads.orderly.bind fun _ => orderly_loop p alone orderly _ _

end Procedure

end VersionedLedger
