import VersionedLedger.Proofs.Program.Locking
import VersionedLedger.Proofs.Program.Retry
import VersionedLedger.Proofs.Serial.Operation

/-! Programs that change a record only while they hold its lock. What such a program has seen of a record stays
true until it gives the lock back, whatever runs beside it; so a transfer that has been granted both of its locks
can fail only on the balances that it finds there or on an injected fault. -/
namespace VersionedLedger

open Procedure View

variable {σ α β : Type}

/-- What a program knows of its locks: the records as it has last seen them, which of its owners holds a record,
its owners, and every lock that it has ever been granted. -/
structure Grip where
  view : View
  held : RecordId → Option TxnId := fun _ => none
  begun : List TxnId := []
  granted : List (TxnId × RecordId) := []

namespace Grip

variable {g : Grip} {V V' : View} {id x : RecordId} {a owner : TxnId} {r : Record}

/-- The records may have changed since they were seen, those that are held apart. -/
structure Steady (g : Grip) (V : View) : Prop where
  later : Later g.view V
  keyed : V.Keyed
  held : ∀ x a, g.held x = some a → V x = g.view x

def Unused (g : Grip) (a : TxnId) : Prop := a ∉ g.begun ∧ ∀ x, (a, x) ∉ g.granted

def sees (g : Grip) (V : View) : Grip := { g with view := V }

def begins (g : Grip) (a : TxnId) : Grip := { g with begun := a :: g.begun }

def grants (g : Grip) (owner : TxnId) (id : RecordId) : Grip :=
  { g with held := fun x => if x = id then some owner else g.held x, granted := (owner, id) :: g.granted }

def frees (g : Grip) (owner : TxnId) (ids : List RecordId) : Grip :=
  { g with held := fun x => if x ∈ ids ∧ g.held x = some owner then none else g.held x }

def empty (V : View) : Grip := { view := V }

theorem steady_sees (keyed : V.Keyed) : (g.sees V).Steady V := ⟨.refl V,keyed,fun _ _ _ => rfl⟩

theorem held_of_frees {ids : List RecordId} (held : (g.frees owner ids).held x = some a) :
    g.held x = some a ∧ ¬ (x ∈ ids ∧ a = owner) := by
  unfold frees at held
  dsimp only at held
  split at held
  · cases held
  · next kept => exact ⟨held,fun freed => kept ⟨freed.1,freed.2 ▸ held⟩⟩

theorem Steady.here (steady : g.Steady V) (held : g.held x = some a) (here : g.view x = some r) :
    V x = some r :=
  (steady.held x a held).trans here

end Grip

/-- Records are changed only under their locks, and locks are asked for and given back only in the name of the
program's own owners. Before each call that looks at the records, others may change those that are not held. -/
def Rule.guarded : Rule Grip
  | .lookup id, promise, g => ∀ V, g.Steady V → promise (V id) (g.sees V)
  | .begin, promise, g => ∀ a, g.Unused a → promise a (g.begins a)
  | .checkFault operation, promise, g =>
    promise (.ok ()) g ∧ promise (.error (.unavailable s!"injected fault during {operation}")) g
  | .acquire owner id _ existing, promise, g => owner ∈ g.begun ∧ (∀ V, g.Steady V →
      (existing = true → ∃ r, V id = some r) → promise (.ok ()) ((g.sees V).grants owner id)) ∧
      ∀ e, promise (.error e) g
  | .release owner id, promise, g => owner ∈ g.begun ∧ promise () (g.frees owner [id])
  | .releaseAll owner ids, promise, g => owner ∈ g.begun ∧ promise () (g.frees owner ids)
  | .install id expected balance, promise, g => (∃ a, g.held id = some a) ∧ ∀ V, g.Steady V →
      (∀ after V', Installs V id expected balance after V' → promise (.ok after) (g.sees V')) ∧
      ∀ e, promise (.error e) (g.sees V)
  | .apply writes, promise, g => (∀ (x : RecordId) (staged : StagedWrite), writes[x]? = some staged →
      0 < staged.writes ∧ ∃ a, g.held x = some a) ∧ ∀ V, g.Steady V →
      (Current V writes → promise (.ok ()) (g.sees (overlay V writes))) ∧
      (¬ Current V writes → ∀ e, promise (.error e) (g.sees V))
  | _, promise, g => ∀ r, promise r g

theorem Rule.guarded_monotone : Rule.guarded.Monotone := by
  intro c strong weak g implies obeys
  cases c with
  | lookup id => exact fun V steady => implies _ _ (obeys V steady)
  | begin => exact fun a unused => implies _ _ (obeys a unused)
  | checkFault operation => exact ⟨implies _ _ obeys.1,implies _ _ obeys.2⟩
  | acquire owner id timeout existing =>
    obtain ⟨own,granted,refused⟩ := obeys
    exact ⟨own,fun V steady present => implies _ _ (granted V steady present),fun e => implies _ _ (refused e)⟩
  | release | releaseAll => exact ⟨obeys.1,implies _ _ obeys.2⟩
  | install id expected balance =>
    refine ⟨obeys.1,fun V steady => ?_⟩
    obtain ⟨goes,fails⟩ := obeys.2 V steady
    exact ⟨fun after V' installs => implies _ _ (goes after V' installs),fun e => implies _ _ (fails e)⟩
  | apply writes =>
    refine ⟨obeys.1,fun V steady => ?_⟩
    obtain ⟨goes,fails⟩ := obeys.2 V steady
    exact ⟨fun current => implies _ _ (goes current),fun stale e => implies _ _ (fails stale e)⟩
  | _ => exact fun r => implies r g (obeys r)

theorem Rule.guarded_keeps_aside (known : Grip → Prop) : Rule.guarded.Keeps Call.aside known := by
  intro c aside promise g start replied
  cases c with
  | now | draw | isCancelled | sleep | report | tally | countDeadlock => exact fun r => replied r g start
  | _ => cases aside

theorem Rule.guarded_keeps_gives (owner : TxnId) (known : View → List (TxnId × RecordId) → Prop) :
    Rule.guarded.Keeps (Call.gives owner) fun g => owner ∈ g.begun ∧ known g.view g.granted := by
  intro c gives promise g start replied
  cases c with
  | release a id =>
    obtain rfl : a = owner := by simpa [Call.gives] using gives
    exact ⟨start.1,replied _ _ start⟩
  | releaseAll a ids =>
    obtain rfl : a = owner := by simpa [Call.gives] using gives
    exact ⟨start.1,replied _ _ start⟩
  | countAbort => exact fun r => replied r g start
  | _ => cases gives

def Program.Guarded (p : Program α) : Prop := ∀ g, p.Obeys Rule.guarded (fun _ _ => True) g

namespace Procedure

def Guarded (p : Procedure σ α) : Prop := ∀ s g, p.Obeys Rule.guarded (fun _ _ _ => True) s g

theorem Guarded.bind {p : Procedure σ α} {f : α → Procedure σ β} (first : p.Guarded)
    (rest : ∀ a, (f a).Guarded) : (p >>= f).Guarded := by
  intro s g
  rw [obeys_bind]
  refine (first s g).mono Rule.guarded_monotone fun answer s g _ => ?_
  cases answer with
  | error e => trivial
  | ok a => exact rest a s g

theorem guarded_pure (a : α) : (pure a : Procedure σ α).Guarded := fun _ _ => trivial

theorem guarded_ofOutcome (answer : Outcome α) : (ofOutcome answer : Procedure σ α).Guarded :=
  fun _ _ => trivial

theorem Guarded.program {p : Procedure σ α} (guarded : p.Guarded) (s : σ) (f : Outcome α × σ → β) :
    ((p.start s).bind fun r => .done (f r)).Guarded := by
  intro g
  rw [Program.obeys_bind]
  exact Program.Obeys.mono Rule.guarded_monotone (guarded s g) fun _ _ _ => trivial

end Procedure

namespace Optimistic

theorem guarded_read (id : RecordId) : (read id : Procedure σ Record).Guarded := by
  intro s g
  simp only [read,obeys_bind,obeys_perform]
  intro V steady
  cases V id <;> trivial

theorem guarded_conditionalUpdate (id : RecordId) (expected : Version) (balance : Amount) :
    (conditionalUpdate id expected balance : Procedure σ Record).Guarded := by
  intro s g
  simp only [conditionalUpdate,obeys_bind,obeys_perform,obeys_ofError]
  refine ⟨fun V steady => ?_,trivial⟩
  dsimp only
  rw [obeys_ite]
  split
  · trivial
  · simp only [obeys_bind,obeys_perform,obeys_ofOutcome]
    refine fun owner unused => ⟨List.mem_cons_self,fun V steady _ => ?_,fun e => trivial⟩
    refine ⟨⟨owner,if_pos rfl⟩,fun V steady => ⟨fun after V' installs => ?_,fun e => ?_⟩⟩
    · exact ⟨List.mem_cons_self,trivial⟩
    · exact ⟨List.mem_cons_self,trivial⟩

theorem guarded_update (id : RecordId) {mutate : Amount → Procedure σ Amount}
    (computes : ∀ balance, (mutate balance).Guarded) : (update id mutate).Guarded := by
  refine (guarded_read id).bind fun before => (computes before.balance).bind fun balance => ?_
  exact (guarded_conditionalUpdate id before.version balance).bind fun after => guarded_pure _

end Optimistic

namespace Account

variable {balance amount : Amount} {e : Error}

theorem exists_validation_of_credit (refused : credit balance amount = .error e) :
    ∃ reason, e = .validation reason := by
  unfold credit at refused
  split at refused
  · cases refused
    exact ⟨_,rfl⟩
  · split at refused <;> cases refused
    exact ⟨_,rfl⟩

theorem exists_validation_of_debit (refused : debit balance amount = .error e) :
    ∃ reason, e = .validation reason := by
  unfold debit at refused
  split at refused
  · cases refused
    exact ⟨_,rfl⟩
  · split at refused <;> cases refused
    exact ⟨_,rfl⟩

end Account

namespace Transfer

def Locked (t : Transfer) (granted : List (TxnId × RecordId)) : Prop :=
  ∃ a, (a, t.source) ∈ granted ∧ (a, t.target) ∈ granted

/-- How a transfer can fail under both locks. It crashes only on a version that cannot be raised any more. -/
inductive Fails (t : Transfer) (V : View) : Failure → Prop
  | refused (reason : String) : Fails t V (.error (.validation reason))
  | fault : Fails t V (.error (.unavailable "injected fault during commit"))
  | worn {id : RecordId} {r : Record} (member : id ∈ t.ids) (here : V id = some r)
      (full : Version.limit ≤ r.version + 1) : Fails t V (.crash .sumOverflow)

variable {t : Transfer} {V V' : View} {f : Failure}

theorem Fails.later (fails : t.Fails V f) (later : Later V V') : t.Fails V' f := by
  cases fails with
  | refused reason => exact .refused reason
  | fault => exact .fault
  | worn member here full =>
    obtain ⟨r',there,newer,_⟩ := later _ _ here
    exact .worn member there (Nat.le_trans full (Nat.succ_le_succ newer))

/-- Unless both locks had been granted before, a failure with both of them is one that a transfer can meet. -/
def Secure (t : Transfer) (before : List (TxnId × RecordId)) : Outcome β → Grip → Prop
  | .ok _, _ => True
  | .error f, g => t.Locked g.granted → t.Locked before ∨ t.Fails g.view f

end Transfer

namespace Locking

/-- A new owner is on its way through a list of locks, of which some are still to be asked for. -/
structure Gathers (start : Grip) (all missing : List RecordId) (own : Transaction) (g : Grip) : Prop where
  active : own.ensureActive = .ok ()
  clean : own.writes = ∅
  begun : own.id ∈ g.begun
  inside : ∀ x ∈ missing, x ∈ all
  distinct : missing.Nodup
  held : ∀ x ∈ all, x ∉ missing → g.held x = some own.id ∧ ∃ r, g.view x = some r
  granted : ∀ a x, (a, x) ∈ g.granted → (a, x) ∈ start.granted ∨ a = own.id ∧ x ∉ missing
  unused : ∀ x, (own.id, x) ∉ start.granted

variable {start g : Grip} {all missing : List RecordId} {own : Transaction} {id : RecordId} {t : Transfer}

theorem Gathers.locked_before (gathers : Gathers start all (id :: missing) own g)
    (covers : ∀ x ∈ all, x ∈ t.ids) (locked : t.Locked g.granted) : t.Locked start.granted := by
  obtain ⟨a,source,target⟩ := locked
  rcases gathers.granted a t.source source with source | ⟨rfl,source⟩
  · rcases gathers.granted a t.target target with target | ⟨rfl,_⟩
    · exact ⟨a,source,target⟩
    · exact absurd source (gathers.unused _)
  · rcases gathers.granted own.id t.target target with before | ⟨_,target⟩
    · exact absurd before (gathers.unused _)
    · have member := covers id (gathers.inside id List.mem_cons_self)
      rcases List.mem_cons.mp member with rfl | member
      · exact absurd List.mem_cons_self source
      · cases List.mem_singleton.mp member
        exact absurd List.mem_cons_self target

theorem Gathers.grant (gathers : Gathers start all (id :: missing) own g) {V : View} (steady : g.Steady V)
    (present : ∃ r, V id = some r) :
    Gathers start all missing (own.noteAcquired id) ((g.sees V).grants own.id id) where
  active := by rw [Transaction.ensureActive_noteAcquired,gathers.active]
  clean := by rw [Transaction.writes_noteAcquired,gathers.clean]
  begun := by rw [Transaction.id_noteAcquired]; exact gathers.begun
  inside x member := gathers.inside x (List.mem_cons_of_mem id member)
  distinct := (List.nodup_cons.mp gathers.distinct).2
  unused x := by rw [Transaction.id_noteAcquired]; exact gathers.unused x
  held x member got := by
    rw [Transaction.id_noteAcquired]
    change (if x = id then some own.id else g.held x) = some own.id ∧ ∃ r, V x = some r
    split
    · next same => exact ⟨rfl,same ▸ present⟩
    · next other =>
      obtain ⟨held,r,here⟩ := gathers.held x member (by simp [other,got])
      exact ⟨held,r,steady.here held here⟩
  granted a x member := by
    rw [Transaction.id_noteAcquired]
    rcases List.mem_cons.mp member with same | before
    · cases same
      exact .inr ⟨rfl,(List.nodup_cons.mp gathers.distinct).1⟩
    · exact (gathers.granted a x before).imp_right fun asked =>
        ⟨asked.1,fun later => asked.2 (List.mem_cons_of_mem _ later)⟩

variable (l : Locking)

theorem guarded_acquireAll (covers : ∀ x ∈ all, x ∈ t.ids) (gathers : Gathers start all missing own g) :
    (l.acquireAll missing).Obeys Rule.guarded (fun answer after g => after.id ∈ g.begun ∧
      t.Secure start.granted answer g ∧ (answer = .ok () → Gathers start all [] after g)) own g := by
  let kept (missing : List RecordId) (own : Transaction) (g : Grip) : Prop := Gathers start all missing own g
  have gathering : kept missing own g := gathers
  refine l.obeys_acquireAll Rule.guarded_monotone (fun id ids own g gathers => ?_)
    (fun ids own g gathers _ => gathers) (fun own g gathers => ⟨gathers.begun,trivial,fun _ => gathers⟩) gathering
  let lacking (_ : View) (granted : List (TxnId × RecordId)) : Prop := t.Locked granted → t.Locked start.granted
  have lacks : own.id ∈ g.begun ∧ lacking g.view g.granted := ⟨gathers.begun,gathers.locked_before covers⟩
  refine l.obeys_acquire Rule.guarded_monotone (Rule.guarded_keeps_gives own.id lacking)
    (fun inactive => absurd gathers.active inactive) (fun f after g same known => ?_) fun _ => ?_
  · have ended : after.id ∈ g.begun ∧ t.Secure start.granted (.error f : Outcome Unit) g :=
      ⟨same ▸ known.1,fun locked => .inl (known.2 locked)⟩
    refine ⟨fun e _ => ⟨ended.1,ended.2,fun granted => ?_⟩,fun granted => ?_⟩ <;> cases granted
  · refine ⟨gathers.begun,fun V steady present => ⟨fun _ => ⟨fun e refused => ?_,fun _ => ?_⟩,absurd rfl⟩,?_⟩
    · cases refused
    · exact gathers.grant steady (present rfl)
    · intro e
      refine ⟨fun granted => ?_,fun _ => lacks⟩
      cases granted

end Locking

namespace Session

variable {goal : Outcome Record → Transaction → Grip → Prop} {own : Transaction} {g : Grip} {id : RecordId}
  {a : TxnId} {r : Record}

theorem guarded_read_held (active : own.ensureActive = .ok ()) (held : g.held id = some a)
    (here : g.view id = some r) (goes : ∀ V, g.Steady V → r.id = id → goal (own.view r) own (g.sees V)) :
    (read id).Obeys Rule.guarded goal own g := by
  simp only [read,ensureActive,obeys_bind,obeys_get,obeys_ofError,obeys_perform,active]
  intro V steady
  have there := steady.here held here
  rw [there]
  exact goes V steady (steady.keyed id r there)

theorem guarded_write_held {balance : Amount} (active : own.ensureActive = .ok ()) (held : g.held id = some a)
    (here : g.view id = some r) (unstaged : own.writes[r.id]? = none)
    (goes : ∀ V, g.Steady V → goal (r.next balance) (stageFirst own r balance) (g.sees V)) :
    (write id r.version balance).Obeys Rule.guarded goal own g := by
  unfold write
  rw [obeys_bind]
  refine guarded_read_held active held here fun V steady _ => ?_
  rw [view_unstaged unstaged]
  simp only [obeys_bind,obeys_get,obeys_set,obeys_ofOutcome,stage_first active unstaged]
  exact goes V steady

end Session

namespace Transfer

variable {t : Transfer} {own : Transaction} {g : Grip}

/-- Both records are held by a transaction that goes on. -/
structure Grasps (t : Transfer) (own : Transaction) (source target : Record) (g : Grip) : Prop where
  active : own.ensureActive = .ok ()
  begun : own.id ∈ g.begun
  source : g.view t.source = some source
  target : g.view t.target = some target
  held : ∀ x ∈ t.ids, ∃ a, g.held x = some a

variable {source target : Record} {V : View}

theorem Grasps.sees (grasps : t.Grasps own source target g) (steady : g.Steady V) :
    t.Grasps own source target (g.sees V) where
  active := grasps.active
  begun := grasps.begun
  source := by
    obtain ⟨a,held⟩ := grasps.held t.source List.mem_cons_self
    exact steady.here held grasps.source
  target := by
    obtain ⟨a,held⟩ := grasps.held t.target (List.mem_cons_of_mem _ List.mem_cons_self)
    exact steady.here held grasps.target
  held := grasps.held

theorem Grasps.stageFirst (grasps : t.Grasps own source target g) (r : Record) (balance : Amount) :
    t.Grasps (Session.stageFirst own r balance) source target g :=
  ⟨grasps.active,grasps.begun,grasps.source,grasps.target,grasps.held⟩

theorem Grasps.current (grasps : t.Grasps own source target g) (steady : g.Steady V) {debited credited : Amount} :
    Current V (t.staged source target debited credited) :=
  current_staged (grasps.sees steady).source (grasps.sees steady).target

/-- Work on records that are held fails only as a transfer does, or stages both writes. -/
def Works (t : Transfer) (source target : Record) : Outcome Receipt → Transaction → Grip → Prop
  | .ok _, own, g => t.Grasps own source target g ∧
      ∃ debited credited, own.writes = t.staged source target debited credited
  | .error f, own, g => own.id ∈ g.begun ∧ t.Fails g.view f

theorem guarded_stage (valid : t.validate = .ok ()) (clean : own.writes = ∅)
    (grasps : t.Grasps own source target g) :
    t.stage.Obeys Rule.guarded (t.Works source target) own g := by
  have empty (id : RecordId) : own.writes[id]? = none := by rw [clean]; simp
  obtain ⟨a,source_held⟩ := grasps.held t.source List.mem_cons_self
  obtain ⟨b,target_held⟩ := grasps.held t.target (List.mem_cons_of_mem _ List.mem_cons_self)
  unfold stage
  rw [obeys_bind]
  refine Session.guarded_read_held grasps.active source_held grasps.source fun V₁ steady source_named => ?_
  have grasps := grasps.sees steady
  rw [Session.view_unstaged (empty source.id)]
  dsimp only
  rw [obeys_bind]
  refine Session.guarded_read_held grasps.active target_held grasps.target fun V₂ steady target_named => ?_
  have grasps := grasps.sees steady
  rw [Session.view_unstaged (empty target.id)]
  dsimp only
  rw [obeys_bind,obeys_ofError]
  cases debit : Account.debit source.balance t.amount with
  | error e =>
    obtain ⟨reason,rfl⟩ := Account.exists_validation_of_debit debit
    exact ⟨grasps.begun,.refused reason⟩
  | ok debited =>
    dsimp only [Outcome.ofError]
    rw [obeys_bind,obeys_ofError]
    cases credit : Account.credit target.balance t.amount with
    | error e =>
      obtain ⟨reason,rfl⟩ := Account.exists_validation_of_credit credit
      exact ⟨grasps.begun,.refused reason⟩
    | ok credited =>
      dsimp only [Outcome.ofError]
      rw [obeys_bind]
      refine Session.guarded_write_held grasps.active source_held grasps.source (empty _) fun V₃ steady => ?_
      have grasps := (grasps.sees steady).stageFirst source debited
      cases source_next : source.next debited with
      | error f =>
        obtain ⟨rfl,full⟩ := Record.full_of_next source_next
        exact ⟨grasps.begun,.worn List.mem_cons_self grasps.source full⟩
      | ok source' =>
        have unstaged : (Session.stageFirst own source debited).writes[target.id]? = none := by
          have differ := source_ne_target valid
          rw [← source_named,← target_named] at differ
          simp [Session.stageFirst,clean,differ]
        dsimp only
        rw [obeys_bind]
        refine Session.guarded_write_held grasps.active target_held grasps.target unstaged fun V₄ steady => ?_
        have grasps := (grasps.sees steady).stageFirst target credited
        cases target_next : target.next credited with
        | error f =>
          obtain ⟨rfl,full⟩ := Record.full_of_next target_next
          exact ⟨grasps.begun,.worn (List.mem_cons_of_mem _ List.mem_cons_self) grasps.target full⟩
        | ok target' =>
          refine ⟨grasps,debited,credited,?_⟩
          simp only [Session.stageFirst,staged,clean,source_named,target_named]

variable (before : List (TxnId × RecordId))

theorem secure_conclude_error {before : List (TxnId × RecordId)} (f : Failure) (begun : own.id ∈ g.begun)
    (secure : t.Secure before (.error f : Outcome β) g) : (Session.conclude (.error f : Outcome β)).Obeys
      Rule.guarded (fun answer _ => t.Secure before answer) own g := by
  let known : View → List (TxnId × RecordId) → Prop :=
    fun V granted => t.Locked granted → t.Locked before ∨ t.Fails V f
  have start : own.id ∈ g.begun ∧ known g.view g.granted := ⟨begun,secure⟩
  refine (Obeys.of_only (Rule.guarded_keeps_gives own.id known) (Session.gives_conclude_error f) start).mono
    Rule.guarded_monotone fun answer own g ended => ?_
  rw [ended.1]
  exact ended.2.2

theorem secure_commit {debited credited : Amount} (grasps : t.Grasps own source target g)
    (written : own.writes = t.staged source target debited credited) :
    Session.commit.Obeys Rule.guarded (fun answer _ => t.Secure before answer) own g := by
  have pending : ¬ own.isReadOnly = true := by
    rw [Transaction.isReadOnly,written,staged,Std.TreeMap.isEmpty_insert]
    exact Bool.false_ne_true
  have closes (V : View) : Session.releaseHeld.Obeys Rule.guarded (fun answer _ => t.Secure before answer)
      own.markCommitted (g.sees (overlay V own.writes)) := by
    have begun : own.markCommitted.id ∈ (g.sees (overlay V own.writes)).begun ∧ True := ⟨grasps.begun,trivial⟩
    refine (Obeys.of_only (Rule.guarded_keeps_gives _ fun _ _ => True) Session.gives_releaseHeld begun).mono
      Rule.guarded_monotone fun answer own g ended => ?_
    rw [ended.1]
    trivial
  simp only [Session.commit,obeys_bind,obeys_get,grasps.active]
  rw [obeys_ite,if_neg pending,obeys_bind,obeys_perform]
  refine ⟨?_,secure_conclude_error _ grasps.begun fun _ => .inr .fault⟩
  dsimp only
  rw [obeys_bind,obeys_perform]
  refine ⟨fun x entry found => ?_,fun V steady => ⟨fun _ => ?_,fun stale => ?_⟩⟩
  · rw [written,staged_lookup] at found
    split at found
    · next same =>
      cases found
      exact ⟨Nat.zero_lt_one,grasps.held x (by simp [ids,same])⟩
    · split at found
      · next same =>
        cases found
        exact ⟨Nat.zero_lt_one,grasps.held x (by simp [ids,same])⟩
      · cases found
  · exact closes V
  · exact absurd (written ▸ grasps.current steady) stale

theorem secure_run (l : Locking) {ids : List RecordId} (valid : t.validate = .ok ()) (distinct : ids.Nodup)
    (covers : ∀ x, x ∈ ids ↔ x ∈ t.ids) (s : σ) (g : Grip) :
    (l.run ids t.stage).Obeys Rule.guarded (fun answer _ => t.Secure g.granted answer) s g := by
  simp only [Locking.run,withTransaction,obeys_bind,obeys_perform,obeys_within,obeys_outcome,obeys_ofOutcome]
  intro owner unused
  have gathers : Locking.Gathers g ids ids (Transaction.start owner) (g.begins owner) :=
    ⟨rfl,rfl,List.mem_cons_self,fun _ member => member,distinct,fun x member missing => absurd member missing,
      fun a x granted => .inl granted,unused.2⟩
  refine (l.guarded_acquireAll (fun x => (covers x).mp) gathers).mono Rule.guarded_monotone ?_
  intro answer own g' locked
  obtain ⟨begun,secure,complete⟩ := locked
  cases answer with
  | error f => exact secure_conclude_error f begun secure
  | ok _ =>
    have all := complete rfl
    have held (x : RecordId) (member : x ∈ t.ids) : g'.held x = some own.id ∧ ∃ r, g'.view x = some r :=
      all.held x ((covers x).mpr member) List.not_mem_nil
    obtain ⟨source,source_here⟩ := (held t.source List.mem_cons_self).2
    obtain ⟨target,target_here⟩ := (held t.target (List.mem_cons_of_mem _ List.mem_cons_self)).2
    have grasps : t.Grasps own source target g' :=
      ⟨all.active,begun,source_here,target_here,fun x member => ⟨_,(held x member).1⟩⟩
    refine (guarded_stage valid all.clean grasps).mono Rule.guarded_monotone fun answer own g' works => ?_
    cases answer with
    | error f => exact secure_conclude_error f works.1 fun _ => .inr works.2
    | ok receipt =>
      obtain ⟨grasps,debited,credited,written⟩ := works
      dsimp only [Session.conclude]
      rw [obeys_bind]
      refine (secure_commit g.granted grasps written).mono Rule.guarded_monotone fun answer own g' secure => ?_
      cases answer with
      | error f => exact secure
      | ok _ => trivial

end Transfer

namespace Locking

theorem nodup_ascending (ids : List RecordId) : (ascending ids).Nodup :=
  (pairwise_ascending ids).imp fun below => Nat.ne_of_lt below

end Locking

namespace Transfer

variable (t : Transfer)

theorem secure_ordered (l : Locking) (s : σ) (g : Grip) :
    (t.ordered l).Obeys Rule.guarded (fun answer _ => t.Secure g.granted answer) s g := by
  unfold ordered
  rw [obeys_bind,obeys_ofError]
  cases valid : t.validate with
  | error e => exact .inl
  | ok _ => exact secure_run l valid (Locking.nodup_ascending _) (fun _ => Locking.mem_ascending) s g

theorem guarded_ordered (l : Locking) : (t.ordered l : Procedure σ Receipt).Guarded :=
  fun s g => (t.secure_ordered l s g).mono Rule.guarded_monotone fun _ _ _ _ => trivial

theorem secure_requested (l : Locking) (valid : t.validate = .ok ()) (s : σ) (g : Grip) :
    (t.requested l).Obeys Rule.guarded (fun answer _ => t.Secure g.granted answer) s g := by
  have differ := source_ne_target valid
  have order : Locking.requestOrder t.ids = t.ids := by
    simp [Locking.requestOrder,ids,List.eraseDups_cons,Ne.symm differ]
  unfold requested Locking.withLocksInRequestOrder
  rw [order]
  exact secure_run l valid (by simp [ids,differ]) (fun _ => Iff.rfl) s g

end Transfer

namespace DeadlockCoordinator

variable (c : DeadlockCoordinator) (t : Transfer)

theorem secure_attempt (valid : t.validate = .ok ()) (s : σ) (g : Grip) :
    (c.attempt t).Obeys Rule.guarded (fun answer _ => t.Secure g.granted answer) s g := by
  simp only [attempt,obeys_bind,obeys_outcome]
  refine (t.secure_requested c.locking valid s g).mono Rule.guarded_monotone fun answer s g' secure => ?_
  rcases answer with (e | _) | _
  · dsimp only
    rw [obeys_ite]
    split
    · exact fun _ => secure
    · exact secure
  · exact secure
  · exact secure

/-- An attempt that is made again has not had both locks, and the last one fails as a transfer does. -/
theorem secure_transfer (s : σ) (g : Grip) :
    (c.transfer t).Obeys Rule.guarded (fun answer _ => t.Secure g.granted answer) s g := by
  unfold transfer
  rw [obeys_bind,obeys_ofError]
  cases valid : t.validate with
  | error e => exact .inl
  | ok _ =>
    dsimp only [Outcome.ofError]
    rw [obeys_bind]
    unfold RetryPolicy.run
    rw [obeys_bind,obeys_perform]
    intro now
    let lacks : Grip → Prop := fun g' => t.Locked g'.granted → t.Locked g.granted
    let failed : Failure → Grip → Prop := fun f g' => t.Secure g.granted (.error f : Outcome Receipt) g'
    have attempts : ∀ (s : σ) (g' : Grip), lacks g' → (c.attempt t).Obeys Rule.guarded
        (fun answer _ => RetryPolicy.Told failed (fun _ _ => True) answer) s g' := by
      intro s g' before
      refine (c.secure_attempt t valid s g').mono Rule.guarded_monotone fun answer s g'' secure => ?_
      cases answer with
      | error f => exact fun locked => (secure locked).imp_left before
      | ok _ => trivial
    have again : ∀ e g', classify e = .retryable → failed (.error e) g' → lacks g' := by
      intro e g' picked secure locked
      refine (secure locked).resolve_right fun fails => ?_
      cases fails <;> cases picked
    refine (c.policy.obeys_loop (o := { classify }) Rule.guarded_monotone (Rule.guarded_keeps_aside lacks)
      (fun f => Rule.guarded_keeps_aside (failed f)) (fun _ => Rule.guarded_keeps_aside _) rfl again attempts _ _
      fun locked => locked).mono Rule.guarded_monotone fun answer s g' tells => ?_
    rcases answer with f | e | o
    · obtain ⟨c,rfl,secure⟩ := tells
      exact secure
    · cases e with
      | fatal n e => exact fun _ => tells
      | exhausted | cancelled => exact fun _ locked => .inl (tells locked)
    · exact fun _ => trivial

theorem guarded_transfer : (c.transfer t : Procedure σ Receipt).Guarded :=
  fun s g => (c.secure_transfer t s g).mono Rule.guarded_monotone fun _ _ _ _ => trivial

end DeadlockCoordinator

namespace Operation

def transfer? : Operation → Option Transfer
  | update .. => none
  | ordered _ t | coordinated _ t => some t

theorem guarded_program (o : Operation) : o.program.Guarded := by
  have guarded : o.procedure.Guarded := by
    cases o with
    | update id mutate =>
      exact (Optimistic.guarded_update id fun balance => guarded_ofOutcome (mutate balance)).bind
        fun u => guarded_pure _
    | ordered l t => exact (t.guarded_ordered l).bind fun receipt => guarded_pure _
    | coordinated c t => exact (c.guarded_transfer t).bind fun receipt => guarded_pure _
  exact guarded.program () Prod.fst

theorem secure_program {o : Operation} {t : Transfer} (transfers : o.transfer? = some t) (g : Grip) :
    o.program.Obeys Rule.guarded (t.Secure g.granted) g := by
  have receives {p : Procedure Unit Receipt}
      (secure : p.Obeys Rule.guarded (fun answer _ => t.Secure g.granted answer) () g) :
      (p >>= fun receipt => pure (.transfer receipt) : Procedure Unit Written).Obeys Rule.guarded
        (fun answer _ => t.Secure g.granted answer) () g := by
    rw [obeys_bind]
    refine secure.mono Rule.guarded_monotone fun answer _ g secure => ?_
    cases answer with
    | error f => exact secure
    | ok receipt => trivial
  rw [program,Program.obeys_bind]
  cases o with
  | update id mutate => cases transfers
  | ordered l t =>
    cases transfers
    exact receives (t.secure_ordered l () g)
  | coordinated c t =>
    cases transfers
    exact receives (c.secure_transfer t () g)

end Operation

end VersionedLedger
