import VersionedLedger.Proofs.Program.Locking
import VersionedLedger.Proofs.Program.Retry
import VersionedLedger.Proofs.Serial.Operation

/-! What operations promise while others run beside them. Whatever happens between two calls, the call that
changes records does all that the operation is meant to do, on the records as they are at that moment; no
other call changes any, and the operation returns a value if and only if it has made this call. -/
namespace VersionedLedger

open Procedure View

/-- What an operation knows: records that it may have seen, and what it has written. -/
structure Seen where
  view : View
  written : Option Written

/-- Other operations may change the records before each call that looks at them. -/
def Rule.unwritten (achieves : View → Written → View → Prop) :
    (c : Call) → (c.Reply → Seen → Prop) → View → Prop
  | .lookup id, promise, V => ∀ V', Later V V' → V'.Keyed → promise (V' id) ⟨V', none⟩
  | .install id expected balance, promise, V => ∀ V', Later V V' → V'.Keyed →
      (∀ after V'', Installs V' id expected balance after V'' →
        ∃ v, achieves V' v V'' ∧ promise (.ok after) ⟨V'', some v⟩) ∧
      ∀ e, promise (.error e) ⟨V', none⟩
  | .apply writes, promise, V => ∀ V', Later V V' → V'.Keyed →
      (Current V' writes → ∃ v, achieves V' v (overlay V' writes) ∧
        promise (.ok ()) ⟨overlay V' writes, some v⟩) ∧
      ∀ e, promise (.error e) ⟨V', none⟩
  | _, promise, V => ∀ r, promise r ⟨V, none⟩

/-- Records are changed once, by a call that achieves what is meant. -/
def Rule.serial (achieves : View → Written → View → Prop) : Rule Seen
  | c, promise, ⟨V, none⟩ => Rule.unwritten achieves c promise V
  | c, promise, ⟨V, some v⟩ => c.writes = false ∧ ∀ r, promise r ⟨V, some v⟩

variable {achieves : View → Written → View → Prop} {σ α : Type} {V V' : View}

theorem Rule.serial_monotone : (Rule.serial achieves).Monotone := by
  intro c strong weak g implies obeys
  obtain ⟨V,_ | v⟩ := g
  · cases c with
    | lookup id => exact fun V' later keyed => implies _ _ (obeys V' later keyed)
    | install id expected balance =>
      intro V' later keyed
      obtain ⟨goes,fails⟩ := obeys V' later keyed
      refine ⟨fun after V'' installs => ?_,fun e => implies _ _ (fails e)⟩
      obtain ⟨v,done,promised⟩ := goes after V'' installs
      exact ⟨v,done,implies _ _ promised⟩
    | apply writes =>
      intro V' later keyed
      obtain ⟨goes,fails⟩ := obeys V' later keyed
      refine ⟨fun current => ?_,fun e => implies _ _ (fails e)⟩
      obtain ⟨v,done,promised⟩ := goes current
      exact ⟨v,done,implies _ _ promised⟩
    | _ => exact fun r => implies r _ (obeys r)
  · exact ⟨obeys.1,fun r => implies r _ (obeys.2 r)⟩

def Seen.Before (V : View) (g : Seen) : Prop := g.written = none ∧ Later V g.view

def Seen.After (v : Written) (g : Seen) : Prop := g.written = some v

theorem Rule.serial_keeps_before (V : View) :
    (Rule.serial achieves).Keeps (fun c => !c.writes) (Seen.Before V) := by
  intro c quiet promise seen before replied
  obtain ⟨V',_⟩ := seen
  obtain ⟨rfl,later⟩ := before
  cases c with
  | install | apply => cases quiet
  | lookup id => exact fun V'' onward _ => replied _ _ ⟨rfl,later.trans onward⟩
  | _ => exact fun r => replied r _ ⟨rfl,later⟩

theorem Rule.serial_keeps_after (v : Written) :
    (Rule.serial achieves).Keeps (fun c => !c.writes) (Seen.After v) := by
  intro c quiet promise seen same replied
  obtain ⟨V',_⟩ := seen
  subst same
  exact ⟨by simpa using quiet,fun r => replied r _ rfl⟩

theorem Call.quiet_of_aside {c : Call} (aside : c.aside = true) : (!c.writes) = true := by
  cases c <;> first | rfl | cases aside

theorem Rule.serial_keeps_unwritten :
    (Rule.serial achieves).Keeps Call.aside fun g => g.written = none :=
  fun c aside promise g unwritten replied =>
    Rule.serial_keeps_before g.view c (Call.quiet_of_aside aside) promise g ⟨unwritten,.refl _⟩
      fun r g' before => replied r g' before.1

theorem Rule.serial_keeps_aside (v : Written) :
    (Rule.serial achieves).Keeps Call.aside (Seen.After v) :=
  fun c aside => Rule.serial_keeps_after v c (Call.quiet_of_aside aside)

/-- A value is returned if and only if one has been written, and it is the same. -/
def Seen.Ends : Outcome Written → Seen → Prop
  | .ok v, g => g.written = some v
  | .error _, g => g.written = none

namespace Session

variable {goal : Outcome Record → Transaction → Seen → Prop} {t : Transaction} {id : RecordId}

theorem serial_read
    (found : ∀ V' r, Later V V' → V'.Keyed → V' id = some r → goal (t.view r) t ⟨V', none⟩)
    (fails : ∀ V' e, Later V V' → goal (.error e) t ⟨V', none⟩) :
    (read id).Obeys (Rule.serial achieves) goal t ⟨V, none⟩ := by
  simp only [read,ensureActive,obeys_bind,obeys_get,obeys_ofError,obeys_perform]
  cases t.ensureActive with
  | error e => exact fails V _ (.refl V)
  | ok _ =>
    intro V' later keyed
    cases here : V' id with
    | none => exact fails V' _ later
    | some r => exact found V' r later keyed here

theorem serial_write {expected : Version} {balance : Amount} (unstaged : t.writes[id]? = none)
    (found : ∀ V' r, Later V V' → V'.Keyed → V' id = some r → r.version = expected →
      goal (r.next balance) (stageFirst t r balance) ⟨V', none⟩)
    (fails : ∀ V' e, Later V V' → goal (.error e) t ⟨V', none⟩) :
    (write id expected balance).Obeys (Rule.serial achieves) goal t ⟨V, none⟩ := by
  unfold write
  rw [obeys_bind]
  refine serial_read (fun V' r later keyed here => ?_) fails
  have unstaged : t.writes[r.id]? = none := by rw [keyed id r here,unstaged]
  rw [view_unstaged unstaged]
  simp only [obeys_bind,obeys_get,obeys_set,obeys_ofOutcome]
  rcases Session.stage_unstaged unstaged with ⟨staged,current⟩ | ⟨e,refused⟩
  · rw [staged]
    exact found V' r later keyed here current
  · rw [refused]
    exact fails V' e later

end Session

namespace Transfer

inductive Prepared (t : Transfer) (V : View) : Receipt → WriteSet → Prop
  | intro {source target source' target' : Record} {debited credited : Amount}
      (source_known : Known V t.source source) (target_known : Known V t.target target)
      (source_named : source.id = t.source) (target_named : target.id = t.target)
      (debit : Account.debit source.balance t.amount = .ok debited)
      (credit : Account.credit target.balance t.amount = .ok credited)
      (source_next : source.next debited = .ok source')
      (target_next : target.next credited = .ok target') :
    Prepared t V ⟨t, source'.balance, target'.balance, source'.version, target'.version⟩
      (t.staged source target debited credited)

variable {t : Transfer} {receipt : Receipt} {writes : WriteSet}

theorem Prepared.moves (prepared : t.Prepared V receipt writes) (valid : t.validate = .ok ())
    (later : Later V V') (current : Current V' writes) : t.Moves V' receipt (overlay V' writes) := by
  cases prepared with
  | @intro source target source' target' debited credited source_known target_known source_named
      target_named debit credit source_next target_next =>
    have differ := source_ne_target valid
    have source_here : V' t.source = some source := by
      obtain ⟨r,here,same⟩ := current t.source ⟨source.version, debited, 1⟩
        (by simp [staged_lookup,Ne.symm differ])
      rw [here,source_known V' r later here same]
    have target_here : V' t.target = some target := by
      obtain ⟨r,here,same⟩ := current t.target ⟨target.version, credited, 1⟩ (by simp [staged_lookup])
      rw [here,target_known V' r later here same]
    rw [overlay_staged source_named target_named source_next target_next]
    exact .intro valid source_here target_here debit credit source_next target_next

theorem Prepared.isEmpty_eq_false (prepared : t.Prepared V receipt writes) : writes.isEmpty = false := by
  cases prepared with
  | intro => exact Std.TreeMap.isEmpty_insert

theorem serial_stage (valid : t.validate = .ok ()) {own : Transaction} (unstaged : own.writes = ∅)
    (V : View) : t.stage.Obeys (Rule.serial achieves) (fun answer after g => Seen.Before V g ∧
      ∀ receipt, answer = .ok receipt → t.Prepared g.view receipt after.writes) own ⟨V, none⟩ := by
  have fails {V' : View} (later : Later V V') (e : Failure) (after : Transaction) :
      Seen.Before V ⟨V', none⟩ ∧ ∀ receipt : Receipt, (.error e : Outcome Receipt) = .ok receipt →
        t.Prepared V' receipt after.writes :=
    ⟨⟨rfl,later⟩,fun _ same => by cases same⟩
  have empty (id : RecordId) : own.writes[id]? = none := by rw [unstaged]; simp
  unfold stage
  rw [obeys_bind]
  refine Session.serial_read (fun V₁ source later₁ keyed₁ source_here => ?_)
    fun V' e later => fails later e own
  rw [Session.view_unstaged (empty source.id)]
  dsimp only
  rw [obeys_bind]
  refine Session.serial_read (fun V₂ target later₂ keyed₂ target_here => ?_)
    fun V' e later => fails (later₁.trans later) e own
  rw [Session.view_unstaged (empty target.id)]
  dsimp only
  have source_named : source.id = t.source := keyed₁ t.source source source_here
  have target_named : target.id = t.target := keyed₂ t.target target target_here
  have read : Later V V₂ := later₁.trans later₂
  rw [obeys_bind,obeys_ofError]
  cases debit : Account.debit source.balance t.amount with
  | error e => exact fails read _ own
  | ok debited =>
    dsimp only [Outcome.ofError]
    rw [obeys_bind,obeys_ofError]
    cases credit : Account.credit target.balance t.amount with
    | error e => exact fails read _ own
    | ok credited =>
      dsimp only [Outcome.ofError]
      rw [obeys_bind]
      refine Session.serial_write (empty t.source) (fun V₃ r later₃ _ here current => ?_)
        fun V' e later => fails (read.trans later) e own
      -- the version that was read is still current, and with it the whole record
      cases known_of_some source_here V₃ r (later₂.trans later₃) here current
      have debited_later : Later V V₃ := read.trans later₃
      cases source_next : source.next debited with
      | error e => exact fails debited_later e _
      | ok source' =>
        have unstaged_target : (Session.stageFirst own source debited).writes[t.target]? = none := by
          have differ := source_ne_target valid
          rw [← source_named] at differ
          simp [Session.stageFirst,unstaged,differ]
        dsimp only
        rw [obeys_bind]
        refine Session.serial_write unstaged_target (fun V₄ r later₄ _ here current => ?_)
          fun V' e later => fails (debited_later.trans later) e _
        cases known_of_some target_here V₄ r (later₃.trans later₄) here current
        have later : Later V V₄ := debited_later.trans later₄
        cases target_next : target.next credited with
        | error e => exact fails later e _
        | ok target' =>
          refine ⟨⟨rfl,later⟩,fun receipt same => ?_⟩
          cases Except.ok.inj same
          have writes : (Session.stageFirst (Session.stageFirst own source debited) target credited).writes =
              t.staged source target debited credited := by
            simp only [Session.stageFirst,staged,unstaged,source_named,target_named]
          have source_known : Known V₄ t.source source :=
            (known_of_some source_here).later ((later₂.trans later₃).trans later₄)
          have target_known : Known V₄ t.target target := (known_of_some target_here).later (later₃.trans later₄)
          rw [writes]
          exact .intro source_known target_known source_named target_named debit credit source_next target_next

end Transfer

theorem Rule.serial_keeps_yields (V : View) : (Rule.serial achieves).Keeps Call.yields (Seen.Before V) :=
  (Rule.serial_keeps_before V).narrow fun _ => Call.quiet_of_yields

namespace Transfer

variable {t : Transfer} {receipt : Receipt}

def Ends (answer : Outcome Receipt) (g : Seen) : Prop := Seen.Ends (answer.map .transfer) g

theorem serial_commit {own : Transaction} (valid : t.validate = .ok ())
    (prepared : t.Prepared V receipt own.writes)
    (moves : ∀ V V', t.Moves V receipt V' → achieves V (.transfer receipt) V') :
    Session.commit.Obeys (Rule.serial achieves) (fun answer _ g => Ends (answer.map fun _ => receipt) g)
      own ⟨V, none⟩ := by
  have unwritten (V' : View) : Seen.Before V' ⟨V', none⟩ := ⟨rfl,.refl V'⟩
  have aborts (e : Error) (own : Transaction) (V' : View) :
      (Session.abort e.message >>= fun _ => fail e : Session Unit).Obeys (Rule.serial achieves)
        (fun answer _ g => Ends (answer.map fun _ => receipt) g) own ⟨V', none⟩ := by
    refine (Obeys.of_only (Rule.serial_keeps_yields V') (Session.yields_abort_fail e) (unwritten V')).mono
      Rule.serial_monotone fun answer t g ended => ?_
    rw [ended.1]
    exact ended.2.1
  have closes (own : Transaction) (V' : View) : Session.releaseHeld.Obeys (Rule.serial achieves)
      (fun answer _ g => Ends (answer.map fun _ => receipt) g) own ⟨V', some (.transfer receipt)⟩ := by
    have written : Seen.After (.transfer receipt) ⟨V', some (.transfer receipt)⟩ := rfl
    have keeps : (Rule.serial achieves).Keeps Call.yields (Seen.After (.transfer receipt)) :=
      (Rule.serial_keeps_after _).narrow fun _ => Call.quiet_of_yields
    refine (Obeys.of_only keeps Session.yields_releaseHeld written).mono Rule.serial_monotone ?_
    intro answer t g ended
    rw [ended.1]
    exact ended.2
  simp only [Session.commit,obeys_bind,obeys_get]
  split
  · next e _ =>
    rw [obeys_bind]
    refine (Obeys.of_only (Rule.serial_keeps_yields V) Session.yields_releaseHeld (unwritten V)).mono
      Rule.serial_monotone fun answer t g ended => ?_
    rw [ended.1]
    exact ended.2.1
  · have pending : ¬ own.isReadOnly = true := by
      rw [Transaction.isReadOnly,prepared.isEmpty_eq_false]
      exact Bool.false_ne_true
    rw [obeys_ite,if_neg pending,obeys_bind,obeys_perform]
    intro fault
    cases fault with
    | error e => exact aborts e own V
    | ok _ =>
      dsimp only
      rw [obeys_bind,obeys_perform]
      intro V' later _
      refine ⟨fun current => ⟨_,moves V' _ (prepared.moves valid later current),?_⟩,fun e => aborts e own V'⟩
      exact closes own.markCommitted _

theorem serial_run (l : Locking) (ids : List RecordId) (valid : t.validate = .ok ())
    (moves : ∀ V receipt V', t.Moves V receipt V' → achieves V (.transfer receipt) V') (s : σ) (V : View) :
    (l.run ids t.stage).Obeys (Rule.serial achieves) (fun answer _ => Ends answer) s ⟨V, none⟩ := by
  have fails (e : Failure) (own : Transaction) {g : Seen} (before : Seen.Before V g) :
      (Session.conclude (.error e)).Obeys (Rule.serial achieves)
        (fun answer _ g => Ends answer g) own g := by
    refine (Obeys.of_only (Rule.serial_keeps_yields V) (Session.yields_conclude_error e) before).mono
      Rule.serial_monotone fun answer t g ended => ?_
    rw [ended.1]
    exact ended.2.1
  simp only [Locking.run,withTransaction,obeys_bind,obeys_perform,obeys_within,obeys_outcome,
    obeys_ofOutcome]
  intro owner
  have unwritten : Seen.Before V ⟨V, none⟩ := ⟨rfl,.refl V⟩
  have keeps : (Rule.serial achieves).Keeps Call.locks (Seen.Before V) :=
    (Rule.serial_keeps_before V).narrow fun _ => Call.quiet_of_locks
  refine (l.keeps_acquireAll Rule.serial_monotone keeps unwritten).mono Rule.serial_monotone fun answer own g locked => ?_
  obtain ⟨before,kept⟩ := locked
  cases answer with
  | error e => exact fails e own before
  | ok _ =>
    obtain ⟨V',_⟩ := g
    obtain ⟨rfl,later⟩ := before
    refine (serial_stage valid (kept rfl) V').mono Rule.serial_monotone fun answer own g staged => ?_
    obtain ⟨⟨unwritten,onward⟩,prepared⟩ := staged
    cases answer with
    | error e => exact fails e own ⟨unwritten,later.trans onward⟩
    | ok receipt =>
      obtain ⟨V'',_⟩ := g
      cases unwritten
      dsimp only [Session.conclude]
      rw [obeys_bind]
      refine (serial_commit valid (prepared receipt rfl) fun V V' => moves V receipt V').mono
        Rule.serial_monotone fun answer own g ends => ?_
      cases answer with
      | error e => exact ends
      | ok _ => exact ends

variable (t) in
theorem serial_ordered (l : Locking)
    (moves : ∀ V receipt V', t.Moves V receipt V' → achieves V (.transfer receipt) V') (s : σ) (V : View) :
    (t.ordered l).Obeys (Rule.serial achieves) (fun answer _ => Ends answer) s ⟨V, none⟩ := by
  unfold ordered
  rw [obeys_bind,obeys_ofError]
  cases valid : t.validate with
  | error e => rfl
  | ok _ => exact serial_run l _ valid moves s V

end Transfer

theorem RetryPolicy.serial_run (p : RetryPolicy) {o : RetryOptions σ Receipt} {operation : Procedure σ Receipt}
    (alone : o.fallback = none) (attempt : ∀ s V, operation.Obeys (Rule.serial achieves)
      (fun answer _ => Transfer.Ends answer) s ⟨V, none⟩) (s : σ) (V : View) :
    (p.run o operation).Obeys (Rule.serial achieves) (fun answer _ => Tells (fun g => g.written = none)
      (fun _ g => g.written = none) (fun receipt => Seen.After (.transfer receipt)) answer) s ⟨V, none⟩ := by
  unfold run
  rw [obeys_bind,obeys_perform]
  intro now
  dsimp only
  let unwritten : Seen → Prop := fun g => g.written = none
  have start : unwritten ⟨V, none⟩ := rfl
  have attempts : ∀ (s : σ) (g : Seen), unwritten g → operation.Obeys (Rule.serial achieves)
      (fun answer _ => Told (fun _ => unwritten) (fun r => Seen.After (.transfer r)) answer) s g := by
    intro s seen same
    obtain ⟨V',_⟩ := seen
    subst same
    refine (attempt s V').mono Rule.serial_monotone ?_
    intro answer s g ends
    rcases answer with _ | _ <;> exact ends
  exact p.obeys_loop Rule.serial_monotone Rule.serial_keeps_unwritten (fun _ => Rule.serial_keeps_unwritten)
    (fun receipt => Rule.serial_keeps_aside (.transfer receipt)) alone (fun _ _ _ same => same) attempts _ _ start

namespace DeadlockCoordinator

variable (c : DeadlockCoordinator) {t : Transfer}

theorem serial_attempt (valid : t.validate = .ok ())
    (moves : ∀ V receipt V', t.Moves V receipt V' → achieves V (.transfer receipt) V') (s : σ) (V : View) :
    (c.attempt t).Obeys (Rule.serial achieves) (fun answer _ => Transfer.Ends answer) s ⟨V, none⟩ := by
  simp only [attempt,Transfer.requested,Locking.withLocksInRequestOrder,obeys_bind,obeys_outcome]
  refine (Transfer.serial_run c.locking _ valid moves s V).mono Rule.serial_monotone ?_
  intro answer s seen ends
  obtain ⟨V',_⟩ := seen
  rcases answer with (e | _) | _
  · cases ends
    dsimp only
    rw [obeys_ite]
    split
    · exact fun _ => rfl
    · exact rfl
  · exact ends
  · exact ends

theorem serial_transfer (t : Transfer)
    (moves : ∀ V receipt V', t.Moves V receipt V' → achieves V (.transfer receipt) V') (s : σ) (V : View) :
    (c.transfer t).Obeys (Rule.serial achieves) (fun answer _ => Transfer.Ends answer) s ⟨V, none⟩ := by
  unfold transfer
  rw [obeys_bind,obeys_ofError]
  cases valid : t.validate with
  | error e => rfl
  | ok _ =>
    dsimp only [Outcome.ofError]
    rw [obeys_bind]
    refine (c.policy.serial_run (o := { classify }) rfl (c.serial_attempt valid moves) s V).mono Rule.serial_monotone ?_
    intro answer s seen ends
    obtain ⟨V',_⟩ := seen
    rcases answer with _ | e | o
    · obtain ⟨_,_,ends⟩ := ends
      exact ends
    · cases e <;> cases ends <;> exact fun _ => rfl
    · cases ends
      exact ⟨rfl,fun _ => rfl⟩

end DeadlockCoordinator

namespace Operation

theorem serial_update (id : RecordId) (mutate : Amount → Outcome Amount) (V : View) :
    (update id mutate).procedure.Obeys (Rule.serial (update id mutate).Achieves)
      (fun answer _ => Seen.Ends answer) () ⟨V, none⟩ := by
  simp only [procedure,Optimistic.update,Optimistic.read,Optimistic.conditionalUpdate,obeys_bind,
    obeys_perform,obeys_ofOutcome,obeys_ofError,obeys_pure]
  intro V₁ _ _
  cases here : V₁ id with
  | none => rfl
  | some before =>
    simp only [obeys_pure]
    cases computed : mutate before.balance with
    | error e => rfl
    | ok balance =>
      intro reply
      rcases reply with e | _
      · rfl
      · intro V₂ onward _
        rw [obeys_ite]
        split
        · exact rfl
        · simp only [obeys_bind,obeys_perform,obeys_ofOutcome]
          intro owner granted
          cases granted with
          | error e => rfl
          | ok _ =>
            -- the version is still the one that was read, and so is the record
            intro V₃ later _
            refine ⟨?_,fun e _ => rfl⟩
            intro after V' installs
            obtain ⟨r,there,current,next,rfl⟩ := installs
            cases known_of_some here V₃ r (onward.trans later) there current
            exact ⟨_,.update there computed next,rfl,fun _ => rfl⟩

private theorem serial_receipt {p : Procedure Unit Receipt}
    (obeys : p.Obeys (Rule.serial achieves) (fun answer _ => Transfer.Ends answer) () ⟨V, none⟩) :
    (p >>= fun receipt => pure (.transfer receipt) : Procedure Unit Written).Obeys (Rule.serial achieves)
      (fun answer _ => Seen.Ends answer) () ⟨V, none⟩ := by
  rw [obeys_bind]
  refine obeys.mono Rule.serial_monotone fun answer _ g ends => ?_
  cases answer with
  | error e => exact ends
  | ok receipt => exact ends

theorem serial_procedure (o : Operation) (V : View) : o.procedure.Obeys (Rule.serial o.Achieves)
    (fun answer _ => Seen.Ends answer) () ⟨V, none⟩ := by
  cases o with
  | update id mutate => exact serial_update id mutate V
  | ordered l t => exact serial_receipt (t.serial_ordered l (fun _ _ _ => .ordered) () V)
  | coordinated c t => exact serial_receipt (c.serial_transfer t (fun _ _ _ => .coordinated) () V)

/-- Whatever runs beside it, an operation changes the records once if it succeeds and never if it fails. -/
theorem serial_program (o : Operation) (V : View) : o.program.Obeys (Rule.serial o.Achieves) Seen.Ends ⟨V, none⟩ := by
  rw [program,Program.obeys_bind]
  exact o.serial_procedure V

end Operation

end VersionedLedger
