import VersionedLedger.Ledger.Operations
import VersionedLedger.Proofs.Circuit.Course
import VersionedLedger.Proofs.Circuit.Registry
import VersionedLedger.Proofs.Program.Calls
import VersionedLedger.Proofs.Serial.Settlement
import VersionedLedger.Proofs.Serial.Timed
import VersionedLedger.Proofs.Store.Scope

/-! A transfer as one call of a circuit, on a ledger that nobody else uses, and at any pace. Records and breaker are
taken together as one scene: a call that is refused changes only the breaker, and one that is admitted moves the money or
tells the breaker of its failure. -/
namespace VersionedLedger

open Procedure View

variable {σ α : Type}

def Call.ofCircuit : Call → Bool
  | circuit .. | admitCall _ | recordCall .. => true
  | _ => false

def Store.Unlocked (s : Store) : Prop := ∀ x : RecordId, s.locks.table.owners[x]? = none

theorem Cancellation.le_interrupt (c : Cancellation) {now deadline : Time} (ahead : now ≤ deadline) :
    now ≤ (c.interrupt now deadline).2 := by
  unfold interrupt
  split
  · exact Nat.le_refl _
  · next going =>
    split
    · next t due =>
      split
      · exact Nat.le_of_not_le fun passed => going (by simp [isRequested,due,passed])
      · exact ahead
    · exact ahead

namespace Ledger

theorem answer_beside (s : Ledger) {c : Call} (other : c.ofCircuit = false) :
    (s.answer c).2.circuits = s.circuits ∧ s.clock ≤ (s.answer c).2.clock := by
  cases c with
  | circuit | admitCall | recordCall => cases other
  | checkFault operation =>
    obtain ⟨n,drawn⟩ := (s.elapse s.store.faults.latency).exists_draw_eq
    change (s.checkFault operation).2.circuits = _ ∧ _ ≤ (s.checkFault operation).2.clock
    unfold checkFault
    rw [drawn]
    exact ⟨rfl,Nat.le_add_right _ _⟩
  | acquire owner id timeout existing =>
    change (s.acquire owner id timeout existing).2.circuits = _ ∧ _ ≤ (s.acquire owner id timeout existing).2.clock
    unfold acquire requestLock
    split
    · exact ⟨rfl,Nat.le_refl _⟩
    · generalize s.store.locks.request owner id true = result
      obtain ⟨round,locks⟩ := result
      cases round with
      | waiting => exact ⟨rfl,Nat.le_add_right _ _⟩
      | _ => exact ⟨rfl,Nat.le_refl _⟩
  | draw =>
    obtain ⟨n,drawn⟩ := s.exists_draw_eq
    change s.draw.2.circuits = _ ∧ _ ≤ s.draw.2.clock
    rw [drawn]
    exact ⟨rfl,Nat.le_refl _⟩
  | sleep d watched =>
    have ahead : s.clock ≤ s.clock + d := Nat.le_add_right _ _
    cases watched with
    | false => exact ⟨rfl,ahead⟩
    | true => exact ⟨rfl,s.cancellation.le_interrupt ahead⟩
  | report e =>
    change (s.report [e]).circuits = _ ∧ _ ≤ (s.report [e]).clock
    unfold report
    split <;> exact ⟨rfl,Nat.le_refl _⟩
  | _ => exact ⟨rfl,Nat.le_refl _⟩

def Since (circuits : CircuitRegistry) (clock : Time) (s : Ledger) : Prop :=
  s.circuits = circuits ∧ clock ≤ s.clock

theorem Since.answer {s : Ledger} {circuits : CircuitRegistry} {clock : Time} (since : s.Since circuits clock)
    {c : Call} (other : c.ofCircuit = false) : (s.answer c).2.Since circuits clock := by
  obtain ⟨same,later⟩ := s.answer_beside other
  exact ⟨same.trans since.1,Nat.le_trans since.2 later⟩

theorem Since.elapse {s : Ledger} {circuits : CircuitRegistry} {clock : Time} (since : s.Since circuits clock)
    (d : Duration) : (s.elapse d).Since circuits clock := ⟨since.1,Nat.le_add_right_of_le since.2⟩

end Ledger

namespace Rule

variable (circuits : CircuitRegistry) (clock : Time)

theorem alone_keeps_since : Rule.alone.Keeps Call.ofStore (Ledger.Since circuits clock) := by
  intro c stored promise s since replied
  have other : c.ofCircuit = false := by cases c <;> first | rfl | cases stored
  exact replied _ _ (since.answer other)

theorem paced_keeps_both (known : Store → Prop) :
    Rule.paced.Keeps Call.aside fun s => known s.store ∧ s.Since circuits clock := by
  intro c aside promise s ⟨stored,since⟩ replied d
  have other : c.ofCircuit = false := by cases c <;> first | rfl | cases aside
  have kept := (s.elapse d).store_answer_of_aside aside
  exact replied _ _ ⟨kept.symm ▸ stored,(since.elapse d).answer other⟩

end Rule

theorem Procedure.Obeys.and_alone {p : Procedure σ α} {goal goal' : Outcome α → σ → Ledger → Prop} {own : σ}
    {s : Ledger} (first : p.Obeys Rule.alone goal own s) (second : p.Obeys Rule.alone goal' own s) :
    p.Obeys Rule.alone (fun answer own left => goal answer own left ∧ goal' answer own left) own s :=
  (Program.obeys_alone _ _ _).mpr ⟨(Program.obeys_alone _ _ _).mp first,(Program.obeys_alone _ _ _).mp second⟩

variable {before left s : Ledger} {owner : TxnId} {V : View}

theorem Session.Closed.unlocked (closed : Closed before owner left) (free : before.store.Unlocked) :
    left.store.Unlocked := by
  refine fun x => Option.eq_none_iff_forall_ne_some.mpr fun b owned => ?_
  by_cases own : b = owner
  · exact closed.free x (own ▸ owned)
  · cases (free x).symm.trans ((closed.others x b own).mp owned)

theorem Locking.closed_withLocks (l : Locking) (ids : List RecordId) {body : Session α} (work : body.Work) (own : σ)
    (fresh : ∀ x : RecordId, s.store.locks.table.owners[x]? ≠ some s.store.nextTxn) :
    (l.withLocks ids body).Obeys Rule.alone (fun _ _ left => Session.Closed s s.store.nextTxn left) own s := by
  unfold withLocks run withTransaction
  rw [obeys_bind,obeys_perform]
  refine Rule.alone_of_reply (r := s.store.nextTxn) rfl ?_
  dsimp only
  rw [obeys_bind,obeys_within,obeys_bind,obeys_outcome]
  have distinct : (ascending ids).Nodup := (pairwise_ascending ids).imp Nat.ne_of_lt
  have start : Exactly s s.store.nextTxn [] (.start s.store.nextTxn) (s.answer .begin).2 :=
    ⟨⟨rfl,rfl,fun x owned => absurd owned (fresh x),fun _ _ _ => Iff.rfl,rfl⟩,rfl,
      fun _ member => absurd member List.not_mem_nil⟩
  rw [obeys_bind]
  refine (l.exactly_acquireAll distinct start).mono Rule.alone_monotone fun answer t begun ended => ?_
  obtain ⟨granted,refused⟩ := ended
  cases answer with
  | error f =>
    obtain ⟨_,emptied⟩ := refused f rfl
    exact (Session.closed_conclude emptied.toConfined (.error f)).mono Rule.alone_monotone fun _ _ _ closed => closed.1
  | ok _ =>
    refine (work.confined (granted rfl).toConfined).mono Rule.alone_monotone fun answer t begun confined => ?_
    exact (Session.closed_conclude confined answer).mono Rule.alone_monotone fun _ _ _ closed => closed.1

namespace Transfer

variable (t : Transfer)

theorem work_stage : t.stage.Work := by
  have computed (answer : Except Error Amount) : Session.Work (ofError answer) := by
    cases answer with
    | error e => exact .fail e
    | ok a => exact .pure a
  exact .bind (.read _) fun _ => .bind (.read _) fun _ => .bind (computed _) fun _ => .bind (computed _) fun _ =>
    .bind (.write _ _ _) fun _ => .bind (.write _ _ _) fun _ => .pure _

theorem unlocked_ordered (l : Locking) (own : σ) (free : s.store.Unlocked) :
    (t.ordered l).Obeys Rule.alone (fun _ _ left => left.store.Unlocked) own s := by
  have fresh (x : RecordId) : s.store.locks.table.owners[x]? ≠ some s.store.nextTxn := by simp [free x]
  unfold ordered
  rw [obeys_bind,obeys_ofError]
  cases t.validate with
  | error e => exact free
  | ok _ =>
    exact (l.closed_withLocks t.ids t.work_stage own fresh).mono Rule.alone_monotone fun _ _ _ closed =>
      closed.unlocked free

/-- How a transfer ends that meets a fault, or none, at its commit. -/
inductive ComesTo (t : Transfer) (V : View) (failure : Bool) : Except Error Receipt → View → Prop
  | failed {e : Error} (ran : e.isCircuitOpen = false)
      (why : failure = true ∨ ∀ receipt V', ¬ t.Moves V receipt V') : ComesTo t V failure (.error e) V
  | moved {receipt : Receipt} {V' : View} (due : failure = false) (moves : t.Moves V receipt V') :
    ComesTo t V failure (.ok receipt) V'

variable {t} {f : Faults} {first : RecordId}

theorem comesTo_settle (valid : t.validate = .ok ()) (keyed : V.Keyed) (known : ∀ id ∈ t.ids, ∃ r, V id = some r)
    (room : ∀ id ∈ t.ids, ∀ r, V id = some r → r.version + 1 < Version.limit) :
    t.ComesTo V (f.fails 0) (t.settle first V f).answer (t.settle first V f).records := by
  have sends : t.source ∈ t.ids := List.mem_cons_self
  have takes : t.target ∈ t.ids := List.mem_cons_of_mem _ List.mem_cons_self
  obtain ⟨source,here⟩ := known _ sends
  obtain ⟨target,there⟩ := known _ takes
  obtain ⟨apart,positive⟩ := valid_iff.mp valid
  rw [settle_of_present valid here there]
  cases debit : Account.debit source.balance t.amount with
  | error e =>
    refine .failed ?_ (.inr fun receipt V' moves => ?_)
    · rw [Account.debit_of_pos positive] at debit
      split at debit <;> cases debit
      rfl
    · obtain ⟨_,here',_,debit',_⟩ := moves
      cases here.symm.trans here'
      cases debit.symm.trans debit'
  | ok debited =>
    cases credit : Account.credit target.balance t.amount with
    | error e =>
      refine .failed ?_ (.inr fun receipt V' moves => ?_)
      · rw [Account.credit_of_pos positive] at credit
        split at credit <;> cases credit
        rfl
      · obtain ⟨_,_,there',_,credit',_⟩ := moves
        cases there.symm.trans there'
        cases credit.symm.trans credit'
    | ok credited =>
      dsimp only
      cases due : f.fails 0 with
      | true => exact .failed rfl (.inl rfl)
      | false =>
        have moves := Moves.intro valid here there debit credit (Record.next_of_room (room _ sends source here))
          (Record.next_of_room (room _ takes target there))
        rw [keyed _ _ here,keyed _ _ there] at moves
        exact .moved rfl moves

theorem ComesTo.of_error {failure : Bool} {e : Error} {V' : View} (comes : t.ComesTo V failure (.error e) V')
    {last : Error} (kept : e.isCircuitOpen = false → last.isCircuitOpen = false) :
    t.ComesTo V failure (.error last) V' := by
  cases comes with
  | failed ran why => exact .failed (kept ran) why

theorem alone_comesTo (l : Locking) (own : σ) (valid : t.validate = .ok ()) (keyed : V.Keyed)
    (known : ∀ id ∈ t.ids, ∃ r, V id = some r)
    (room : ∀ id ∈ t.ids, ∀ r, V id = some r → r.version + 1 < Version.limit) (never : f.rate = 0)
    (view : s.store.view = V) (faults : s.store.faults = f) (free : s.store.Unlocked) :
    (t.ordered l).Obeys Rule.alone (fun answer _ left => ∃ given, answer = .ofError given ∧
      (t.ComesTo V (f.fails 0) given left.store.view ∧ left.store.Unlocked) ∧
        left.Since s.circuits s.clock) own s := by
  have opened : s.store.Open V f s.store.nextTxn t.ids :=
    ⟨view,faults,fun id _ => LockTable.heldByOther_eq_false.mpr fun b owned => by cases (free id).symm.trans owned⟩
  have aside := Obeys.of_only (Rule.alone_keeps_since s.circuits s.clock) (t.only_ordered l own) ⟨rfl,Nat.le_refl _⟩
  have reached := (reached_ordered l own keyed opened never room).and_alone ((t.unlocked_ordered l own free).and_alone aside)
  refine reached.mono Rule.alone_monotone fun answer own left ended => ?_
  obtain ⟨⟨rfl,records,_⟩,unlocked,_,since⟩ := ended
  refine ⟨_,rfl,⟨?_,unlocked⟩,since⟩
  rw [records]
  exact comesTo_settle valid keyed known room

theorem paced_comesTo (l : Locking) (own : σ) (valid : t.validate = .ok ()) (keyed : V.Keyed)
    (known : ∀ id ∈ t.ids, ∃ r, V id = some r)
    (room : ∀ id ∈ t.ids, ∀ r, V id = some r → r.version + 1 < Version.limit) (never : f.rate = 0)
    (view : s.store.view = V) (faults : s.store.faults = f) (free : s.store.Unlocked) :
    (t.ordered l).Obeys Rule.paced (fun answer _ left => ∃ given, answer = .ofError given ∧
      (t.ComesTo V (f.fails 0) given left.store.view ∧ left.store.Unlocked) ∧
        left.Since s.circuits s.clock) own s := by
  refine Program.Obeys.paced (fun r left d ended => ?_) (t.only_ordered l own)
    (alone_comesTo l own valid keyed known room never view faults free)
  obtain ⟨given,answered,ended,since⟩ := ended
  exact ⟨given,answered,ended,since.elapse d⟩

end Transfer

structure Scene where
  records : View
  breaker : Breaker
  clock : Time

/-- A transfer as a call of the circuit, by its answer and by what it leaves. -/
inductive Scene.Calls (t : Transfer) (failure : Bool) (c : Scene) : Except Error Receipt → Scene → Prop
  | refused {e : Error} {b : Breaker} {events : List Event} {now : Time} (later : c.clock < now)
      (refuses : c.breaker.tryAcquire now = (.error e, b, events)) :
    Calls t failure c (.error e) ⟨c.records, b, now⟩
  | answered {permit : Permit} {b : Breaker} {events : List Event} {now after : Time} {given : Except Error Receipt}
      {V' : View} (later : c.clock < now) (admits : c.breaker.tryAcquire now = (.ok permit, b, events))
      (since : now < after) (comes : t.ComesTo c.records failure given V') :
    Calls t failure c given ⟨V', (b.record permit (!given.isOk) after).1, after⟩

namespace Ledger

variable {name : String} {h : CircuitHandle} {c : Scene}

theorem answer_circuit (s : Ledger) (name : String) (config : CircuitConfig) : s.answer (.circuit name config) =
    ((s.circuits.insertIfAbsent name config).1.1,
      { s with circuits := (s.circuits.insertIfAbsent name config).2 }) := by
  rw [← CircuitRegistry.breakerWith_eq]
  rfl

/-- The ledger shows a scene or has shown it last, by the breaker of a name, and nobody holds a lock. -/
structure Shows (name : String) (h : CircuitHandle) (c : Scene) (s : Ledger) : Prop where
  records : s.store.view = c.records
  breaker : s.circuits.breaker h = c.breaker
  clock : c.clock ≤ s.clock
  named : s.circuits.find? name = some h
  inside : h < s.circuits.breakers.length
  unlocked : s.store.Unlocked

namespace Shows

theorem answer_circuit (shows : s.Shows name h c) (config : CircuitConfig) :
    s.answer (.circuit name config) = (h, s) := by
  rw [Ledger.answer_circuit,CircuitRegistry.insertIfAbsent_of_present shows.named]

theorem elapse (shows : s.Shows name h c) (d : Duration) : (s.elapse d).Shows name h c :=
  { shows with clock := Nat.le_add_right_of_le shows.clock }

theorem onBreaker {β : Type} (shows : s.Shows name h c) (act : Breaker → Time → β × Breaker × List Event) :
    ∃ now, c.clock < now ∧ (s.onBreaker h act).1 = (act c.breaker now).1 ∧
      (s.onBreaker h act).2.Shows name h ⟨c.records, (act c.breaker now).2.1, now⟩ := by
  refine ⟨s.clock + 1,Nat.lt_succ_of_le shows.clock,?_⟩
  let done := act c.breaker (s.clock + 1)
  have left : ({ s.elapse 1 with circuits := s.circuits.set h done.2.1 } : Ledger).Shows name h
      ⟨c.records, done.2.1, s.clock + 1⟩ := by
    refine ⟨shows.records,CircuitRegistry.breaker_set_self shows.inside,Nat.le_refl _,shows.named,?_,shows.unlocked⟩
    exact CircuitRegistry.length_set.symm ▸ shows.inside
  have reported (events : List Event) {s : Ledger} {c : Scene} (shows : s.Shows name h c) :
      (s.report events).Shows name h c := by
    unfold report
    split
    · exact ⟨shows.records,shows.breaker,shows.clock,shows.named,shows.inside,shows.unlocked⟩
    · exact shows
  have acted : act ((s.elapse 1).circuits.breaker h) (s.elapse 1).clock = done := congrArg (act · _) shows.breaker
  unfold Ledger.onBreaker
  dsimp only
  rw [acted]
  refine ⟨rfl,?_⟩
  split
  · exact reported _ left
  · exact left

end Shows

section

variable {t : Transfer} {f : Faults} {V : View}

theorem paced_tried (l : Locking) (own : σ) (valid : t.validate = .ok ()) (keyed : V.Keyed)
    (known : ∀ id ∈ t.ids, ∃ r, V id = some r)
    (room : ∀ id ∈ t.ids, ∀ r, V id = some r → r.version + 1 < Version.limit) (never : f.rate = 0)
    (view : s.store.view = V) (faults : s.store.faults = f) (free : s.store.Unlocked) :
    ((retryPolicy name .noRetry).run {} (t.ordered l)).Obeys Rule.paced (fun answer _ left => ∃ result,
      answer = .ok result ∧ (t.ComesTo V (f.fails 0) ((result.map RetryOutcome.value).mapError RetryError.toError)
        left.store.view ∧ left.store.Unlocked) ∧ left.Since s.circuits s.clock) own s := by
  let before (s : Store) : Prop := s.view = V ∧ s.faults = f ∧ s.Unlocked
  let ends (given : Except Error Receipt) (s : Store) : Prop := t.ComesTo V (f.fails 0) given s.view ∧ s.Unlocked
  have attempt (own : σ) (left : Ledger) (now : before left.store ∧ left.Since s.circuits s.clock) :
      (t.ordered l).Obeys Rule.paced (fun answer _ left => ∃ given, answer = .ofError given ∧
        ends given left.store ∧ left.Since s.circuits s.clock) own left := by
    obtain ⟨⟨view,faults,free⟩,same,later⟩ := now
    refine (Transfer.paced_comesTo l own valid keyed known room never view faults free).mono Rule.paced_monotone ?_
    intro answer own after ended
    obtain ⟨given,rfl,ended,same',later'⟩ := ended
    exact ⟨given,rfl,ended,same'.trans same,Nat.le_trans later later'⟩
  unfold RetryPolicy.run
  rw [obeys_bind,obeys_perform]
  have start : before s.store ∧ s.Since s.circuits s.clock := ⟨⟨view,faults,free⟩,rfl,Nat.le_refl _⟩
  refine Rule.paced_keeps_both _ _ before .now rfl _ s start fun started left known => ?_
  refine ((retryPolicy name .noRetry).obeys_loop_last Rule.paced_monotone (Rule.paced_keeps_both _ _ before)
    (fun given => Rule.paced_keeps_both _ _ (ends given)) rfl rfl attempt _ known).mono Rule.paced_monotone ?_
  intro answer own left ended
  obtain ⟨r,rfl,ended⟩ | ⟨e,last,rfl,⟨⟨comes,unlocked⟩,since⟩,named⟩ := ended
  · exact ⟨.ok r,rfl,ended⟩
  · refine ⟨.error last,rfl,⟨comes.of_error fun ran => ?_,unlocked⟩,since⟩
    obtain rfl | rfl := named
    · exact ran
    · rfl

theorem Shows.told {permit : Permit} {b : Breaker} {events : List Event} {given : Except Error Receipt} {now : Time}
    (later : c.clock < now) (admits : c.breaker.tryAcquire now = (.ok permit, b, events))
    (begun : s.Shows name h ⟨c.records, b, now⟩) (since : left.Since s.circuits s.clock)
    (unlocked : left.store.Unlocked) (comes : t.ComesTo c.records (f.fails 0) given left.store.view) :
    ∃ c', c.Calls t (f.fails 0) given c' ∧ (left.answer (.recordCall h permit (!given.isOk))).2.Shows name h c' := by
  obtain ⟨same,waited⟩ := since
  have shown : left.Shows name h ⟨left.store.view, b, left.clock⟩ := by
    refine ⟨rfl,?_,Nat.le_refl _,?_,?_,unlocked⟩ <;> rw [same]
    · exact begun.breaker
    · exact begun.named
    · exact begun.inside
  obtain ⟨after,ended,_,told⟩ := shown.onBreaker fun b now => ((), b.record permit (!given.isOk) now)
  have since : now < after := Nat.lt_of_le_of_lt (Nat.le_trans begun.clock waited) ended
  exact ⟨_,.answered later admits since comes,told⟩

end

/-- What one guarded transfer does that is not tried again. -/
theorem paced_guardedCall (config : LedgerConfig) (t : Transfer) (own : σ) (valid : t.validate = .ok ())
    (shows : s.Shows name h c) (keyed : c.records.Keyed) (known : ∀ id ∈ t.ids, ∃ r, c.records id = some r)
    (room : ∀ id ∈ t.ids, ∀ r, c.records id = some r → r.version + 1 < Version.limit)
    {f : Faults} (faults : s.store.faults = f) (never : f.rate = 0) :
    (guardedCall config name (t.ordered config.lock.locking) .noRetry).Obeys Rule.paced (fun answer _ left =>
      ∃ given c', answer = .ofError given ∧ c.Calls t (f.fails 0) given c' ∧ left.Shows name h c') own s := by
  unfold guardedCall circuit
  rw [obeys_bind,obeys_perform]
  intro found_in
  have found := (shows.elapse found_in).answer_circuit config.circuit
  refine Rule.alone_of_reply (congrArg Prod.fst found) ?_
  rw [found]
  dsimp only
  rw [obeys_bind,obeys_perform]
  intro asked_in
  obtain ⟨now,later,asked,begun⟩ := ((shows.elapse found_in).elapse asked_in).onBreaker Breaker.tryAcquire
  have untouched := ((s.elapse found_in).elapse asked_in).store_onBreaker h Breaker.tryAcquire
  refine Rule.alone_of_reply (c := .admitCall h) asked ?_
  dsimp only
  rw [obeys_bind,obeys_ofError]
  change (((s.elapse found_in).elapse asked_in).answer (.admitCall h)).2.Shows _ _ _ at begun
  change (((s.elapse found_in).elapse asked_in).answer (.admitCall h)).2.store = s.store at untouched
  generalize (((s.elapse found_in).elapse asked_in).answer (.admitCall h)).2 = s' at begun untouched ⊢
  generalize decided : c.breaker.tryAcquire now = done at begun ⊢
  obtain ⟨answer,b,events⟩ := done
  cases answer with
  | error e => exact ⟨.error e,_,rfl,.refused later decided,begun⟩
  | ok permit =>
    dsimp only [Outcome.ofError] at begun ⊢
    unfold CircuitHandle.guardCrash
    rw [obeys_bind,obeys_bind,obeys_outcome,obeys_bind]
    have faults : s'.store.faults = f := untouched ▸ faults
    refine (paced_tried _ own valid keyed known room never begun.records faults begun.unlocked).mono
      Rule.paced_monotone fun answer own left ended => ?_
    obtain ⟨result,rfl,⟨comes,unlocked⟩,since⟩ := ended
    have told (d : Duration) := Shows.told later decided begun (since.elapse d) unlocked comes
    cases result with
    | error last =>
      intro d
      obtain ⟨c',calls,shown⟩ := told d
      exact ⟨_,c',rfl,calls,shown⟩
    | ok r =>
      intro d
      obtain ⟨c',calls,shown⟩ := told d
      exact ⟨_,c',rfl,calls,shown⟩

end Ledger

end VersionedLedger
