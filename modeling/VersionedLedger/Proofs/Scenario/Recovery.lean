import VersionedLedger.Proofs.Scenario.Flaky

/-! The recovery of a circuit that a pattern has left open. After the wait the circuit takes as many probes as it needs
to close, so it closes if all of them succeed. A call that fails moves nothing, and no fault was armed for it; so the
records do not allow the transfer any more, no later call succeeds, and the circuit ends open. -/
namespace VersionedLedger

open Procedure View

variable {σ : Type}

namespace Breaker

variable {b b' : Breaker} {now : Time} {events : List Event} {permit : Permit}

theorem openedAt_looked : (b.looked now).openedAt = b.openedAt := by
  unfold looked
  split <;> rfl

theorem openedAt_tryAcquire : (b.tryAcquire now).2.1.openedAt = b.openedAt := by
  have admits := b.tryAcquire_admits now
  generalize (b.tryAcquire now).1 = answer at admits
  generalize (b.tryAcquire now).2.1 = b' at admits
  cases admits <;> exact openedAt_looked

theorem openedAt_record {failed : Bool} {since : Time} (opened : (b.record permit failed now).1.openedAt = some since) :
    b.openedAt = some since ∨ since = now := by
  rw [record_eq] at opened
  split at opened
  · have absorbs := b.absorb_absorbs (b.outcome permit failed now) now
    generalize (b.absorb (b.outcome permit failed now) now).1 = after at absorbs opened
    cases absorbs with
    | tripped | reopened =>
      cases opened
      exact .inr rfl
    | recovered => cases opened
    | counted | succeeded | ignored => exact .inl opened
  · exact .inl opened

theorem looked_of_not_opened (other : b.state ≠ .opened) : b.looked now = b := by
  rcases b.looked_cases now with same | ⟨opened,_⟩
  · exact same
  · exact absurd opened other

theorem looked_of_waiting (waits : b.readyToProbe now = false) : b.looked now = b := by
  rw [looked,waits,if_neg Bool.false_ne_true]

theorem looked_of_ready (ready : b.readyToProbe now = true) : (b.looked now).state = .halfOpen ∧
    (b.looked now).config = b.config ∧ (b.looked now).probesAdmitted = 0 ∧ (b.looked now).probesSucceeded = 0 := by
  rw [looked,if_pos ready]
  exact ⟨rfl,rfl,rfl,rfl⟩

theorem probe_of_admitted (halfOpen : (b.looked now).state = .halfOpen)
    (admits : b.tryAcquire now = (.ok permit, b', events)) :
    permit.generation = b'.generation ∧ b'.state = .halfOpen ∧ b'.config = (b.looked now).config ∧
      b'.probesAdmitted = (b.looked now).probesAdmitted + 1 ∧
      b'.probesSucceeded = (b.looked now).probesSucceeded := by
  have given := b.tryAcquire_admits now
  rw [admits] at given
  dsimp only at given
  generalize b.looked now = seen at given halfOpen
  cases given with
  | closed closed => cases closed.symm.trans halfOpen
  | probe => exact ⟨rfl,halfOpen,rfl,rfl,rfl⟩

theorem ready_of_admitted (opened : b.state = .opened) (admits : b.tryAcquire now = (.ok permit, b', events)) :
    b.readyToProbe now = true := by
  cases ready : b.readyToProbe now with
  | true => rfl
  | false =>
    have given := b.tryAcquire_admits now
    rw [admits,looked_of_waiting ready] at given
    dsimp only at given
    cases given with
    | closed other | probe other => cases other.symm.trans opened

theorem not_closed_of_refused {e : Error} (refuses : b.tryAcquire now = (.error e, b', events)) :
    b'.state = (b.looked now).state ∧ b'.config = (b.looked now).config ∧ ((b.looked now).state = .opened ∨
      (b.looked now).state = .halfOpen ∧ (b.looked now).config.permittedProbes ≤ (b.looked now).probesAdmitted) := by
  have given := b.tryAcquire_admits now
  rw [refuses] at given
  dsimp only at given
  generalize b.looked now = seen at given
  cases given with
  | full halfOpen taken => exact ⟨rfl,rfl,.inr ⟨halfOpen,taken⟩⟩
  | waiting opened => exact ⟨rfl,rfl,.inl opened⟩

theorem reopened_of_probe (halfOpen : b.state = .halfOpen) (own : permit.generation = b.generation) :
    (b.record permit true now).1.state = .opened := by
  rw [record_eq,if_pos own]
  have absorbs := b.absorb_absorbs (b.outcome permit true now) now
  generalize (b.absorb (b.outcome permit true now) now).1 = after at absorbs
  cases absorbs with
  | counted closed | tripped closed => cases closed.symm.trans halfOpen
  | reopened => rfl
  | succeeded _ passed | recovered _ passed => exact absurd rfl passed
  | ignored opened => cases opened.symm.trans halfOpen

theorem passed_of_probe (now : Time) (halfOpen : b.state = .halfOpen) (own : permit.generation = b.generation) :
    let after := (b.record permit false now).1
    b.probesSucceeded + 1 < b.config.permittedProbes ∧ after = { b with probesSucceeded := b.probesSucceeded + 1 } ∨
      b.config.permittedProbes ≤ b.probesSucceeded + 1 ∧ after.state = .closed ∧ after.window = b.window.clear := by
  intro after
  have same : after = (b.absorb (b.outcome permit false now) now).1 := by
    unfold after
    rw [record_eq,if_pos own]
  have passed : b.outcome permit false now ≠ .failure := by
    unfold outcome CallOutcome.classify
    split
    · contradiction
    · split <;> exact CallOutcome.noConfusion
  have absorbs := b.absorb_absorbs (b.outcome permit false now) now
  rw [← same] at absorbs
  generalize after = left at absorbs
  cases absorbs with
  | counted closed | tripped closed => cases closed.symm.trans halfOpen
  | reopened _ failed => exact absurd failed passed
  | succeeded _ _ fewer => exact .inl ⟨fewer,rfl⟩
  | recovered _ _ enough => exact .inr ⟨enough,rfl,rfl⟩
  | ignored opened => cases opened.symm.trans halfOpen

end Breaker

namespace Scene

variable {t : Transfer} {config : CircuitConfig} {failure : Bool} {c c' : Scene} {given : Except Error Receipt}
  {permit : Permit} {events : List Event} {i : Nat}

/-- The breaker is of this configuration, and was not opened later than now. -/
structure Dated (config : CircuitConfig) (c : Scene) : Prop where
  config : c.breaker.config = config
  past : ∀ since, c.breaker.openedAt = some since → since ≤ c.clock

theorem Dated.later (dated : c.Dated config) {clock : Time} (later : c.clock ≤ clock) :
    Dated config { c with clock } :=
  ⟨dated.config,fun since began => Nat.le_trans (dated.past since began) later⟩

theorem Dated.asked (dated : c.Dated config) {answer : Except Error Permit} {b : Breaker} {now : Time}
    (later : c.clock < now) (asks : c.breaker.tryAcquire now = (answer, b, events)) :
    Dated config ⟨c.records, b, now⟩ := by
  have left : (c.breaker.tryAcquire now).2.1 = b := congrArg (·.2.1) asks
  have label : b.label = c.breaker.label := left ▸ Breaker.label_tryAcquire
  have opened : b.openedAt = c.breaker.openedAt := left ▸ Breaker.openedAt_tryAcquire
  refine ⟨(congrArg Prod.snd label).trans dated.config,fun since found => ?_⟩
  exact Nat.le_trans (dated.past since (opened ▸ found)) (Nat.le_of_lt later)

theorem Dated.told (dated : c.Dated config) (permit : Permit) (failed : Bool) {after : Time} (later : c.clock < after)
    (V : View) : Dated config ⟨V, (c.breaker.record permit failed after).1, after⟩ := by
  have label : (c.breaker.record permit failed after).1.label = c.breaker.label := Breaker.label_record permit failed
  refine ⟨(congrArg Prod.snd label).trans dated.config,fun since found => ?_⟩
  obtain before | rfl := Breaker.openedAt_record found
  · exact Nat.le_trans (dated.past since before) (Nat.le_of_lt later)
  · exact Nat.le_refl _

theorem Dated.called (dated : c.Dated config) (calls : c.Calls t failure given c') : c'.Dated config := by
  cases calls with
  | refused later refuses => exact dated.asked later refuses
  | answered later admits since => exact (dated.asked later admits).told _ _ since _

inductive Probed (config : CircuitConfig) (c : Scene) : Nat → Prop
  | due (opened : c.breaker.state = .opened) (ready : ∀ now, c.clock < now → c.breaker.readyToProbe now = true) :
    Probed config c 0
  | probing {i : Nat} (fewer : i + 1 < config.permittedProbes) (halfOpen : c.breaker.state = .halfOpen)
      (admitted : c.breaker.probesAdmitted = i + 1) (succeeded : c.breaker.probesSucceeded = i + 1) :
    Probed config c (i + 1)
  | closed (closed : c.breaker.state = .closed) (empty : c.breaker.window = c.breaker.window.clear) :
    Probed config c config.permittedProbes

structure Lost (t : Transfer) (c : Scene) : Prop where
  opened : c.breaker.state = .opened
  stuck : ∀ receipt V', ¬ t.Moves c.records receipt V'

theorem Probed.looked (probed : c.Probed config i) (configured : c.breaker.config = config)
    (fewer : i < config.permittedProbes) {now : Time} (later : c.clock < now) :
    let seen := c.breaker.looked now
    seen.state = .halfOpen ∧ seen.config = config ∧ seen.probesAdmitted = i ∧ seen.probesSucceeded = i := by
  cases probed with
  | due opened ready =>
    obtain ⟨halfOpen,kept,admitted,succeeded⟩ := Breaker.looked_of_ready (ready now later)
    exact ⟨halfOpen,kept.trans configured,admitted,succeeded⟩
  | probing _ halfOpen admitted succeeded =>
    have same : c.breaker.looked now = c.breaker := Breaker.looked_of_not_opened (by simp [halfOpen])
    rw [same]
    exact ⟨halfOpen,configured,admitted,succeeded⟩
  | closed => exact absurd fewer (Nat.lt_irrefl _)

theorem Probed.called (probed : c.Probed config i) (configured : c.breaker.config = config)
    (fewer : i < config.permittedProbes) (calls : c.Calls t false given c') :
    given.isOk = true ∧ c'.Probed config (i + 1) ∨ given.isOk = false ∧ c'.Lost t := by
  cases calls with
  | @refused e b events now later refuses =>
    obtain ⟨halfOpen,kept,admitted,_⟩ := probed.looked configured fewer later
    obtain ⟨_,_,opened | ⟨_,taken⟩⟩ := Breaker.not_closed_of_refused refuses
    · cases opened.symm.trans halfOpen
    · rw [kept,admitted] at taken
      exact absurd fewer (Nat.not_lt.mpr taken)
  | @answered permit b events now after given V' later admits since comes =>
    obtain ⟨halfOpen,kept,admitted,succeeded⟩ := probed.looked configured fewer later
    obtain ⟨own,halfOpen',kept',admitted',succeeded'⟩ := Breaker.probe_of_admitted halfOpen admits
    rw [kept] at kept'
    rw [admitted] at admitted'
    rw [succeeded] at succeeded'
    cases comes with
    | failed ran why => exact .inr ⟨rfl,Breaker.reopened_of_probe halfOpen' own,why.resolve_left Bool.false_ne_true⟩
    | moved due moves =>
      refine .inl ⟨rfl,?_⟩
      have passed := Breaker.passed_of_probe after halfOpen' own
      rw [kept',succeeded'] at passed
      obtain ⟨more,same⟩ | ⟨enough,closed,empty⟩ := passed
      · refine .probing more ?_ ?_ ?_
        · exact (congrArg Breaker.state same).trans halfOpen'
        · exact (congrArg Breaker.probesAdmitted same).trans admitted'
        · exact congrArg Breaker.probesSucceeded same
      · have last : i + 1 = config.permittedProbes := Nat.le_antisymm fewer enough
        rw [last]
        have cleared {w : CircuitWindow} (same : w = b.window.clear) : w = w.clear := same ▸ rfl
        exact .closed closed (cleared empty)

theorem Lost.called (lost : c.Lost t) (positive : 1 ≤ c.breaker.config.permittedProbes)
    (calls : c.Calls t false given c') : given.isOk = false ∧ c'.Lost t := by
  cases calls with
  | @refused e b events now later refuses =>
    refine ⟨rfl,?_,lost.stuck⟩
    obtain ⟨state,_,opened | ⟨_,taken⟩⟩ := Breaker.not_closed_of_refused refuses
    · exact state.trans opened
    · cases ready : c.breaker.readyToProbe now with
      | false => rw [state,Breaker.looked_of_waiting ready,lost.opened]
      | true =>
        obtain ⟨_,kept,admitted,_⟩ := Breaker.looked_of_ready ready
        -- no probe has been admitted since the wait ended, so there is room for one
        rw [kept,admitted] at taken
        exact absurd positive (Nat.not_le.mpr (Nat.lt_succ_of_le taken))
  | @answered permit b events now after given V' later admits since comes =>
    cases comes with
    | failed ran why =>
      obtain ⟨halfOpen,_⟩ := Breaker.looked_of_ready (Breaker.ready_of_admitted lost.opened admits)
      obtain ⟨own,halfOpen',_⟩ := Breaker.probe_of_admitted halfOpen admits
      exact ⟨rfl,Breaker.reopened_of_probe halfOpen' own,lost.stuck⟩
    | moved due moves => exact absurd moves (lost.stuck _ _)

end Scene

theorem Scenario.succeeded_entry (index : Nat) (failure : Bool) (before : CircuitState) (given : Except Error Receipt)
    (after : CircuitState) : (entry index failure before given after).succeeded = given.isOk := by
  cases given <;> rfl

namespace Scenario.Along

variable {t : Transfer} {config : CircuitConfig} {c c' : Scene} {index i : Nat} {pattern : List Bool}
  {calls : List BreakerCall}

theorem dated (along : Along t index pattern c calls c') (start : c.Dated config) : c'.Dated config := by
  induction along with
  | nil => exact start
  | cons called _ ih => exact ih (start.called called)

theorem lost (along : Along t index pattern c calls c') (healthy : ∀ failure ∈ pattern, failure = false)
    (positive : 1 ≤ config.permittedProbes) (dated : c.Dated config) (start : c.Lost t) : c'.Lost t := by
  induction along with
  | nil => exact start
  | cons called _ ih =>
    obtain ⟨rfl,rest⟩ := List.forall_mem_cons.mp healthy
    exact ih rest (dated.called called) (start.called (dated.config ▸ positive) called).2

/-- As many calls as there are probes missing either all succeed, or the records do not allow the transfer. -/
theorem recovers (along : Along t index pattern c calls c') (healthy : ∀ failure ∈ pattern, failure = false)
    (dated : c.Dated config) (probed : c.Probed config i) (missing : i + pattern.length = config.permittedProbes) :
    (∀ call ∈ calls, call.succeeded = true) ∧ c'.Probed config config.permittedProbes ∨
      (∃ call ∈ calls, call.succeeded = false) ∧ c'.Lost t := by
  induction along generalizing i with
  | nil => exact .inl ⟨List.forall_mem_nil _,missing ▸ probed⟩
  | @cons index failure pattern c c' c'' given more called along ih =>
    obtain ⟨rfl,rest⟩ := List.forall_mem_cons.mp healthy
    rw [List.length_cons] at missing
    have dated' := dated.called called
    obtain ⟨passed,probed'⟩ | ⟨failed,lost⟩ := probed.called dated.config (by omega) called
    · obtain ⟨all,ended⟩ | ⟨⟨call,member,unmoved⟩,ended⟩ := ih rest dated' probed' (by omega)
      · exact .inl ⟨List.forall_mem_cons.mpr ⟨(succeeded_entry ..).trans passed,all⟩,ended⟩
      · exact .inr ⟨⟨call,List.mem_cons_of_mem _ member,unmoved⟩,ended⟩
    · exact .inr ⟨⟨_,List.mem_cons_self,(succeeded_entry ..).trans failed⟩,along.lost rest (by omega) dated' lost⟩

end Scenario.Along

namespace Scene

variable {config : CircuitConfig} {c : Scene}

theorem Dated.due (dated : c.Dated config) (opened : c.breaker.state = .opened) {clock : Time}
    (slept : clock = c.clock + config.openFor) : Probed config { c with clock } 0 := by
  refine .due opened fun now later => ?_
  change clock < now at later
  unfold Breaker.readyToProbe
  cases began : c.breaker.openedAt with
  | none => simp [opened]
  | some start =>
    have elapsed : start + config.openFor ≤ now := by
      rw [slept] at later
      exact Nat.le_trans (Nat.add_le_add_right (dated.past start began) _) (Nat.le_of_lt later)
    simp [opened,dated.config,elapsed]

theorem Probed.ended (probed : c.Probed config config.permittedProbes) (positive : 1 ≤ config.permittedProbes) :
    c.breaker.state = .closed ∧ c.breaker.window = c.breaker.window.clear := by
  generalize enough : config.permittedProbes = n at probed
  cases probed with
  | due => exact absurd positive (enough ▸ Nat.not_succ_le_zero 0)
  | probing fewer => exact absurd fewer (enough ▸ Nat.lt_irrefl _)
  | closed closed empty => exact ⟨closed,empty⟩

end Scene

namespace Store

def Fresh (s : Store) : Prop := ∀ id r, s.view id = some r → ∃ balance, r = .fresh id balance

theorem fresh_of_insertAll {balances : List (RecordId × Amount)} {s s' : Store}
    (inserted : s.insertAll balances = .ok s') (fresh : s.Fresh) : s'.Fresh ∧ s'.locks = s.locks := by
  induction balances generalizing s with
  | nil =>
    cases inserted
    exact ⟨fresh,rfl⟩
  | cons entry rest ih =>
    obtain ⟨id,balance⟩ := entry
    have entered : ({ s with records := s.records.insert id (.fresh id balance) } : Store).Fresh := by
      intro x r here
      change (s.records.insert id (.fresh id balance))[x]? = some r at here
      rw [Std.TreeMap.getElem?_insert] at here
      split at here
      · next same =>
        cases here
        exact ⟨balance,by rw [Nat.compare_eq_eq.mp same]⟩
      · exact fresh x r here
    unfold insertAll insert at inserted
    split at inserted
    · next added =>
      split at added <;> cases added
      have rest_fresh := ih inserted entered
      exact rest_fresh
    · cases inserted

end Store

theorem LedgerConfig.circuit_of_validate {config : LedgerConfig} (valid : config.validate = .ok ()) :
    config.circuit.validate = .ok () := by
  unfold validate at valid
  cases first : config.retry.validate with
  | error e => simp [first,bind,Except.bind] at valid
  | ok =>
    cases second : config.circuit.validate with
    | error e => simp [first,second,bind,Except.bind] at valid
    | ok => rfl

namespace Ledger

theorem fresh_of_create {config : LedgerConfig} {balances : List (RecordId × Amount)} {shared listening : Bool}
    {s : Ledger} (created : create config balances shared listening = .ok s) :
    config.circuit.validate = .ok () ∧ s.store.Fresh ∧ s.store.Unlocked ∧ s.circuits.Sound ∧
      ∀ name, s.circuits.find? name = none := by
  unfold create at created
  cases inserted : (Store.withLocks config.lock).insertAll balances with
  | error e => simp [inserted,bind,Except.bind] at created
  | ok store =>
    cases valid : config.validate with
    | error e => simp [inserted,valid,bind,Except.bind] at created
    | ok =>
      simp only [inserted,valid,bind,Except.bind,pure,Except.pure] at created
      cases created
      have empty : (Store.withLocks config.lock).Fresh := by
        intro id r here
        cases (Std.TreeMap.getElem?_emptyc : (∅ : Std.TreeMap RecordId Record)[id]? = none).symm.trans here
      obtain ⟨fresh,locks⟩ := Store.fresh_of_insertAll inserted empty
      refine ⟨LedgerConfig.circuit_of_validate valid,fresh,?_,?_,?_⟩
      · intro x
        rw [locks]
        exact Std.TreeMap.getElem?_emptyc
      · cases shared <;> exact CircuitRegistry.sound_empty _ _
      · intro name
        cases shared <;> rfl

end Ledger

theorem Ledger.Shows.sleep {s : Ledger} {name : String} {h : CircuitHandle} {c : Scene} (shows : s.Shows name h c)
    (d : Duration) : (s.answer (.sleep d false)).2.Shows name h { c with clock := c.clock + d } :=
  ⟨shows.records,shows.breaker,Nat.add_le_add_right shows.clock d,shows.named,shows.inside,shows.unlocked⟩

/-- What a source can pay at all is less than the number of versions. -/
theorem Store.Fresh.ready {s : Store} (fresh : s.Fresh) {t : Transfer} (known : ∀ id ∈ t.ids, ∃ r, s.view id = some r)
    (n : Nat) : t.Ready n s.view := by
  refine ⟨fun id r here => ?_,known,fun source _ id _ r here => ?_⟩
  · obtain ⟨balance,rfl⟩ := fresh id r here
    rfl
  · obtain ⟨balance,rfl⟩ := fresh id r here
    have most : source.balance.toInt ≤ 9223372036854775807 := Int64.toInt_le source.balance
    have few : min n (source.balance.toInt.toNat + 1) < 18446744073709551616 := by omega
    change 0 + min n (source.balance.toInt.toNat + 1) < 18446744073709551616
    rwa [Nat.zero_add]

namespace Scenario

variable {s : Ledger} {name : String} {h : CircuitHandle} {c : Scene} {t : Transfer}

def Recovered (config : LedgerConfig) (name : String) (h : CircuitHandle) (t : Transfer) (c : Scene)
    (recovery : BreakerReport) (left : Ledger) : Prop :=
  recovery.calls.length = config.circuit.permittedProbes ∧ ∃ c', recovery.metrics = c'.breaker.metrics ∧
    left.Shows name h c' ∧ t.Moved (recovery.calls.countP BreakerCall.succeeded) c.records c'.records ∧
    ((∀ call ∈ recovery.calls, call.succeeded = true) ∧ c'.breaker.state = .closed ∧
        c'.breaker.window = c'.breaker.window.clear ∨
      (∃ call ∈ recovery.calls, call.succeeded = false) ∧ c'.breaker.state = .opened)

theorem paced_recovery {config : LedgerConfig} (positive : 1 ≤ config.circuit.permittedProbes) (own : σ)
    (valid : t.validate = .ok ()) (shows : s.Shows name h c) (dated : c.Dated config.circuit)
    (opened : c.breaker.state = .opened) (ready : t.Ready config.circuit.permittedProbes c.records) :
    (do
      let _ ← perform (.sleep config.circuit.openFor false)
      flakyTransfers config name t (List.replicate config.circuit.permittedProbes false) :
        Procedure σ BreakerReport).Obeys Rule.paced (fun answer _ left => ∃ recovery,
      answer = .ok recovery ∧ Recovered config name h t c recovery left) own s := by
  rw [obeys_bind,obeys_perform]
  intro d
  refine Rule.alone_of_reply (r := true) rfl ?_
  dsimp only
  have slept := (shows.elapse d).sleep config.circuit.openFor
  have found (d : Duration) := (slept.elapse d).answer_circuit config.circuit
  have enough : 0 + (List.replicate config.circuit.permittedProbes false).length = config.circuit.permittedProbes := by
    rw [List.length_replicate,Nat.zero_add]
  rw [← enough] at ready
  have run := paced_flakyTransfers config _ own valid (fun d => ⟨_,found d,slept.elapse d⟩) ready
  refine run.mono Rule.paced_monotone fun answer own left ended => ?_
  obtain ⟨recovery,c',rfl,along,metrics,shown,_⟩ := ended
  have counted : recovery.calls.length = config.circuit.permittedProbes := by
    rw [← List.length_map BreakerCall.injectedFailure,along.failures,List.length_replicate]
  refine ⟨recovery,rfl,counted,c',metrics,shown,along.moved,?_⟩
  have dated' := dated.later (Nat.le_add_right c.clock config.circuit.openFor)
  obtain ⟨all,probed⟩ | ⟨some,lost⟩ :=
    along.recovers (fun _ member => List.eq_of_mem_replicate member) dated' (dated.due opened rfl) enough
  · exact .inl ⟨all,probed.ended positive⟩
  · exact .inr ⟨some,lost.opened⟩

def goOn (config : LedgerConfig) (name : String) (t : Transfer) (recover : Bool) (first : BreakerReport) :
    Procedure σ (BreakerReport × Option BreakerReport) := do
  if recover && first.metrics.state = .opened then
    let _ ← perform (.sleep config.circuit.openFor false)
    let probes := List.replicate config.circuit.permittedProbes false
    pure (first, some (← flakyTransfers config name t probes))
  else pure (first, none)

theorem breakerRun_eq (config : LedgerConfig) (name : String) (t : Transfer) (pattern : List Bool) (recover : Bool) :
    (breakerRun config name t pattern recover : Procedure σ (BreakerReport × Option BreakerReport)) =
      flakyTransfers config name t pattern >>= goOn config name t recover := rfl

theorem paced_goOn {config : LedgerConfig} {report : BreakerReport} (positive : 1 ≤ config.circuit.permittedProbes)
    (own : σ) (valid : t.validate = .ok ()) (recover : Bool) (shown : s.Shows name h c)
    (metrics : report.metrics = c.breaker.metrics) (dated : c.Dated config.circuit)
    (ready : t.Ready config.circuit.permittedProbes c.records) :
    (goOn config name t recover report).Obeys Rule.paced (fun answer _ left => ∃ recovery?,
      answer = .ok (report, recovery?) ∧ (recovery?.isSome = true ↔ recover = true ∧ report.metrics.state = .opened) ∧
      ∀ recovery, recovery? = some recovery → Recovered config name h t c recovery left) own s := by
  unfold goOn
  rw [obeys_ite]
  split
  · next going =>
    obtain ⟨told,opened⟩ : recover = true ∧ report.metrics.state = .opened := by simpa using going
    have open_now : c.breaker.state = .opened := by
      rw [metrics] at opened
      exact opened
    have recovery := paced_recovery positive own valid shown dated open_now ready
    rw [obeys_bind,obeys_perform] at recovery ⊢
    refine Rule.paced_monotone _ _ _ _ (fun completed left recovers => ?_) recovery
    dsimp only at recovers ⊢
    rw [obeys_bind]
    refine recovers.mono Rule.paced_monotone fun answer own left ended => ?_
    obtain ⟨recovery,rfl,recovered⟩ := ended
    refine ⟨some recovery,rfl,⟨fun _ => ⟨told,opened⟩,fun _ => rfl⟩,fun other same => ?_⟩
    cases same
    exact recovered
  · next ended =>
    refine ⟨none,rfl,⟨Bool.noConfusion,fun both => absurd ?_ ended⟩,fun recovery none => ?_⟩
    · simpa using both
    · cases none

/-- A run goes on to recover if it is told to and has left the circuit open, and any time may pass before each call. If
all probes succeed, the circuit ends closed and has forgotten what it held; otherwise it ends open again. In both cases
the records differ from those after the pattern by what the probes have moved. -/
theorem breakerRun_recovers {config : LedgerConfig} {balances : List (RecordId × Amount)} {shared listening : Bool}
    (created : Ledger.create config balances shared listening = .ok s) (name : String) (t : Transfer)
    (pattern : List Bool) (recover : Bool) (own : σ) (apart : t.source ≠ t.target) (positive : 0 < t.amount.toInt)
    (known : ∀ id ∈ t.ids, ∃ r, s.store.records[id]? = some r) (pace : Nat → Duration) :
    let first := Timed.run ⟨s, pace⟩ ((flakyTransfers config name t pattern).start own)
    let ended := Timed.run ⟨s, pace⟩ ((breakerRun config name t pattern recover).start own)
    ∃ report recovery?, first.1.1 = .ok report ∧ ended.1.1 = .ok (report, recovery?) ∧
      (recovery?.isSome = true ↔ recover = true ∧ report.metrics.state = .opened) ∧
      ∀ recovery, recovery? = some recovery →
        recovery.calls.length = config.circuit.permittedProbes ∧
        (∃ b, ended.2.ledger.circuits.get? name = some b ∧ recovery.metrics = b.metrics ∧
          ((∀ call ∈ recovery.calls, call.succeeded = true) →
            b.state = .closed ∧ b.window.outcomes = [] ∧ b.window.failures = 0 ∧ b.window.slow = 0) ∧
          ((∃ call ∈ recovery.calls, call.succeeded = false) → b.state = .opened)) ∧
        (let n := recovery.calls.countP BreakerCall.succeeded
          ∃ source target source' target', first.2.ledger.store.records[t.source]? = some source ∧
            first.2.ledger.store.records[t.target]? = some target ∧
            ended.2.ledger.store.records[t.source]? = some source' ∧
            source'.balance.toInt = source.balance.toInt - n * t.amount.toInt ∧ source'.version = source.version + n ∧
            ended.2.ledger.store.records[t.target]? = some target' ∧
            target'.balance.toInt = target.balance.toInt + n * t.amount.toInt ∧
            target'.version = target.version + n) ∧
        ∀ x : RecordId, x ∉ t.ids → ended.2.ledger.store.records[x]? = first.2.ledger.store.records[x]? := by
  intro first ended
  obtain ⟨circuit_valid,fresh,free,sound,unnamed⟩ := Ledger.fresh_of_create created
  have probes := (CircuitConfig.bounds_of_validate circuit_valid).2.2
  have valid : t.validate = .ok () := by
    refine Transfer.valid_iff.mpr ⟨apart,?_⟩
    simpa [Int64.le_iff_toInt_le] using positive
  obtain ⟨h,found⟩ := s.shows_circuit sound free name config.circuit
  obtain ⟨report,c,answered,along,metrics,shown,ready,_⟩ := run_of_paced (s := ⟨s, pace⟩)
    (paced_flakyTransfers config pattern own valid found
      (fresh.ready known (config.circuit.permittedProbes + pattern.length)))
  have unused : s.circuits.get? name = none := by rw [CircuitRegistry.get?,unnamed,Option.map_none]
  rw [unused] at along
  have dated : c.Dated config.circuit := along.dated ⟨rfl,fun since began => by cases began⟩
  -- the rest of the run starts where the pattern has ended, at the pace that is left
  have resumed : ended = first.2.run ((goOn config name t recover report).start first.1.2) := by
    unfold ended
    rw [breakerRun_eq]
    exact Timed.run_bind_ok _ answered
  obtain ⟨recovery?,ran,recovers,recovered⟩ := run_of_paced (s := first.2)
    (paced_goOn probes first.1.2 valid recover shown metrics dated ready)
  rw [← resumed] at ran recovered
  refine ⟨report,recovery?,answered,ran,recovers,fun recovery some => ?_⟩
  obtain ⟨counted,c',metrics',shown',moved,ends⟩ := recovered recovery some
  have stored (x : RecordId) : first.2.ledger.store.records[x]? = c.records x := congrFun shown.records x
  have stored' (x : RecordId) : ended.2.ledger.store.records[x]? = c'.records x := congrFun shown'.records x
  refine ⟨counted,⟨c'.breaker,shown'.get?,metrics',fun all => ?_,fun lost => ?_⟩,?_,fun x other => ?_⟩
  · obtain ⟨_,closed,empty⟩ | ⟨⟨call,member,failed⟩,_⟩ := ends
    · rw [empty]
      exact ⟨closed,rfl,rfl,rfl⟩
    · cases failed.symm.trans (all call member)
  · obtain ⟨call,member,failed⟩ := lost
    obtain ⟨all,_⟩ | ⟨_,opened⟩ := ends
    · cases failed.symm.trans (all call member)
    · exact opened
  · obtain ⟨source,here⟩ := ready.known t.source List.mem_cons_self
    obtain ⟨target,there⟩ := ready.known t.target (List.mem_cons_of_mem _ List.mem_cons_self)
    obtain ⟨source',here',paid,raised⟩ := moved.source source here
    obtain ⟨target',there',received,raised'⟩ := moved.target target there
    exact ⟨source,target,source',target',(stored _).trans here,(stored _).trans there,(stored' _).trans here',paid,raised,
      (stored' _).trans there',received,raised'⟩
  · rw [stored,stored',moved.others x other]

/-- One failure opens the circuit, for a second and until four probes have succeeded. -/
def brittle : LedgerConfig :=
  { circuit := { minimumCalls := 1, slidingWindowSize := 1, waitDuration := 1000, permittedProbes := 4 } }

def brittlePair : Ledger where
  store := { Store.withLocks {} with records := (Store.seeded [(1, 100),(2, 50)]).records }
  circuits := { defaults := brittle.circuit }

def tardyTransfers : (Outcome BreakerReport × Unit) × Timed :=
  Timed.run ⟨brittlePair, fun _ => 150000000⟩ ((flakyTransfers brittle "transfer" ⟨1, 2, 60⟩ [true]).start ())

def tardyRun : (Outcome (BreakerReport × Option BreakerReport) × Unit) × Timed :=
  Timed.run ⟨brittlePair, fun _ => 150000000⟩ ((breakerRun brittle "transfer" ⟨1, 2, 60⟩ [true] true).start ())

/-- The money runs out with the second probe. The next one is refused for it, and the last one comes after the new wait. -/
theorem breakerRun_recovers_brittlePair :
    ∃ report recovery, tardyRun.1.1 = .ok (report, some recovery) ∧
      recovery.calls.map (fun call => (call.succeeded, call.rejected)) =
        [(true, false),(false, false),(false, true),(false, false)] ∧
      recovery.metrics.state = .opened ∧
      ∃ source', tardyRun.2.ledger.store.records[(1 : RecordId)]? = some source' ∧ source'.balance.toInt = 40 := by
  have created : Ledger.create brittle [(1, 100),(2, 50)] false true = .ok brittlePair := rfl
  have known : ∀ id ∈ Transfer.ids ⟨1, 2, 60⟩, ∃ r, brittlePair.store.records[id]? = some r := by
    intro id member
    obtain rfl | rfl : id = 1 ∨ id = 2 := by simpa [Transfer.ids] using member
    · exact ⟨.fresh 1 100,by decide +kernel⟩
    · exact ⟨.fresh 2 50,by decide +kernel⟩
  obtain ⟨report,recovery?,_,ran,_,recovers⟩ :=
    breakerRun_recovers created "transfer" ⟨1, 2, 60⟩ [true] true () (by decide) (by decide) known fun _ => 150000000
  have probed : tardyRun.1.1.toOption.bind (fun r => r.2.map fun recovery =>
      recovery.calls.map fun call => (call.succeeded, call.rejected)) =
        some [(true, false),(false, false),(false, true),(false, false)] := by decide +kernel
  have before : tardyTransfers.2.ledger.store.records[1]? = some (.fresh 1 100) := by decide +kernel
  unfold tardyTransfers at before
  unfold tardyRun at probed ⊢
  rw [ran] at probed
  obtain ⟨recovery,rfl,calls⟩ : ∃ recovery, recovery? = some recovery ∧ recovery.calls.map _ = _ :=
    Option.map_eq_some_iff.mp probed
  obtain ⟨_,⟨b,_,metrics,_,reopened⟩,⟨source,target,source',_,here,_,here',paid,_⟩,_⟩ := recovers recovery rfl
  have last : (false, true) ∈ recovery.calls.map fun call => (call.succeeded, call.rejected) := calls ▸ by decide
  have moved : recovery.calls.countP BreakerCall.succeeded = 1 := by
    have mapped : (recovery.calls.map fun call => (call.succeeded, call.rejected)).countP Prod.fst = 1 := calls ▸ rfl
    rwa [List.countP_map] at mapped
  obtain ⟨call,member,failed⟩ := List.mem_map.mp last
  refine ⟨report,recovery,ran,calls,?_,source',here',?_⟩
  · rw [metrics]
    exact reopened ⟨call,member,congrArg Prod.fst failed⟩
  · cases before.symm.trans here
    rw [moved] at paid
    exact paid

end Scenario

end VersionedLedger
