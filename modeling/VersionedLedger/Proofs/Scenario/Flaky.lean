import VersionedLedger.Proofs.Serial.Circuit
import VersionedLedger.Scenario.Flaky

/-! One guarded transfer for each entry of a pattern of failures. A fault is armed afresh for each call, be it
refused or not; so what one call leaves of the faults does not show in the next one, and the records follow from the
calls that have succeeded. -/
namespace VersionedLedger

open Procedure View

variable {σ : Type}

namespace Breaker

variable {b b' : Breaker} {now : Time} {events : List Event}

theorem notPermitted_looked : (b.looked now).notPermitted = b.notPermitted := by
  unfold looked
  split <;> rfl

theorem counts_of_refused {e : Error} (refuses : b.tryAcquire now = (.error e, b', events)) :
    e.isCircuitOpen = true ∧ b'.notPermitted = b.notPermitted + 1 := by
  have admits := b.tryAcquire_admits now
  rw [refuses] at admits
  cases admits <;> exact ⟨rfl,congrArg (· + 1) notPermitted_looked⟩

theorem notPermitted_of_admitted {permit : Permit} (admits : b.tryAcquire now = (.ok permit, b', events)) :
    b'.notPermitted = b.notPermitted := by
  have given := b.tryAcquire_admits now
  rw [admits] at given
  cases given <;> exact notPermitted_looked

theorem notPermitted_record (permit : Permit) (failed : Bool) :
    (b.record permit failed now).1.notPermitted = b.notPermitted := by
  rw [record_eq]
  split
  · have absorbs := b.absorb_absorbs (b.outcome permit failed now) now
    generalize (b.absorb (b.outcome permit failed now) now).1 = after at absorbs
    cases absorbs <;> rfl
  · rfl

end Breaker

namespace Transfer

variable {t : Transfer} {V V' V'' : View} {m n : Nat}

/-- The amount has gone from the source to the target a number of times, and nothing else is changed. -/
structure Moved (t : Transfer) (n : Nat) (V V' : View) : Prop where
  source : ∀ r, V t.source = some r → ∃ r', V' t.source = some r' ∧
    r'.balance.toInt = r.balance.toInt - n * t.amount.toInt ∧ r'.version = r.version + n
  target : ∀ r, V t.target = some r → ∃ r', V' t.target = some r' ∧
    r'.balance.toInt = r.balance.toInt + n * t.amount.toInt ∧ r'.version = r.version + n
  others : ∀ x, x ∉ t.ids → V' x = V x

theorem moved_zero (t : Transfer) (V : View) : t.Moved 0 V V :=
  ⟨fun r here => ⟨r,here,by simp,rfl⟩,fun r here => ⟨r,here,by simp,rfl⟩,fun _ _ => rfl⟩

theorem Moved.trans (first : t.Moved m V V') (second : t.Moved n V' V'') : t.Moved (m + n) V V'' := by
  refine ⟨fun r here => ?_,fun r here => ?_,fun x other => (second.others x other).trans (first.others x other)⟩
  · obtain ⟨r',here',balance,version⟩ := first.source r here
    obtain ⟨r'',here'',balance',version'⟩ := second.source r' here'
    refine ⟨r'',here'',?_,?_⟩
    · rw [balance',balance,Int.natCast_add,Int.add_mul]
      omega
    · rw [version',version,Nat.add_assoc]
  · obtain ⟨r',here',balance,version⟩ := first.target r here
    obtain ⟨r'',here'',balance',version'⟩ := second.target r' here'
    refine ⟨r'',here'',?_,?_⟩
    · rw [balance',balance,Int.natCast_add,Int.add_mul]
      omega
    · rw [version',version,Nat.add_assoc]

theorem Moves.moved {receipt : Receipt} (moves : t.Moves V receipt V') : t.Moved 1 V V' := by
  cases moves with
  | @intro source target source' target' debited credited valid source_here target_here debit credit source_next
      target_next =>
    obtain ⟨_,_,debited_eq⟩ := Account.toInt_of_debit debit
    obtain ⟨_,credited_eq⟩ := Account.toInt_of_credit credit
    rw [Record.next_eq source_next,Record.next_eq target_next]
    refine ⟨fun r here => ?_,fun r here => ?_,fun x other => ?_⟩
    · cases source_here.symm.trans here
      refine ⟨_,(set_other (source_ne_target valid)).trans set_self,?_,rfl⟩
      rw [debited_eq,Int.natCast_one,Int.one_mul]
    · cases target_here.symm.trans here
      refine ⟨_,set_self,?_,rfl⟩
      rw [credited_eq,Int.natCast_one,Int.one_mul]
    · obtain ⟨apart,apart',_⟩ : x ≠ t.source ∧ x ≠ t.target ∧ x ∉ [] := by simpa [ids] using other
      rw [set_other apart',set_other apart]

/-- Records that a number of calls may be made on. No version runs out with them: each call that succeeds takes
something from the source, so there are no more of these than the source can pay. -/
structure Ready (t : Transfer) (n : Nat) (V : View) : Prop where
  keyed : V.Keyed
  known : ∀ id ∈ t.ids, ∃ r, V id = some r
  room : ∀ source, V t.source = some source → ∀ id ∈ t.ids, ∀ r, V id = some r →
    r.version + min n (source.balance.toInt.toNat + 1) < Version.limit

namespace Ready

theorem source (ready : t.Ready n V) : ∃ r, V t.source = some r := ready.known _ List.mem_cons_self

theorem next (ready : t.Ready (n + 1) V) (id : RecordId) (member : id ∈ t.ids) (r : Record) (here : V id = some r) :
    r.version + 1 < Version.limit := by
  obtain ⟨source,found⟩ := ready.source
  have once : 1 ≤ min (n + 1) (source.balance.toInt.toNat + 1) := by omega
  exact Nat.lt_of_le_of_lt (Nat.add_le_add_left once _) (ready.room source found id member r here)

theorem of_room {source target : Record} (keyed : V.Keyed) (here : V t.source = some source)
    (there : V t.target = some target)
    (source_room : source.version + min n (source.balance.toInt.toNat + 1) < Version.limit)
    (target_room : target.version + min n (source.balance.toInt.toNat + 1) < Version.limit) : t.Ready n V := by
  have each {id : RecordId} (member : id ∈ t.ids) :
      ∃ r, V id = some r ∧ r.version + min n (source.balance.toInt.toNat + 1) < Version.limit := by
    obtain rfl | rfl : id = t.source ∨ id = t.target := by simpa [ids] using member
    · exact ⟨source,here,source_room⟩
    · exact ⟨target,there,target_room⟩
  refine ⟨keyed,fun id member => ?_,fun payer paying id member r found => ?_⟩
  · obtain ⟨r,found,_⟩ := each member
    exact ⟨r,found⟩
  · obtain ⟨r',found',room⟩ := each member
    cases here.symm.trans paying
    cases found.symm.trans found'
    exact room

theorem idle (ready : t.Ready (n + 1) V) : t.Ready n V := by
  refine ⟨ready.keyed,ready.known,fun source found id member r here => ?_⟩
  have fewer : min n (source.balance.toInt.toNat + 1) ≤ min (n + 1) (source.balance.toInt.toNat + 1) := by omega
  exact Nat.lt_of_le_of_lt (Nat.add_le_add_left fewer _) (ready.room source found id member r here)

theorem moved {receipt : Receipt} (ready : t.Ready (n + 1) V) (moves : t.Moves V receipt V') : t.Ready n V' := by
  obtain ⟨source,found⟩ := ready.source
  obtain ⟨target,there⟩ := ready.known t.target (List.mem_cons_of_mem _ List.mem_cons_self)
  have moved := moves.moved
  obtain ⟨positive,covered⟩ : 0 < t.amount.toInt ∧ t.amount.toInt ≤ source.balance.toInt := by
    obtain ⟨_,found',_,debit,_⟩ := moves
    cases found.symm.trans found'
    obtain ⟨positive,covered,_⟩ := Account.toInt_of_debit debit
    exact ⟨positive,covered⟩
  obtain ⟨source',found',balance,version⟩ := moved.source source found
  obtain ⟨target',there',_,version'⟩ := moved.target target there
  -- the source has paid at least one unit, so it can pay one time less
  have fewer : 1 + min n (source'.balance.toInt.toNat + 1) ≤ min (n + 1) (source.balance.toInt.toNat + 1) := by omega
  have raised {r r' : Record} {id : RecordId} (member : id ∈ t.ids) (here : V id = some r)
      (version : r'.version = r.version + 1) :
      r'.version + min n (source'.balance.toInt.toNat + 1) < Version.limit := by
    rw [version,Nat.add_assoc]
    exact Nat.lt_of_le_of_lt (Nat.add_le_add_left fewer _) (ready.room source found id member r here)
  have cases_ids {id : RecordId} (member : id ∈ t.ids) : id = t.source ∨ id = t.target := by simpa [ids] using member
  refine ⟨moves.keyed ready.keyed,fun id member => ?_,fun r here id member r' here' => ?_⟩
  · obtain rfl | rfl := cases_ids member
    · exact ⟨source',found'⟩
    · exact ⟨target',there'⟩
  · cases found'.symm.trans here
    obtain rfl | rfl := cases_ids member
    · cases found'.symm.trans here'
      exact raised member found version
    · cases there'.symm.trans here'
      exact raised member there version'

theorem called {failure : Bool} {c c' : Scene} {given : Except Error Receipt} (ready : t.Ready (n + 1) c.records)
    (calls : c.Calls t failure given c') : t.Ready n c'.records := by
  cases calls with
  | refused => exact ready.idle
  | answered _ _ _ comes =>
    cases comes with
    | failed => exact ready.idle
    | moved _ moves => exact ready.moved moves

end Ready

end Transfer

namespace Scenario

def entry (index : Nat) (failure : Bool) (before : CircuitState) (given : Except Error Receipt)
    (after : CircuitState) : BreakerCall :=
  let error := match given with
    | .ok _ => none
    | .error e => some e
  { index
    injectedFailure := failure
    stateBefore := before
    stateAfter := after
    succeeded := error.isNone
    rejected := error.any Error.isCircuitOpen
    error := error.map Error.message }

/-- The calls of a pattern, one after the other, and what is reported of them. -/
inductive Along (t : Transfer) : Nat → List Bool → Scene → List BreakerCall → Scene → Prop
  | nil (index : Nat) (c : Scene) : Along t index [] c [] c
  | cons {index : Nat} {failure : Bool} {pattern : List Bool} {c c' c'' : Scene} {given : Except Error Receipt}
      {more : List BreakerCall} (calls : c.Calls t failure given c') (rest : Along t (index + 1) pattern c' more c'') :
    Along t index (failure :: pattern) c
      (entry index failure c.breaker.state given c'.breaker.state :: more) c''

end Scenario

namespace Faults

variable {f : Faults}

theorem silent_clear (f : Faults) : (f.set .clear).Silent := ⟨rfl,rfl,rfl⟩

theorem Silent.fails (silent : f.Silent) : f.fails 0 = false := by
  simp [Faults.fails,tape,silent.1,silent.2.1]

theorem Silent.armed (silent : f.Silent) : (f.set (.failNext 1)).fails 0 = true := by
  simp [Faults.fails,tape,set,silent.1]

end Faults

namespace Ledger

variable {s : Ledger} {name : String} {h : CircuitHandle} {c : Scene} {t : Transfer} {n : Nat}

theorem Shows.setFaults (shows : s.Shows name h c) (setting : FaultSetting) :
    (s.answer (.setFaults setting)).2.Shows name h c :=
  ⟨shows.records,shows.breaker,shows.clock,shows.named,shows.inside,shows.unlocked⟩

theorem Shows.circuitState (shows : s.Shows name h c) : (s.answer (.circuitState h)).1 = c.breaker.state :=
  congrArg Breaker.state shows.breaker

end Ledger

namespace Scenario

variable {s : Ledger} {name : String} {h : CircuitHandle} {c : Scene} {t : Transfer} {n : Nat}

def observedCall (config : LedgerConfig) (name : String) (h : CircuitHandle) (t : Transfer) (index : Nat)
    (failure : Bool) : Procedure σ BreakerCall := do
  let stateBefore ← perform (.circuitState h)
  let answer ← outcome (Ledger.guardedCall config name (t.ordered config.lock.locking) .noRetry)
  let error ← match answer with
    | .ok _ => pure none
    | .error (.error e) => pure (some e)
    | .error (.crash c) => crash c
  pure
    { index
      injectedFailure := failure
      stateBefore
      stateAfter := ← perform (.circuitState h)
      succeeded := error.isNone
      rejected := error.any Error.isCircuitOpen
      error := error.map Error.message }

theorem flakyCall_eq (config : LedgerConfig) (index : Nat) (failure : Bool) :
    (flakyCall config name h t index failure : Procedure σ BreakerCall) = (do
      setFaults .clear
      if failure then setFaults (.failNext 1)
      observedCall config name h t index failure) := rfl

theorem paced_observedCall (config : LedgerConfig) (index : Nat) (failure : Bool) (own : σ)
    (valid : t.validate = .ok ()) (shows : s.Shows name h c) (ready : t.Ready (n + 1) c.records)
    (never : s.store.faults.rate = 0) (due : s.store.faults.fails 0 = failure) :
    (observedCall config name h t index failure).Obeys Rule.paced (fun answer _ left => ∃ given c',
      answer = .ok (entry index failure c.breaker.state given c'.breaker.state) ∧ c.Calls t failure given c' ∧
        left.Shows name h c') own s := by
  unfold observedCall
  rw [obeys_bind,obeys_perform]
  intro d
  have shows := shows.elapse d
  apply Rule.alone_of_reply (c := .circuitState h) shows.circuitState
  dsimp only
  rw [obeys_bind,obeys_outcome]
  have called := (s.elapse d).paced_guardedCall config t own valid shows ready.keyed ready.known ready.next rfl never
  refine called.mono Rule.paced_monotone fun answer own left ended => ?_
  obtain ⟨given,c',rfl,calls,shows'⟩ := ended
  change c.Calls t (s.store.faults.fails 0) given c' at calls
  rw [due] at calls
  cases given
  all_goals
    dsimp only [Outcome.ofError]
    rw [obeys_bind,obeys_pure]
    dsimp only
    rw [obeys_bind,obeys_perform]
    intro d
    have shows' := shows'.elapse d
    exact Rule.alone_of_reply (c := .circuitState h) shows'.circuitState ⟨_,c',rfl,calls,shows'⟩

theorem paced_flakyCall (config : LedgerConfig) (index : Nat) (failure : Bool) (own : σ) (valid : t.validate = .ok ())
    (shows : s.Shows name h c) (ready : t.Ready (n + 1) c.records) :
    (flakyCall config name h t index failure).Obeys Rule.paced (fun answer _ left => ∃ given c',
      answer = .ok (entry index failure c.breaker.state given c'.breaker.state) ∧ c.Calls t failure given c' ∧
        left.Shows name h c') own s := by
  rw [flakyCall_eq]
  unfold setFaults
  rw [obeys_bind,obeys_perform]
  intro d
  apply Rule.alone_of_reply (c := .setFaults .clear) rfl
  have cleared := (shows.elapse d).setFaults .clear
  have silent : ((s.elapse d).answer (.setFaults .clear)).2.store.faults.Silent := Faults.silent_clear _
  generalize ((s.elapse d).answer (.setFaults .clear)).2 = s' at cleared silent ⊢
  dsimp only
  rw [obeys_ite]
  split
  · next due =>
    rw [obeys_bind,obeys_perform]
    intro d
    apply Rule.alone_of_reply (c := .setFaults (.failNext 1)) rfl
    dsimp only
    have armed := silent.armed.trans due.symm
    have set := (cleared.elapse d).setFaults (.failNext 1)
    exact paced_observedCall config index failure own valid set ready silent.2.2 armed
  · next spared =>
    have healthy : failure = false := Bool.not_eq_true _ ▸ spared
    exact paced_observedCall config index failure own valid cleared ready silent.2.2 (silent.fails.trans healthy.symm)

theorem paced_flakyCalls (config : LedgerConfig) (pattern : List Bool) (index : Nat) (own : σ)
    (valid : t.validate = .ok ()) (shows : s.Shows name h c) (ready : t.Ready (n + pattern.length) c.records) :
    (flakyCalls config name h t index pattern).Obeys Rule.paced (fun answer _ left => ∃ calls c',
      answer = .ok calls ∧ Along t index pattern c calls c' ∧ left.Shows name h c' ∧ t.Ready n c'.records) own s := by
  induction pattern generalizing index own s c with
  | nil => exact ⟨[],c,rfl,.nil index c,shows,ready⟩
  | cons failure pattern ih =>
    unfold flakyCalls
    rw [obeys_bind]
    have first := paced_flakyCall config index failure own valid shows ready
    refine first.mono Rule.paced_monotone fun answer own left ended => ?_
    obtain ⟨given,c',rfl,called,shows'⟩ := ended
    dsimp only
    rw [obeys_bind]
    refine (ih (index + 1) own shows' (ready.called called)).mono Rule.paced_monotone fun answer own left ended => ?_
    obtain ⟨calls,c'',rfl,along,shows'',ready'⟩ := ended
    exact ⟨_,c'',rfl,.cons called along,shows'',ready'⟩

theorem paced_flakyTransfers (config : LedgerConfig) (pattern : List Bool) (own : σ) (valid : t.validate = .ok ())
    (found : ∀ d, ∃ s', (s.elapse d).answer (.circuit name config.circuit) = (h, s') ∧ s'.Shows name h c)
    (ready : t.Ready (n + pattern.length) c.records) :
    (flakyTransfers config name t pattern).Obeys Rule.paced (fun answer _ left => ∃ report c',
      answer = .ok report ∧ Along t 0 pattern c report.calls c' ∧ report.metrics = c'.breaker.metrics ∧
        left.Shows name h c' ∧ t.Ready n c'.records ∧ left.store.faults.Silent) own s := by
  unfold flakyTransfers Ledger.circuit setFaults
  rw [obeys_bind,obeys_perform]
  intro d
  obtain ⟨s',found,shows⟩ := found d
  refine Rule.alone_of_reply (congrArg Prod.fst found) ?_
  rw [found]
  dsimp only
  rw [obeys_bind]
  refine (paced_flakyCalls config pattern 0 own valid shows ready).mono Rule.paced_monotone ?_
  intro answer own left ended
  obtain ⟨calls,c',rfl,along,shows',ready'⟩ := ended
  dsimp only
  rw [obeys_bind,obeys_perform]
  intro d
  refine Rule.alone_of_reply rfl ?_
  dsimp only
  rw [obeys_bind,obeys_perform]
  intro d'
  have cleared := ((shows'.elapse d).setFaults .clear).elapse d'
  exact ⟨_,c',rfl,along,congrArg Breaker.metrics cleared.breaker,cleared,ready',rfl,rfl,rfl⟩

theorem entry_accounts {failure : Bool} {c' : Scene} {given : Except Error Receipt}
    (calls : c.Calls t failure given c') (index : Nat) :
    let call := entry index failure c.breaker.state given c'.breaker.state
    (call.succeeded = true → call.rejected = false ∧ failure = false) ∧
    t.Moved call.succeeded.toNat c.records c'.records ∧
    c'.breaker.notPermitted = c.breaker.notPermitted + call.rejected.toNat := by
  intro call
  cases calls with
  | @refused e b events now later refuses =>
    obtain ⟨named,counted⟩ := Breaker.counts_of_refused refuses
    have rejected : call.rejected = true := named
    rw [rejected]
    exact ⟨Bool.noConfusion,t.moved_zero _,counted⟩
  | @answered permit b events now after given V' later admits since comes =>
    have uncounted : (b.record permit (!given.isOk) after).1.notPermitted = c.breaker.notPermitted :=
      (Breaker.notPermitted_record permit _).trans (Breaker.notPermitted_of_admitted admits)
    cases comes with
    | failed ran why =>
      have rejected : call.rejected = false := ran
      rw [rejected]
      exact ⟨Bool.noConfusion,t.moved_zero _,uncounted⟩
    | moved due moves => exact ⟨fun _ => ⟨rfl,due⟩,moves.moved,uncounted⟩

theorem countP_cons_toNat {α : Type} (p : α → Bool) (x : α) (xs : List α) :
    (x :: xs).countP p = (p x).toNat + xs.countP p := by
  rw [List.countP_cons]
  cases p x <;> simp [Nat.add_comm]

namespace Along

variable {index : Nat} {pattern : List Bool} {c' : Scene} {calls : List BreakerCall}

theorem indices (along : Along t index pattern c calls c') :
    calls.map BreakerCall.index = List.range' index pattern.length := by
  induction along with
  | nil => rfl
  | cons _ _ ih => exact congrArg (_ :: ·) ih

theorem failures (along : Along t index pattern c calls c') : calls.map BreakerCall.injectedFailure = pattern := by
  induction along with
  | nil => rfl
  | cons _ _ ih => exact congrArg (_ :: ·) ih

theorem chained (along : Along t index pattern c calls c') :
    calls.IsChain (fun call next => next.stateBefore = call.stateAfter) ∧
      ∀ call ∈ calls.head?, call.stateBefore = c.breaker.state := by
  induction along with
  | nil => exact ⟨.nil,by simp⟩
  | cons _ _ ih => exact ⟨List.isChain_cons.mpr ⟨ih.2,ih.1⟩,by simp [entry]⟩

theorem told (along : Along t index pattern c calls c') :
    ∀ call ∈ calls, call.succeeded = true → call.rejected = false ∧ call.injectedFailure = false := by
  induction along with
  | nil => exact List.forall_mem_nil _
  | cons called _ ih => exact List.forall_mem_cons.mpr ⟨(entry_accounts called _).1,ih⟩

theorem moved (along : Along t index pattern c calls c') :
    t.Moved (calls.countP BreakerCall.succeeded) c.records c'.records := by
  induction along with
  | nil => exact t.moved_zero _
  | @cons index _ _ _ _ _ _ _ called _ ih =>
    rw [countP_cons_toNat]
    exact (entry_accounts called index).2.1.trans ih

theorem refusals (along : Along t index pattern c calls c') :
    c'.breaker.notPermitted = c.breaker.notPermitted + calls.countP BreakerCall.rejected := by
  induction along with
  | nil => rfl
  | @cons index _ _ _ _ _ _ _ called _ ih =>
    rw [ih,(entry_accounts called index).2.2,countP_cons_toNat,Nat.add_assoc]

end Along

end Scenario

namespace Ledger

theorem shows_circuit {s : Ledger} (sound : s.circuits.Sound) (free : s.store.Unlocked) (name : String)
    (config : CircuitConfig) : ∃ h, ∀ d, ∃ s', (s.elapse d).answer (.circuit name config) = (h, s') ∧
      s'.Shows name h ⟨s.store.view, (s.circuits.get? name).getD (.create name config), s.clock⟩ := by
  refine ⟨(s.circuits.insertIfAbsent name config).1.1,fun d => ⟨_,(s.elapse d).answer_circuit name config,?_⟩⟩
  have later : s.clock ≤ (s.elapse d).clock := Nat.le_add_right _ _
  change ({ s.elapse d with circuits := (s.circuits.insertIfAbsent name config).2 } : Ledger).Shows _ _ _
  unfold CircuitRegistry.get?
  cases here : s.circuits.find? name with
  | some h =>
    rw [CircuitRegistry.insertIfAbsent_of_present here]
    exact ⟨rfl,rfl,later,here,sound.lt_length here,free⟩
  | none =>
    have named : (s.circuits.insertIfAbsent name config).2.find? name = if name = name then some _ else _ :=
      CircuitRegistry.find?_insertIfAbsent
    rw [if_pos rfl] at named
    refine ⟨rfl,?_,later,named,?_,free⟩
    · rw [CircuitRegistry.insertIfAbsent_of_absent here]
      simp [CircuitRegistry.breaker]
    · rw [CircuitRegistry.insertIfAbsent_of_absent here]
      simp

theorem Shows.get? {s : Ledger} {name : String} {h : CircuitHandle} {c : Scene} (shows : s.Shows name h c) :
    s.circuits.get? name = some c.breaker := by
  rw [CircuitRegistry.get?,shows.named,Option.map_some,shows.breaker]

end Ledger

namespace Scenario

variable {s : Ledger} {source target : Record}

/-- Whatever time passes before each call: one entry is reported for each element of the pattern, and each starts in the
state of the circuit in which the one before has ended. What succeeds was neither refused nor made to fail; the records
follow from what succeeds, and the counter of the circuit from what is refused. No fault and no lock is left over. -/
theorem flakyTransfers_account (config : LedgerConfig) (name : String) (t : Transfer) (pattern : List Bool) (own : σ)
    (apart : t.source ≠ t.target) (positive : 0 < t.amount.toInt)
    (source_here : s.store.records[t.source]? = some source)
    (target_here : s.store.records[t.target]? = some target) (keyed : s.store.view.Keyed)
    (sound : s.circuits.Sound) (free : ∀ x : RecordId, s.store.locks.table.owners[x]? = none)
    (source_room : source.version + min pattern.length (source.balance.toInt.toNat + 1) < Version.limit)
    (target_room : target.version + min pattern.length (source.balance.toInt.toNat + 1) < Version.limit)
    (pace : Nat → Duration) :
    let ended := Timed.run ⟨s, pace⟩ ((flakyTransfers config name t pattern).start own)
    let left := ended.2.ledger
    ∃ report, ended.1.1 = .ok report ∧
      report.calls.map BreakerCall.index = List.range pattern.length ∧
      report.calls.map BreakerCall.injectedFailure = pattern ∧
      report.calls.IsChain (fun call next => next.stateBefore = call.stateAfter) ∧
      (∀ call ∈ report.calls, call.succeeded = true → call.rejected = false ∧ call.injectedFailure = false) ∧
      (let n := report.calls.countP BreakerCall.succeeded
        ∃ source' target', left.store.records[t.source]? = some source' ∧
          source'.balance.toInt = source.balance.toInt - n * t.amount.toInt ∧ source'.version = source.version + n ∧
          left.store.records[t.target]? = some target' ∧
          target'.balance.toInt = target.balance.toInt + n * t.amount.toInt ∧ target'.version = target.version + n) ∧
      (∀ x : RecordId, x ∉ t.ids → left.store.records[x]? = s.store.records[x]?) ∧
      report.metrics.notPermitted = ((s.circuits.get? name).elim 0 Breaker.notPermitted) +
        report.calls.countP BreakerCall.rejected ∧
      (left.circuits.get? name).map Breaker.metrics = some report.metrics ∧
      left.store.faults.Silent ∧ ∀ x : RecordId, left.store.locks.table.owners[x]? = none := by
  intro ended left
  have valid : t.validate = .ok () := by
    refine Transfer.valid_iff.mpr ⟨apart,?_⟩
    simpa [Int64.le_iff_toInt_le] using positive
  have here : s.store.view t.source = some source := source_here
  have there : s.store.view t.target = some target := target_here
  have ready : t.Ready (0 + pattern.length) s.store.view := by
    rw [Nat.zero_add]
    exact .of_room keyed here there source_room target_room
  obtain ⟨h,found⟩ := s.shows_circuit sound free name config.circuit
  obtain ⟨report,c',answered,along,metrics,shown,_,silent⟩ :=
    run_of_paced (s := ⟨s, pace⟩) (paced_flakyTransfers config pattern own valid found ready)
  have moved := along.moved
  obtain ⟨source',source_left,paid,raised⟩ := moved.source source here
  obtain ⟨target',target_left,received,raised'⟩ := moved.target target there
  have stored (x : RecordId) : left.store.records[x]? = c'.records x := congrFun shown.records x
  refine ⟨report,answered,?_,along.failures,along.chained.1,along.told,⟨source',target',?_,paid,raised,?_,received,raised'⟩,
    fun x other => (stored x).trans (moved.others x other),?_,?_,silent,shown.unlocked⟩
  · rw [along.indices,List.range_eq_range']
  · exact (stored _).trans source_left
  · exact (stored _).trans target_left
  · rw [metrics]
    refine along.refusals.trans (congrArg (· + _) ?_)
    cases s.circuits.get? name <;> rfl
  · rw [shown.get?,metrics]
    rfl

def probing : Ledger where
  store := Store.seeded [(1, 100),(2, 50)]
  circuits := (CircuitRegistry.insertIfAbsent {} "transfer" {}).2.set 0
    { Breaker.create "transfer" {} with state := .halfOpen, probesAdmitted := 1, notPermitted := 4 }

/-- No time is lost before the fiftieth call, and ten seconds before each call after it. -/
def hesitant (n : Nat) : Duration := if n < 50 then 0 else 10000000000

def hesitantTransfers : (Outcome BreakerReport × Unit) × Timed :=
  Timed.run ⟨probing, hesitant⟩ ((flakyTransfers {} "transfer" ⟨1, 2, 30⟩ [false,true,false,false]).start ())

/-- A probe that succeeds, one that is made to fail, a call that is refused for it, and one that comes after the wait. -/
theorem flakyTransfers_account_probing : ∃ (report : BreakerReport) (source' : Record),
    hesitantTransfers.1.1 = .ok report ∧
    report.calls.map (fun call => (call.succeeded, call.rejected)) =
      [(true, false),(false, false),(false, true),(true, false)] ∧
    report.metrics.notPermitted = 5 ∧
    hesitantTransfers.2.ledger.store.records[(1 : RecordId)]? = some source' ∧ source'.balance.toInt = 40 := by
  have sound : probing.circuits.Sound := by
    have created := (CircuitRegistry.sound_empty {} true).insertIfAbsent "transfer" {}
    exact created.set rfl
  have source_here : probing.store.records[1]? = some (.fresh 1 100) := by decide +kernel
  have target_here : probing.store.records[2]? = some (.fresh 2 50) := by decide +kernel
  obtain ⟨report,answered,_,_,_,_,⟨source',_,stored,paid,_⟩,_,refused,_⟩ :=
    flakyTransfers_account {} "transfer" ⟨1, 2, 30⟩ [false,true,false,false] () (by decide) (by decide) source_here
      target_here (Store.keyed_seeded [(1, 100),(2, 50)]) sound (fun x => Std.TreeMap.getElem?_emptyc) (by decide)
      (by decide) hesitant
  have calls : hesitantTransfers.1.1.toOption.map (fun r => r.calls.map fun call => (call.succeeded, call.rejected)) =
      some [(true, false),(false, false),(false, true),(true, false)] := by decide +kernel
  unfold hesitantTransfers at calls ⊢
  rw [answered] at calls
  have ends : report.calls.map (fun call => (call.succeeded, call.rejected)) = _ := Option.some.inj calls
  have counted (p : Bool × Bool → Bool) : report.calls.countP (fun call => p (call.succeeded, call.rejected)) =
      [(true, false),(false, false),(false, true),(true, false)].countP p := by
    rw [← ends,List.countP_map]
    rfl
  refine ⟨report,source',answered,ends,?_,stored,?_⟩
  · exact refused.trans (congrArg (4 + ·) (counted Prod.snd))
  · rw [show report.calls.countP BreakerCall.succeeded = 2 from counted Prod.fst] at paid
    exact paid

end Scenario

end VersionedLedger
