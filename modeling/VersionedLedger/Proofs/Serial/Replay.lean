import VersionedLedger.Proofs.Pool.Turn
import VersionedLedger.Proofs.Serial.Alone
import VersionedLedger.Proofs.Serial.Promise

/-! Operations that run side by side are serializable. The order is that of the calls by which they change
records: one operation after the other in this order, each with the ledger to itself, leaves the same records
and returns the same values, and operations that fail have no part in it. -/
namespace VersionedLedger

open View

variable {α : Type}

namespace Ledger

def replay (s : Ledger) (ops : List Operation) : List (Outcome Written) × Ledger :=
  ops.foldl (fun (answers, s) o => (answers ++ [(s.run o.program).1], (s.run o.program).2)) ([], s)

def withoutFaults (s : Ledger) : Ledger := { s with store := { s.store with faults := {} } }

def lands (s : Ledger) : Call → Bool
  | .install id expected balance => (s.store.install id expected balance).1.isOk
  | .apply writes => (s.store.apply writes).1.isOk
  | _ => false

theorem replay_concat (s : Ledger) (ops : List Operation) (o : Operation) :
    s.replay (ops ++ [o]) = ((s.replay ops).1 ++ [((s.replay ops).2.run o.program).1],
      ((s.replay ops).2.run o.program).2) := by
  unfold replay
  rw [List.foldl_append]
  rfl

end Ledger

def Worker.lands (s : Ledger) : Worker α → Bool
  | ready (.call c _) => s.lands c
  | _ => false

namespace Pool

def writer? (p : Pool α) : Move → Option Nat
  | .step i => (p.workers[i]?).bind fun w => if w.lands p.ledger then some i else none
  | _ => none

/-- The workers that change records in a run, in the order in which they do. -/
def writers (p : Pool α) : List Move → List Nat
  | [] => []
  | m :: moves => (p.writer? m).toList ++ (p.move m).writers moves

end Pool

/-- Operations that changed the records one after the other, with the values that they returned. -/
inductive Follows (ops : List Operation) (V : View) : List (Nat × Written) → View → Prop
  | start : Follows ops V [] V
  | next {committed : List (Nat × Written)} {V' V'' : View} {i : Nat} {o : Operation} {v : Written}
      (before : Follows ops V committed V') (named : ops[i]? = some o) (achieves : o.Achieves V' v V'') :
    Follows ops V (committed ++ [(i, v)]) V''

namespace Follows

variable {ops : List Operation} {V V' : View} {committed : List (Nat × Written)}

theorem named (follows : Follows ops V committed V') {i : Nat} {v : Written} (member : (i, v) ∈ committed) :
    ∃ o, ops[i]? = some o := by
  induction follows with
  | start => cases member
  | @next _ _ _ j o _ _ here _ ih =>
    rcases List.mem_append.mp member with before | last
    · exact ih before
    · cases List.mem_singleton.mp last
      exact ⟨o,here⟩

theorem replay_eq (follows : Follows ops V committed V') (keyed : V.Keyed) {s : Ledger}
    (idle : s.store.Idle V) : V'.Keyed ∧ ∃ final : Ledger, final.store.Idle V' ∧
      s.replay (committed.filterMap fun c => ops[c.1]?) = (committed.map fun c => .ok c.2, final) := by
  induction follows with
  | start => exact ⟨keyed,s,idle,rfl⟩
  | @next committed V' V'' i o v _ named achieves ih =>
    obtain ⟨keyed',final,idle',replayed⟩ := ih
    obtain ⟨returned,left⟩ := Operation.run_of_achieves achieves keyed' idle'
    have last : [(i, v)].filterMap (fun c => ops[c.1]?) = [o] := by simp [named]
    refine ⟨achieves.keyed keyed',_,left,?_⟩
    rw [List.filterMap_append,List.map_append,last,Ledger.replay_concat,replayed,returned]
    rfl

end Follows

def Worker.Serves (o : Operation) : Worker (Outcome Written) → Seen → Prop
  | ready p, g => p.Obeys (Rule.serial o.Achieves) Seen.Ends g
  | asleep _ _ next, g => ∀ r, (next r).Obeys (Rule.serial o.Achieves) Seen.Ends g
  | blocked _ next, g => ∀ r, (next r).Obeys (Rule.serial o.Achieves) Seen.Ends g
  | finished answer, g => Seen.Ends answer g

@[simp] theorem Worker.serves_wake {o : Operation} (w : Worker (Outcome Written)) (g : Seen) :
    w.wake.Serves o g ↔ w.Serves o g := by
  cases w <;> rfl

namespace Pool

variable {ops : List Operation} {V : View} {p : Pool (Outcome Written)} {committed : List (Nat × Written)}

abbrev view (p : Pool α) : View := p.ledger.store.view

/-- The records are those that the committed operations lead to, and every worker keeps to its operation. -/
structure Serial (ops : List Operation) (V : View) (p : Pool (Outcome Written))
    (committed : List (Nat × Written)) : Prop where
  follows : Follows ops V committed p.view
  keyed : p.view.Keyed
  once : (committed.map Prod.fst).Nodup
  workers : ∀ i w, p.workers[i]? = some w → ∃ o g, ops[i]? = some o ∧ w.Serves o g ∧
    Later g.view p.view ∧ ∀ v, g.written = some v ↔ (i, v) ∈ committed

private theorem Serial.update (serial : Serial ops V p committed) {i : Nat}
    {w after : Worker (Outcome Written)} {s : Ledger} {o : Operation} {g : Seen} {more : List (Nat × Written)}
    (present : p.workers[i]? = some w) (named : ops[i]? = some o) (serves : after.Serves o g)
    (onward : Later p.view s.store.view) (seen : Later g.view s.store.view)
    (follows : Follows ops V more s.store.view) (keyed : s.store.view.Keyed)
    (once : (more.map Prod.fst).Nodup) (own : ∀ v, g.written = some v ↔ (i, v) ∈ more)
    (others : ∀ j v, j ≠ i → ((j, v) ∈ more ↔ (j, v) ∈ committed)) :
    Serial ops V (p.update i (after, s)) more := by
  refine ⟨follows,keyed,once,fun j w' now => ?_⟩
  by_cases same : j = i
  · subst same
    rw [worker_update_self present] at now
    cases now
    exact ⟨o,g,named,serves,seen,own⟩
  · rw [worker_update_other same] at now
    obtain ⟨before,here,rfl⟩ := Option.map_eq_some_iff.mp now
    obtain ⟨o',g',named',serves',seen',own'⟩ := serial.workers j before here
    refine ⟨o',g',named',?_,seen'.trans onward,fun v => (own' v).trans (others j v same).symm⟩
    split
    · exact (Worker.serves_wake before g').mpr serves'
    · exact serves'

private theorem Serial.update_still (serial : Serial ops V p committed) {i : Nat}
    {w after : Worker (Outcome Written)} {s : Ledger} {o : Operation} {g : Seen}
    (present : p.workers[i]? = some w) (named : ops[i]? = some o) (serves : after.Serves o g)
    (same : s.store.view = p.view) (seen : Later g.view p.view)
    (own : ∀ v, g.written = some v ↔ (i, v) ∈ committed) :
    Serial ops V (p.update i (after, s)) committed := by
  refine serial.update present named serves ?_ ?_ ?_ ?_ serial.once own fun j v _ => Iff.rfl
  · rw [same]
    exact .refl _
  · rwa [same]
  · rw [same]
    exact serial.follows
  · rw [same]
    exact serial.keyed

private theorem Serial.update_written (serial : Serial ops V p committed) {i : Nat}
    {w after : Worker (Outcome Written)} {s : Ledger} {o : Operation} {v : Written}
    (present : p.workers[i]? = some w) (named : ops[i]? = some o)
    (unwritten : ∀ v, (i, v) ∉ committed) (achieves : o.Achieves p.view v s.store.view)
    (serves : after.Serves o ⟨s.store.view, some v⟩) :
    Serial ops V (p.update i (after, s)) (committed ++ [(i, v)]) := by
  refine serial.update present named serves achieves.later (.refl _) (.next serial.follows named achieves)
    (achieves.keyed serial.keyed) ?_ ?_ ?_
  · rw [List.map_append,List.nodup_append]
    refine ⟨serial.once,List.nodup_singleton i,?_⟩
    rintro x member _ last rfl
    obtain ⟨⟨j,v'⟩,before,rfl⟩ := List.mem_map.mp member
    cases List.mem_singleton.mp last
    exact unwritten v' before
  · intro v'
    rw [List.mem_append,List.mem_singleton,or_iff_right (unwritten v')]
    constructor
    · intro same
      cases same
      rfl
    · intro same
      cases same
      rfl
  · intro j v' other
    rw [List.mem_append,List.mem_singleton,or_iff_left]
    intro same
    cases same
    exact other rfl

theorem exists_call_of_writer {m : Move} {i : Nat} (writes : p.writer? m = some i) :
    ∃ c next, p.workers[i]? = some (.ready (.call c next)) ∧ p.ledger.lands c = true ∧
      p.move m = p.update i (.ready (next (p.ledger.answer c).1), (p.ledger.answer c).2) := by
  cases m with
  | elapse | expire => cases writes
  | step j =>
    obtain ⟨w,present,lands⟩ := Option.bind_eq_some_iff.mp writes
    split at lands
    · next landing =>
      cases lands
      cases w with
      | ready program =>
        cases program with
        | done a => cases landing
        | call c next =>
          refine ⟨c,next,present,landing,?_⟩
          change p.step i = _
          unfold step
          rw [present]
          cases c with
          | install | apply => rfl
          | _ => cases landing
      | _ => cases landing
    · cases lands

private theorem view_of_records {s : Ledger} (same : s.store.records = p.ledger.store.records) :
    s.store.view = p.view := by
  unfold view Store.view
  rw [same]

private theorem Serial.answer (serial : Serial ops V p committed) {i : Nat} {c : Call}
    {next : c.Reply → Program (Outcome Written)} (present : p.workers[i]? = some (.ready (.call c next)))
    (prompt : c.waits = false) :
    ∃ more, more.map Prod.fst = (if p.ledger.lands c then [i] else []) ∧
      Serial ops V (p.update i (.ready (next (p.ledger.answer c).1), (p.ledger.answer c).2))
        (committed ++ more) := by
  obtain ⟨o,⟨V',written⟩,named,serves,seen,own⟩ := serial.workers i _ present
  have still {s : Ledger} {after : Worker (Outcome Written)} {V'' : View}
      (serves : after.Serves o ⟨V'', written⟩) (same : s.store.view = p.view) (seen : Later V'' p.view)
      (lands : p.ledger.lands c = false) :
      ∃ more, more.map Prod.fst = (if p.ledger.lands c then [i] else []) ∧
        Serial ops V (p.update i (after, s)) (committed ++ more) := by
    have kept := serial.update_still present named serves same seen own
    rw [lands,if_neg Bool.false_ne_true]
    exact ⟨[],rfl,by rwa [List.append_nil]⟩
  cases written with
  | some v =>
    obtain ⟨silent,replies⟩ := serves
    have same := view_of_records (p.ledger.records_answer prompt silent)
    refine still (replies _) same seen ?_
    cases c with
    | install | apply => cases silent
    | _ => rfl
  | none =>
    have changes {v : Written} {s : Ledger} {after : Worker (Outcome Written)}
        (achieves : o.Achieves p.view v s.store.view) (serves : after.Serves o ⟨s.store.view, some v⟩)
        (lands : p.ledger.lands c = true) :
        ∃ more, more.map Prod.fst = (if p.ledger.lands c then [i] else []) ∧
          Serial ops V (p.update i (after, s)) (committed ++ more) := by
      have unwritten (v : Written) : (i, v) ∉ committed := by
        rw [← own v]
        exact (Option.some_ne_none v).symm
      rw [lands,if_pos rfl]
      exact ⟨[(i, v)],rfl,serial.update_written present named unwritten achieves serves⟩
    cases c with
    | lookup id => exact still (serves p.view seen serial.keyed) rfl (.refl _) rfl
    | install id expected balance =>
      obtain ⟨goes,fails⟩ := serves p.view seen serial.keyed
      have lands : p.ledger.lands (.install id expected balance) =
          (p.ledger.store.install id expected balance).1.isOk := rfl
      dsimp only [Ledger.answer,Ledger.onStore]
      cases going : (p.ledger.store.install id expected balance).1 with
      | ok after =>
        rw [going] at lands
        obtain ⟨v,achieves,promised⟩ := goes after _ (Store.view_install_ok going)
        exact changes achieves promised lands
      | error e =>
        rw [going] at lands
        have same := Store.view_install_error going
        exact still (fails e) same (.refl _) lands
    | apply writes =>
      obtain ⟨goes,fails⟩ := serves p.view seen serial.keyed
      have lands : p.ledger.lands (.apply writes) = (p.ledger.store.apply writes).1.isOk := rfl
      dsimp only [Ledger.answer,Ledger.onStore]
      cases going : (p.ledger.store.apply writes).1 with
      | ok _ =>
        rw [going] at lands
        obtain ⟨current,laid⟩ := Store.view_apply_ok going
        obtain ⟨v,achieves,promised⟩ := goes current
        rw [← laid] at achieves promised
        exact changes achieves promised lands
      | error e =>
        rw [going] at lands
        have same := Store.view_apply_error going
        exact still (fails e) same (.refl _) lands
    | acquire | sleep => cases prompt
    | _ =>
      have same := view_of_records (p.ledger.records_answer prompt rfl)
      exact still (serves _) same seen rfl

private theorem Serves.call {o : Operation} {g : Seen} {c : Call} {next : c.Reply → Program (Outcome Written)}
    (serves : (Worker.ready (.call c next)).Serves o g) (silent : c.writes = false)
    (blind : ∀ id, c ≠ .lookup id) (r : c.Reply) :
    (next r).Obeys (Rule.serial o.Achieves) Seen.Ends g := by
  obtain ⟨V',_ | v⟩ := g
  · cases c with
    | install | apply => cases silent
    | lookup id => exact absurd rfl (blind id)
    | _ => exact serves r
  · exact serves.2 r

private theorem Serial.turn (serial : Serial ops V p committed) {i : Nat} {w after : Worker (Outcome Written)}
    {s : Ledger} (present : p.workers[i]? = some w) (turn : Worker.Turn p.ledger w after s)
    (lands : w.lands p.ledger = false) : Serial ops V (p.update i (after, s)) committed := by
  obtain ⟨o,g,named,serves,seen,own⟩ := serial.workers i w present
  have still {after : Worker (Outcome Written)} {s : Ledger} (serves : after.Serves o g)
      (same : s.store.view = p.view) : Serial ops V (p.update i (after, s)) committed :=
    serial.update_still present named serves same seen own
  cases turn with
  | finish a => exact still serves rfl
  | doze d watched next => exact still (Serves.call serves rfl fun _ same => by cases same) rfl
  | rise wake watched next due => exact still (serves true) rfl
  | cut wake next cancelled => exact still (serves false) rfl
  | answer c next prompt =>
    obtain ⟨more,named,grown⟩ := serial.answer present prompt
    change p.ledger.lands c = false at lands
    rw [lands,if_neg Bool.false_ne_true,List.map_eq_nil_iff] at named
    rwa [named,List.append_nil] at grown
  | missing owner id timeout next absent =>
    exact still (Serves.call serves rfl (fun _ same => by cases same) _) rfl
  | @round _ lw first next r locks asks decides =>
    have replies (r : Outcome Unit) : (next r).Obeys (Rule.serial o.Achieves) Seen.Ends g := by
      cases asks with
      | first => exact Serves.call serves rfl (fun _ same => by cases same) r
      | again => exact serves r
    refine still ?_ rfl
    cases r with
    | granted | held => exact replies (.ok ())
    | deadlock => exact replies _
    | waiting => exact replies
  | giveUp lw next waited taken => exact still (serves _) rfl

theorem Serial.move (serial : Serial ops V p committed) (m : Move) :
    ∃ more, more.map Prod.fst = (p.writer? m).toList ∧ Serial ops V (p.move m) (committed ++ more) := by
  cases writes : p.writer? m with
  | some i =>
    obtain ⟨c,next,present,lands,moved⟩ := exists_call_of_writer writes
    have prompt : c.waits = false := by
      cases c with
      | install | apply => rfl
      | _ => cases lands
    have answered := serial.answer present prompt
    rwa [lands,if_pos rfl,← moved] at answered
  | none =>
    refine ⟨[],rfl,?_⟩
    rw [List.append_nil]
    rcases p.move_cases m with ⟨d,passes⟩ | same | ⟨i,w,after,s,present,turn,moved,made⟩
    · rw [passes]
      exact ⟨serial.follows,serial.keyed,serial.once,serial.workers⟩
    · rwa [same]
    · rw [moved]
      refine serial.turn present turn ?_
      rcases made with rfl | ⟨rfl,lw,next,rfl⟩
      · rw [writer?,present] at writes
        cases lands : w.lands p.ledger with
        | false => rfl
        | true =>
          rw [Option.bind_some,lands] at writes
          cases writes
      · rfl

theorem Serial.play (serial : Serial ops V p committed) (moves : List Move) :
    ∃ more, more.map Prod.fst = p.writers moves ∧ Serial ops V (p.play moves) (committed ++ more) := by
  induction moves generalizing p committed with
  | nil => exact ⟨[],rfl,by rwa [List.append_nil]⟩
  | cons m moves ih =>
    obtain ⟨first,named,serial⟩ := serial.move m
    obtain ⟨rest,onward,serial⟩ := ih serial
    refine ⟨first ++ rest,?_,?_⟩
    · rw [List.map_append,named,onward]
      rfl
    · rw [← List.append_assoc]
      exact serial

theorem serial_start {s : Ledger} (keyed : s.store.view.Keyed) (ops : List Operation) :
    Serial ops s.store.view (start s (ops.map Operation.program)) [] := by
  refine ⟨.start,keyed,List.nodup_nil,fun i w present => ?_⟩
  unfold start at present
  rw [List.map_map,List.getElem?_map] at present
  obtain ⟨o,named,rfl⟩ := Option.map_eq_some_iff.mp present
  refine ⟨o,⟨s.store.view,none⟩,named,o.serial_program _,.refl _,fun v => ?_⟩
  simp

theorem Serial.returned (serial : Serial ops V p committed) {i : Nat} {answer : Outcome Written}
    (finished : p.result? i = some answer) (v : Written) : answer = .ok v ↔ (i, v) ∈ committed := by
  obtain ⟨w,present,ended⟩ := Option.bind_eq_some_iff.mp finished
  cases w with
  | finished a =>
    cases ended
    obtain ⟨o,g,_,ends,_,own⟩ := serial.workers i _ present
    rw [← own v]
    cases answer with
    | ok v' =>
      change g.written = some v' at ends
      rw [ends,Option.some.injEq,Except.ok.injEq]
    | error e =>
      change g.written = none at ends
      rw [ends]
      simp
  | _ => cases ended

end Pool

theorem Ledger.idle_withoutFaults {s : Ledger} (fresh : s.store.locks.table = {}) :
    s.withoutFaults.store.Idle s.store.view := by
  intro owner
  refine ⟨rfl,fun x => ?_,⟨rfl,rfl,rfl⟩⟩
  change s.store.locks.table.owners[x]? = _
  simp [fresh]

namespace Pool

variable {p : Pool (Outcome Written)}

/-- Updates and transfers that run side by side, whatever faults and waits they meet, leave the records that
those of them that succeed leave one after the other in the order in which they changed records, and return
the same values. Those that fail have no part in it. -/
theorem serializable {s : Ledger} {balances : List (RecordId × Amount)}
    (seeded : s.store.records = (Store.seeded balances).records) (fresh : s.store.locks.table = {})
    (ops : List Operation) (moves : List Move)
    (reached : (start s (ops.map Operation.program)).play moves = p) :
    ∃ (committed : List (Nat × Written)) (final : Ledger),
      committed.map Prod.fst = (start s (ops.map Operation.program)).writers moves ∧
      (committed.map Prod.fst).Nodup ∧
      s.withoutFaults.replay (committed.filterMap fun c => ops[c.1]?) =
        (committed.map fun c => .ok c.2, final) ∧
      (∀ id : RecordId, final.store.records[id]? = p.ledger.store.records[id]?) ∧
      (∀ i answer, p.result? i = some answer → ∀ v, answer = .ok v ↔ (i, v) ∈ committed) ∧
      ((∀ i < ops.length, (p.result? i).isSome = true) →
        ∀ i v, (i, v) ∈ committed ↔ p.result? i = some (.ok v)) := by
  subst reached
  have keyed : s.store.view.Keyed := by
    unfold Store.view
    rw [seeded]
    exact Store.keyed_seeded balances
  obtain ⟨committed,order,serial⟩ := (serial_start keyed ops).play moves
  rw [List.nil_append] at serial
  obtain ⟨_,final,left,replayed⟩ := serial.follows.replay_eq keyed (Ledger.idle_withoutFaults fresh)
  refine ⟨committed,final,order,serial.once,replayed,fun id => ?_,fun i answer => serial.returned,?_⟩
  · exact congrFun (left 0).view id
  · intro ended i v
    constructor
    · intro member
      obtain ⟨o,named⟩ := serial.follows.named member
      obtain ⟨answer,finished⟩ := Option.isSome_iff_exists.mp
        (ended i (List.getElem?_eq_some_iff.mp named).1)
      rw [finished,(serial.returned finished v).mpr member]
    · intro finished
      exact (serial.returned finished v).mp rfl

/-- An update that reads its record before two transfers change it, and writes after them. -/
def overtaken : List Operation :=
  [.update 1 fun balance => .ok (balance + 5),
   .ordered { timeout := 1000 } ⟨1,2,30⟩,
   .coordinated { locking := { timeout := 1000 }, policy := {} } ⟨2,1,10⟩]

def overtakenMoves : List Move :=
  .step 0 :: List.replicate 20 (.step 2) ++ List.replicate 20 (.step 1) ++ List.replicate 9 (.step 0)

theorem serializable_overtaken : ∃ (committed : List (Nat × Written)) (final : Ledger),
    committed.map Prod.fst = [2,1] ∧
    Ledger.replay { store := .seeded [(1, 100),(2, 50)] } (committed.filterMap fun c => overtaken[c.1]?) =
      (committed.map fun c => .ok c.2, final) ∧
    final.store.records[(1 : RecordId)]? = some ⟨1, 80, 2⟩ ∧
    (2, .transfer ⟨⟨2,1,10⟩, 40, 110, 1, 1⟩) ∈ committed ∧ ∀ v, (0, v) ∉ committed := by
  have changed : (start { store := .seeded [(1, 100),(2, 50)] } (overtaken.map Operation.program)).writers
      overtakenMoves = [2,1] := by decide +kernel
  have failed : ((start { store := .seeded [(1, 100),(2, 50)] } (overtaken.map Operation.program)).play
      overtakenMoves).result? 0 = some (.error (.error (.versionConflict 1 0 2))) := by decide +kernel
  have moved : ((start { store := .seeded [(1, 100),(2, 50)] } (overtaken.map Operation.program)).play
      overtakenMoves).result? 2 = some (.ok (.transfer ⟨⟨2,1,10⟩, 40, 110, 1, 1⟩)) := by decide +kernel
  obtain ⟨committed,final,order,_,replayed,records,returned,_⟩ := serializable
    (s := { store := .seeded [(1, 100),(2, 50)] }) rfl rfl overtaken overtakenMoves rfl
  refine ⟨committed,final,order.trans changed,replayed,(records 1).trans ?_,?_,?_⟩
  · decide +kernel
  · exact (returned 2 _ moved _).mp rfl
  · intro v member
    cases (returned 0 _ failed v).mpr member

end Pool

end VersionedLedger
