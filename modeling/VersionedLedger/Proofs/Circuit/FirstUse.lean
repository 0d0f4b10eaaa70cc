import Mathlib.Logic.Function.Basic
import VersionedLedger.Proofs.Circuit.Registry

/-! Callers who use the breakers of one registry at once. A use of a name looks it up and, if there is nothing yet,
inserts a breaker in a second step; whatever happens in between, the answers are those of a table that serves one
request after another, each when it is decided. -/
namespace VersionedLedger.CircuitRegistry

open Text

inductive Request
  | breakerWith (name : String) (config : CircuitConfig)
  | get (name : String)
  | remove (name : String)
  | operate (h : CircuitHandle) (o : Breaker.Operation)

/-- The breaker that is given, if any, and whether it has been created for this request. -/
abbrev Answer := Option (CircuitHandle × Bool)

structure Served where
  caller : Nat
  request : Request
  answer : Answer

namespace Request

def seeks (name : String) : Request → Bool
  | breakerWith n _ | get n => n = name
  | remove _ | operate .. => false

def uses (name : String) : Request → Bool
  | breakerWith n _ => n = name
  | get _ | remove _ | operate .. => false

theorem eq_of_uses {name : String} {q : Request} (uses : q.uses name = true) : ∃ config, q = .breakerWith name config := by
  cases q with
  | breakerWith n config => exact ⟨config,by rw [of_decide_eq_true uses]⟩
  | _ => cases uses

theorem seeks_of_uses {name : String} {q : Request} (uses : q.uses name = true) : q.seeks name = true := by
  obtain ⟨config,rfl⟩ := eq_of_uses uses
  exact uses

end Request

def Served.creates (name : String) (e : Served) : Bool := e.request.uses name && e.answer.any Prod.snd

def serve (r : CircuitRegistry) : Request → Answer × CircuitRegistry
  | .breakerWith name config => (some (r.breakerWith name config).1, (r.breakerWith name config).2)
  | .get name => ((r.find? name).map (·, false), r)
  | .remove name => ((r.find? name).map (·, false), (r.remove name).2)
  | .operate h o => (none, r.set h ((r.breaker h).operate o))

def after (r : CircuitRegistry) (log : List Served) : CircuitRegistry := log.foldl (fun r e => (r.serve e.request).2) r

/-- The requests have been served in this order, one at a time. -/
def Serial (r : CircuitRegistry) : List Served → Prop
  | [] => True
  | e :: rest => e.answer = (r.serve e.request).1 ∧ (r.serve e.request).2.Serial rest

variable {r : CircuitRegistry} {name other : String} {h : CircuitHandle} {q : Request} {log : List Served}
  {label : String × CircuitConfig}

theorem Sound.serve (sound : r.Sound) (q : Request) : (r.serve q).2.Sound := by
  cases q with
  | breakerWith name config =>
    rw [CircuitRegistry.serve,breakerWith_eq]
    exact sound.insertIfAbsent name config
  | get => exact sound
  | remove name => exact sound.remove name
  | operate h o => exact sound.set (Breaker.label_operate o)

theorem label_serve (q : Request) (labelled : (r.breakers[h]?).map Breaker.label = some label) :
    ((r.serve q).2.breakers[h]?).map Breaker.label = some label := by
  obtain ⟨b,found,rfl⟩ := Option.map_eq_some_iff.mp labelled
  have inside := (List.getElem?_eq_some_iff.mp found).1
  cases q with
  | breakerWith name config =>
    rw [serve,breakerWith_eq]
    cases here : r.find? name with
    | some k =>
      rw [insertIfAbsent_of_present here]
      exact labelled
    | none =>
      rw [insertIfAbsent_of_absent here]
      exact (congrArg _ (List.getElem?_append_left inside)).trans labelled
  | get | remove => exact labelled
  | operate k o =>
    unfold serve set
    dsimp only
    by_cases same : k = h
    · subst same
      rw [List.getElem?_set_self inside,breaker,found]
      exact congrArg some (Breaker.label_operate o)
    · rw [List.getElem?_set_ne same]
      exact labelled

theorem find?_serve_of_present (here : r.find? name = some h) (kept : q ≠ .remove name) :
    (r.serve q).2.find? name = some h := by
  cases q with
  | breakerWith n config =>
    rw [serve,breakerWith_eq,find?_insertIfAbsent]
    split
    · next same =>
      subst same
      rw [insertIfAbsent_of_present here]
    · exact here
  | get | operate => exact here
  | remove n =>
    have apart : name ≠ n := fun same => kept (same ▸ rfl)
    rw [serve,find?_remove,if_neg apart]
    exact here

theorem find?_serve_of_absent (absent : r.find? name = none) (unused : q.uses name = false) :
    (r.serve q).2.find? name = none := by
  cases q with
  | breakerWith n config =>
    have apart : name ≠ n := fun same => of_decide_eq_false unused same.symm
    rw [serve,breakerWith_eq,find?_insertIfAbsent,if_neg apart]
    exact absent
  | get | operate => exact absent
  | remove n =>
    rw [serve,find?_remove]
    split
    · rfl
    · exact absent

theorem answer_of_present (here : r.find? name = some h) (seeks : q.seeks name = true) :
    (r.serve q).1 = some (h, false) := by
  cases q with
  | breakerWith n config =>
    obtain rfl : n = name := of_decide_eq_true seeks
    rw [serve,breakerWith_eq,insertIfAbsent_of_present here]
  | get n =>
    obtain rfl : n = name := of_decide_eq_true seeks
    rw [serve,here]
    rfl
  | remove | operate => cases seeks

theorem answer_of_absent (absent : r.find? name = none) (seeks : q.seeks name = true) (unused : q.uses name = false) :
    (r.serve q).1 = none := by
  cases q with
  | breakerWith n => cases seeks.symm.trans unused
  | get n =>
    obtain rfl : n = name := of_decide_eq_true seeks
    rw [serve,absent]
    rfl
  | remove | operate => cases seeks

theorem label_of_given (sound : r.Sound) (seeks : q.seeks name = true) {created : Bool}
    (given : (r.serve q).1 = some (h, created)) :
    ∃ config, ((r.serve q).2.breakers[h]?).map Breaker.label = some (name, config) := by
  have found : (r.serve q).2.find? name = some h := by
    cases q with
    | breakerWith n config =>
      obtain rfl : n = name := of_decide_eq_true seeks
      have same := congrArg Prod.fst (Option.some.inj given)
      rw [breakerWith_eq] at same
      rw [serve,breakerWith_eq,find?_insertIfAbsent,if_pos rfl,same]
    | get n =>
      obtain rfl : n = name := of_decide_eq_true seeks
      obtain ⟨k,found,same⟩ := Option.map_eq_some_iff.mp given
      cases same
      exact found
    | remove | operate => cases seeks
  obtain ⟨b,present,named⟩ := sound.serve q name h found
  exact ⟨b.config,by rw [present,← named]; rfl⟩

section Serial

theorem Serial.append_iff {before rest : List Served} :
    r.Serial (before ++ rest) ↔ r.Serial before ∧ (r.after before).Serial rest := by
  induction before generalizing r with
  | nil => simp [Serial,after]
  | cons e before ih => exact (and_congr_right fun _ => ih).trans (and_assoc).symm

theorem after_append (before rest : List Served) : r.after (before ++ rest) = (r.after before).after rest :=
  List.foldl_append

theorem Sound.after (sound : r.Sound) (log : List Served) : (r.after log).Sound := by
  induction log generalizing r with
  | nil => exact sound
  | cons e log ih => exact ih (sound.serve e.request)

theorem label_after (labelled : (r.breakers[h]?).map Breaker.label = some label) (log : List Served) :
    ((r.after log).breakers[h]?).map Breaker.label = some label := by
  induction log generalizing r with
  | nil => exact labelled
  | cons e log ih => exact ih (label_serve e.request labelled)

theorem Serial.of_present (serial : r.Serial log) (here : r.find? name = some h)
    (kept : ∀ e ∈ log, e.request ≠ .remove name) (e : Served) (member : e ∈ log) (seeks : e.request.seeks name = true) :
    e.answer = some (h, false) := by
  induction log generalizing r with
  | nil => cases member
  | cons first log ih =>
    obtain ⟨answered,serial⟩ := serial
    obtain ⟨keeps,kept⟩ := List.forall_mem_cons.mp kept
    rcases List.mem_cons.mp member with rfl | later
    · exact answered.trans (answer_of_present here seeks)
    · exact ih serial (find?_serve_of_present here keeps) kept later

theorem find?_after_removal {removal : Served} (request : removal.request = .remove name) (earlier : List Served) :
    (r.after (earlier ++ [removal])).find? name = none := by
  rw [after_append]
  change ((r.after earlier).serve removal.request).2.find? name = none
  rw [request,serve,find?_remove,if_pos rfl]

theorem Serial.find?_of_given (sound : r.Sound) (serial : r.Serial log) {e : Served} (member : e ∈ log)
    (seeks : e.request.seeks name = true) {created : Bool} (given : e.answer = some (h, created))
    (apart : other ≠ name) : (r.after log).find? other ≠ some h := by
  intro here
  obtain ⟨before,rest,rfl⟩ := List.append_of_mem member
  rw [Serial.append_iff] at serial
  obtain ⟨_,answered,_⟩ := serial
  obtain ⟨config,labelled⟩ := label_of_given (sound.after before) seeks (answered.symm.trans given)
  have still := label_after labelled rest
  obtain ⟨b,present,named⟩ := sound.after _ other h here
  rw [after_append] at present
  rw [show ((r.after before).serve e.request).2.after rest = (r.after before).after (e :: rest) from rfl,present] at still
  exact apart (named.symm.trans (congrArg Prod.fst (Option.some.inj still)))

def Unused (name : String) (log : List Served) : Prop :=
  ∀ e ∈ log, e.request.uses name = false ∧ (e.request.seeks name = true → e.answer = none)

/-- The first to use the name creates the breaker that everybody gets who asks for it later. -/
structure UsedFirst (name : String) (log : List Served) (h : CircuitHandle) (config : CircuitConfig)
    (quiet : List Served) (first : Served) (rest : List Served) : Prop where
  split : log = quiet ++ first :: rest
  unused : Unused name quiet
  request : first.request = .breakerWith name config
  answer : first.answer = some (h, true)
  later : ∀ e ∈ rest, e.request.seeks name = true → e.answer = some (h, false)

theorem Serial.first_use (serial : r.Serial log) (absent : r.find? name = none)
    (kept : ∀ e ∈ log, e.request ≠ .remove name) : Unused name log ∨ ∃ h config quiet first rest,
      UsedFirst name log h config quiet first rest ∧
        ((r.after log).breakers[h]?).map Breaker.label = some (name, config) := by
  induction log generalizing r with
  | nil => exact .inl (List.forall_mem_nil _)
  | cons e log ih =>
    obtain ⟨answered,serial⟩ := serial
    obtain ⟨keeps,kept⟩ := List.forall_mem_cons.mp kept
    cases uses : e.request.uses name with
    | false =>
      have quiet : e.request.uses name = false ∧ (e.request.seeks name = true → e.answer = none) :=
        ⟨uses,fun seeks => answered.trans (answer_of_absent absent seeks uses)⟩
      rcases ih serial (find?_serve_of_absent absent uses) kept with unused | ⟨h,config,before,first,rest,used,labelled⟩
      · exact .inl (List.forall_mem_cons.mpr ⟨quiet,unused⟩)
      · refine .inr ⟨h,config,e :: before,first,rest,⟨?_,?_,used.request,used.answer,used.later⟩,labelled⟩
        · rw [used.split]
          rfl
        · exact List.forall_mem_cons.mpr ⟨quiet,used.unused⟩
    | true =>
      obtain ⟨config,request⟩ := Request.eq_of_uses uses
      have created : r.serve e.request = (some (r.breakers.length, true), { r with
          names := r.names.insert name r.breakers.length
          breakers := r.breakers ++ [.create name config] }) := by
        rw [request,serve,breakerWith_eq,insertIfAbsent_of_absent absent]
      have here : (r.serve e.request).2.find? name = some r.breakers.length := by
        rw [request,serve,breakerWith_eq,find?_insertIfAbsent,if_pos rfl,insertIfAbsent_of_absent absent]
      have labelled : ((r.serve e.request).2.breakers[r.breakers.length]?).map Breaker.label = some (name, config) := by
        rw [created]
        simp [Breaker.label,Breaker.create]
      refine .inr ⟨r.breakers.length,config,[],e,log,⟨rfl,List.forall_mem_nil _,request,?_,?_⟩,label_after labelled log⟩
      · rw [answered,created]
      · exact serial.of_present here kept

namespace UsedFirst

variable {config : CircuitConfig} {quiet rest : List Served} {first e : Served}

theorem mem_cases (used : UsedFirst name log h config quiet first rest) (member : e ∈ log) :
    e ∈ quiet ∨ e = first ∨ e ∈ rest := by
  rw [used.split] at member
  simpa using member

theorem countP_creates (used : UsedFirst name log h config quiet first rest) :
    log.countP (Served.creates name) = 1 := by
  have none_before : quiet.countP (Served.creates name) = 0 := by
    refine List.countP_eq_zero.mpr fun e member => ?_
    simp [Served.creates,(used.unused e member).1]
  have none_after : rest.countP (Served.creates name) = 0 := by
    refine List.countP_eq_zero.mpr fun e member => ?_
    cases uses : e.request.uses name with
    | false => simp [Served.creates,uses]
    | true => simp [Served.creates,used.later e member (Request.seeks_of_uses uses)]
  have once : first.creates name = true := by simp [Served.creates,used.request,used.answer,Request.uses]
  rw [used.split,List.countP_append,List.countP_cons,none_before,none_after,once]
  rfl

theorem request_of_creates (used : UsedFirst name log h config quiet first rest) (member : e ∈ log)
    (creates : e.creates name = true) : e.request = .breakerWith name config := by
  obtain ⟨uses,created⟩ := Bool.and_eq_true_iff.mp creates
  rcases used.mem_cases member with before | rfl | later
  · cases uses.symm.trans (used.unused e before).1
  · exact used.request
  · rw [used.later e later (Request.seeks_of_uses uses)] at created
    cases created

theorem answer_of_uses (used : UsedFirst name log h config quiet first rest) (member : e ∈ log)
    (uses : e.request.uses name = true) : ∃ created, e.answer = some (h, created) := by
  rcases used.mem_cases member with before | rfl | later
  · cases uses.symm.trans (used.unused e before).1
  · exact ⟨true,used.answer⟩
  · exact ⟨false,used.later e later (Request.seeks_of_uses uses)⟩

theorem answer_of_get (used : UsedFirst name log h config quiet first rest) (member : e ∈ log)
    (get : e.request = .get name) : e.answer = none ∨ e.answer = some (h, false) := by
  have seeks : e.request.seeks name = true := by simp [get,Request.seeks]
  rcases used.mem_cases member with before | rfl | later
  · exact .inl ((used.unused e before).2 seeks)
  · cases get.symm.trans used.request
  · exact .inr (used.later e later seeks)

end UsedFirst

end Serial

structure Callers where
  registry : CircuitRegistry
  /-- A caller that has looked a name up in vain, and has yet to insert its breaker. -/
  inserting : Nat → Option (String × CircuitConfig) := fun _ => none
  log : List Served := []

inductive Move
  | begin (caller : Nat) (request : Request)
  | insert (caller : Nat)

def Move.caller : Move → Nat
  | begin caller _ | insert caller => caller

namespace Callers

def reply (c : Callers) (caller : Nat) (request : Request) (decided : Answer × CircuitRegistry) : Callers where
  registry := decided.2
  inserting := Function.update c.inserting caller none
  log := c.log ++ [⟨caller, request, decided.1⟩]

/-- The look-up of a name, or all of another request. -/
def begin (c : Callers) (caller : Nat) : Request → Callers
  | .breakerWith name config =>
    match c.registry.find? name with
    | some h => c.reply caller (.breakerWith name config) (some (h, false), c.registry)
    | none => { c with inserting := Function.update c.inserting caller (some (name, config)) }
  | request => c.reply caller request (c.registry.serve request)

/-- The second step of a use, which yields to whoever has inserted the name meanwhile. -/
def insert (c : Callers) (caller : Nat) (name : String) (config : CircuitConfig) : Callers :=
  let (answer, registry) := c.registry.insertIfAbsent name config
  c.reply caller (.breakerWith name config) (some answer, registry)

/-- One step of one caller; one that is about to insert a breaker begins nothing else. -/
def step (c : Callers) (m : Move) : Callers :=
  match m, c.inserting m.caller with
  | .begin caller request, none => c.begin caller request
  | .insert caller, some (name, config) => c.insert caller name config
  | _, _ => c

def play (c : Callers) (moves : List Move) : Callers := moves.foldl step c

variable {c : Callers}

/-- A step that decides a request serves it as it stands; any other leaves registry and answers alone. -/
inductive Steps (c : Callers) : Callers → Prop
  | silent {inserting : Nat → Option (String × CircuitConfig)} : Steps c { c with inserting }
  | decides (caller : Nat) (request : Request) : Steps c (c.reply caller request (c.registry.serve request))

theorem steps_begin (c : Callers) (caller : Nat) (request : Request) : c.Steps (c.begin caller request) := by
  cases request with
  | breakerWith name config =>
    unfold begin
    dsimp only
    split
    · next h here =>
      have served : (some (h, false), c.registry) = c.registry.serve (.breakerWith name config) := by
        rw [serve,breakerWith_eq,insertIfAbsent_of_present here]
      rw [served]
      exact .decides caller _
    · exact .silent
  | get | remove | operate => exact .decides caller _

theorem steps_insert (c : Callers) (caller : Nat) (name : String) (config : CircuitConfig) :
    c.Steps (c.insert caller name config) := by
  have served : (some (c.registry.insertIfAbsent name config).1, (c.registry.insertIfAbsent name config).2) =
      c.registry.serve (.breakerWith name config) := by
    rw [serve,breakerWith_eq]
  unfold insert
  dsimp only
  rw [served]
  exact .decides caller _

theorem steps_step (c : Callers) (m : Move) : c.Steps (c.step m) := by
  unfold step
  split
  · exact c.steps_begin _ _
  · exact c.steps_insert _ _ _
  · exact .silent

theorem registry_operate (c : Callers) (caller : Nat) (h : CircuitHandle) (o : Breaker.Operation) :
    (c.step (.begin caller (.operate h o))).registry = c.registry ∨
      (c.step (.begin caller (.operate h o))).registry = c.registry.set h ((c.registry.breaker h).operate o) := by
  unfold step
  split
  · next begins _ =>
    cases begins
    exact .inr rfl
  · next inserts _ => cases inserts
  · exact .inl rfl

theorem serial_play (moves : List Move) {r : CircuitRegistry} (serial : r.Serial c.log)
    (reached : c.registry = r.after c.log) :
    r.Serial (c.play moves).log ∧ (c.play moves).registry = r.after (c.play moves).log := by
  induction moves generalizing c with
  | nil => exact ⟨serial,reached⟩
  | cons m moves ih =>
    -- what the step decides is served last, by the registry that the requests before it have left
    suffices kept : r.Serial (c.step m).log ∧ (c.step m).registry = r.after (c.step m).log from ih kept.1 kept.2
    have steps := c.steps_step m
    generalize c.step m = c' at steps
    cases steps with
    | silent => exact ⟨serial,reached⟩
    | decides caller request =>
      dsimp only [reply]
      rw [Serial.append_iff,after_append,← reached]
      exact ⟨⟨serial,rfl,trivial⟩,rfl⟩

/-- Callers use, look up and remove the breakers of a new registry, with their steps in any order. They are answered as
if each request were one step. Between two removals of a name all who use it get the same breaker, which is made once
and with the configuration of the use that makes it, and keeps it. Nothing that is done to a breaker shows under any
other name; and names and metrics are listed in the order of their bytes, in whatever order the table is gone through. -/
theorem one_breaker_between_removals (defaults : CircuitConfig) (observed : Bool) (moves : List Move) :
    let r : CircuitRegistry := { defaults, observed }
    let c := ({ registry := r } : Callers).play moves
    (r.Serial c.log ∧ c.registry = r.after c.log) ∧
    (∀ name before segment rest, c.log = before ++ segment ++ rest →
      (before = [] ∨ ∃ earlier removal, before = earlier ++ [removal] ∧ removal.request = .remove name) →
      (∀ e ∈ segment, e.request ≠ .remove name) → Unused name segment ∨ ∃ h config,
        (∀ e ∈ segment, e.request.uses name = true → ∃ created, e.answer = some (h, created)) ∧
        (∀ e ∈ segment, e.request = .get name → e.answer = none ∨ e.answer = some (h, false)) ∧
        segment.countP (Served.creates name) = 1 ∧
        (∀ e ∈ segment, e.creates name = true → e.request = .breakerWith name config) ∧
        ∃ b, c.registry.breakers[h]? = some b ∧ b.name = name ∧ b.config = config) ∧
    (∀ caller h o, let left := (c.step (.begin caller (.operate h o))).registry
      (∀ name, left.find? name = c.registry.find? name ∧
        (c.registry.find? name ≠ some h → left.get? name = c.registry.get? name)) ∧
      ∀ e ∈ c.log, ∀ name created, e.request.seeks name = true → e.answer = some (h, created) →
        ∀ other ≠ name, c.registry.find? other ≠ some h) ∧
    (∀ name, name ∈ c.registry.sortedNames ↔ (c.registry.get? name).isSome) ∧
    c.registry.sortedNames.Pairwise (fun a b => bytes a < bytes b) ∧
    c.registry.allMetrics.map CircuitMetrics.name = c.registry.sortedNames ∧
    (∀ name b, c.registry.get? name = some b → b.metrics ∈ c.registry.allMetrics) ∧
    ∀ entries : List (String × CircuitHandle), entries.Perm c.registry.names.toList →
      (entries.map Prod.fst).mergeSort (fun a b => decide (bytes a ≤ bytes b)) = c.registry.sortedNames ∧
      (entries.map fun e => (c.registry.breaker e.2).metrics).mergeSort
        (fun a b => decide (bytes a.name ≤ bytes b.name)) = c.registry.allMetrics := by
  intro r c
  have empty : r.Sound := sound_empty defaults observed
  obtain ⟨serial,reached⟩ : r.Serial c.log ∧ c.registry = r.after c.log := serial_play moves trivial rfl
  have sound : c.registry.Sound := reached ▸ empty.after c.log
  refine ⟨⟨serial,reached⟩,fun name before segment rest split start kept => ?_,fun caller h o => ⟨fun name => ?_,?_⟩,
    sound.listed⟩
  · have absent : (r.after before).find? name = none := by
      rcases start with rfl | ⟨earlier,removal,rfl,request⟩
      · rfl
      · exact find?_after_removal request earlier
    rw [split,List.append_assoc,Serial.append_iff,Serial.append_iff] at serial
    rcases serial.2.1.first_use absent kept with unused | ⟨h,config,quiet,first,later,used,labelled⟩
    · exact .inl unused
    · have still := label_after labelled rest
      rw [← after_append,← after_append,← List.append_assoc,← split,← reached] at still
      obtain ⟨b,present,label⟩ := Option.map_eq_some_iff.mp still
      exact .inr ⟨h,config,fun e => used.answer_of_uses,fun e => used.answer_of_get,used.countP_creates,
        fun e => used.request_of_creates,b,present,congrArg Prod.fst label,congrArg Prod.snd label⟩
  · rcases c.registry_operate caller h o with still | changed
    · rw [still]
      exact ⟨rfl,fun _ => rfl⟩
    · rw [changed]
      exact ⟨find?_set,get?_set_of_ne⟩
  · intro e member name created seeks given other apart
    rw [reached]
    exact serial.find?_of_given empty member seeks given apart

/-- Two callers look the same name up before either of them inserts it; later it is removed and used again. -/
def racing : List Move :=
  [.begin 0 (.breakerWith "a" { minimumCalls := 2 }), .begin 1 (.breakerWith "a" { minimumCalls := 9 }), .insert 1,
    .insert 0, .begin 2 (.remove "a"), .begin 0 (.breakerWith "a" { minimumCalls := 2 }), .insert 0]

theorem one_breaker_between_removals_racing :
    let c := ({ registry := {} } : Callers).play racing
    c.log.map Served.answer = [some (0, true), some (0, false), some (0, false), some (1, true)] ∧
    ∃ b, c.registry.breakers[0]? = some b ∧ b.name = "a" ∧ b.config.minimumCalls = 9 := by
  intro c
  let won : Served := ⟨1, .breakerWith "a" { minimumCalls := 9 }, some (0, true)⟩
  let lost : Served := ⟨0, .breakerWith "a" { minimumCalls := 2 }, some (0, false)⟩
  have log : c.log = [] ++ [won,lost] ++ c.log.drop 2 := by rfl
  have kept : ∀ e ∈ [won,lost], e.request ≠ .remove "a" :=
    List.forall_mem_cons.mpr ⟨Request.noConfusion,List.forall_mem_singleton.mpr Request.noConfusion⟩
  obtain ⟨_,segments,_⟩ := one_breaker_between_removals {} true racing
  refine ⟨by decide +kernel,?_⟩
  rcases segments "a" [] [won,lost] _ log (.inl rfl) kept with unused | ⟨h,config,same,_,_,made,b,present,named,configured⟩
  · cases (unused won List.mem_cons_self).1
  · obtain ⟨created,answer⟩ := same won List.mem_cons_self rfl
    cases answer
    cases made won List.mem_cons_self rfl
    exact ⟨b,present,named,configured ▸ rfl⟩

end Callers

end VersionedLedger.CircuitRegistry
