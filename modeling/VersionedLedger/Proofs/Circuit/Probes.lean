import Mathlib.Data.List.Perm.Subperm
import VersionedLedger.Proofs.Circuit.Change
import VersionedLedger.Proofs.Circuit.History

/-! The probes of a half-open breaker. A stay in that state issues so many permits and no more; it ends when they
have all been reported without a failure, or with the first failure, and while every permit that it has issued
has been reported there is room for another one. -/
namespace VersionedLedger

open Breaker

namespace Course

variable {c c' : Course} {a : Act} {config : CircuitConfig} {first k : Nat} {o : CallOutcome}
  {told : List (Nat × CallOutcome)}

/-- The permits that a run reports on, by their numbers, and how the calls count. -/
def reports (c : Course) : List Act → List (Nat × CallOutcome)
  | [] => []
  | a :: acts => (c.report? a).toList ++ (c.act a).reports acts

def Once (c : Course) (acts : List Act) : Prop := ((c.reports acts).map Prod.fst).Nodup

instance (c : Course) (acts : List Act) : Decidable (c.Once acts) := inferInstanceAs (Decidable (List.Nodup _))

/-- Permits in this number, counted from the first, have all been reported, none of them as a failure. -/
def Passed (told : List (Nat × CallOutcome)) (first count : Nat) : Prop :=
  ∀ j < count, ∃ o, (first + j, o) ∈ told ∧ o ≠ .failure

theorem reports_append (c : Course) (before after : List Act) :
    c.reports (before ++ after) = c.reports before ++ (c.run before).reports after := by
  induction before generalizing c with
  | nil => rfl
  | cons a before ih => simp [reports,run,ih]

theorem report?_record {permit : Permit} (here : c.issued[k]? = some permit) (failed : Bool) :
    c.report? (.record k failed) = some (k,c.breaker.outcome permit failed c.clock) := by
  simp [report?,here]

theorem lt_of_report? (report : c.report? a = some (k, o)) : k < c.issued.length := by
  cases a with
  | record k' failed =>
    obtain ⟨permit,here,same⟩ := Option.map_eq_some_iff.mp report
    cases same
    exact (List.getElem?_eq_some_iff.mp here).1
  | _ => cases report

theorem length_issued_act_le (c : Course) (a : Act) : c.issued.length ≤ (c.act a).issued.length := by
  obtain ⟨more,issued,_⟩ := (c.act_turn a).exists_issued
  rw [issued,List.length_append]
  exact Nat.le_add_right _ _

theorem length_issued_run_le (c : Course) (acts : List Act) : c.issued.length ≤ (c.run acts).issued.length := by
  induction acts generalizing c with
  | nil => exact Nat.le_refl _
  | cons a acts ih => exact Nat.le_trans (c.length_issued_act_le a) (ih (c.act a))

theorem lt_of_reports {acts : List Act} {r : Nat × CallOutcome} (member : r ∈ c.reports acts) :
    r.1 < (c.run acts).issued.length := by
  induction acts generalizing c with
  | nil => cases member
  | cons a acts ih =>
    rcases List.mem_append.mp member with now | later
    · have here := lt_of_report? (Option.mem_toList.mp now)
      exact Nat.lt_of_lt_of_le here
        (Nat.le_trans (c.length_issued_act_le a) ((c.act a).length_issued_run_le acts))
    · exact ih later

theorem reports_through (c : Course) (acts : List Act) (a : Act) (more last : List Act) :
    c.reports (acts ++ a :: more ++ last) = c.reports acts ++ ((c.run acts).report? a).toList ++
      (((c.run acts).act a).reports more ++ (((c.run acts).act a).run more).reports last) := by
  have ended : c.run (acts ++ a :: more) = ((c.run acts).act a).run more := by
    rw [run_append]
    rfl
  rw [reports_append,reports_append,ended]
  simp [reports]

theorem lt_of_reports_through (c : Course) (acts : List Act) (a : Act) :
    ∀ r ∈ c.reports acts ++ ((c.run acts).report? a).toList, r.1 < (c.run acts).issued.length := by
  intro r member
  rcases List.mem_append.mp member with past | now
  · exact lt_of_reports past
  · exact lt_of_report? (Option.mem_toList.mp now)

/-- Everything that an act can do to a half-open breaker that is not forced. -/
inductive Trial (c : Course) (a : Act) (c' : Course) : Prop
  | admits (asks : a = .tryAcquire) (room : c.breaker.probesAdmitted < c.breaker.config.permittedProbes)
      (answer : (c.breaker.tryAcquire c.clock).1 = .ok (c.breaker.permit c.clock))
      (next : c' = { c with
        breaker := { c.breaker with probesAdmitted := c.breaker.probesAdmitted + 1 }
        issued := c.issued ++ [c.breaker.permit c.clock] })
  | refuses (asks : a = .tryAcquire) (taken : c.breaker.config.permittedProbes ≤ c.breaker.probesAdmitted)
      (next : c' = { c with breaker := { c.breaker with notPermitted := c.breaker.notPermitted + 1 } })
  | ignores (unasked : a ≠ .tryAcquire) (stale : ∀ k o, c.report? a = some (k, o) →
        ∃ permit, c.issued[k]? = some permit ∧ permit.generation ≠ c.breaker.generation)
      (breaker : c'.breaker = c.breaker) (issued : c'.issued = c.issued)
  | passes {k : Nat} {o : CallOutcome} {permit : Permit} (report : c.report? a = some (k, o))
      (here : c.issued[k]? = some permit) (own : permit.generation = c.breaker.generation)
      (passed : o ≠ .failure) (fewer : c.breaker.probesSucceeded + 1 < c.breaker.config.permittedProbes)
      (next : c' = { c with
        breaker := { c.breaker with probesSucceeded := c.breaker.probesSucceeded + 1 } })
  | closes {k : Nat} {o : CallOutcome} {permit : Permit} (report : c.report? a = some (k, o))
      (here : c.issued[k]? = some permit) (own : permit.generation = c.breaker.generation)
      (passed : o ≠ .failure) (enough : c.breaker.config.permittedProbes ≤ c.breaker.probesSucceeded + 1)
      (closed : c'.breaker.state = .closed)
  | reopens {k : Nat} {permit : Permit} (report : c.report? a = some (k, .failure))
      (here : c.issued[k]? = some permit) (own : permit.generation = c.breaker.generation)
      (opened : c'.breaker.state = .opened)

theorem trial_tryAcquire (halfOpen : c.breaker.state = .halfOpen) : c.Trial .tryAcquire (c.act .tryAcquire) := by
  have same : c.breaker.looked c.clock = c.breaker := by simp [looked,readyToProbe,halfOpen]
  have admits := c.breaker.tryAcquire_admits c.clock
  rw [same] at admits
  unfold act
  dsimp only
  generalize answered : (c.breaker.tryAcquire c.clock).1 = answer at admits
  generalize (c.breaker.tryAcquire c.clock).2.1 = b at admits
  cases admits with
  | probe _ room => exact .admits rfl room answered rfl
  | full _ taken => exact .refuses rfl taken (by simp [Except.toOption])
  | closed other | waiting other => cases halfOpen.symm.trans other

theorem trial_record (halfOpen : c.breaker.state = .halfOpen) (k : Nat) (failed : Bool) :
    c.Trial (.record k failed) (c.act (.record k failed)) := by
  rcases c.act_record_cases k failed with ⟨permit,here,own,absorbed⟩ | ⟨stale,same⟩
  · have report := report?_record here failed
    have absorbs := c.breaker.absorb_absorbs (c.breaker.outcome permit failed c.clock) c.clock
    rw [absorbed]
    generalize (c.breaker.absorb (c.breaker.outcome permit failed c.clock) c.clock).1 = b at absorbs
    generalize c.breaker.outcome permit failed c.clock = o at absorbs report
    cases absorbs with
    | counted other | tripped other | ignored other => cases halfOpen.symm.trans other
    | reopened _ failure =>
      cases failure
      exact .reopens report here own rfl
    | succeeded _ passed fewer => exact .passes report here own passed fewer rfl
    | recovered _ passed enough => exact .closes report here own passed enough rfl
  · refine .ignores Act.noConfusion (fun k' o report => ?_) (by rw [same]) (by rw [same])
    obtain ⟨permit,here,told⟩ := Option.map_eq_some_iff.mp report
    cases told
    exact ⟨permit,here,stale permit here⟩

theorem act_trial (halfOpen : c.breaker.state = .halfOpen) (unforced : a.isForced = false) :
    c.Trial a (c.act a) := by
  cases a with
  | tryAcquire => exact trial_tryAcquire halfOpen
  | record k failed => exact trial_record halfOpen k failed
  | force | reset => cases unforced
  | elapse d => exact .ignores Act.noConfusion (fun k o report => by cases report) rfl rfl

def since (first : Nat) (told : List (Nat × CallOutcome)) : List (Nat × CallOutcome) :=
  told.filter fun r => first ≤ r.1

theorem length_since_append (first : Nat) (told more : List (Nat × CallOutcome)) :
    (since first (told ++ more)).length = (since first told).length + (since first more).length := by
  simp [since]

theorem mem_since {r : Nat × CallOutcome} : r ∈ since first told ↔ r ∈ told ∧ first ≤ r.1 := by
  simp [since]

theorem le_length_since {count : Nat} (all : ∀ j < count, first + j ∈ told.map Prod.fst) :
    count ≤ (since first told).length := by
  have inside : List.range' first count ⊆ (since first told).map Prod.fst := by
    intro k member
    obtain ⟨j,bound,rfl⟩ := List.mem_range'.mp member
    obtain ⟨r,reported,number⟩ := List.mem_map.mp (all j bound)
    refine List.mem_map.mpr ⟨r,mem_since.mpr ⟨reported,?_⟩,by simpa using number⟩
    omega
  have bound := (List.subperm_of_subset List.nodup_range' inside).length_le
  simpa using bound

theorem mem_of_length_since {count : Nat} (once : (told.map Prod.fst).Nodup)
    (within : ∀ r ∈ told, r.1 < first + count) (enough : count ≤ (since first told).length) :
    ∀ j < count, ∃ o, (first + j, o) ∈ told := by
  intro j bound
  have distinct : ((since first told).map Prod.fst).Nodup :=
    (List.filter_sublist.map Prod.fst).nodup once
  have inside : (since first told).map Prod.fst ⊆ List.range' first count := by
    intro k member
    obtain ⟨r,reported,rfl⟩ := List.mem_map.mp member
    obtain ⟨reported,late⟩ := mem_since.mp reported
    have early := within r reported
    exact List.mem_range'_1.mpr ⟨late,early⟩
  have same := (List.subperm_of_subset distinct inside).perm_of_length_le (by simpa using enough)
  have member : first + j ∈ (since first told).map Prod.fst :=
    same.mem_iff.mpr (List.mem_range'_1.mpr ⟨Nat.le_add_right _ _,by omega⟩)
  obtain ⟨r,reported,number⟩ := List.mem_map.mp member
  exact ⟨r.2,by rw [← number]; exact (mem_since.mp reported).1⟩

theorem nodup_of_overlap {early more : List (Nat × CallOutcome)}
    (once : ((early ++ told).map Prod.fst).Nodup) (next : ((told ++ more).map Prod.fst).Nodup)
    (before : ∀ r ∈ early, r.1 < first) (after : ∀ r ∈ more, first ≤ r.1) :
    ((early ++ (told ++ more)).map Prod.fst).Nodup := by
  rw [List.map_append,List.nodup_append] at once ⊢
  obtain ⟨distinct,_,apart⟩ := once
  refine ⟨distinct,next,fun k early k' member => ?_⟩
  rw [List.map_append] at member
  rcases List.mem_append.mp member with here | later
  · exact apart k early k' here
  · obtain ⟨r,reported,rfl⟩ := List.mem_map.mp early
    obtain ⟨r',reported',rfl⟩ := List.mem_map.mp later
    have low := before r reported
    have high := after r' reported'
    omega

/-- A breaker in a stay in the half-open state, by the permits issued in it and what has been reported of them. -/
structure Probing (config : CircuitConfig) (first : Nat) (told : List (Nat × CallOutcome)) (c : Course) : Prop where
  halfOpen : c.breaker.state = .halfOpen
  configured : c.breaker.config = config
  dated : Dated first c
  admitted : c.issued.length = first + c.breaker.probesAdmitted
  room : c.breaker.probesAdmitted ≤ config.permittedProbes
  succeeded : c.breaker.probesSucceeded = (since first told).length
  wanting : c.breaker.probesSucceeded < config.permittedProbes
  passed : ∀ r ∈ since first told, r.2 ≠ .failure
  known : ∀ r ∈ told, r.1 < c.issued.length

/-- A stay begins without reports, and with one permit if a request has begun it. -/
theorem Dated.probing {old : Nat} (dated : Dated old c) (enters : c.Enters .halfOpen a)
    (configured : c.breaker.config = config) (positive : 1 ≤ config.permittedProbes) :
    Probing config c.issued.length [] (c.act a) := by
  obtain ⟨halfOpen,changes⟩ := enters
  have renewed := dated.of_changes changes
  have kept : (c.act a).breaker.config = config := ((c.act_turn a).config_eq).trans configured
  have begun (admitted : (c.act a).issued.length = c.issued.length + (c.act a).breaker.probesAdmitted)
      (room : (c.act a).breaker.probesAdmitted ≤ config.permittedProbes)
      (none : (c.act a).breaker.probesSucceeded = 0) : Probing config c.issued.length [] (c.act a) :=
    ⟨halfOpen,kept,renewed,admitted,room,none,by rwa [none],by simp [since],by simp⟩
  cases a with
  | force target =>
    cases halfOpen
    exact begun rfl (Nat.zero_le _) rfl
  | reset => cases halfOpen
  | elapse d => exact absurd rfl (changes.resolve_right Bool.false_ne_true)
  | record k failed =>
    have changed := changes.resolve_right Bool.false_ne_true
    rcases c.act_record_cases k failed with ⟨permit,here,own,absorbed⟩ | ⟨_,same⟩
    · have absorbs := c.breaker.absorb_absorbs (c.breaker.outcome permit failed c.clock) c.clock
      rw [absorbed] at halfOpen changed
      generalize (c.breaker.absorb (c.breaker.outcome permit failed c.clock) c.clock).1 = b at *
      cases absorbs with
      | tripped | reopened | recovered => cases halfOpen
      | counted | succeeded | ignored => exact absurd rfl changed
    · rw [same] at changed
      exact absurd rfl changed
  | tryAcquire =>
    have changed := changes.resolve_right Bool.false_ne_true
    have admits := c.breaker.tryAcquire_admits c.clock
    unfold Course.act at begun halfOpen changed ⊢
    dsimp only at begun halfOpen changed ⊢
    by_cases ready : c.breaker.readyToProbe c.clock = true
    · have moved : c.breaker.looked c.clock = (c.breaker.transition .halfOpen c.clock).1 := if_pos ready
      have room : 0 < c.breaker.config.permittedProbes := by rwa [configured]
      rw [moved] at admits
      generalize (c.breaker.tryAcquire c.clock).1 = answer at *
      generalize (c.breaker.tryAcquire c.clock).2.1 = b at *
      cases admits with
      | probe => exact begun List.length_append positive rfl
      | full _ taken => exact absurd room (Nat.not_lt_of_le taken)
      | closed other | waiting other => cases other
    · have same : c.breaker.looked c.clock = c.breaker := if_neg ready
      rw [same] at admits
      exact absurd admits.state_eq.1 changed

namespace Probing

theorem unchanged (probing : Probing config first told c) (unforced : a.isForced = false)
    (still : (c.act a).breaker.state = .halfOpen) : ¬ c.Changes a := by
  rintro (other | forced)
  · exact other (still.trans probing.halfOpen.symm)
  · cases unforced.symm.trans forced

theorem own_iff (probing : Probing config first told c) {permit : Permit} (here : c.issued[k]? = some permit) :
    permit.generation = c.breaker.generation ↔ first ≤ k := probing.dated.own k permit here

theorem act (probing : Probing config first told c) (unforced : a.isForced = false)
    (still : (c.act a).breaker.state = .halfOpen) :
    Probing config first (told ++ (c.report? a).toList) (c.act a) := by
  have dated := probing.dated.of_not_changes (probing.unchanged unforced still)
  have configured : (c.act a).breaker.config = config :=
    ((c.act_turn a).config_eq).trans probing.configured
  have known : ∀ r ∈ told ++ (c.report? a).toList, r.1 < (c.act a).issued.length := by
    intro r member
    refine Nat.lt_of_lt_of_le ?_ (c.length_issued_act_le a)
    rcases List.mem_append.mp member with before | now
    · exact probing.known r before
    · exact lt_of_report? (Option.mem_toList.mp now)
  have trial := act_trial probing.halfOpen unforced
  generalize c.act a = c' at *
  cases trial with
  | admits asks room _ next =>
    subst asks next
    refine ⟨still,configured,dated,?_,?_,?_,probing.wanting,?_,known⟩
    · simp [probing.admitted,Nat.add_assoc]
    · rwa [probing.configured] at room
    · simpa [report?] using probing.succeeded
    · simpa [report?] using probing.passed
  | refuses asks _ next =>
    subst asks next
    refine ⟨still,configured,dated,probing.admitted,probing.room,?_,probing.wanting,?_,known⟩
    · simpa [report?] using probing.succeeded
    · simpa [report?] using probing.passed
  | ignores _ stale breaker issued =>
    -- what is reported on an earlier permit is not of this stay
    have same : since first (told ++ (c.report? a).toList) = since first told := by
      cases reported : c.report? a with
      | none => simp
      | some r =>
        obtain ⟨permit,here,other⟩ := stale r.1 r.2 reported
        have early : ¬ first ≤ r.1 := fun late => other ((probing.own_iff here).mpr late)
        simp [since,early]
    have kept : c'.breaker.probesSucceeded = c.breaker.probesSucceeded := by rw [breaker]
    refine ⟨still,configured,dated,?_,?_,?_,?_,?_,known⟩
    · rw [issued,breaker]
      exact probing.admitted
    · rw [breaker]
      exact probing.room
    · rw [kept,same]
      exact probing.succeeded
    · rw [kept]
      exact probing.wanting
    · rw [same]
      exact probing.passed
  | @passes k o permit report here own passed fewer next =>
    have late := (probing.own_iff here).mp own
    subst next
    refine ⟨still,configured,dated,probing.admitted,probing.room,?_,?_,?_,known⟩
    · simp [report,since,late,probing.succeeded]
    · rwa [probing.configured] at fewer
    · intro r member
      rcases List.mem_append.mp (mem_since.mp member).1 with before | now
      · exact probing.passed r (mem_since.mpr ⟨before,(mem_since.mp member).2⟩)
      · rw [report] at now
        cases Option.mem_toList.mp now
        exact passed
  | closes _ _ _ _ _ closed => cases still.symm.trans closed
  | reopens _ _ _ opened => cases still.symm.trans opened

theorem run (probing : Probing config first told c) {acts : List Act}
    (unforced : ∀ a ∈ acts, a.isForced = false)
    (stays : ∀ n ≤ acts.length, (c.run (acts.take n)).breaker.state = .halfOpen) :
    Probing config first (told ++ c.reports acts) (c.run acts) := by
  induction acts generalizing c told with
  | nil =>
    rw [reports,List.append_nil]
    exact probing
  | cons a acts ih =>
    have still : (c.act a).breaker.state = .halfOpen := stays 1 (Nat.le_add_left 1 _)
    have next := probing.act (unforced a List.mem_cons_self) still
    have rest := ih next (fun a member => unforced a (List.mem_cons_of_mem _ member))
      fun n bound => stays (n + 1) (Nat.succ_le_succ bound)
    rwa [List.append_assoc] at rest

theorem lt_of_mem (probing : Probing config first told c) {r : Nat × CallOutcome}
    (member : r ∈ told ++ (c.report? a).toList) : r.1 < first + config.permittedProbes := by
  have issued : r.1 < c.issued.length := by
    rcases List.mem_append.mp member with before | now
    · exact probing.known r before
    · exact lt_of_report? (Option.mem_toList.mp now)
  have admitted := probing.admitted
  have room := probing.room
  omega

theorem closes_iff (probing : Probing config first told c) (unforced : a.isForced = false)
    (once : ((told ++ (c.report? a).toList).map Prod.fst).Nodup) :
    (c.act a).breaker.state = .closed ↔
      ∃ r, c.report? a = some r ∧ Passed (told ++ [r]) first config.permittedProbes := by
  have open_yet : c.breaker.state ≠ .closed := by simp [probing.halfOpen]
  have counted := probing.succeeded
  have wanting := probing.wanting
  have within (r : Nat × CallOutcome) := probing.lt_of_mem (a := a) (r := r)
  have trial := act_trial probing.halfOpen unforced
  generalize c.act a = c' at *
  constructor
  · intro closed
    cases trial with
    | admits _ _ _ next | refuses _ _ next | passes _ _ _ _ _ next =>
      subst next
      exact absurd closed open_yet
    | ignores _ _ breaker => exact absurd (breaker ▸ closed) open_yet
    | reopens _ _ _ opened => cases opened.symm.trans closed
    | @closes k o permit report here own passed enough =>
      have late := (probing.own_iff here).mp own
      rw [report] at once within
      refine ⟨_,report,fun j bound => ?_⟩
      have all : config.permittedProbes ≤ (since first (told ++ [(k, o)])).length := by
        rw [probing.configured] at enough
        simpa [since,late,counted] using enough
      obtain ⟨o',reported⟩ := mem_of_length_since once within all j bound
      refine ⟨o',reported,?_⟩
      rcases List.mem_append.mp reported with before | now
      · exact probing.passed _ (mem_since.mpr ⟨before,Nat.le_add_right _ _⟩)
      · cases List.mem_singleton.mp now
        exact passed
  · rintro ⟨⟨k,o⟩,report,passed⟩
    have all : config.permittedProbes ≤ (since first (told ++ [(k, o)])).length :=
      le_length_since fun j bound => by
        obtain ⟨o',reported,_⟩ := passed j bound
        exact List.mem_map_of_mem reported
    rw [length_since_append,← counted] at all
    cases trial with
    | admits asks | refuses asks =>
      subst asks
      cases report
    | ignores _ stale =>
      obtain ⟨permit,here,other⟩ := stale k o report
      have early : ¬ first ≤ k := fun late => other ((probing.own_iff here).mpr late)
      have none : (since first [(k, o)]).length = 0 := by simp [since,early]
      omega
    | passes report' _ _ _ fewer =>
      have single : (since first [(k, o)]).length ≤ 1 := List.length_filter_le _ _
      rw [probing.configured] at fewer
      omega
    | closes _ _ _ _ _ closed => exact closed
    | @reopens k' permit report' here own =>
      -- the permit of the failure has been reported before, and not as one
      cases report.symm.trans report'
      have late := (probing.own_iff here).mp own
      rw [report] at once within
      have bound := within (k, .failure) (by simp)
      obtain ⟨o',reported,other⟩ := passed (k - first) (by omega)
      rw [Nat.add_sub_cancel' late] at reported
      rcases List.mem_append.mp reported with before | now
      · rw [List.map_append] at once
        exact absurd rfl ((List.nodup_append.mp once).2.2 k (List.mem_map_of_mem before) k (by simp))
      · cases List.mem_singleton.mp now
        exact absurd rfl other

theorem reopens_iff (probing : Probing config first told c) (unforced : a.isForced = false) :
    (c.act a).breaker.state = .opened ↔ ∃ k, c.report? a = some (k, .failure) ∧ first ≤ k := by
  have closed_yet : c.breaker.state ≠ .opened := by simp [probing.halfOpen]
  have trial := act_trial probing.halfOpen unforced
  generalize c.act a = c' at *
  constructor
  · intro opened
    cases trial with
    | admits _ _ _ next | refuses _ _ next | passes _ _ _ _ _ next =>
      subst next
      exact absurd opened closed_yet
    | ignores _ _ breaker => exact absurd (breaker ▸ opened) closed_yet
    | closes _ _ _ _ _ closed => cases closed.symm.trans opened
    | reopens report here own => exact ⟨_,report,(probing.own_iff here).mp own⟩
  · rintro ⟨k,report,late⟩
    cases trial with
    | admits asks | refuses asks =>
      subst asks
      cases report
    | ignores _ stale =>
      obtain ⟨permit,here,other⟩ := stale k _ report
      exact absurd ((probing.own_iff here).mpr late) other
    | passes report' _ _ passed | closes report' _ _ passed =>
      cases report.symm.trans report'
      exact absurd rfl passed
    | reopens _ _ _ opened => exact opened

def Pending (first : Nat) (told : List (Nat × CallOutcome)) (c : Course) (k : Nat) : Prop :=
  first ≤ k ∧ k < c.issued.length ∧ k ∉ told.map Prod.fst

theorem exists_pending_or_room (probing : Probing config first told c) :
    (∃ k, Pending first told c k) ∨ c.breaker.probesAdmitted < config.permittedProbes := by
  by_cases all : ∀ j < c.breaker.probesAdmitted, first + j ∈ told.map Prod.fst
  · right
    have reported := le_length_since all
    rw [← probing.succeeded] at reported
    exact Nat.lt_of_le_of_lt reported probing.wanting
  · left
    push Not at all
    obtain ⟨j,bound,unreported⟩ := all
    refine ⟨first + j,Nat.le_add_right _ _,?_,unreported⟩
    rw [probing.admitted]
    omega

theorem exists_pending_of_refused (probing : Probing config first told c) {e : Error}
    (refused : (c.breaker.tryAcquire c.clock).1 = .error e) : ∃ k, Pending first told c k := by
  refine probing.exists_pending_or_room.resolve_right fun room => ?_
  cases act_trial (a := .tryAcquire) probing.halfOpen rfl with
  | admits _ _ answer => cases refused.symm.trans answer
  | refuses _ taken =>
    rw [probing.configured] at taken
    omega
  | ignores unasked => exact unasked rfl
  | passes report | closes report | reopens report => cases report

theorem asked (probing : Probing config first told c) (room : c.breaker.probesAdmitted < config.permittedProbes) :
    Probing config first told (c.act .tryAcquire) ∧ Pending first told (c.act .tryAcquire) c.issued.length := by
  have trial := act_trial (a := .tryAcquire) probing.halfOpen rfl
  have next := probing.act (a := .tryAcquire) rfl
  generalize c.act .tryAcquire = c' at *
  cases trial with
  | admits _ _ _ asked =>
    subst asked
    have still := next probing.halfOpen
    have silent : c.report? .tryAcquire = none := rfl
    rw [silent,Option.toList_none,List.append_nil] at still
    refine ⟨still,?_,?_,fun reported => ?_⟩
    · rw [probing.admitted]
      exact Nat.le_add_right _ _
    · simp
    · obtain ⟨r,member,number⟩ := List.mem_map.mp reported
      have known := probing.known r member
      omega
  | refuses _ taken =>
    rw [probing.configured] at taken
    omega
  | ignores unasked => exact absurd rfl unasked
  | passes report | closes report | reopens report => cases report

theorem reported (probing : Probing config first told c) (pending : Pending first told c k) :
    ∃ o, c.report? (.record k false) = some (k, o) ∧
      ((c.act (.record k false)).breaker.state = .closed ∨
        Probing config first (told ++ [(k, o)]) (c.act (.record k false))) := by
  obtain ⟨late,issued,_⟩ := pending
  have here := List.getElem?_eq_getElem issued
  have own := (probing.own_iff here).mpr late
  have report := report?_record here false
  have passed : c.breaker.outcome c.issued[k] false c.clock ≠ .failure := by
    simp only [outcome,CallOutcome.classify,Bool.false_eq_true,if_false]
    split <;> exact CallOutcome.noConfusion
  refine ⟨_,report,?_⟩
  have trial := act_trial (a := .record k false) probing.halfOpen rfl
  have next := probing.act (a := .record k false) rfl
  rw [report] at next
  generalize c.act (.record k false) = c' at *
  cases trial with
  | admits asks | refuses asks => cases asks
  | ignores _ stale =>
    obtain ⟨permit,there,other⟩ := stale _ _ report
    cases here.symm.trans there
    exact absurd own other
  | passes _ _ _ _ _ same =>
    right
    apply next
    rw [same]
    exact probing.halfOpen
  | closes _ _ _ _ _ closed => exact .inl closed
  | reopens failure =>
    have failed := Option.some.inj (report.symm.trans failure)
    exact absurd (congrArg Prod.snd failed) passed

/-- Acts that close the breaker without force, by reports on probes that have not been reported yet. -/
structure Closing (first : Nat) (told : List (Nat × CallOutcome)) (c : Course) (last : List Act) : Prop where
  unforced : ∀ a ∈ last, a.isForced = false
  once : ((told ++ c.reports last).map Prod.fst).Nodup
  late : ∀ r ∈ c.reports last, first ≤ r.1
  closed : (c.run last).breaker.state = .closed

theorem Closing.cons {last : List Act} (closing : Closing first (told ++ (c.report? a).toList) (c.act a) last)
    (unforced : a.isForced = false) (late : ∀ r ∈ (c.report? a).toList, first ≤ r.1) :
    Closing first told c (a :: last) := by
  refine ⟨List.forall_mem_cons.mpr ⟨unforced,closing.unforced⟩,?_,fun r member => ?_,closing.closed⟩
  · rw [reports,← List.append_assoc]
    exact closing.once
  · rcases List.mem_append.mp member with now | later
    · exact late r now
    · exact closing.late r later

/-- The stay can always be ended: each probe that is reported leaves one less to wait for. -/
theorem exists_closing (probing : Probing config first told c) (once : (told.map Prod.fst).Nodup) :
    ∃ last, Closing first told c last := by
  induction left : config.permittedProbes - (since first told).length using Nat.strongRecOn
    generalizing c told with
  | ind left ih =>
    have finish {c : Course} (probing : Probing config first told c) {k : Nat}
        (pending : Pending first told c k) : ∃ last, Closing first told c last := by
      obtain ⟨o,report,ends⟩ := probing.reported pending
      have distinct : ((told ++ [(k, o)]).map Prod.fst).Nodup := by
        rw [List.map_append]
        refine List.nodup_append.mpr ⟨once,by simp,fun k' before k'' now same => ?_⟩
        have number : k' = k := same.trans (List.mem_singleton.mp now)
        exact pending.2.2 (number ▸ before)
      have late : ∀ r ∈ (c.report? (.record k false)).toList, first ≤ r.1 := by
        simp [report,pending.1]
      have told_eq : told ++ (c.report? (.record k false)).toList = told ++ [(k, o)] := by rw [report]; rfl
      rcases ends with closed | next
      · refine ⟨[.record k false],Closing.cons ?_ rfl late⟩
        rw [told_eq]
        exact ⟨by simp,by simpa [reports] using distinct,by simp [reports],closed⟩
      · have wanting := probing.wanting
        rw [probing.succeeded] at wanting
        have more : (since first (told ++ [(k, o)])).length = (since first told).length + 1 := by
          simp [since,pending.1]
        obtain ⟨last,closing⟩ := ih _ (by omega) next distinct rfl
        refine ⟨.record k false :: last,Closing.cons ?_ rfl late⟩
        rwa [told_eq]
    rcases probing.exists_pending_or_room with ⟨k,pending⟩ | room
    · exact finish probing pending
    · obtain ⟨next,pending⟩ := probing.asked room
      obtain ⟨last,closing⟩ := finish next pending
      have silent : c.report? .tryAcquire = none := rfl
      refine ⟨.tryAcquire :: last,Closing.cons ?_ rfl (by simp [silent])⟩
      rwa [silent,Option.toList_none,List.append_nil]

end Probing

/-- A stay in the half-open state, in a run that reports no permit twice: so many permits are issued in it and no
more; it ends closed with the report after which that many of them have passed, or open with the first that has
not; a call is refused only while a permit of the stay is unreported; and some calls always end it. -/
theorem halfOpen_stay (name : String) (clock : Time) {config : CircuitConfig}
    (valid : config.validate = .ok ()) (acts : List Act) (reached : (start name config clock).run acts = c)
    (enters : c.Enters .halfOpen a) (more : List Act) (later : (c.act a).run more = c')
    (unforced : ∀ b ∈ more, b.isForced = false)
    (stays : ∀ n ≤ more.length, ((c.act a).run (more.take n)).breaker.state = .halfOpen)
    (once : (start name config clock).Once (acts ++ a :: more)) :
    let told := (c.act a).reports more
    c'.issued.length ≤ c.issued.length + config.permittedProbes ∧
    (∀ b, b.isForced = false → (start name config clock).Once (acts ++ a :: more ++ [b]) →
      ((c'.act b).breaker.state = .closed ↔ ∃ r, c'.report? b = some r ∧
        Passed (told ++ [r]) c.issued.length config.permittedProbes) ∧
      ((c'.act b).breaker.state = .opened ↔ ∃ k, c'.report? b = some (k, .failure) ∧ c.issued.length ≤ k) ∧
      ∀ r ∈ told, c.issued.length ≤ r.1 → r.2 ≠ .failure) ∧
    (∀ e, (c'.breaker.tryAcquire c'.clock).1 = .error e →
      ∃ k, c.issued.length ≤ k ∧ k < c'.issued.length ∧ k ∉ told.map Prod.fst) ∧
    ∃ last, (∀ b ∈ last, b.isForced = false) ∧
      (start name config clock).Once (acts ++ a :: more ++ last) ∧
      (c'.run last).breaker.state = .closed := by
  obtain ⟨_,_,positive⟩ := CircuitConfig.bounds_of_validate valid
  have configured : c.breaker.config = config := by
    rw [← reached,config_run]
    rfl
  obtain ⟨old,dated⟩ := (dated_start name config clock).exists_run acts
  rw [reached] at dated
  have probing := (dated.probing enters configured positive).run unforced stays
  rw [later,List.nil_append] at probing
  -- what is reported before the stay is on earlier permits
  let early := (start name config clock).reports acts ++ (c.report? a).toList
  have before : ∀ r ∈ early, r.1 < c.issued.length := by
    have known := lt_of_reports_through (start name config clock) acts a
    rwa [reached] at known
  have whole (last : List Act) : (start name config clock).reports (acts ++ a :: more ++ last) =
      early ++ ((c.act a).reports more ++ c'.reports last) := by
    rw [reports_through,reached,later]
  have once_told : ((early ++ (c.act a).reports more).map Prod.fst).Nodup := by
    have same := whole []
    rw [List.append_nil,reports,List.append_nil] at same
    rwa [Once,same] at once
  have told_once : (((c.act a).reports more).map Prod.fst).Nodup :=
    ((List.sublist_append_right _ _).map Prod.fst).nodup once_told
  refine ⟨?_,fun b free once_b => ⟨?_,probing.reopens_iff free,?_⟩,fun e refused => ?_,?_⟩
  · rw [probing.admitted]
    exact Nat.add_le_add_left probing.room _
  · refine probing.closes_iff free ?_
    rw [Once,whole [b]] at once_b
    have distinct := ((List.sublist_append_right _ _).map Prod.fst).nodup once_b
    rwa [reports,reports,List.append_nil] at distinct
  · intro r member late
    exact probing.passed r (mem_since.mpr ⟨member,late⟩)
  · exact probing.exists_pending_of_refused refused
  · obtain ⟨last,closing⟩ := probing.exists_closing told_once
    refine ⟨last,closing.unforced,?_,closing.closed⟩
    rw [Once,whole last]
    exact nodup_of_overlap once_told closing.once before closing.late

/-- Six calls of which five open the breaker, so that the sixth is unreported when the wait is over. -/
def sixCalls : List Act :=
  .tryAcquire :: fiveCalls ++ [.record 4 true,.elapse (.ofMillis 10000)]

/-- With two of three probes and the sixth call reported, a fourth probe is refused while the third is awaited; that
one closes or reopens the breaker. -/
theorem halfOpen_stay_thirdProbe :
    let probes := [Act.tryAcquire,.record 7 false,.tryAcquire,.record 5 true,.record 6 false]
    let probed := (((start "transfer" {} 0).run sixCalls).act .tryAcquire).run probes
    (∃ k, 6 ≤ k ∧ k < probed.issued.length ∧ k ∉ [7, 5, 6]) ∧
    (probed.act (.record 8 false)).breaker.state = .closed ∧
    (probed.act (.record 8 true)).breaker.state = .opened := by
  have enters : ((start "transfer" {} 0).run sixCalls).Enters .halfOpen .tryAcquire := by decide +kernel
  have stay := halfOpen_stay "transfer" 0 (rfl : CircuitConfig.validate {} = .ok ()) sixCalls rfl enters
    [.tryAcquire,.record 7 false,.tryAcquire,.record 5 true,.record 6 false] rfl (by decide) (by decide +kernel)
    (by decide +kernel)
  have told : (((start "transfer" {} 0).run sixCalls).act .tryAcquire).reports
      [.tryAcquire,.record 7 false,.tryAcquire,.record 5 true,.record 6 false] =
        [(7, .success),(5, .failure),(6, .success)] := by decide +kernel
  have first : ((start "transfer" {} 0).run sixCalls).issued.length = 6 := by decide +kernel
  rw [told,first] at stay
  obtain ⟨_,ends,awaited,_⟩ := stay
  obtain ⟨closes,_⟩ := ends (.record 8 false) rfl (by decide +kernel)
  obtain ⟨_,reopens,_⟩ := ends (.record 8 true) rfl (by decide +kernel)
  refine ⟨?_,closes.mpr ⟨(8, .success),by decide +kernel,?_⟩,reopens.mpr ⟨8,by decide +kernel,by decide⟩⟩
  · exact awaited (.circuitOpen "transfer" .halfOpen) (by decide +kernel)
  · intro j bound
    have probe : j = 0 ∨ j = 1 ∨ j = 2 := by
      have three : j < 3 := bound
      omega
    rcases probe with rfl | rfl | rfl <;> exact ⟨.success,by simp,CallOutcome.noConfusion⟩

end Course

end VersionedLedger
