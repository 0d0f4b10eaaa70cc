import VersionedLedger.Proofs.Ledger.Answer

/-! The records of a store as a function of their ids, and what the two calls that change them do to it. A
record that is changed gets a newer version, so a version that is still current shows that the whole record
is as it was read. -/
namespace VersionedLedger

abbrev View := RecordId → Option Record

def Store.view (s : Store) : View := fun id => s.records[id]?

namespace View

variable {V V' V'' : View} {id : RecordId} {r r' : Record}

def Keyed (V : View) : Prop := ∀ (id : RecordId) (r : Record), V id = some r → r.id = id

def set (V : View) (id : RecordId) (r : Record) : View := fun x => if x = id then some r else V x

/-- Records stay, and one that has changed has a newer version. -/
def Later (V V' : View) : Prop := ∀ (id : RecordId) (r : Record), V id = some r →
  ∃ r', V' id = some r' ∧ r.version ≤ r'.version ∧ (r'.version = r.version → r' = r)

/-- The record is as known as long as its version is. -/
def Known (V : View) (id : RecordId) (r : Record) : Prop :=
  ∀ (V' : View) (r' : Record), Later V V' → V' id = some r' → r'.version = r.version → r' = r

theorem Later.refl (V : View) : Later V V := fun _ r here => ⟨r,here,Nat.le_refl _,fun _ => rfl⟩

theorem Later.trans (first : Later V V') (second : Later V' V'') : Later V V'' := by
  intro id r here
  obtain ⟨r',there,newer,same⟩ := first id r here
  obtain ⟨r'',beyond,newest,same'⟩ := second id r' there
  refine ⟨r'',beyond,Nat.le_trans newer newest,fun equal => ?_⟩
  have old : r'.version = r.version := Nat.le_antisymm (equal ▸ newest) newer
  rw [same' (equal.trans old.symm),same old]

theorem known_of_some (here : V id = some r) : Known V id r := by
  intro V' r' later there equal
  obtain ⟨r'',found,_,same⟩ := later id r here
  cases found.symm.trans there
  exact same equal

theorem Known.later (known : Known V id r) (later : Later V V') : Known V' id r :=
  fun V'' r'' onward there equal => known V'' r'' (later.trans onward) there equal

@[simp] theorem set_self : V.set id r id = some r := if_pos rfl

theorem set_other {x : RecordId} (other : x ≠ id) : V.set id r x = V x := if_neg other

theorem Keyed.set (keyed : Keyed V) (named : r.id = id) : Keyed (V.set id r) := by
  intro x y here
  by_cases same : x = id
  · subst same
    rw [set_self] at here
    cases here
    exact named
  · rw [set_other same] at here
    exact keyed x y here

theorem later_set (here : V id = some r) (newer : r.version < r'.version) : Later V (V.set id r') := by
  intro x y there
  by_cases same : x = id
  · subst same
    cases here.symm.trans there
    refine ⟨r',set_self,Nat.le_of_lt newer,fun equal => ?_⟩
    exact absurd newer (equal ▸ Nat.lt_irrefl _)
  · exact ⟨y,(set_other same).trans there,Nat.le_refl _,fun _ => rfl⟩

def Installs (V : View) (id : RecordId) (expected : Version) (balance : Amount) (after : Record)
    (V' : View) : Prop :=
  ∃ r, V id = some r ∧ r.version = expected ∧ r.next balance = .ok after ∧ V' = V.set id after

/-- The stored records with the staged ones laid over them. -/
def overlay (V : View) (writes : WriteSet) : View := fun id =>
  match writes[id]? with
  | some staged => some ⟨id, staged.balance, staged.version⟩
  | none => V id

def Current (V : View) (writes : WriteSet) : Prop :=
  ∀ (id : RecordId) (staged : StagedWrite), writes[id]? = some staged →
    ∃ r, V id = some r ∧ r.version = staged.base

theorem Later.overlay {writes : WriteSet} (current : Current V writes)
    (raised : ∀ (x : RecordId) (staged : StagedWrite), writes[x]? = some staged → 0 < staged.writes) :
    Later V (V.overlay writes) := by
  intro x r here
  unfold View.overlay
  cases found : writes[x]? with
  | none => exact ⟨r,here,Nat.le_refl _,fun _ => rfl⟩
  | some staged =>
    obtain ⟨before,there,base⟩ := current x staged found
    cases here.symm.trans there
    have newer : r.version < staged.version := base ▸ Nat.lt_add_of_pos_right (raised x staged found)
    exact ⟨_,rfl,Nat.le_of_lt newer,fun same => absurd newer (same ▸ Nat.lt_irrefl _)⟩

theorem Keyed.overlay (keyed : V.Keyed) (writes : WriteSet) : (V.overlay writes).Keyed := by
  intro x r here
  unfold View.overlay at here
  split at here
  · cases here
    rfl
  · exact keyed x r here

end View

namespace Record

variable {r after : Record} {balance : Amount}

theorem next_eq (written : r.next balance = .ok after) : after = ⟨r.id, balance, r.version + 1⟩ := by
  unfold next Version.add? at written
  split at written
  · cases written
    rfl
  · cases written

theorem next_of_room (room : r.version + 1 < Version.limit) : r.next balance = .ok ⟨r.id, balance, r.version + 1⟩ := by
  rw [next,Version.add?,if_pos room]
  rfl

theorem full_of_next {f : Failure} (failed : r.next balance = .error f) :
    f = .crash .sumOverflow ∧ Version.limit ≤ r.version + 1 := by
  unfold next Version.add? at failed
  split at failed
  · cases failed
  · next full =>
    cases failed
    exact ⟨rfl,Nat.not_lt.mp full⟩

theorem room_of_next (written : r.next balance = .ok after) : r.version + 1 < Version.limit := by
  unfold next Version.add? at written
  split at written
  · assumption
  · cases written

end Record

namespace View

variable {V V' : View} {id : RecordId} {expected : Version} {balance : Amount} {after : Record}

theorem Installs.later (installs : Installs V id expected balance after V') : Later V V' := by
  obtain ⟨r,here,_,next,rfl⟩ := installs
  refine later_set here ?_
  rw [Record.next_eq next]
  exact Nat.lt_succ_self _

theorem Installs.keyed (installs : Installs V id expected balance after V') (keyed : V.Keyed) : V'.Keyed := by
  obtain ⟨r,here,_,next,rfl⟩ := installs
  refine keyed.set ?_
  rw [Record.next_eq next]
  exact keyed id r here

end View

namespace Store

open View

variable {s : Store} {id : RecordId} {expected : Version} {balance : Amount} {writes : WriteSet}

theorem view_insert (records : Std.TreeMap RecordId Record) (r : Record) :
    (fun x => (records.insert id r)[x]?) = View.set (fun x => records[x]?) id r := by
  funext x
  by_cases same : x = id
  · subst same
    simp
  · rw [set_other same,Std.TreeMap.getElem?_insert]
    simp [Ne.symm same]

theorem fresh_of_seeded {balances : List (RecordId × Amount)} {r : Record}
    (here : (seeded balances).view id = some r) : ∃ balance, r = .fresh id balance := by
  let enter (records : Std.TreeMap RecordId Record) : RecordId × Amount → Std.TreeMap RecordId Record :=
    fun entry => records.insert entry.1 (.fresh entry.1 entry.2)
  let fresh (records : Std.TreeMap RecordId Record) : Prop :=
    records[id]? = some r → ∃ balance, r = .fresh id balance
  have grows : ∀ records, fresh records → fresh (balances.foldl enter records) := by
    clear here
    induction balances with
    | nil => exact fun records before => before
    | cons entry rest ih =>
      obtain ⟨x,balance⟩ := entry
      refine fun records before => ih _ fun found => ?_
      rw [Std.TreeMap.getElem?_insert] at found
      split at found
      · next same =>
        cases found
        exact ⟨balance,by rw [Nat.compare_eq_eq.mp same]⟩
      · exact before found
  refine grows ∅ (fun found => ?_) here
  simp at found

theorem keyed_seeded (balances : List (RecordId × Amount)) : (seeded balances).view.Keyed := by
  intro id r here
  obtain ⟨balance,rfl⟩ := fresh_of_seeded here
  rfl

theorem view_install_ok {after : Record} (written : (s.install id expected balance).1 = .ok after) :
    Installs s.view id expected balance after (s.install id expected balance).2.view := by
  unfold install at written ⊢
  split at written
  · cases written
  · next r here =>
    split at written
    · cases written
    · next current =>
      split at written
      · next made next =>
        cases written
        refine ⟨r,here,Decidable.not_not.mp current,next,?_⟩
        rw [if_neg current]
        exact view_insert s.records after
      · cases written

theorem view_install_error {e : Failure} (failed : (s.install id expected balance).1 = .error e) :
    (s.install id expected balance).2.view = s.view := by
  unfold install at failed ⊢
  split at failed
  · rfl
  · split at failed
    · next stale =>
      rw [if_pos stale]
      rfl
    · next current =>
      rw [if_neg current]
      split at failed
      · cases failed
      · rfl

theorem install_eq_of_installs {after : Record} {V' : View}
    (installs : Installs s.view id expected balance after V') :
    (s.install id expected balance).1 = .ok after := by
  obtain ⟨r,here,current,next,_⟩ := installs
  change s.records[id]? = some r at here
  simp [install,here,current,next]

theorem invalid?_eq_none {entries : List (RecordId × StagedWrite)} :
    s.invalid? entries = none ↔
      ∀ entry ∈ entries, ∃ r, s.view entry.1 = some r ∧ r.version = entry.2.base := by
  induction entries with
  | nil => simp [invalid?]
  | cons entry rest ih =>
    obtain ⟨id,staged⟩ := entry
    rw [List.forall_mem_cons,invalid?]
    change _ ↔ (∃ r, s.records[id]? = some r ∧ _) ∧ _
    cases here : s.records[id]? with
    | none => simp
    | some r => by_cases current : r.version = staged.base <;> simp [current,ih]

theorem invalid?_toList : s.invalid? writes.toList = none ↔ Current s.view writes := by
  rw [invalid?_eq_none]
  constructor
  · intro valid id staged staged_here
    exact valid (id, staged) (Std.TreeMap.mem_toList_iff_getElem?_eq_some.mpr staged_here)
  · intro current entry member
    obtain ⟨id,staged⟩ := entry
    exact current id staged (Std.TreeMap.mem_toList_iff_getElem?_eq_some.mp member)

private theorem put_other {records : Std.TreeMap RecordId Record} {x : RecordId} {staged : StagedWrite}
    (differ : id ≠ x) : (put records id staged)[x]? = records[x]? := by
  unfold put
  split
  · simp [Std.TreeMap.getElem?_insert,differ]
  · rfl

private theorem contains_put {records : Std.TreeMap RecordId Record} {x : RecordId}
    {staged : StagedWrite} (present : records.contains x = true) :
    (put records id staged).contains x = true := by
  unfold put
  split
  · rw [Std.TreeMap.contains_insert,present,Bool.or_true]
  · exact present

private theorem foldl_put_other {entries : List (RecordId × StagedWrite)}
    {records : Std.TreeMap RecordId Record} {x : RecordId} (absent : ∀ entry ∈ entries, entry.1 ≠ x) :
    (entries.foldl (fun m (id, staged) => put m id staged) records)[x]? = records[x]? := by
  induction entries generalizing records with
  | nil => rfl
  | cons entry rest ih =>
    obtain ⟨differ,later⟩ := List.forall_mem_cons.mp absent
    rw [List.foldl_cons,ih later]
    exact put_other differ

private theorem foldl_put_mem {entries : List (RecordId × StagedWrite)}
    {records : Std.TreeMap RecordId Record} {x : RecordId} {staged : StagedWrite}
    (distinct : entries.Pairwise fun a b => a.1 ≠ b.1) (member : (x, staged) ∈ entries)
    (present : records.contains x = true) :
    (entries.foldl (fun m (id, staged) => put m id staged) records)[x]? =
      some ⟨x, staged.balance, staged.version⟩ := by
  induction entries generalizing records with
  | nil => cases member
  | cons entry rest ih =>
    obtain ⟨differ,distinct⟩ := List.pairwise_cons.mp distinct
    rw [List.foldl_cons]
    rcases List.mem_cons.mp member with rfl | later
    · rw [foldl_put_other fun entry member => Ne.symm (differ entry member)]
      simp [put,present]
    · exact ih distinct later (contains_put present)

theorem view_apply_ok (applied : (s.apply writes).1 = .ok ()) :
    Current s.view writes ∧ (s.apply writes).2.view = overlay s.view writes := by
  unfold apply at applied ⊢
  split at applied
  · cases applied
  · next valid =>
    have current := invalid?_toList.mp valid
    refine ⟨current,funext fun x => ?_⟩
    change (writes.toList.foldl (fun m (id, staged) => put m id staged) s.records)[x]? = _
    have distinct : writes.toList.Pairwise fun a b => a.1 ≠ b.1 :=
      Std.TreeMap.distinct_keys_toList.imp fun differ same => differ (Nat.compare_eq_eq.mpr same)
    unfold overlay
    cases staged_here : writes[x]? with
    | none =>
      refine foldl_put_other fun entry member same => ?_
      obtain ⟨id,staged⟩ := entry
      subst same
      cases staged_here.symm.trans (Std.TreeMap.mem_toList_iff_getElem?_eq_some.mp member)
    | some staged =>
      obtain ⟨r,here,_⟩ := current x staged staged_here
      refine foldl_put_mem distinct (Std.TreeMap.mem_toList_iff_getElem?_eq_some.mpr staged_here) ?_
      change s.records[x]? = some r at here
      rw [Std.TreeMap.contains_eq_isSome_getElem?,here]
      rfl

theorem view_apply_error {e : Error} (failed : (s.apply writes).1 = .error e) :
    (s.apply writes).2.view = s.view := by
  unfold apply at failed ⊢
  split at failed
  · rfl
  · cases failed

theorem apply_eq_of_current (current : Current s.view writes) : (s.apply writes).1 = .ok () := by
  unfold apply
  rw [invalid?_toList.mpr current]

end Store

end VersionedLedger
